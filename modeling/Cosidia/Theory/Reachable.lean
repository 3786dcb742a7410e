import Mathlib.Logic.Relation

/-!
# Reachable states

The states a transition system reaches from its initial states, and the invariant rule. A trail is a
run together with the moves that have been made, for properties that only some moves keep.
-/

/-- The states reached from `init` by steps of `step`. -/
inductive Reachable {σ : Type} (init : σ → Prop) (step : σ → σ → Prop) : σ → Prop
  | init {s : σ} : init s → Reachable init step s
  | step {s s' : σ} : Reachable init step s → step s s' → Reachable init step s'

namespace Reachable

variable {σ τ : Type} {init : σ → Prop} {step : σ → σ → Prop}

/-- What holds initially and is preserved by the steps from reachable states holds always. -/
theorem invariant {I : σ → Prop} (h0 : ∀ s, init s → I s)
    (h1 : ∀ s s', Reachable init step s → I s → step s s' → I s')
    {s : σ} (h : Reachable init step s) : I s := by
  induction h with
  | init h => exact h0 _ h
  | step hr hs ih => exact h1 _ _ hr ih hs

theorem trans {s s' : σ} (h : Reachable init step s) (hs : Relation.ReflTransGen step s s') :
    Reachable init step s' := by
  induction hs with
  | refl => exact h
  | tail _ hs ih => exact ih.step hs

/-- A list worked off by a function that makes one step for each element. -/
theorem foldl {α : Type} {f : σ → α → σ} (hf : ∀ s a, step s (f s a)) (as : List α) {s : σ}
    (h : Reachable init step s) : Reachable init step (as.foldl f s) := by
  induction as generalizing s with
  | nil => exact h
  | cons a as ih => exact ih (h.step (hf s a))

/-- A system whose steps are matched by (several) steps of another reaches only what that reaches. -/
theorem simulated {init' : τ → Prop} {step' : τ → τ → Prop} {f : σ → τ}
    (h0 : ∀ s, init s → init' (f s))
    (h1 : ∀ s s', step s s' → Relation.ReflTransGen step' (f s) (f s'))
    {s : σ} (h : Reachable init step s) : Reachable init' step' (f s) := by
  induction h with
  | init h => exact .init (h0 _ h)
  | step _ hs ih => exact ih.trans (h1 _ _ hs)

end Reachable

/-- A run from `s₀` to the last state; every move is noted with the state in which it was made. -/
inductive Trail {σ μ : Type} (step : σ → μ → σ → Prop) (s₀ : σ) : List (σ × μ) → σ → Prop
  | nil : Trail step s₀ [] s₀
  | snoc {t : List (σ × μ)} {s s' : σ} {m : μ} :
    Trail step s₀ t s → step s m s' → Trail step s₀ (t ++ [(s, m)]) s'

namespace Trail

variable {σ μ : Type} {step : σ → μ → σ → Prop} {s₀ s s' : σ} {t t' : List (σ × μ)}

theorem append (h : Trail step s₀ t s) (h' : Trail step s t' s') : Trail step s₀ (t ++ t') s' := by
  induction h' with
  | nil => rwa [List.append_nil]
  | snoc _ hs ih =>
    rw [← List.append_assoc]
    exact ih.snoc hs

/-- What holds initially and is preserved by the moves holds in all states of the trail. -/
theorem invariant {I : σ → Prop} (h0 : I s₀) (h1 : ∀ {s m s'}, I s → step s m s' → I s')
    (h : Trail step s₀ t s) : (∀ e ∈ t, I e.1) ∧ I s := by
  induction h with
  | nil => exact ⟨nofun, h0⟩
  | snoc _ hs ih =>
    refine ⟨fun e he => ?_, h1 ih.2 hs⟩
    rcases List.mem_append.1 he with he | he
    · exact ih.1 e he
    · obtain rfl := List.mem_singleton.1 he
      exact ih.2

/-- If a property is kept by exactly the moves that meet a condition, it holds in all states of a
trail exactly if all its moves meet the condition. -/
theorem forall_iff {I P : σ → Prop} {C : σ → μ → Prop} (hI0 : I s₀) (hP0 : P s₀)
    (hI : ∀ {s m s'}, I s → step s m s' → I s')
    (hC : ∀ {s m s'}, I s → P s → step s m s' → (P s' ↔ C s m)) (h : Trail step s₀ t s) :
    ((∀ e ∈ t, P e.1) ∧ P s) ↔ ∀ e ∈ t, C e.1 e.2 := by
  induction h with
  | nil => exact iff_of_true ⟨nofun, hP0⟩ nofun
  | @snoc t s s' m h hs ih =>
    have hi := (h.invariant hI0 hI).2
    simp only [List.forall_mem_append, List.forall_mem_singleton]
    constructor
    · rintro ⟨⟨hall, hp⟩, hp'⟩
      exact ⟨ih.1 ⟨hall, hp⟩, (hC hi hp hs).1 hp'⟩
    · rintro ⟨hall, hm⟩
      have hp := ih.2 hall
      exact ⟨hp, (hC hi hp.2 hs).2 hm⟩

/-- Make the moves of a list, if each of them can be made. -/
def replay (next : σ → μ → Option σ) : σ → List μ → Option (List (σ × μ) × σ)
  | s, [] => some ([], s)
  | s, m :: ms =>
    match next s m with
    | none => none
    | some s' => (replay next s' ms).map fun r => ((s, m) :: r.1, r.2)

theorem of_replay {next : σ → μ → Option σ} (hnext : ∀ {s m s'}, next s m = some s' → step s m s')
    {ms : List μ} (h : replay next s ms = some (t, s')) : Trail step s t s' := by
  induction ms generalizing s t with
  | nil =>
    cases h
    exact .nil
  | cons m ms ih =>
    rw [replay] at h
    cases hm : next s m with
    | none =>
      rw [hm] at h
      cases h
    | some s₁ =>
      rw [hm] at h
      obtain ⟨⟨t', s₂⟩, hr, he⟩ := Option.map_eq_some_iff.1 h
      cases he
      exact (Trail.snoc .nil (hnext hm)).append (ih hr)

end Trail
