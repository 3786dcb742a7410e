import Mathlib.Data.List.Forall2
import Mathlib.Logic.Relation

/-!
# Programs on a state that may throw

`EStateM ε σ α` keeps the state in which a program throws, so a half-done change stays visible.
This file has the equations and inversions used to run such programs symbolically (`bind_eq_ok`,
`bind_eq_error`), postconditions for both outcomes of a run (`Post`), the programs *composed* of
given primitives (`Composed`), and the rule that a composed program moves along whatever reflexive
and transitive relation its primitives move along.
-/

namespace EStateM

variable {ε σ τ α β : Type}

/-- The state a run ends in, whether it returned or threw. -/
def Result.state : Result ε σ α → σ
  | .ok _ s | .error _ s => s

@[simp] theorem Result.state_ok (a : α) (s : σ) : (Result.ok a s : Result ε σ α).state = s := rfl

@[simp] theorem Result.state_error (e : ε) (s : σ) :
    (Result.error e s : Result ε σ α).state = s := rfl

/-- What the run has returned. -/
def Result.value? : Result ε σ α → Option α
  | .ok a _ => some a
  | .error .. => none

/-- What has been thrown, if something has. -/
def Result.error? : Result ε σ α → Option ε
  | .ok _ _ => none
  | .error e _ => some e

theorem Result.eq_ok {r : Result ε σ α} {a : α} (h : r.value? = some a) : r = .ok a r.state := by
  cases r with
  | ok b s => exact congrArg (Result.ok · s) (Option.some.inj h)
  | error e s => cases h

/-- Whether a run has returned something that passes a test. -/
def Result.check (r : Result ε σ α) (P : α → σ → Bool) : Bool :=
  match r with
  | .ok a s => P a s
  | .error _ _ => false

theorem Result.exists_of_check {r : Result ε σ α} {P : α → σ → Bool} (h : r.check P = true) :
    ∃ a s, r = .ok a s ∧ P a s = true := by
  cases r with
  | ok a s => exact ⟨a, s, rfl, h⟩
  | error e s => cases h

/-! ## Equations -/

theorem pure_apply (a : α) (s : σ) : (pure a : EStateM ε σ α) s = .ok a s := rfl

theorem bind_apply (x : EStateM ε σ α) (f : α → EStateM ε σ β) (s : σ) :
    (x >>= f) s = match x s with
      | .ok a s => f a s
      | .error e s => .error e s := rfl

theorem get_apply (s : σ) : (get : EStateM ε σ σ) s = .ok s s := rfl

theorem set_apply (s' s : σ) : (set s' : EStateM ε σ PUnit) s = .ok ⟨⟩ s' := rfl

theorem modify_apply (f : σ → σ) (s : σ) : (modify f : EStateM ε σ PUnit) s = .ok ⟨⟩ (f s) := rfl

theorem throw_apply (e : ε) (s : σ) : (throw e : EStateM ε σ α) s = .error e s := rfl

theorem tryCatch_apply (x : EStateM ε σ α) (h : ε → EStateM ε σ α) (s : σ) :
    (tryCatch x h : EStateM ε σ α) s = match x s with
      | .ok a s => .ok a s
      | .error e s => h e s := by
  change EStateM.tryCatch x h s = _
  simp only [EStateM.tryCatch]
  cases x s <;> rfl

/-! ## Inversions -/

theorem bind_eq_ok {x : EStateM ε σ α} {f : α → EStateM ε σ β} {s s' : σ} {b : β} :
    (x >>= f) s = .ok b s' ↔ ∃ a s₁, x s = .ok a s₁ ∧ f a s₁ = .ok b s' := by
  rw [bind_apply]
  cases x s <;> simp [and_assoc]

theorem bind_eq_error {x : EStateM ε σ α} {f : α → EStateM ε σ β} {s s' : σ} {e : ε} :
    (x >>= f) s = .error e s' ↔
      x s = .error e s' ∨ ∃ a s₁, x s = .ok a s₁ ∧ f a s₁ = .error e s' := by
  rw [bind_apply]
  cases x s <;> simp [and_assoc]

theorem pure_eq_ok {a b : α} {s s' : σ} :
    (pure a : EStateM ε σ α) s = .ok b s' ↔ a = b ∧ s = s' := by
  rw [pure_apply, Result.ok.injEq]

theorem get_eq_ok {s s' t : σ} : (get : EStateM ε σ σ) s = .ok t s' ↔ s = t ∧ s = s' := by
  rw [get_apply, Result.ok.injEq]

theorem modify_eq_ok {f : σ → σ} {s s' : σ} {u : PUnit} :
    (modify f : EStateM ε σ PUnit) s = .ok u s' ↔ f s = s' := by
  rw [modify_apply, Result.ok.injEq]; simp

/-- Every element of the first of two related lists is related to one of the second. -/
theorem exists_of_mem_left {γ : Type} {R : γ → α → Prop} {l : List γ} {as : List α}
    (h : List.Forall₂ R l as) : ∀ c ∈ l, ∃ a ∈ as, R c a := by
  induction h with
  | nil => exact nofun
  | cons h _ ih =>
    refine List.forall_mem_cons.2 ⟨⟨_, List.mem_cons_self .., h⟩, fun c hc => ?_⟩
    exact (ih c hc).imp fun a ha => ⟨List.mem_cons_of_mem _ ha.1, ha.2⟩

/-- If every element of a list is related to something, the list is related to a list. -/
theorem exists_forall₂ {γ : Type} {R : γ → α → Prop} {l : List γ} (h : ∀ c ∈ l, ∃ a, R c a) :
    ∃ as, List.Forall₂ R l as := by
  induction l with
  | nil => exact ⟨[], .nil⟩
  | cons c l ih =>
    obtain ⟨⟨a, ha⟩, hl⟩ := List.forall_mem_cons.1 h
    obtain ⟨as, has⟩ := ih hl
    exact ⟨a :: as, .cons ha has⟩

/-- Related lists have as many elements that pass tests that agree on related elements. -/
theorem countP_eq_of_forall₂ {γ : Type} {R : γ → α → Prop} {P : γ → Bool} {Q : α → Bool}
    (hR : ∀ c a, R c a → P c = Q a) {l : List γ} {l' : List α} (h : List.Forall₂ R l l') :
    l.countP P = l'.countP Q := by
  induction h with
  | nil => rfl
  | cons hab _ ih => rw [List.countP_cons, List.countP_cons, ih, hR _ _ hab]

/-- A list of programs each of which leaves the state alone. -/
theorem mapM_eq_ok {γ : Type} {f : γ → EStateM ε σ α} {l : List γ} {s s' : σ} {as : List α}
    (hf : ∀ c ∈ l, ∀ a t, f c s = .ok a t → t = s) :
    l.mapM f s = .ok as s' ↔ s' = s ∧ List.Forall₂ (fun c a => f c s = .ok a s) l as := by
  induction l generalizing as s' with
  | nil =>
    rw [List.mapM_nil, pure_eq_ok, List.forall₂_nil_left_iff, and_comm, eq_comm,
      @eq_comm _ as []]
  | cons c l ih =>
    have ih : ∀ (bs : List α) (t : σ), l.mapM f s = .ok bs t ↔
        t = s ∧ List.Forall₂ (fun c a => f c s = .ok a s) l bs :=
      fun _ _ => ih fun d hd => hf d (List.mem_cons_of_mem _ hd)
    rw [List.mapM_cons, List.forall₂_cons_left_iff]
    constructor
    · intro h
      obtain ⟨a, t, ha, hrest⟩ := bind_eq_ok.1 h
      have heq := hf c (List.mem_cons_self ..) a t ha
      rw [heq] at ha hrest
      obtain ⟨bs, u, hbs, hpure⟩ := bind_eq_ok.1 hrest
      obtain ⟨rfl, rfl⟩ := pure_eq_ok.1 hpure
      obtain ⟨rfl, hbs⟩ := (ih bs u).1 hbs
      exact ⟨rfl, a, bs, ha, hbs, rfl⟩
    · rintro ⟨rfl, a, bs, ha, hbs, rfl⟩
      exact bind_eq_ok.2 ⟨a, s', ha, bind_eq_ok.2 ⟨bs, s', (ih bs s').2 ⟨rfl, hbs⟩, rfl⟩⟩

/-! ## Postconditions -/

/-- The run of `x` from `s` returns into `Q` or throws into `E`. -/
def Post (x : EStateM ε σ α) (s : σ) (Q : α → σ → Prop) (E : ε → σ → Prop) : Prop :=
  match x s with
  | .ok a s' => Q a s'
  | .error e s' => E e s'

/-- If the run of `x` from `s` returns, then into `Q`. -/
abbrev Returns (x : EStateM ε σ α) (s : σ) (Q : α → σ → Prop) : Prop := Post x s Q fun _ _ => True

section Post
variable {x : EStateM ε σ α} {f : α → EStateM ε σ β} {s : σ}
variable {Q Q' : α → σ → Prop} {R : β → σ → Prop} {E E' : ε → σ → Prop}

theorem post_iff : Post x s Q E ↔
    (∀ a s', x s = .ok a s' → Q a s') ∧ ∀ e s', x s = .error e s' → E e s' := by
  simp only [Post]
  cases x s <;> simp

theorem Post.ok (h : Post x s Q E) {a : α} {s' : σ} (hx : x s = .ok a s') : Q a s' :=
  (post_iff.1 h).1 a s' hx

theorem Post.error (h : Post x s Q E) {e : ε} {s' : σ} (hx : x s = .error e s') : E e s' :=
  (post_iff.1 h).2 e s' hx

theorem Post.mono (h : Post x s Q E) (hQ : ∀ a s', Q a s' → Q' a s')
    (hE : ∀ e s', E e s' → E' e s') : Post x s Q' E' :=
  post_iff.2 ⟨fun _ _ hx => hQ _ _ (h.ok hx), fun _ _ hx => hE _ _ (h.error hx)⟩

theorem Post.and (h : Post x s Q E) (h' : Post x s Q' E') :
    Post x s (fun a s => Q a s ∧ Q' a s) (fun e s => E e s ∧ E' e s) :=
  post_iff.2 ⟨fun _ _ hx => ⟨h.ok hx, h'.ok hx⟩, fun _ _ hx => ⟨h.error hx, h'.error hx⟩⟩

/-- What holds whenever the run returns may be added. -/
theorem Post.and_returns (h : Post x s Q E) (h' : Returns x s Q') :
    Post x s (fun a s => Q a s ∧ Q' a s) E :=
  Post.mono (h.and h') (fun _ _ h => h) fun _ _ h => h.1

/-- What holds where the run ends holds of both outcomes. -/
theorem post_of_state {I : σ → Prop} (h : I (x s).state) : Post x s (fun _ => I) (fun _ => I) := by
  simp only [Post]
  cases hx : x s <;> rw [hx] at h <;> exact h

theorem Post.state {I : σ → Prop} (h : Post x s (fun _ => I) (fun _ => I)) : I (x s).state := by
  simp only [Post] at h
  cases hx : x s <;> rw [hx] at h <;> exact h

theorem post_pure {a : α} (h : Q a s) : Post (pure a) s Q E := h

theorem post_get {Q : σ → σ → Prop} (h : Q s s) : Post get s Q E := h

theorem post_modify {f : σ → σ} {Q : PUnit → σ → Prop} (h : Q ⟨⟩ (f s)) : Post (modify f) s Q E := h

/-- Sequencing: the first program establishes what the rest starts from. -/
theorem Post.bind {M : α → σ → Prop} (hx : Post x s M E) (hf : ∀ a s', M a s' → Post (f a) s' R E) :
    Post (x >>= f) s R E := by
  simp only [Post]
  rw [bind_apply]
  cases h : x s with
  | ok a s' => exact hf a s' (hx.ok h)
  | error e s' => exact hx.error h

/-- Two programs run alike if their first parts do and their rests do wherever these lead. -/
theorem Post.bind_congr {x' : EStateM ε σ α} {f' : α → EStateM ε σ β} (hx : Post x s Q E)
    (h : x' s = x s) (hf : ∀ a s', Q a s' → f' a s' = f a s') : (x' >>= f') s = (x >>= f) s := by
  rw [bind_apply, bind_apply, h]
  cases hr : x s with
  | ok a s' => exact hf a s' (hx.ok hr)
  | error e s' => rfl

/-- Catching: what was established before an exception is what the handler starts from. -/
theorem Post.tryCatch {h : ε → EStateM ε σ α} (hx : Post x s Q E)
    (hh : ∀ e s', E e s' → Post (h e) s' Q E') : Post (tryCatch x h) s Q E' := by
  simp only [Post]
  rw [tryCatch_apply]
  cases hr : x s with
  | ok a s' => exact hx.ok hr
  | error e s' => exact hh e s' (hx.error hr)

/-- Sequencing after a program whose run is known. -/
theorem post_bind_of_ok {a : α} {s' : σ} (hx : x s = .ok a s') :
    Post (x >>= f) s R E ↔ Post (f a) s' R E := by
  simp only [Post]
  rw [bind_apply, hx]

end Post

/-! ## Running a program on a component of the state -/

/-- Run `x` on the component of the state that `view` reads and `put` writes. -/
def zoom (view : τ → σ) (put : σ → τ → τ) (x : EStateM ε σ α) : EStateM ε τ α := fun t =>
  match x (view t) with
  | .ok a s => .ok a (put s t)
  | .error e s => .error e (put s t)

theorem zoom_state (view : τ → σ) (put : σ → τ → τ) (x : EStateM ε σ α) (t : τ) :
    (zoom view put x t).state = put (x (view t)).state t := by
  simp only [zoom]
  cases x (view t) <;> rfl

theorem zoom_eq_ok {view : τ → σ} {put : σ → τ → τ} {x : EStateM ε σ α} {t t' : τ} {a : α} :
    zoom view put x t = .ok a t' ↔ ∃ s, x (view t) = .ok a s ∧ put s t = t' := by
  simp only [zoom]
  cases x (view t) <;> simp [and_assoc]

theorem zoom_eq_error {view : τ → σ} {put : σ → τ → τ} {x : EStateM ε σ α} {t t' : τ} {e : ε} :
    zoom view put x t = .error e t' ↔ ∃ s, x (view t) = .error e s ∧ put s t = t' := by
  simp only [zoom]
  cases x (view t) <;> simp [and_assoc]

theorem post_zoom {view : τ → σ} {put : σ → τ → τ} {x : EStateM ε σ α} {t : τ}
    {Q : α → τ → Prop} {E : ε → τ → Prop}
    (h : Post x (view t) (fun a s => Q a (put s t)) fun e s => E e (put s t)) :
    Post (zoom view put x) t Q E := by
  unfold Post zoom
  cases hx : x (view t) with
  | ok a s => exact h.ok hx
  | error e s => exact h.error hx

/-! ## Programs composed of primitives -/

/-- The programs composed of the primitives `P`: primitives in sequence, each chosen by what the
ones before returned and by the state, with exceptions thrown and caught anywhere. -/
inductive Composed (P : {α : Type} → EStateM ε σ α → Prop) : {α : Type} → EStateM ε σ α → Prop
  | prim {α : Type} {x : EStateM ε σ α} : P x → Composed P x
  | pure {α : Type} (a : α) : Composed P (Pure.pure a)
  | get : Composed P MonadState.get
  | throw {α : Type} (e : ε) : Composed P (MonadExcept.throw e : EStateM ε σ α)
  | bind {α β : Type} {x : EStateM ε σ α} {f : α → EStateM ε σ β} :
      Composed P x → (∀ a, Composed P (f a)) → Composed P (x >>= f)
  | tryCatch {α : Type} {x : EStateM ε σ α} {h : ε → EStateM ε σ α} :
      Composed P x → (∀ e, Composed P (h e)) → Composed P (MonadExcept.tryCatch x h)

variable {P : {α : Type} → EStateM ε σ α → Prop}

/-- A composed program moves along every reflexive and transitive relation its primitives move
along, also when it throws. -/
theorem Composed.related {R : σ → σ → Prop} (hrefl : ∀ s, R s s)
    (htrans : ∀ {s t u}, R s t → R t u → R s u)
    (hP : ∀ {α : Type} {x : EStateM ε σ α}, P x → ∀ s, R s (x s).state)
    {x : EStateM ε σ α} (h : Composed P x) (s : σ) : R s (x s).state := by
  induction h generalizing s with
  | prim h => exact hP h s
  | pure _ | get | throw _ => exact hrefl s
  | @bind _ _ x f _ _ ihx ihf =>
    have h1 := ihx s
    rw [bind_apply]
    cases hx : x s with
    | ok a s₁ => rw [hx] at h1; exact htrans h1 (ihf a s₁)
    | error e s₁ => rw [hx] at h1; exact h1
  | @tryCatch _ x h _ _ ihx ihh =>
    have h1 := ihx s
    rw [tryCatch_apply]
    cases hx : x s with
    | ok a s₁ => rw [hx] at h1; exact h1
    | error e s₁ => rw [hx] at h1; exact htrans h1 (ihh e s₁)

theorem Composed.forM {γ : Type} {f : γ → EStateM ε σ PUnit} {l : List γ}
    (h : ∀ a ∈ l, Composed P (f a)) : Composed P (l.forM f) := by
  induction l with
  | nil => exact .pure _
  | cons a l ih =>
    exact .bind (h a (List.mem_cons_self ..)) fun _ => ih fun b hb => h b (List.mem_cons_of_mem _ hb)

theorem Composed.mapM {γ α : Type} {f : γ → EStateM ε σ α} {l : List γ}
    (h : ∀ a ∈ l, Composed P (f a)) : Composed P (l.mapM f) := by
  induction l with
  | nil =>
    rw [List.mapM_nil]
    exact .pure _
  | cons a l ih =>
    rw [List.mapM_cons]
    exact .bind (h a (List.mem_cons_self ..)) fun _ =>
      .bind (ih fun b hb => h b (List.mem_cons_of_mem _ hb)) fun _ => .pure _

/-- A program composed of programs that are composed of `Q` is composed of `Q`. -/
theorem Composed.refine {Q : {α : Type} → EStateM ε σ α → Prop}
    (hP : ∀ {α : Type} {x : EStateM ε σ α}, P x → Composed Q x)
    {x : EStateM ε σ α} (h : Composed P x) : Composed Q x := by
  induction h with
  | prim h => exact hP h
  | pure a => exact .pure a
  | get => exact .get
  | throw e => exact .throw e
  | bind _ _ ihx ihf => exact .bind ihx ihf
  | tryCatch _ _ ihx ihh => exact .tryCatch ihx ihh

/-- What every primitive preserves, returning or throwing, a composed program preserves. -/
theorem Composed.preserves {I : σ → Prop}
    (hP : ∀ {α : Type} {x : EStateM ε σ α}, P x → ∀ s, I s → I (x s).state)
    {x : EStateM ε σ α} (h : Composed P x) {s : σ} (hs : I s) : I (x s).state :=
  h.related (R := fun s t => I s → I t) (fun _ h => h) (fun h1 h2 h => h2 (h1 h)) hP s hs

/-- Every state a composed program passes through is reached by steps of its primitives. -/
theorem Composed.reaches {R : σ → σ → Prop}
    (hP : ∀ {α : Type} {x : EStateM ε σ α}, P x → ∀ s, Relation.ReflTransGen R s (x s).state)
    {x : EStateM ε σ α} (h : Composed P x) (s : σ) : Relation.ReflTransGen R s (x s).state :=
  h.related (fun _ => .refl) (fun h1 h2 => h1.trans h2) hP s

end EStateM
