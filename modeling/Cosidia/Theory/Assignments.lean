import Mathlib.Data.List.Basic

/-!
# Assignments

A store is told the values of its keys, one after the other. What it says about a key afterwards is
what it has been told last, or what it said before if it has been told nothing.
-/

namespace Assignments

variable {σ τ π κ ν ι : Type} [DecidableEq π] [DecidableEq κ]

/-- The last value that is assigned to a key. -/
def last? (ws : List (κ × ν)) (k : κ) : Option ν :=
  (ws.reverse.find? fun w => w.1 = k).map Prod.snd

theorem last?_append (ws ws' : List (κ × ν)) (k : κ) :
    last? (ws ++ ws') k = (last? ws' k).or (last? ws k) := by
  rw [last?, List.reverse_append, List.find?_append, Option.map_or, last?, last?]

theorem last?_singleton (k k' : κ) (x : ν) : last? [(k, x)] k' = if k = k' then some x else none := by
  by_cases h : k = k'
  · simp [last?, h]
  · simp [last?, h]

/-- Keys that are renamed. -/
theorem last?_map {f : κ → π} (hf : Function.Injective f) (ws : List (κ × ν)) (k : κ) :
    last? (ws.map fun w => (f w.1, w.2)) (f k) = last? ws k := by
  have hkey : ((fun w : π × ν => decide (w.1 = f k)) ∘ fun w : κ × ν => (f w.1, w.2)) =
      fun w => decide (w.1 = k) :=
    funext fun _ => decide_eq_decide.2 hf.eq_iff
  rw [last?, ← List.map_reverse, List.find?_map, hkey, Option.map_map, last?]
  rfl

theorem last?_eq_none {ws : List (κ × ν)} {k : κ} (h : ∀ w ∈ ws, w.1 ≠ k) : last? ws k = none := by
  rw [last?, List.find?_eq_none.2, Option.map_none]
  intro w hw
  simpa using h w (List.mem_reverse.1 hw)

/-- What `read` sees of a change are the assignments. -/
def Assigns (read : σ → κ → Option ν) (s s' : σ) (ws : List (κ × ν)) : Prop :=
  ∀ k, read s' k = (last? ws k).or (read s k)

namespace Assigns

variable {read : σ → κ → Option ν} {s s' s'' : σ} {ws ws' : List (κ × ν)}

theorem refl (s : σ) : Assigns read s s [] := fun _ => rfl

theorem trans (h : Assigns read s s' ws) (h' : Assigns read s' s'' ws') :
    Assigns read s s'' (ws ++ ws') := by
  intro k
  rw [h' k, h k, last?_append, Option.or_assoc]

/-- Actions one after the other. -/
theorem foldl {act : σ → ι → σ} {told : ι → List (κ × ν)}
    (h : ∀ s i, Assigns read s (act s i) (told i)) (is : List ι) (s : σ) :
    Assigns read s (is.foldl act s) (is.flatMap told) := by
  induction is generalizing s with
  | nil => exact refl s
  | cons i is ih => exact (h s i).trans (ih (act s i))

/-- A change of one part of a store. -/
theorem part {t t' : τ} {view : τ → π → σ} {p : π} (h : Assigns read (view t p) (view t' p) ws)
    (hother : ∀ q, q ≠ p → view t' q = view t q) :
    Assigns (fun t (k : π × κ) => read (view t k.1) k.2) t t' (ws.map fun w => ((p, w.1), w.2)) := by
  rintro ⟨q, k⟩
  dsimp only
  by_cases hq : q = p
  · obtain rfl := hq
    have hinj : Function.Injective fun k : κ => (q, k) := fun _ _ h => (Prod.mk.inj h).2
    rw [h k]
    exact congrArg (Option.or · _) (last?_map hinj ws k).symm
  · have hnone : last? (ws.map fun w => ((p, w.1), w.2)) (q, k) = none := by
      apply last?_eq_none
      intro w hw he
      obtain ⟨w', -, rfl⟩ := List.mem_map.1 hw
      exact hq (Prod.mk.inj he).1.symm
    rw [hother q hq, hnone, Option.none_or]

end Assigns

end Assignments
