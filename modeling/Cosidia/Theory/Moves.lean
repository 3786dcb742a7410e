import Mathlib.Data.List.Basic

/-!
# Systems that make moves

A system that, in each state, can make some moves, one of which is chosen by whoever schedules it. What
is shown about its runs holds whichever moves are chosen: an invariant, and a bound on how many moves
there can be.
-/

namespace Moves

variable {σ μ : Type} {next : σ → μ → Option σ}

/-- Make the moves one after the other. -/
def run (next : σ → μ → Option σ) : List μ → σ → Option σ
  | [], s => some s
  | m :: ms, s => (next s m).bind (run next ms)

theorem run_cons_eq_some {m : μ} {ms : List μ} {s s' : σ} :
    run next (m :: ms) s = some s' ↔ ∃ s₁, next s m = some s₁ ∧ run next ms s₁ = some s' := by
  rw [run, Option.bind_eq_some_iff]

/-- What every move keeps holds after every run. -/
theorem invariant {I : σ → Prop} (hI : ∀ {s m s'}, I s → next s m = some s' → I s') {ms : List μ}
    {s s' : σ} (hs : I s) (h : run next ms s = some s') : I s' := by
  induction ms generalizing s with
  | nil =>
    cases h
    exact hs
  | cons m ms ih =>
    obtain ⟨t, hm, ht⟩ := run_cons_eq_some.1 h
    exact ih (hI hs hm) ht

section

variable {I : σ → Prop} {rank : σ → Nat}
  (hI : ∀ {s m s'}, I s → next s m = some s' → I s' ∧ rank s' < rank s)
include hI

/-- A run makes no more moves than the rank goes down. -/
theorem length_add_rank_le {ms : List μ} {s s' : σ} (hs : I s) (h : run next ms s = some s') :
    ms.length + rank s' ≤ rank s := by
  induction ms generalizing s with
  | nil =>
    cases h
    exact Nat.le_of_eq (Nat.zero_add _)
  | cons m ms ih =>
    obtain ⟨t, hm, ht⟩ := run_cons_eq_some.1 h
    obtain ⟨hinv, hlt⟩ := hI hs hm
    have hle := ih hinv ht
    rw [List.length_cons]
    omega

end

end Moves
