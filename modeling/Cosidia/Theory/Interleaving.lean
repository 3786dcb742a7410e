import Mathlib.Data.List.Basic
import Mathlib.Data.List.Infix
import Mathlib.Logic.Function.Iterate

/-!
# Interleavings

A system whose main thread makes steps, with arguments that may differ, while jobs are done in the
background. If a map of its states hides the jobs and the arguments, so that a step of the main thread
becomes the step of a deterministic system, all interleavings are runs of that system.
-/

/-- What happens next. -/
inductive Interleaving.Move (δ β : Type) where
  | main (arg : δ)
  | job (b : β)

namespace Interleaving

variable {σ τ δ β ο : Type}

/-- The number of steps of the main thread. -/
def mains : List (Move δ β) → Nat
  | [] => 0
  | .main _ :: moves => mains moves + 1
  | .job _ :: moves => mains moves

section
variable (main : δ → σ → σ) (job : β → σ → σ)

/-- Make one move. -/
def next : Move δ β → σ → σ
  | .main d, s => main d s
  | .job b, s => job b s

/-- Make the moves one after the other. -/
def run (moves : List (Move δ β)) (s : σ) : σ := moves.foldl (fun s m => next main job m s) s

/-- What the steps of the main thread show; `see` tells it from the states before and after. -/
def shown (see : σ → σ → Option ο) : List (Move δ β) → σ → List ο
  | [], _ => []
  | .main d :: moves, s => (see s (main d s)).toList ++ shown see moves (main d s)
  | .job b :: moves, s => shown see moves (job b s)

/-- The map `f` hides the jobs and the arguments; `step` is what it shows of the main thread. -/
structure Hides (I : σ → Prop) (f : σ → τ) (step : τ → τ) : Prop where
  main_inv : ∀ d s, I s → I (main d s)
  job_inv : ∀ b s, I s → I (job b s)
  main_eq : ∀ d s, I s → f (main d s) = step (f s)
  job_eq : ∀ b s, I s → f (job b s) = f s

end

/-- What the first `n` steps of the deterministic system show. -/
def shownAlone (step : τ → τ) (see : τ → τ → Option ο) : Nat → τ → List ο
  | 0, _ => []
  | n + 1, t => (see t (step t)).toList ++ shownAlone step see n (step t)

theorem shownAlone_prefix {step : τ → τ} {see : τ → τ → Option ο} {m n : Nat} (h : m ≤ n) (t : τ) :
    shownAlone step see m t <+: shownAlone step see n t := by
  induction m generalizing n t with
  | zero => exact List.nil_prefix
  | succ m ih =>
    obtain ⟨n, rfl⟩ := Nat.exists_eq_succ_of_ne_zero (Nat.ne_of_gt (Nat.lt_of_lt_of_le m.succ_pos h))
    exact (List.prefix_append_right_inj _).2 (ih (Nat.le_of_succ_le_succ h) _)

namespace Hides

variable {main : δ → σ → σ} {job : β → σ → σ} {I : σ → Prop} {f : σ → τ} {step : τ → τ}
  (h : Hides main job I f step)
include h

theorem next_inv (m : Move δ β) {s : σ} (hs : I s) : I (next main job m s) := by
  cases m with
  | main d => exact h.main_inv d s hs
  | job b => exact h.job_inv b s hs

theorem run_inv (moves : List (Move δ β)) {s : σ} (hs : I s) : I (run main job moves s) := by
  induction moves generalizing s with
  | nil => exact hs
  | cons m moves ih => exact ih (h.next_inv m hs)

/-- Every interleaving is hidden as a run of the deterministic system. -/
theorem run_eq (moves : List (Move δ β)) {s : σ} (hs : I s) :
    f (run main job moves s) = step^[mains moves] (f s) := by
  induction moves generalizing s with
  | nil => rfl
  | cons m moves ih =>
    apply (ih (h.next_inv m hs)).trans
    cases m with
    | main d => exact congrArg (step^[mains moves]) (h.main_eq d s hs)
    | job b => exact congrArg (step^[mains moves]) (h.job_eq b s hs)

/-- What is shown is what the deterministic system shows. -/
theorem shown_eq {see : σ → σ → Option ο} {see' : τ → τ → Option ο}
    (hsee : ∀ d s, I s → see s (main d s) = see' (f s) (step (f s))) (moves : List (Move δ β)) {s : σ}
    (hs : I s) : shown main job see moves s = shownAlone step see' (mains moves) (f s) := by
  induction moves generalizing s with
  | nil => rfl
  | cons m moves ih =>
    cases m with
    | main d =>
      rw [shown, ih (h.main_inv d s hs), hsee d s hs, h.main_eq d s hs]
      rfl
    | job b =>
      rw [shown, ih (h.job_inv b s hs), h.job_eq b s hs]
      rfl

/-- Of two interleavings the one with fewer steps of the main thread shows a prefix of what the other
shows. -/
theorem shown_prefix {see : σ → σ → Option ο} {see' : τ → τ → Option ο}
    (hsee : ∀ d s, I s → see s (main d s) = see' (f s) (step (f s))) {moves moves' : List (Move δ β)}
    (hmoves : mains moves ≤ mains moves') {s : σ} (hs : I s) :
    shown main job see moves s <+: shown main job see moves' s := by
  rw [h.shown_eq hsee moves hs, h.shown_eq hsee moves' hs]
  exact shownAlone_prefix hmoves (f s)

end Hides

end Interleaving
