import Cosidia.Theory.Program

/-!
# Sequences of calls

The methods of an object, called in any order by a client that goes on after a call that has failed.
-/

namespace EStateM

variable {ε σ τ γ α : Type}

/-- What the caller gets. -/
def Result.outcome : Result ε σ α → Except ε α
  | .ok a _ => .ok a
  | .error e _ => .error e

@[simp] theorem Result.outcome_ok (a : α) (s : σ) : (Result.ok a s : Result ε σ α).outcome = .ok a :=
  rfl

@[simp] theorem Result.outcome_error (e : ε) (s : σ) :
    (Result.error e s : Result ε σ α).outcome = .error e := rfl

end EStateM

namespace Calls

open EStateM

variable {ε σ τ γ α : Type}

/-- The state that the calls leave. -/
def after (perform : γ → EStateM ε σ α) (s : σ) (calls : List γ) : σ :=
  calls.foldl (fun s call => (perform call s).state) s

/-- Each call with the state that it finds. -/
def found (perform : γ → EStateM ε σ α) : σ → List γ → List (σ × γ)
  | _, [] => []
  | s, call :: calls => (s, call) :: found perform (perform call s).state calls

def outcomes (perform : γ → EStateM ε σ α) (s : σ) (calls : List γ) : List (Except ε α) :=
  (found perform s calls).map fun e => (perform e.2 e.1).outcome

variable {perform : γ → EStateM ε σ α} {s : σ} {calls : List γ}

/-- What holds initially and is preserved by the calls holds before and after each of them. -/
theorem invariant (perform : γ → EStateM ε σ α) (calls : List γ) {I : σ → Prop} (h0 : I s)
    (h1 : ∀ call ∈ calls, ∀ s, I s → I (perform call s).state) :
    (∀ e ∈ found perform s calls, I e.1) ∧ I (after perform s calls) := by
  induction calls generalizing s with
  | nil => exact ⟨List.forall_mem_nil _, h0⟩
  | cons call calls ih =>
    obtain ⟨hcall, hcalls⟩ := List.forall_mem_cons.1 h1
    obtain ⟨hfound, hafter⟩ := ih (hcall s h0) hcalls
    exact ⟨List.forall_mem_cons.2 ⟨h0, hfound⟩, hafter⟩

/-- Two objects whose states stay related, and whose calls have the same outcomes in related states,
cannot be told apart by calls. -/
theorem simulated {perform' : γ → EStateM ε τ α} {R : σ → τ → Prop} {t : τ} (h0 : R s t)
    (h1 : ∀ call ∈ calls, ∀ s t, R s t →
      (perform call s).outcome = (perform' call t).outcome ∧
        R (perform call s).state (perform' call t).state) :
    outcomes perform s calls = outcomes perform' t calls ∧
      R (after perform s calls) (after perform' t calls) := by
  induction calls generalizing s t with
  | nil => exact ⟨rfl, h0⟩
  | cons call calls ih =>
    obtain ⟨hcall, hcalls⟩ := List.forall_mem_cons.1 h1
    obtain ⟨hout, hstate⟩ := hcall s t h0
    obtain ⟨houts, hafter⟩ := ih hstate hcalls
    refine ⟨?_, hafter⟩
    simp only [outcomes, found, List.map_cons, List.cons.injEq]
    exact ⟨hout, houts⟩

end Calls
