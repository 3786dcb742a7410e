import Cosidia.Objects.BaseObject
import Cosidia.Theory.Calls

/-!
# First in, first out

The actions an `ObjectActionManager` has started, followed by those still waiting, are the actions
submitted to it: `queue_append` is this equation for a whole sequence of calls, `perform_fifo` for one
of them.
-/

namespace Cosidia

open EStateM

inductive ActionManagerCall where
  | startOrDelay (action : ActionPtr)
  | endAndCheckAvailable
  | endManually
  | fetchNextAction
  | activateNextAvailableAction

inductive ActionManagerReply where
  | done
  | flag (b : Bool)
  | action (a : ActionPtr)

namespace ObjectActionManager

def perform : ActionManagerCall → EStateM Failure ObjectActionManager ActionManagerReply
  | .startOrDelay a => do return .flag (← startOrDelay a)
  | .endAndCheckAvailable => do return .flag (← endAndCheckAvailable)
  | .endManually => do
    endManually
    return .done
  | .fetchNextAction => do return .action (← fetchNextAction)
  | .activateNextAvailableAction => do return .action (← activateNextAvailableAction)

/-- The action that a call submits. -/
def submitted (e : ObjectActionManager × ActionManagerCall) : Option ActionPtr :=
  match e.2 with
  | .startOrDelay a => some a
  | _ => none

/-- The action that a call starts: it is accepted at once or activated. -/
def started (e : ObjectActionManager × ActionManagerCall) : Option ActionPtr :=
  match e.2, (perform e.2 e.1).outcome with
  | .startOrDelay a, .ok (.flag false) => some a
  | .activateNextAvailableAction, .ok (.action a) => some a
  | _, _ => none

/-! ## One call -/

variable (m : ObjectActionManager)

/-- The waiting actions with the submitted one at the end are the started one with those waiting
then. -/
theorem perform_fifo (call : ActionManagerCall) :
    m.mDelayedQueue ++ (submitted (m, call)).toList =
      (started (m, call)).toList ++ (perform call m).state.mDelayedQueue := by
  obtain ⟨active, queue⟩ := m
  cases call with
  | startOrDelay a =>
    cases active with
    | none =>
      cases queue with
      | nil => rfl
      | cons b queue => rfl
    | some b => rfl
  | endAndCheckAvailable => exact List.append_nil queue
  | endManually => exact List.append_nil queue
  | fetchNextAction =>
    cases queue with
    | nil => rfl
    | cons b queue => exact List.append_nil _
  | activateNextAvailableAction =>
    cases queue with
    | nil => rfl
    | cons b queue =>
      cases active with
      | none => exact List.append_nil _
      | some c => exact List.append_nil _

/-- An action is started only when none is active, and is active then; otherwise no call makes one
active. -/
theorem perform_active (call : ActionManagerCall) :
    match started (m, call) with
    | some a => m.mActiveAction = none ∧ (perform call m).state.mActiveAction = some a
    | none => (perform call m).state.mActiveAction = none ∨
        (perform call m).state.mActiveAction = m.mActiveAction := by
  obtain ⟨active, queue⟩ := m
  cases call with
  | startOrDelay a =>
    cases active with
    | none =>
      cases queue with
      | nil => exact ⟨rfl, rfl⟩
      | cons b queue => exact .inl rfl
    | some b => exact .inr rfl
  | endAndCheckAvailable => exact .inl rfl
  | endManually => exact .inl rfl
  | fetchNextAction =>
    cases queue with
    | nil => exact .inr rfl
    | cons b queue => exact .inr rfl
  | activateNextAvailableAction =>
    cases queue with
    | nil => exact .inr rfl
    | cons b queue =>
      cases active with
      | none => exact ⟨rfl, rfl⟩
      | some c => exact .inr rfl

/-! ## Sequences of calls -/

variable {m}

theorem queue_append (calls : List ActionManagerCall) :
    m.mDelayedQueue ++ (Calls.found perform m calls).filterMap submitted =
      (Calls.found perform m calls).filterMap started ++
        (Calls.after perform m calls).mDelayedQueue := by
  induction calls generalizing m with
  | nil => exact List.append_nil _
  | cons call calls ih =>
    have hcall := perform_fifo m call
    have hcalls := ih (m := (perform call m).state)
    calc m.mDelayedQueue ++ (Calls.found perform m (call :: calls)).filterMap submitted
        = (m.mDelayedQueue ++ (submitted (m, call)).toList) ++
            (Calls.found perform (perform call m).state calls).filterMap submitted := by
          rw [Calls.found, List.filterMap_cons, List.append_assoc]
          cases submitted (m, call) <;> rfl
      _ = (started (m, call)).toList ++ ((perform call m).state.mDelayedQueue ++
            (Calls.found perform (perform call m).state calls).filterMap submitted) := by
          rw [hcall, List.append_assoc]
      _ = (Calls.found perform m (call :: calls)).filterMap started ++
            (Calls.after perform m (call :: calls)).mDelayedQueue := by
          rw [hcalls, ← List.append_assoc, Calls.found, List.filterMap_cons]
          cases started (m, call) <;> rfl

/-- The active action is the one that was started last. -/
theorem active_getLast? (calls : List ActionManagerCall) {a : ActionPtr}
    (ha : (Calls.after perform m calls).mActiveAction = some a) :
    ((m.mActiveAction.toList ++ (Calls.found perform m calls).filterMap started).getLast?) =
      some a := by
  induction calls generalizing m with
  | nil =>
    have ha : m.mActiveAction = some a := ha
    simp [Calls.found, ha]
  | cons call calls ih =>
    have hlast := ih (m := (perform call m).state) ha
    have hcall := perform_active m call
    rw [Calls.found, List.filterMap_cons]
    cases hs : started (m, call) with
    | some b =>
      rw [hs] at hcall
      rw [hcall.2] at hlast
      rw [hcall.1]
      exact hlast
    | none =>
      rw [hs] at hcall
      rcases hcall with hnone | hsame
      · rw [hnone, Option.toList_none, List.nil_append] at hlast
        exact List.getLast?_append.trans (by simp [hlast])
      · rw [hsame] at hlast
        exact hlast

/-- Whatever the calls, the submitted actions are the started ones followed by the waiting ones, in
order. An action is started only when none is active; the active one is the last that was started;
an activation while one is active throws and changes nothing. -/
theorem firstInFirstOut (calls : List ActionManagerCall) :
    let found := Calls.found perform {} calls
    let last := Calls.after perform {} calls
    found.filterMap submitted = found.filterMap started ++ last.mDelayedQueue ∧
      (∀ e ∈ found, ∀ a, started e = some a →
        e.1.mActiveAction = none ∧ (perform e.2 e.1).state.mActiveAction = some a) ∧
      (∀ a, last.mActiveAction = some a → (found.filterMap started).getLast? = some a) ∧
      ∀ e ∈ found, e.2 = .activateNextAvailableAction → e.1.mActiveAction ≠ none →
        e.1.mDelayedQueue ≠ [] → perform e.2 e.1 = .error
          (.runtimeError "Tried to activate action, but other action already running") e.1 := by
  intro found last
  have hqueue := queue_append (m := {}) calls
  refine ⟨hqueue, fun e _ a ha => ?_, fun a ha => active_getLast? (m := {}) calls ha, ?_⟩
  · have hcall := perform_active e.1 e.2
    rw [Prod.mk.eta, ha] at hcall
    exact hcall
  · rintro ⟨⟨active, queue⟩, call⟩ - hcall hactive hwaiting
    subst hcall
    obtain ⟨b, rfl⟩ := Option.ne_none_iff_exists'.1 hactive
    cases queue with
    | nil => exact absurd rfl hwaiting
    | cons a queue => rfl

end ObjectActionManager

end Cosidia
