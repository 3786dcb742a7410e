import Cosidia.Core.Core

/-!
# The tracker of a router's updates

Scheduled actions cannot be taken back, so a router remembers which of its update actions is the next
one to start and which is the next one to end.
-/

namespace Cosidia

open EStateM

variable {ω : Type}

structure ActiveActionTracker where
  mNextStart : Option ActionPtr := none
  mNextEnd : Option ActionPtr := none
  deriving DecidableEq, Repr

namespace ActiveActionTracker

def setNext (action : ActionPtr) : EStateM Failure ActiveActionTracker Unit := do
  modify fun t => { t with mNextStart := some action }
  if (← get).mNextEnd.isNone then
    modify fun t => { t with mNextEnd := some action }

def isEnd (action : ActionPtr) : EStateM Failure ActiveActionTracker Bool := do
  let t ← get
  if t.mNextEnd == some action || t.mNextEnd.isNone then
    enforce (t.mNextEnd != t.mNextStart || t.mNextEnd.isNone && t.mNextStart.isNone)
      "ActiveActionTracker: start and end must be different"
    set { t with mNextEnd := t.mNextStart }
    return true
  else
    return false

def isStart (t : ActiveActionTracker) (action : ActionPtr) : Bool :=
  t.mNextStart == some action || t.mNextStart.isNone

def nextStart (t : ActiveActionTracker) : CoreM ω TimePoint := do
  match t.mNextStart with
  | some action => return (← getAction action).mStartTime
  | none => return SimClock.zero

/-! ## What the methods do -/

theorem setNext_apply (action : ActionPtr) (t : ActiveActionTracker) :
    setNext action t = .ok () ⟨some action, t.mNextEnd.or (some action)⟩ := by
  obtain ⟨start, _ | nextEnd⟩ := t <;> rfl

theorem isEnd_apply (action : ActionPtr) (t : ActiveActionTracker) :
    isEnd action t =
      if t.mNextEnd = some action ∨ t.mNextEnd = none then
        if t.mNextEnd ≠ t.mNextStart ∨ t.mNextStart = none then .ok true ⟨t.mNextStart, t.mNextStart⟩
        else .error (.runtimeError "ActiveActionTracker: start and end must be different") t
      else .ok false t := by
  obtain ⟨start, _ | e⟩ := t
  · cases start <;> rfl
  · by_cases ha : e = action
    · by_cases hs : some e = start
      · simp [isEnd, bind_apply, get_apply, enforce, throw_apply, ha, ← hs]
      · subst ha
        simp only [isEnd, bind_apply, get_apply, enforce, pure_apply, set_apply, beq_self_eq_true,
          Bool.true_or, if_true, true_or, ne_eq, hs, not_false_eq_true]
        simp [hs, pure_apply]
    · simp [isEnd, bind_apply, get_apply, pure_apply, ha]

theorem isStart_iff {t : ActiveActionTracker} {action : ActionPtr} :
    t.isStart action = true ↔ t.mNextStart = some action ∨ t.mNextStart = none := by
  simp [isStart]

end ActiveActionTracker

end Cosidia
