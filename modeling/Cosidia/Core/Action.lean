import Cosidia.Core.Basic

/-!
# Actions and their handlers

An action is one heap cell; the methods below run on the cell. A handler is the kind of work to do
together with the action it belongs to.
-/

namespace Cosidia

open EStateM

/-- `typedef int ActionId`, a 32-bit number. -/
abbrev ActionId := BitVec 32

/-- A pointer to an action. -/
abbrev ActionPtr := Nat

/-- A pointer to the data attached to an action. -/
abbrev DataPtr := Nat

/-- The states of an `ActionStateMachine`. -/
inductive ActionStateMachine where
  | waiting
  | running
  | finished
  | failure
  deriving DecidableEq, Repr

namespace ActionStateMachine

def setRunning : EStateM Failure ActionStateMachine Unit := do
  if (← get) ≠ .waiting then
    set ActionStateMachine.failure
    throw (.runtimeError "ActionStateMachine: Wrong State for begin Action")
  else
    set ActionStateMachine.running

def setFinished : EStateM Failure ActionStateMachine Unit := do
  if (← get) ≠ .running then
    set ActionStateMachine.failure
    throw (.runtimeError "ActionStateMachine: Wrong State for end Action")
  else
    set ActionStateMachine.finished

end ActionStateMachine

/-- The two subclasses of `Action`. -/
inductive ActionKind where
  | durationAction
  | initAction
  deriving DecidableEq, Repr

structure Action where
  kind : ActionKind
  mDuration : Duration
  mStartTime : TimePoint
  mAffectedObject : ObjectId
  mGeneratingObject : ObjectId
  mType : Symbol := "default"
  mActionData : Option DataPtr := none
  mActionId : ActionId := 0
  mStateMachine : ActionStateMachine := .waiting
  deriving DecidableEq, Repr

namespace Action

def getEndTime (a : Action) : TimePoint := a.mDuration + a.mStartTime

def setActionId (id : ActionId) : EStateM Failure Action Unit :=
  modify fun a => { a with mActionId := id }

def setType (type : Symbol) : EStateM Failure Action Unit :=
  modify fun a => { a with mType := type }

def setActionData (data : DataPtr) : EStateM Failure Action Unit := do
  if (← get).mActionData.isSome then throw (.assertion "mActionData == nullptr")
  modify fun a => { a with mActionData := some data }

def shiftStartTime (t : TimePoint) : EStateM Failure Action Unit := do
  enforce ((← get).mStartTime ≤ t) "Action: new time point must be later the old time point"
  modify fun a => { a with mStartTime := t }

theorem shiftStartTime_apply (t : TimePoint) (a : Action) :
    shiftStartTime t a =
      if a.mStartTime ≤ t then .ok () { a with mStartTime := t }
      else .error
        (.runtimeError "Action: new time point must be later the old time point") a := by
  by_cases h : a.mStartTime ≤ t <;>
    simp [shiftStartTime, bind_apply, get_apply, modify_apply, throw_apply, pure_apply, enforce, h]

/-- Run a method of the state machine inside the action. -/
def onStateMachine (x : EStateM Failure ActionStateMachine Unit) : EStateM Failure Action Unit :=
  zoom (·.mStateMachine) (fun m a => { a with mStateMachine := m }) x

end Action

/-- The three subclasses of `ActionHandler`. -/
inductive HandlerKind where
  | handlerStart
  | handlerEnd
  | handlerInit
  deriving DecidableEq, Repr

/-- The kind of the handler that `scheduleStartHandler` schedules. -/
def ActionKind.startHandler : ActionKind → HandlerKind
  | .durationAction => .handlerStart
  | .initAction => .handlerInit

structure ActionHandler where
  kind : HandlerKind
  mCorrespondingAction : ActionPtr
  deriving DecidableEq, Repr

namespace ActionHandler

/-- `getTime()` of a handler of kind `kind` whose action is currently `a`. -/
def getTime (kind : HandlerKind) (a : Action) : TimePoint :=
  match kind with
  | .handlerStart => a.mStartTime
  | .handlerEnd => a.getEndTime
  | .handlerInit => a.mStartTime

end ActionHandler

end Cosidia
