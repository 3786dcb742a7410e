import Cosidia.Core.Core

/-!
# Executing actions on objects

The three entry points of `BaseObject` that handlers invoke. They decide with the object's action
manager whether an action is started, and call the virtual methods that the object implements.
-/

namespace Cosidia

open EStateM

/-- The virtual methods that the objects of a simulation implement. -/
structure Virtuals (ω : Type) where
  startExecution : ObjectPtr → ActionPtr → CoreM ω Unit
  endExecution : ObjectPtr → ActionPtr → CoreM ω Unit
  initObject : ObjectPtr → ActionPtr → CoreM ω Unit

/-- The virtual methods act on the core only in the ways open to the code of an object. -/
structure Virtuals.Lawful {ω : Type} (V : Virtuals ω) : Prop where
  startExecution : ∀ o a, ObjectProgram (V.startExecution o a)
  endExecution : ∀ o a, ObjectProgram (V.endExecution o a)
  initObject : ∀ o a, ObjectProgram (V.initObject o a)

namespace BaseObject

variable {ω : Type} (V : Virtuals ω)

/-- Note a call in the history. -/
def noteCall (kind : HandlerKind) (obj : ObjectPtr) (action : ActionPtr) (s : Core ω) : Core ω :=
  let call : Call := ⟨kind, obj, action, s.mCurrentActionTime⟩
  { s with history := { s.history with calls := s.history.calls ++ [call] } }

def startExecution (obj : ObjectPtr) (action : ActionPtr) : CoreM ω Unit := do
  modify <| noteCall .handlerStart obj action
  V.startExecution obj action

def endExecution (obj : ObjectPtr) (action : ActionPtr) : CoreM ω Unit := do
  modify <| noteCall .handlerEnd obj action
  V.endExecution obj action

def initObject (obj : ObjectPtr) (action : ActionPtr) : CoreM ω Unit := do
  modify <| noteCall .handlerInit obj action
  V.initObject obj action

/-- `mCurrentAction = action->getActionId()` -/
def noteCurrentAction (obj : ObjectPtr) (action : ActionPtr) : CoreM ω Unit := do
  let id := (← getAction action).mActionId
  onObject obj (modify fun o => { o with mCurrentAction := id })

def startOrDelay (obj : ObjectPtr) (action : ActionPtr) : CoreM ω Bool :=
  onObject obj (onActionManager (ObjectActionManager.startOrDelay action))

def endAndCheckAvailable (obj : ObjectPtr) : CoreM ω Bool :=
  onObject obj (onActionManager ObjectActionManager.endAndCheckAvailable)

/-- `activateNextAvailableAction()`, the action it returns being shifted to the end of `action`. -/
def activateShifted (obj : ObjectPtr) (action : ActionPtr) : CoreM ω ActionPtr := do
  let update ← onObject obj (onActionManager ObjectActionManager.activateNextAvailableAction)
  let t := (← getAction action).getEndTime
  onAction update (Action.shiftStartTime t)
  return update

def startExecutionBase (obj : ObjectPtr) (action : ActionPtr) : CoreM ω Unit := do
  enforce (← getObject obj).isInitialized "Tried to execute a not initialized object"
  let o ← getObject obj
  enforce (o.mCurrentAction != 0 || o.mFirstAction) "BaseObject: last action was not ended"
  onObject obj (modify fun o => { o with mFirstAction := false })
  if !(← startOrDelay obj action) then
    noteCurrentAction obj action
    Action.scheduleEndHandler action
    startExecution V obj action

/-- `compareIds` switches the comparison of action ids on, as a `COSIDIA_SAFE` build has it. -/
def endExecutionBase (compareIds : Bool) (obj : ObjectPtr) (action : ActionPtr) :
    CoreM ω Unit := do
  if compareIds then
    let id := (← getAction action).mActionId
    enforce (id == (← getObject obj).mCurrentAction) "BaseObject: Action ends wrong action"
  endExecution V obj action
  if ← endAndCheckAvailable obj then
    let update ← activateShifted obj action
    noteCurrentAction obj action
    -- the end handler of the action that has just ended, not of `update`
    Action.scheduleEndHandler action
    startExecution V obj update

def initObjectBase (obj : ObjectPtr) (action : ActionPtr) : CoreM ω Unit := do
  if !(← startOrDelay obj action) then
    noteCurrentAction obj action
    initObject V obj action
    if ← endAndCheckAvailable obj then
      let update ← activateShifted obj action
      noteCurrentAction obj action
      Action.scheduleEndHandler update
      startExecution V obj update

/-- `invoke` of a handler. -/
def invoke (compareIds : Bool) (handler : ActionHandler) (obj : ObjectPtr) : CoreM ω Unit :=
  match handler.kind with
  | .handlerStart => startExecutionBase V obj handler.mCorrespondingAction
  | .handlerEnd => endExecutionBase V compareIds obj handler.mCorrespondingAction
  | .handlerInit => initObjectBase V obj handler.mCorrespondingAction

end BaseObject

end Cosidia
