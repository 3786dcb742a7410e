import Cosidia.Core.Action
import Mathlib.Data.List.Sort

/-!
# Objects

The part of a `BaseObject` that the core and the other objects see: its id, name and relations, its
action manager and the bookkeeping of a `COSIDIA_SAFE` build.
-/

namespace Cosidia

open EStateM Std

/-- A pointer to an object. -/
abbrev ObjectPtr := Nat

/-- Manages the actions of one object, of which at most one is active. -/
structure ObjectActionManager where
  mActiveAction : Option ActionPtr := none
  mDelayedQueue : List ActionPtr := []
  deriving DecidableEq, Repr

namespace ObjectActionManager

/-- `false` means that the action has been started, `true` that it has been delayed. -/
def startOrDelay (action : ActionPtr) : EStateM Failure ObjectActionManager Bool := do
  let m ← get
  if m.mActiveAction.isNone && m.mDelayedQueue.length == 0 then
    set { m with mActiveAction := some action }
    return false
  else
    set { m with mDelayedQueue := m.mDelayedQueue ++ [action] }
    -- the log message reads the active action
    if m.mActiveAction.isNone then throw .nullDereference
    return true

def isActionAvailable (m : ObjectActionManager) : Bool := m.mDelayedQueue.length != 0

def endAndCheckAvailable : EStateM Failure ObjectActionManager Bool := do
  modify fun m => { m with mActiveAction := none }
  return (← get).isActionAvailable

def endManually : EStateM Failure ObjectActionManager Unit :=
  modify fun m => { m with mActiveAction := none }

def fetchNextAction : EStateM Failure ObjectActionManager ActionPtr := do
  match (← get).mDelayedQueue with
  | [] => throw (.assertion "mDelayedQueue.size() > 0")
  | action :: _ => return action

def activateNextAvailableAction : EStateM Failure ObjectActionManager ActionPtr := do
  let m ← get
  match m.mDelayedQueue with
  | [] => throw (.assertion "mDelayedQueue.size() > 0")
  | action :: rest =>
    if m.mActiveAction.isSome then
      throw (.runtimeError "Tried to activate action, but other action already running")
    set { mActiveAction := some action, mDelayedQueue := rest : ObjectActionManager }
    return action

/-! ## What each operation does -/

theorem startOrDelay_idle (a : ActionPtr) :
    startOrDelay a ⟨none, []⟩ = .ok false ⟨some a, []⟩ := rfl

theorem startOrDelay_busy (a b : ActionPtr) (q : List ActionPtr) :
    startOrDelay a ⟨some b, q⟩ = .ok true ⟨some b, q ++ [a]⟩ := rfl

/-- Reporting a delay on an object that has waiting actions but no active one fails. -/
theorem startOrDelay_stuck (a b : ActionPtr) (q : List ActionPtr) :
    startOrDelay a ⟨none, b :: q⟩ = .error .nullDereference ⟨none, b :: q ++ [a]⟩ := rfl

theorem endAndCheckAvailable_apply (m : ObjectActionManager) :
    endAndCheckAvailable m = .ok m.isActionAvailable ⟨none, m.mDelayedQueue⟩ := rfl

theorem activateNextAvailableAction_idle (a : ActionPtr) (q : List ActionPtr) :
    activateNextAvailableAction ⟨none, a :: q⟩ = .ok a ⟨some a, q⟩ := rfl

end ObjectActionManager

structure BaseObject where
  mObjectId : ObjectId := .stub
  mParentList : TreeSet ObjectId := ∅
  mChildIdList : TreeSet ObjectId := ∅
  mActionManager : ObjectActionManager := {}
  mObjectName : String := ""
  mCurrentAction : ActionId := 0
  mFirstAction : Bool := true
  /-- The member `mExternalId` of a `VehicleObject`; other objects have none. -/
  mExternalId : Option String := none

namespace BaseObject

/-- `isInitialized()`, with the stronger test `VehicleObject` overrides it with. -/
def isInitialized (o : BaseObject) : Bool :=
  o.mObjectName != "" && o.mObjectId.valid && !o.mParentList.isEmpty &&
    match o.mExternalId with
    | none => true
    | some id => id != ""

def setObjectId (id : ObjectId) : EStateM Failure BaseObject Unit :=
  modify fun o => { o with mObjectId := id }

def addParent (id : ObjectId) : EStateM Failure BaseObject Unit :=
  modify fun o => { o with mParentList := o.mParentList.insert id }

def addChild (id : ObjectId) : EStateM Failure BaseObject Unit :=
  modify fun o => { o with mChildIdList := o.mChildIdList.insert id }

/-- `VehicleObject::setExternalId`. -/
def setExternalId (id : String) : EStateM Failure BaseObject Unit := do
  enforce (!(← get).isInitialized)
    "VehicleObject: it is not allowed to set ExternalId when initialized"
  modify fun o => { o with mExternalId := some id }

/-- Run a method of the action manager inside the object. -/
def onActionManager {α : Type} (x : EStateM Failure ObjectActionManager α) :
    EStateM Failure BaseObject α :=
  zoom (·.mActionManager) (fun m o => { o with mActionManager := m }) x

end BaseObject

end Cosidia
