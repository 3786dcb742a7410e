import Cosidia.Core.ActionList
import Cosidia.Objects.ObjectList

/-!
# The state of the core and what objects ask of it

`Core ω` holds what the core thread owns; `ω` is whatever else the objects of a simulation keep
(their contexts, random numbers, the tasks they have launched, ...). `History` only records what
has happened and is never read.
-/

namespace Cosidia

open EStateM Std

/-- A pending handler. The core uses `handler` only; the rest records its acceptance. -/
structure Scheduling where
  handler : ActionHandler
  /-- `getTime()` of the handler when it was accepted. -/
  time : TimePoint
  /-- The number of the scheduling among the accepted ones, from 1 on. -/
  number : Nat
  /-- How many ids had been given out when it was accepted, the one for it included. -/
  ids : Nat
  deriving DecidableEq, Repr

/-- A call of `startExecution`, `endExecution` or `initObject`. -/
structure Call where
  kind : HandlerKind
  object : ObjectPtr
  action : ActionPtr
  /-- `mCurrentActionTime` at the call. -/
  time : TimePoint
  deriving DecidableEq, Repr

/-- What has happened so far, in the order in which it happened. -/
structure History where
  /-- The schedulings that `insertHandler` has accepted. -/
  accepted : List Scheduling := []
  /-- Those that `executeActionOnFinishedTimer` has taken up. -/
  taken : List Scheduling := []
  calls : List Call := []
  /-- The number of action ids given out. -/
  ids : Nat := 0
  /-- What `getNextActionId` has returned. -/
  given : List ActionId := []
  deriving DecidableEq, Repr

structure Core (ω : Type) where
  mActions : HandlerMap Scheduling
  mCurrentActionTime : TimePoint
  mObjectList : ObjectList
  mCurrentActionId : ActionId
  /-- All actions ever made. -/
  actions : Heap Action
  /-- All objects ever made. -/
  objects : Heap BaseObject
  world : ω
  history : History

/-- A core on which nothing has happened yet. -/
def Core.new {ω : Type} (world : ω) : Core ω where
  mActions := ∅
  mCurrentActionTime := SimClock.zero
  mObjectList := .new
  mCurrentActionId := 0
  actions := .empty ⟨.durationAction, 0, 0, 0, 0, "default", none, 0, .waiting⟩
  objects := .empty {}
  world := world
  history := {}

/-- Programs run on the core thread. -/
abbrev CoreM (ω α : Type) := EStateM Failure (Core ω) α

variable {ω : Type}

namespace Core

/-! ## Changes of the state -/

def writeAction (p : ActionPtr) (a : Action) (s : Core ω) : Core ω :=
  { s with actions := s.actions.write p a }

def writeObject (p : ObjectPtr) (o : BaseObject) (s : Core ω) : Core ω :=
  { s with objects := s.objects.write p o }

def writeObjectList (l : ObjectList) (s : Core ω) : Core ω := { s with mObjectList := l }

/-- Count one more action id. -/
def countId (s : Core ω) : Core ω :=
  { s with mCurrentActionId := s.mCurrentActionId + 1
           history := { s.history with ids := s.history.ids + 1 } }

/-- Note that `id` has been returned by `getNextActionId`. -/
def noteGiven (s : Core ω) (id : ActionId) : Core ω :=
  { s with history := { s.history with given := s.history.given ++ [id] } }

/-- The scheduling of `handler`, reporting `time`, that would be accepted now. -/
def scheduling (s : Core ω) (handler : ActionHandler) (time : TimePoint) : Scheduling :=
  ⟨handler, time, s.history.accepted.length + 1, s.history.ids⟩

/-- Note that `h` has been accepted. -/
def noteAccepted (h : Scheduling) (s : Core ω) : Core ω :=
  { s with history := { s.history with accepted := s.history.accepted ++ [h] } }

end Core

/-! ## Running methods of the parts of the core -/

/-- Run a method of the action `p` points to; an action that was never made is a null pointer. -/
def onAction {α : Type} (p : ActionPtr) (x : EStateM Failure Action α) : CoreM ω α := fun s =>
  if p < s.actions.next then zoom (·.actions.cell p) (Core.writeAction p) x s
  else .error .nullDereference s

/-- Run a method of the object `p` points to. -/
def onObject {α : Type} (p : ObjectPtr) (x : EStateM Failure BaseObject α) : CoreM ω α := fun s =>
  if p < s.objects.next then zoom (·.objects.cell p) (Core.writeObject p) x s
  else .error .nullDereference s

def onObjectList {α : Type} (x : EStateM Failure ObjectList α) : CoreM ω α :=
  zoom (·.mObjectList) Core.writeObjectList x

def getAction (p : ActionPtr) : CoreM ω Action := onAction p get

def getObject (p : ObjectPtr) : CoreM ω BaseObject := onObject p get

/-! ## The core -/

namespace Core

def getNextObjectId : CoreM ω ObjectId := onObjectList ObjectList.getNextObjectId

def getNextActionId : CoreM ω ActionId := do
  modify countId
  let id := (← get).mCurrentActionId
  modify (noteGiven · id)
  return id

/-- `mActions.insertHandler(handler)` -/
def insertHandler (handler : ActionHandler) : CoreM ω Unit := do
  let time := ActionHandler.getTime handler.kind (← getAction handler.mCorrespondingAction)
  let s ← get
  let h := s.scheduling handler time
  zoom (·.mActions) (fun m s => { s with mActions := m })
    (ActionList.insertHandler s.mCurrentActionTime time h)
  modify (noteAccepted h)

def scheduleAction (handler : ActionHandler) : CoreM ω Unit := do
  let id ← getNextActionId
  onAction handler.mCorrespondingAction (Action.setActionId id)
  insertHandler handler

def addObject (obj : ObjectPtr) : CoreM ω Unit := do
  let o ← getObject obj
  enforce o.isInitialized "Core: Object to add not initialized"
  onObjectList (ObjectList.addToObjectContainer true o.mObjectId obj o)

def addUniqueObject (obj : ObjectPtr) : CoreM ω Unit := do
  let o ← getObject obj
  enforce o.isInitialized "Core: Object to add not initialized"
  onObjectList (ObjectList.addUnique true obj o)

def removeObjectFromSimulation (id : ObjectId) : CoreM ω Unit :=
  onObjectList (ObjectList.removeFromSimulation true id)

end Core

/-! ## Actions -/

/-- `ActionFactory<T>::create`, `T` being the class `kind` stands for. -/
def ActionFactory.create (kind : ActionKind) (duration : Duration) (start : TimePoint)
    (id generator : ObjectId) : CoreM ω ActionPtr := do
  enforce (ObjectId.valid id) "Action: tried to add invalid object id to action"
  enforce (start ≥ 0) "Action: negative start time"
  let action : Action :=
    { kind, mDuration := duration, mStartTime := start, mAffectedObject := id,
      mGeneratingObject := generator }
  let p := (← get).actions.next
  modify fun s => { s with actions := s.actions.alloc action }
  return p

namespace Action

/-- `scheduleStartHandler()` of a `DurationAction` or an `InitAction`. -/
def scheduleStartHandler (p : ActionPtr) : CoreM ω Unit := do
  let kind := (← getAction p).kind
  match kind with
  | .durationAction =>
    enforce ((← getAction p).mActionId == 0)
      "DurationAction: tried to schedule Action with Id already set"
    onAction p (onStateMachine ActionStateMachine.setRunning)
  | .initAction =>
    enforce ((← getAction p).mActionId == 0)
      "InitAction: tried to schedule Action with Id already set"
    onAction p (onStateMachine do
      ActionStateMachine.setRunning
      ActionStateMachine.setFinished)
  Core.scheduleAction ⟨kind.startHandler, p⟩

/-- `scheduleEndHandler()`, which does nothing for an `InitAction`. -/
def scheduleEndHandler (p : ActionPtr) : CoreM ω Unit := do
  match (← getAction p).kind with
  | .durationAction =>
    enforce ((← getAction p).mActionId != 0)
      "DurationAction: tried to schedule endHandler without beginHandler scheduled"
    Core.scheduleAction ⟨.handlerEnd, p⟩
  | .initAction => return

end Action

/-! ## Objects -/

/-- Make an object of which nothing but its name and its vehicle part is set. -/
def makeObject (mObjectName : String) (mExternalId : Option String) : CoreM ω ObjectPtr := do
  let o : BaseObject := { mObjectName, mExternalId }
  let p := (← get).objects.next
  modify fun s => { s with objects := s.objects.alloc o }
  return p

def createSelfAction (obj : ObjectPtr) (duration : Duration) (start : TimePoint) :
    CoreM ω ActionPtr := do
  let id := (← getObject obj).mObjectId
  ActionFactory.create .durationAction duration start id id

/-- Everything that the code of an object does to the core, step by step. -/
inductive ObjectPrim : {α : Type} → CoreM ω α → Prop
  | getAction (p : ActionPtr) : ObjectPrim (getAction p)
  | getObject (p : ObjectPtr) : ObjectPrim (getObject p)
  | create (kind : ActionKind) (duration : Duration) (start : TimePoint) (id generator : ObjectId) :
    ObjectPrim (ActionFactory.create kind duration start id generator)
  | setType (p : ActionPtr) (type : Symbol) : ObjectPrim (onAction p (Action.setType type))
  | setActionData (p : ActionPtr) (data : DataPtr) :
    ObjectPrim (onAction p (Action.setActionData data))
  | scheduleStartHandler (p : ActionPtr) : ObjectPrim (Action.scheduleStartHandler p)
  | makeObject (name : String) (externalId : Option String) :
    ObjectPrim (makeObject name externalId)
  | setObjectId (p : ObjectPtr) (id : ObjectId) : ObjectPrim (onObject p (BaseObject.setObjectId id))
  | addParent (p : ObjectPtr) (id : ObjectId) : ObjectPrim (onObject p (BaseObject.addParent id))
  | addChild (p : ObjectPtr) (id : ObjectId) : ObjectPrim (onObject p (BaseObject.addChild id))
  | setExternalId (p : ObjectPtr) (id : String) :
    ObjectPrim (onObject p (BaseObject.setExternalId id))
  | getNextObjectId : ObjectPrim Core.getNextObjectId
  | addObject (p : ObjectPtr) : ObjectPrim (Core.addObject p)
  | addUniqueObject (p : ObjectPtr) : ObjectPrim (Core.addUniqueObject p)
  | removeObjectFromSimulation (id : ObjectId) : ObjectPrim (Core.removeObjectFromSimulation id)
  | world (f : ω → ω) : ObjectPrim (modify fun s => { s with world := f s.world })

/-- The programs the code of an object runs on the core thread. -/
abbrev ObjectProgram {α : Type} (x : CoreM ω α) : Prop := Composed ObjectPrim x

end Cosidia
