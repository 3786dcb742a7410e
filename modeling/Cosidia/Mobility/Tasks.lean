import Cosidia.Mobility.MobilityManager
import Cosidia.Networking.Router

/-!
# Tasks in flight

`startExecution` of a router, a vehicle object or the mobility manager takes a packaged task bound to
`this` and detaches a fiber for it. Most tasks are given the object list, which keeps their object
alive; `initRouter` and `executeSumoUpdate` are not.
-/

namespace Cosidia

open EStateM Std

/-- The tasks that are bound to an object. -/
inductive Task where
  | doVehicleUpdate
  | executeSumoUpdate
  | router (task : RouterTask)
  deriving DecidableEq, Repr

/-- A parameter of the task is the object list. -/
def Task.takesObjectList : Task → Bool
  | doVehicleUpdate => true
  | executeSumoUpdate => false
  | router .initRouter => false
  | router .executeUpdate | router .transmissionReceived | router .caUpdate => true

/-- The name of the objects whose `startExecution` launches the task. -/
def Task.runner : Task → String
  | doVehicleUpdate => "MobilityManager"
  | executeSumoUpdate => "VehicleObject"
  | router _ => "Router"

/-- A task that has been launched, with the object list that is bound to it. -/
structure PackagedTask where
  this : ObjectPtr
  task : Task
  /-- When it was launched. -/
  start : TimePoint
  objectList : Option ContainerPtr
  deriving DecidableEq, Repr

/-- The container owns `obj`. -/
def ObjectContainer.owns (c : ObjectContainer) (obj : ObjectPtr) : Bool :=
  c.getAll.any fun e => e.2 == obj

/-- The object list bound to the task owns `obj`. -/
def PackagedTask.owns (containers : Heap ObjectContainer) (task : PackagedTask) (obj : ObjectPtr) :
    Bool :=
  task.objectList.any fun c => (containers.cell c).owns obj

/-- A transmission that a task has returned to its router. -/
structure Outgoing (π : Type) where
  router : ObjectPtr
  /-- When the task was launched. -/
  start : TimePoint
  transmission : Transmission π

/-- The core with the tasks that have not finished. -/
structure Traffic.Flight (π : Type) where
  core : Core (Traffic π)
  /-- The object whose handler is being invoked. -/
  handling : Option ObjectPtr := none
  fibers : List PackagedTask := []
  /-- The transmissions whose receivers have no contexts yet. -/
  outgoing : List (Outgoing π) := []

namespace Traffic.Flight

variable {π : Type}

/-- Before `setup`. -/
def new (world : Traffic π) : Flight π where
  core := .new world

/-- One of the unfinished tasks owns `obj`. -/
def held (containers : Heap ObjectContainer) (fibers : List PackagedTask) (obj : ObjectPtr) : Bool :=
  fibers.any fun task => task.owns containers obj

/-- The working copy, the current one or an unfinished task owns `obj`. -/
def alive (S : Flight π) (obj : ObjectPtr) : Bool :=
  S.core.mObjectList.workingCopy.owns obj || S.core.mObjectList.currentCopy.owns obj ||
    held S.core.mObjectList.containers S.fibers obj

/-- `lock()->getContext()` of a weak pointer to a vehicle object. -/
def lock (S : Flight π) (mobility : Option ObjectPtr) : Option (Option VehicleObjectContext) :=
  match mobility with
  | some vehicle => if S.alive vehicle then some (S.core.world.mContext vehicle) else none
  | none => none

/-- What `startExecution` of `this` detaches a fiber for. -/
def package (S : Flight π) (this : ObjectPtr) (task : Task) : PackagedTask where
  this := this
  task := task
  start := S.core.mCurrentActionTime
  objectList := if task.takesObjectList then some S.core.mObjectList.getCurrentObjectContainer else none

/-- `setupReceiverContext` as `Router::endExecution` calls it. -/
def setupReceiverContext (S : Flight π) (out : Outgoing π) : Result Failure (Transmission π) Unit :=
  Transmission.setupReceiverContext true S.lock out.transmission

end Traffic.Flight

end Cosidia
