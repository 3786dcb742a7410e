import Cosidia.Mobility.SumoUpdater
import Cosidia.Objects.ObjectFactory

/-!
# The mobility manager

At the start of each of its actions the SUMO mobility manager works in a fiber: it reads what SUMO
reports, makes the objects of departed vehicles, looks up those of arrived ones and makes actions for
the others. At the end the core thread adds, schedules and removes accordingly.
-/

namespace Cosidia

open EStateM Std

structure MobilityManagerTasks where
  actionsToSchedule : List ActionPtr := []
  vehiclesToAdd : List (List TemporaryObject) := []
  objectsToDelete : List ObjectId := []

structure SumoMobilityManager where
  mIdMapper : TreeMap String ObjectId := ∅
  mUpdater : SumoUpdater := {}

/-- What the mobility manager and the vehicles keep besides the core. -/
structure Traffic (π : Type) where
  manager : SumoMobilityManager := {}
  /-- The data attached to actions. -/
  data : Heap (ActionData π)
  /-- `mContext` of the vehicle objects. -/
  mContext : ObjectPtr → Option VehicleObjectContext := fun _ => none

variable {π : Type}

/-- Run a method of the mobility manager. -/
def onManager {α : Type} (x : EStateM Failure SumoMobilityManager α) : CoreM (Traffic π) α :=
  zoom (·.world.manager) (fun m s => { s with world := { s.world with manager := m } }) x

/-- `std::make_shared` of data for actions. -/
def makeActionData (d : ActionData π) : CoreM (Traffic π) DataPtr := do
  let p := (← get).world.data.next
  modify fun s => { s with world := { s.world with data := s.world.data.alloc d } }
  return p

/-- `mIdMapper.at(key)` -/
def mIdMapperAt (mIdMapper : TreeMap String ObjectId) (key : String) : Except Failure ObjectId :=
  match mIdMapper[key]? with
  | some id => .ok id
  | none => .error (.runtimeError "map::at")

namespace MobilityManager

/-- What `fetchVehicleIds` makes of the entry `key`, which is `id`. -/
def fetchVehicleId (objects : Heap BaseObject) (data : List (ObjectId × ObjectPtr)) (key : String)
    (id : ObjectId) : ObjectId :=
  if id.valid then id
  else
    data.foldl (fun id obj =>
      let o := objects.cell obj.2
      if o.mObjectName = "VehicleObject" ∧ o.mExternalId = some key then o.mObjectId else id) id

def fetchVehicleIds (objectList : ObjectContainer) : CoreM (Traffic π) Unit := do
  let objects := (← get).objects
  onManager (modify fun m => { m with
    mIdMapper := .ofList (m.mIdMapper.toList.map fun e =>
      (e.1, fetchVehicleId objects objectList.getAll e.1 e.2)) })

/-- `endExecution`, `data` being the result of the fiber. -/
def endExecution (action : ActionPtr) (data : MobilityManagerTasks) : CoreM (Traffic π) Unit := do
  data.vehiclesToAdd.forM fun vehicle => do
    TemporaryObjectList.resolveAndStart (← getAction action).getEndTime vehicle
  data.actionsToSchedule.forM Action.scheduleStartHandler
  data.objectsToDelete.forM Core.removeObjectFromSimulation

end MobilityManager

namespace SumoMobilityManager

def addVehicle (objectContainer : ObjectContainer) (vehicle : String) :
    CoreM (Traffic π) (List TemporaryObject) := do
  onManager (modify fun m => { m with mIdMapper := m.mIdMapper.insertIfNew vehicle .stub })
  ObjectFactory.createObject "vehicle" objectContainer
    (some ((∅ : AnyMap).insert "id" (.string vehicle)))

/-- The body of the second loop of `executeUpdate`. -/
def removeVehicle (objectContainer : ObjectContainer) (sumoIdOfArrived : String) :
    CoreM (Traffic π) (List ObjectId) := do
  let id ← ofExcept (mIdMapperAt (← onManager get).mIdMapper sumoIdOfArrived)
  ObjectRemover.getObjectsToDelete "vehicle" id objectContainer

/-- The last loop of `executeUpdate`; `updateData` points to the table of updates. -/
def updateVehicles (this : ObjectPtr) (action : ActionPtr) (updateData : DataPtr) :
    List String → CoreM (Traffic π) (List ActionPtr)
  | [] => pure []
  | sumoIdToUpdate :: vehicles => do
    let id ← ofExcept (mIdMapperAt (← onManager get).mIdMapper sumoIdToUpdate)
    if id.valid then
      modify fun s => { s with world := { s.world with data := match s.world.data.cell updateData with
        | .vehicleUpdate d => s.world.data.write updateData (.vehicleUpdate
            (d.setUpdateForVehicle sumoIdToUpdate fun u => { u with mObjectId := id }))
        | _ => s.world.data } }
      let a ← getAction action
      let updateAction ← ActionFactory.create .durationAction (Duration.milliseconds 1)
        (a.mStartTime + a.mDuration + Duration.milliseconds 1) id (← getObject this).mObjectId
      onAction updateAction (Action.setActionData updateData)
      onAction updateAction (Action.setType "SUMO")
      return updateAction :: (← updateVehicles this action updateData vehicles)
    else
      updateVehicles this action updateData vehicles

def executeUpdate (this : ObjectPtr) (updaterResult : SumoUpdater.Results)
    (objectContainer : ObjectContainer) (action : ActionPtr) :
    CoreM (Traffic π) MobilityManagerTasks := do
  let updateData ← makeActionData (.vehicleUpdate updaterResult.updateData)
  let vehiclesToAdd ← updaterResult.departedVehicles.mapM (addVehicle objectContainer)
  let deleters ← updaterResult.arrivedVehicles.mapM (removeVehicle objectContainer)
  let actionsToSchedule ← updateVehicles this action updateData updaterResult.updateVehicles
  return { actionsToSchedule, vehiclesToAdd, objectsToDelete := deleters.flatten }

/-- `mUpdater->step` with the time point `t`, cut to milliseconds. -/
def stepUpdater (api : LiteAPI) (t : TimePoint) :
    EStateM Failure SumoMobilityManager SumoUpdater.Results :=
  zoom (·.mUpdater) (fun u m => { m with mUpdater := u }) (SumoUpdater.step api (t.tdiv 1000000))

/-- `doVehicleUpdate`, `api` being what SUMO reports. -/
def doVehicleUpdate (this : ObjectPtr) (api : LiteAPI) (action : ActionPtr)
    (objectList : ObjectContainer) : CoreM (Traffic π) MobilityManagerTasks := do
  MobilityManager.fetchVehicleIds objectList
  let t := (← getAction action).mStartTime
  let res ← onManager (stepUpdater api t)
  let data ← executeUpdate this res objectList action
  if api.minExpectedNumber > 0 then
    let newAction ← createSelfAction this (Duration.milliseconds 50)
      (t + Duration.milliseconds 100)
    return { data with actionsToSchedule := data.actionsToSchedule ++ [newAction] }
  else
    return data

end SumoMobilityManager

end Cosidia
