import Cosidia.Mobility.MobilityManager

/-!
# Vehicle objects

A vehicle object takes its new context from the table of updates that its action carries.
-/

namespace Cosidia

open EStateM Std

variable {π : Type}

/-- `std::dynamic_pointer_cast<const VehicleUpdateActionData>(action->getActionData())` -/
def getVehicleUpdateActionData (action : ActionPtr) :
    CoreM (Traffic π) (Option VehicleUpdateActionData) := do
  match (← getAction action).mActionData with
  | none => return none
  | some p =>
    match (← get).world.data.cell p with
    | .vehicleUpdate d => return some d
    | _ => return none

/-- `mExternalId.get()` of the object `this`. -/
def getExternalId (this : ObjectPtr) : CoreM (Traffic π) String := do
  match (← getObject this).mExternalId with
  | none => throw (.runtimeError "Read Only has no initial value")
  | some id => return id

/-- The context pointer of the object `this` is swapped with one to `newElement`. -/
def swapContext (this : ObjectPtr) (newElement : VehicleObjectContext) : CoreM (Traffic π) Unit :=
  modify fun s => { s with world := { s.world with
    mContext := Function.update s.world.mContext this (some newElement) } }

namespace VehicleObject

/-- The task that `startExecution` launches in a fiber; the result is the updated context. -/
def executeSumoUpdate (this : ObjectPtr) (action : ActionPtr) :
    CoreM (Traffic π) VehicleObjectContext := do
  match ← getVehicleUpdateActionData action with
  | none =>
    throw (.runtimeError "VehicleObject: Could not cast ActionData to VehicleUpdateActionData")
  | some actionData =>
    let externalId ← getExternalId this
    let update ← ofExcept (actionData.getUpdateForVehicle externalId)
    enforce (update.mObjectId == (← getObject this).mObjectId)
      "VehicleObject: ExternalId and ObjectId are not corresponding for VehicleUpdate"
    return {
      speed := update.mSpeed
      heading := update.mHeading
      position := { x := update.mPosition.1, y := update.mPosition.2.1 }
      geo := { longitude := update.mLongitude, latitude := update.mLatitude }
      lastUpdate := (← getAction action).getEndTime }

/-- `startExecution`: whether a task is launched. -/
def startExecution (action : ActionPtr) : CoreM (Traffic π) Unit := do
  enforce ((← getAction action).mType == "SUMO") "VehicleObject: unknown Action"

/-- `endExecution`; `updatedContext` is what the task has returned. -/
def endExecution (this : ObjectPtr) (action : ActionPtr) (updatedContext : VehicleObjectContext) :
    CoreM (Traffic π) Unit := do
  if (← getAction action).mType = "SUMO" then
    swapContext this updatedContext
  else
    throw (.runtimeError "VehicleObject: Unknown action")

def initObject (this : ObjectPtr) : CoreM (Traffic π) Unit := swapContext this {}

end VehicleObject

end Cosidia
