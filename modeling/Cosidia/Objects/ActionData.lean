import Cosidia.Objects.BaseObject

/-!
# The data attached to actions

Updates of vehicles from SUMO and transmissions between routers.
-/

namespace Cosidia

open EStateM Std

/-! ## Vehicles -/

structure Position where
  x : Float := 0
  y : Float := 0

structure GeoPosition where
  latitude : Float := 0
  longitude : Float := 0

structure VehicleObjectContext where
  speed : Float := 0
  geo : GeoPosition := {}
  position : Position := {}
  heading : Float := 0
  lastUpdate : TimePoint := SimClock.zero

structure VehicleUpdate where
  mPosition : Float × Float × Float := (0, 0, 0)
  mLongitude : Float := 0
  mLatitude : Float := 0
  mHeading : Float := 0
  mSpeed : Float := 0
  mVehicle : String := ""
  mObjectId : ObjectId := .stub

structure VehicleUpdateActionData where
  mUpdates : TreeMap String VehicleUpdate := ∅

namespace VehicleUpdateActionData

/-- `getUpdateForVehicle`, which dereferences the end of the map if there is no update. -/
def getUpdateForVehicle (veh : String) (d : VehicleUpdateActionData) : Except Failure VehicleUpdate :=
  match d.mUpdates[veh]? with
  | some u => .ok u
  | none => .error .nullDereference

/-- Change what the reference `setUpdateForVehicle(veh)` refers to. -/
def setUpdateForVehicle (veh : String) (f : VehicleUpdate → VehicleUpdate)
    (d : VehicleUpdateActionData) : VehicleUpdateActionData :=
  ⟨d.mUpdates.insert veh (f (d.mUpdates.getD veh {}))⟩

def addData (veh : String) (u : VehicleUpdate) (d : VehicleUpdateActionData) :
    VehicleUpdateActionData :=
  ⟨d.mUpdates.insert veh u⟩

end VehicleUpdateActionData

/-! ## Transmissions -/

/-- A receiver: the lowest layer after the radio and, by a weak pointer, its vehicle. -/
structure Receiver where
  lowestLayer : ObjectId := .stub
  mobility : Option ObjectPtr := none
  receiverContext : Option VehicleObjectContext := none

/-- `receiverContext->position` -/
def Receiver.getPosition (r : Receiver) : Except Failure Position :=
  match r.receiverContext with
  | some context => .ok context.position
  | none => .error .nullDereference

/-- A transmission; `π` is the request and the packet, which are vanetza's. -/
structure Transmission (π : Type) where
  mPacket : π
  mEmitter : ObjectId := .stub
  mEmitterContext : Option VehicleObjectContext := none
  mPossibleReceivers : TreeMap ObjectId Receiver := ∅
  mIsSetupDone : Bool := false

namespace Transmission

variable {π : Type}

def isSetup (t : Transmission π) : Bool :=
  t.mIsSetupDone && t.mEmitter != .stub && t.mEmitterContext.isSome

def getTransmitterPosition (t : Transmission π) : Except Failure Position :=
  match t.mEmitterContext with
  | some context => .ok context.position
  | none => .error .nullDereference

/-- `getTransmissionPower()` in dBm. -/
def getTransmissionPower (_t : Transmission π) : Float := 23.0

def addPossibleReceiver (id : ObjectId) (vehicle : Option ObjectPtr) :
    EStateM Failure (Transmission π) Unit := do
  enforce id.valid "Transmission: invalid Receiver Id"
  enforce vehicle.isSome "Transmission: vehicle Object not valid"
  enforce (!(← get).isSetup) "Transmission: tried to add vehicle to finished transmission"
  let r : Receiver := { lowestLayer := id, mobility := vehicle }
  modify fun t => { t with mPossibleReceivers := t.mPossibleReceivers.insert id r }

def addEmitter (id : ObjectId) (dynamics : Option VehicleObjectContext) :
    EStateM Failure (Transmission π) Unit := do
  enforce id.valid "Transmission: invalid Receiver Id"
  enforce (!(← get).isSetup) "Transmission: tried to add vehicle to finished transmission"
  modify fun t => { t with mEmitter := id, mEmitterContext := dynamics }

/-- The loop of `setupReceiverContext`. `context` is `lock()->getContext()` of a weak pointer to a
vehicle object, or `none` if there is no such object any more. -/
def setupReceivers (context : Option ObjectPtr → Option (Option VehicleObjectContext)) :
    List (ObjectId × Receiver) → EStateM Failure (Transmission π) Unit
  | [] => pure ()
  | (id, receiver) :: receivers =>
    match context receiver.mobility with
    | none => throw .nullDereference
    | some c => do
      modify fun t => { t with
        mPossibleReceivers := t.mPossibleReceivers.insert id { receiver with receiverContext := c } }
      setupReceivers context receivers

def setupReceiverContext (onCoreThread : Bool)
    (context : Option ObjectPtr → Option (Option VehicleObjectContext)) :
    EStateM Failure (Transmission π) Unit := do
  enforce onCoreThread "Transmission: setupReceiverContext() on wrong thread"
  enforce (!(← get).isSetup) "Transmission: duplicate setup"
  setupReceivers context (← get).mPossibleReceivers.toList
  modify fun t => { t with mIsSetupDone := true }

end Transmission

/-- The subclasses of `ActionData` that are looked at. -/
inductive ActionData (π : Type) where
  | vehicleUpdate (d : VehicleUpdateActionData)
  | transmission (t : Transmission π)
  | other

end Cosidia
