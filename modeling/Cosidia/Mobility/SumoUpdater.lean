import Cosidia.Objects.ActionData

/-!
# The updater

`SumoUpdater` turns what SUMO reports after a step into lists of departed, arrived and moving vehicles
and a table of updates.
-/

namespace Cosidia

open EStateM Std

/-- The variables of a vehicle that can be subscribed to. -/
inductive TraCIVariable where
  | speed
  | position
  | angle
  | other
  deriving DecidableEq, Repr

inductive TraCIResult where
  | double (value : Float)
  | position (x y z : Float)
  | other

abbrev TraCIResults := List (TraCIVariable × TraCIResult)

/-- What SUMO reports after a step. -/
structure LiteAPI where
  /-- `VAR_DEPARTED_VEHICLES_IDS` -/
  departed : Option (List String)
  /-- `VAR_ARRIVED_VEHICLES_IDS` -/
  arrived : Option (List String)
  /-- `VAR_TIME` in milliseconds; SUMO gives seconds. -/
  time : Option Int
  /-- `vehicle().getSubscriptionResults` -/
  vehicle : String → TraCIResults
  convertGeo : Float × Float × Float → GeoPosition
  /-- `simulation().getMinExpectedNumber()` -/
  minExpectedNumber : Int
  /-- The order in which an unordered set is traversed. -/
  enumerate : List String → List String
  enumerate_perm : ∀ l, (enumerate l).Perm l
  /-- What the members of a new `VehicleUpdate` happen to be. -/
  indeterminate : Float

structure SumoUpdater where
  mSubscribedVehicles : TreeSet String := ∅

namespace SumoUpdater

structure Results where
  departedVehicles : List String
  arrivedVehicles : List String
  updateVehicles : List String
  updateData : VehicleUpdateActionData

def subscribeVehicle (id : String) : EStateM Failure SumoUpdater Unit :=
  modify fun u => { u with mSubscribedVehicles := u.mSubscribedVehicles.insert id }

/-- The constructor, `running` being the vehicles that are running already. -/
def initSubscriptions (running : List String) : EStateM Failure SumoUpdater Unit :=
  running.forM subscribeVehicle

/-- The body of the loop in `getVehicleUpdate`. -/
def setVariable (api : LiteAPI) (update : VehicleUpdate) :
    TraCIVariable × TraCIResult → Except Failure VehicleUpdate
  | (.speed, .double value) => .ok { update with mSpeed := value }
  | (.speed, _) => .error (.runtimeError "SumoUpdater: Could not cast TraCI Variable")
  | (.position, .position x y z) =>
    let geoPos := api.convertGeo (x, y, z)
    .ok { update with
      mPosition := (x, y, z), mLatitude := geoPos.latitude, mLongitude := geoPos.longitude }
  | (.position, _) => .error (.runtimeError "SumoUpdater: Could not cast TraCIPosition")
  | (.angle, .double value) => .ok { update with mHeading := value }
  | (.angle, _) => .error (.runtimeError "SumoUpdater: could not cast TraCI Heading variable")
  | (.other, _) =>
    .error (.runtimeError "SumoUpdater: Traci Subscription not available in VehicleUpdate")

def getVehicleUpdate (api : LiteAPI) (vehicleVars : TraCIResults) (update : VehicleUpdate) :
    Except Failure VehicleUpdate :=
  vehicleVars.foldlM (setVariable api) update

/-- The update of one vehicle. -/
def updateOf (api : LiteAPI) (vehicle : String) : Except Failure VehicleUpdate :=
  getVehicleUpdate api (api.vehicle vehicle)
    { mLongitude := api.indeterminate, mLatitude := api.indeterminate
      mHeading := api.indeterminate, mSpeed := api.indeterminate, mVehicle := vehicle }

/-- The last loop of `step`. -/
def collect (api : LiteAPI) (actionData : VehicleUpdateActionData) :
    List String → Except Failure VehicleUpdateActionData
  | [] => .ok actionData
  | vehicle :: vehicles =>
    match updateOf api vehicle with
    | .ok update => collect api (actionData.addData vehicle update) vehicles
    | .error e => .error e

/-- `step`; `currentSimTime` is in milliseconds. -/
def step (api : LiteAPI) (currentSimTime : Int) : EStateM Failure SumoUpdater Results := do
  let departedVehicles := api.departed.getD []
  departedVehicles.forM subscribeVehicle
  match api.time with
  | none => throw .nullDereference
  | some currentSumoTime =>
    if currentSimTime ≠ currentSumoTime then
      throw (.assertion "double(currentSimTime.count())/1000 == currentSumoTimeDouble.value")
  let arrivedVehicles := api.arrived.getD []
  arrivedVehicles.forM fun name =>
    modify fun u => { u with mSubscribedVehicles := u.mSubscribedVehicles.erase name }
  let updateVehicles := api.enumerate (← get).mSubscribedVehicles.toList
  let updateData ← ofExcept (collect api {} updateVehicles)
  return { departedVehicles, arrivedVehicles, updateVehicles, updateData }

end SumoUpdater

end Cosidia
