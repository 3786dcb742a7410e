import Std.Data.TreeSet
import Cosidia.Traci.TraCIAPI

/-!
# The updater and its client

What `SumoUpdater` asks of SUMO: it subscribes to the simulation and to every vehicle that departs, and
after each step it collects what has been reported about the vehicles, whose positions it has converted.
The mobility manager makes SUMO step in between.
-/

namespace Cosidia.Traci

open EStateM Std

def TRACI_ID_LIST : Int := 0x00
def VAR_SPEED : Int := 0x40
def VAR_POSITION : Int := 0x42
def VAR_ANGLE : Int := 0x43
def VAR_TIME : Int := 0x66
def VAR_DEPARTED_VEHICLES_IDS : Int := 0x74
def VAR_TELEPORT_STARTING_VEHICLES_IDS : Int := 0x76
def VAR_ARRIVED_VEHICLES_IDS : Int := 0x7a
def VAR_DELTA_T : Int := 0x7b
def VAR_MIN_EXPECTED_VEHICLES : Int := 0x7d

structure TraCIGeoPosition where
  longitude : Double
  latitude : Double
  deriving DecidableEq, Repr

namespace TraCIAPI

/-- `vehicle().getIDList()` -/
def getIDList : ClientM (List Bytes) := getStringVector Scope.vehicle.myCmdGetID TRACI_ID_LIST [] none

/-- `simulation().getMinExpectedNumber()` -/
def getMinExpectedNumber : ClientM Int := getInt CMD_GET_SIM_VARIABLE VAR_MIN_EXPECTED_VEHICLES [] none

/-- `API::convertGeo` -/
def convertPosition (pos : TraCIPosition) : ClientM TraCIGeoPosition := do
  let result ← convertGeo pos.x pos.y false
  return { longitude := result.x, latitude := result.y }

end TraCIAPI

/-- The update of a vehicle; a member that is `none` is as it is in a new update. -/
structure VehicleUpdate where
  mPosition : Option TraCIPosition := none
  mLongitude : Option Double := none
  mLatitude : Option Double := none
  mHeading : Option Double := none
  mSpeed : Option Double := none
  mVehicle : Bytes
  deriving DecidableEq, Repr

structure SumoUpdater where
  mVehicleVars : List Int := []
  mSimVars : List Int := []
  mSubscribedVehicles : TreeSet Bytes := ∅

/-- What the updater finds where it runs, at some time. -/
structure Host where
  /-- The order in which an unordered set is traversed. -/
  enumerate : List Bytes → List Bytes
  enumerate_perm : ∀ l, (enumerate l).Perm l
  /-- `double(currentSimTime.count())/1000 == value` -/
  sameTime : Int → Double → Bool

/-- Programs of the updater, whose `mLiteApi` is the client. -/
abbrev UpdaterM := EStateM Error (SumoUpdater × TraCIAPI)

namespace SumoUpdater

structure Results where
  departedVehicles : List Bytes
  arrivedVehicles : List Bytes
  updateVehicles : List Bytes
  updateData : TreeMap Bytes VehicleUpdate

def modifyUpdater (f : SumoUpdater → SumoUpdater) : UpdaterM Unit := modify fun p => (f p.1, p.2)

def onLiteApi {α : Type} (x : ClientM α) : UpdaterM α := storing x

/-! ## Subscriptions -/

/-- `std::set_union` of two sorted ranges. -/
def setUnion : List Int → List Int → List Int
  | [], bs => bs
  | as, [] => as
  | a :: as, b :: bs =>
    if a < b then a :: setUnion as (b :: bs)
    else if b < a then b :: setUnion (a :: as) bs
    else a :: setUnion as bs
  termination_by as bs => as.length + bs.length

def subscribeSimulationVariables (add_vars : List Int) : UpdaterM Unit := do
  let tmp_vars := (← get).1.mSimVars
  modifyUpdater fun u => { u with mSimVars := setUnion u.mSimVars add_vars }
  let mSimVars := (← get).1.mSimVars
  if mSimVars.length < tmp_vars.length then
    throw (.assertion "mSimVars.size() >= tmp_vars.size()")
  if mSimVars.length ≠ tmp_vars.length then
    onLiteApi (TraCIAPI.subscribe .simulation [] mSimVars INVALID_DOUBLE_VALUE INVALID_DOUBLE_VALUE)

def updateVehicleSubscription (id : Bytes) (vars : List Int) : UpdaterM Unit :=
  onLiteApi (TraCIAPI.subscribe .vehicle id vars INVALID_DOUBLE_VALUE INVALID_DOUBLE_VALUE)

def subscribeVehicle (id : Bytes) : UpdaterM Unit := do
  let mVehicleVars := (← get).1.mVehicleVars
  if !mVehicleVars.isEmpty then
    updateVehicleSubscription id mVehicleVars
  modifyUpdater fun u => { u with mSubscribedVehicles := u.mSubscribedVehicles.insert id }

/-- The variables of the simulation, which a `std::set` sorts. -/
def simulationVars : List Int :=
  [VAR_TIME, VAR_DEPARTED_VEHICLES_IDS, VAR_TELEPORT_STARTING_VEHICLES_IDS, VAR_ARRIVED_VEHICLES_IDS,
    VAR_DELTA_T]

def initSubscriptions : UpdaterM Unit := do
  modifyUpdater fun u => { u with
    mVehicleVars := u.mVehicleVars ++ [VAR_SPEED, VAR_POSITION, VAR_ANGLE] }
  subscribeSimulationVariables simulationVars
  (← onLiteApi TraCIAPI.getIDList).forM subscribeVehicle

/-! ## A step -/

/-- The body of the loop in `getVehicleUpdate`. -/
def setVariable (update : VehicleUpdate) (vehicleVar : Int × TraCIResult) : ClientM VehicleUpdate := do
  if vehicleVar.1 = VAR_SPEED then
    match vehicleVar.2 with
    | .double value => return { update with mSpeed := some value }
    | _ => throw (.runtimeError "SumoUpdater: Could not cast TraCI Variable")
  else if vehicleVar.1 = VAR_POSITION then
    match vehicleVar.2 with
    | .position pos =>
      let geoPos ← TraCIAPI.convertPosition pos
      return { update with
        mPosition := some pos
        mLatitude := some geoPos.latitude
        mLongitude := some geoPos.longitude }
    | _ => throw (.runtimeError "SumoUpdater: Could not cast TraCIPosition")
  else if vehicleVar.1 = VAR_ANGLE then
    match vehicleVar.2 with
    | .double value => return { update with mHeading := some value }
    | _ => throw (.runtimeError "SumoUpdater: could not cast TraCI Heading variable")
  else
    throw (.runtimeError "SumoUpdater: Traci Subscription not available in VehicleUpdate")

def getVehicleUpdate (vehicleVars : TraCIResults) (update : VehicleUpdate) : ClientM VehicleUpdate :=
  vehicleVars.toList.foldlM setVariable update

/-- The last loop of `step`. -/
def collect (actionData : TreeMap Bytes VehicleUpdate) :
    List Bytes → ClientM (TreeMap Bytes VehicleUpdate)
  | [] => return actionData
  | vehicle :: vehicles => do
    let vehicleVars := (← get).getSubscriptionResults .vehicle vehicle
    let update ← getVehicleUpdate vehicleVars { mVehicle := vehicle }
    collect (actionData.insert vehicle update) vehicles

/-- The vehicles a variable of the simulation lists, if it has been reported. -/
def vehicles (simvars : TraCIResults) (var : Int) : UpdaterM (List Bytes) :=
  match simvars[var]? with
  | some (.stringList value) => return value
  | some _ => throw .badCast
  | none => return []

/-- The test of the time that SUMO has reported; `currentSimTime` is in milliseconds. -/
def checkTime (host : Host) (simvars : TraCIResults) (currentSimTime : Int) : UpdaterM Unit :=
  match simvars[VAR_TIME]? with
  | some (.double value) =>
    if host.sameTime currentSimTime value then
      return ()
    else
      throw (.assertion "double(currentSimTime.count())/1000 == currentSumoTimeDouble.value")
  | some _ => throw .badCast
  | none => throw .undefined

def step (host : Host) (currentSimTime : Int) : UpdaterM Results := do
  let simvars := (← get).2.getSubscriptionResults .simulation []
  let departedVehicles ← vehicles simvars VAR_DEPARTED_VEHICLES_IDS
  departedVehicles.forM subscribeVehicle
  checkTime host simvars currentSimTime
  let arrivedVehicles ← vehicles simvars VAR_ARRIVED_VEHICLES_IDS
  arrivedVehicles.forM fun name =>
    modifyUpdater fun u => { u with mSubscribedVehicles := u.mSubscribedVehicles.erase name }
  let updateVehicles := host.enumerate (← get).1.mSubscribedVehicles.toList
  let updateData ← onLiteApi (collect ∅ updateVehicles)
  return { departedVehicles, arrivedVehicles, updateVehicles, updateData }

end SumoUpdater

namespace SumoMobilityManager

/-- `mUpdateInterval.count()/1000`, a quotient of integers. -/
def stepLength : Double := 0

/-- What `initObject` does once it is connected. -/
def initObject : UpdaterM Unit := do
  SumoUpdater.initSubscriptions
  SumoUpdater.onLiteApi (TraCIAPI.simulationStep stepLength)

/-- What `doVehicleUpdate` has to do with SUMO. -/
def doVehicleUpdate (host : Host) (currentSimTime : Int) :
    UpdaterM (SumoUpdater.Results × Int) := do
  let res ← SumoUpdater.step host currentSimTime
  let minExpectedNumber ← SumoUpdater.onLiteApi TraCIAPI.getMinExpectedNumber
  SumoUpdater.onLiteApi (TraCIAPI.simulationStep stepLength)
  return (res, minExpectedNumber)

/-- The updates at some times. -/
def run : List (Host × Int) → UpdaterM (List (SumoUpdater.Results × Int))
  | [] => return []
  | (host, t) :: ts => do
    let r ← doVehicleUpdate host t
    return r :: (← run ts)

end SumoMobilityManager

end Cosidia.Traci
