import Cosidia.Traci.TraCIAPI

/-!
# Compound values

The functions of the scopes whose answers or arguments are put together from several values. Almost
every component has its type in front of it, which the client does not look at.
-/

namespace Cosidia.Traci

open EStateM Std Storage TraCIAPI

/-! ## Constants -/

def CMD_GET_INDUCTIONLOOP_VARIABLE : Int := 0xa0
def CMD_GET_TL_VARIABLE : Int := 0xa2
def CMD_GET_LANE_VARIABLE : Int := 0xa3
def CMD_GET_VEHICLE_VARIABLE : Int := 0xa4
def CMD_GET_POLYGON_VARIABLE : Int := 0xa8
def CMD_SET_TL_VARIABLE : Int := 0xc2
def CMD_SET_POLYGON_VARIABLE : Int := 0xc8

def POSITION_LON_LAT_ALT : Int := 0x02
def POSITION_ROADMAP : Int := 0x04
def REQUEST_AIRDIST : Int := 0x00
def REQUEST_DRIVINGDIST : Int := 0x01

def LAST_STEP_VEHICLE_DATA : Int := 0x17
def TL_CONTROLLED_LINKS : Int := 0x27
def TL_COMPLETE_DEFINITION_RYG : Int := 0x2b
def TL_COMPLETE_PROGRAM_RYG : Int := 0x2c
def LANE_LINKS : Int := 0x33
def VAR_FOES : Int := 0x37
def VAR_SHAPE : Int := 0x4e
def VAR_LEADER : Int := 0x68
def VAR_NEXT_TLS : Int := 0x70
def VAR_BEST_LANES : Int := 0xb2
def CMD_CHANGELANE : Int := 0x13
def DISTANCE_REQUEST : Int := 0x83

/-! ## Values -/

structure TraCIPhase where
  duration : Double
  state : Bytes
  minDur : Double
  maxDur : Double
  next : List Int
  name : Bytes
  deriving DecidableEq, Repr

structure TraCILogic where
  programID : Bytes
  type : Int
  currentPhaseIndex : Int
  phases : List TraCIPhase
  subParameter : TreeMap Bytes Bytes

structure TraCILink where
  fromLane : Bytes
  viaLane : Bytes
  toLane : Bytes
  deriving DecidableEq, Repr

structure TraCIConnection where
  approachedLane : Bytes
  hasPrio : Bool
  isOpen : Bool
  hasFoe : Bool
  approachedInternal : Bytes
  state : Bytes
  direction : Bytes
  length : Double
  deriving DecidableEq, Repr

structure TraCIVehicleData where
  id : Bytes
  length : Double
  entryTime : Double
  leaveTime : Double
  typeID : Bytes
  deriving DecidableEq, Repr

structure TraCINextTLSData where
  id : Bytes
  tlIndex : Int
  dist : Double
  /-- A `char`. -/
  state : UInt8
  deriving DecidableEq, Repr

structure TraCIBestLanesData where
  laneID : Bytes
  length : Double
  occupation : Double
  bestLaneOffset : Int
  allowsContinuation : Bool
  continuationLanes : List Bytes
  deriving DecidableEq, Repr

structure TraCIRoadPosition where
  edgeID : Bytes := []
  /-- Not initialised. -/
  pos : Option Double := none
  laneIndex : Int := INVALID_INT_VALUE
  deriving DecidableEq, Repr

/-- A component behind its type. -/
def readTyped {α : Type} (read : StorageM α) : StorageM α := do
  let _ ← readUnsignedByte
  read

/-- A truth value that is told by a byte. -/
def readBool (p : Int → Bool) : StorageM Bool := do
  return p (← readUnsignedByte)

/-- The functions that ask for something and say more than the name of an object. -/
def getValueOf {α : Type} (expectedType : Int) (read : StorageM α) (unknown : α) (cmd var : Int)
    (id : Bytes) (x : StorageM Unit) : ClientM α := do
  let content ← written x
  getValue expectedType read unknown cmd var id (some content)

/-- The functions that set something. -/
def setValueOf (cmd var : Int) (id : Bytes) (x : StorageM Unit) : ClientM Unit := do
  let content ← written x
  createCommand cmd var id (some content)
  let _ ← processSet cmd

/-! ## Induction loops -/

namespace InductionLoopScope

/-- A round of the loop in `getVehicleData`. -/
def readVehicleData : StorageM TraCIVehicleData := do
  let id ← readTyped readString
  let length ← readTyped readDouble
  let entryTime ← readTyped readDouble
  let leaveTime ← readTyped readDouble
  let typeID ← readTyped readString
  return { id, length, entryTime, leaveTime, typeID }

def getVehicleData (loopID : Bytes) : ClientM (List TraCIVehicleData) :=
  getValue TYPE_COMPOUND
    (do
      let _ ← readInt
      readTyped (readCounted readVehicleData))
    [] CMD_GET_INDUCTIONLOOP_VARIABLE LAST_STEP_VEHICLE_DATA loopID none

end InductionLoopScope

/-! ## Lanes -/

namespace LaneScope

/-- A round of the loop in `getLinks`. -/
def readConnection : StorageM TraCIConnection := do
  let approachedLane ← readTyped readString
  let approachedInternal ← readTyped readString
  let hasPrio ← readTyped (readBool (· ≠ 0))
  let isOpen ← readTyped (readBool (· ≠ 0))
  let hasFoe ← readTyped (readBool (· ≠ 0))
  let state ← readTyped readString
  let direction ← readTyped readString
  let length ← readTyped readDouble
  return { approachedLane, hasPrio, isOpen, hasFoe, approachedInternal, state, direction, length }

def getLinks (laneID : Bytes) : ClientM (List TraCIConnection) :=
  getValue TYPE_COMPOUND
    (do
      let _ ← readTyped readInt
      readCounted readConnection)
    [] CMD_GET_LANE_VARIABLE LANE_LINKS laneID none

def getFoes (laneID toLaneID : Bytes) : ClientM (List Bytes) :=
  getValueOf TYPE_STRINGLIST (readCounted readString) [] CMD_GET_LANE_VARIABLE VAR_FOES laneID do
    writeUnsignedByte TYPE_STRING
    writeString toLaneID

def getInternalFoes (laneID : Bytes) : ClientM (List Bytes) := getFoes laneID []

end LaneScope

/-! ## Traffic lights -/

namespace TrafficLightScope

/-- A round of the loop over the phases. -/
def readPhase : StorageM TraCIPhase := do
  let _ ← readTyped readInt
  let duration ← readTyped readDouble
  let state ← readTyped readString
  let minDur ← readTyped readDouble
  let maxDur ← readTyped readDouble
  let next ← readTyped (readCounted (readTyped readInt))
  let name ← readTyped readString
  return { duration, state, minDur, maxDur, next, name }

/-- `par[0]` and `par[1]` of a list of strings. -/
def readSubParameter : StorageM (Bytes × Bytes) := do
  let par ← readTyped readStringList
  if h : 1 < par.length then
    return (par[0], par[1])
  else
    throw .undefined

/-- A round of the loop over the programs. -/
def readLogic : StorageM TraCILogic := do
  let _ ← readTyped readInt
  let programID ← readTyped readString
  let type ← readTyped readInt
  let currentPhaseIndex ← readTyped readInt
  let phases ← readTyped (readCounted readPhase)
  let par ← readTyped (readCounted readSubParameter)
  return {
    programID
    type
    currentPhaseIndex
    phases
    subParameter := par.foldl (fun subParameter p => subParameter.insert p.1 p.2) ∅ }

def getCompleteRedYellowGreenDefinition (tlsID : Bytes) : ClientM (List TraCILogic) :=
  getValue TYPE_COMPOUND (readCounted readLogic) [] CMD_GET_TL_VARIABLE TL_COMPLETE_DEFINITION_RYG
    tlsID none

def writePhase (p : TraCIPhase) : StorageM Unit := do
  writeUnsignedByte TYPE_COMPOUND
  writeInt 6
  writeUnsignedByte TYPE_DOUBLE
  writeDouble p.duration
  writeUnsignedByte TYPE_STRING
  writeString p.state
  writeUnsignedByte TYPE_DOUBLE
  writeDouble p.minDur
  writeUnsignedByte TYPE_DOUBLE
  writeDouble p.maxDur
  writeUnsignedByte TYPE_COMPOUND
  writeInt (toInt p.next.length)
  p.next.forM fun n => do
    writeUnsignedByte TYPE_INTEGER
    writeInt n
  writeUnsignedByte TYPE_STRING
  writeString p.name

/-- What `setCompleteRedYellowGreenDefinition` writes. -/
def writeLogic (logic : TraCILogic) : StorageM Unit := do
  writeUnsignedByte TYPE_COMPOUND
  writeInt 5
  writeUnsignedByte TYPE_STRING
  writeString logic.programID
  writeUnsignedByte TYPE_INTEGER
  writeInt logic.type
  writeUnsignedByte TYPE_INTEGER
  writeInt logic.currentPhaseIndex
  writeUnsignedByte TYPE_COMPOUND
  writeInt (toInt logic.phases.length)
  logic.phases.forM writePhase
  writeUnsignedByte TYPE_COMPOUND
  writeInt (toInt logic.subParameter.size)
  logic.subParameter.toList.forM fun item => do
    writeUnsignedByte TYPE_STRINGLIST
    writeInt 2
    writeString item.1
    writeString item.2

def setCompleteRedYellowGreenDefinition (tlsID : Bytes) (logic : TraCILogic) : ClientM Unit :=
  setValueOf CMD_SET_TL_VARIABLE TL_COMPLETE_PROGRAM_RYG tlsID (writeLogic logic)

/-- A round of the inner loop in `getControlledLinks`. -/
def readLink : StorageM TraCILink := do
  let _ ← readTyped readInt
  let fromLane ← readString
  let toLane ← readString
  let viaLane ← readString
  return { fromLane, viaLane, toLane }

def getControlledLinks (tlsID : Bytes) : ClientM (List (List TraCILink)) :=
  getValue TYPE_COMPOUND
    (do
      let _ ← readTyped readInt
      readCounted (readTyped (readCounted readLink)))
    [] CMD_GET_TL_VARIABLE TL_CONTROLLED_LINKS tlsID none

end TrafficLightScope

/-! ## Vehicles -/

namespace VehicleScope

/-- A signed byte as a `char`. -/
def readState : StorageM UInt8 := do
  return UInt8.ofInt (← readByte)

/-- A round of the loop in `getNextTLS`. -/
def readNextTLS : StorageM TraCINextTLSData := do
  let id ← readTyped readString
  let tlIndex ← readTyped readInt
  let dist ← readTyped readDouble
  let state ← readTyped readState
  return { id, tlIndex, dist, state }

def getNextTLS (vehID : Bytes) : ClientM (List TraCINextTLSData) :=
  getValue TYPE_COMPOUND
    (do
      let _ ← readInt
      readTyped (readCounted readNextTLS))
    [] CMD_GET_VEHICLE_VARIABLE VAR_NEXT_TLS vehID none

/-- A round of the loop in `getBestLanes`. -/
def readBestLanes : StorageM TraCIBestLanesData := do
  let laneID ← readTyped readString
  let length ← readTyped readDouble
  let occupation ← readTyped readDouble
  let bestLaneOffset ← readTyped readByte
  let allowsContinuation ← readTyped (readBool (· = 1))
  let continuationLanes ← readTyped (readCounted readString)
  return { laneID, length, occupation, bestLaneOffset, allowsContinuation, continuationLanes }

def getBestLanes (vehicleID : Bytes) : ClientM (List TraCIBestLanesData) :=
  getValue TYPE_COMPOUND
    (do
      let _ ← readInt
      readTyped (readCounted readBestLanes))
    [] CMD_GET_VEHICLE_VARIABLE VAR_BEST_LANES vehicleID none

def getLeader (vehicleID : Bytes) (dist : Double) : ClientM (Bytes × Double) :=
  getValueOf TYPE_COMPOUND
    (do
      let _ ← readInt
      let leaderID ← readTyped readString
      let gap ← readTyped readDouble
      return (leaderID, gap))
    ([], INVALID_DOUBLE_VALUE) CMD_GET_VEHICLE_VARIABLE VAR_LEADER vehicleID do
      writeByte TYPE_DOUBLE
      writeDouble dist

def getLaneChangeState (vehicleID : Bytes) (direction : Int) : ClientM (Int × Int) :=
  getValueOf TYPE_COMPOUND
    (do
      let _ ← readInt
      let stateWithoutTraCI ← readTyped readInt
      let state ← readTyped readInt
      return (stateWithoutTraCI, state))
    (INVALID_INT_VALUE, INVALID_INT_VALUE) CMD_GET_VEHICLE_VARIABLE CMD_CHANGELANE vehicleID do
      writeByte TYPE_INTEGER
      writeInt direction

end VehicleScope

/-! ## Polygons -/

namespace PolygonScope

def getShape (polygonID : Bytes) : ClientM (List TraCIPosition) :=
  getPolygon CMD_GET_POLYGON_VARIABLE VAR_SHAPE polygonID none

/-- What `setShape` writes. -/
def writeShape (shape : List TraCIPosition) : StorageM Unit := do
  writeUnsignedByte TYPE_POLYGON
  if shape.length < 256 then
    writeUnsignedByte (toInt shape.length)
  else
    writeUnsignedByte 0
    writeInt (toInt shape.length)
  shape.forM fun pos => do
    writeDouble pos.x
    writeDouble pos.y

def setShape (polygonID : Bytes) (shape : List TraCIPosition) : ClientM Unit :=
  setValueOf CMD_SET_POLYGON_VARIABLE VAR_SHAPE polygonID (writeShape shape)

end PolygonScope

/-! ## The simulation -/

namespace SimulationScope

/-- What `convert2D` and `convert3D` write. -/
def writeRoadPosition (edgeID : Bytes) (pos : Double) (laneIndex posType : Int) : StorageM Unit := do
  writeByte TYPE_COMPOUND
  writeInt 2
  writeByte POSITION_ROADMAP
  writeString edgeID
  writeDouble pos
  writeByte laneIndex
  writeByte TYPE_UBYTE
  writeByte posType

def convert2D (edgeID : Bytes) (pos : Double) (laneIndex : Int) (toGeo : Bool) :
    ClientM TraCIPosition :=
  let posType := if toGeo then POSITION_LON_LAT else POSITION_2D
  getValueOf posType
    (do
      let x ← readDouble
      let y ← readDouble
      return { x, y })
    {} CMD_GET_SIM_VARIABLE POSITION_CONVERSION [] (writeRoadPosition edgeID pos laneIndex posType)

def convert3D (edgeID : Bytes) (pos : Double) (laneIndex : Int) (toGeo : Bool) :
    ClientM TraCIPosition :=
  let posType := if toGeo then POSITION_LON_LAT_ALT else POSITION_3D
  getValueOf posType readPosition3D {} CMD_GET_SIM_VARIABLE POSITION_CONVERSION []
    (writeRoadPosition edgeID pos laneIndex posType)

def convertRoad (x y : Double) (isGeo : Bool) (vClass : Bytes) : ClientM TraCIRoadPosition :=
  getValueOf POSITION_ROADMAP
    (do
      let edgeID ← readString
      let pos ← readDouble
      let laneIndex ← readUnsignedByte
      return { edgeID, pos, laneIndex })
    {} CMD_GET_SIM_VARIABLE POSITION_CONVERSION [] do
      writeByte TYPE_COMPOUND
      writeInt 3
      writeByte (if isGeo then POSITION_LON_LAT else POSITION_2D)
      writeDouble x
      writeDouble y
      writeByte TYPE_UBYTE
      writeByte POSITION_ROADMAP
      writeByte TYPE_STRING
      writeString vClass

def getDistance2D (x1 y1 x2 y2 : Double) (isGeo isDriving : Bool) : ClientM Double :=
  getValueOf TYPE_DOUBLE readDouble 0 CMD_GET_SIM_VARIABLE DISTANCE_REQUEST [] do
    writeByte TYPE_COMPOUND
    writeInt 3
    writeByte (if isGeo then POSITION_LON_LAT else POSITION_2D)
    writeDouble x1
    writeDouble y1
    writeByte (if isGeo then POSITION_LON_LAT else POSITION_2D)
    writeDouble x2
    writeDouble y2
    writeByte (if isDriving then REQUEST_DRIVINGDIST else REQUEST_AIRDIST)

def getDistanceRoad (edgeID1 : Bytes) (pos1 : Double) (edgeID2 : Bytes) (pos2 : Double)
    (isDriving : Bool) : ClientM Double :=
  getValueOf TYPE_DOUBLE readDouble 0 CMD_GET_SIM_VARIABLE DISTANCE_REQUEST [] do
    writeByte TYPE_COMPOUND
    writeInt 3
    writeByte POSITION_ROADMAP
    writeString edgeID1
    writeDouble pos1
    writeByte 0
    writeByte POSITION_ROADMAP
    writeString edgeID2
    writeDouble pos2
    writeByte 0
    writeByte (if isDriving then REQUEST_DRIVINGDIST else REQUEST_AIRDIST)

end SimulationScope

end Cosidia.Traci
