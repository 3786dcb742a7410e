import Std.Data.TreeMap
import Cosidia.Traci.Socket

/-!
# The TraCI client

`TraCIAPI` asks SUMO for values and changes, and keeps what SUMO reports after a step about the
variables that have been subscribed to. A request is one message, and so is its answer, which begins
with a status.
-/

namespace Cosidia.Traci

open EStateM Std Storage

/-! ## Constants -/

def CMD_GETVERSION : Int := 0x00
def CMD_LOAD : Int := 0x01
def CMD_SIMSTEP : Int := 0x02
def CMD_SETORDER : Int := 0x03
def CMD_CLOSE : Int := 0x7F
def CMD_GET_SIM_VARIABLE : Int := 0xab

def RTYPE_OK : Int := 0x00
def RTYPE_NOTIMPLEMENTED : Int := 0x01
def RTYPE_ERR : Int := 0xFF

def POSITION_LON_LAT : Int := 0x00
def POSITION_2D : Int := 0x01
def POSITION_3D : Int := 0x03
def TYPE_POLYGON : Int := 0x06
def TYPE_UBYTE : Int := 0x07
def TYPE_BYTE : Int := 0x08
def TYPE_INTEGER : Int := 0x09
def TYPE_DOUBLE : Int := 0x0B
def TYPE_STRING : Int := 0x0C
def TYPE_STRINGLIST : Int := 0x0E
def TYPE_COMPOUND : Int := 0x0F
def TYPE_COLOR : Int := 0x11

def VAR_PARAMETER : Int := 0x7e
def POSITION_CONVERSION : Int := 0x82

/-- `-1073741824.0` -/
def INVALID_DOUBLE_VALUE : Double := 0xC1D0000000000000

def INVALID_INT_VALUE : Int := -1073741824

/-! ## Results -/

structure TraCIPosition where
  x : Double := INVALID_DOUBLE_VALUE
  y : Double := INVALID_DOUBLE_VALUE
  z : Double := INVALID_DOUBLE_VALUE
  deriving DecidableEq, Repr

structure TraCIColor where
  r : Int := 0
  g : Int := 0
  b : Int := 0
  a : Int := 255
  deriving DecidableEq, Repr

inductive TraCIResult where
  | double (value : Double)
  | string (value : Bytes)
  | position (value : TraCIPosition)
  | color (value : TraCIColor)
  | int (value : Int)
  | stringList (value : List Bytes)
  deriving DecidableEq, Repr

abbrev TraCIResults := TreeMap Int TraCIResult

abbrev SubscriptionResults := TreeMap Bytes TraCIResults

abbrev ContextSubscriptionResults := TreeMap Bytes SubscriptionResults

/-- The members of `TraCIAPI` that are scopes. -/
inductive Scope where
  | edge
  | gui
  | inductionloop
  | junction
  | lane
  | lanearea
  | multientryexit
  | person
  | poi
  | polygon
  | route
  | simulation
  | trafficlights
  | vehicle
  | vehicletype
  deriving DecidableEq, Repr

namespace Scope

/-- The number of the scope in the protocol, from which its commands are made. -/
def index : Scope → Int
  | inductionloop => 0x0
  | multientryexit => 0x1
  | trafficlights => 0x2
  | lane => 0x3
  | vehicle => 0x4
  | vehicletype => 0x5
  | route => 0x6
  | poi => 0x7
  | polygon => 0x8
  | junction => 0x9
  | edge => 0xa
  | simulation => 0xb
  | gui => 0xc
  | lanearea => 0xd
  | person => 0xe

/-- `CMD_GET_.._VARIABLE` -/
def myCmdGetID (scope : Scope) : Int := 0xa0 + scope.index

/-- `CMD_SET_.._VARIABLE`, which some scopes do not have -/
def myCmdSetID : Scope → Int
  | inductionloop | lanearea | multientryexit => -1
  | scope => 0xc0 + scope.index

/-- `CMD_SUBSCRIBE_.._VARIABLE` -/
def mySubscribeID (scope : Scope) : Int := 0xd0 + scope.index

/-- `CMD_SUBSCRIBE_.._CONTEXT` -/
def myContextSubscribeID (scope : Scope) : Int := 0x80 + scope.index

/-- `RESPONSE_SUBSCRIBE_.._VARIABLE` -/
def response (scope : Scope) : Int := 0xe0 + scope.index

end Scope

/-- What the constructor of `TraCIAPI` enters into `myDomains`. -/
def domains : List Scope :=
  [.edge, .gui, .junction, .lane, .lanearea, .multientryexit, .person, .poi, .polygon, .route,
    .simulation, .trafficlights, .vehicle, .vehicletype]

/-- `myDomains`; what is not in it is taken for a null pointer. -/
def myDomains (cmdId : Int) : Option Scope := domains.find? fun scope => scope.response = cmdId

structure TraCIAPI where
  mySocket : Option Socket
  myOutput : Storage
  myInput : Storage
  /-- `mySubscriptionResults` of each scope -/
  mySubscriptionResults : Scope → SubscriptionResults
  /-- `myContextSubscriptionResults` of each scope -/
  myContextSubscriptionResults : Scope → ContextSubscriptionResults
  /-- The byte order of the host. -/
  bigEndian : Bool

abbrev ClientM := EStateM Error TraCIAPI

/-- Programs that read a message, `inMsg`. -/
abbrev MessageM := EStateM Error (Storage × TraCIAPI)

/-- Characters above 127 are of no interest here. -/
def text (s : Bytes) : String := String.ofList (s.map fun b => Char.ofNat b.toNat)

namespace TraCIAPI

/-- The constructor. -/
def new (bigEndian : Bool) : TraCIAPI where
  mySocket := none
  myOutput := .new bigEndian
  myInput := .new bigEndian
  mySubscriptionResults _ := ∅
  myContextSubscriptionResults _ := ∅
  bigEndian

/-- `mySocket->` -/
def onSocket {α : Type} (x : SocketM α) : ClientM α := fun api =>
  match api.mySocket with
  | none => .error .nullDereference api
  | some socket =>
    match x socket with
    | .ok a socket => .ok a { api with mySocket := some socket }
    | .error e socket => .error e { api with mySocket := some socket }

def onOutput {α : Type} (x : StorageM α) : ClientM α :=
  zoom myOutput (fun s api => { api with myOutput := s }) x

/-- `myInput` is the message. -/
def onInput {α : Type} (x : MessageM α) : ClientM α := fun api =>
  match x (api.myInput, api) with
  | .ok a (s, api) => .ok a { api with myInput := s }
  | .error e (s, api) => .error e { api with myInput := s }

/-- A local storage is the message. -/
def withMessage {α : Type} (x : MessageM α) : ClientM α := fun api =>
  match x (.new api.bigEndian, api) with
  | .ok a (_, api) => .ok a api
  | .error e (_, api) => .error e api

/-- A local storage into which `x` writes. -/
def written (x : StorageM Unit) : ClientM Storage := do
  match x (.new (← get).bigEndian) with
  | .ok _ s => return s
  | .error e _ => throw e

/-! ## Requests -/

def send_commandSimulationStep (time : Double) : ClientM Unit := do
  let outMsg ← written do
    writeUnsignedByte (1 + 1 + 8)
    writeUnsignedByte CMD_SIMSTEP
    writeDouble time
  onSocket (Socket.sendExact outMsg)

def send_commandClose : ClientM Unit := do
  let outMsg ← written do
    writeUnsignedByte (1 + 1)
    writeUnsignedByte CMD_CLOSE
  onSocket (Socket.sendExact outMsg)

def send_commandSetOrder (order : Int) : ClientM Unit := do
  let outMsg ← written do
    writeUnsignedByte (1 + 1 + 4)
    writeUnsignedByte CMD_SETORDER
    writeInt order
  onSocket (Socket.sendExact outMsg)

def createCommand (cmdID varID : Int) (objID : Bytes) (add : Option Storage) : ClientM Unit :=
  onOutput do
    reset
    let length := 1 + 1 + 1 + 4 + toInt objID.length + (add.map fun s => toInt s.store.length).getD 0
    if length ≤ 255 then
      writeUnsignedByte length
    else
      writeUnsignedByte 0
      writeInt (length + 4)
    writeUnsignedByte cmdID
    writeUnsignedByte varID
    writeString objID
    add.forM writeStorage

def send_commandSubscribeObjectVariable (domID : Int) (objID : Bytes) (beginTime endTime : Double)
    (vars : List Int) : ClientM Unit := do
  if (← get).mySocket.isNone then
    throw (.socketException "Socket is not initialised")
  let varNo := toInt vars.length
  let outMsg ← written do
    writeUnsignedByte 0
    writeInt (5 + 1 + 8 + 8 + 4 + toInt objID.length + 1 + varNo)
    writeUnsignedByte domID
    writeDouble beginTime
    writeDouble endTime
    writeString objID
    writeUnsignedByte varNo
    (vars.take varNo.toNat).forM writeUnsignedByte
  onSocket (Socket.sendExact outMsg)

def send_commandSubscribeObjectContext (domID : Int) (objID : Bytes) (beginTime endTime : Double)
    (domain : Int) (range : Double) (vars : List Int) : ClientM Unit := do
  if (← get).mySocket.isNone then
    throw (.socketException "Socket is not initialised")
  let varNo := toInt vars.length
  let outMsg ← written do
    writeUnsignedByte 0
    writeInt (5 + 1 + 8 + 8 + 4 + toInt objID.length + 1 + 8 + 1 + varNo)
    writeUnsignedByte domID
    writeDouble beginTime
    writeDouble endTime
    writeString objID
    writeUnsignedByte domain
    writeDouble range
    writeUnsignedByte varNo
    (vars.take varNo.toNat).forM writeUnsignedByte
  onSocket (Socket.sendExact outMsg)

/-! ## Answers -/

/-- `check_resultState` after the message has been received; gives the description. -/
def resultState (command : Int) (ignoreCommandId : Bool) : StorageM Bytes := do
  let cmdStart : Int := (← get).position
  let (cmdLength, resultType, msg) ← tryCatch (do
      let cmdLength ← readUnsignedByte
      let cmdId ← readUnsignedByte
      if command ≠ cmdId ∧ !ignoreCommandId then
        throw (.traciException (s!"#Error: received status response to command: {cmdId} but " ++
          s!"expected: {command}"))
      let resultType ← readUnsignedByte
      return (cmdLength, resultType, ← readString))
    fun
      | .invalidArgument _ => throw
        (.traciException "#Error: an exception was thrown while reading result state message")
      | e => throw e
  if resultType = RTYPE_ERR then
    throw (.traciException
      s!".. Answered with error to command ({command}), [description: {text msg}]")
  else if resultType = RTYPE_NOTIMPLEMENTED then
    throw (.traciException
      s!".. Sent command is not implemented ({command}), [description: {text msg}]")
  else if resultType ≠ RTYPE_OK then
    throw (.traciException (s!".. Answered with unknown result code({resultType}) to " ++
      s!"command({command}), [description: {text msg}]"))
  if cmdStart + cmdLength ≠ (← get).position then
    throw (.traciException s!"#Error: command at position {cmdStart} has wrong length")
  return msg

def check_resultState (command : Int) (ignoreCommandId : Bool) : MessageM Bytes := do
  let inMsg ← storing (onSocket Socket.receiveExact)
  modify fun p => (inMsg, p.2)
  reading (resultState command ignoreCommandId)

def check_commandGetResult (command expectedType : Int) (ignoreCommandId : Bool) :
    StorageM Int := do
  let length ← readUnsignedByte
  if length = 0 then
    let _ ← readInt
  let cmdId ← readUnsignedByte
  if !ignoreCommandId ∧ cmdId ≠ command + 0x10 then
    throw (.traciException (s!"#Error: received response with command id: {cmdId}but expected: " ++
      s!"{command + 0x10}"))
  if expectedType ≥ 0 then
    let _ ← readUnsignedByte
    let _ ← readString
    let valueDataType ← readUnsignedByte
    if valueDataType ≠ expectedType then
      throw (.traciException s!"Expected {expectedType} but got {valueDataType}")
  return cmdId

def processGet (command expectedType : Int) : ClientM Bool := do
  if (← get).mySocket.isNone then
    return false
  onSocket (Socket.sendExact (← get).myOutput)
  onInput do
    reading reset
    let _ ← check_resultState command false
    let _ ← reading (check_commandGetResult command expectedType false)
  return true

def processSet (command : Int) : ClientM Bool := do
  if (← get).mySocket.isNone then
    return false
  onSocket (Socket.sendExact (← get).myOutput)
  onInput do
    reading reset
    let _ ← check_resultState command false
  return true

/-! ## Single values -/

/-- The functions that get one value: how it is read, and what they give without a connection. -/
def getValue {α : Type} (expectedType : Int) (read : StorageM α) (unknown : α) (cmd var : Int)
    (id : Bytes) (add : Option Storage) : ClientM α := do
  createCommand cmd var id add
  if ← processGet cmd expectedType then
    onInput (reading read)
  else
    return unknown

def getUnsignedByte := getValue TYPE_UBYTE readUnsignedByte INVALID_INT_VALUE

def getByte := getValue TYPE_BYTE readByte INVALID_INT_VALUE

def getInt := getValue TYPE_INTEGER readInt INVALID_INT_VALUE

def getDouble := getValue TYPE_DOUBLE readDouble INVALID_DOUBLE_VALUE

def getString := getValue TYPE_STRING readString []

/-- A list whose elements are counted; a negative count is none. -/
def readCounted {α : Type} (read : StorageM α) : StorageM (List α) := do
  replicateM read (← readInt).toNat

def getStringVector := getValue TYPE_STRINGLIST (readCounted readString) []

def readPosition2D : StorageM TraCIPosition := do
  let x ← readDouble
  let y ← readDouble
  return { x, y, z := 0 }

def readPosition3D : StorageM TraCIPosition := do
  let x ← readDouble
  let y ← readDouble
  let z ← readDouble
  return { x, y, z }

def getPosition := getValue POSITION_2D readPosition2D {}

def getPosition3D := getValue POSITION_3D readPosition3D {}

def readColor : StorageM TraCIColor := do
  let r ← readUnsignedByte
  let g ← readUnsignedByte
  let b ← readUnsignedByte
  let a ← readUnsignedByte
  return { r, g, b, a }

def getColor := getValue TYPE_COLOR readColor {}

def readPolygon : StorageM (List TraCIPosition) := do
  let size ← readUnsignedByte
  if size = 0 then
    readCounted readPosition2D
  else
    replicateM readPosition2D size.toNat

def getPolygon := getValue TYPE_POLYGON readPolygon []

def getParameter (scope : Scope) (objectID key : Bytes) : ClientM Bytes := do
  let content ← written do
    writeByte TYPE_STRING
    writeString key
  getString scope.myCmdGetID VAR_PARAMETER objectID (some content)

def setParameter (scope : Scope) (objectID key value : Bytes) : ClientM Unit := do
  let content ← written do
    writeUnsignedByte TYPE_COMPOUND
    writeInt 2
    writeUnsignedByte TYPE_STRING
    writeString key
    writeUnsignedByte TYPE_STRING
    writeString value
  createCommand scope.myCmdSetID VAR_PARAMETER objectID (some content)
  let _ ← processSet scope.myCmdSetID

/-- `SimulationScope::convertGeo` -/
def convertGeo (x y : Double) (fromGeo : Bool) : ClientM TraCIPosition := do
  let posType := if fromGeo then POSITION_2D else POSITION_LON_LAT
  let content ← written do
    writeByte TYPE_COMPOUND
    writeInt 2
    writeByte (if fromGeo then POSITION_LON_LAT else POSITION_2D)
    writeDouble x
    writeDouble y
    writeByte TYPE_UBYTE
    writeByte posType
  createCommand CMD_GET_SIM_VARIABLE POSITION_CONVERSION [] (some content)
  if ← processGet CMD_GET_SIM_VARIABLE posType then
    onInput (reading do
      let x ← readDouble
      let y ← readDouble
      return { x, y })
  else
    return {}

/-! ## Subscriptions -/

/-- A value of a variable that has been subscribed to. -/
def readResult (type : Int) : StorageM TraCIResult :=
  if type = TYPE_DOUBLE then return .double (← readDouble)
  else if type = TYPE_STRING then return .string (← readString)
  else if type = POSITION_2D then return .position (← readPosition2D)
  else if type = POSITION_3D then return .position (← readPosition3D)
  else if type = TYPE_COLOR then return .color (← readColor)
  else if type = TYPE_INTEGER then return .int (← readInt)
  else if type = TYPE_STRINGLIST then return .stringList (← readCounted readString)
  else throw (.traciException s!"Unimplemented subscription type: {type}")

/-- `into[objectID][variableID] = value` -/
def assign (into : SubscriptionResults) (objectID : Bytes) (variableID : Int) (value : TraCIResult) :
    SubscriptionResults :=
  into.insert objectID ((into.getD objectID ∅).insert variableID value)

/-- A round of `readVariables`. -/
def readVariable (objectID : Bytes) : EStateM Error (Storage × SubscriptionResults) Unit := do
  let variableID ← reading readUnsignedByte
  let status ← reading readUnsignedByte
  let type ← reading readUnsignedByte
  if status = RTYPE_OK then
    let value ← reading (readResult type)
    storing (modify fun into => assign into objectID variableID value)
  else
    throw (.traciException
      s!"Subscription response error: variableID={variableID} status={status}")

def readVariables (objectID : Bytes) (variableCount : Int) :
    EStateM Error (Storage × SubscriptionResults) Unit :=
  repeatM (readVariable objectID) variableCount.toNat

/-- `getModifiableSubscriptionResults` -/
def modifiable {α : Type} (scope : Scope) (x : EStateM Error (Storage × SubscriptionResults) α) :
    MessageM α :=
  focusing (fun api => api.mySubscriptionResults scope)
    (fun into api => { api with
      mySubscriptionResults := Function.update api.mySubscriptionResults scope into }) x

/-- `getModifiableContextSubscriptionResults` -/
def modifiableContext {α : Type} (scope : Scope) (contextID : Bytes)
    (x : EStateM Error (Storage × SubscriptionResults) α) : MessageM α :=
  focusing (fun api => (api.myContextSubscriptionResults scope).getD contextID ∅)
    (fun into api => { api with
      myContextSubscriptionResults := Function.update api.myContextSubscriptionResults scope
        ((api.myContextSubscriptionResults scope).insert contextID into) }) x

def readVariableSubscription (cmdId : Int) : MessageM Unit := do
  let objectID ← reading readString
  let variableCount ← reading readUnsignedByte
  match myDomains cmdId with
  | some scope => modifiable scope (readVariables objectID variableCount)
  | none => throw .nullDereference

def readContextSubscription (cmdId : Int) : MessageM Unit := do
  let contextID ← reading readString
  let _ ← reading readUnsignedByte
  let variableCount ← reading readUnsignedByte
  let numObjects ← reading readInt
  repeatM (do
    let objectID ← reading readString
    match myDomains cmdId with
    | some scope => modifiableContext scope contextID (readVariables objectID variableCount)
    | none => throw .nullDereference) numObjects.toNat

def clearSubscriptionResults (scope : Scope) : ClientM Unit :=
  modify fun api => { api with
    mySubscriptionResults := Function.update api.mySubscriptionResults scope ∅
    myContextSubscriptionResults := Function.update api.myContextSubscriptionResults scope ∅ }

def getSubscriptionResults (api : TraCIAPI) (scope : Scope) (objID : Bytes) : TraCIResults :=
  (api.mySubscriptionResults scope).getD objID ∅

def getContextSubscriptionResults (api : TraCIAPI) (scope : Scope) (objID : Bytes) :
    SubscriptionResults :=
  (api.myContextSubscriptionResults scope).getD objID ∅

def subscribe (scope : Scope) (objID : Bytes) (vars : List Int) (beginTime endTime : Double) :
    ClientM Unit := do
  send_commandSubscribeObjectVariable scope.mySubscribeID objID beginTime endTime vars
  withMessage do
    let _ ← check_resultState scope.mySubscribeID false
    if vars.length > 0 then
      let _ ← reading (check_commandGetResult scope.mySubscribeID (-1) false)
      readVariableSubscription (scope.mySubscribeID + 0x10)

def subscribeContext (scope : Scope) (objID : Bytes) (domain : Int) (range : Double)
    (vars : List Int) (beginTime endTime : Double) : ClientM Unit := do
  send_commandSubscribeObjectContext scope.myContextSubscribeID objID beginTime endTime domain range
    vars
  withMessage do
    let _ ← check_resultState scope.myContextSubscribeID false
    let _ ← reading (check_commandGetResult scope.myContextSubscribeID (-1) false)
    readContextSubscription (scope.myContextSubscribeID + 0x60)

/-- A round of the loop in `simulationStep`. -/
def readSubscription : MessageM Unit := do
  let cmdId ← reading (check_commandGetResult 0 (-1) true)
  if cmdId ≥ Scope.inductionloop.response ∧ cmdId ≤ Scope.person.response then
    readVariableSubscription cmdId
  else
    readContextSubscription (cmdId + 0x50)

def simulationStep (time : Double) : ClientM Unit := do
  send_commandSimulationStep time
  withMessage do
    let _ ← check_resultState CMD_SIMSTEP false
    storing (domains.forM clearSubscriptionResults)
    let numSubs ← reading readInt
    repeatM readSubscription numSubs.toNat

/-! ## The simulation -/

def setOrder (order : Int) : ClientM Unit := do
  send_commandSetOrder order
  withMessage do
    let _ ← check_resultState CMD_SETORDER false

def closeSocket : ClientM Unit := modify fun api => { api with mySocket := none }

def close : ClientM Unit := do
  send_commandClose
  withMessage do
    let _ ← check_resultState CMD_CLOSE false
  closeSocket

def load (args : List Bytes) : ClientM Unit := do
  let numChars := (args.map fun arg => toInt arg.length).sum
  let content ← written do
    writeUnsignedByte 0
    writeInt (1 + 4 + 1 + 1 + 4 + numChars + 4 * toInt args.length)
    writeUnsignedByte CMD_LOAD
    writeUnsignedByte TYPE_STRINGLIST
    writeStringList args
  onSocket (Socket.sendExact content)
  withMessage do
    let _ ← check_resultState CMD_LOAD false

end TraCIAPI

end Cosidia.Traci
