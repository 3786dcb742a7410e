import Cosidia.Traci.Scopes
import Cosidia.Verify.Dialogues

/-!
# Compound values on the wire

The functions of the scopes that get compound values give what the answer holds. What is written to
set a program of a traffic light or the shape of a polygon is what the functions that get them read.
-/

namespace Cosidia.Traci

open EStateM Storage Storage.Datum Recognises

/-! ## Formats -/

def IntFormat (v : Int) (bs : Bytes) : Prop := BigEndian.Fits 4 v ∧ bs = BigEndian.encodeInt 4 v

def UnsignedByteFormat (v : Int) (bs : Bytes) : Prop := IsByte v ∧ bs = byte v

def SignedByteFormat (v : Int) (bs : Bytes) : Prop :=
  BigEndian.Fits 1 v ∧ bs = BigEndian.encodeInt 1 v

def BoolFormat (p : Int → Bool) (b : Bool) (bs : Bytes) : Prop := ∃ v, UnsignedByteFormat v bs ∧ b = p v

def DoubleFormat (v : Double) (bs : Bytes) : Prop := bs = double v

/-- A component behind a type, any. -/
def Tagged (P : Bytes → Prop) (bs : Bytes) : Prop :=
  ∃ type cs, IsByte type ∧ P cs ∧ bs = byte type ++ cs

/-- The number of components, which the client does not look at. -/
def ComponentsFormat : Bytes → Prop := Any fun n => Tagged (IntFormat n)

def VehicleDataFormat (d : TraCIVehicleData) : Bytes → Prop :=
  Concat [Tagged (StringFormat d.id), Tagged (DoubleFormat d.length), Tagged (DoubleFormat d.entryTime),
    Tagged (DoubleFormat d.leaveTime), Tagged (StringFormat d.typeID)]

def ConnectionFormat (c : TraCIConnection) : Bytes → Prop :=
  Concat [Tagged (StringFormat c.approachedLane), Tagged (StringFormat c.approachedInternal),
    Tagged (BoolFormat (· ≠ 0) c.hasPrio), Tagged (BoolFormat (· ≠ 0) c.isOpen),
    Tagged (BoolFormat (· ≠ 0) c.hasFoe), Tagged (StringFormat c.state),
    Tagged (StringFormat c.direction), Tagged (DoubleFormat c.length)]

def PhaseFormat (p : TraCIPhase) : Bytes → Prop :=
  Concat [ComponentsFormat, Tagged (DoubleFormat p.duration), Tagged (StringFormat p.state),
    Tagged (DoubleFormat p.minDur), Tagged (DoubleFormat p.maxDur),
    Tagged (Counted (fun n => Tagged (IntFormat n)) p.next), Tagged (StringFormat p.name)]

/-- A list of strings, the first two of which are the parameter. -/
def SubParameterFormat (p : Bytes × Bytes) : Bytes → Prop :=
  Tagged fun bs => ∃ par, bs = encodeList encodeString (p.1 :: p.2 :: par) ∧
    BigEndian.Fits 4 (p.1 :: p.2 :: par).length ∧ ∀ v ∈ p.1 :: p.2 :: par, BigEndian.Fits 4 v.length

/-- The map of some parameters, of which a later one takes the place of an earlier one. -/
def subParameters (par : List (Bytes × Bytes)) : Std.TreeMap Bytes Bytes :=
  par.foldl (fun subParameter p => subParameter.insert p.1 p.2) ∅

def LogicFormat (l : TraCILogic) : Bytes → Prop :=
  Concat [ComponentsFormat, Tagged (StringFormat l.programID), Tagged (IntFormat l.type),
    Tagged (IntFormat l.currentPhaseIndex), Tagged (Counted PhaseFormat l.phases),
    fun bs => ∃ par, Tagged (Counted SubParameterFormat par) bs ∧ l.subParameter = subParameters par]

def LinkFormat (l : TraCILink) : Bytes → Prop :=
  Concat [ComponentsFormat, StringFormat l.fromLane, StringFormat l.toLane, StringFormat l.viaLane]

def NextTLSFormat (d : TraCINextTLSData) : Bytes → Prop :=
  Concat [Tagged (StringFormat d.id), Tagged (IntFormat d.tlIndex), Tagged (DoubleFormat d.dist),
    Tagged fun bs => bs = [d.state]]

def BestLanesFormat (d : TraCIBestLanesData) : Bytes → Prop :=
  Concat [Tagged (StringFormat d.laneID), Tagged (DoubleFormat d.length),
    Tagged (DoubleFormat d.occupation), Tagged (SignedByteFormat d.bestLaneOffset),
    Tagged (BoolFormat (· = 1) d.allowsContinuation),
    Tagged (Counted StringFormat d.continuationLanes)]

/-! ## Reading components -/

variable {α : Type}

theorem recognises_readTyped {read : StorageM α} {F : α → Bytes → Prop}
    (h : Recognises Storage.input read F) :
    Recognises Storage.input (readTyped read) fun v => Tagged (F v) := by
  apply (recognises_byte.bind fun _ => h).congr
  intro v l
  constructor
  · rintro ⟨type, _, cs, rfl, ⟨htype, rfl⟩, hv⟩
    exact ⟨type, cs, htype, hv, rfl⟩
  · rintro ⟨type, cs, htype, hv, rfl⟩
    exact ⟨type, _, cs, rfl, ⟨htype, rfl⟩, hv⟩

theorem recognises_readBool (p : Int → Bool) :
    Recognises Storage.input (readBool p) (BoolFormat p) := by
  apply (recognises_byte.bind fun v => Recognises.pure (p v)).congr
  intro b l
  constructor
  · rintro ⟨v, bs, _, rfl, hv, rfl, rfl⟩
    rw [List.append_nil]
    exact ⟨v, hv, rfl⟩
  · rintro ⟨v, hv, rfl⟩
    exact ⟨v, l, [], (List.append_nil l).symm, hv, rfl, rfl⟩

theorem recognises_readState :
    Recognises Storage.input VehicleScope.readState fun c bs => bs = [c] := by
  apply (recognises_readByte.bind fun v => Recognises.pure (UInt8.ofInt v)).congr
  intro c l
  constructor
  · rintro ⟨v, bs, _, rfl, ⟨-, rfl⟩, rfl, rfl⟩
    rw [List.append_nil]
    rfl
  · rintro rfl
    have hc := c.toNat_lt
    have hmod : (BigEndian.decodeInt [c] % 2 ^ 8).toNat = c.toNat := by
      rw [decodeInt_singleton]
      split <;> omega
    refine ⟨BigEndian.decodeInt [c], [c], [], rfl, ⟨BigEndian.fits_decodeInt (List.cons_ne_nil c []),
      (BigEndian.encodeInt_decodeInt [c]).symm⟩, ?_, rfl⟩
    rw [UInt8.ofInt, hmod, UInt8.ofNat_toNat]

theorem recognises_readVehicleData :
    Recognises Storage.input InductionLoopScope.readVehicleData VehicleDataFormat := by
  apply Recognises.record
  refine .component TraCIVehicleData.id (recognises_readTyped recognises_readString) fun id => ?_
  refine .component TraCIVehicleData.length (recognises_readTyped recognises_double) fun length => ?_
  refine .component TraCIVehicleData.entryTime (recognises_readTyped recognises_double) fun entry => ?_
  refine .component TraCIVehicleData.leaveTime (recognises_readTyped recognises_double) fun leave => ?_
  refine .component TraCIVehicleData.typeID (recognises_readTyped recognises_readString) fun type => ?_
  exact .built fun d => by cases d; simp [and_assoc]

theorem recognises_readConnection :
    Recognises Storage.input LaneScope.readConnection ConnectionFormat := by
  apply Recognises.record
  refine .component TraCIConnection.approachedLane (recognises_readTyped recognises_readString)
    fun lane => ?_
  refine .component TraCIConnection.approachedInternal (recognises_readTyped recognises_readString)
    fun internal => ?_
  refine .component TraCIConnection.hasPrio (recognises_readTyped (recognises_readBool _))
    fun prio => ?_
  refine .component TraCIConnection.isOpen (recognises_readTyped (recognises_readBool _))
    fun isOpen => ?_
  refine .component TraCIConnection.hasFoe (recognises_readTyped (recognises_readBool _))
    fun foe => ?_
  refine .component TraCIConnection.state (recognises_readTyped recognises_readString) fun state => ?_
  refine .component TraCIConnection.direction (recognises_readTyped recognises_readString)
    fun direction => ?_
  refine .component TraCIConnection.length (recognises_readTyped recognises_double) fun length => ?_
  exact .built fun c => by cases c; simp only [true_and, TraCIConnection.mk.injEq]; tauto

theorem recognises_readPhase : Recognises Storage.input TrafficLightScope.readPhase PhaseFormat := by
  apply Recognises.record
  refine .unused (recognises_readTyped recognises_int) fun _ => ?_
  refine .component TraCIPhase.duration (recognises_readTyped recognises_double) fun duration => ?_
  refine .component TraCIPhase.state (recognises_readTyped recognises_readString) fun state => ?_
  refine .component TraCIPhase.minDur (recognises_readTyped recognises_double) fun minDur => ?_
  refine .component TraCIPhase.maxDur (recognises_readTyped recognises_double) fun maxDur => ?_
  refine .component TraCIPhase.next (recognises_readTyped (recognises_readCounted
    (recognises_readTyped recognises_int))) fun next => ?_
  refine .component TraCIPhase.name (recognises_readTyped recognises_readString) fun name => ?_
  exact .built fun p => by cases p; simp [and_assoc]

/-- The first two strings of a list, which must not be shorter. -/
theorem recognises_firstTwo (par : List Bytes) : Recognises Storage.input
    (if h : 1 < par.length then pure (par.get ⟨0, Nat.lt_of_succ_lt h⟩, par.get ⟨1, h⟩)
      else throw .undefined : StorageM (Bytes × Bytes))
    fun p bs => (∃ rest, par = p.1 :: p.2 :: rest) ∧ bs = [] := by
  split
  next h =>
    obtain _ | ⟨key, _ | ⟨value, rest⟩⟩ := par
    · exact (Nat.not_lt_zero _ h).elim
    · exact (Nat.lt_irrefl _ h).elim
    · apply (Recognises.pure (key, value)).congr
      intro p bs
      apply and_congr_left
      intro _
      constructor
      · rintro rfl
        exact ⟨rest, rfl⟩
      · rintro ⟨rest', he⟩
        cases he
        rfl
  next h =>
    apply (Recognises.throw Error.undefined).congr
    intro p bs
    apply iff_of_false not_false
    rintro ⟨⟨rest, rfl⟩, -⟩
    exact h (Nat.lt_add_of_pos_left (Nat.succ_pos _))

theorem recognises_readSubParameter :
    Recognises Storage.input TrafficLightScope.readSubParameter SubParameterFormat := by
  apply ((recognises_readTyped (recognises_readList recognises_readString)).bind
    recognises_firstTwo).congr
  intro p l
  constructor
  · rintro ⟨_, _, _, rfl, ⟨type, bs, htype, ⟨⟨hlen, hfits⟩, rfl⟩, rfl⟩, ⟨rest, rfl⟩, rfl⟩
    rw [List.append_nil]
    exact ⟨type, _, htype, ⟨rest, rfl, hlen, hfits⟩, rfl⟩
  · rintro ⟨type, _, htype, ⟨rest, rfl, hlen, hfits⟩, rfl⟩
    exact ⟨p.1 :: p.2 :: rest, _, [], (List.append_nil _).symm,
      ⟨type, _, htype, ⟨⟨hlen, hfits⟩, rfl⟩, rfl⟩, ⟨rest, rfl⟩, rfl⟩

theorem recognises_readLogic : Recognises Storage.input TrafficLightScope.readLogic LogicFormat := by
  apply Recognises.record
  refine .unused (recognises_readTyped recognises_int) fun _ => ?_
  refine .component TraCILogic.programID (recognises_readTyped recognises_readString) fun id => ?_
  refine .component TraCILogic.type (recognises_readTyped recognises_int) fun type => ?_
  refine .component TraCILogic.currentPhaseIndex (recognises_readTyped recognises_int)
    fun index => ?_
  refine .component TraCILogic.phases (recognises_readTyped (recognises_readCounted
    recognises_readPhase)) fun phases => ?_
  refine .computed TraCILogic.subParameter subParameters (recognises_readTyped
    (recognises_readCounted recognises_readSubParameter)) fun par => ?_
  exact .built fun l => by cases l; simp [and_assoc, subParameters]

theorem recognises_readLink : Recognises Storage.input TrafficLightScope.readLink LinkFormat := by
  apply Recognises.record
  refine .unused (recognises_readTyped recognises_int) fun _ => ?_
  refine .component TraCILink.fromLane recognises_readString fun fromLane => ?_
  refine .component TraCILink.toLane recognises_readString fun toLane => ?_
  refine .component TraCILink.viaLane recognises_readString fun viaLane => ?_
  exact .built fun l => by cases l; simp only [true_and, TraCILink.mk.injEq]; tauto

theorem recognises_readNextTLS :
    Recognises Storage.input VehicleScope.readNextTLS NextTLSFormat := by
  apply Recognises.record
  refine .component TraCINextTLSData.id (recognises_readTyped recognises_readString) fun id => ?_
  refine .component TraCINextTLSData.tlIndex (recognises_readTyped recognises_int) fun index => ?_
  refine .component TraCINextTLSData.dist (recognises_readTyped recognises_double) fun dist => ?_
  refine .component TraCINextTLSData.state (recognises_readTyped recognises_readState)
    fun state => ?_
  exact .built fun d => by cases d; simp [and_assoc]

theorem recognises_readBestLanes :
    Recognises Storage.input VehicleScope.readBestLanes BestLanesFormat := by
  apply Recognises.record
  refine .component TraCIBestLanesData.laneID (recognises_readTyped recognises_readString)
    fun lane => ?_
  refine .component TraCIBestLanesData.length (recognises_readTyped recognises_double)
    fun length => ?_
  refine .component TraCIBestLanesData.occupation (recognises_readTyped recognises_double)
    fun occupation => ?_
  refine .component TraCIBestLanesData.bestLaneOffset (recognises_readTyped recognises_readByte)
    fun offset => ?_
  refine .component TraCIBestLanesData.allowsContinuation
    (recognises_readTyped (recognises_readBool _)) fun allows => ?_
  refine .component TraCIBestLanesData.continuationLanes (recognises_readTyped
    (recognises_readCounted recognises_readString)) fun lanes => ?_
  exact .built fun d => by cases d; simp [and_assoc]

/-! ## Asking for compound values -/

/-- The functions that get compound values, or say more than the name of an object. -/
inductive Query where
  | vehicleData (loopID : Bytes)
  | links (laneID : Bytes)
  | foes (laneID toLaneID : Bytes)
  | completeRedYellowGreenDefinition (tlsID : Bytes)
  | controlledLinks (tlsID : Bytes)
  | nextTLS (vehID : Bytes)
  | bestLanes (vehicleID : Bytes)
  | leader (vehicleID : Bytes) (dist : Double)
  | laneChangeState (vehicleID : Bytes) (direction : Int)
  | convert2D (edgeID : Bytes) (pos : Double) (laneIndex : Int) (toGeo : Bool)
  | convert3D (edgeID : Bytes) (pos : Double) (laneIndex : Int) (toGeo : Bool)
  | convertRoad (x y : Double) (isGeo : Bool) (vClass : Bytes)
  | convertGeo (x y : Double) (fromGeo : Bool)
  | distance2D (x1 y1 x2 y2 : Double) (isGeo isDriving : Bool)
  | distanceRoad (edgeID1 : Bytes) (pos1 : Double) (edgeID2 : Bytes) (pos2 : Double) (isDriving : Bool)
  | parameter (scope : Scope) (objectID key : Bytes)

namespace Query

/-- What a function gives. -/
def Value : Query → Type
  | vehicleData _ => List TraCIVehicleData
  | links _ => List TraCIConnection
  | foes .. => List Bytes
  | completeRedYellowGreenDefinition _ => List TraCILogic
  | controlledLinks _ => List (List TraCILink)
  | nextTLS _ => List TraCINextTLSData
  | bestLanes _ => List TraCIBestLanesData
  | leader .. => Bytes × Double
  | laneChangeState .. => Int × Int
  | convert2D .. | convert3D .. | convertGeo .. => TraCIPosition
  | convertRoad .. => TraCIRoadPosition
  | distance2D .. | distanceRoad .. => Double
  | parameter .. => Bytes

def get : (q : Query) → ClientM q.Value
  | vehicleData loopID => InductionLoopScope.getVehicleData loopID
  | links laneID => LaneScope.getLinks laneID
  | foes laneID toLaneID => LaneScope.getFoes laneID toLaneID
  | completeRedYellowGreenDefinition tlsID =>
    TrafficLightScope.getCompleteRedYellowGreenDefinition tlsID
  | controlledLinks tlsID => TrafficLightScope.getControlledLinks tlsID
  | nextTLS vehID => VehicleScope.getNextTLS vehID
  | bestLanes vehicleID => VehicleScope.getBestLanes vehicleID
  | leader vehicleID dist => VehicleScope.getLeader vehicleID dist
  | laneChangeState vehicleID direction => VehicleScope.getLaneChangeState vehicleID direction
  | convert2D edgeID pos laneIndex toGeo => SimulationScope.convert2D edgeID pos laneIndex toGeo
  | convert3D edgeID pos laneIndex toGeo => SimulationScope.convert3D edgeID pos laneIndex toGeo
  | convertRoad x y isGeo vClass => SimulationScope.convertRoad x y isGeo vClass
  | convertGeo x y fromGeo => TraCIAPI.convertGeo x y fromGeo
  | distance2D x1 y1 x2 y2 isGeo isDriving =>
    SimulationScope.getDistance2D x1 y1 x2 y2 isGeo isDriving
  | distanceRoad edgeID1 pos1 edgeID2 pos2 isDriving =>
    SimulationScope.getDistanceRoad edgeID1 pos1 edgeID2 pos2 isDriving
  | parameter scope objectID key => TraCIAPI.getParameter scope objectID key

def cmd : Query → Int
  | vehicleData _ => CMD_GET_INDUCTIONLOOP_VARIABLE
  | links _ | foes .. => CMD_GET_LANE_VARIABLE
  | completeRedYellowGreenDefinition _ | controlledLinks _ => CMD_GET_TL_VARIABLE
  | nextTLS _ | bestLanes _ | leader .. | laneChangeState .. => CMD_GET_VEHICLE_VARIABLE
  | parameter scope _ _ => scope.myCmdGetID
  | _ => CMD_GET_SIM_VARIABLE

def var : Query → Int
  | vehicleData _ => LAST_STEP_VEHICLE_DATA
  | links _ => LANE_LINKS
  | foes .. => VAR_FOES
  | completeRedYellowGreenDefinition _ => TL_COMPLETE_DEFINITION_RYG
  | controlledLinks _ => TL_CONTROLLED_LINKS
  | nextTLS _ => VAR_NEXT_TLS
  | bestLanes _ => VAR_BEST_LANES
  | leader .. => VAR_LEADER
  | laneChangeState .. => CMD_CHANGELANE
  | convert2D .. | convert3D .. | convertRoad .. | convertGeo .. => POSITION_CONVERSION
  | distance2D .. | distanceRoad .. => DISTANCE_REQUEST
  | parameter .. => VAR_PARAMETER

/-- The object that is asked about. -/
def id : Query → Bytes
  | vehicleData id | links id | foes id _ | completeRedYellowGreenDefinition id | controlledLinks id
  | nextTLS id | bestLanes id | leader id _ | laneChangeState id _ | parameter _ id _ => id
  | _ => []

/-- What is said about the object. -/
def content : Query → List Datum
  | foes _ toLaneID => [.unsignedByte TYPE_STRING, .string toLaneID]
  | leader _ dist => [.byte TYPE_DOUBLE, .double dist]
  | laneChangeState _ direction => [.byte TYPE_INTEGER, .int direction]
  | convert2D edgeID pos laneIndex toGeo =>
    [.byte TYPE_COMPOUND, .int 2, .byte POSITION_ROADMAP, .string edgeID, .double pos,
      .byte laneIndex, .byte TYPE_UBYTE, .byte (if toGeo then POSITION_LON_LAT else POSITION_2D)]
  | convert3D edgeID pos laneIndex toGeo =>
    [.byte TYPE_COMPOUND, .int 2, .byte POSITION_ROADMAP, .string edgeID, .double pos,
      .byte laneIndex, .byte TYPE_UBYTE,
      .byte (if toGeo then POSITION_LON_LAT_ALT else POSITION_3D)]
  | convertRoad x y isGeo vClass =>
    [.byte TYPE_COMPOUND, .int 3, .byte (if isGeo then POSITION_LON_LAT else POSITION_2D), .double x,
      .double y, .byte TYPE_UBYTE, .byte POSITION_ROADMAP, .byte TYPE_STRING, .string vClass]
  | convertGeo x y fromGeo =>
    [.byte TYPE_COMPOUND, .int 2, .byte (if fromGeo then POSITION_LON_LAT else POSITION_2D),
      .double x, .double y, .byte TYPE_UBYTE,
      .byte (if fromGeo then POSITION_2D else POSITION_LON_LAT)]
  | distance2D x1 y1 x2 y2 isGeo isDriving =>
    [.byte TYPE_COMPOUND, .int 3, .byte (if isGeo then POSITION_LON_LAT else POSITION_2D),
      .double x1, .double y1, .byte (if isGeo then POSITION_LON_LAT else POSITION_2D), .double x2,
      .double y2, .byte (if isDriving then REQUEST_DRIVINGDIST else REQUEST_AIRDIST)]
  | distanceRoad edgeID1 pos1 edgeID2 pos2 isDriving =>
    [.byte TYPE_COMPOUND, .int 3, .byte POSITION_ROADMAP, .string edgeID1, .double pos1, .byte 0,
      .byte POSITION_ROADMAP, .string edgeID2, .double pos2, .byte 0,
      .byte (if isDriving then REQUEST_DRIVINGDIST else REQUEST_AIRDIST)]
  | parameter _ _ key => [.byte TYPE_STRING, .string key]
  | _ => []

/-- The type the answer has to announce. -/
def type : Query → Int
  | foes .. => TYPE_STRINGLIST
  | convert2D _ _ _ toGeo => if toGeo then POSITION_LON_LAT else POSITION_2D
  | convert3D _ _ _ toGeo => if toGeo then POSITION_LON_LAT_ALT else POSITION_3D
  | convertRoad .. => POSITION_ROADMAP
  | convertGeo _ _ fromGeo => if fromGeo then POSITION_2D else POSITION_LON_LAT
  | distance2D .. | distanceRoad .. => TYPE_DOUBLE
  | parameter .. => TYPE_STRING
  | _ => TYPE_COMPOUND

/-- A position without a height. -/
def PlaneFormat (p : TraCIPosition) (bs : Bytes) : Prop :=
  p.z = INVALID_DOUBLE_VALUE ∧ bs = double p.x ++ double p.y

/-- How a value lies on the wire. -/
def Format : (q : Query) → q.Value → Bytes → Prop
  | vehicleData _, ds => Concat [Any IntFormat, Tagged (Counted VehicleDataFormat ds)]
  | links _, cs => Concat [ComponentsFormat, Counted ConnectionFormat cs]
  | foes .., lanes => Counted StringFormat lanes
  | completeRedYellowGreenDefinition _, ls => Counted LogicFormat ls
  | controlledLinks _, ls =>
    Concat [ComponentsFormat, Counted (fun l => Tagged (Counted LinkFormat l)) ls]
  | nextTLS _, ds => Concat [Any IntFormat, Tagged (Counted NextTLSFormat ds)]
  | bestLanes _, ds => Concat [Any IntFormat, Tagged (Counted BestLanesFormat ds)]
  | leader .., (p : Bytes × Double) =>
    Concat [Any IntFormat, Tagged (StringFormat p.1), Tagged (DoubleFormat p.2)]
  | laneChangeState .., (p : Int × Int) =>
    Concat [Any IntFormat, Tagged (IntFormat p.1), Tagged (IntFormat p.2)]
  | convert2D .., p | convertGeo .., p => PlaneFormat p
  | convert3D .., (p : TraCIPosition) => fun bs => bs = double p.x ++ double p.y ++ double p.z
  | convertRoad .., (p : TraCIRoadPosition) => fun bs => ∃ pos, p.pos = some pos ∧
    Concat [StringFormat p.edgeID, DoubleFormat pos, UnsignedByteFormat p.laneIndex] bs
  | distance2D .., v | distanceRoad .., v => DoubleFormat v
  | parameter .., v => StringFormat v

def request (q : Query) : List Datum := Call.variableRequest q.cmd q.var q.id q.content

/-- The request fits into a message, and an argument of type `int` is an `int`. -/
def Sized (q : Query) : Prop := 4 + size q.request < 2 ^ 31 ∧ ∀ d ∈ q.content, d.Ranged

/-- The arguments that become bytes are bytes. -/
def Accepted (q : Query) : Prop := ∀ d ∈ q.request, d.Fits

instance (q : Query) : Decidable q.Accepted := inferInstanceAs (Decidable (∀ _ ∈ _, _))

theorem recognises_plane : Recognises Storage.input (do
    let x ← readDouble
    let y ← readDouble
    return ({ x, y } : TraCIPosition)) PlaneFormat := by
  apply (recognises_double.bind fun x => recognises_double.bind fun y =>
    Recognises.pure ({ x, y } : TraCIPosition)).congr
  intro p l
  constructor
  · rintro ⟨x, _, _, rfl, rfl, y, _, _, rfl, rfl, rfl, rfl⟩
    rw [List.append_nil]
    exact ⟨rfl, rfl⟩
  · rintro ⟨hz, rfl⟩
    refine ⟨p.x, _, double p.y, rfl, rfl, p.y, _, [], (List.append_nil _).symm, rfl, ?_, rfl⟩
    rw [← hz]

theorem recognises_pair {β : Type} {read : StorageM α} {read' : StorageM β}
    {F : α → Bytes → Prop} {G : β → Bytes → Prop} (h : Recognises Storage.input read F)
    (h' : Recognises Storage.input read' G) : Recognises Storage.input (do
      let _ ← readInt
      let a ← read
      let b ← read'
      return (a, b)) fun p => Concat [Any IntFormat, F p.1, G p.2] := by
  apply Recognises.record
  refine .unused recognises_int fun _ => ?_
  refine .component Prod.fst h fun a => ?_
  refine .component Prod.snd h' fun b => ?_
  exact .built fun p => by cases p; simp

/-- A list behind the number of its components. -/
theorem recognises_list {read : StorageM α} {F : α → Bytes → Prop}
    (h : Recognises Storage.input read F) : Recognises Storage.input (do
      let _ ← readInt
      readTyped (TraCIAPI.readCounted read)) fun as =>
        Concat [Any IntFormat, Tagged (Counted F as)] := by
  apply (recognises_int.bind fun _ => recognises_readTyped (recognises_readCounted h)).congr
  intro as l
  constructor
  · rintro ⟨n, bs, cs, rfl, hn, has⟩
    exact ⟨bs, cs, rfl, ⟨n, hn⟩, cs, [], (List.append_nil cs).symm, has, rfl⟩
  · rintro ⟨bs, _, rfl, ⟨n, hn⟩, cs, _, rfl, has, rfl⟩
    rw [List.append_nil]
    exact ⟨n, bs, cs, rfl, hn, has⟩

theorem recognises_components {read : StorageM α} {F : α → Bytes → Prop}
    (h : Recognises Storage.input read F) : Recognises Storage.input (do
      let _ ← readTyped readInt
      read) fun a => Concat [ComponentsFormat, F a] := by
  apply ((recognises_readTyped recognises_int).bind fun _ => h).congr
  intro a l
  constructor
  · rintro ⟨n, bs, cs, rfl, hn, ha⟩
    exact ⟨bs, cs, rfl, ⟨n, hn⟩, cs, [], (List.append_nil cs).symm, ha, rfl⟩
  · rintro ⟨bs, _, rfl, ⟨n, hn⟩, cs, _, rfl, ha, rfl⟩
    rw [List.append_nil]
    exact ⟨n, bs, cs, rfl, hn, ha⟩

theorem recognises_convertRoad : Recognises Storage.input (do
    let edgeID ← readString
    let pos ← readDouble
    let laneIndex ← readUnsignedByte
    return ({ edgeID, pos, laneIndex } : TraCIRoadPosition))
    fun p bs => ∃ pos, p.pos = some pos ∧
      Concat [StringFormat p.edgeID, DoubleFormat pos, UnsignedByteFormat p.laneIndex] bs := by
  have hpos : ∀ (edgeID : Bytes) (pos : Double), Recognises Storage.input (do
      let laneIndex ← readUnsignedByte
      return ({ edgeID, pos, laneIndex } : TraCIRoadPosition))
      fun p l => ((True ∧ p.edgeID = edgeID) ∧ p.pos = some pos) ∧
        Concat [UnsignedByteFormat p.laneIndex] l := by
    intro edgeID pos
    refine .component TraCIRoadPosition.laneIndex recognises_byte fun laneIndex => ?_
    exact .built fun p => by cases p; simp [and_assoc]
  have hedge := Recognises.component TraCIRoadPosition.edgeID recognises_readString fun edgeID =>
    Recognises.computed TraCIRoadPosition.pos some recognises_double fun pos => hpos edgeID pos
  apply hedge.congr
  intro p l
  constructor
  · rintro ⟨-, bs, _, rfl, hid, cs, ds, rfl, ⟨pos, hcs, hp⟩, hds⟩
    exact ⟨pos, hp, bs, cs ++ ds, rfl, hid, cs, ds, rfl, hcs, hds⟩
  · rintro ⟨pos, hp, bs, _, rfl, hid, cs, ds, rfl, hcs, hds⟩
    exact ⟨trivial, bs, cs ++ ds, rfl, hid, cs, ds, rfl, ⟨pos, hcs, hp⟩, hds⟩

/-- A command that says more about the object is made if all it says can be written. -/
theorem getValueOf_eq_ok {cmd var type : Int} {id : Bytes} {x : StorageM Unit} {data : List Datum}
    (hx : x = writeAll data) (hranged : ∀ d ∈ data, d.Ranged)
    (hs : 4 + size (Call.variableRequest cmd var id data) < 2 ^ 31) (htype : 0 ≤ type)
    {read : StorageM α} {F : α → Bytes → Prop} (h : Recognises Storage.input read F) {unknown v : α}
    {api : TraCIAPI} {sent rest : Bytes} (hon : Online api sent rest) :
    (∃ api', getValueOf type read unknown cmd var id x api = .ok v api') ↔
      (∀ d ∈ Call.variableRequest cmd var id data, d.Fits) ∧ ∃ payload r, Socket.Sendable payload ∧
        rest = Socket.frame payload ++ r ∧ AnswerFormat cmd type F v payload := by
  have hsize : 4 + size data < 2 ^ 31 :=
    Nat.lt_of_le_of_lt (Nat.add_le_add_left (Call.size_le_variableRequest ..) 4) hs
  obtain ⟨hfits, hwritten⟩ | ⟨hrefused, what, hwritten⟩ :=
    written_apply hx (typed_of_size hsize hranged) api
  · rw [getValueOf, bind_apply, hwritten]
    exact getValue_eq_ok ⟨hfits, .inr ⟨_, rfl⟩⟩ hs htype h hon
  · rw [getValueOf, bind_apply, hwritten]
    constructor
    · rintro ⟨_, hok⟩
      cases hok
    · rintro ⟨hall, -⟩
      exact (hrefused fun d hd => hall d (Call.mem_variableRequest hd)).elim

theorem type_nonneg (q : Query) : 0 ≤ q.type := by
  cases q with
  | convert2D _ _ _ geo | convert3D _ _ _ geo | convertGeo _ _ geo =>
    simp only [type]
    cases geo <;> decide
  | _ =>
    simp only [type]
    decide

/-- A function that asks for a compound value gives `v` exactly if its request can be made and the next
message is a positive answer to its command that holds `v`. -/
theorem gives {q : Query} (hq : q.Sized) {api : TraCIAPI} {a : Socket}
    (ha : api.mySocket = some a) (hconn : a.connected = true)
    (htakes : ∀ x ∈ a.sendings, ∃ n, x = .takes n) (v : q.Value) :
    (∃ api', q.get api = .ok v api') ↔ q.Accepted ∧ ∃ payload r, Socket.Sendable payload ∧
      Socket.input.rest a = Socket.frame payload ++ r ∧
      AnswerFormat q.cmd q.type q.Format v payload := by
  have hon : Online api a.sent (Socket.input.rest a) := ⟨a, ha, hconn, htakes, rfl, rfl⟩
  obtain ⟨hs, hranged⟩ := hq
  have ht := q.type_nonneg
  cases q with
  | vehicleData loopID =>
    exact getValue_eq_ok adds_none hs ht (recognises_list recognises_readVehicleData) hon
  | links laneID =>
    exact getValue_eq_ok adds_none hs ht
      (recognises_components (recognises_readCounted recognises_readConnection)) hon
  | foes laneID toLaneID =>
    exact getValueOf_eq_ok (by simp only [content, writeAll, List.forM, Datum.write, bind_pure_unit])
      hranged hs ht (recognises_readCounted recognises_readString) hon
  | completeRedYellowGreenDefinition tlsID =>
    exact getValue_eq_ok adds_none hs ht (recognises_readCounted recognises_readLogic) hon
  | controlledLinks tlsID =>
    exact getValue_eq_ok adds_none hs ht (recognises_components (recognises_readCounted
      (recognises_readTyped (recognises_readCounted recognises_readLink)))) hon
  | nextTLS vehID => exact getValue_eq_ok adds_none hs ht (recognises_list recognises_readNextTLS) hon
  | bestLanes vehicleID =>
    exact getValue_eq_ok adds_none hs ht (recognises_list recognises_readBestLanes) hon
  | leader vehicleID dist =>
    exact getValueOf_eq_ok (by simp only [content, writeAll, List.forM, Datum.write, bind_pure_unit])
      hranged hs ht (recognises_pair (recognises_readTyped recognises_readString)
        (recognises_readTyped recognises_double)) hon
  | laneChangeState vehicleID direction =>
    exact getValueOf_eq_ok (by simp only [content, writeAll, List.forM, Datum.write, bind_pure_unit])
      hranged hs ht (recognises_pair (recognises_readTyped recognises_int)
        (recognises_readTyped recognises_int)) hon
  | convert2D edgeID pos laneIndex toGeo =>
    exact getValueOf_eq_ok (by simp only [content, writeAll, List.forM, Datum.write, bind_pure_unit,
      SimulationScope.writeRoadPosition]) hranged hs ht recognises_plane hon
  | convert3D edgeID pos laneIndex toGeo =>
    exact getValueOf_eq_ok (by simp only [content, writeAll, List.forM, Datum.write, bind_pure_unit,
      SimulationScope.writeRoadPosition]) hranged hs ht recognises_readPosition3D hon
  | convertRoad x y isGeo vClass =>
    exact getValueOf_eq_ok (by simp only [content, writeAll, List.forM, Datum.write, bind_pure_unit])
      hranged hs ht recognises_convertRoad hon
  | convertGeo x y fromGeo =>
    exact getValueOf_eq_ok (by simp only [content, writeAll, List.forM, Datum.write, bind_pure_unit])
      hranged hs ht recognises_plane hon
  | distance2D x1 y1 x2 y2 isGeo isDriving =>
    exact getValueOf_eq_ok (by simp only [content, writeAll, List.forM, Datum.write, bind_pure_unit])
      hranged hs ht recognises_double hon
  | distanceRoad edgeID1 pos1 edgeID2 pos2 isDriving =>
    exact getValueOf_eq_ok (by simp only [content, writeAll, List.forM, Datum.write, bind_pure_unit])
      hranged hs ht recognises_double hon
  | parameter scope objectID key =>
    exact getValueOf_eq_ok (by simp only [content, writeAll, List.forM, Datum.write, bind_pure_unit])
      hranged hs ht recognises_readString hon

/-- The next traffic light, whose components announce types they do not have. -/
def nextTLSAnswer : Bytes :=
  okStatus CMD_GET_VEHICLE_VARIABLE [] ++ byte 40 ++ byte 0xb4 ++ byte VAR_NEXT_TLS ++
    encodeString [118] ++ byte TYPE_COMPOUND ++
    (BigEndian.encodeInt 4 2 ++ ((byte 0 ++ (BigEndian.encodeInt 4 1 ++
      ((byte 0 ++ encodeString [116] ++ (byte 0 ++ BigEndian.encodeInt 4 3 ++
        (byte 0 ++ double 5 ++ (byte 0 ++ [71] ++ [])))) ++ []))) ++ [])) ++ []

def nextTLSSocket : Socket where
  connected := true
  incoming := [.piece 0 ((Socket.frame nextTLSAnswer).drop 1)]
  sendings := []
  sent := []
  bigEndian := false

def nextTLSClient : TraCIAPI := { TraCIAPI.new false with mySocket := some nextTLSSocket }

def nextTLSData : TraCINextTLSData := { id := [116], tlIndex := 3, dist := 5, state := 71 }

theorem gives_nextTLS :
    ∃ api', (Query.nextTLS [118]).get nextTLSClient = .ok [nextTLSData] api' := by
  have hq : (Query.nextTLS [118]).Sized := ⟨by decide, nofun⟩
  have htakes : ∀ x ∈ nextTLSSocket.sendings, ∃ n, x = .takes n := List.forall_mem_nil _
  have hs : nextTLSClient.mySocket = some nextTLSSocket := rfl
  have hrest : Socket.input.rest nextTLSSocket = Socket.frame nextTLSAnswer ++ [] := by
    decide +kernel
  have hdata : NextTLSFormat nextTLSData (byte 0 ++ encodeString [116] ++
      (byte 0 ++ BigEndian.encodeInt 4 3 ++ (byte 0 ++ double 5 ++ (byte 0 ++ [71] ++ [])))) :=
    ⟨_, _, rfl, ⟨0, _, by decide, ⟨by decide, rfl⟩, rfl⟩, _, _, rfl,
      ⟨0, _, by decide, ⟨by decide, rfl⟩, rfl⟩, _, _, rfl, ⟨0, _, by decide, rfl, rfl⟩, _, _, rfl,
      ⟨0, _, by decide, rfl, rfl⟩, rfl⟩
  apply (gives hq hs rfl htakes _).2
  refine ⟨by decide, nextTLSAnswer, [], by decide +kernel, hrest, ?_⟩
  refine ⟨[], byte 40, VAR_NEXT_TLS, [118], encodeString [118], _, [], ⟨by decide,
    .inl ⟨40, by decide, by decide, rfl⟩, by decide, by decide, ⟨by decide, rfl⟩, by decide, ?_⟩, rfl⟩
  exact ⟨_, _, rfl, ⟨2, by decide, rfl⟩, _, _, rfl,
    ⟨0, _, by decide, ⟨1, _, by decide, rfl, .cons hdata .nil, rfl⟩, rfl⟩, rfl⟩

end Query

end Cosidia.Traci
