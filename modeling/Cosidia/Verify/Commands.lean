import Cosidia.Traci.TraCIAPI
import Cosidia.Verify.Sockets

/-!
# What the client asks for

Whichever functions of the client are called, and whatever SUMO answers, what goes over the wire is
the requests of these functions, each as one message that announces its length, and the other side
reads from it what the function has been called with.
-/

namespace Cosidia.Traci

open EStateM Storage

/-! ## Requests -/

namespace Storage.Datum

/-- The data as they lie on the wire. -/
def encodeAll (data : List Datum) : Bytes := data.flatMap Datum.encode

def size (data : List Datum) : Nat := (encodeAll data).length

/-- The operations for bytes and shorts tell that a value is none of the type; the others do not. -/
def Typed : Datum → Prop
  | byte _ | unsignedByte _ | short _ => True
  | d => d.Fits

instance : (d : Datum) → Decidable d.Fits
  | char _ | float _ | double _ => inferInstanceAs (Decidable True)
  | byte _ | short _ | int _ | string _ | doubleList _ =>
    inferInstanceAs (Decidable (BigEndian.Fits _ _))
  | unsignedByte _ | stringList _ => inferInstanceAs (Decidable (_ ∧ _))

/-- The length of a command of `n` bytes and of itself, either as one byte or, after a zero, as an
integer. -/
def announcement (long : Bool) (n : Nat) : List Datum :=
  if long then [unsignedByte 0, int (5 + n)] else [unsignedByte (1 + n)]

/-- A command with its length in front. -/
def announced (long : Bool) (body : List Datum) : List Datum := announcement long (size body) ++ body

end Storage.Datum

open Datum

/-- The functions that get one value. -/
inductive Getter where
  | unsignedByte
  | byte
  | int
  | double
  | string
  | stringVector
  | position
  | position3D
  | color
  | polygon
  deriving DecidableEq, Repr

/-- The functions that make a request. -/
inductive Call where
  | simulationStep (time : Double)
  | setOrder (order : Int)
  | load (args : List Bytes)
  | get (getter : Getter) (cmd var : Int) (id : Bytes)
  | getParameter (scope : Scope) (objectID key : Bytes)
  | setParameter (scope : Scope) (objectID key value : Bytes)
  | convertGeo (x y : Double) (fromGeo : Bool)
  | subscribe (scope : Scope) (objID : Bytes) (vars : List Int) (beginTime endTime : Double)
  | subscribeContext (scope : Scope) (objID : Bytes) (domain : Int) (range : Double) (vars : List Int)
      (beginTime endTime : Double)
  deriving DecidableEq, Repr

namespace Call

open TraCIAPI

def run : Call → ClientM Unit
  | simulationStep time => TraCIAPI.simulationStep time
  | setOrder order => TraCIAPI.setOrder order
  | load args => TraCIAPI.load args
  | get getter cmd var id =>
    match getter with
    | .unsignedByte => do let _ ← getUnsignedByte cmd var id none
    | .byte => do let _ ← getByte cmd var id none
    | .int => do let _ ← getInt cmd var id none
    | .double => do let _ ← getDouble cmd var id none
    | .string => do let _ ← getString cmd var id none
    | .stringVector => do let _ ← getStringVector cmd var id none
    | .position => do let _ ← getPosition cmd var id none
    | .position3D => do let _ ← getPosition3D cmd var id none
    | .color => do let _ ← getColor cmd var id none
    | .polygon => do let _ ← getPolygon cmd var id none
  | getParameter scope objectID key => do let _ ← TraCIAPI.getParameter scope objectID key
  | setParameter scope objectID key value => TraCIAPI.setParameter scope objectID key value
  | convertGeo x y fromGeo => do let _ ← TraCIAPI.convertGeo x y fromGeo
  | subscribe scope objID vars beginTime endTime =>
    TraCIAPI.subscribe scope objID vars beginTime endTime
  | subscribeContext scope objID domain range vars beginTime endTime =>
    TraCIAPI.subscribeContext scope objID domain range vars beginTime endTime

/-- The command for a variable of an object. -/
def variableBody (cmd var : Int) (id : Bytes) (add : List Datum) : List Datum :=
  [.unsignedByte cmd, .unsignedByte var, .string id] ++ add

/-- The request for a variable of an object. -/
def variableRequest (cmd var : Int) (id : Bytes) (add : List Datum) : List Datum :=
  announced (255 < 1 + size (variableBody cmd var id add)) (variableBody cmd var id add)

/-- What a function is called with, after the number of its command. -/
def body : Call → List Datum
  | simulationStep time => [.unsignedByte CMD_SIMSTEP, .double time]
  | setOrder order => [.unsignedByte CMD_SETORDER, .int order]
  | load args => [.unsignedByte CMD_LOAD, .unsignedByte TYPE_STRINGLIST, .stringList args]
  | get _ cmd var id => variableBody cmd var id []
  | getParameter scope objectID key =>
    variableBody scope.myCmdGetID VAR_PARAMETER objectID [.byte TYPE_STRING, .string key]
  | setParameter scope objectID key value =>
    variableBody scope.myCmdSetID VAR_PARAMETER objectID [.unsignedByte TYPE_COMPOUND, .int 2,
      .unsignedByte TYPE_STRING, .string key, .unsignedByte TYPE_STRING, .string value]
  | convertGeo x y fromGeo =>
    variableBody CMD_GET_SIM_VARIABLE POSITION_CONVERSION [] [.byte TYPE_COMPOUND, .int 2,
      .byte (if fromGeo then POSITION_LON_LAT else POSITION_2D), .double x, .double y,
      .byte TYPE_UBYTE, .byte (if fromGeo then POSITION_2D else POSITION_LON_LAT)]
  | subscribe scope objID vars beginTime endTime =>
    [.unsignedByte scope.mySubscribeID, .double beginTime, .double endTime, .string objID,
      .unsignedByte vars.length] ++ vars.map .unsignedByte
  | subscribeContext scope objID domain range vars beginTime endTime =>
    [.unsignedByte scope.myContextSubscribeID, .double beginTime, .double endTime, .string objID,
      .unsignedByte domain, .double range, .unsignedByte vars.length] ++ vars.map .unsignedByte

/-- Whether the length of the command is an integer. Some commands do without the short form. -/
def long : Call → Bool
  | simulationStep _ | setOrder _ => false
  | load _ | subscribe .. | subscribeContext .. => true
  | c => 255 < 1 + size c.body

def request (c : Call) : List Datum := announced c.long c.body

/-- The request fits into a message, and an argument of type `int` is an `int`. -/
def Sized (c : Call) : Prop :=
  4 + size c.request < 2 ^ 31 ∧ ∀ order, c = setOrder order → BigEndian.Fits 4 order

/-- The arguments that become bytes are bytes. -/
def Accepted (c : Call) : Prop := ∀ d ∈ c.request, d.Fits

instance (c : Call) : Decidable c.Accepted := inferInstanceAs (Decidable (∀ _ ∈ _, _))

end Call

/-! ## Writing a request -/

namespace Storage

theorem writeAll_append (as bs : List Datum) :
    writeAll (as ++ bs) = (do writeAll as; writeAll bs) :=
  List.forM_append

/-- Values all of which can be written, or one of which is none of its type. -/
theorem writeAll_cases {data : List Datum} (h : ∀ d ∈ data, d.Typed) (s : Storage) (hs : s.iter = 0) :
    ((∀ d ∈ data, d.Fits) ∧ writeAll data s = .ok () (s.appended (Datum.encodeAll data))) ∨
    ((¬ ∀ d ∈ data, d.Fits) ∧ ∃ what t, writeAll data s = .error (.invalidArgument what) t) := by
  by_cases hfits : ∀ d ∈ data, d.Fits
  · exact .inl ⟨hfits, writeAll_apply hfits s hs⟩
  refine .inr ⟨hfits, ?_⟩
  clear hs
  induction data generalizing s with
  | nil => exact (hfits nofun).elim
  | cons d data ih =>
    obtain ⟨hd, hdata⟩ := List.forall_mem_cons.1 h
    rw [writeAll, List.forM, bind_apply]
    by_cases hfit : d.Fits
    · rw [write_apply hfit]
      exact ih hdata _ fun h => hfits (List.forall_mem_cons.2 ⟨hfit, h⟩)
    · cases d with
      | byte v =>
        have hv : v < -128 ∨ v > 127 := by
          simp only [Datum.Fits, BigEndian.Fits] at hfit
          omega
        rw [Datum.write, writeByte, if_pos hv]
        exact ⟨_, s, rfl⟩
      | unsignedByte v =>
        have hv : v < 0 ∨ v > 255 := by
          simp only [Datum.Fits] at hfit
          omega
        rw [Datum.write, writeUnsignedByte, if_pos hv]
        exact ⟨_, s, rfl⟩
      | short v =>
        have hv : v < -32768 ∨ v > 32767 := by
          simp only [Datum.Fits, BigEndian.Fits] at hfit
          omega
        rw [Datum.write, writeShort, if_pos hv]
        exact ⟨_, s, rfl⟩
      | _ => exact (hfit hd).elim

end Storage

/-! ## What is sent -/

/-- The connection stands, the system takes what is to be sent, `sent` is what has been sent and `rest`
what is still to be received. -/
def Online (api : TraCIAPI) (sent rest : Bytes) : Prop :=
  ∃ s, api.mySocket = some s ∧ s.connected = true ∧ (∀ x ∈ s.sendings, ∃ n, x = .takes n) ∧
    s.sent = sent ∧ Socket.input.rest s = rest

/-- A program that leaves the socket alone; `view` is where it keeps the client. -/
def Keeps {σ α : Type} (view : σ → TraCIAPI) (x : EStateM Error σ α) : Prop :=
  Leaves (fun s => (view s).mySocket) x

namespace Keeps

variable {σ α : Type} {view : σ → TraCIAPI}

theorem of_composed {x : EStateM Error σ α} (h : Composed (Keeps view) x) : Keeps view x :=
  Leaves.of_composed h

theorem reading (x : StorageM α) :
    Keeps Prod.snd (EStateM.reading x : EStateM Error (Storage × TraCIAPI) α) :=
  Leaves.reading x

theorem storing {x : ClientM α} (h : Keeps id x) : Keeps Prod.snd (EStateM.storing x : MessageM α) :=
  Leaves.storing h

theorem repeatM {x : EStateM Error σ Unit} (h : Keeps view x) (n : Nat) :
    Keeps view (EStateM.repeatM x n) := by
  apply of_composed
  induction n with
  | zero => exact .pure ()
  | succ n ih => exact .bind (.prim h) fun _ => ih

theorem onInput {x : MessageM α} (h : Keeps Prod.snd x) : Keeps id (TraCIAPI.onInput x) := by
  intro api
  have hx := h (api.myInput, api)
  rw [TraCIAPI.onInput]
  cases hr : x (api.myInput, api) <;> rw [hr] at hx <;> exact hx

theorem modifiable (scope : Scope) (x : EStateM Error (Storage × SubscriptionResults) α) :
    Keeps Prod.snd (TraCIAPI.modifiable scope x) :=
  fun p => by rw [TraCIAPI.modifiable, focusing, zoom_state]

theorem modifiableContext (scope : Scope) (contextID : Bytes)
    (x : EStateM Error (Storage × SubscriptionResults) α) :
    Keeps Prod.snd (TraCIAPI.modifiableContext scope contextID x) :=
  fun p => by rw [TraCIAPI.modifiableContext, focusing, zoom_state]

theorem readVariableSubscription (cmdId : Int) :
    Keeps Prod.snd (TraCIAPI.readVariableSubscription cmdId) :=
  of_composed <| .bind (.prim (reading _)) fun _ => .bind (.prim (reading _)) fun _ => by
    split
    · exact .prim (modifiable _ _)
    · exact .throw _

theorem readContextSubscription (cmdId : Int) :
    Keeps Prod.snd (TraCIAPI.readContextSubscription cmdId) :=
  of_composed <| .bind (.prim (reading _)) fun _ => .bind (.prim (reading _)) fun _ =>
    .bind (.prim (reading _)) fun _ => .bind (.prim (reading _)) fun _ =>
      .prim <| repeatM (of_composed <| .bind (.prim (reading _)) fun _ => by
        split
        · exact .prim (modifiableContext _ _ _)
        · exact .throw _) _

theorem readSubscription : Keeps Prod.snd TraCIAPI.readSubscription :=
  of_composed <| .bind (.prim (reading _)) fun _ => by
    split
    · exact .prim (readVariableSubscription _)
    · exact .prim (readContextSubscription _)

theorem clearSubscriptionResults (scope : Scope) :
    Keeps id (TraCIAPI.clearSubscriptionResults scope) :=
  fun _ => rfl

end Keeps

theorem Online.keep {api api' : TraCIAPI} {sent rest : Bytes} (h : Online api sent rest)
    (hs : api'.mySocket = api.mySocket) : Online api' sent rest := by
  rwa [Online, hs]

theorem Online.isNone {api : TraCIAPI} {sent rest : Bytes} (h : Online api sent rest) :
    api.mySocket.isNone = false := by
  obtain ⟨s, hs, -⟩ := h
  rw [hs]
  rfl

/-- A message has been received if one came first. -/
def Heard (rest rest' : Bytes) : Prop :=
  ∀ payload r, Socket.Sendable payload → rest = Socket.frame payload ++ r → rest' = r

/-- The connection stands, and since `rest` was still to be received, one message has been. -/
def Exchanged (api : TraCIAPI) (sent rest : Bytes) : Prop :=
  ∃ rest', Online api sent rest' ∧ Heard rest rest'

/-- A program that receives one message and sends none. -/
def Hears {σ α : Type} (view : σ → TraCIAPI) (x : EStateM Error σ α) : Prop :=
  ∀ s sent rest, Online (view s) sent rest → Exchanged (view (x s).state) sent rest

theorem Exchanged.bind {σ α β : Type} {view : σ → TraCIAPI} {x : EStateM Error σ α}
    {f : α → EStateM Error σ β} {s : σ} {sent rest : Bytes} (h : Exchanged (view (x s).state) sent rest)
    (hf : ∀ a, Keeps view (f a)) : Exchanged (view ((x >>= f) s).state) sent rest := by
  obtain ⟨rest', hon, hheard⟩ := h
  refine ⟨rest', hon.keep ?_, hheard⟩
  rw [bind_apply]
  cases x s with
  | ok a s' => exact hf a s'
  | error e s' => rfl

theorem Exchanged.keep {α β : Type} {x : ClientM α} {f : α → ClientM β} {api : TraCIAPI}
    {sent rest : Bytes} (h : Exchanged (x api).state sent rest) (hf : ∀ a, Keeps id (f a)) :
    Exchanged ((x >>= f) api).state sent rest :=
  bind h hf

namespace Hears

variable {σ α β : Type} {view : σ → TraCIAPI}

theorem bind {x : EStateM Error σ α} {f : α → EStateM Error σ β} (h : Hears view x)
    (hf : ∀ a, Keeps view (f a)) : Hears view (x >>= f) :=
  fun s sent rest hs => (h s sent rest hs).bind hf

theorem storing {x : ClientM α} (h : Hears id x) :
    Hears Prod.snd (EStateM.storing x : MessageM α) := by
  intro p sent rest hp
  rw [EStateM.storing, zoom_state]
  exact h p.2 sent rest hp

theorem withMessage {x : MessageM α} (h : Hears Prod.snd x) : Hears id (TraCIAPI.withMessage x) := by
  intro api sent rest hs
  have hx := h (.new api.bigEndian, api) sent rest hs
  rw [TraCIAPI.withMessage]
  cases hr : x (.new api.bigEndian, api) <;> rw [hr] at hx <;> exact hx

theorem onInput {x : MessageM α} (h : Hears Prod.snd x) : Hears id (TraCIAPI.onInput x) := by
  intro api sent rest hs
  have hx := h (api.myInput, api) sent rest hs
  rw [TraCIAPI.onInput]
  cases hr : x (api.myInput, api) <;> rw [hr] at hx <;> exact hx

/-- The message is emptied before. -/
theorem reset {x : MessageM α} (h : Hears Prod.snd x) :
    Hears Prod.snd (do EStateM.reading Storage.reset; x : MessageM α) :=
  fun p sent rest hp => h (.new p.1.bigEndian, p.2) sent rest hp

theorem receiveExact : Hears id (TraCIAPI.onSocket Socket.receiveExact) := by
  intro api sent rest ⟨socket, hsocket, hconn, htakes, hsent, hrest⟩
  have hsocket : api.mySocket = some socket := hsocket
  obtain ⟨incoming, hstate⟩ := Socket.receiveExact_state socket
  have hs : (TraCIAPI.onSocket Socket.receiveExact api).state.mySocket =
      some (Socket.receiveExact socket).state := by
    rw [TraCIAPI.onSocket, hsocket]
    dsimp only
    cases Socket.receiveExact socket <;> rfl
  refine ⟨_, ⟨_, hs, ?_, ?_, ?_, rfl⟩, ?_⟩
  · rw [hstate]
    exact hconn
  · rw [hstate]
    exact htakes
  · rw [hstate]
    exact hsent
  · intro payload r hp hr
    have hframe := hrest.trans hr
    rw [Socket.receiveExact_eq_ok.2 ⟨payload, r, hp, hframe, rfl, rfl⟩]
    exact Socket.input.rest_skip_append hframe

theorem check_resultState (command : Int) (ignoreCommandId : Bool) :
    Hears Prod.snd (TraCIAPI.check_resultState command ignoreCommandId) :=
  (storing receiveExact).bind fun _ => Keeps.of_composed <|
    .bind (.prim fun _ => rfl) fun _ => .prim (Keeps.reading _)

end Hears

/-! ## Sending a request -/

theorem onSocket_sendExact {api : TraCIAPI} {sent rest : Bytes} {m : Storage}
    (hm : Socket.Sendable m.store) (h : Online api sent rest) :
    ∃ api', TraCIAPI.onSocket (Socket.sendExact m) api = .ok () api' ∧
      Online api' (sent ++ Socket.frame m.store) rest := by
  obtain ⟨s, hs, hconn, htakes, rfl, rfl⟩ := h
  have hpost := Socket.sendExact_post hm hconn
  rw [TraCIAPI.onSocket, hs]
  dsimp only
  cases hr : Socket.sendExact m s with
  | ok u t =>
    obtain ⟨sendings, hsub, rfl⟩ := hpost.ok hr
    exact ⟨_, rfl, _, rfl, hconn, fun x hx => htakes x (hsub.mem hx), rfl, rfl⟩
  | error e t =>
    obtain ⟨-, error, he⟩ := hpost.error hr
    obtain ⟨n, hn⟩ := htakes _ he
    cases hn

theorem written_apply {x : StorageM Unit} {data : List Datum} (hx : x = writeAll data)
    (hd : ∀ d ∈ data, d.Typed) (api : TraCIAPI) :
    ((∀ d ∈ data, d.Fits) ∧ TraCIAPI.written x api =
      .ok (.ofPacket api.bigEndian (encodeAll data)) api) ∨
    ((¬ ∀ d ∈ data, d.Fits) ∧ ∃ what, TraCIAPI.written x api = .error (.invalidArgument what) api) := by
  rw [hx, TraCIAPI.written, bind_apply, get_apply]
  dsimp only
  obtain ⟨hfits, hr⟩ | ⟨hfits, what, t, hr⟩ := writeAll_cases hd (.new api.bigEndian) rfl
  · rw [hr]
    exact .inl ⟨hfits, rfl⟩
  · rw [hr]
    exact .inr ⟨hfits, what, rfl⟩

/-- What a program does on the connection: if the data are of their types, it sends them as a request
and receives one message, and otherwise nothing. -/
structure Asks {α : Type} (x : ClientM α) (data : List Datum) : Prop where
  exchanged : (∀ d ∈ data, d.Fits) → ∀ api sent rest, Online api sent rest →
    Exchanged (x api).state (sent ++ Socket.frame (encodeAll data)) rest
  refused : (¬ ∀ d ∈ data, d.Fits) → ∀ api sent rest, Online api sent rest →
    Online (x api).state sent rest

theorem Keeps.bind_online {α β : Type} {x : ClientM α} {f : α → ClientM β} {api : TraCIAPI}
    {sent rest : Bytes} (h : Online (x api).state sent rest) (hf : ∀ a, Keeps id (f a)) :
    Online ((x >>= f) api).state sent rest := by
  apply h.keep
  rw [bind_apply]
  cases x api with
  | ok a api' => exact hf a api'
  | error e api' => rfl

theorem Asks.bind {α β : Type} {x : ClientM α} {f : α → ClientM β} {data : List Datum}
    (hx : Asks x data) (hf : ∀ a, Keeps id (f a)) : Asks (x >>= f) data where
  exchanged hfits api sent rest h := (hx.exchanged hfits api sent rest h).keep hf
  refused hfits api sent rest h := Keeps.bind_online (hx.refused hfits api sent rest h) hf

/-- A program that sends the data as a request, if they are of their types. -/
structure Sends (x : ClientM Unit) (data : List Datum) : Prop where
  sent : (∀ d ∈ data, d.Fits) → ∀ api sent rest, Online api sent rest →
    ∃ api', x api = .ok () api' ∧ Online api' (sent ++ Socket.frame (encodeAll data)) rest
  refused : (¬ ∀ d ∈ data, d.Fits) → ∀ api sent rest, Online api sent rest →
    ∃ e, x api = .error e api

/-- After the request comes the answer. -/
theorem Sends.asks {α : Type} {x : ClientM Unit} {data : List Datum} (hx : Sends x data)
    {f : Unit → ClientM α} (hf : ∀ u, Hears id (f u)) : Asks (x >>= f) data where
  exchanged hfits api sent rest h := by
    obtain ⟨api', hr, hon⟩ := hx.sent hfits api sent rest h
    rw [bind_apply, hr]
    exact hf () api' _ rest hon
  refused hfits api sent rest h := by
    obtain ⟨e, hr⟩ := hx.refused hfits api sent rest h
    rw [bind_apply, hr]
    exact h

/-- A request that is written into a storage of its own. -/
theorem sends_written {x : StorageM Unit} {data : List Datum} (hx : x = writeAll data)
    (hd : ∀ d ∈ data, d.Typed) (hs : Socket.Sendable (encodeAll data)) :
    Sends (do let m ← TraCIAPI.written x; TraCIAPI.onSocket (Socket.sendExact m)) data where
  sent hfits api sent rest h := by
    obtain ⟨-, hr⟩ | ⟨hrefused, -⟩ := written_apply hx hd api
    · rw [bind_apply, hr]
      exact onSocket_sendExact (m := .ofPacket api.bigEndian (encodeAll data)) hs h
    · exact (hrefused hfits).elim
  refused hfits api sent rest h := by
    obtain ⟨hall, -⟩ | ⟨-, what, hr⟩ := written_apply hx hd api
    · exact (hfits hall).elim
    · rw [bind_apply, hr]
      exact ⟨_, rfl⟩

/-- The storage that is added to a command holds the data. -/
def Adds (add : Option Storage) (data : List Datum) : Prop :=
  (∀ d ∈ data, d.Fits) ∧
    ((add = none ∧ data = []) ∨ ∃ host, add = some (.ofPacket host (encodeAll data)))

/-- A command that says nothing more. -/
theorem adds_none : Adds none [] := ⟨List.forall_mem_nil _, .inl ⟨rfl, rfl⟩⟩

@[simp] theorem length_encodeString (v : Bytes) : (encodeString v).length = 4 + v.length := by
  rw [encodeString, List.length_append, BigEndian.length_encodeInt]

@[simp] theorem size_nil : size [] = 0 := rfl

@[simp] theorem size_cons (d : Datum) (data : List Datum) :
    size (d :: data) = d.encode.length + size data :=
  List.length_append

theorem encodeAll_append (as bs : List Datum) : encodeAll (as ++ bs) = encodeAll as ++ encodeAll bs :=
  List.flatMap_append

theorem size_variableBody (cmd var : Int) (id : Bytes) (data : List Datum) :
    size (Call.variableBody cmd var id data) = 6 + id.length + size data := by
  simp only [Call.variableBody, List.cons_append, List.nil_append, size_cons, Datum.encode,
    BigEndian.length_encode, length_encodeString]
  omega

/-- The part of a command that `createCommand` writes itself. -/
def head (long : Bool) (cmd var : Int) (id : Bytes) (data : List Datum) : List Datum :=
  announcement long (size (Call.variableBody cmd var id data)) ++
    [.unsignedByte cmd, .unsignedByte var, .string id]

theorem announced_variableBody (long : Bool) (cmd var : Int) (id : Bytes) (data : List Datum) :
    announced long (Call.variableBody cmd var id data) = head long cmd var id data ++ data := by
  rw [announced, head, List.append_assoc, Call.variableBody]

theorem createCommand_eq {cmd var : Int} {id : Bytes} {add : Option Storage} {data : List Datum}
    (hadd : Adds add data) {long : Bool}
    (hlong : long = (255 < 1 + size (Call.variableBody cmd var id data) : Bool))
    (hs : 7 + id.length + size data < 2 ^ 31) :
    TraCIAPI.createCommand cmd var id add = TraCIAPI.onOutput (do
      reset
      writeAll (head long cmd var id data)
      add.forM writeStorage) := by
  have hid : toInt id.length = id.length := toInt_of_fits ⟨by omega, by omega⟩
  have hadded : (add.map fun s => toInt s.store.length).getD 0 = size data := by
    obtain ⟨-, ⟨rfl, rfl⟩ | ⟨host, rfl⟩⟩ := hadd
    · rfl
    · have hfits : BigEndian.Fits 4 (size data) := ⟨by omega, by omega⟩
      exact toInt_of_fits hfits
  have hsize := size_variableBody cmd var id data
  rw [hsize] at hlong
  unfold TraCIAPI.createCommand
  rw [head, hsize]
  apply congrArg
  apply congrArg
  funext _
  cases long with
  | true =>
    have hgt : ¬ (1 + 1 + 1 + 4 + (id.length : Int) + size data) ≤ 255 := by
      have := of_decide_eq_true hlong.symm
      omega
    have hlen : (1 + 1 + 1 + 4 + (id.length : Int) + size data) + 4 =
        5 + ((6 + id.length + size data : Nat) : Int) := by
      omega
    rw [hid, hadded]
    dsimp only
    rw [if_neg hgt, hlen, announcement, if_pos rfl]
    simp only [writeAll, List.cons_append, List.nil_append, List.forM, Datum.write, bind_assoc,
      pure_bind]
  | false =>
    have hle : (1 + 1 + 1 + 4 + (id.length : Int) + size data) ≤ 255 := by
      have := of_decide_eq_false hlong.symm
      omega
    have hlen : (1 + 1 + 1 + 4 + (id.length : Int) + size data) =
        1 + ((6 + id.length + size data : Nat) : Int) := by
      omega
    rw [hid, hadded]
    dsimp only
    rw [if_pos hle, hlen, announcement, if_neg Bool.false_ne_true]
    simp only [writeAll, List.cons_append, List.nil_append, List.forM, Datum.write, bind_assoc,
      pure_bind]

theorem announcement_typed {long : Bool} {n : Nat} (h : 5 + n < 2 ^ 31) :
    ∀ d ∈ announcement long n, d.Typed := by
  have hfits : BigEndian.Fits 4 (5 + n) := ⟨by omega, by omega⟩
  cases long with
  | true => exact List.forall_mem_cons.2 ⟨trivial, List.forall_mem_singleton.2 hfits⟩
  | false => exact List.forall_mem_singleton.2 trivial

theorem size_announced (long : Bool) (body : List Datum) :
    size (announced long body) = (if long then 5 else 1) + size body := by
  rw [size, announced, encodeAll_append, List.length_append]
  cases long <;> rfl

/-- The command is written, or one of its numbers is no byte. -/
theorem createCommand_cases {cmd var : Int} {id : Bytes} {add : Option Storage} {data : List Datum}
    (hadd : Adds add data) (hs : 4 + size (Call.variableRequest cmd var id data) < 2 ^ 31)
    (api : TraCIAPI) :
    ((∀ d ∈ Call.variableRequest cmd var id data, d.Fits) ∧
      TraCIAPI.createCommand cmd var id add api = .ok () { api with
        myOutput := .ofPacket api.myOutput.bigEndian
          (encodeAll (Call.variableRequest cmd var id data)) }) ∨
    ((¬ ∀ d ∈ Call.variableRequest cmd var id data, d.Fits) ∧
      ∃ e s, TraCIAPI.createCommand cmd var id add api = .error e { api with myOutput := s }) := by
  obtain ⟨long, hlong⟩ : ∃ long : Bool,
      long = (255 < 1 + size (Call.variableBody cmd var id data) : Bool) := ⟨_, rfl⟩
  rw [Call.variableRequest, ← hlong] at hs ⊢
  have hsize : 11 + id.length + size data < 2 ^ 31 := by
    rw [size_announced, size_variableBody] at hs
    split at hs <;> omega
  have htyped : ∀ d ∈ head long cmd var id data, d.Typed := by
    have hid : BigEndian.Fits 4 id.length := ⟨by omega, by omega⟩
    rw [head, List.forall_mem_append]
    refine ⟨announcement_typed ?_, by simpa [Typed] using hid⟩
    rw [size_variableBody]
    omega
  have hadded : ∀ s : Storage, s.iter = 0 →
      add.forM writeStorage s = .ok () (s.appended (encodeAll data)) := by
    intro s hiter
    obtain ⟨-, ⟨rfl, rfl⟩ | ⟨host, rfl⟩⟩ := hadd
    · rw [encodeAll, List.flatMap_nil, appended_nil hiter]
      rfl
    · rfl
  rw [createCommand_eq hadd hlong (by omega), announced_variableBody, encodeAll_append,
    List.forall_mem_append, and_iff_left hadd.1]
  have hreset : reset api.myOutput = .ok () (.new api.myOutput.bigEndian) := rfl
  obtain ⟨hfits, hr⟩ | ⟨hfits, what, t, hr⟩ := writeAll_cases htyped (.new api.myOutput.bigEndian) rfl
  · refine .inl ⟨hfits, zoom_eq_ok.2 ⟨_, ?_, rfl⟩⟩
    exact bind_eq_ok.2 ⟨(), _, hreset, bind_eq_ok.2 ⟨(), _, hr, hadded _ rfl⟩⟩
  · have herror : (do reset; writeAll (head long cmd var id data); add.forM writeStorage)
        api.myOutput = .error (.invalidArgument what) t :=
      bind_eq_error.2 (.inr ⟨(), _, hreset, bind_eq_error.2 (.inl hr)⟩)
    exact .inr ⟨hfits, _, t, zoom_eq_error.2 ⟨t, herror, rfl⟩⟩

/-- What a request that has been written is sent with, and what follows it. -/
theorem sendExact_exchanged {α : Type} {api : TraCIAPI} {sent rest : Bytes} {m : Storage}
    (hm : Socket.Sendable m.store) (h : Online api sent rest) {f : Unit → ClientM α}
    (hf : ∀ u, Hears id (f u)) :
    Exchanged ((TraCIAPI.onSocket (Socket.sendExact m) >>= f) api).state
      (sent ++ Socket.frame m.store) rest := by
  obtain ⟨api', hr, hon⟩ := onSocket_sendExact hm h
  rw [bind_apply, hr]
  exact hf () api' _ rest hon

theorem processGet_exchanged {api : TraCIAPI} {sent rest : Bytes} (command expectedType : Int)
    (hm : Socket.Sendable api.myOutput.store) (h : Online api sent rest) :
    Exchanged (TraCIAPI.processGet command expectedType api).state
      (sent ++ Socket.frame api.myOutput.store) rest := by
  rw [TraCIAPI.processGet, bind_apply, get_apply]
  dsimp only
  rw [h.isNone, if_neg Bool.false_ne_true, bind_apply, get_apply]
  apply sendExact_exchanged hm h
  exact fun _ => (Hears.onInput <| .reset <| (Hears.check_resultState _ _).bind fun _ =>
    Keeps.of_composed <| .bind (.prim (Keeps.reading _)) fun _ => .pure _).bind fun _ =>
      Keeps.of_composed (.pure _)

theorem processSet_exchanged {api : TraCIAPI} {sent rest : Bytes} (command : Int)
    (hm : Socket.Sendable api.myOutput.store) (h : Online api sent rest) :
    Exchanged (TraCIAPI.processSet command api).state (sent ++ Socket.frame api.myOutput.store)
      rest := by
  rw [TraCIAPI.processSet, bind_apply, get_apply]
  dsimp only
  rw [h.isNone, if_neg Bool.false_ne_true, bind_apply, get_apply]
  apply sendExact_exchanged hm h
  exact fun _ => (Hears.onInput <| .reset <| (Hears.check_resultState _ _).bind fun _ =>
    Keeps.of_composed (.pure _)).bind fun _ => Keeps.of_composed (.pure _)

/-! ## The requests of the functions -/

/-- An `int` is an `int`. -/
def Storage.Datum.Ranged : Datum → Prop
  | .int v => BigEndian.Fits 4 v
  | _ => True

theorem length_le_flatMap {α : Type} {f : α → Bytes} (hf : ∀ a, 1 ≤ (f a).length) (as : List α) :
    as.length ≤ (as.flatMap f).length := by
  induction as with
  | nil => exact Nat.le_refl _
  | cons a as ih =>
    have ha := hf a
    rw [List.flatMap_cons, List.length_append, List.length_cons]
    omega

theorem length_le_strings (vs : List Bytes) : vs.length ≤ (vs.flatMap encodeString).length := by
  apply length_le_flatMap
  intro v
  rw [length_encodeString]
  omega

theorem length_le_of_mem {α : Type} (f : α → Bytes) {a : α} {as : List α} (h : a ∈ as) :
    (f a).length ≤ (as.flatMap f).length :=
  (List.sublist_flatten_of_mem (List.mem_map_of_mem h)).length_le

/-- In data that fit into a message, every length fits. -/
theorem typed_of_size {data : List Datum} (hs : 4 + size data < 2 ^ 31)
    (h : ∀ d ∈ data, d.Ranged) : ∀ d ∈ data, d.Typed := by
  intro d hd
  have hle : d.encode.length ≤ size data := length_le_of_mem encode hd
  have hd := h d hd
  cases d with
  | char | byte | unsignedByte | short | float | double => trivial
  | int => exact hd
  | string v =>
    simp only [Datum.encode, encodeString, List.length_append, BigEndian.length_encodeInt] at hle
    exact ⟨by omega, by omega⟩
  | stringList vs =>
    simp only [Datum.encode, encodeList, List.length_append, BigEndian.length_encodeInt] at hle
    have hcount := length_le_strings vs
    refine ⟨⟨by omega, by omega⟩, fun v hv => ?_⟩
    have hle' := length_le_of_mem encodeString hv
    simp only [encodeString, List.length_append, BigEndian.length_encodeInt] at hle'
    exact ⟨by omega, by omega⟩
  | doubleList vs =>
    simp only [Datum.encode, encodeList, List.length_append, BigEndian.length_encodeInt] at hle
    have hcount := length_le_flatMap (f := fun v : Double => BigEndian.encode 8 v.toNat) (fun v => by
      rw [BigEndian.length_encode]
      omega) vs
    exact ⟨by omega, by omega⟩

theorem size_map_unsignedByte (vars : List Int) : size (vars.map .unsignedByte) = vars.length := by
  induction vars with
  | nil => rfl
  | cons v vars ih =>
    rw [List.map_cons, size_cons, ih, Datum.encode, BigEndian.length_encode, List.length_cons,
      Nat.add_comm]

theorem writeAll_map_unsignedByte (vars : List Int) :
    writeAll (vars.map .unsignedByte) = vars.forM writeUnsignedByte := by
  induction vars with
  | nil => rfl
  | cons v vars ih => exact congrArg (writeUnsignedByte v >>= fun _ => ·) ih

/-- How long a list of strings is on the wire, as `load` reckons it. -/
theorem length_flatMap_encodeString (args : List Bytes)
    (h : (args.flatMap encodeString).length < 2 ^ 31) :
    ((args.flatMap encodeString).length : Int) =
      (args.map fun arg => toInt arg.length).sum + 4 * args.length := by
  induction args with
  | nil => rfl
  | cons arg args ih =>
    rw [List.flatMap_cons, List.length_append, length_encodeString] at h
    have harg : toInt arg.length = arg.length := toInt_of_fits ⟨by omega, by omega⟩
    have ih := ih (by omega)
    rw [List.flatMap_cons, List.length_append, length_encodeString, List.map_cons, List.sum_cons, harg,
      List.length_cons]
    omega

theorem size_append (as bs : List Datum) : size (as ++ bs) = size as + size bs := by
  rw [size, encodeAll_append, List.length_append, size, size]

/-- A test that there is a connection changes nothing if there is one. -/
theorem sends_connected {x : ClientM Unit} {e : Error} {data : List Datum} (h : Sends x data) :
    Sends (do if (← get).mySocket.isNone then throw e
              x) data := by
  have hx : ∀ api sent rest, Online api sent rest →
      (do if (← get).mySocket.isNone then throw e
          x : ClientM Unit) api = x api := by
    intro api sent rest hon
    rw [bind_apply, get_apply]
    dsimp only
    rw [hon.isNone, if_neg Bool.false_ne_true]
  constructor
  · intro hfits api sent rest hon
    rw [hx api sent rest hon]
    exact h.sent hfits api sent rest hon
  · intro hfits api sent rest hon
    rw [hx api sent rest hon]
    exact h.refused hfits api sent rest hon

/-- A storage that is written before the command it is added to. -/
theorem asks_content {α : Type} {x : StorageM Unit} (data : List Datum) {request : List Datum}
    (hx : x = writeAll data) (hd : ∀ d ∈ data, d.Fits) {f : Storage → ClientM α}
    (hf : ∀ host, Asks (f (.ofPacket host (encodeAll data))) request) :
    Asks (do let content ← TraCIAPI.written x; f content) request := by
  have hwritten : ∀ api, (do let content ← TraCIAPI.written x; f content : ClientM α) api =
      f (.ofPacket api.bigEndian (encodeAll data)) api := by
    intro api
    have hok : TraCIAPI.written x api = .ok (.ofPacket api.bigEndian (encodeAll data)) api := by
      rw [hx, TraCIAPI.written, bind_apply, get_apply]
      dsimp only
      rw [writeAll_apply hd (.new api.bigEndian) rfl]
      rfl
    rw [bind_apply, hok]
  constructor
  · intro hfits api sent rest h
    rw [hwritten]
    exact (hf api.bigEndian).exchanged hfits api sent rest h
  · intro hfits api sent rest h
    rw [hwritten]
    exact (hf api.bigEndian).refused hfits api sent rest h

namespace Call

theorem sendable {c : Call} (hc : c.Sized) : Socket.Sendable (encodeAll c.request) := by
  have hpos : 0 < size c.request := by
    rw [request, size_announced]
    split <;> omega
  exact ⟨List.length_pos_iff.1 hpos, hc.1⟩

theorem typed {c : Call} (hc : c.Sized) (hbody : ∀ d ∈ c.body, d.Ranged) :
    ∀ d ∈ c.request, d.Typed := by
  have hs := hc.1
  apply typed_of_size hs
  rw [request, size_announced] at hs
  rw [request, announced, List.forall_mem_append]
  refine ⟨?_, hbody⟩
  cases hlong : c.long with
  | false => exact List.forall_mem_singleton.2 trivial
  | true =>
    rw [hlong, if_pos rfl] at hs
    have hfits : BigEndian.Fits 4 (5 + size c.body) := ⟨by omega, by omega⟩
    exact List.forall_mem_cons.2 ⟨trivial, List.forall_mem_singleton.2 hfits⟩

theorem asks_simulationStep (time : Double) (hc : (simulationStep time).Sized) :
    Asks (simulationStep time).run (simulationStep time).request := by
  have hrequest : (simulationStep time).request =
      [.unsignedByte (1 + 1 + 8), .unsignedByte CMD_SIMSTEP, .double time] := by
    simp [request, announced, announcement, long, body]
  apply Sends.asks
  · apply sends_written _ (typed hc (by simp [body, Ranged])) (sendable hc)
    rw [hrequest]
    simp only [writeAll, List.forM, Datum.write, bind_pure_unit]
  · exact fun _ => Hears.withMessage <| (Hears.check_resultState _ _).bind fun _ =>
      Keeps.of_composed <| .bind (.prim (Keeps.storing (Keeps.of_composed
        (Composed.forM fun scope _ => .prim (Keeps.clearSubscriptionResults scope))))) fun _ =>
          .bind (.prim (Keeps.reading _)) fun _ => .prim (Keeps.repeatM Keeps.readSubscription _)

theorem asks_setOrder (order : Int) (hc : (setOrder order).Sized) :
    Asks (setOrder order).run (setOrder order).request := by
  have hrequest : (setOrder order).request =
      [.unsignedByte (1 + 1 + 4), .unsignedByte CMD_SETORDER, .int order] := by
    simp [request, announced, announcement, long, body]
  apply Sends.asks
  · apply sends_written _ (typed hc (by simpa [body, Ranged] using hc.2 order rfl)) (sendable hc)
    rw [hrequest]
    simp only [writeAll, List.forM, Datum.write, bind_pure_unit]
  · exact fun _ => Hears.withMessage <| (Hears.check_resultState _ _).bind fun _ =>
      Keeps.of_composed (.pure _)

theorem asks_subscribe (scope : Scope) (objID : Bytes) (vars : List Int) (beginTime endTime : Double)
    (hc : (subscribe scope objID vars beginTime endTime).Sized) :
    Asks (subscribe scope objID vars beginTime endTime).run
      (subscribe scope objID vars beginTime endTime).request := by
  have hrequest : (subscribe scope objID vars beginTime endTime).request =
      [.unsignedByte 0, .int (5 + 1 + 8 + 8 + 4 + objID.length + 1 + vars.length),
        .unsignedByte scope.mySubscribeID, .double beginTime, .double endTime, .string objID,
        .unsignedByte vars.length] ++ vars.map .unsignedByte := by
    simp [request, announced, announcement, long, body, size_map_unsignedByte]
    omega
  have hs := hc.1
  rw [hrequest, size_append, size_map_unsignedByte] at hs
  simp at hs
  have hvars : toInt vars.length = vars.length := toInt_of_fits ⟨by omega, by omega⟩
  have hid : toInt objID.length = objID.length := toInt_of_fits ⟨by omega, by omega⟩
  apply Sends.asks
  · apply sends_connected
    apply sends_written _ (typed hc (by simp [body, Ranged])) (sendable hc)
    rw [hrequest, hvars, hid, Int.toNat_natCast, List.take_length, writeAll_append,
      writeAll_map_unsignedByte]
    simp only [writeAll, List.forM, Datum.write, bind_assoc, pure_bind]
  · intro _
    apply Hears.withMessage
    apply (Hears.check_resultState _ _).bind
    intro _
    apply Keeps.of_composed
    split
    · exact .bind (.prim (Keeps.reading _)) fun _ => .prim (Keeps.readVariableSubscription _)
    · exact .pure _

theorem asks_subscribeContext (scope : Scope) (objID : Bytes) (domain : Int) (range : Double)
    (vars : List Int) (beginTime endTime : Double)
    (hc : (subscribeContext scope objID domain range vars beginTime endTime).Sized) :
    Asks (subscribeContext scope objID domain range vars beginTime endTime).run
      (subscribeContext scope objID domain range vars beginTime endTime).request := by
  have hrequest : (subscribeContext scope objID domain range vars beginTime endTime).request =
      [.unsignedByte 0, .int (5 + 1 + 8 + 8 + 4 + objID.length + 1 + 8 + 1 + vars.length),
        .unsignedByte scope.myContextSubscribeID, .double beginTime, .double endTime, .string objID,
        .unsignedByte domain, .double range, .unsignedByte vars.length] ++
        vars.map .unsignedByte := by
    simp [request, announced, announcement, long, body, size_map_unsignedByte]
    omega
  have hs := hc.1
  rw [hrequest, size_append, size_map_unsignedByte] at hs
  simp at hs
  have hvars : toInt vars.length = vars.length := toInt_of_fits ⟨by omega, by omega⟩
  have hid : toInt objID.length = objID.length := toInt_of_fits ⟨by omega, by omega⟩
  apply Sends.asks
  · apply sends_connected
    apply sends_written _ (typed hc (by simp [body, Ranged])) (sendable hc)
    rw [hrequest, hvars, hid, Int.toNat_natCast, List.take_length, writeAll_append,
      writeAll_map_unsignedByte]
    simp only [writeAll, List.forM, Datum.write, bind_assoc, pure_bind]
  · intro _
    apply Hears.withMessage
    apply (Hears.check_resultState _ _).bind
    intro _
    exact Keeps.of_composed <| .bind (.prim (Keeps.reading _)) fun _ =>
      .prim (Keeps.readContextSubscription _)

theorem asks_load (args : List Bytes) (hc : (load args).Sized) :
    Asks (load args).run (load args).request := by
  have hbody : size (load args).body = 6 + (args.flatMap encodeString).length := by
    simp only [body, size_cons, size_nil, Datum.encode, encodeList, List.length_append,
      BigEndian.length_encode, BigEndian.length_encodeInt]
    omega
  have hs := hc.1
  rw [request, size_announced, hbody] at hs
  have hcount := length_le_strings args
  have hchars := length_flatMap_encodeString args (by omega)
  have hargs : toInt args.length = args.length := toInt_of_fits ⟨by omega, by omega⟩
  have hrequest : (load args).request =
      [.unsignedByte 0, .int (1 + 4 + 1 + 1 + 4 + (args.map fun arg => toInt arg.length).sum +
        4 * toInt args.length), .unsignedByte CMD_LOAD, .unsignedByte TYPE_STRINGLIST,
        .stringList args] := by
    have hlen : (5 + size (load args).body : Int) = 1 + 4 + 1 + 1 + 4 +
        (args.map fun arg => toInt arg.length).sum + 4 * toInt args.length := by
      rw [hbody, hargs]
      omega
    rw [request, announced, announcement, long, if_pos rfl, hlen]
    rfl
  have hwritten := sends_written (x := do
      writeUnsignedByte 0
      writeInt (1 + 4 + 1 + 1 + 4 + (args.map fun arg => toInt arg.length).sum + 4 * toInt args.length)
      writeUnsignedByte CMD_LOAD
      writeUnsignedByte TYPE_STRINGLIST
      writeStringList args) (by
    rw [hrequest]
    simp only [writeAll, List.forM, Datum.write, bind_pure_unit])
    (typed hc (by simp [body, Ranged])) (sendable hc)
  have hhears : Hears id (TraCIAPI.withMessage do
      let _ ← TraCIAPI.check_resultState CMD_LOAD false) :=
    Hears.withMessage <| (Hears.check_resultState _ _).bind fun _ => Keeps.of_composed (.pure _)
  have hrun := hwritten.asks fun _ => hhears
  rw [bind_assoc] at hrun
  exact hrun

theorem mem_variableRequest {cmd var : Int} {id : Bytes} {data : List Datum} {d : Datum}
    (h : d ∈ data) : d ∈ variableRequest cmd var id data :=
  List.mem_append_right _ (List.mem_append_right _ h)

theorem size_le_variableRequest (cmd var : Int) (id : Bytes) (data : List Datum) :
    size data ≤ size (variableRequest cmd var id data) := by
  rw [variableRequest, size_announced, size_variableBody]
  omega

theorem variableRequest_sendable {cmd var : Int} {id : Bytes} {data : List Datum}
    (hs : 4 + size (variableRequest cmd var id data) < 2 ^ 31) :
    Socket.Sendable (encodeAll (variableRequest cmd var id data)) := by
  have hpos : 0 < size (variableRequest cmd var id data) := by
    rw [variableRequest, size_announced]
    split <;> omega
  exact ⟨List.length_pos_iff.1 hpos, hs⟩

/-- A command for a variable is sent by the function that processes it. -/
theorem asks_variable {α : Type} {cmd var : Int} {id : Bytes} {add : Option Storage}
    {data : List Datum} (hadd : Adds add data)
    (hs : 4 + size (variableRequest cmd var id data) < 2 ^ 31) {x : ClientM α}
    (hx : ∀ api sent rest, Socket.Sendable api.myOutput.store → Online api sent rest →
      Exchanged (x api).state (sent ++ Socket.frame api.myOutput.store) rest) :
    Asks (do TraCIAPI.createCommand cmd var id add; x) (variableRequest cmd var id data) := by
  constructor
  · intro hfits api sent rest h
    obtain ⟨-, hr⟩ | ⟨hrefused, -⟩ := createCommand_cases hadd hs api
    · rw [bind_apply, hr]
      exact hx _ sent rest (variableRequest_sendable hs) h
    · exact (hrefused hfits).elim
  · intro hfits api sent rest h
    obtain ⟨hall, -⟩ | ⟨-, e, s, hr⟩ := createCommand_cases hadd hs api
    · exact (hfits hall).elim
    · rw [bind_apply, hr]
      exact h

theorem asks_getValue {α : Type} (expectedType : Int) (read : StorageM α) (unknown : α)
    {cmd var : Int} {id : Bytes} {add : Option Storage} {data : List Datum} (hadd : Adds add data)
    (hs : 4 + size (variableRequest cmd var id data) < 2 ^ 31) :
    Asks (TraCIAPI.getValue expectedType read unknown cmd var id add)
      (variableRequest cmd var id data) := by
  apply asks_variable hadd hs
  intro api sent rest hm h
  apply (processGet_exchanged cmd expectedType hm h).keep
  intro b
  cases b with
  | false => exact Keeps.of_composed (.pure _)
  | true => exact Keeps.onInput (Keeps.reading _)

theorem asks_get (getter : Getter) (cmd var : Int) (id : Bytes) (hc : (get getter cmd var id).Sized) :
    Asks (get getter cmd var id).run (get getter cmd var id).request := by
  have hask : ∀ {α : Type} (expectedType : Int) (read : StorageM α) (unknown : α),
      Asks (do let _ ← TraCIAPI.getValue expectedType read unknown cmd var id none)
        (get getter cmd var id).request := fun expectedType read unknown =>
    (asks_getValue expectedType read unknown adds_none hc.1).bind fun _ => Keeps.of_composed (.pure _)
  cases getter <;> exact hask _ _ _

theorem asks_getParameter (scope : Scope) (objectID key : Bytes)
    (hc : (getParameter scope objectID key).Sized) :
    Asks (getParameter scope objectID key).run (getParameter scope objectID key).request := by
  have hkey : BigEndian.Fits 4 key.length := by
    have hs := hc.1
    rw [request, size_announced, body, size_variableBody] at hs
    simp only [size_cons, Datum.encode, length_encodeString] at hs
    exact ⟨by omega, by omega⟩
  have hd : ∀ d ∈ [Datum.byte TYPE_STRING, .string key], d.Fits :=
    List.forall_mem_cons.2 ⟨by decide, List.forall_mem_singleton.2 hkey⟩
  apply Asks.bind
  · apply asks_content [.byte TYPE_STRING, .string key] _ hd
    · exact fun host => asks_getValue _ _ _ ⟨hd, .inr ⟨host, rfl⟩⟩ hc.1
    · simp only [writeAll, List.forM, Datum.write, bind_pure_unit]
  · exact fun _ => Keeps.of_composed (.pure _)

theorem asks_setParameter (scope : Scope) (objectID key value : Bytes)
    (hc : (setParameter scope objectID key value).Sized) :
    Asks (setParameter scope objectID key value).run
      (setParameter scope objectID key value).request := by
  have hs := hc.1
  rw [request, size_announced, body, size_variableBody] at hs
  simp only [size_cons, Datum.encode, length_encodeString] at hs
  have hkey : BigEndian.Fits 4 key.length := ⟨by omega, by omega⟩
  have hvalue : BigEndian.Fits 4 value.length := ⟨by omega, by omega⟩
  have hd : ∀ d ∈ [Datum.unsignedByte TYPE_COMPOUND, .int 2, .unsignedByte TYPE_STRING, .string key,
      .unsignedByte TYPE_STRING, .string value], d.Fits := by
    simp only [List.forall_mem_cons]
    exact ⟨by decide, by decide, by decide, hkey, by decide, hvalue, List.forall_mem_nil _⟩
  apply asks_content [.unsignedByte TYPE_COMPOUND, .int 2, .unsignedByte TYPE_STRING, .string key,
    .unsignedByte TYPE_STRING, .string value] _ hd
  · intro host
    apply asks_variable ⟨hd, .inr ⟨host, rfl⟩⟩ hc.1
    intro api sent rest hm h
    exact (processSet_exchanged _ hm h).keep fun _ => Keeps.of_composed (.pure _)
  · simp only [writeAll, List.forM, Datum.write, bind_pure_unit]

theorem asks_convertGeo (x y : Double) (fromGeo : Bool) (hc : (convertGeo x y fromGeo).Sized) :
    Asks (convertGeo x y fromGeo).run (convertGeo x y fromGeo).request := by
  have hrequest : (convertGeo x y fromGeo).request =
      variableRequest CMD_GET_SIM_VARIABLE POSITION_CONVERSION [] [.byte TYPE_COMPOUND, .int 2,
        .byte (if fromGeo then POSITION_LON_LAT else POSITION_2D), .double x, .double y,
        .byte TYPE_UBYTE, .byte (if fromGeo then POSITION_2D else POSITION_LON_LAT)] := rfl
  have hs := hc.1
  rw [hrequest] at hs ⊢
  have hd : ∀ d ∈ [Datum.byte TYPE_COMPOUND, .int 2,
      .byte (if fromGeo then POSITION_LON_LAT else POSITION_2D), .double x, .double y,
      .byte TYPE_UBYTE, .byte (if fromGeo then POSITION_2D else POSITION_LON_LAT)], d.Fits := by
    simp only [List.forall_mem_cons]
    refine ⟨by decide, by decide, ?_, trivial, trivial, by decide, ?_, List.forall_mem_nil _⟩
    · cases fromGeo <;> decide
    · cases fromGeo <;> decide
  apply Asks.bind
  · apply asks_content [.byte TYPE_COMPOUND, .int 2,
      .byte (if fromGeo then POSITION_LON_LAT else POSITION_2D), .double x, .double y,
      .byte TYPE_UBYTE, .byte (if fromGeo then POSITION_2D else POSITION_LON_LAT)] _ hd
    · intro host
      apply asks_variable ⟨hd, .inr ⟨host, rfl⟩⟩ hs
      intro api sent rest hm h
      apply (processGet_exchanged _ _ hm h).keep
      intro b
      cases b with
      | false => exact Keeps.of_composed (.pure _)
      | true => exact Keeps.onInput (Keeps.reading _)
    · simp only [writeAll, List.forM, Datum.write, bind_pure_unit]
  · exact fun _ => Keeps.of_composed (.pure _)

/-- What a function sends, and that it does so however it ends. -/
theorem run_asks {c : Call} (hc : c.Sized) : Asks c.run c.request := by
  cases c with
  | simulationStep time => exact asks_simulationStep time hc
  | setOrder order => exact asks_setOrder order hc
  | load args => exact asks_load args hc
  | get getter cmd var id => exact asks_get getter cmd var id hc
  | getParameter scope objectID key => exact asks_getParameter scope objectID key hc
  | setParameter scope objectID key value => exact asks_setParameter scope objectID key value hc
  | convertGeo x y fromGeo => exact asks_convertGeo x y fromGeo hc
  | subscribe scope objID vars beginTime endTime =>
    exact asks_subscribe scope objID vars beginTime endTime hc
  | subscribeContext scope objID domain range vars beginTime endTime =>
    exact asks_subscribeContext scope objID domain range vars beginTime endTime hc

/-- The client after some calls, each of which may have thrown. -/
def runAll (calls : List Call) (api : TraCIAPI) : TraCIAPI :=
  calls.foldl (fun api c => (c.run api).state) api

/-- The requests of the calls, without those that are refused. -/
def requests (calls : List Call) : List (List Datum) :=
  (calls.filter fun c => c.Accepted).map request

/-- The requests as messages. -/
def messages (requests : List (List Datum)) (host : Bool) : List Storage :=
  requests.map fun data => .ofPacket host (encodeAll data)

theorem frames_messages (requests : List (List Datum)) (host : Bool) :
    Socket.frames (messages requests host) =
      requests.flatMap fun data => Socket.frame (encodeAll data) := by
  rw [Socket.frames, messages, List.flatMap_map]
  rfl

/-- As many messages have been received as there are requests if so many came first. -/
def HeardAll (n : Nat) (rest rest' : Bytes) : Prop :=
  ∀ answers r, answers.length = n → (∀ m ∈ answers, Socket.Sendable m.store) →
    rest = Socket.frames answers ++ r → rest' = r

theorem runAll_online {calls : List Call} (hc : ∀ c ∈ calls, c.Sized) {api : TraCIAPI}
    {sent rest : Bytes} (h : Online api sent rest) :
    ∃ rest', Online (runAll calls api)
      (sent ++ (requests calls).flatMap fun data => Socket.frame (encodeAll data)) rest' ∧
      HeardAll (requests calls).length rest rest' := by
  induction calls generalizing api sent rest with
  | nil =>
    refine ⟨rest, ?_, ?_⟩
    · rw [requests, List.filter_nil, List.map_nil, List.flatMap_nil, List.append_nil]
      exact h
    · intro answers r hlen _ hr
      rwa [List.length_eq_zero_iff.1 hlen] at hr
  | cons c calls ih =>
    obtain ⟨hfirst, hrest⟩ := List.forall_mem_cons.1 hc
    rw [requests, List.filter_cons]
    by_cases hacc : ∀ d ∈ c.request, d.Fits
    · obtain ⟨rest₁, hon, hheard⟩ := (run_asks hfirst).exchanged hacc api sent rest h
      obtain ⟨rest', hrun, hall⟩ := ih hrest hon
      rw [List.append_assoc] at hrun
      rw [if_pos (decide_eq_true (p := c.Accepted) hacc), List.map_cons, List.flatMap_cons]
      refine ⟨rest', hrun, ?_⟩
      rintro (_ | ⟨m, answers⟩) r hlen hs hr
      · cases hlen
      · obtain ⟨hm, hanswers⟩ := List.forall_mem_cons.1 hs
        rw [Socket.frames, List.flatMap_cons, List.append_assoc] at hr
        exact hall answers r (Nat.succ.inj hlen) hanswers (hheard m.store _ hm hr)
    · have hrefused : ¬ decide c.Accepted = true := fun h => hacc (of_decide_eq_true h)
      rw [if_neg hrefused]
      exact ih hrest ((run_asks hfirst).refused hacc api sent rest h)

/-- A request that has been made. -/
theorem exists_of_mem_requests {calls : List Call} {data : List Datum} (h : data ∈ requests calls) :
    ∃ c ∈ calls, c.Accepted ∧ c.request = data := by
  obtain ⟨c, hmem, rfl⟩ := List.mem_map.1 h
  obtain ⟨hc, hacc⟩ := List.mem_filter.1 hmem
  exact ⟨c, hc, of_decide_eq_true hacc, rfl⟩

/-- Data that fit are read from a message as they have been written. -/
theorem readAll_encodeAll {data : List Datum} (h : ∀ d ∈ data, d.Fits) (host : Bool) :
    ∃ s, readAll (data.map Datum.kind) (.ofPacket host (encodeAll data)) = .ok data s ∧
      Storage.input.rest s = [] := by
  have hrest : Storage.input.rest (.ofPacket host (encodeAll data)) = encodeAll data ++ [] :=
    (List.append_nil _).symm
  exact ⟨_, (recognises_readAll _).ok ⟨⟨rfl, h⟩, rfl⟩ hrest, Storage.input.rest_skip_append hrest⟩

/-- Whichever functions are called in whichever order, and however each of them ends, just the requests
of these functions are sent, each in a message of its own, and what arrives of them at the other side of
the connection is read there, on a host of any byte order, as these requests with their arguments; a
function one of whose arguments is to be a byte and is none sends nothing. -/
theorem requests_delivered {calls : List Call} (hc : ∀ c ∈ calls, c.Sized) {api : TraCIAPI}
    {a : Socket} (ha : api.mySocket = some a) (hconn : a.connected = true)
    (htakes : ∀ x ∈ a.sendings, ∃ n, x = .takes n) :
    ∃ s, (runAll calls api).mySocket = some s ∧
      s.sent = a.sent ++ (requests calls).flatMap (fun data => Socket.frame (encodeAll data)) ∧
      ∀ b : Socket, a.sent ++ Socket.input.rest b <+: s.sent → ∀ n ≤ (requests calls).length,
        if (((requests calls).take n).map fun data => 4 + size data).sum ≤
            (Socket.input.rest b).length then
          ∃ ms b', replicateM Socket.receiveExact n b = .ok ms b' ∧
            List.Forall₂ (fun data m => ∃ m', readAll (data.map Datum.kind) m = .ok data m' ∧
              Storage.input.rest m' = []) ((requests calls).take n) ms
        else replicateM Socket.receiveExact n b = .error b.ending b.exhausted := by
  obtain ⟨_, ⟨s, hs, -, -, hsent, -⟩, -⟩ := runAll_online hc ⟨a, ha, hconn, htakes, rfl, rfl⟩
  refine ⟨s, hs, hsent, fun b hb n hn => ?_⟩
  have hsendable : ∀ m ∈ messages (requests calls) b.bigEndian, Socket.Sendable m.store := by
    intro m hm
    obtain ⟨data, hdata, rfl⟩ := List.mem_map.1 hm
    obtain ⟨c, hmem, -, rfl⟩ := exists_of_mem_requests hdata
    exact sendable (hc c hmem)
  rw [hsent, List.prefix_append_right_inj, ← frames_messages _ b.bigEndian] at hb
  have hreceive := Socket.receiveExact_of_frames hsendable hb (n := n) (by rwa [messages, List.length_map])
  have htake : (messages (requests calls) b.bigEndian).take n =
      messages ((requests calls).take n) b.bigEndian := List.map_take.symm
  have hlen : (Socket.frames (messages ((requests calls).take n) b.bigEndian)).length =
      (((requests calls).take n).map fun data => 4 + size data).sum := by
    rw [frames_messages, List.length_flatMap]
    simp only [Socket.length_frame]
    rfl
  rw [htake, hlen] at hreceive
  split
  next hle =>
    rw [if_pos hle] at hreceive
    refine ⟨_, _, hreceive, ?_⟩
    rw [messages, List.map_map, List.forall₂_map_right_iff, List.forall₂_same]
    intro data hdata
    obtain ⟨c, -, hacc, rfl⟩ := exists_of_mem_requests (List.mem_of_mem_take hdata)
    exact readAll_encodeAll hacc _
  next hle => rwa [if_neg hle] at hreceive

/-- The second call is refused, since 300 is no byte. -/
def mixedCalls : List Call :=
  [.simulationStep 0, .subscribe .vehicle [] [0x40, 300] 0 0, .setOrder 1]

/-- The system takes one byte first. -/
def slowSocket : Socket where
  connected := true
  incoming := []
  sendings := [.takes 1]
  sent := []
  bigEndian := false

theorem requests_delivered_mixed :
    (requests mixedCalls).map (·.map Datum.kind) =
      [[.unsignedByte, .unsignedByte, .double], [.unsignedByte, .unsignedByte, .int]] ∧
    ∃ s, (runAll mixedCalls { TraCIAPI.new false with mySocket := some slowSocket }).mySocket =
        some s ∧
      s.sent = slowSocket.sent ++
        (requests mixedCalls).flatMap (fun data => Socket.frame (encodeAll data)) ∧
      ∀ b : Socket, slowSocket.sent ++ Socket.input.rest b <+: s.sent →
        ∀ n ≤ (requests mixedCalls).length,
        if (((requests mixedCalls).take n).map fun data => 4 + size data).sum ≤
            (Socket.input.rest b).length then
          ∃ ms b', replicateM Socket.receiveExact n b = .ok ms b' ∧
            List.Forall₂ (fun data m => ∃ m', readAll (data.map Datum.kind) m = .ok data m' ∧
              Storage.input.rest m' = []) ((requests mixedCalls).take n) ms
        else replicateM Socket.receiveExact n b = .error b.ending b.exhausted := by
  have hc : ∀ c ∈ mixedCalls, c.Sized := by
    simp only [mixedCalls, List.forall_mem_cons]
    refine ⟨⟨by decide, nofun⟩, ⟨by decide, nofun⟩, ⟨by decide, ?_⟩, List.forall_mem_nil _⟩
    rintro order ⟨⟩
    decide
  have htakes : ∀ x ∈ slowSocket.sendings, ∃ n, x = .takes n :=
    List.forall_mem_singleton.2 ⟨1, rfl⟩
  exact ⟨by decide, requests_delivered hc rfl rfl htakes⟩

end Call

end Cosidia.Traci
