import Cosidia.Verify.Answers

/-!
# Requests and their answers

Each request gets the next message that comes as its answer, whatever this message says and however the
functions end, so that the answers never get out of step with the requests. What a function makes of
the answer is a matter of this answer alone.
-/

namespace Cosidia.Traci

open EStateM Storage Storage.Datum

/-! ## In step -/

namespace Call

theorem frames_append (as bs : List Storage) :
    Socket.frames (as ++ bs) = Socket.frames as ++ Socket.frames bs :=
  List.flatMap_append

theorem length_requests_take (calls : List Call) (k : Nat) :
    (requests (calls.take k)).length ≤ (requests calls).length := by
  rw [requests, requests, List.length_map, List.length_map]
  exact ((List.take_sublist k calls).filter _).length_le

/-- Whichever functions are called, however each of them ends and whatever the answers say, after each
call as many messages have been received as requests have been sent. -/
theorem runAll_in_step {calls : List Call} (hc : ∀ c ∈ calls, c.Sized) {api : TraCIAPI} {a : Socket}
    (ha : api.mySocket = some a) (hconn : a.connected = true)
    (htakes : ∀ x ∈ a.sendings, ∃ n, x = .takes n) {answers : List Storage} {r : Bytes}
    (hlen : (requests calls).length ≤ answers.length)
    (hanswers : ∀ m ∈ answers, Socket.Sendable m.store)
    (hr : Socket.input.rest a = Socket.frames answers ++ r) (k : Nat) :
    ∃ s, (runAll (calls.take k) api).mySocket = some s ∧
      s.sent = a.sent ++ Socket.frames (messages (requests (calls.take k)) a.bigEndian) ∧
      Socket.input.rest s =
        Socket.frames (answers.drop (requests (calls.take k)).length) ++ r := by
  have hck : ∀ c ∈ calls.take k, c.Sized := fun c hmem => hc c (List.mem_of_mem_take hmem)
  obtain ⟨rest', ⟨s, hs, -, -, hsent, hrest⟩, hheard⟩ :=
    runAll_online hck ⟨a, ha, hconn, htakes, rfl, rfl⟩
  have hle := Nat.le_trans (length_requests_take calls k) hlen
  have hsplit : Socket.input.rest a =
      Socket.frames (answers.take (requests (calls.take k)).length) ++
        (Socket.frames (answers.drop (requests (calls.take k)).length) ++ r) := by
    rw [hr, ← List.append_assoc, ← frames_append, List.take_append_drop]
  refine ⟨s, hs, by rw [hsent, frames_messages], ?_⟩
  rw [hrest]
  exact hheard _ _ (List.length_take_of_le hle) (fun m hm => hanswers m (List.mem_of_mem_take hm))
    hsplit

/-- The second call is refused; the others get answers that make no sense. -/
def confusedCalls : List Call := [.setOrder 1, .subscribe .vehicle [] [300] 0 0, .get .int 0xa4 1 []]

def confusedAnswers : List Storage := [.ofPacket false [7], .ofPacket false [1, 2]]

def confusedSocket : Socket where
  connected := true
  incoming := [.piece 0 [0, 0], .piece 5 [7, 0, 0, 0, 6, 1], .piece 2 [9]]
  sendings := []
  sent := []
  bigEndian := false

def confusedClient : TraCIAPI := { TraCIAPI.new false with mySocket := some confusedSocket }

theorem runAll_in_step_confused : ∃ s, (runAll confusedCalls confusedClient).mySocket = some s ∧
    Socket.input.rest s = [9] := by
  have hc : ∀ c ∈ confusedCalls, c.Sized := by
    simp only [confusedCalls, List.forall_mem_cons]
    refine ⟨⟨by decide, ?_⟩, ⟨by decide, nofun⟩, ⟨by decide, nofun⟩, List.forall_mem_nil _⟩
    rintro order ⟨⟩
    decide
  have hs : confusedClient.mySocket = some confusedSocket := rfl
  have htakes : ∀ x ∈ confusedSocket.sendings, ∃ n, x = .takes n := List.forall_mem_nil _
  have hanswers : ∀ m ∈ confusedAnswers, Socket.Sendable m.store := by decide
  obtain ⟨s, hsocket, -, hrest⟩ := runAll_in_step hc hs rfl htakes (r := [9]) (by decide) hanswers
    (by decide) 3
  exact ⟨s, hsocket, hrest.trans (by decide)⟩

end Call

/-! ## The format of single values -/

/-- A polygon has the number of its corners in front of it, as a byte or, after a zero, as an
integer. -/
def PolygonFormat (ps : List TraCIPosition) (bs : Bytes) : Prop :=
  let Corner (p : TraCIPosition) (bs : Bytes) := p.z = 0 ∧ bs = double p.x ++ double p.y
  (∃ cs, ps ≠ [] ∧ IsByte ps.length ∧ Recognises.Each Corner ps cs ∧ bs = byte ps.length ++ cs) ∨
    ∃ cs, Counted Corner ps cs ∧ bs = byte 0 ++ cs

namespace Getter

/-- What a function gives. -/
def Value : Getter → Type
  | unsignedByte | byte | int => Int
  | double => Double
  | string => Bytes
  | stringVector => List Bytes
  | position | position3D => TraCIPosition
  | color => TraCIColor
  | polygon => List TraCIPosition

def get (cmd var : Int) (id : Bytes) : (getter : Getter) → ClientM getter.Value
  | unsignedByte => TraCIAPI.getUnsignedByte cmd var id none
  | byte => TraCIAPI.getByte cmd var id none
  | int => TraCIAPI.getInt cmd var id none
  | double => TraCIAPI.getDouble cmd var id none
  | string => TraCIAPI.getString cmd var id none
  | stringVector => TraCIAPI.getStringVector cmd var id none
  | position => TraCIAPI.getPosition cmd var id none
  | position3D => TraCIAPI.getPosition3D cmd var id none
  | color => TraCIAPI.getColor cmd var id none
  | polygon => TraCIAPI.getPolygon cmd var id none

/-- The type the answer has to announce. -/
def type : Getter → Int
  | unsignedByte => TYPE_UBYTE
  | byte => TYPE_BYTE
  | int => TYPE_INTEGER
  | double => TYPE_DOUBLE
  | string => TYPE_STRING
  | stringVector => TYPE_STRINGLIST
  | position => POSITION_2D
  | position3D => POSITION_3D
  | color => TYPE_COLOR
  | polygon => TYPE_POLYGON

/-- How a value lies on the wire. -/
def Format : (getter : Getter) → getter.Value → Bytes → Prop
  | unsignedByte, (v : Int), bs => IsByte v ∧ bs = Traci.byte v
  | byte, (v : Int), bs => BigEndian.Fits 1 v ∧ bs = BigEndian.encodeInt 1 v
  | int, (v : Int), bs => BigEndian.Fits 4 v ∧ bs = BigEndian.encodeInt 4 v
  | double, v, bs => bs = Traci.double v
  | string, v, bs => StringFormat v bs
  | stringVector, vs, bs => Counted StringFormat vs bs
  | position, (p : TraCIPosition), bs => p.z = 0 ∧ bs = Traci.double p.x ++ Traci.double p.y
  | position3D, (p : TraCIPosition), bs =>
    bs = Traci.double p.x ++ Traci.double p.y ++ Traci.double p.z
  | color, (c : TraCIColor), bs => (IsByte c.r ∧ IsByte c.g ∧ IsByte c.b ∧ IsByte c.a) ∧
    bs = Traci.byte c.r ++ Traci.byte c.g ++ Traci.byte c.b ++ Traci.byte c.a
  | polygon, ps, bs => PolygonFormat ps bs

end Getter

/-- The positive answer to a request for a value; of the variable and the object it is about, and of
what comes after the value, nothing is required. -/
def AnswerFormat (cmd type : Int) {α : Type} (F : α → Bytes → Prop) (v : α) (payload : Bytes) : Prop :=
  ∃ description header var id cs ds rest, (description.length ≤ 248 ∧ LengthField header ∧
    IsByte (cmd + 0x10) ∧ IsByte var ∧ StringFormat id cs ∧ IsByte type ∧ F v ds) ∧
    payload = okStatus cmd description ++ header ++ byte (cmd + 0x10) ++ byte var ++ cs ++ byte type ++
      ds ++ rest

theorem recognises_readPolygon : Recognises Storage.input TraCIAPI.readPolygon PolygonFormat := by
  apply (recognises_byte.bind fun size => (recognises_readCounted recognises_readPosition2D).ite
    (recognises_readPosition2D.replicateM size.toNat)).congr
  intro ps l
  constructor
  · rintro ⟨size, _, cs, rfl, ⟨hsize, rfl⟩, h⟩
    split at h
    next h0 => exact .inr ⟨cs, h, by rw [h0]⟩
    next h0 =>
      obtain ⟨hlen, heach⟩ := h
      have hpos := hsize.1
      have hcast : size = ps.length := by omega
      rw [hcast] at hsize ⊢
      refine .inl ⟨cs, ?_, hsize, heach, rfl⟩
      apply List.length_pos_iff.1
      omega
  · rintro (⟨cs, hne, hsize, heach, rfl⟩ | ⟨cs, hcounted, rfl⟩)
    · have hpos := List.length_pos_iff.2 hne
      refine ⟨ps.length, _, cs, rfl, ⟨hsize, rfl⟩, ?_⟩
      rw [if_neg (by omega)]
      exact ⟨(Int.toNat_natCast _).symm, heach⟩
    · refine ⟨0, _, cs, rfl, ⟨by decide, rfl⟩, ?_⟩
      rw [if_pos rfl]
      exact hcounted

/-- What comes before the value of an answer. -/
theorem recognises_commandGetResult {cmd type : Int} (htype : 0 ≤ type) :
    Recognises Storage.input (TraCIAPI.check_commandGetResult cmd type false)
      fun cmdId bs => cmdId = cmd + 0x10 ∧ ∃ header var id cs, LengthField header ∧
        IsByte (cmd + 0x10) ∧ IsByte var ∧ StringFormat id cs ∧ IsByte type ∧
        bs = header ++ (byte (cmd + 0x10) ++ byte var ++ cs ++ byte type) := by
  have hstring : Recognises Storage.input readString StringFormat := recognises_readString
  have hvalue : ∀ cmdId : Int, Recognises Storage.input (do
      let _ ← readUnsignedByte
      let _ ← readString
      let valueDataType ← readUnsignedByte
      if valueDataType ≠ type then
        throw (.traciException s!"Expected {type} but got {valueDataType}")
      return cmdId)
      fun v bs => v = cmdId ∧ ∃ var id cs, IsByte var ∧ StringFormat id cs ∧ IsByte type ∧
        bs = byte var ++ cs ++ byte type := by
    intro cmdId
    apply (recognises_byte.bind fun var => hstring.bind fun id => recognises_byte.bind fun t =>
      (Recognises.throw _).ite (Recognises.pure cmdId)).congr
    intro v l
    constructor
    · rintro ⟨var, _, _, rfl, ⟨hvar, rfl⟩, id, cs, _, rfl, hid, t, _, _, rfl, ⟨ht, rfl⟩, h⟩
      split at h
      next => exact h.elim
      next hne =>
        obtain ⟨rfl, rfl⟩ := h
        rw [Decidable.not_not.1 hne] at ht ⊢
        exact ⟨rfl, var, id, cs, hvar, hid, ht, by rw [List.append_nil, List.append_assoc]⟩
    · rintro ⟨rfl, var, id, cs, hvar, hid, ht, rfl⟩
      refine ⟨var, _, _, List.append_assoc .., ⟨hvar, rfl⟩, id, cs, _, rfl, hid, type, _, [],
        (List.append_nil _).symm, ⟨ht, rfl⟩, ?_⟩
      rw [if_neg (not_not_intro rfl)]
      exact ⟨rfl, rfl⟩
  have hbody : Recognises Storage.input (do
      let cmdId ← readUnsignedByte
      if cmdId ≠ cmd + 0x10 then
        throw (.traciException (s!"#Error: received response with command id: {cmdId}but expected: " ++
          s!"{cmd + 0x10}"))
      let _ ← readUnsignedByte
      let _ ← readString
      let valueDataType ← readUnsignedByte
      if valueDataType ≠ type then
        throw (.traciException s!"Expected {type} but got {valueDataType}")
      return cmdId)
      fun v bs => v = cmd + 0x10 ∧ ∃ var id cs, IsByte (cmd + 0x10) ∧ IsByte var ∧
        StringFormat id cs ∧ IsByte type ∧
        bs = byte (cmd + 0x10) ++ byte var ++ cs ++ byte type := by
    apply (recognises_byte.bind fun cmdId => (Recognises.throw _).ite (hvalue cmdId)).congr
    intro v l
    constructor
    · rintro ⟨cmdId, _, _, rfl, ⟨hcmd, rfl⟩, h⟩
      split at h
      next => exact h.elim
      next hne =>
        obtain ⟨rfl, var, id, cs, hvar, hid, ht, rfl⟩ := h
        rw [Decidable.not_not.1 hne] at hcmd ⊢
        exact ⟨rfl, var, id, cs, hcmd, hvar, hid, ht, by simp only [List.append_assoc]⟩
    · rintro ⟨rfl, var, id, cs, hcmd, hvar, hid, ht, rfl⟩
      refine ⟨cmd + 0x10, _, byte var ++ cs ++ byte type, by simp only [List.append_assoc], ⟨hcmd, rfl⟩, ?_⟩
      rw [if_neg (not_not_intro rfl)]
      exact ⟨rfl, var, id, cs, hvar, hid, ht, rfl⟩
  have he : TraCIAPI.check_commandGetResult cmd type false = (do
      let length ← readUnsignedByte
      if length = 0 then
        let _ ← readInt
      let cmdId ← readUnsignedByte
      if cmdId ≠ cmd + 0x10 then
        throw (.traciException (s!"#Error: received response with command id: {cmdId}but expected: " ++
          s!"{cmd + 0x10}"))
      let _ ← readUnsignedByte
      let _ ← readString
      let valueDataType ← readUnsignedByte
      if valueDataType ≠ type then
        throw (.traciException s!"Expected {type} but got {valueDataType}")
      return cmdId) := by
    have htype : type ≥ 0 := htype
    simp only [TraCIAPI.check_commandGetResult, if_pos htype, Bool.not_false, true_and]
  rw [he]
  apply (recognises_length hbody).congr
  intro v l
  constructor
  · rintro ⟨header, _, hheader, ⟨rfl, var, id, cs, hcmd, hvar, hid, ht, rfl⟩, rfl⟩
    exact ⟨rfl, header, var, id, cs, hheader, hcmd, hvar, hid, ht, rfl⟩
  · rintro ⟨rfl, header, var, id, cs, hheader, hcmd, hvar, hid, ht, rfl⟩
    exact ⟨header, _, hheader, ⟨rfl, var, id, cs, hcmd, hvar, hid, ht, rfl⟩, rfl⟩

/-- What is read of an answer, in two messages' worth of functions. -/
theorem recognises_answer {α : Type} {cmd type : Int} (hcmd : IsByte cmd) (htype : 0 ≤ type)
    {read : StorageM α} {F : α → Bytes → Prop} (h : Recognises Storage.input read F) :
    Recognises Storage.input (do
      let _ ← TraCIAPI.resultState cmd false
      let _ ← TraCIAPI.check_commandGetResult cmd type false
      read) fun v bs => ∃ description header var id cs ds, (description.length ≤ 248 ∧
        LengthField header ∧ IsByte (cmd + 0x10) ∧ IsByte var ∧ StringFormat id cs ∧ IsByte type ∧
        F v ds) ∧ bs = okStatus cmd description ++ header ++ byte (cmd + 0x10) ++ byte var ++ cs ++
          byte type ++ ds := by
  apply ((recognises_resultState hcmd).bind fun _ => (recognises_commandGetResult htype).bind fun _ =>
    h).congr
  intro v l
  constructor
  · rintro ⟨description, _, _, rfl, ⟨hdescription, rfl⟩, _, _, ds, rfl,
      ⟨-, header, var, id, cs, hheader, hcmd, hvar, hid, ht, rfl⟩, hv⟩
    exact ⟨description, header, var, id, cs, ds, ⟨hdescription, hheader, hcmd, hvar, hid, ht, hv⟩,
      by simp only [List.append_assoc]⟩
  · rintro ⟨description, header, var, id, cs, ds, ⟨hdescription, hheader, hcmd, hvar, hid, ht, hv⟩, rfl⟩
    refine ⟨description, _, header ++ (byte (cmd + 0x10) ++ byte var ++ cs ++ byte type) ++ ds, ?_,
      ⟨hdescription, rfl⟩, cmd + 0x10, _, ds, rfl,
      ⟨rfl, header, var, id, cs, hheader, hcmd, hvar, hid, ht, rfl⟩, hv⟩
    simp only [List.append_assoc]

theorem onInput_eq_ok {α : Type} {x : MessageM α} {api api' : TraCIAPI} {a : α} :
    TraCIAPI.onInput x api = .ok a api' ↔
      ∃ s api₁, x (api.myInput, api) = .ok a (s, api₁) ∧ api' = { api₁ with myInput := s } := by
  rw [TraCIAPI.onInput]
  cases x (api.myInput, api) with
  | ok b p =>
    rw [Result.ok.injEq]
    constructor
    · rintro ⟨rfl, rfl⟩
      exact ⟨p.1, p.2, rfl, rfl⟩
    · rintro ⟨s, api₁, h, rfl⟩
      cases h
      exact ⟨rfl, rfl⟩
  | error e p =>
    constructor
    · intro h
      cases h
    · rintro ⟨_, _, h, -⟩
      cases h

theorem reading_eq_ok {α : Type} {x : StorageM α} {m : Storage} {api : TraCIAPI} {a : α}
    {p : Storage × TraCIAPI} :
    reading x (m, api) = .ok a p ↔ ∃ s, x m = .ok a s ∧ p = (s, api) := by
  rw [EStateM.reading, zoom_eq_ok]
  constructor
  · rintro ⟨s, hx, rfl⟩
    exact ⟨s, hx, rfl⟩
  · rintro ⟨s, hx, rfl⟩
    exact ⟨s, hx, rfl⟩

/-- The status of the next message. -/
theorem check_resultState_eq_ok {cmd : Int} {m : Storage} {api : TraCIAPI} {socket : Socket}
    (hs : api.mySocket = some socket) {description : Bytes} {p : Storage × TraCIAPI} :
    TraCIAPI.check_resultState cmd false (m, api) = .ok description p ↔
      ∃ payload r s, Socket.Sendable payload ∧ Socket.input.rest socket = Socket.frame payload ++ r ∧
        TraCIAPI.resultState cmd false (.ofPacket socket.bigEndian payload) = .ok description s ∧
        p = (s,
          { api with mySocket := some (Socket.input.skip (Socket.frame payload).length socket) }) := by
  rw [TraCIAPI.check_resultState, bind_eq_ok]
  constructor
  · rintro ⟨_, _, hrecv, h⟩
    obtain ⟨payload, r, hp, hr, rfl, rfl⟩ := (received_eq_ok hs).1 hrecv
    obtain ⟨s, hres, rfl⟩ := reading_eq_ok.1 h
    exact ⟨payload, r, s, hp, hr, hres, rfl⟩
  · rintro ⟨payload, r, s, hp, hr, hres, rfl⟩
    exact ⟨_, _, (received_eq_ok hs).2 ⟨payload, r, hp, hr, rfl, rfl⟩, reading_eq_ok.2 ⟨s, hres, rfl⟩⟩

/-- Sending a command that has been written and reading the value of the answer. -/
theorem processGet_eq_ok {α : Type} {cmd type : Int} (hcmd : IsByte cmd) (htype : 0 ≤ type)
    {read : StorageM α} {F : α → Bytes → Prop} (h : Recognises Storage.input read F) {unknown v : α}
    {api : TraCIAPI} {sent rest : Bytes} (hm : Socket.Sendable api.myOutput.store)
    (hon : Online api sent rest) :
    (∃ api', (do if ← TraCIAPI.processGet cmd type then TraCIAPI.onInput (reading read)
                 else return unknown) api = .ok v api') ↔
      ∃ payload r, Socket.Sendable payload ∧ rest = Socket.frame payload ++ r ∧
        AnswerFormat cmd type F v payload := by
  obtain ⟨api₁, hsend, socket, hs, -, -, -, rfl⟩ := onSocket_sendExact hm hon
  have hprogram : (do if ← TraCIAPI.processGet cmd type then TraCIAPI.onInput (reading read)
                      else return unknown) api =
      (do TraCIAPI.onInput do
            reading reset
            let _ ← TraCIAPI.check_resultState cmd false
            let _ ← reading (TraCIAPI.check_commandGetResult cmd type false)
          TraCIAPI.onInput (reading read)) api₁ := by
    rw [TraCIAPI.processGet]
    simp only [bind_assoc]
    rw [bind_apply, get_apply]
    dsimp only
    rw [hon.isNone, if_neg Bool.false_ne_true]
    simp only [bind_assoc, pure_bind, if_true]
    rw [bind_apply, get_apply]
    dsimp only
    rw [bind_apply, hsend]
  rw [hprogram]
  constructor
  · rintro ⟨api', hrun⟩
    obtain ⟨_, api₂, hinput, hvalue⟩ := bind_eq_ok.1 hrun
    obtain ⟨s, api₃, hx, rfl⟩ := onInput_eq_ok.1 hinput
    obtain ⟨_, _, hreset, hx⟩ := bind_eq_ok.1 hx
    obtain ⟨_, -, rfl⟩ := reading_eq_ok.1 hreset
    obtain ⟨_, _, hstate, hx⟩ := bind_eq_ok.1 hx
    obtain ⟨payload, r, s₁, hp, hr, hres, rfl⟩ := (check_resultState_eq_ok hs).1 hstate
    obtain ⟨_, _, hcheck, hx⟩ := bind_eq_ok.1 hx
    obtain ⟨s₂, hget, rfl⟩ := reading_eq_ok.1 hcheck
    cases hx
    obtain ⟨_, _, hx, rfl⟩ := onInput_eq_ok.1 hvalue
    obtain ⟨_, hread, -⟩ := reading_eq_ok.1 hx
    obtain ⟨_, rest, hpayload, hformat, -⟩ := (recognises_answer hcmd htype h _ _ _).1
      (bind_eq_ok.2 ⟨_, _, hres, bind_eq_ok.2 ⟨_, _, hget, hread⟩⟩)
    obtain ⟨description, header, var, id, cs, ds, hparts, rfl⟩ := hformat
    exact ⟨payload, r, hp, hr, description, header, var, id, cs, ds, rest, hparts, hpayload⟩
  · rintro ⟨payload, r, hp, hr, description, header, var, id, cs, ds, rest, hparts, hpayload⟩
    have hread : ∃ s, (do
        let _ ← TraCIAPI.resultState cmd false
        let _ ← TraCIAPI.check_commandGetResult cmd type false
        read) (.ofPacket socket.bigEndian payload) = .ok v s :=
      ⟨_, (recognises_answer hcmd htype h).ok ⟨description, header, var, id, cs, ds, hparts, rfl⟩
        hpayload⟩
    obtain ⟨s, hread⟩ := hread
    obtain ⟨_, s₁, hstate, hread⟩ := bind_eq_ok.1 hread
    obtain ⟨_, s₂, hcheck, hread⟩ := bind_eq_ok.1 hread
    have hinput : ∃ api₂, TraCIAPI.onInput (do
        reading reset
        let _ ← TraCIAPI.check_resultState cmd false
        let _ ← reading (TraCIAPI.check_commandGetResult cmd type false)) api₁ = .ok () api₂ ∧
        api₂.myInput = s₂ := by
      let api₂ := { api₁ with mySocket := some (Socket.input.skip (Socket.frame payload).length socket) }
      refine ⟨_, onInput_eq_ok.2 ⟨s₂, api₂, ?_, rfl⟩, rfl⟩
      exact bind_eq_ok.2 ⟨(), _, reading_eq_ok.2 ⟨_, rfl, rfl⟩, bind_eq_ok.2 ⟨_, _,
        (check_resultState_eq_ok hs).2 ⟨payload, r, s₁, hp, hr, hstate, rfl⟩,
        bind_eq_ok.2 ⟨_, _, reading_eq_ok.2 ⟨s₂, hcheck, rfl⟩, rfl⟩⟩⟩
    obtain ⟨api₂, hinput, rfl⟩ := hinput
    exact ⟨_, bind_eq_ok.2 ⟨(), api₂, hinput,
      onInput_eq_ok.2 ⟨s, api₂, reading_eq_ok.2 ⟨s, hread, rfl⟩, rfl⟩⟩⟩

/-- Whether the command is about an object alone or says more about it, the value is that of the
answer. -/
theorem getValue_eq_ok {α : Type} {cmd var type : Int} {id : Bytes} {add : Option Storage}
    {data : List Datum} (hadd : Adds add data)
    (hs : 4 + size (Call.variableRequest cmd var id data) < 2 ^ 31) (htype : 0 ≤ type)
    {read : StorageM α} {F : α → Bytes → Prop} (h : Recognises Storage.input read F) {unknown v : α}
    {api : TraCIAPI} {sent rest : Bytes} (hon : Online api sent rest) :
    (∃ api', TraCIAPI.getValue type read unknown cmd var id add api = .ok v api') ↔
      (∀ d ∈ Call.variableRequest cmd var id data, d.Fits) ∧ ∃ payload r, Socket.Sendable payload ∧
        rest = Socket.frame payload ++ r ∧ AnswerFormat cmd type F v payload := by
  obtain ⟨hacc, hcreate⟩ | ⟨hrefused, e, s, hcreate⟩ := createCommand_cases hadd hs api
  · have hcmd : IsByte cmd := hacc (.unsignedByte cmd) (by
      simp [Call.variableRequest, Call.variableBody, announced])
    rw [TraCIAPI.getValue, bind_apply, hcreate, and_iff_right hacc]
    exact processGet_eq_ok hcmd htype h (Call.variableRequest_sendable hs) (hon.keep rfl)
  · rw [TraCIAPI.getValue, bind_apply, hcreate]
    constructor
    · rintro ⟨_, h⟩
      cases h
    · rintro ⟨hacc, -⟩
      exact (hrefused hacc).elim

/-- A function for a value gives `v` exactly if its request can be made and the next message is a positive
answer to its command that holds `v` as a value of its type. -/
theorem Getter.get_gives {getter : Getter} {cmd var : Int} {id : Bytes}
    (hc : (Call.get getter cmd var id).Sized) {api : TraCIAPI} {a : Socket}
    (ha : api.mySocket = some a) (hconn : a.connected = true)
    (htakes : ∀ x ∈ a.sendings, ∃ n, x = .takes n) (v : getter.Value) :
    (∃ api', getter.get cmd var id api = .ok v api') ↔
      (Call.get getter cmd var id).Accepted ∧ ∃ payload r, Socket.Sendable payload ∧
        Socket.input.rest a = Socket.frame payload ++ r ∧
        AnswerFormat cmd getter.type getter.Format v payload := by
  have hon : Online api a.sent (Socket.input.rest a) := ⟨a, ha, hconn, htakes, rfl, rfl⟩
  have hs := hc.1
  cases getter with
  | unsignedByte => exact getValue_eq_ok adds_none hs (by decide) recognises_byte hon
  | byte => exact getValue_eq_ok adds_none hs (by decide) recognises_readByte hon
  | int => exact getValue_eq_ok adds_none hs (by decide) recognises_int hon
  | double => exact getValue_eq_ok adds_none hs (by decide) recognises_double hon
  | string => exact getValue_eq_ok adds_none hs (by decide) recognises_readString hon
  | stringVector =>
    exact getValue_eq_ok adds_none hs (by decide) (recognises_readCounted recognises_readString) hon
  | position => exact getValue_eq_ok adds_none hs (by decide) recognises_readPosition2D hon
  | position3D => exact getValue_eq_ok adds_none hs (by decide) recognises_readPosition3D hon
  | color => exact getValue_eq_ok adds_none hs (by decide) recognises_readColor hon
  | polygon => exact getValue_eq_ok adds_none hs (by decide) recognises_readPolygon hon

/-- The identifiers of all vehicles, of which there is one. The answer is about another variable. -/
def idListAnswer : Bytes :=
  okStatus 0xa4 [] ++ byte 20 ++ byte 0xb4 ++ byte 7 ++ encodeString [] ++ byte TYPE_STRINGLIST ++
    (BigEndian.encodeInt 4 1 ++ (encodeString [118] ++ [])) ++ []

def idListSocket : Socket where
  connected := true
  incoming := [.piece 0 ((Socket.frame idListAnswer).drop 1)]
  sendings := []
  sent := []
  bigEndian := false

def idListClient : TraCIAPI := { TraCIAPI.new false with mySocket := some idListSocket }

theorem Getter.get_gives_idList :
    ∃ api', Getter.stringVector.get 0xa4 0 [] idListClient = .ok [[118]] api' := by
  have hc : (Call.get .stringVector 0xa4 0 []).Sized := ⟨by decide, nofun⟩
  have htakes : ∀ x ∈ idListSocket.sendings, ∃ n, x = .takes n := List.forall_mem_nil _
  have hs : idListClient.mySocket = some idListSocket := rfl
  apply (Getter.get_gives hc hs rfl htakes _).2
  refine ⟨by decide, idListAnswer, [], by decide, by decide, ?_⟩
  exact ⟨[], Traci.byte 20, 7, [], _, _, [], ⟨by decide, .inl ⟨20, by decide, by decide, rfl⟩, by decide,
    by decide, ⟨by decide, rfl⟩, by decide, ⟨1, _, by decide, rfl, .cons ⟨by decide, rfl⟩ .nil, rfl⟩⟩, rfl⟩

end Cosidia.Traci
