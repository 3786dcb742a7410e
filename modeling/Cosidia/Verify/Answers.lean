import Mathlib.Tactic.SplitIfs
import Cosidia.Theory.Assignments
import Cosidia.Verify.Commands

/-!
# What the client takes for an answer

The format of what SUMO reports after a step, and what the client knows after it has read it: the
values of this step, and of no other.
-/

namespace Cosidia.Traci

open EStateM Storage

/-! ## The format -/

def IsByte (v : Int) : Prop := 0 ≤ v ∧ v < 256

instance (v : Int) : Decidable (IsByte v) := inferInstanceAs (Decidable (_ ∧ _))

/-- A byte on the wire. -/
def byte (v : Int) : Bytes := BigEndian.encode 1 v.toNat

/-- The status that says that a command has been carried out. -/
def okStatus (command : Int) (description : Bytes) : Bytes :=
  byte (7 + description.length) ++ byte command ++ byte RTYPE_OK ++ encodeString description

/-- The length of a report. The client does not look at it. -/
def LengthField (bs : Bytes) : Prop :=
  (∃ v, IsByte v ∧ v ≠ 0 ∧ bs = byte v) ∨
    ∃ v, BigEndian.Fits 4 v ∧ bs = byte 0 ++ BigEndian.encodeInt 4 v

/-- A list with its length, for which every number stands that is not positive if it is empty. -/
def Counted {α : Type} (F : α → Bytes → Prop) (as : List α) (bs : Bytes) : Prop :=
  ∃ n cs, BigEndian.Fits 4 n ∧ as.length = n.toNat ∧ Recognises.Each F as cs ∧
    bs = BigEndian.encodeInt 4 n ++ cs

def StringFormat (v bs : Bytes) : Prop := BigEndian.Fits 4 v.length ∧ bs = encodeString v

def double (v : Double) : Bytes := BigEndian.encode 8 v.toNat

/-- A value of a type. -/
def ValueFormat (type : Int) : TraCIResult → Bytes → Prop
  | .double v, bs => type = TYPE_DOUBLE ∧ bs = double v
  | .string v, bs => type = TYPE_STRING ∧ StringFormat v bs
  | .position p, bs => (type = POSITION_2D ∧ p.z = 0 ∧ bs = double p.x ++ double p.y) ∨
    (type = POSITION_3D ∧ bs = double p.x ++ double p.y ++ double p.z)
  | .color c, bs => type = TYPE_COLOR ∧ (IsByte c.r ∧ IsByte c.g ∧ IsByte c.b ∧ IsByte c.a) ∧
    bs = byte c.r ++ byte c.g ++ byte c.b ++ byte c.a
  | .int v, bs => type = TYPE_INTEGER ∧ BigEndian.Fits 4 v ∧ bs = BigEndian.encodeInt 4 v
  | .stringList vs, bs => type = TYPE_STRINGLIST ∧ Counted StringFormat vs bs

/-- The value of a variable. -/
def VariableFormat (v : Int × TraCIResult) (bs : Bytes) : Prop :=
  ∃ type cs, IsByte v.1 ∧ IsByte type ∧ ValueFormat type v.2 cs ∧
    bs = byte v.1 ++ byte RTYPE_OK ++ byte type ++ cs

/-- An object and its variables, of which there are `count`. -/
def ObjectFormat (count : Int) (o : Bytes × List (Int × TraCIResult)) (bs : Bytes) : Prop :=
  ∃ cs ds, StringFormat o.1 cs ∧ o.2.length = count.toNat ∧
    Recognises.Each VariableFormat o.2 ds ∧ bs = cs ++ ds

/-- What SUMO reports about an object, or about the objects around an object. -/
inductive Report where
  | object (scope : Scope) (objectID : Bytes) (vars : List (Int × TraCIResult))
  | context (scope : Scope) (contextID : Bytes) (objects : List (Bytes × List (Int × TraCIResult)))
  /-- A context without objects, of no domain. -/
  | nothing

/-- An object with its variables. -/
def VariablesFormat (objectID : Bytes) (vars : List (Int × TraCIResult)) (bs : Bytes) : Prop :=
  ∃ cs ds, StringFormat objectID cs ∧ IsByte vars.length ∧ Recognises.Each VariableFormat vars ds ∧
    bs = cs ++ byte vars.length ++ ds

/-- A context with its objects, which all have the same number of variables. -/
def ContextFormat (contextID : Bytes) (objects : List (Bytes × List (Int × TraCIResult)))
    (bs : Bytes) : Prop :=
  ∃ cs contextDomain count ds, StringFormat contextID cs ∧ IsByte contextDomain ∧ IsByte count ∧
    Counted (ObjectFormat count) objects ds ∧ bs = cs ++ byte contextDomain ++ byte count ++ ds

/-- The commands that report about an object; all others are taken for contexts. -/
def AboutObject (cmdId : Int) : Prop :=
  cmdId ≥ Scope.inductionloop.response ∧ cmdId ≤ Scope.person.response

instance (cmdId : Int) : Decidable (AboutObject cmdId) := inferInstanceAs (Decidable (_ ∧ _))

/-- What a report consists of behind the number of its command. -/
def Report.Body (cmdId : Int) : Report → Bytes → Prop
  | object scope objectID vars, bs =>
    AboutObject cmdId ∧ myDomains cmdId = some scope ∧ VariablesFormat objectID vars bs
  | context scope contextID objects, bs =>
    ¬ AboutObject cmdId ∧ myDomains (cmdId + 0x50) = some scope ∧ ContextFormat contextID objects bs
  | nothing, bs =>
    ¬ AboutObject cmdId ∧ myDomains (cmdId + 0x50) = none ∧ ∃ contextID, ContextFormat contextID [] bs

def ReportFormat (r : Report) (bs : Bytes) : Prop :=
  ∃ header cmdId cs, LengthField header ∧ IsByte cmdId ∧ r.Body cmdId cs ∧
    bs = header ++ byte cmdId ++ cs

/-- The answer to a step that has been carried out; what comes after the reports does not matter. -/
def StepFormat (reports : List Report) (payload : Bytes) : Prop :=
  ∃ description cs rest, description.length ≤ 248 ∧ Counted ReportFormat reports cs ∧
    payload = okStatus CMD_SIMSTEP description ++ cs ++ rest

/-! ## Reading values -/

variable {α : Type}

theorem recognises_byte : Recognises Storage.input readUnsignedByte
    fun v bs => IsByte v ∧ bs = byte v :=
  recognises_readUnsignedByte

theorem recognises_int : Recognises Storage.input readInt
    fun v bs => BigEndian.Fits 4 v ∧ bs = BigEndian.encodeInt 4 v :=
  recognises_readSigned (by decide) (by decide)

theorem recognises_double : Recognises Storage.input readDouble fun v bs => bs = double v :=
  recognises_readDouble.congr fun _ _ => (true_and _).to_iff

theorem recognises_readCounted {read : StorageM α} {F : α → Bytes → Prop}
    (h : Recognises Storage.input read F) :
    Recognises Storage.input (TraCIAPI.readCounted read) (Counted F) := by
  apply (recognises_int.bind fun n => h.replicateM n.toNat).congr
  intro as bs
  constructor
  · rintro ⟨n, _, cs, rfl, ⟨hn, rfl⟩, hlen, has⟩
    exact ⟨n, cs, hn, hlen, has, rfl⟩
  · rintro ⟨n, cs, hn, hlen, has, rfl⟩
    exact ⟨n, _, cs, rfl, ⟨hn, rfl⟩, hlen, has⟩

/-- A value that is wrapped after it has been read. -/
theorem recognises_wrap {read : StorageM α} {F : α → Bytes → Prop}
    (h : Recognises Storage.input read F) (wrap : α → TraCIResult) :
    Recognises Storage.input (do return wrap (← read)) fun r bs => ∃ a, r = wrap a ∧ F a bs := by
  apply (h.bind fun a => Recognises.pure (wrap a)).congr
  intro r l
  constructor
  · rintro ⟨a, bs, _, rfl, ha, rfl, rfl⟩
    exact ⟨a, rfl, by rwa [List.append_nil]⟩
  · rintro ⟨a, rfl, ha⟩
    exact ⟨a, l, [], (List.append_nil l).symm, ha, rfl, rfl⟩

theorem recognises_readPosition2D : Recognises Storage.input TraCIAPI.readPosition2D
    fun p bs => p.z = 0 ∧ bs = double p.x ++ double p.y := by
  apply (recognises_double.bind fun x => recognises_double.bind fun y =>
    Recognises.pure (TraCIPosition.mk x y 0)).congr
  intro p l
  constructor
  · rintro ⟨x, _, _, rfl, rfl, y, _, _, rfl, rfl, rfl, rfl⟩
    exact ⟨rfl, by rw [List.append_nil]⟩
  · rintro ⟨hz, rfl⟩
    refine ⟨p.x, _, _, rfl, rfl, p.y, _, [], (List.append_nil _).symm, rfl, ?_, rfl⟩
    rw [← hz]

theorem recognises_readPosition3D : Recognises Storage.input TraCIAPI.readPosition3D
    fun p bs => bs = double p.x ++ double p.y ++ double p.z := by
  apply (recognises_double.bind fun x => recognises_double.bind fun y =>
    recognises_double.bind fun z => Recognises.pure (TraCIPosition.mk x y z)).congr
  intro p l
  constructor
  · rintro ⟨x, _, _, rfl, rfl, y, _, _, rfl, rfl, z, _, _, rfl, rfl, rfl, rfl⟩
    rw [List.append_nil, List.append_assoc]
  · rintro rfl
    exact ⟨p.x, _, _, List.append_assoc .., rfl, p.y, _, _, rfl, rfl, p.z, _, [],
      (List.append_nil _).symm, rfl, rfl, rfl⟩

theorem recognises_readColor : Recognises Storage.input TraCIAPI.readColor
    fun c bs => (IsByte c.r ∧ IsByte c.g ∧ IsByte c.b ∧ IsByte c.a) ∧
      bs = byte c.r ++ byte c.g ++ byte c.b ++ byte c.a := by
  apply (recognises_byte.bind fun r => recognises_byte.bind fun g => recognises_byte.bind fun b =>
    recognises_byte.bind fun a => Recognises.pure (TraCIColor.mk r g b a)).congr
  intro c l
  constructor
  · rintro ⟨r, _, _, rfl, ⟨hr, rfl⟩, g, _, _, rfl, ⟨hg, rfl⟩, b, _, _, rfl, ⟨hb, rfl⟩, a, _, _, rfl,
      ⟨ha, rfl⟩, rfl, rfl⟩
    refine ⟨⟨hr, hg, hb, ha⟩, ?_⟩
    rw [List.append_nil, List.append_assoc, List.append_assoc]
  · rintro ⟨⟨hr, hg, hb, ha⟩, rfl⟩
    refine ⟨c.r, _, _, ?_, ⟨hr, rfl⟩, c.g, _, _, rfl, ⟨hg, rfl⟩, c.b, _, _, rfl, ⟨hb, rfl⟩, c.a, _, [],
      (List.append_nil _).symm, ⟨ha, rfl⟩, rfl, rfl⟩
    rw [List.append_assoc, List.append_assoc]

theorem recognises_readResult (type : Int) :
    Recognises Storage.input (TraCIAPI.readResult type) (ValueFormat type) := by
  have hstring : Recognises Storage.input readString StringFormat := recognises_readString
  rw [TraCIAPI.readResult]
  apply (Recognises.ite (recognises_wrap recognises_double .double) <|
    Recognises.ite (recognises_wrap hstring .string) <|
    Recognises.ite (recognises_wrap recognises_readPosition2D .position) <|
    Recognises.ite (recognises_wrap recognises_readPosition3D .position) <|
    Recognises.ite (recognises_wrap recognises_readColor .color) <|
    Recognises.ite (recognises_wrap recognises_int .int) <|
    Recognises.ite (recognises_wrap (recognises_readCounted hstring) .stringList) <|
    Recognises.throw _).congr
  intro r bs
  -- no two of the constants are the same, so each type leaves one kind of result
  split_ifs
  all_goals cases r <;> simp_all [ValueFormat, TYPE_DOUBLE, TYPE_STRING, POSITION_2D, POSITION_3D,
    TYPE_COLOR, TYPE_INTEGER, TYPE_STRINGLIST]

/-! ## Reading reports -/

theorem interprets_readVariable (objectID : Bytes) :
    Interprets Storage.input (TraCIAPI.readVariable objectID) fun _ bs into into' =>
      ∃ v, VariableFormat v bs ∧ into' = TraCIAPI.assign into objectID v.1 v.2 := by
  have hbyte {τ : Type} := Interprets.reading (τ := τ) recognises_byte
  apply (hbyte.bind fun variableID => hbyte.bind fun status => hbyte.bind fun type =>
    Interprets.ite ((Interprets.reading (recognises_readResult type)).bind fun value =>
      Interprets.storing _) (Interprets.throw _)).congr
  intro _ l into into'
  constructor
  · rintro ⟨id, _, _, _, rfl, ⟨⟨hid, rfl⟩, rfl⟩, status, _, _, _, rfl, ⟨⟨hstatus, rfl⟩, rfl⟩, type, _,
      cs, _, rfl, ⟨⟨htype, rfl⟩, rfl⟩, h⟩
    split at h
    next hok =>
      obtain ⟨value, ds, es, _, rfl, ⟨hvalue, rfl⟩, rfl, hinto⟩ := h
      refine ⟨(id, value), ⟨type, ds, hid, htype, hvalue, ?_⟩, (modify_eq_ok.1 hinto).symm⟩
      rw [hok, List.append_nil, List.append_assoc, List.append_assoc]
    next => exact h.elim
  · rintro ⟨⟨id, value⟩, ⟨type, cs, hid, htype, hvalue, rfl⟩, rfl⟩
    refine ⟨id, _, byte RTYPE_OK ++ (byte type ++ cs), into, ?_, ⟨⟨hid, rfl⟩, rfl⟩, RTYPE_OK, _, _, into,
      rfl, ⟨⟨by decide, rfl⟩, rfl⟩, type, _, cs, into, rfl, ⟨⟨htype, rfl⟩, rfl⟩, ?_⟩
    · rw [List.append_assoc, List.append_assoc]
    · rw [if_pos rfl]
      exact ⟨value, cs, [], into, (List.append_nil cs).symm, ⟨hvalue, rfl⟩, rfl, modify_eq_ok.2 rfl⟩

/-- The results after all variables of an object have been assigned. -/
def assignAll (object : Bytes) (into : SubscriptionResults) (vars : List (Int × TraCIResult)) :
    SubscriptionResults :=
  vars.foldl (fun into v => TraCIAPI.assign into object v.1 v.2) into

theorem interprets_readVariables (objectID : Bytes) (variableCount : Int) :
    Interprets Storage.input (TraCIAPI.readVariables objectID variableCount)
      fun _ bs into into' => ∃ vars, vars.length = variableCount.toNat ∧
        Recognises.Each VariableFormat vars bs ∧ into' = assignAll objectID into vars :=
  (interprets_readVariable objectID).repeatM _

namespace Report

/-- What an object does to the results of a context. -/
def actObject (scope : Scope) (contextID : Bytes) (api : TraCIAPI)
    (o : Bytes × List (Int × TraCIResult)) : TraCIAPI :=
  { api with
    myContextSubscriptionResults := Function.update api.myContextSubscriptionResults scope
      ((api.myContextSubscriptionResults scope).insert contextID
        (assignAll o.1 ((api.myContextSubscriptionResults scope).getD contextID ∅) o.2)) }

/-- What a report does to the results of the client. -/
def act (api : TraCIAPI) : Report → TraCIAPI
  | object scope objectID vars => { api with
      mySubscriptionResults := Function.update api.mySubscriptionResults scope
        (assignAll objectID (api.mySubscriptionResults scope) vars) }
  | context scope contextID objects => objects.foldl (actObject scope contextID) api
  | nothing => api

end Report

theorem interprets_readVariableSubscription (cmdId : Int) :
    Interprets Storage.input (TraCIAPI.readVariableSubscription cmdId) fun _ bs api api' =>
      ∃ scope objectID vars, myDomains cmdId = some scope ∧ VariablesFormat objectID vars bs ∧
        api' = (Report.object scope objectID vars).act api := by
  have hstring {τ : Type} := Interprets.reading (τ := τ) recognises_readString
  have hbyte {τ : Type} := Interprets.reading (τ := τ) recognises_byte
  rw [TraCIAPI.readVariableSubscription]
  cases myDomains cmdId with
  | none =>
    apply (hstring.bind fun _ => hbyte.bind fun _ => Interprets.throw _).congr
    intro _ _ _ _
    constructor
    · rintro ⟨_, _, _, _, _, _, _, _, _, _, _, _, h⟩
      exact h.elim
    · rintro ⟨_, _, _, h, _⟩
      cases h
  | some scope =>
    apply (hstring.bind fun objectID => hbyte.bind fun variableCount =>
      (interprets_readVariables objectID variableCount).focusing).congr
    intro _ l api api'
    constructor
    · rintro ⟨objectID, cs, _, _, rfl, ⟨hobject, rfl⟩, variableCount, _, ds, _, rfl, ⟨⟨hcount, rfl⟩, rfl⟩,
        _, ⟨vars, hlen, heach, rfl⟩, rfl⟩
      have hcast : variableCount = vars.length := by
        have := hcount.1
        omega
      rw [hcast] at hcount ⊢
      exact ⟨scope, objectID, vars, rfl, ⟨cs, ds, hobject, hcount, heach,
        (List.append_assoc ..).symm⟩, rfl⟩
    · rintro ⟨_, objectID, vars, hscope, ⟨cs, ds, hobject, hcount, heach, rfl⟩, rfl⟩
      obtain rfl := Option.some.inj hscope
      exact ⟨objectID, cs, _, api, List.append_assoc .., ⟨hobject, rfl⟩, vars.length, _, ds, api, rfl,
        ⟨⟨hcount, rfl⟩, rfl⟩, _, ⟨vars, (Int.toNat_natCast _).symm, heach, rfl⟩, rfl⟩

/-- A round of the loop over the objects of a context. -/
theorem interprets_contextObject (cmdId : Int) (contextID : Bytes) (variableCount : Int) :
    Interprets Storage.input (do
      let objectID ← reading readString
      match myDomains cmdId with
      | some scope =>
        TraCIAPI.modifiableContext scope contextID (TraCIAPI.readVariables objectID variableCount)
      | none => throw .nullDereference)
      fun _ bs api api' => ∃ o, (∃ scope, myDomains cmdId = some scope ∧
          ObjectFormat variableCount o bs) ∧
        api' = ((myDomains cmdId).elim api fun scope => Report.actObject scope contextID api o) := by
  have hstring {τ : Type} := Interprets.reading (τ := τ) recognises_readString
  cases myDomains cmdId with
  | none =>
    apply (hstring.bind fun _ => Interprets.throw _).congr
    intro _ _ _ _
    constructor
    · rintro ⟨_, _, _, _, _, _, h⟩
      exact h.elim
    · rintro ⟨_, ⟨_, h, _⟩, _⟩
      cases h
  | some scope =>
    apply (hstring.bind fun objectID =>
      (interprets_readVariables objectID variableCount).focusing).congr
    intro _ l api api'
    constructor
    · rintro ⟨objectID, cs, ds, _, rfl, ⟨hobject, rfl⟩, _, ⟨vars, hlen, heach, rfl⟩, rfl⟩
      exact ⟨(objectID, vars), ⟨scope, rfl, cs, ds, hobject, hlen, heach, rfl⟩, rfl⟩
    · rintro ⟨⟨objectID, vars⟩, ⟨_, -, cs, ds, hobject, hlen, heach, rfl⟩, rfl⟩
      exact ⟨objectID, cs, ds, api, rfl, ⟨hobject, rfl⟩, _, ⟨vars, hlen, heach, rfl⟩, rfl⟩

/-- Without a domain there are no objects. -/
theorem each_domain {F : α → Bytes → Prop} {domain : Option Scope} {as : List α} {bs : Bytes} :
    Recognises.Each (fun a bs => ∃ scope, domain = some scope ∧ F a bs) as bs ↔
      (as = [] ∨ domain.isSome) ∧ Recognises.Each F as bs := by
  cases domain with
  | none =>
    constructor
    · intro h
      cases h with
      | nil => exact ⟨.inl rfl, .nil⟩
      | cons ha _ =>
        obtain ⟨_, h, -⟩ := ha
        cases h
    · rintro ⟨rfl | h, heach⟩
      · cases heach
        exact .nil
      · cases h
  | some scope => simp

theorem foldl_domain (contextID : Bytes) (domain : Option Scope) (api : TraCIAPI)
    (objects : List (Bytes × List (Int × TraCIResult))) :
    objects.foldl (fun api o => domain.elim api fun scope => Report.actObject scope contextID api o) api =
      domain.elim api fun scope => (Report.context scope contextID objects).act api := by
  cases domain with
  | none => exact List.foldl_fixed objects
  | some scope => rfl

theorem interprets_readContextSubscription (cmdId : Int) :
    Interprets Storage.input (TraCIAPI.readContextSubscription cmdId) fun _ bs api api' =>
      ∃ contextID objects, (objects = [] ∨ (myDomains cmdId).isSome) ∧
        ContextFormat contextID objects bs ∧ api' = (myDomains cmdId).elim api fun scope =>
          (Report.context scope contextID objects).act api := by
  have hstring {τ : Type} := Interprets.reading (τ := τ) recognises_readString
  have hbyte {τ : Type} := Interprets.reading (τ := τ) recognises_byte
  have hint {τ : Type} := Interprets.reading (τ := τ) recognises_int
  apply (hstring.bind fun contextID => hbyte.bind fun _ => hbyte.bind fun variableCount =>
    hint.bind fun numObjects =>
      (interprets_contextObject cmdId contextID variableCount).repeatM numObjects.toNat).congr
  intro _ l api api'
  simp only [each_domain, foldl_domain]
  constructor
  · rintro ⟨contextID, cs, _, _, rfl, ⟨hcontext, rfl⟩, contextDomain, _, _, _, rfl, ⟨⟨hdomain, rfl⟩, rfl⟩,
      count, _, _, _, rfl, ⟨⟨hcount, rfl⟩, rfl⟩, n, _, ds, _, rfl, ⟨⟨hn, rfl⟩, rfl⟩, objects, hlen,
      ⟨hsome, heach⟩, rfl⟩
    exact ⟨contextID, objects, hsome, ⟨cs, contextDomain, count, _, hcontext, hdomain, hcount,
      ⟨n, ds, hn, hlen, heach, rfl⟩, by simp only [List.append_assoc]⟩, rfl⟩
  · rintro ⟨contextID, objects, hsome, ⟨cs, contextDomain, count, _, hcontext, hdomain, hcount,
      ⟨n, ds, hn, hlen, heach, rfl⟩, rfl⟩, rfl⟩
    refine ⟨contextID, cs, _, api, ?_, ⟨hcontext, rfl⟩, contextDomain, _, _, api, rfl,
      ⟨⟨hdomain, rfl⟩, rfl⟩, count, _, _, api, rfl, ⟨⟨hcount, rfl⟩, rfl⟩, n, _, ds, api, rfl,
      ⟨⟨hn, rfl⟩, rfl⟩, objects, hlen, ⟨hsome, heach⟩, rfl⟩
    simp only [List.append_assoc]

/-- A length that is not looked at, and what comes after it. -/
theorem recognises_length {x : StorageM α} {F : α → Bytes → Prop} (h : Recognises Storage.input x F) :
    Recognises Storage.input (do
      let length ← readUnsignedByte
      if length = 0 then
        let _ ← readInt
      x) fun a bs => ∃ header cs, LengthField header ∧ F a cs ∧ bs = header ++ cs := by
  apply (recognises_byte.bind fun length => (recognises_int.bind fun _ => h).ite h).congr
  intro a l
  constructor
  · rintro ⟨length, _, _, rfl, ⟨hlength, rfl⟩, hx⟩
    split at hx
    next h0 =>
      obtain ⟨v, _, cs, rfl, ⟨hv, rfl⟩, ha⟩ := hx
      exact ⟨_, cs, .inr ⟨v, hv, by rw [h0]⟩, ha, (List.append_assoc ..).symm⟩
    next h0 => exact ⟨_, _, .inl ⟨length, hlength, h0, rfl⟩, hx, rfl⟩
  · rintro ⟨_, cs, ⟨v, hv, h0, rfl⟩ | ⟨v, hv, rfl⟩, ha, rfl⟩
    · refine ⟨v, _, cs, rfl, ⟨hv, rfl⟩, ?_⟩
      rw [if_neg h0]
      exact ha
    · refine ⟨0, _, _, List.append_assoc .., ⟨by decide, rfl⟩, ?_⟩
      rw [if_pos rfl]
      exact ⟨v, _, cs, rfl, ⟨hv, rfl⟩, ha⟩

/-- What comes before the number of a report, and this number. -/
theorem recognises_header : Recognises Storage.input (TraCIAPI.check_commandGetResult 0 (-1) true)
    fun cmdId bs => ∃ header, LengthField header ∧ IsByte cmdId ∧ bs = header ++ byte cmdId := by
  have he : TraCIAPI.check_commandGetResult 0 (-1) true = (do
      let length ← readUnsignedByte
      if length = 0 then
        let _ ← readInt
      readUnsignedByte) := by
    simp [TraCIAPI.check_commandGetResult]
  rw [he]
  apply (recognises_length recognises_byte).congr
  intro cmdId l
  constructor
  · rintro ⟨header, _, hheader, ⟨hcmd, rfl⟩, rfl⟩
    exact ⟨header, hheader, hcmd, rfl⟩
  · rintro ⟨header, hheader, hcmd, rfl⟩
    exact ⟨header, _, hheader, ⟨hcmd, rfl⟩, rfl⟩

theorem interprets_readSubscription : Interprets Storage.input TraCIAPI.readSubscription
    fun _ bs api api' => ∃ r : Report, ReportFormat r bs ∧ api' = r.act api := by
  apply ((Interprets.reading recognises_header).bind fun cmdId =>
    (interprets_readVariableSubscription cmdId).ite
      (interprets_readContextSubscription (cmdId + 0x50))).congr
  intro _ l api api'
  constructor
  · rintro ⟨cmdId, _, cs, _, rfl, ⟨⟨header, hheader, hcmd, rfl⟩, rfl⟩, h⟩
    split at h
    next habout =>
      obtain ⟨scope, objectID, vars, hscope, hvars, rfl⟩ := h
      exact ⟨.object scope objectID vars, ⟨header, cmdId, cs, hheader, hcmd, ⟨habout, hscope, hvars⟩,
        rfl⟩, rfl⟩
    next habout =>
      obtain ⟨contextID, objects, hsome, hcontext, rfl⟩ := h
      cases hscope : myDomains (cmdId + 0x50) with
      | none =>
        rw [hscope] at hsome
        obtain rfl | hsome := hsome
        · exact ⟨.nothing, ⟨header, cmdId, cs, hheader, hcmd, ⟨habout, hscope, contextID, hcontext⟩,
            rfl⟩, rfl⟩
        · cases hsome
      | some scope =>
        exact ⟨.context scope contextID objects, ⟨header, cmdId, cs, hheader, hcmd,
          ⟨habout, hscope, hcontext⟩, rfl⟩, rfl⟩
  · rintro ⟨r, ⟨header, cmdId, cs, hheader, hcmd, hbody, rfl⟩, rfl⟩
    refine ⟨cmdId, _, cs, api, rfl, ⟨⟨header, hheader, hcmd, rfl⟩, rfl⟩, ?_⟩
    cases r with
    | object scope objectID vars =>
      obtain ⟨habout, hscope, hvars⟩ := hbody
      have hif : cmdId ≥ Scope.inductionloop.response ∧ cmdId ≤ Scope.person.response := habout
      rw [if_pos hif]
      exact ⟨scope, objectID, vars, hscope, hvars, rfl⟩
    | context scope contextID objects =>
      obtain ⟨habout, hscope, hcontext⟩ := hbody
      have hif : ¬ (cmdId ≥ Scope.inductionloop.response ∧ cmdId ≤ Scope.person.response) := habout
      rw [if_neg hif, hscope]
      exact ⟨contextID, objects, .inr rfl, hcontext, rfl⟩
    | nothing =>
      obtain ⟨habout, hscope, contextID, hcontext⟩ := hbody
      have hif : ¬ (cmdId ≥ Scope.inductionloop.response ∧ cmdId ≤ Scope.person.response) := habout
      rw [if_neg hif, hscope]
      exact ⟨contextID, [], .inl rfl, hcontext, rfl⟩

/-! ## The status -/

/-- The part of a status that is read before anything is made of it. -/
theorem recognises_status (command : Int) : Recognises Storage.input (do
      let cmdLength ← readUnsignedByte
      let cmdId ← readUnsignedByte
      if command ≠ cmdId ∧ !false then
        throw (.traciException (s!"#Error: received status response to command: {cmdId} but " ++
          s!"expected: {command}"))
      let resultType ← readUnsignedByte
      return (cmdLength, resultType, ← readString))
    fun v bs => (IsByte v.1 ∧ IsByte command ∧ IsByte v.2.1 ∧ BigEndian.Fits 4 v.2.2.length) ∧
      bs = byte v.1 ++ byte command ++ byte v.2.1 ++ encodeString v.2.2 := by
  have hrest : ∀ cmdLength : Int, Recognises Storage.input (do
      let resultType ← readUnsignedByte
      return (cmdLength, resultType, ← readString))
      fun v bs => v.1 = cmdLength ∧ (IsByte v.2.1 ∧ BigEndian.Fits 4 v.2.2.length) ∧
        bs = byte v.2.1 ++ encodeString v.2.2 := by
    intro cmdLength
    apply (recognises_byte.bind fun resultType => recognises_readString.bind fun msg =>
      Recognises.pure (cmdLength, resultType, msg)).congr
    intro v bs
    constructor
    · rintro ⟨resultType, _, _, rfl, ⟨htype, rfl⟩, msg, _, _, rfl, ⟨hmsg, rfl⟩, rfl, rfl⟩
      exact ⟨rfl, ⟨htype, hmsg⟩, by rw [List.append_nil]⟩
    · rintro ⟨rfl, ⟨htype, hmsg⟩, rfl⟩
      exact ⟨v.2.1, _, _, rfl, ⟨htype, rfl⟩, v.2.2, _, [], (List.append_nil _).symm, ⟨hmsg, rfl⟩, rfl, rfl⟩
  apply (recognises_byte.bind fun cmdLength => recognises_byte.bind fun cmdId =>
    (Recognises.throw _).ite (hrest cmdLength)).congr
  intro v l
  constructor
  · rintro ⟨cmdLength, _, _, rfl, ⟨hlength, rfl⟩, cmdId, _, _, rfl, ⟨hcmd, rfl⟩, h⟩
    split at h
    next => exact h.elim
    next hne =>
      obtain ⟨rfl, ⟨htype, hmsg⟩, rfl⟩ := h
      have hcommand : command = cmdId := by simpa using hne
      rw [hcommand]
      exact ⟨⟨hlength, hcmd, htype, hmsg⟩, by simp only [List.append_assoc]⟩
  · rintro ⟨⟨hlength, hcmd, htype, hmsg⟩, rfl⟩
    refine ⟨v.1, _, byte command ++ (byte v.2.1 ++ encodeString v.2.2), ?_, ⟨hlength, rfl⟩, command, _, _,
      rfl, ⟨hcmd, rfl⟩, ?_⟩
    · simp only [List.append_assoc]
    · rw [if_neg (by simp)]
      exact ⟨rfl, ⟨htype, hmsg⟩, rfl⟩

theorem position_skip {s : Storage} {bs r : Bytes} (h : Storage.input.rest s = bs ++ r) :
    (Storage.input.skip bs.length s).position = s.position + bs.length := by
  have hlen := congrArg List.length h
  rw [rest_eq, List.length_drop, List.length_append] at hlen
  have := s.iter_le
  simp only [position, Storage.input]
  omega

theorem length_byte (v : Int) : (byte v).length = 1 := BigEndian.length_encode 1 v.toNat

/-- The status is read exactly if the command has been carried out. -/
theorem recognises_resultState {command : Int} (hcommand : IsByte command) :
    Recognises Storage.input (TraCIAPI.resultState command false)
      fun msg bs => msg.length ≤ 248 ∧ bs = okStatus command msg := by
  have hlen : ∀ (cmdLength resultType : Int) (msg : Bytes),
      (byte cmdLength ++ byte command ++ byte resultType ++ encodeString msg).length =
        7 + msg.length := by
    intro cmdLength resultType msg
    simp only [List.length_append, length_byte, encodeString, BigEndian.length_encodeInt]
    omega
  intro s msg s'
  rw [TraCIAPI.resultState, bind_apply, get_apply]
  dsimp only
  rw [bind_eq_ok]
  apply (exists_congr fun v => exists_congr fun s₁ => and_congr_left'
    ((recognises_status command).tryCatch ?_ s v s₁)).trans
  rotate_left
  · intro e s
    cases e <;> exact ⟨_, _, rfl⟩
  constructor
  · rintro ⟨⟨cmdLength, resultType, m⟩, s₁, ⟨bs, r, hs, ⟨⟨hlength, -, -, -⟩, rfl⟩, rfl⟩, h⟩
    dsimp only at h hs
    split_ifs at h with herr hni hok
    · cases h
    · cases h
    · cases h
    · rw [bind_apply, get_apply] at h
      dsimp only at h
      split at h
      next => cases h
      next hpos =>
        obtain ⟨rfl, rfl⟩ := Result.ok.inj h
        obtain rfl : resultType = RTYPE_OK := Decidable.not_not.1 hok
        have hpos := Decidable.not_not.1 hpos
        rw [position_skip hs, hlen] at hpos
        obtain rfl : cmdLength = 7 + m.length := by omega
        have := hlength.2
        exact ⟨_, r, hs, ⟨by omega, rfl⟩, rfl⟩
  · rintro ⟨_, r, hs, ⟨hmsg, rfl⟩, rfl⟩
    have hlength : IsByte (7 + msg.length) := ⟨by omega, by omega⟩
    have hok : IsByte RTYPE_OK := by decide
    have hfits : BigEndian.Fits 4 msg.length := ⟨by omega, by omega⟩
    rw [okStatus] at hs ⊢
    refine ⟨(7 + msg.length, RTYPE_OK, msg), _,
      ⟨_, r, hs, ⟨⟨hlength, hcommand, hok, hfits⟩, rfl⟩, rfl⟩, ?_⟩
    have hpos : ((s.position : Int) + (7 + msg.length)) = (Storage.input.skip
        (byte (7 + msg.length) ++ byte command ++ byte RTYPE_OK ++ encodeString msg).length s).position := by
      rw [position_skip hs, hlen]
      omega
    dsimp only
    rw [if_neg (by decide), if_neg (by decide), if_neg (by decide), bind_apply, get_apply]
    dsimp only
    rw [if_neg (not_not_intro hpos)]
    rfl

/-! ## What is known -/

section Known

open Assignments

/-- What is known about the variables of objects. -/
def value (results : SubscriptionResults) (k : Bytes × Int) : Option TraCIResult :=
  (results.getD k.1 ∅)[k.2]?

/-- The results of a scope, or of a context of it. -/
def results (api : TraCIAPI) : Scope × Option Bytes → SubscriptionResults
  | (scope, none) => api.mySubscriptionResults scope
  | (scope, some contextID) => (api.myContextSubscriptionResults scope).getD contextID ∅

def known (api : TraCIAPI) (k : (Scope × Option Bytes) × Bytes × Int) : Option TraCIResult :=
  value (results api k.1) k.2

/-- The values in a report. -/
def Report.told : Report → List (((Scope × Option Bytes) × Bytes × Int) × TraCIResult)
  | object scope objectID vars => vars.map fun v => (((scope, none), objectID, v.1), v.2)
  | context scope contextID objects =>
    objects.flatMap fun o => o.2.map fun v => (((scope, some contextID), o.1, v.1), v.2)
  | nothing => []

theorem assigns_assign (results : SubscriptionResults) (objectID : Bytes) (v : Int × TraCIResult) :
    Assigns value results (TraCIAPI.assign results objectID v.1 v.2) [((objectID, v.1), v.2)] := by
  rintro ⟨o, variableID⟩
  rw [last?_singleton, value, value, TraCIAPI.assign, Std.TreeMap.getD_insert]
  by_cases ho : objectID = o
  · obtain rfl := ho
    rw [if_pos Std.ReflCmp.compare_self, Std.TreeMap.getElem?_insert]
    by_cases hv : v.1 = variableID
    · rw [hv, if_pos Std.ReflCmp.compare_self, if_pos rfl, Option.some_or]
    · have hcmp : compare v.1 variableID ≠ .eq := fun h => hv (Std.LawfulEqCmp.eq_of_compare h)
      have hkey : (objectID, v.1) ≠ (objectID, variableID) := fun h => hv (Prod.mk.inj h).2
      rw [if_neg hcmp, if_neg hkey, Option.none_or]
  · have hcmp : compare objectID o ≠ .eq := fun h => ho (Std.LawfulEqCmp.eq_of_compare h)
    have hkey : (objectID, v.1) ≠ (o, variableID) := fun h => ho (Prod.mk.inj h).1
    rw [if_neg hcmp, if_neg hkey, Option.none_or]

theorem assigns_assignAll (results : SubscriptionResults) (objectID : Bytes)
    (vars : List (Int × TraCIResult)) :
    Assigns value results (assignAll objectID results vars)
      (vars.map fun v => ((objectID, v.1), v.2)) := by
  rw [List.map_eq_flatMap]
  exact Assigns.foldl (fun results v => assigns_assign results objectID v) vars results

theorem assigns_part {api api' : TraCIAPI} {p : Scope × Option Bytes}
    {ws : List ((Bytes × Int) × TraCIResult)} (h : Assigns value (results api p) (results api' p) ws)
    (hother : ∀ q, q ≠ p → results api' q = results api q) :
    Assigns known api api' (ws.map fun w => ((p, w.1), w.2)) :=
  Assigns.part h hother

theorem assigns_actObject (scope : Scope) (contextID : Bytes) (api : TraCIAPI)
    (o : Bytes × List (Int × TraCIResult)) :
    Assigns known api (Report.actObject scope contextID api o)
      (o.2.map fun v => (((scope, some contextID), o.1, v.1), v.2)) := by
  have hpart : results (Report.actObject scope contextID api o) (scope, some contextID) =
      assignAll o.1 (results api (scope, some contextID)) o.2 := by
    simp only [results, Report.actObject, Function.update_self, Std.TreeMap.getD_insert_self]
  have h := assigns_assignAll (results api (scope, some contextID)) o.1 o.2
  rw [← hpart] at h
  have hall := assigns_part h (by
    rintro ⟨scope', _ | contextID'⟩ hq
    · rfl
    · by_cases hscope : scope' = scope
      · obtain rfl := hscope
        have hcontext : compare contextID contextID' ≠ .eq := fun h => hq (by
          rw [Std.LawfulEqCmp.eq_of_compare h])
        simp only [results, Report.actObject, Function.update_self, Std.TreeMap.getD_insert,
          if_neg hcontext]
      · simp only [results, Report.actObject, Function.update_of_ne hscope])
  rwa [List.map_map] at hall

theorem assigns_act (api : TraCIAPI) (r : Report) : Assigns known api (r.act api) r.told := by
  cases r with
  | object scope objectID vars =>
    have hpart : results ((Report.object scope objectID vars).act api) (scope, none) =
        assignAll objectID (results api (scope, none)) vars := by
      simp only [results, Report.act, Function.update_self]
    have h := assigns_assignAll (results api (scope, none)) objectID vars
    rw [← hpart] at h
    have hall := assigns_part h (by
      rintro ⟨scope', _ | contextID⟩ hq
      · have hscope : scope' ≠ scope := fun h => hq (by rw [h])
        simp only [results, Report.act, Function.update_of_ne hscope]
      · rfl)
    rwa [List.map_map] at hall
  | context scope contextID objects => exact Assigns.foldl (assigns_actObject scope contextID) objects api
  | nothing => exact Assigns.refl api

/-! ## A step -/

/-- The client without what it knew about some scopes. -/
def cleared (scopes : List Scope) (api : TraCIAPI) : TraCIAPI :=
  { api with
    mySubscriptionResults := fun scope =>
      if scope ∈ scopes then ∅ else api.mySubscriptionResults scope
    myContextSubscriptionResults := fun scope =>
      if scope ∈ scopes then ∅ else api.myContextSubscriptionResults scope }

theorem update_cleared {α : Type} (scope : Scope) (scopes : List Scope) (f : Scope → α) (a : α) :
    (fun s => if s ∈ scopes then a else Function.update f scope a s) =
      fun s => if s ∈ scope :: scopes then a else f s := by
  funext s
  by_cases hs : s = scope
  · rw [hs, Function.update_self, ite_self, if_pos List.mem_cons_self]
  · rw [Function.update_of_ne hs]
    simp only [List.mem_cons, hs, false_or]

theorem clear_apply (scopes : List Scope) (api : TraCIAPI) :
    scopes.forM TraCIAPI.clearSubscriptionResults api = .ok ⟨⟩ (cleared scopes api) := by
  induction scopes generalizing api with
  | nil => rfl
  | cons scope scopes ih =>
    rw [List.forM, bind_apply, TraCIAPI.clearSubscriptionResults, modify_apply]
    dsimp only
    rw [ih]
    simp only [cleared, update_cleared]

/-- What is read from the answer behind the status. -/
theorem interprets_reports : Interprets Storage.input (do
      storing (domains.forM TraCIAPI.clearSubscriptionResults)
      let numSubs ← reading readInt
      repeatM TraCIAPI.readSubscription numSubs.toNat)
    fun _ bs api api' => ∃ reports, Counted ReportFormat reports bs ∧
      api' = reports.foldl Report.act (cleared domains api) := by
  apply ((Interprets.storing _).bind fun _ => (Interprets.reading recognises_int).bind fun numSubs =>
    interprets_readSubscription.repeatM numSubs.toNat).congr
  intro _ l api api'
  constructor
  · rintro ⟨_, _, _, _, rfl, ⟨rfl, hclear⟩, n, _, cs, _, rfl, ⟨⟨hn, rfl⟩, rfl⟩, reports, hlen, heach, rfl⟩
    rw [clear_apply] at hclear
    obtain ⟨-, rfl⟩ := Result.ok.inj hclear
    exact ⟨reports, ⟨n, cs, hn, hlen, heach, rfl⟩, rfl⟩
  · rintro ⟨reports, ⟨n, cs, hn, hlen, heach, rfl⟩, rfl⟩
    exact ⟨⟨⟩, [], _, _, rfl, ⟨rfl, clear_apply domains api⟩, n, _, cs, _, rfl, ⟨⟨hn, rfl⟩, rfl⟩, reports,
      hlen, heach, rfl⟩

/-- What is read from the answer, with the status. -/
theorem interprets_answer : Interprets Storage.input (do
      let _ ← reading (TraCIAPI.resultState CMD_SIMSTEP false)
      storing (domains.forM TraCIAPI.clearSubscriptionResults)
      let numSubs ← reading readInt
      repeatM TraCIAPI.readSubscription numSubs.toNat)
    fun _ bs api api' => ∃ reports description cs, description.length ≤ 248 ∧
      Counted ReportFormat reports cs ∧ bs = okStatus CMD_SIMSTEP description ++ cs ∧
      api' = reports.foldl Report.act (cleared domains api) := by
  apply ((Interprets.reading (recognises_resultState (by decide))).bind fun _ =>
    interprets_reports).congr
  intro _ l api api'
  constructor
  · rintro ⟨description, _, cs, _, rfl, ⟨⟨hlen, rfl⟩, rfl⟩, reports, hreports, rfl⟩
    exact ⟨reports, description, cs, hlen, hreports, rfl, rfl⟩
  · rintro ⟨reports, description, cs, hlen, hreports, rfl, rfl⟩
    exact ⟨description, _, cs, api, rfl, ⟨⟨hlen, rfl⟩, rfl⟩, reports, hreports, rfl⟩

theorem onSocket_eq_ok {β : Type} {x : SocketM β} {api api' : TraCIAPI} {socket : Socket} {b : β}
    (hs : api.mySocket = some socket) : TraCIAPI.onSocket x api = .ok b api' ↔
      ∃ s, x socket = .ok b s ∧ api' = { api with mySocket := some s } := by
  rw [TraCIAPI.onSocket, hs]
  dsimp only
  cases x socket with
  | ok c s =>
    rw [Result.ok.injEq]
    constructor
    · rintro ⟨rfl, rfl⟩
      exact ⟨s, rfl, rfl⟩
    · rintro ⟨_, hx, rfl⟩
      cases hx
      exact ⟨rfl, rfl⟩
  | error e s =>
    constructor
    · intro h
      cases h
    · rintro ⟨_, h, -⟩
      cases h

theorem withMessage_eq_ok {β : Type} {x : MessageM β} {api api' : TraCIAPI} {b : β} :
    TraCIAPI.withMessage x api = .ok b api' ↔
      ∃ s, x (.new api.bigEndian, api) = .ok b (s, api') := by
  rw [TraCIAPI.withMessage]
  cases x (.new api.bigEndian, api) with
  | ok c p =>
    rw [Result.ok.injEq]
    constructor
    · rintro ⟨rfl, rfl⟩
      exact ⟨p.1, rfl⟩
    · rintro ⟨s, h⟩
      cases h
      exact ⟨rfl, rfl⟩
  | error e p =>
    constructor
    · intro h
      cases h
    · rintro ⟨_, h⟩
      cases h

theorem received_eq_ok {api : TraCIAPI} {socket : Socket} (hs : api.mySocket = some socket)
    {m inMsg : Storage} {p : Storage × TraCIAPI} :
    storing (TraCIAPI.onSocket Socket.receiveExact) (m, api) = .ok inMsg p ↔
      ∃ payload r, Socket.Sendable payload ∧ Socket.input.rest socket = Socket.frame payload ++ r ∧
        inMsg = .ofPacket socket.bigEndian payload ∧ p = (m,
          { api with mySocket := some (Socket.input.skip (Socket.frame payload).length socket) }) := by
  rw [EStateM.storing, zoom_eq_ok]
  simp only [onSocket_eq_ok hs, Socket.receiveExact_eq_ok]
  constructor
  · rintro ⟨_, ⟨_, ⟨payload, r, hp, hr, rfl, rfl⟩, rfl⟩, rfl⟩
    exact ⟨payload, r, hp, hr, rfl, rfl⟩
  · rintro ⟨payload, r, hp, hr, rfl, rfl⟩
    exact ⟨_, ⟨_, ⟨payload, r, hp, hr, rfl, rfl⟩, rfl⟩, rfl⟩

/-- The part of a step after the request has been sent. -/
theorem answer_eq_ok {api api' : TraCIAPI} {socket : Socket} (hs : api.mySocket = some socket) :
    TraCIAPI.withMessage (do
      let _ ← TraCIAPI.check_resultState CMD_SIMSTEP false
      storing (domains.forM TraCIAPI.clearSubscriptionResults)
      let numSubs ← reading readInt
      repeatM TraCIAPI.readSubscription numSubs.toNat) api = .ok () api' ↔
    ∃ payload r reports, Socket.Sendable payload ∧
      Socket.input.rest socket = Socket.frame payload ++ r ∧ StepFormat reports payload ∧
      api' = reports.foldl Report.act (cleared domains
        { api with mySocket := some (Socket.input.skip (Socket.frame payload).length socket) }) := by
  rw [withMessage_eq_ok]
  simp only [TraCIAPI.check_resultState, bind_assoc]
  constructor
  · rintro ⟨s, h⟩
    obtain ⟨_, _, hrecv, h⟩ := bind_eq_ok.1 h
    obtain ⟨payload, r, hp, hr, rfl, rfl⟩ := (received_eq_ok hs).1 hrecv
    obtain ⟨bs, rest, hpayload, ⟨reports, description, cs, hlen, hreports, rfl, rfl⟩, -⟩ :=
      (interprets_answer (.ofPacket socket.bigEndian payload) _ () s api').1 h
    exact ⟨payload, r, reports, hp, hr, ⟨description, cs, rest, hlen, hreports, hpayload⟩, rfl⟩
  · rintro ⟨payload, r, reports, hp, hr, ⟨description, cs, rest, hlen, hreports, hpayload⟩, rfl⟩
    have h := interprets_answer.ok (s := .ofPacket socket.bigEndian payload)
      (t := { api with mySocket := some (Socket.input.skip (Socket.frame payload).length socket) })
      (a := ()) ⟨reports, description, cs, hlen, hreports, rfl, rfl⟩ hpayload
    exact ⟨_, bind_eq_ok.2 ⟨_, _, (received_eq_ok hs).2 ⟨payload, r, hp, hr, rfl, rfl⟩, h⟩⟩

/-- The request for a step. -/
theorem send_commandSimulationStep_apply {api : TraCIAPI} {socket : Socket}
    (hs : api.mySocket = some socket) (hconnected : socket.connected = true)
    (hsendings : ∀ error, .fails error ∉ socket.sendings) (time : Double) :
    ∃ sendings sent, TraCIAPI.send_commandSimulationStep time api =
      .ok () { api with mySocket := some { socket with sendings, sent } } := by
  have hdata : (do
      writeUnsignedByte (1 + 1 + 8)
      writeUnsignedByte CMD_SIMSTEP
      writeDouble time : StorageM Unit) =
        writeAll [.unsignedByte (1 + 1 + 8), .unsignedByte CMD_SIMSTEP, .double time] := by
    simp only [writeAll, List.forM, Datum.write, bind_pure_unit]
  have hlen : (Datum.encodeAll
      [.unsignedByte (1 + 1 + 8), .unsignedByte CMD_SIMSTEP, .double time]).length = 10 := by
    simp [Datum.encodeAll, Datum.encode]
  have hbytes : Socket.Sendable (Datum.encodeAll
      [.unsignedByte (1 + 1 + 8), .unsignedByte CMD_SIMSTEP, .double time]) := by
    refine ⟨List.length_pos_iff.1 ?_, ?_⟩ <;> omega
  obtain ⟨-, hwritten⟩ | ⟨hfits, -⟩ := written_apply hdata (by simp [Datum.Typed, Datum.Fits]) api
  · rw [TraCIAPI.send_commandSimulationStep, bind_apply, hwritten]
    dsimp only
    have hpost := Socket.sendExact_post (b := .ofPacket api.bigEndian _) hbytes hconnected
    cases hr : Socket.sendExact (.ofPacket api.bigEndian _) socket with
    | ok u t =>
      obtain ⟨sendings, -, rfl⟩ := hpost.ok hr
      exact ⟨sendings, _, (onSocket_eq_ok hs).2 ⟨_, hr, rfl⟩⟩
    | error e t =>
      obtain ⟨-, error, he⟩ := hpost.error hr
      exact (hsendings error he).elim
  · exact (hfits (by simp [Datum.Fits, CMD_SIMSTEP])).elim

/-- The client knows the values in the reports, and no others. -/
def Knows (api : TraCIAPI) (reports : List Report) : Prop :=
  ∀ scope ∈ domains, ∀ objectID variableID,
    (api.getSubscriptionResults scope objectID)[variableID]? =
      last? (reports.flatMap Report.told) ((scope, none), objectID, variableID) ∧
    ∀ contextID, ((api.getContextSubscriptionResults scope contextID).getD objectID ∅)[variableID]? =
      last? (reports.flatMap Report.told) ((scope, some contextID), objectID, variableID)

theorem knows (api : TraCIAPI) (reports : List Report) :
    Knows (reports.foldl Report.act (cleared domains api)) reports := by
  have h := Assigns.foldl assigns_act reports (cleared domains api)
  have hcleared : ∀ scope ∈ domains, ∀ c k, known (cleared domains api) ((scope, c), k) = none := by
    intro scope hscope c k
    cases c <;> simp [known, value, results, cleared, hscope]
  intro scope hscope objectID variableID
  constructor
  · have := h ((scope, none), objectID, variableID)
    rwa [hcleared scope hscope, Option.or_none] at this
  · intro contextID
    have := h ((scope, some contextID), objectID, variableID)
    rwa [hcleared scope hscope, Option.or_none] at this

theorem mySocket_act (api : TraCIAPI) (r : Report) : (r.act api).mySocket = api.mySocket := by
  cases r with
  | object scope objectID vars => rfl
  | context scope contextID objects =>
    rw [Report.act]
    induction objects generalizing api with
    | nil => rfl
    | cons o objects ih => exact ih (Report.actObject scope contextID api o)
  | nothing => rfl

theorem mySocket_foldl (api : TraCIAPI) (reports : List Report) :
    (reports.foldl Report.act api).mySocket = api.mySocket := by
  induction reports generalizing api with
  | nil => rfl
  | cons r reports ih => exact (ih (r.act api)).trans (mySocket_act api r)

theorem simulationStep_eq_ok {api api₁ api' : TraCIAPI} {socket : Socket} {time : Double}
    (hsend : TraCIAPI.send_commandSimulationStep time api = .ok () api₁)
    (hs : api₁.mySocket = some socket) :
    TraCIAPI.simulationStep time api = .ok () api' ↔ ∃ payload r reports, Socket.Sendable payload ∧
      Socket.input.rest socket = Socket.frame payload ++ r ∧ StepFormat reports payload ∧
      api' = reports.foldl Report.act (cleared domains
        { api₁ with mySocket := some (Socket.input.skip (Socket.frame payload).length socket) }) := by
  rw [TraCIAPI.simulationStep, bind_apply, hsend]
  exact answer_eq_ok hs

/-- A step returns exactly if the next message is the answer to a step that has been carried out. The
client has read just this message then, and knows what it reports: the last value of every variable,
and nothing from before. -/
theorem simulationStep_knows {api : TraCIAPI} {socket : Socket} (hs : api.mySocket = some socket)
    (hconnected : socket.connected = true) (hsendings : ∀ error, .fails error ∉ socket.sendings)
    (time : Double) :
    ((∃ api', TraCIAPI.simulationStep time api = .ok () api') ↔
      ∃ payload r reports, Socket.Sendable payload ∧
        Socket.input.rest socket = Socket.frame payload ++ r ∧ StepFormat reports payload) ∧
    ∀ payload r reports, Socket.Sendable payload →
      Socket.input.rest socket = Socket.frame payload ++ r → StepFormat reports payload →
      ∃ api' socket', TraCIAPI.simulationStep time api = .ok () api' ∧
        api'.mySocket = some socket' ∧ Socket.input.rest socket' = r ∧ Knows api' reports := by
  obtain ⟨sendings, sent, hsend⟩ := send_commandSimulationStep_apply hs hconnected hsendings time
  have hrest : Socket.input.rest { socket with sendings, sent } = Socket.input.rest socket := rfl
  constructor
  · constructor
    · rintro ⟨api', h⟩
      obtain ⟨payload, r, reports, hp, hr, hformat, -⟩ := (simulationStep_eq_ok hsend rfl).1 h
      exact ⟨payload, r, reports, hp, hr, hformat⟩
    · rintro ⟨payload, r, reports, hp, hr, hformat⟩
      exact ⟨_, (simulationStep_eq_ok hsend rfl).2 ⟨payload, r, reports, hp, hr, hformat, rfl⟩⟩
  · intro payload r reports hp hr hformat
    refine ⟨_, _, (simulationStep_eq_ok hsend rfl).2 ⟨payload, r, reports, hp, hr, hformat, rfl⟩,
      mySocket_foldl _ reports, ?_, knows _ reports⟩
    exact Socket.input.rest_skip_append (hrest.trans hr)

/-- A vehicle whose speed is reported twice. -/
def twice : List Report := [.object .vehicle [118] [(0x40, .double 1), (0x40, .double 2)]]

def twiceAnswer : Bytes :=
  let speed (v : Double) := byte 0x40 ++ byte RTYPE_OK ++ byte TYPE_DOUBLE ++ double v
  okStatus CMD_SIMSTEP [] ++ (BigEndian.encodeInt 4 1 ++ (byte 30 ++ byte 0xe4 ++
    (encodeString [118] ++ byte 2 ++ (speed 1 ++ (speed 2 ++ []))) ++ [])) ++ []

theorem stepFormat_twice : StepFormat twice twiceAnswer := by
  have hvariable : IsByte 0x40 := by decide
  have hspeed : ∀ v : Double, VariableFormat (0x40, .double v)
      (byte 0x40 ++ byte RTYPE_OK ++ byte TYPE_DOUBLE ++ double v) :=
    fun v => ⟨TYPE_DOUBLE, double v, hvariable, by decide, ⟨rfl, rfl⟩, rfl⟩
  exact ⟨[], _, [], by decide, ⟨1, _, by decide, rfl, .cons ⟨byte 30, 0xe4, _,
    .inl ⟨30, by decide, by decide, rfl⟩, by decide, ⟨by decide, rfl, _, _, ⟨by decide, rfl⟩, by decide,
      .cons (hspeed 1) (.cons (hspeed 2) .nil), rfl⟩, rfl⟩ .nil, rfl⟩, rfl⟩

def twiceSocket : Socket where
  connected := true
  incoming := [.piece 0 ((Socket.frame twiceAnswer).drop 1), .piece 7 []]
  sendings := []
  sent := []
  bigEndian := false

def twiceClient : TraCIAPI := { TraCIAPI.new false with mySocket := some twiceSocket }

theorem simulationStep_knows_twice : ∃ api', TraCIAPI.simulationStep 0 twiceClient = .ok () api' ∧
    (api'.getSubscriptionResults .vehicle [118])[(0x40 : Int)]? = some (.double 2) ∧
    (api'.getSubscriptionResults .vehicle [])[(0x40 : Int)]? = none := by
  have hs : twiceClient.mySocket = some twiceSocket := rfl
  have hsendings : ∀ error, .fails error ∉ twiceSocket.sendings := fun _ => List.not_mem_nil
  obtain ⟨api', socket', h, -, -, hknows⟩ := (simulationStep_knows hs rfl hsendings 0).2 twiceAnswer
    [7] twice (by decide) (by decide) stepFormat_twice
  have hvehicle := fun objectID => (hknows .vehicle (by decide) objectID 0x40).1
  exact ⟨api', h, (hvehicle [118]).trans (by decide), (hvehicle []).trans (by decide)⟩

end Known

end Cosidia.Traci
