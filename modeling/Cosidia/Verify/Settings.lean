import Mathlib.Data.List.Flatten
import Cosidia.Verify.Compounds

/-!
# What is set and what is got

The program of a traffic light and the shape of a polygon are written with the same bytes with which
they are read.
-/

namespace Cosidia.Traci

open EStateM Storage Storage.Datum Recognises

/-! ## Writing lists -/

namespace Storage

variable {α : Type}

theorem writeAll_flatMap (f : α → List Datum) (as : List α) :
    writeAll (as.flatMap f) = as.forM fun a => writeAll (f a) := by
  induction as with
  | nil => rfl
  | cons a as ih => rw [List.flatMap_cons, writeAll_append, ih, List.forM]

theorem Datum.encodeAll_flatMap (f : α → List Datum) (as : List α) :
    encodeAll (as.flatMap f) = as.flatMap fun a => encodeAll (f a) :=
  List.flatMap_assoc

theorem Datum.encodeAll_flatten (parts : List (List Datum)) :
    encodeAll parts.flatten = (parts.map encodeAll).flatten := by
  induction parts with
  | nil => rfl
  | cons part parts ih =>
    rw [List.flatten_cons, encodeAll_append, ih, List.map_cons, List.flatten_cons]

section Listed

variable {f : α → List Datum} {as : List α} {pre whole : List Datum}

/-- The elements of a list that is part of the data are parts of the data. -/
theorem Datum.sublist_of_mem (h : (pre ++ as.flatMap f).Sublist whole) {a : α} (ha : a ∈ as) :
    (f a).Sublist whole :=
  (List.sublist_flatten_of_mem (List.mem_map_of_mem ha)).trans
    ((List.sublist_append_right pre _).trans h)

theorem Datum.size_le {part : List Datum} (h : part.Sublist whole) : size part ≤ size whole :=
  (h.flatMap encode).length_le

/-- Data that fit into a message have no list that is too long. -/
theorem Datum.length_lt (hf : ∀ a, 1 ≤ size (f a)) (h : (pre ++ as.flatMap f).Sublist whole)
    (hs : size whole < 2 ^ 31) : as.length < 2 ^ 31 := by
  have hle := size_le ((List.sublist_append_right pre _).trans h)
  have hlen := length_le_flatMap (f := fun a => encodeAll (f a)) hf as
  rw [← encodeAll_flatMap] at hlen
  exact Nat.lt_of_le_of_lt (Nat.le_trans hlen hle) hs

end Listed

end Storage

theorem each_flatMap {α : Type} {F : α → Bytes → Prop} {encode : α → Bytes} {as : List α}
    (h : ∀ a ∈ as, F a (encode a)) : Each F as (as.flatMap encode) := by
  induction as with
  | nil => exact .nil
  | cons a as ih =>
    obtain ⟨ha, has⟩ := List.forall_mem_cons.1 h
    exact .cons ha (ih has)

theorem each_map {α β : Type} {F : β → Bytes → Prop} {g : α → β} {as : List α} {bs : Bytes}
    (h : Each (fun a => F (g a)) as bs) : Each F (as.map g) bs := by
  induction h with
  | nil => exact .nil
  | cons ha _ ih => exact .cons ha ih

/-! ## Requests that are never refused -/

/-- A value whose range its type takes care of, if it is not too long. -/
def Storage.Datum.Plain (d : Datum) : Prop := d.Ranged ∧ (d.Typed → d.Fits)

theorem plain_unsignedByte {v : Int} (h : IsByte v) : (unsignedByte v).Plain := ⟨trivial, fun _ => h⟩

theorem plain_int {v : Int} (h : BigEndian.Fits 4 v) : (int v).Plain := ⟨h, fun h => h⟩

theorem plain_length (n : Int) : (int (toInt n)).Plain := by
  have hle := BitVec.toInt_lt (x := BitVec.ofInt 32 n)
  have hge := BitVec.le_toInt (x := BitVec.ofInt 32 n)
  exact plain_int ⟨hge, hle⟩

theorem plain_double (v : Double) : (Datum.double v).Plain := ⟨trivial, id⟩

theorem plain_string (v : Bytes) : (string v).Plain := ⟨trivial, id⟩

/-- A component behind its type. -/
theorem plain_tagged {type : Int} {d : Datum} (htype : IsByte type) (h : d.Plain) :
    ∀ x ∈ [unsignedByte type, d], x.Plain :=
  List.forall_mem_cons.2 ⟨plain_unsignedByte htype, List.forall_mem_singleton.2 h⟩

theorem plain_list {α : Type} {type : Int} {n : Int} {f : α → List Datum} {as : List α}
    (htype : IsByte type) (h : ∀ a ∈ as, ∀ d ∈ f a, d.Plain) :
    ∀ d ∈ [unsignedByte type, .int (toInt n)] ++ as.flatMap f, d.Plain := by
  rw [List.forall_mem_append]
  exact ⟨plain_tagged htype (plain_length n), List.forall_mem_flatMap.2 h⟩

theorem plain_cons {part : List Datum} {parts : List (List Datum)} (h : ∀ d ∈ part, d.Plain)
    (h' : ∀ d ∈ parts.flatten, d.Plain) : ∀ d ∈ (part :: parts).flatten, d.Plain :=
  List.forall_mem_append.2 ⟨h, h'⟩

theorem fits_of_plain {data : List Datum} (hs : 4 + size data < 2 ^ 31)
    (h : ∀ d ∈ data, d.Plain) : ∀ d ∈ data, d.Fits :=
  fun d hd => (h d hd).2 (typed_of_size hs (fun d hd => (h d hd).1) d hd)

theorem variableRequest_fits {cmd var : Int} (hcmd : IsByte cmd) (hvar : IsByte var) {id : Bytes}
    {data : List Datum} (hdata : ∀ d ∈ data, d.Plain)
    (hs : 4 + size (Call.variableRequest cmd var id data) < 2 ^ 31) :
    ∀ d ∈ Call.variableRequest cmd var id data, d.Fits := by
  apply fits_of_plain hs
  rw [Call.variableRequest, announced, Call.variableBody]
  rw [Call.variableRequest, size_announced, Call.variableBody] at hs
  simp only [List.forall_mem_append, List.forall_mem_cons]
  refine ⟨?_, ⟨plain_unsignedByte hcmd, plain_unsignedByte hvar, plain_string id,
    List.forall_mem_nil _⟩, hdata⟩
  rw [announcement]
  split
  next h =>
    rw [if_pos h] at hs
    exact List.forall_mem_cons.2 ⟨plain_unsignedByte (by decide),
      List.forall_mem_singleton.2 (plain_int ⟨by omega, by omega⟩)⟩
  next h =>
    have hshort := of_decide_eq_false (Bool.eq_false_iff.2 h)
    exact List.forall_mem_singleton.2 (plain_unsignedByte ⟨by omega, by omega⟩)

theorem asks_setValueOf {cmd var : Int} {id : Bytes} {x : StorageM Unit} {data : List Datum}
    (hx : x = writeAll data) (hd : ∀ d ∈ data, d.Fits)
    (hs : 4 + size (Call.variableRequest cmd var id data) < 2 ^ 31) :
    Asks (setValueOf cmd var id x) (Call.variableRequest cmd var id data) := by
  apply asks_content data hx hd
  intro host
  apply Call.asks_variable ⟨hd, .inr ⟨host, rfl⟩⟩ hs
  intro api sent rest hm h
  exact (processSet_exchanged cmd hm h).keep fun _ => Keeps.of_composed (.pure _)

theorem size_variableRequest_le (cmd var cmd' var' : Int) (id : Bytes) (data : List Datum) :
    size (Call.variableRequest cmd var id []) ≤ size (Call.variableRequest cmd' var' id data) := by
  simp only [Call.variableRequest, size_announced, size_variableBody, size_nil, decide_eq_true_eq]
  split <;> split <;> omega

/-! ## What an answer holds -/

/-- Two messages cannot be next. -/
theorem frame_unique {s : Socket} {p p' r r' : Bytes} (hp : Socket.Sendable p)
    (hp' : Socket.Sendable p') (h : Socket.input.rest s = Socket.frame p ++ r)
    (h' : Socket.input.rest s = Socket.frame p' ++ r') : p = p' := by
  have hr := Socket.receiveExact_eq_ok.2 ⟨p, r, hp, h, rfl, rfl⟩
  have hr' := Socket.receiveExact_eq_ok.2 ⟨p', r', hp', h', rfl, rfl⟩
  have heq := hr.symm.trans hr'
  cases heq
  rfl

/-- The value is what stands behind the type. -/
theorem value_of_answer {α : Type} {cmd type : Int} (hcmd : IsByte cmd) (htype : 0 ≤ type)
    {read : StorageM α} {F : α → Bytes → Prop} (h : Recognises Storage.input read F) {v : α}
    {payload : Bytes} (hv : AnswerFormat cmd type F v payload) {description header id cs tail : Bytes}
    {var : Int} (hparts : description.length ≤ 248 ∧ LengthField header ∧ IsByte (cmd + 0x10) ∧
      IsByte var ∧ StringFormat id cs ∧ IsByte type)
    (hpayload : payload = okStatus cmd description ++ header ++ byte (cmd + 0x10) ++ byte var ++ cs ++
      byte type ++ tail) : ∃ bs r, tail = bs ++ r ∧ F v bs := by
  obtain ⟨hd, hh, hc, hvar, hid, ht⟩ := hparts
  obtain ⟨description', header', var', id', cs', ds, rest, hparts', hpayload'⟩ := hv
  have hrun := (recognises_answer hcmd htype h).ok (s := Storage.ofPacket false payload)
    ⟨description', header', var', id', cs', ds, hparts', rfl⟩ hpayload'
  have hbefore := (recognises_answer hcmd htype (Recognises.pure ())).ok
    (s := Storage.ofPacket false payload)
    ⟨description, header, var, id, cs, [], ⟨hd, hh, hc, hvar, hid, ht, rfl, rfl⟩,
      (List.append_nil _).symm⟩ hpayload
  obtain ⟨_, _, hstate, hrun⟩ := bind_eq_ok.1 hrun
  obtain ⟨_, s₂, hcheck, hrun⟩ := bind_eq_ok.1 hrun
  rw [bind_apply, hstate] at hbefore
  dsimp only at hbefore
  rw [bind_apply, hcheck] at hbefore
  cases hbefore
  obtain ⟨bs, r, hrest, hF, -⟩ := (h _ _ _).1 hrun
  have htail := Storage.input.rest_skip_append (s := Storage.ofPacket false payload) hpayload
  exact ⟨bs, r, htail.symm.trans hrest, hF⟩

/-! ## Components with their types -/

section Tagged

variable {P : Bytes → Prop} {type : Int}

theorem tagged_datum {d : Datum} (htype : IsByte type) (h : P d.encode) :
    Tagged P (encodeAll [.unsignedByte type, d]) :=
  ⟨type, d.encode, htype, h, congrArg _ (List.append_nil _)⟩

/-- A list with its length. -/
theorem tagged_list {α : Type} {F : α → Bytes → Prop} {f : α → List Datum} {as : List α}
    (htype : IsByte type) (hlen : as.length < 2 ^ 31) (h : ∀ a ∈ as, F a (encodeAll (f a))) :
    Tagged (Counted F as)
      (encodeAll ([.unsignedByte type, .int (toInt as.length)] ++ as.flatMap f)) := by
  have hfits : BigEndian.Fits 4 as.length := ⟨by omega, by omega⟩
  rw [toInt_of_fits hfits]
  refine ⟨type, BigEndian.encodeInt 4 as.length ++ as.flatMap fun a => encodeAll (f a), htype,
    ⟨as.length, _, hfits, (Int.toNat_natCast _).symm, each_flatMap h, rfl⟩, ?_⟩
  rw [encodeAll_append, encodeAll_flatMap]
  rfl

end Tagged

/-! ## Programs of traffic lights -/

namespace TrafficLightScope

def nextData (p : TraCIPhase) : List Datum :=
  [.unsignedByte TYPE_COMPOUND, .int (toInt p.next.length)] ++
    p.next.flatMap fun n => [.unsignedByte TYPE_INTEGER, .int n]

/-- What is written for a phase, component by component. -/
def phaseData (p : TraCIPhase) : List Datum :=
  List.flatten [
    [.unsignedByte TYPE_COMPOUND, .int 6],
    [.unsignedByte TYPE_DOUBLE, .double p.duration],
    [.unsignedByte TYPE_STRING, .string p.state],
    [.unsignedByte TYPE_DOUBLE, .double p.minDur],
    [.unsignedByte TYPE_DOUBLE, .double p.maxDur],
    nextData p,
    [.unsignedByte TYPE_STRING, .string p.name]]

def phasesData (l : TraCILogic) : List Datum :=
  [.unsignedByte TYPE_COMPOUND, .int (toInt l.phases.length)] ++ l.phases.flatMap phaseData

def subParameterData (p : Bytes × Bytes) : List Datum :=
  [.unsignedByte TYPE_STRINGLIST, .int 2, .string p.1, .string p.2]

def subParametersData (l : TraCILogic) : List Datum :=
  [.unsignedByte TYPE_COMPOUND, .int (toInt l.subParameter.size)] ++
    l.subParameter.toList.flatMap subParameterData

/-- What is written for a program. -/
def logicData (l : TraCILogic) : List Datum :=
  List.flatten [
    [.unsignedByte TYPE_COMPOUND, .int 5],
    [.unsignedByte TYPE_STRING, .string l.programID],
    [.unsignedByte TYPE_INTEGER, .int l.type],
    [.unsignedByte TYPE_INTEGER, .int l.currentPhaseIndex],
    phasesData l,
    subParametersData l]

theorem writePhase_eq (p : TraCIPhase) : writePhase p = writeAll (phaseData p) := by
  simp only [phaseData, nextData, List.flatten_cons, List.flatten_nil, writeAll_append,
    writeAll_flatMap]
  simp only [writePhase, writeAll, List.forM, Datum.write, bind_assoc, bind_pure_unit]

theorem writeLogic_eq (l : TraCILogic) : writeLogic l = writeAll (logicData l) := by
  simp only [logicData, phasesData, subParametersData, List.flatten_cons, List.flatten_nil,
    writeAll_append, writeAll_flatMap, ← writePhase_eq]
  simp only [writeLogic, subParameterData, writeAll, List.forM, Datum.write, bind_assoc,
    bind_pure_unit]

theorem next_sublist (p : TraCIPhase) : (nextData p).Sublist (phaseData p) :=
  List.sublist_flatten_of_mem (by simp)

theorem phases_sublist (l : TraCILogic) : (phasesData l).Sublist (logicData l) :=
  List.sublist_flatten_of_mem (by simp)

theorem subParameters_sublist (l : TraCILogic) : (subParametersData l).Sublist (logicData l) :=
  List.sublist_flatten_of_mem (by simp)

/-- What is written for a phase is read as the phase. -/
theorem phaseFormat {p : TraCIPhase} (h : ∀ d ∈ phaseData p, d.Fits)
    (hs : size (phaseData p) < 2 ^ 31) : PhaseFormat p (encodeAll (phaseData p)) := by
  have hstate : BigEndian.Fits 4 p.state.length := h (.string p.state) (by simp [phaseData])
  have hname : BigEndian.Fits 4 p.name.length := h (.string p.name) (by simp [phaseData])
  have hints : ∀ n ∈ p.next,
      Tagged (IntFormat n) (encodeAll [.unsignedByte TYPE_INTEGER, .int n]) := by
    intro n hn
    have hsub := sublist_of_mem (next_sublist p) hn
    have hfits : BigEndian.Fits 4 n := h (.int n) (hsub.subset (by simp))
    exact tagged_datum (by decide) ⟨hfits, rfl⟩
  have hnext : p.next.length < 2 ^ 31 := length_lt (fun n => by simp) (next_sublist p) hs
  rw [phaseData, encodeAll_flatten]
  apply concat_flatten
  refine .cons ?_ (.cons ?_ (.cons ?_ (.cons ?_ (.cons ?_ (.cons ?_ (.cons ?_ .nil))))))
  · exact ⟨6, tagged_datum (by decide) ⟨by decide, rfl⟩⟩
  · exact tagged_datum (by decide) rfl
  · exact tagged_datum (by decide) ⟨hstate, rfl⟩
  · exact tagged_datum (by decide) rfl
  · exact tagged_datum (by decide) rfl
  · exact tagged_list (by decide) hnext hints
  · exact tagged_datum (by decide) ⟨hname, rfl⟩

theorem subParameterFormat {p : Bytes × Bytes} (h : ∀ d ∈ subParameterData p, d.Fits) :
    SubParameterFormat p (encodeAll (subParameterData p)) := by
  have hkey : BigEndian.Fits 4 p.1.length := h (.string p.1) (by simp [subParameterData])
  have hvalue : BigEndian.Fits 4 p.2.length := h (.string p.2) (by simp [subParameterData])
  have hlen : BigEndian.Fits 4 (2 : Nat) := by decide
  refine ⟨TYPE_STRINGLIST, _, by decide, ⟨[], rfl, hlen, ?_⟩, rfl⟩
  exact List.forall_mem_cons.2 ⟨hkey, List.forall_mem_singleton.2 hvalue⟩

/-- What is written for a program is read as the program, its parameters entered one by one. -/
theorem logicFormat {l : TraCILogic} (h : ∀ d ∈ logicData l, d.Fits)
    (hs : size (logicData l) < 2 ^ 31) :
    LogicFormat { l with subParameter := subParameters l.subParameter.toList }
      (encodeAll (logicData l)) := by
  have hid : BigEndian.Fits 4 l.programID.length := h (.string l.programID) (by simp [logicData])
  have htype : BigEndian.Fits 4 l.type := h (.int l.type) (by simp [logicData])
  have hindex : BigEndian.Fits 4 l.currentPhaseIndex :=
    h (.int l.currentPhaseIndex) (by simp [logicData])
  have hphase : ∀ p ∈ l.phases, PhaseFormat p (encodeAll (phaseData p)) := by
    intro p hp
    have hsub := sublist_of_mem (phases_sublist l) hp
    exact phaseFormat (fun d hd => h d (hsub.subset hd)) (Nat.lt_of_le_of_lt (size_le hsub) hs)
  have hparameter : ∀ p ∈ l.subParameter.toList,
      SubParameterFormat p (encodeAll (subParameterData p)) := by
    intro p hp
    have hsub := sublist_of_mem (subParameters_sublist l) hp
    exact subParameterFormat fun d hd => h d (hsub.subset hd)
  have hphases : l.phases.length < 2 ^ 31 :=
    length_lt (fun p => by simp [phaseData]) (phases_sublist l) hs
  have hparameters : l.subParameter.toList.length < 2 ^ 31 :=
    length_lt (fun p => by simp [subParameterData]) (subParameters_sublist l) hs
  rw [logicData, encodeAll_flatten]
  apply concat_flatten
  refine .cons ?_ (.cons ?_ (.cons ?_ (.cons ?_ (.cons ?_ (.cons ?_ .nil)))))
  · exact ⟨5, tagged_datum (by decide) ⟨by decide, rfl⟩⟩
  · exact tagged_datum (by decide) ⟨hid, rfl⟩
  · exact tagged_datum (by decide) ⟨htype, rfl⟩
  · exact tagged_datum (by decide) ⟨hindex, rfl⟩
  · exact tagged_list (by decide) hphases hphase
  · refine ⟨l.subParameter.toList, ?_, rfl⟩
    rw [subParametersData, ← Std.TreeMap.length_toList]
    exact tagged_list (by decide) hparameters hparameter

/-- The request to set a program. -/
def setRequest (tlsID : Bytes) (l : TraCILogic) : List Datum :=
  Call.variableRequest CMD_SET_TL_VARIABLE TL_COMPLETE_PROGRAM_RYG tlsID (logicData l)

/-- The request fits into a message, and what is of type `int` is an `int`. -/
structure Settable (tlsID : Bytes) (l : TraCILogic) : Prop where
  sized : 4 + size (setRequest tlsID l) < 2 ^ 31
  type : BigEndian.Fits 4 l.type
  currentPhaseIndex : BigEndian.Fits 4 l.currentPhaseIndex
  next : ∀ p ∈ l.phases, ∀ n ∈ p.next, BigEndian.Fits 4 n

/-- The same program; the order in which the parameters have been entered is of no interest. -/
structure Same (l l' : TraCILogic) : Prop where
  eq : l' = { l with subParameter := l'.subParameter }
  subParameter : ∀ key : Bytes, l'.subParameter[key]? = l.subParameter[key]?

theorem plain_phaseData {p : TraCIPhase} (h : ∀ n ∈ p.next, BigEndian.Fits 4 n) :
    ∀ d ∈ phaseData p, d.Plain := by
  refine plain_cons (plain_tagged (by decide) (plain_int (by decide))) ?_
  refine plain_cons (plain_tagged (by decide) (plain_double _)) ?_
  refine plain_cons (plain_tagged (by decide) (plain_string _)) ?_
  refine plain_cons (plain_tagged (by decide) (plain_double _)) ?_
  refine plain_cons (plain_tagged (by decide) (plain_double _)) ?_
  refine plain_cons (plain_list (by decide) fun n hn => ?_) ?_
  · exact plain_tagged (by decide) (plain_int (h n hn))
  · exact plain_cons (plain_tagged (by decide) (plain_string _)) (List.forall_mem_nil _)

theorem plain_subParameterData (p : Bytes × Bytes) : ∀ d ∈ subParameterData p, d.Plain := by
  rw [subParameterData, List.forall_mem_cons, List.forall_mem_cons, List.forall_mem_cons,
    List.forall_mem_singleton]
  exact ⟨plain_unsignedByte (by decide), plain_int (by decide), plain_string _, plain_string _⟩

theorem plain_logicData {tlsID : Bytes} {l : TraCILogic} (h : Settable tlsID l) :
    ∀ d ∈ logicData l, d.Plain := by
  refine plain_cons (plain_tagged (by decide) (plain_int (by decide))) ?_
  refine plain_cons (plain_tagged (by decide) (plain_string _)) ?_
  refine plain_cons (plain_tagged (by decide) (plain_int h.type)) ?_
  refine plain_cons (plain_tagged (by decide) (plain_int h.currentPhaseIndex)) ?_
  refine plain_cons (plain_list (by decide) fun p hp => plain_phaseData (h.next p hp)) ?_
  exact plain_cons (plain_list (by decide) fun p _ => plain_subParameterData p) (List.forall_mem_nil _)

theorem getElem?_subParameters (m : Std.TreeMap Bytes Bytes) (key : Bytes) :
    (subParameters m.toList)[key]? = m[key]? := by
  have hequiv : (Std.TreeMap.ofList m.toList).Equiv (subParameters m.toList) :=
    Std.TreeMap.ofList_equiv_foldl
  rw [← hequiv.getElem?_eq]
  cases h : m[key]? with
  | none =>
    apply Std.TreeMap.getElem?_ofList_of_contains_eq_false
    rw [Std.TreeMap.map_fst_toList_eq_keys, Std.TreeMap.contains_keys,
      Std.TreeMap.contains_eq_isSome_getElem?, h]
    rfl
  | some value =>
    exact Std.TreeMap.getElem?_ofList_of_mem Std.ReflCmp.compare_self
      Std.TreeMap.distinct_keys_toList (Std.TreeMap.mem_toList_iff_getElem?_eq_some.2 h)

/-- The program as it is got. -/
def got (l : TraCILogic) : TraCILogic :=
  { l with subParameter := subParameters l.subParameter.toList }

theorem same_got (l : TraCILogic) : Same l (got l) := ⟨rfl, getElem?_subParameters l.subParameter⟩

theorem setRequest_fits {tlsID : Bytes} {l : TraCILogic} (h : Settable tlsID l) :
    ∀ d ∈ setRequest tlsID l, d.Fits :=
  variableRequest_fits (by decide) (by decide) (plain_logicData h) h.sized

theorem logicData_fits {tlsID : Bytes} {l : TraCILogic} (h : Settable tlsID l) :
    ∀ d ∈ logicData l, d.Fits :=
  fun d hd => setRequest_fits h d (Call.mem_variableRequest hd)

theorem set_exchanged {tlsID : Bytes} {l : TraCILogic} (h : Settable tlsID l) {api : TraCIAPI}
    {sent rest : Bytes} (hon : Online api sent rest) :
    Exchanged (setCompleteRedYellowGreenDefinition tlsID l api).state
      (sent ++ Socket.frame (encodeAll (setRequest tlsID l))) rest :=
  (asks_setValueOf (writeLogic_eq l) (logicData_fits h) h.sized).exchanged (setRequest_fits h) api sent
    rest hon

/-- Programs as they are sent. -/
def SentFormat (logics : List TraCILogic) (bs : Bytes) : Prop :=
  bs = BigEndian.encodeInt 4 logics.length ++ logics.flatMap fun l => encodeAll (logicData l)

/-- What is sent in one message are not too many programs. -/
theorem SentFormat.fits_length {logics : List TraCILogic} {bs : Bytes} (h : SentFormat logics bs)
    (hs : bs.length < 2 ^ 31) : BigEndian.Fits 4 logics.length := by
  have hpos : ∀ l, 1 ≤ size (logicData l) := fun l => by simp [logicData]
  have hcount := length_le_flatMap (f := fun l => encodeAll (logicData l)) hpos logics
  rw [h, List.length_append] at hs
  exact ⟨by omega, by omega⟩

theorem counted_got {tlsID : Bytes} {logics : List TraCILogic} (h : ∀ l ∈ logics, Settable tlsID l)
    (hlen : BigEndian.Fits 4 logics.length) {bs : Bytes} (hbs : SentFormat logics bs) :
    Counted LogicFormat (logics.map got) bs := by
  have heach : ∀ l ∈ logics, LogicFormat (got l) (encodeAll (logicData l)) := by
    intro l hl
    have hle := Call.size_le_variableRequest CMD_SET_TL_VARIABLE TL_COMPLETE_PROGRAM_RYG tlsID
      (logicData l)
    have hs := (h l hl).sized
    rw [setRequest] at hs
    exact logicFormat (logicData_fits (h l hl)) (by omega)
  refine ⟨logics.length, _, hlen, ?_, each_map (each_flatMap heach), hbs⟩
  rw [List.length_map, Int.toNat_natCast]

/-- The programs that are set are the programs that are got if SUMO answers with what it has been sent. -/
theorem definition_roundtrip {tlsID : Bytes} {logics : List TraCILogic}
    (hlogics : ∀ l ∈ logics, Settable tlsID l)
    (hq : (Query.completeRedYellowGreenDefinition tlsID).Sized) :
    (∀ l ∈ logics, ∀ api sent rest, Online api sent rest →
      Exchanged (setCompleteRedYellowGreenDefinition tlsID l api).state
        (sent ++ Socket.frame (encodeAll (setRequest tlsID l))) rest) ∧
    ∀ {api : TraCIAPI} {a : Socket}, api.mySocket = some a → a.connected = true →
      (∀ x ∈ a.sendings, ∃ n, x = .takes n) → ∀ {payload r : Bytes}, Socket.Sendable payload →
      Socket.input.rest a = Socket.frame payload ++ r →
      AnswerFormat CMD_GET_TL_VARIABLE TYPE_COMPOUND SentFormat logics payload →
      ∃ logics' api', getCompleteRedYellowGreenDefinition tlsID api = .ok logics' api' ∧
        List.Forall₂ Same logics logics' := by
  refine ⟨fun l hl api sent rest hon => set_exchanged (hlogics l hl) hon, ?_⟩
  intro api a ha hconn htakes payload r hp hr hanswer
  obtain ⟨description, header, var, id, cs, ds, rest, ⟨hd, hh, hc, hv, hi, ht, hds⟩, hpayload⟩ :=
    hanswer
  have hlen : BigEndian.Fits 4 logics.length := by
    apply SentFormat.fits_length hds
    have hle := congrArg List.length hpayload
    have hlt := hp.2
    simp only [List.length_append] at hle
    omega
  have haccepted : ∀ d ∈ Call.variableRequest CMD_GET_TL_VARIABLE TL_COMPLETE_DEFINITION_RYG tlsID [],
      d.Fits :=
    variableRequest_fits (by decide) (by decide) (List.forall_mem_nil _) hq.1
  have hread := recognises_readCounted recognises_readLogic
  have hon : Online api a.sent (Socket.input.rest a) := ⟨a, ha, hconn, htakes, rfl, rfl⟩
  have hgives : (∃ api', getCompleteRedYellowGreenDefinition tlsID api = .ok (logics.map got) api') ↔ _ :=
    getValue_eq_ok adds_none hq.1 (by decide) hread hon
  obtain ⟨api', hget⟩ := hgives.2 ⟨haccepted, payload, r,
    hp, hr, description, header, var, id, cs, ds, rest,
    ⟨hd, hh, hc, hv, hi, ht, counted_got hlogics hlen hds⟩, hpayload⟩
  refine ⟨logics.map got, api', hget, ?_⟩
  rw [List.forall₂_map_right_iff]
  exact List.forall₂_same.2 fun l _ => same_got l

/-- A program of one phase, with one parameter. -/
def greenLogic : TraCILogic where
  programID := [49]
  type := 0
  currentPhaseIndex := 0
  phases := [{ duration := 31, state := [71, 114], minDur := 5, maxDur := 60, next := [0], name := [] }]
  subParameter := (∅ : Std.TreeMap Bytes Bytes).insert [107] [118]

def greenAnswer : Bytes :=
  okStatus CMD_GET_TL_VARIABLE [] ++ (byte 0 ++ BigEndian.encodeInt 4 0) ++ byte 0xb2 ++
    byte TL_COMPLETE_DEFINITION_RYG ++ encodeString [116] ++ byte TYPE_COMPOUND ++
    (BigEndian.encodeInt 4 1 ++ [greenLogic].flatMap fun l => encodeAll (logicData l)) ++ []

def greenSocket : Socket where
  connected := true
  incoming := [.piece 0 ((Socket.frame greenAnswer).drop 1)]
  sendings := []
  sent := []
  bigEndian := true

def greenClient : TraCIAPI := { TraCIAPI.new true with mySocket := some greenSocket }

theorem definition_roundtrip_green : ∃ logics' api',
    getCompleteRedYellowGreenDefinition [116] greenClient = .ok logics' api' ∧
      List.Forall₂ Same [greenLogic] logics' := by
  have hsettable : ∀ l ∈ [greenLogic], Settable [116] l :=
    List.forall_mem_singleton.2 ⟨by decide +kernel, by decide, by decide, by decide⟩
  have hq : (Query.completeRedYellowGreenDefinition [116]).Sized := ⟨by decide, nofun⟩
  have htakes : ∀ x ∈ greenSocket.sendings, ∃ n, x = .takes n := List.forall_mem_nil _
  have hs : greenClient.mySocket = some greenSocket := rfl
  have hrest : Socket.input.rest greenSocket = Socket.frame greenAnswer ++ [] := by decide +kernel
  apply (definition_roundtrip hsettable hq).2 hs rfl htakes (by decide +kernel) hrest
  exact ⟨[], byte 0 ++ BigEndian.encodeInt 4 0, TL_COMPLETE_DEFINITION_RYG, [116], encodeString [116], _,
    [], ⟨by decide, .inr ⟨0, by decide, rfl⟩, by decide, by decide, ⟨by decide, rfl⟩, by decide, rfl⟩, rfl⟩

end TrafficLightScope

/-! ## Shapes of polygons -/

namespace PolygonScope

def cornerData (pos : TraCIPosition) : List Datum := [.double pos.x, .double pos.y]

/-- The number of corners, as a byte if it is one. -/
def countData (n : Nat) : List Datum :=
  if n < 256 then [.unsignedByte (toInt n)] else [.unsignedByte 0, .int (toInt n)]

/-- What is written for a shape. -/
def shapeData (shape : List TraCIPosition) : List Datum :=
  .unsignedByte TYPE_POLYGON :: (countData shape.length ++ shape.flatMap cornerData)

/-- The request to set a shape. -/
def shapeRequest (polygonID : Bytes) (shape : List TraCIPosition) : List Datum :=
  Call.variableRequest CMD_SET_POLYGON_VARIABLE VAR_SHAPE polygonID (shapeData shape)

/-- The shape as it is got. -/
def flat (shape : List TraCIPosition) : List TraCIPosition := shape.map fun pos => { pos with z := 0 }

theorem writeShape_eq (shape : List TraCIPosition) : writeShape shape = writeAll (shapeData shape) := by
  have hcorners : writeAll (shape.flatMap cornerData) = shape.forM fun pos => (do
      writeDouble pos.x
      writeDouble pos.y) := by
    rw [writeAll_flatMap]
    simp only [cornerData, writeAll, List.forM, Datum.write, bind_pure_unit]
  have hdata : writeAll (shapeData shape) = (do
      writeUnsignedByte TYPE_POLYGON
      writeAll (countData shape.length)
      writeAll (shape.flatMap cornerData)) :=
    congrArg (writeUnsignedByte TYPE_POLYGON >>= fun _ => ·) (writeAll_append ..)
  rw [hdata, hcorners, writeShape, countData]
  split
  · simp only [writeAll, List.forM, Datum.write, bind_pure_unit]
  · simp only [writeAll, List.forM, Datum.write, bind_pure_unit, bind_assoc]

theorem plain_countData {n : Nat} (h : n < 2 ^ 31) : ∀ d ∈ countData n, d.Plain := by
  rw [countData]
  split
  next hlt =>
    have hfits : BigEndian.Fits 4 (n : Int) := ⟨by omega, by omega⟩
    rw [toInt_of_fits hfits]
    exact List.forall_mem_singleton.2 (plain_unsignedByte ⟨by omega, by omega⟩)
  next => exact plain_tagged (by decide) (plain_length n)

theorem length_shape_lt {polygonID : Bytes} {shape : List TraCIPosition}
    (hs : 4 + size (shapeRequest polygonID shape) < 2 ^ 31) : shape.length < 2 ^ 31 := by
  have hle := Call.size_le_variableRequest CMD_SET_POLYGON_VARIABLE VAR_SHAPE polygonID (shapeData shape)
  rw [shapeRequest] at hs
  have hcorner : ∀ pos, 1 ≤ size (cornerData pos) := fun pos => by simp [cornerData]
  have hsub : (([unsignedByte TYPE_POLYGON] ++ countData shape.length) ++
      shape.flatMap cornerData).Sublist (shapeData shape) :=
    List.Sublist.refl (shapeData shape)
  exact length_lt hcorner hsub (by omega)

theorem plain_shapeData {shape : List TraCIPosition} (h : shape.length < 2 ^ 31) :
    ∀ d ∈ shapeData shape, d.Plain := by
  rw [shapeData, List.forall_mem_cons, List.forall_mem_append, List.forall_mem_flatMap]
  refine ⟨plain_unsignedByte (by decide), plain_countData h, fun pos _ => ?_⟩
  exact List.forall_mem_cons.2 ⟨plain_double _, List.forall_mem_singleton.2 (plain_double _)⟩

theorem encodeAll_countData {n : Nat} (h : n < 2 ^ 31) : encodeAll (countData n) =
    if n < 256 then byte n else byte 0 ++ BigEndian.encodeInt 4 n := by
  have hfits : BigEndian.Fits 4 (n : Int) := ⟨by omega, by omega⟩
  rw [countData, toInt_of_fits hfits]
  split
  · exact List.append_nil _
  · exact congrArg _ (List.append_nil _)

/-- What is written for a shape that is not empty is read as the shape. -/
theorem polygonFormat {shape : List TraCIPosition} (h : shape.length < 2 ^ 31) (hne : shape ≠ []) :
    PolygonFormat (flat shape)
      (encodeAll (countData shape.length ++ shape.flatMap cornerData)) := by
  have hcorner : ∀ pos : TraCIPosition, encodeAll (cornerData pos) = double pos.x ++ double pos.y :=
    fun pos => congrArg (double pos.x ++ ·) (List.append_nil _)
  have hcorners : Each (fun (p : TraCIPosition) bs => p.z = 0 ∧ bs = double p.x ++ double p.y)
      (flat shape) (shape.flatMap fun pos => encodeAll (cornerData pos)) :=
    each_map (each_flatMap fun pos _ => ⟨rfl, hcorner pos⟩)
  have hlen : (flat shape).length = shape.length := List.length_map _
  rw [encodeAll_append, encodeAll_countData h, encodeAll_flatMap]
  by_cases hlt : shape.length < 256
  · refine .inl ⟨_, mt List.map_eq_nil_iff.1 hne, ?_, hcorners, ?_⟩
    · rw [hlen]
      exact ⟨by omega, by omega⟩
    · rw [hlen, if_pos hlt]
  · refine .inr ⟨_, ⟨shape.length, _, ⟨by omega, by omega⟩, ?_, hcorners, rfl⟩, ?_⟩
    · rw [Int.toNat_natCast]
      exact hlen
    · rw [if_neg hlt, List.append_assoc]

/-- A zero alone is no polygon. -/
theorem not_polygonFormat {ps : List TraCIPosition} {bs r : Bytes} (h : byte 0 = bs ++ r) :
    ¬ PolygonFormat ps bs := by
  have hlen := congrArg List.length h
  rw [length_byte, List.length_append] at hlen
  rintro (⟨cs, hne, hbyte, -, rfl⟩ | ⟨cs, ⟨n, ds, -, -, -, rfl⟩, rfl⟩)
  · have hpos := List.length_pos_iff.2 hne
    have hboth : byte 0 ++ [] = byte ps.length ++ (cs ++ r) := by
      rw [List.append_nil, h, List.append_assoc]
    have hd := congrArg BigEndian.decode (List.append_inj hboth rfl).1
    rw [byte, byte, BigEndian.decode_encode_of_lt (by decide),
      BigEndian.decode_encode_of_lt (by have := hbyte.2; omega)] at hd
    omega
  · simp only [List.length_append, length_byte, BigEndian.length_encodeInt] at hlen
    omega

/-- The message that says what has been set, and nothing else. -/
def Answers (polygonID : Bytes) (shape : List TraCIPosition) (payload : Bytes) : Prop :=
  ∃ description header, description.length ≤ 248 ∧ LengthField header ∧
    payload = okStatus CMD_GET_POLYGON_VARIABLE description ++ header ++
      byte (CMD_GET_POLYGON_VARIABLE + 0x10) ++ byte VAR_SHAPE ++ encodeString polygonID ++
      encodeAll (shapeData shape)

/-- A shape that is set is the shape that is got if SUMO answers with what it has been sent, unless it
is empty: then the answer cannot be read. -/
theorem shape_roundtrip {polygonID : Bytes} {shape : List TraCIPosition}
    (hs : 4 + size (shapeRequest polygonID shape) < 2 ^ 31) :
    (∀ api sent rest, Online api sent rest → Exchanged (setShape polygonID shape api).state
      (sent ++ Socket.frame (encodeAll (shapeRequest polygonID shape))) rest) ∧
    ∀ {api : TraCIAPI} {a : Socket}, api.mySocket = some a → a.connected = true →
      (∀ x ∈ a.sendings, ∃ n, x = .takes n) → ∀ {payload r : Bytes}, Socket.Sendable payload →
      Socket.input.rest a = Socket.frame payload ++ r → Answers polygonID shape payload →
      ∀ shape', (∃ api', getShape polygonID api = .ok shape' api') ↔ shape ≠ [] ∧ shape' = flat shape := by
  have hshape := length_shape_lt hs
  have hrequest : ∀ d ∈ shapeRequest polygonID shape, d.Fits :=
    variableRequest_fits (by decide) (by decide) (plain_shapeData hshape) hs
  have hdata : ∀ d ∈ shapeData shape, d.Fits := fun d hd => hrequest d (Call.mem_variableRequest hd)
  refine ⟨(asks_setValueOf (writeShape_eq shape) hdata hs).exchanged hrequest, ?_⟩
  intro api a ha hconn htakes payload r hp hr ⟨description, header, hd, hh, hpayload⟩ shape'
  have hc : (Call.get .polygon CMD_GET_POLYGON_VARIABLE VAR_SHAPE polygonID).Sized :=
    ⟨Nat.lt_of_le_of_lt (Nat.add_le_add_left (size_variableRequest_le ..) 4) hs, nofun⟩
  have haccepted : ∀ d ∈ Call.variableRequest CMD_GET_POLYGON_VARIABLE VAR_SHAPE polygonID [], d.Fits :=
    variableRequest_fits (by decide) (by decide) (List.forall_mem_nil _) hc.1
  have hid : StringFormat polygonID (encodeString polygonID) :=
    ⟨haccepted (.string polygonID) (by simp [Call.variableRequest, announced, Call.variableBody]), rfl⟩
  have hon : Online api a.sent (Socket.input.rest a) := ⟨a, ha, hconn, htakes, rfl, rfl⟩
  have hgives : ∀ shape', (∃ api', getShape polygonID api = .ok shape' api') ↔ _ :=
    fun shape' => getValue_eq_ok adds_none hc.1 (by decide) recognises_readPolygon hon
  have hbytes : encodeAll (shapeData shape) = byte TYPE_POLYGON ++
      encodeAll (countData shape.length ++ shape.flatMap cornerData) := rfl
  rw [hbytes, ← List.append_assoc] at hpayload
  by_cases hne : shape = []
  · refine iff_of_false ?_ fun h => h.1 hne
    intro hget
    obtain ⟨-, payload', r', hp', hr', hanswer⟩ := (hgives shape').1 hget
    obtain rfl := frame_unique hp hp' hr hr'
    obtain rfl := hne
    obtain ⟨bs, tail, htail, hpolygon⟩ := value_of_answer (by decide) (by decide) recognises_readPolygon
      hanswer ⟨hd, hh, by decide, by decide, hid, by decide⟩ hpayload
    exact not_polygonFormat htail hpolygon
  · obtain ⟨api', hget⟩ := (hgives (flat shape)).2 ⟨haccepted, payload, r, hp, hr, description, header,
      VAR_SHAPE, polygonID, encodeString polygonID, _, [], ⟨hd, hh, by decide, by decide, hid, by decide,
        polygonFormat hshape hne⟩, hpayload.trans (List.append_nil _).symm⟩
    rw [and_iff_right hne]
    constructor
    · rintro ⟨api'', hget'⟩
      have heq := hget.symm.trans hget'
      cases heq
      rfl
    · rintro rfl
      exact ⟨api', hget⟩

def segment : List TraCIPosition := [{ x := 1, y := 2, z := 3 }, { x := 4, y := 5 }]

def segmentAnswer : Bytes :=
  okStatus CMD_GET_POLYGON_VARIABLE [] ++ byte 50 ++ byte 0xb8 ++ byte VAR_SHAPE ++
    encodeString [112] ++ encodeAll (shapeData segment)

def segmentSocket : Socket where
  connected := true
  incoming := [.piece 0 ((Socket.frame segmentAnswer).drop 1)]
  sendings := []
  sent := []
  bigEndian := false

def segmentClient : TraCIAPI := { TraCIAPI.new false with mySocket := some segmentSocket }

theorem shape_roundtrip_segment : ∃ api', getShape [112] segmentClient =
    .ok [{ x := 1, y := 2, z := 0 }, { x := 4, y := 5, z := 0 }] api' := by
  have hsize : 4 + size (shapeRequest [112] segment) < 2 ^ 31 := by decide +kernel
  have htakes : ∀ x ∈ segmentSocket.sendings, ∃ n, x = .takes n := List.forall_mem_nil _
  have hs : segmentClient.mySocket = some segmentSocket := rfl
  have hrest : Socket.input.rest segmentSocket = Socket.frame segmentAnswer ++ [] := by decide +kernel
  have hanswer : Answers [112] segment segmentAnswer :=
    ⟨[], byte 50, by decide, .inl ⟨50, by decide, by decide, rfl⟩, rfl⟩
  apply ((shape_roundtrip hsize).2 hs rfl htakes (by decide +kernel) hrest hanswer _).2
  exact ⟨List.cons_ne_nil _ _, rfl⟩

end PolygonScope

end Cosidia.Traci
