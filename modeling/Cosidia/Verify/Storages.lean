import Cosidia.Traci.Storage

/-!
# What a storage gives back

Each of the reading operations recognises a format, which is the one the writing operation produces,
on hosts of either byte order. A sequence of reads stays within the bytes, and its behaviour is
undefined exactly if it comes to a string with a negative length.
-/

namespace Cosidia.Traci

open EStateM BigEndian

theorem toInt_of_fits {v : Int} (h : Fits 4 v) : toInt v = v := by
  simp only [Fits] at h
  rw [toInt, BitVec.toInt_ofInt, Int.bmod_eq_of_le] <;> omega

theorem toInt_toUnsigned (v : Int) : toInt (toUnsigned v) = toInt v := by
  rw [toInt, toUnsigned, BitVec.ofInt_natCast, BitVec.ofNat_toNat, BitVec.setWidth_eq, toInt]

theorem toInt_le {v : Int} (h : 0 ≤ v) : toInt v ≤ v := by
  rw [toInt, BitVec.toInt_ofInt, Int.bmod_def]
  split <;> omega

namespace Storage

/-- What a storage still holds. -/
def input : Input Storage UInt8 where
  rest s := s.store.drop s.iter
  skip n s := { s with
    iter := min (s.iter + n) s.store.length, iter_le := Nat.min_le_right _ _ }
  rest_skip n s := by
    change s.store.drop (min (s.iter + n) s.store.length) = _
    rw [List.drop_drop]
    rcases Nat.le_total (s.iter + n) s.store.length with h | h
    · rw [Nat.min_eq_left h]
    · rw [Nat.min_eq_right h, List.drop_length, List.drop_eq_nil_of_le h]
  skip_zero s := by
    cases s with
    | mk store iter bigEndian iter_le => simp [Nat.min_eq_left iter_le]
  skip_skip m n s := by simp only [Storage.mk.injEq, true_and, and_true]; omega

variable {s s' : Storage} {bs r : Bytes}

theorem rest_eq (s : Storage) : input.rest s = s.store.drop s.iter := rfl

theorem rest_length (s : Storage) : ((input.rest s).length : Int) = s.remaining := by
  have h := s.iter_le
  rw [rest_eq, remaining, List.length_drop]
  omega

/-! ## Reading -/

theorem recognises_readCharUnsafe :
    Recognises input readCharUnsafe fun b bs => bs = [b] := by
  intro s b s'
  have he : readCharUnsafe s = if h : s.iter < s.store.length then
      .ok s.store[s.iter] { s with iter := s.iter + 1, iter_le := h } else .error .undefined s := by
    simp only [readCharUnsafe, bind_apply, get_apply]
    split <;> rfl
  rw [he]
  split
  next h =>
    have hrest : input.rest s = s.store[s.iter] :: s.store.drop (s.iter + 1) :=
      List.drop_eq_getElem_cons h
    have hskip : ({ s with iter := s.iter + 1, iter_le := h } : Storage) = input.skip 1 s := by
      simp only [input, Storage.mk.injEq, true_and, and_true]
      omega
    rw [Result.ok.injEq, hskip]
    constructor
    · rintro ⟨rfl, rfl⟩
      exact ⟨_, _, hrest, rfl, rfl⟩
    · rintro ⟨_, r, hs, rfl, rfl⟩
      exact ⟨(List.cons.inj (hrest.symm.trans hs)).1, rfl⟩
  next h =>
    apply iff_of_false nofun
    rintro ⟨_, r, hs, rfl, -⟩
    rw [rest_eq, List.drop_eq_nil_of_le (Nat.not_lt.1 h)] at hs
    cases hs

theorem each_chars_iff {cs : Bytes} : Recognises.Each (fun b bs => bs = [b]) cs bs ↔ bs = cs := by
  have hF : ∀ (b : UInt8) (bs : Bytes), bs = [b] ↔ True ∧ bs = (fun b => [b]) b :=
    fun _ _ => (true_and _).symm.to_iff
  rw [Recognises.each_iff hF, List.flatMap_singleton']
  simp

theorem recognises_chars (n : Nat) :
    Recognises input (replicateM readCharUnsafe n) fun cs bs => cs.length = n ∧ bs = cs :=
  (recognises_readCharUnsafe.replicateM n).congr fun _ _ => and_congr_right fun _ => each_chars_iff

theorem checkReadSafe_apply (n : Nat) (s : Storage) : checkReadSafe n s =
    if s.remaining < toInt n then .error (notReadSafe n s.remaining) s else .ok () s := by
  rw [checkReadSafe, bind_apply, get_apply]
  dsimp only
  split
  · exact throw_apply _ _
  · exact pure_apply _ _

theorem checkReadSafe_of_le {n : Nat} (h : toInt n ≤ s.remaining) :
    checkReadSafe n s = .ok () s := by
  rw [checkReadSafe_apply, if_neg (Int.not_lt.2 h)]

theorem checkReadSafe_eq_ok {n : Nat} {u : Unit} (h : checkReadSafe n s = .ok u s') :
    toInt n ≤ s.remaining ∧ s' = s := by
  rw [checkReadSafe_apply] at h
  split at h
  next => cases h
  next hle =>
    cases h
    exact ⟨Int.not_lt.1 hle, rfl⟩

/-- A read in the byte order of the host, of whose result only the number is used. -/
theorem recognises_number {α : Type} (size : Nat) (hsize : size < 2 ^ 31) (f : Nat → α) :
    Recognises input (do
      let p ← readByEndianess size
      return f (ofMemory (← get).bigEndian p))
      fun v bs => bs.length = size ∧ v = f (decode bs) := by
  have hto : toInt size = size := toInt_of_fits ⟨by omega, by omega⟩
  have hread : ∀ {s s' : Storage} {p : Bytes}, readByEndianess size s = .ok p s' ↔
      ∃ cs r, input.rest s = cs ++ r ∧ cs.length = size ∧ s' = input.skip cs.length s ∧
        p = if s.bigEndian then cs else cs.reverse := by
    intro s s' p
    simp only [readByEndianess, bind_eq_ok, get_eq_ok, pure_eq_ok]
    constructor
    · rintro ⟨_, s₁, hc, cs, s₂, hcs, s₃, _, ⟨rfl, rfl⟩, rfl, rfl⟩
      obtain ⟨-, rfl⟩ := checkReadSafe_eq_ok hc
      obtain ⟨bs, r, hs, ⟨hlen, rfl⟩, rfl⟩ := (recognises_chars size _ _ _).1 hcs
      exact ⟨bs, r, hs, hlen, rfl, rfl⟩
    · rintro ⟨cs, r, hs, hlen, rfl, rfl⟩
      have hle : toInt size ≤ s.remaining := by
        rw [hto, ← rest_length, hs, List.length_append]
        omega
      exact ⟨_, _, checkReadSafe_of_le hle, cs, _, (recognises_chars size).ok ⟨hlen, rfl⟩ hs, _, _,
        ⟨rfl, rfl⟩, rfl, rfl⟩
  intro s v s'
  simp only [bind_eq_ok, hread, get_eq_ok, pure_eq_ok]
  have hval : ∀ cs : Bytes, ofMemory s.bigEndian (if s.bigEndian then cs else cs.reverse) =
      decode cs := by
    intro cs
    rw [ofMemory]
    cases s.bigEndian with
    | true => rfl
    | false => rw [if_neg Bool.false_ne_true, if_neg Bool.false_ne_true, List.reverse_reverse]
  constructor
  · rintro ⟨p, s₁, ⟨cs, r, hs, hlen, rfl, rfl⟩, s₂, _, ⟨rfl, rfl⟩, rfl, rfl⟩
    exact ⟨cs, r, hs, ⟨hlen, congrArg f (hval cs)⟩, rfl⟩
  · rintro ⟨cs, r, hs, ⟨hlen, rfl⟩, rfl⟩
    exact ⟨_, _, ⟨cs, r, hs, hlen, rfl, rfl⟩, _, _, ⟨rfl, rfl⟩, congrArg f (hval cs), rfl⟩

theorem recognises_readChar : Recognises input readChar fun b bs => bs = [b] := by
  intro s b s'
  simp only [readChar, bind_apply, get_apply, validPos, Bool.not_eq_true', decide_eq_false_iff_not]
  split
  next h =>
    apply iff_of_false nofun
    rintro ⟨_, r, hs, rfl, -⟩
    rw [rest_eq, Decidable.not_not.1 h, List.drop_length] at hs
    cases hs
  next => exact recognises_readCharUnsafe s b s'

theorem recognises_readUnsignedByte : Recognises input readUnsignedByte
    fun v bs => (0 ≤ v ∧ v < 256) ∧ bs = BigEndian.encode 1 v.toNat := by
  apply (recognises_readChar.bind fun b => Recognises.pure _).congr
  intro v bs
  constructor
  · rintro ⟨b, _, _, rfl, rfl, rfl, rfl⟩
    have hb := b.toNat_lt
    refine ⟨⟨by omega, by omega⟩, ?_⟩
    rw [Int.toNat_natCast, List.append_nil, encode_eq_iff (by omega)]
    exact ⟨rfl, decode_singleton b⟩
  · rintro ⟨hv, rfl⟩
    refine ⟨UInt8.ofNat v.toNat, _, [], (List.append_nil _).symm, rfl, ?_, rfl⟩
    rw [UInt8.toNat_ofNat']
    omega

theorem recognises_readSigned {n : Nat} (h0 : n ≠ 0) (hn : n < 2 ^ 31) :
    Recognises input (readSigned n) fun v bs => Fits n v ∧ bs = encodeInt n v := by
  apply (recognises_number n hn fun k => (k : Int).bmod (256 ^ n)).congr
  intro v bs
  constructor
  · rintro ⟨rfl, rfl⟩
    have hne : bs ≠ [] := fun h => h0 (List.length_eq_zero_iff.2 h)
    exact ⟨fits_decodeInt hne, (encodeInt_decodeInt bs).symm⟩
  · rintro ⟨hv, rfl⟩
    have hd := decodeInt_encodeInt h0 hv
    rw [decodeInt, length_encodeInt] at hd
    exact ⟨length_encodeInt n v, hd.symm⟩

/-- The two branches of `readByte` are the two's complement of the byte. -/
theorem decodeInt_singleton (b : UInt8) :
    decodeInt [b] = if (b.toNat : Int) < 128 then (b.toNat : Int) else (b.toNat : Int) - 256 := by
  have hb := b.toNat_lt
  rw [decodeInt, decode_singleton, List.length_singleton, Int.bmod_def]
  split <;> split <;> omega

/-- A number of a type whose values are the numbers of `size` bytes. -/
theorem recognises_unsigned {α : Type} (size : Nat) (hsize : size < 2 ^ 31) {f : Nat → α}
    {g : α → Nat} (hfg : ∀ v, f (g v) = v) (hgf : ∀ k < 256 ^ size, g (f k) = k)
    (hg : ∀ v, g v < 256 ^ size) :
    Recognises input (do
      let p ← readByEndianess size
      return f (ofMemory (← get).bigEndian p))
      fun v bs => True ∧ bs = BigEndian.encode size (g v) := by
  apply (recognises_number size hsize f).congr
  intro v bs
  rw [encode_eq_iff (hg v), true_and]
  constructor
  · rintro ⟨rfl, rfl⟩
    exact ⟨rfl, (hgf _ (decode_lt bs)).symm⟩
  · rintro ⟨hlen, hd⟩
    exact ⟨hlen, by rw [hd, hfg]⟩

theorem recognises_readFloat : Recognises input readFloat
    fun v bs => True ∧ bs = BigEndian.encode 4 v.toNat :=
  recognises_unsigned 4 (by decide) (fun _ => UInt32.ofNat_toNat)
    (fun _ h => UInt32.toNat_ofNat_of_lt' h) fun v => v.toNat_lt

theorem recognises_readDouble : Recognises input readDouble
    fun v bs => True ∧ bs = BigEndian.encode 8 v.toNat :=
  recognises_unsigned 8 (by decide) (fun _ => UInt64.ofNat_toNat)
    (fun _ h => UInt64.toNat_ofNat_of_lt' h) fun v => v.toNat_lt

theorem recognises_readByte : Recognises input readByte
    fun v bs => Fits 1 v ∧ bs = encodeInt 1 v := by
  have hvalue : ∀ b : UInt8, Recognises input
      (if (b.toNat : Int) < 128 then pure (b.toNat : Int) else pure ((b.toNat : Int) - 256) :
        StorageM Int)
      fun v bs => v = decodeInt [b] ∧ bs = [] := by
    intro b
    apply (Recognises.ite (Recognises.pure _) (Recognises.pure _)).congr
    intro v bs
    rw [decodeInt_singleton]
    split <;> rfl
  apply (recognises_readChar.bind hvalue).congr
  intro v bs
  constructor
  · rintro ⟨b, _, _, rfl, rfl, rfl, rfl⟩
    exact ⟨fits_decodeInt (List.cons_ne_nil b []), (encodeInt_decodeInt [b]).symm⟩
  · rintro ⟨hv, rfl⟩
    obtain ⟨b, hb⟩ := List.length_eq_one_iff.1 (length_encodeInt 1 v)
    have hd := decodeInt_encodeInt (by decide) hv
    rw [hb] at hd
    exact ⟨b, _, [], (List.append_nil _).symm, hb, hd.symm, rfl⟩

theorem recognises_take (len : Int) :
    Recognises input (take len) fun v bs => (0 ≤ len ∧ (v.length : Int) = len) ∧ bs = v := by
  intro s v s'
  have he : take len s = if h : 0 ≤ len ∧ s.iter + len.toNat ≤ s.store.length then
      .ok ((s.store.drop s.iter).take len.toNat) { s with iter := s.iter + len.toNat, iter_le := h.2 }
      else .error .undefined s := by
    rw [take, bind_apply, get_apply]
    dsimp only
    split <;> rfl
  rw [he]
  split
  next h =>
    have hskip : ({ s with iter := s.iter + len.toNat, iter_le := h.2 } : Storage) =
        input.skip len.toNat s := by
      simp only [input, Storage.mk.injEq, true_and, and_true]
      omega
    have hlen : ((input.rest s).take len.toNat).length = len.toNat := by
      rw [List.length_take, rest_eq, List.length_drop]
      omega
    rw [Result.ok.injEq, hskip, ← rest_eq]
    constructor
    · rintro ⟨rfl, rfl⟩
      refine ⟨_, _, (List.take_append_drop len.toNat _).symm, ⟨⟨h.1, ?_⟩, rfl⟩, by rw [hlen]⟩
      rw [hlen, Int.toNat_of_nonneg h.1]
    · rintro ⟨bs, r, hs, ⟨⟨-, hv⟩, rfl⟩, rfl⟩
      have hto : len.toNat = bs.length := by omega
      rw [hs, hto, List.take_left]
      exact ⟨rfl, rfl⟩
  next h =>
    apply iff_of_false nofun
    rintro ⟨bs, r, hs, ⟨⟨h0, hv⟩, rfl⟩, rfl⟩
    have hle := congrArg List.length hs
    rw [rest_eq, List.length_drop, List.length_append] at hle
    have := s.iter_le
    omega

/-- A string on the wire: its length, then its bytes. -/
def encodeString (v : Bytes) : Bytes := encodeInt 4 v.length ++ v

theorem recognises_readString : Recognises input readString
    fun v bs => Fits 4 v.length ∧ bs = encodeString v := by
  have hchars : ∀ len : Int, Recognises input (do checkReadSafe (toUnsigned len); take len)
      fun v bs => (0 ≤ len ∧ (v.length : Int) = len) ∧ bs = v := by
    intro len s v s'
    rw [bind_apply, checkReadSafe_apply, toInt_toUnsigned]
    by_cases h : s.remaining < toInt len
    · rw [if_pos h]
      apply iff_of_false nofun
      rintro ⟨bs, r, hs, ⟨⟨h0, hv⟩, rfl⟩, rfl⟩
      have hle := toInt_le h0
      rw [← rest_length, hs, List.length_append] at h
      omega
    · rw [if_neg h]
      exact recognises_take len s v s'
  apply ((recognises_readSigned (by decide) (by decide)).bind hchars).congr
  intro v l
  constructor
  · rintro ⟨len, _, _, rfl, ⟨hf, rfl⟩, ⟨-, rfl⟩, rfl⟩
    exact ⟨hf, rfl⟩
  · rintro ⟨hf, rfl⟩
    exact ⟨_, _, _, rfl, ⟨hf, rfl⟩, ⟨Int.natCast_nonneg _, rfl⟩, rfl⟩

/-- A list on the wire: how many elements it has, then the elements. -/
def encodeList {α : Type} (encode : α → Bytes) (as : List α) : Bytes :=
  encodeInt 4 as.length ++ as.flatMap encode

theorem recognises_readList {α : Type} {read : StorageM α} {P : α → Prop} {encode : α → Bytes}
    (h : Recognises input read fun a bs => P a ∧ bs = encode a) :
    Recognises input (readList read)
      fun as bs => (Fits 4 as.length ∧ ∀ a ∈ as, P a) ∧ bs = encodeList encode as := by
  apply ((recognises_readSigned (by decide) (by decide)).bind fun len =>
    Recognises.ite (Recognises.throw .lengthError) (h.replicateM len.toNat)).congr
  intro as l
  constructor
  · rintro ⟨len, _, cs, rfl, ⟨hf, rfl⟩, has⟩
    split at has
    next => exact has.elim
    next h0 =>
      obtain ⟨hlen, heach⟩ := has
      obtain ⟨hP, rfl⟩ := (Recognises.each_iff fun _ _ => Iff.rfl).1 heach
      have hcast : len = as.length := by omega
      rw [hcast] at hf ⊢
      exact ⟨⟨hf, hP⟩, rfl⟩
  · rintro ⟨⟨hf, hP⟩, rfl⟩
    refine ⟨_, _, _, rfl, ⟨hf, rfl⟩, ?_⟩
    rw [if_neg (Int.not_lt.2 (Int.natCast_nonneg _))]
    exact ⟨(Int.toNat_natCast _).symm, (Recognises.each_iff fun _ _ => Iff.rfl).2 ⟨hP, rfl⟩⟩

/-! ## Writing -/

/-- The storage after something has been written. -/
def appended (bs : Bytes) (s : Storage) : Storage := (append bs s).state

theorem appended_appended (bs cs : Bytes) (s : Storage) :
    (s.appended bs).appended cs = s.appended (bs ++ cs) := by
  simp only [appended, append, modify_apply, Result.state_ok, List.append_assoc]

theorem appended_nil (hs : s.iter = 0) : s.appended [] = s := by
  obtain ⟨store, iter, bigEndian, iter_le⟩ := s
  cases hs
  simp only [appended, append, modify_apply, Result.state_ok, List.append_nil]

theorem append_apply (bs : Bytes) (s : Storage) : append bs s = .ok () (s.appended bs) := rfl

/-- On every host, what is appended is the number with its most significant byte first. -/
theorem writeByEndianess_memory (size value : Nat) (s : Storage) :
    (do writeByEndianess (memory (← get).bigEndian size value) : StorageM Unit) s =
      .ok () (s.appended (BigEndian.encode size value)) := by
  rw [bind_apply, get_apply]
  dsimp only
  rw [writeByEndianess, bind_apply, get_apply]
  dsimp only
  rw [memory, append_apply]
  cases s.bigEndian with
  | true => rfl
  | false => rw [if_neg Bool.false_ne_true, if_neg Bool.false_ne_true, List.reverse_reverse]

theorem writeSigned_apply (size : Nat) (value : Int) (s : Storage) :
    writeSigned size value s = .ok () (s.appended (encodeInt size value)) :=
  writeByEndianess_memory size _ s

theorem writeString_apply {v : Bytes} (h : Fits 4 v.length) (s : Storage) :
    writeString v s = .ok () (s.appended (encodeString v)) := by
  rw [writeString, bind_apply, writeInt, toInt_of_fits h, writeSigned_apply]
  exact (append_apply v _).trans (congrArg _ (appended_appended _ _ s))

/-- A loop each round of which appends. -/
theorem forM_apply {α : Type} {write : α → StorageM Unit} {encode : α → Bytes} {as : List α}
    (h : ∀ a ∈ as, ∀ s, write a s = .ok () (s.appended (encode a))) (bs : Bytes) (s : Storage) :
    as.forM write (s.appended bs) = .ok () (s.appended (bs ++ as.flatMap encode)) := by
  induction as generalizing bs with
  | nil => rw [List.flatMap_nil, List.append_nil]; rfl
  | cons a as ih =>
    obtain ⟨ha, has⟩ := List.forall_mem_cons.1 h
    rw [List.forM, bind_apply, ha]
    dsimp only
    rw [appended_appended, ih has, List.flatMap_cons, List.append_assoc]

theorem writeList_apply {α : Type} {write : α → StorageM Unit} {encode : α → Bytes} {as : List α}
    (hlen : Fits 4 as.length) (h : ∀ a ∈ as, ∀ s, write a s = .ok () (s.appended (encode a)))
    (s : Storage) :
    (do writeInt (toInt as.length); as.forM write) s = .ok () (s.appended (encodeList encode as)) := by
  rw [bind_apply, writeInt, toInt_of_fits hlen, writeSigned_apply]
  exact forM_apply h _ s

/-! ## Sequences of values -/

/-- The kinds of values with operations of their own. -/
inductive Kind where
  | char
  | byte
  | unsignedByte
  | short
  | int
  | float
  | double
  | string
  | stringList
  | doubleList
  deriving DecidableEq

inductive Datum where
  | char (value : UInt8)
  | byte (value : Int)
  | unsignedByte (value : Int)
  | short (value : Int)
  | int (value : Int)
  | float (value : Single)
  | double (value : Double)
  | string (value : Bytes)
  | stringList (value : List Bytes)
  | doubleList (value : List Double)
  deriving DecidableEq

namespace Datum

@[simp] def kind : Datum → Kind
  | char _ => .char
  | byte _ => .byte
  | unsignedByte _ => .unsignedByte
  | short _ => .short
  | int _ => .int
  | float _ => .float
  | double _ => .double
  | string _ => .string
  | stringList _ => .stringList
  | doubleList _ => .doubleList

def write : Datum → StorageM Unit
  | char value => writeChar value
  | byte value => writeByte value
  | unsignedByte value => writeUnsignedByte value
  | short value => writeShort value
  | int value => writeInt value
  | float value => writeFloat value
  | double value => writeDouble value
  | string value => writeString value
  | stringList value => writeStringList value
  | doubleList value => writeDoubleList value

/-- The value is one of its type, and as long as an `int` can tell. -/
@[simp] def Fits : Datum → Prop
  | char _ | float _ | double _ => True
  | byte value => BigEndian.Fits 1 value
  | unsignedByte value => 0 ≤ value ∧ value < 256
  | short value => BigEndian.Fits 2 value
  | int value => BigEndian.Fits 4 value
  | string value => BigEndian.Fits 4 value.length
  | stringList value =>
    BigEndian.Fits 4 value.length ∧ ∀ v ∈ value, BigEndian.Fits 4 (v.length : Int)
  | doubleList value => BigEndian.Fits 4 value.length

@[simp] def encode : Datum → Bytes
  | char value => [value]
  | byte value => encodeInt 1 value
  | unsignedByte value => BigEndian.encode 1 value.toNat
  | short value => encodeInt 2 value
  | int value => encodeInt 4 value
  | float value => BigEndian.encode 4 value.toNat
  | double value => BigEndian.encode 8 value.toNat
  | string value => encodeString value
  | stringList value => encodeList encodeString value
  | doubleList value => encodeList (fun v => BigEndian.encode 8 v.toNat) value

end Datum

def Kind.read : Kind → StorageM Datum
  | char => return .char (← readChar)
  | byte => return .byte (← readByte)
  | unsignedByte => return .unsignedByte (← readUnsignedByte)
  | short => return .short (← readShort)
  | int => return .int (← readInt)
  | float => return .float (← readFloat)
  | double => return .double (← readDouble)
  | string => return .string (← readString)
  | stringList => return .stringList (← readStringList)
  | doubleList => return .doubleList (← readDoubleList)

def writeAll (data : List Datum) : StorageM Unit := data.forM Datum.write

def readAll : List Kind → StorageM (List Datum)
  | [] => return []
  | k :: ks => do
    let d ← k.read
    return d :: (← readAll ks)

/-- A value that is wrapped after it has been read. -/
theorem recognises_wrapped {α : Type} {read : StorageM α} {P : α → Prop} {encode : α → Bytes}
    (h : Recognises input read fun a bs => P a ∧ bs = encode a) (wrap : α → Datum) :
    Recognises input (do return wrap (← read))
      fun d bs => ∃ a, d = wrap a ∧ P a ∧ bs = encode a := by
  apply (h.bind fun a => Recognises.pure (wrap a)).congr
  intro d l
  constructor
  · rintro ⟨a, _, _, rfl, ⟨ha, rfl⟩, rfl, rfl⟩
    exact ⟨a, rfl, ha, List.append_nil _⟩
  · rintro ⟨a, rfl, ha, rfl⟩
    exact ⟨a, _, [], (List.append_nil _).symm, ⟨ha, rfl⟩, rfl, rfl⟩

theorem recognises_read (k : Kind) :
    Recognises input k.read fun d bs => (d.kind = k ∧ d.Fits) ∧ bs = d.encode := by
  have hchar : Recognises input readChar fun b bs => True ∧ bs = [b] :=
    recognises_readChar.congr fun _ _ => (true_and _).symm.to_iff
  have hshort := recognises_readSigned (n := 2) (by decide) (by decide)
  have hint := recognises_readSigned (n := 4) (by decide) (by decide)
  have hstrings := recognises_readList recognises_readString
  have hdoubles := recognises_readList recognises_readDouble
  cases k
  case char => exact (recognises_wrapped hchar .char).congr (by rintro ⟨⟩ <;> simp)
  case byte => exact (recognises_wrapped recognises_readByte .byte).congr (by rintro ⟨⟩ <;> simp)
  case unsignedByte =>
    exact (recognises_wrapped recognises_readUnsignedByte .unsignedByte).congr
      (by rintro ⟨⟩ <;> simp)
  case short => exact (recognises_wrapped hshort .short).congr (by rintro ⟨⟩ <;> simp)
  case int => exact (recognises_wrapped hint .int).congr (by rintro ⟨⟩ <;> simp)
  case float => exact (recognises_wrapped recognises_readFloat .float).congr (by rintro ⟨⟩ <;> simp)
  case double =>
    exact (recognises_wrapped recognises_readDouble .double).congr (by rintro ⟨⟩ <;> simp)
  case string =>
    exact (recognises_wrapped recognises_readString .string).congr (by rintro ⟨⟩ <;> simp)
  case stringList => exact (recognises_wrapped hstrings .stringList).congr (by rintro ⟨⟩ <;> simp)
  case doubleList => exact (recognises_wrapped hdoubles .doubleList).congr (by rintro ⟨⟩ <;> simp)

theorem recognises_readAll (kinds : List Kind) : Recognises input (readAll kinds) fun data bs =>
    (data.map Datum.kind = kinds ∧ ∀ d ∈ data, d.Fits) ∧ bs = data.flatMap Datum.encode := by
  induction kinds with
  | nil =>
    apply (Recognises.pure []).congr
    rintro (_ | ⟨d, data⟩) bs <;> simp
  | cons k ks ih =>
    apply ((recognises_read k).bind fun d => ih.bind fun data => Recognises.pure (d :: data)).congr
    intro data l
    constructor
    · rintro ⟨d, _, _, rfl, ⟨⟨rfl, hd⟩, rfl⟩, rest, _, _, rfl, ⟨⟨rfl, hrest⟩, rfl⟩, rfl, rfl⟩
      rw [List.append_nil]
      exact ⟨⟨rfl, List.forall_mem_cons.2 ⟨hd, hrest⟩⟩, rfl⟩
    · rintro ⟨⟨hkinds, hfits⟩, rfl⟩
      obtain ⟨d, rest, rfl, rfl, rfl⟩ := List.map_eq_cons_iff.1 hkinds
      obtain ⟨hd, hrest⟩ := List.forall_mem_cons.1 hfits
      exact ⟨d, _, _, rfl, ⟨⟨rfl, hd⟩, rfl⟩, rest, _, [], (List.append_nil _).symm,
        ⟨⟨rfl, hrest⟩, rfl⟩, rfl, rfl⟩

theorem write_apply {d : Datum} (h : d.Fits) (s : Storage) :
    d.write s = .ok () (s.appended d.encode) := by
  have hdouble : ∀ (v : Double) (s : Storage),
      writeDouble v s = .ok () (s.appended (BigEndian.encode 8 v.toNat)) :=
    fun v s => writeByEndianess_memory 8 v.toNat s
  cases d with
  | char v => rfl
  | byte v =>
    have hmod : ((v + 256) % 256).toNat = (v % 256 ^ 1).toNat := by omega
    rw [Datum.write, writeByte, if_neg (by simp only [Datum.Fits, BigEndian.Fits] at h; omega), hmod]
    rfl
  | unsignedByte v =>
    rw [Datum.write, writeUnsignedByte, if_neg (by simp only [Datum.Fits] at h; omega)]
    rfl
  | short v =>
    rw [Datum.write, writeShort, if_neg (by simp only [Datum.Fits, BigEndian.Fits] at h; omega)]
    exact writeSigned_apply 2 v s
  | int v => exact writeSigned_apply 4 v s
  | float v => exact writeByEndianess_memory 4 v.toNat s
  | double v => exact hdouble v s
  | string v => exact writeString_apply h s
  | stringList v => exact writeList_apply h.1 (fun a ha => writeString_apply (h.2 a ha)) s
  | doubleList v => exact writeList_apply h (fun a _ => hdouble a) s

theorem writeAll_apply {data : List Datum} (h : ∀ d ∈ data, d.Fits) (s : Storage)
    (hs : s.iter = 0) :
    writeAll data s = .ok () (s.appended (data.flatMap Datum.encode)) := by
  have hall := forM_apply (fun d hd => write_apply (h d hd)) [] s
  rwa [appended_nil hs, List.nil_append] at hall

/-- What is read is what has been written: reading gives some values exactly if these values, written
on a host of any byte order, are the next bytes. -/
theorem readAll_iff (kinds : List Kind) (host : Bool) (data : List Datum) (s s' : Storage) :
    readAll kinds s = .ok data s' ↔ data.map Datum.kind = kinds ∧ (∀ d ∈ data, d.Fits) ∧
      ∃ t r, writeAll data (new host) = .ok () t ∧ input.rest s = t.store ++ r ∧
        s' = input.skip t.store.length s := by
  rw [recognises_readAll kinds s data s']
  constructor
  · rintro ⟨_, r, hs, ⟨⟨hkinds, hfits⟩, rfl⟩, rfl⟩
    exact ⟨hkinds, hfits, _, r, writeAll_apply hfits _ rfl, hs, rfl⟩
  · rintro ⟨hkinds, hfits, t, r, ht, hs, rfl⟩
    cases (writeAll_apply hfits (new host) rfl).symm.trans ht
    exact ⟨_, r, hs, ⟨⟨hkinds, hfits⟩, rfl⟩, rfl⟩

/-! ## Bytes of any origin -/

/-- The steps in which a storage is read. -/
inductive Reading : {α : Type} → StorageM α → Prop
  | readCharUnsafe : Reading readCharUnsafe
  | take (len : Int) : Reading (take len)

namespace Reading

theorem guarded {α : Type} {c : Prop} [Decidable c] {e : Error} {x : StorageM α}
    (h : Composed Reading x) : Composed Reading (do if c then throw e
                                                    x) := by
  dsimp only
  split
  · exact .bind (.throw _) fun _ => h
  · exact h

theorem checkReadSafe (n : Nat) : Composed Reading (checkReadSafe n) :=
  .bind .get fun _ => by
    split
    · exact .throw _
    · exact .pure _

theorem replicateM {α : Type} {read : StorageM α} (h : Composed Reading read) (n : Nat) :
    Composed Reading (replicateM read n) := by
  induction n with
  | zero => exact .pure _
  | succ n ih => exact .bind h fun _ => .bind ih fun _ => .pure _

theorem readByEndianess (size : Nat) : Composed Reading (readByEndianess size) :=
  .bind (checkReadSafe size) fun _ => .bind (replicateM (.prim .readCharUnsafe) size) fun _ =>
    .bind .get fun _ => .pure _

theorem readChar : Composed Reading readChar := .bind .get fun _ => guarded (.prim .readCharUnsafe)

theorem readSigned (size : Nat) : Composed Reading (readSigned size) :=
  .bind (readByEndianess size) fun _ => .bind .get fun _ => .pure _

theorem readString : Composed Reading readString :=
  .bind (readSigned 4) fun _ => .bind (checkReadSafe _) fun _ => .prim (.take _)

theorem readDouble : Composed Reading readDouble :=
  .bind (readByEndianess 8) fun _ => .bind .get fun _ => .pure _

theorem readList {α : Type} {read : StorageM α} (h : Composed Reading read) :
    Composed Reading (readList read) :=
  .bind (readSigned 4) fun _ => guarded (replicateM h _)

theorem read (k : Kind) : Composed Reading k.read := by
  cases k with
  | char => exact .bind readChar fun _ => .pure _
  | byte =>
    have hread : Composed Reading readByte := .bind readChar fun _ => by
      dsimp only
      split
      · exact .pure _
      · exact .pure _
    exact .bind hread fun _ => .pure _
  | unsignedByte => exact .bind (.bind readChar fun _ => .pure _) fun _ => .pure _
  | short => exact .bind (readSigned 2) fun _ => .pure _
  | int => exact .bind (readSigned 4) fun _ => .pure _
  | float =>
    exact .bind (.bind (readByEndianess 4) fun _ => .bind .get fun _ => .pure _) fun _ => .pure _
  | double => exact .bind readDouble fun _ => .pure _
  | string => exact .bind readString fun _ => .pure _
  | stringList => exact .bind (readList readString) fun _ => .pure _
  | doubleList => exact .bind (readList readDouble) fun _ => .pure _

theorem readAll (kinds : List Kind) : Composed Reading (readAll kinds) := by
  induction kinds with
  | nil => exact .pure _
  | cons k ks ih => exact .bind (read k) fun _ => .bind ih fun _ => .pure _

/-- However a read ends, the bytes are the same and the position has not gone back. -/
theorem stays {α : Type} {x : StorageM α} (h : Composed Reading x) (s : Storage) :
    (x s).state.store = s.store ∧ s.iter ≤ (x s).state.iter := by
  apply h.related (R := fun s t => t.store = s.store ∧ s.iter ≤ t.iter)
  · exact fun _ => ⟨rfl, Nat.le_refl _⟩
  · exact fun {_ _ _} h₁ h₂ => ⟨h₂.1.trans h₁.1, Nat.le_trans h₁.2 h₂.2⟩
  · intro _ x hx s
    cases hx with
    | readCharUnsafe =>
      rw [Storage.readCharUnsafe, bind_apply, get_apply]
      dsimp only
      split
      · exact ⟨rfl, Nat.le_succ _⟩
      · exact ⟨rfl, Nat.le_refl _⟩
    | take len =>
      rw [Storage.take, bind_apply, get_apply]
      dsimp only
      split
      · exact ⟨rfl, Nat.le_add_right _ _⟩
      · exact ⟨rfl, Nat.le_refl _⟩

end Reading

/-- The program comes to something the standard does not define. -/
def Undefined {α : Type} (x : StorageM α) (s : Storage) : Prop := ∃ s', x s = .error .undefined s'

theorem undefined_bind {α β : Type} {x : StorageM α} {f : α → StorageM β} :
    Undefined (x >>= f) s ↔ Undefined x s ∨ ∃ a s₁, x s = .ok a s₁ ∧ Undefined (f a) s₁ := by
  simp only [Undefined, bind_eq_error]
  constructor
  · rintro ⟨s', h | ⟨a, s₁, ha, h⟩⟩
    · exact .inl ⟨s', h⟩
    · exact .inr ⟨a, s₁, ha, s', h⟩
  · rintro (⟨s', h⟩ | ⟨a, s₁, ha, s', h⟩)
    · exact ⟨s', .inl h⟩
    · exact ⟨s', .inr ⟨a, s₁, ha, h⟩⟩

theorem not_undefined_pure {α : Type} {a : α} : ¬ Undefined (pure a) s := nofun

theorem undefined_map {α β : Type} {x : StorageM α} {f : α → β} :
    Undefined (do return f (← x)) s ↔ Undefined x s :=
  undefined_bind.trans (or_iff_left fun ⟨_, _, _, h⟩ => not_undefined_pure h)

theorem not_undefined_checkReadSafe (n : Nat) : ¬ Undefined (checkReadSafe n) s := by
  intro ⟨s', h⟩
  rw [checkReadSafe_apply] at h
  split at h <;> cases h

/-- What passes the check is there to be read. -/
theorem not_undefined_readByEndianess {size : Nat} (hsize : size < 2 ^ 31) :
    ¬ Undefined (readByEndianess size) s := by
  have hto : toInt size = size := toInt_of_fits ⟨by omega, by omega⟩
  intro hu
  obtain h | ⟨_, s₁, hc, h⟩ := undefined_bind.1 hu
  · exact not_undefined_checkReadSafe _ h
  obtain ⟨hle, rfl⟩ := checkReadSafe_eq_ok hc
  rw [hto, ← rest_length] at hle
  have htake : ((input.rest s₁).take size).length = size := by
    rw [List.length_take]
    omega
  have hread := (recognises_chars size).ok ⟨htake, rfl⟩
    (List.take_append_drop size (input.rest s₁)).symm
  obtain ⟨s', hr⟩ | ⟨_, _, _, s', hr⟩ := undefined_bind.1 h
  · cases hread.symm.trans hr
  · cases hr

/-- A number that is made of the bytes read. -/
theorem not_undefined_number {α : Type} {n : Nat} (hn : n < 2 ^ 31) (f : Nat → α) :
    ¬ Undefined (do
      let p ← readByEndianess n
      return f (ofMemory (← get).bigEndian p)) s := by
  intro h
  obtain h | ⟨_, _, _, s', h⟩ := undefined_bind.1 h
  · exact not_undefined_readByEndianess hn h
  · cases h

theorem not_undefined_readSigned {n : Nat} (hn : n < 2 ^ 31) : ¬ Undefined (readSigned n) s :=
  not_undefined_number hn fun k => (k : Int).bmod (256 ^ n)

theorem not_undefined_readInt : ¬ Undefined readInt s := not_undefined_readSigned (by decide)

theorem not_undefined_readChar : ¬ Undefined readChar s := by
  have hle := s.iter_le
  intro ⟨s', h⟩
  simp only [readChar, bind_apply, get_apply, validPos, Bool.not_eq_true', decide_eq_false_iff_not]
    at h
  split at h
  next => cases h
  next hne =>
    have hlt : s.iter < s.store.length := by omega
    have hread := recognises_readCharUnsafe.ok rfl (s := s) (List.drop_eq_getElem_cons hlt)
    cases hread.symm.trans h

/-- The string that comes next has a negative length. -/
def NegativeLength (s : Storage) : Prop := ∃ len s₁, readInt s = .ok len s₁ ∧ len < 0

/-- A negative length passes the check, which casts it to unsigned and back. -/
theorem undefined_readString : Undefined readString s ↔ NegativeLength s := by
  have hread : ∀ {s₁ : Storage} {len : Int}, readInt s = .ok len s₁ → Fits 4 len := by
    intro s₁ len h
    obtain ⟨_, _, _, ⟨hf, -⟩, -⟩ :=
      (recognises_readSigned (n := 4) (by decide) (by decide) _ _ _).1 h
    exact hf
  have htake : ∀ {s₁ : Storage} {len : Int}, Undefined (take len) s₁ ↔
      ¬ (0 ≤ len ∧ s₁.iter + len.toNat ≤ s₁.store.length) := by
    intro s₁ len
    rw [Undefined, take, bind_apply, get_apply]
    dsimp only
    split
    next h => exact iff_of_false nofun (not_not_intro h)
    next h => exact iff_of_true ⟨s₁, rfl⟩ h
  rw [readString, undefined_bind]
  constructor
  · rintro (h | ⟨len, s₁, hlen, hu⟩)
    · exact (not_undefined_readInt h).elim
    have hf := toInt_of_fits (hread hlen)
    obtain h | ⟨_, s₂, hc, h⟩ := undefined_bind.1 hu
    · exact (not_undefined_checkReadSafe _ h).elim
    obtain ⟨hle, rfl⟩ := checkReadSafe_eq_ok hc
    rw [toInt_toUnsigned, hf, remaining] at hle
    refine ⟨len, s₂, hlen, Int.not_le.1 fun h0 => htake.1 h ⟨h0, ?_⟩⟩
    omega
  · rintro ⟨len, s₁, hlen, hneg⟩
    have hf := toInt_of_fits (hread hlen)
    have hle : toInt (toUnsigned len) ≤ s₁.remaining := by
      have := s₁.iter_le
      rw [toInt_toUnsigned, hf, remaining]
      omega
    refine .inr ⟨len, s₁, hlen, undefined_bind.2 (.inr ⟨(), s₁, checkReadSafe_of_le hle, ?_⟩)⟩
    exact htake.2 fun h => Int.not_le.2 hneg h.1

theorem undefined_replicateM {α : Type} {read : StorageM α} (n : Nat) :
    Undefined (replicateM read n) s ↔
      ∃ i < n, ∃ as s₁, replicateM read i s = .ok as s₁ ∧ Undefined read s₁ := by
  induction n generalizing s with
  | zero => exact iff_of_false nofun fun ⟨_, h, _⟩ => absurd h (Nat.not_lt_zero _)
  | succ n ih =>
    rw [replicateM, undefined_bind]
    constructor
    · rintro (h | ⟨a, s₁, ha, h⟩)
      · exact ⟨0, Nat.zero_lt_succ n, [], s, rfl, h⟩
      · obtain ⟨i, hi, as, s₂, has, h⟩ := ih.1 (undefined_map.1 h)
        refine ⟨i + 1, Nat.succ_lt_succ hi, a :: as, s₂, ?_, h⟩
        exact bind_eq_ok.2 ⟨a, s₁, ha, bind_eq_ok.2 ⟨as, s₂, has, rfl⟩⟩
    · rintro ⟨i, hi, as, s₂, has, h⟩
      cases i with
      | zero =>
        obtain ⟨rfl, rfl⟩ := pure_eq_ok.1 has
        exact .inl h
      | succ i =>
        obtain ⟨a, s₁, ha, hrest⟩ := bind_eq_ok.1 has
        obtain ⟨bs, s₃, hbs, hpure⟩ := bind_eq_ok.1 hrest
        obtain ⟨-, rfl⟩ := pure_eq_ok.1 hpure
        exact .inr ⟨a, s₁, ha, undefined_map.2 (ih.2 ⟨i, Nat.lt_of_succ_lt_succ hi, bs, s₃, hbs, h⟩)⟩

theorem undefined_readList {α : Type} {read : StorageM α} : Undefined (readList read) s ↔
    ∃ len s₁, readInt s = .ok len s₁ ∧
      ∃ i < len.toNat, ∃ as s₂, replicateM read i s₁ = .ok as s₂ ∧ Undefined read s₂ := by
  rw [readList, undefined_bind, or_iff_right not_undefined_readInt]
  refine exists_congr fun len => exists_congr fun s₁ => and_congr_right fun _ => ?_
  rw [← undefined_replicateM]
  split
  next hneg =>
    rw [Int.toNat_of_nonpos (Int.le_of_lt hneg)]
    exact iff_of_false nofun nofun
  next => rfl

/-- Reading a value of the kind comes to a string with a negative length. -/
def Misleads (s : Storage) : Kind → Prop
  | .string => NegativeLength s
  | .stringList => ∃ len s₁, readInt s = .ok len s₁ ∧
    ∃ i < len.toNat, ∃ strings s₂, replicateM readString i s₁ = .ok strings s₂ ∧ NegativeLength s₂
  | _ => False

theorem undefined_read (k : Kind) : Undefined k.read s ↔ Misleads s k := by
  rw [Kind.read.eq_def]
  cases k with
  | char => exact undefined_map.trans (iff_of_false not_undefined_readChar id)
  | byte =>
    refine undefined_map.trans (iff_of_false (fun h => ?_) id)
    obtain h | ⟨_, _, _, s', h⟩ := undefined_bind.1 h
    · exact not_undefined_readChar h
    · dsimp only at h
      split at h <;> cases h
  | unsignedByte =>
    exact undefined_map.trans (iff_of_false (fun h => not_undefined_readChar (undefined_map.1 h)) id)
  | short => exact undefined_map.trans (iff_of_false (not_undefined_readSigned (by decide)) id)
  | int => exact undefined_map.trans (iff_of_false not_undefined_readInt id)
  | float => exact undefined_map.trans (iff_of_false (not_undefined_number (n := 4) (by decide) _) id)
  | double => exact undefined_map.trans (iff_of_false (not_undefined_number (n := 8) (by decide) _) id)
  | string => exact undefined_map.trans undefined_readString
  | stringList =>
    apply undefined_map.trans (undefined_readList.trans _)
    simp only [Misleads, undefined_readString]
  | doubleList =>
    refine undefined_map.trans (undefined_readList.trans (iff_of_false ?_ id))
    rintro ⟨_, _, _, _, _, _, _, _, h⟩
    exact not_undefined_number (n := 8) (by decide) _ h

/-- Whatever bytes have come, reading values of any kinds leaves them as they are and does not go
back, and its behaviour is undefined exactly if, after some of the values have been read, a string
with a negative length comes. -/
theorem readAll_undefined_iff (kinds : List Kind) (s : Storage) :
    ((readAll kinds s).state.store = s.store ∧ s.iter ≤ (readAll kinds s).state.iter) ∧
    ((∃ s', readAll kinds s = .error .undefined s') ↔
      ∃ before k after data s₁, kinds = before ++ k :: after ∧
        readAll before s = .ok data s₁ ∧ Misleads s₁ k) := by
  refine ⟨Reading.stays (Reading.readAll kinds) s, ?_⟩
  change Undefined (readAll kinds) s ↔ _
  induction kinds generalizing s with
  | nil => exact iff_of_false nofun fun ⟨_, _, _, _, _, h, _⟩ => by simp at h
  | cons k ks ih =>
    rw [readAll, undefined_bind, undefined_read]
    constructor
    · rintro (h | ⟨d, s₁, hd, h⟩)
      · exact ⟨[], k, ks, [], s, rfl, rfl, h⟩
      · obtain ⟨before, k', after, data, s₂, rfl, hdata, h⟩ := (ih s₁).1 (undefined_map.1 h)
        refine ⟨k :: before, k', after, d :: data, s₂, rfl, ?_, h⟩
        exact bind_eq_ok.2 ⟨d, s₁, hd, bind_eq_ok.2 ⟨data, s₂, hdata, rfl⟩⟩
    · rintro ⟨before, k', after, data, s₂, he, hdata, h⟩
      cases before with
      | nil =>
        obtain ⟨rfl, rfl⟩ := List.cons.inj he
        obtain ⟨rfl, rfl⟩ := pure_eq_ok.1 hdata
        exact .inl h
      | cons k'' before =>
        obtain ⟨rfl, rfl⟩ := List.cons.inj he
        obtain ⟨d, s₁, hd, hrest⟩ := bind_eq_ok.1 hdata
        obtain ⟨ds, s₃, hds, hpure⟩ := bind_eq_ok.1 hrest
        obtain ⟨-, rfl⟩ := pure_eq_ok.1 hpure
        exact .inr ⟨d, s₁, hd, undefined_map.2 ((ih s₁).2 ⟨before, k', after, ds, s₃, rfl, hds, h⟩)⟩

end Storage

end Cosidia.Traci
