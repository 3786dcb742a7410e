import Mathlib.Algebra.GroupWithZero.Divisibility
import Mathlib.Algebra.Ring.Int.Defs
import Mathlib.Data.List.Induction
import Mathlib.Data.Nat.Cast.Basic

/-!
# Big-endian numbers

Numbers as sequences of bytes, the most significant byte first, without a sign and in two's
complement.
-/

namespace BigEndian

/-- The `n` lowest bytes of a number. -/
def encode : Nat → Nat → List UInt8
  | 0, _ => []
  | n + 1, k => encode n (k / 256) ++ [UInt8.ofNat k]

def decode (bs : List UInt8) : Nat := bs.foldl (fun k b => k * 256 + b.toNat) 0

@[simp] theorem length_encode (n k : Nat) : (encode n k).length = n := by
  induction n generalizing k with
  | zero => rfl
  | succ n ih => rw [encode, List.length_append, ih, List.length_singleton]

theorem decode_concat (bs : List UInt8) (b : UInt8) :
    decode (bs ++ [b]) = decode bs * 256 + b.toNat := by
  rw [decode, List.foldl_append]
  rfl

theorem decode_singleton (b : UInt8) : decode [b] = b.toNat := Nat.zero_add _

theorem decode_lt (bs : List UInt8) : decode bs < 256 ^ bs.length := by
  induction bs using List.reverseRecOn with
  | nil => exact Nat.one_pos
  | append_singleton bs b ih =>
    have hb := b.toNat_lt
    rw [decode_concat, List.length_append, List.length_singleton, Nat.pow_succ]
    omega

/-- A number is read back modulo the numbers that fit. -/
theorem decode_encode (n k : Nat) : decode (encode n k) = k % 256 ^ n := by
  induction n generalizing k with
  | zero => rw [Nat.pow_zero, Nat.mod_one]; rfl
  | succ n ih =>
    have hpow : 256 ^ (n + 1) = 256 * 256 ^ n := Nat.pow_succ'
    rw [encode, decode_concat, ih, UInt8.toNat_ofNat', hpow, Nat.mod_mul]
    omega

theorem encode_decode (bs : List UInt8) : encode bs.length (decode bs) = bs := by
  induction bs using List.reverseRecOn with
  | nil => rfl
  | append_singleton bs b ih =>
    have hb := b.toNat_lt
    have hdiv : (decode bs * 256 + b.toNat) / 256 = decode bs := by omega
    have hmod : UInt8.ofNat (decode bs * 256 + b.toNat) = b := by
      apply UInt8.toNat_inj.1
      rw [UInt8.toNat_ofNat']
      omega
    rw [decode_concat, List.length_append, List.length_singleton, encode, hdiv, ih, hmod]

theorem decode_encode_of_lt {n k : Nat} (h : k < 256 ^ n) : decode (encode n k) = k := by
  rw [decode_encode, Nat.mod_eq_of_lt h]

theorem encode_eq_iff {n k : Nat} (h : k < 256 ^ n) {bs : List UInt8} :
    bs = encode n k ↔ bs.length = n ∧ decode bs = k := by
  constructor
  · rintro rfl
    exact ⟨length_encode n k, decode_encode_of_lt h⟩
  · rintro ⟨rfl, rfl⟩
    exact (encode_decode bs).symm

/-! ## Two's complement -/

/-- `v` fits into `n` bytes. -/
def Fits (n : Nat) (v : Int) : Prop := -(256 ^ n / 2 : Int) ≤ v ∧ v < 256 ^ n / 2

instance (n : Nat) (v : Int) : Decidable (Fits n v) := inferInstanceAs (Decidable (_ ∧ _))

def encodeInt (n : Nat) (v : Int) : List UInt8 := encode n (v % 256 ^ n).toNat

def decodeInt (bs : List UInt8) : Int := (decode bs : Int).bmod (256 ^ bs.length)

@[simp] theorem length_encodeInt (n : Nat) (v : Int) : (encodeInt n v).length = n :=
  length_encode n _

theorem encodeInt_decodeInt (bs : List UInt8) : encodeInt bs.length (decodeInt bs) = bs := by
  have h := decode_lt bs
  have hmod : (decodeInt bs % 256 ^ bs.length).toNat = decode bs := by
    have hcast : ((256 ^ bs.length : Nat) : Int) = 256 ^ bs.length := by push_cast; rfl
    rw [decodeInt, ← hcast, Int.bmod_emod, ← Int.natCast_mod, Int.toNat_natCast,
      Nat.mod_eq_of_lt h]
  rw [encodeInt, hmod, encode_decode]

theorem two_dvd_pow {n : Nat} (h : n ≠ 0) : 2 ∣ 256 ^ n :=
  dvd_pow (by decide) h

theorem fits_decodeInt {bs : List UInt8} (h : bs ≠ []) : Fits bs.length (decodeInt bs) := by
  have hpos : 0 < 256 ^ bs.length := Nat.pow_pos (by decide)
  obtain ⟨m, hm⟩ := two_dvd_pow fun h0 => h (List.length_eq_zero_iff.1 h0)
  have hcast : (256 ^ bs.length : Int) = 2 * m := by exact_mod_cast hm
  have hle := Int.le_bmod (x := (decode bs : Int)) hpos
  have hlt := Int.bmod_lt (x := (decode bs : Int)) hpos
  rw [Fits, decodeInt, hcast]
  rw [hm] at hle hlt ⊢
  push_cast at hle hlt
  omega

theorem decodeInt_encodeInt {n : Nat} {v : Int} (hn : n ≠ 0) (h : Fits n v) :
    decodeInt (encodeInt n v) = v := by
  obtain ⟨m, hm⟩ := two_dvd_pow hn
  have hpos : 0 < 256 ^ n := Nat.pow_pos (by decide)
  have hcast : (256 ^ n : Int) = ((256 ^ n : Nat) : Int) := by push_cast; rfl
  have hnonneg : 0 ≤ v % ((256 ^ n : Nat) : Int) := Int.emod_nonneg _ (by omega)
  have hlt : v % ((256 ^ n : Nat) : Int) < ((256 ^ n : Nat) : Int) := Int.emod_lt_of_pos _ (by omega)
  rw [Fits, hcast] at h
  rw [decodeInt, length_encodeInt, encodeInt, hcast, decode_encode_of_lt (by omega),
    Int.toNat_of_nonneg hnonneg, Int.emod_bmod]
  rw [hm] at h ⊢
  apply Int.bmod_eq_of_le <;> push_cast at h ⊢ <;> omega

end BigEndian
