import Cosidia.Theory.BigEndian
import Cosidia.Theory.Format

/-!
# Storages

`tcpip::Storage` is a sequence of bytes that is written at its end and read from its front. Numbers
are written with the most significant byte first, whatever the byte order of the host.
-/

namespace Cosidia.Traci

open EStateM

/-- What ends a call of the TraCI client abnormally. -/
inductive Error where
  /-- `std::invalid_argument` -/
  | invalidArgument (what : String)
  /-- `std::length_error` -/
  | lengthError
  /-- `tcpip::SocketException` -/
  | socketException (what : String)
  /-- `libsumo::TraCIException` -/
  | traciException (what : String)
  /-- Another `std::runtime_error`. -/
  | runtimeError (what : String)
  /-- `std::bad_cast` -/
  | badCast
  | assertion (expr : String)
  | nullDereference
  /-- The standard does not say what happens. -/
  | undefined
  deriving DecidableEq, Repr

/-- A `std::string`. -/
abbrev Bytes := List UInt8

/-- The representation of a `double`. -/
abbrev Double := UInt64

/-- The representation of a `float`. -/
abbrev Single := UInt32

/-- `static_cast<int>` of an integer. -/
def toInt (n : Int) : Int := (BitVec.ofInt 32 n).toInt

/-- `static_cast<unsigned int>` of an integer. -/
def toUnsigned (n : Int) : Nat := (BitVec.ofInt 32 n).toNat

/-- The bytes of an unsigned number of `size` bytes as they lie in the memory of the host. -/
def memory (bigEndian : Bool) (size value : Nat) : Bytes :=
  if bigEndian then BigEndian.encode size value else (BigEndian.encode size value).reverse

/-- The unsigned number whose bytes lie in the memory of the host. -/
def ofMemory (bigEndian : Bool) (p : Bytes) : Nat :=
  BigEndian.decode (if bigEndian then p else p.reverse)

structure Storage where
  store : Bytes
  /-- `iter_`, as an index -/
  iter : Nat
  /-- `bigEndian_`: the byte order of the host -/
  bigEndian : Bool
  iter_le : iter ≤ store.length
  deriving DecidableEq, Repr

abbrev StorageM := EStateM Error Storage

namespace Storage

/-- The constructor from a packet. -/
def ofPacket (bigEndian : Bool) (packet : Bytes) : Storage where
  store := packet
  iter := 0
  bigEndian
  iter_le := Nat.zero_le _

/-- The standard constructor. -/
def new (bigEndian : Bool) : Storage := ofPacket bigEndian []

/-- `std::distance(iter_, store.end())` -/
def remaining (s : Storage) : Int := s.store.length - s.iter

def position (s : Storage) : Nat := s.iter

def validPos (s : Storage) : Bool := s.iter ≠ s.store.length

def reset : StorageM Unit :=
  modify fun s => { s with store := [], iter := 0, iter_le := Nat.zero_le _ }

/-- `[iter_, iter_ + len)` as a string, after which `iter_` is at its end. -/
def take (len : Int) : StorageM Bytes := do
  let s ← get
  if h : 0 ≤ len ∧ s.iter + len.toNat ≤ s.store.length then
    set { s with iter := s.iter + len.toNat, iter_le := h.2 }
    return (s.store.drop s.iter).take len.toNat
  else
    -- this is no range
    throw .undefined

/-- The exception `checkReadSafe` throws. -/
def notReadSafe (num : Nat) (remaining : Int) : Error :=
  .invalidArgument (s!"tcpip::Storage::readIsSafe: want to read {num} bytes from Storage, " ++
    s!"but only {remaining} remaining")

def checkReadSafe (num : Nat) : StorageM Unit := do
  let s ← get
  if s.remaining < toInt num then
    throw (notReadSafe num s.remaining)

def readCharUnsafe : StorageM UInt8 := do
  let s ← get
  if h : s.iter < s.store.length then
    set { s with iter := s.iter + 1, iter_le := h }
    return s.store[s.iter]
  else
    throw .undefined

/-- `store.insert(store.end(), ..)`, after which `iter_` is set to the front. -/
def append (bytes : Bytes) : StorageM Unit :=
  modify fun s => { s with store := s.store ++ bytes, iter := 0, iter_le := Nat.zero_le _ }

/-- `size` is the length of `array`. -/
def writeByEndianess (array : Bytes) : StorageM Unit := do
  append (if (← get).bigEndian then array else array.reverse)

def readByEndianess (size : Nat) : StorageM Bytes := do
  checkReadSafe size
  let chars ← replicateM readCharUnsafe size
  return if (← get).bigEndian then chars else chars.reverse

def readChar : StorageM UInt8 := do
  if !(← get).validPos then
    throw (.invalidArgument "Storage::readChar(): invalid position")
  readCharUnsafe

def writeChar (value : UInt8) : StorageM Unit := append [value]

def readByte : StorageM Int := do
  let i : Int := (← readChar).toNat
  if i < 128 then return i else return i - 256

def writeByte (value : Int) : StorageM Unit := do
  if value < -128 ∨ value > 127 then
    throw (.invalidArgument "Storage::writeByte(): Invalid value, not in [-128, 127]")
  writeChar (UInt8.ofNat ((value + 256) % 256).toNat)

def readUnsignedByte : StorageM Int := do
  return (← readChar).toNat

def writeUnsignedByte (value : Int) : StorageM Unit := do
  if value < 0 ∨ value > 255 then
    throw (.invalidArgument "Storage::writeUnsignedByte(): Invalid value, not in [0, 255]")
  writeChar (UInt8.ofNat value.toNat)

/-- A signed number of `size` bytes. -/
def readSigned (size : Nat) : StorageM Int := do
  let p ← readByEndianess size
  return (ofMemory (← get).bigEndian p : Int).bmod (256 ^ size)

def writeSigned (size : Nat) (value : Int) : StorageM Unit := do
  writeByEndianess (memory (← get).bigEndian size (value % 256 ^ size).toNat)

def readShort : StorageM Int := readSigned 2

def writeShort (value : Int) : StorageM Unit := do
  if value < -32768 ∨ value > 32767 then
    throw (.invalidArgument "Storage::writeShort(): Invalid value, not in [-32768, 32767]")
  writeSigned 2 value

def readInt : StorageM Int := readSigned 4

def writeInt (value : Int) : StorageM Unit := writeSigned 4 value

def readFloat : StorageM Single := do
  let p ← readByEndianess 4
  return UInt32.ofNat (ofMemory (← get).bigEndian p)

def writeFloat (value : Single) : StorageM Unit := do
  writeByEndianess (memory (← get).bigEndian 4 value.toNat)

def readDouble : StorageM Double := do
  let p ← readByEndianess 8
  return UInt64.ofNat (ofMemory (← get).bigEndian p)

def writeDouble (value : Double) : StorageM Unit := do
  writeByEndianess (memory (← get).bigEndian 8 value.toNat)

def readString : StorageM Bytes := do
  let len ← readInt
  checkReadSafe (toUnsigned len)
  take len

def writeString (s : Bytes) : StorageM Unit := do
  writeInt (toInt s.length)
  append s

/-- `tmp.reserve(len)` throws if `len` is negative. -/
def readList {α : Type} (read : StorageM α) : StorageM (List α) := do
  let len ← readInt
  if len < 0 then
    throw .lengthError
  replicateM read len.toNat

def readStringList : StorageM (List Bytes) := readList readString

def readDoubleList : StorageM (List Double) := readList readDouble

def writeStringList (s : List Bytes) : StorageM Unit := do
  writeInt (toInt s.length)
  s.forM writeString

def writeDoubleList (s : List Double) : StorageM Unit := do
  writeInt (toInt s.length)
  s.forM writeDouble

def writePacket (packet : Bytes) : StorageM Unit := append packet

def writeStorage (other : Storage) : StorageM Unit := append (other.store.drop other.iter)

end Storage

end Cosidia.Traci
