import Cosidia.Theory.Arrivals
import Cosidia.Traci.Storage

/-!
# Sockets

`tcpip::Socket` sends and receives messages over a stream of bytes: the length of a message, with the
four bytes of the length, comes before its bytes. Neither end of the stream is ours: how many bytes a
call of `send` takes, and how many a call of `recv` gives, is up to the system.
-/

namespace Cosidia.Traci

open EStateM Arrivals

/-- What a call of `send` does: take some of the bytes, all if there are no more, or fail with an
`errno`. -/
inductive Sending where
  | takes (n : Nat)
  | fails (error : String)
  deriving DecidableEq, Repr

structure Socket where
  /-- `socket_ >= 0` -/
  connected : Bool
  /-- What arrives from the peer, which then shuts down; failures have an `errno`. -/
  incoming : List (Arrival String UInt8)
  /-- What the next calls of `send` do. Those after them take all. -/
  sendings : List Sending
  /-- All bytes that have been sent. -/
  sent : Bytes
  /-- The byte order of the host. -/
  bigEndian : Bool
  deriving DecidableEq, Repr

abbrev SocketM := EStateM Error Socket

namespace Socket

def lengthLen : Nat := 4

def close : SocketM Unit := modify fun s => { s with connected := false }

/-- The loop of `send`. -/
def sendLoop : List Sending → Bytes → SocketM Unit
  | _, [] => return
  | [], buffer => modify fun s => { s with sendings := [], sent := s.sent ++ buffer }
  | .takes n :: sendings, buffer => do
    modify fun s => { s with sendings, sent := s.sent ++ buffer.take n }
    sendLoop sendings (buffer.drop n)
  | .fails error :: sendings, _ => do
    modify fun s => { s with sendings }
    throw (.socketException s!"send failed: {error}")

def send (buffer : Bytes) : SocketM Unit := do
  let s ← get
  if s.connected then
    sendLoop s.sendings buffer

def sendExact (b : Storage) : SocketM Unit := do
  let length := toInt b.store.length
  match Storage.writeInt (lengthLen + length) (.new (← get).bigEndian) with
  | .ok _ length_storage => send (length_storage.store ++ b.store)
  | .error e _ => throw e

/-- What `recvAndCheck` throws when the system says `error`. -/
def recvFailed (error : String) : Error :=
  .socketException s!"tcpip::Socket::recvAndCheck @ recv: {error}"

def recvAndCheck (len : Nat) (h : 0 < len) : SocketM (Piece UInt8 len) := do
  let s ← get
  if !s.connected then
    throw (recvFailed "Bad file descriptor")
  match s.incoming with
  | [] => throw (recvFailed "peer shutdown")
  | .failure error :: incoming =>
    set { s with incoming }
    throw (recvFailed error)
  | .piece head tail :: _ =>
    let p := firstPiece len h head tail
    set { s with incoming := skip p.symbols.length s.incoming }
    return p

def receiveComplete (len : Nat) : SocketM Bytes := do
  if h : 0 < len then
    let p ← recvAndCheck len h
    return p.symbols ++ (← receiveComplete (len - p.symbols.length))
  else
    return []
termination_by len
decreasing_by
  have := p.length_pos
  omega

/-- `receiveExact`; the content of the storage that is passed does not matter. -/
def receiveExact : SocketM Storage := do
  let buffer ← receiveComplete lengthLen
  match Storage.readInt (.ofPacket (← get).bigEndian buffer) with
  | .ok totalLen _ =>
    if ¬ totalLen > lengthLen then
      throw (.assertion "totalLen > lengthLen")
    return .ofPacket (← get).bigEndian (← receiveComplete (totalLen - lengthLen).toNat)
  | .error e _ => throw e

end Socket

end Cosidia.Traci
