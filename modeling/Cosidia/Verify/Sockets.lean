import Cosidia.Traci.Socket
import Cosidia.Verify.Storages

/-!
# What a socket delivers

However the system divides the stream of bytes, the peer receives the messages that have been sent,
in order and each as a whole.
-/

namespace Cosidia.Traci.Socket

open EStateM Arrivals BigEndian

/-- What a socket will receive. -/
def input : Input Socket UInt8 where
  rest s := if s.connected then symbols s.incoming else []
  skip n s := if s.connected then { s with incoming := Arrivals.skip n s.incoming } else s
  rest_skip n s := by
    rcases s with ⟨_ | _, _, _, _, _⟩
    · exact List.drop_nil.symm
    · exact symbols_skip n _
  skip_zero s := by rcases s with ⟨_ | _, _, _, _, _⟩ <;> rfl
  skip_skip m n s := by
    rcases s with ⟨_ | _, _, _, _, _⟩
    · rfl
    · exact congrArg (Socket.mk true · _ _ _) (Arrivals.skip_skip m n _)

variable {s s' : Socket}

/-- The exception that comes after the bytes. -/
def ending (s : Socket) : Error :=
  recvFailed (if s.connected then (failure? s.incoming).getD "peer shutdown"
    else "Bad file descriptor")

/-- The socket after this exception. -/
def exhausted (s : Socket) : Socket :=
  if s.connected then { s with incoming := afterFailure s.incoming } else s

theorem ending_skip (n : Nat) (s : Socket) : (input.skip n s).ending = s.ending := by
  rcases s with ⟨_ | _, _, _, _, _⟩
  · rfl
  · exact congrArg (fun e => recvFailed (e.getD "peer shutdown")) (failure?_skip n _)

theorem exhausted_skip (n : Nat) (s : Socket) : (input.skip n s).exhausted = s.exhausted := by
  rcases s with ⟨_ | _, _, _, _, _⟩
  · rfl
  · exact congrArg (Socket.mk true · _ _ _) (afterFailure_skip n _)

theorem bigEndian_skip (n : Nat) (s : Socket) : (input.skip n s).bigEndian = s.bigEndian := by
  rcases s with ⟨_ | _, _, _, _, _⟩ <;> rfl

/-- A piece, or the exception. -/
theorem recvAndCheck_cases (len : Nat) (h : 0 < len) (s : Socket) :
    (input.rest s = [] ∧ recvAndCheck len h s = .error s.ending s.exhausted) ∨
    ∃ p r, input.rest s = p.symbols ++ r ∧
      recvAndCheck len h s = .ok p (input.skip p.symbols.length s) := by
  obtain ⟨connected, incoming, sendings, sent, bigEndian⟩ := s
  rw [recvAndCheck, bind_apply, get_apply]
  cases connected with
  | false => exact .inl ⟨rfl, rfl⟩
  | true =>
    cases incoming with
    | nil => exact .inl ⟨rfl, rfl⟩
    | cons a incoming =>
      cases a with
      | failure error => exact .inl ⟨rfl, rfl⟩
      | piece head tail =>
        obtain ⟨r, hr⟩ := firstPiece_symbols h head tail incoming
        exact .inr ⟨firstPiece len h head tail, r, hr, rfl⟩

/-- Receiving gives the bytes that were asked for, or the exception that comes after those that are
there. -/
theorem receiveComplete_apply (len : Nat) (s : Socket) : receiveComplete len s =
    if len ≤ (input.rest s).length then .ok ((input.rest s).take len) (input.skip len s)
    else .error s.ending s.exhausted := by
  induction len using Nat.strongRecOn generalizing s with
  | ind len ih =>
    rw [receiveComplete]
    split
    next hlen =>
      rw [bind_apply]
      obtain ⟨hs, hr⟩ | ⟨p, r, hs, hr⟩ := recvAndCheck_cases len hlen s
      · rw [hr, hs, List.length_nil, if_neg (Nat.not_le.2 hlen)]
      · have hpos := p.length_pos
        have hle := p.length_le
        rw [hr]
        dsimp only
        rw [bind_apply, ih _ (by omega), input.rest_skip_append hs, ending_skip,
          exhausted_skip, input.skip_skip, Nat.add_sub_cancel' hle, hs, List.length_append]
        by_cases hall : len - p.symbols.length ≤ r.length
        · rw [if_pos hall, if_pos (by omega), List.take_append, List.take_of_length_le hle]
          rfl
        · rw [if_neg hall, if_neg (by omega)]
    next hlen =>
      obtain rfl : len = 0 := by omega
      rw [if_pos (Nat.zero_le _), input.skip_zero]
      rfl

/-! ## Messages -/

/-- A message on the wire. -/
def frame (payload : Bytes) : Bytes := encodeInt 4 (4 + payload.length) ++ payload

/-- The receiver asserts that there is something, and the length has to be an `int`. -/
def Sendable (payload : Bytes) : Prop := payload ≠ [] ∧ 4 + payload.length < 2 ^ 31

instance (payload : Bytes) : Decidable (Sendable payload) :=
  inferInstanceAs (Decidable (_ ∧ _))

theorem Sendable.fits {payload : Bytes} (h : Sendable payload) : Fits 4 (4 + payload.length) := by
  have := h.2
  constructor <;> omega

theorem length_frame (payload : Bytes) : (frame payload).length = 4 + payload.length := by
  rw [frame, List.length_append, length_encodeInt]

theorem readInt_encodeInt (bigEndian : Bool) {v : Int} (h : Fits 4 v) :
    ∃ t, Storage.readInt (.ofPacket bigEndian (encodeInt 4 v)) = .ok v t :=
  ⟨_, (Storage.recognises_readSigned (by decide) (by decide)).ok ⟨h, rfl⟩
    (List.append_nil _).symm⟩

/-- What comes first is taken for a length. -/
theorem receiveExact_of_length {v : Int} {r : Bytes} (hv : Fits 4 v)
    (h : input.rest s = encodeInt 4 v ++ r) : receiveExact s =
      if v ≤ 4 then .error (.assertion "totalLen > lengthLen") (input.skip 4 s)
      else if v ≤ 4 + r.length then
        .ok (.ofPacket s.bigEndian (r.take (v - 4).toNat)) (input.skip v.toNat s)
      else .error s.ending s.exhausted := by
  obtain ⟨t, ht⟩ := readInt_encodeInt s.bigEndian hv
  have hlen : (encodeInt 4 v).length = lengthLen := length_encodeInt 4 v
  have hrest : input.rest (input.skip lengthLen s) = r := by
    rw [← hlen]
    exact input.rest_skip_append h
  have hle : lengthLen ≤ (input.rest s).length := by
    rw [h, List.length_append, hlen]
    exact Nat.le_add_right _ _
  rw [receiveExact, bind_apply, receiveComplete_apply, if_pos hle]
  dsimp only
  rw [bind_apply, get_apply]
  dsimp only
  rw [h, List.take_left' hlen, bigEndian_skip, ht]
  dsimp only
  by_cases hv4 : v ≤ 4
  · have hgt : ¬ v > (lengthLen : Int) := Int.not_lt.2 hv4
    rw [if_pos hgt, if_pos hv4]
    rfl
  · have hgt : v > (lengthLen : Int) := Int.not_le.1 hv4
    rw [if_neg (not_not_intro hgt), if_neg hv4, bind_apply, get_apply]
    dsimp only
    rw [bind_apply, receiveComplete_apply, hrest, bigEndian_skip, ending_skip, exhausted_skip,
      input.skip_skip]
    have hadd : lengthLen + (v - lengthLen).toNat = v.toNat := by
      rw [lengthLen]
      omega
    by_cases hr : v ≤ 4 + r.length
    · have hr' : (v - lengthLen).toNat ≤ r.length := by
        rw [lengthLen]
        omega
      rw [if_pos hr, if_pos hr', hadd]
      rfl
    · have hr' : ¬ (v - lengthLen).toNat ≤ r.length := by
        rw [lengthLen]
        omega
      rw [if_neg hr, if_neg hr']

theorem receiveExact_of_lt (h : (input.rest s).length < 4) :
    receiveExact s = .error s.ending s.exhausted := by
  have hle : ¬ lengthLen ≤ (input.rest s).length := Nat.not_le.2 h
  rw [receiveExact, bind_apply, receiveComplete_apply, if_neg hle]

/-- Four bytes are the length of something. -/
theorem exists_length (h : ¬ (input.rest s).length < 4) :
    ∃ v r, Fits 4 v ∧ input.rest s = encodeInt 4 v ++ r := by
  have hlen : ((input.rest s).take 4).length = 4 := by
    rw [List.length_take]
    omega
  have hne : (input.rest s).take 4 ≠ [] := fun h => by
    rw [h] at hlen
    cases hlen
  have hfits := fits_decodeInt hne
  have hencode := encodeInt_decodeInt ((input.rest s).take 4)
  rw [hlen] at hfits hencode
  exact ⟨_, _, hfits, by rw [hencode, List.take_append_drop]⟩

theorem exists_skip (n : Nat) (s : Socket) : ∃ incoming, input.skip n s = { s with incoming } := by
  rcases s with ⟨_ | _, _, _, _, _⟩ <;> exact ⟨_, rfl⟩

theorem exists_exhausted (s : Socket) : ∃ incoming, s.exhausted = { s with incoming } := by
  rcases s with ⟨_ | _, _, _, _, _⟩ <;> exact ⟨_, rfl⟩

/-- Receiving only changes what is still to come. -/
theorem receiveExact_state (s : Socket) :
    ∃ incoming, (receiveExact s).state = { s with incoming } := by
  by_cases h4 : (input.rest s).length < 4
  · rw [receiveExact_of_lt h4]
    exact exists_exhausted s
  · obtain ⟨v, r, hv, hs⟩ := exists_length h4
    rw [receiveExact_of_length hv hs]
    split
    next => exact exists_skip 4 s
    next =>
      split
      next => exact exists_skip v.toNat s
      next => exact exists_exhausted s

/-- A message is received exactly if its frame comes next. -/
theorem receiveExact_eq_ok {m : Storage} : receiveExact s = .ok m s' ↔
    ∃ payload r, Sendable payload ∧ input.rest s = frame payload ++ r ∧
      m = .ofPacket s.bigEndian payload ∧ s' = input.skip (frame payload).length s := by
  constructor
  · intro h
    by_cases h4 : (input.rest s).length < 4
    · cases (receiveExact_of_lt h4).symm.trans h
    obtain ⟨v, r, hv, hs⟩ := exists_length h4
    rw [receiveExact_of_length hv hs] at h
    split at h
    next => cases h
    next hv4 =>
      split at h
      next hr =>
        have hlen : (r.take (v - 4).toNat).length = (v - 4).toNat := by
          rw [List.length_take]
          omega
        have hcast : (4 + (r.take (v - 4).toNat).length : Int) = v := by omega
        have hlt := hv.2
        have hsend : Sendable (r.take (v - 4).toNat) := by
          refine ⟨List.length_pos_iff.1 ?_, ?_⟩ <;> omega
        obtain ⟨rfl, rfl⟩ := Result.ok.inj h
        refine ⟨_, r.drop (v - 4).toNat, hsend, ?_, rfl, ?_⟩
        · rw [frame, hcast, List.append_assoc, List.take_append_drop, hs]
        · rw [length_frame]
          congr 1
          omega
      next => cases h
  · rintro ⟨payload, r, hp, hs, rfl, rfl⟩
    have hpos := List.length_pos_iff.2 hp.1
    have hsub : ((4 + payload.length : Int) - 4).toNat = payload.length := by omega
    rw [frame, List.append_assoc] at hs
    rw [receiveExact_of_length hp.fits hs, if_neg (by omega), if_pos, hsub, List.take_left,
      length_frame]
    · rfl
    · rw [List.length_append]
      omega

theorem exists_eq_append {α : Type} {l a b : List α} (h : l <+: a ++ b) (hle : a.length ≤ l.length) :
    ∃ l', l = a ++ l' ∧ l' <+: b := by
  obtain ⟨l', rfl⟩ := List.prefix_of_prefix_length_le (List.prefix_append a b) h hle
  exact ⟨l', rfl, (List.prefix_append_right_inj a).1 h⟩

/-- The message that comes first is received as a whole or not at all. -/
theorem receiveExact_of_prefix {payload r : Bytes} (hp : Sendable payload)
    (h : input.rest s <+: frame payload ++ r) : receiveExact s =
      if (frame payload).length ≤ (input.rest s).length then
        .ok (.ofPacket s.bigEndian payload) (input.skip (frame payload).length s)
      else .error s.ending s.exhausted := by
  split
  next hle =>
    obtain ⟨l, hl, -⟩ := exists_eq_append h hle
    exact receiveExact_eq_ok.2 ⟨payload, l, hp, hl, rfl, rfl⟩
  next hle =>
    rw [length_frame] at hle
    rw [frame, List.append_assoc] at h
    by_cases h4 : (input.rest s).length < 4
    · exact receiveExact_of_lt h4
    have hlen := length_encodeInt 4 (4 + payload.length)
    have hpos := List.length_pos_iff.2 hp.1
    obtain ⟨l, hl, -⟩ := exists_eq_append h (by omega)
    have hadd := congrArg List.length hl
    rw [List.length_append] at hadd
    rw [receiveExact_of_length hp.fits hl, if_neg (by omega), if_neg (by omega)]

/-! ## Sending -/

/-- What sending some bytes does to a socket. -/
def Sent (bytes : Bytes) (s s' : Socket) : Prop :=
  ∃ sendings, sendings <:+ s.sendings ∧ s' = { s with sendings, sent := s.sent ++ bytes }

theorem sendLoop_post {sendings : List Sending} (buffer : Bytes) {s : Socket}
    (hs : s.sendings = sendings) :
    Post (sendLoop sendings buffer) s (fun _ => Sent buffer s)
      fun _ s' => (∃ k, Sent (buffer.take k) s s') ∧ ∃ error, .fails error ∈ s.sendings := by
  induction sendings generalizing buffer s with
  | nil =>
    cases buffer with
    | nil => exact ⟨s.sendings, List.suffix_refl _, by rw [List.append_nil]⟩
    | cons b buffer => exact ⟨[], List.nil_suffix, rfl⟩
  | cons sending sendings ih =>
    cases buffer with
    | nil => exact ⟨s.sendings, List.suffix_refl _, by rw [List.append_nil]⟩
    | cons b buffer =>
      cases sending with
      | takes n =>
        rw [sendLoop.eq_def]
        apply (post_bind_of_ok (modify_apply ..)).2
        apply (ih ((b :: buffer).drop n) rfl).mono
        · rintro _ _ ⟨rest, hrest, rfl⟩
          refine ⟨rest, ?_, by rw [List.append_assoc, List.take_append_drop]⟩
          rw [hs]
          exact hrest.trans (List.suffix_cons _ _)
        · rintro _ _ ⟨⟨k, rest, hrest, rfl⟩, error, he⟩
          rw [hs]
          refine ⟨⟨n + k, rest, ?_, by rw [List.append_assoc, List.take_add]⟩, error,
            List.mem_cons_of_mem _ he⟩
          rw [hs]
          exact hrest.trans (List.suffix_cons _ _)
      | fails error =>
        rw [Post, sendLoop.eq_def]
        refine ⟨⟨0, sendings, ?_, by rw [List.take_zero, List.append_nil]⟩, error, ?_⟩
        · rw [hs]
          exact List.suffix_cons _ _
        · rw [hs]
          exact List.mem_cons_self ..

theorem sendExact_post {b : Storage} (hb : Sendable b.store) {s : Socket} (hs : s.connected = true) :
    Post (sendExact b) s (fun _ => Sent (frame b.store) s)
      fun _ s' => (∃ k, Sent ((frame b.store).take k) s s') ∧ ∃ error, .fails error ∈ s.sendings := by
  have hlen : toInt b.store.length = b.store.length := by
    have := hb.2
    exact toInt_of_fits ⟨by omega, by omega⟩
  rw [sendExact]
  apply (post_bind_of_ok (get_apply s)).2
  rw [hlen, Storage.writeInt, Storage.writeSigned_apply]
  apply (post_bind_of_ok (get_apply s)).2
  rw [if_pos hs]
  exact sendLoop_post _ rfl

def frames (messages : List Storage) : Bytes := messages.flatMap fun m => frame m.store

/-- What has left a socket is the beginning of the messages it was to send. -/
theorem sent_prefix {messages : List Storage} (hm : ∀ m ∈ messages, Sendable m.store) {s : Socket}
    (hs : s.connected = true) :
    ∃ bytes, bytes <+: frames messages ∧ (messages.forM sendExact s).state.sent = s.sent ++ bytes := by
  induction messages generalizing s with
  | nil => exact ⟨[], List.nil_prefix, (List.append_nil _).symm⟩
  | cons m messages ih =>
    obtain ⟨hfirst, hrest⟩ := List.forall_mem_cons.1 hm
    have hpost := sendExact_post hfirst hs
    rw [List.forM, bind_apply]
    cases hr : sendExact m s with
    | ok u t =>
      obtain ⟨sendings, -, ht⟩ := hpost.ok hr
      have hc : t.connected = true := by
        rw [ht]
        exact hs
      obtain ⟨bytes, hpre, hsent⟩ := ih hrest hc
      refine ⟨frame m.store ++ bytes, (List.prefix_append_right_inj _).2 hpre, ?_⟩
      dsimp only
      rw [hsent, ht, List.append_assoc]
    | error e t =>
      obtain ⟨⟨k, sendings, -, rfl⟩, -⟩ := hpost.error hr
      exact ⟨_, (List.take_prefix k _).trans (List.prefix_append _ _), rfl⟩

/-- Of the messages whose frames arrive, those are received that have arrived as a whole. -/
theorem receiveExact_of_frames {messages : List Storage} (hm : ∀ m ∈ messages, Sendable m.store)
    {b : Socket} (h : input.rest b <+: frames messages) {n : Nat} (hn : n ≤ messages.length) :
    replicateM receiveExact n b =
      if (frames (messages.take n)).length ≤ (input.rest b).length then
        .ok ((messages.take n).map fun m => .ofPacket b.bigEndian m.store)
          (input.skip (frames (messages.take n)).length b)
      else .error b.ending b.exhausted := by
  induction n generalizing messages b with
  | zero =>
    have hempty : (frames (messages.take 0)).length = 0 := rfl
    rw [hempty, if_pos (Nat.zero_le _), input.skip_zero]
    rfl
  | succ n ih =>
    cases messages with
    | nil => cases hn
    | cons m messages =>
      obtain ⟨hfirst, hrest⟩ := List.forall_mem_cons.1 hm
      have hframes : frames ((m :: messages).take (n + 1)) =
          frame m.store ++ frames (messages.take n) := rfl
      rw [replicateM, bind_apply, receiveExact_of_prefix hfirst h, hframes, List.length_append]
      by_cases hle : (frame m.store).length ≤ (input.rest b).length
      · obtain ⟨l, hl, hpl⟩ := exists_eq_append h hle
        have hskip := input.rest_skip_append hl
        rw [if_pos hle]
        dsimp only
        rw [bind_apply, ih hrest (by rwa [hskip]) (Nat.le_of_succ_le_succ hn), hskip, hl,
          List.length_append, bigEndian_skip, ending_skip, exhausted_skip, input.skip_skip]
        by_cases hall : (frames (messages.take n)).length ≤ l.length
        · rw [if_pos hall, if_pos (Nat.add_le_add_left hall _)]
          rfl
        · rw [if_neg hall, if_neg fun h => hall (Nat.le_of_add_le_add_left h)]
      · rw [if_neg hle, if_neg fun h => hle (Nat.le_trans (Nat.le_add_right _ _) h)]

/-- Whatever becomes of the sender, the system may divide and cut the bytes it has sent as it likes:
of the messages the peer receives those that have arrived as a whole, in the order in which they have
been sent, and then the exception that comes after the last byte. -/
theorem delivered {messages : List Storage} (hm : ∀ m ∈ messages, Sendable m.store) {a b : Socket}
    (ha : a.connected = true)
    (hb : a.sent ++ input.rest b <+: (messages.forM sendExact a).state.sent) {n : Nat}
    (hn : n ≤ messages.length) :
    replicateM receiveExact n b =
      if (frames (messages.take n)).length ≤ (input.rest b).length then
        .ok ((messages.take n).map fun m => .ofPacket b.bigEndian m.store)
          (input.skip (frames (messages.take n)).length b)
      else .error b.ending b.exhausted := by
  obtain ⟨bytes, hpre, hsent⟩ := sent_prefix hm ha
  rw [hsent, List.prefix_append_right_inj] at hb
  exact receiveExact_of_frames hm (hb.trans hpre) hn

/-- The system takes three bytes first. -/
def sender : Socket where
  connected := true
  incoming := []
  sendings := [.takes 3]
  sent := []
  bigEndian := false

/-- The last byte is lost. -/
def receiver : Socket where
  connected := true
  incoming := [.piece 0 [0], .piece 0 [5, 1, 0], .piece 0 [0, 6, 2]]
  sendings := []
  sent := []
  bigEndian := true

theorem delivered_cut :
    replicateM receiveExact 1 receiver = .ok [.ofPacket true [1]]
      { receiver with incoming := [.piece 0 [], .piece 0 [0, 6, 2]] } ∧
    replicateM receiveExact 2 receiver =
      .error (.socketException "tcpip::Socket::recvAndCheck @ recv: peer shutdown")
        { receiver with incoming := [] } := by
  have hm : ∀ m ∈ [Storage.ofPacket false [1], .ofPacket false [2, 3]], Sendable m.store := by decide
  have hb : sender.sent ++ input.rest receiver <+:
      ([Storage.ofPacket false [1], .ofPacket false [2, 3]].forM sendExact sender).state.sent := by
    decide
  constructor
  · exact delivered hm rfl hb (by decide)
  · exact delivered hm rfl hb (by decide)

end Cosidia.Traci.Socket
