import Cosidia.Radio.Radio
import Cosidia.Verify.Resolution

/-!
# Transmissions

What the methods of a transmission make of it, and what the two tasks of the radio do with one that is
set up.
-/

namespace Cosidia

open EStateM Std

variable {π : Type}

/-! ## Transmissions that are set up -/

namespace Transmission

/-- Transmissions as the methods of the class make them. -/
inductive Built : Transmission π → Prop
  | new (packet : π) : Built { mPacket := packet }
  | addPossibleReceiver {t t' : Transmission π} {id : ObjectId} {vehicle : Option ObjectPtr} :
    Built t → Transmission.addPossibleReceiver id vehicle t = .ok ⟨⟩ t' → Built t'
  | addEmitter {t t' : Transmission π} {id : ObjectId} {dynamics : Option VehicleObjectContext} :
    Built t → Transmission.addEmitter id dynamics t = .ok ⟨⟩ t' → Built t'
  | setupReceiverContext {t t' : Transmission π} {onCoreThread : Bool}
    {context : Option ObjectPtr → Option (Option VehicleObjectContext)} :
    Built t → Transmission.setupReceiverContext onCoreThread context t = .ok ⟨⟩ t' → Built t'

theorem setupReceivers_mem {context : Option ObjectPtr → Option (Option VehicleObjectContext)}
    {receivers : List (ObjectId × Receiver)} {t t' : Transmission π}
    (h : setupReceivers context receivers t = .ok ⟨⟩ t') {i : ObjectId} :
    i ∈ t'.mPossibleReceivers ↔ i ∈ receivers.map (·.1) ∨ i ∈ t.mPossibleReceivers := by
  induction receivers generalizing t with
  | nil =>
    obtain ⟨-, rfl⟩ := pure_eq_ok.1 h
    simp
  | cons e receivers ih =>
    obtain ⟨id, receiver⟩ := e
    simp only [setupReceivers] at h
    cases hc : context receiver.mobility with
    | none =>
      rw [hc] at h
      cases h
    | some c =>
      rw [hc] at h
      obtain ⟨_, t₁, hmodify, hrest⟩ := bind_eq_ok.1 h
      rw [ih hrest, ← modify_eq_ok.1 hmodify, List.map_cons, List.mem_cons, TreeMap.mem_insert,
        Std.compare_eq_iff_eq, @eq_comm _ id, or_assoc, or_left_comm]

theorem addPossibleReceiver_spec {t t' : Transmission π} {id : ObjectId} {vehicle : Option ObjectPtr}
    (h : addPossibleReceiver id vehicle t = .ok ⟨⟩ t') : id.valid = true ∧ ∃ receiver,
      t' = { t with mPossibleReceivers := t.mPossibleReceivers.insert id receiver } := by
  obtain ⟨_, t₁, h₁, hrest₁⟩ := bind_eq_ok.1 h
  obtain ⟨_, t₂, h₂, hrest₂⟩ := bind_eq_ok.1 hrest₁
  obtain ⟨_, t₃, h₃, hrest₃⟩ := bind_eq_ok.1 hrest₂
  obtain ⟨_, t₄, h₄, hrest₄⟩ := bind_eq_ok.1 hrest₃
  obtain ⟨hvalid, rfl⟩ := enforce_eq_ok.1 h₁
  obtain ⟨-, rfl⟩ := enforce_eq_ok.1 h₂
  obtain ⟨-, rfl⟩ := get_eq_ok.1 h₃
  obtain ⟨-, rfl⟩ := enforce_eq_ok.1 h₄
  exact ⟨hvalid, _, (modify_eq_ok.1 hrest₄).symm⟩

theorem addEmitter_spec {t t' : Transmission π} {id : ObjectId}
    {dynamics : Option VehicleObjectContext} (h : addEmitter id dynamics t = .ok ⟨⟩ t') :
    t' = { t with mEmitter := id, mEmitterContext := dynamics } := by
  obtain ⟨_, t₁, h₁, hrest₁⟩ := bind_eq_ok.1 h
  obtain ⟨_, t₂, h₂, hrest₂⟩ := bind_eq_ok.1 hrest₁
  obtain ⟨_, t₃, h₃, hrest₃⟩ := bind_eq_ok.1 hrest₂
  obtain ⟨-, rfl⟩ := enforce_eq_ok.1 h₁
  obtain ⟨-, rfl⟩ := get_eq_ok.1 h₂
  obtain ⟨-, rfl⟩ := enforce_eq_ok.1 h₃
  exact (modify_eq_ok.1 hrest₃).symm

theorem setupReceiverContext_mem {t t' : Transmission π} {onCoreThread : Bool}
    {context : Option ObjectPtr → Option (Option VehicleObjectContext)}
    (h : setupReceiverContext onCoreThread context t = .ok ⟨⟩ t') {i : ObjectId} :
    i ∈ t'.mPossibleReceivers ↔ i ∈ t.mPossibleReceivers := by
  obtain ⟨_, t₁, h₁, hrest₁⟩ := bind_eq_ok.1 h
  obtain ⟨_, t₂, h₂, hrest₂⟩ := bind_eq_ok.1 hrest₁
  obtain ⟨_, t₃, h₃, hrest₃⟩ := bind_eq_ok.1 hrest₂
  obtain ⟨_, t₄, h₄, hrest₄⟩ := bind_eq_ok.1 hrest₃
  obtain ⟨_, t₅, hreceivers, hrest₅⟩ := bind_eq_ok.1 hrest₄
  obtain ⟨-, rfl⟩ := enforce_eq_ok.1 h₁
  obtain ⟨-, rfl⟩ := get_eq_ok.1 h₂
  obtain ⟨-, rfl⟩ := enforce_eq_ok.1 h₃
  obtain ⟨rfl, rfl⟩ := get_eq_ok.1 h₄
  rw [← modify_eq_ok.1 hrest₅]
  refine (setupReceivers_mem hreceivers).trans (or_iff_right_of_imp fun hi => ?_)
  obtain ⟨e, he, rfl⟩ := List.mem_map.1 hi
  rw [TreeMap.mem_iff_isSome_getElem?, TreeMap.mem_toList_iff_getElem?_eq_some.1 he]
  rfl

/-- Everyone who possibly receives the transmission. -/
def recipients (t : Transmission π) : List ObjectId := t.mPossibleReceivers.toList.map (·.1)

theorem nodup_recipients (t : Transmission π) : t.recipients.Nodup := by
  simp only [recipients]
  rw [TreeMap.map_fst_toList_eq_keys]
  exact TreeMap.nodup_keys

/-- All possible receivers have valid ids. -/
theorem Built.valid {t : Transmission π} (h : Built t) :
    ∀ i ∈ t.mPossibleReceivers, i.valid = true := by
  induction h with
  | new packet => exact fun i hi => absurd hi TreeMap.not_mem_emptyc
  | addPossibleReceiver _ hok ih =>
    obtain ⟨hvalid, receiver, rfl⟩ := addPossibleReceiver_spec hok
    intro i hi
    rcases TreeMap.mem_insert.1 hi with heq | hi
    · rwa [← Std.compare_eq_iff_eq.1 heq]
    · exact ih i hi
  | addEmitter _ hok ih =>
    rw [addEmitter_spec hok]
    exact ih
  | setupReceiverContext _ hok ih =>
    exact fun i hi => ih i ((setupReceiverContext_mem hok).1 hi)

theorem Built.valid_recipients {t : Transmission π} (h : Built t) :
    ∀ i ∈ t.recipients, i.valid = true := by
  intro i hi
  simp only [recipients] at hi
  rw [TreeMap.map_fst_toList_eq_keys, TreeMap.mem_keys] at hi
  exact h.valid i hi

end Transmission

namespace Radio

/-! ## The tasks -/

section
variable {s : Core (Ether π)} {this : ObjectPtr} {action : ActionPtr} {d : DataPtr}

/-- The action by which the radio with the id `rid` ends the transmission `d` that `a` has begun. -/
def endAction (a : Action) (rid : ObjectId) (d : DataPtr) : Action where
  kind := .durationAction
  mDuration := Duration.milliseconds 2
  mStartTime := a.mStartTime + a.mDuration + Duration.milliseconds 2
  mAffectedObject := rid
  mGeneratingObject := rid
  mType := "transmissionEnd"
  mActionData := some d

/-- The action by which it indicates the transmission `d` to a receiver when it is ended by `a`. -/
def indication (a : Action) (rid : ObjectId) (d : DataPtr) (receiver : ObjectId) : Action where
  kind := .durationAction
  mDuration := Duration.milliseconds 2
  mStartTime := a.mStartTime + a.mDuration + Duration.milliseconds 1
  mAffectedObject := receiver
  mGeneratingObject := rid
  mType := "indication"
  mActionData := some d

theorem setUp_newest {a : Action} (ha : a.mActionData = none) (type : Symbol) :
    setUp s.actions.next type d { s with actions := s.actions.alloc a } =
      .ok ⟨⟩ { s with
        actions := s.actions.alloc { a with mType := type, mActionData := some d } } := by
  have htype : Action.setType type a = .ok () { a with mType := type } := rfl
  have hdata : Action.setActionData d { a with mType := type } =
      .ok () { a with mType := type, mActionData := some d } := by
    obtain ⟨kind, duration, start, affected, generating, type', data, id, machine⟩ := a
    obtain rfl : data = none := ha
    rfl
  simp only [setUp]
  rw [bind_apply, onAction_newest htype s]
  exact onAction_newest hdata s

theorem getTransmission_ok (haction : action < s.actions.next)
    (hdata : (s.actions.cell action).mActionData = some d) : getTransmission action s = .ok d s := by
  simp only [getTransmission]
  rw [bind_apply, getAction_of_lt haction]
  dsimp only
  rw [hdata]
  rfl

variable (hthis : this < s.objects.next) (haction : action < s.actions.next)
variable (hstart : 0 ≤ (s.actions.cell action).mStartTime)
variable (hduration : 0 ≤ (s.actions.cell action).mDuration)
include hthis haction hstart hduration

theorem startTransmission_ok (hvalid : (s.objects.cell this).mObjectId.valid = true)
    (hdata : (s.actions.cell action).mActionData = some d) {t : Transmission π}
    (ht : s.world.data.cell d = .transmission t) (hsetup : t.isSetup = true)
    (context : RadioContext) : startTransmission this action context s =
      .ok ⟨[s.actions.next], some (context.insertIfNew d t.recipients)⟩
        { s with
          actions := s.actions.alloc
            (endAction (s.actions.cell action) (s.objects.cell this).mObjectId d) } := by
  have hread : readTransmission d s = .ok t s := by
    simp only [readTransmission]
    rw [bind_apply, get_apply]
    dsimp only
    rw [ht]
    rfl
  have hdecide : (ofExcept (MessagesForEveryonePhysicalDecider.decideOnPhysical t) :
      CoreM (Ether π) _) s = .ok t.recipients s :=
    ofExcept_eq_ok.2 ⟨if_pos hsetup, rfl⟩
  have hlater : 0 ≤ (s.actions.cell action).mStartTime + (s.actions.cell action).mDuration +
      Duration.milliseconds 2 :=
    Int.add_nonneg (Int.add_nonneg hstart hduration) (by decide)
  have hcreate : createSelfAction this (Duration.milliseconds 2) ((s.actions.cell action).mStartTime +
      (s.actions.cell action).mDuration + Duration.milliseconds 2) s = _ :=
    bind_eq_ok.2 ⟨_, s, getObject_of_lt hthis, ActionFactory.create_apply hvalid hlater s⟩
  refine bind_eq_ok.2 ⟨d, s, getTransmission_ok haction hdata, ?_⟩
  refine bind_eq_ok.2 ⟨t, s, hread, bind_eq_ok.2 ⟨_, s, hdecide, ?_⟩⟩
  refine bind_eq_ok.2 ⟨_, s, getAction_of_lt haction, bind_eq_ok.2 ⟨_, _, hcreate, ?_⟩⟩
  exact bind_eq_ok.2 ⟨_, _, setUp_newest rfl _, rfl⟩

theorem indicate_ok {receiver : ObjectId} (hvalid : receiver.valid = true) :
    indicate this action d receiver s = .ok s.actions.next { s with
      actions := s.actions.alloc
        (indication (s.actions.cell action) (s.objects.cell this).mObjectId d receiver) } := by
  have hlater : 0 ≤ (s.actions.cell action).mStartTime + (s.actions.cell action).mDuration +
      Duration.milliseconds 1 :=
    Int.add_nonneg (Int.add_nonneg hstart hduration) (by decide)
  refine bind_eq_ok.2 ⟨_, s, getAction_of_lt haction, ?_⟩
  refine bind_eq_ok.2 ⟨_, s, getObject_of_lt hthis, ?_⟩
  refine bind_eq_ok.2 ⟨_, _, ActionFactory.create_apply hvalid hlater s, ?_⟩
  exact bind_eq_ok.2 ⟨_, _, setUp_newest rfl _, rfl⟩

theorem mapM_indicate_ok {receivers : List ObjectId} (hvalid : ∀ i ∈ receivers, i.valid = true) :
    receivers.mapM (indicate this action d) s =
      .ok (List.range' s.actions.next receivers.length) { s with
        actions := s.actions.allocAll (receivers.map
          (indication (s.actions.cell action) (s.objects.cell this).mObjectId d)) } := by
  induction receivers generalizing s with
  | nil => rfl
  | cons receiver receivers ih =>
    obtain ⟨hreceiver, hreceivers⟩ := List.forall_mem_cons.1 hvalid
    rw [List.mapM_cons]
    refine bind_eq_ok.2 ⟨_, _, indicate_ok hthis haction hstart hduration hreceiver, ?_⟩
    have hcell := Heap.alloc_cell_of_lt (a :=
      indication (s.actions.cell action) (s.objects.cell this).mObjectId d receiver) haction
    have hrest := @ih { s with
      actions := s.actions.alloc
        (indication (s.actions.cell action) (s.objects.cell this).mObjectId d receiver) } hthis
      (Nat.lt_succ_of_lt haction) (by rwa [hcell]) (by rwa [hcell]) hreceivers
    refine bind_eq_ok.2 ⟨_, _, hrest, ?_⟩
    dsimp only
    rw [hcell]
    rfl

theorem endTransmission_ok (hdata : (s.actions.cell action).mActionData = some d)
    {context : RadioContext} {receivers : List ObjectId} (hentry : context[d]? = some receivers)
    (hvalid : ∀ i ∈ receivers, i.valid = true) : endTransmission this action context s =
      .ok ⟨List.range' s.actions.next receivers.length, some (context.erase d)⟩ { s with
        actions := s.actions.allocAll (receivers.map
          (indication (s.actions.cell action) (s.objects.cell this).mObjectId d)) } := by
  have hdecide : (ofExcept (NoInterferenceDecider.decideOnInterferences d context) :
      CoreM (Ether π) _) s = .ok receivers s := by
    refine ofExcept_eq_ok.2 ⟨?_, rfl⟩
    simp only [NoInterferenceDecider.decideOnInterferences]
    rw [hentry]
  refine bind_eq_ok.2 ⟨d, s, getTransmission_ok haction hdata, bind_eq_ok.2 ⟨_, s, hdecide, ?_⟩⟩
  exact bind_eq_ok.2 ⟨_, _, mapM_indicate_ok hthis haction hstart hduration hvalid, rfl⟩

end

end Radio

end Cosidia
