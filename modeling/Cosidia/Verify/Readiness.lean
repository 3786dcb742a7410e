import Cosidia.Verify.Transmissions
import Mathlib.Data.List.Induction

/-!
# When a transmission is ready

A transmission counts as set up when `setupReceiverContext` has been called and there is an emitter.
Receivers that come in between have no context, and the deciders that look at their positions
dereference it nevertheless.
-/

namespace Cosidia

open EStateM Std

variable {π : Type} {t t' : Transmission π}

/-! ## Deciders -/

theorem Receiver.getPosition_eq_ok {receiver : Receiver} :
    (∃ rx, receiver.getPosition = .ok rx) ↔ receiver.receiverContext.isSome = true := by
  simp only [Receiver.getPosition]
  cases receiver.receiverContext with
  | none => exact iff_of_false (by rintro ⟨_, h⟩; cases h) nofun
  | some context => exact iff_of_true ⟨_, rfl⟩ rfl

/-- The loop dereferences the context of every receiver. -/
theorem inReach_returns_iff {δ : Type} {reaches : Position → EStateM Failure δ Bool}
    (h : ∀ rx d, ∃ reached d', reaches rx d = .ok reached d')
    (receivers : List (ObjectId × Receiver)) (d : δ) :
    (∃ list d', inReach reaches receivers d = .ok list d') ↔
      ∀ e ∈ receivers, (Prod.snd e).receiverContext.isSome = true := by
  induction receivers generalizing d with
  | nil => exact iff_of_true ⟨_, _, rfl⟩ nofun
  | cons e receivers ih =>
    rw [List.forall_mem_cons, ← Receiver.getPosition_eq_ok, inReach]
    constructor
    · rintro ⟨list, d', hok⟩
      obtain ⟨rx, d₁, hrx, hok⟩ := bind_eq_ok.1 hok
      obtain ⟨reached, d₂, hreaches, hok⟩ := bind_eq_ok.1 hok
      obtain ⟨list, d₃, hlist, -⟩ := bind_eq_ok.1 hok
      exact ⟨⟨rx, (ofExcept_eq_ok.1 hrx).1⟩, (ih d₂).1 ⟨list, d₃, hlist⟩⟩
    · rintro ⟨⟨rx, hrx⟩, hall⟩
      obtain ⟨reached, d₁, hreaches⟩ := h rx d
      obtain ⟨list, d₂, hlist⟩ := (ih d₁).2 hall
      exact ⟨_, d₂, bind_eq_ok.2 ⟨rx, d, ofExcept_eq_ok.2 ⟨hrx, rfl⟩, bind_eq_ok.2 ⟨reached, d₁, hreaches,
        bind_eq_ok.2 ⟨list, d₂, hlist, rfl⟩⟩⟩⟩

namespace Transmission

/-- All possible receivers have a context. -/
def Served (t : Transmission π) : Prop :=
  ∀ e ∈ t.mPossibleReceivers.toList, (Prod.snd e).receiverContext.isSome = true

theorem getTransmitterPosition_of_isSetup (h : t.isSetup = true) :
    ∃ tx, t.getTransmitterPosition = .ok tx := by
  simp only [isSetup] at h
  rw [Bool.and_eq_true] at h
  obtain ⟨context, hc⟩ := Option.isSome_iff_exists.1 h.2
  exact ⟨context.position, by rw [getTransmitterPosition, hc]⟩

/-- A decider that checks `isSetup` first returns exactly if the receivers have contexts. -/
theorem decider_returns_iff {δ : Type} (h : t.isSetup = true) (msg : String)
    {reaches : Position → Position → EStateM Failure δ Bool}
    (hreaches : ∀ tx rx d, ∃ reached d', reaches tx rx d = .ok reached d') (d : δ) :
    (∃ list d', (do
      enforce t.isSetup msg
      let tx ← ofExcept t.getTransmitterPosition
      inReach (reaches tx) t.mPossibleReceivers.toList) d = .ok list d') ↔ t.Served := by
  obtain ⟨tx, htx⟩ := getTransmitterPosition_of_isSetup h
  rw [h, enforce_true, htx]
  exact inReach_returns_iff (hreaches tx) _ d

/-- On a transmission that is set up the distance-based deciders return exactly if all receivers have
a context. -/
theorem simpleDistance_returns_iff (h : t.isSetup = true) (distance : Position → Position → Float)
    (decider : SimpleDistancePhysicalDecider) :
    (∃ list decider', SimpleDistancePhysicalDecider.decideOnPhysical distance t decider =
      .ok list decider') ↔ t.Served :=
  decider_returns_iff h _ (fun _ _ d => ⟨_, d, rfl⟩) decider

theorem logDistance_returns_iff {G : Type} (h : t.isSetup = true)
    (distance : Position → Position → Float) (mNormalNoise : G → Float × G)
    (decider : LogDistancePhysicalDecider G) :
    (∃ list decider', LogDistancePhysicalDecider.decideOnPhysical distance mNormalNoise t decider =
      .ok list decider') ↔ t.Served :=
  decider_returns_iff h _ (fun _ _ _ => ⟨_, _, rfl⟩) decider

/-! ## The methods -/

/-- A call on the core thread. The vehicles are alive and have a context. -/
inductive Call where
  | addPossibleReceiver (id : ObjectId) (vehicle : ObjectPtr)
  | setupReceiverContext (context : ObjectPtr → VehicleObjectContext)
  | addEmitter (id : ObjectId) (dynamics : VehicleObjectContext)

namespace Call

def perform : Call → EStateM Failure (Transmission π) Unit
  | addPossibleReceiver id vehicle => Transmission.addPossibleReceiver id (some vehicle)
  | setupReceiverContext context => Transmission.setupReceiverContext true fun mobility =>
    mobility.map fun vehicle => some (context vehicle)
  | addEmitter id dynamics => Transmission.addEmitter id (some dynamics)

/-- The ids are valid. -/
def Valid : Call → Prop
  | addPossibleReceiver id _ => id.valid = true
  | setupReceiverContext _ => True
  | addEmitter id _ => id.valid = true

end Call

/-- The calls one after the other, whether they return or throw. -/
def run (calls : List Call) (t : Transmission π) : Transmission π :=
  calls.foldl (fun t c => (c.perform t).state) t

theorem run_append (calls calls' : List Call) (t : Transmission π) :
    run (calls ++ calls') t = run calls' (run calls t) := List.foldl_append

/-- Every receiver has been entered with a vehicle. -/
def Mobile (t : Transmission π) : Prop :=
  ∀ e ∈ t.mPossibleReceivers.toList, (Prod.snd e).mobility.isSome = true

theorem forall_toList_iff {m : TreeMap ObjectId Receiver} {P : Receiver → Prop} :
    (∀ e ∈ m.toList, P e.2) ↔ ∀ (i : ObjectId) (r : Receiver), m[i]? = some r → P r := by
  refine ⟨fun h i r hr => h (i, r) (TreeMap.mem_toList_iff_getElem?_eq_some.2 hr), fun h e he => ?_⟩
  exact h e.1 e.2 (TreeMap.mem_toList_iff_getElem?_eq_some.1 he)

theorem mobile_iff : t.Mobile ↔ ∀ (i : ObjectId) (r : Receiver), t.mPossibleReceivers[i]? = some r →
    r.mobility.isSome = true :=
  forall_toList_iff (P := fun r => r.mobility.isSome = true)

theorem served_iff : t.Served ↔ ∀ (i : ObjectId) (r : Receiver), t.mPossibleReceivers[i]? = some r →
    r.receiverContext.isSome = true :=
  forall_toList_iff (P := fun r => r.receiverContext.isSome = true)

theorem Mobile.insert (h : t.Mobile) (id : ObjectId) (vehicle : ObjectPtr) :
    Mobile
      { t with
        mPossibleReceivers := t.mPossibleReceivers.insert id ⟨id, some vehicle, none⟩ } := by
  apply mobile_iff.2
  intro i r hr
  rw [TreeMap.getElem?_insert] at hr
  split_ifs at hr
  · rw [← Option.some.inj hr]
    rfl
  · exact mobile_iff.1 h i r hr

/-- When the transmission is set up, all calls throw and change nothing. -/
theorem perform_of_isSetup (h : t.isSetup = true) (c : Call) :
    ∃ e, c.perform t = .error e t := by
  cases c with
  | addPossibleReceiver id vehicle =>
    cases hid : id.valid <;>
      simp [Call.perform, addPossibleReceiver, bind_apply, get_apply, pure_apply, throw_apply, enforce,
        hid, h]
  | setupReceiverContext context =>
    simp [Call.perform, setupReceiverContext, bind_apply, get_apply, pure_apply, throw_apply, enforce, h]
  | addEmitter id dynamics =>
    cases hid : id.valid <;>
      simp [Call.perform, addEmitter, bind_apply, get_apply, pure_apply, throw_apply, enforce, hid, h]

section
variable (h : t.isSetup = false)
include h

theorem perform_addPossibleReceiver {id : ObjectId} (hid : id.valid = true) (vehicle : ObjectPtr) :
    (Call.addPossibleReceiver id vehicle).perform t = .ok () { t with
      mPossibleReceivers := t.mPossibleReceivers.insert id
        { lowestLayer := id, mobility := some vehicle } } := by
  simp [Call.perform, addPossibleReceiver, bind_apply, get_apply, pure_apply, modify_apply, enforce,
    hid, h]

theorem perform_addEmitter {id : ObjectId} (hid : id.valid = true) (dynamics : VehicleObjectContext) :
    (Call.addEmitter id dynamics).perform t =
      .ok () { t with mEmitter := id, mEmitterContext := some dynamics } := by
  simp [Call.perform, addEmitter, bind_apply, get_apply, pure_apply, modify_apply, enforce, hid, h]

end

/-- The loop gives contexts to the receivers it goes through. -/
theorem setupReceivers_spec (context : ObjectPtr → VehicleObjectContext)
    (receivers : List (ObjectId × Receiver)) (t : Transmission π)
    (hmobile : ∀ e ∈ receivers, (Prod.snd e).mobility.isSome = true) :
    ∃ m, setupReceivers (fun mobility => mobility.map fun vehicle => some (context vehicle)) receivers t =
        .ok () { t with mPossibleReceivers := m } ∧
      ∀ (i : ObjectId) (r : Receiver), m[i]? = some r →
        (r.mobility.isSome = true ∧ r.receiverContext.isSome = true) ∨
          (i ∉ receivers.map (·.1) ∧ t.mPossibleReceivers[i]? = some r) := by
  induction receivers generalizing t with
  | nil => exact ⟨_, rfl, fun i r hr => .inr ⟨nofun, hr⟩⟩
  | cons e receivers ih =>
    obtain ⟨id, receiver⟩ := e
    obtain ⟨hhead, htail⟩ := List.forall_mem_cons.1 hmobile
    obtain ⟨vehicle, hvehicle⟩ := Option.isSome_iff_exists.1 hhead
    obtain ⟨m, hok, hm⟩ := ih
      { t with
        mPossibleReceivers := t.mPossibleReceivers.insert id
          { receiver with receiverContext := some (context vehicle) } } htail
    refine ⟨m, ?_, fun i r hr => ?_⟩
    · have hmap : receiver.mobility.map (fun vehicle => some (context vehicle)) =
          some (some (context vehicle)) := by
        rw [show receiver.mobility = some vehicle from hvehicle, Option.map_some]
      simp only [setupReceivers]
      rw [hmap]
      exact hok
    · rcases hm i r hr with hserved | ⟨hi, hold⟩
      · exact .inl hserved
      · rw [TreeMap.getElem?_insert] at hold
        split_ifs at hold with heq
        · obtain rfl := Option.some.inj hold
          exact .inl ⟨hhead, rfl⟩
        · refine .inr ⟨fun hmem => ?_, hold⟩
          rcases List.mem_cons.1 hmem with rfl | hmem
          · exact heq (Std.compare_eq_iff_eq.2 rfl)
          · exact hi hmem

theorem perform_setupReceiverContext (h : t.isSetup = false) (hmobile : t.Mobile)
    (context : ObjectPtr → VehicleObjectContext) :
    ∃ m, (Call.setupReceiverContext context).perform t =
        .ok () { t with mPossibleReceivers := m, mIsSetupDone := true } ∧
      ∀ (i : ObjectId) (r : Receiver), m[i]? = some r →
        r.mobility.isSome = true ∧ r.receiverContext.isSome = true := by
  obtain ⟨m, hok, hm⟩ := setupReceivers_spec context t.mPossibleReceivers.toList t hmobile
  refine ⟨m, ?_, fun i r hr => (hm i r hr).resolve_right fun ⟨hi, hold⟩ => hi ?_⟩
  · simp only [Call.perform, setupReceiverContext, bind_apply, get_apply, pure_apply, modify_apply,
      enforce, h, hok, Bool.not_false, if_true]
  · exact List.mem_map_of_mem (TreeMap.mem_toList_iff_getElem?_eq_some.2 hold)

/-! ## Sequences of calls -/

/-- What is relied on: when the transmission is set up, all receivers have a context, and nothing can
be changed any more. -/
def Ready (t : Transmission π) : Prop :=
  t.isSetup = true → t.Served ∧ ∀ c : Call, ∃ e, c.perform t = .error e t

/-- A receiver has been added for which no contexts have been set up any more. -/
def Unserved (calls : List Call) : Prop :=
  ∃ before id vehicle after, calls = before ++ .addPossibleReceiver id vehicle :: after ∧
    ∀ context, .setupReceiverContext context ∉ after

/-- The calls contain no `addEmitter`. -/
def Unemitted (calls : List Call) : Prop := ∀ id dynamics, .addEmitter id dynamics ∉ calls

/-- Before the first `addEmitter` there are a `setupReceiverContext` and, after the last one of these,
an `addPossibleReceiver`. -/
def Late (calls : List Call) : Prop :=
  ∃ before id dynamics after, calls = before ++ .addEmitter id dynamics :: after ∧ Unemitted before ∧
    (∃ context, .setupReceiverContext context ∈ before) ∧ Unserved before

theorem unserved_concat {calls : List Call} {c : Call} : Unserved (calls ++ [c]) ↔
    (∃ id vehicle, c = .addPossibleReceiver id vehicle) ∨
      (∀ context, c ≠ .setupReceiverContext context) ∧ Unserved calls := by
  constructor
  · rintro ⟨before, id, vehicle, after, heq, hafter⟩
    rcases List.eq_nil_or_concat after with rfl | ⟨after, x, rfl⟩
    · obtain ⟨-, hc⟩ := List.append_inj' heq rfl
      exact .inl ⟨id, vehicle, List.singleton_inj.1 hc⟩
    · rw [List.concat_eq_append] at heq hafter
      rw [← List.cons_append, ← List.append_assoc] at heq
      obtain ⟨rfl, hc⟩ := List.append_inj' heq rfl
      obtain rfl := List.singleton_inj.1 hc
      refine .inr ⟨fun context hc => hafter context (by simp [hc]), before, id, vehicle, after, rfl,
        fun context hmem => hafter context (List.mem_append_left _ hmem)⟩
  · rintro (⟨id, vehicle, rfl⟩ | ⟨hc, before, id, vehicle, after, rfl, hafter⟩)
    · exact ⟨calls, id, vehicle, [], rfl, fun _ => List.not_mem_nil⟩
    · refine ⟨before, id, vehicle, after ++ [c], by simp, fun context hmem => ?_⟩
      rcases List.mem_append.1 hmem with hmem | hmem
      · exact hafter context hmem
      · exact hc context (List.mem_singleton.1 hmem).symm

/-- The transmission as long as it has no emitter. -/
structure Waiting (calls : List Call) (t : Transmission π) : Prop where
  mEmitterContext : t.mEmitterContext = none
  mobile : t.Mobile
  done : t.mIsSetupDone = true ↔ ∃ context, .setupReceiverContext context ∈ calls
  served : t.Served ↔ ¬ Unserved calls

theorem Waiting.isSetup {calls : List Call} (h : Waiting calls t) : t.isSetup = false := by
  rw [Transmission.isSetup, h.mEmitterContext, Option.isSome_none, Bool.and_false]

theorem Waiting.concat {calls : List Call} {c : Call} (h : Waiting calls t) (hc : c.Valid)
    (hemit : ∀ id dynamics, c ≠ .addEmitter id dynamics) :
    Waiting (calls ++ [c]) (c.perform t).state := by
  cases c with
  | addPossibleReceiver id vehicle =>
    rw [perform_addPossibleReceiver h.isSetup hc, Result.state_ok]
    have hnew : ¬ Served
        { t with
          mPossibleReceivers := t.mPossibleReceivers.insert id ⟨id, some vehicle, none⟩ } := by
      intro hserved
      have hnone := served_iff.1 hserved id _ TreeMap.getElem?_insert_self
      cases hnone
    refine ⟨h.mEmitterContext, ?_, ?_, iff_of_false hnew fun hn => hn ?_⟩
    · exact h.mobile.insert id vehicle
    · refine h.done.trans (exists_congr fun context => ?_)
      simp
    · exact unserved_concat.2 (.inl ⟨id, vehicle, rfl⟩)
  | setupReceiverContext context =>
    obtain ⟨m, hok, hm⟩ := perform_setupReceiverContext h.isSetup h.mobile context
    rw [hok, Result.state_ok]
    refine ⟨h.mEmitterContext, mobile_iff.2 fun i r hr => (hm i r hr).1, ?_, ?_⟩
    · exact iff_of_true rfl ⟨context, by simp⟩
    · apply iff_of_true (served_iff.2 fun i r hr => (hm i r hr).2)
      intro hun
      rcases unserved_concat.1 hun with ⟨id, vehicle, hc⟩ | ⟨hc, -⟩
      · cases hc
      · exact hc context rfl
  | addEmitter id dynamics => exact absurd rfl (hemit id dynamics)

theorem waiting_run (packet : π) {calls : List Call} (hcalls : ∀ c ∈ calls, c.Valid)
    (hemit : Unemitted calls) : Waiting calls (run calls { mPacket := packet }) := by
  induction calls using List.reverseRecOn with
  | nil =>
    refine ⟨rfl, nofun, iff_of_false nofun (by rintro ⟨_, h⟩; cases h), iff_of_true nofun ?_⟩
    rintro ⟨before, id, vehicle, after, heq, -⟩
    cases before <;> cases heq
  | append_singleton calls c ih =>
    have h := ih (fun c hc => hcalls c (List.mem_append_left _ hc))
      fun id dynamics hmem => hemit id dynamics (List.mem_append_left _ hmem)
    rw [run_append]
    exact h.concat (hcalls c (by simp)) fun id dynamics hc => hemit id dynamics (by simp [hc])

/-- The transmission from the first emitter on, if all goes well. -/
structure Emitting (t : Transmission π) : Prop where
  mEmitter : t.mEmitter ≠ .stub
  mEmitterContext : t.mEmitterContext.isSome = true
  mobile : t.Mobile
  served : t.mIsSetupDone = true → t.Served

theorem Emitting.isSetup (h : Emitting t) : t.isSetup = t.mIsSetupDone := by
  rw [Transmission.isSetup, h.mEmitterContext, Bool.and_true, bne_iff_ne.2 h.mEmitter, Bool.and_true]

theorem Emitting.ready (h : Emitting t) : t.Ready := fun hsetup =>
  ⟨h.served (h.isSetup ▸ hsetup), perform_of_isSetup hsetup⟩

theorem Emitting.perform {c : Call} (h : Emitting t) (hc : c.Valid) :
    Emitting (c.perform t).state := by
  cases hdone : t.mIsSetupDone with
  | true =>
    obtain ⟨e, he⟩ := perform_of_isSetup (h.isSetup.trans hdone) c
    rw [he]
    exact h
  | false =>
    have hsetup : t.isSetup = false := h.isSetup.trans hdone
    cases c with
    | addPossibleReceiver id vehicle =>
      rw [perform_addPossibleReceiver hsetup hc]
      exact ⟨h.mEmitter, h.mEmitterContext, h.mobile.insert id vehicle,
        fun hd => absurd (hdone.symm.trans hd) Bool.false_ne_true⟩
    | setupReceiverContext context =>
      obtain ⟨m, hok, hm⟩ := perform_setupReceiverContext hsetup h.mobile context
      rw [hok]
      exact ⟨h.mEmitter, h.mEmitterContext, mobile_iff.2 fun i r hr => (hm i r hr).1,
        fun _ => served_iff.2 fun i r hr => (hm i r hr).2⟩
    | addEmitter id dynamics =>
      rw [perform_addEmitter hsetup hc]
      refine ⟨?_, rfl, h.mobile, fun hd => absurd (hdone.symm.trans hd) Bool.false_ne_true⟩
      rintro rfl
      cases (show ObjectId.valid .stub = true from hc)

theorem Emitting.run {calls : List Call} (h : Emitting t) (hcalls : ∀ c ∈ calls, c.Valid) :
    Emitting (run calls t) := by
  induction calls generalizing t with
  | nil => exact h
  | cons c calls ih =>
    obtain ⟨hc, hcalls⟩ := List.forall_mem_cons.1 hcalls
    exact ih (h.perform hc) hcalls

/-- Either there is no emitter at all, or there is a first one. -/
theorem unemitted_or (calls : List Call) : Unemitted calls ∨
    ∃ before id dynamics after, calls = before ++ .addEmitter id dynamics :: after ∧
      Unemitted before := by
  induction calls with
  | nil => exact .inl fun _ _ => List.not_mem_nil
  | cons c calls ih =>
    have hcons : ∀ calls, (∀ id dynamics, c ≠ .addEmitter id dynamics) → Unemitted calls →
        Unemitted (c :: calls) := by
      intro calls hc h id dynamics hmem
      rcases List.mem_cons.1 hmem with heq | hmem
      · exact hc id dynamics heq.symm
      · exact h id dynamics hmem
    by_cases hc : ∃ id dynamics, c = .addEmitter id dynamics
    · obtain ⟨id, dynamics, rfl⟩ := hc
      exact .inr ⟨[], id, dynamics, calls, rfl, fun _ _ => List.not_mem_nil⟩
    · replace hc : ∀ id dynamics, c ≠ .addEmitter id dynamics := fun id dynamics heq =>
        hc ⟨id, dynamics, heq⟩
      rcases ih with h | ⟨before, id, dynamics, after, rfl, h⟩
      · exact .inl (hcons calls hc h)
      · exact .inr ⟨c :: before, id, dynamics, after, rfl, hcons before hc h⟩

theorem Unemitted.of_append {before after : List Call} (h : Unemitted (before ++ after)) :
    Unemitted before := fun id dynamics hmem => h id dynamics (List.mem_append_left _ hmem)

theorem Waiting.ready {calls : List Call} (h : Waiting calls t) : t.Ready := fun hsetup => by
  rw [h.isSetup] at hsetup
  cases hsetup

/-- The first emitter keeps the promise exactly if the call is not late. -/
theorem Waiting.addEmitter {calls : List Call} (h : Waiting calls t) {id : ObjectId}
    (hid : id.valid = true) (dynamics : VehicleObjectContext) :
    (((∃ context, .setupReceiverContext context ∈ calls) ∧ Unserved calls) ∧
        ¬ Ready ((Call.addEmitter id dynamics).perform t).state) ∨
      Emitting ((Call.addEmitter id dynamics).perform t).state := by
  rw [perform_addEmitter h.isSetup hid, Result.state_ok]
  have hstub : id ≠ .stub := by
    rintro rfl
    cases hid
  by_cases hlate : t.mIsSetupDone = true ∧ ¬ t.Served
  · refine .inl ⟨⟨h.done.1 hlate.1, not_not.1 fun hn => hlate.2 (h.served.2 hn)⟩, fun hready => ?_⟩
    refine hlate.2 (hready ?_).1
    simp [Transmission.isSetup, hlate.1, bne_iff_ne.2 hstub]
  · exact .inr ⟨hstub, rfl, h.mobile, fun hd => not_not.1 fun hn => hlate ⟨hd, hn⟩⟩

/-- After any calls a transmission that is set up is ready, unless they are late. -/
theorem ready_iff (packet : π) {calls : List Call} (hcalls : ∀ c ∈ calls, c.Valid) :
    (∀ before after, calls = before ++ after → Ready (run before { mPacket := packet })) ↔
      ¬ Late calls := by
  constructor
  · rintro hall ⟨before, id, dynamics, after, rfl, hemit, hsetup, hun⟩
    have hbefore := waiting_run packet (fun c hc => hcalls c (List.mem_append_left _ hc)) hemit
    have hid : id.valid = true := hcalls (.addEmitter id dynamics) (by simp)
    have hready := hall (before ++ [.addEmitter id dynamics]) after (by simp)
    rw [run_append] at hready
    rcases hbefore.addEmitter hid dynamics with ⟨-, hn⟩ | hemitting
    · exact hn hready
    · have hserved := hemitting.served
      rw [perform_addEmitter hbefore.isSetup hid] at hserved
      exact hbefore.served.1 (hserved (hbefore.done.2 hsetup)) hun
  · intro hlate before after heq
    rcases unemitted_or calls with hemit | ⟨first, id, dynamics, rest, rfl, hemit⟩
    · rw [heq] at hemit hcalls
      exact (waiting_run packet (fun c hc => hcalls c (List.mem_append_left _ hc)) hemit.of_append).ready
    · have hfirst := waiting_run packet (fun c hc => hcalls c (List.mem_append_left _ hc)) hemit
      have hid : id.valid = true := hcalls (.addEmitter id dynamics) (by simp)
      rcases List.append_eq_append_iff.1 heq with ⟨mid, rfl, hmid⟩ | ⟨mid, rfl, hmid⟩
      · cases mid with
        | nil =>
          rw [List.append_nil]
          exact hfirst.ready
        | cons c mid =>
          obtain ⟨rfl, rfl⟩ := List.cons.inj hmid
          rcases hfirst.addEmitter hid dynamics with ⟨⟨hsetup, hun⟩, -⟩ | hemitting
          · exact absurd ⟨first, id, dynamics, mid ++ after, rfl, hemit, hsetup, hun⟩ hlate
          · rw [run_append]
            refine (hemitting.run fun c hc => hcalls c ?_).ready
            simp [hc]
      · refine (waiting_run packet (fun c hc => hcalls c ?_) hemit.of_append).ready
        simp [hc]

/-- The receivers first, then the emitter and the contexts. -/
theorem ready_iff_early :
    (∀ before after, [Call.addPossibleReceiver 5 1, .addEmitter 7 {},
        .setupReceiverContext fun _ => {}] = before ++ after →
          Ready (run before { mPacket := () })) ↔
      ¬ Late [.addPossibleReceiver 5 1, .addEmitter 7 {}, .setupReceiverContext fun _ => {}] :=
  ready_iff () (List.forall_mem_cons.2 ⟨(by decide : ObjectId.valid 5 = true),
    List.forall_mem_cons.2 ⟨(by decide : ObjectId.valid 7 = true),
      List.forall_mem_singleton.2 trivial⟩⟩)

/-- A receiver that comes after the contexts and before the emitter. -/
theorem not_ready :
    ¬ ∀ calls : List Call, (∀ c ∈ calls, c.Valid) →
      ∀ before after, calls = before ++ after → Ready (run before { mPacket := () }) := by
  intro h
  have hready := h [.setupReceiverContext fun _ => {}, .addPossibleReceiver 5 1, .addEmitter 7 {}]
    (List.forall_mem_cons.2 ⟨trivial, List.forall_mem_cons.2
      ⟨(by decide : ObjectId.valid 5 = true),
        List.forall_mem_singleton.2 (by decide : ObjectId.valid 7 = true)⟩⟩)
    _ [] (List.append_nil _).symm (by decide +kernel)
  exact absurd (served_iff.1 hready.1 5 ⟨5, some 1, none⟩ rfl) nofun

end Transmission

end Cosidia
