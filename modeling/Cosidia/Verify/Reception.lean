import Cosidia.Verify.Owners
import Cosidia.Verify.Readiness

/-!
# Receivers that are gone

A task enters the vehicles of the receivers into its transmission as weak pointers, which are locked
when its router ends the action two milliseconds later. In between the task has given back the object
list in which it found them, and the mobility manager may have removed them.
-/

namespace Cosidia

open EStateM Std

variable {π : Type}

namespace Transmission

/-- The vehicle objects of the possible receivers. -/
def vehicles (t : Transmission π) : List ObjectPtr :=
  t.mPossibleReceivers.toList.filterMap fun e => e.2.mobility

/-- The loop returns if all weak pointers can be locked. -/
theorem setupReceivers_returns_iff (context : Option ObjectPtr → Option (Option VehicleObjectContext))
    (receivers : List (ObjectId × Receiver)) (t : Transmission π) :
    (∃ t', setupReceivers context receivers t = .ok ⟨⟩ t') ↔
      ∀ e ∈ receivers, (context (Prod.snd e).mobility).isSome = true := by
  induction receivers generalizing t with
  | nil => exact iff_of_true ⟨t, rfl⟩ (by simp)
  | cons e receivers ih =>
    obtain ⟨id, receiver⟩ := e
    rw [List.forall_mem_cons]
    cases hc : context receiver.mobility with
    | none =>
      refine iff_of_false ?_ fun h => by simp at h
      rintro ⟨t', h⟩
      simp only [setupReceivers] at h
      rw [hc] at h
      cases h
    | some c =>
      simp only [setupReceivers]
      rw [hc]
      exact (ih _).trans (by simp)

theorem setupReceiverContext_returns_iff {t : Transmission π} (h : t.isSetup = false)
    (context : Option ObjectPtr → Option (Option VehicleObjectContext)) :
    (∃ t', setupReceiverContext true context t = .ok ⟨⟩ t') ↔
      ∀ e ∈ t.mPossibleReceivers.toList, (context (Prod.snd e).mobility).isSome = true := by
  rw [← setupReceivers_returns_iff context _ t]
  simp only [setupReceiverContext]
  simp only [bind_apply, get_apply, h, Bool.not_false, enforce_true, pure_apply, modify_apply]
  cases setupReceivers context t.mPossibleReceivers.toList t <;> simp

end Transmission

namespace Traffic.Flight

variable {S S' : Flight π} {m : Move π} {vehicle : ObjectPtr}

/-! ## Who receives -/

/-- The vehicles of the receivers are alive, for every transmission that has yet to be set up. -/
def ReceiversOwned (S : Flight π) : Prop :=
  ∀ out ∈ S.outgoing, ∀ vehicle ∈ out.transmission.vehicles, S.alive vehicle = true

/-- No vehicle of a receiver loses its last owner: when a vehicle is removed an unfinished task has an
object list with it, and so has one after the current container does not own it and a task finishes. -/
def SparesReceivers (S : Flight π) : Move π → Prop
  | .removeObjectFromSimulation id =>
    ∀ out ∈ S.outgoing, ∀ vehicle ∈ out.transmission.vehicles,
      S.core.mObjectList.currentCopy.OwnsOnlyAs id vehicle →
        held S.core.mObjectList.containers S.fibers vehicle = true
  | .finish i transmission =>
    ∀ t ∈ S.outgoing.map (·.transmission) ++ transmission.toList, ∀ vehicle ∈ t.vehicles,
      S.core.mObjectList.currentCopy.owns vehicle = false →
        held S.core.mObjectList.containers (S.fibers.eraseIdx i) vehicle = true
  | _ => True

/-- `setupReceiverContext` returns exactly if the vehicles of the receivers are alive. -/
theorem Inv.setupReceiverContext_returns_iff (hi : S.Inv) {out : Outgoing π} (hout : out ∈ S.outgoing) :
    (∃ t, S.setupReceiverContext out = .ok ⟨⟩ t) ↔
      ∀ vehicle ∈ out.transmission.vehicles, S.alive vehicle = true := by
  obtain ⟨hsetup, hmobile⟩ := hi.outgoing out hout
  apply (Transmission.setupReceiverContext_returns_iff hsetup S.lock).trans
  constructor
  · intro h vehicle hvehicle
    obtain ⟨e, he, hmobility⟩ := List.mem_filterMap.1 hvehicle
    have hlock := h e he
    rw [hmobility] at hlock
    simp only [lock] at hlock
    by_contra hdead
    simp [hdead] at hlock
  · intro h e he
    obtain ⟨vehicle, hvehicle⟩ := hmobile e he
    rw [hvehicle]
    simp [lock, h vehicle (List.mem_filterMap.2 ⟨e, he, hvehicle⟩)]

theorem Inv.receiversOwned_finished (hi : S.Inv) (i : Nat) (task : PackagedTask)
    (transmission : Option (Transmission π)) :
    (S.finished i task transmission).ReceiversOwned ↔ S.SparesReceivers (.finish i transmission) := by
  have hall : ∀ P : Transmission π → Prop, (∀ out ∈ (S.finished i task transmission).outgoing,
      P out.transmission) ↔ ∀ t ∈ S.outgoing.map (·.transmission) ++ transmission.toList, P t := by
    intro P
    cases transmission <;> simp [finished, or_imp, forall_and]
  refine (hall fun t => ∀ vehicle ∈ t.vehicles,
    (S.finished i task transmission).alive vehicle = true).trans ?_
  refine forall₂_congr fun t _ => forall₂_congr fun vehicle _ => ?_
  rw [hi.alive_finished i task transmission, or_iff_not_imp_left, Bool.not_eq_true]

theorem Inv.receiversOwned_step (hi : S.Inv) (howned : S.ReceiversOwned) (h : Step S m S') :
    S'.ReceiversOwned ↔ S.SparesReceivers m := by
  cases h with
  | advance _ _ | invoke _ _ | handled => exact iff_of_true howned trivial
  | code hgrows =>
    exact iff_of_true (fun out hout vehicle hvehicle =>
      hi.alive_code hgrows (howned out hout vehicle hvehicle)) trivial
  | launch _ _ =>
    exact iff_of_true (fun out hout vehicle hvehicle =>
      alive_launch (howned out hout vehicle hvehicle)) trivial
  | finish _ _ => exact hi.receiversOwned_finished ..
  | removeObjectFromSimulation _ _ =>
    refine forall₂_congr fun out hout => forall₂_congr fun vehicle hvehicle => ?_
    rw [hi.alive_removed]
    exact and_iff_right (howned out hout vehicle hvehicle)
  | setupReceiverContext _ _ =>
    exact iff_of_true (fun out hout => howned out (List.mem_of_mem_eraseIdx hout)) trivial

end Traffic.Flight

/-- In a run the vehicles of all receivers are alive from the end of a task to the setup of its
transmission exactly if all removals and all ends of tasks spare them; and it is they that
`setupReceiverContext` needs. -/
theorem receiversOwned_iff (world : Traffic π) {t : List (Traffic.Flight π × Traffic.Flight.Move π)}
    {S : Traffic.Flight π} (h : Trail Traffic.Flight.Step (.new world) t S) :
    (((∀ e ∈ t, e.1.ReceiversOwned) ∧ S.ReceiversOwned) ↔ ∀ e ∈ t, e.1.SparesReceivers e.2) ∧
      ∀ out ∈ S.outgoing, (∃ t', S.setupReceiverContext out = .ok ⟨⟩ t') ↔
        ∀ vehicle ∈ out.transmission.vehicles, S.alive vehicle = true := by
  constructor
  · exact Trail.forall_iff (Traffic.Flight.inv_new world) (fun _ h => by cases h)
      (fun hi hs => hi.step hs) (fun hi ho hs => hi.receiversOwned_step ho hs) h
  · exact fun out hout =>
      (Traffic.Flight.inv_of_trail h).2.setupReceiverContext_returns_iff hout

/-! ## A vehicle that is removed in between -/

namespace Traffic.Flight

/-- A transmission to one vehicle. -/
def sent : Transmission Unit where
  mPacket := ()
  mPossibleReceivers := (∅ : TreeMap ObjectId Receiver).insert 5 { lowestLayer := 5, mobility := some 2 }

def sentOut : Outgoing Unit := ⟨1, Duration.milliseconds 99, sent⟩

theorem mem_sent_toList {e : ObjectId × Receiver} (h : e ∈ sent.mPossibleReceivers.toList) :
    e.2.mobility = some 2 := by
  have hget := TreeMap.mem_toList_iff_getElem?_eq_some.1 h
  simp only [sent] at hget
  rw [TreeMap.getElem?_insert, TreeMap.getElem?_emptyc] at hget
  split_ifs at hget
  rw [← Option.some.inj hget]

theorem mem_sent_vehicles {vehicle : ObjectPtr} (h : vehicle ∈ sent.vehicles) : vehicle = 2 := by
  obtain ⟨e, he, hmobility⟩ := List.mem_filterMap.1 h
  exact Option.some.inj (hmobility.symm.trans (mem_sent_toList he))

def onTime (core : Core (Traffic Unit)) (t : Duration) : Core (Traffic Unit) :=
  { core with mCurrentActionTime := t }

/-- The transmission has been made. -/
def sending (core : Core (Traffic Unit)) (t : Duration) : Flight Unit where
  core := onTime core t
  outgoing := [sentOut]

/-- `caUpdate`, which started at 99 ms, ends at 101 ms. -/
def ending (core : Core (Traffic Unit)) : Flight Unit :=
  { sending core (Duration.milliseconds 101) with handling := some 1 }

section
variable {core : Core (Traffic Unit)}

theorem sending_advance {t t' : Duration} (h : t ≤ t') :
    Step (sending core t) (.advance t') (sending core t') :=
  .advance rfl h

variable (h : Starts core)
include h

theorem sending_trail :
    ∃ t, Trail Step (.new { data := .empty .other }) t (sending core (Duration.milliseconds 99)) ∧
      ∀ e ∈ t, e.1.SparesReceivers e.2 := by
  let S : Flight Unit := { core := onTime core (Duration.milliseconds 99) }
  have hcode : Step (.new { data := .empty .other }) .code { core } := .code h.grows
  have hadvance : Step { core } (.advance (Duration.milliseconds 99)) S :=
    .advance rfl (h.now.trans_le (by decide))
  have hinvoke : Step S (.invoke 3) { S with handling := some 1 } := .invoke rfl h.router
  have hlaunch : Step { S with handling := some 1 } (.launch (.router .caUpdate))
      { S with handling := some 1, fibers := [S.package 1 (.router .caUpdate)] } :=
    .launch rfl h.routerName
  have hfinish : Step { S with fibers := [S.package 1 (.router .caUpdate)] } (.finish 0 (some sent))
      (sending core (Duration.milliseconds 99)) := by
    apply @Step.finish _ _ 0 (S.package 1 (.router .caUpdate)) (some sent) rfl
    intro t ht
    obtain rfl := Option.some.inj ht
    exact ⟨rfl, fun e he => ⟨2, mem_sent_toList he, h.vehicle⟩⟩
  refine ⟨_, .snoc (.snoc (.snoc (.snoc (.snoc (.snoc .nil hcode) hadvance) hinvoke) hlaunch)
    .handled) hfinish, ?_⟩
  simp only [List.forall_mem_append, List.forall_mem_singleton]
  refine ⟨⟨⟨⟨⟨⟨nofun, trivial⟩, trivial⟩, trivial⟩, trivial⟩, trivial⟩, ?_⟩
  intro t ht vehicle hvehicle hnot
  obtain rfl := List.mem_singleton.1 ht
  obtain rfl := mem_sent_vehicles hvehicle
  exact absurd (hnot.symm.trans h.vehicle) Bool.false_ne_true

/-- The vehicle stays. -/
theorem ending_trail :
    ∃ t, Trail Step (.new { data := .empty .other }) t (ending core) ∧
      ∀ e ∈ t, e.1.SparesReceivers e.2 := by
  obtain ⟨t, ht, hspares⟩ := sending_trail h
  have hadvance : Step (sending core (Duration.milliseconds 99))
      (.advance (Duration.milliseconds 101)) (sending core (Duration.milliseconds 101)) :=
    sending_advance (by decide)
  have hinvoke : Step (sending core (Duration.milliseconds 101)) (.invoke 3) (ending core) :=
    .invoke rfl h.router
  refine ⟨_, (ht.snoc hadvance).snoc hinvoke, ?_⟩
  simp only [List.forall_mem_append, List.forall_mem_singleton]
  exact ⟨⟨hspares, trivial⟩, trivial⟩

/-- The manager removes the vehicle at 100 ms. -/
theorem gone_trail {core' : Core (Traffic Unit)}
    (hremoved : (Core.removeObjectFromSimulation 4 core).state = core')
    (hrouter : core'.mObjectList.getObjectByIdFromCurrentContainer 3 = .ok (some 1)) :
    ∃ t, Trail Step (.new { data := .empty .other }) t (ending core') := by
  obtain ⟨t, ht, -⟩ := sending_trail h
  let S : Flight Unit := sending core (Duration.milliseconds 100)
  have hadvance : Step (sending core (Duration.milliseconds 99))
      (.advance (Duration.milliseconds 100)) S := sending_advance (by decide)
  have hinvoke : Step S (.invoke 2) { S with handling := some 0 } := .invoke rfl h.manager
  have hremove : Step { S with handling := some 0 } (.removeObjectFromSimulation 4)
      { sending core' (Duration.milliseconds 100) with handling := some 0 } := by
    have hcore : onTime core' (Duration.milliseconds 100) =
        (Core.removeObjectFromSimulation 4 (onTime core (Duration.milliseconds 100))).state := by
      rw [← hremoved, removed_apply, removed_apply]
      rfl
    simp only [sending]
    rw [hcore]
    exact .removeObjectFromSimulation rfl h.managerName
  have hlater : Step (sending core' (Duration.milliseconds 100))
      (.advance (Duration.milliseconds 101)) (sending core' (Duration.milliseconds 101)) :=
    sending_advance (by decide)
  have hend : Step (sending core' (Duration.milliseconds 101)) (.invoke 3) (ending core') :=
    .invoke rfl hrouter
  exact ⟨_, (((((ht.snoc hadvance).snoc hinvoke).snoc hremove).snoc .handled).snoc hlater).snoc hend⟩

end

def withoutVehicle : Core (Traffic Unit) := (Core.removeObjectFromSimulation 4 startersCore).state

theorem withoutVehicle_evaluated :
    withoutVehicle.mObjectList.getObjectByIdFromCurrentContainer 3 = .ok (some 1) ∧
      (ending withoutVehicle).alive 2 = false := by
  decide +kernel

end Traffic.Flight

open Traffic.Flight

/-- A vehicle that stays is found. -/
theorem receiversOwned_iff_ending :
    ∃ t, Trail Step (.new { data := .empty .other }) t (ending startersCore) ∧
      (∀ e ∈ t, e.1.ReceiversOwned) ∧
      ∃ t', (ending startersCore).setupReceiverContext sentOut = .ok ⟨⟩ t' := by
  obtain ⟨t, ht, hspares⟩ := ending_trail starts_startersCore
  obtain ⟨howned, hreturns⟩ := receiversOwned_iff _ ht
  obtain ⟨hall, hlast⟩ := howned.2 hspares
  have hout := List.mem_singleton_self sentOut
  exact ⟨t, ht, hall, (hreturns sentOut hout).2 (hlast sentOut hout)⟩

/-- The vehicle is removed between the end of `caUpdate` and that of its action. -/
theorem not_receiversOwned_gone :
    ¬ ∀ (world : Traffic Unit) t S, Trail Step (.new world) t S → ∀ out ∈ S.outgoing,
      S.handling = some out.router →
      S.core.mCurrentActionTime = out.start + Duration.milliseconds 2 →
        ∀ vehicle ∈ out.transmission.vehicles, S.alive vehicle = true := by
  intro h
  obtain ⟨hrouter, hdead⟩ := withoutVehicle_evaluated
  obtain ⟨t, ht⟩ := gone_trail starts_startersCore rfl hrouter
  have hvehicle : (2 : ObjectPtr) ∈ sent.vehicles := by
    refine List.mem_filterMap.2 ⟨(5, { lowestLayer := 5, mobility := some 2 }),
      TreeMap.mem_toList_iff_getElem?_eq_some.2 ?_, rfl⟩
    exact TreeMap.getElem?_insert_self
  have halive := h _ t _ ht _ (List.mem_singleton_self sentOut) rfl rfl 2 hvehicle
  exact Bool.false_ne_true (hdead.symm.trans halive)

end Cosidia
