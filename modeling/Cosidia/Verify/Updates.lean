import Cosidia.Verify.Rounds

/-!
# Which vehicle an update reaches

If a vehicle departs only when it is not on the road, there is at most one vehicle object for it. The
updates then reach the vehicles they are about, but for those that have been away in the meantime.
-/

namespace Cosidia

open EStateM Std

namespace Rounds

open SumoMobilityManager

variable {π : Type} {this radio : ObjectPtr} {rid : ObjectId} {running : List String}
variable {S S' S₀ : Rounds π} {r₀ r r' : Registry} {vs gone : List Vehicle}
variable {pending : List (String × Nat)} {past : List Report}
variable {Allowed : List Report → LiteAPI → Prop}

/-! ## One object for each vehicle -/

/-- The vehicle is on the road: it has departed, and has not arrived since. -/
def OnRoad : List Report → String → Prop
  | [], _ => False
  | p :: past, k => (k ∈ p.departed ∨ OnRoad past k) ∧ k ∉ p.arrived

theorem OnRoad.departed {k : String} (h : OnRoad past k) : Departed past k := by
  induction past with
  | nil => cases h
  | cons p past ih => exact departed_cons.2 (h.1.imp_right ih)

/-- A vehicle departs only if it is not on the road. -/
def Departs (past : List Report) (api : LiteAPI) : Prop :=
  api.departedVehicles.Nodup ∧ ∀ k ∈ api.departedVehicles, ¬OnRoad past k

/-- There is at most one object for each vehicle, and none for those that are not on the road. -/
structure Single (past : List Report) (vs : List Vehicle) (pending : List (String × Nat))
    (gone : List Vehicle) : Prop where
  vehicles : (vs.map (·.externalId)).Nodup
  made : (pending.map (·.1)).Nodup
  new : ∀ v ∈ vs, v.externalId ∉ pending.map (·.1)
  onRoad : ∀ v ∈ vs, v ∉ gone → OnRoad past v.externalId
  departed : ∀ k ∈ pending.map (·.1), OnRoad past k

theorem Single.eq (h : Single past vs pending gone) {v w : Vehicle} (hv : v ∈ vs) (hw : w ∈ vs)
    (heq : v.externalId = w.externalId) : v = w :=
  List.inj_on_of_nodup_map h.vehicles hv hw heq

theorem Single.finish (h : Single past vs pending gone) {new vs' : List Vehicle}
    (hnames : new.map (·.externalId) = (pending.map (·.1)).reverse)
    (hsub : vs'.Sublist (new ++ vs)) (hmem : ∀ v, v ∈ vs' ↔ v ∈ new ++ vs ∧ v ∉ gone) :
    Single past vs' [] [] where
  vehicles := by
    apply (hsub.map _).nodup
    rw [List.map_append, hnames, List.nodup_append']
    refine ⟨List.nodup_reverse.2 h.made, h.vehicles, fun k hk hk' => ?_⟩
    obtain ⟨v, hv, rfl⟩ := List.mem_map.1 hk'
    exact h.new v hv (List.mem_reverse.1 hk)
  made := .nil
  new _ _ := List.not_mem_nil
  onRoad v hv _ := by
    obtain ⟨hv, hgone⟩ := (hmem v).1 hv
    rcases List.mem_append.1 hv with hv | hv
    · refine h.departed _ (List.mem_reverse.1 ?_)
      rw [← hnames]
      exact List.mem_map.2 ⟨v, hv, rfl⟩
    · exact h.onRoad v hv hgone
  departed := nofun

theorem Single.update {api : LiteAPI} (h : Single past vs [] []) (hdeparts : Departs past api)
    (hnames : pending.map (·.1) = api.departedVehicles)
    (hgone : ∀ k ∈ api.arrivedVehicles, ∃ v ∈ gone, v ∈ vs ∧ v.externalId = k) :
    Single (api.report :: past) vs pending gone where
  vehicles := h.vehicles
  made := by
    rw [hnames]
    exact hdeparts.1
  new v hv hmem := by
    rw [hnames] at hmem
    exact hdeparts.2 _ hmem (h.onRoad v hv List.not_mem_nil)
  onRoad v hv hnot := by
    refine ⟨.inr (h.onRoad v hv List.not_mem_nil), fun harrived => ?_⟩
    obtain ⟨w, hw, hw', heq⟩ := hgone _ harrived
    exact hnot (h.eq hv hw' heq.symm ▸ hw)
  departed k hk := by
    rw [hnames] at hk
    refine ⟨.inl hk, fun harrived => ?_⟩
    obtain ⟨v, -, hv, rfl⟩ := hgone k harrived
    exact hdeparts.2 _ hk (h.onRoad v hv List.not_mem_nil)

/-- What every history keeps in which vehicles depart only if they are not on the road. -/
theorem single_of_reachable (hallowed : ∀ past api, Allowed past api → Departs past api)
    (h₀ : S₀.Init this radio rid running) (hS : Reachable (· = S₀) (Step this Allowed) S) :
    ∃ r vs pending gone, S.Tracks radio rid S₀.core.registry running r vs pending gone ∧
      Single S.past vs pending gone := by
  refine hS.invariant (I := fun S => ∃ r vs pending gone,
    S.Tracks radio rid S₀.core.registry running r vs pending gone ∧
      Single S.past vs pending gone) ?_ ?_
  · rintro _ rfl
    exact ⟨_, _, _, _, h₀.tracks, .nil, .nil, nofun, nofun, nofun⟩
  · rintro S S' - ⟨r, vs, pending, gone, h, hsingle⟩ hstep
    cases hstep with
    | update hfuture haction hstart hduration hapi hok' hok =>
      obtain ⟨rfl, rfl⟩ := h.idle hfuture
      have hready := h.ready h₀ haction hstart hduration
      obtain ⟨pending, gone, moving, r', hu⟩ :=
        h.updated h₀.radio.base h₀.vacant hready hapi hok
      refine ⟨r', vs, pending, gone, h.update h₀.radio.base h₀.vacant hready hapi hok hu, ?_⟩
      apply hsingle.update (hallowed _ _ hok') hu.names
      intro k hk
      obtain ⟨v, hv, hmem, hnoted⟩ := exists_of_mem_left hu.arrived k hk
      exact ⟨v, hv, hmem, (h.noted_eq_vehicleId h₀.radio.base h₀.vacant _ hmem hnoted).2.2⟩
    | finish hfuture hok =>
      obtain ⟨r', new, vs', htracks, hsub, hmem, hnames, -⟩ :=
        h.finish h₀.radio.base hfuture hok
      exact ⟨r', vs', [], [], htracks, hsingle.finish hnames hsub hmem⟩
    | other hcore => exact ⟨_, vs, pending, gone, h.other hcore, hsingle⟩

/-! ## The actions that are issued -/

/-- In the container that was published last, `p` is the vehicle object for `k`, with the id `i`. -/
def Represents (s : Core (Traffic π)) (k : String) (i : ObjectId) (p : ObjectPtr) : Prop :=
  s.mObjectList.currentCopy.mActiveObjects[i]? = some p ∧
    (s.objects.cell p).mObjectName = "VehicleObject" ∧ (s.objects.cell p).mExternalId = some k

theorem Tracks.represents_iff (hb : Registry.Base radio rid r₀) (hvacant : r₀.Vacant)
    (h : S.Tracks radio rid r₀ running r vs pending gone) {k : String} {i : ObjectId}
    {p : ObjectPtr} :
    Represents S.core k i p ↔ ∃ v ∈ vs, v.externalId = k ∧ i = v.vehicleId ∧ p = v.vehicle := by
  have hexternal : ∀ v ∈ vs, (r.objects.cell v.vehicle).mExternalId = some v.externalId :=
    fun v hv => congrArg BaseObject.mExternalId (h.houses.vehicle v hv)
  simp only [Represents]
  rw [h.shows.currentCopy, h.shows.objects]
  constructor
  · rintro ⟨hactive, hname, hext⟩
    obtain ⟨v, hv, rfl, rfl⟩ := h.houses.of_named hb hvacant ⟨hactive, hname⟩
    exact ⟨v, hv, Option.some.inj ((hexternal v hv).symm.trans hext), rfl, rfl⟩
  · rintro ⟨v, hv, rfl, rfl, rfl⟩
    exact ⟨(h.houses.named hv).1, (h.houses.named hv).2, hexternal v hv⟩

/-- The action `q` updates the vehicle object with the id `i`. -/
def IsUpdateFor (s : Core (Traffic π)) (i : ObjectId) (q : ActionPtr) : Prop :=
  (s.actions.cell q).mType = "SUMO" ∧ (s.actions.cell q).mAffectedObject = i

instance (s : Core (Traffic π)) (i : ObjectId) (q : ActionPtr) : Decidable (IsUpdateFor s i q) :=
  inferInstanceAs (Decidable (_ ∧ _))

section
variable {action : ActionPtr} {api : LiteAPI} {s s' : Core (Traffic π)}
variable {tasks : MobilityManagerTasks} {moving : List String}
variable (hu : Updated this action api radio vs r s tasks pending gone moving r' s')
include hu

/-- The actions issued are those of the vehicles that have ids. -/
theorem countP_updates (i : ObjectId) :
    tasks.actionsToSchedule.countP (fun q => IsUpdateFor s' i q) =
      (resolved (noted api r s.world.manager) moving).countP fun e => e.2 = i := by
  obtain ⟨extra, htasks, hextra⟩ := hu.actionsToSchedule
  have hnone : extra.countP (fun q => IsUpdateFor s' i q) = 0 := by
    apply List.countP_eq_zero.2
    intro q hq
    rw [decide_eq_true_eq]
    rintro ⟨htype, -⟩
    exact absurd ((hextra q hq).symm.trans htype) (by decide)
  rw [htasks, List.countP_append, hnone, Nat.add_zero]
  refine (countP_eq_of_forall₂ (fun e q hq => ?_) hu.issued).symm
  apply decide_eq_decide.2
  simp only [IsUpdateFor]
  rw [hq]
  exact (and_iff_right rfl).symm

theorem exists_resolved {q : ActionPtr} (hq : q ∈ tasks.actionsToSchedule)
    (htype : (s'.actions.cell q).mType = "SUMO") :
    q < s'.actions.next ∧ ∃ e ∈ resolved (noted api r s.world.manager) moving,
      s'.actions.cell q = updateAction (s.actions.cell action) (s.objects.cell this).mObjectId
        s.world.data.next e.2 := by
  obtain ⟨extra, htasks, hextra⟩ := hu.actionsToSchedule
  rw [htasks] at hq
  rcases List.mem_append.1 hq with hq | hq
  · refine ⟨(List.mem_range'_1.1 hq).2.trans_le hu.next, ?_⟩
    exact exists_of_mem_left hu.issued.flip q hq
  · exact absurd ((hextra q hq).symm.trans htype) (by decide)

end

section
variable (hb : Registry.Base radio rid r₀) (hvacant : r₀.Vacant)
variable (h : S.Tracks radio rid r₀ running r vs [] []) {api : LiteAPI} {moving : List String}
include hb hvacant h

/-- Only the update for a vehicle is addressed to its object, and only if it has not arrived. -/
theorem Tracks.of_mem_resolved {v : Vehicle} (hv : v ∈ vs) {e : String × ObjectId}
    (he : e ∈ resolved (noted api r S.core.world.manager) moving) (hid : e.2 = v.vehicleId) :
    e = (v.externalId, v.vehicleId) ∧ ¬Arrived S.past v.externalId := by
  obtain ⟨k, id⟩ := e
  dsimp only at hid
  subst hid
  obtain ⟨-, harrived, rfl⟩ := h.noted_eq_vehicleId hb hvacant api hv (mem_resolved.1 he).2.1
  exact ⟨rfl, harrived⟩

/-- A vehicle that moves gets exactly one update if it has not arrived before. -/
theorem Tracks.countP_resolved (hsingle : Single S.past vs [] []) (hnodup : moving.Nodup)
    {v : Vehicle} (hv : v ∈ vs) (hmoving : v.externalId ∈ moving)
    (harrived : ¬Arrived S.past v.externalId) :
    (resolved (noted api r S.core.world.manager) moving).countP (fun e => e.2 = v.vehicleId) =
      1 := by
  have hmem : (v.externalId, v.vehicleId) ∈
      resolved (noted api r S.core.world.manager) moving := by
    obtain ⟨w, hw, hext, hnoted⟩ := h.exists_noted hb hvacant api
      (hsingle.onRoad v hv List.not_mem_nil).departed harrived
    rw [hsingle.eq hw hv hext] at hnoted
    exact mem_resolved.2 ⟨hmoving, hnoted, h.houses.valid hb hv⟩
  rw [← List.count_eq_one_of_mem (nodup_resolved hnodup).of_map hmem]
  apply List.countP_congr
  intro e he
  rw [decide_eq_true_eq, beq_iff_eq]
  constructor
  · exact fun hid => (h.of_mem_resolved hb hvacant hv he hid).1
  · rintro rfl
    rfl

end

/-! ## What a vehicle makes of its update -/

/-- SUMO reports the variables of the vehicle, in the order of their numbers. -/
def Reports (api : LiteAPI) (k : String) (speed : Float) (position : Float × Float × Float)
    (angle : Float) : Prop :=
  api.vehicle k = [(.speed, .double speed), (.position, .position position.1 position.2.1 position.2.2),
    (.angle, .double angle)]

/-- The context of a vehicle about which SUMO has reported these values. -/
def reportedContext (api : LiteAPI) (speed : Float) (position : Float × Float × Float)
    (angle : Float) (lastUpdate : TimePoint) : VehicleObjectContext where
  speed := speed
  heading := angle
  position := { x := position.1, y := position.2.1 }
  geo := { longitude := (api.convertGeo position).longitude
           latitude := (api.convertGeo position).latitude }
  lastUpdate := lastUpdate

theorem updateOf_of_reports {api : LiteAPI} {k : String} {speed : Float}
    {position : Float × Float × Float} {angle : Float} (h : Reports api k speed position angle) :
    SumoUpdater.updateOf api k = .ok {
      mPosition := position, mLongitude := (api.convertGeo position).longitude
      mLatitude := (api.convertGeo position).latitude, mHeading := angle, mSpeed := speed
      mVehicle := k } := by
  simp only [SumoUpdater.updateOf]
  rw [show api.vehicle k = _ from h]
  rfl

/-- The vehicle object `p` has an external id and an id, and the update `q` has data about it. -/
theorem executeSumoUpdate_ok {s : Core (Traffic π)} {p : ObjectPtr} {q : ActionPtr} {d : DataPtr}
    {table : VehicleUpdateActionData} {update : VehicleUpdate} {k : String}
    (hq : q < s.actions.next) (hdata : (s.actions.cell q).mActionData = some d)
    (htable : s.world.data.cell d = .vehicleUpdate table) (hp : p < s.objects.next)
    (hext : (s.objects.cell p).mExternalId = some k) (hupdate : table.mUpdates[k]? = some update)
    (hid : update.mObjectId = (s.objects.cell p).mObjectId) :
    VehicleObject.executeSumoUpdate p q s = .ok {
      speed := update.mSpeed
      heading := update.mHeading
      position := { x := update.mPosition.1, y := update.mPosition.2.1 }
      geo := { longitude := update.mLongitude, latitude := update.mLatitude }
      lastUpdate := (s.actions.cell q).getEndTime } s := by
  have hget : getVehicleUpdateActionData q s = .ok (some table) s := by
    refine bind_eq_ok.2 ⟨_, s, getAction_of_lt hq, ?_⟩
    rw [hdata]
    refine bind_eq_ok.2 ⟨s, s, rfl, ?_⟩
    rw [htable]
    rfl
  have hexternal : getExternalId p s = .ok k s := by
    refine bind_eq_ok.2 ⟨_, s, getObject_of_lt hp, ?_⟩
    rw [hext]
    rfl
  have hupdate' : (ofExcept (table.getUpdateForVehicle k) : CoreM (Traffic π) _) s =
      .ok update s := by
    simp only [VehicleUpdateActionData.getUpdateForVehicle]
    rw [hupdate]
    rfl
  refine bind_eq_ok.2 ⟨_, s, hget, bind_eq_ok.2 ⟨k, s, hexternal, ?_⟩⟩
  refine bind_eq_ok.2 ⟨update, s, hupdate', bind_eq_ok.2 ⟨_, s, getObject_of_lt hp, ?_⟩⟩
  refine bind_eq_ok.2 ⟨⟨⟩, s, enforce_eq_ok.2 ⟨beq_iff_eq.2 hid, rfl⟩, ?_⟩
  exact bind_eq_ok.2 ⟨_, s, getAction_of_lt hq, rfl⟩

theorem endExecution_ok {s : Core (Traffic π)} {p : ObjectPtr} {q : ActionPtr}
    (hq : q < s.actions.next) (htype : (s.actions.cell q).mType = "SUMO")
    (context : VehicleObjectContext) : ∃ s', VehicleObject.endExecution p q context s = .ok () s' ∧
      s'.world.mContext p = some context := by
  obtain ⟨s', hok, hcontext⟩ : ∃ s', swapContext p context s = .ok () s' ∧
      s'.world.mContext p = some context := ⟨_, rfl, Function.update_self ..⟩
  refine ⟨s', bind_eq_ok.2 ⟨_, s, getAction_of_lt hq, ?_⟩, hcontext⟩
  rw [if_pos htype]
  exact hok

/-- Every vehicle departs once and arrives once, in a later step, and SUMO reports its variables as long
as it has not arrived. -/
structure Once (past : List Report) (api : LiteAPI) : Prop where
  departs : api.departedVehicles.Nodup
  departed : ∀ k ∈ api.departedVehicles, k ≠ "" ∧ ¬Departed past k
  arrives : api.arrivedVehicles.Nodup
  arrived : ∀ k ∈ api.arrivedVehicles, Departed past k ∧ ¬Arrived past k
  reports : ∀ k, Departed (api.report :: past) k → ¬Arrived (api.report :: past) k →
    ∃ speed position angle, Reports api k speed position angle

theorem Once.departs_of {api : LiteAPI} (h : Once past api) : Departs past api :=
  ⟨h.departs, fun k hk honRoad => (h.departed k hk).2 honRoad.departed⟩

theorem Once.moving_iff {api : LiteAPI} {m : SumoMobilityManager} (h : Once past api)
    (harrived : ∀ k, Arrived past k → Departed past k)
    (hsubscribed : ∀ k, k ∈ m.mUpdater.mSubscribedVehicles ↔ Departed past k ∧ ¬Arrived past k)
    (k : String) : Moving api m k ↔
      Departed (api.report :: past) k ∧ ¬Arrived (api.report :: past) k := by
  rw [departed_cons, arrived_cons, not_or]
  constructor
  · rintro ⟨hk | hk, hnot⟩
    · exact ⟨.inl hk, hnot, fun hk' => (h.departed k hk).2 (harrived k hk')⟩
    · exact ⟨.inr ((hsubscribed k).1 hk).1, hnot, ((hsubscribed k).1 hk).2⟩
  · rintro ⟨hk | hk, hnot, hnot'⟩
    · exact ⟨.inl hk, hnot⟩
    · exact ⟨.inr ((hsubscribed k).2 ⟨hk, hnot'⟩), hnot⟩

/-- The vehicles whose variables SUMO is asked for are those that have departed and not arrived. -/
theorem subscribed_iff (h₀ : S₀.Init this radio rid [])
    (hS : Reachable (· = S₀) (Step this Once) S) (k : String) :
    k ∈ S.core.world.manager.mUpdater.mSubscribedVehicles ↔
      Departed S.past k ∧ ¬Arrived S.past k := by
  revert k
  refine hS.invariant (I := fun S => ∀ k, k ∈ S.core.world.manager.mUpdater.mSubscribedVehicles ↔
    Departed S.past k ∧ ¬Arrived S.past k) ?_ ?_
  · rintro S rfl k
    have hpast : ¬Departed S.past k := by
      rw [h₀.past]
      exact fun ⟨_, hmem, _⟩ => absurd hmem List.not_mem_nil
    refine iff_of_false (fun hk => ?_) fun hk => hpast hk.1
    exact (h₀.tracks.subscribed k hk).elim hpast fun hk => absurd hk.2 List.not_mem_nil
  · intro S S' hS ih hstep k
    obtain ⟨r, vs, pending, gone, h⟩ := tracks_of_reachable h₀ hS
    cases hstep with
    | update hfuture haction hstart hduration hapi honce hok =>
      obtain ⟨hpending, hgone⟩ := h.idle hfuture
      subst hpending hgone
      obtain ⟨pending, gone, moving, r', hu⟩ := h.updated h₀.radio.base h₀.vacant
        (h.ready h₀ haction hstart hduration) hapi hok
      exact (hu.subscribed k).trans (honce.moving_iff h.arrived ih k)
    | finish hfuture hok =>
      obtain ⟨-, -, -, -, -, -, -, -, hmanager⟩ := h.finish h₀.radio.base hfuture hok
      show k ∈ _ ↔ _
      rw [hmanager]
      exact ih k
    | other hcore =>
      show k ∈ _ ↔ _
      rw [hcore.manager]
      exact ih k

section
variable {action : ActionPtr} {api : LiteAPI} {tasks : MobilityManagerTasks}
variable {core : Core (Traffic π)} {moving : List String}
variable (hb : Registry.Base radio rid r₀) (hvacant : r₀.Vacant)
variable (h : S.Tracks radio rid r₀ running r vs [] [])
variable (hu : Updated this action api radio vs r S.core tasks pending gone moving r' core)
include hb hvacant h

/-- The vehicles that get updates have objects and have not arrived. -/
theorem Tracks.exists_of_mem_resolved (hmoving : ∀ k, k ∈ moving ↔
      Departed (api.report :: S.past) k ∧ ¬Arrived (api.report :: S.past) k) {e : String × ObjectId}
    (he : e ∈ resolved (noted api r S.core.world.manager) moving) :
    ∃ v ∈ vs, e = (v.externalId, v.vehicleId) ∧ ¬Arrived (api.report :: S.past) v.externalId := by
  obtain ⟨k, id⟩ := e
  obtain ⟨hk, hnoted, hvalid⟩ := mem_resolved.1 he
  have harrived := ((hmoving k).1 hk).2
  have hdeparted : Departed S.past k := by
    by_contra hnot
    rw [h.noted_of_not_departed api hnot] at hnoted
    split_ifs at hnoted
    rw [← Option.some.inj hnoted] at hvalid
    exact absurd hvalid (by decide)
  obtain ⟨v, hv, rfl, hnoted'⟩ := h.exists_noted hb hvacant api hdeparted
    fun hk => harrived (arrived_cons.2 (.inr hk))
  obtain rfl := Option.some.inj (hnoted'.symm.trans hnoted)
  exact ⟨v, hv, rfl, harrived⟩

include hu

/-- However long its execution takes to come, the update holds what SUMO has reported. -/
theorem Tracks.executeSumoUpdate_of_later {v : Vehicle} (hv : v ∈ vs) {q : ActionPtr}
    (hq : q ∈ tasks.actionsToSchedule) (hupdate : IsUpdateFor core v.vehicleId q) {speed : Float}
    {position : Float × Float × Float} {angle : Float}
    (hreports : Reports api v.externalId speed position angle) {s : Core (Traffic π)}
    (hs : Later core s) : q < s.actions.next ∧ (s.actions.cell q).mType = "SUMO" ∧
      VehicleObject.executeSumoUpdate v.vehicle q s = .ok (reportedContext api speed position angle
        (s.actions.cell q).getEndTime) s := by
  obtain ⟨hlt, e, he, hcell⟩ := exists_resolved hu hq hupdate.1
  have hid : e.2 = v.vehicleId := by
    have hid := hupdate.2
    rwa [hcell] at hid
  obtain ⟨rfl, -⟩ := h.of_mem_resolved hb hvacant hv he hid
  obtain ⟨htype, hdata, -⟩ := hs.action q hlt
  rw [hcell] at htype hdata
  -- the table that the updates of the step share
  have hnext : S.core.world.data.next < core.world.data.next := hu.data ▸ Nat.lt_succ_self _
  obtain ⟨table, htable, hentries⟩ := hu.table
  obtain ⟨update, hok, hentry⟩ := hentries _ he
  rw [updateOf_of_reports hreports] at hok
  cases hok
  rw [← hs.datum _ hnext] at htable
  -- the vehicle object
  have hlow : v.vehicle < r.objects.next := h.houses.vehicle_lt hv
  have hobject : (core.objects.cell v.vehicle).profile = v.vehicleObject := by
    rw [hu.shows.objects, hu.made.keeps.profile _ hlow]
    exact h.houses.vehicle v hv
  have hlt' : v.vehicle < core.objects.next := by
    rw [hu.shows.objects]
    exact hlow.trans_le hu.made.keeps.next
  obtain ⟨-, hext, hid'⟩ := hs.object _ hlt'
  have hvalid := h.houses.valid hb hv
  have hvehicleId : (core.objects.cell v.vehicle).mObjectId = v.vehicleId :=
    congrArg (·.mObjectId) hobject
  rw [show (core.objects.cell v.vehicle).mExternalId = some v.externalId from
    congrArg (·.mExternalId) hobject] at hext
  rw [hvehicleId] at hid'
  refine ⟨hlt.trans_le hs.nextAction, htype, ?_⟩
  exact executeSumoUpdate_ok (hlt.trans_le hs.nextAction) hdata htable
    (hlt'.trans_le hs.nextObject) hext hentry (hid' hvalid).symm

end

/-- After every history in which vehicles depart and arrive once, a step of the manager returns. Every
vehicle that has not arrived gets exactly one update if it is represented by an object, and there are
no others. Whenever the update is executed, the object takes over what SUMO has reported in the step. -/
theorem updates_of_once {S₀ S : Rounds π} {api : LiteAPI} {action : ActionPtr}
    (h₀ : S₀.Init this radio rid [])
    (hS : Reachable (· = S₀) (Step this Once) S) (hfuture : S.future = none)
    (haction : action < S.core.actions.next) (hstart : 0 ≤ (S.core.actions.cell action).mStartTime)
    (hduration : 0 ≤ (S.core.actions.cell action).mDuration)
    (hapi : api.WellFormed ((S.core.actions.cell action).mStartTime.tdiv 1000000))
    (honce : Once S.past api) :
    ∃ tasks core, doVehicleUpdate this api action S.core.mObjectList.currentCopy S.core =
        .ok tasks core ∧
      (∀ k i p, Represents S.core k i p → ¬Arrived (api.report :: S.past) k →
        tasks.actionsToSchedule.countP (fun q => IsUpdateFor core i q) = 1) ∧
      (∀ q ∈ tasks.actionsToSchedule, (core.actions.cell q).mType = "SUMO" →
        ∃ k p, Represents S.core k (core.actions.cell q).mAffectedObject p ∧
          ¬Arrived (api.report :: S.past) k) ∧
      ∀ k i p, Represents S.core k i p → ∀ q ∈ tasks.actionsToSchedule, IsUpdateFor core i q →
        ∃ speed position angle, Reports api k speed position angle ∧
          ∀ S', Relation.ReflTransGen (Step this Once)
              ⟨core, some (action, tasks), api.report :: S.past⟩ S' →
            VehicleObject.executeSumoUpdate p q S'.core = .ok (reportedContext api speed position
              angle (S'.core.actions.cell q).getEndTime) S'.core ∧
            ∃ core', VehicleObject.endExecution p q (reportedContext api speed position angle
                (S'.core.actions.cell q).getEndTime) S'.core = .ok () core' ∧
              core'.world.mContext p = some (reportedContext api speed position angle
                (S'.core.actions.cell q).getEndTime) := by
  have hb := h₀.radio.base
  have hvacant := h₀.vacant
  obtain ⟨r, vs, pending, gone, h, hsingle⟩ :=
    single_of_reachable (fun _ _ h => h.departs_of) h₀ hS
  obtain ⟨rfl, rfl⟩ := h.idle hfuture
  have hready := h.ready h₀ haction hstart hduration
  obtain ⟨tasks, core, pending, gone, moving, r', hok, hu⟩ :=
    h.doVehicleUpdate_ok hb hvacant hready hapi honce.arrived nofun
  have hS₁ : Reachable (· = S₀) (Step this Once)
      ⟨core, some (action, tasks), api.report :: S.past⟩ :=
    hS.step (.update hfuture haction hstart hduration hapi honce hok)
  have hmoving : ∀ k, k ∈ moving ↔
      Departed (api.report :: S.past) k ∧ ¬Arrived (api.report :: S.past) k :=
    fun k => (hu.mem_moving k).trans (honce.moving_iff h.arrived (subscribed_iff h₀ hS) k)
  refine ⟨tasks, core, hok, fun k i p hp hk => ?_, fun q hq htype => ?_,
    fun k i p hp q hq hupdate => ?_⟩
  · obtain ⟨v, hv, rfl, rfl, rfl⟩ := (h.represents_iff hb hvacant).1 hp
    have hdeparted := (hsingle.onRoad v hv List.not_mem_nil).departed
    rw [countP_updates hu]
    refine h.countP_resolved hb hvacant hsingle hu.nodup hv ?_ fun hk' => ?_
    · exact (hmoving _).2 ⟨departed_cons.2 (.inr hdeparted), hk⟩
    · exact hk (arrived_cons.2 (.inr hk'))
  · obtain ⟨-, e, he, hcell⟩ := exists_resolved hu hq htype
    obtain ⟨v, hv, rfl, harrived⟩ := h.exists_of_mem_resolved hb hvacant hmoving he
    refine ⟨v.externalId, v.vehicle, (h.represents_iff hb hvacant).2 ⟨v, hv, rfl, ?_, rfl⟩, harrived⟩
    rw [hcell]
    rfl
  · obtain ⟨v, hv, rfl, rfl, rfl⟩ := (h.represents_iff hb hvacant).1 hp
    have hdeparted := (hsingle.onRoad v hv List.not_mem_nil).departed
    have harrived : ¬Arrived (api.report :: S.past) v.externalId := by
      obtain ⟨-, e, he, hcell⟩ := exists_resolved hu hq hupdate.1
      obtain ⟨w, hw, rfl, harrived⟩ := h.exists_of_mem_resolved hb hvacant hmoving he
      have hid := hupdate.2
      rw [hcell] at hid
      rwa [h.houses.eq_of_vehicleId hv hw hid.symm]
    obtain ⟨speed, position, angle, hreports⟩ :=
      honce.reports _ (departed_cons.2 (.inr hdeparted)) harrived
    refine ⟨speed, position, angle, hreports, fun S' hsteps => ?_⟩
    obtain ⟨hlt, htype, hexecute⟩ := h.executeSumoUpdate_of_later hb hvacant hu hv hq hupdate hreports
      (later_of_steps h₀ hS₁ hsteps)
    exact ⟨hexecute, endExecution_ok hlt htype _⟩

/-! ### A vehicle that departs -/

/-- A step of the manager whose tasks are fulfilled at once. -/
def round (api : LiteAPI) (action : ActionPtr) : CoreM (Traffic Unit) Unit := do
  let tasks ← doVehicleUpdate 0 api action (← get).mObjectList.currentCopy
  MobilityManager.endExecution action tasks

theorem reachable_round {S S₀ : Rounds Unit} {departed arrived : List String} {time : Int}
    {action : ActionPtr} (hS : Reachable (· = S₀) (Step 0 Allowed) S) (hfuture : S.future = none)
    (haction : action < S.core.actions.next) (hstart : 0 ≤ (S.core.actions.cell action).mStartTime)
    (hduration : 0 ≤ (S.core.actions.cell action).mDuration)
    (htime : (S.core.actions.cell action).mStartTime.tdiv 1000000 = time)
    (hallowed : Allowed S.past (report departed arrived time))
    (hok : (round (report departed arrived time) action S.core).value? = some ()) :
    Reachable (· = S₀) (Step 0 Allowed) ⟨(round (report departed arrived time) action S.core).state,
      none, ⟨departed, arrived⟩ :: S.past⟩ := by
  obtain ⟨s, s₁, hget, hrest⟩ := bind_eq_ok.1 (Result.eq_ok hok)
  obtain ⟨rfl, rfl⟩ := get_eq_ok.1 hget
  obtain ⟨tasks, core, hupdate, hfinish⟩ := bind_eq_ok.1 hrest
  have hapi := wellFormed_report departed arrived time
  rw [← htime] at hapi hupdate hallowed
  exact (hS.step (.update hfuture haction hstart hduration hapi hallowed hupdate)).step
    (.finish rfl hfinish)

def departed : Rounds Unit :=
  ⟨(round (report ["a"] [] 100) 0 (started []).core).state, none, [⟨["a"], []⟩]⟩

theorem once_departs : Once [] (report ["a"] [] 100) where
  departs := List.nodup_singleton _
  departed k hk := by
    obtain rfl := List.mem_singleton.1 hk
    exact ⟨by decide, fun ⟨_, hmem, _⟩ => absurd hmem List.not_mem_nil⟩
  arrives := .nil
  arrived := nofun
  reports _ _ _ := ⟨0, (0, 0, 0), 0, rfl⟩

theorem once_drives : Once [⟨["a"], []⟩] (report [] [] 200) where
  departs := .nil
  departed := nofun
  arrives := .nil
  arrived := nofun
  reports _ _ _ := ⟨0, (0, 0, 0), 0, rfl⟩

theorem reachable_departed : Reachable (· = started []) (Step 0 Once) departed := by
  have honce : Once (started []).past (report ["a"] [] 100) := once_departs
  refine reachable_round (.init rfl) rfl (by decide +kernel) (by decide +kernel)
    (by decide +kernel) (by decide +kernel) honce ?_
  decide +kernel

/-- The vehicle that has departed is represented by an object, which gets one update. -/
theorem updates_of_once_departed : ∃ tasks core,
    doVehicleUpdate 0 (report [] [] 200) 1 departed.core.mObjectList.currentCopy departed.core =
      .ok tasks core ∧
    tasks.actionsToSchedule.countP (fun q => IsUpdateFor core 5 q) = 1 := by
  have htime : (departed.core.actions.cell 1).mStartTime.tdiv 1000000 = 200 := by decide +kernel
  have hrepresents : Represents departed.core "a" 5 4 :=
    ⟨by decide +kernel, by decide +kernel, by decide +kernel⟩
  have hapi := wellFormed_report [] [] 200
  have honce : Once departed.past (report [] [] 200) := once_drives
  have harrived : ¬Arrived ((report [] [] 200).report :: departed.past) "a" :=
    (by decide : ¬∃ p ∈ [⟨[], []⟩, ⟨["a"], []⟩], "a" ∈ Report.arrived p)
  rw [← htime] at hapi
  obtain ⟨tasks, core, hok, hone, -, -⟩ := updates_of_once (init_started []) reachable_departed rfl
    (by decide +kernel) (by decide +kernel) (by decide +kernel) hapi (htime.symm ▸ honce)
  rw [htime] at hok
  rw [htime] at hone
  exact ⟨tasks, core, hok, hone "a" 5 4 hrepresents harrived⟩

/-! ## Vehicles that depart again -/

/-- Every vehicle that moves and is represented by an object gets an update that is addressed to it. -/
def Addressed (S : Rounds π) (tasks : MobilityManagerTasks) (core : Core (Traffic π)) : Prop :=
  ∀ k ∈ core.world.manager.mUpdater.mSubscribedVehicles, ∀ i p, Represents S.core k i p →
    ∃ q ∈ tasks.actionsToSchedule, IsUpdateFor core i q

/-- The map of ids has no ids of objects that have been removed. -/
def Current (core : Core (Traffic π)) : Prop :=
  ∀ (k : String) (id : ObjectId), core.world.manager.mIdMapper[k]? = some id → id.valid = true →
    id ∉ core.mObjectList.currentCopy.mRemovedObjects

section
variable {action : ActionPtr} {api : LiteAPI} {tasks : MobilityManagerTasks}
variable {core : Core (Traffic π)} {moving : List String}
variable (hb : Registry.Base radio rid r₀) (hvacant : r₀.Vacant)
variable (h : S.Tracks radio rid r₀ running r vs [] [])
variable (hu : Updated this action api radio vs r S.core tasks pending gone moving r' core)
include hb hvacant h hu

theorem Tracks.forall_addressed_iff (hsingle : Single S.past vs [] []) : Addressed S tasks core ↔
    ∀ k ∈ core.world.manager.mUpdater.mSubscribedVehicles, ∀ i p, Represents S.core k i p →
      ¬Arrived S.past k := by
  have hmoving : ∀ k, k ∈ core.world.manager.mUpdater.mSubscribedVehicles ↔ k ∈ moving :=
    fun k => (hu.subscribed k).trans (hu.mem_moving k).symm
  have hcount : ∀ i, (∃ q ∈ tasks.actionsToSchedule, IsUpdateFor core i q) ↔
      0 < (resolved (noted api r S.core.world.manager) moving).countP fun e => e.2 = i := by
    intro i
    rw [← countP_updates hu i, List.countP_pos_iff]
    simp only [decide_eq_true_eq]
  constructor
  · intro haddressed k hk i p hp
    obtain ⟨v, hv, rfl, rfl, rfl⟩ := (h.represents_iff hb hvacant).1 hp
    obtain ⟨e, he, hid⟩ := List.countP_pos_iff.1 ((hcount _).1 (haddressed _ hk _ _ hp))
    exact (h.of_mem_resolved hb hvacant hv he (of_decide_eq_true hid)).2
  · intro harrived k hk i p hp
    obtain ⟨v, hv, rfl, rfl, rfl⟩ := (h.represents_iff hb hvacant).1 hp
    rw [hcount, h.countP_resolved hb hvacant hsingle hu.nodup hv ((hmoving _).1 hk)
      (harrived _ hk _ _ hp)]
    exact Nat.one_pos

theorem Tracks.current_iff : Current core ↔ ∀ k, ¬Arrived S.past k := by
  have hremoved : core.mObjectList.currentCopy.mRemovedObjects = r.container.mRemovedObjects := by
    rw [hu.shows.currentCopy, hu.made.keeps.container]
  simp only [Current]
  rw [hu.ids, hremoved]
  constructor
  · intro hcurrent k hk
    obtain ⟨id, hid, hvalid, hcases⟩ := h.noted_of_departed hb hvacant api (h.arrived k hk)
    exact hcurrent k id hid hvalid (hcases.resolve_left fun hnot => hnot.1 hk).2
  · intro harrived k id hid hvalid hmem
    have hdeparted : Departed S.past k := by
      by_contra hnot
      rw [h.noted_of_not_departed api hnot] at hid
      split_ifs at hid
      rw [← Option.some.inj hid] at hvalid
      exact absurd hvalid (by decide)
    obtain ⟨id', hid', -, hcases⟩ := h.noted_of_departed hb hvacant api hdeparted
    obtain rfl := Option.some.inj (hid'.symm.trans hid)
    obtain ⟨-, v, hv, -, rfl⟩ := hcases.resolve_right fun hk => harrived k hk.1
    apply (h.houses.removed _ hmem).1
    rw [TreeMap.mem_iff_isSome_getElem?, h.houses.vehicle_active hv]
    rfl

end

/-- After every history in which vehicles depart only if they are not on the road: the updates of a
step reach the vehicles and the map of ids has no ids of removed objects exactly if no vehicle has
arrived in an earlier step. An update misses its vehicle exactly if that has arrived before and is
back. -/
theorem addressed_and_current_iff {S₀ S : Rounds π} {api : LiteAPI} {action : ActionPtr}
    {tasks : MobilityManagerTasks} {core : Core (Traffic π)} (h₀ : S₀.Init this radio rid running)
    (hS : Reachable (· = S₀) (Step this Departs) S) (hfuture : S.future = none)
    (haction : action < S.core.actions.next) (hstart : 0 ≤ (S.core.actions.cell action).mStartTime)
    (hduration : 0 ≤ (S.core.actions.cell action).mDuration)
    (hapi : api.WellFormed ((S.core.actions.cell action).mStartTime.tdiv 1000000))
    (hok : doVehicleUpdate this api action S.core.mObjectList.currentCopy S.core =
      .ok tasks core) :
    ((Addressed S tasks core ∧ Current core) ↔ ∀ k, ¬Arrived S.past k) ∧
      (Addressed S tasks core ↔ ∀ k ∈ core.world.manager.mUpdater.mSubscribedVehicles, ∀ i p,
        Represents S.core k i p → ¬Arrived S.past k) := by
  obtain ⟨r, vs, pending, gone, h, hsingle⟩ := single_of_reachable (fun _ _ h => h) h₀ hS
  obtain ⟨rfl, rfl⟩ := h.idle hfuture
  obtain ⟨pending, gone, moving, r', hu⟩ := h.updated h₀.radio.base h₀.vacant
    (h.ready h₀ haction hstart hduration) hapi hok
  have haddressed := h.forall_addressed_iff h₀.radio.base h₀.vacant hu hsingle
  have hcurrent := h.current_iff h₀.radio.base h₀.vacant hu
  refine ⟨⟨fun hboth => hcurrent.1 hboth.2, fun harrived => ?_⟩, haddressed⟩
  exact ⟨haddressed.2 fun k _ _ _ _ => harrived k, hcurrent.2 harrived⟩

/-! ### A vehicle that comes back -/

def arrived : Rounds Unit :=
  ⟨(round (report [] ["a"] 200) 1 departed.core).state, none, [⟨[], ["a"]⟩, ⟨["a"], []⟩]⟩

def back : Rounds Unit :=
  ⟨(round (report ["a"] [] 300) 5 arrived.core).state, none,
    [⟨["a"], []⟩, ⟨[], ["a"]⟩, ⟨["a"], []⟩]⟩

theorem reachable_back : Reachable (· = started []) (Step 0 Departs) back := by
  have hdeparted : Reachable (· = started []) (Step 0 Departs) departed := by
    refine reachable_round (.init rfl) rfl (by decide +kernel) (by decide +kernel)
      (by decide +kernel) (by decide +kernel) ⟨List.nodup_singleton _, fun _ _ => id⟩ ?_
    decide +kernel
  have harrived : Reachable (· = started []) (Step 0 Departs) arrived := by
    refine reachable_round hdeparted rfl (by decide +kernel) (by decide +kernel)
      (by decide +kernel) (by decide +kernel) ⟨.nil, nofun⟩ ?_
    decide +kernel
  refine reachable_round harrived rfl (by decide +kernel) (by decide +kernel)
    (by decide +kernel) (by decide +kernel) ⟨List.nodup_singleton _, ?_⟩ ?_
  · rintro k hk ⟨-, hnot⟩
    exact hnot hk
  · decide +kernel

/-- The object `p` of a vehicle `k` that moves gets no update, and `k` has the id of a removed one. -/
def missed (S : Rounds Unit) (k : String) (i : ObjectId) (p : ObjectPtr) (stale : ObjectId)
    (tasks : MobilityManagerTasks) (core : Core (Traffic Unit)) : Bool :=
  core.world.manager.mUpdater.mSubscribedVehicles.contains k &&
    S.core.mObjectList.currentCopy.mActiveObjects[i]? == some p &&
    (S.core.objects.cell p).mObjectName == "VehicleObject" &&
    (S.core.objects.cell p).mExternalId == some k &&
    tasks.actionsToSchedule.all (fun q => !decide (IsUpdateFor core i q)) &&
    core.world.manager.mIdMapper[k]? == some stale && stale.valid &&
    core.mObjectList.currentCopy.mRemovedObjects.contains stale

theorem of_missed {S : Rounds Unit} {k : String} {i stale : ObjectId} {p : ObjectPtr}
    {tasks : MobilityManagerTasks} {core : Core (Traffic Unit)}
    (h : missed S k i p stale tasks core = true) : ¬Addressed S tasks core ∧ ¬Current core := by
  simp only [missed, Bool.and_eq_true, beq_iff_eq, List.all_eq_true, Bool.not_eq_true',
    decide_eq_false_iff_not] at h
  obtain ⟨⟨⟨⟨⟨⟨⟨hmoving, hactive⟩, hname⟩, hext⟩, hnone⟩, hstale⟩, hvalid⟩, hremoved⟩ := h
  refine ⟨fun haddressed => ?_, fun hcurrent => ?_⟩
  · obtain ⟨q, hq, hupdate⟩ := haddressed k (TreeSet.mem_iff_contains.2 hmoving) i p
      ⟨hactive, hname, hext⟩
    exact hnone q hq hupdate
  · exact hcurrent k stale hstale hvalid (TreeSet.mem_iff_contains.2 hremoved)

/-- The vehicle has departed, arrived and departed again. Its new object does not get an update, since
the map of ids still has the id of the old one. -/
theorem not_addressed_back : Reachable (· = started []) (Step 0 Departs) back ∧
    ∃ tasks core, doVehicleUpdate 0 (report [] [] 400) 7 back.core.mObjectList.currentCopy back.core =
      .ok tasks core ∧ ¬Addressed back tasks core ∧ ¬Current core := by
  have hcheck : (doVehicleUpdate 0 (report [] [] 400) 7 back.core.mObjectList.currentCopy
      back.core).check (missed back "a" 8 7 5) = true := by decide +kernel
  obtain ⟨tasks, core, hok, hmissed⟩ := Result.exists_of_check hcheck
  exact ⟨reachable_back, tasks, core, hok, of_missed hmissed⟩

theorem addressed_and_current_back : ∃ tasks core,
    ((Addressed back tasks core ∧ Current core) ↔ ∀ k, ¬Arrived back.past k) ∧
      (Addressed back tasks core ↔ ∀ k ∈ core.world.manager.mUpdater.mSubscribedVehicles, ∀ i p,
        Represents back.core k i p → ¬Arrived back.past k) := by
  have hcheck : (doVehicleUpdate 0 (report [] [] 400) 7 back.core.mObjectList.currentCopy
    back.core).check (fun _ _ => true) = true := by decide +kernel
  have htime : (back.core.actions.cell 7).mStartTime.tdiv 1000000 = 400 := by decide +kernel
  have hapi := wellFormed_report [] [] 400
  rw [← htime] at hapi
  obtain ⟨tasks, core, hok, -⟩ := Result.exists_of_check hcheck
  rw [← htime] at hok
  exact ⟨tasks, core, addressed_and_current_iff (init_started []) reachable_back rfl
    (by decide +kernel) (by decide +kernel) (by decide +kernel) hapi hok⟩

end Rounds

end Cosidia
