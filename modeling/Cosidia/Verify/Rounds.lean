import Cosidia.Mobility.VehicleObject
import Cosidia.Verify.Traffic

/-!
# Rounds of the mobility manager

In each round the fiber of the manager turns what SUMO reports into tasks, and the core thread fulfils
them when the action ends. In between other objects may do what they like, but they do not make,
remove or rename objects.
-/

namespace Cosidia

open EStateM Std

/-! ## What stays as it is -/

section
variable {ω : Type} {s s' s'' : Core ω}

/-- Actions keep their types, their data and their objects. -/
structure Carries (s s' : Core ω) : Prop where
  world : s'.world = s.world
  next : s.actions.next ≤ s'.actions.next
  action : ∀ q < s.actions.next, (s'.actions.cell q).mType = (s.actions.cell q).mType ∧
    (s'.actions.cell q).mActionData = (s.actions.cell q).mActionData ∧
    (s'.actions.cell q).mAffectedObject = (s.actions.cell q).mAffectedObject

namespace Carries

theorem refl (s : Core ω) : Carries s s := ⟨rfl, Nat.le_refl _, fun _ _ => ⟨rfl, rfl, rfl⟩⟩

theorem trans (h : Carries s s') (h' : Carries s' s'') : Carries s s'' where
  world := h'.world.trans h.world
  next := h.next.trans h'.next
  action q hq := by
    obtain ⟨h1, h2, h3⟩ := h.action q hq
    obtain ⟨h1', h2', h3'⟩ := h'.action q (hq.trans_le h.next)
    exact ⟨h1'.trans h1, h2'.trans h2, h3'.trans h3⟩

theorem of_eq (hworld : s'.world = s.world) (hactions : s'.actions = s.actions) : Carries s s' :=
  ⟨hworld, by rw [hactions], fun q _ => by rw [hactions]; exact ⟨rfl, rfl, rfl⟩⟩

theorem alloc (a : Action) (s : Core ω) : Carries s { s with actions := s.actions.alloc a } := by
  refine ⟨rfl, Nat.le_succ _, fun q hq => ?_⟩
  rw [show (s.actions.alloc a).cell q = s.actions.cell q from Heap.alloc_cell_of_lt hq]
  exact ⟨rfl, rfl, rfl⟩

/-- The programs that let actions keep these. -/
abbrev Program {α : Type} (x : CoreM ω α) : Prop :=
  Composed (fun {_} x => ∀ s, Carries s (x s).state) x

theorem of_program {α : Type} {x : CoreM ω α} (h : Program x) (s : Core ω) :
    Carries s (x s).state :=
  h.related refl trans (fun h => h) s

theorem getAction (p : ActionPtr) : Program (Cosidia.getAction p : CoreM ω _) := by
  refine .prim fun s => ?_
  have hs := Schedules.onAction (x := get) (fun a => ⟨rfl, rfl, rfl, rfl⟩) s (p := p)
  refine ⟨hs.world, hs.next.ge, fun q _ => ?_⟩
  obtain ⟨h1, h2, -, h3⟩ := hs.action q
  exact ⟨h1, h2, h3⟩

theorem scheduleStartHandler (p : ActionPtr) :
    Program (Action.scheduleStartHandler p : CoreM ω _) := by
  refine .prim fun s => ?_
  have hs := Schedules.scheduleStartHandler p s
  refine ⟨hs.world, hs.next.ge, fun q _ => ?_⟩
  obtain ⟨h1, h2, -, h3⟩ := hs.action q
  exact ⟨h1, h2, h3⟩

theorem onObject {α : Type} (p : ObjectPtr) (x : EStateM Failure BaseObject α) :
    Program (Cosidia.onObject p x : CoreM ω _) :=
  .prim fun s => Post.state (post_onObject (fun _ => post_of_state (of_eq rfl rfl)) (refl s))

theorem onObjectList {α : Type} (x : EStateM Failure ObjectList α) :
    Program (Cosidia.onObjectList x : CoreM ω _) := by
  refine .prim fun s => ?_
  simp only [Cosidia.onObjectList]
  rw [zoom_state]
  exact of_eq rfl rfl

theorem ofExcept {α : Type} (x : Except Failure α) : Program (Cosidia.ofExcept x : CoreM ω α) := by
  cases x with
  | ok a => exact .pure a
  | error e => exact .throw e

theorem create (kind : ActionKind) (duration : Duration) (start : TimePoint)
    (id generator : ObjectId) :
    Program (ActionFactory.create kind duration start id generator : CoreM ω _) := by
  refine .bind (Composed.enforce _ _) fun _ => .bind (Composed.enforce _ _) fun _ => .bind .get ?_
  exact fun _ => .bind (.prim fun s => alloc _ s) fun _ => .pure _

theorem initializeAt (t : TimePoint) (obj : TemporaryObject) :
    Program (obj.initializeAt t : CoreM ω _) := by
  simp only [TemporaryObject.initializeAt]
  split_ifs
  · refine .bind (onObjectList _) fun _ => .bind (onObject _ _) fun _ => ?_
    exact .bind (create _ _ _ _ _) fun _ => .bind (scheduleStartHandler _) fun _ => .pure _
  · exact .bind (onObject _ _) fun _ => .pure _

theorem relate (ids : TreeMap ObjectId TemporaryObject) (obj : TemporaryObject) :
    Program (TemporaryObjectList.relate ids obj : CoreM ω _) := by
  simp only [TemporaryObjectList.relate]
  refine .bind (.forM fun _ _ => .bind (ofExcept _) fun _ => onObject _ _) fun _ => ?_
  refine .bind (.forM fun _ _ => .bind (ofExcept _) fun _ => onObject _ _) fun _ => ?_
  split_ifs
  · exact .bind (onObject _ _) fun _ => .bind (Composed.enforce _ _) fun _ => onObjectList _
  · exact .pure _

theorem resolveAndStart (t : TimePoint) (l : List TemporaryObject) :
    Program (TemporaryObjectList.resolveAndStart t l : CoreM ω _) :=
  .bind (.mapM fun obj _ => initializeAt t obj) fun _ => .forM fun obj _ => relate _ obj

/-- Fulfilling the tasks of the manager. -/
theorem endExecution {π : Type} (action : ActionPtr) (tasks : MobilityManagerTasks) :
    Program (MobilityManager.endExecution action tasks : CoreM (Traffic π) _) := by
  refine .bind (.forM fun _ _ => .bind (getAction _) fun _ => resolveAndStart _ _) fun _ => ?_
  exact .bind (.forM fun p _ => scheduleStartHandler p) fun _ => .forM fun _ _ => onObjectList _

end Carries

end

variable {π : Type}

/-- What other objects do between two moves of the manager: they do not touch the manager, the
containers or the data of actions, and of the objects only their actions. -/
structure Elsewhere (s s' : Core (Traffic π)) : Prop where
  objectList : s'.mObjectList = s.mObjectList
  manager : s'.world.manager = s.world.manager
  nextObject : s.objects.next ≤ s'.objects.next
  object : ∀ p < s.objects.next, (s'.objects.cell p).profile = (s.objects.cell p).profile
  nextAction : s.actions.next ≤ s'.actions.next
  action : ∀ q < s.actions.next, (s'.actions.cell q).mType = (s.actions.cell q).mType ∧
    (s'.actions.cell q).mActionData = (s.actions.cell q).mActionData ∧
    (s'.actions.cell q).mAffectedObject = (s.actions.cell q).mAffectedObject
  nextData : s.world.data.next ≤ s'.world.data.next
  datum : ∀ d < s.world.data.next, s'.world.data.cell d = s.world.data.cell d

/-- What stays as it is from `s` on, whatever happens. -/
structure Later (s s' : Core (Traffic π)) : Prop where
  nextObject : s.objects.next ≤ s'.objects.next
  object : ∀ p < s.objects.next, Registry.Lasting (s.objects.cell p) (s'.objects.cell p)
  nextAction : s.actions.next ≤ s'.actions.next
  action : ∀ q < s.actions.next, (s'.actions.cell q).mType = (s.actions.cell q).mType ∧
    (s'.actions.cell q).mActionData = (s.actions.cell q).mActionData ∧
    (s'.actions.cell q).mAffectedObject = (s.actions.cell q).mAffectedObject
  nextData : s.world.data.next ≤ s'.world.data.next
  datum : ∀ d < s.world.data.next, s'.world.data.cell d = s.world.data.cell d

theorem Later.refl (s : Core (Traffic π)) : Later s s :=
  ⟨Nat.le_refl _, fun _ _ => .refl _, Nat.le_refl _, fun _ _ => ⟨rfl, rfl, rfl⟩, Nat.le_refl _,
    fun _ _ => rfl⟩

theorem Later.trans {s s' s'' : Core (Traffic π)} (h : Later s s') (h' : Later s' s'') :
    Later s s'' where
  nextObject := h.nextObject.trans h'.nextObject
  object p hp := (h.object p hp).trans (h'.object p (hp.trans_le h.nextObject))
  nextAction := h.nextAction.trans h'.nextAction
  action q hq := by
    obtain ⟨h1, h2, h3⟩ := h.action q hq
    obtain ⟨h1', h2', h3'⟩ := h'.action q (hq.trans_le h.nextAction)
    exact ⟨h1'.trans h1, h2'.trans h2, h3'.trans h3⟩
  nextData := h.nextData.trans h'.nextData
  datum d hd := (h'.datum d (hd.trans_le h.nextData)).trans (h.datum d hd)

theorem Elsewhere.later {s s' : Core (Traffic π)} (h : Elsewhere s s') : Later s s' :=
  ⟨h.nextObject, fun p hp => Registry.lasting_of_profile (h.object p hp), h.nextAction, h.action,
    h.nextData, h.datum⟩

/-! ## Rounds -/

/-- What SUMO has reported in a step. -/
structure Report where
  departed : List String
  arrived : List String
  deriving DecidableEq, Repr

def LiteAPI.report (api : LiteAPI) : Report := ⟨api.departedVehicles, api.arrivedVehicles⟩

/-- The vehicle has departed in one of the steps. -/
def Departed (past : List Report) (k : String) : Prop := ∃ p ∈ past, k ∈ p.departed

/-- The vehicle has arrived in one of the steps. -/
def Arrived (past : List Report) (k : String) : Prop := ∃ p ∈ past, k ∈ p.arrived

theorem departed_cons {p : Report} {past : List Report} {k : String} :
    Departed (p :: past) k ↔ k ∈ p.departed ∨ Departed past k := by
  simp [Departed]

theorem arrived_cons {p : Report} {past : List Report} {k : String} :
    Arrived (p :: past) k ↔ k ∈ p.arrived ∨ Arrived past k := by
  simp [Arrived]

/-- A simulation with a mobility manager. -/
structure Rounds (π : Type) where
  core : Core (Traffic π)
  /-- The action of the manager that has not ended and what its fiber has returned. -/
  future : Option (ActionPtr × MobilityManagerTasks) := none
  /-- What SUMO has reported so far, the last report first. -/
  past : List Report := []

namespace Rounds

/-- The moves. `Allowed` says what SUMO may report after what it has reported. -/
inductive Step (this : ObjectPtr) (Allowed : List Report → LiteAPI → Prop) :
    Rounds π → Rounds π → Prop
  | update {S : Rounds π} {api : LiteAPI} {action : ActionPtr} {tasks : MobilityManagerTasks}
    {core : Core (Traffic π)} : S.future = none → action < S.core.actions.next →
    0 ≤ (S.core.actions.cell action).mStartTime → 0 ≤ (S.core.actions.cell action).mDuration →
    api.WellFormed ((S.core.actions.cell action).mStartTime.tdiv 1000000) → Allowed S.past api →
    SumoMobilityManager.doVehicleUpdate this api action S.core.mObjectList.currentCopy S.core =
      .ok tasks core →
    Step this Allowed S ⟨core, some (action, tasks), api.report :: S.past⟩
  | finish {S : Rounds π} {action : ActionPtr} {tasks : MobilityManagerTasks}
    {core : Core (Traffic π)} : S.future = some (action, tasks) →
    MobilityManager.endExecution action tasks S.core = .ok () core →
    Step this Allowed S ⟨core, none, S.past⟩
  | other {S : Rounds π} {core : Core (Traffic π)} : Elsewhere S.core core →
    Step this Allowed S { S with core }

/-- The manager `this` and the radio have been added, `running` are the vehicles that are running when
the updater is made. -/
structure Init (this radio : ObjectPtr) (rid : ObjectId) (running : List String) (S : Rounds π) :
    Prop where
  radio : HasRadio radio rid S.core
  vacant : S.core.registry.Vacant
  this_lt : this < S.core.objects.next
  valid : (S.core.objects.cell this).mObjectId.valid = true
  ids : S.core.world.manager.mIdMapper = ∅
  updater : SumoUpdater.initSubscriptions running {} = .ok () S.core.world.manager.mUpdater
  future : S.future = none
  past : S.past = []

/-! ## What every history keeps -/

/-- The vehicles `vs` are there; the objects of `pending` have been made, and `gone` are about to be
removed. The map of ids and the subscriptions agree with what SUMO has reported. -/
structure Tracks (radio : ObjectPtr) (rid : ObjectId) (r₀ : Registry) (running : List String)
    (r : Registry) (vs : List Vehicle) (pending : List (String × Nat)) (gone : List Vehicle)
    (S : Rounds π) : Prop where
  shows : Registry.Shows r S.core
  houses : Registry.Houses radio rid r₀ vs r
  raw : ∀ v ∈ pending, Registry.Raw v.2 v.1 r
  apart : pending.Pairwise fun v w => v.2 + 3 ≤ w.2
  low : ∀ v ∈ pending, r₀.objects.next ≤ v.2
  after : ∀ v ∈ pending, ∀ w ∈ vs, w.next + 3 ≤ v.2
  going : ∀ v ∈ gone, v ∈ vs ∧ Arrived S.past v.externalId
  mem : ∀ k, k ∈ S.core.world.manager.mIdMapper ↔ Departed S.past k
  arrived : ∀ k, Arrived S.past k → Departed S.past k
  stub : ∀ (k : String) (id : ObjectId), S.core.world.manager.mIdMapper[k]? = some id →
    id.valid = false → ¬Arrived S.past k ∧
      ((∃ v ∈ vs, v.externalId = k) ∨ k ∈ pending.map (·.1))
  valid : ∀ (k : String) (id : ObjectId), S.core.world.manager.mIdMapper[k]? = some id →
    id.valid = true →
      (¬Arrived S.past k ∧ ∃ v ∈ vs, v.externalId = k ∧ v.vehicleId = id ∧ v ∉ gone) ∨
      (Arrived S.past k ∧ (id ∈ r.container.mRemovedObjects ∨ ∃ v ∈ gone, v.vehicleId = id))
  subscribed : ∀ k ∈ S.core.world.manager.mUpdater.mSubscribedVehicles,
    Departed S.past k ∨ (S.past = [] ∧ k ∈ running)
  running : S.past = [] → ∀ k ∈ running, k ∈ S.core.world.manager.mUpdater.mSubscribedVehicles
  idle : S.future = none → pending = [] ∧ gone = []
  tasks : ∀ action tasks, S.future = some (action, tasks) →
    tasks.vehiclesToAdd = (pending.map fun v =>
      ObjectFactory.vehicleObjects radio (v.2 + 1) (v.2 + 2) v.2) ∧
    tasks.objectsToDelete = (gone.map Vehicle.ids).flatten

variable {this radio : ObjectPtr} {rid : ObjectId} {running : List String} {S S' S₀ : Rounds π}
variable {r₀ r : Registry} {vs gone : List Vehicle} {pending : List (String × Nat)}
variable {Allowed : List Report → LiteAPI → Prop}

theorem Init.tracks (h : S.Init this radio rid running) :
    S.Tracks radio rid S.core.registry running S.core.registry [] [] [] where
  shows := ⟨rfl, h.radio.current.symm, rfl, h.radio.made, rfl⟩
  houses := h.radio.base.houses
  raw := nofun
  apart := .nil
  low := nofun
  after := nofun
  going := nofun
  mem k := by simp [h.ids, h.past, Departed]
  arrived k := by simp [h.past, Arrived]
  stub k id hk := by simp [h.ids] at hk
  valid k id hk := by simp [h.ids] at hk
  subscribed k hk := by
    obtain ⟨u, hok, hmem⟩ := SumoUpdater.forM_subscribeVehicle running {}
    rw [← (Result.ok.inj (hok.symm.trans h.updater)).2, hmem] at hk
    exact .inr ⟨h.past, hk.resolve_right TreeSet.not_mem_emptyc⟩
  running _ k hk := by
    obtain ⟨u, hok, hmem⟩ := SumoUpdater.forM_subscribeVehicle running {}
    rw [← (Result.ok.inj (hok.symm.trans h.updater)).2, hmem]
    exact .inl hk
  idle _ := ⟨rfl, rfl⟩
  tasks action tasks hfuture := by rw [h.future] at hfuture; cases hfuture

open SumoMobilityManager

section
variable (hb : Registry.Base radio rid r₀) (hvacant : r₀.Vacant)
variable (h : S.Tracks radio rid r₀ running r vs [] [])
include hb hvacant h

/-- The map of ids after the new vehicles have been noted. -/
theorem Tracks.noted_of_departed (api : LiteAPI) {k : String} (hk : Departed S.past k) :
    ∃ id, (noted api r S.core.world.manager)[k]? = some id ∧ id.valid = true ∧
      ((¬Arrived S.past k ∧ ∃ v ∈ vs, v.externalId = k ∧ v.vehicleId = id) ∨
        (Arrived S.past k ∧ id ∈ r.container.mRemovedObjects)) := by
  obtain ⟨id, hid⟩ := Option.isSome_iff_exists.1
    (TreeMap.mem_iff_isSome_getElem?.1 ((h.mem k).2 hk))
  have hnoted : (noted api r S.core.world.manager)[k]? =
      some (MobilityManager.fetchVehicleId r.objects r.container.getAll k id) := by
    simp only [noted]
    rw [depart_getElem?, MobilityManager.fetch_getElem?, hid]
    rfl
  refine ⟨_, hnoted, ?_⟩
  cases hvalid : id.valid with
  | true =>
    rw [MobilityManager.fetchVehicleId_of_valid hvalid]
    refine ⟨hvalid, (h.valid k id hid hvalid).imp ?_ ?_⟩
    · exact fun ⟨harrived, v, hv, hext, hid, _⟩ => ⟨harrived, v, hv, hext, hid⟩
    · exact fun ⟨harrived, hremoved⟩ => ⟨harrived, hremoved.resolve_right nofun⟩
  | false =>
    obtain ⟨harrived, hstub⟩ := h.stub k id hid hvalid
    obtain ⟨v, hv, hext⟩ := hstub.resolve_right nofun
    rcases MobilityManager.fetchVehicleId_spec r.objects r.container.getAll k hvalid with
      ⟨e, he, ⟨hname, hexternal⟩, heq⟩ | ⟨hnone, -⟩
    · have hactive := TreeMap.mem_toList_iff_getElem?_eq_some.1 he
      obtain ⟨w, hw, -, hp⟩ := h.houses.of_named hb hvacant ⟨hactive, hname⟩
      have hprofile := h.houses.vehicle w hw
      rw [hp] at hexternal heq
      have hexternal' : some w.externalId = some k :=
        (congrArg (·.mExternalId) hprofile).symm.trans hexternal
      rw [heq, show (r.objects.cell w.vehicle).mObjectId = w.vehicleId from
        congrArg (·.mObjectId) hprofile]
      exact ⟨h.houses.valid hb hw, .inl ⟨harrived, w, hw, Option.some.inj hexternal', rfl⟩⟩
    · refine absurd ⟨?_, ?_⟩ (hnone (v.vehicleId, v.vehicle)
        (TreeMap.mem_toList_iff_getElem?_eq_some.2 (h.houses.vehicle_active hv)))
      · exact congrArg (·.mObjectName) (h.houses.vehicle v hv)
      · rw [← hext]
        exact congrArg (·.mExternalId) (h.houses.vehicle v hv)

omit hb hvacant in
theorem Tracks.noted_of_not_departed (api : LiteAPI) {k : String} (hk : ¬Departed S.past k) :
    (noted api r S.core.world.manager)[k]? =
      if k ∈ api.departedVehicles then some .stub else none := by
  have hnone : S.core.world.manager.mIdMapper[k]? = none :=
    TreeMap.getElem?_eq_none fun hmem => hk ((h.mem k).1 hmem)
  simp only [noted]
  rw [depart_getElem?, MobilityManager.fetch_getElem?, hnone]
  rfl

omit hvacant in
theorem Tracks.mem_noted (hvacant : r₀.Vacant) (api : LiteAPI) {k : String} :
    k ∈ noted api r S.core.world.manager ↔ Departed (api.report :: S.past) k := by
  rw [TreeMap.mem_iff_isSome_getElem?, departed_cons]
  by_cases hk : Departed S.past k
  · obtain ⟨id, hid, -⟩ := h.noted_of_departed hb hvacant api hk
    rw [hid]
    exact iff_of_true rfl (.inr hk)
  · rw [h.noted_of_not_departed api hk, or_iff_left hk]
    show _ ↔ k ∈ api.departedVehicles
    split_ifs with hmem
    · exact iff_of_true rfl hmem
    · exact iff_of_false nofun hmem

/-- The vehicles that can be removed are those that have departed before and have not arrived. -/
theorem Tracks.noted_eq_vehicleId (api : LiteAPI) {k : String} {v : Vehicle} (hv : v ∈ vs)
    (hk : (noted api r S.core.world.manager)[k]? = some v.vehicleId) :
    Departed S.past k ∧ ¬Arrived S.past k ∧ v.externalId = k := by
  have hvalid := h.houses.valid hb hv
  have hdeparted : Departed S.past k := by
    by_contra hnot
    rw [h.noted_of_not_departed api hnot] at hk
    split_ifs at hk
    rw [← Option.some.inj hk] at hvalid
    exact absurd hvalid (by decide)
  obtain ⟨id, hid, -, hcases⟩ := h.noted_of_departed hb hvacant api hdeparted
  obtain rfl := Option.some.inj (hid.symm.trans hk)
  rcases hcases with ⟨harrived, w, hw, hext, heq⟩ | ⟨-, hremoved⟩
  · rw [h.houses.eq_of_vehicleId hv hw heq.symm]
    exact ⟨hdeparted, harrived, hext⟩
  · refine absurd ?_ (h.houses.removed _ hremoved).1
    rw [TreeMap.mem_iff_isSome_getElem?, h.houses.vehicle_active hv]
    rfl

theorem Tracks.exists_noted (api : LiteAPI) {k : String} (hk : Departed S.past k)
    (harrived : ¬Arrived S.past k) : ∃ v ∈ vs, v.externalId = k ∧
      (noted api r S.core.world.manager)[k]? = some v.vehicleId := by
  obtain ⟨id, hid, -, hcases⟩ := h.noted_of_departed hb hvacant api hk
  obtain ⟨-, v, hv, hext, rfl⟩ := hcases.resolve_right fun h => harrived h.1
  exact ⟨v, hv, hext, hid⟩

section
variable {api : LiteAPI} {action : ActionPtr} {tasks : MobilityManagerTasks} {core : Core (Traffic π)}
variable (hready : Ready this action r S.core)
variable (hapi : api.WellFormed ((S.core.actions.cell action).mStartTime.tdiv 1000000))
include hready hapi

/-- A step of the manager returns if only vehicles arrive that have departed before and have not arrived
yet, and those that have been running from the beginning depart first. -/
theorem Tracks.doVehicleUpdate_ok
    (harrived : ∀ k ∈ api.arrivedVehicles, Departed S.past k ∧ ¬Arrived S.past k)
    (hrunning : S.past = [] → ∀ k ∈ running, k ∈ api.departedVehicles) :
    ∃ tasks core pending gone moving r',
      doVehicleUpdate this api action S.core.mObjectList.currentCopy S.core = .ok tasks core ∧
      Updated this action api radio vs r S.core tasks pending gone moving r' core := by
  rw [h.shows.currentCopy]
  refine SumoMobilityManager.doVehicleUpdate_ok hready hb h.houses hapi (fun k hk => ?_)
    fun k hk => ?_
  · obtain ⟨v, hv, -, hnoted⟩ := h.exists_noted hb hvacant api (harrived k hk).1 (harrived k hk).2
    exact ⟨v, hv, hnoted⟩
  · rw [h.mem_noted hb hvacant api, departed_cons]
    rcases hk.1 with hk | hk
    · exact .inl hk
    · exact (h.subscribed k hk).elim .inr fun ⟨hpast, hk⟩ => .inl (hrunning hpast k hk)

/-- Otherwise it throws. -/
theorem Tracks.of_doVehicleUpdate (hok : doVehicleUpdate this api action
      S.core.mObjectList.currentCopy S.core = .ok tasks core) :
    (∀ k ∈ api.arrivedVehicles, Departed S.past k ∧ ¬Arrived S.past k) ∧
      (S.past = [] → ∀ k ∈ running, k ∈ api.departedVehicles) := by
  rw [h.shows.currentCopy] at hok
  obtain ⟨res, u, pending, r', s₁, s₂, s₃, s₄, hp⟩ := prepared_ok hready (h.houses.getUnique hb) hapi
  obtain ⟨hnamed, hmoving⟩ := hp.of_ok hready hok
  have harrived : ∀ k ∈ api.arrivedVehicles, Departed S.past k ∧ ¬Arrived S.past k := by
    intro k hk
    obtain ⟨id, p, hid, hnamed⟩ := hnamed k hk
    obtain ⟨v, hv, rfl, -⟩ := (h.houses.keeps hp.made.keeps).of_named hb hvacant hnamed
    obtain ⟨hdeparted, hnot, -⟩ := h.noted_eq_vehicleId hb hvacant api hv hid
    exact ⟨hdeparted, hnot⟩
  refine ⟨harrived, fun hpast k hk => ?_⟩
  have hnone : ∀ k, ¬Departed S.past k := fun k ⟨p, hp, _⟩ => by rw [hpast] at hp; cases hp
  have hmem := hmoving k ⟨.inr (h.running hpast k hk), fun hmem => hnone k (harrived k hmem).1⟩
  exact (departed_cons.1 ((h.mem_noted hb hvacant api).1 hmem)).resolve_right (hnone k)

theorem Tracks.updated (hok : doVehicleUpdate this api action S.core.mObjectList.currentCopy S.core =
      .ok tasks core) : ∃ pending gone moving r',
    Updated this action api radio vs r S.core tasks pending gone moving r' core := by
  obtain ⟨harrived, hrunning⟩ := h.of_doVehicleUpdate hb hvacant hready hapi hok
  obtain ⟨tasks', core', pending, gone, moving, r', hok', hupdated⟩ :=
    h.doVehicleUpdate_ok hb hvacant hready hapi harrived hrunning
  obtain ⟨rfl, rfl⟩ := Result.ok.inj (hok'.symm.trans hok)
  exact ⟨pending, gone, moving, r', hupdated⟩

/-- What holds while the fiber has returned and the action has not ended. -/
theorem Tracks.update {pending : List (String × Nat)} {gone : List Vehicle} {moving : List String}
    {r' : Registry} (hok : doVehicleUpdate this api action S.core.mObjectList.currentCopy S.core =
      .ok tasks core)
    (hu : Updated this action api radio vs r S.core tasks pending gone moving r' core) :
    Tracks radio rid r₀ running r' vs pending gone
      ⟨core, some (action, tasks), api.report :: S.past⟩ := by
  obtain ⟨harrived, hrunning⟩ := h.of_doVehicleUpdate hb hvacant hready hapi hok
  have hgone : ∀ k ∈ api.arrivedVehicles, ∃ v ∈ gone, v ∈ vs ∧
      (noted api r S.core.world.manager)[k]? = some v.vehicleId := exists_of_mem_left hu.arrived
  have hgone' : ∀ v ∈ gone, v ∈ vs ∧ v.externalId ∈ api.arrivedVehicles := by
    intro v hv
    obtain ⟨k, hk, hmem, hnoted⟩ := exists_of_mem_left hu.arrived.flip v hv
    rw [(h.noted_eq_vehicleId hb hvacant api hmem hnoted).2.2]
    exact ⟨hmem, hk⟩
  have hvalid : ∀ k id, (noted api r S.core.world.manager)[k]? = some id →
      (Departed S.past k ↔ id.valid = true) := by
    intro k id hk
    by_cases hdeparted : Departed S.past k
    · obtain ⟨id', hid', hvalid, -⟩ := h.noted_of_departed hb hvacant api hdeparted
      rw [Option.some.inj (hk.symm.trans hid')]
      exact iff_of_true hdeparted hvalid
    · rw [h.noted_of_not_departed api hdeparted] at hk
      split_ifs at hk
      rw [← Option.some.inj hk]
      exact iff_of_false hdeparted (by decide)
  refine ⟨hu.shows, h.houses.keeps hu.made.keeps, hu.made.raw, hu.made.apart, fun v hv => ?_,
    fun v hv w hw => ?_, fun v hv => ?_, fun k => ?_, fun k hk => ?_, fun k id hid hstub => ?_,
    fun k id hid hid' => ?_, fun k hk => ?_, fun hnil => ?_, nofun, fun a t hfuture => ?_⟩
  · exact h.houses.next.trans (hu.made.new v hv)
  · exact (h.houses.range w hw).2.2.2.trans (hu.made.new v hv)
  · exact ⟨(hgone' v hv).1, arrived_cons.2 (.inl (hgone' v hv).2)⟩
  · rw [hu.ids]
    exact h.mem_noted hb hvacant api
  · rw [departed_cons]
    exact .inr ((arrived_cons.1 hk).elim (fun hk => (harrived k hk).1) (h.arrived k))
  · rw [hu.ids] at hid
    have hdeparted : ¬Departed S.past k := fun hk => by
      rw [(hvalid k id hid).1 hk] at hstub
      cases hstub
    refine ⟨fun hk => hdeparted ?_, .inr ?_⟩
    · exact (arrived_cons.1 hk).elim (fun hk => (harrived k hk).1) (h.arrived k)
    · rw [hu.names]
      rw [h.noted_of_not_departed api hdeparted] at hid
      split_ifs at hid with hmem
      exact hmem
  · rw [hu.ids] at hid
    obtain ⟨id', hk, -, hcases⟩ :=
      h.noted_of_departed hb hvacant api ((hvalid k id hid).2 hid')
    obtain rfl := Option.some.inj (hk.symm.trans hid)
    rcases hcases with ⟨hnot, v, hv, hext, hv'⟩ | ⟨harrived, hremoved⟩
    · by_cases hmem : k ∈ api.arrivedVehicles
      · obtain ⟨w, hw, -, hnoted⟩ := hgone k hmem
        exact .inr ⟨arrived_cons.2 (.inl hmem), .inr ⟨w, hw, Option.some.inj (hnoted.symm.trans hid)⟩⟩
      · refine .inl ⟨fun hk => (arrived_cons.1 hk).elim hmem hnot, v, hv, hext, hv', fun hv => ?_⟩
        exact hmem (hext ▸ (hgone' v hv).2)
    · refine .inr ⟨arrived_cons.2 (.inr harrived), .inl ?_⟩
      rwa [hu.made.keeps.container]
  · rw [hu.subscribed] at hk
    refine .inl ((h.mem_noted hb hvacant api).1 ?_)
    rw [h.mem_noted hb hvacant api, departed_cons]
    rcases hk.1 with hk | hk
    · exact .inl hk
    · exact (h.subscribed k hk).elim .inr fun ⟨hpast, hk⟩ => .inl (hrunning hpast k hk)
  · cases hnil
  · obtain ⟨rfl, rfl⟩ := Prod.mk.inj (Option.some.inj hfuture)
    exact ⟨hu.vehiclesToAdd, hu.objectsToDelete⟩

end

end

/-! ## Fulfilling the tasks -/

/-- The objects of the vehicles are settled, one vehicle after the other, and others are removed. -/
theorem shows_endExecution {s : Core (Traffic π)} {action : ActionPtr} {tasks : MobilityManagerTasks}
    (h : Registry.Shows r s) (htasks : tasks.vehiclesToAdd = pending.map fun v =>
      ObjectFactory.vehicleObjects radio (v.2 + 1) (v.2 + 2) v.2) :
    Returns (MobilityManager.endExecution action tasks) s fun _ s' =>
      Registry.Shows ((r.settleAll radio pending).removeAll tasks.objectsToDelete) s' := by
  have hadd : ∀ {r : Registry} {s : Core (Traffic π)}, Registry.Shows r s →
      Returns (tasks.vehiclesToAdd.forM fun vehicle => do
        TemporaryObjectList.resolveAndStart (← getAction action).getEndTime vehicle) s fun _ s' =>
          Registry.Shows (r.settleAll radio pending) s' := by
    rw [htasks]
    clear htasks
    induction pending with
    | nil => exact fun h => h
    | cons v pending ih =>
      intro r s h
      refine Post.bind (M := fun _ s' => Registry.Shows (r.settle radio v.2) s') ?_
        fun _ s₁ h₁ => ih h₁
      refine Post.bind (M := fun _ s' => Registry.Shows r s') ?_ fun a s₁ h₁ => ?_
      · refine post_onAction (fun _ => ?_) trivial
        show Registry.Shows r (s.writeAction action (s.actions.cell action))
        rwa [Core.writeAction, Heap.write_cell_eq]
      · refine Post.mono (Registry.shows_resolveAndStart _ h₁) (fun _ s' h' => ?_) fun _ _ _ => trivial
        rwa [Registry.startAll_vehicleObjects, Registry.relate_vehicleObjects] at h'
  have hschedule : ∀ (l : List ActionPtr) {r : Registry} {s : Core (Traffic π)}, Registry.Shows r s →
      Returns (l.forM Action.scheduleStartHandler) s fun _ s' => Registry.Shows r s' := by
    intro l
    induction l with
    | nil => exact fun h => h
    | cons q l ih =>
      intro r s h
      refine Post.bind (M := fun _ s' => Registry.Shows r s') ?_ fun _ s₁ h₁ => ih h₁
      exact Post.mono (post_of_state (I := Registry.Shows r)
        (h.schedules (Schedules.scheduleStartHandler q s))) (fun _ _ h => h) fun _ _ _ => trivial
  refine Post.bind (hadd h) fun _ s₁ h₁ => Post.bind (hschedule _ h₁) fun _ s₂ h₂ => ?_
  exact Registry.shows_removeAll _ h₂

/-- The action of the manager has ended. -/
theorem Tracks.finish (hb : Registry.Base radio rid r₀)
    (h : S.Tracks radio rid r₀ running r vs pending gone) {action : ActionPtr}
    {tasks : MobilityManagerTasks} {core : Core (Traffic π)}
    (hfuture : S.future = some (action, tasks))
    (hok : MobilityManager.endExecution action tasks S.core = .ok () core) :
    ∃ r' new vs', Tracks radio rid r₀ running r' vs' [] [] ⟨core, none, S.past⟩ ∧
      vs'.Sublist (new ++ vs) ∧ (∀ v, v ∈ vs' ↔ v ∈ new ++ vs ∧ v ∉ gone) ∧
      new.map (·.externalId) = (pending.map (·.1)).reverse ∧ Later S.core core ∧
      core.world.manager = S.core.world.manager := by
  obtain ⟨hadd, hdelete⟩ := h.tasks action tasks hfuture
  obtain ⟨new, hnew, hnames, hlasting⟩ := h.houses.settleAll hb pending h.apart h.raw h.low h.after
  have hremoved : ∀ v ∈ gone, v ∈ new ++ vs ∨
      ∀ i ∈ v.ids, i ∈ (r.settleAll radio pending).container.mRemovedObjects :=
    fun v hv => .inl (List.mem_append_right _ (h.going v hv).1)
  obtain ⟨vs', hhouses, hsub, hmem⟩ := hnew.removeAll hb gone hremoved
  have hshows := (shows_endExecution h.shows hadd).ok hok
  have hcarries : Carries S.core core := by
    have hcarries := Carries.of_program (Carries.endExecution action tasks) S.core
    rwa [hok] at hcarries
  rw [hdelete] at hshows
  have hmanager : core.world.manager = S.core.world.manager := by rw [hcarries.world]
  have hflatten : ∀ i, i ∈ (gone.map Vehicle.ids).flatten ↔ ∃ v ∈ gone, i ∈ v.ids := by
    simp [List.mem_flatten]
  have hstay : ∀ {k : String} {v : Vehicle}, ¬Arrived S.past k → v.externalId = k → v ∉ gone := by
    rintro k v hk rfl hv
    exact hk (h.going v hv).2
  refine ⟨_, new, vs', ⟨hshows, hhouses, nofun, .nil, nofun, nofun, nofun, ?_, h.arrived,
    fun k id hid hvalid => ?_, fun k id hid hvalid => ?_, ?_, ?_, fun _ => ⟨rfl, rfl⟩, nofun⟩, hsub,
    hmem, hnames, ?_, hmanager⟩
  · rw [hmanager]
    exact h.mem
  · rw [hmanager] at hid
    obtain ⟨hnot, hstub⟩ := h.stub k id hid hvalid
    refine ⟨hnot, .inl ?_⟩
    rcases hstub with ⟨v, hv, hext⟩ | hk
    · exact ⟨v, (hmem v).2 ⟨List.mem_append_right _ hv, hstay hnot hext⟩, hext⟩
    · rw [← List.mem_reverse, ← hnames] at hk
      obtain ⟨v, hv, hext⟩ := List.mem_map.1 hk
      exact ⟨v, (hmem v).2 ⟨List.mem_append_left _ hv, hstay hnot hext⟩, hext⟩
  · rw [hmanager] at hid
    rcases h.valid k id hid hvalid with ⟨hnot, v, hv, hext, hv', hgone⟩ | ⟨harrived, hremoved⟩
    · exact .inl ⟨hnot, v, (hmem v).2 ⟨List.mem_append_right _ hv, hgone⟩, hext, hv', nofun⟩
    · refine .inr ⟨harrived, .inl ((Registry.mem_removeAll _ _).2 ?_)⟩
      rcases hremoved with hremoved | ⟨v, hv, rfl⟩
      · exact .inr (by rwa [Registry.settleAll_removed])
      · exact .inl ((hflatten _).2 ⟨v, hv, List.mem_cons_self ..⟩)
  · rw [hmanager]
    exact h.subscribed
  · rw [hmanager]
    exact h.running
  · have hobjects : core.objects = (r.settleAll radio pending).objects := by
      rw [hshows.objects]
      exact Registry.removeAll_objects _ _
    refine ⟨?_, fun p _ => ?_, hcarries.next, hcarries.action, ?_, fun d _ => ?_⟩
    · rw [hobjects, h.shows.objects, Registry.settleAll_next]
    · rw [hobjects, h.shows.objects]
      exact hlasting p
    · rw [hcarries.world]
    · rw [hcarries.world]

theorem Tracks.other (h : S.Tracks radio rid r₀ running r vs pending gone) {core : Core (Traffic π)}
    (hcore : Elsewhere S.core core) :
    Tracks radio rid r₀ running ⟨core.objects, r.container, r.lastId⟩ vs pending gone
      { S with core } := by
  have hkeeps : Registry.Keeps r ⟨core.objects, r.container, r.lastId⟩ := by
    refine ⟨rfl, rfl, ?_, fun p hp => ?_⟩
    · rw [← h.shows.objects]
      exact hcore.nextObject
    · rw [← h.shows.objects] at hp ⊢
      exact hcore.object p hp
  refine { h with
    shows := ⟨rfl, ?_, ?_, ?_, ?_⟩, houses := h.houses.keeps hkeeps
    raw := fun v hv => (h.raw v hv).keeps hkeeps, mem := ?_, stub := ?_, valid := ?_
    subscribed := ?_, running := ?_ }
  · rw [hcore.objectList, h.shows.workingCopy]
  · rw [hcore.objectList, h.shows.currentCopy]
  · rw [hcore.objectList]
    exact h.shows.made
  · rw [hcore.objectList, h.shows.lastId]
  · rw [hcore.manager]
    exact h.mem
  · rw [hcore.manager]
    exact h.stub
  · rw [hcore.manager]
    exact h.valid
  · rw [hcore.manager]
    exact h.subscribed
  · rw [hcore.manager]
    exact h.running

omit running in
theorem later_of_updated {api : LiteAPI} {action : ActionPtr} {tasks : MobilityManagerTasks}
    {moving : List String} {s s' : Core (Traffic π)} {r' : Registry} (hs : Registry.Shows r s)
    (hu : Updated this action api radio vs r s tasks pending gone moving r' s') : Later s s' := by
  refine ⟨?_, fun p hp => ?_, Nat.le_of_add_right_le hu.next, fun q hq => ?_, ?_, hu.datum⟩
  · rw [hs.objects, hu.shows.objects]
    exact hu.made.keeps.next
  · rw [hs.objects] at hp ⊢
    rw [hu.shows.objects]
    exact Registry.lasting_of_profile (hu.made.keeps.profile p hp)
  · rw [hu.kept q hq]
    exact ⟨rfl, rfl, rfl⟩
  · rw [hu.data]
    exact Nat.le_succ _

/-! ## Histories -/

/-- What the manager needs is there in every state. -/
theorem Tracks.ready {S₀ : Rounds π} (h₀ : S₀.Init this radio rid running)
    (h : S.Tracks radio rid S₀.core.registry running r vs pending gone) {action : ActionPtr}
    (haction : action < S.core.actions.next) (hstart : 0 ≤ (S.core.actions.cell action).mStartTime)
    (hduration : 0 ≤ (S.core.actions.cell action).mDuration) : Ready this action r S.core := by
  refine ⟨h.shows, ?_, ?_, haction, hstart, hduration⟩
  · rw [h.shows.objects]
    exact h₀.this_lt.trans_le h.houses.next
  · rw [h.shows.objects, (h.houses.old this h₀.this_lt).1]
    exact h₀.valid

theorem Step.later {S₀ : Rounds π} (h₀ : S₀.Init this radio rid running)
    (h : S.Tracks radio rid S₀.core.registry running r vs pending gone)
    (hstep : Step this Allowed S S') : Later S.core S'.core := by
  cases hstep with
  | update hfuture haction hstart hduration hapi _ hok =>
    obtain ⟨rfl, rfl⟩ := h.idle hfuture
    obtain ⟨pending, gone, moving, r', hu⟩ := h.updated h₀.radio.base h₀.vacant
      (h.ready h₀ haction hstart hduration) hapi hok
    exact later_of_updated h.shows hu
  | finish hfuture hok =>
    obtain ⟨-, -, -, -, -, -, -, hlater, -⟩ := h.finish h₀.radio.base hfuture hok
    exact hlater
  | other hcore => exact hcore.later

theorem Step.tracks {S₀ : Rounds π} (h₀ : S₀.Init this radio rid running)
    (h : S.Tracks radio rid S₀.core.registry running r vs pending gone)
    (hstep : Step this Allowed S S') :
    ∃ r' vs' pending' gone', S'.Tracks radio rid S₀.core.registry running r' vs' pending' gone' := by
  cases hstep with
  | update hfuture haction hstart hduration hapi _ hok =>
    obtain ⟨rfl, rfl⟩ := h.idle hfuture
    have hready := h.ready h₀ haction hstart hduration
    obtain ⟨pending, gone, moving, r', hu⟩ :=
      h.updated h₀.radio.base h₀.vacant hready hapi hok
    exact ⟨r', vs, pending, gone, h.update h₀.radio.base h₀.vacant hready hapi hok hu⟩
  | finish hfuture hok =>
    obtain ⟨r', -, vs', htracks, -⟩ := h.finish h₀.radio.base hfuture hok
    exact ⟨r', vs', [], [], htracks⟩
  | other hcore => exact ⟨_, vs, pending, gone, h.other hcore⟩

theorem tracks_of_reachable {S₀ : Rounds π} (h₀ : S₀.Init this radio rid running)
    (hS : Reachable (· = S₀) (Step this Allowed) S) :
    ∃ r vs pending gone, S.Tracks radio rid S₀.core.registry running r vs pending gone := by
  refine hS.invariant (I := fun S => ∃ r vs pending gone,
    S.Tracks radio rid S₀.core.registry running r vs pending gone) ?_ ?_
  · rintro _ rfl
    exact ⟨_, _, _, _, h₀.tracks⟩
  · rintro S S' - ⟨r, vs, pending, gone, h⟩ hstep
    exact hstep.tracks h₀ h

theorem later_of_steps {S₀ : Rounds π} (h₀ : S₀.Init this radio rid running)
    (hS : Reachable (· = S₀) (Step this Allowed) S)
    (hsteps : Relation.ReflTransGen (Step this Allowed) S S') : Later S.core S'.core := by
  induction hsteps with
  | refl => exact .refl _
  | tail hsteps hstep ih =>
    obtain ⟨r, vs, pending, gone, h⟩ := tracks_of_reachable h₀ (hS.trans hsteps)
    exact ih.trans (hstep.later h₀ h)

/-- After every history, a step of the manager returns exactly if every vehicle that has arrived departed
in an earlier step and did not arrive in one, and, in the first step, all that have been running from
the beginning depart. -/
theorem doVehicleUpdate_returns_iff {S₀ S : Rounds π} {api : LiteAPI} {action : ActionPtr}
    (h₀ : S₀.Init this radio rid running)
    (hS : Reachable (· = S₀) (Step this Allowed) S) (hfuture : S.future = none)
    (haction : action < S.core.actions.next) (hstart : 0 ≤ (S.core.actions.cell action).mStartTime)
    (hduration : 0 ≤ (S.core.actions.cell action).mDuration)
    (hapi : api.WellFormed ((S.core.actions.cell action).mStartTime.tdiv 1000000)) :
    (∃ tasks core, doVehicleUpdate this api action S.core.mObjectList.currentCopy S.core =
      .ok tasks core) ↔
      (∀ k ∈ api.arrivedVehicles, Departed S.past k ∧ ¬Arrived S.past k) ∧
        (S.past = [] → ∀ k ∈ running, k ∈ api.departedVehicles) := by
  obtain ⟨r, vs, pending, gone, h⟩ := tracks_of_reachable h₀ hS
  obtain ⟨rfl, rfl⟩ := h.idle hfuture
  have hready := h.ready h₀ haction hstart hduration
  constructor
  · rintro ⟨tasks, core, hok⟩
    exact h.of_doVehicleUpdate h₀.radio.base h₀.vacant hready hapi hok
  · rintro ⟨harrived, hrunning⟩
    obtain ⟨tasks, core, -, -, -, -, hok, -⟩ :=
      h.doVehicleUpdate_ok h₀.radio.base h₀.vacant hready hapi harrived hrunning
    exact ⟨tasks, core, hok⟩

/-! ### The first step -/

/-- Add a unique object without relations. -/
def addStarter (name : String) : CoreM (Traffic Unit) Unit := do
  let obj ← makeObject name none
  let id ← Core.getNextObjectId
  onObject obj (BaseObject.setObjectId id)
  onObject obj (BaseObject.addParent .root)
  Core.addUniqueObject obj

/-- The objects with which a simulation starts, and the first action of the manager. -/
def startTraffic : CoreM (Traffic Unit) Unit := do
  addStarter "MobilityManager"
  addStarter "Radio"
  discard <| createSelfAction 0 (Duration.milliseconds 50) (Duration.milliseconds 100)

def trafficCore : Core (Traffic Unit) := (startTraffic (.new { data := .empty .other })).state

/-- A simulation in which the vehicles `running` are on the road already. -/
def started (running : List String) : Rounds Unit :=
  { core := trafficCore.writeManager { mUpdater := (SumoUpdater.initSubscriptions running {}).state } }

theorem trafficCore_active {i : ObjectId} {p : ObjectPtr}
    (hp : trafficCore.mObjectList.currentCopy.mActiveObjects[i]? = some p) :
    (i = 2 ∧ p = 0) ∨ (i = 3 ∧ p = 1) := by
  have hactive : trafficCore.mObjectList.currentCopy.mActiveObjects =
      ((∅ : TreeMap ObjectId ObjectPtr).insert 2 0).insert 3 1 := rfl
  rw [hactive, TreeMap.getElem?_insert, TreeMap.getElem?_insert] at hp
  split_ifs at hp with h3 h2
  · exact .inr ⟨(Std.compare_eq_iff_eq.1 h3).symm, (Option.some.inj hp).symm⟩
  · exact .inl ⟨(Std.compare_eq_iff_eq.1 h2).symm, (Option.some.inj hp).symm⟩
  · rw [TreeMap.getElem?_emptyc] at hp
    cases hp

theorem hasRadio_trafficCore : HasRadio 1 3 trafficCore := by
  have hremoved : trafficCore.mObjectList.currentCopy.mRemovedObjects.isEmpty = true := by
    decide +kernel
  refine ⟨rfl, by decide, ⟨⟨by decide +kernel, fun i hi => ?_⟩, by decide +kernel, by decide +kernel,
    fun i p hp => ?_, fun i hi => absurd hi (TreeSet.not_mem_of_isEmpty hremoved)⟩, by decide⟩
  · obtain ⟨p, hp⟩ := Option.isSome_iff_exists.1 (TreeMap.mem_iff_isSome_getElem?.1 hi)
    obtain ⟨rfl, -⟩ | ⟨rfl, -⟩ := trafficCore_active hp <;> decide +kernel
  · obtain ⟨rfl, rfl⟩ | ⟨rfl, rfl⟩ := trafficCore_active hp <;> decide +kernel

theorem init_started (running : List String) : (started running).Init 0 1 3 running where
  radio := { hasRadio_trafficCore with }
  vacant i p h := by
    obtain ⟨rfl, rfl⟩ | ⟨rfl, rfl⟩ := trafficCore_active h.1
    · exact absurd h.2 (by decide +kernel :
        ¬(trafficCore.objects.cell 0).mObjectName = "VehicleObject")
    · exact absurd h.2 (by decide +kernel :
        ¬(trafficCore.objects.cell 1).mObjectName = "VehicleObject")
  this_lt := (by decide +kernel : 0 < trafficCore.objects.next)
  valid := (by decide +kernel : (trafficCore.objects.cell 0).mObjectId.valid = true)
  ids := rfl
  updater := by
    obtain ⟨u, hok, -⟩ := SumoUpdater.forM_subscribeVehicle running {}
    show SumoUpdater.initSubscriptions running {} =
      .ok () (SumoUpdater.initSubscriptions running {}).state
    rw [show SumoUpdater.initSubscriptions running {} = _ from hok]
    rfl
  future := rfl
  past := rfl

/-- What SUMO reports of vehicles that have departed and arrived, at `time`. -/
def report (departed arrived : List String) (time : Int) : LiteAPI where
  departed := some departed
  arrived := some arrived
  time := some time
  vehicle _ := [(.speed, .double 0), (.position, .position 0 0 0), (.angle, .double 0)]
  convertGeo _ := {}
  minExpectedNumber := 1
  enumerate := id
  enumerate_perm _ := .refl _
  indeterminate := 0

theorem wellFormed_report (departed arrived : List String) (time : Int) :
    (report departed arrived time).WellFormed time := by
  refine ⟨rfl, fun k => ?_⟩
  show ∀ x ∈ [_, _, _], TraCIResult.Typed x
  simp only [List.forall_mem_cons]
  exact ⟨.speed _, .position _ _ _, .angle _, nofun⟩

/-- Only vehicles arrive that have been running or have departed, if only in this step. -/
def ArrivesKnown (running : List String) (past : List Report) (api : LiteAPI) : Prop :=
  ∀ k ∈ api.arrivedVehicles, k ∈ running ∨ Departed (api.report :: past) k

theorem not_returns_of_isNone {running : List String} {api : LiteAPI}
    (h : (doVehicleUpdate 0 api 0 (started running).core.mObjectList.currentCopy
      (started running).core).value?.isNone = true) (tasks : MobilityManagerTasks)
    (core : Core (Traffic Unit)) :
    doVehicleUpdate 0 api 0 (started running).core.mObjectList.currentCopy (started running).core ≠
      .ok tasks core := by
  intro hok
  rw [hok] at h
  cases h

/-- A vehicle that is on the road from the beginning is not in the map of ids, and the one that is put
there when a vehicle departs is not the id of an object if the vehicle arrives in the same step. -/
theorem doVehicleUpdate_throws :
    ((started ["a"]).Init 0 1 3 ["a"] ∧ ArrivesKnown ["a"] [] (report [] [] 100) ∧ ∀ tasks core,
      doVehicleUpdate 0 (report [] [] 100) 0 (started ["a"]).core.mObjectList.currentCopy
        (started ["a"]).core ≠ .ok tasks core) ∧
    (started []).Init 0 1 3 [] ∧ ArrivesKnown [] [] (report ["a"] ["a"] 100) ∧ ∀ tasks core,
      doVehicleUpdate 0 (report ["a"] ["a"] 100) 0 (started []).core.mObjectList.currentCopy
        (started []).core ≠ .ok tasks core := by
  refine ⟨⟨init_started _, nofun, not_returns_of_isNone (by decide +kernel)⟩, init_started _, ?_,
    not_returns_of_isNone (by decide +kernel)⟩
  exact fun k hk => .inr (departed_cons.2 (.inl hk))

theorem doVehicleUpdate_returns_iff_started :
    (∃ tasks core, doVehicleUpdate 0 (report ["a"] [] 100) 0
      (started []).core.mObjectList.currentCopy (started []).core = .ok tasks core) ↔
      (∀ k ∈ (report ["a"] [] 100).arrivedVehicles,
        Departed (started []).past k ∧ ¬Arrived (started []).past k) ∧
        ((started []).past = [] → ∀ k ∈ [], k ∈ (report ["a"] [] 100).departedVehicles) :=
  have hS : Reachable (· = started []) (Step 0 fun _ _ => True) (started []) := .init rfl
  doVehicleUpdate_returns_iff (init_started []) hS rfl (by decide +kernel) (by decide +kernel)
    (by decide +kernel) (wellFormed_report _ _ _)

end Rounds

end Cosidia
