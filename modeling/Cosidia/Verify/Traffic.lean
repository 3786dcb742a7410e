import Cosidia.Mobility.MobilityManager
import Cosidia.Verify.Pending

/-!
# What the mobility manager does in a step

Each part of `doVehicleUpdate` is described by what it leaves behind, and by when it does not throw.
-/

namespace Cosidia

open EStateM Std

/-! ## The updater -/

/-- SUMO reports variables that have been subscribed to, with values of their types. -/
inductive TraCIResult.Typed : TraCIVariable × TraCIResult → Prop
  | speed (value : Float) : Typed (.speed, .double value)
  | position (x y z : Float) : Typed (.position, .position x y z)
  | angle (value : Float) : Typed (.angle, .double value)

/-- What SUMO reports after a step that ends at `time`. -/
structure LiteAPI.WellFormed (api : LiteAPI) (time : Int) : Prop where
  time : api.time = some time
  typed : ∀ k, ∀ x ∈ api.vehicle k, TraCIResult.Typed x

namespace LiteAPI

def departedVehicles (api : LiteAPI) : List String := api.departed.getD []

def arrivedVehicles (api : LiteAPI) : List String := api.arrived.getD []

end LiteAPI

namespace SumoUpdater

variable {api : LiteAPI} {u : SumoUpdater} {t : Int}

theorem getVehicleUpdate_ok (vars : TraCIResults) (hvars : ∀ x ∈ vars, TraCIResult.Typed x)
    (update : VehicleUpdate) : ∃ update', getVehicleUpdate api vars update = .ok update' ∧
      update'.mVehicle = update.mVehicle ∧ update'.mObjectId = update.mObjectId := by
  simp only [getVehicleUpdate]
  induction vars generalizing update with
  | nil => exact ⟨update, rfl, rfl, rfl⟩
  | cons x vars ih =>
    obtain ⟨update', hx, hvehicle, hid⟩ : ∃ update', setVariable api update x = .ok update' ∧
        update'.mVehicle = update.mVehicle ∧ update'.mObjectId = update.mObjectId := by
      cases hvars x (List.mem_cons_self ..) with
      | speed value => exact ⟨_, rfl, rfl, rfl⟩
      | position x y z => exact ⟨_, rfl, rfl, rfl⟩
      | angle value => exact ⟨_, rfl, rfl, rfl⟩
    obtain ⟨update'', hok, hvehicle', hid'⟩ :=
      ih (fun y hy => hvars y (List.mem_cons_of_mem _ hy)) update'
    refine ⟨update'', ?_, hvehicle'.trans hvehicle, hid'.trans hid⟩
    rw [List.foldlM_cons, hx]
    exact hok

theorem updateOf_ok (hapi : ∀ k, ∀ x ∈ api.vehicle k, TraCIResult.Typed x) (k : String) :
    ∃ update, updateOf api k = .ok update ∧ update.mObjectId = .stub := by
  obtain ⟨update, hok, -, hid⟩ := getVehicleUpdate_ok (api.vehicle k) (hapi k) _
  exact ⟨update, hok, hid⟩

/-- The table of the updates of `l`. -/
theorem collect_ok (hapi : ∀ k, ∀ x ∈ api.vehicle k, TraCIResult.Typed x) (l : List String)
    (d : VehicleUpdateActionData) : ∃ d', collect api d l = .ok d' ∧
      ∀ k, (k ∈ l → ∃ update, updateOf api k = .ok update ∧ d'.mUpdates[k]? = some update) ∧
        (k ∉ l → d'.mUpdates[k]? = d.mUpdates[k]?) := by
  induction l generalizing d with
  | nil => exact ⟨d, rfl, fun k => ⟨nofun, fun _ => rfl⟩⟩
  | cons v l ih =>
    obtain ⟨update, hupdate, -⟩ := updateOf_ok hapi v
    obtain ⟨d', hok, hd'⟩ := ih (d.addData v update)
    refine ⟨d', ?_, fun k => ⟨fun hk => ?_, fun hk => ?_⟩⟩
    · rw [collect, hupdate]
      exact hok
    · by_cases hl : k ∈ l
      · exact (hd' k).1 hl
      · obtain rfl := (List.mem_cons.1 hk).resolve_right hl
        refine ⟨update, hupdate, ((hd' k).2 hl).trans ?_⟩
        exact TreeMap.getElem?_insert_self
    · rw [List.mem_cons, not_or] at hk
      refine ((hd' k).2 hk.2).trans (TreeMap.getElem?_insert.trans (if_neg ?_))
      exact fun heq => hk.1 (Std.compare_eq_iff_eq.1 heq).symm

theorem forM_subscribeVehicle (l : List String) (u : SumoUpdater) :
    ∃ u', l.forM subscribeVehicle u = .ok () u' ∧
      ∀ k, k ∈ u'.mSubscribedVehicles ↔ k ∈ l ∨ k ∈ u.mSubscribedVehicles := by
  induction l generalizing u with
  | nil => exact ⟨u, rfl, fun k => by simp⟩
  | cons v l ih =>
    obtain ⟨u', hok, hmem⟩ := ih { u with mSubscribedVehicles := u.mSubscribedVehicles.insert v }
    refine ⟨u', bind_eq_ok.2 ⟨(), _, rfl, hok⟩, fun k => ?_⟩
    rw [hmem, TreeSet.mem_insert, Std.compare_eq_iff_eq, List.mem_cons, or_assoc, or_left_comm,
      eq_comm]

theorem forM_erase (l : List String) (u : SumoUpdater) :
    ∃ u', (l.forM fun name => modify fun u : SumoUpdater =>
        { u with mSubscribedVehicles := u.mSubscribedVehicles.erase name } :
          EStateM Failure SumoUpdater PUnit) u = .ok ⟨⟩ u' ∧
      ∀ k, k ∈ u'.mSubscribedVehicles ↔ k ∉ l ∧ k ∈ u.mSubscribedVehicles := by
  induction l generalizing u with
  | nil => exact ⟨u, rfl, fun k => by simp⟩
  | cons v l ih =>
    obtain ⟨u', hok, hmem⟩ := ih { u with mSubscribedVehicles := u.mSubscribedVehicles.erase v }
    refine ⟨u', bind_eq_ok.2 ⟨⟨⟩, _, rfl, hok⟩, fun k => ?_⟩
    rw [hmem, TreeSet.mem_erase, ne_eq, Std.compare_eq_iff_eq, List.mem_cons, not_or, and_assoc,
      and_left_comm, eq_comm]

/-- What a step of the updater makes of the set of subscribed vehicles, and what it returns. -/
structure Stepped (api : LiteAPI) (u u' : SumoUpdater) (res : Results) : Prop where
  subscribed : ∀ k, k ∈ u'.mSubscribedVehicles ↔
    (k ∈ api.departedVehicles ∨ k ∈ u.mSubscribedVehicles) ∧ k ∉ api.arrivedVehicles
  departed : res.departedVehicles = api.departedVehicles
  arrived : res.arrivedVehicles = api.arrivedVehicles
  nodup : res.updateVehicles.Nodup
  update : ∀ k, k ∈ res.updateVehicles ↔ k ∈ u'.mSubscribedVehicles
  data : ∀ k, (k ∈ res.updateVehicles →
      ∃ update, updateOf api k = .ok update ∧ res.updateData.mUpdates[k]? = some update) ∧
    (k ∉ res.updateVehicles → res.updateData.mUpdates[k]? = none)

theorem nodup_toList (s : TreeSet String) : s.toList.Nodup :=
  TreeSet.ordered_toList.imp fun h heq => by rw [heq, Std.compare_self] at h; cases h

theorem step_ok (hapi : api.WellFormed t) (u : SumoUpdater) :
    ∃ res u', step api t u = .ok res u' ∧ Stepped api u u' res := by
  obtain ⟨u₁, hok₁, hmem₁⟩ := forM_subscribeVehicle api.departedVehicles u
  obtain ⟨u₂, hok₂, hmem₂⟩ := forM_erase api.arrivedVehicles u₁
  have hperm := api.enumerate_perm u₂.mSubscribedVehicles.toList
  obtain ⟨d, hd, hdata⟩ := collect_ok hapi.typed
    (api.enumerate u₂.mSubscribedVehicles.toList) {}
  refine ⟨⟨api.departedVehicles, api.arrivedVehicles,
    api.enumerate u₂.mSubscribedVehicles.toList, d⟩, u₂, ?_, fun k => ?_, rfl, rfl, ?_, fun k => ?_,
    fun k => ?_⟩
  · refine bind_eq_ok.2 ⟨(), u₁, hok₁, ?_⟩
    rw [hapi.time]
    dsimp only
    rw [if_neg (not_not.2 rfl)]
    refine bind_eq_ok.2 ⟨⟨⟩, u₂, hok₂, ?_⟩
    refine bind_eq_ok.2 ⟨u₂, u₂, rfl, bind_eq_ok.2 ⟨d, u₂, ?_, rfl⟩⟩
    rw [hd]
    rfl
  · rw [hmem₂, hmem₁, and_comm]
  · exact hperm.nodup_iff.2 (nodup_toList _)
  · rw [hperm.mem_iff, TreeSet.mem_toList]
  · refine ⟨(hdata k).1, fun hk => ((hdata k).2 hk).trans ?_⟩
    exact TreeMap.getElem?_emptyc

end SumoUpdater

/-! ## The ids of vehicles -/

namespace MobilityManager

/-- `fetchVehicleIds` for the map alone. -/
def fetch (objects : Heap BaseObject) (c : ObjectContainer) (m : TreeMap String ObjectId) :
    TreeMap String ObjectId :=
  .ofList (m.toList.map fun e => (e.1, fetchVehicleId objects c.getAll e.1 e.2))

theorem fetch_getElem? (objects : Heap BaseObject) (c : ObjectContainer)
    (m : TreeMap String ObjectId) (k : String) :
    (fetch objects c m)[k]? = m[k]?.map (fetchVehicleId objects c.getAll k) := by
  simp only [fetch]
  cases hk : m[k]? with
  | none =>
    refine TreeMap.getElem?_ofList_of_contains_eq_false ?_
    rw [← Bool.not_eq_true, List.contains_iff_mem, List.map_map]
    intro hmem
    obtain ⟨e, he, rfl⟩ := List.mem_map.1 hmem
    rw [show m[((Prod.fst ∘ fun e : String × ObjectId =>
      (e.1, fetchVehicleId objects c.getAll e.1 e.2)) e)]? = some e.2 from
        TreeMap.mem_toList_iff_getElem?_eq_some.1 he] at hk
    cases hk
  | some id =>
    refine TreeMap.getElem?_ofList_of_mem Std.compare_self ?_ ?_
    · rw [List.pairwise_map]
      exact TreeMap.distinct_keys_toList
    · exact List.mem_map.2 ⟨(k, id), TreeMap.mem_toList_iff_getElem?_eq_some.2 hk, rfl⟩

/-- The object is a vehicle object with the external id `key`. -/
def IsVehicle (objects : Heap BaseObject) (key : String) (p : ObjectPtr) : Prop :=
  (objects.cell p).mObjectName = "VehicleObject" ∧ (objects.cell p).mExternalId = some key

theorem fetchVehicleId_of_valid {objects : Heap BaseObject} {data : List (ObjectId × ObjectPtr)}
    {key : String} {id : ObjectId} (h : id.valid = true) :
    fetchVehicleId objects data key id = id := by
  simp only [fetchVehicleId]
  rw [if_pos h]

/-- An entry without an id gets that of a vehicle object with its key, if there is one. -/
theorem fetchVehicleId_spec (objects : Heap BaseObject) (data : List (ObjectId × ObjectPtr))
    (key : String) {id : ObjectId} (h : id.valid = false) :
    (∃ e ∈ data, IsVehicle objects key e.2 ∧
      fetchVehicleId objects data key id = (objects.cell e.2).mObjectId) ∨
      ((∀ e ∈ data, ¬IsVehicle objects key e.2) ∧ fetchVehicleId objects data key id = id) := by
  have hfold : ∀ id' : ObjectId, (∃ e ∈ data, IsVehicle objects key e.2 ∧
      data.foldl (fun id obj =>
        let o := objects.cell obj.2
        if o.mObjectName = "VehicleObject" ∧ o.mExternalId = some key then o.mObjectId else id) id' =
          (objects.cell e.2).mObjectId) ∨
      ((∀ e ∈ data, ¬IsVehicle objects key e.2) ∧ data.foldl (fun id obj =>
        let o := objects.cell obj.2
        if o.mObjectName = "VehicleObject" ∧ o.mExternalId = some key then o.mObjectId else id) id' =
          id') := by
    clear h
    induction data with
    | nil => exact fun id' => .inr ⟨List.forall_mem_nil _, rfl⟩
    | cons e data ih =>
      intro id'
      rw [List.foldl_cons]
      dsimp only
      split_ifs with he
      · rcases ih (objects.cell e.2).mObjectId with ⟨e', he', hv, heq⟩ | ⟨-, heq⟩
        · exact .inl ⟨e', List.mem_cons_of_mem _ he', hv, heq⟩
        · exact .inl ⟨e, List.mem_cons_self .., he, heq⟩
      · rcases ih id' with ⟨e', he', hv, heq⟩ | ⟨hnone, heq⟩
        · exact .inl ⟨e', List.mem_cons_of_mem _ he', hv, heq⟩
        · exact .inr ⟨List.forall_mem_cons.2 ⟨he, hnone⟩, heq⟩
  simp only [fetchVehicleId]
  rw [if_neg (by rw [h]; exact Bool.false_ne_true)]
  exact hfold id

end MobilityManager

/-! ## Departed vehicles -/

section
variable {π : Type}

def Core.writeManager (m : SumoMobilityManager) (s : Core (Traffic π)) : Core (Traffic π) :=
  { s with world := { s.world with manager := m } }

namespace SumoMobilityManager

open Registry

/-- The vehicles `l` are noted in the map of ids. -/
def depart (l : List String) (m : SumoMobilityManager) : SumoMobilityManager :=
  { m with mIdMapper := l.foldl (fun m k => m.insertIfNew k .stub) m.mIdMapper }

theorem depart_getElem? (l : List String) (m : SumoMobilityManager) (k : String) :
    (m.depart l).mIdMapper[k]? = m.mIdMapper[k]?.or (if k ∈ l then some .stub else none) := by
  simp only [depart]
  induction l generalizing m with
  | nil => exact (Option.or_none).symm
  | cons v l ih =>
    apply (ih { m with mIdMapper := m.mIdMapper.insertIfNew v .stub }).trans
    simp only [TreeMap.getElem?_insertIfNew, Std.compare_eq_iff_eq, List.mem_cons,
      TreeMap.mem_iff_isSome_getElem?]
    by_cases hv : v = k
    · subst hv
      cases m.mIdMapper[v]? <;> simp
    · simp [hv, Ne.symm hv]

variable {r : Registry} {s : Core (Traffic π)} {radio : ObjectPtr}

theorem addVehicle_ok (h : Shows r s) (hunique : r.container.getUnique "Radio" = .ok radio)
    (k : String) : ∃ s', addVehicle r.container k s = .ok (ObjectFactory.vehicleObjects radio
        (r.objects.next + 1) (r.objects.next + 2) r.objects.next) s' ∧
      Shows (r.makeVehicle k) s' ∧ SameActions (s.writeManager (s.world.manager.depart [k])) s' := by
  have hdata : AnyMap.getString ((∅ : AnyMap).insert "id" (.string k)) "id" = .ok k := by
    simp only [AnyMap.getString]
    rw [TreeMap.getElem?_insert_self]
  have h₁ : Shows r (s.writeManager (s.world.manager.depart [k])) :=
    ⟨h.objects, h.workingCopy, h.currentCopy, h.made, h.lastId⟩
  obtain ⟨s', hok, hs', hsame⟩ := createObject_ok h₁ hdata hunique
  exact ⟨s', bind_eq_ok.2 ⟨⟨⟩, _, rfl, hok⟩, hs', hsame⟩

theorem addVehicles_ok (l : List String) (h : Shows r s)
    (hunique : r.container.getUnique "Radio" = .ok radio) : ∃ pending r' s',
      l.mapM (addVehicle r.container) s = .ok (pending.map fun v =>
        ObjectFactory.vehicleObjects radio (v.2 + 1) (v.2 + 2) v.2) s' ∧
      pending.map (·.1) = l ∧ Made pending r r' ∧ Shows r' s' ∧
      SameActions (s.writeManager (s.world.manager.depart l)) s' := by
  induction l generalizing r s with
  | nil => exact ⟨[], r, s, rfl, rfl, .refl r, h, .refl s⟩
  | cons k l ih =>
    obtain ⟨s₁, hok₁, h₁, hsame₁⟩ := addVehicle_ok h hunique k
    obtain ⟨pending, r', s', hok, rfl, hmade, h', hsame⟩ := ih h₁ hunique
    refine ⟨(k, r.objects.next) :: pending, r', s', ?_, rfl, hmade.cons rfl, h', ?_⟩
    · rw [List.mapM_cons]
      exact bind_eq_ok.2 ⟨_, s₁, hok₁, bind_eq_ok.2 ⟨_, s', hok, rfl⟩⟩
    · refine ⟨hsame.now.trans hsame₁.now, ?_, hsame.actions.trans hsame₁.actions,
        hsame.mActions.trans hsame₁.mActions⟩
      rw [hsame.world]
      simp only [Core.writeManager]
      rw [hsame₁.world]
      rfl

/-! ## Arrived vehicles -/

theorem mIdMapperAt_eq_ok {m : TreeMap String ObjectId} {k : String} {id : ObjectId} :
    mIdMapperAt m k = .ok id ↔ m[k]? = some id := by
  simp only [mIdMapperAt]
  cases m[k]? <;> simp

theorem removeVehicle_eq_ok {c : ObjectContainer} {k : String} {ids : List ObjectId}
    {s' : Core (Traffic π)} : removeVehicle c k s = .ok ids s' ↔
      ∃ id, s.world.manager.mIdMapper[k]? = some id ∧
        ObjectRemover.getObjectsToDelete "vehicle" id c s = .ok ids s' := by
  have hget : (onManager get : CoreM (Traffic π) _) s = .ok s.world.manager s := rfl
  simp only [removeVehicle]
  rw [bind_apply, hget]
  dsimp only
  rw [bind_eq_ok]
  constructor
  · rintro ⟨id, s₁, hat, hdelete⟩
    obtain ⟨hid, rfl⟩ := ofExcept_eq_ok.1 hat
    exact ⟨id, mIdMapperAt_eq_ok.1 hid, hdelete⟩
  · rintro ⟨id, hid, hdelete⟩
    exact ⟨id, s, ofExcept_eq_ok.2 ⟨mIdMapperAt_eq_ok.2 hid, rfl⟩, hdelete⟩

/-- Objects can be removed with a vehicle only if its id is that of an active vehicle object. -/
theorem named_of_removeVehicle (h : Shows r s) {k : String} {ids : List ObjectId}
    {s' : Core (Traffic π)} (hok : removeVehicle r.container k s = .ok ids s') :
    s' = s ∧ ∃ id p, s.world.manager.mIdMapper[k]? = some id ∧ r.Named "VehicleObject" id p := by
  obtain ⟨id, hid, hdelete⟩ := removeVehicle_eq_ok.1 hok
  obtain ⟨hs, p, -, -, -, -, hnamed, -⟩ := (returns_getObjectsToDelete h id).ok hdelete
  exact ⟨hs, id, p, hid, hnamed⟩

/-! ## Vehicles that move -/

/-- The action by which a vehicle object with the id `id` is updated, `d` being the table of updates
and `a` the action of the manager `generator`. -/
def updateAction (a : Action) (generator : ObjectId) (d : DataPtr) (id : ObjectId) : Action where
  kind := .durationAction
  mDuration := Duration.milliseconds 1
  mStartTime := a.mStartTime + a.mDuration + Duration.milliseconds 1
  mAffectedObject := id
  mGeneratingObject := generator
  mType := "SUMO"
  mActionData := some d

/-- The vehicles of `l` that have ids, with these. -/
def resolved (m : TreeMap String ObjectId) (l : List String) : List (String × ObjectId) :=
  l.filterMap fun k => (m[k]?.filter (·.valid)).map (k, ·)

/-- The id of a vehicle is put into the table `d`. -/
def patch (d : DataPtr) (e : String × ObjectId) (data : Heap (ActionData π)) : Heap (ActionData π) :=
  match data.cell d with
  | .vehicleUpdate u => data.write d (.vehicleUpdate
      (u.setUpdateForVehicle e.1 fun u => { u with mObjectId := e.2 }))
  | _ => data

/-- The vehicle is to be updated by the action `f` makes. -/
def issue (d : DataPtr) (f : ObjectId → Action) (s : Core (Traffic π)) (e : String × ObjectId) :
    Core (Traffic π) :=
  { s with actions := s.actions.alloc (f e.2)
           world := { s.world with data := patch d e s.world.data } }

section
variable {this : ObjectPtr} {action : ActionPtr} {d : DataPtr} {l : List String} {k : String}

theorem updateVehicles_none (hk : s.world.manager.mIdMapper[k]? = none) {acts : List ActionPtr}
    {s' : Core (Traffic π)} : updateVehicles this action d (k :: l) s ≠ .ok acts s' := by
  intro hok
  obtain ⟨m, s₁, hm, hrest⟩ := bind_eq_ok.1 hok
  obtain ⟨rfl, rfl⟩ : s.world.manager = m ∧ s = s₁ := by
    cases hm
    exact ⟨rfl, rfl⟩
  obtain ⟨id, s₂, hid, -⟩ := bind_eq_ok.1 hrest
  have hsome := mIdMapperAt_eq_ok.1 (ofExcept_eq_ok.1 hid).1
  rw [hk] at hsome
  cases hsome

variable {id : ObjectId} (hk : s.world.manager.mIdMapper[k]? = some id)
include hk

theorem updateVehicles_stub (hid : id.valid = false) :
    updateVehicles this action d (k :: l) s = updateVehicles this action d l s := by
  have hget : (onManager get : CoreM (Traffic π) _) s = .ok s.world.manager s := rfl
  have hat : (ofExcept (mIdMapperAt s.world.manager.mIdMapper k) : CoreM (Traffic π) _) s =
      .ok id s := ofExcept_eq_ok.2 ⟨mIdMapperAt_eq_ok.2 hk, rfl⟩
  rw [updateVehicles, bind_apply, hget]
  dsimp only
  rw [bind_apply, hat]
  dsimp only
  rw [if_neg (by rw [hid]; exact Bool.false_ne_true)]

theorem updateVehicles_valid (hid : id.valid = true) (hthis : this < s.objects.next)
    (haction : action < s.actions.next)
    (hstart : 0 ≤ (s.actions.cell action).mStartTime + (s.actions.cell action).mDuration +
      Duration.milliseconds 1) :
    updateVehicles this action d (k :: l) s =
      (do return s.actions.next :: (← updateVehicles this action d l))
        (issue d (updateAction (s.actions.cell action) (s.objects.cell this).mObjectId d) s
          (k, id)) := by
  have hget : (onManager get : CoreM (Traffic π) _) s = .ok s.world.manager s := rfl
  have hat : (ofExcept (mIdMapperAt s.world.manager.mIdMapper k) : CoreM (Traffic π) _) s =
      .ok id s := ofExcept_eq_ok.2 ⟨mIdMapperAt_eq_ok.2 hk, rfl⟩
  rw [updateVehicles, bind_apply, hget]
  dsimp only
  rw [bind_apply, hat]
  dsimp only
  rw [if_pos hid, bind_apply, modify_apply]
  set s₁ : Core (Traffic π) :=
    { s with world := { s.world with data := patch d (k, id) s.world.data } }
  show (getAction action >>= _) s₁ = _
  have haction₁ : action < s₁.actions.next := haction
  have hthis₁ : this < s₁.objects.next := hthis
  rw [bind_apply, getAction_of_lt haction₁]
  show (getObject this >>= _) s₁ = _
  rw [bind_apply, getObject_of_lt hthis₁]
  show (ActionFactory.create _ _ _ _ _ >>= _) s₁ = _
  rw [bind_apply, ActionFactory.create_apply hid hstart]
  dsimp only
  have hdata : ∀ a : Action, a.mActionData = none →
      Action.setActionData d a = .ok () { a with mActionData := some d } := by
    rintro ⟨kind, duration, start, affected, generating, type, data, id, machine⟩ rfl
    rfl
  have htype : ∀ a : Action, Action.setType "SUMO" a = .ok () { a with mType := "SUMO" } :=
    fun _ => rfl
  rw [bind_apply, onAction_newest (hdata _ rfl) s₁]
  dsimp only
  rw [bind_apply, onAction_newest (htype _) s₁]
  rfl

omit hk

variable {m : TreeMap String ObjectId} {a : Action} {generator : ObjectId}

theorem resolved_cons_stub {k : String} {l : List String} (h : ∀ id, m[k]? = some id → id.valid = false) :
    resolved m (k :: l) = resolved m l := by
  apply List.filterMap_cons_none
  cases hk : m[k]? with
  | none => rfl
  | some id => simp [h id hk]

theorem resolved_cons_valid {k : String} {l : List String} {id : ObjectId} (hk : m[k]? = some id)
    (hid : id.valid = true) : resolved m (k :: l) = (k, id) :: resolved m l := by
  apply List.filterMap_cons_some
  simp [hk, hid]

theorem mem_resolved {l : List String} {k : String} {id : ObjectId} :
    (k, id) ∈ resolved m l ↔ k ∈ l ∧ m[k]? = some id ∧ id.valid = true := by
  simp only [resolved]
  rw [List.mem_filterMap]
  constructor
  · rintro ⟨k', hk', heq⟩
    obtain ⟨id', hid', heq⟩ := Option.map_eq_some_iff.1 heq
    obtain ⟨rfl, rfl⟩ := Prod.mk.inj heq
    exact ⟨hk', (Option.filter_eq_some_iff.1 hid').1, (Option.filter_eq_some_iff.1 hid').2⟩
  · rintro ⟨hk', hm, hid⟩
    exact ⟨k, hk', by simp [hm, hid]⟩

theorem nodup_resolved {l : List String} (hl : l.Nodup) : ((resolved m l).map (·.1)).Nodup := by
  have hsub : ((resolved m l).map (·.1)).Sublist l := by
    induction l with
    | nil => exact .slnil
    | cons k l ih =>
      have ih := ih hl.of_cons
      by_cases hk : ∃ id, m[k]? = some id ∧ id.valid = true
      · obtain ⟨id, hk, hid⟩ := hk
        rw [resolved_cons_valid hk hid]
        exact ih.cons_cons k
      · rw [resolved_cons_stub fun id hid => Bool.eq_false_iff.2 fun hv => hk ⟨id, hid, hv⟩]
        exact ih.cons k
  exact hsub.nodup hl

/-- The loop over the vehicles that move, if all of them are in the map. -/
theorem updateVehicles_ok (l : List String) (hl : ∀ k ∈ l, k ∈ m)
    (hm : s.world.manager.mIdMapper = m) (ha : s.actions.cell action = a)
    (hgenerator : (s.objects.cell this).mObjectId = generator)
    (hthis : this < s.objects.next) (haction : action < s.actions.next)
    (hstart : 0 ≤ a.mStartTime + a.mDuration + Duration.milliseconds 1) :
    updateVehicles this action d l s =
      .ok (List.range' s.actions.next (resolved m l).length)
        ((resolved m l).foldl (issue d (updateAction a generator d)) s) := by
  induction l generalizing s with
  | nil => rfl
  | cons k l ih =>
    obtain ⟨hk, hl⟩ := List.forall_mem_cons.1 hl
    obtain ⟨id, hk⟩ := Option.isSome_iff_exists.1 (TreeMap.mem_iff_isSome_getElem?.1 hk)
    have hk' : s.world.manager.mIdMapper[k]? = some id := by rw [hm, hk]
    cases hid : id.valid with
    | false =>
      rw [updateVehicles_stub hk' hid, resolved_cons_stub fun id' hid' => ?_]
      · exact ih hl hm ha hgenerator hthis haction
      · rw [hk] at hid'
        rwa [← Option.some.inj hid']
    | true =>
      rw [updateVehicles_valid hk' hid hthis haction (by rwa [ha]), ha, hgenerator,
        resolved_cons_valid hk hid, bind_apply]
      rw [ih (s := issue d (updateAction a generator d) s (k, id)) hl hm
        ((Heap.alloc_cell_of_lt haction).trans ha) hgenerator hthis (Nat.lt_succ_of_lt haction)]
      rfl

theorem mem_of_updateVehicles (l : List String) (hm : s.world.manager.mIdMapper = m)
    (hthis : this < s.objects.next) (haction : action < s.actions.next)
    (hstart : 0 ≤ (s.actions.cell action).mStartTime + (s.actions.cell action).mDuration +
      Duration.milliseconds 1) {acts : List ActionPtr} {s' : Core (Traffic π)}
    (hok : updateVehicles this action d l s = .ok acts s') : ∀ k ∈ l, k ∈ m := by
  induction l generalizing s acts s' with
  | nil => exact nofun
  | cons k l ih =>
    cases hk : s.world.manager.mIdMapper[k]? with
    | none => exact absurd hok (updateVehicles_none hk)
    | some id =>
      refine List.forall_mem_cons.2 ⟨?_, ?_⟩
      · rw [TreeMap.mem_iff_isSome_getElem?, ← hm, hk]
        rfl
      · cases hid : id.valid with
        | false =>
          rw [updateVehicles_stub hk hid] at hok
          exact ih hm hthis haction hstart hok
        | true =>
          rw [updateVehicles_valid hk hid hthis haction hstart] at hok
          obtain ⟨acts', s₁, hok, -⟩ := bind_eq_ok.1 hok
          refine ih (s := issue d _ s (k, id)) hm hthis (Nat.lt_succ_of_lt haction) ?_ hok
          rwa [show (issue d _ s (k, id)).actions.cell action = s.actions.cell action from
            Heap.alloc_cell_of_lt haction]

end

section
variable (d : DataPtr) (f : ObjectId → Action)

theorem foldl_issue_eq (l : List (String × ObjectId)) (s : Core (Traffic π)) :
    l.foldl (issue d f) s = { s with
      actions := (l.foldl (issue d f) s).actions
      world := { s.world with data := (l.foldl (issue d f) s).world.data } } := by
  induction l generalizing s with
  | nil => rfl
  | cons e l ih => exact ih (issue d f s e)

theorem foldl_issue_actions (l : List (String × ObjectId)) (s : Core (Traffic π)) :
    (l.foldl (issue d f) s).actions = s.actions.allocAll (l.map fun e => f e.2) := by
  induction l generalizing s with
  | nil => rfl
  | cons e l ih => exact ih (issue d f s e)

/-- The ids `l` are put into a table. -/
def patchAll (l : List (String × ObjectId)) (u : VehicleUpdateActionData) : VehicleUpdateActionData :=
  l.foldl (fun u e => u.setUpdateForVehicle e.1 fun v => { v with mObjectId := e.2 }) u

theorem foldl_issue_data (l : List (String × ObjectId)) (s : Core (Traffic π))
    {u : VehicleUpdateActionData} (hu : s.world.data.cell d = .vehicleUpdate u) :
    (l.foldl (issue d f) s).world.data = s.world.data.write d (.vehicleUpdate (patchAll l u)) := by
  induction l generalizing s u with
  | nil =>
    rw [show patchAll [] u = u from rfl, ← hu, Heap.write_cell_eq]
    rfl
  | cons e l ih =>
    have hdata : (issue d f s e).world.data = s.world.data.write d
        (.vehicleUpdate (u.setUpdateForVehicle e.1 fun v => { v with mObjectId := e.2 })) := by
      show patch d e s.world.data = _
      simp only [patch]
      rw [hu]
    apply (ih (issue d f s e) (by rw [hdata, Heap.write_cell_self])).trans
    rw [hdata]
    simp only [Heap.write]
    rw [Function.update_idem]
    rfl

end

theorem patchAll_getElem? (l : List (String × ObjectId)) (hl : (l.map (·.1)).Nodup)
    (u : VehicleUpdateActionData) (k : String) :
    (k ∉ l.map (·.1) → (patchAll l u).mUpdates[k]? = u.mUpdates[k]?) ∧
      ∀ id, (k, id) ∈ l → (patchAll l u).mUpdates[k]? =
        some { u.mUpdates.getD k {} with mObjectId := id } := by
  induction l generalizing u with
  | nil => exact ⟨fun _ => rfl, fun _ => nofun⟩
  | cons e l ih =>
    obtain ⟨hnot, hl⟩ := List.nodup_cons.1 hl
    obtain ⟨hold, hnew⟩ := ih hl (u.setUpdateForVehicle e.1 fun v => { v with mObjectId := e.2 })
    refine ⟨fun hk => ?_, fun id hid => ?_⟩
    · rw [List.map_cons, List.mem_cons, not_or] at hk
      refine (hold hk.2).trans (TreeMap.getElem?_insert.trans (if_neg ?_))
      exact fun heq => hk.1 (Std.compare_eq_iff_eq.1 heq).symm
    · rcases List.mem_cons.1 hid with rfl | hid
      · exact (hold hnot).trans TreeMap.getElem?_insert_self
      · have hne : e.1 ≠ k := by
          rintro rfl
          exact hnot (List.mem_map.2 ⟨_, hid, rfl⟩)
        have hget : (u.setUpdateForVehicle e.1 fun v => { v with mObjectId := e.2 }).mUpdates.getD k
            {} = u.mUpdates.getD k {} :=
          TreeMap.getD_insert.trans (if_neg fun heq => hne (Std.compare_eq_iff_eq.1 heq))
        exact (hnew id hid).trans (by rw [hget])

/-! ## A whole step -/

/-- What the manager relies on when it works. -/
structure Ready (this : ObjectPtr) (action : ActionPtr) (r : Registry) (s : Core (Traffic π)) :
    Prop where
  shows : Shows r s
  this_lt : this < s.objects.next
  valid : (s.objects.cell this).mObjectId.valid = true
  action_lt : action < s.actions.next
  start : 0 ≤ (s.actions.cell action).mStartTime
  duration : 0 ≤ (s.actions.cell action).mDuration

/-- The map of ids after the first loop of `executeUpdate`. -/
def noted (api : LiteAPI) (r : Registry) (m : SumoMobilityManager) : TreeMap String ObjectId :=
  (depart api.departedVehicles
    { m with mIdMapper := MobilityManager.fetch r.objects r.container m.mIdMapper }).mIdMapper

/-- The vehicles that are subscribed to after the step. -/
def Moving (api : LiteAPI) (m : SumoMobilityManager) (k : String) : Prop :=
  (k ∈ api.departedVehicles ∨ k ∈ m.mUpdater.mSubscribedVehicles) ∧ k ∉ api.arrivedVehicles

/-- Everything before the second loop of `executeUpdate` returns. -/
structure Prepared (action : ActionPtr) (api : LiteAPI) (radio : ObjectPtr) (r : Registry)
    (s : Core (Traffic π)) (res : SumoUpdater.Results) (u : SumoUpdater)
    (pending : List (String × Nat)) (r' : Registry) (s₁ s₂ s₃ s₄ : Core (Traffic π)) : Prop where
  fetched : MobilityManager.fetchVehicleIds r.container s = .ok ⟨⟩ s₁
  unchanged : s₁.actions = s.actions
  stepped : SumoUpdater.Stepped api s.world.manager.mUpdater u res
  updater : onManager (stepUpdater api (s.actions.cell action).mStartTime) s₁ = .ok res s₂
  allocated : makeActionData (.vehicleUpdate res.updateData) s₂ = .ok s.world.data.next s₃
  added : res.departedVehicles.mapM (addVehicle r.container) s₃ = .ok (pending.map fun v =>
    ObjectFactory.vehicleObjects radio (v.2 + 1) (v.2 + 2) v.2) s₄
  names : pending.map (·.1) = api.departedVehicles
  made : Made pending r r'
  shows : Shows r' s₄
  now : s₄.mCurrentActionTime = s.mCurrentActionTime
  handlers : s₄.mActions = s.mActions
  actions : s₄.actions = s.actions
  world : s₄.world = { s.world with
    manager := { mIdMapper := noted api r s.world.manager, mUpdater := u }
    data := s.world.data.alloc (.vehicleUpdate res.updateData) }

section
variable {this : ObjectPtr} {action : ActionPtr} {api : LiteAPI} {res : SumoUpdater.Results}
variable {u : SumoUpdater} {pending : List (String × Nat)} {r' : Registry}
variable {s₁ s₂ s₃ s₄ : Core (Traffic π)} (h : Ready this action r s)
include h

theorem prepared_ok (hunique : r.container.getUnique "Radio" = .ok radio)
    (hapi : api.WellFormed ((s.actions.cell action).mStartTime.tdiv 1000000)) :
    ∃ res u pending r' s₁ s₂ s₃ s₄, Prepared action api radio r s res u pending r' s₁ s₂ s₃ s₄ := by
  obtain ⟨res, u, hstep, hstepped⟩ := SumoUpdater.step_ok hapi s.world.manager.mUpdater
  set s₁ := s.writeManager { s.world.manager with
    mIdMapper := MobilityManager.fetch r.objects r.container s.world.manager.mIdMapper } with hs₁
  set s₂ := s.writeManager {
    mIdMapper := MobilityManager.fetch r.objects r.container s.world.manager.mIdMapper
    mUpdater := u } with hs₂
  set s₃ : Core (Traffic π) := { s₂ with world := { s₂.world with
    data := s₂.world.data.alloc (.vehicleUpdate res.updateData) } } with hs₃
  have hshows : Shows r s₃ := ⟨h.shows.objects, h.shows.workingCopy, h.shows.currentCopy,
    h.shows.made, h.shows.lastId⟩
  obtain ⟨pending, r', s₄, hok, hnames, hmade, hs₄, hsame⟩ :=
    addVehicles_ok res.departedVehicles hshows hunique
  refine ⟨res, u, pending, r', s₁, s₂, s₃, s₄, ?_, rfl, hstepped, ?_, rfl, hok, ?_, hmade, hs₄,
    hsame.now, hsame.mActions, hsame.actions, ?_⟩
  · rw [hs₁, ← h.shows.objects]
    rfl
  · exact zoom_eq_ok.2 ⟨_, zoom_eq_ok.2 ⟨u, hstep, rfl⟩, rfl⟩
  · rw [hnames, hstepped.departed]
  · rw [hsame.world, hstepped.departed]
    rfl

variable (hp : Prepared action api radio r s res u pending r' s₁ s₂ s₃ s₄)
include hp

theorem Prepared.this_lt : this < s₄.objects.next := by
  have hlt := h.this_lt
  rw [h.shows.objects] at hlt
  rw [hp.shows.objects]
  exact hlt.trans_le hp.made.keeps.next

theorem Prepared.generator : (s₄.objects.cell this).mObjectId = (s.objects.cell this).mObjectId := by
  have hprofile := hp.made.keeps.profile this (h.shows.objects ▸ h.this_lt)
  rw [hp.shows.objects, h.shows.objects]
  exact congrArg (·.mObjectId) hprofile

theorem Prepared.action_lt : action < s₄.actions.next := by
  rw [hp.actions]
  exact h.action_lt

/-- The loops after it return only if the vehicles that have arrived are represented by vehicle objects
and those that move are known. -/
theorem Prepared.of_ok {tasks : MobilityManagerTasks} {s' : Core (Traffic π)}
    (hok : doVehicleUpdate this api action r.container s = .ok tasks s') :
    (∀ k ∈ api.arrivedVehicles, ∃ id p, (noted api r s.world.manager)[k]? = some id ∧
      r'.Named "VehicleObject" id p) ∧
    ∀ k, Moving api s.world.manager k → k ∈ noted api r s.world.manager := by
  have hcontainer : r.container = r'.container := hp.made.keeps.container.symm
  have hmap : s₄.world.manager.mIdMapper = noted api r s.world.manager := by rw [hp.world]
  obtain ⟨x, t₁, hfetch, hrest⟩ := bind_eq_ok.1 hok
  obtain rfl : s₁ = t₁ := (Result.ok.inj (hp.fetched.symm.trans hfetch)).2
  obtain ⟨a, t₁, ha, hrest⟩ := bind_eq_ok.1 hrest
  have hlt : action < s₁.actions.next := by rw [hp.unchanged]; exact h.action_lt
  obtain ⟨rfl, rfl⟩ := Result.ok.inj ((getAction_of_lt hlt).symm.trans ha)
  rw [hp.unchanged] at hrest
  obtain ⟨res', t₂, hupdater, hrest⟩ := bind_eq_ok.1 hrest
  obtain ⟨rfl, rfl⟩ := Result.ok.inj (hp.updater.symm.trans hupdater)
  obtain ⟨data, t₅, hexecute, -⟩ := bind_eq_ok.1 hrest
  obtain ⟨d, t₃, hdata, hexecute⟩ := bind_eq_ok.1 hexecute
  obtain ⟨rfl, rfl⟩ := Result.ok.inj (hp.allocated.symm.trans hdata)
  obtain ⟨adds, t₄, hadds, hexecute⟩ := bind_eq_ok.1 hexecute
  obtain ⟨rfl, rfl⟩ := Result.ok.inj (hp.added.symm.trans hadds)
  obtain ⟨deleters, t₄, hdeleters, hloops⟩ := bind_eq_ok.1 hexecute
  rw [hcontainer] at hdeleters
  obtain ⟨rfl, hdeleted⟩ := (mapM_eq_ok fun k _ ids t hk =>
    (named_of_removeVehicle hp.shows hk).1).1 hdeleters
  obtain ⟨acts, t₅, hupdates, -⟩ := bind_eq_ok.1 hloops
  refine ⟨fun k hk => ?_, fun k hk => ?_⟩
  · rw [hp.stepped.arrived] at hdeleted
    obtain ⟨ids, -, hids⟩ := exists_of_mem_left hdeleted k hk
    rw [← hmap]
    exact (named_of_removeVehicle hp.shows hids).2
  · refine mem_of_updateVehicles _ hmap (hp.this_lt h) (hp.action_lt h) ?_ hupdates k ?_
    · rw [hp.actions]
      have h₁ := h.start
      have h₂ := h.duration
      exact Int.add_nonneg (Int.add_nonneg h₁ h₂) (by decide)
    · rw [hp.stepped.update, hp.stepped.subscribed]
      exact hk

end

/-- What a step of the manager leaves behind: the objects of the vehicles `pending` have been made,
the vehicles `gone` are to be removed, and `moving` are those looked at in the last loop. -/
structure Updated (this : ObjectPtr) (action : ActionPtr) (api : LiteAPI) (radio : ObjectPtr)
    (vs : List Vehicle) (r : Registry) (s : Core (Traffic π)) (tasks : MobilityManagerTasks)
    (pending : List (String × Nat)) (gone : List Vehicle) (moving : List String) (r' : Registry)
    (s' : Core (Traffic π)) : Prop where
  names : pending.map (·.1) = api.departedVehicles
  made : Made pending r r'
  shows : Shows r' s'
  now : s'.mCurrentActionTime = s.mCurrentActionTime
  handlers : s'.mActions = s.mActions
  context : s'.world.mContext = s.world.mContext
  ids : s'.world.manager.mIdMapper = noted api r s.world.manager
  subscribed : ∀ k, k ∈ s'.world.manager.mUpdater.mSubscribedVehicles ↔ Moving api s.world.manager k
  vehiclesToAdd : tasks.vehiclesToAdd = pending.map fun v =>
    ObjectFactory.vehicleObjects radio (v.2 + 1) (v.2 + 2) v.2
  arrived : List.Forall₂ (fun k v => v ∈ vs ∧ (noted api r s.world.manager)[k]? = some v.vehicleId)
    api.arrivedVehicles gone
  objectsToDelete : tasks.objectsToDelete = (gone.map Vehicle.ids).flatten
  nodup : moving.Nodup
  mem_moving : ∀ k, k ∈ moving ↔ Moving api s.world.manager k
  actionsToSchedule : ∃ extra, tasks.actionsToSchedule =
      List.range' s.actions.next (resolved (noted api r s.world.manager) moving).length ++ extra ∧
    ∀ q ∈ extra, (s'.actions.cell q).mType = "default"
  issued : List.Forall₂ (fun e q => s'.actions.cell q = updateAction (s.actions.cell action)
      (s.objects.cell this).mObjectId s.world.data.next e.2)
    (resolved (noted api r s.world.manager) moving)
    (List.range' s.actions.next (resolved (noted api r s.world.manager) moving).length)
  next : s.actions.next + (resolved (noted api r s.world.manager) moving).length ≤ s'.actions.next
  kept : ∀ q < s.actions.next, s'.actions.cell q = s.actions.cell q
  data : s'.world.data.next = s.world.data.next + 1
  datum : ∀ d < s.world.data.next, s'.world.data.cell d = s.world.data.cell d
  table : ∃ table, s'.world.data.cell s.world.data.next = .vehicleUpdate table ∧
    ∀ e ∈ resolved (noted api r s.world.manager) moving, ∃ update,
      SumoUpdater.updateOf api e.1 = .ok update ∧
      table.mUpdates[e.1]? = some { update with mObjectId := e.2 }

section
variable {this : ObjectPtr} {action : ActionPtr} {api : LiteAPI} {r₀ : Registry} {rid : ObjectId}
variable {vs : List Vehicle}

/-- The next action of the manager is made if SUMO expects vehicles. -/
theorem continue_ok {t : TimePoint} (data : MobilityManagerTasks) (hthis : this < s.objects.next)
    (hvalid : (s.objects.cell this).mObjectId.valid = true) (ht : 0 ≤ t) : ∃ extra s',
    (if api.minExpectedNumber > 0 then do
        let newAction ← createSelfAction this (Duration.milliseconds 50)
          (t + Duration.milliseconds 100)
        return { data with actionsToSchedule := data.actionsToSchedule ++ [newAction] }
      else
        return data : CoreM (Traffic π) MobilityManagerTasks) s =
      .ok { data with actionsToSchedule := data.actionsToSchedule ++ extra } s' ∧
    s' = { s with actions := s'.actions } ∧ s.actions.next ≤ s'.actions.next ∧
    (∀ q < s.actions.next, s'.actions.cell q = s.actions.cell q) ∧
    ∀ q ∈ extra, (s'.actions.cell q).mType = "default" := by
  split_ifs with hexpected
  · have hcreate : ActionFactory.create .durationAction (Duration.milliseconds 50)
        (t + Duration.milliseconds 100) (s.objects.cell this).mObjectId
        (s.objects.cell this).mObjectId s = _ :=
      ActionFactory.create_apply hvalid
        (Int.add_nonneg ht (by decide : 0 ≤ Duration.milliseconds 100)) s
    refine ⟨[s.actions.next], _, bind_eq_ok.2 ⟨_, _, bind_eq_ok.2 ⟨_, s, getObject_of_lt hthis,
      hcreate⟩, rfl⟩, rfl, Nat.le_succ _, fun q hq => Heap.alloc_cell_of_lt hq, ?_⟩
    refine List.forall_mem_singleton.2 ?_
    rw [Heap.alloc_cell_self]
  · refine ⟨[], s, ?_, rfl, Nat.le_refl _, fun _ _ => rfl, nofun⟩
    rw [List.append_nil]
    rfl

variable {res : SumoUpdater.Results} {u : SumoUpdater} {pending : List (String × Nat)}
  {r' : Registry} {s₁ s₂ s₃ s₄ : Core (Traffic π)} {gone : List Vehicle} (h : Ready this action r s)
  (hp : Prepared action api radio r s res u pending r' s₁ s₂ s₃ s₄)
  (hgone : List.Forall₂ (fun k v => v ∈ vs ∧ (noted api r s.world.manager)[k]? = some v.vehicleId)
    api.arrivedVehicles gone)
include h hp hgone

/-- The second and the last loop of `executeUpdate`. -/
theorem Prepared.executeUpdate_ok (hr : Houses radio rid r₀ vs r)
    (hmoving : ∀ k, Moving api s.world.manager k → k ∈ noted api r s.world.manager) :
    executeUpdate this res r.container action s₂ =
      .ok ⟨List.range' s₄.actions.next
          (resolved (noted api r s.world.manager) res.updateVehicles).length,
        pending.map fun v => ObjectFactory.vehicleObjects radio (v.2 + 1) (v.2 + 2) v.2,
        (gone.map Vehicle.ids).flatten⟩
      ((resolved (noted api r s.world.manager) res.updateVehicles).foldl
        (issue s.world.data.next (updateAction (s.actions.cell action)
          (s.objects.cell this).mObjectId s.world.data.next)) s₄) := by
  have hcontainer : r.container = r'.container := hp.made.keeps.container.symm
  have hmap : s₄.world.manager.mIdMapper = noted api r s.world.manager := by rw [hp.world]
  have hdeleters : res.arrivedVehicles.mapM (removeVehicle r.container) s₄ =
      .ok (gone.map Vehicle.ids) s₄ := by
    rw [hcontainer, hp.stepped.arrived]
    refine (mapM_eq_ok fun k _ ids t hk => (named_of_removeVehicle hp.shows hk).1).2 ⟨rfl, ?_⟩
    rw [List.forall₂_map_right_iff]
    refine hgone.imp fun k v hkv => removeVehicle_eq_ok.2 ⟨v.vehicleId, ?_, ?_⟩
    · rw [hmap, hkv.2]
    · exact (hr.keeps hp.made.keeps).getObjectsToDelete_ok hkv.1 hp.shows
  have hstart : 0 ≤ (s.actions.cell action).mStartTime + (s.actions.cell action).mDuration +
      Duration.milliseconds 1 :=
    Int.add_nonneg (Int.add_nonneg h.start h.duration) (by decide)
  have hmem : ∀ k ∈ res.updateVehicles, k ∈ noted api r s.world.manager := fun k hk =>
    hmoving k ((hp.stepped.subscribed k).1 ((hp.stepped.update k).1 hk))
  have hupdates := updateVehicles_ok (d := s.world.data.next) res.updateVehicles hmem hmap
    (by rw [hp.actions]) (hp.generator h) (hp.this_lt h) (hp.action_lt h) hstart
  refine bind_eq_ok.2 ⟨_, s₃, hp.allocated, bind_eq_ok.2 ⟨_, s₄, hp.added, ?_⟩⟩
  exact bind_eq_ok.2 ⟨_, s₄, hdeleters, bind_eq_ok.2 ⟨_, _, hupdates, rfl⟩⟩

omit h in
/-- After the loops of `executeUpdate` nothing but new actions may be added. -/
theorem Prepared.updated {s₅ s' : Core (Traffic π)} (hs₅ : s₅ =
      (resolved (noted api r s.world.manager) res.updateVehicles).foldl
        (issue s.world.data.next (updateAction (s.actions.cell action)
          (s.objects.cell this).mObjectId s.world.data.next)) s₄)
    (hs' : s' = { s₅ with actions := s'.actions }) (hnext' : s₅.actions.next ≤ s'.actions.next)
    (hkept' : ∀ q < s₅.actions.next, s'.actions.cell q = s₅.actions.cell q) {extra : List ActionPtr}
    (hextra : ∀ q ∈ extra, (s'.actions.cell q).mType = "default") :
    Updated this action api radio vs r s
      ⟨List.range' s₄.actions.next
          (resolved (noted api r s.world.manager) res.updateVehicles).length ++ extra,
        pending.map fun v => ObjectFactory.vehicleObjects radio (v.2 + 1) (v.2 + 2) v.2,
        (gone.map Vehicle.ids).flatten⟩ pending gone res.updateVehicles r' s' := by
  set f := updateAction (s.actions.cell action) (s.objects.cell this).mObjectId s.world.data.next
  set l := resolved (noted api r s.world.manager) res.updateVehicles with hl
  have hissue := foldl_issue_eq s.world.data.next f l s₄
  have hactions := foldl_issue_actions s.world.data.next f l s₄
  have hdata := foldl_issue_data s.world.data.next f l s₄ (by rw [hp.world, Heap.alloc_cell_self])
  rw [← hs₅] at hissue hactions hdata
  rw [hp.actions] at hactions
  have hnext : s₅.actions.next = s.actions.next + l.length := by
    rw [hactions, Heap.allocAll_next, List.length_map]
  have hkept : ∀ q < s.actions.next, s₅.actions.cell q = s.actions.cell q := fun q hq => by
    rw [hactions, Heap.allocAll_cell_of_lt hq]
  have hissued := Heap.forall₂_allocAll s.actions (l.map fun e => f e.2)
  rw [← hactions, List.forall₂_map_left_iff, List.length_map] at hissued
  have hshows : Shows r' s' := by
    rw [hs', hissue]
    exact ⟨hp.shows.objects, hp.shows.workingCopy, hp.shows.currentCopy, hp.shows.made,
      hp.shows.lastId⟩
  have hworld : s'.world = { s.world with
      manager := { mIdMapper := noted api r s.world.manager, mUpdater := u }
      data := s₅.world.data } := by
    rw [hs', hissue]
    dsimp only
    rw [hp.world]
  have hdatum : s₅.world.data = (s.world.data.alloc (.vehicleUpdate res.updateData)).write
      s.world.data.next (.vehicleUpdate (patchAll l res.updateData)) := by
    rw [hdata, hp.world]
  rw [Heap.alloc_write] at hdatum
  have hnow : s'.mCurrentActionTime = s₄.mCurrentActionTime := by rw [hs', hissue]
  have hhandlers : s'.mActions = s₄.mActions := by rw [hs', hissue]
  exact {
    names := hp.names
    made := hp.made
    shows := hshows
    now := hnow.trans hp.now
    handlers := hhandlers.trans hp.handlers
    context := by rw [hworld]
    ids := by rw [hworld]
    subscribed := fun k => by
      rw [hworld]
      exact hp.stepped.subscribed k
    vehiclesToAdd := rfl
    arrived := hgone
    objectsToDelete := rfl
    nodup := hp.stepped.nodup
    mem_moving := fun k => (hp.stepped.update k).trans (hp.stepped.subscribed k)
    actionsToSchedule := ⟨extra, by rw [← hl, ← hp.actions], hextra⟩
    issued := hissued.imp fun e q hq => (hkept' q hq.1).trans hq.2
    next := hnext ▸ hnext'
    kept := fun q hq => (hkept' q (hnext ▸ Nat.lt_add_right _ hq)).trans (hkept q hq)
    data := by
      rw [hworld, hdatum]
      rfl
    datum := fun d hd => by
      rw [hworld, hdatum]
      exact Heap.alloc_cell_of_lt hd
    table := by
      rw [hworld, hdatum]
      refine ⟨_, Heap.alloc_cell_self .., fun e he => ?_⟩
      obtain ⟨update, hupdate, hget⟩ := (hp.stepped.data e.1).1 (mem_resolved.1 he).1
      refine ⟨update, hupdate, ?_⟩
      rw [(patchAll_getElem? l (nodup_resolved hp.stepped.nodup) _ e.1).2 e.2 he,
        TreeMap.getD_eq_getD_getElem?, hget]
      rfl }

end

theorem doVehicleUpdate_ok {this : ObjectPtr} {action : ActionPtr} {api : LiteAPI} {r₀ : Registry}
    {rid : ObjectId} {vs : List Vehicle} (h : Ready this action r s) (hb : Base radio rid r₀)
    (hr : Houses radio rid r₀ vs r)
    (hapi : api.WellFormed ((s.actions.cell action).mStartTime.tdiv 1000000))
    (harrived : ∀ k ∈ api.arrivedVehicles, ∃ v ∈ vs,
      (noted api r s.world.manager)[k]? = some v.vehicleId)
    (hmoving : ∀ k, Moving api s.world.manager k → k ∈ noted api r s.world.manager) :
    ∃ tasks s' pending gone moving r',
      doVehicleUpdate this api action r.container s = .ok tasks s' ∧
      Updated this action api radio vs r s tasks pending gone moving r' s' := by
  obtain ⟨res, u, pending, r', s₁, s₂, s₃, s₄, hp⟩ := prepared_ok h (hr.getUnique hb) hapi
  obtain ⟨gone, hgone⟩ := exists_forall₂ harrived
  have hexecute := hp.executeUpdate_ok h hgone hr hmoving
  generalize hs₅ : (resolved (noted api r s.world.manager) res.updateVehicles).foldl _ s₄ = s₅
    at hexecute
  have hobjects : s₅.objects = s₄.objects := by
    rw [← hs₅, foldl_issue_eq]
  have hthis : this < s₅.objects.next := by
    rw [hobjects]
    exact hp.this_lt h
  have hvalid : (s₅.objects.cell this).mObjectId.valid = true := by
    rw [hobjects, hp.generator h]
    exact h.valid
  -- the next action of the manager
  obtain ⟨extra, s', hok, hs', hnext', hkept', hextra⟩ : ∃ extra s', _ :=
    @continue_ok _ _ this api _ _ hthis hvalid h.start
  refine ⟨_, s', pending, gone, res.updateVehicles, r', ?_,
    hp.updated hgone hs₅.symm hs' hnext' hkept' hextra⟩
  have hlt : action < s₁.actions.next := by rw [hp.unchanged]; exact h.action_lt
  refine bind_eq_ok.2 ⟨⟨⟩, s₁, hp.fetched, bind_eq_ok.2 ⟨_, s₁, getAction_of_lt hlt, ?_⟩⟩
  rw [hp.unchanged]
  exact bind_eq_ok.2 ⟨res, s₂, hp.updater, bind_eq_ok.2 ⟨_, s₅, hexecute, hok⟩⟩

end SumoMobilityManager

end

end Cosidia
