import Cosidia.Verify.Registry

/-!
# Parents, children and removed objects

Additions of vehicles keep every child of an active object active. A removal takes a microchannel out
of the container but not out of the children of the radio, and there it stays.
-/

namespace Cosidia

open EStateM Std

namespace Registry

variable {r : Registry} {radio : ObjectPtr} {rid : ObjectId}

/-- What additions and removals of vehicles keep; `radio` is the unique radio. -/
structure Kept (radio : ObjectPtr) (rid : ObjectId) (r : Registry) : Prop where
  keyed : ∀ (i : ObjectId) (p : ObjectPtr), r.container.mActiveObjects[i]? = some p →
    p < r.objects.next ∧ (r.objects.cell p).mObjectId = i ∧ i ≤ r.lastId ∧
      (r.objects.cell p).mObjectName ≠ ""
  unique : r.container.mUniqueObjects["Radio"]? = some rid
  named : r.Named "Radio" rid radio
  channel : ∀ (i : ObjectId) (p : ObjectPtr), r.Named "VehicleObject" i p →
    ∀ j ∈ (r.objects.cell p).mParentList, j ∈ (r.objects.cell radio).mChildIdList
  children : ∀ (i : ObjectId) (p : ObjectPtr), r.container.mActiveObjects[i]? = some p →
    ∀ j ∈ (r.objects.cell p).mChildIdList,
      j ∈ r.container.mActiveObjects ∨ j ∈ r.container.mRemovedObjects
  removed : ∀ i ∈ r.container.mRemovedObjects, i ∉ r.container.mActiveObjects ∧ i ≤ r.lastId

/-- A child of the radio has been removed. -/
def Stale (radio : ObjectPtr) (r : Registry) : Prop :=
  ∃ i ∈ (r.objects.cell radio).mChildIdList, i ∈ r.container.mRemovedObjects

/-! ## Adding a vehicle -/

theorem addVehicle_cell (externalId : String) (h : radio < r.objects.next) (p : ObjectPtr) :
    (r.addVehicle radio externalId).objects.cell p =
      if p = r.objects.next then
        { mObjectId := r.lastId + 1 + 1 + 1, mObjectName := "Router"
          mParentList := (∅ : TreeSet ObjectId).insert (r.lastId + 1) }
      else if p = r.objects.next + 1 then
        { mObjectId := r.lastId + 1, mObjectName := "Microchannel"
          mParentList := (∅ : TreeSet ObjectId).insert (r.objects.cell radio).mObjectId
          mChildIdList := ((∅ : TreeSet ObjectId).insert (r.lastId + 1 + 1)).insert
            (r.lastId + 1 + 1 + 1) }
      else if p = r.objects.next + 2 then
        { mObjectId := r.lastId + 1 + 1, mObjectName := "VehicleObject"
          mExternalId := some externalId
          mParentList := (∅ : TreeSet ObjectId).insert (r.lastId + 1) }
      else if p = radio then
        { r.objects.cell radio with
          mChildIdList := (r.objects.cell radio).mChildIdList.insert (r.lastId + 1) }
      else r.objects.cell p := by
  have h0 : radio ≠ r.objects.next := h.ne
  have h1 : radio ≠ r.objects.next + 1 := (h.trans (Nat.lt_succ_self _)).ne
  have h2 : radio ≠ r.objects.next + 2 := (h.trans (Nat.lt_add_of_pos_right (by decide))).ne
  have hadd : ∀ m : Nat, m + 1 + 1 = m + 2 := fun _ => rfl
  have h01 : r.objects.next ≠ r.objects.next + 1 := (Nat.lt_succ_self _).ne
  have h02 : r.objects.next ≠ r.objects.next + 2 := (Nat.lt_add_of_pos_right (by decide)).ne
  have h12 : r.objects.next + 1 ≠ r.objects.next + 2 := (Nat.lt_succ_self _).ne
  simp only [addVehicle, relateVehicle, identifyVehicle, makeVehicle, identify, addChild, addParent,
    add, modify, giveId, alloc, Heap.write_cell, Heap.alloc, Function.update_apply, h0, h0.symm, h1,
    h1.symm, h2, h2.symm, hadd, h01, h01.symm, h02, h02.symm, h12, h12.symm, if_true, if_false]
  split_ifs <;> simp_all

theorem addVehicle_lastId (externalId : String) :
    (r.addVehicle radio externalId).lastId = r.lastId + 1 + 1 + 1 := rfl

theorem addVehicle_next (externalId : String) :
    (r.addVehicle radio externalId).objects.next = r.objects.next + 3 := rfl

theorem addVehicle_removed (externalId : String) :
    (r.addVehicle radio externalId).container.mRemovedObjects = r.container.mRemovedObjects := rfl

/-- An object that is active after an addition is one of the new ones or has been active before. -/
theorem addVehicle_active (externalId : String) (h : radio < r.objects.next) (i : ObjectId) :
    (r.addVehicle radio externalId).container.mActiveObjects[i]? =
      if r.lastId + 1 + 1 + 1 = i then some r.objects.next
      else if r.lastId + 1 + 1 = i then some (r.objects.next + 2)
      else if r.lastId + 1 = i then some (r.objects.next + 1)
      else r.container.mActiveObjects[i]? := by
  have h0 : radio ≠ r.objects.next := h.ne
  have h1 : radio ≠ r.objects.next + 1 := (h.trans (Nat.lt_succ_self _)).ne
  have h2 : radio ≠ r.objects.next + 2 := (h.trans (Nat.lt_add_of_pos_right (by decide))).ne
  have h01 : r.objects.next ≠ r.objects.next + 1 := (Nat.lt_succ_self _).ne
  have h02 : r.objects.next ≠ r.objects.next + 2 := (Nat.lt_add_of_pos_right (by decide)).ne
  have h12 : r.objects.next + 1 ≠ r.objects.next + 2 := (Nat.lt_succ_self _).ne
  simp only [addVehicle, relateVehicle, identifyVehicle, makeVehicle, identify, addChild, addParent,
    add, modify, giveId, alloc, Heap.write_cell, h0, h0.symm, h1, h1.symm, h2, h2.symm, h01, h01.symm,
    h02, h02.symm, h12, h12.symm, if_true, if_false, TreeMap.getElem?_insert,
    Std.compare_eq_iff_eq]

theorem addVehicle_cases {externalId : String} (h : radio < r.objects.next) {i : ObjectId}
    {p : ObjectPtr} (hp : (r.addVehicle radio externalId).container.mActiveObjects[i]? = some p) :
    (i = r.lastId + 1 + 1 + 1 ∧ p = r.objects.next) ∨
      (i = r.lastId + 1 + 1 ∧ p = r.objects.next + 2) ∨
      (i = r.lastId + 1 ∧ p = r.objects.next + 1) ∨ r.container.mActiveObjects[i]? = some p := by
  rw [addVehicle_active externalId h] at hp
  split_ifs at hp with h3 h2 h1
  · exact .inl ⟨h3.symm, (Option.some.inj hp).symm⟩
  · exact .inr (.inl ⟨h2.symm, (Option.some.inj hp).symm⟩)
  · exact .inr (.inr (.inl ⟨h1.symm, (Option.some.inj hp).symm⟩))
  · exact .inr (.inr (.inr hp))

theorem mem_addVehicle {externalId : String} (h : radio < r.objects.next) {i : ObjectId} :
    i ∈ (r.addVehicle radio externalId).container.mActiveObjects ↔ i = r.lastId + 1 + 1 + 1 ∨
      i = r.lastId + 1 + 1 ∨ i = r.lastId + 1 ∨ i ∈ r.container.mActiveObjects := by
  rw [TreeMap.mem_iff_isSome_getElem?, addVehicle_active externalId h,
    TreeMap.mem_iff_isSome_getElem?]
  split_ifs with h3 h2 h1
  · exact ⟨fun _ => .inl h3.symm, fun _ => rfl⟩
  · exact ⟨fun _ => .inr (.inl h2.symm), fun _ => rfl⟩
  · exact ⟨fun _ => .inr (.inr (.inl h1.symm)), fun _ => rfl⟩
  · refine ⟨fun hi => .inr (.inr (.inr hi)), ?_⟩
    rintro (hi | hi | hi | hi)
    · exact absurd hi.symm h3
    · exact absurd hi.symm h2
    · exact absurd hi.symm h1
    · exact hi

section
variable (externalId : String) (h : radio < r.objects.next)
include h

theorem addVehicle_router : (r.addVehicle radio externalId).objects.cell r.objects.next =
    { mObjectId := r.lastId + 1 + 1 + 1, mObjectName := "Router"
      mParentList := (∅ : TreeSet ObjectId).insert (r.lastId + 1) } := by
  rw [addVehicle_cell externalId h, if_pos rfl]

theorem addVehicle_channel : (r.addVehicle radio externalId).objects.cell (r.objects.next + 1) =
    { mObjectId := r.lastId + 1, mObjectName := "Microchannel"
      mParentList := (∅ : TreeSet ObjectId).insert (r.objects.cell radio).mObjectId
      mChildIdList := ((∅ : TreeSet ObjectId).insert (r.lastId + 1 + 1)).insert
        (r.lastId + 1 + 1 + 1) } := by
  rw [addVehicle_cell externalId h, if_neg (Nat.succ_ne_self _), if_pos rfl]

theorem addVehicle_vehicle : (r.addVehicle radio externalId).objects.cell (r.objects.next + 2) =
    { mObjectId := r.lastId + 1 + 1, mObjectName := "VehicleObject"
      mExternalId := some externalId
      mParentList := (∅ : TreeSet ObjectId).insert (r.lastId + 1) } := by
  rw [addVehicle_cell externalId h, if_neg (Nat.ne_of_gt (Nat.lt_add_of_pos_right (by decide))),
    if_neg (Nat.succ_ne_self _), if_pos rfl]

/-- The objects made before stay as they are, but the radio gets a child. -/
theorem addVehicle_old {p : ObjectPtr} (hp : p < r.objects.next) :
    (r.addVehicle radio externalId).objects.cell p = if p = radio then
      { r.objects.cell radio with
        mChildIdList := (r.objects.cell radio).mChildIdList.insert (r.lastId + 1) }
      else r.objects.cell p := by
  rw [addVehicle_cell externalId h, if_neg hp.ne, if_neg (hp.trans (Nat.lt_succ_self _)).ne,
    if_neg (hp.trans (Nat.lt_add_of_pos_right (by decide))).ne]

theorem addVehicle_old_eq {p : ObjectPtr} (hp : p < r.objects.next) :
    ((r.addVehicle radio externalId).objects.cell p).mObjectId = (r.objects.cell p).mObjectId ∧
    ((r.addVehicle radio externalId).objects.cell p).mObjectName = (r.objects.cell p).mObjectName ∧
    ((r.addVehicle radio externalId).objects.cell p).mParentList = (r.objects.cell p).mParentList := by
  rw [addVehicle_old externalId h hp]
  split_ifs with heq
  · subst heq
    exact ⟨rfl, rfl, rfl⟩
  · exact ⟨rfl, rfl, rfl⟩

theorem mem_addVehicle_radio {i : ObjectId} :
    i ∈ ((r.addVehicle radio externalId).objects.cell radio).mChildIdList ↔
      r.lastId + 1 = i ∨ i ∈ (r.objects.cell radio).mChildIdList := by
  rw [addVehicle_old externalId h h, if_pos rfl]
  exact TreeSet.mem_insert.trans (or_congr_left Std.compare_eq_iff_eq)

end

theorem Kept.radio_lt (h : Kept radio rid r) : radio < r.objects.next := (h.keyed _ _ h.named.1).1

theorem Kept.addVehicle (h : Kept radio rid r) (externalId : String) :
    Kept radio rid (r.addVehicle radio externalId) := by
  have hradio := h.radio_lt
  have hlt : ∀ i : Int, i ≤ r.lastId → i ≤ r.lastId + 1 + 1 + 1 := fun _ _ => by omega
  have hnew : ∀ i : Int, i ≤ r.lastId → ¬(i = r.lastId + 1 + 1 + 1 ∨ i = r.lastId + 1 + 1 ∨
      i = r.lastId + 1) := fun i hi => by omega
  refine ⟨fun i p hp => ?_, h.unique, ?_, fun i p hp j hj => ?_, fun i p hp j hj => ?_,
    fun i hi => ?_⟩
  · rw [addVehicle_next, addVehicle_lastId]
    rcases addVehicle_cases hradio hp with ⟨rfl, rfl⟩ | ⟨rfl, rfl⟩ | ⟨rfl, rfl⟩ | hold
    · rw [addVehicle_router _ hradio]
      exact ⟨Nat.lt_add_of_pos_right (by decide), rfl, Int.le_refl _, (by decide : "Router" ≠ "")⟩
    · rw [addVehicle_vehicle _ hradio]
      exact ⟨Nat.lt_succ_self _, rfl, (by omega : (r.lastId + 1 + 1 : Int) ≤ _),
        (by decide : "VehicleObject" ≠ "")⟩
    · rw [addVehicle_channel _ hradio]
      exact ⟨Nat.lt_succ_of_lt (Nat.lt_succ_self _), rfl, (by omega : (r.lastId + 1 : Int) ≤ _),
        (by decide : "Microchannel" ≠ "")⟩
    · obtain ⟨hp', hid, hle, hname⟩ := h.keyed i p hold
      obtain ⟨hid', hname', -⟩ := addVehicle_old_eq externalId hradio hp'
      rw [hid', hname']
      exact ⟨hp'.trans (Nat.lt_add_of_pos_right (by decide)), hid, hlt i hle, hname⟩
  · obtain ⟨-, -, hle, -⟩ := h.keyed rid radio h.named.1
    refine ⟨?_, (addVehicle_old_eq externalId hradio hradio).2.1.trans h.named.2⟩
    have hne := hnew rid hle
    rw [addVehicle_active _ hradio, if_neg fun hi => hne (.inl hi.symm),
      if_neg fun hi => hne (.inr (.inl hi.symm)), if_neg fun hi => hne (.inr (.inr hi.symm))]
    exact h.named.1
  · rw [mem_addVehicle_radio _ hradio]
    obtain ⟨hp, hname⟩ := hp
    rcases addVehicle_cases hradio hp with ⟨rfl, rfl⟩ | ⟨rfl, rfl⟩ | ⟨rfl, rfl⟩ | hold
    · rw [addVehicle_router _ hradio] at hname
      exact absurd hname (by decide : "Router" ≠ "VehicleObject")
    · rw [addVehicle_vehicle _ hradio] at hj
      exact .inl (mem_singleton_iff.1 hj)
    · rw [addVehicle_channel _ hradio] at hname
      exact absurd hname (by decide : "Microchannel" ≠ "VehicleObject")
    · obtain ⟨hp', -⟩ := h.keyed i p hold
      obtain ⟨-, hname', hparents⟩ := addVehicle_old_eq externalId hradio hp'
      exact .inr (h.channel i p ⟨hold, hname' ▸ hname⟩ j (hparents ▸ hj))
  · rw [addVehicle_removed, mem_addVehicle hradio]
    have hkeep : j ∈ r.container.mActiveObjects ∨ j ∈ r.container.mRemovedObjects →
        (j = r.lastId + 1 + 1 + 1 ∨ j = r.lastId + 1 + 1 ∨ j = r.lastId + 1 ∨
          j ∈ r.container.mActiveObjects) ∨ j ∈ r.container.mRemovedObjects :=
      Or.imp_left fun hj => .inr (.inr (.inr hj))
    rcases addVehicle_cases hradio hp with ⟨rfl, rfl⟩ | ⟨rfl, rfl⟩ | ⟨rfl, rfl⟩ | hold
    · rw [addVehicle_router _ hradio] at hj
      exact absurd hj TreeSet.not_mem_emptyc
    · rw [addVehicle_vehicle _ hradio] at hj
      exact absurd hj TreeSet.not_mem_emptyc
    · rw [addVehicle_channel _ hradio] at hj
      rcases TreeSet.mem_insert.1 hj with hj | hj
      · exact .inl (.inl (Std.compare_eq_iff_eq.1 hj).symm)
      · exact .inl (.inr (.inl (mem_singleton_iff.1 hj).symm))
    · obtain ⟨hp', -⟩ := h.keyed i p hold
      by_cases heq : p = radio
      · subst heq
        rcases (mem_addVehicle_radio externalId hradio).1 hj with rfl | hj
        · exact .inl (.inr (.inr (.inl rfl)))
        · exact hkeep (h.children i p hold j hj)
      · rw [addVehicle_old externalId hradio hp', if_neg heq] at hj
        exact hkeep (h.children i p hold j hj)
  · obtain ⟨hactive, hle⟩ := h.removed i hi
    have hne := hnew i hle
    refine ⟨fun hmem => ?_, hlt i hle⟩
    rcases (mem_addVehicle hradio).1 hmem with hi' | hi' | hi' | hi'
    · exact hne (.inl hi')
    · exact hne (.inr (.inl hi'))
    · exact hne (.inr (.inr hi'))
    · exact hactive hi'

/-! ## Removing a vehicle -/

theorem Kept.remove (h : Kept radio rid r) {id : ObjectId} (hid : id ≤ r.lastId) (hne : id ≠ rid) :
    Kept radio rid (r.remove id) := by
  have hactive : ∀ {i : ObjectId} {p : ObjectPtr},
      (r.container.mActiveObjects.erase id)[i]? = some p →
        r.container.mActiveObjects[i]? = some p := by
    intro i p hp
    rw [TreeMap.getElem?_erase] at hp
    split_ifs at hp
    exact hp
  refine ⟨fun i p hp => h.keyed i p (hactive hp), h.unique, ⟨?_, h.named.2⟩,
    fun i p hp => h.channel i p ⟨hactive hp.1, hp.2⟩, fun i p hp j hj => ?_, fun i hi => ?_⟩
  · show (r.container.mActiveObjects.erase id)[rid]? = some radio
    rw [TreeMap.getElem?_erase, if_neg (mt Std.compare_eq_iff_eq.1 hne)]
    exact h.named.1
  · by_cases hji : id = j
    · exact .inr (TreeSet.mem_insert.2 (.inl (Std.compare_eq_iff_eq.2 hji)))
    · refine (h.children i p (hactive hp) j hj).imp (fun hj => ?_) fun hj =>
        TreeSet.mem_insert.2 (.inr hj)
      exact TreeMap.mem_erase.2 ⟨mt Std.compare_eq_iff_eq.1 hji, hj⟩
  · rcases TreeSet.mem_insert.1 hi with hi | hi
    · obtain rfl := Std.compare_eq_iff_eq.1 hi
      exact ⟨fun hmem => (TreeMap.mem_erase.1 hmem).1 (Std.compare_eq_iff_eq.2 rfl), hid⟩
    · exact ⟨fun hmem => (h.removed i hi).1 (TreeMap.mem_erase.1 hmem).2, (h.removed i hi).2⟩

theorem Kept.removeAll (l : List ObjectId) (h : Kept radio rid r)
    (hl : ∀ id ∈ l, id ≤ r.lastId ∧ id ≠ rid) :
    Kept radio rid (l.foldl (fun r id => r.remove id) r) := by
  induction l generalizing r with
  | nil => exact h
  | cons id l ih =>
    obtain ⟨hid, hne⟩ := hl id (List.mem_cons_self ..)
    exact ih (h.remove hid hne) fun i hi => hl i (List.mem_cons_of_mem _ hi)

theorem removeAll_objects (l : List ObjectId) (r : Registry) :
    (l.foldl (fun r id => r.remove id) r).objects = r.objects := by
  induction l generalizing r with
  | nil => rfl
  | cons id l ih => exact ih (r.remove id)

theorem mem_removeAll (l : List ObjectId) (r : Registry) {i : ObjectId} :
    i ∈ (l.foldl (fun r id => r.remove id) r).container.mRemovedObjects ↔
      i ∈ l ∨ i ∈ r.container.mRemovedObjects := by
  induction l generalizing r with
  | nil => simp
  | cons id l ih =>
    rw [List.foldl_cons, ih, List.mem_cons, or_assoc, or_left_comm]
    exact or_congr_right (TreeSet.mem_insert.trans
      (or_congr_left (Std.compare_eq_iff_eq.trans eq_comm)))

/-- A named object is a different one if its name is. -/
theorem Kept.ne_of_named (h : Kept radio rid r) {name : String} {i : ObjectId} {p : ObjectPtr}
    (hp : r.Named name i p) (hname : name ≠ "Radio") : i ≠ rid := by
  rintro rfl
  have heq : p = radio := Option.some.inj (hp.1.symm.trans h.named.1)
  exact hname (by rw [← hp.2, heq, h.named.2])

theorem Kept.deletes (h : Kept radio rid r) {id : ObjectId} {ids : List ObjectId}
    (hids : r.Deletes id ids) :
    Kept radio rid (ids.foldl (fun r id => r.remove id) r) ∧
      Stale radio (ids.foldl (fun r id => r.remove id) r) := by
  obtain ⟨vehicle, i, channel, j, router, hvehicle, hi, hchannel, hrouter, rfl⟩ := hids
  obtain ⟨-, hcid, hcle, -⟩ := h.keyed _ _ hchannel.1
  obtain ⟨-, hrid, hrle, -⟩ := h.keyed _ _ hrouter.1
  obtain ⟨-, -, hvle, -⟩ := h.keyed _ _ hvehicle.1
  rw [hcid, hrid]
  refine ⟨h.removeAll _ fun k hk => ?_, i, ?_, ?_⟩
  · rcases List.mem_cons.1 hk with rfl | hk
    · exact ⟨hvle, h.ne_of_named hvehicle (by decide)⟩
    rcases List.mem_cons.1 hk with rfl | hk
    · exact ⟨hcle, h.ne_of_named hchannel (by decide)⟩
    · obtain rfl := List.mem_singleton.1 hk
      exact ⟨hrle, h.ne_of_named hrouter (by decide)⟩
  · rw [removeAll_objects]
    exact h.channel _ _ hvehicle i hi
  · exact (mem_removeAll _ r).2 (.inl (by simp))

theorem Stale.addVehicle (h : Stale radio r) (hradio : radio < r.objects.next)
    (externalId : String) : Stale radio (r.addVehicle radio externalId) := by
  obtain ⟨i, hi, hremoved⟩ := h
  exact ⟨i, (mem_addVehicle_radio externalId hradio).2 (.inr hi), hremoved⟩

end Registry

/-! ## Histories -/

variable {ω : Type}

/-- What happens to the population of vehicles. -/
inductive VehicleOp where
  /-- A vehicle is made of `data`, and its objects start at `start`. -/
  | add (data : Option FactoryData) (start : TimePoint)
  /-- The vehicle whose `VehicleObject` has the id `id` is removed. -/
  | remove (id : ObjectId)

namespace VehicleOp

def IsAdd : VehicleOp → Prop
  | add .. => True
  | remove _ => False

def perform : VehicleOp → CoreM ω Unit
  | add data start => do
    let vehicle ← ObjectFactory.createObject "vehicle" (← get).mObjectList.currentCopy data
    TemporaryObjectList.resolveAndStart start vehicle
  | remove id => do
    let ids ← ObjectRemover.getObjectsToDelete "vehicle" id (← get).mObjectList.currentCopy
    ids.forM Core.removeObjectFromSimulation

end VehicleOp

/-- The container of `s` holds the unique radio and no vehicles, and nothing has been removed. -/
structure Populated (s : Core ω) : Prop where
  current : s.mObjectList.currentCopy = s.mObjectList.workingCopy
  made : s.mObjectList.mWorkingCopy < s.mObjectList.containers.next
  radio : ∃ (rid : ObjectId) (radio : ObjectPtr),
    s.mObjectList.currentCopy.mUniqueObjects["Radio"]? = some rid ∧
    s.mObjectList.currentCopy.mActiveObjects[rid]? = some radio ∧
    (s.objects.cell radio).mObjectName = "Radio"
  keyed : ∀ (i : ObjectId) (p : ObjectPtr), s.mObjectList.currentCopy.mActiveObjects[i]? = some p →
    p < s.objects.next ∧ (s.objects.cell p).mObjectId = i ∧ i ≤ s.mObjectList.mCurrentObjectId ∧
      (s.objects.cell p).mObjectName ≠ "" ∧ (s.objects.cell p).mObjectName ≠ "VehicleObject"
  children : ∀ (i : ObjectId) (p : ObjectPtr),
    s.mObjectList.currentCopy.mActiveObjects[i]? = some p →
    ∀ j ∈ (s.objects.cell p).mChildIdList, j ∈ s.mObjectList.currentCopy.mActiveObjects
  removed : ∀ i : ObjectId, i ∉ s.mObjectList.currentCopy.mRemovedObjects

/-- The children of active objects are active. -/
def Closed (s : Core ω) : Prop :=
  ∀ (i : ObjectId) (p : ObjectPtr), s.mObjectList.currentCopy.mActiveObjects[i]? = some p →
    ∀ j ∈ (s.objects.cell p).mChildIdList, j ∈ s.mObjectList.currentCopy.mActiveObjects

/-- No lookup by name, on any active object, dereferences a null pointer. -/
def Safe (s : Core ω) : Prop :=
  ∀ (i : ObjectId) (p : ObjectPtr), s.mObjectList.currentCopy.mActiveObjects[i]? = some p →
    ∀ (name : String) (s' : Core ω),
      getSiblingByName p name s.mObjectList.currentCopy s ≠ .error .nullDereference s' ∧
      getChildByName p name s.mObjectList.currentCopy s ≠ .error .nullDereference s'

namespace Registry

variable {radio : ObjectPtr} {rid : ObjectId} {r : Registry} {s s' : Core ω}

theorem perform_keeps (h : Shows r s) (hr : Kept radio rid r) (op : VehicleOp) :
    Returns op.perform s fun _ s' => ∃ r', Shows r' s' ∧ Kept radio rid r' ∧
      (Stale radio r → Stale radio r') ∧ (¬op.IsAdd → Stale radio r') ∧
      (op.IsAdd → r'.container.mRemovedObjects = r.container.mRemovedObjects) := by
  cases op with
  | add data start =>
    refine Post.bind (M := fun t s' => t = s ∧ s' = s) (post_get ⟨rfl, rfl⟩) ?_
    rintro _ s' ⟨rfl, rfl⟩
    rw [h.currentCopy]
    refine Post.mono (shows_createObject h data) ?_ fun _ _ _ => trivial
    rintro _ s₁ ⟨radio', externalId, hunique, hshows⟩
    obtain rfl : radio' = radio := by
      simp only [ObjectContainer.getUnique] at hunique
      rw [hr.unique] at hunique
      simp only [hr.named.1] at hunique
      exact (Except.ok.inj hunique).symm
    exact ⟨_, hshows, hr.addVehicle externalId, fun hstale => hstale.addVehicle hr.radio_lt _,
      fun hadd => absurd trivial hadd, fun _ => rfl⟩
  | remove id =>
    refine Post.bind (M := fun t s' => t = s ∧ s' = s) (post_get ⟨rfl, rfl⟩) ?_
    rintro _ s' ⟨rfl, rfl⟩
    rw [h.currentCopy]
    refine Post.mono (shows_getObjectsToDelete h id) ?_ fun _ _ _ => trivial
    rintro _ s₁ ⟨ids, hids, hshows⟩
    obtain ⟨hkept, hstale⟩ := hr.deletes hids
    exact ⟨_, hshows, hkept, fun _ => hstale, fun _ => hstale, fun hadd => hadd.elim⟩

/-- A radio with a stale child stays one, and without removals there is nothing removed. -/
theorem forM_keeps (ops : List VehicleOp) (h : Shows r s) (hr : Kept radio rid r) :
    Returns (ops.forM VehicleOp.perform) s fun _ s' => ∃ r', Shows r' s' ∧ Kept radio rid r' ∧
      (Stale radio r ∨ (¬∀ op ∈ ops, op.IsAdd) → Stale radio r') ∧
      ((∀ op ∈ ops, op.IsAdd) → r'.container.mRemovedObjects = r.container.mRemovedObjects) := by
  induction ops generalizing r s with
  | nil => exact ⟨r, h, hr, fun hstale => hstale.elim id fun hn => absurd (by simp) hn, fun _ => rfl⟩
  | cons op ops ih =>
    apply Post.bind (perform_keeps h hr op)
    rintro _ s₁ ⟨r₁, h₁, hr₁, hstale₁, hremove₁, hadd₁⟩
    refine Post.mono (ih h₁ hr₁) ?_ fun _ _ _ => trivial
    rintro _ s₂ ⟨r₂, h₂, hr₂, hstale₂, hadd₂⟩
    refine ⟨r₂, h₂, hr₂, fun hs => hstale₂ ?_, fun hall => ?_⟩
    · rcases hs with hs | hs
      · exact .inl (hstale₁ hs)
      · by_cases hop : op.IsAdd
        · exact .inr fun hops => hs (List.forall_mem_cons.2 ⟨hop, hops⟩)
        · exact .inl (hremove₁ hop)
    · obtain ⟨hop, hops⟩ := List.forall_mem_cons.1 hall
      rw [hadd₂ hops, hadd₁ hop]

/-! ## Lookups -/

theorem getObject_of_active {c : ObjectContainer} {i : ObjectId} {p : ObjectPtr}
    (hp : c.mActiveObjects[i]? = some p) : c.getObject i = .ok (some p) := by
  simp only [ObjectContainer.getObject]
  rw [TreeMap.contains_eq_isSome_getElem?, hp]
  rfl

theorem getObject_of_removed {c : ObjectContainer} {i : ObjectId} (hi : i ∈ c.mRemovedObjects)
    (hp : i ∉ c.mActiveObjects) : c.getObject i = .ok none := by
  simp only [ObjectContainer.getObject]
  rw [TreeSet.contains_iff_mem.2 hi, Bool.or_true, if_pos rfl, TreeMap.getElem?_eq_none hp]

/-- Looking for a name no object has walks over all of them, and so on to a removed one. -/
theorem findByName_stale (h : Shows r s) (hr : Kept radio rid r) (l : List ObjectId)
    (hl : ∀ i ∈ l, i ∈ r.container.mActiveObjects ∨ i ∈ r.container.mRemovedObjects)
    (hstale : ∃ i ∈ l, i ∈ r.container.mRemovedObjects) :
    findByName "" r.container l s = .error .nullDereference s := by
  induction l with
  | nil =>
    obtain ⟨i, hi, -⟩ := hstale
    cases hi
  | cons i l ih =>
    rw [findByName, bind_apply]
    cases hp : r.container.mActiveObjects[i]? with
    | none =>
      have hi : i ∉ r.container.mActiveObjects := fun hmem => by
        rw [TreeMap.mem_iff_isSome_getElem?, hp] at hmem
        cases hmem
      rw [getObject_of_removed ((hl i (List.mem_cons_self ..)).resolve_left hi) hi]
      rfl
    | some p =>
      obtain ⟨hlt, -, -, hname⟩ := hr.keyed i p hp
      rw [getObject_of_active hp]
      show (getObject p >>= _) s = _
      rw [bind_apply, getObject_of_lt (by rwa [h.objects])]
      simp only [h.objects, if_neg hname]
      refine ih (fun j hj => hl j (List.mem_cons_of_mem _ hj)) ?_
      obtain ⟨j, hj, hremoved⟩ := hstale
      rcases List.mem_cons.1 hj with rfl | hj
      · refine absurd ?_ (hr.removed j hremoved).1
        rw [TreeMap.mem_iff_isSome_getElem?, hp]
        rfl
      · exact ⟨j, hj, hremoved⟩

theorem not_safe_of_stale (h : Shows r s) (hr : Kept radio rid r) (hstale : Stale radio r) :
    ¬Safe s := by
  intro hsafe
  apply (hsafe rid radio (by rw [h.currentCopy]; exact hr.named.1) "" s).2
  obtain ⟨i, hi, hremoved⟩ := hstale
  simp only [getChildByName]
  rw [bind_apply, getObject_of_lt (by rw [h.objects]; exact hr.radio_lt), h.objects, h.currentCopy]
  show (findByName _ _ _ >>= _) s = _
  rw [bind_apply, findByName_stale h hr _ (fun j hj => hr.children rid radio hr.named.1 j
    (TreeSet.mem_toList.1 hj)) ⟨i, TreeSet.mem_toList.2 hi, hremoved⟩]

theorem not_closed_of_stale (h : Shows r s) (hr : Kept radio rid r) (hstale : Stale radio r) :
    ¬Closed s := by
  intro hclosed
  obtain ⟨i, hi, hremoved⟩ := hstale
  apply (hr.removed i hremoved).1
  rw [← h.currentCopy]
  exact hclosed rid radio (by rw [h.currentCopy]; exact hr.named.1) i (by rw [h.objects]; exact hi)

theorem closed_of_noneRemoved (h : Shows r s) (hr : Kept radio rid r)
    (hnone : ∀ i, i ∉ r.container.mRemovedObjects) : Closed s := by
  intro i p hp j hj
  rw [h.currentCopy] at hp ⊢
  rw [h.objects] at hj
  exact (hr.children i p hp j hj).resolve_right (hnone j)

section
variable (h : Shows r s) (hr : Kept radio rid r) (hnone : ∀ i, i ∉ r.container.mRemovedObjects)
include h hr hnone

omit h in
/-- Unless something has been removed, what is looked up is an object that has been made. -/
theorem noNull_getActive (i : ObjectId) :
    Post (ofExcept (r.container.getObject i)) s
      (fun x s' => s' = s ∧ ∃ p, x = some p ∧ p < r.objects.next)
      fun e _ => e ≠ .nullDereference := by
  cases hp : r.container.mActiveObjects[i]? with
  | some p =>
    rw [getObject_of_active hp]
    exact ⟨rfl, p, rfl, (hr.keyed i p hp).1⟩
  | none =>
    have hi : i ∉ r.container.mActiveObjects := fun hmem => by
      rw [TreeMap.mem_iff_isSome_getElem?, hp] at hmem
      cases hmem
    simp only [ObjectContainer.getObject]
    rw [if_neg]
    · exact fun hn => by cases hn
    · rw [Bool.or_eq_true, TreeMap.contains_iff_mem, TreeSet.contains_iff_mem]
      exact fun hmem => hmem.elim hi (hnone i)

omit hr hnone in
theorem noNull_getObject {p : ObjectPtr} (hp : p < r.objects.next) :
    Post (getObject p) s (fun _ s' => s' = s) fun e _ => e ≠ .nullDereference := by
  simp only [Post]
  rw [getObject_of_lt (by rwa [h.objects])]

theorem noNull_findByName (name : String) (l : List ObjectId) :
    Post (findByName name r.container l) s (fun _ s' => s' = s) fun e _ => e ≠ .nullDereference := by
  induction l with
  | nil => exact rfl
  | cons i l ih =>
    apply Post.bind (noNull_getActive hr hnone i)
    rintro _ s ⟨rfl, p, rfl, hp⟩
    apply Post.bind (noNull_getObject h hp)
    rintro o s rfl
    split_ifs
    · exact rfl
    · exact ih

theorem noNull_findAmongChildren (name : String) (l : List ObjectId) :
    Post (findAmongChildren name r.container l) s (fun _ s' => s' = s)
      fun e _ => e ≠ .nullDereference := by
  induction l with
  | nil => exact rfl
  | cons i l ih =>
    apply Post.bind (noNull_getActive hr hnone i)
    rintro _ s ⟨rfl, p, rfl, hp⟩
    apply Post.bind (noNull_getObject h hp)
    rintro o s rfl
    apply Post.bind (noNull_findByName h hr hnone name _)
    rintro x s rfl
    cases x with
    | some q => exact rfl
    | none => exact ih

omit h hr hnone in
theorem noNull_found (failure : String) (x : Option ObjectPtr) (s : Core ω) :
    Post (found failure x) s (fun _ s' => s' = s) fun e _ => e ≠ .nullDereference := by
  cases x with
  | some p => exact rfl
  | none => exact fun hn => by cases hn

theorem safe_of_noneRemoved : Safe s := by
  intro i p hp name s'
  rw [h.currentCopy] at hp ⊢
  obtain ⟨hlt, -⟩ := hr.keyed i p hp
  constructor
  · refine fun hnull => Post.error (E := fun e _ => e ≠ .nullDereference)
      (Q := fun _ _ => True) ?_ hnull rfl
    apply Post.bind (noNull_getObject h hlt)
    rintro o s rfl
    apply Post.bind (noNull_findAmongChildren h hr hnone name _)
    rintro x s rfl
    exact Post.mono (noNull_found _ x _) (fun _ _ _ => trivial) fun _ _ he => he
  · refine fun hnull => Post.error (E := fun e _ => e ≠ .nullDereference)
      (Q := fun _ _ => True) ?_ hnull rfl
    apply Post.bind (noNull_getObject h hlt)
    rintro o s rfl
    apply Post.bind (noNull_findByName h hr hnone name _)
    rintro x s rfl
    exact Post.mono (noNull_found _ x _) (fun _ _ _ => trivial) fun _ _ he => he

end

end Registry

/-! ## Closedness -/

/-- The state has a registry that keeps what histories keep. -/
theorem Populated.kept {s : Core ω} (h : Populated s) : ∃ radio rid r, Registry.Shows r s ∧
    Registry.Kept radio rid r ∧ ∀ i, i ∉ r.container.mRemovedObjects := by
  obtain ⟨rid, radio, hunique, hactive, hname⟩ := h.radio
  refine ⟨radio, rid, ⟨s.objects, s.mObjectList.currentCopy, s.mObjectList.mCurrentObjectId⟩,
    ⟨rfl, h.current.symm, rfl, h.made, rfl⟩, ⟨fun i p hp => ?_, hunique, ⟨hactive, hname⟩,
      fun i p hp => ?_, fun i p hp j hj => .inl (h.children i p hp j hj),
      fun i hi => absurd hi (h.removed i)⟩, h.removed⟩
  · obtain ⟨hlt, hid, hle, hne, -⟩ := h.keyed i p hp
    exact ⟨hlt, hid, hle, hne⟩
  · obtain ⟨-, -, -, -, hne⟩ := h.keyed i p hp.1
    exact absurd hp.2 hne

/-- Children of active objects are active, and lookups by name do not meet a null pointer, as long
as only additions have taken place; after the first removal neither holds. -/
theorem closed_iff {s₀ s : Core ω} {ops : List VehicleOp} (h₀ : Populated s₀)
    (hs : ops.forM VehicleOp.perform s₀ = .ok () s) :
    (Closed s ↔ ∀ op ∈ ops, op.IsAdd) ∧ (Safe s ↔ ∀ op ∈ ops, op.IsAdd) := by
  obtain ⟨radio, rid, r₀, hshows₀, hkept₀, hnone⟩ := h₀.kept
  obtain ⟨r, hshows, hkept, hstale, hadds⟩ := (Registry.forM_keeps ops hshows₀ hkept₀).ok hs
  by_cases hall : ∀ op ∈ ops, op.IsAdd
  · have hnone' : ∀ i, i ∉ r.container.mRemovedObjects := by rwa [hadds hall]
    exact ⟨iff_of_true (Registry.closed_of_noneRemoved hshows hkept hnone') hall,
      iff_of_true (Registry.safe_of_noneRemoved hshows hkept hnone') hall⟩
  · exact ⟨iff_of_false (Registry.not_closed_of_stale hshows hkept (hstale (.inr hall))) hall,
      iff_of_false (Registry.not_safe_of_stale hshows hkept (hstale (.inr hall))) hall⟩

/-! ## A radio and one vehicle -/

theorem populated_radioCore : Populated radioCore := by
  have hremoved : radioCore.mObjectList.currentCopy.mRemovedObjects.isEmpty = true := by
    decide +kernel
  have hchildren : (radioCore.objects.cell 0).mChildIdList.isEmpty = true := by decide +kernel
  refine ⟨rfl, by decide, ⟨2, 0, by decide +kernel, by decide +kernel, by decide +kernel⟩,
    fun i p hp => ?_, fun i p hp j hj => ?_, fun i => TreeSet.not_mem_of_isEmpty hremoved⟩
  · obtain ⟨rfl, rfl⟩ := radioCore_active hp
    decide +kernel
  · obtain ⟨rfl, rfl⟩ := radioCore_active hp
    exact absurd hj (TreeSet.not_mem_of_isEmpty hchildren)

/-- A vehicle is added and removed. -/
def addAndRemove : List VehicleOp :=
  [.add (some ((∅ : AnyMap).insert "id" (.string "a"))) 0, .remove 4]

def vehicleGone : Core Unit := (addAndRemove.forM VehicleOp.perform radioCore).state

theorem addAndRemove_returns :
    addAndRemove.forM VehicleOp.perform radioCore = .ok () vehicleGone :=
  Result.eq_ok (by decide +kernel)

theorem closed_iff_vehicleGone :
    (Closed vehicleGone ↔ ∀ op ∈ addAndRemove, op.IsAdd) ∧
      (Safe vehicleGone ↔ ∀ op ∈ addAndRemove, op.IsAdd) :=
  closed_iff populated_radioCore addAndRemove_returns

/-- The radio keeps the child 3, its microchannel, after that has been removed. -/
theorem not_closed : Populated radioCore ∧
    addAndRemove.forM VehicleOp.perform radioCore = .ok () vehicleGone ∧
    ¬Closed vehicleGone ∧ ¬Safe vehicleGone := by
  refine ⟨populated_radioCore, addAndRemove_returns, fun hclosed => ?_, fun hsafe => ?_⟩
  · have hactive : (3 : ObjectId) ∉ vehicleGone.mObjectList.currentCopy.mActiveObjects := by
      decide +kernel
    exact hactive (hclosed 2 0 (by decide +kernel) 3 (by decide +kernel))
  · have hnull : (match getChildByName 0 "Microchannel" vehicleGone.mObjectList.currentCopy
        vehicleGone with
      | .error e _ => some e
      | .ok .. => none) = some .nullDereference := by decide +kernel
    cases hx : getChildByName 0 "Microchannel" vehicleGone.mObjectList.currentCopy vehicleGone with
    | ok p s =>
      rw [hx] at hnull
      cases hnull
    | error e s =>
      rw [hx] at hnull
      rw [Option.some.inj hnull] at hx
      exact (hsafe 2 0 (by decide +kernel) "Microchannel" s).2 hx

end Cosidia
