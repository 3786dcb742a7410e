import Cosidia.Verify.Relations
import Cosidia.Verify.Resolution
import Mathlib.Data.List.Pairwise

/-!
# The population of vehicles

A `Population` tells which vehicles there are and which objects have been made for each. Adding and
removing vehicles act on it as the code does on the container, and do not throw.
-/

namespace Cosidia

open EStateM Std

/-- A vehicle, with the last id and the first free pointer of the time when it was made. -/
structure Vehicle where
  externalId : String
  lastId : Int
  next : Nat
  deriving DecidableEq, Repr

namespace Vehicle

def channelId (v : Vehicle) : ObjectId := v.lastId + 1
def vehicleId (v : Vehicle) : ObjectId := v.lastId + 1 + 1
def routerId (v : Vehicle) : ObjectId := v.lastId + 1 + 1 + 1

def channel (v : Vehicle) : ObjectPtr := v.next + 1
def vehicle (v : Vehicle) : ObjectPtr := v.next + 2
def router (v : Vehicle) : ObjectPtr := v.next

/-- What the remover is to return for the vehicle. -/
def ids (v : Vehicle) : List ObjectId := [v.vehicleId, v.channelId, v.routerId]

/-- The objects of the vehicle. -/
def parts (v : Vehicle) : List (ObjectId × ObjectPtr) :=
  [(v.vehicleId, v.vehicle), (v.channelId, v.channel), (v.routerId, v.router)]

/-- The microchannel, `radioId` being the id of the radio. -/
def channelObject (radioId : ObjectId) (v : Vehicle) : BaseObject where
  mObjectId := v.channelId
  mObjectName := "Microchannel"
  mParentList := (∅ : TreeSet ObjectId).insert radioId
  mChildIdList := ((∅ : TreeSet ObjectId).insert v.vehicleId).insert v.routerId

def vehicleObject (v : Vehicle) : BaseObject where
  mObjectId := v.vehicleId
  mObjectName := "VehicleObject"
  mExternalId := some v.externalId
  mParentList := (∅ : TreeSet ObjectId).insert v.channelId

def routerObject (v : Vehicle) : BaseObject where
  mObjectId := v.routerId
  mObjectName := "Router"
  mParentList := (∅ : TreeSet ObjectId).insert v.channelId

/-- `v` has been made after `w`. -/
def After (v w : Vehicle) : Prop := w.lastId + 3 ≤ v.lastId ∧ w.next + 3 ≤ v.next

theorem mem_parts {v : Vehicle} {i : ObjectId} {p : ObjectPtr} : (i, p) ∈ v.parts ↔
    (i = v.vehicleId ∧ p = v.vehicle) ∨ (i = v.channelId ∧ p = v.channel) ∨
      (i = v.routerId ∧ p = v.router) := by
  simp [parts]

theorem mem_ids {v : Vehicle} {i : ObjectId} : i ∈ v.ids ↔ ∃ p, (i, p) ∈ v.parts := by
  simp [ids, parts, exists_or]

theorem nodup_ids (v : Vehicle) : v.ids.Nodup := by
  have hne : ∀ k : Int, k + 1 ≠ k := fun k => by omega
  have hne' : ∀ k : Int, k ≠ k + 1 + 1 := fun k => by omega
  simp [ids, vehicleId, channelId, routerId, hne, (hne _).symm, hne']

theorem range_of_mem_ids {v : Vehicle} {i : Int} (h : i ∈ v.ids) :
    v.lastId < i ∧ i ≤ v.lastId + 3 := by
  simp only [ids, vehicleId, channelId, routerId, List.mem_cons, List.not_mem_nil, or_false] at h
  omega

theorem lt_of_mem_parts (v : Vehicle) {i : ObjectId} {p : ObjectPtr} (h : (i, p) ∈ v.parts) :
    p < v.next + 3 := by
  rcases mem_parts.1 h with ⟨-, rfl⟩ | ⟨-, rfl⟩ | ⟨-, rfl⟩
  · exact Nat.lt_succ_self _
  · exact Nat.lt_succ_of_lt (Nat.lt_succ_self _)
  · exact Nat.lt_add_of_pos_right (by decide)

theorem After.disjoint {v w : Vehicle} (h : v.After w) : v.ids.Disjoint w.ids := by
  intro i hv hw
  have hle := h.1
  have hlt := (range_of_mem_ids hv).1
  have hle' := (range_of_mem_ids hw).2
  exact absurd (Int.lt_of_le_of_lt hle hlt) (Int.not_lt_of_ge hle')

end Vehicle

/-- What of an object is not bookkeeping of its actions. -/
def BaseObject.profile (o : BaseObject) : BaseObject :=
  { o with mActionManager := {}, mCurrentAction := 0, mFirstAction := true }

namespace Registry

variable {r₀ r : Registry} {radio : ObjectPtr} {rid : ObjectId} {vs : List Vehicle} {v : Vehicle}

/-- The vehicles `vs`, the newest first, have been added to `r₀`, where `radio` is the radio. -/
structure Houses (radio : ObjectPtr) (rid : ObjectId) (r₀ : Registry) (vs : List Vehicle)
    (r : Registry) : Prop where
  lastId : r₀.lastId ≤ r.lastId
  next : r₀.objects.next ≤ r.objects.next
  unique : r.container.mUniqueObjects = r₀.container.mUniqueObjects
  active : ∀ (i : ObjectId) (p : ObjectPtr), r.container.mActiveObjects[i]? = some p ↔
    r₀.container.mActiveObjects[i]? = some p ∨ ∃ v ∈ vs, (i, p) ∈ v.parts
  old : ∀ p < r₀.objects.next,
    (r.objects.cell p).mObjectId = (r₀.objects.cell p).mObjectId ∧
    (r.objects.cell p).mObjectName = (r₀.objects.cell p).mObjectName ∧
    (r.objects.cell p).mParentList = (r₀.objects.cell p).mParentList
  channel : ∀ v ∈ vs, (r.objects.cell v.channel).profile = v.channelObject rid
  vehicle : ∀ v ∈ vs, (r.objects.cell v.vehicle).profile = v.vehicleObject
  router : ∀ v ∈ vs, (r.objects.cell v.router).profile = v.routerObject
  after : vs.Pairwise Vehicle.After
  range : ∀ v ∈ vs, r₀.lastId ≤ v.lastId ∧ v.lastId + 3 ≤ r.lastId ∧
    r₀.objects.next ≤ v.next ∧ v.next + 3 ≤ r.objects.next
  removed : ∀ i ∈ r.container.mRemovedObjects,
    i ∉ r.container.mActiveObjects ∧ (i : Int) ≤ r.lastId

/-- The registry to which vehicles are added. -/
structure Base (radio : ObjectPtr) (rid : ObjectId) (r₀ : Registry) : Prop where
  counted : Counted r₀
  unique : r₀.container.mUniqueObjects["Radio"]? = some rid
  radio : r₀.container.mActiveObjects[rid]? = some radio
  keyed : ∀ (i : ObjectId) (p : ObjectPtr), r₀.container.mActiveObjects[i]? = some p →
    p < r₀.objects.next ∧ (r₀.objects.cell p).mObjectId = i
  removed : ∀ i ∈ r₀.container.mRemovedObjects,
    i ∉ r₀.container.mActiveObjects ∧ (i : Int) ≤ r₀.lastId

theorem Base.houses (h : Base radio rid r₀) : Houses radio rid r₀ [] r₀ where
  lastId := Int.le_refl _
  next := Nat.le_refl _
  unique := rfl
  active i p := by simp
  old p _ := ⟨rfl, rfl, rfl⟩
  channel := nofun
  vehicle := nofun
  router := nofun
  after := .nil
  range := nofun
  removed := h.removed

section
variable (hb : Base radio rid r₀) (h : Houses radio rid r₀ vs r)
include hb h

theorem Houses.radio_lt : radio < r.objects.next :=
  (hb.keyed rid radio hb.radio).1.trans_le h.next

theorem Houses.radio_active : r.container.mActiveObjects[rid]? = some radio :=
  (h.active rid radio).2 (.inl hb.radio)

theorem Houses.radio_id : (r.objects.cell radio).mObjectId = rid := by
  obtain ⟨hlt, hid⟩ := hb.keyed rid radio hb.radio
  rw [(h.old radio hlt).1, hid]

theorem Houses.getUnique : r.container.getUnique "Radio" = .ok radio := by
  simp only [ObjectContainer.getUnique]
  rw [h.unique, hb.unique]
  simp only [h.radio_active hb]

theorem Houses.counted : Counted r := by
  refine ⟨Int.le_trans hb.counted.lastId h.lastId, fun i hi => ?_⟩
  obtain ⟨p, hp⟩ := Option.isSome_iff_exists.1 (TreeMap.mem_iff_isSome_getElem?.1 hi)
  rcases (h.active i p).1 hp with hp | ⟨v, hv, hmem⟩
  · obtain ⟨hvalid, hle⟩ := hb.counted.active i (by rw [TreeMap.mem_iff_isSome_getElem?, hp]; rfl)
    exact ⟨hvalid, Int.le_trans hle h.lastId⟩
  · obtain ⟨hlow, hhigh⟩ := Vehicle.range_of_mem_ids (Vehicle.mem_ids.2 ⟨p, hmem⟩)
    obtain ⟨hle, hle', -⟩ := h.range v hv
    have hpos := hb.counted.lastId
    have hvalid : ∀ j : Int, v.lastId < j → -1 < j := fun j hj => by omega
    exact ⟨decide_eq_true (hvalid i hlow), Int.le_trans hhigh hle'⟩

/-- The objects that are active have been made. -/
theorem Houses.pointer_lt {i : ObjectId} {p : ObjectPtr}
    (hp : r.container.mActiveObjects[i]? = some p) : p < r.objects.next := by
  rcases (h.active i p).1 hp with hp | ⟨v, hv, hpart⟩
  · exact (hb.keyed i p hp).1.trans_le h.next
  · obtain ⟨-, -, -, hhigh⟩ := h.range v hv
    have hlt : ∀ k : Nat, k < 3 → v.next + k < r.objects.next := fun k hk => by omega
    rcases Vehicle.mem_parts.1 hpart with ⟨-, rfl⟩ | ⟨-, rfl⟩ | ⟨-, rfl⟩
    · exact hlt 2 (by decide)
    · exact hlt 1 (by decide)
    · exact hlt 0 (by decide)

omit hb in
/-- The objects of the vehicle have been made. -/
theorem Houses.parts_lt {p : ObjectPtr} {i : ObjectId} (hv : v ∈ vs) (hp : (i, p) ∈ v.parts) :
    r₀.objects.next ≤ p ∧ p < r.objects.next := by
  obtain ⟨-, -, hlow, hhigh⟩ := h.range v hv
  have hrange : ∀ k : Nat, k < 3 → r₀.objects.next ≤ v.next + k ∧ v.next + k < r.objects.next :=
    fun k hk => by omega
  rcases Vehicle.mem_parts.1 hp with ⟨-, rfl⟩ | ⟨-, rfl⟩ | ⟨-, rfl⟩
  · exact hrange 2 (by decide)
  · exact hrange 1 (by decide)
  · exact hrange 0 (by decide)

end

/-! ## Adding a vehicle -/

/-- The vehicle that is added next. -/
def newVehicle (r : Registry) (externalId : String) : Vehicle := ⟨externalId, r.lastId, r.objects.next⟩

/-- The objects of `v` have joined the active ones, as the newest of all. -/
structure Joined (radio : ObjectPtr) (rid : ObjectId) (v : Vehicle) (r r' : Registry) : Prop where
  newest : v.lastId = r.lastId
  lastId : r'.lastId = r.lastId + 1 + 1 + 1
  next : r.objects.next ≤ r'.objects.next
  made : v.next + 3 ≤ r'.objects.next
  unique : r'.container.mUniqueObjects = r.container.mUniqueObjects
  removed : r'.container.mRemovedObjects = r.container.mRemovedObjects
  active : ∀ i : ObjectId, r'.container.mActiveObjects[i]? =
    if r.lastId + 1 + 1 + 1 = i then some v.router
    else if r.lastId + 1 + 1 = i then some v.vehicle
    else if r.lastId + 1 = i then some v.channel
    else r.container.mActiveObjects[i]?
  old : ∀ p < v.next, ∃ children,
    r'.objects.cell p = { r.objects.cell p with mChildIdList := children } ∧
      (p ≠ radio → children = (r.objects.cell p).mChildIdList)
  channel : (r'.objects.cell v.channel).profile = v.channelObject rid
  vehicle : (r'.objects.cell v.vehicle).profile = v.vehicleObject
  router : (r'.objects.cell v.router).profile = v.routerObject

namespace Joined

variable {r' : Registry} (hj : Joined radio rid v r r')
include hj

theorem active_old {i : Int} (hi : i ≤ r.lastId) :
    r'.container.mActiveObjects[i]? = r.container.mActiveObjects[i]? := by
  have hne : ∀ k : Int, k = i → k ≤ r.lastId := fun k hk => hk ▸ hi
  rw [hj.active, if_neg, if_neg, if_neg]
  · exact fun heq => by have := hne _ heq; omega
  · exact fun heq => by have := hne _ heq; omega
  · exact fun heq => by have := hne _ heq; omega

theorem active_new {i : ObjectId} {p : ObjectPtr} (h : (i, p) ∈ v.parts) :
    r'.container.mActiveObjects[i]? = some p := by
  have hne : ∀ k : Int, k + 1 ≠ k := fun k => by omega
  have hne' : ∀ k : Int, k + 1 + 1 ≠ k := fun k => by omega
  rw [hj.active, ← hj.newest]
  rcases Vehicle.mem_parts.1 h with ⟨rfl, rfl⟩ | ⟨rfl, rfl⟩ | ⟨rfl, rfl⟩
  · exact (if_neg (hne _)).trans (if_pos rfl)
  · exact (if_neg (hne' _)).trans ((if_neg (hne _)).trans (if_pos rfl))
  · exact if_pos rfl

theorem active_cases {i : ObjectId} {p : ObjectPtr}
    (h : r'.container.mActiveObjects[i]? = some p) :
    (i, p) ∈ v.parts ∨ r.container.mActiveObjects[i]? = some p := by
  rw [hj.active, ← hj.newest] at h
  split_ifs at h with h3 h2 h1
  · exact .inl (Vehicle.mem_parts.2 (.inr (.inr ⟨h3.symm, (Option.some.inj h).symm⟩)))
  · exact .inl (Vehicle.mem_parts.2 (.inl ⟨h2.symm, (Option.some.inj h).symm⟩))
  · exact .inl (Vehicle.mem_parts.2 (.inr (.inl ⟨h1.symm, (Option.some.inj h).symm⟩)))
  · exact .inr h

end Joined

/-- Another vehicle joins, whose objects are newer than those of the vehicles `vs`. -/
theorem Houses.join {r' : Registry} (hb : Base radio rid r₀) (h : Houses radio rid r₀ vs r)
    (hj : Joined radio rid v r r') (hlow : r₀.objects.next ≤ v.next)
    (hvs : ∀ w ∈ vs, w.next + 3 ≤ v.next) : Houses radio rid r₀ (v :: vs) r' := by
  have hradio : radio < r₀.objects.next := (hb.keyed rid radio hb.radio).1
  have hlast : r.lastId ≤ r'.lastId := by
    rw [hj.lastId]
    exact (by omega : ∀ k : Int, k ≤ k + 1 + 1 + 1) _
  have hcell : ∀ {p : ObjectPtr} {i : ObjectId} {w : Vehicle}, w ∈ vs → (i, p) ∈ w.parts →
      r'.objects.cell p = r.objects.cell p := by
    intro p i w hw hp
    obtain ⟨children, heq, hne⟩ := hj.old p ((w.lt_of_mem_parts hp).trans_le (hvs w hw))
    rw [heq, hne fun heq => ?_]
    exact absurd (heq ▸ hradio) (Nat.not_lt_of_ge (h.parts_lt hw hp).1)
  have hkeep : ∀ {i : ObjectId} {p : ObjectPtr}, r.container.mActiveObjects[i]? = some p →
      r'.container.mActiveObjects[i]? = some p := by
    intro i p hp
    rwa [hj.active_old]
    exact ((h.counted hb).active i (by rw [TreeMap.mem_iff_isSome_getElem?, hp]; rfl)).2
  refine ⟨Int.le_trans h.lastId hlast, h.next.trans hj.next, hj.unique.trans h.unique,
    fun i p => ⟨fun hp => ?_, fun hp => ?_⟩, fun p hp => ?_, ?_, ?_, ?_, ?_, ?_, fun i hi => ?_⟩
  · rcases hj.active_cases hp with hpart | hp
    · exact .inr ⟨v, List.mem_cons_self .., hpart⟩
    · exact ((h.active i p).1 hp).imp_right fun ⟨w, hw, hmem⟩ => ⟨w, List.mem_cons_of_mem _ hw, hmem⟩
  · rcases hp with hp | ⟨w, hw, hmem⟩
    · exact hkeep ((h.active i p).2 (.inl hp))
    · rcases List.mem_cons.1 hw with rfl | hw
      · exact hj.active_new hmem
      · exact hkeep ((h.active i p).2 (.inr ⟨w, hw, hmem⟩))
  · obtain ⟨children, heq, -⟩ := hj.old p (hp.trans_le hlow)
    rw [heq]
    exact h.old p hp
  · refine List.forall_mem_cons.2 ⟨hj.channel, fun w hw => ?_⟩
    rw [hcell hw (Vehicle.mem_parts.2 (.inr (.inl ⟨rfl, rfl⟩))), h.channel w hw]
  · refine List.forall_mem_cons.2 ⟨hj.vehicle, fun w hw => ?_⟩
    rw [hcell hw (Vehicle.mem_parts.2 (.inl ⟨rfl, rfl⟩)), h.vehicle w hw]
  · refine List.forall_mem_cons.2 ⟨hj.router, fun w hw => ?_⟩
    rw [hcell hw (Vehicle.mem_parts.2 (.inr (.inr ⟨rfl, rfl⟩))), h.router w hw]
  · refine List.pairwise_cons.2 ⟨fun w hw => ⟨?_, hvs w hw⟩, h.after⟩
    rw [hj.newest]
    exact (h.range w hw).2.1
  · refine List.forall_mem_cons.2 ⟨⟨hj.newest ▸ h.lastId, ?_, hlow, hj.made⟩, fun w hw => ?_⟩
    · rw [hj.newest, hj.lastId]
      exact (by omega : ∀ k : Int, k + 3 ≤ k + 1 + 1 + 1) _
    · obtain ⟨h1, h2, h3, h4⟩ := h.range w hw
      exact ⟨h1, Int.le_trans h2 hlast, h3, h4.trans hj.next⟩
  · rw [hj.removed] at hi
    obtain ⟨hactive, hle⟩ := h.removed i hi
    refine ⟨?_, Int.le_trans hle hlast⟩
    rwa [TreeMap.mem_iff_isSome_getElem?, hj.active_old hle, ← TreeMap.mem_iff_isSome_getElem?]

theorem joined_addVehicle (externalId : String) (hradio : radio < r.objects.next)
    (hid : (r.objects.cell radio).mObjectId = rid) :
    Joined radio rid (r.newVehicle externalId) r (r.addVehicle radio externalId) where
  newest := rfl
  lastId := addVehicle_lastId externalId
  next := Nat.le_add_right r.objects.next 3
  made := Nat.le_refl _
  unique := rfl
  removed := rfl
  active := addVehicle_active externalId hradio
  old p hp := by
    rw [addVehicle_old externalId hradio hp]
    split_ifs with heq
    · rw [heq]
      exact ⟨_, rfl, fun hne => absurd rfl hne⟩
    · exact ⟨_, rfl, fun _ => rfl⟩
  channel := by
    rw [show (r.newVehicle externalId).channel = r.objects.next + 1 from rfl,
      addVehicle_channel externalId hradio, hid]
    rfl
  vehicle := congrArg BaseObject.profile (addVehicle_vehicle externalId hradio)
  router := congrArg BaseObject.profile (addVehicle_router externalId hradio)

theorem Houses.add (hb : Base radio rid r₀) (h : Houses radio rid r₀ vs r) (externalId : String) :
    Houses radio rid r₀ (r.newVehicle externalId :: vs) (r.addVehicle radio externalId) :=
  h.join hb (joined_addVehicle externalId (h.radio_lt hb) (h.radio_id hb)) h.next
    fun w hw => (h.range w hw).2.2.2

/-! ## Removing a vehicle -/

/-- The objects with the ids `l` are removed. -/
abbrev removeAll (l : List ObjectId) (r : Registry) : Registry := l.foldl (fun r id => r.remove id) r

theorem removeAll_active (l : List ObjectId) (r : Registry) (i : ObjectId) :
    (r.removeAll l).container.mActiveObjects[i]? =
      if i ∈ l then none else r.container.mActiveObjects[i]? := by
  induction l generalizing r with
  | nil => exact (if_neg List.not_mem_nil).symm
  | cons id l ih =>
    apply (ih (r.remove id)).trans
    have hone : (r.remove id).container.mActiveObjects[i]? =
        if id = i then none else r.container.mActiveObjects[i]? :=
      TreeMap.getElem?_erase.trans (if_congr Std.compare_eq_iff_eq rfl rfl)
    rw [hone]
    by_cases hl : i ∈ l
    · rw [if_pos hl, if_pos (List.mem_cons_of_mem _ hl)]
    · by_cases hid : id = i
      · rw [if_neg hl, if_pos hid, if_pos (hid ▸ List.mem_cons_self ..)]
      · rw [if_neg hl, if_neg hid, if_neg fun hmem => (List.mem_cons.1 hmem).elim (Ne.symm hid) hl]

theorem removeAll_lastId (l : List ObjectId) (r : Registry) : (r.removeAll l).lastId = r.lastId := by
  induction l generalizing r with
  | nil => rfl
  | cons id l ih => exact ih (r.remove id)

theorem removeAll_unique (l : List ObjectId) (r : Registry) :
    (r.removeAll l).container.mUniqueObjects = r.container.mUniqueObjects := by
  induction l generalizing r with
  | nil => rfl
  | cons id l ih => exact ih (r.remove id)

/-- Different vehicles have no ids in common. -/
theorem Houses.disjoint (h : Houses radio rid r₀ vs r) {w : Vehicle} (hv : v ∈ vs) (hw : w ∈ vs)
    (hne : v ≠ w) : v.ids.Disjoint w.ids :=
  have : Std.Symm fun v w : Vehicle => v.ids.Disjoint w.ids := ⟨fun _ _ hd _ hw hv => hd hv hw⟩
  List.Pairwise.forall (h.after.imp fun ha => ha.disjoint) hv hw hne

/-- A vehicle is known by the id of its router. -/
theorem Houses.eq_of_routerId (h : Houses radio rid r₀ vs r) {w : Vehicle} (hv : v ∈ vs)
    (hw : w ∈ vs) (hid : v.routerId = w.routerId) : v = w := by
  by_contra hne
  have hmem : ∀ u : Vehicle, u.routerId ∈ u.ids := fun u => by simp [Vehicle.ids]
  exact h.disjoint hv hw hne (hmem v) (hid ▸ hmem w)

theorem Houses.nodup (h : Houses radio rid r₀ vs r) : vs.Nodup :=
  h.after.imp fun {v w} ha heq => by
    have hle := ha.1
    rw [heq] at hle
    omega

theorem Houses.remove (hb : Base radio rid r₀) (h : Houses radio rid r₀ vs r) (hv : v ∈ vs) :
    Houses radio rid r₀ (vs.erase v) (r.removeAll v.ids) := by
  have hsub : ∀ {w : Vehicle}, w ∈ vs.erase v → w ∈ vs := List.mem_of_mem_erase
  have hobjects : (r.removeAll v.ids).objects = r.objects := removeAll_objects v.ids r
  refine ⟨?_, ?_, ?_, fun i p => ?_, fun p hp => ?_, ?_, ?_, ?_, h.after.erase v, ?_, fun i hi => ?_⟩
  · rw [removeAll_lastId]
    exact h.lastId
  · rw [hobjects]
    exact h.next
  · rw [removeAll_unique]
    exact h.unique
  · rw [removeAll_active]
    constructor
    · intro hp
      split_ifs at hp with hmem
      refine ((h.active i p).1 hp).imp_right fun ⟨w, hw, hpart⟩ => ⟨w, ?_, hpart⟩
      refine (List.mem_erase_of_ne ?_).2 hw
      rintro rfl
      exact hmem (Vehicle.mem_ids.2 ⟨p, hpart⟩)
    · rintro (hp | ⟨w, hw, hpart⟩)
      · rw [if_neg, h.active]
        · exact .inl hp
        · intro hmem
          have hle := (hb.counted.active i (by rw [TreeMap.mem_iff_isSome_getElem?, hp]; rfl)).2
          have hlt := (Vehicle.range_of_mem_ids hmem).1
          exact absurd (Int.lt_of_le_of_lt (h.range v hv).1 hlt) (Int.not_lt_of_ge hle)
      · obtain ⟨hne, hw⟩ := (h.nodup.mem_erase_iff).1 hw
        rw [if_neg, h.active]
        · exact .inr ⟨w, hw, hpart⟩
        · intro hmem
          exact h.disjoint hw hv hne (Vehicle.mem_ids.2 ⟨p, hpart⟩) hmem
  · rw [hobjects]
    exact h.old p hp
  · intro w hw
    rw [hobjects]
    exact h.channel w (hsub hw)
  · intro w hw
    rw [hobjects]
    exact h.vehicle w (hsub hw)
  · intro w hw
    rw [hobjects]
    exact h.router w (hsub hw)
  · intro w hw
    rw [hobjects, removeAll_lastId]
    exact h.range w (hsub hw)
  · rw [removeAll_lastId, TreeMap.mem_iff_isSome_getElem?, removeAll_active]
    rcases (mem_removeAll v.ids r).1 hi with hmem | hmem
    · rw [if_pos hmem]
      exact ⟨nofun, Int.le_trans (Vehicle.range_of_mem_ids hmem).2 (h.range v hv).2.1⟩
    · obtain ⟨hactive, hle⟩ := h.removed i hmem
      refine ⟨?_, hle⟩
      split_ifs
      · exact nofun
      · rwa [← TreeMap.mem_iff_isSome_getElem?]

/-! ## Neither throws -/

variable {ω : Type} {s : Core ω}

theorem getObject_ok (h : Shows r s) {p : ObjectPtr} (hp : p < r.objects.next) :
    getObject p s = .ok (r.objects.cell p) s := by
  rw [getObject_of_lt (by rwa [h.objects]), h.objects]

/-- Looking for the only one of some active objects that has a certain name. -/
theorem findByName_ok (h : Shows r s) (name : String) (l : List ObjectId)
    (hl : ∀ i ∈ l, ∃ p, r.container.mActiveObjects[i]? = some p ∧ p < r.objects.next)
    {q : ObjectPtr} (hq : ∃ i ∈ l, r.Named name i q)
    (honly : ∀ i ∈ l, ∀ p, r.Named name i p → p = q) :
    findByName name r.container l s = .ok (some q) s := by
  induction l with
  | nil =>
    obtain ⟨i, hi, -⟩ := hq
    cases hi
  | cons i l ih =>
    obtain ⟨p, hp, hlt⟩ := hl i (List.mem_cons_self ..)
    rw [findByName, bind_apply, getObject_of_active hp]
    show (getObject p >>= _) s = _
    rw [bind_apply, getObject_ok h hlt]
    dsimp only
    split_ifs with hname
    · rw [honly i (List.mem_cons_self ..) p ⟨hp, hname⟩]
      rfl
    · refine ih (fun j hj => hl j (List.mem_cons_of_mem _ hj)) ?_
        fun j hj => honly j (List.mem_cons_of_mem _ hj)
      obtain ⟨j, hj, hnamed⟩ := hq
      rcases List.mem_cons.1 hj with rfl | hj
      · rw [Option.some.inj (hnamed.1.symm.trans hp)] at hnamed
        exact absurd hnamed.2 hname
      · exact ⟨j, hj, hnamed⟩

section
variable (h : Houses radio rid r₀ vs r) (hv : v ∈ vs)
include h hv

theorem Houses.part_active {i : ObjectId} {p : ObjectPtr} (hp : (i, p) ∈ v.parts) :
    r.container.mActiveObjects[i]? = some p :=
  (h.active i p).2 (.inr ⟨v, hv, hp⟩)

theorem Houses.vehicle_active : r.container.mActiveObjects[v.vehicleId]? = some v.vehicle :=
  h.part_active hv (Vehicle.mem_parts.2 (.inl ⟨rfl, rfl⟩))

theorem Houses.channel_active : r.container.mActiveObjects[v.channelId]? = some v.channel :=
  h.part_active hv (Vehicle.mem_parts.2 (.inr (.inl ⟨rfl, rfl⟩)))

theorem Houses.router_active : r.container.mActiveObjects[v.routerId]? = some v.router :=
  h.part_active hv (Vehicle.mem_parts.2 (.inr (.inr ⟨rfl, rfl⟩)))

theorem Houses.vehicle_lt : v.vehicle < r.objects.next :=
  (h.parts_lt hv (Vehicle.mem_parts.2 (.inl ⟨rfl, rfl⟩))).2

theorem Houses.channel_lt : v.channel < r.objects.next :=
  (h.parts_lt hv (Vehicle.mem_parts.2 (.inr (.inl ⟨rfl, rfl⟩)))).2

theorem Houses.router_lt : v.router < r.objects.next :=
  (h.parts_lt hv (Vehicle.mem_parts.2 (.inr (.inr ⟨rfl, rfl⟩)))).2

/-- The children of the microchannel are the vehicle object and the router. -/
theorem Houses.mem_children {i : ObjectId} :
    i ∈ (r.objects.cell v.channel).mChildIdList ↔ i = v.vehicleId ∨ i = v.routerId := by
  have hchildren : (r.objects.cell v.channel).profile.mChildIdList =
    (v.channelObject rid).mChildIdList := congrArg BaseObject.mChildIdList (h.channel v hv)
  refine (iff_of_eq (congrArg (i ∈ ·) hchildren)).trans (TreeSet.mem_insert.trans ?_)
  rw [Std.compare_eq_iff_eq, mem_singleton_iff, or_comm]
  exact or_congr eq_comm eq_comm

/-- Among the children of the microchannel, the vehicle object and the router are found by name. -/
theorem Houses.findByName_children (hs : Shows r s) {name : String} {i : ObjectId} {q : ObjectPtr}
    (hq : (i = v.vehicleId ∧ q = v.vehicle ∧ name = "VehicleObject") ∨
      (i = v.routerId ∧ q = v.router ∧ name = "Router")) :
    findByName name r.container (r.objects.cell v.channel).mChildIdList.toList s =
      .ok (some q) s := by
  have hvehicle : (r.objects.cell v.vehicle).mObjectName = "VehicleObject" :=
    congrArg BaseObject.mObjectName (h.vehicle v hv)
  have hrouter : (r.objects.cell v.router).mObjectName = "Router" :=
    congrArg BaseObject.mObjectName (h.router v hv)
  refine findByName_ok hs name _ (fun j hj => ?_) ?_ fun j hj p hp => ?_
  · rcases (h.mem_children hv).1 (TreeSet.mem_toList.1 hj) with rfl | rfl
    · exact ⟨_, h.vehicle_active hv, h.vehicle_lt hv⟩
    · exact ⟨_, h.router_active hv, h.router_lt hv⟩
  · refine ⟨i, TreeSet.mem_toList.2 ((h.mem_children hv).2 (hq.imp (·.1) (·.1))), ?_⟩
    rcases hq with ⟨rfl, rfl, rfl⟩ | ⟨rfl, rfl, rfl⟩
    · exact ⟨h.vehicle_active hv, hvehicle⟩
    · exact ⟨h.router_active hv, hrouter⟩
  · obtain ⟨hactive, hname⟩ := hp
    rcases (h.mem_children hv).1 (TreeSet.mem_toList.1 hj) with rfl | rfl
    · obtain rfl := Option.some.inj ((h.vehicle_active hv).symm.trans hactive)
      rcases hq with ⟨-, hq, -⟩ | ⟨-, -, rfl⟩
      · exact hq.symm
      · exact absurd (hvehicle.symm.trans hname) (by decide)
    · obtain rfl := Option.some.inj ((h.router_active hv).symm.trans hactive)
      rcases hq with ⟨-, -, rfl⟩ | ⟨-, hq, -⟩
      · exact absurd (hrouter.symm.trans hname) (by decide)
      · exact hq.symm

/-- The siblings of the router or the vehicle object are found by name. -/
theorem Houses.getSiblingByName_ok (hs : Shows r s) {p : ObjectPtr}
    (hp : p = v.vehicle ∨ p = v.router) {name : String} {i : ObjectId} {q : ObjectPtr}
    (hq : (i = v.vehicleId ∧ q = v.vehicle ∧ name = "VehicleObject") ∨
      (i = v.routerId ∧ q = v.router ∧ name = "Router")) :
    getSiblingByName p name r.container s = .ok q s := by
  have hlt : p < r.objects.next := by
    rcases hp with rfl | rfl
    · exact h.vehicle_lt hv
    · exact h.router_lt hv
  have hparents : (r.objects.cell p).mParentList.toList = [v.channelId] := by
    rcases hp with rfl | rfl
    · exact congrArg (·.mParentList.toList) (h.vehicle v hv)
    · exact congrArg (·.mParentList.toList) (h.router v hv)
  have hfind : findAmongChildren name r.container [v.channelId] s = .ok (some q) s := by
    rw [findAmongChildren, bind_apply, getObject_of_active (h.channel_active hv)]
    show (getObject v.channel >>= _) s = _
    rw [bind_apply, getObject_ok hs (h.channel_lt hv)]
    show (findByName _ _ _ >>= _) s = _
    rw [bind_apply, h.findByName_children hv hs hq]
    rfl
  simp only [getSiblingByName]
  rw [bind_apply, getObject_ok hs hlt]
  show (findAmongChildren _ _ _ >>= _) s = _
  rw [bind_apply, hparents, hfind]
  rfl

theorem Houses.getObjectsToDelete_ok (hs : Shows r s) :
    ObjectRemover.getObjectsToDelete "vehicle" v.vehicleId r.container s = .ok v.ids s := by
  have hname : (r.objects.cell v.vehicle).mObjectName = "VehicleObject" :=
    congrArg BaseObject.mObjectName (h.vehicle v hv)
  have hchannel : (r.objects.cell v.channel).mObjectName = "Microchannel" :=
    congrArg BaseObject.mObjectName (h.channel v hv)
  have hparents : (r.objects.cell v.vehicle).mParentList.toList = [v.channelId] :=
    congrArg (·.mParentList.toList) (h.vehicle v hv)
  have hparent : getParentByName v.vehicle "Microchannel" r.container s = .ok v.channel s := by
    have hfind : findByName "Microchannel" r.container [v.channelId] s = .ok (some v.channel) s := by
      refine findByName_ok hs _ _ (fun j hj => ?_) ?_ fun j hj p hp => ?_
      · rw [List.mem_singleton.1 hj]
        exact ⟨_, h.channel_active hv, h.channel_lt hv⟩
      · exact ⟨_, List.mem_singleton_self _, h.channel_active hv, hchannel⟩
      · rw [List.mem_singleton.1 hj] at hp
        exact Option.some.inj (hp.1.symm.trans (h.channel_active hv))
    simp only [getParentByName]
    rw [bind_apply, getObject_ok hs (h.vehicle_lt hv)]
    show (findByName _ _ _ >>= _) s = _
    rw [bind_apply, hparents, hfind]
    rfl
  have hcid : (r.objects.cell v.channel).mObjectId = v.channelId :=
    congrArg BaseObject.mObjectId (h.channel v hv)
  have hrid : (r.objects.cell v.router).mObjectId = v.routerId :=
    congrArg BaseObject.mObjectId (h.router v hv)
  have hactive : ofExcept (r.container.getObject v.vehicleId) s = .ok (some v.vehicle) s := by
    rw [getObject_of_active (h.vehicle_active hv)]
    rfl
  have henforce : (enforce ((r.objects.cell v.vehicle).mObjectName == "VehicleObject")
      "Object to remove must be VehicleObject" : CoreM ω PUnit) s = .ok ⟨⟩ s := by
    rw [hname]
    rfl
  refine bind_eq_ok.2 ⟨_, s, hactive, bind_eq_ok.2 ⟨_, s, getObject_ok hs (h.vehicle_lt hv), ?_⟩⟩
  refine bind_eq_ok.2 ⟨_, s, henforce, bind_eq_ok.2 ⟨_, s, hparent, ?_⟩⟩
  refine bind_eq_ok.2 ⟨_, s, getObject_ok hs (h.channel_lt hv), ?_⟩
  refine bind_eq_ok.2 ⟨_, s, h.getSiblingByName_ok hv hs (.inl rfl) (.inr ⟨rfl, rfl, rfl⟩), ?_⟩
  refine bind_eq_ok.2 ⟨_, s, getObject_ok hs (h.router_lt hv), ?_⟩
  refine pure_eq_ok.2 ⟨?_, rfl⟩
  rw [hcid, hrid]
  rfl

end

theorem removeObject_ok (h : Shows r s) {id : ObjectId} (hid : id ∈ r.container.mActiveObjects) :
    ∃ s', Core.removeObjectFromSimulation id s = .ok () s' ∧ Shows (r.remove id) s' ∧
      SameActions s s' := by
  have hremove : ObjectContainer.remove true id s.mObjectList.workingCopy = .ok () _ :=
    ObjectContainer.remove_eq_ok.2 ⟨rfl, by rwa [h.workingCopy], rfl⟩
  obtain ⟨l', hl'⟩ : ∃ l', ObjectList.removeFromSimulation true id s.mObjectList = .ok () l' :=
    ⟨_, bind_eq_ok.2 ⟨(), _, zoom_eq_ok.2 ⟨_, hremove, rfl⟩, rfl⟩⟩
  have hok : Core.removeObjectFromSimulation id s = .ok () (s.writeObjectList l') :=
    zoom_eq_ok.2 ⟨l', hl', rfl⟩
  exact ⟨_, hok, ((shows_removeObjectFromSimulation h id).ok hok).2, rfl, rfl, rfl, rfl⟩

theorem removeAll_ok (l : List ObjectId) (h : Shows r s) (hl : l.Nodup)
    (hactive : ∀ id ∈ l, id ∈ r.container.mActiveObjects) :
    ∃ s', l.forM Core.removeObjectFromSimulation s = .ok () s' ∧ Shows (r.removeAll l) s' ∧
      SameActions s s' := by
  induction l generalizing r s with
  | nil => exact ⟨s, rfl, h, .refl s⟩
  | cons id l ih =>
    rw [List.nodup_cons] at hl
    obtain ⟨s₁, hok, h₁, hsame⟩ := removeObject_ok h (hactive id (List.mem_cons_self ..))
    obtain ⟨s₂, hok', h₂, hsame'⟩ := ih h₁ hl.2 fun i hi => by
      refine TreeMap.mem_erase.2 ⟨fun heq => ?_, hactive i (List.mem_cons_of_mem _ hi)⟩
      rw [Std.compare_eq_iff_eq.1 heq] at hl
      exact hl.1 hi
    exact ⟨s₂, bind_eq_ok.2 ⟨(), s₁, hok, hok'⟩, h₂, hsame.trans hsame'⟩

theorem makeObject_ok (h : Shows r s) (name : String) (externalId : Option String) :
    ∃ s', makeObject name externalId s = .ok r.objects.next s' ∧
      Shows (r.alloc { mObjectName := name, mExternalId := externalId }) s' ∧ SameActions s s' := by
  have hspec := shows_makeObject h name externalId
  refine ⟨{ s with objects := s.objects.alloc { mObjectName := name, mExternalId := externalId } },
    ?_, (hspec.ok rfl).2, rfl, rfl, rfl, rfl⟩
  rw [← h.objects]
  rfl

/-- The objects of a vehicle are made if the data has an id. -/
theorem createObject_ok (h : Shows r s) {data : FactoryData} {externalId : String}
    (hdata : data.getString "id" = .ok externalId)
    (hunique : r.container.getUnique "Radio" = .ok radio) :
    ∃ s', ObjectFactory.createObject "vehicle" r.container (some data) s =
        .ok (ObjectFactory.vehicleObjects radio (r.objects.next + 1) (r.objects.next + 2)
          r.objects.next) s' ∧
      Shows (r.makeVehicle externalId) s' ∧ SameActions s s' := by
  obtain ⟨s₁, hok₁, h₁, hsame₁⟩ := makeObject_ok h "Router" none
  obtain ⟨s₂, hok₂, h₂, hsame₂⟩ := makeObject_ok h₁ "Microchannel" none
  obtain ⟨s₃, hok₃, h₃, hsame₃⟩ := makeObject_ok h₂ "VehicleObject" (some "")
  set r₃ := ((r.alloc { mObjectName := "Router" }).alloc { mObjectName := "Microchannel" }).alloc
    { mObjectName := "VehicleObject", mExternalId := some "" } with hr₃
  have hlt : r.objects.next + 2 < r₃.objects.next := Nat.lt_succ_self _
  have hcell : r₃.objects.cell (r.objects.next + 2) =
      { mObjectName := "VehicleObject", mExternalId := some "" } := Heap.alloc_cell_self ..
  have hset : onObject (r.objects.next + 2) (BaseObject.setExternalId externalId) s₃ = .ok ()
      (s₃.writeObject (r.objects.next + 2)
        { mObjectName := "VehicleObject", mExternalId := some externalId }) := by
    simp only [onObject]
    rw [if_pos (by rwa [h₃.objects]), zoom_eq_ok]
    refine ⟨_, ?_, rfl⟩
    rw [h₃.objects, hcell]
    rfl
  refine ⟨s₃.writeObject (r.objects.next + 2)
    { mObjectName := "VehicleObject", mExternalId := some externalId }, ?_, ?_,
    ((hsame₁.trans hsame₂).trans hsame₃).trans ⟨rfl, rfl, rfl, rfl⟩⟩
  · show ObjectFactory.createVehicleObject r.container (some data) s = _
    simp only [ObjectFactory.createVehicleObject]
    refine bind_eq_ok.2 ⟨_, s₁, hok₁, bind_eq_ok.2 ⟨_, s₂, hok₂, bind_eq_ok.2 ⟨_, s₃, hok₃, ?_⟩⟩⟩
    refine bind_eq_ok.2 ⟨externalId, s₃, by rw [hdata]; rfl, bind_eq_ok.2 ⟨(), _, hset, ?_⟩⟩
    exact bind_eq_ok.2 ⟨radio, _, by rw [hunique]; rfl, rfl⟩
  · refine { h₃ with objects := ?_ }
    rw [Core.writeObject_objects, h₃.objects, hr₃]
    simp only [makeVehicle, alloc]
    exact Heap.alloc_write ..

/-- What holds of each of the four temporary objects holds of all. -/
theorem forall_vehicleObjects {n : ObjectPtr} {P : TemporaryObject → Prop}
    (h0 : P { mBaseObject := radio, mTempId := 0, mIsInitialized := true,
              mTempChildren := (∅ : TreeSet ObjectId).insert 1 })
    (h1 : P { mBaseObject := n + 1, mTempId := 1, mTempParents := (∅ : TreeSet ObjectId).insert 0,
              mTempChildren := ((∅ : TreeSet ObjectId).insert 2).insert 3 })
    (h2 : P { mBaseObject := n + 2, mTempId := 2, mTempParents := (∅ : TreeSet ObjectId).insert 1 })
    (h3 : P { mBaseObject := n, mTempId := 3, mTempParents := (∅ : TreeSet ObjectId).insert 1 }) :
    ∀ obj ∈ ObjectFactory.vehicleObjects radio (n + 1) (n + 2) n, P obj :=
  List.forall_mem_cons.2 ⟨h0, List.forall_mem_cons.2 ⟨h1, List.forall_mem_cons.2 ⟨h2,
    List.forall_mem_singleton.2 h3⟩⟩⟩

theorem exists_tempId {n : ObjectPtr} {i : ObjectId} (hi : i ∈ ([0, 1, 2, 3] : List ObjectId)) :
    ∃ o ∈ ObjectFactory.vehicleObjects radio (n + 1) (n + 2) n, o.mTempId = i :=
  List.mem_map.1 (show i ∈ (ObjectFactory.vehicleObjects radio (n + 1) (n + 2) n).map (·.mTempId)
    from hi)

/-- The objects of a vehicle can be resolved. -/
theorem resolvable_vehicleObjects {externalId : String} (hradio : radio < r.objects.next)
    (hid : (r.objects.cell radio).mObjectId = rid)
    (hactive : r.container.mActiveObjects[rid]? = some radio) (hext : externalId ≠ "") :
    Resolvable (ObjectFactory.vehicleObjects radio (r.objects.next + 1) (r.objects.next + 2)
      r.objects.next) (r.makeVehicle externalId) := by
  have hnext : (r.makeVehicle externalId).objects.next = r.objects.next + 3 := rfl
  have hlt : ∀ k, radio ≠ r.objects.next + k := fun k =>
    (hradio.trans_le (Nat.le_add_right _ k)).ne
  have hradioCell : (r.makeVehicle externalId).objects.cell radio = r.objects.cell radio := by
    have hlt : radio < r.objects.next + 1 := Nat.lt_succ_of_lt hradio
    simp only [makeVehicle, alloc]
    rw [Heap.alloc_cell_of_lt (Nat.lt_succ_of_lt hlt), Heap.alloc_cell_of_lt hlt,
      Heap.alloc_cell_of_lt hradio]
  have hrouter : (r.makeVehicle externalId).objects.cell r.objects.next =
      { mObjectName := "Router" } := by
    simp only [makeVehicle, alloc]
    rw [Heap.alloc_cell_of_lt (Nat.lt_succ_of_lt (Nat.lt_succ_self _)),
      Heap.alloc_cell_of_lt (Nat.lt_succ_self _), Heap.alloc_cell_self]
  have hchannel : (r.makeVehicle externalId).objects.cell (r.objects.next + 1) =
      { mObjectName := "Microchannel" } := by
    simp only [makeVehicle, alloc]
    rw [Heap.alloc_cell_of_lt (Nat.lt_succ_self _)]
    exact Heap.alloc_cell_self ..
  have hvehicle : (r.makeVehicle externalId).objects.cell (r.objects.next + 2) =
      { mObjectName := "VehicleObject", mExternalId := some externalId } := Heap.alloc_cell_self ..
  have hnone : ∀ {i : ObjectId} {Q : Prop}, i ∈ (∅ : TreeSet ObjectId) → Q :=
    fun hi => absurd hi TreeSet.not_mem_emptyc
  have hone : ∀ {i j : ObjectId}, i ∈ (∅ : TreeSet ObjectId).insert j →
      j ∈ ([0, 1, 2, 3] : List ObjectId) → i ∈ ([0, 1, 2, 3] : List ObjectId) :=
    fun hi hj => mem_singleton_iff.1 hi ▸ hj
  refine ⟨(by decide : ([0, 1, 2, 3] : List ObjectId).Nodup), ?_, ?_, ?_, ?_, ?_, ?_⟩
  · show [radio, r.objects.next + 1, r.objects.next + 2, r.objects.next].Nodup
    have h0 : radio ≠ r.objects.next := hlt 0
    simp [hlt, h0]
  · rw [hnext]
    exact forall_vehicleObjects (hradio.trans (Nat.lt_add_of_pos_right (by decide)))
      (Nat.add_lt_add_left (by decide) _) (Nat.add_lt_add_left (by decide) _)
      (Nat.lt_add_of_pos_right (by decide))
  · refine forall_vehicleObjects (fun i hi => ?_) (fun i hi => ?_) (fun i hi => hnone hi)
      fun i hi => hnone hi
    · exact exists_tempId (hone hi (by decide))
    · rcases TreeSet.mem_insert.1 hi with hi | hi
      · exact exists_tempId (Std.compare_eq_iff_eq.1 hi ▸ by decide)
      · exact exists_tempId (hone hi (by decide))
  · exact forall_vehicleObjects (fun i hi => hnone hi)
      (fun i hi => exists_tempId (hone hi (by decide)))
      (fun i hi => exists_tempId (hone hi (by decide)))
      fun i hi => exists_tempId (hone hi (by decide))
  · refine forall_vehicleObjects (fun h => by cases h) (fun _ => ?_) (fun _ => ?_) fun _ => ?_
    · rw [hchannel]
      exact ⟨(by decide : "Microchannel" ≠ ""), (fun h => by cases h), 0, mem_singleton_iff.2 rfl⟩
    · rw [hvehicle]
      exact ⟨(by decide : "VehicleObject" ≠ ""), fun h => hext (Option.some.inj h), 1,
        mem_singleton_iff.2 rfl⟩
    · rw [hrouter]
      exact ⟨(by decide : "Router" ≠ ""), (fun h => by cases h), 1, mem_singleton_iff.2 rfl⟩
  · refine forall_vehicleObjects (fun _ => ?_) (fun h => by cases h) (fun h => by cases h)
      fun h => by cases h
    rw [hradioCell, hid]
    exact hactive

/-- A vehicle is added. -/
theorem addVehicle_ok (hb : Base radio rid r₀) (h : Houses radio rid r₀ vs r) (hs : Shows r s)
    {data : FactoryData} {externalId : String} (hdata : data.getString "id" = .ok externalId)
    (hext : externalId ≠ "") {t : TimePoint} (hnow : s.mCurrentActionTime ≤ t)
    (h0 : 0 ≤ s.mCurrentActionTime) :
    ∃ s', VehicleOp.perform (.add (some data) t) s = .ok () s' ∧
      Shows (r.addVehicle radio externalId) s' ∧
      Inits (t + Duration.milliseconds 1)
        [r.lastId + 1, r.lastId + 1 + 1, r.lastId + 1 + 1 + 1] s s' := by
  have hle : t ≤ t + Duration.milliseconds 1 := Int.le_add_of_nonneg_right (by decide)
  obtain ⟨s₁, hok₁, h₁, hsame⟩ := createObject_ok hs hdata (h.getUnique hb)
  have hresolvable := resolvable_vehicleObjects (h.radio_lt hb) (h.radio_id hb) (h.radio_active hb)
    hext
  have hcounted : Counted (r.makeVehicle externalId) :=
    ⟨(h.counted hb).lastId, (h.counted hb).active⟩
  have hnow₁ : s₁.mCurrentActionTime ≤ t + Duration.milliseconds 1 :=
    Int.le_trans (hsame.now.trans_le hnow) hle
  obtain ⟨s₂, hok₂, h₂, hinits⟩ := hresolvable.ok hcounted h₁ hnow₁
    (Int.le_trans h0 (Int.le_trans hnow hle))
  refine ⟨s₂, ?_, ?_, ?_⟩
  · refine bind_eq_ok.2 ⟨s, s, rfl, ?_⟩
    rw [hs.currentCopy]
    exact bind_eq_ok.2 ⟨_, s₁, hok₁, hok₂⟩
  · simp only [resolved] at h₂
    rwa [startAll_vehicleObjects, relate_vehicleObjects] at h₂
  · rw [startAll_vehicleObjects] at hinits
    have := (hsame.inits (t + Duration.milliseconds 1)).trans hinits
    rwa [List.nil_append] at this

/-- The vehicle `v` is removed. -/
theorem removeVehicle_ok (h : Houses radio rid r₀ vs r) (hv : v ∈ vs) (hs : Shows r s) :
    ∃ s', VehicleOp.perform (.remove v.vehicleId) s = .ok () s' ∧ Shows (r.removeAll v.ids) s' ∧
      SameActions s s' := by
  have hactive : ∀ i ∈ v.ids, i ∈ r.container.mActiveObjects := by
    intro i hi
    obtain ⟨p, hp⟩ := Vehicle.mem_ids.1 hi
    rw [TreeMap.mem_iff_isSome_getElem?, h.part_active hv hp]
    rfl
  obtain ⟨s', hok, hs', hsame⟩ := removeAll_ok v.ids hs v.nodup_ids hactive
  refine ⟨s', bind_eq_ok.2 ⟨s, s, rfl, ?_⟩, hs', hsame⟩
  rw [hs.currentCopy]
  exact bind_eq_ok.2 ⟨_, s, h.getObjectsToDelete_ok hv hs, hok⟩

end Registry

/-! ## Histories -/

/-- The vehicles that there are, the newest first, the last id and the first free pointer. -/
structure Population where
  vehicles : List Vehicle
  lastId : Int
  next : Nat
  deriving DecidableEq, Repr

namespace Population

/-- The vehicle that is added next. -/
def newVehicle (P : Population) (externalId : String) : Vehicle := ⟨externalId, P.lastId, P.next⟩

def add (externalId : String) (P : Population) : Population :=
  ⟨P.newVehicle externalId :: P.vehicles, P.lastId + 3, P.next + 3⟩

/-- What becomes of the population when a vehicle with a non-empty id is added or one that there is
is removed; other operations are not considered. -/
def step (P : Population) : VehicleOp → Option Population
  | .add none _ => none
  | .add (some data) _ =>
    match data.getString "id" with
    | .ok externalId => if externalId = "" then none else some (P.add externalId)
    | .error _ => none
  | .remove id =>
    (P.vehicles.find? fun v => v.vehicleId == id).map fun v =>
      { P with vehicles := P.vehicles.erase v }

theorem step_add {P P' : Population} {data : Option FactoryData} {t : TimePoint}
    (h : P.step (.add data t) = some P') : ∃ data' externalId, data = some data' ∧
      data'.getString "id" = .ok externalId ∧ externalId ≠ "" ∧ P' = P.add externalId := by
  cases data with
  | none => cases h
  | some data =>
    simp only [step] at h
    cases hdata : data.getString "id" with
    | error e =>
      simp only [hdata] at h
      cases h
    | ok externalId =>
      simp only [hdata] at h
      split_ifs at h with hext
      exact ⟨data, externalId, rfl, hdata, hext, (Option.some.inj h).symm⟩

theorem step_remove {P P' : Population} {id : ObjectId} (h : P.step (.remove id) = some P') :
    ∃ v ∈ P.vehicles, v.vehicleId = id ∧ P' = { P with vehicles := P.vehicles.erase v } := by
  obtain ⟨v, hv, rfl⟩ := Option.map_eq_some_iff.1 h
  exact ⟨v, List.mem_of_find?_eq_some hv, by simpa using List.find?_some hv, rfl⟩

end Population

/-- The container of `s` holds the unique radio, it has just been published, every object is known
under its own id, and ids in use have been given out. -/
structure HasRadio (radio : ObjectPtr) (rid : ObjectId) (s : Core ω) : Prop where
  current : s.mObjectList.currentCopy = s.mObjectList.workingCopy
  made : s.mObjectList.mWorkingCopy < s.mObjectList.containers.next
  base : Registry.Base radio rid s.registry
  now : 0 ≤ s.mCurrentActionTime

/-- The population `P` lives in `s`, together with the objects of `s₀`. -/
structure Population.Lives (P : Population) (s₀ s : Core ω) : Prop where
  active : ∀ (i : ObjectId) (p : ObjectPtr),
    s.mObjectList.currentCopy.mActiveObjects[i]? = some p ↔
      s₀.mObjectList.currentCopy.mActiveObjects[i]? = some p ∨ ∃ v ∈ P.vehicles, (i, p) ∈ v.parts
  toDelete : ∀ v ∈ P.vehicles,
    ObjectRemover.getObjectsToDelete "vehicle" v.vehicleId s.mObjectList.currentCopy s = .ok v.ids s
  vehicle : ∀ v ∈ P.vehicles, (s.objects.cell v.vehicle).mObjectName = "VehicleObject" ∧
    (s.objects.cell v.vehicle).mExternalId = some v.externalId
  channel : ∀ v ∈ P.vehicles, (s.objects.cell v.channel).mObjectName = "Microchannel"
  router : ∀ v ∈ P.vehicles, (s.objects.cell v.router).mObjectName = "Router"
  disjoint : ∀ v ∈ P.vehicles, ∀ w ∈ P.vehicles, v ≠ w → v.ids.Disjoint w.ids
  initial : ∀ v ∈ P.vehicles, ∀ i ∈ v.ids, i ∉ s₀.mObjectList.currentCopy.mActiveObjects

/-- The time at which an added vehicle starts is not before `t`. -/
def VehicleOp.NotBefore (t : TimePoint) : VehicleOp → Prop
  | add _ start => t ≤ start
  | remove _ => True

/-- What every history keeps: the code shows a registry that houses the population. -/
structure Population.Housed (radio : ObjectPtr) (rid : ObjectId) (r₀ : Registry) (t : TimePoint)
    (P : Population) (s : Core ω) : Prop where
  exists_registry : ∃ r, Registry.Shows r s ∧ Registry.Houses radio rid r₀ P.vehicles r ∧
    r.lastId = P.lastId ∧ r.objects.next = P.next
  now : s.mCurrentActionTime = t

/-- The objects and actions that there have been are still what they were, but for their children
and for what is added. -/
structure Extends (s s' : Core ω) : Prop where
  now : s'.mCurrentActionTime = s.mCurrentActionTime
  world : s'.world = s.world
  objects : s.objects.next ≤ s'.objects.next
  object : ∀ p < s.objects.next, ∃ children, s'.objects.cell p =
    { s.objects.cell p with mChildIdList := children }
  actions : s.actions.next ≤ s'.actions.next
  action : ∀ q < s.actions.next, s'.actions.cell q = s.actions.cell q

theorem Extends.refl (s : Core ω) : Extends s s :=
  ⟨rfl, rfl, Nat.le_refl _, fun _ _ => ⟨_, rfl⟩, Nat.le_refl _, fun _ _ => rfl⟩

theorem Extends.trans {s s' s'' : Core ω} (h : Extends s s') (h' : Extends s' s'') :
    Extends s s'' where
  now := h'.now.trans h.now
  world := h'.world.trans h.world
  objects := h.objects.trans h'.objects
  object p hp := by
    obtain ⟨c, hc⟩ := h.object p hp
    obtain ⟨c', hc'⟩ := h'.object p (hp.trans_le h.objects)
    exact ⟨c', by rw [hc', hc]⟩
  actions := h.actions.trans h'.actions
  action q hq := (h'.action q (hq.trans_le h.actions)).trans (h.action q hq)

section
variable {radio : ObjectPtr} {rid : ObjectId} {r₀ : Registry} {t : TimePoint} {P P' : Population}
variable {s s₀ : Core ω}

theorem Population.Housed.perform (hb : Registry.Base radio rid r₀) (h0 : 0 ≤ t)
    (h : P.Housed radio rid r₀ t s) {op : VehicleOp} (hop : op.NotBefore t)
    (hP : P.step op = some P') :
    ∃ s', op.perform s = .ok () s' ∧ P'.Housed radio rid r₀ t s' ∧ Extends s s' := by
  obtain ⟨⟨r, hs, hhouses, hlast, hnext⟩, rfl⟩ := h
  cases op with
  | add data start =>
    obtain ⟨data, externalId, rfl, hdata, hext, rfl⟩ := step_add hP
    obtain ⟨s', hok, hs', hinits⟩ := Registry.addVehicle_ok hb hhouses hs hdata hext hop h0
    refine ⟨s', hok, ⟨⟨_, hs', ?_, ?_, ?_⟩, hinits.now⟩, hinits.now, hinits.world, ?_, fun p hp => ?_,
      hinits.next, hinits.kept⟩
    · have hnew : r.newVehicle externalId = P.newVehicle externalId := by
        unfold Registry.newVehicle newVehicle
        rw [hlast, hnext]
      have hhouses' := hhouses.add hb externalId
      rwa [hnew] at hhouses'
    · have hadd : ∀ k : Int, k + 1 + 1 + 1 = k + 3 := fun k => by omega
      rw [Registry.addVehicle_lastId, hlast]
      exact hadd _
    · rw [Registry.addVehicle_next, hnext]
      rfl
    · rw [hs.objects, hs'.objects, Registry.addVehicle_next]
      exact Nat.le_add_right _ _
    · rw [hs.objects] at hp ⊢
      rw [hs'.objects, Registry.addVehicle_old externalId (hhouses.radio_lt hb) hp]
      split_ifs with heq
      · exact ⟨_, by rw [heq]⟩
      · exact ⟨_, rfl⟩
  | remove id =>
    obtain ⟨v, hv, rfl, rfl⟩ := step_remove hP
    obtain ⟨s', hok, hs', hsame⟩ := Registry.removeVehicle_ok hhouses hv hs
    have hobjects : s'.objects = s.objects := by
      rw [hs'.objects, hs.objects]
      exact Registry.removeAll_objects _ _
    refine ⟨s', hok, ⟨⟨_, hs', hhouses.remove hb hv, ?_, ?_⟩, hsame.now⟩, hsame.now, hsame.world, ?_,
      fun p _ => ?_, ?_, fun q _ => ?_⟩
    · rw [Registry.removeAll_lastId, hlast]
    · rw [Registry.removeAll_objects, hnext]
    · rw [hobjects]
    · rw [hobjects]
      exact ⟨_, rfl⟩
    · rw [hsame.actions]
    · rw [hsame.actions]

theorem Population.Housed.forM (hb : Registry.Base radio rid r₀) (h0 : 0 ≤ t)
    (ops : List VehicleOp) (hops : ∀ op ∈ ops, op.NotBefore t) (h : P.Housed radio rid r₀ t s)
    (hP : ops.foldlM step P = some P') :
    ∃ s', ops.forM VehicleOp.perform s = .ok () s' ∧ P'.Housed radio rid r₀ t s' ∧ Extends s s' := by
  induction ops generalizing P s with
  | nil =>
    obtain rfl := Option.some.inj hP
    exact ⟨s, rfl, h, .refl s⟩
  | cons op ops ih =>
    obtain ⟨hop, hops⟩ := List.forall_mem_cons.1 hops
    rw [List.foldlM_cons] at hP
    obtain ⟨P₁, hstep, hP⟩ := Option.bind_eq_some_iff.1 hP
    obtain ⟨s₁, hok₁, h₁, hext₁⟩ := h.perform hb h0 hop hstep
    obtain ⟨s₂, hok₂, h₂, hext₂⟩ := ih hops h₁ hP
    exact ⟨s₂, bind_eq_ok.2 ⟨(), s₁, hok₁, hok₂⟩, h₂, hext₁.trans hext₂⟩

theorem HasRadio.housed (h : HasRadio radio rid s₀) :
    Population.Housed radio rid s₀.registry s₀.mCurrentActionTime
      ⟨[], s₀.mObjectList.mCurrentObjectId, s₀.objects.next⟩ s₀ :=
  ⟨⟨s₀.registry, ⟨rfl, h.current.symm, rfl, h.made, rfl⟩, h.base.houses, rfl, rfl⟩, rfl⟩

theorem Population.Housed.lives (hb : Registry.Base radio rid s₀.registry)
    (h : P.Housed radio rid s₀.registry t s) : P.Lives s₀ s := by
  obtain ⟨⟨r, hs, hhouses, -, -⟩, -⟩ := h
  refine ⟨fun i p => ?_, fun v hv => ?_, fun v hv => ?_, fun v hv => ?_, fun v hv => ?_,
    fun v hv w hw hne => hhouses.disjoint hv hw hne, fun v hv i hi hmem => ?_⟩
  · rw [hs.currentCopy]
    exact hhouses.active i p
  · rw [hs.currentCopy]
    exact hhouses.getObjectsToDelete_ok hv hs
  · rw [hs.objects]
    exact ⟨congrArg BaseObject.mObjectName (hhouses.vehicle v hv),
      congrArg BaseObject.mExternalId (hhouses.vehicle v hv)⟩
  · rw [hs.objects]
    exact congrArg BaseObject.mObjectName (hhouses.channel v hv)
  · rw [hs.objects]
    exact congrArg BaseObject.mObjectName (hhouses.router v hv)
  · have hle := (hb.counted.active i hmem).2
    exact absurd (Int.lt_of_le_of_lt (hhouses.range v hv).1 (Vehicle.range_of_mem_ids hi).1)
      (Int.not_lt_of_ge hle)

end

/-- No addition of a vehicle and no removal of one that there is throws, and afterwards the active
objects are the initial ones and those of the vehicles still there, each of which the remover tells
from the others. -/
theorem population_lives {s₀ : Core ω} {radio : ObjectPtr} {rid : ObjectId} {ops : List VehicleOp}
    {P : Population} (h₀ : HasRadio radio rid s₀)
    (hops : ∀ op ∈ ops, op.NotBefore s₀.mCurrentActionTime)
    (hP : ops.foldlM Population.step ⟨[], s₀.mObjectList.mCurrentObjectId, s₀.objects.next⟩ =
      some P) :
    ∃ s, ops.forM VehicleOp.perform s₀ = .ok () s ∧ P.Lives s₀ s := by
  obtain ⟨s, hok, h, -⟩ := h₀.housed.forM h₀.base h₀.now ops hops hP
  exact ⟨s, hok, h.lives h₀.base⟩

/-! ## Two vehicles, the first of which goes -/

theorem hasRadio_radioCore : HasRadio 0 2 radioCore := by
  have hremoved : radioCore.mObjectList.currentCopy.mRemovedObjects.isEmpty = true := by
    decide +kernel
  refine ⟨rfl, by decide, ⟨consistent_radioCore.counted, by decide +kernel, by decide +kernel,
    fun i p hp => ?_, fun i hi => absurd hi (TreeSet.not_mem_of_isEmpty hremoved)⟩, by decide⟩
  obtain ⟨rfl, rfl⟩ := radioCore_active hp
  decide +kernel

def addTwoRemoveOne : List VehicleOp :=
  [.add (some ((∅ : AnyMap).insert "id" (.string "a"))) 0,
   .add (some ((∅ : AnyMap).insert "id" (.string "b"))) 0, .remove 4]

theorem addTwoRemoveOne_lives : ∃ s, addTwoRemoveOne.forM VehicleOp.perform radioCore = .ok () s ∧
    Population.Lives ⟨[⟨"b", 5, 4⟩], 8, 7⟩ radioCore s :=
  population_lives hasRadio_radioCore (List.forall_mem_cons.2 ⟨Int.le_refl 0,
    List.forall_mem_cons.2 ⟨Int.le_refl 0, List.forall_mem_singleton.2 trivial⟩⟩)
    (by decide +kernel)

end Cosidia
