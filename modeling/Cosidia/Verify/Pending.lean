import Cosidia.Verify.Population

/-!
# Vehicles that have been made but not yet added

A fiber makes the objects of a vehicle, and the core thread resolves and adds them later, when the
objects of others may have been made as well.
-/

namespace Cosidia

open EStateM Std

namespace Registry

variable {r₀ r r' : Registry} {radio : ObjectPtr} {rid : ObjectId} {vs : List Vehicle} {v : Vehicle}
variable {n m : Nat} {externalId : String}

/-- The objects from `n` on have been made for a vehicle and nothing has happened to them. -/
structure Raw (n : Nat) (externalId : String) (r : Registry) : Prop where
  made : n + 3 ≤ r.objects.next
  router : (r.objects.cell n).profile = { mObjectName := "Router" }
  channel : (r.objects.cell (n + 1)).profile = { mObjectName := "Microchannel" }
  vehicle : (r.objects.cell (n + 2)).profile =
    { mObjectName := "VehicleObject", mExternalId := some externalId }

/-- An object with nothing but a name and an external id has no relatives. -/
theorem fields_of_profile {o : BaseObject} {name : String} {externalId : Option String}
    (h : o.profile = { mObjectName := name, mExternalId := externalId }) :
    o.mParentList = ∅ ∧ o.mChildIdList = ∅ ∧ o.mObjectName = name ∧ o.mExternalId = externalId :=
  ⟨congrArg (·.mParentList) h, congrArg (·.mChildIdList) h, congrArg (·.mObjectName) h,
    congrArg (·.mExternalId) h⟩

/-- The objects from `n` on get ids, are related and become active. -/
def settle (radio : ObjectPtr) (n : Nat) (r : Registry) : Registry :=
  (r.identifyVehicle n).relateVehicle radio (r.objects.cell radio).mObjectId n r.lastId

@[simp] theorem settle_lastId : (r.settle radio n).lastId = r.lastId + 1 + 1 + 1 := rfl

@[simp] theorem settle_next : (r.settle radio n).objects.next = r.objects.next := rfl

@[simp] theorem settle_unique :
    (r.settle radio n).container.mUniqueObjects = r.container.mUniqueObjects := rfl

@[simp] theorem settle_removed :
    (r.settle radio n).container.mRemovedObjects = r.container.mRemovedObjects := rfl

/-- The radio is none of the objects from `n` on. -/
def Apart (radio : ObjectPtr) (n : Nat) : Prop := radio ≠ n ∧ radio ≠ n + 1 ∧ radio ≠ n + 2

theorem apart_of_lt {p : ObjectPtr} (h : p < n) : Apart p n :=
  ⟨h.ne, (h.trans (Nat.lt_succ_self _)).ne, (h.trans (Nat.lt_add_of_pos_right (by decide))).ne⟩

theorem apart_of_le {p : ObjectPtr} (h : n + 3 ≤ p) : Apart p n := by
  have hlt : ∀ k < 3, p ≠ n + k := fun k hk => (Nat.lt_of_lt_of_le (Nat.add_lt_add_left hk n) h).ne'
  exact ⟨hlt 0 (by decide), hlt 1 (by decide), hlt 2 (by decide)⟩

section
variable (h : Apart radio n)
include h

theorem settle_cell (p : ObjectPtr) : (r.settle radio n).objects.cell p =
    if p = n then
      { r.objects.cell n with
        mObjectId := r.lastId + 1 + 1 + 1
        mParentList := (r.objects.cell n).mParentList.insert (r.lastId + 1) }
    else if p = n + 1 then
      { r.objects.cell (n + 1) with
        mObjectId := r.lastId + 1
        mParentList := (r.objects.cell (n + 1)).mParentList.insert (r.objects.cell radio).mObjectId
        mChildIdList := ((r.objects.cell (n + 1)).mChildIdList.insert (r.lastId + 1 + 1)).insert
          (r.lastId + 1 + 1 + 1) }
    else if p = n + 2 then
      { r.objects.cell (n + 2) with
        mObjectId := r.lastId + 1 + 1
        mParentList := (r.objects.cell (n + 2)).mParentList.insert (r.lastId + 1) }
    else if p = radio then
      { r.objects.cell radio with
        mChildIdList := (r.objects.cell radio).mChildIdList.insert (r.lastId + 1) }
    else r.objects.cell p := by
  obtain ⟨h0, h1, h2⟩ := h
  have h01 : n ≠ n + 1 := (Nat.lt_succ_self _).ne
  have h02 : n ≠ n + 2 := (Nat.lt_add_of_pos_right (by decide)).ne
  have h12 : n + 1 ≠ n + 2 := (Nat.lt_succ_self _).ne
  simp only [settle, relateVehicle, identifyVehicle, identify, addChild, addParent, add, modify, giveId,
    Heap.write_cell, h0, h0.symm, h1, h1.symm, h2, h2.symm, h01, h01.symm, h02, h02.symm, h12,
    h12.symm, if_true, if_false]
  split_ifs <;> simp_all

theorem settle_active (i : ObjectId) : (r.settle radio n).container.mActiveObjects[i]? =
    if r.lastId + 1 + 1 + 1 = i then some n
    else if r.lastId + 1 + 1 = i then some (n + 2)
    else if r.lastId + 1 = i then some (n + 1)
    else r.container.mActiveObjects[i]? := by
  obtain ⟨h0, h1, h2⟩ := h
  have h01 : n ≠ n + 1 := (Nat.lt_succ_self _).ne
  have h02 : n ≠ n + 2 := (Nat.lt_add_of_pos_right (by decide)).ne
  have h12 : n + 1 ≠ n + 2 := (Nat.lt_succ_self _).ne
  simp only [settle, relateVehicle, identifyVehicle, identify, addChild, addParent, add, modify, giveId,
    Heap.write_cell, h0, h0.symm, h1, h1.symm, h2, h2.symm, h01, h01.symm, h02, h02.symm, h12,
    h12.symm, if_true, if_false, TreeMap.getElem?_insert, Std.compare_eq_iff_eq]

/-- Other objects stay as they are, but the radio gets a child. -/
theorem settle_other {p : ObjectPtr} (hp : Apart p n) : ∃ children,
    (r.settle radio n).objects.cell p = { r.objects.cell p with mChildIdList := children } ∧
      (p ≠ radio → children = (r.objects.cell p).mChildIdList) := by
  rw [settle_cell h, if_neg hp.1, if_neg hp.2.1, if_neg hp.2.2]
  split_ifs with heq
  · rw [heq]
    exact ⟨_, rfl, fun hne => absurd heq (heq ▸ hne)⟩
  · exact ⟨_, rfl, fun _ => rfl⟩

end

theorem joined_settle (hraw : Raw n externalId r) (hapart : Apart radio n)
    (hid : (r.objects.cell radio).mObjectId = rid) :
    Joined radio rid ⟨externalId, r.lastId, n⟩ r (r.settle radio n) where
  newest := rfl
  lastId := settle_lastId
  next := Nat.le_refl _
  made := hraw.made
  unique := settle_unique
  removed := settle_removed
  active := settle_active hapart
  old p hp := settle_other hapart (apart_of_lt hp)
  channel := by
    show ((r.settle radio n).objects.cell (n + 1)).profile = _
    rw [settle_cell hapart, if_neg (Nat.succ_ne_self n), if_pos rfl, hid]
    obtain ⟨hparents, hchildren, hname, hexternal⟩ := fields_of_profile hraw.channel
    simp only [BaseObject.profile]
    rw [hparents, hchildren, hname, hexternal]
    rfl
  vehicle := by
    show ((r.settle radio n).objects.cell (n + 2)).profile = _
    rw [settle_cell hapart, if_neg (Nat.lt_add_of_pos_right (by decide)).ne',
      if_neg (Nat.succ_ne_self _), if_pos rfl]
    obtain ⟨hparents, hchildren, hname, hexternal⟩ := fields_of_profile hraw.vehicle
    simp only [BaseObject.profile]
    rw [hparents, hchildren, hname, hexternal]
    rfl
  router := by
    show ((r.settle radio n).objects.cell n).profile = _
    rw [settle_cell hapart, if_pos rfl]
    obtain ⟨hparents, hchildren, hname, hexternal⟩ := fields_of_profile hraw.router
    simp only [BaseObject.profile]
    rw [hparents, hchildren, hname, hexternal]
    rfl

/-- The objects from `n` on become those of a vehicle that is newer than `vs`. -/
theorem Houses.settle (hb : Base radio rid r₀) (h : Houses radio rid r₀ vs r)
    (hraw : Raw n externalId r) (hlow : r₀.objects.next ≤ n) (hvs : ∀ w ∈ vs, w.next + 3 ≤ n) :
    Houses radio rid r₀ (⟨externalId, r.lastId, n⟩ :: vs) (r.settle radio n) := by
  have hradio : radio < n := (hb.keyed rid radio hb.radio).1.trans_le hlow
  exact h.join hb (joined_settle hraw (apart_of_lt hradio) (h.radio_id hb)) hlow hvs

/-- Objects that have been made stay raw when those of another vehicle are settled. -/
theorem Raw.settle (h : Raw n externalId r) (hradio : Apart radio m) (hne : radio < n)
    (hm : m + 3 ≤ n ∨ n + 3 ≤ m) : Raw n externalId (r.settle radio m) := by
  have hcell : ∀ k < 3, (r.settle radio m).objects.cell (n + k) = r.objects.cell (n + k) := by
    intro k hk
    have hapart : Apart (n + k) m := by
      rcases hm with hm | hm
      · exact apart_of_le (hm.trans (Nat.le_add_right _ _))
      · exact apart_of_lt ((Nat.add_lt_add_left hk n).trans_le hm)
    obtain ⟨children, heq, hchildren⟩ := settle_other hradio hapart
    rw [heq, hchildren (hne.trans_le (Nat.le_add_right _ _)).ne']
  refine ⟨h.made, ?_, ?_, ?_⟩
  · exact (congrArg BaseObject.profile (hcell 0 (by decide))).trans h.router
  · exact (congrArg BaseObject.profile (hcell 1 (by decide))).trans h.channel
  · exact (congrArg BaseObject.profile (hcell 2 (by decide))).trans h.vehicle

/-- The objects that are there have the same profiles, and others may have been made. -/
structure Keeps (r r' : Registry) : Prop where
  container : r'.container = r.container
  lastId : r'.lastId = r.lastId
  next : r.objects.next ≤ r'.objects.next
  profile : ∀ p < r.objects.next, (r'.objects.cell p).profile = (r.objects.cell p).profile

theorem Houses.keeps (h : Houses radio rid r₀ vs r) (hk : Keeps r r') :
    Houses radio rid r₀ vs r' := by
  refine ⟨hk.lastId ▸ h.lastId, h.next.trans hk.next, hk.container ▸ h.unique,
    fun i p => hk.container ▸ h.active i p, fun p hp => ?_, fun v hv => ?_, fun v hv => ?_,
    fun v hv => ?_, h.after, fun v hv => ?_, hk.container ▸ hk.lastId ▸ h.removed⟩
  · have hprofile := hk.profile p (hp.trans_le h.next)
    obtain ⟨hid, hname, hparents⟩ := h.old p hp
    exact ⟨(congrArg (·.mObjectId) hprofile).trans hid,
      (congrArg (·.mObjectName) hprofile).trans hname,
      (congrArg (·.mParentList) hprofile).trans hparents⟩
  · rw [hk.profile _ (h.channel_lt hv), h.channel v hv]
  · rw [hk.profile _ (h.vehicle_lt hv), h.vehicle v hv]
  · rw [hk.profile _ (h.router_lt hv), h.router v hv]
  · obtain ⟨h1, h2, h3, h4⟩ := h.range v hv
    exact ⟨h1, hk.lastId ▸ h2, h3, h4.trans hk.next⟩

theorem Raw.keeps (h : Raw n externalId r) (hk : Keeps r r') : Raw n externalId r' := by
  have hlt : ∀ k < 3, n + k < r.objects.next := fun k hk =>
    (Nat.add_lt_add_left hk n).trans_le h.made
  exact ⟨h.made.trans hk.next, (hk.profile _ (hlt 0 (by decide))).trans h.router,
    (hk.profile _ (hlt 1 (by decide))).trans h.channel,
    (hk.profile _ (hlt 2 (by decide))).trans h.vehicle⟩

theorem keeps_alloc (r : Registry) (o : BaseObject) : Keeps r (r.alloc o) where
  container := rfl
  lastId := rfl
  next := Nat.le_succ _
  profile _ hp := congrArg BaseObject.profile (Heap.alloc_cell_of_lt hp)

theorem Keeps.refl (r : Registry) : Keeps r r := ⟨rfl, rfl, Nat.le_refl _, fun _ _ => rfl⟩

theorem Keeps.trans {r'' : Registry} (h : Keeps r r') (h' : Keeps r' r'') : Keeps r r'' where
  container := h'.container.trans h.container
  lastId := h'.lastId.trans h.lastId
  next := h.next.trans h'.next
  profile p hp := (h'.profile p (hp.trans_le h.next)).trans (h.profile p hp)

theorem keeps_makeVehicle (r : Registry) (externalId : String) : Keeps r (r.makeVehicle externalId) :=
  ((keeps_alloc r _).trans (keeps_alloc _ _)).trans (keeps_alloc _ _)

theorem raw_makeVehicle (r : Registry) (externalId : String) :
    Raw r.objects.next externalId (r.makeVehicle externalId) := by
  refine ⟨Nat.le_refl _, ?_, ?_, ?_⟩
  · show ((((r.objects.alloc _).alloc _).alloc _).cell r.objects.next).profile = _
    rw [Heap.alloc_cell_of_lt (Nat.lt_succ_of_lt (Nat.lt_succ_self _)),
      Heap.alloc_cell_of_lt (Nat.lt_succ_self _), Heap.alloc_cell_self]
    rfl
  · show ((((r.objects.alloc _).alloc _).alloc _).cell (r.objects.next + 1)).profile = _
    rw [Heap.alloc_cell_of_lt (Nat.lt_succ_self _)]
    exact congrArg BaseObject.profile (Heap.alloc_cell_self ..)
  · exact congrArg BaseObject.profile (Heap.alloc_cell_self ..)

/-- From `r` to `r'` the objects of the vehicles `l` have been made. Each is given by its external id
and the first of its objects. -/
structure Made (l : List (String × Nat)) (r r' : Registry) : Prop where
  keeps : Keeps r r'
  raw : ∀ v ∈ l, Raw v.2 v.1 r'
  new : ∀ v ∈ l, r.objects.next ≤ v.2
  apart : l.Pairwise fun v w => v.2 + 3 ≤ w.2

theorem Made.refl (r : Registry) : Made [] r r := ⟨.refl r, nofun, nofun, .nil⟩

theorem Made.cons {l : List (String × Nat)} {r'' : Registry}
    (hr : r' = r.makeVehicle externalId) (h : Made l r' r'') :
    Made ((externalId, r.objects.next) :: l) r r'' := by
  subst hr
  have hnext : r.objects.next + 3 ≤ (r.makeVehicle externalId).objects.next := Nat.le_refl _
  refine ⟨(keeps_makeVehicle r externalId).trans h.keeps, ?_, ?_, ?_⟩
  · exact List.forall_mem_cons.2 ⟨(raw_makeVehicle r externalId).keeps h.keeps, h.raw⟩
  · exact List.forall_mem_cons.2
      ⟨Nat.le_refl _, fun v hv => (Nat.le_of_add_right_le hnext).trans (h.new v hv)⟩
  · exact List.pairwise_cons.2 ⟨fun v hv => hnext.trans (h.new v hv), h.apart⟩

/-- An object keeps its name, its external id and the id that it has got. -/
def Lasting (o o' : BaseObject) : Prop :=
  o'.mObjectName = o.mObjectName ∧ o'.mExternalId = o.mExternalId ∧
    (o.mObjectId.valid = true → o'.mObjectId = o.mObjectId)

theorem Lasting.refl (o : BaseObject) : Lasting o o := ⟨rfl, rfl, fun _ => rfl⟩

theorem Lasting.trans {o o' o'' : BaseObject} (h : Lasting o o') (h' : Lasting o' o'') :
    Lasting o o'' := by
  refine ⟨h'.1.trans h.1, h'.2.1.trans h.2.1, fun hvalid => ?_⟩
  have hid := h.2.2 hvalid
  rw [h'.2.2 (by rwa [hid]), hid]

theorem lasting_of_profile {o o' : BaseObject} (h : o'.profile = o.profile) : Lasting o o' :=
  ⟨congrArg (·.mObjectName) h, congrArg (·.mExternalId) h, fun _ => congrArg (·.mObjectId) h⟩

theorem Raw.lasting (h : Raw n externalId r) (hapart : Apart radio n) (p : ObjectPtr) :
    Lasting (r.objects.cell p) ((r.settle radio n).objects.cell p) := by
  have hstub : ∀ {o : BaseObject} {name : String} {external : Option String} {Q : Prop},
      o.profile = { mObjectName := name, mExternalId := external } → o.mObjectId.valid = true → Q := by
    intro o name external Q hprofile hvalid
    rw [show o.mObjectId = ObjectId.stub from congrArg (·.mObjectId) hprofile] at hvalid
    exact absurd hvalid (by decide)
  rw [settle_cell hapart]
  split_ifs with h0 h1 h2 h3
  · subst h0
    exact ⟨rfl, rfl, hstub h.router⟩
  · subst h1
    exact ⟨rfl, rfl, hstub h.channel⟩
  · subst h2
    exact ⟨rfl, rfl, hstub h.vehicle⟩
  · subst h3
    exact ⟨rfl, rfl, fun _ => rfl⟩
  · exact .refl _

/-- The vehicles `l` get ids, one after the other. -/
def settleAll (radio : ObjectPtr) (l : List (String × Nat)) (r : Registry) : Registry :=
  l.foldl (fun r v => r.settle radio v.2) r

@[simp] theorem settleAll_next (l : List (String × Nat)) (r : Registry) :
    (r.settleAll radio l).objects.next = r.objects.next := by
  induction l generalizing r with
  | nil => rfl
  | cons v l ih => exact ih (r.settle radio v.2)

@[simp] theorem settleAll_removed (l : List (String × Nat)) (r : Registry) :
    (r.settleAll radio l).container.mRemovedObjects = r.container.mRemovedObjects := by
  induction l generalizing r with
  | nil => rfl
  | cons v l ih => exact ih (r.settle radio v.2)

theorem Houses.settleAll (hb : Base radio rid r₀) (l : List (String × Nat))
    (hl : l.Pairwise fun v w => v.2 + 3 ≤ w.2) (h : Houses radio rid r₀ vs r)
    (hraw : ∀ v ∈ l, Raw v.2 v.1 r) (hlow : ∀ v ∈ l, r₀.objects.next ≤ v.2)
    (hvs : ∀ v ∈ l, ∀ w ∈ vs, w.next + 3 ≤ v.2) :
    ∃ new : List Vehicle, Houses radio rid r₀ (new ++ vs) (r.settleAll radio l) ∧
      new.map (·.externalId) = (l.map (·.1)).reverse ∧
      ∀ p, Lasting (r.objects.cell p) ((r.settleAll radio l).objects.cell p) := by
  induction l generalizing vs r with
  | nil => exact ⟨[], h, rfl, fun _ => .refl _⟩
  | cons v l ih =>
    obtain ⟨hv, hl⟩ := List.pairwise_cons.1 hl
    obtain ⟨hraw₁, hraw⟩ := List.forall_mem_cons.1 hraw
    obtain ⟨hlow₁, hlow⟩ := List.forall_mem_cons.1 hlow
    obtain ⟨hvs₁, hvs⟩ := List.forall_mem_cons.1 hvs
    have hradio : radio < v.2 := (hb.keyed rid radio hb.radio).1.trans_le hlow₁
    obtain ⟨new, hhouses, hnames, hlasting⟩ := ih hl (h.settle hb hraw₁ hlow₁ hvs₁)
      (fun w hw => (hraw w hw).settle (apart_of_lt hradio)
        (hradio.trans_le (Nat.le_of_add_right_le (hv w hw))) (.inl (hv w hw)))
      hlow fun w hw => List.forall_mem_cons.2 ⟨hv w hw, hvs w hw⟩
    refine ⟨new ++ [⟨v.1, r.lastId, v.2⟩], ?_, ?_, fun p => ?_⟩
    · rw [List.append_assoc]
      exact hhouses
    · rw [List.map_append, hnames]
      exact List.reverse_cons.symm
    · exact (hraw₁.lasting (apart_of_lt hradio) p).trans (hlasting p)

/-! ## Vehicles that go -/

/-- No vehicle object is active. -/
def Vacant (r : Registry) : Prop := ∀ i p, ¬r.Named "VehicleObject" i p

/-- The active vehicle objects are those of the vehicles that have been added. -/
theorem Houses.of_named (hb : Base radio rid r₀) (hvacant : r₀.Vacant) (h : Houses radio rid r₀ vs r)
    {i : ObjectId} {p : ObjectPtr} (hp : r.Named "VehicleObject" i p) :
    ∃ v ∈ vs, i = v.vehicleId ∧ p = v.vehicle := by
  obtain ⟨hactive, hname⟩ := hp
  rcases (h.active i p).1 hactive with hold | ⟨v, hv, hpart⟩
  · obtain ⟨-, hname', -⟩ := h.old p (hb.keyed i p hold).1
    exact absurd ⟨hold, hname'.symm.trans hname⟩ (hvacant i p)
  · rcases Vehicle.mem_parts.1 hpart with ⟨rfl, rfl⟩ | ⟨rfl, rfl⟩ | ⟨rfl, rfl⟩
    · exact ⟨v, hv, rfl, rfl⟩
    · have hchannel := congrArg BaseObject.mObjectName (h.channel v hv)
      exact absurd (hchannel.symm.trans hname) (by decide : "Microchannel" ≠ "VehicleObject")
    · have hrouter := congrArg BaseObject.mObjectName (h.router v hv)
      exact absurd (hrouter.symm.trans hname) (by decide : "Router" ≠ "VehicleObject")

/-- A vehicle is known by the id of its vehicle object. -/
theorem Houses.eq_of_vehicleId (h : Houses radio rid r₀ vs r) {w : Vehicle} (hv : v ∈ vs)
    (hw : w ∈ vs) (hid : v.vehicleId = w.vehicleId) : v = w :=
  h.eq_of_routerId hv hw (congrArg (· + (1 : Int)) hid)

theorem Houses.valid (hb : Base radio rid r₀) (h : Houses radio rid r₀ vs r) (hv : v ∈ vs) :
    v.vehicleId.valid = true := by
  refine ((h.counted hb).active v.vehicleId ?_).1
  rw [TreeMap.mem_iff_isSome_getElem?, h.vehicle_active hv]
  rfl

theorem Houses.named (h : Houses radio rid r₀ vs r) (hv : v ∈ vs) :
    r.Named "VehicleObject" v.vehicleId v.vehicle :=
  ⟨h.vehicle_active hv, congrArg BaseObject.mObjectName (h.vehicle v hv)⟩

/-- Removing what has been removed changes nothing. -/
theorem Houses.remove_again (h : Houses radio rid r₀ vs r) {l : List ObjectId}
    (hl : ∀ i ∈ l, i ∈ r.container.mRemovedObjects) : Houses radio rid r₀ vs (r.removeAll l) := by
  have hactive : ∀ i : ObjectId, (r.removeAll l).container.mActiveObjects[i]? =
      r.container.mActiveObjects[i]? := by
    intro i
    rw [removeAll_active]
    split_ifs with hi
    · exact (TreeMap.getElem?_eq_none (h.removed i (hl i hi)).1).symm
    · rfl
  have hobjects : (r.removeAll l).objects = r.objects := removeAll_objects l r
  have hlast : (r.removeAll l).lastId = r.lastId := removeAll_lastId l r
  refine ⟨hlast ▸ h.lastId, hobjects ▸ h.next, (removeAll_unique l r).trans h.unique, fun i p => ?_,
    hobjects ▸ h.old, hobjects ▸ h.channel, hobjects ▸ h.vehicle, hobjects ▸ h.router, h.after,
    hobjects ▸ hlast ▸ h.range, fun i hi => ?_⟩
  · rw [hactive]
    exact h.active i p
  · have hi : i ∈ r.container.mRemovedObjects := ((mem_removeAll l r).1 hi).elim (hl i) id
    rw [hlast, TreeMap.mem_iff_isSome_getElem?, hactive, ← TreeMap.mem_iff_isSome_getElem?]
    exact h.removed i hi

/-- The vehicles `gone` are removed, some of them perhaps several times. -/
theorem Houses.removeAll (hb : Base radio rid r₀) (gone : List Vehicle)
    (h : Houses radio rid r₀ vs r)
    (hgone : ∀ v ∈ gone, v ∈ vs ∨ ∀ i ∈ v.ids, i ∈ r.container.mRemovedObjects) :
    ∃ vs', Houses radio rid r₀ vs' (r.removeAll (gone.map Vehicle.ids).flatten) ∧ vs'.Sublist vs ∧
      ∀ v, v ∈ vs' ↔ v ∈ vs ∧ v ∉ gone := by
  induction gone generalizing vs r with
  | nil => exact ⟨vs, h, .refl _, fun v => by simp⟩
  | cons v gone ih =>
    obtain ⟨hv, hgone⟩ := List.forall_mem_cons.1 hgone
    have hremoved : ∀ i, i ∈ v.ids ∨ i ∈ r.container.mRemovedObjects →
        i ∈ (r.removeAll v.ids).container.mRemovedObjects := fun i => (mem_removeAll v.ids r).2
    rw [List.map_cons, List.flatten_cons, Registry.removeAll, List.foldl_append]
    by_cases hmem : v ∈ vs
    · have hgone' : ∀ w ∈ gone, w ∈ vs.erase v ∨
          ∀ i ∈ w.ids, i ∈ (r.removeAll v.ids).container.mRemovedObjects := by
        intro w hw
        by_cases heq : w = v
        · exact .inr fun i hi => hremoved i (.inl (heq ▸ hi))
        · exact (hgone w hw).imp (List.mem_erase_of_ne heq).2 fun hw i hi => hremoved i (.inr (hw i hi))
      obtain ⟨vs', hhouses, hsub, hiff⟩ := ih (h.remove hb hmem) hgone'
      refine ⟨vs', hhouses, hsub.trans List.erase_sublist, fun w => ?_⟩
      rw [hiff, h.nodup.mem_erase_iff, List.mem_cons, not_or]
      tauto
    · obtain ⟨vs', hhouses, hsub, hiff⟩ := ih (h.remove_again (hv.resolve_left hmem)) fun w hw =>
        (hgone w hw).imp_right fun hw i hi => hremoved i (.inr (hw i hi))
      refine ⟨vs', hhouses, hsub, fun w => ?_⟩
      rw [hiff, List.mem_cons, not_or]
      exact and_congr_right fun hw => (and_iff_right (ne_of_mem_of_not_mem hw hmem)).symm

end Registry

end Cosidia
