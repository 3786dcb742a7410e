import Cosidia.Verify.Registry

/-!
# Resolving temporary objects

`resolveAndStart` first gives every new object an id and schedules its initialisation, and then
relates all objects by their real ids and adds the new ones. What the two loops make of a registry
is told here for any list of temporary objects, together with when they do not throw.
-/

namespace Cosidia

open EStateM Std

namespace Registry

variable {r r' : Registry} {l : List TemporaryObject} {obj : TemporaryObject} {ρ : ObjectId → ObjectId}

/-! ## The first loop -/

theorem start_of_initialized (h : obj.mIsInitialized = true) :
    r.start obj = (obj.setTempMapping (r.objects.cell obj.mBaseObject).mObjectId, r) := by
  simp only [start]
  rw [if_pos h]

theorem start_of_not_initialized (h : obj.mIsInitialized = false) :
    r.start obj = (obj.setTempMapping (r.lastId + 1), r.identify obj.mBaseObject) := by
  simp only [start]
  rw [if_neg (by rw [h]; exact Bool.false_ne_true)]

/-- What the first loop makes of the registry `r` and the list `l`. -/
structure Started (l : List TemporaryObject) (r : Registry) (l' : List TemporaryObject)
    (r' : Registry) : Prop where
  container : r'.container = r.container
  next : r'.objects.next = r.objects.next
  le : r.lastId ≤ r'.lastId
  list : l' = l.map fun obj => obj.setTempMapping (r'.objects.cell obj.mBaseObject).mObjectId
  old : ∀ p, (∀ obj ∈ l, obj.mIsInitialized = false → obj.mBaseObject ≠ p) →
    r'.objects.cell p = r.objects.cell p
  fresh : ∀ obj ∈ l, obj.mIsInitialized = false → ∃ i, r.lastId < i ∧ i ≤ r'.lastId ∧
    r'.objects.cell obj.mBaseObject = { r.objects.cell obj.mBaseObject with mObjectId := i }
  distinct : ∀ obj ∈ l, ∀ obj' ∈ l, obj.mIsInitialized = false → obj'.mIsInitialized = false →
    (r'.objects.cell obj.mBaseObject).mObjectId = (r'.objects.cell obj'.mBaseObject).mObjectId →
    obj.mBaseObject = obj'.mBaseObject

theorem identify_cell (p q : ObjectPtr) : (r.identify p).objects.cell q =
    if q = p then { r.objects.cell p with mObjectId := r.lastId + 1 } else r.objects.cell q :=
  Heap.write_cell ..

/-- An object that is in the simulation already stays as it is. -/
theorem Started.cons_initialized {l' : List TemporaryObject} (h : Started l r l' r')
    (hinit : obj.mIsInitialized = true) (hne : ∀ o ∈ l, o.mBaseObject ≠ obj.mBaseObject) :
    Started (obj :: l) r (obj.setTempMapping (r.objects.cell obj.mBaseObject).mObjectId :: l') r' := by
  have hother : ∀ o ∈ obj :: l, o.mIsInitialized = false → o ∈ l := by
    intro o ho hfalse
    rcases List.mem_cons.1 ho with rfl | ho
    · rw [hinit] at hfalse
      cases hfalse
    · exact ho
  refine ⟨h.container, h.next, h.le, ?_, fun p hp => ?_, fun o ho hfalse => ?_,
    fun o ho o' ho' hfalse hfalse' => ?_⟩
  · have hcell := h.old obj.mBaseObject fun o ho _ => hne o ho
    rw [List.map_cons, hcell]
    exact congrArg _ h.list
  · exact h.old p fun o ho => hp o (List.mem_cons_of_mem _ ho)
  · exact h.fresh o (hother o ho hfalse) hfalse
  · exact h.distinct o (hother o ho hfalse) o' (hother o' ho' hfalse') hfalse hfalse'

/-- A new object gets an id before those that follow it. -/
theorem Started.cons_not_initialized {l' : List TemporaryObject}
    (h : Started l (r.identify obj.mBaseObject) l' r') (hinit : obj.mIsInitialized = false)
    (hne : ∀ o ∈ l, o.mBaseObject ≠ obj.mBaseObject) :
    Started (obj :: l) r (obj.setTempMapping (r.lastId + 1) :: l') r' := by
  have hcell : r'.objects.cell obj.mBaseObject =
      { r.objects.cell obj.mBaseObject with mObjectId := r.lastId + 1 } := by
    rw [h.old obj.mBaseObject fun o ho _ => hne o ho, identify_cell, if_pos rfl]
  have hlt : r.lastId < r.lastId + 1 := Int.lt_succ _
  have hle : r.lastId + 1 ≤ r'.lastId := h.le
  have hfresh : ∀ o ∈ l, o.mIsInitialized = false → ∃ i, r.lastId + 1 < i ∧ i ≤ r'.lastId ∧
      r'.objects.cell o.mBaseObject = { r.objects.cell o.mBaseObject with mObjectId := i } := by
    intro o ho hfalse
    obtain ⟨i, hi, hi', heq⟩ := h.fresh o ho hfalse
    rw [identify_cell, if_neg (hne o ho)] at heq
    exact ⟨i, hi, hi', heq⟩
  refine ⟨h.container, h.next, (Int.le_of_lt hlt).trans hle, ?_, fun p hp => ?_,
    fun o ho hfalse => ?_, fun o ho o' ho' hfalse hfalse' heq => ?_⟩
  · rw [List.map_cons, hcell]
    exact congrArg _ h.list
  · rw [h.old p fun o ho => hp o (List.mem_cons_of_mem _ ho), identify_cell,
      if_neg (hp obj (List.mem_cons_self ..) hinit).symm]
  · rcases List.mem_cons.1 ho with rfl | ho
    · exact ⟨r.lastId + 1, hlt, hle, hcell⟩
    · obtain ⟨i, hi, hi', heq⟩ := hfresh o ho hfalse
      exact ⟨i, hlt.trans hi, hi', heq⟩
  · rcases List.mem_cons.1 ho with rfl | hol
    · rcases List.mem_cons.1 ho' with rfl | hol'
      · rfl
      · obtain ⟨i, hi, -, hcell'⟩ := hfresh o' hol' hfalse'
        rw [hcell, hcell'] at heq
        exact absurd heq hi.ne
    · rcases List.mem_cons.1 ho' with rfl | hol'
      · obtain ⟨i, hi, -, hcell'⟩ := hfresh o hol hfalse
        rw [hcell, hcell'] at heq
        exact absurd heq hi.ne'
      · exact h.distinct o hol o' hol' hfalse hfalse' heq

theorem started_startAll (hl : (l.map (·.mBaseObject)).Nodup) :
    Started l r (startAll l r).1 (startAll l r).2 := by
  induction l generalizing r with
  | nil => exact ⟨rfl, rfl, Int.le_refl _, rfl, fun _ _ => rfl, nofun, nofun⟩
  | cons obj l ih =>
    rw [List.map_cons, List.nodup_cons] at hl
    obtain ⟨hnew, hl⟩ := hl
    have hne : ∀ o ∈ l, o.mBaseObject ≠ obj.mBaseObject := fun o ho heq =>
      hnew (List.mem_map.2 ⟨o, ho, heq⟩)
    simp only [startAll]
    cases hinit : obj.mIsInitialized with
    | true =>
      rw [start_of_initialized hinit]
      exact (ih hl).cons_initialized hinit hne
    | false =>
      rw [start_of_not_initialized hinit]
      exact (ih hl).cons_not_initialized hinit hne

/-! ## The second loop -/

/-- `p` is `b`, which has got the children `c` and the parents `q`. -/
def relatedCell (b : ObjectPtr) (c q : List ObjectId) (r : Registry) (p : ObjectPtr) : BaseObject :=
  if p = b then
    { r.objects.cell b with
      mChildIdList := c.foldl (fun t i => t.insert i) (r.objects.cell b).mChildIdList
      mParentList := q.foldl (fun t i => t.insert i) (r.objects.cell b).mParentList }
  else r.objects.cell p

theorem mem_foldl_insert (l : List ObjectId) (t : TreeSet ObjectId) {j : ObjectId} :
    j ∈ l.foldl (fun t i => t.insert i) t ↔ j ∈ l ∨ j ∈ t := by
  induction l generalizing t with
  | nil => simp
  | cons i l ih =>
    rw [List.foldl_cons, ih, TreeSet.mem_insert, Std.compare_eq_iff_eq, List.mem_cons, or_assoc,
      or_left_comm, eq_comm (a := i)]

/-- Only the object `b` has been changed, and it keeps its name and id. -/
structure Grown (b : ObjectPtr) (c q : List ObjectId) (r r' : Registry) : Prop where
  container : r'.container = r.container
  lastId : r'.lastId = r.lastId
  next : r'.objects.next = r.objects.next
  cell : ∀ p, r'.objects.cell p = relatedCell b c q r p

theorem grown_addChildren (b : ObjectPtr) (l : List ObjectId) (r : Registry) :
    Grown b (l.map ρ) [] r (l.foldl (fun r i => r.addChild b (ρ i)) r) := by
  induction l generalizing r with
  | nil =>
    refine ⟨rfl, rfl, rfl, fun p => ?_⟩
    simp only [relatedCell]
    split_ifs with hp
    · rw [hp]; rfl
    · rfl
  | cons i l ih =>
    have h := ih (r.addChild b (ρ i))
    refine ⟨h.container, h.lastId, h.next, fun p => (h.cell p).trans ?_⟩
    unfold relatedCell addChild modify
    simp only [Heap.write_cell, if_true]
    split_ifs <;> rfl

theorem grown_addParents (b : ObjectPtr) (l : List ObjectId) (r : Registry) :
    Grown b [] (l.map ρ) r (l.foldl (fun r i => r.addParent b (ρ i)) r) := by
  induction l generalizing r with
  | nil =>
    refine ⟨rfl, rfl, rfl, fun p => ?_⟩
    simp only [relatedCell]
    split_ifs with hp
    · rw [hp]; rfl
    · rfl
  | cons i l ih =>
    have h := ih (r.addParent b (ρ i))
    refine ⟨h.container, h.lastId, h.next, fun p => (h.cell p).trans ?_⟩
    unfold relatedCell addParent modify
    simp only [Heap.write_cell, if_true]
    split_ifs <;> rfl

/-- The relations of `obj`, resolved. -/
def grow (ρ : ObjectId → ObjectId) (obj : TemporaryObject) (r : Registry) : Registry :=
  obj.mTempParents.toList.foldl (fun r i => r.addParent obj.mBaseObject (ρ i))
    (obj.mTempChildren.toList.foldl (fun r i => r.addChild obj.mBaseObject (ρ i)) r)

theorem grown_grow (ρ : ObjectId → ObjectId) (obj : TemporaryObject) (r : Registry) :
    Grown obj.mBaseObject (obj.mTempChildren.toList.map ρ) (obj.mTempParents.toList.map ρ) r
      (r.grow ρ obj) := by
  have h := grown_addChildren (ρ := ρ) obj.mBaseObject obj.mTempChildren.toList r
  have h' := grown_addParents (ρ := ρ) obj.mBaseObject obj.mTempParents.toList
    (obj.mTempChildren.toList.foldl (fun r i => r.addChild obj.mBaseObject (ρ i)) r)
  refine ⟨h'.container.trans h.container, h'.lastId.trans h.lastId, h'.next.trans h.next,
    fun p => (h'.cell p).trans ?_⟩
  simp only [relatedCell]
  rw [h.cell, h.cell]
  unfold relatedCell
  rw [if_pos rfl]
  split_ifs <;> rfl

theorem relate_eq (ρ : ObjectId → ObjectId) (obj : TemporaryObject) (r : Registry) :
    r.relate ρ obj =
      if obj.mIsInitialized then r.grow ρ obj else (r.grow ρ obj).add obj.mBaseObject := rfl

/-- What the relations of `l`, resolved by `ρ`, make of the registry `r`. -/
structure Related (ρ : ObjectId → ObjectId) (l : List TemporaryObject) (r r' : Registry) : Prop where
  lastId : r'.lastId = r.lastId
  next : r'.objects.next = r.objects.next
  unique : r'.container.mUniqueObjects = r.container.mUniqueObjects
  removed : r'.container.mRemovedObjects = r.container.mRemovedObjects
  cell : ∀ p, ∃ children parents, r'.objects.cell p =
    { r.objects.cell p with mChildIdList := children, mParentList := parents }
  children : ∀ p j, j ∈ (r'.objects.cell p).mChildIdList ↔
    (∃ obj ∈ l, obj.mBaseObject = p ∧ ∃ i ∈ obj.mTempChildren, ρ i = j) ∨
      j ∈ (r.objects.cell p).mChildIdList
  parents : ∀ p j, j ∈ (r'.objects.cell p).mParentList ↔
    (∃ obj ∈ l, obj.mBaseObject = p ∧ ∃ i ∈ obj.mTempParents, ρ i = j) ∨
      j ∈ (r.objects.cell p).mParentList

theorem Related.refl (ρ : ObjectId → ObjectId) (r : Registry) : Related ρ [] r r :=
  ⟨rfl, rfl, rfl, rfl, fun p => ⟨_, _, rfl⟩, fun p j => by simp, fun p j => by simp⟩

theorem Related.append {l' : List TemporaryObject} {r'' : Registry} (h : Related ρ l r r')
    (h' : Related ρ l' r' r'') : Related ρ (l ++ l') r r'' where
  lastId := h'.lastId.trans h.lastId
  next := h'.next.trans h.next
  unique := h'.unique.trans h.unique
  removed := h'.removed.trans h.removed
  cell p := by
    obtain ⟨c, q, heq⟩ := h.cell p
    obtain ⟨c', q', heq'⟩ := h'.cell p
    exact ⟨c', q', by rw [heq', heq]⟩
  children p j := by
    rw [h'.children, h.children, ← or_assoc]
    apply or_congr_left
    simp only [List.mem_append, or_and_right, exists_or]
    exact or_comm
  parents p j := by
    rw [h'.parents, h.parents, ← or_assoc]
    apply or_congr_left
    simp only [List.mem_append, or_and_right, exists_or]
    exact or_comm

theorem mem_map_toList {t : TreeSet ObjectId} {j : ObjectId} :
    j ∈ t.toList.map ρ ↔ ∃ i ∈ t, ρ i = j := by
  simp only [List.mem_map, TreeSet.mem_toList]

theorem Grown.related {c q : List ObjectId} (h : Grown obj.mBaseObject c q r r')
    (hc : ∀ j, j ∈ c ↔ ∃ i ∈ obj.mTempChildren, ρ i = j)
    (hq : ∀ j, j ∈ q ↔ ∃ i ∈ obj.mTempParents, ρ i = j) : Related ρ [obj] r r' where
  lastId := h.lastId
  next := h.next
  unique := by rw [h.container]
  removed := by rw [h.container]
  cell p := by
    rw [h.cell]
    simp only [relatedCell]
    split_ifs with hp
    · exact ⟨_, _, by rw [hp]⟩
    · exact ⟨_, _, rfl⟩
  children p j := by
    rw [h.cell]
    simp only [relatedCell]
    split_ifs with hp
    · rw [mem_foldl_insert, hc, hp]
      simp
    · simp [Ne.symm hp]
  parents p j := by
    rw [h.cell]
    simp only [relatedCell]
    split_ifs with hp
    · rw [mem_foldl_insert, hq, hp]
      simp
    · simp [Ne.symm hp]

theorem related_grow (ρ : ObjectId → ObjectId) (obj : TemporaryObject) (r : Registry) :
    Related ρ [obj] r (r.grow ρ obj) :=
  (grown_grow ρ obj r).related (fun _ => mem_map_toList) fun _ => mem_map_toList

theorem related_relate (ρ : ObjectId → ObjectId) (obj : TemporaryObject) (r : Registry) :
    Related ρ [obj] r (r.relate ρ obj) := by
  have h := related_grow ρ obj r
  rw [relate_eq]
  cases obj.mIsInitialized with
  | true => exact h
  | false => exact { h with }

theorem related_relateAll (ρ : ObjectId → ObjectId) (l : List TemporaryObject) (r : Registry) :
    Related ρ l r (l.foldl (fun r obj => r.relate ρ obj) r) := by
  induction l generalizing r with
  | nil => exact .refl ρ r
  | cons obj l ih => exact (related_relate ρ obj r).append (ih _)

theorem Related.mObjectId (h : Related ρ l r r') (p : ObjectPtr) :
    (r'.objects.cell p).mObjectId = (r.objects.cell p).mObjectId := by
  obtain ⟨c, q, heq⟩ := h.cell p
  rw [heq]

/-- The new objects of `l` can be added: their ids are not in use and differ. -/
structure Addable (l : List TemporaryObject) (r : Registry) : Prop where
  unused : ∀ obj ∈ l, obj.mIsInitialized = false →
    (r.objects.cell obj.mBaseObject).mObjectId ∉ r.container.mActiveObjects
  distinct : l.Pairwise fun obj obj' => obj.mIsInitialized = false → obj'.mIsInitialized = false →
    (r.objects.cell obj.mBaseObject).mObjectId ≠ (r.objects.cell obj'.mBaseObject).mObjectId

theorem relate_active (ρ : ObjectId → ObjectId) (obj : TemporaryObject) (r : Registry)
    (i : ObjectId) : (r.relate ρ obj).container.mActiveObjects[i]? =
      if obj.mIsInitialized = false ∧ (r.objects.cell obj.mBaseObject).mObjectId = i then
        some obj.mBaseObject
      else r.container.mActiveObjects[i]? := by
  have hid := (related_grow ρ obj r).mObjectId obj.mBaseObject
  have hcontainer := (grown_grow ρ obj r).container
  rw [relate_eq]
  cases obj.mIsInitialized with
  | true =>
    rw [if_pos rfl, hcontainer, if_neg]
    exact fun h => by cases h.1
  | false =>
    rw [if_neg Bool.false_ne_true]
    refine TreeMap.getElem?_insert.trans ?_
    rw [hid, hcontainer]
    exact if_congr (by rw [Std.compare_eq_iff_eq]; simp) rfl rfl

theorem Addable.tail {obj : TemporaryObject} (h : Addable (obj :: l) r) :
    Addable l (r.relate ρ obj) := by
  have hid := (related_relate ρ obj r).mObjectId
  obtain ⟨hhead, htail⟩ := List.pairwise_cons.1 h.distinct
  refine ⟨fun o ho hinit hmem => ?_, htail.imp fun {o o'} hne => ?_⟩
  · rw [hid, TreeMap.mem_iff_isSome_getElem?, relate_active] at hmem
    split_ifs at hmem with heq
    · exact hhead o ho heq.1 hinit heq.2
    · exact h.unused o (List.mem_cons_of_mem _ ho) hinit
        (TreeMap.mem_iff_isSome_getElem?.2 hmem)
  · rwa [hid, hid]

/-- What is active after the second loop: the new objects and what has been active before. -/
theorem relateAll_active (ρ : ObjectId → ObjectId) (l : List TemporaryObject) {r : Registry}
    (h : Addable l r) (i : ObjectId) (p : ObjectPtr) :
    (l.foldl (fun r obj => r.relate ρ obj) r).container.mActiveObjects[i]? = some p ↔
      (∃ obj ∈ l, obj.mIsInitialized = false ∧ obj.mBaseObject = p ∧
        (r.objects.cell p).mObjectId = i) ∨ r.container.mActiveObjects[i]? = some p := by
  induction l generalizing r with
  | nil => simp
  | cons obj l ih =>
    have hid := (related_relate ρ obj r).mObjectId
    rw [List.foldl_cons, ih h.tail, List.exists_mem_cons_iff, relate_active, or_comm (a := _ ∧ _),
      or_assoc]
    apply or_congr (by simp only [hid])
    split_ifs with hadd
    · obtain ⟨hinit, heq⟩ := hadd
      have hunused := h.unused obj (List.mem_cons_self ..) hinit
      rw [heq] at hunused
      rw [TreeMap.getElem?_eq_none hunused, Option.some.injEq]
      refine ⟨fun hp => .inl ⟨hinit, hp, hp ▸ heq⟩, fun hp => hp.elim (fun hp => hp.2.1) nofun⟩
    · refine ⟨fun hp => .inr hp, fun hp => hp.resolve_left fun ⟨hinit, hp, heq⟩ => ?_⟩
      exact hadd ⟨hinit, hp ▸ heq⟩

end Registry

/-! ## Initialisations -/

variable {ω : Type} {s s' : Core ω}

/-- What a pending handler is about: its kind, the object it is for and its time. -/
def Core.about (s : Core ω) (h : Scheduling) : HandlerKind × ObjectId × TimePoint :=
  (h.handler.kind, (s.actions.cell h.handler.mCorrespondingAction).mAffectedObject, h.time)

/-- From `s` to `s'` initialisations of `ids` at `t` have been scheduled, and no other handlers. -/
structure Inits (t : TimePoint) (ids : List ObjectId) (s s' : Core ω) : Prop where
  now : s'.mCurrentActionTime = s.mCurrentActionTime
  world : s'.world = s.world
  next : s.actions.next ≤ s'.actions.next
  kept : ∀ q < s.actions.next, s'.actions.cell q = s.actions.cell q
  filed : s.mActions.Filed Scheduling.time → s'.mActions.Filed Scheduling.time
  pending : s.mActions.Filed Scheduling.time → ∃ new : List Scheduling,
    s'.mActions.entries.Perm (new ++ s.mActions.entries) ∧
    (∀ h ∈ new, h.handler.mCorrespondingAction < s'.actions.next) ∧
    new.map s'.about = ids.map fun id => (HandlerKind.handlerInit, id, t)

/-- The actions and their handlers are the same, and so is the world. -/
structure SameActions (s s' : Core ω) : Prop where
  now : s'.mCurrentActionTime = s.mCurrentActionTime
  world : s'.world = s.world
  actions : s'.actions = s.actions
  mActions : s'.mActions = s.mActions

theorem SameActions.refl (s : Core ω) : SameActions s s := ⟨rfl, rfl, rfl, rfl⟩

theorem SameActions.trans {s'' : Core ω} (h : SameActions s s') (h' : SameActions s' s'') :
    SameActions s s'' :=
  ⟨h'.now.trans h.now, h'.world.trans h.world, h'.actions.trans h.actions,
    h'.mActions.trans h.mActions⟩

theorem SameActions.inits (h : SameActions s s') (t : TimePoint) : Inits t [] s s' where
  now := h.now
  world := h.world
  next := by rw [h.actions]
  kept q _ := by rw [h.actions]
  filed hf := by rwa [h.mActions]
  pending _ := ⟨[], by rw [h.mActions, List.nil_append], nofun, rfl⟩

theorem Inits.trans {t : TimePoint} {ids ids' : List ObjectId} {s'' : Core ω}
    (h : Inits t ids s s') (h' : Inits t ids' s' s'') : Inits t (ids ++ ids') s s'' where
  now := h'.now.trans h.now
  world := h'.world.trans h.world
  next := h.next.trans h'.next
  kept q hq := (h'.kept q (hq.trans_le h.next)).trans (h.kept q hq)
  filed hf := h'.filed (h.filed hf)
  pending hf := by
    obtain ⟨new, hperm, hmade, hnew⟩ := h.pending hf
    obtain ⟨new', hperm', hmade', hnew'⟩ := h'.pending (h.filed hf)
    refine ⟨new ++ new', ?_, fun x hx => ?_, ?_⟩
    · refine hperm'.trans ((hperm.append_left new').trans ?_)
      rw [← List.append_assoc]
      exact List.perm_append_comm.append_right _
    · rcases List.mem_append.1 hx with hx | hx
      · exact (hmade x hx).trans_le h'.next
      · exact hmade' x hx
    · rw [List.map_append, List.map_append, ← hnew, ← hnew']
      congr 1
      apply List.map_congr_left
      intro x hx
      simp only [Core.about]
      rw [h'.kept _ (hmade x hx)]

theorem inits_schedule {t : TimePoint} {id : ObjectId} {a : Action} (hkind : a.kind = .initAction)
    (hid : a.mAffectedObject = id) (ht : a.mStartTime = t) :
    Inits t [id] s (Core.schedule s.actions.next { s with actions := s.actions.alloc a }) := by
  set s₁ : Core ω := { s with actions := s.actions.alloc a } with hs₁
  have hcell : s₁.actions.cell s.actions.next = a := Heap.alloc_cell_self ..
  have hlt : s.actions.next < s₁.actions.next := Nat.lt_succ_self _
  obtain ⟨h, hactions, htime, hhandler⟩ := Core.schedule_mActions s.actions.next s₁
  rw [hcell] at htime hhandler
  have hpush : (s₁.schedule s.actions.next).mActions = s.mActions.push h.time h := by
    rw [hactions]
  refine ⟨rfl, rfl, Nat.le_succ _, fun q hq => ?_, fun hf => ?_, fun hf => ⟨[h], ?_, fun x hx => ?_, ?_⟩⟩
  · rw [Core.schedule_cell_of_ne hq.ne, hs₁]
    exact Heap.alloc_cell_of_lt hq
  · rw [hpush]
    exact BucketMap.Filed.push hf h
  · rw [hpush]
    exact BucketMap.Filed.entries_push_perm hf h
  · rw [List.mem_singleton.1 hx, hhandler]
    exact hlt
  · unfold Core.about
    rw [List.map_singleton, hhandler, Core.schedule_cell, hcell, htime]
    simp [Action.scheduled, hkind, hid, ht, ActionKind.startHandler]

/-! ## The loops do not throw -/

/-- A method of the action that has just been made. -/
theorem onAction_newest {α : Type} {x : EStateM Failure Action α} {a a' : Action} {b : α}
    (hx : x a = .ok b a') (s : Core ω) :
    onAction s.actions.next x { s with actions := s.actions.alloc a } =
      .ok b { s with actions := s.actions.alloc a' } := by
  have hlt : s.actions.next < (s.actions.alloc a).next := Nat.lt_succ_self _
  apply (onAction_of_ok hlt (by rwa [Heap.alloc_cell_self])).trans
  simp only [Core.writeAction]
  rw [Heap.alloc_write]

namespace Registry

variable {r : Registry} {obj : TemporaryObject} {ρ : ObjectId → ObjectId}
variable {t : TimePoint} {ids : TreeMap ObjectId TemporaryObject}

/-- The ids given to the new objects of a list. -/
def newIds (l : List TemporaryObject) : List ObjectId :=
  (l.filter fun obj => !obj.mIsInitialized).map (·.mTempMapping.2)

theorem onObject_ok (h : Shows r s) {p : ObjectPtr} (hp : p < r.objects.next)
    {x : EStateM Failure BaseObject Unit} {f : BaseObject → BaseObject}
    (hx : ∀ o, x o = .ok () (f o)) :
    ∃ s', onObject p x s = .ok () s' ∧ Shows (r.modify p f) s' ∧ SameActions s s' := by
  have hp' : p < s.objects.next := by rwa [h.objects]
  refine ⟨s.writeObject p (f (s.objects.cell p)), ?_, ?_, ⟨rfl, rfl, rfl, rfl⟩⟩
  · simp only [onObject]
    rw [if_pos hp', zoom_eq_ok]
    exact ⟨_, hx _, rfl⟩
  · exact { h with objects := by rw [Core.writeObject_objects, h.objects]; rfl }

theorem initializeAt_ok (h : Shows r s) (hmade : obj.mBaseObject < r.objects.next)
    (hid : 0 ≤ r.lastId) (hnow : s.mCurrentActionTime ≤ t + Duration.milliseconds 1)
    (h0 : 0 ≤ t + Duration.milliseconds 1) :
    ∃ s', obj.initializeAt t s = .ok (r.start obj).1 s' ∧ Shows (r.start obj).2 s' ∧
      Inits (t + Duration.milliseconds 1) (newIds [(r.start obj).1]) s s' := by
  have hmade' : obj.mBaseObject < s.objects.next := by rwa [h.objects]
  simp only [TemporaryObject.initializeAt]
  cases hinit : obj.mIsInitialized with
  | true =>
    rw [start_of_initialized hinit]
    have hnew : newIds [obj.setTempMapping (r.objects.cell obj.mBaseObject).mObjectId] = [] := by
      simp [newIds, TemporaryObject.setTempMapping, hinit]
    refine ⟨s, ?_, h, ?_⟩
    · show (getObject _ >>= _) s = _
      rw [bind_apply, getObject_of_lt hmade', h.objects]
      rfl
    · rw [hnew]
      exact (SameActions.refl s).inits _
  | false =>
    rw [start_of_not_initialized hinit]
    have hnew : newIds [obj.setTempMapping (r.lastId + 1)] = [r.lastId + 1] := by
      simp [newIds, TemporaryObject.setTempMapping, hinit]
    rw [hnew]
    obtain ⟨id, s₁, hnext, rfl, h₁⟩ : ∃ id s₁, Core.getNextObjectId s = .ok id s₁ ∧
        id = r.lastId + 1 ∧ Shows r.giveId s₁ ∧ SameActions s s₁ :=
      ⟨_, _, rfl, ((shows_getNextObjectId h).ok rfl).1, ((shows_getNextObjectId h).ok rfl).2,
        ⟨rfl, rfl, rfl, rfl⟩⟩
    obtain ⟨s₂, hset, h₂⟩ := onObject_ok h₁.1 hmade
      (f := fun o => { o with mObjectId := r.lastId + 1 })
      (x := BaseObject.setObjectId (r.lastId + 1)) fun _ => rfl
    have hsame := h₁.2.trans h₂.2
    have hvalid : ObjectId.valid (r.lastId + 1) = true :=
      decide_eq_true (by omega : (r.lastId + 1 : Int) > -1)
    set a : Action :=
      { kind := .initAction, mDuration := Duration.milliseconds 50
        mStartTime := t + Duration.milliseconds 1
        mAffectedObject := r.lastId + 1, mGeneratingObject := r.lastId + 1 } with ha
    set s₃ : Core ω := { s₂ with actions := s₂.actions.alloc a } with hs₃
    have hcell : s₃.actions.cell s₂.actions.next = a := Heap.alloc_cell_self ..
    have hschedule : Action.scheduleStartHandler s₂.actions.next s₃ =
        .ok () (s₃.schedule s₂.actions.next) := by
      apply Action.scheduleStartHandler_apply (Nat.lt_succ_self _)
      · rw [hcell]
      · rw [hcell]
      · rw [hcell]
        exact (hsame.now.trans_le hnow :)
    refine ⟨s₃.schedule s₂.actions.next, ?_, ?_, ?_⟩
    · show (Core.getNextObjectId >>= _) s = _
      rw [bind_apply, hnext]
      show (onObject _ _ >>= _) s₁ = _
      rw [bind_apply, hset]
      show (ActionFactory.create _ _ _ _ _ >>= _) s₂ = _
      rw [bind_apply, ActionFactory.create_apply hvalid h0]
      show (Action.scheduleStartHandler _ >>= _) s₃ = _
      rw [bind_apply, hschedule]
      rfl
    · exact { h₂.1 with }
    · have hinits := (hsame.inits (t + Duration.milliseconds 1)).trans
        (inits_schedule (s := s₂) (a := a) rfl rfl rfl)
      rwa [List.nil_append] at hinits

theorem mapM_ok (l : List TemporaryObject) (h : Shows r s)
    (hmade : ∀ obj ∈ l, obj.mBaseObject < r.objects.next) (hid : 0 ≤ r.lastId)
    (hnow : s.mCurrentActionTime ≤ t + Duration.milliseconds 1)
    (h0 : 0 ≤ t + Duration.milliseconds 1) :
    ∃ s', l.mapM (TemporaryObject.initializeAt t) s = .ok (startAll l r).1 s' ∧
      Shows (startAll l r).2 s' ∧
      Inits (t + Duration.milliseconds 1) (newIds (startAll l r).1) s s' := by
  induction l generalizing r s with
  | nil => exact ⟨s, rfl, h, (SameActions.refl s).inits _⟩
  | cons obj l ih =>
    obtain ⟨s₁, hok, h₁, hinits⟩ := initializeAt_ok h (hmade obj (List.mem_cons_self ..)) hid hnow h0
    have hnext : (r.start obj).2.objects.next = r.objects.next ∧ r.lastId ≤ (r.start obj).2.lastId := by
      simp only [start]
      split_ifs
      · exact ⟨rfl, Int.le_refl _⟩
      · exact ⟨rfl, Int.le_of_lt (Int.lt_succ _)⟩
    obtain ⟨s₂, hok', h₂, hinits'⟩ := ih h₁
      (fun o ho => by rw [hnext.1]; exact hmade o (List.mem_cons_of_mem _ ho))
      (Int.le_trans hid hnext.2) (hinits.now.trans_le hnow)
    refine ⟨s₂, ?_, h₂, ?_⟩
    · rw [List.mapM_cons, bind_apply, hok]
      show ((List.mapM (TemporaryObject.initializeAt t) l : CoreM ω _) >>= _) s₁ = _
      rw [bind_apply, hok']
      rfl
    · have hids : newIds (startAll (obj :: l) r).1 =
          newIds [(r.start obj).1] ++ newIds (startAll l (r.start obj).2).1 := by
        simp only [newIds]
        rw [← List.map_append, ← List.filter_append]
        rfl
      rw [hids]
      exact hinits.trans hinits'

/-- The ids `l`, all of which can be resolved, become children or parents of the object `b`. -/
theorem relatives_ok {b : ObjectPtr} {x : ObjectId → EStateM Failure BaseObject Unit}
    {f : ObjectId → BaseObject → BaseObject} (hx : ∀ i o, x i o = .ok () (f i o))
    (l : List ObjectId) (h : Shows r s) (hb : b < r.objects.next)
    (hl : ∀ i ∈ l, TemporaryObjectList.resolve ids i = .ok (ρ i)) :
    ∃ s', (l.forM fun i => do
        onObject b (x (← ofExcept (TemporaryObjectList.resolve ids i)))) s = .ok () s' ∧
      Shows (l.foldl (fun r i => r.modify b (f (ρ i))) r) s' ∧ SameActions s s' := by
  induction l generalizing r s with
  | nil => exact ⟨s, rfl, h, .refl s⟩
  | cons i l ih =>
    obtain ⟨s₁, hok, h₁, hsame⟩ := onObject_ok h hb (hx (ρ i))
    obtain ⟨s₂, hok', h₂, hsame'⟩ := ih h₁ hb fun j hj => hl j (List.mem_cons_of_mem _ hj)
    refine ⟨s₂, ?_, h₂, hsame.trans hsame'⟩
    show ((ofExcept _ >>= _) >>= _) s = _
    rw [hl i (List.mem_cons_self ..)]
    show (onObject _ _ >>= _) s = _
    rw [bind_apply, hok]
    exact hok'

theorem addObject_ok (h : Shows r s) {p : ObjectPtr} (hp : p < r.objects.next)
    (hinit : (r.objects.cell p).isInitialized = true)
    (hnew : (r.objects.cell p).mObjectId ∉ r.container.mActiveObjects) :
    ∃ s', Core.addObject p s = .ok () s' ∧ Shows (r.add p) s' ∧ SameActions s s' := by
  have hget : getObject p s = .ok (r.objects.cell p) s := by
    rw [getObject_of_lt (by rwa [h.objects]), h.objects]
  have hinsert : ObjectContainer.insert true p (r.objects.cell p) s.mObjectList.workingCopy =
      .ok () _ := ObjectContainer.insert_eq_ok.2 ⟨rfl, hinit, by rwa [h.workingCopy], rfl⟩
  obtain ⟨l', hl'⟩ : ∃ l', ObjectList.addToObjectContainer true (r.objects.cell p).mObjectId p
      (r.objects.cell p) s.mObjectList = .ok () l' :=
    ⟨_, bind_eq_ok.2 ⟨(), _, zoom_eq_ok.2 ⟨_, hinsert, rfl⟩, rfl⟩⟩
  have hok : Core.addObject p s = .ok () (s.writeObjectList l') := by
    simp only [Core.addObject]
    rw [bind_apply, hget]
    show (enforce _ _ >>= _) s = _
    rw [hinit, enforce_true]
    exact zoom_eq_ok.2 ⟨l', hl', rfl⟩
  exact ⟨_, hok, ((shows_addObject h p).ok hok).2.2, rfl, rfl, rfl, rfl⟩

/-- The object can be added to the container when its relations have been resolved. -/
def Complete (obj : TemporaryObject) (r : Registry) : Prop :=
  (r.objects.cell obj.mBaseObject).mObjectName ≠ "" ∧
    (r.objects.cell obj.mBaseObject).mObjectId.valid = true ∧
    (r.objects.cell obj.mBaseObject).mExternalId ≠ some "" ∧ ∃ i, i ∈ obj.mTempParents

theorem isInitialized_of_complete (h : Complete obj r) :
    ((r.grow ρ obj).objects.cell obj.mBaseObject).isInitialized = true := by
  obtain ⟨hname, hid, hexternal, i, hi⟩ := h
  obtain ⟨c, q, heq⟩ := (related_grow ρ obj r).cell obj.mBaseObject
  have hmem := ((related_grow ρ obj r).parents obj.mBaseObject (ρ i)).2
    (.inl ⟨obj, List.mem_singleton_self _, rfl, i, hi, rfl⟩)
  have hparents : ((r.grow ρ obj).objects.cell obj.mBaseObject).mParentList.isEmpty = false := by
    rw [← Bool.not_eq_true]
    exact fun hempty => TreeSet.not_mem_of_isEmpty hempty hmem
  simp only [BaseObject.isInitialized]
  rw [hparents, heq]
  simp only [hid, bne_iff_ne.2 hname, Bool.not_false, Bool.and_true, Bool.true_and]
  cases hext : (r.objects.cell obj.mBaseObject).mExternalId with
  | none => rfl
  | some x =>
    rw [hext] at hexternal
    exact bne_iff_ne.2 fun hx => hexternal (congrArg some hx)

/-- The temporary ids that `obj` names can be resolved. -/
def Resolves (ids : TreeMap ObjectId TemporaryObject) (ρ : ObjectId → ObjectId)
    (obj : TemporaryObject) : Prop :=
  (∀ i ∈ obj.mTempChildren, TemporaryObjectList.resolve ids i = .ok (ρ i)) ∧
    ∀ i ∈ obj.mTempParents, TemporaryObjectList.resolve ids i = .ok (ρ i)

theorem relate_ok (h : Shows r s) (hp : obj.mBaseObject < r.objects.next)
    (hρ : Resolves ids ρ obj) (hnew : obj.mIsInitialized = false →
      ((r.grow ρ obj).objects.cell obj.mBaseObject).isInitialized = true ∧
        (r.objects.cell obj.mBaseObject).mObjectId ∉ r.container.mActiveObjects) :
    ∃ s', TemporaryObjectList.relate ids obj s = .ok () s' ∧ Shows (r.relate ρ obj) s' ∧
      SameActions s s' := by
  obtain ⟨s₁, hok₁, h₁, hsame₁⟩ := relatives_ok (x := BaseObject.addChild)
    (f := fun i o => { o with mChildIdList := o.mChildIdList.insert i }) (fun _ _ => rfl)
    obj.mTempChildren.toList h hp fun i hi => hρ.1 i (TreeSet.mem_toList.1 hi)
  have hnext := (grown_addChildren (ρ := ρ) obj.mBaseObject obj.mTempChildren.toList r).next
  obtain ⟨s₂, hok₂, h₂, hsame₂⟩ := relatives_ok (x := BaseObject.addParent)
    (f := fun i o => { o with mParentList := o.mParentList.insert i }) (fun _ _ => rfl)
    obj.mTempParents.toList h₁ (hp.trans_eq hnext.symm) fun i hi => hρ.2 i (TreeSet.mem_toList.1 hi)
  have hrun : ∀ (x : CoreM ω Unit) (u : Unit) (s₃ : Core ω), x s₂ = .ok u s₃ →
      (do
        obj.mTempChildren.toList.forM fun child => do
          obj.setRealChildren (← ofExcept (TemporaryObjectList.resolve ids child))
        obj.mTempParents.toList.forM fun parent => do
          obj.setRealParent (← ofExcept (TemporaryObjectList.resolve ids parent))
        x) s = .ok u s₃ := fun x u s₃ hx =>
    bind_eq_ok.2 ⟨(), s₁, hok₁, bind_eq_ok.2 ⟨(), s₂, hok₂, hx⟩⟩
  rw [relate_eq]
  cases hinit : obj.mIsInitialized with
  | true =>
    refine ⟨s₂, ?_, h₂, hsame₁.trans hsame₂⟩
    simp only [TemporaryObjectList.relate]
    rw [hinit]
    exact hrun _ _ _ rfl
  | false =>
    have hid := (related_grow ρ obj r).mObjectId obj.mBaseObject
    have hgrown : Shows (r.grow ρ obj) s₂ := h₂
    obtain ⟨s₃, hok₃, h₃, hsame₃⟩ := addObject_ok hgrown
      (hp.trans_eq (grown_grow ρ obj r).next.symm) (hnew hinit).1
      (by rw [hid, (grown_grow ρ obj r).container]; exact (hnew hinit).2)
    refine ⟨s₃, ?_, h₃, (hsame₁.trans hsame₂).trans hsame₃⟩
    simp only [TemporaryObjectList.relate]
    rw [hinit]
    exact hrun _ _ _ hok₃

theorem Complete.relate {obj : TemporaryObject} (o : TemporaryObject) (h : Complete obj r) :
    Complete obj (r.relate ρ o) := by
  obtain ⟨c, q, heq⟩ := (related_relate ρ o r).cell obj.mBaseObject
  simp only [Complete]
  rw [heq]
  exact h

theorem forM_ok (l : List TemporaryObject) (h : Shows r s)
    (hmade : ∀ obj ∈ l, obj.mBaseObject < r.objects.next) (hρ : ∀ obj ∈ l, Resolves ids ρ obj)
    (hcomplete : ∀ obj ∈ l, obj.mIsInitialized = false → Complete obj r) (hadd : Addable l r) :
    ∃ s', l.forM (TemporaryObjectList.relate ids) s = .ok () s' ∧
      Shows (l.foldl (fun r obj => r.relate ρ obj) r) s' ∧ SameActions s s' := by
  induction l generalizing r s with
  | nil => exact ⟨s, rfl, h, .refl s⟩
  | cons obj l ih =>
    have hmem : obj ∈ obj :: l := List.mem_cons_self ..
    obtain ⟨s₁, hok, h₁, hsame⟩ := relate_ok h (hmade obj hmem) (hρ obj hmem) fun hinit =>
      ⟨isInitialized_of_complete (hcomplete obj hmem hinit), hadd.unused obj hmem hinit⟩
    have hnext := (related_relate ρ obj r).next
    obtain ⟨s₂, hok', h₂, hsame'⟩ := ih h₁
      (fun o ho => (hmade o (List.mem_cons_of_mem _ ho)).trans_eq hnext.symm)
      (fun o ho => hρ o (List.mem_cons_of_mem _ ho))
      (fun o ho hinit => (hcomplete o (List.mem_cons_of_mem _ ho) hinit).relate obj) hadd.tail
    exact ⟨s₂, bind_eq_ok.2 ⟨(), s₁, hok, hok'⟩, h₂, hsame.trans hsame'⟩

/-! ## Both loops -/

/-- The temporary objects `l` can be resolved in `r`. -/
structure Resolvable (l : List TemporaryObject) (r : Registry) : Prop where
  tempIds : (l.map (·.mTempId)).Nodup
  baseObjects : (l.map (·.mBaseObject)).Nodup
  made : ∀ obj ∈ l, obj.mBaseObject < r.objects.next
  children : ∀ obj ∈ l, ∀ i ∈ obj.mTempChildren, ∃ o ∈ l, o.mTempId = i
  parents : ∀ obj ∈ l, ∀ i ∈ obj.mTempParents, ∃ o ∈ l, o.mTempId = i
  new : ∀ obj ∈ l, obj.mIsInitialized = false →
    (r.objects.cell obj.mBaseObject).mObjectName ≠ "" ∧
    (r.objects.cell obj.mBaseObject).mExternalId ≠ some "" ∧ ∃ i, i ∈ obj.mTempParents
  present : ∀ obj ∈ l, obj.mIsInitialized = true →
    r.container.mActiveObjects[(r.objects.cell obj.mBaseObject).mObjectId]? = some obj.mBaseObject

/-- Ids in use are valid and have been given out. -/
structure Counted (r : Registry) : Prop where
  lastId : 0 ≤ r.lastId
  active : ∀ i ∈ r.container.mActiveObjects, i.valid = true ∧ i ≤ r.lastId

/-- What both loops make of `r`. -/
def resolved (l : List TemporaryObject) (r : Registry) : Registry :=
  (startAll l r).1.foldl (fun r' obj => r'.relate (realId (startAll l r).1) obj) (startAll l r).2

theorem foldl_insert_of_notMem (l : List TemporaryObject) (m : TreeMap ObjectId TemporaryObject)
    {i : ObjectId} (hi : i ∉ l.map (·.mTempId)) :
    (l.foldl (fun ids obj => ids.insert obj.mTempId obj) m)[i]? = m[i]? := by
  induction l generalizing m with
  | nil => rfl
  | cons obj l ih =>
    rw [List.map_cons, List.mem_cons, not_or] at hi
    rw [List.foldl_cons, ih _ hi.2, TreeMap.getElem?_insert,
      if_neg (mt Std.compare_eq_iff_eq.1 (Ne.symm hi.1))]

theorem foldl_insert_of_mem {l : List TemporaryObject} (hl : (l.map (·.mTempId)).Nodup)
    (m : TreeMap ObjectId TemporaryObject) (hobj : obj ∈ l) :
    (l.foldl (fun ids obj => ids.insert obj.mTempId obj) m)[obj.mTempId]? = some obj := by
  induction l generalizing m with
  | nil => cases hobj
  | cons o l ih =>
    rw [List.map_cons, List.nodup_cons] at hl
    rw [List.foldl_cons]
    rcases List.mem_cons.1 hobj with rfl | hobj
    · rw [foldl_insert_of_notMem l _ hl.1, TreeMap.getElem?_insert_self]
    · exact ih hl.2 _ hobj

section
variable {l : List TemporaryObject} (hl : Resolvable l r)
include hl

theorem Resolvable.started : Started l r (startAll l r).1 (startAll l r).2 :=
  started_startAll hl.baseObjects

theorem Resolvable.tempIds_startAll : ((startAll l r).1.map (·.mTempId)).Nodup := by
  rw [hl.started.list, List.map_map]
  exact hl.tempIds

/-- A temporary id is mapped to the id that its object has after the first loop. -/
theorem Resolvable.realId (hobj : obj ∈ l) : realId (startAll l r).1 obj.mTempId =
    ((startAll l r).2.objects.cell obj.mBaseObject).mObjectId := by
  have hmem : obj.setTempMapping ((startAll l r).2.objects.cell obj.mBaseObject).mObjectId ∈
      (startAll l r).1 := by
    rw [hl.started.list]
    exact List.mem_map_of_mem hobj
  have hget := foldl_insert_of_mem hl.tempIds_startAll ∅ hmem
  simp only [Registry.realId]
  rw [show obj.mTempId = (obj.setTempMapping
    ((startAll l r).2.objects.cell obj.mBaseObject).mObjectId).mTempId from rfl, hget]
  rfl

/-- The id of an object that is part of the simulation already does not change. -/
theorem Resolvable.cell_present (hobj : obj ∈ l) (hinit : obj.mIsInitialized = true) :
    (startAll l r).2.objects.cell obj.mBaseObject = r.objects.cell obj.mBaseObject := by
  apply hl.started.old _
  intro o ho hfalse heq
  rw [List.inj_on_of_nodup_map hl.baseObjects ho hobj heq, hinit] at hfalse
  cases hfalse

theorem Resolvable.valid (hr : Counted r) (hobj : obj ∈ l) :
    ((startAll l r).2.objects.cell obj.mBaseObject).mObjectId.valid = true := by
  cases hinit : obj.mIsInitialized with
  | true =>
    rw [hl.cell_present hobj hinit]
    refine (hr.active _ ?_).1
    rw [TreeMap.mem_iff_isSome_getElem?, hl.present obj hobj hinit]
    rfl
  | false =>
    obtain ⟨i, hi, -, heq⟩ := hl.started.fresh obj hobj hinit
    rw [heq]
    exact decide_eq_true (Int.lt_of_lt_of_le (by decide) (Int.le_trans hr.lastId (Int.le_of_lt hi)))

theorem Resolvable.resolves (hr : Counted r) (hobj : obj ∈ (startAll l r).1) :
    Resolves ((startAll l r).1.foldl (fun ids obj => ids.insert obj.mTempId obj) ∅)
      (Registry.realId (startAll l r).1) obj := by
  have hresolve : ∀ o ∈ l, TemporaryObjectList.resolve
      ((startAll l r).1.foldl (fun ids obj => ids.insert obj.mTempId obj) ∅) o.mTempId =
      .ok (Registry.realId (startAll l r).1 o.mTempId) := by
    intro o ho
    have hmem : o.setTempMapping ((startAll l r).2.objects.cell o.mBaseObject).mObjectId ∈
        (startAll l r).1 := by
      rw [hl.started.list]
      exact List.mem_map_of_mem ho
    simp only [TemporaryObjectList.resolve]
    rw [show o.mTempId = (o.setTempMapping
      ((startAll l r).2.objects.cell o.mBaseObject).mObjectId).mTempId from rfl,
      foldl_insert_of_mem hl.tempIds_startAll ∅ hmem]
    have hvalid : (o.setTempMapping ((startAll l r).2.objects.cell
        o.mBaseObject).mObjectId).mTempMapping.2.valid = true := hl.valid hr ho
    apply (if_pos hvalid).trans
    exact congrArg Except.ok (hl.realId ho).symm
  rw [hl.started.list, List.mem_map] at hobj
  obtain ⟨o, ho, rfl⟩ := hobj
  constructor
  · intro i hi
    obtain ⟨o', ho', rfl⟩ := hl.children o ho i hi
    exact hresolve o' ho'
  · intro i hi
    obtain ⟨o', ho', rfl⟩ := hl.parents o ho i hi
    exact hresolve o' ho'

theorem Resolvable.addable (hr : Counted r) : Addable (startAll l r).1 (startAll l r).2 := by
  have hstarted := hl.started
  constructor
  · intro obj hobj hinit hmem
    rw [hstarted.list, List.mem_map] at hobj
    obtain ⟨o, ho, rfl⟩ := hobj
    obtain ⟨i, hi, -, heq⟩ := hstarted.fresh o ho hinit
    rw [hstarted.container, show (startAll l r).2.objects.cell
      (o.setTempMapping _).mBaseObject = _ from heq] at hmem
    exact absurd (hr.active i hmem).2 (Int.not_le_of_gt hi)
  · have hpairwise : l.Pairwise fun o o' => o.mBaseObject ≠ o'.mBaseObject := by
      have := hl.baseObjects
      rwa [List.Nodup, List.pairwise_map] at this
    have hdistinct := hstarted.distinct
    rw [hstarted.list, List.pairwise_map]
    exact hpairwise.imp_of_mem fun ho ho' hne hinit hinit' heq =>
      hne (hdistinct _ ho _ ho' hinit hinit' heq)

theorem Resolvable.complete (hr : Counted r) (hobj : obj ∈ (startAll l r).1)
    (hinit : obj.mIsInitialized = false) : Complete obj (startAll l r).2 := by
  rw [hl.started.list, List.mem_map] at hobj
  obtain ⟨o, ho, rfl⟩ := hobj
  obtain ⟨hname, hexternal, hparents⟩ := hl.new o ho hinit
  have hvalid := hl.valid hr ho
  obtain ⟨i, -, -, heq⟩ := hl.started.fresh o ho hinit
  have hcell : (startAll l r).2.objects.cell (o.setTempMapping
      ((startAll l r).2.objects.cell o.mBaseObject).mObjectId).mBaseObject =
      { r.objects.cell o.mBaseObject with mObjectId := i } := heq
  simp only [Complete]
  rw [hcell]
  rw [heq] at hvalid
  exact ⟨hname, hvalid, hexternal, hparents⟩

/-- Neither loop throws. -/
theorem Resolvable.ok (hr : Counted r) (h : Shows r s)
    (hnow : s.mCurrentActionTime ≤ t + Duration.milliseconds 1)
    (h0 : 0 ≤ t + Duration.milliseconds 1) :
    ∃ s', TemporaryObjectList.resolveAndStart t l s = .ok () s' ∧ Shows (resolved l r) s' ∧
      Inits (t + Duration.milliseconds 1) (newIds (startAll l r).1) s s' := by
  obtain ⟨s₁, hok₁, h₁, hinits⟩ := mapM_ok l h hl.made hr.lastId hnow h0
  have hmade : ∀ obj ∈ (startAll l r).1, obj.mBaseObject < (startAll l r).2.objects.next := by
    intro obj hobj
    rw [hl.started.list, List.mem_map] at hobj
    obtain ⟨o, ho, rfl⟩ := hobj
    rw [hl.started.next]
    exact hl.made o ho
  obtain ⟨s₂, hok₂, h₂, hsame⟩ := forM_ok (startAll l r).1 h₁ hmade
    (fun obj hobj => hl.resolves hr hobj) (fun obj hobj => hl.complete hr hobj) (hl.addable hr)
  refine ⟨s₂, bind_eq_ok.2 ⟨_, s₁, hok₁, hok₂⟩, h₂, ?_⟩
  have hinits' := hinits.trans (hsame.inits (t + Duration.milliseconds 1))
  rwa [List.append_nil] at hinits'

end

theorem Resolvable.newIds (hl : Resolvable l r) : newIds (startAll l r).1 =
    (l.filter fun obj => !obj.mIsInitialized).map fun obj =>
      ((startAll l r).2.objects.cell obj.mBaseObject).mObjectId := by
  have hlist := hl.started.list
  simp only [Registry.newIds]
  generalize (startAll l r).1 = l' at hlist
  rw [hlist, List.filter_map, List.map_map]
  rfl

theorem Resolvable.nodup_newIds (hl : Resolvable l r) :
    (Registry.newIds (startAll l r).1).Nodup := by
  rw [hl.newIds]
  apply (List.Nodup.filter _ hl.baseObjects.of_map).map_on
  intro o ho o' ho' heq
  rw [List.mem_filter, Bool.not_eq_true'] at ho ho'
  exact List.inj_on_of_nodup_map hl.baseObjects ho.1 ho'.1
    (hl.started.distinct o ho.1 o' ho'.1 ho.2 ho'.2 heq)

theorem related_resolved {l : List TemporaryObject} : Related (realId (startAll l r).1)
    (startAll l r).1 (startAll l r).2 (resolved l r) :=
  related_relateAll ..

section
variable {l : List TemporaryObject} (hl : Resolvable l r)
include hl

theorem Resolvable.realId_old (hobj : obj ∈ l) (hinit : obj.mIsInitialized = true) :
    Registry.realId (startAll l r).1 obj.mTempId = (r.objects.cell obj.mBaseObject).mObjectId := by
  rw [hl.realId hobj, hl.cell_present hobj hinit]

theorem Resolvable.realId_new (hobj : obj ∈ l) (hinit : obj.mIsInitialized = false) :
    r.lastId < Registry.realId (startAll l r).1 obj.mTempId ∧
      Registry.realId (startAll l r).1 obj.mTempId ≤ (resolved l r).lastId := by
  obtain ⟨i, hi, hi', heq⟩ := hl.started.fresh obj hobj hinit
  rw [hl.realId hobj, heq, Related.lastId related_resolved]
  exact ⟨hi, hi'⟩

theorem Resolvable.realId_le (hr : Counted r) (hobj : obj ∈ l) (hinit : obj.mIsInitialized = true) :
    Registry.realId (startAll l r).1 obj.mTempId ≤ r.lastId := by
  rw [hl.realId_old hobj hinit]
  refine (hr.active _ ?_).2
  rw [TreeMap.mem_iff_isSome_getElem?, hl.present obj hobj hinit]
  rfl

theorem Resolvable.realId_injective (hr : Counted r) {o o' : TemporaryObject} (ho : o ∈ l)
    (ho' : o' ∈ l) (heq : Registry.realId (startAll l r).1 o.mTempId =
      Registry.realId (startAll l r).1 o'.mTempId) : o = o' := by
  apply List.inj_on_of_nodup_map hl.baseObjects ho ho'
  -- by which of the two objects are new
  cases hinit : o.mIsInitialized with
  | false =>
    cases hinit' : o'.mIsInitialized with
    | false =>
      rw [hl.realId ho, hl.realId ho'] at heq
      exact hl.started.distinct o ho o' ho' hinit hinit' heq
    | true =>
      have hlt := (hl.realId_new ho hinit).1
      rw [heq] at hlt
      exact absurd hlt (Int.not_lt_of_ge (hl.realId_le hr ho' hinit'))
  | true =>
    cases hinit' : o'.mIsInitialized with
    | false =>
      have hlt := (hl.realId_new ho' hinit').1
      rw [← heq] at hlt
      exact absurd hlt (Int.not_lt_of_ge (hl.realId_le hr ho hinit))
    | true =>
      have hp := hl.present o ho hinit
      rw [← hl.realId_old ho hinit, heq, hl.realId_old ho' hinit', hl.present o' ho' hinit'] at hp
      exact (Option.some.inj hp).symm

theorem Resolvable.resolved_mObjectId (hobj : obj ∈ l) :
    ((resolved l r).objects.cell obj.mBaseObject).mObjectId =
      Registry.realId (startAll l r).1 obj.mTempId := by
  rw [Related.mObjectId related_resolved, hl.realId hobj]

/-- After the first loop there is one temporary object for each object of the list. -/
theorem Resolvable.exists_startAll (hobj : obj ∈ l) (P : TreeSet ObjectId → TreeSet ObjectId → Prop) :
    (∃ o ∈ (startAll l r).1, o.mBaseObject = obj.mBaseObject ∧ P o.mTempChildren o.mTempParents) ↔
      P obj.mTempChildren obj.mTempParents := by
  rw [hl.started.list]
  refine ⟨?_, fun h => ⟨_, List.mem_map_of_mem hobj, rfl, h⟩⟩
  rintro ⟨o', ho', hbase, h⟩
  obtain ⟨o, ho, rfl⟩ := List.mem_map.1 ho'
  rwa [← List.inj_on_of_nodup_map hl.baseObjects ho hobj hbase]

/-- The first loop changes nothing but the id of an object. -/
theorem Resolvable.startAll_cell (hobj : obj ∈ l) : ∃ i,
    (startAll l r).2.objects.cell obj.mBaseObject =
      { r.objects.cell obj.mBaseObject with mObjectId := i } := by
  cases hinit : obj.mIsInitialized with
  | true => exact ⟨_, hl.cell_present hobj hinit⟩
  | false =>
    obtain ⟨i, -, -, heq⟩ := hl.started.fresh obj hobj hinit
    exact ⟨i, heq⟩

/-- The relations of an object are those it has had and those that have been resolved. -/
theorem Resolvable.resolved_children (hobj : obj ∈ l) (j : ObjectId) :
    j ∈ ((resolved l r).objects.cell obj.mBaseObject).mChildIdList ↔
      (∃ i ∈ obj.mTempChildren, Registry.realId (startAll l r).1 i = j) ∨
        j ∈ (r.objects.cell obj.mBaseObject).mChildIdList := by
  obtain ⟨i, heq⟩ := hl.startAll_cell hobj
  rw [Related.children related_resolved, heq]
  exact or_congr_left (hl.exists_startAll hobj fun c _ =>
    ∃ i ∈ c, Registry.realId (startAll l r).1 i = j)

theorem Resolvable.resolved_parents (hobj : obj ∈ l) (j : ObjectId) :
    j ∈ ((resolved l r).objects.cell obj.mBaseObject).mParentList ↔
      (∃ i ∈ obj.mTempParents, Registry.realId (startAll l r).1 i = j) ∨
        j ∈ (r.objects.cell obj.mBaseObject).mParentList := by
  obtain ⟨i, heq⟩ := hl.startAll_cell hobj
  rw [Related.parents related_resolved, heq]
  exact or_congr_left (hl.exists_startAll hobj fun _ q =>
    ∃ i ∈ q, Registry.realId (startAll l r).1 i = j)

theorem Resolvable.resolved_active (hr : Counted r) (i : ObjectId) (p : ObjectPtr) :
    (resolved l r).container.mActiveObjects[i]? = some p ↔
      (∃ obj ∈ l, obj.mIsInitialized = false ∧ obj.mBaseObject = p ∧
        Registry.realId (startAll l r).1 obj.mTempId = i) ∨
        r.container.mActiveObjects[i]? = some p := by
  simp only [resolved]
  rw [relateAll_active _ _ (hl.addable hr), hl.started.container]
  refine or_congr_left ⟨?_, ?_⟩
  · rintro ⟨o', ho', hinit, rfl, hid⟩
    rw [hl.started.list, List.mem_map] at ho'
    obtain ⟨o, ho, rfl⟩ := ho'
    exact ⟨o, ho, hinit, rfl, (hl.realId ho).trans hid⟩
  · rintro ⟨o, ho, hinit, rfl, hid⟩
    refine ⟨o.setTempMapping ((startAll l r).2.objects.cell o.mBaseObject).mObjectId, ?_, hinit, rfl,
      (hl.realId ho).symm.trans hid⟩
    rw [hl.started.list]
    exact List.mem_map_of_mem ho

theorem Resolvable.mem_newIds {i : ObjectId} : i ∈ Registry.newIds (startAll l r).1 ↔
    ∃ obj ∈ l, obj.mIsInitialized = false ∧ Registry.realId (startAll l r).1 obj.mTempId = i := by
  rw [hl.newIds, List.mem_map]
  apply exists_congr
  intro o
  rw [List.mem_filter, Bool.not_eq_true', and_assoc]
  exact and_congr_right fun ho => and_congr_right fun _ => by rw [hl.realId ho]

theorem Resolvable.counted (hr : Counted r) : Counted (resolved l r) := by
  have hle : r.lastId ≤ (resolved l r).lastId := by
    rw [Related.lastId related_resolved]
    exact hl.started.le
  refine ⟨Int.le_trans hr.lastId hle, fun i hi => ?_⟩
  obtain ⟨p, hp⟩ := Option.isSome_iff_exists.1 (TreeMap.mem_iff_isSome_getElem?.1 hi)
  rcases (hl.resolved_active hr i p).1 hp with ⟨obj, hobj, hinit, -, rfl⟩ | hp
  · refine ⟨?_, (hl.realId_new hobj hinit).2⟩
    rw [hl.realId hobj]
    exact hl.valid hr hobj
  · obtain ⟨hvalid, hle'⟩ := hr.active i (by rw [TreeMap.mem_iff_isSome_getElem?, hp]; rfl)
    exact ⟨hvalid, Int.le_trans hle' hle⟩

end

end Registry

/-! ## The result -/

namespace Core

/-- The registry that a core shows. -/
def registry (s : Core ω) : Registry :=
  ⟨s.objects, s.mObjectList.currentCopy, s.mObjectList.mCurrentObjectId⟩

/-- The pending handlers, told by what they are about. -/
def agenda (s : Core ω) : List (HandlerKind × ObjectId × TimePoint) := s.mActions.entries.map s.about

/-- The times at which the object `id` is going to be initialised. -/
def initTimes (s : Core ω) (id : ObjectId) : List TimePoint :=
  (s.agenda.filter fun x => x.1 = .handlerInit ∧ x.2.1 = id).map (·.2.2)

/-- What holds of a core between two handlers. The current container is a copy of the working copy,
ids in use have been given out, and so have been those of objects that will be initialised. -/
structure Consistent (s : Core ω) : Prop where
  current : s.mObjectList.currentCopy = s.mObjectList.workingCopy
  made : s.mObjectList.mWorkingCopy < s.mObjectList.containers.next
  counted : Registry.Counted s.registry
  now : 0 ≤ s.mCurrentActionTime
  filed : s.mActions.Filed Scheduling.time
  pending : ∀ h ∈ s.mActions.entries, h.handler.mCorrespondingAction < s.actions.next ∧
    (h.handler.kind = .handlerInit → (s.about h).2.1 ≤ s.mObjectList.mCurrentObjectId)

theorem Consistent.shows (h : s.Consistent) : Registry.Shows s.registry s :=
  ⟨rfl, h.current.symm, rfl, h.made, rfl⟩

end Core

section
variable {t : TimePoint} {ids : List ObjectId}

theorem Inits.agenda (h : Inits t ids s s') (hs : s.Consistent) :
    s'.agenda.Perm ((ids.map fun id => (HandlerKind.handlerInit, id, t)) ++ s.agenda) := by
  obtain ⟨new, hperm, -, hnew⟩ := h.pending hs.filed
  have hold : s.mActions.entries.map s'.about = s.agenda := by
    apply List.map_congr_left
    intro x hx
    simp only [Core.about]
    rw [h.kept _ (hs.pending x hx).1]
  have hperm' := hperm.map s'.about
  rwa [List.map_append, hnew, hold] at hperm'

theorem Inits.initTimes (h : Inits t ids s s') (hs : s.Consistent) (id : ObjectId) :
    (s'.initTimes id).Perm (List.replicate (ids.count id) t ++ s.initTimes id) := by
  have hperm := ((h.agenda hs).filter fun x => x.1 = .handlerInit ∧ x.2.1 = id).map (·.2.2)
  rw [List.filter_append, List.map_append, List.filter_map, List.map_map] at hperm
  have hcount : ids.filter ((fun x : HandlerKind × ObjectId × TimePoint =>
      decide (x.1 = .handlerInit ∧ x.2.1 = id)) ∘ fun i => (HandlerKind.handlerInit, i, t)) =
      List.replicate (ids.count id) id := by
    rw [← List.filter_eq]
    exact List.filter_congr fun i _ => by simp
  rw [hcount, List.map_replicate] at hperm
  exact hperm

/-- No initialisation is pending for an id that has not been given out. -/
theorem Core.Consistent.initTimes_eq_nil (hs : s.Consistent) {id : ObjectId}
    (hid : s.mObjectList.mCurrentObjectId < id) : s.initTimes id = [] := by
  simp only [Core.initTimes]
  rw [List.map_eq_nil_iff, List.filter_eq_nil_iff]
  intro x hx hinit
  obtain ⟨y, hy, rfl⟩ := List.mem_map.1 hx
  rw [decide_eq_true_eq] at hinit
  have hle := (hs.pending y hy).2 hinit.1
  rw [hinit.2] at hle
  exact absurd hle (Int.not_le_of_gt hid)

theorem Inits.consistent {r' : Registry} (h : Inits t ids s s') (hs : s.Consistent)
    (hshows : Registry.Shows r' s') (hcounted : Registry.Counted r')
    (hle : s.mObjectList.mCurrentObjectId ≤ r'.lastId) (hids : ∀ id ∈ ids, id ≤ r'.lastId) :
    s'.Consistent where
  current := hshows.currentCopy.trans hshows.workingCopy.symm
  made := hshows.made
  counted := by
    have hregistry : s'.registry = r' := by
      simp only [Core.registry]
      rw [hshows.objects, hshows.currentCopy, hshows.lastId]
    rwa [hregistry]
  now := hs.now.trans_eq h.now.symm
  filed := h.filed hs.filed
  pending x hx := by
    obtain ⟨new, hperm, hmade, hnew⟩ := h.pending hs.filed
    rw [hshows.lastId]
    rcases List.mem_append.1 (hperm.mem_iff.1 hx) with hx | hx
    · refine ⟨hmade x hx, fun _ => ?_⟩
      obtain ⟨id, hid, heq⟩ := List.mem_map.1 (hnew ▸ List.mem_map_of_mem hx)
      rw [← heq]
      exact hids id hid
    · obtain ⟨hptr, hinit⟩ := hs.pending x hx
      refine ⟨hptr.trans_le h.next, fun hkind => ?_⟩
      simp only [Core.about]
      rw [h.kept _ hptr]
      exact Int.le_trans (hinit hkind) hle

end

/-- The temporary objects `l` have got the real ids `ρ` between `s` and `s'`, and start at `t`. -/
structure Resolution (t : TimePoint) (l : List TemporaryObject) (ρ : ObjectId → ObjectId)
    (s s' : Core ω) : Prop where
  injective : ∀ obj ∈ l, ∀ obj' ∈ l, ρ obj.mTempId = ρ obj'.mTempId → obj.mTempId = obj'.mTempId
  mObjectId : ∀ obj ∈ l, (s'.objects.cell obj.mBaseObject).mObjectId = ρ obj.mTempId
  old : ∀ obj ∈ l, obj.mIsInitialized = true →
    ρ obj.mTempId = (s.objects.cell obj.mBaseObject).mObjectId
  fresh : ∀ obj ∈ l, obj.mIsInitialized = false →
    s.mObjectList.mCurrentObjectId < ρ obj.mTempId ∧
      ρ obj.mTempId ≤ s'.mObjectList.mCurrentObjectId
  children : ∀ obj ∈ l, ∀ j, j ∈ (s'.objects.cell obj.mBaseObject).mChildIdList ↔
    (∃ i ∈ obj.mTempChildren, ρ i = j) ∨ j ∈ (s.objects.cell obj.mBaseObject).mChildIdList
  parents : ∀ obj ∈ l, ∀ j, j ∈ (s'.objects.cell obj.mBaseObject).mParentList ↔
    (∃ i ∈ obj.mTempParents, ρ i = j) ∨ j ∈ (s.objects.cell obj.mBaseObject).mParentList
  active : ∀ (i : ObjectId) (p : ObjectPtr),
    s'.mObjectList.currentCopy.mActiveObjects[i]? = some p ↔
      (∃ obj ∈ l, obj.mIsInitialized = false ∧ obj.mBaseObject = p ∧ ρ obj.mTempId = i) ∨
        s.mObjectList.currentCopy.mActiveObjects[i]? = some p
  started : ∀ obj ∈ l, obj.mIsInitialized = false →
    s'.initTimes (ρ obj.mTempId) = [t + Duration.milliseconds 1]
  notAgain : ∀ obj ∈ l, obj.mIsInitialized = true →
    (s'.initTimes (ρ obj.mTempId)).Perm (s.initTimes (ρ obj.mTempId))
  consistent : s'.Consistent

/-- `resolveAndStart` gives the temporary objects of a list real ids, relates their objects by these
wherever in the list they stand, and adds and starts those that are new. -/
theorem resolveAndStart_resolution {t : TimePoint} {l : List TemporaryObject} {s : Core ω}
    (hs : s.Consistent) (hl : Registry.Resolvable l s.registry) (ht : s.mCurrentActionTime ≤ t) :
    ∃ s' ρ, TemporaryObjectList.resolveAndStart t l s = .ok () s' ∧ Resolution t l ρ s s' := by
  have hle : t ≤ t + Duration.milliseconds 1 := Int.le_add_of_nonneg_right (by decide)
  obtain ⟨s', hok, hshows, hinits⟩ := hl.ok hs.counted hs.shows (Int.le_trans ht hle)
    (Int.le_trans (Int.le_trans hs.now ht) hle)
  have hcount := hl.nodup_newIds
  refine ⟨s', Registry.realId (Registry.startAll l s.registry).1, hok, ?_, ?_, ?_, ?_, ?_, ?_, ?_, ?_,
    ?_, ?_⟩
  · intro obj hobj obj' hobj' heq
    rw [hl.realId_injective hs.counted hobj hobj' heq]
  · intro obj hobj
    rw [hshows.objects]
    exact hl.resolved_mObjectId hobj
  · exact fun obj hobj hinit => hl.realId_old hobj hinit
  · intro obj hobj hinit
    rw [hshows.lastId]
    exact hl.realId_new hobj hinit
  · intro obj hobj j
    rw [hshows.objects]
    exact hl.resolved_children hobj j
  · intro obj hobj j
    rw [hshows.objects]
    exact hl.resolved_parents hobj j
  · intro i p
    rw [hshows.currentCopy]
    exact hl.resolved_active hs.counted i p
  · intro obj hobj hinit
    have hperm := hinits.initTimes hs (Registry.realId (Registry.startAll l s.registry).1 obj.mTempId)
    rw [hs.initTimes_eq_nil (hl.realId_new hobj hinit).1,
      List.count_eq_one_of_mem hcount (hl.mem_newIds.2 ⟨obj, hobj, hinit, rfl⟩)] at hperm
    exact List.perm_singleton.1 hperm
  · intro obj hobj hinit
    have hperm := hinits.initTimes hs (Registry.realId (Registry.startAll l s.registry).1 obj.mTempId)
    rwa [List.count_eq_zero_of_not_mem] at hperm
    rintro hmem
    obtain ⟨o, ho, hfalse, heq⟩ := hl.mem_newIds.1 hmem
    rw [hl.realId_injective hs.counted ho hobj heq, hinit] at hfalse
    cases hfalse
  · refine hinits.consistent hs hshows (hl.counted hs.counted) ?_ fun id hid => ?_
    · rw [Registry.Related.lastId Registry.related_resolved]
      exact hl.started.le
    · obtain ⟨obj, hobj, hinit, rfl⟩ := hl.mem_newIds.1 hid
      exact (hl.realId_new hobj hinit).2

/-! ## A radio and a channel -/

theorem consistent_radioCore : radioCore.Consistent where
  current := rfl
  made := by decide
  counted := by
    refine ⟨by decide +kernel, fun i hi => ?_⟩
    obtain ⟨p, hp⟩ := Option.isSome_iff_exists.1 (TreeMap.mem_iff_isSome_getElem?.1 hi)
    obtain ⟨rfl, -⟩ := radioCore_active hp
    decide +kernel
  now := by decide
  filed := BucketMap.filed_empty _
  pending := nofun

/-- A channel has been made. -/
def channelCore : Core Unit := { radioCore with
  objects := radioCore.objects.alloc { mObjectName := "Microchannel" } }

theorem consistent_channelCore : channelCore.Consistent :=
  { consistent_radioCore with
    counted := ⟨consistent_radioCore.counted.lastId, consistent_radioCore.counted.active⟩ }

/-- The radio is going to be the parent of the channel. -/
def channelObjects : List TemporaryObject :=
  [{ mBaseObject := 0, mTempId := 0, mIsInitialized := true,
     mTempChildren := (∅ : TreeSet ObjectId).insert 1 },
   { mBaseObject := 1, mTempId := 1, mTempParents := (∅ : TreeSet ObjectId).insert 0 }]

theorem mem_channelObjects {obj : TemporaryObject} (h : obj ∈ channelObjects) :
    obj = channelObjects[0] ∨ obj = channelObjects[1] :=
  (List.mem_cons.1 h).imp_right List.mem_singleton.1

theorem resolvable_channelObjects : Registry.Resolvable channelObjects channelCore.registry where
  tempIds := by decide
  baseObjects := by decide
  made := by decide
  children := by
    intro obj hobj i hi
    rcases mem_channelObjects hobj with rfl | rfl
    · exact ⟨_, List.mem_cons_of_mem _ (List.mem_singleton_self _), Registry.mem_singleton_iff.1 hi⟩
    · exact absurd hi TreeSet.not_mem_emptyc
  parents := by
    intro obj hobj i hi
    rcases mem_channelObjects hobj with rfl | rfl
    · exact absurd hi TreeSet.not_mem_emptyc
    · exact ⟨_, List.mem_cons_self .., Registry.mem_singleton_iff.1 hi⟩
  new := by
    intro obj hobj hinit
    rcases mem_channelObjects hobj with rfl | rfl
    · cases hinit
    · exact ⟨by decide +kernel, by decide +kernel, 0, Registry.mem_singleton_iff.2 rfl⟩
  present := by decide +kernel

theorem channelObjects_resolution : ∃ s' ρ,
    TemporaryObjectList.resolveAndStart 0 channelObjects channelCore = .ok () s' ∧
      Resolution 0 channelObjects ρ channelCore s' :=
  resolveAndStart_resolution consistent_channelCore resolvable_channelObjects (by decide)

end Cosidia
