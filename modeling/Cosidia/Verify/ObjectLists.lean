import Cosidia.Objects.ObjectList

/-!
# Histories of the object list

Whatever calls are made on the object list, its current copy answers by the last of them that has
returned, and the containers it has handed out are not changed any more.
-/

namespace Cosidia

open EStateM Std

namespace ObjectList

/-- A call on the core thread; the object `obj` is currently `o`. -/
inductive Change where
  | addToObjectContainer (objectId : ObjectId) (obj : ObjectPtr) (o : BaseObject)
  | addUnique (obj : ObjectPtr) (o : BaseObject)
  | removeFromSimulation (id : ObjectId)

namespace Change

def perform : Change → EStateM Failure ObjectList Unit
  | addToObjectContainer objectId obj o => ObjectList.addToObjectContainer true objectId obj o
  | addUnique obj o => ObjectList.addUnique true obj o
  | removeFromSimulation id => ObjectList.removeFromSimulation true id

/-- The id the call is about. `addToObjectContainer` ignores its first argument, which is the object's
own id in every call. -/
def id : Change → ObjectId
  | addToObjectContainer _ _ o => o.mObjectId
  | addUnique _ o => o.mObjectId
  | removeFromSimulation id => id

/-- The object the call adds, or `none` for a removal. -/
def added : Change → Option ObjectPtr
  | addToObjectContainer _ obj _ => some obj
  | addUnique obj _ => some obj
  | removeFromSimulation _ => none

/-- What the call makes of a container if it returns. -/
def applied : Change → ObjectContainer → ObjectContainer
  | addToObjectContainer _ obj o, c =>
    { c with mActiveObjects := c.mActiveObjects.insert o.mObjectId obj }
  | addUnique obj o, c =>
    { c with mUniqueObjects := c.mUniqueObjects.insert o.mObjectName o.mObjectId
             mActiveObjects := c.mActiveObjects.insert o.mObjectId obj }
  | removeFromSimulation id, c =>
    { c with mActiveObjects := c.mActiveObjects.erase id
             mRemovedObjects := c.mRemovedObjects.insert id }

end Change

/-- The calls one after the other, whether they return or throw. -/
def run (changes : List Change) (l : ObjectList) : ObjectList :=
  changes.foldl (fun l c => (c.perform l).state) l

/-- Those of the calls that return. -/
def succeeded : List Change → ObjectList → List Change
  | [], _ => []
  | c :: changes, l =>
    match c.perform l with
    | .ok _ l' => c :: succeeded changes l'
    | .error _ l' => succeeded changes l'

/-- The last of the calls that is about `id`. -/
def lastOn (id : ObjectId) (changes : List Change) : Option Change :=
  (changes.filter fun c => c.id = id).getLast?

/-! ## One call -/

/-- `c` becomes the content of the working copy, and a copy of it the current one. -/
def republish (c : ObjectContainer) (l : ObjectList) : ObjectList :=
  { l with containers := (l.containers.write l.mWorkingCopy c).alloc c
           mCurrentCopy := l.containers.next }

/-- A change of the working copy that is published; one that throws leaves the list as it is. -/
theorem publish_cases (l : ObjectList) {x : EStateM Failure ObjectContainer Unit}
    {f : ObjectContainer → ObjectContainer} {Pre : ObjectContainer → Prop}
    (hx : ∀ c, Post x c (fun _ c' => Pre c ∧ c' = f c) fun _ c' => c' = c) :
    (∃ e, (do onWorkingCopy x; publish) l = .error e l) ∨
      Pre l.workingCopy ∧
        (do onWorkingCopy x; publish) l = .ok () (l.republish (f l.workingCopy)) := by
  rw [bind_apply]
  cases hr : onWorkingCopy x l with
  | error e l' =>
    obtain ⟨c, hc, rfl⟩ := zoom_eq_error.1 hr
    rw [(hx _).error hc, workingCopy, Heap.write_cell_eq]
    exact .inl ⟨e, rfl⟩
  | ok u l' =>
    obtain ⟨c, hc, rfl⟩ := zoom_eq_ok.1 hr
    obtain ⟨hpre, rfl⟩ := (hx _).ok hc
    refine .inr ⟨hpre, ?_⟩
    simp [publish, modify_apply, republish, workingCopy]

section
variable {onCoreThread : Bool} {c : ObjectContainer} {obj : ObjectPtr} {o : BaseObject}
  {id : ObjectId}

theorem post_insert : Post (ObjectContainer.insert onCoreThread obj o) c
    (fun _ c' => o.mObjectId ∉ c.mActiveObjects ∧ c' = { c with
      mActiveObjects := c.mActiveObjects.insert o.mObjectId obj }) fun _ c' => c' = c := by
  refine Post.bind (M := fun _ c' => c' = c) (post_enforce (fun _ => rfl) fun _ => rfl) ?_
  rintro _ c rfl
  refine Post.bind (M := fun _ c' => c' = c) (post_enforce (fun _ => rfl) fun _ => rfl) ?_
  rintro _ c rfl
  refine Post.bind (post_get (Q := fun a c' => a = c ∧ c' = c) ⟨rfl, rfl⟩) ?_
  rintro _ c ⟨rfl, rfl⟩
  refine Post.bind (M := fun _ c' => o.mObjectId ∉ c.mActiveObjects ∧ c' = c)
    (post_enforce (fun h => ⟨?_, rfl⟩) fun _ => rfl) ?_
  · rwa [Bool.not_eq_true', ← Bool.not_eq_true, TreeMap.contains_iff_mem] at h
  · rintro _ c ⟨hnew, rfl⟩
    exact ⟨hnew, rfl⟩

theorem post_remove : Post (ObjectContainer.remove onCoreThread id) c
    (fun _ c' => id ∈ c.mActiveObjects ∧ c' = { c with
      mActiveObjects := c.mActiveObjects.erase id }) fun _ c' => c' = c := by
  refine Post.bind (M := fun _ c' => c' = c) (post_enforce (fun _ => rfl) fun _ => rfl) ?_
  rintro _ c rfl
  refine Post.bind (post_get (Q := fun a c' => a = c ∧ c' = c) ⟨rfl, rfl⟩) ?_
  rintro _ c ⟨rfl, rfl⟩
  refine Post.bind (M := fun _ c' => id ∈ c.mActiveObjects ∧ c' = c)
    (post_enforce (fun h => ⟨TreeMap.contains_iff_mem.1 h, rfl⟩) fun _ => rfl) ?_
  rintro _ c ⟨hmem, rfl⟩
  exact ⟨hmem, rfl⟩

theorem post_insertUnique : Post (ObjectContainer.insertUnique true obj o) c
    (fun _ c' => o.mObjectId ∉ c.mActiveObjects ∧ c' = { c with
      mUniqueObjects := c.mUniqueObjects.insert o.mObjectName o.mObjectId
      mActiveObjects := c.mActiveObjects.insert o.mObjectId obj }) fun _ c' => c' = c := by
  refine Post.bind (M := fun _ c' => o.isInitialized = true ∧ c' = c)
    (post_enforce (fun h => ⟨h, rfl⟩) fun _ => rfl) ?_
  rintro _ c ⟨hinit, rfl⟩
  refine Post.bind (post_get (Q := fun a c' => a = c ∧ c' = c) ⟨rfl, rfl⟩) ?_
  rintro _ c ⟨rfl, rfl⟩
  refine Post.bind (M := fun _ c' => c' = c) (post_enforce (fun _ => rfl) fun _ => rfl) ?_
  rintro _ c rfl
  refine Post.bind (post_get (Q := fun a c' => a = c ∧ c' = c) ⟨rfl, rfl⟩) ?_
  rintro _ c ⟨rfl, rfl⟩
  refine Post.bind (M := fun _ c' => o.mObjectId ∉ c.mActiveObjects ∧ c' = c)
    (post_enforce (fun h => ⟨?_, rfl⟩) fun _ => rfl) ?_
  · rwa [Bool.not_eq_true', ← Bool.not_eq_true, TreeMap.contains_iff_mem] at h
  rintro _ c ⟨hnew, rfl⟩
  -- `insert` repeats checks that have been passed
  have hinsert : ObjectContainer.insert true obj o
      { c with mUniqueObjects := c.mUniqueObjects.insert o.mObjectName o.mObjectId } = .ok () _ :=
    ObjectContainer.insert_eq_ok.2 ⟨rfl, hinit, hnew, rfl⟩
  apply (post_bind_of_ok (modify_apply _ _)).2
  simp only [Post]
  rw [hinsert]
  exact ⟨hnew, rfl⟩

theorem post_removeFromSimulation :
    Post (do ObjectContainer.remove onCoreThread id; ObjectContainer.removeFromSimulation id) c
      (fun _ c' => id ∈ c.mActiveObjects ∧ c' = { c with
        mActiveObjects := c.mActiveObjects.erase id
        mRemovedObjects := c.mRemovedObjects.insert id }) fun _ c' => c' = c := by
  apply Post.bind post_remove
  rintro _ _ ⟨hmem, rfl⟩
  exact ⟨hmem, rfl⟩

end

theorem onWorkingCopy_onWorkingCopy (x y : EStateM Failure ObjectContainer Unit)
    (l : ObjectList) : (do onWorkingCopy x; onWorkingCopy y; publish) l =
      (do onWorkingCopy (do x; y); publish) l := by
  simp only [onWorkingCopy, bind_apply, zoom]
  cases x l.workingCopy with
  | error e c => rfl
  | ok u c =>
    have hcell : workingCopy { l with containers := l.containers.write l.mWorkingCopy c } = c :=
      Heap.write_cell_self ..
    have hwrite : ∀ c', (l.containers.write l.mWorkingCopy c).write l.mWorkingCopy c' =
        l.containers.write l.mWorkingCopy c' := fun c' => by simp [Heap.write]
    simp only [hcell]
    cases y c with
    | error e c' => simp only [hwrite]
    | ok u c' => simp only [hwrite]

/-- A call either throws and changes nothing or publishes what it makes of the working copy; only
active objects are removed, and only under free ids others are added. -/
theorem perform_cases (change : Change) (l : ObjectList) :
    (∃ e, change.perform l = .error e l) ∨
      (change.added = none ↔ change.id ∈ l.workingCopy.mActiveObjects) ∧
        change.perform l = .ok () (l.republish (change.applied l.workingCopy)) := by
  cases change with
  | addToObjectContainer objectId obj o =>
    refine (publish_cases l fun c => post_insert).imp_right fun ⟨hfree, h⟩ => ⟨?_, h⟩
    exact iff_of_false (fun hnone => by cases hnone) hfree
  | addUnique obj o =>
    refine (publish_cases l fun c => post_insertUnique).imp_right fun ⟨hfree, h⟩ => ⟨?_, h⟩
    exact iff_of_false (fun hnone => by cases hnone) hfree
  | removeFromSimulation id =>
    have h := publish_cases l fun c => @post_removeFromSimulation true c id
    rw [← onWorkingCopy_onWorkingCopy] at h
    exact h.imp_right fun ⟨hmem, h⟩ => ⟨iff_of_true rfl hmem, h⟩

/-! ## All calls -/

/-- The object list `l` after the calls `done` have returned. -/
structure Tracks (done : List Change) (l : ObjectList) : Prop where
  current : l.currentCopy = l.workingCopy
  made : l.mWorkingCopy < l.mCurrentCopy ∧ l.mCurrentCopy < l.containers.next
  none : ∀ id, lastOn id done = .none →
    id ∉ l.currentCopy.mActiveObjects ∧ id ∉ l.currentCopy.mRemovedObjects
  active : ∀ id c, lastOn id done = some c → l.currentCopy.mActiveObjects[id]? = c.added
  removed : ∀ id c, lastOn id done = some c → c.added = .none →
    id ∈ l.currentCopy.mRemovedObjects
  added : ∀ c ∈ done, ∃ c' ∈ done, c'.id = c.id ∧ c'.added ≠ .none

theorem lastOn_append (id : ObjectId) (done : List Change) (c : Change) :
    lastOn id (done ++ [c]) = if c.id = id then some c else lastOn id done := by
  simp only [lastOn]
  rw [List.filter_append]
  by_cases h : c.id = id
  · rw [if_pos h, List.filter_cons_of_pos (by simpa using h), List.filter_nil,
      List.getLast?_concat]
  · rw [if_neg h, List.filter_cons_of_neg (by simpa using h), List.filter_nil, List.append_nil]

theorem mem_of_lastOn {id : ObjectId} {done : List Change} {c : Change}
    (h : lastOn id done = some c) : c ∈ done ∧ c.id = id := by
  have hmem := List.mem_of_getLast? h
  rw [List.mem_filter] at hmem
  exact ⟨hmem.1, by simpa using hmem.2⟩

theorem applied_active (change : Change) (c : ObjectContainer) (id : ObjectId) :
    (change.applied c).mActiveObjects[id]? =
      if change.id = id then change.added else c.mActiveObjects[id]? := by
  cases change with
  | addToObjectContainer objectId obj o =>
    exact TreeMap.getElem?_insert.trans (if_congr Std.compare_eq_iff_eq rfl rfl)
  | addUnique obj o =>
    exact TreeMap.getElem?_insert.trans (if_congr Std.compare_eq_iff_eq rfl rfl)
  | removeFromSimulation id' =>
    exact TreeMap.getElem?_erase.trans (if_congr Std.compare_eq_iff_eq rfl rfl)

theorem applied_removed (change : Change) (c : ObjectContainer) (id : ObjectId) :
    id ∈ (change.applied c).mRemovedObjects ↔
      (change.id = id ∧ change.added = .none) ∨ id ∈ c.mRemovedObjects := by
  cases change with
  | addToObjectContainer objectId obj o => simp [Change.applied, Change.added]
  | addUnique obj o => simp [Change.applied, Change.added]
  | removeFromSimulation id' =>
    simp only [Change.applied, Change.id, Change.added, and_true]
    exact TreeSet.mem_insert.trans (or_congr_left Std.compare_eq_iff_eq)

theorem republish_currentCopy (c : ObjectContainer) (l : ObjectList) :
    (l.republish c).currentCopy = c :=
  Heap.alloc_cell_self ..

theorem republish_workingCopy (c : ObjectContainer) (l : ObjectList) :
    (l.republish c).workingCopy = c := by
  change ((l.containers.write l.mWorkingCopy c).alloc c).cell l.mWorkingCopy = c
  by_cases h : l.mWorkingCopy = l.containers.next
  · rw [h]
    exact Heap.alloc_cell_self ..
  · simp [Heap.alloc, Function.update_of_ne h]

theorem tracks_new : Tracks [] new where
  current := rfl
  made := ⟨Nat.zero_lt_one, Nat.lt_succ_self _⟩
  none _ _ := ⟨TreeMap.not_mem_emptyc, TreeSet.not_mem_emptyc⟩
  active _ _ h := by cases h
  removed _ _ h := by cases h
  added _ h := by cases h

theorem Tracks.republish {done : List Change} {l : ObjectList} (h : Tracks done l)
    {change : Change} (hmem : change.added = .none → change.id ∈ l.workingCopy.mActiveObjects) :
    Tracks (done ++ [change]) (l.republish (change.applied l.workingCopy)) := by
  have hmade := h.made.1.trans h.made.2
  refine ⟨?_, ⟨h.made.1.trans h.made.2, Nat.lt_succ_self _⟩, fun id hlast => ?_,
    fun id c hlast => ?_, fun id c hlast hnone => ?_, fun c hc => ?_⟩
  · rw [republish_currentCopy, republish_workingCopy]
  · rw [lastOn_append] at hlast
    split_ifs at hlast with hid
    obtain ⟨hactive, hremoved⟩ := h.none id hlast
    rw [republish_currentCopy, TreeMap.mem_iff_isSome_getElem?, applied_active, applied_removed,
      if_neg hid, ← h.current, ← TreeMap.mem_iff_isSome_getElem?]
    exact ⟨hactive, fun hr => hr.elim (fun hr => hid hr.1) hremoved⟩
  · rw [lastOn_append] at hlast
    rw [republish_currentCopy, applied_active, ← h.current]
    split_ifs at hlast ⊢ with hid
    · rw [Option.some.inj hlast]
    · exact h.active id c hlast
  · rw [lastOn_append] at hlast
    rw [republish_currentCopy, applied_removed, ← h.current]
    split_ifs at hlast with hid
    · exact .inl ⟨hid, by rw [Option.some.inj hlast, hnone]⟩
    · exact .inr (h.removed id c hlast hnone)
  · rcases List.mem_append.1 hc with hc | hc
    · obtain ⟨c', hc', hadded⟩ := h.added c hc
      exact ⟨c', List.mem_append_left _ hc', hadded⟩
    obtain rfl := List.mem_singleton.1 hc
    cases hadded : c.added with
    | some p => exact ⟨c, List.mem_append_right _ hc, rfl, by rw [hadded]; exact nofun⟩
    | none =>
      -- what is removed has been added
      have hactive := hmem hadded
      rw [← h.current] at hactive
      cases hlast : lastOn c.id done with
      | none => exact absurd hactive (h.none _ hlast).1
      | some c₀ =>
        obtain ⟨hc₀, hid⟩ := mem_of_lastOn hlast
        refine ⟨c₀, List.mem_append_left _ hc₀, hid, fun hnone => ?_⟩
        rw [TreeMap.mem_iff_isSome_getElem?, h.active _ _ hlast, hnone] at hactive
        cases hactive

theorem tracks_run (changes : List Change) {done : List Change} {l : ObjectList}
    (h : Tracks done l) : Tracks (done ++ succeeded changes l) (run changes l) := by
  induction changes generalizing done l with
  | nil => rwa [succeeded, List.append_nil]
  | cons c changes ih =>
    unfold succeeded run
    rw [List.foldl_cons]
    rcases perform_cases c l with ⟨e, he⟩ | ⟨hmem, hok⟩
    · rw [he]
      exact ih h
    · rw [hok]
      have h' := ih (h.republish hmem.1)
      rwa [List.append_assoc] at h'

/-- A container other than the working copy stays as it is. -/
theorem run_cell (changes : List Change) {l : ObjectList} {c : ContainerPtr}
    (hne : c ≠ l.mWorkingCopy) (hc : c < l.containers.next) :
    (run changes l).containers.cell c = l.containers.cell c := by
  induction changes generalizing l with
  | nil => rfl
  | cons change changes ih =>
    simp only [run]
    rw [List.foldl_cons]
    rcases perform_cases change l with ⟨e, he⟩ | ⟨-, hok⟩
    · rw [he]
      exact ih hne hc
    · rw [hok]
      refine (ih (l := l.republish (change.applied l.workingCopy)) hne
        (Nat.lt_succ_of_lt hc)).trans ?_
      exact (Heap.alloc_cell_of_lt (h := l.containers.write _ _) hc).trans
        (Heap.write_cell_of_ne hne)

theorem run_append (before after : List Change) (l : ObjectList) :
    run (before ++ after) l = run after (run before l) :=
  List.foldl_append

/-- What the container behind a pointer answers. -/
def Answers (l l' : ObjectList) (c : ContainerPtr) : Prop :=
  (∀ id, (l'.containers.cell c).getObject id = (l.containers.cell c).getObject id) ∧
    (∀ name, (l'.containers.cell c).getUnique name = (l.containers.cell c).getUnique name) ∧
    (l'.containers.cell c).getAll = (l.containers.cell c).getAll

/-- Whatever has been called, the current copy has for each id what the last call on it that has
returned left there, and it is like the working copy; a container that has been handed out after the
first few calls is still what it was. -/
theorem answers_run (changes : List Change) :
    let l := run changes new
    let done := succeeded changes new
    (∀ id c p, lastOn id done = some c → c.added = some p →
      l.getObjectByIdFromCurrentContainer id = .ok (some p)) ∧
    (∀ id c, lastOn id done = some c → c.added = none →
      l.getObjectByIdFromCurrentContainer id = .ok none) ∧
    (∀ id, (∀ c ∈ done, c.id = id → c.added = none) →
      ∃ e, l.getObjectByIdFromCurrentContainer id = .error e) ∧
    l.currentCopy = l.workingCopy ∧
    ∀ before after, changes = before ++ after →
      Answers (run before new) l (run before new).getCurrentObjectContainer := by
  have h := tracks_run changes tracks_new
  rw [List.nil_append] at h
  refine ⟨fun id c p hlast hadded => ?_, fun id c hlast hadded => ?_, fun id hnever => ?_,
    h.current, fun before after hsplit => ?_⟩
  · have hactive := h.active id c hlast
    rw [hadded] at hactive
    unfold getObjectByIdFromCurrentContainer ObjectContainer.getObject
    rw [TreeMap.contains_eq_isSome_getElem?, hactive]
    rfl
  · have hactive := h.active id c hlast
    rw [hadded] at hactive
    unfold getObjectByIdFromCurrentContainer ObjectContainer.getObject
    rw [TreeSet.contains_iff_mem.2 (h.removed id c hlast hadded), Bool.or_true, if_pos rfl, hactive]
  · have hlast : lastOn id (succeeded changes new) = none := by
      cases hlast : lastOn id (succeeded changes new) with
      | none => rfl
      | some c =>
        obtain ⟨hc, rfl⟩ := mem_of_lastOn hlast
        obtain ⟨c', hc', hid, hadded⟩ := h.added c hc
        exact absurd (hnever c' hc' hid) hadded
    obtain ⟨hactive, hremoved⟩ := h.none id hlast
    unfold getObjectByIdFromCurrentContainer ObjectContainer.getObject
    rw [if_neg]
    · exact ⟨_, rfl⟩
    · rw [Bool.or_eq_true, TreeMap.contains_iff_mem, TreeSet.contains_iff_mem]
      exact fun hmem => hmem.elim hactive hremoved
  · have hbefore := tracks_run before tracks_new
    have hcell : (run changes new).containers.cell (run before new).mCurrentCopy =
        (run before new).containers.cell (run before new).mCurrentCopy := by
      rw [hsplit, run_append]
      exact run_cell after hbefore.made.1.ne' hbefore.made.2
    unfold Answers getCurrentObjectContainer
    rw [hcell]
    exact ⟨fun _ => rfl, fun _ => rfl, rfl⟩

end ObjectList

end Cosidia
