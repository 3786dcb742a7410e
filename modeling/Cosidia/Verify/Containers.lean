import Cosidia.Theory.Reachable
import Cosidia.Verify.ObjectLists

/-!
# Operations on containers

What the operations of `ObjectContainer` and `ObjectList` leave behind when they throw, and what
sequences of them do to the index of the unique names.
-/

namespace Cosidia

open EStateM Std

namespace ObjectContainer

/-- The operations that change a container; an object `obj` is currently `o`. -/
inductive Operation where
  | insert (obj : ObjectPtr) (o : BaseObject)
  | insertUnique (obj : ObjectPtr) (o : BaseObject)
  | remove (id : ObjectId)
  | removeObject (o : BaseObject)
  | removeFromSimulation (id : ObjectId)

def Operation.perform (onCoreThread : Bool) : Operation → EStateM Failure ObjectContainer Unit
  | insert obj o => ObjectContainer.insert onCoreThread obj o
  | insertUnique obj o => ObjectContainer.insertUnique onCoreThread obj o
  | remove id => ObjectContainer.remove onCoreThread id
  | removeObject o => ObjectContainer.removeObject onCoreThread o
  | removeFromSimulation id => ObjectContainer.removeFromSimulation id

end ObjectContainer

namespace ObjectList

/-- The operations that change an object list; an object `obj` is currently `o`. -/
inductive Operation where
  | addToObjectContainer (objectId : ObjectId) (obj : ObjectPtr) (o : BaseObject)
  | addUnique (obj : ObjectPtr) (o : BaseObject)
  | removeObjectById (id : ObjectId)
  | removeFromSimulation (id : ObjectId)

namespace Operation

def perform (onCoreThread : Bool) : Operation → EStateM Failure ObjectList Unit
  | addToObjectContainer objectId obj o =>
    ObjectList.addToObjectContainer onCoreThread objectId obj o
  | addUnique obj o => ObjectList.addUnique onCoreThread obj o
  | removeObjectById id => ObjectList.removeObjectById onCoreThread id
  | removeFromSimulation id => ObjectList.removeFromSimulation onCoreThread id

/-- What the operation does to the working copy before it publishes it. -/
def onContainer (onCoreThread : Bool) : Operation → EStateM Failure ObjectContainer Unit
  | addToObjectContainer _ obj o => ObjectContainer.insert onCoreThread obj o
  | addUnique obj o => ObjectContainer.insertUnique onCoreThread obj o
  | removeObjectById id => ObjectContainer.remove onCoreThread id
  | removeFromSimulation id => do
    ObjectContainer.remove onCoreThread id
    ObjectContainer.removeFromSimulation id

theorem perform_apply (op : Operation) (onCoreThread : Bool) (l : ObjectList) :
    op.perform onCoreThread l = (do onWorkingCopy (op.onContainer onCoreThread); publish) l := by
  cases op with
  | removeFromSimulation id => exact onWorkingCopy_onWorkingCopy _ _ l
  | _ => rfl

end Operation

/-- A list operation publishes what its container operation returns, and keeps what it throws. -/
theorem onWorkingCopy_publish (x : EStateM Failure ObjectContainer Unit) (l : ObjectList) :
    (do onWorkingCopy x; publish) l = match x l.workingCopy with
      | .ok _ c => .ok () (l.republish c)
      | .error e c => .error e { l with containers := l.containers.write l.mWorkingCopy c } := by
  rw [bind_apply]
  unfold onWorkingCopy zoom
  cases x l.workingCopy with
  | error e c => rfl
  | ok u c => simp [publish, modify_apply, republish, workingCopy]

end ObjectList

/-! ## What a throw leaves behind -/

section
variable {onCoreThread : Bool} {c c' : ObjectContainer} {obj : ObjectPtr} {o : BaseObject}
  {e : Failure}

namespace ObjectContainer

/-- The checks of `insertUnique` itself pass. -/
def AdmitsUnique (c : ObjectContainer) (o : BaseObject) : Prop :=
  o.isInitialized = true ∧ o.mObjectName ∉ c.mUniqueObjects ∧ o.mObjectId ∉ c.mActiveObjects

/-- `insertUnique` registers the name before `insert` checks the thread. -/
theorem insertUnique_offThread (h : c.AdmitsUnique o) :
    insertUnique false obj o c = .error (.runtimeError "ObjectContainer: insert on wrong core")
      { c with mUniqueObjects := c.mUniqueObjects.insert o.mObjectName o.mObjectId } := by
  obtain ⟨hinit, hname, hid⟩ := h
  have hname' : c.mUniqueObjects.contains o.mObjectName = false := by
    rwa [← Bool.not_eq_true, TreeMap.contains_iff_mem]
  have hid' : c.mActiveObjects.contains o.mObjectId = false := by
    rwa [← Bool.not_eq_true, TreeMap.contains_iff_mem]
  simp only [insertUnique, insert, bind_apply, enforce, hinit, get_apply, hname', hid', modify_apply,
    if_true, pure_apply, Bool.not_false, Bool.false_eq_true, if_false, throw_apply]

/-- Apart from that, `insertUnique` throws before it changes anything. -/
theorem insertUnique_error (h : insertUnique onCoreThread obj o c = .error e c') :
    c' = c ∨ onCoreThread = false ∧ c.AdmitsUnique o := by
  by_cases hadmits : c.AdmitsUnique o
  · cases onCoreThread with
    | false => exact .inr ⟨rfl, hadmits⟩
    | true =>
      have hok : insertUnique true obj o c = .ok () _ := insertUnique_eq_ok.2 ⟨hadmits.2.1,
        insert_eq_ok.2 ⟨rfl, hadmits.1, hadmits.2.2, rfl⟩⟩
      rw [hok] at h
      cases h
  refine .inl (Post.error (Q := fun _ _ => True) (E := fun _ c' => c' = c) ?_ h)
  refine Post.bind (M := fun _ c' => o.isInitialized = true ∧ c' = c)
    (post_enforce (fun h => ⟨h, rfl⟩) fun _ => rfl) ?_
  rintro _ c ⟨hinit, rfl⟩
  refine Post.bind (post_get (Q := fun a c' => a = c ∧ c' = c) ⟨rfl, rfl⟩) ?_
  rintro _ c ⟨rfl, rfl⟩
  refine Post.bind (M := fun _ c' => o.mObjectName ∉ c.mUniqueObjects ∧ c' = c)
    (post_enforce (fun h => ⟨contains_eq_false.1 ((Bool.not_eq_true' _).mp h), rfl⟩) fun _ => rfl) ?_
  rintro _ c ⟨hname, rfl⟩
  refine Post.bind (post_get (Q := fun a c' => a = c ∧ c' = c) ⟨rfl, rfl⟩) ?_
  rintro _ c ⟨rfl, rfl⟩
  refine Post.bind (M := fun _ c' => o.mObjectId ∉ c.mActiveObjects ∧ c' = c)
    (post_enforce (fun h => ⟨contains_eq_false.1 ((Bool.not_eq_true' _).mp h), rfl⟩) fun _ => rfl) ?_
  rintro _ c ⟨hid, rfl⟩
  exact absurd ⟨hinit, hname, hid⟩ hadmits

theorem removeObject_error (h : removeObject onCoreThread o c = .error e c') : c' = c := by
  refine Post.error (Q := fun _ _ => True) (E := fun _ c' => c' = c) ?_ h
  refine Post.bind (M := fun _ c' => c' = c) (post_enforce (fun _ => rfl) fun _ => rfl) ?_
  rintro _ c rfl
  refine Post.bind (M := fun _ c' => c' = c) (post_enforce (fun _ => rfl) fun _ => rfl) ?_
  rintro _ c rfl
  refine Post.bind (post_get (Q := fun a c' => a = c ∧ c' = c) ⟨rfl, rfl⟩) ?_
  rintro _ c ⟨rfl, rfl⟩
  refine Post.bind (M := fun _ c' => c' = c) (post_enforce (fun _ => rfl) fun _ => rfl) ?_
  rintro _ c rfl
  exact ObjectList.post_remove.mono (fun _ _ _ => trivial) fun _ _ h => h

/-- The operation registers a name and then throws. -/
def Operation.Slips (onCoreThread : Bool) : Operation → ObjectContainer → Prop
  | insertUnique _ o, c => onCoreThread = false ∧ c.AdmitsUnique o
  | _, _ => False

theorem Operation.perform_error {op : Operation} (h : op.perform onCoreThread c = .error e c') :
    c' = c ∨ op.Slips onCoreThread c := by
  cases op with
  | insert obj o => exact .inl (ObjectList.post_insert.error h)
  | insertUnique obj o => exact insertUnique_error h
  | remove id => exact .inl (ObjectList.post_remove.error h)
  | removeObject o => exact .inl (removeObject_error h)
  | removeFromSimulation id => cases h

theorem AdmitsUnique.ne (h : c.AdmitsUnique o) :
    { c with mUniqueObjects := c.mUniqueObjects.insert o.mObjectName o.mObjectId } ≠ c := by
  intro heq
  apply h.2.1
  rw [← congrArg mUniqueObjects heq]
  exact TreeMap.mem_insert_self

end ObjectContainer

namespace ObjectList

def Operation.Slips (onCoreThread : Bool) : Operation → ObjectContainer → Prop
  | addUnique _ o, c => onCoreThread = false ∧ c.AdmitsUnique o
  | _, _ => False

theorem Operation.onContainer_error {op : Operation}
    (h : op.onContainer onCoreThread c = .error e c') : c' = c ∨ op.Slips onCoreThread c := by
  cases op with
  | addToObjectContainer objectId obj o => exact .inl (post_insert.error h)
  | addUnique obj o => exact ObjectContainer.insertUnique_error h
  | removeObjectById id => exact .inl (post_remove.error h)
  | removeFromSimulation id => exact .inl (post_removeFromSimulation.error h)

/-- Both copies have the same content as in `l`. -/
def SameCopies (l l' : ObjectList) : Prop :=
  l'.workingCopy = l.workingCopy ∧ l'.currentCopy = l.currentCopy

end ObjectList

/-- On any thread and in any state an operation that throws leaves a container, and both copies of
an object list, as they were, exactly unless it is an `insertUnique` (or `addUnique`) off the core
thread that passes its own checks. -/
theorem unchanged_iff (onCoreThread : Bool) :
    (∀ (op : ObjectContainer.Operation) (c : ObjectContainer),
      (∀ e c', op.perform onCoreThread c = .error e c' → c' = c) ↔ ¬ op.Slips onCoreThread c) ∧
    ∀ (op : ObjectList.Operation) (l : ObjectList),
      (∀ e l', op.perform onCoreThread l = .error e l' → l.SameCopies l') ↔
        ¬ op.Slips onCoreThread l.workingCopy := by
  constructor
  · intro op c
    refine ⟨fun h hslips => ?_, fun h e c' he => (op.perform_error he).resolve_right h⟩
    cases op with
    | insertUnique obj o =>
      obtain ⟨rfl, hadmits⟩ := hslips
      exact hadmits.ne (h _ _ (ObjectContainer.insertUnique_offThread hadmits))
    | _ => exact hslips
  · intro op l
    refine ⟨fun h hslips => ?_, fun h e l' he => ?_⟩
    · cases op with
      | addUnique obj o =>
        obtain ⟨rfl, hadmits⟩ := hslips
        simp only [ObjectList.Operation.perform_apply, ObjectList.onWorkingCopy_publish,
          ObjectList.Operation.onContainer, ObjectContainer.insertUnique_offThread hadmits] at h
        exact hadmits.ne ((Heap.write_cell_self ..).symm.trans (h _ _ rfl).1)
      | _ => exact hslips
    · rw [ObjectList.Operation.perform_apply, ObjectList.onWorkingCopy_publish] at he
      cases hr : op.onContainer onCoreThread l.workingCopy with
      | ok u c => rw [hr] at he; cases he
      | error e' c =>
        rw [hr] at he
        obtain ⟨-, rfl⟩ := Result.error.inj he
        obtain rfl := (op.onContainer_error hr).resolve_right h
        rw [ObjectList.workingCopy, Heap.write_cell_eq]
        exact ⟨rfl, rfl⟩

/-- An initialised object that has been added nowhere. -/
def lonelyObject : BaseObject where
  mObjectId := 2
  mObjectName := "lonely"
  mParentList := (∅ : TreeSet ObjectId).insert .root

theorem lonelyObject_admitted : ({} : ObjectContainer).AdmitsUnique lonelyObject :=
  ⟨by decide +kernel, TreeMap.not_mem_emptyc, TreeMap.not_mem_emptyc⟩

/-- Off the core thread the name of an object is registered in an empty container. -/
theorem not_unchanged :
    ¬ ∀ (onCoreThread : Bool) (op : ObjectContainer.Operation) (c c' : ObjectContainer) (e : Failure),
      op.perform onCoreThread c = .error e c' → c' = c := fun h =>
  lonelyObject_admitted.ne (h false (.insertUnique 0 lonelyObject) _ _ _
    (ObjectContainer.insertUnique_offThread lonelyObject_admitted))

/-! ## The index of the unique names -/

namespace ObjectContainer

variable {name : ObjectPtr → String} {id : ObjectId}

/-- Every registered name stands for an active object that has it. -/
def Indexed (name : ObjectPtr → String) (c : ObjectContainer) : Prop :=
  ∀ (n : String) (id : ObjectId), c.mUniqueObjects[n]? = some id →
    ∃ obj, c.mActiveObjects[id]? = some obj ∧ c.getUnique n = .ok obj ∧ name obj = n

/-- No name is registered for `id`. -/
def Unregistered (c : ObjectContainer) (id : ObjectId) : Prop :=
  ∀ n : String, c.mUniqueObjects[n]? ≠ some id

theorem indexed_iff : c.Indexed name ↔ ∀ (n : String) (id : ObjectId), c.mUniqueObjects[n]? = some id →
    ∃ obj, c.mActiveObjects[id]? = some obj ∧ name obj = n := by
  refine forall_congr' fun n => forall_congr' fun id => forall_congr' fun h =>
    exists_congr fun obj => and_congr_right fun hobj => and_iff_right ?_
  simp only [getUnique]
  simp only [h, hobj]

theorem indexed_empty : ({} : ObjectContainer).Indexed name := by
  apply indexed_iff.2
  intro n id h
  rw [TreeMap.getElem?_emptyc] at h
  cases h

/-- Only active objects and names matter. -/
theorem Indexed.congr (h : c.Indexed name) (hactive : c'.mActiveObjects = c.mActiveObjects)
    (hunique : c'.mUniqueObjects = c.mUniqueObjects) : c'.Indexed name := by
  rw [indexed_iff] at h ⊢
  rwa [hactive, hunique]

theorem mem_active {obj : ObjectPtr} (h : c.mActiveObjects[id]? = some obj) : id ∈ c.mActiveObjects :=
  TreeMap.mem_iff_isSome_getElem?.2 (by rw [h]; rfl)

theorem Indexed.insert (h : c.Indexed name) (hid : id ∉ c.mActiveObjects) (obj : ObjectPtr) :
    Indexed name { c with mActiveObjects := c.mActiveObjects.insert id obj } := by
  rw [indexed_iff] at h ⊢
  intro n id' hn
  obtain ⟨p, hp, hname⟩ := h n id' hn
  have hne : id ≠ id' := fun he => hid (he ▸ mem_active hp)
  refine ⟨p, ?_, hname⟩
  rw [TreeMap.getElem?_insert, if_neg (by rwa [Std.compare_eq_iff_eq]), hp]

theorem Indexed.insertUnique (h : c.Indexed name) (hid : id ∉ c.mActiveObjects) (obj : ObjectPtr) :
    Indexed name { c with mUniqueObjects := c.mUniqueObjects.insert (name obj) id
                          mActiveObjects := c.mActiveObjects.insert id obj } := by
  have hothers := h.insert hid obj
  rw [indexed_iff] at hothers ⊢
  intro n id' hn
  rw [TreeMap.getElem?_insert] at hn
  split at hn
  · next hname =>
    obtain rfl := Option.some.inj hn
    exact ⟨obj, TreeMap.getElem?_insert_self, Std.compare_eq_iff_eq.1 hname⟩
  · exact hothers n id' hn

/-- A name that is registered for an object that is removed stays behind. -/
theorem Indexed.erase_iff (h : c.Indexed name) :
    Indexed name { c with mActiveObjects := c.mActiveObjects.erase id } ↔ c.Unregistered id := by
  rw [indexed_iff] at h ⊢
  constructor
  · intro herased n hn
    obtain ⟨p, hp, -⟩ := herased n id hn
    rw [TreeMap.getElem?_erase_self] at hp
    cases hp
  · intro hun n id' hn
    obtain ⟨p, hp, hname⟩ := h n id' hn
    have hne : id ≠ id' := fun he => hun n (he ▸ hn)
    refine ⟨p, ?_, hname⟩
    rw [TreeMap.getElem?_erase, if_neg (by rwa [Std.compare_eq_iff_eq]), hp]

namespace Operation

/-- The objects of the operation have their names. -/
def Named (name : ObjectPtr → String) : Operation → Prop
  | insert obj o | insertUnique obj o => o.mObjectName = name obj
  | _ => True

/-- No name is registered for what the operation removes. -/
def Spares : Operation → ObjectContainer → Prop
  | remove id, c => id ∈ c.mActiveObjects → c.Unregistered id
  | removeObject o, c =>
    o.isInitialized = true → o.mObjectId ∈ c.mActiveObjects → c.Unregistered o.mObjectId
  | _, _ => True

/-- The operation keeps the index exactly if it removes nothing that is registered. -/
theorem indexed_state (op : Operation) (h : c.Indexed name) (hop : op.Named name) :
    (op.perform true c).state.Indexed name ↔ op.Spares c := by
  cases hr : op.perform true c with
  | error e c' =>
    have hnot : ¬ op.Slips true c := by cases op <;> simp [Slips]
    obtain rfl := (op.perform_error hr).resolve_right hnot
    apply iff_of_true h
    cases op with
    | remove id =>
      intro hid
      have hok : ObjectContainer.remove true id c' = Result.ok () _ :=
        remove_eq_ok.2 ⟨rfl, hid, rfl⟩
      cases hr.symm.trans hok
    | removeObject o =>
      intro hinit hid
      have hok : ObjectContainer.removeObject true o c' = Result.ok () _ :=
        removeObject_eq_ok.2 ⟨rfl, hinit, hid, rfl⟩
      cases hr.symm.trans hok
    | _ => trivial
  | ok u c' =>
    rw [Result.state_ok]
    cases op with
    | insert obj o =>
      obtain ⟨-, -, hid, rfl⟩ := insert_eq_ok.1 hr
      exact iff_of_true (h.insert hid obj) trivial
    | insertUnique obj o =>
      obtain ⟨-, hinsert⟩ := insertUnique_eq_ok.1 hr
      obtain ⟨-, -, hid, rfl⟩ := insert_eq_ok.1 hinsert
      refine iff_of_true ?_ trivial
      rw [show o.mObjectName = name obj from hop]
      exact h.insertUnique hid obj
    | remove id =>
      obtain ⟨-, hid, rfl⟩ := remove_eq_ok.1 hr
      exact h.erase_iff.trans ⟨fun hun _ => hun, fun hun => hun hid⟩
    | removeObject o =>
      obtain ⟨-, hinit, hid, rfl⟩ := removeObject_eq_ok.1 hr
      exact h.erase_iff.trans ⟨fun hun _ _ => hun, fun hun => hun hinit hid⟩
    | removeFromSimulation id =>
      obtain rfl := removeFromSimulation_eq_ok.1 hr
      exact iff_of_true (h.congr rfl rfl) trivial

/-- An operation on the core thread, which returns or throws. -/
inductive Step (name : ObjectPtr → String) :
    ObjectContainer → Operation → ObjectContainer → Prop
  | perform {op : Operation} (c : ObjectContainer) : op.Named name →
    Step name c op (op.perform true c).state

end Operation

end ObjectContainer

namespace ObjectList.Operation

variable {name : ObjectPtr → String} {l l' : ObjectList}

def Named (name : ObjectPtr → String) : Operation → Prop
  | addToObjectContainer _ obj o | addUnique obj o => o.mObjectName = name obj
  | _ => True

def Spares : Operation → ObjectContainer → Prop
  | removeObjectById id, c | removeFromSimulation id, c =>
    id ∈ c.mActiveObjects → c.Unregistered id
  | _, _ => True

theorem indexed_state (op : Operation) (h : c.Indexed name) (hop : op.Named name) :
    (op.onContainer true c).state.Indexed name ↔ op.Spares c := by
  cases op with
  | addToObjectContainer objectId obj o =>
    exact ObjectContainer.Operation.indexed_state (.insert obj o) h hop
  | addUnique obj o => exact ObjectContainer.Operation.indexed_state (.insertUnique obj o) h hop
  | removeObjectById id => exact ObjectContainer.Operation.indexed_state (.remove id) h trivial
  | removeFromSimulation id =>
    have hremove := ObjectContainer.Operation.indexed_state (.remove id) h trivial
    refine Iff.trans ?_ hremove
    change ((do ObjectContainer.remove true id
                ObjectContainer.removeFromSimulation id) c).state.Indexed name ↔
      (ObjectContainer.remove true id c).state.Indexed name
    rw [bind_apply]
    cases ObjectContainer.remove true id c with
    | error e c' => exact Iff.rfl
    | ok u c' => exact ⟨fun h => h.congr rfl rfl, fun h => h.congr rfl rfl⟩

/-- An operation on the core thread, which returns or throws. -/
inductive Step (name : ObjectPtr → String) : ObjectList → Operation → ObjectList → Prop
  | perform {op : Operation} (l : ObjectList) : op.Named name →
    Step name l op (op.perform true l).state

/-- The current copy is one of the working copy. -/
structure Published (l : ObjectList) : Prop where
  same : l.currentCopy = l.workingCopy
  made : l.mWorkingCopy < l.containers.next

theorem state_apply (op : Operation) (h : Published l) :
    Published (op.perform true l).state ∧
      (op.perform true l).state.currentCopy = (op.onContainer true l.currentCopy).state := by
  rw [perform_apply, onWorkingCopy_publish, h.same]
  cases hr : op.onContainer true l.workingCopy with
  | ok u c =>
    exact ⟨⟨(republish_currentCopy c l).trans (republish_workingCopy c l).symm,
      h.made.trans (Nat.lt_succ_self _)⟩, republish_currentCopy c l⟩
  | error e c =>
    have hnot : ¬ op.Slips true l.workingCopy := by cases op <;> simp [Slips]
    obtain rfl := (op.onContainer_error hr).resolve_right hnot
    simp only [Result.state_error, workingCopy, Heap.write_cell_eq]
    exact ⟨h, h.same⟩

end ObjectList.Operation

/-- In a sequence of operations on the core thread every registered name stands for an active object
that has it, and `getUnique` finds that, exactly as long as only unregistered objects are removed. -/
theorem indexed_iff_spares (name : ObjectPtr → String) :
    (∀ t c, Trail (ObjectContainer.Operation.Step name) {} t c →
      (((∀ e ∈ t, e.1.Indexed name) ∧ c.Indexed name) ↔ ∀ e ∈ t, e.2.Spares e.1)) ∧
    ∀ t l, Trail (ObjectList.Operation.Step name) .new t l →
      (((∀ e ∈ t, e.1.currentCopy.Indexed name) ∧ l.currentCopy.Indexed name) ↔
        ∀ e ∈ t, e.2.Spares e.1.currentCopy) := by
  constructor
  · intro t c h
    refine h.forall_iff (I := fun _ => True) (P := fun c => c.Indexed name)
      (C := fun c op => op.Spares c) trivial ObjectContainer.indexed_empty (fun _ _ => trivial) ?_
    rintro c op c' - hc ⟨_, hop⟩
    exact op.indexed_state hc hop
  · intro t l h
    refine h.forall_iff (I := ObjectList.Operation.Published) (P := fun l => l.currentCopy.Indexed name)
      (C := fun l op => op.Spares l.currentCopy) ⟨rfl, by decide⟩ ObjectContainer.indexed_empty ?_ ?_
    · rintro l op l' hl ⟨_, -⟩
      exact (op.state_apply hl).1
    · rintro l op l' hl hc ⟨_, hop⟩
      rw [(op.state_apply hl).2]
      exact op.indexed_state hc hop

end

/-- An object that is not unique. -/
def plainObject : BaseObject := { lonelyObject with mObjectId := 3, mObjectName := "plain" }

/-- Next to a unique object, one for which no name is registered is added and removed. -/
theorem indexed_iff_spares_plain :
    let name : ObjectPtr → String := fun obj => if obj = 0 then "lonely" else "plain"
    let added := ((ObjectContainer.Operation.insertUnique 0 lonelyObject).perform true {}).state
    let both := ((ObjectContainer.Operation.insert 1 plainObject).perform true added).state
    let removed := ((ObjectContainer.Operation.remove 3).perform true both).state
    ((3 : ObjectId) ∈ both.mActiveObjects ∧ (3 : ObjectId) ∉ removed.mActiveObjects ∧
        removed.mUniqueObjects.toList = [("lonely", 2)]) ∧
      added.Indexed name ∧ both.Indexed name ∧ removed.Indexed name := by
  intro name added both removed
  have hlist : both.mUniqueObjects.toList = [("lonely", 2)] := by decide +kernel
  have hspares : both.Unregistered 3 := by
    intro n hn
    have hmem := TreeMap.mem_toList_iff_getElem?_eq_some.2 hn
    rw [hlist] at hmem
    simp at hmem
  have hadd : (ObjectContainer.Operation.insertUnique 0 lonelyObject).Named name := rfl
  have hinsert : (ObjectContainer.Operation.insert 1 plainObject).Named name := rfl
  have hremove : (ObjectContainer.Operation.remove 3).Named name := trivial
  have htrail : Trail (ObjectContainer.Operation.Step name) {} [({}, .insertUnique 0 lonelyObject),
      (added, .insert 1 plainObject), (both, .remove 3)] removed :=
    .snoc (.snoc (.snoc .nil (.perform {} hadd)) (.perform added hinsert)) (.perform both hremove)
  obtain ⟨hall, hremoved⟩ := ((indexed_iff_spares name).1 _ removed htrail).2 (by
    simp only [List.forall_mem_cons]
    exact ⟨trivial, trivial, fun _ => hspares, nofun⟩)
  exact ⟨by decide +kernel, hall (added, .insert 1 plainObject) (.tail _ (.head _)),
    hall (both, .remove 3) (.tail _ (.tail _ (.head _))), hremoved⟩

/-- After a unique object has been removed, its name is still registered. -/
theorem not_indexed :
    ¬ ∀ (name : ObjectPtr → String) (t : List (ObjectContainer × ObjectContainer.Operation))
      (c : ObjectContainer), Trail (ObjectContainer.Operation.Step name) {} t c → c.Indexed name := by
  intro h
  let added := ((ObjectContainer.Operation.insertUnique 0 lonelyObject).perform true {}).state
  let removed := ((ObjectContainer.Operation.remove 2).perform true added).state
  have hname : removed.mUniqueObjects["lonely"]? = some 2 := by decide +kernel
  have hactive : removed.mActiveObjects[(2 : ObjectId)]? = none := by decide +kernel
  have hadd : (ObjectContainer.Operation.insertUnique 0 lonelyObject).Named fun _ => "lonely" := rfl
  have hremove : (ObjectContainer.Operation.remove 2).Named fun _ => "lonely" := trivial
  obtain ⟨obj, hobj, -⟩ := h (fun _ => "lonely") _ removed
    (.snoc (.snoc .nil (.perform {} hadd)) (.perform added hremove)) "lonely" 2 hname
  cases hobj.symm.trans hactive

end Cosidia
