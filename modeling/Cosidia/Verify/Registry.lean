import Cosidia.Objects.ObjectFactory
import Cosidia.Verify.Specs

/-!
# The registry of objects

What adding and removing vehicles does, without the core around it: a `Registry` has the objects, the
container that has been published last and the last id given out. The code refines it (`Shows`).
-/

namespace Cosidia

open EStateM Std

structure Registry where
  objects : Heap BaseObject
  container : ObjectContainer
  lastId : Int

namespace Registry

/-! ## The operations -/

def alloc (o : BaseObject) (r : Registry) : Registry := { r with objects := r.objects.alloc o }

/-- Change the object `p`. -/
def modify (p : ObjectPtr) (f : BaseObject → BaseObject) (r : Registry) : Registry :=
  { r with objects := r.objects.write p (f (r.objects.cell p)) }

def giveId (r : Registry) : Registry := { r with lastId := r.lastId + 1 }

/-- The object `p` becomes active. -/
def add (p : ObjectPtr) (r : Registry) : Registry :=
  { r with container := { r.container with
      mActiveObjects := r.container.mActiveObjects.insert (r.objects.cell p).mObjectId p } }

/-- The object with the id `id` is not active any more. -/
def remove (id : ObjectId) (r : Registry) : Registry :=
  { r with container := { r.container with
      mActiveObjects := r.container.mActiveObjects.erase id
      mRemovedObjects := r.container.mRemovedObjects.insert id } }

/-- The next id becomes that of `p`. -/
def identify (p : ObjectPtr) (r : Registry) : Registry :=
  r.giveId.modify p fun o => { o with mObjectId := r.lastId + 1 }

def addChild (p : ObjectPtr) (id : ObjectId) (r : Registry) : Registry :=
  r.modify p fun o => { o with mChildIdList := o.mChildIdList.insert id }

def addParent (p : ObjectPtr) (id : ObjectId) (r : Registry) : Registry :=
  r.modify p fun o => { o with mParentList := o.mParentList.insert id }

/-- A router, a microchannel and a vehicle object are made. -/
def makeVehicle (externalId : String) (r : Registry) : Registry :=
  ((r.alloc { mObjectName := "Router" }).alloc { mObjectName := "Microchannel" }).alloc
    { mObjectName := "VehicleObject", mExternalId := some externalId }

/-- The microchannel, the vehicle object and the router get ids. -/
def identifyVehicle (n : ObjectPtr) (r : Registry) : Registry :=
  ((r.identify (n + 1)).identify (n + 2)).identify n

/-- They are related to each other and to the radio with the id `id`, and become active. -/
def relateVehicle (radio : ObjectPtr) (id : ObjectId) (n : ObjectPtr) (k : Int) (r : Registry) :
    Registry :=
  let r := r.addChild radio (k + 1)
  let r := ((r.addChild (n + 1) (k + 1 + 1)).addChild (n + 1) (k + 1 + 1 + 1)).addParent (n + 1) id
  let r := (r.add (n + 1)).addParent (n + 2) (k + 1)
  let r := (r.add (n + 2)).addParent n (k + 1)
  r.add n

def addVehicle (radio : ObjectPtr) (externalId : String) (r : Registry) : Registry :=
  ((r.makeVehicle externalId).identifyVehicle r.objects.next).relateVehicle radio
    ((r.makeVehicle externalId).objects.cell radio).mObjectId r.objects.next r.lastId

theorem mem_singleton_iff {i j : ObjectId} : i ∈ (∅ : TreeSet ObjectId).insert j ↔ j = i := by
  rw [TreeSet.mem_insert, Std.compare_eq_iff_eq]
  exact or_iff_left TreeSet.not_mem_emptyc

/-! ## The core shows a registry -/

variable {ω : Type}

/-- The core holds the objects of `r`, and the container of `r` has been published. -/
structure Shows (r : Registry) (s : Core ω) : Prop where
  objects : s.objects = r.objects
  workingCopy : s.mObjectList.workingCopy = r.container
  currentCopy : s.mObjectList.currentCopy = r.container
  made : s.mObjectList.mWorkingCopy < s.mObjectList.containers.next
  lastId : s.mObjectList.mCurrentObjectId = r.lastId

section
variable {r : Registry} {s s' : Core ω}

theorem Shows.schedules (h : Shows r s) (hs : Schedules s s') : Shows r s' where
  objects := by rw [hs.objects, h.objects]
  workingCopy := by rw [hs.mObjectList, h.workingCopy]
  currentCopy := by rw [hs.mObjectList, h.currentCopy]
  made := by rw [hs.mObjectList]; exact h.made
  lastId := by rw [hs.mObjectList, h.lastId]

theorem shows_makeObject (h : Shows r s) (name : String) (externalId : Option String) :
    Returns (makeObject name externalId) s fun p s' => p = r.objects.next ∧
      Shows (r.alloc { mObjectName := name, mExternalId := externalId }) s' :=
  ⟨congrArg Heap.next h.objects, { h with objects := congrArg (Heap.alloc · _) h.objects }⟩

/-- A method of the object `p` that does `f`. -/
theorem shows_onObject (h : Shows r s) {p : ObjectPtr} {x : EStateM Failure BaseObject Unit}
    (f : BaseObject → BaseObject) (hx : ∀ o, Returns x o fun _ o' => o' = f o) :
    Returns (onObject p x) s fun _ s' => p < r.objects.next ∧ Shows (r.modify p f) s' := by
  refine post_onObject (fun hp => Post.mono (hx _) ?_ fun _ _ _ => trivial) trivial
  rintro _ _ rfl
  rw [h.objects] at hp
  exact ⟨hp, { h with objects := by rw [Core.writeObject_objects, h.objects]; rfl }⟩

theorem shows_getNextObjectId (h : Shows r s) :
    Returns Core.getNextObjectId s fun id s' => id = r.lastId + 1 ∧ Shows r.giveId s' :=
  have hlast : s.mObjectList.mCurrentObjectId + 1 = r.lastId + 1 := congrArg (· + 1) h.lastId
  ⟨hlast, { h with lastId := hlast }⟩

theorem shows_getObject (h : Shows r s) (p : ObjectPtr) :
    Returns (getObject p) s fun o s' => s' = s ∧ p < r.objects.next ∧ o = r.objects.cell p := by
  refine post_onObject (fun hp => ?_) trivial
  rw [h.objects] at hp
  exact ⟨by rw [Core.writeObject, Heap.write_cell_eq], hp, by rw [h.objects]⟩

theorem returns_ofExcept {α : Type} (x : Except Failure α) :
    Returns (ofExcept x) s fun a s' => s' = s ∧ x = .ok a := by
  cases x with
  | ok a => exact ⟨rfl, rfl⟩
  | error e => trivial

/-- Making an action and scheduling its start. -/
theorem shows_schedule (h : Shows r s) {kind : ActionKind} {duration : Duration} {start : TimePoint}
    {id generator : ObjectId} {α : Type} {f : CoreM ω α} {Q : α → Core ω → Prop}
    (hf : ∀ s', Shows r s' → Returns f s' Q) :
    Returns (do
      let newAction ← ActionFactory.create kind duration start id generator
      Action.scheduleStartHandler newAction
      f) s Q := by
  refine Post.bind (M := fun _ s' => Shows r s') ?_ fun p s₁ h₁ => ?_
  · refine Post.bind (M := fun _ s' => s' = s) (post_enforce (fun _ => rfl) fun _ => trivial) ?_
    rintro _ s rfl
    refine Post.bind (M := fun _ s' => s' = s) (post_enforce (fun _ => rfl) fun _ => trivial) ?_
    rintro _ s rfl
    exact { h with }
  · refine Post.bind (M := fun _ s' => Shows r s') ?_ fun _ s₂ h₂ => hf s₂ h₂
    exact Post.mono (post_of_state (I := fun s' => Shows r s')
      (h₁.schedules (.scheduleStartHandler p s₁))) (fun _ _ h => h) fun _ _ _ => trivial

/-! ### Containers -/

/-- The working copy of `l` is `c`; the other containers and the ids do not matter. -/
structure Works (c : ObjectContainer) (id : Int) (l : ObjectList) : Prop where
  workingCopy : l.workingCopy = c
  made : l.mWorkingCopy < l.containers.next
  lastId : l.mCurrentObjectId = id

variable {c : ObjectContainer} {id : Int} {l : ObjectList}

theorem works_onWorkingCopy (h : Works c id l) {x : EStateM Failure ObjectContainer Unit}
    {Q : ObjectContainer → Prop} (hx : Returns x c fun _ c' => Q c') :
    Returns (ObjectList.onWorkingCopy x) l fun _ l' => ∃ c', Q c' ∧ Works c' id l' := by
  apply post_zoom
  rw [h.workingCopy]
  refine Post.mono hx (fun _ c' hc' => ⟨c', hc', ?_, h.made, h.lastId⟩) fun _ _ _ => trivial
  simp [ObjectList.workingCopy]

theorem works_publish (h : Works c id l) :
    Returns ObjectList.publish l fun _ l' => Works c id l' ∧ l'.currentCopy = c := by
  have hcell : (l.containers.alloc l.workingCopy).cell l.mWorkingCopy = c := by
    rw [Heap.alloc_cell_of_lt h.made]
    exact h.workingCopy
  refine ⟨⟨hcell, h.made.trans (Nat.lt_succ_self _), h.lastId⟩, ?_⟩
  show (l.containers.alloc l.workingCopy).cell l.containers.next = c
  rw [Heap.alloc_cell_self, h.workingCopy]

/-- A program on the object list that publishes `c`. -/
theorem shows_onObjectList (h : Shows r s) {x : EStateM Failure ObjectList Unit}
    {Q : ObjectContainer → Prop}
    (hx : Returns x s.mObjectList fun _ l' => ∃ c, Q c ∧ Works c r.lastId l' ∧ l'.currentCopy = c) :
    Returns (onObjectList x) s fun _ s' => ∃ c, Q c ∧ Shows { r with container := c } s' := by
  refine post_zoom (Post.mono hx ?_ fun _ _ _ => trivial)
  rintro _ l' ⟨c, hc, hworks, hcurrent⟩
  exact ⟨c, hc, h.objects, hworks.workingCopy, hcurrent, hworks.made, hworks.lastId⟩

theorem Shows.works (h : Shows r s) : Works r.container r.lastId s.mObjectList :=
  ⟨h.workingCopy, h.made, h.lastId⟩

theorem shows_addObject (h : Shows r s) (p : ObjectPtr) :
    Returns (Core.addObject p) s fun _ s' => (r.objects.cell p).isInitialized = true ∧
      (r.objects.cell p).mObjectId ∉ r.container.mActiveObjects ∧ Shows (r.add p) s' := by
  apply Post.bind (shows_getObject h p)
  rintro _ s ⟨rfl, -, rfl⟩
  refine Post.bind (M := fun _ s' => s' = s) (post_enforce (fun _ => rfl) fun _ => trivial) ?_
  rintro _ s rfl
  refine Post.mono (shows_onObjectList h (Q := fun c => (r.objects.cell p).isInitialized = true ∧
    (r.objects.cell p).mObjectId ∉ r.container.mActiveObjects ∧ c = (r.add p).container) ?_)
    (fun _ s' => ?_) fun _ _ _ => trivial
  · refine Post.bind (works_onWorkingCopy h.works (Q := fun c =>
      (r.objects.cell p).isInitialized = true ∧
        (r.objects.cell p).mObjectId ∉ r.container.mActiveObjects ∧ c = (r.add p).container)
      (post_iff.2 ⟨fun _ c' hc => ?_, fun _ _ _ => trivial⟩)) ?_
    · obtain ⟨-, hinit, hnew, rfl⟩ := ObjectContainer.insert_eq_ok.1 hc
      exact ⟨hinit, hnew, rfl⟩
    · rintro _ l₁ ⟨c, hc, hworks⟩
      exact Post.mono (works_publish hworks) (fun _ _ h => ⟨c, hc, h⟩) fun _ _ _ => trivial
  · rintro ⟨c, ⟨hinit, hnew, rfl⟩, hshows⟩
    exact ⟨hinit, hnew, hshows⟩

theorem shows_removeObjectFromSimulation (h : Shows r s) (id : ObjectId) :
    Returns (Core.removeObjectFromSimulation id) s fun _ s' =>
      id ∈ r.container.mActiveObjects ∧ Shows (r.remove id) s' := by
  refine Post.mono (shows_onObjectList h (Q := fun c => id ∈ r.container.mActiveObjects ∧
    c = (r.remove id).container) ?_) (fun _ s' => ?_) fun _ _ _ => trivial
  · refine Post.bind (works_onWorkingCopy h.works (Q := fun c => id ∈ r.container.mActiveObjects ∧
      c = { r.container with mActiveObjects := r.container.mActiveObjects.erase id })
      (post_iff.2 ⟨fun _ c' hc => ?_, fun _ _ _ => trivial⟩)) ?_
    · obtain ⟨-, hmem, rfl⟩ := ObjectContainer.remove_eq_ok.1 hc
      exact ⟨hmem, rfl⟩
    · rintro _ l₁ ⟨_, ⟨hmem, rfl⟩, hworks⟩
      refine Post.bind (works_onWorkingCopy hworks (Q := fun c => c = (r.remove id).container)
        (post_iff.2 ⟨fun _ c' hc => (ObjectContainer.removeFromSimulation_eq_ok.1 hc).symm,
          fun _ _ _ => trivial⟩)) ?_
      rintro _ l₂ ⟨_, rfl, hworks⟩
      exact Post.mono (works_publish hworks) (fun _ _ h => ⟨_, ⟨hmem, rfl⟩, h⟩) fun _ _ _ => trivial
  · rintro ⟨c, ⟨hmem, rfl⟩, hshows⟩
    exact ⟨hmem, hshows⟩

/-! ### Adding a vehicle -/

theorem returns_setExternalId (id : String) (o : BaseObject) :
    Returns (BaseObject.setExternalId id) o fun _ o' => o' = { o with mExternalId := some id } := by
  simp only [BaseObject.setExternalId]
  rw [Returns, post_bind_of_ok (get_apply o)]
  exact Post.bind (M := fun _ o' => o' = o) (post_enforce (fun _ => rfl) fun _ => trivial)
    fun _ _ ho => by rw [ho]; rfl

theorem shows_createVehicleObject (h : Shows r s) (data : Option FactoryData) :
    Returns (ObjectFactory.createVehicleObject r.container data) s fun l s' =>
      ∃ radio externalId, r.container.getUnique "Radio" = .ok radio ∧
        l = ObjectFactory.vehicleObjects radio (r.objects.next + 1) (r.objects.next + 2)
          r.objects.next ∧ Shows (r.makeVehicle externalId) s' := by
  simp only [ObjectFactory.createVehicleObject]
  cases data with
  | none => trivial
  | some data =>
    apply Post.bind (shows_makeObject h _ _)
    rintro _ s₁ ⟨rfl, h₁⟩
    apply Post.bind (shows_makeObject h₁ _ _)
    rintro _ s₂ ⟨rfl, h₂⟩
    apply Post.bind (shows_makeObject h₂ _ _)
    rintro _ s₃ ⟨rfl, h₃⟩
    apply Post.bind (returns_ofExcept _)
    rintro externalId s₃ ⟨rfl, -⟩
    apply Post.bind (shows_onObject h₃ _ (returns_setExternalId externalId))
    intro _ s₄ h₄
    apply Post.bind (returns_ofExcept _)
    rintro radio s₄ ⟨rfl, hunique⟩
    refine ⟨radio, externalId, hunique, rfl, ?_⟩
    have hmake : modify ((r.alloc { mObjectName := "Router" }).alloc
        { mObjectName := "Microchannel" }).objects.next
        (fun o => { o with mExternalId := some externalId }) (r.makeVehicle "") =
          r.makeVehicle externalId := by
      simp only [modify, makeVehicle, alloc, Heap.alloc_cell_self, Heap.alloc_write]
    rw [← hmake]
    exact h₄.2

/-! ### Resolving and starting -/

variable {obj : TemporaryObject} {t : TimePoint}

/-- `obj` is initialised, unless it is part of the simulation already. -/
def start (obj : TemporaryObject) (r : Registry) : TemporaryObject × Registry :=
  if obj.mIsInitialized then (obj.setTempMapping (r.objects.cell obj.mBaseObject).mObjectId, r)
  else (obj.setTempMapping (r.lastId + 1), r.identify obj.mBaseObject)

def startAll : List TemporaryObject → Registry → List TemporaryObject × Registry
  | [], r => ([], r)
  | obj :: l, r => ((r.start obj).1 :: (startAll l (r.start obj).2).1, (startAll l (r.start obj).2).2)

theorem shows_initializeAt (h : Shows r s) (obj : TemporaryObject) :
    Returns (obj.initializeAt t) s fun obj' s' =>
      obj' = (r.start obj).1 ∧ Shows (r.start obj).2 s' := by
  unfold TemporaryObject.initializeAt start
  cases obj.mIsInitialized with
  | true =>
    apply Post.bind (shows_getObject h _)
    rintro _ s ⟨rfl, -, rfl⟩
    exact ⟨rfl, h⟩
  | false =>
    apply Post.bind (shows_getNextObjectId h)
    rintro _ s₁ ⟨rfl, h₁⟩
    refine Post.bind (shows_onObject h₁ (fun o => { o with mObjectId := r.lastId + 1 })
      fun _ => rfl) fun _ s₂ h₂ => ?_
    exact shows_schedule h₂.2 fun s₃ h₃ => ⟨rfl, h₃⟩

theorem shows_mapM (l : List TemporaryObject) (h : Shows r s) :
    Returns (l.mapM (TemporaryObject.initializeAt t)) s fun l' s' =>
      l' = (startAll l r).1 ∧ Shows (startAll l r).2 s' := by
  induction l generalizing r s with
  | nil => exact ⟨rfl, h⟩
  | cons obj l ih =>
    rw [List.mapM_cons]
    apply Post.bind (shows_initializeAt h obj)
    rintro _ s₁ ⟨rfl, h₁⟩
    apply Post.bind (ih h₁)
    rintro _ s₂ ⟨rfl, h₂⟩
    exact ⟨rfl, h₂⟩

variable {ids : TreeMap ObjectId TemporaryObject} {ρ : ObjectId → ObjectId}

/-- The children of `obj`, resolved by `ρ`. -/
theorem shows_setRealChildren (hρ : ∀ i x, TemporaryObjectList.resolve ids i = .ok x → x = ρ i)
    (l : List ObjectId) (h : Shows r s) :
    Returns (l.forM fun child => do
      obj.setRealChildren (← ofExcept (TemporaryObjectList.resolve ids child))) s fun _ s' =>
        Shows (l.foldl (fun r i => r.addChild obj.mBaseObject (ρ i)) r) s' := by
  induction l generalizing r s with
  | nil => exact h
  | cons i l ih =>
    refine Post.bind (M := fun _ s' => Shows (r.addChild obj.mBaseObject (ρ i)) s') ?_
      fun _ s₁ h₁ => ih h₁
    apply Post.bind (returns_ofExcept _)
    rintro x s ⟨rfl, hx⟩
    rw [← hρ i x hx]
    exact Post.mono (shows_onObject h (fun o => { o with mChildIdList := o.mChildIdList.insert x })
      fun _ => rfl) (fun _ _ h => h.2) fun _ _ _ => trivial

/-- The parents of `obj`, resolved by `ρ`. -/
theorem shows_setRealParent (hρ : ∀ i x, TemporaryObjectList.resolve ids i = .ok x → x = ρ i)
    (l : List ObjectId) (h : Shows r s) :
    Returns (l.forM fun parent => do
      obj.setRealParent (← ofExcept (TemporaryObjectList.resolve ids parent))) s fun _ s' =>
        Shows (l.foldl (fun r i => r.addParent obj.mBaseObject (ρ i)) r) s' := by
  induction l generalizing r s with
  | nil => exact h
  | cons i l ih =>
    refine Post.bind (M := fun _ s' => Shows (r.addParent obj.mBaseObject (ρ i)) s') ?_
      fun _ s₁ h₁ => ih h₁
    apply Post.bind (returns_ofExcept _)
    rintro x s ⟨rfl, hx⟩
    rw [← hρ i x hx]
    exact Post.mono (shows_onObject h (fun o => { o with mParentList := o.mParentList.insert x })
      fun _ => rfl) (fun _ _ h => h.2) fun _ _ _ => trivial

/-- `obj` is related to its children and parents and, unless it is active already, becomes active. -/
def relate (ρ : ObjectId → ObjectId) (obj : TemporaryObject) (r : Registry) : Registry :=
  let r := obj.mTempChildren.toList.foldl (fun r i => r.addChild obj.mBaseObject (ρ i)) r
  let r := obj.mTempParents.toList.foldl (fun r i => r.addParent obj.mBaseObject (ρ i)) r
  if obj.mIsInitialized then r else r.add obj.mBaseObject

theorem shows_relate (hρ : ∀ i x, TemporaryObjectList.resolve ids i = .ok x → x = ρ i)
    (h : Shows r s) :
    Returns (TemporaryObjectList.relate ids obj) s fun _ s' => Shows (r.relate ρ obj) s' := by
  apply Post.bind (shows_setRealChildren hρ _ h)
  intro _ s₁ h₁
  apply Post.bind (shows_setRealParent hρ _ h₁)
  intro _ s₂ h₂
  simp only [relate]
  cases obj.mIsInitialized with
  | true => exact h₂
  | false =>
    exact Post.mono (shows_addObject h₂ _) (fun _ _ h => h.2.2) fun _ _ _ => trivial

/-- The ids that temporary ids have been mapped to. -/
def realId (l : List TemporaryObject) (i : ObjectId) : ObjectId :=
  match (l.foldl (fun ids obj => ids.insert obj.mTempId obj)
    (∅ : TreeMap ObjectId TemporaryObject))[i]? with
  | some obj => obj.mTempMapping.2
  | none => .stub

theorem shows_forM (hρ : ∀ i x, TemporaryObjectList.resolve ids i = .ok x → x = ρ i)
    (l : List TemporaryObject) (h : Shows r s) :
    Returns (l.forM (TemporaryObjectList.relate ids)) s fun _ s' =>
      Shows (l.foldl (fun r obj => r.relate ρ obj) r) s' := by
  induction l generalizing r s with
  | nil => exact h
  | cons obj l ih => exact Post.bind (shows_relate hρ h) fun _ s₁ h₁ => ih h₁

theorem eq_realId {l : List TemporaryObject} {i x : ObjectId}
    (h : TemporaryObjectList.resolve
      (l.foldl (fun ids obj => ids.insert obj.mTempId obj) ∅) i = .ok x) : x = realId l i := by
  simp only [TemporaryObjectList.resolve] at h
  simp only [realId]
  cases hobj : (l.foldl (fun ids obj => ids.insert obj.mTempId obj)
      (∅ : TreeMap ObjectId TemporaryObject))[i]? with
  | none =>
    rw [hobj] at h
    cases h
  | some obj =>
    rw [hobj] at h
    dsimp only at h
    simp only [TemporaryObject.getRealId] at h
    split_ifs at h
    exact (Except.ok.inj h).symm

theorem shows_resolveAndStart (l : List TemporaryObject) (h : Shows r s) :
    Returns (TemporaryObjectList.resolveAndStart t l) s fun _ s' =>
      Shows ((startAll l r).1.foldl (fun r' obj => r'.relate (realId (startAll l r).1) obj)
        (startAll l r).2) s' := by
  apply Post.bind (shows_mapM l h)
  rintro l' s₁ ⟨rfl, h₁⟩
  exact shows_forM (fun _ _ hx => eq_realId hx) _ h₁

/-- The objects of a vehicle after they have been initialised. -/
def vehicleObjectsAt (radio n : ObjectPtr) (id : ObjectId) (k : Int) : List TemporaryObject :=
  [{ mBaseObject := radio, mTempId := 0, mIsInitialized := true,
     mTempChildren := (∅ : TreeSet ObjectId).insert 1, mTempMapping := (0, id) },
   { mBaseObject := n + 1, mTempId := 1, mTempParents := (∅ : TreeSet ObjectId).insert 0,
     mTempChildren := ((∅ : TreeSet ObjectId).insert 2).insert 3, mTempMapping := (1, k + 1) },
   { mBaseObject := n + 2, mTempId := 2, mTempParents := (∅ : TreeSet ObjectId).insert 1,
     mTempMapping := (2, k + 1 + 1) },
   { mBaseObject := n, mTempId := 3, mTempParents := (∅ : TreeSet ObjectId).insert 1,
     mTempMapping := (3, k + 1 + 1 + 1) }]

theorem startAll_vehicleObjects (radio n : ObjectPtr) (r : Registry) :
    startAll (ObjectFactory.vehicleObjects radio (n + 1) (n + 2) n) r =
      (vehicleObjectsAt radio n (r.objects.cell radio).mObjectId r.lastId, r.identifyVehicle n) := rfl

theorem relate_vehicleObjects (radio n : ObjectPtr) (id : ObjectId) (k : Int) (r : Registry) :
    (vehicleObjectsAt radio n id k).foldl
      (fun r obj => r.relate (realId (vehicleObjectsAt radio n id k)) obj) r =
      r.relateVehicle radio id n k := by
  have h0 : realId (vehicleObjectsAt radio n id k) 0 = id := rfl
  have h1 : realId (vehicleObjectsAt radio n id k) 1 = k + 1 := rfl
  have h2 : realId (vehicleObjectsAt radio n id k) 2 = k + 1 + 1 := rfl
  have h3 : realId (vehicleObjectsAt radio n id k) 3 = k + 1 + 1 + 1 := rfl
  have hnil : (∅ : TreeSet ObjectId).toList = [] := rfl
  have hone : ∀ i : ObjectId, ((∅ : TreeSet ObjectId).insert i).toList = [i] := fun _ => rfl
  have htwo : (((∅ : TreeSet ObjectId).insert 2).insert 3).toList = [2, 3] := by decide
  generalize hρ : realId (vehicleObjectsAt radio n id k) = ρ at h0 h1 h2 h3 ⊢
  simp only [vehicleObjectsAt, List.foldl_cons, List.foldl_nil, relate, relateVehicle, hnil, hone,
    htwo, h0, h1, h2, h3, if_true, Bool.false_eq_true, if_false]

/-- The radio gets a microchannel with a vehicle and a router. -/
theorem shows_createObject (h : Shows r s) (data : Option FactoryData) :
    Returns (do
      let vehicle ← ObjectFactory.createObject "vehicle" r.container data
      TemporaryObjectList.resolveAndStart t vehicle) s fun _ s' =>
      ∃ radio externalId, r.container.getUnique "Radio" = .ok radio ∧
        Shows (r.addVehicle radio externalId) s' := by
  apply Post.bind (shows_createVehicleObject h data)
  rintro _ s₁ ⟨radio, externalId, hunique, rfl, h₁⟩
  refine Post.mono (shows_resolveAndStart _ h₁) (fun _ s' h' => ?_) fun _ _ _ => trivial
  rw [startAll_vehicleObjects, relate_vehicleObjects] at h'
  exact ⟨radio, externalId, hunique, h'⟩

/-! ### Removing a vehicle -/

theorem returns_getActive (s : Core ω) (id : ObjectId) :
    Returns (ofExcept (r.container.getObject id)) s fun x s' =>
      s' = s ∧ x = r.container.mActiveObjects[id]? := by
  refine Post.mono (returns_ofExcept _) (fun x s' ⟨hs, hx⟩ => ⟨hs, ?_⟩) fun _ _ _ => trivial
  simp only [ObjectContainer.getObject] at hx
  split_ifs at hx
  exact (Except.ok.inj hx).symm

/-- The active object `p` has the name `name`. -/
def Named (name : String) (i : ObjectId) (p : ObjectPtr) (r : Registry) : Prop :=
  r.container.mActiveObjects[i]? = some p ∧ (r.objects.cell p).mObjectName = name

theorem returns_findByName (h : Shows r s) (name : String) (l : List ObjectId) :
    Returns (findByName name r.container l) s fun x s' =>
      s' = s ∧ ∀ p, x = some p → ∃ i ∈ l, r.Named name i p := by
  induction l with
  | nil => exact ⟨rfl, fun _ hp => by cases hp⟩
  | cons i l ih =>
    apply Post.bind (returns_getActive s i)
    rintro x s ⟨rfl, hx⟩
    cases x with
    | none => trivial
    | some p =>
      apply Post.bind (shows_getObject h p)
      rintro _ s ⟨rfl, -, rfl⟩
      split_ifs with hname
      · refine ⟨rfl, fun q hq => ?_⟩
        obtain rfl := Option.some.inj hq
        exact ⟨i, List.mem_cons_self .., hx.symm, hname⟩
      · refine Post.mono ih (fun y s' ⟨hs, hy⟩ => ⟨hs, fun q hq => ?_⟩) fun _ _ _ => trivial
        obtain ⟨j, hj, hnamed⟩ := hy q hq
        exact ⟨j, List.mem_cons_of_mem _ hj, hnamed⟩

theorem returns_findAmongChildren (h : Shows r s) (name : String) (l : List ObjectId) :
    Returns (findAmongChildren name r.container l) s fun x s' =>
      s' = s ∧ ∀ p, x = some p → ∃ i, r.Named name i p := by
  induction l with
  | nil => exact ⟨rfl, fun _ hp => by cases hp⟩
  | cons i l ih =>
    apply Post.bind (returns_getActive s i)
    rintro x s ⟨rfl, -⟩
    cases x with
    | none => trivial
    | some parent =>
      apply Post.bind (shows_getObject h parent)
      rintro _ s ⟨rfl, -, rfl⟩
      apply Post.bind (returns_findByName h name _)
      rintro x s ⟨rfl, hx⟩
      cases x with
      | none => exact ih
      | some sibling =>
        refine ⟨rfl, fun q hq => ?_⟩
        obtain ⟨j, -, hnamed⟩ := hx q hq
        exact ⟨j, hnamed⟩

theorem returns_getParentByName (h : Shows r s) (p : ObjectPtr) (name : String) :
    Returns (getParentByName p name r.container) s fun q s' =>
      s' = s ∧ ∃ i ∈ (r.objects.cell p).mParentList, r.Named name i q := by
  apply Post.bind (shows_getObject h p)
  rintro _ s ⟨rfl, -, rfl⟩
  apply Post.bind (returns_findByName h name _)
  rintro x s ⟨rfl, hx⟩
  cases x with
  | none => trivial
  | some q =>
    obtain ⟨i, hi, hnamed⟩ := hx q rfl
    exact ⟨rfl, i, TreeSet.mem_toList.1 hi, hnamed⟩

theorem returns_getSiblingByName (h : Shows r s) (p : ObjectPtr) (name : String) :
    Returns (getSiblingByName p name r.container) s fun q s' =>
      s' = s ∧ ∃ i, r.Named name i q := by
  apply Post.bind (shows_getObject h p)
  rintro _ s ⟨rfl, -, rfl⟩
  apply Post.bind (returns_findAmongChildren h name _)
  rintro x s ⟨rfl, hx⟩
  cases x with
  | none => trivial
  | some q => exact ⟨rfl, hx q rfl⟩

/-- What is deleted with the vehicle object `id`: itself, its microchannel and its router. -/
def Deletes (id : ObjectId) (ids : List ObjectId) (r : Registry) : Prop :=
  ∃ vehicle i channel j router, r.Named "VehicleObject" id vehicle ∧
    i ∈ (r.objects.cell vehicle).mParentList ∧ r.Named "Microchannel" i channel ∧
    r.Named "Router" j router ∧
    ids = [id, (r.objects.cell channel).mObjectId, (r.objects.cell router).mObjectId]

theorem returns_getObjectsToDelete (h : Shows r s) (id : ObjectId) :
    Returns (ObjectRemover.getObjectsToDelete "vehicle" id r.container) s fun ids s' =>
      s' = s ∧ r.Deletes id ids := by
  apply Post.bind (returns_getActive s id)
  rintro x s ⟨rfl, hx⟩
  cases x with
  | none => trivial
  | some vehicle =>
    apply Post.bind (shows_getObject h vehicle)
    rintro _ s ⟨rfl, -, rfl⟩
    refine Post.bind (M := fun _ s' => (r.objects.cell vehicle).mObjectName = "VehicleObject" ∧
      s' = s) (post_enforce (fun hname => ⟨by simpa using hname, rfl⟩) fun _ => trivial) ?_
    rintro _ s ⟨hname, rfl⟩
    apply Post.bind (returns_getParentByName h vehicle "Microchannel")
    rintro channel s ⟨rfl, i, hi, hchannel⟩
    apply Post.bind (shows_getObject h channel)
    rintro _ s ⟨rfl, -, rfl⟩
    apply Post.bind (returns_getSiblingByName h vehicle "Router")
    rintro router s ⟨rfl, j, hrouter⟩
    apply Post.bind (shows_getObject h router)
    rintro _ s ⟨rfl, -, rfl⟩
    exact ⟨rfl, vehicle, i, channel, j, router, ⟨hx.symm, hname⟩, hi, hchannel, hrouter, rfl⟩

theorem shows_removeAll (l : List ObjectId) (h : Shows r s) :
    Returns (l.forM Core.removeObjectFromSimulation) s fun _ s' =>
      Shows (l.foldl (fun r id => r.remove id) r) s' := by
  induction l generalizing r s with
  | nil => exact h
  | cons id l ih =>
    exact Post.bind (shows_removeObjectFromSimulation h id) fun _ s₁ h₁ => ih h₁.2

theorem shows_getObjectsToDelete (h : Shows r s) (id : ObjectId) :
    Returns (do
      let ids ← ObjectRemover.getObjectsToDelete "vehicle" id r.container
      ids.forM Core.removeObjectFromSimulation) s fun _ s' =>
      ∃ ids, r.Deletes id ids ∧ Shows (ids.foldl (fun r id => r.remove id) r) s' := by
  apply Post.bind (returns_getObjectsToDelete h id)
  rintro ids s ⟨rfl, hids⟩
  exact Post.mono (shows_removeAll ids h) (fun _ _ h' => ⟨ids, hids, h'⟩) fun _ _ _ => trivial

end

end Registry

/-! ## A core with a radio -/

/-- The setup that makes a radio the unique one. -/
def addRadio : CoreM Unit Unit := do
  let radio ← makeObject "Radio" none
  let id ← Core.getNextObjectId
  onObject radio (BaseObject.setObjectId id)
  onObject radio (BaseObject.addParent .root)
  Core.addUniqueObject radio

def radioCore : Core Unit := (addRadio (.new ())).state

theorem radioCore_active {i : ObjectId} {p : ObjectPtr}
    (hp : radioCore.mObjectList.currentCopy.mActiveObjects[i]? = some p) : i = 2 ∧ p = 0 := by
  have hactive : radioCore.mObjectList.currentCopy.mActiveObjects =
      (∅ : TreeMap ObjectId ObjectPtr).insert 2 0 := rfl
  rw [hactive, TreeMap.getElem?_insert] at hp
  split_ifs at hp with hi
  · exact ⟨(Std.compare_eq_iff_eq.1 hi).symm, (Option.some.inj hp).symm⟩
  · rw [TreeMap.getElem?_emptyc] at hp
    cases hp

end Cosidia
