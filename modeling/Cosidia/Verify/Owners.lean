import Cosidia.Mobility.Tasks
import Cosidia.Theory.Reachable
import Cosidia.Verify.Moments
import Cosidia.Verify.ObjectLists
import Cosidia.Verify.Rounds

/-!
# Owners of objects

Objects are owned by containers: the working copy, the current one, and older ones that unfinished
tasks have been given. The mobility manager removes objects whatever tasks they have launched.
-/

namespace Cosidia

open EStateM Std

variable {ω π : Type}

/-! ## Containers -/

namespace ObjectContainer

variable {c : ObjectContainer} {obj : ObjectPtr}

theorem owns_iff : c.owns obj = true ↔ ∃ id : ObjectId, c.mActiveObjects[id]? = some obj := by
  unfold owns getAll
  rw [List.any_eq_true]
  constructor
  · rintro ⟨⟨id, obj'⟩, hmem, heq⟩
    obtain rfl : obj' = obj := eq_of_beq heq
    exact ⟨id, TreeMap.mem_toList_iff_getElem?_eq_some.1 hmem⟩
  · rintro ⟨id, hid⟩
    exact ⟨(id, obj), TreeMap.mem_toList_iff_getElem?_eq_some.2 hid, beq_self_eq_true obj⟩

/-- The container owns `obj` under `id` and under no other id. -/
def OwnsOnlyAs (c : ObjectContainer) (id : ObjectId) (obj : ObjectPtr) : Prop :=
  c.mActiveObjects[id]? = some obj ∧ ∀ i : ObjectId, c.mActiveObjects[i]? = some obj → i = id

end ObjectContainer

namespace ObjectList

variable {l l' l'' : ObjectList}

/-- The current copy is one of the working copy. -/
structure Sound (l : ObjectList) : Prop where
  current : l.currentCopy = l.workingCopy
  made : l.mWorkingCopy < l.mCurrentCopy ∧ l.mCurrentCopy < l.containers.next

/-- `l'` comes after `l`: containers that have been handed out stay as they are. -/
structure Later (l l' : ObjectList) : Prop where
  mWorkingCopy : l'.mWorkingCopy = l.mWorkingCopy
  next : l.containers.next ≤ l'.containers.next
  cell : ∀ c < l.containers.next, c ≠ l.mWorkingCopy → l'.containers.cell c = l.containers.cell c

theorem Later.refl (l : ObjectList) : Later l l := ⟨rfl, Nat.le_refl _, fun _ _ _ => rfl⟩

theorem Later.trans (h : Later l l') (h' : Later l' l'') : Later l l'' where
  mWorkingCopy := h'.mWorkingCopy.trans h.mWorkingCopy
  next := h.next.trans h'.next
  cell c hc hne := (h'.cell c (hc.trans_le h.next) (h.mWorkingCopy ▸ hne)).trans (h.cell c hc hne)

theorem sound_new : Sound new := ⟨rfl, Nat.zero_lt_one, Nat.lt_succ_self _⟩

theorem Sound.republish (h : Sound l) (c : ObjectContainer) :
    Sound (l.republish c) ∧ Later l (l.republish c) := by
  have hmade := h.made.1.trans h.made.2
  refine ⟨⟨?_, hmade, Nat.lt_succ_self _⟩, rfl, Nat.le_succ _, fun p hp hne => ?_⟩
  · rw [republish_currentCopy, republish_workingCopy]
  · exact (Heap.alloc_cell_of_lt (h := l.containers.write _ _) hp).trans (Heap.write_cell_of_ne hne)

theorem removeFromSimulation_ok {id : ObjectId} (h : id ∈ l.workingCopy.mActiveObjects) :
    ∃ l', ObjectList.removeFromSimulation true id l = .ok () l' :=
  ⟨_, bind_eq_ok.2 ⟨(), _, zoom_eq_ok.2 ⟨_, ObjectContainer.remove_eq_ok.2 ⟨rfl, h, rfl⟩, rfl⟩,
    bind_eq_ok.2 ⟨(), _, zoom_eq_ok.2 ⟨_, ObjectContainer.removeFromSimulation_eq_ok.2 rfl, rfl⟩,
      rfl⟩⟩⟩

/-- A call leaves the list as it is, or changes the current copy. -/
theorem Sound.perform (h : Sound l) (change : Change) :
    Sound (change.perform l).state ∧ Later l (change.perform l).state ∧
      ((change.perform l).state.currentCopy = l.currentCopy ∨
        (change.added = none ↔ change.id ∈ l.currentCopy.mActiveObjects) ∧
          (change.perform l).state.currentCopy = change.applied l.currentCopy) := by
  rcases perform_cases change l with ⟨e, he⟩ | ⟨hmem, hok⟩
  · rw [he]
    exact ⟨h, .refl l, .inl rfl⟩
  · obtain ⟨hsound, hlater⟩ := h.republish (change.applied l.workingCopy)
    rw [hok, h.current]
    exact ⟨hsound, hlater, .inr ⟨hmem, republish_currentCopy _ _⟩⟩

/-- A call on the object list that removes nothing. -/
inductive Adds : ObjectList → ObjectList → Prop
  | add {l : ObjectList} (change : Change) : change.added ≠ none → Adds l (change.perform l).state
  | getNextObjectId {l : ObjectList} : Adds l (ObjectList.getNextObjectId l).state

/-- Nothing is lost. -/
theorem Sound.adds (h : Sound l) (hadds : Adds l l') :
    Sound l' ∧ Later l l' ∧ ∀ obj, l.currentCopy.owns obj = true → l'.currentCopy.owns obj = true := by
  cases hadds with
  | getNextObjectId => exact ⟨⟨h.current, h.made⟩, ⟨rfl, Nat.le_refl _, fun _ _ _ => rfl⟩, fun _ h => h⟩
  | add change hadded =>
    obtain ⟨hsound, hlater, hcopy⟩ := h.perform change
    refine ⟨hsound, hlater, fun obj hobj => ?_⟩
    rcases hcopy with hcopy | ⟨hfree, hcopy⟩
    · rwa [hcopy]
    obtain ⟨id, hid⟩ := ObjectContainer.owns_iff.1 hobj
    refine ObjectContainer.owns_iff.2 ⟨id, ?_⟩
    rw [hcopy, applied_active, if_neg, hid]
    rintro rfl
    -- what is added gets an id that is free
    exact hadded (hfree.2 (TreeMap.mem_iff_isSome_getElem?.2 (by rw [hid]; rfl)))

theorem Sound.addsAll (h : Sound l) (hadds : Relation.ReflTransGen Adds l l') :
    Sound l' ∧ Later l l' ∧ ∀ obj, l.currentCopy.owns obj = true → l'.currentCopy.owns obj = true := by
  induction hadds with
  | refl => exact ⟨h, .refl l, fun _ h => h⟩
  | tail _ hadd ih =>
    obtain ⟨hsound, hlater, howns⟩ := ih
    obtain ⟨hsound', hlater', howns'⟩ := hsound.adds hadd
    exact ⟨hsound', hlater.trans hlater', fun obj hobj => howns' obj (howns obj hobj)⟩

theorem Sound.removeFromSimulation (h : Sound l) (id : ObjectId) :
    Sound (ObjectList.removeFromSimulation true id l).state ∧
      Later l (ObjectList.removeFromSimulation true id l).state := by
  obtain ⟨hsound, hlater, -⟩ := h.perform (.removeFromSimulation id)
  exact ⟨hsound, hlater⟩

/-- After a removal `id` is free, and the rest is as before. -/
theorem Sound.removed_active (h : Sound l) (id i : ObjectId) :
    (ObjectList.removeFromSimulation true id l).state.currentCopy.mActiveObjects[i]? =
      if id = i then none else l.currentCopy.mActiveObjects[i]? := by
  have hcases := perform_cases (.removeFromSimulation id) l
  rw [h.current]
  by_cases hid : id ∈ l.workingCopy.mActiveObjects
  · obtain ⟨l', hok⟩ := removeFromSimulation_ok hid
    rcases hcases with ⟨e, he⟩ | ⟨-, hcopy⟩
    · cases hok.symm.trans he
    · exact (congrArg (·.state.currentCopy.mActiveObjects[i]?) hcopy).trans
        ((congrArg (·.mActiveObjects[i]?) (republish_currentCopy _ _)).trans (applied_active _ _ _))
  · rcases hcases with ⟨e, he⟩ | ⟨hmem, -⟩
    · apply (congrArg (·.state.currentCopy.mActiveObjects[i]?) he).trans
      split_ifs with hi
      · subst hi
        exact (congrArg (·.mActiveObjects[id]?) h.current).trans (TreeMap.getElem?_eq_none hid)
      · exact congrArg (·.mActiveObjects[i]?) h.current
    · exact absurd (hmem.1 rfl) hid

/-- Of what the current copy owns only that is lost which it owns under no other id. -/
theorem Sound.removed_owns (h : Sound l) (id : ObjectId) (obj : ObjectPtr) :
    (ObjectList.removeFromSimulation true id l).state.currentCopy.owns obj = true ↔
      l.currentCopy.owns obj = true ∧ ¬ l.currentCopy.OwnsOnlyAs id obj := by
  simp only [ObjectContainer.owns_iff, h.removed_active, ObjectContainer.OwnsOnlyAs]
  constructor
  · rintro ⟨i, hi⟩
    split_ifs at hi with hne
    exact ⟨⟨i, hi⟩, fun honly => hne (honly.2 i hi).symm⟩
  · rintro ⟨⟨i, hi⟩, hnot⟩
    by_contra hnone
    have hid : ∀ j : ObjectId, l.currentCopy.mActiveObjects[j]? = some obj → j = id := by
      intro j hj
      by_contra hne
      exact hnone ⟨j, by rw [if_neg (Ne.symm hne)]; exact hj⟩
    exact hnot ⟨hid i hi ▸ hi, hid⟩

end ObjectList

/-- The objects that the list owns have been made. -/
def Core.Made (s : Core ω) : Prop :=
  ∀ o, s.mObjectList.workingCopy.owns o = true ∨ s.mObjectList.currentCopy.owns o = true →
    o < s.objects.next

/-- Objects are made and added, and nothing is removed. -/
structure Core.Grows (s s' : Core ω) : Prop where
  mObjectList : Relation.ReflTransGen ObjectList.Adds s.mObjectList s'.mObjectList
  mCurrentActionTime : s'.mCurrentActionTime = s.mCurrentActionTime
  next : s.objects.next ≤ s'.objects.next
  mObjectName : ∀ o < s.objects.next, (s'.objects.cell o).mObjectName = (s.objects.cell o).mObjectName
  made : s.Made → s'.Made

namespace Core.Grows

variable {s s' s'' : Core ω}

theorem refl (s : Core ω) : s.Grows s := ⟨.refl, rfl, Nat.le_refl _, fun _ _ => rfl, id⟩

theorem trans (h : s.Grows s') (h' : s'.Grows s'') : s.Grows s'' where
  mObjectList := h.mObjectList.trans h'.mObjectList
  mCurrentActionTime := h'.mCurrentActionTime.trans h.mCurrentActionTime
  next := h.next.trans h'.next
  mObjectName o ho := (h'.mObjectName o (ho.trans_le h.next)).trans (h.mObjectName o ho)
  made hmade := h'.made (h.made hmade)

/-- Neither the objects nor their list change. -/
theorem of_objects (hlist : s'.mObjectList = s.mObjectList) (hobjects : s'.objects = s.objects)
    (htime : s'.mCurrentActionTime = s.mCurrentActionTime) : s.Grows s' where
  mObjectList := hlist ▸ .refl
  mCurrentActionTime := htime
  next := by rw [hobjects]
  mObjectName o _ := by rw [hobjects]
  made h := by
    simp only [Made]
    rw [hlist, hobjects]
    exact h

theorem onAction {α : Type} (p : ActionPtr) (x : EStateM Failure Action α) (s : Core ω) :
    s.Grows (onAction p x s).state :=
  Post.state (post_onAction (fun _ => post_of_state (of_objects rfl rfl rfl)) (refl s))

theorem onObject {α : Type} (p : ObjectPtr) {x : EStateM Failure BaseObject α}
    (hx : ∀ o, (x o).state.mObjectName = o.mObjectName) (s : Core ω) :
    s.Grows (onObject p x s).state := by
  refine Post.state (post_onObject (fun _ => post_of_state ?_) (refl s))
  refine ⟨.refl, rfl, Nat.le_refl _, fun o _ => ?_, id⟩
  simp only [writeObject_objects, Heap.write_cell]
  split_ifs with ho
  · rw [hx, ho]
  · rfl

/-- An object that has been made is added. -/
theorem addWith {p : ObjectPtr} (msg : String) (change : BaseObject → ObjectList.Change)
    (hchange : ∀ o, (change o).added = some p) (s : Core ω) :
    s.Grows ((do
      let o ← getObject p
      enforce o.isInitialized msg
      onObjectList (change o).perform : CoreM ω Unit) s).state := by
  by_cases hp : p < s.objects.next
  swap
  · rw [bind_apply, getObject_of_not_lt hp]
    exact refl s
  rw [bind_apply, getObject_of_lt hp]
  set o := s.objects.cell p
  dsimp only
  cases hinit : o.isInitialized with
  | false => exact refl s
  | true =>
    have hstate : ((do enforce true msg; onObjectList (change o).perform : CoreM ω Unit) s).state =
        s.writeObjectList ((change o).perform s.mObjectList).state := zoom_state ..
    rw [hstate]
    refine ⟨.single (.add _ (by rw [hchange]; exact Option.some_ne_none _)), rfl, Nat.le_refl _,
      fun _ _ => rfl, fun hmade o' ho' => ?_⟩
    rcases ObjectList.perform_cases (change o) s.mObjectList with ⟨e, he⟩ | ⟨-, hok⟩
    · rw [he] at ho'
      exact hmade o' ho'
    · rw [hok] at ho'
      have howns : ((change o).applied s.mObjectList.workingCopy).owns o' = true := by
        simpa only [writeObjectList, ObjectList.republish_workingCopy, ObjectList.republish_currentCopy,
          Result.state_ok, or_self] using ho'
      obtain ⟨id, hid⟩ := ObjectContainer.owns_iff.1 howns
      rw [ObjectList.applied_active, hchange] at hid
      split_ifs at hid with heq
      · exact Option.some.inj hid ▸ hp
      · exact hmade o' (.inl (ObjectContainer.owns_iff.2 ⟨id, hid⟩))

theorem makeObject (name : String) (externalId : Option String) (s : Core ω) :
    s.Grows (makeObject name externalId s).state := by
  refine ⟨.refl, rfl, Nat.le_succ _, fun o ho => ?_, fun hmade o ho => ?_⟩
  · exact congrArg (·.mObjectName) (Heap.alloc_cell_of_lt ho)
  · exact Nat.lt_succ_of_lt (hmade o ho)

theorem getNextObjectId (s : Core ω) : s.Grows (Core.getNextObjectId s).state :=
  ⟨.single .getNextObjectId, rfl, Nat.le_refl _, fun _ _ => rfl, id⟩

theorem addUniqueObject (p : ObjectPtr) (s : Core ω) : s.Grows (Core.addUniqueObject p s).state :=
  .addWith _ (fun o => .addUnique p o) (fun _ => rfl) s

end Core.Grows

/-- The code of objects makes and adds objects, unless it removes one. -/
theorem ObjectPrim.grows {α : Type} {x : CoreM ω α} (h : ObjectPrim x) (s : Core ω) :
    s.Grows (x s).state ∨ ∃ id, (x s).state = (Core.removeObjectFromSimulation id s).state := by
  have htime := (Scheduler.objectProgram (.prim h)).mCurrentActionTime s
  cases h with
  | getAction p | setType p type | setActionData p data => exact .inl (.onAction _ _ s)
  | getObject p | setObjectId p id | addParent p id | addChild p id =>
    exact .inl (.onObject _ (fun _ => rfl) s)
  | create kind duration start id generator =>
    left
    rcases ActionFactory.create_state kind duration start id generator s with h | ⟨a, -, -, h⟩
    · rw [h]
      exact .refl s
    · rw [h]
      exact .of_objects rfl rfl rfl
  | scheduleStartHandler p =>
    obtain ⟨-, hlist, -, -, hobjects⟩ := Schedules.scheduleStartHandler p s
    exact .inl (.of_objects hlist hobjects htime)
  | makeObject name externalId => exact .inl (.makeObject name externalId s)
  | setExternalId p id =>
    refine .inl (.onObject _ (fun o => ?_) s)
    cases h : o.isInitialized <;>
      simp only [BaseObject.setExternalId, bind_apply, get_apply, h, enforce, Bool.not_true,
        Bool.not_false, Bool.false_eq_true, if_true, if_false] <;> rfl
  | getNextObjectId => exact .inl (.getNextObjectId s)
  | addObject p =>
    exact .inl (.addWith _ (fun o => .addToObjectContainer o.mObjectId p o) (fun _ => rfl) s)
  | addUniqueObject p => exact .inl (.addUniqueObject p s)
  | removeObjectFromSimulation id => exact .inr ⟨id, rfl⟩
  | world f => exact .inl (.of_objects rfl rfl rfl)

namespace Traffic.Flight

/-- What can happen next. -/
inductive Move (π : Type) where
  /-- The simulated time advances. -/
  | advance (t : TimePoint)
  /-- The handler of an action that affects `id` is invoked. -/
  | invoke (id : ObjectId)
  /-- The handler returns. -/
  | handled
  /-- The core thread does something that removes no objects. -/
  | code
  /-- `startExecution` launches a task. -/
  | launch (task : Task)
  /-- The task `i` finishes, and may return a transmission. -/
  | finish (i : Nat) (transmission : Option (Transmission π))
  /-- `MobilityManager::endExecution` removes an object. -/
  | removeObjectFromSimulation (id : ObjectId)
  /-- `Router::endExecution` sets up the transmission `i`. -/
  | setupReceiverContext (i : Nat)

/-- The task may build the transmission: it finds the receivers in the object list it has been given. -/
structure Builds (containers : Heap ObjectContainer) (task : PackagedTask) (t : Transmission π) :
    Prop where
  isSetup : t.isSetup = false
  receivers : ∀ e ∈ t.mPossibleReceivers.toList, ∃ vehicle, e.2.mobility = some vehicle ∧
    task.owns containers vehicle = true

/-- The state after the task `i`, which is `task`, has finished. -/
def finished (S : Flight π) (i : Nat) (task : PackagedTask) (transmission : Option (Transmission π)) :
    Flight π :=
  { S with fibers := S.fibers.eraseIdx i
           outgoing := S.outgoing ++ (transmission.map fun t => ⟨task.this, task.start, t⟩).toList }

/-- The core thread and the workers. Handlers are invoked one after the other, and tasks finish at any
time. -/
inductive Step : Flight π → Move π → Flight π → Prop
  | advance {S : Flight π} {t : TimePoint} : S.handling = none → S.core.mCurrentActionTime ≤ t →
    Step S (.advance t) { S with core := { S.core with mCurrentActionTime := t } }
  | invoke {S : Flight π} {id : ObjectId} {obj : ObjectPtr} : S.handling = none →
    S.core.mObjectList.getObjectByIdFromCurrentContainer id = .ok (some obj) →
    Step S (.invoke id) { S with handling := some obj }
  | handled {S : Flight π} : Step S .handled { S with handling := none }
  | code {S : Flight π} {core : Core (Traffic π)} : S.core.Grows core →
    Step S .code { S with core }
  | launch {S : Flight π} {this : ObjectPtr} {task : Task} : S.handling = some this →
    (S.core.objects.cell this).mObjectName = task.runner →
    Step S (.launch task) { S with fibers := S.fibers ++ [S.package this task] }
  | finish {S : Flight π} {i : Nat} {task : PackagedTask} {transmission : Option (Transmission π)} :
    S.fibers[i]? = some task →
    (∀ t ∈ transmission, Builds S.core.mObjectList.containers task t) →
    Step S (.finish i transmission) (S.finished i task transmission)
  | removeObjectFromSimulation {S : Flight π} {this : ObjectPtr} {id : ObjectId} :
    S.handling = some this → (S.core.objects.cell this).mObjectName = "MobilityManager" →
    Step S (.removeObjectFromSimulation id)
      { S with core := (Core.removeObjectFromSimulation id S.core).state }
  | setupReceiverContext {S : Flight π} {i : Nat} {out : Outgoing π} : S.outgoing[i]? = some out →
    S.handling = some out.router →
    Step S (.setupReceiverContext i) { S with outgoing := S.outgoing.eraseIdx i }

/-! ## What always holds -/

section
variable {S S' : Flight π} {m : Move π} {obj : ObjectPtr}

structure Inv (S : Flight π) : Prop where
  sound : S.core.mObjectList.Sound
  made : S.core.Made
  /-- Only the mobility manager may remove itself. -/
  handling : ∀ this, S.handling = some this → this < S.core.objects.next ∧
    ((S.core.objects.cell this).mObjectName = "MobilityManager" ∨
      S.core.mObjectList.currentCopy.owns this = true)
  objectList : ∀ task ∈ S.fibers, ∀ c, task.objectList = some c →
    c < S.core.mObjectList.containers.next ∧ c ≠ S.core.mObjectList.mWorkingCopy ∧
      (task.task ≠ .doVehicleUpdate →
        (S.core.mObjectList.containers.cell c).owns task.this = true)
  takes : ∀ task ∈ S.fibers, task.objectList.isSome = task.task.takesObjectList
  outgoing : ∀ out ∈ S.outgoing, out.transmission.isSetup = false ∧
    ∀ e ∈ out.transmission.mPossibleReceivers.toList, ∃ vehicle, (Prod.snd e).mobility = some vehicle

theorem inv_new (world : Traffic π) : (new world).Inv where
  sound := ObjectList.sound_new
  made obj h := by
    rcases h with h | h
    all_goals
      obtain ⟨id, hid⟩ := ObjectContainer.owns_iff.1 h
      exact absurd hid (by simp [new, Core.new, ObjectList.new, ObjectList.workingCopy,
        ObjectList.currentCopy, Heap.empty, Heap.alloc])
  handling this h := by cases h
  objectList task h := by cases h
  takes task h := by cases h
  outgoing out h := by cases h

theorem Inv.alive_iff (hi : S.Inv) : S.alive obj = true ↔
    S.core.mObjectList.currentCopy.owns obj = true ∨
      held S.core.mObjectList.containers S.fibers obj = true := by
  simp only [alive]
  rw [← hi.sound.current, Bool.or_self, Bool.or_eq_true]

/-- What unfinished tasks own does not change. -/
theorem Inv.owns_later (hi : S.Inv) {l : ObjectList} (h : S.core.mObjectList.Later l)
    {task : PackagedTask} (htask : task ∈ S.fibers) :
    task.owns l.containers obj = task.owns S.core.mObjectList.containers obj := by
  simp only [PackagedTask.owns]
  cases hlist : task.objectList with
  | none => rfl
  | some c =>
    obtain ⟨hmade, hne, -⟩ := hi.objectList task htask c hlist
    exact congrArg (ObjectContainer.owns · obj) (h.cell c hmade hne)

theorem held_iff {containers : Heap ObjectContainer} {fibers : List PackagedTask} :
    held containers fibers obj = true ↔ ∃ task ∈ fibers, task.owns containers obj = true :=
  List.any_eq_true

theorem Inv.held_later (hi : S.Inv) {l : ObjectList} (h : S.core.mObjectList.Later l) :
    held l.containers S.fibers obj = held S.core.mObjectList.containers S.fibers obj :=
  Bool.eq_iff_iff.2 <| held_iff.trans <| (exists_congr fun _ => and_congr_right fun htask => by
    rw [hi.owns_later h htask]).trans held_iff.symm

/-- The object lists change, and nothing else that matters. -/
theorem Inv.core (hi : S.Inv) {core : Core (Traffic π)} (hsound : core.mObjectList.Sound)
    (hlater : S.core.mObjectList.Later core.mObjectList)
    (hmade : core.Made)
    (hhandling : ∀ this, S.handling = some this → this < core.objects.next ∧
      ((core.objects.cell this).mObjectName = "MobilityManager" ∨
        core.mObjectList.currentCopy.owns this = true)) : ({ S with core } : Flight π).Inv where
  sound := hsound
  made := hmade
  handling := hhandling
  objectList task htask c hc := by
    obtain ⟨hlt, hne, howns⟩ := hi.objectList task htask c hc
    refine ⟨hlt.trans_le hlater.next, hlater.mWorkingCopy ▸ hne, fun h => ?_⟩
    rw [hlater.cell c hlt hne]
    exact howns h
  takes := hi.takes
  outgoing := hi.outgoing

/-- An object that launches a task is in the current container, unless it is the mobility manager. -/
theorem Inv.owns_launching (hi : S.Inv) {this : ObjectPtr} {task : Task} (hthis : S.handling = some this)
    (hname : (S.core.objects.cell this).mObjectName = task.runner) (htask : task ≠ .doVehicleUpdate) :
    S.core.mObjectList.currentCopy.owns this = true := by
  apply (hi.handling this hthis).2.resolve_left
  intro hmanager
  rw [hname] at hmanager
  cases task with
  | doVehicleUpdate => exact htask rfl
  | executeSumoUpdate | router _ => simp [Task.runner] at hmanager

theorem Inv.package (hi : S.Inv) {this : ObjectPtr} {task : Task} (hthis : S.handling = some this)
    (hname : (S.core.objects.cell this).mObjectName = task.runner) {c : ContainerPtr}
    (hc : (S.package this task).objectList = some c) :
    c < S.core.mObjectList.containers.next ∧ c ≠ S.core.mObjectList.mWorkingCopy ∧
      (task ≠ .doVehicleUpdate → (S.core.mObjectList.containers.cell c).owns this = true) := by
  unfold Flight.package at hc
  dsimp only at hc
  split_ifs at hc
  obtain rfl : S.core.mObjectList.mCurrentCopy = c := Option.some.inj hc
  exact ⟨hi.sound.made.2, hi.sound.made.1.ne', hi.owns_launching hthis hname⟩

theorem removed_apply (id : ObjectId) (core : Core ω) :
    (Core.removeObjectFromSimulation id core).state =
      { core with mObjectList := (ObjectList.removeFromSimulation true id core.mObjectList).state } := by
  unfold Core.removeObjectFromSimulation onObjectList zoom
  cases ObjectList.removeFromSimulation true id core.mObjectList <;> rfl

theorem Inv.step (hi : S.Inv) (h : Step S m S') : S'.Inv := by
  cases h with
  | advance _ _ => exact ⟨hi.sound, hi.made, hi.handling, hi.objectList, hi.takes, hi.outgoing⟩
  | @invoke id this hnone hget =>
    refine ⟨hi.sound, hi.made, fun this' hthis => ?_, hi.objectList, hi.takes, hi.outgoing⟩
    obtain rfl := Option.some.inj hthis
    have howns : S.core.mObjectList.currentCopy.owns this = true := by
      unfold ObjectList.getObjectByIdFromCurrentContainer ObjectContainer.getObject at hget
      split_ifs at hget
      exact ObjectContainer.owns_iff.2 ⟨id, Except.ok.inj hget⟩
    exact ⟨hi.made this (.inr howns), .inr howns⟩
  | handled => exact ⟨hi.sound, hi.made, nofun, hi.objectList, hi.takes, hi.outgoing⟩
  | code hgrows =>
    obtain ⟨hsound, hlater, howns⟩ := hi.sound.addsAll hgrows.mObjectList
    apply hi.core hsound hlater (hgrows.made hi.made)
    intro this hthis
    obtain ⟨hmade, hname⟩ := hi.handling this hthis
    rw [hgrows.mObjectName this hmade]
    exact ⟨hmade.trans_le hgrows.next, hname.imp_right (howns this)⟩
  | @launch this task hthis hname =>
    refine ⟨hi.sound, hi.made, hi.handling, List.forall_mem_append.2 ⟨hi.objectList,
      List.forall_mem_singleton.2 fun c hc => hi.package hthis hname hc⟩,
      List.forall_mem_append.2 ⟨hi.takes, List.forall_mem_singleton.2 ?_⟩, hi.outgoing⟩
    unfold Flight.package
    dsimp only
    split_ifs with htakes
    · exact htakes.symm
    · exact (Bool.eq_false_iff.2 htakes).symm
  | @finish i task transmission hi' hbuilds =>
    refine ⟨hi.sound, hi.made, hi.handling,
      fun task' htask' => hi.objectList task' (List.mem_of_mem_eraseIdx htask'),
      fun task' htask' => hi.takes task' (List.mem_of_mem_eraseIdx htask'), fun out hout => ?_⟩
    rcases List.mem_append.1 hout with hout | hout
    · exact hi.outgoing out hout
    obtain ⟨t, ht, rfl⟩ := Option.map_eq_some_iff.1 (Option.mem_toList.1 hout)
    have hb := hbuilds t ht
    exact ⟨hb.isSetup, fun e he => (hb.receivers e he).imp fun _ h => h.1⟩
  | @removeObjectFromSimulation this id hthis hname =>
    rw [removed_apply]
    obtain ⟨hsound, hlater⟩ := hi.sound.removeFromSimulation id
    refine hi.core hsound hlater (fun obj hobj => ?_) fun this' hthis' => ?_
    · dsimp only at hobj
      rw [← hsound.current, or_self] at hobj
      exact hi.made obj (.inr ((hi.sound.removed_owns id obj).1 hobj).1)
    · obtain rfl := Option.some.inj (hthis.symm.trans hthis')
      exact ⟨(hi.handling this hthis).1, .inl hname⟩
  | setupReceiverContext _ _ =>
    exact ⟨hi.sound, hi.made, hi.handling, hi.objectList, hi.takes,
      fun out hout => hi.outgoing out (List.mem_of_mem_eraseIdx hout)⟩

theorem inv_of_trail {world : Traffic π} {t : List (Flight π × Move π)}
    (h : Trail Step (new world) t S) : (∀ e ∈ t, e.1.Inv) ∧ S.Inv :=
  h.invariant (inv_new world) fun hi hs => hi.step hs

/-! ## Who is alive -/

theorem Inv.alive_core (hi : S.Inv) {core : Core (Traffic π)} (hsound : core.mObjectList.Sound)
    (hlater : S.core.mObjectList.Later core.mObjectList) :
    ({ S with core } : Flight π).alive obj = true ↔ core.mObjectList.currentCopy.owns obj = true ∨
      held S.core.mObjectList.containers S.fibers obj = true := by
  simp only [alive]
  rw [← hsound.current, Bool.or_self, Bool.or_eq_true, hi.held_later hlater]

theorem Inv.alive_code (hi : S.Inv) {core : Core (Traffic π)} (h : S.core.Grows core)
    (hobj : S.alive obj = true) : ({ S with core } : Flight π).alive obj = true := by
  obtain ⟨hsound, hlater, howns⟩ := hi.sound.addsAll h.mObjectList
  exact (hi.alive_core hsound hlater).2 ((hi.alive_iff.1 hobj).imp_left (howns obj))

theorem alive_launch {task : PackagedTask} (hobj : S.alive obj = true) :
    ({ S with fibers := S.fibers ++ [task] } : Flight π).alive obj = true := by
  unfold alive held at hobj ⊢
  rw [List.any_append, ← Bool.or_assoc, hobj, Bool.true_or]

theorem Inv.alive_removed (hi : S.Inv) (id : ObjectId) :
    ({ S with core := (Core.removeObjectFromSimulation id S.core).state } : Flight π).alive obj = true ↔
      S.alive obj = true ∧ (S.core.mObjectList.currentCopy.OwnsOnlyAs id obj →
        held S.core.mObjectList.containers S.fibers obj = true) := by
  obtain ⟨hsound, hlater⟩ := hi.sound.removeFromSimulation id
  rw [removed_apply]
  apply (hi.alive_core hsound hlater).trans
  rw [hi.sound.removed_owns, hi.alive_iff]
  tauto

theorem Inv.alive_finished (hi : S.Inv) (i : Nat) (task : PackagedTask)
    (transmission : Option (Transmission π)) : (S.finished i task transmission).alive obj = true ↔
      S.core.mObjectList.currentCopy.owns obj = true ∨
        held S.core.mObjectList.containers (S.fibers.eraseIdx i) obj = true := by
  unfold finished alive
  rw [← hi.sound.current, Bool.or_self, Bool.or_eq_true]

/-- A task that takes the object list keeps its object alive. -/
theorem Inv.held_this (hi : S.Inv) {fibers : List PackagedTask} (hsub : fibers ⊆ S.fibers)
    {task : PackagedTask} (htask : task ∈ fibers) (hne : task.task ≠ .doVehicleUpdate)
    (htakes : task.task.takesObjectList = true) :
    held S.core.mObjectList.containers fibers task.this = true := by
  have hsome := hi.takes task (hsub htask)
  rw [htakes] at hsome
  obtain ⟨c, hc⟩ := Option.isSome_iff_exists.1 hsome
  refine held_iff.2 ⟨task, htask, ?_⟩
  rw [PackagedTask.owns, hc]
  exact (hi.objectList task (hsub htask) c hc).2.2 hne

/-! ## Objects with unfinished tasks -/

/-- Every router and every vehicle object with an unfinished task is alive. -/
def TasksOwned (S : Flight π) : Prop :=
  ∀ task ∈ S.fibers, task.task ≠ .doVehicleUpdate → S.alive task.this = true

/-- Tasks that do not take the object list lose no owner of their object: when the object is removed
another task has an object list with it, and so has one after the current container does not own it and
a task finishes. -/
def SparesTasks (S : Flight π) : Move π → Prop
  | .removeObjectFromSimulation id => ∀ task ∈ S.fibers, task.task.takesObjectList = false →
    S.core.mObjectList.currentCopy.OwnsOnlyAs id task.this →
      held S.core.mObjectList.containers S.fibers task.this = true
  | .finish i _ => ∀ task ∈ S.fibers.eraseIdx i, task.task.takesObjectList = false →
    S.core.mObjectList.currentCopy.owns task.this = false →
      held S.core.mObjectList.containers (S.fibers.eraseIdx i) task.this = true
  | _ => True

theorem Inv.tasksOwned_removed (hi : S.Inv) (howned : S.TasksOwned) (id : ObjectId) :
    ({ S with core := (Core.removeObjectFromSimulation id S.core).state } : Flight π).TasksOwned ↔
      S.SparesTasks (.removeObjectFromSimulation id) := by
  constructor
  · intro h task htask htakes honly
    have hne : task.task ≠ .doVehicleUpdate := by
      intro hupdate
      simp [hupdate, Task.takesObjectList] at htakes
    exact ((hi.alive_removed id).1 (h task htask hne)).2 honly
  · intro h task htask hne
    refine (hi.alive_removed id).2 ⟨howned task htask hne, fun honly => ?_⟩
    cases htakes : task.task.takesObjectList with
    | false => exact h task htask htakes honly
    | true => exact hi.held_this (List.Subset.refl _) htask hne htakes

theorem Inv.tasksOwned_finished (hi : S.Inv) (i : Nat) (task : PackagedTask)
    (transmission : Option (Transmission π)) :
    (S.finished i task transmission).TasksOwned ↔ S.SparesTasks (.finish i transmission) := by
  constructor
  · intro h task' htask' htakes hnot
    have hne : task'.task ≠ .doVehicleUpdate := by
      intro hupdate
      simp [hupdate, Task.takesObjectList] at htakes
    apply ((hi.alive_finished i task transmission).1 (h task' htask' hne)).resolve_left
    rw [hnot]
    exact Bool.false_ne_true
  · intro h task' htask' hne
    apply (hi.alive_finished i task transmission).2
    cases hcurrent : S.core.mObjectList.currentCopy.owns task'.this with
    | true => exact .inl rfl
    | false =>
      cases htakes : task'.task.takesObjectList with
      | false => exact .inr (h task' htask' htakes hcurrent)
      | true => exact .inr (hi.held_this List.eraseIdx_subset htask' hne htakes)

theorem Inv.tasksOwned_step (hi : S.Inv) (howned : S.TasksOwned) (h : Step S m S') :
    S'.TasksOwned ↔ S.SparesTasks m := by
  cases h with
  | advance _ _ | invoke _ _ | handled | setupReceiverContext _ _ => exact iff_of_true howned trivial
  | code hgrows =>
    exact iff_of_true (fun task htask hne => hi.alive_code hgrows (howned task htask hne)) trivial
  | @launch this task hthis hname =>
    refine iff_of_true (List.forall_mem_append.2 ⟨fun task' htask' hne =>
      alive_launch (howned task' htask' hne), List.forall_mem_singleton.2 fun hne => ?_⟩) trivial
    exact alive_launch (hi.alive_iff.2 (.inl (hi.owns_launching hthis hname hne)))
  | finish _ _ => exact hi.tasksOwned_finished ..
  | removeObjectFromSimulation _ _ => exact hi.tasksOwned_removed howned _

end

end Traffic.Flight

/-- In a run every router and every vehicle object with an unfinished task is alive in all states
exactly if all removals and all ends of tasks spare those with a task that does not take the object
list. -/
theorem tasksOwned_iff (world : Traffic π) {t : List (Traffic.Flight π × Traffic.Flight.Move π)}
    {S : Traffic.Flight π} (h : Trail Traffic.Flight.Step (.new world) t S) :
    ((∀ e ∈ t, e.1.TasksOwned) ∧ S.TasksOwned) ↔ ∀ e ∈ t, e.1.SparesTasks e.2 :=
  Trail.forall_iff (Traffic.Flight.inv_new world) (fun _ h => by cases h)
    (fun hi hs => hi.step hs) (fun hi ho hs => hi.tasksOwned_step ho hs) h

/-! ## A router that is removed -/

namespace Traffic.Flight

/-- The mobility manager, a router and a vehicle object. -/
def threeStarters : CoreM (Traffic Unit) Unit := do
  Rounds.addStarter "MobilityManager"
  Rounds.addStarter "Router"
  Rounds.addStarter "VehicleObject"

theorem grows_threeStarters (s : Core (Traffic Unit)) : s.Grows (threeStarters s).state := by
  refine Composed.related (P := fun {_} x => ∀ s : Core (Traffic Unit), s.Grows (x s).state)
    .refl .trans (fun h => h) ?_ s
  have hadd : ∀ name, Composed (fun {_} x => ∀ s : Core (Traffic Unit), s.Grows (x s).state)
      (Rounds.addStarter name) := fun name =>
    .bind (.prim (.makeObject name none)) fun obj => .bind (.prim .getNextObjectId) fun id =>
      .bind (.prim (.onObject obj fun _ => rfl)) fun _ =>
      .bind (.prim (.onObject obj fun _ => rfl)) fun _ => .prim (.addUniqueObject obj)
  exact .bind (hadd _) fun _ => .bind (hadd _) fun _ => hadd _

def startersCore : Core (Traffic Unit) := (threeStarters (.new { data := .empty .other })).state

/-- The core has the three objects. -/
structure Starts (core : Core (Traffic Unit)) : Prop where
  grows : (Core.new { data := .empty .other }).Grows core
  now : core.mCurrentActionTime = 0
  manager : core.mObjectList.getObjectByIdFromCurrentContainer 2 = .ok (some 0)
  router : core.mObjectList.getObjectByIdFromCurrentContainer 3 = .ok (some 1)
  managerName : (core.objects.cell 0).mObjectName = "MobilityManager"
  routerName : (core.objects.cell 1).mObjectName = "Router"
  vehicle : core.mObjectList.currentCopy.owns 2 = true

/-- The router has launched `task`, and the handler of the manager is invoked. -/
def launched (core : Core (Traffic Unit)) (task : RouterTask) : Flight Unit :=
  let S : Flight Unit := { core }
  { S with handling := some 0, fibers := [S.package 1 (.router task)] }

/-- The manager has removed the router. -/
def removed (core : Core (Traffic Unit)) (task : RouterTask) : Flight Unit :=
  { launched core task with core := (Core.removeObjectFromSimulation 3 core).state }

theorem Starts.removed_trail {core : Core (Traffic Unit)} (h : Starts core) (task : RouterTask) :
    ∃ t, Trail Step (.new { data := .empty .other }) t (removed core task) ∧
      ((Task.router task).takesObjectList = true → ∀ e ∈ t, e.1.SparesTasks e.2) := by
  let S : Flight Unit := { core }
  have hcode : Step (.new { data := .empty .other }) .code S := .code h.grows
  have hinvoke : Step S (.invoke 3) { S with handling := some 1 } := .invoke rfl h.router
  have hlaunch : Step { S with handling := some 1 } (.launch (.router task))
      { S with handling := some 1, fibers := [S.package 1 (.router task)] } :=
    .launch rfl h.routerName
  have hmanager : Step { S with fibers := [S.package 1 (.router task)] } (.invoke 2)
      (launched core task) :=
    .invoke rfl h.manager
  have hremove : Step (launched core task) (.removeObjectFromSimulation 3) (removed core task) :=
    .removeObjectFromSimulation rfl h.managerName
  refine ⟨_, .snoc (.snoc (.snoc (.snoc (.snoc (.snoc .nil hcode) hinvoke) hlaunch) .handled)
    hmanager) hremove, fun htakes => ?_⟩
  simp only [List.forall_mem_append, List.forall_mem_singleton]
  refine ⟨⟨⟨⟨⟨⟨nofun, trivial⟩, trivial⟩, trivial⟩, trivial⟩, trivial⟩, ?_⟩
  intro task' htask' hnot
  obtain rfl := List.mem_singleton.1 htask'
  exact absurd (htakes.symm.trans hnot) (by decide)

theorem startersCore_evaluated :
    startersCore.mObjectList.getObjectByIdFromCurrentContainer 2 = .ok (some 0) ∧
      startersCore.mObjectList.getObjectByIdFromCurrentContainer 3 = .ok (some 1) ∧
      (startersCore.objects.cell 0).mObjectName = "MobilityManager" ∧
      (startersCore.objects.cell 1).mObjectName = "Router" ∧
      startersCore.mObjectList.currentCopy.owns 2 = true ∧
      (removed startersCore .initRouter).alive 1 = false := by
  decide +kernel

theorem starts_startersCore : Starts startersCore := by
  obtain ⟨hmanager, hrouter, hmanagerName, hrouterName, hvehicle, -⟩ := startersCore_evaluated
  exact ⟨grows_threeStarters _, rfl, hmanager, hrouter, hmanagerName, hrouterName, hvehicle⟩

end Traffic.Flight

open Traffic.Flight

/-- The object list that `caUpdate` has been given keeps the removed router. -/
theorem tasksOwned_iff_caUpdate :
    ∃ t, Trail Step (.new { data := .empty .other }) t (removed startersCore .caUpdate) ∧
      (∀ e ∈ t, e.1.TasksOwned) ∧ (removed startersCore .caUpdate).TasksOwned := by
  obtain ⟨t, ht, hspares⟩ := starts_startersCore.removed_trail .caUpdate
  exact ⟨t, ht, (tasksOwned_iff _ ht).2 (hspares rfl)⟩

/-- Nothing keeps a removed router with an unfinished `initRouter`. -/
theorem not_tasksOwned_initRouter :
    ¬ ∀ (world : Traffic Unit) t S, Trail Step (.new world) t S → S.TasksOwned := by
  intro h
  obtain ⟨t, ht, -⟩ := starts_startersCore.removed_trail .initRouter
  have halive := h _ t _ ht _ (List.mem_singleton_self _) (by simp [Traffic.Flight.package])
  obtain ⟨-, -, -, -, -, hdead⟩ := startersCore_evaluated
  exact Bool.false_ne_true (hdead.symm.trans halive)

end Cosidia
