import Cosidia.Core.Loop

/-!
# What the functions of the core do

Every function of the core that changes its state is described once, by the state it ends in. The
invariants of the other files are derived from these descriptions.
-/

namespace Cosidia

open EStateM Std

variable {ω : Type}

namespace Core

/-! ## Changes of the state -/

section
variable (s : Core ω) (p : Nat) (a : Action) (o : BaseObject) (l : ObjectList) (h : Scheduling)

@[simp] theorem writeAction_mActions : (s.writeAction p a).mActions = s.mActions := rfl
@[simp] theorem writeAction_mCurrentActionTime :
    (s.writeAction p a).mCurrentActionTime = s.mCurrentActionTime := rfl
@[simp] theorem writeAction_mObjectList : (s.writeAction p a).mObjectList = s.mObjectList := rfl
@[simp] theorem writeAction_mCurrentActionId :
    (s.writeAction p a).mCurrentActionId = s.mCurrentActionId := rfl
@[simp] theorem writeAction_actions : (s.writeAction p a).actions = s.actions.write p a := rfl
@[simp] theorem writeAction_objects : (s.writeAction p a).objects = s.objects := rfl
@[simp] theorem writeAction_world : (s.writeAction p a).world = s.world := rfl
@[simp] theorem writeAction_history : (s.writeAction p a).history = s.history := rfl

@[simp] theorem writeObject_mActions : (s.writeObject p o).mActions = s.mActions := rfl
@[simp] theorem writeObject_mCurrentActionTime :
    (s.writeObject p o).mCurrentActionTime = s.mCurrentActionTime := rfl
@[simp] theorem writeObject_mObjectList : (s.writeObject p o).mObjectList = s.mObjectList := rfl
@[simp] theorem writeObject_mCurrentActionId :
    (s.writeObject p o).mCurrentActionId = s.mCurrentActionId := rfl
@[simp] theorem writeObject_actions : (s.writeObject p o).actions = s.actions := rfl
@[simp] theorem writeObject_objects : (s.writeObject p o).objects = s.objects.write p o := rfl
@[simp] theorem writeObject_world : (s.writeObject p o).world = s.world := rfl
@[simp] theorem writeObject_history : (s.writeObject p o).history = s.history := rfl

end

end Core

/-! ## Methods of actions and objects -/

section
variable {α : Type} {s : Core ω} {Q : α → Core ω → Prop} {E : Failure → Core ω → Prop}

theorem post_onAction {p : ActionPtr} {x : EStateM Failure Action α}
    (h : p < s.actions.next → Post x (s.actions.cell p)
      (fun r a => Q r (s.writeAction p a)) fun e a => E e (s.writeAction p a))
    (hnull : E .nullDereference s) : Post (onAction p x) s Q E := by
  unfold onAction
  by_cases hp : p < s.actions.next
  · simp only [Post, if_pos hp]
    exact post_zoom (h hp)
  · simpa only [Post, if_neg hp] using hnull

theorem post_onObject {p : ObjectPtr} {x : EStateM Failure BaseObject α}
    (h : p < s.objects.next → Post x (s.objects.cell p)
      (fun r o => Q r (s.writeObject p o)) fun e o => E e (s.writeObject p o))
    (hnull : E .nullDereference s) : Post (onObject p x) s Q E := by
  unfold onObject
  by_cases hp : p < s.objects.next
  · simp only [Post, if_pos hp]
    exact post_zoom (h hp)
  · simpa only [Post, if_neg hp] using hnull

end

theorem onAction_of_ok {p : ActionPtr} {s : Core ω} (hp : p < s.actions.next)
    {x : EStateM Failure Action α} {r : α} {a : Action} (hx : x (s.actions.cell p) = .ok r a) :
    onAction p x s = .ok r (s.writeAction p a) := by
  simp only [onAction]
  rw [if_pos hp, zoom_eq_ok]
  exact ⟨_, hx, rfl⟩

theorem getAction_of_lt {p : ActionPtr} {s : Core ω} (hp : p < s.actions.next) :
    getAction p s = .ok (s.actions.cell p) s := by
  unfold getAction onAction
  rw [if_pos hp, zoom_eq_ok]
  exact ⟨_, get_apply _, by rw [Core.writeAction, Heap.write_cell_eq]⟩

theorem getAction_of_not_lt {p : ActionPtr} {s : Core ω} (hp : ¬ p < s.actions.next) :
    getAction p s = .error .nullDereference s := by
  unfold getAction onAction
  rw [if_neg hp]

theorem getObject_of_lt {p : ObjectPtr} {s : Core ω} (hp : p < s.objects.next) :
    getObject p s = .ok (s.objects.cell p) s := by
  unfold getObject onObject
  rw [if_pos hp, zoom_eq_ok]
  exact ⟨_, get_apply _, by rw [Core.writeObject, Heap.write_cell_eq]⟩

theorem getObject_of_not_lt {p : ObjectPtr} {s : Core ω} (hp : ¬ p < s.objects.next) :
    getObject p s = .error .nullDereference s := by
  unfold getObject onObject
  rw [if_neg hp]

/-! ## Making actions, adding objects -/

theorem ActionFactory.create_apply {kind : ActionKind} {duration : Duration} {start : TimePoint}
    {id generator : ObjectId} (hid : id.valid = true) (h0 : 0 ≤ start) (s : Core ω) :
    ActionFactory.create kind duration start id generator s =
      .ok s.actions.next { s with
        actions := s.actions.alloc
          { kind, mDuration := duration, mStartTime := start, mAffectedObject := id,
            mGeneratingObject := generator } } := by
  simp only [ActionFactory.create]
  rw [hid, enforce_true, show decide (start ≥ 0) = true from decide_eq_true h0, enforce_true]
  rfl

/-- A new action waits without an id. -/
theorem ActionFactory.create_state (kind : ActionKind) (duration : Duration) (start : TimePoint)
    (id generator : ObjectId) (s : Core ω) :
    (ActionFactory.create kind duration start id generator s).state = s ∨
      ∃ a : Action, a.mActionId = 0 ∧ a.mStateMachine = .waiting ∧
        (ActionFactory.create kind duration start id generator s).state =
          { s with actions := s.actions.alloc a } := by
  by_cases hid : id.valid = true
  swap
  · simp only [ActionFactory.create]
    rw [Bool.eq_false_of_not_eq_true hid]
    exact .inl rfl
  by_cases h0 : 0 ≤ start
  swap
  · simp only [ActionFactory.create]
    rw [hid, enforce_true, decide_eq_false h0]
    exact .inl rfl
  exact .inr ⟨_, rfl, rfl, congrArg Result.state (ActionFactory.create_apply hid h0 s)⟩

/-- Adding an initialized object changes the object list alone. -/
theorem Core.addInitialized_state (p : ObjectPtr) (msg : String)
    (f : BaseObject → EStateM Failure ObjectList Unit) (s : Core ω) :
    ∃ l, ((do let o ← getObject p
              enforce o.isInitialized msg
              onObjectList (f o) : CoreM ω Unit) s).state = s.writeObjectList l := by
  by_cases hp : p < s.objects.next
  · rw [bind_apply, getObject_of_lt hp]
    dsimp only
    cases (s.objects.cell p).isInitialized with
    | false => exact ⟨s.mObjectList, rfl⟩
    | true => exact ⟨_, zoom_state ..⟩
  · rw [bind_apply, getObject_of_not_lt hp]
    exact ⟨s.mObjectList, rfl⟩

/-! ## Scheduling -/

namespace Core

/-- The next action id has been given out. -/
def takeId (s : Core ω) : Core ω := s.countId.noteGiven (s.mCurrentActionId + 1)

/-- Give out an id and set it on the action of `handler`. -/
def giveId (handler : ActionHandler) (s : Core ω) : Core ω :=
  s.takeId.writeAction handler.mCorrespondingAction
    { s.actions.cell handler.mCorrespondingAction with mActionId := s.mCurrentActionId + 1 }

/-- What `handler` reports as its time. -/
def timeOf (s : Core ω) (handler : ActionHandler) : TimePoint :=
  ActionHandler.getTime handler.kind (s.actions.cell handler.mCorrespondingAction)

/-- The scheduling that `scheduleAction` would make of `handler`. -/
def nextScheduling (s : Core ω) (handler : ActionHandler) : Scheduling :=
  s.countId.scheduling handler (s.timeOf handler)

/-- `handler` has been accepted. -/
def accept (handler : ActionHandler) (s : Core ω) : Core ω :=
  let h := s.nextScheduling handler
  noteAccepted h { s.giveId handler with mActions := s.mActions.push h.time h }

theorem insertHandler_apply {handler : ActionHandler} {s : Core ω}
    (hp : handler.mCorrespondingAction < s.actions.next) :
    insertHandler handler s =
      let h := s.scheduling handler (s.timeOf handler)
      if s.mCurrentActionTime ≤ h.time then
        .ok () (noteAccepted h { s with mActions := s.mActions.push h.time h })
      else .error (.runtimeError "ActionList: Wrong order of actions") s := by
  simp only [insertHandler, bind_apply, getAction_of_lt hp, get_apply, zoom]
  by_cases ht : s.mCurrentActionTime ≤ s.timeOf handler
  · have h := (ActionList.insertHandler_eq_ok (h := s.scheduling handler (s.timeOf handler))
      (m := s.mActions) (u := ())).2 ⟨ht, rfl⟩
    rw [timeOf] at h
    rw [h]
    simp [modify_apply, scheduling, ht]
    rfl
  · have h := (ActionList.insertHandler_eq_error (h := s.scheduling handler (s.timeOf handler))
      (m := s.mActions)).2 ⟨lt_of_not_ge ht, rfl, rfl⟩
    rw [timeOf] at h
    rw [h]
    simp [scheduling, ht]

/-- `scheduleAction` gives out an id and sets it, and only then checks the time. -/
theorem scheduleAction_apply (handler : ActionHandler) (s : Core ω) :
    scheduleAction handler s =
      if handler.mCorrespondingAction < s.actions.next then
        if s.mCurrentActionTime ≤ s.timeOf handler then .ok () (s.accept handler)
        else .error (.runtimeError "ActionList: Wrong order of actions") (s.giveId handler)
      else .error .nullDereference s.takeId := by
  simp only [scheduleAction, bind_apply]
  have h1 : getNextActionId s = .ok (s.mCurrentActionId + 1) s.takeId := rfl
  simp only [h1]
  by_cases hp : handler.mCorrespondingAction < s.actions.next
  · have h2 : onAction handler.mCorrespondingAction (Action.setActionId (s.mCurrentActionId + 1))
        s.takeId = .ok () (s.giveId handler) := by
      simp only [onAction]
      rw [if_pos (by exact hp), zoom_eq_ok]
      exact ⟨_, modify_apply _ _, rfl⟩
    have h3 : (s.giveId handler).timeOf handler = s.timeOf handler := by
      simp [timeOf, giveId]
      cases handler.kind <;> rfl
    rw [h2, if_pos hp]
    change insertHandler handler (s.giveId handler) = _
    rw [insertHandler_apply (by exact hp), h3]
    rfl
  · rw [if_neg hp]
    simp only [onAction]
    rw [if_neg (by exact hp)]

theorem scheduleAction_mCurrentActionTime (handler : ActionHandler) (s : Core ω) :
    (scheduleAction handler s).state.mCurrentActionTime = s.mCurrentActionTime := by
  rw [scheduleAction_apply]
  split_ifs <;> rfl

section
variable (handler : ActionHandler) (s : Core ω)

@[simp] theorem giveId_mActions : (s.giveId handler).mActions = s.mActions := rfl
@[simp] theorem giveId_mCurrentActionTime :
    (s.giveId handler).mCurrentActionTime = s.mCurrentActionTime := rfl
@[simp] theorem giveId_mObjectList : (s.giveId handler).mObjectList = s.mObjectList := rfl
@[simp] theorem giveId_objects : (s.giveId handler).objects = s.objects := rfl
@[simp] theorem giveId_accepted :
    (s.giveId handler).history.accepted = s.history.accepted := rfl
@[simp] theorem giveId_taken : (s.giveId handler).history.taken = s.history.taken := rfl
@[simp] theorem giveId_calls : (s.giveId handler).history.calls = s.history.calls := rfl

@[simp] theorem accept_mActions : (s.accept handler).mActions =
    s.mActions.push (s.timeOf handler) (s.nextScheduling handler) := rfl
@[simp] theorem accept_mCurrentActionTime :
    (s.accept handler).mCurrentActionTime = s.mCurrentActionTime := rfl
@[simp] theorem accept_mObjectList : (s.accept handler).mObjectList = s.mObjectList := rfl
@[simp] theorem accept_actions : (s.accept handler).actions = (s.giveId handler).actions := rfl
@[simp] theorem accept_objects : (s.accept handler).objects = s.objects := rfl
@[simp] theorem accept_accepted : (s.accept handler).history.accepted =
    s.history.accepted ++ [s.nextScheduling handler] := rfl
@[simp] theorem accept_taken : (s.accept handler).history.taken = s.history.taken := rfl
@[simp] theorem accept_calls : (s.accept handler).history.calls = s.history.calls := rfl

@[simp] theorem nextScheduling_time : (s.nextScheduling handler).time = s.timeOf handler := rfl
@[simp] theorem nextScheduling_number :
    (s.nextScheduling handler).number = s.history.accepted.length + 1 := rfl
@[simp] theorem nextScheduling_handler : (s.nextScheduling handler).handler = handler := rfl

end

/-! ## The loop -/

/-- The check of `runSimulationLoop` compares the sentinel like any other time point. -/
theorem runSimulationLoop_apply (s : Core ω) :
    runSimulationLoop s =
      let time := ActionList.getNextTimePoint s.mActions
      if s.mCurrentActionTime ≤ time then
        .ok (if time = SimClock.invalid then .finished else .waiting)
          { s with mCurrentActionTime := time }
      else .error (.runtimeError "Core: wrong order of actions") s := by
  simp only [runSimulationLoop, bind_apply, get_apply, modify_apply, enforce]
  by_cases h : s.mCurrentActionTime ≤ ActionList.getNextTimePoint s.mActions
  · by_cases hi : ActionList.getNextTimePoint s.mActions = SimClock.invalid
    · rw [hi] at h
      simp [h, hi, pure_apply]
    · simp [h, hi, pure_apply]
  · simp [h, throw_apply]

@[simp] theorem checkHandlers_state (handlers : List Scheduling) (s : Core ω) :
    (checkHandlers handlers s).state = s := by
  cases handlers with
  | nil => rfl
  | cons h rest =>
    simp only [checkHandlers, List.head?_cons, bind_apply]
    by_cases hp : h.handler.mCorrespondingAction < s.actions.next
    · rw [getAction_of_lt hp]
      simp only [get_apply, enforce]
      split <;> rename_i heq
      all_goals
        split at heq <;> simp_all [pure_apply, throw_apply]
    · rw [getAction_of_not_lt hp]
      rfl

theorem checkHandlers_eq_ok {handlers : List Scheduling} {s s' : Core ω} {c : Control}
    (h : checkHandlers handlers s = .ok c s') : c = .executing := by
  cases handlers with
  | nil => cases h
  | cons x rest =>
    obtain ⟨_, _, -, h⟩ := bind_eq_ok.1 h
    obtain ⟨_, _, -, h⟩ := bind_eq_ok.1 h
    obtain ⟨_, _, -, h⟩ := bind_eq_ok.1 h
    exact (pure_eq_ok.1 h).1.symm

/-- Dispatching a handler fails on a check, drops it because its object has been removed, or invokes
it on the object that its action is addressed to. -/
theorem dispatch_cases (V : Virtuals ω) (compareIds : Bool) (h : Scheduling) (s : Core ω) :
    let affected := (s.actions.cell h.handler.mCorrespondingAction).mAffectedObject
    (∃ f, dispatch V compareIds h s = .error f s) ∨
      (affected ∈ s.mObjectList.currentCopy.mRemovedObjects ∧
        dispatch V compareIds h s = .ok () s) ∨
      ∃ obj, h.handler.mCorrespondingAction < s.actions.next ∧
        s.mObjectList.currentCopy.mActiveObjects[affected]? = some obj ∧
        dispatch V compareIds h s = BaseObject.invoke V compareIds h.handler obj s := by
  by_cases hp : h.handler.mCorrespondingAction < s.actions.next
  swap
  · exact .inl ⟨.nullDereference, by simp [dispatch, bind_apply, getAction_of_not_lt hp]⟩
  set a := s.actions.cell h.handler.mCorrespondingAction with ha
  have hget : getAction h.handler.mCorrespondingAction s = .ok a s := getAction_of_lt hp
  simp only [dispatch, bind_apply, hget, get_apply, enforce]
  cases hid : a.mActionId != 0 with
  | false => exact .inl ⟨_, rfl⟩
  | true =>
    cases hv : ObjectId.valid a.mAffectedObject with
    | false => exact .inl ⟨_, rfl⟩
    | true =>
      cases hl : s.mObjectList.getObjectByIdFromCurrentContainer a.mAffectedObject with
      | error e =>
        exact .inl ⟨e, by simp [pure_apply, hl, ofExcept, throw_apply]⟩
      | ok found =>
        simp only [if_true, pure_apply, hl, ofExcept]
        unfold ObjectList.getObjectByIdFromCurrentContainer ObjectContainer.getObject at hl
        split at hl
        case isFalse => cases hl
        case isTrue hin =>
          cases found with
          | some obj => exact .inr (.inr ⟨obj, hp, Except.ok.inj hl, rfl⟩)
          | none =>
            refine .inr (.inl ⟨?_, rfl⟩)
            have hnone : s.mObjectList.currentCopy.mActiveObjects.contains a.mAffectedObject =
                false := by
              rw [TreeMap.contains_eq_isSome_getElem?, Except.ok.inj hl]
              rfl
            rw [hnone, Bool.false_or] at hin
            exact TreeSet.mem_iff_contains.2 hin

end Core

namespace Machine

variable (m : Machine ω) (x : CoreM ω Control)

@[simp] theorem resume_core : (m.resume x).core = (x m.core).state := by
  simp only [resume]
  cases x m.core <;> rfl

@[simp] theorem resume_batch : (m.resume x).batch = m.batch := by
  simp only [resume]
  cases x m.core <;> rfl

theorem resume_of_ok {c : Control} {s : Core ω} (h : x m.core = .ok c s) :
    m.resume x = { m with core := s, control := c } := by
  simp only [resume]
  rw [h]

theorem resume_of_error {f : Failure} {s : Core ω} (h : x m.core = .error f s) :
    m.resume x = { m with core := s, control := .aborted f } := by
  simp only [resume]
  rw [h]

theorem resume_then_of_ok {x : CoreM ω Unit} {c : Control} {u : Unit} {s : Core ω}
    (h : x m.core = .ok u s) : m.resume (do x; return c) = { m with core := s, control := c } :=
  m.resume_of_ok _ (bind_eq_ok.2 ⟨u, s, h, rfl⟩)

theorem resume_then_of_error {x : CoreM ω Unit} {c : Control} {f : Failure} {s : Core ω}
    (h : x m.core = .error f s) :
    m.resume (do x; return c) = { m with core := s, control := .aborted f } :=
  m.resume_of_error _ (bind_eq_error.2 (.inl h))

end Machine

/-! ## Scheduling a start handler -/

/-- Scheduling a handler leaves the objects alone, and most of the actions. -/
structure Schedules (s s' : Core ω) : Prop where
  world : s'.world = s.world
  mObjectList : s'.mObjectList = s.mObjectList
  next : s'.actions.next = s.actions.next
  action : ∀ p, (s'.actions.cell p).mType = (s.actions.cell p).mType ∧
    (s'.actions.cell p).mActionData = (s.actions.cell p).mActionData ∧
    (s'.actions.cell p).mStartTime = (s.actions.cell p).mStartTime ∧
    (s'.actions.cell p).mAffectedObject = (s.actions.cell p).mAffectedObject
  objects : s'.objects = s.objects

theorem Schedules.refl (s : Core ω) : Schedules s s :=
  ⟨rfl, rfl, rfl, fun _ => ⟨rfl, rfl, rfl, rfl⟩, rfl⟩

theorem Schedules.trans {s s' s'' : Core ω} (h : Schedules s s') (h' : Schedules s' s'') :
    Schedules s s'' where
  world := h'.world.trans h.world
  mObjectList := h'.mObjectList.trans h.mObjectList
  next := h'.next.trans h.next
  action p := by
    obtain ⟨h1, h2, h3, h4⟩ := h.action p
    obtain ⟨h1', h2', h3', h4'⟩ := h'.action p
    exact ⟨h1'.trans h1, h2'.trans h2, h3'.trans h3, h4'.trans h4⟩
  objects := h'.objects.trans h.objects

theorem Schedules.onAction {α : Type} {p : ActionPtr} {x : EStateM Failure Action α}
    (hx : ∀ a, (x a).state.mType = a.mType ∧ (x a).state.mActionData = a.mActionData ∧
      (x a).state.mStartTime = a.mStartTime ∧
      (x a).state.mAffectedObject = a.mAffectedObject) (s : Core ω) :
    Schedules s (onAction p x s).state := by
  refine Post.state (post_onAction (fun _ => post_of_state ?_) (.refl s))
  refine ⟨rfl, rfl, rfl, fun q => ?_, rfl⟩
  rcases eq_or_ne q p with rfl | hq
  · simpa using hx _
  · rw [show (s.writeAction p _).actions.cell q = s.actions.cell q from Heap.write_cell_of_ne hq]
    exact ⟨rfl, rfl, rfl, rfl⟩

theorem Schedules.scheduleStartHandler (p : ActionPtr) (s : Core ω) :
    Schedules s (Action.scheduleStartHandler p s).state := by
  refine Composed.related (P := fun {_} x => ∀ s, Schedules s (x s).state) .refl .trans (fun h => h)
    ?_ s
  have hget : ∀ p, Composed (fun {_} x => ∀ s : Core ω, Schedules s (x s).state) (getAction p) :=
    fun p => .prim fun s => .onAction (fun _ => ⟨rfl, rfl, rfl, rfl⟩) s
  have hmachine : ∀ (p : ActionPtr) (x : EStateM Failure ActionStateMachine Unit),
      Composed (fun {_} x => ∀ s : Core ω, Schedules s (x s).state)
        (Cosidia.onAction p (Action.onStateMachine x)) := fun p x => .prim fun s =>
    .onAction (fun a => by unfold Action.onStateMachine; rw [zoom_state]; exact ⟨rfl, rfl, rfl, rfl⟩) s
  have hschedule : ∀ handler, Composed (fun {_} x => ∀ s : Core ω, Schedules s (x s).state)
      (Core.scheduleAction handler) := by
    intro handler
    have hnote : ∀ f : Core ω → Core ω, (∀ s, Schedules s (f s)) →
        Composed (fun {_} x => ∀ s : Core ω, Schedules s (x s).state)
          (modify f : CoreM ω PUnit) :=
      fun _ hf => .prim hf
    refine .bind (.bind (hnote _ fun s => ⟨rfl, rfl, rfl, fun _ => ⟨rfl, rfl, rfl, rfl⟩, rfl⟩) fun _ =>
      .bind .get fun s => .bind (hnote (Core.noteGiven · s.mCurrentActionId) fun s =>
        ⟨rfl, rfl, rfl, fun _ => ⟨rfl, rfl, rfl, rfl⟩, rfl⟩) fun _ => .pure _) fun id => ?_
    refine .bind (.prim (Schedules.onAction fun _ => ⟨rfl, rfl, rfl, rfl⟩)) fun _ => ?_
    refine .bind (hget _) fun _ => .bind .get fun _ => .bind (.prim fun s => ?_) fun _ =>
      .prim fun s => ⟨rfl, rfl, rfl, fun _ => ⟨rfl, rfl, rfl, rfl⟩, rfl⟩
    rw [zoom_state]
    exact ⟨rfl, rfl, rfl, fun _ => ⟨rfl, rfl, rfl, rfl⟩, rfl⟩
  simp only [Action.scheduleStartHandler]
  refine .bind (hget p) fun a => ?_
  cases a.kind with
  | durationAction =>
    exact .bind (hget p) fun _ => .bind (Composed.enforce _ _) fun _ =>
      .bind (hmachine p _) fun _ => hschedule _
  | initAction =>
    exact .bind (hget p) fun _ => .bind (Composed.enforce _ _) fun _ =>
      .bind (hmachine p _) fun _ => hschedule _

/-! ### An action that has not been scheduled yet -/

/-- The state of an action whose start handler has been scheduled. -/
def ActionKind.scheduled : ActionKind → ActionStateMachine
  | .durationAction => .running
  | .initAction => .finished

def Action.scheduled (a : Action) : Action := { a with mStateMachine := a.kind.scheduled }

/-- The start handler of the action `p` is scheduled. -/
def Core.schedule (p : ActionPtr) (s : Core ω) : Core ω :=
  (s.writeAction p (s.actions.cell p).scheduled).accept ⟨(s.actions.cell p).kind.startHandler, p⟩

/-- The message of `scheduleStartHandler` for an action that has an id. -/
def ActionKind.idAlreadySet : ActionKind → String
  | .durationAction => "DurationAction: tried to schedule Action with Id already set"
  | .initAction => "InitAction: tried to schedule Action with Id already set"

/-- The handler that is scheduled first reports the start time. -/
theorem Core.timeOf_startHandler (s : Core ω) (p : ActionPtr) (kind : ActionKind) :
    s.timeOf ⟨kind.startHandler, p⟩ = (s.actions.cell p).mStartTime := by
  cases kind <;> rfl

/-- `scheduleStartHandler` advances the state machine, then gives the action an id, and only then
finds out whether the time is in the past. -/
theorem Action.scheduleStartHandler_cases {s : Core ω} {p : ActionPtr} (hp : p < s.actions.next) :
    Action.scheduleStartHandler p s =
      if (s.actions.cell p).mActionId = 0 then
        if (s.actions.cell p).mStateMachine = .waiting then
          if s.mCurrentActionTime ≤ (s.actions.cell p).mStartTime then .ok () (s.schedule p)
          else .error (.runtimeError "ActionList: Wrong order of actions")
            ((s.writeAction p (s.actions.cell p).scheduled).giveId
              ⟨(s.actions.cell p).kind.startHandler, p⟩)
        else .error (.runtimeError "ActionStateMachine: Wrong State for begin Action")
          (s.writeAction p { s.actions.cell p with mStateMachine := .failure })
      else .error (.runtimeError (s.actions.cell p).kind.idAlreadySet) s := by
  have hget : getAction p s = .ok (s.actions.cell p) s := getAction_of_lt hp
  refine (?_ : ∀ r, r = _ → Action.scheduleStartHandler p s = r) _ rfl
  intro r hr
  -- both kinds do this with a state machine that only accepts `waiting`
  have hrest : ∀ x : EStateM Failure ActionStateMachine Unit,
      x .waiting = .ok () (s.actions.cell p).kind.scheduled →
      (∀ m, m ≠ .waiting →
        x m = .error (.runtimeError "ActionStateMachine: Wrong State for begin Action") .failure) →
      (do enforce ((← getAction p).mActionId == 0) (s.actions.cell p).kind.idAlreadySet
          onAction p (Action.onStateMachine x)
          Core.scheduleAction ⟨(s.actions.cell p).kind.startHandler, p⟩) s = r := by
    intro x hok herr
    rw [hr, bind_apply, hget]
    dsimp only
    by_cases hid : (s.actions.cell p).mActionId = 0
    swap
    · rw [if_neg hid, bind_apply, beq_false_of_ne hid]
      rfl
    have hnew : ((s.actions.cell p).mActionId == 0) = true := beq_iff_eq.2 hid
    rw [if_pos hid, bind_apply, hnew, enforce_true, pure_apply]
    dsimp only
    by_cases hw : (s.actions.cell p).mStateMachine = .waiting
    · have hmachine : onAction p (Action.onStateMachine x) s =
          .ok () (s.writeAction p (s.actions.cell p).scheduled) :=
        onAction_of_ok hp (zoom_eq_ok.2 ⟨_, by rw [hw, hok], rfl⟩)
      have htime : Core.timeOf (s.writeAction p (s.actions.cell p).scheduled)
          ⟨(s.actions.cell p).kind.startHandler, p⟩ = (s.actions.cell p).mStartTime := by
        rw [Core.timeOf_startHandler, Core.writeAction_actions, Heap.write_cell_self]
        rfl
      rw [if_pos hw, bind_apply, hmachine]
      dsimp only
      rw [Core.scheduleAction_apply, if_pos (by exact hp), htime]
      rfl
    · have hmachine : onAction p (Action.onStateMachine x) s =
          .error (.runtimeError "ActionStateMachine: Wrong State for begin Action")
            (s.writeAction p { s.actions.cell p with mStateMachine := .failure }) := by
        simp only [onAction]
        rw [if_pos hp, zoom_eq_error]
        exact ⟨_, zoom_eq_error.2 ⟨_, herr _ hw, rfl⟩, rfl⟩
      rw [if_neg hw, bind_apply, hmachine]
  simp only [Action.scheduleStartHandler]
  rw [bind_apply, hget]
  dsimp only
  generalize hkind : (s.actions.cell p).kind = kind at hrest ⊢
  cases kind with
  | durationAction =>
    apply hrest ActionStateMachine.setRunning rfl
    intro m hm
    cases m with
    | waiting => exact absurd rfl hm
    | running | finished | failure => rfl
  | initAction =>
    apply hrest _ rfl
    intro m hm
    cases m with
    | waiting => exact absurd rfl hm
    | running | finished | failure => rfl

/-- `scheduleEndHandler` gives the action another id before it finds out about the time, and leaves
the state machine alone. -/
theorem Action.scheduleEndHandler_cases {s : Core ω} {p : ActionPtr} (hp : p < s.actions.next)
    (hk : (s.actions.cell p).kind = .durationAction) :
    Action.scheduleEndHandler p s =
      if (s.actions.cell p).mActionId = 0 then
        .error (.runtimeError
          "DurationAction: tried to schedule endHandler without beginHandler scheduled") s
      else if s.mCurrentActionTime ≤ (s.actions.cell p).getEndTime then
        .ok () (s.accept ⟨.handlerEnd, p⟩)
      else .error (.runtimeError "ActionList: Wrong order of actions")
        (s.giveId ⟨.handlerEnd, p⟩) := by
  have hget : getAction p s = .ok (s.actions.cell p) s := getAction_of_lt hp
  simp only [Action.scheduleEndHandler]
  rw [bind_apply, hget]
  dsimp only
  rw [hk]
  dsimp only
  rw [bind_apply, hget]
  dsimp only
  by_cases hid : (s.actions.cell p).mActionId = 0
  · rw [if_pos hid, hid]
    rfl
  · have hset : ((s.actions.cell p).mActionId != 0) = true := bne_iff_ne.2 hid
    rw [if_neg hid, hset, bind_apply, enforce_true, pure_apply]
    dsimp only
    rw [Core.scheduleAction_apply, if_pos hp]
    rfl

/-- The end handler of an `InitAction` is never scheduled. -/
theorem Action.scheduleEndHandler_of_initAction {s : Core ω} {p : ActionPtr}
    (hp : p < s.actions.next) (hk : (s.actions.cell p).kind = .initAction) :
    Action.scheduleEndHandler p s = .ok () s := by
  simp only [Action.scheduleEndHandler]
  rw [bind_apply, getAction_of_lt hp]
  dsimp only
  rw [hk]
  rfl

theorem Action.scheduleStartHandler_apply {s : Core ω} {p : ActionPtr} (hp : p < s.actions.next)
    (hid : (s.actions.cell p).mActionId = 0) (hwaiting : (s.actions.cell p).mStateMachine = .waiting)
    (hnow : s.mCurrentActionTime ≤ (s.actions.cell p).mStartTime) :
    Action.scheduleStartHandler p s = .ok () (s.schedule p) := by
  rw [Action.scheduleStartHandler_cases hp]
  exact (if_pos hid).trans ((if_pos hwaiting).trans (if_pos hnow))

section
variable (p : ActionPtr) (s : Core ω)

@[simp] theorem Core.schedule_objects : (s.schedule p).objects = s.objects := rfl

@[simp] theorem Core.schedule_mObjectList : (s.schedule p).mObjectList = s.mObjectList := rfl

@[simp] theorem Core.schedule_world : (s.schedule p).world = s.world := rfl

@[simp] theorem Core.schedule_mCurrentActionTime :
    (s.schedule p).mCurrentActionTime = s.mCurrentActionTime := rfl

@[simp] theorem Core.schedule_next : (s.schedule p).actions.next = s.actions.next := rfl

variable {p s}

theorem Core.schedule_cell_of_ne {q : ActionPtr} (h : q ≠ p) :
    (s.schedule p).actions.cell q = s.actions.cell q :=
  (Heap.write_cell_of_ne h).trans (Heap.write_cell_of_ne h)

theorem Core.schedule_cell : (s.schedule p).actions.cell p =
    { (s.actions.cell p).scheduled with mActionId := s.mCurrentActionId + 1 } := by
  apply (Heap.write_cell_self ..).trans
  rw [show (s.writeAction p (s.actions.cell p).scheduled).actions.cell p = _ from
    Heap.write_cell_self ..]
  rfl

variable (p s)

theorem Core.schedule_mActions : ∃ h : Scheduling,
    (s.schedule p).mActions = s.mActions.push h.time h ∧ h.time = (s.actions.cell p).mStartTime ∧
      h.handler = ⟨(s.actions.cell p).kind.startHandler, p⟩ := by
  refine ⟨(s.writeAction p (s.actions.cell p).scheduled).nextScheduling
    ⟨(s.actions.cell p).kind.startHandler, p⟩, rfl, ?_, rfl⟩
  rw [Core.nextScheduling_time, Core.timeOf]
  rw [show (s.writeAction p (s.actions.cell p).scheduled).actions.cell p = _ from
    Heap.write_cell_self ..]
  cases (s.actions.cell p).kind <;> rfl

end

/-! ### Many actions at once -/

/-- The action `p` can be scheduled. -/
structure Core.Fresh (s : Core ω) (p : ActionPtr) : Prop where
  lt : p < s.actions.next
  id : (s.actions.cell p).mActionId = 0
  waiting : (s.actions.cell p).mStateMachine = .waiting
  now : s.mCurrentActionTime ≤ (s.actions.cell p).mStartTime

/-- The start handler of the action `p` is pending, at the time when the action starts. -/
def Core.Pending (s : Core ω) (p : ActionPtr) : Prop :=
  ∃ h ∈ s.mActions.entries, h.handler = ⟨(s.actions.cell p).kind.startHandler, p⟩ ∧
    h.time = (s.actions.cell p).mStartTime

section
variable {s : Core ω} {p q : ActionPtr}

theorem Core.Fresh.schedule (h : s.Fresh q) (hq : q ≠ p) : (s.schedule p).Fresh q := by
  have hcell := Core.schedule_cell_of_ne (s := s) hq
  exact ⟨h.lt, by rw [hcell]; exact h.id, by rw [hcell]; exact h.waiting, by rw [hcell]; exact h.now⟩

theorem Core.schedule_kind (s : Core ω) (p q : ActionPtr) :
    ((s.schedule p).actions.cell q).kind = (s.actions.cell q).kind ∧
      ((s.schedule p).actions.cell q).mStartTime = (s.actions.cell q).mStartTime := by
  rcases eq_or_ne q p with rfl | hq
  · rw [Core.schedule_cell]
    exact ⟨rfl, rfl⟩
  · rw [Core.schedule_cell_of_ne hq]
    exact ⟨rfl, rfl⟩

theorem Core.pending_schedule (s : Core ω) (p : ActionPtr) : (s.schedule p).Pending p := by
  obtain ⟨h, hmActions, htime, hhandler⟩ := Core.schedule_mActions p s
  obtain ⟨hkind, hstart⟩ := s.schedule_kind p p
  refine ⟨h, ?_, by rw [hhandler, hkind], by rw [htime, hstart]⟩
  rw [hmActions]
  exact BucketMap.mem_entries_push.2 (.inl rfl)

/-- A pending action stays pending as long as its handler does and its kind and start stay. -/
theorem Core.Pending.mono {s' : Core ω} (h : s.Pending q)
    (hentries : ∀ x ∈ s.mActions.entries, x ∈ s'.mActions.entries)
    (hcell : (s'.actions.cell q).kind = (s.actions.cell q).kind ∧
      (s'.actions.cell q).mStartTime = (s.actions.cell q).mStartTime) : s'.Pending q := by
  obtain ⟨x, hx, hhandler, htime⟩ := h
  exact ⟨x, hentries x hx, by rw [hhandler, hcell.1], by rw [htime, hcell.2]⟩

theorem Core.Pending.schedule (h : s.Pending q) (p : ActionPtr) : (s.schedule p).Pending q := by
  obtain ⟨y, hmActions, -, -⟩ := Core.schedule_mActions p s
  refine h.mono (fun x hx => ?_) (s.schedule_kind p q)
  rw [hmActions]
  exact BucketMap.mem_entries_push.2 (.inr hx)

theorem Core.Pending.writeAction (h : s.Pending q) {a : Action}
    (hkind : a.kind = (s.actions.cell p).kind)
    (hstart : a.mStartTime = (s.actions.cell p).mStartTime) : (s.writeAction p a).Pending q := by
  refine h.mono (fun _ hx => hx) ?_
  rw [Core.writeAction_actions]
  rcases eq_or_ne q p with rfl | hq
  · rw [Heap.write_cell_self]
    exact ⟨hkind, hstart⟩
  · rw [Heap.write_cell_of_ne hq]
    exact ⟨rfl, rfl⟩

/-- What is pending stays so even if nothing more can be scheduled. -/
theorem Core.Pending.scheduleStartHandler (h : s.Pending q) (p : ActionPtr) :
    (Action.scheduleStartHandler p s).state.Pending q := by
  by_cases hp : p < s.actions.next
  swap
  · have hrun : Action.scheduleStartHandler p s = .error .nullDereference s := by
      simp only [Action.scheduleStartHandler]
      rw [bind_apply, getAction_of_not_lt hp]
    rwa [hrun]
  rw [Action.scheduleStartHandler_cases hp]
  split_ifs
  · exact h.schedule p
  · have hscheduled : (s.writeAction p (s.actions.cell p).scheduled).takeId.Pending q :=
      Core.Pending.writeAction h rfl rfl
    exact hscheduled.writeAction rfl rfl
  · exact h.writeAction rfl rfl
  · exact h

theorem Core.Pending.forM (h : s.Pending q) (l : List ActionPtr) :
    (l.forM Action.scheduleStartHandler s).state.Pending q := by
  induction l generalizing s with
  | nil => exact h
  | cons p l ih =>
    exact Post.state (I := (Core.Pending · q)) (Post.bind (M := fun _ => (Core.Pending · q))
      (post_of_state (h.scheduleStartHandler p)) fun _ s' h' => post_of_state (ih h'))

theorem forM_scheduleStartHandler_ok {l : List ActionPtr} (hl : l.Nodup)
    (hfresh : ∀ q ∈ l, s.Fresh q) : ∃ s', l.forM Action.scheduleStartHandler s = .ok ⟨⟩ s' ∧
      (∀ q ∈ l, s'.Pending q) ∧ ∀ q, s.Pending q → s'.Pending q := by
  induction l generalizing s with
  | nil => exact ⟨s, rfl, nofun, fun _ h => h⟩
  | cons p l ih =>
    obtain ⟨hp, hl⟩ := List.nodup_cons.1 hl
    obtain ⟨hfresh₁, hfresh⟩ := List.forall_mem_cons.1 hfresh
    have hok := Action.scheduleStartHandler_apply hfresh₁.lt hfresh₁.id hfresh₁.waiting hfresh₁.now
    obtain ⟨s', hok', hpending, hkept⟩ := ih hl fun q hq =>
      (hfresh q hq).schedule (ne_of_mem_of_not_mem hq hp)
    refine ⟨s', bind_eq_ok.2 ⟨_, _, hok, hok'⟩, ?_, fun q hq => hkept q (hq.schedule p)⟩
    exact List.forall_mem_cons.2 ⟨hkept p (s.pending_schedule p), hpending⟩

/-- Actions that can be scheduled are pending afterwards, whatever comes of those after them. -/
theorem pending_forM_append {l : List ActionPtr} (hl : l.Nodup) (hfresh : ∀ q ∈ l, s.Fresh q)
    (l' : List ActionPtr) :
    ∀ q ∈ l, ((l ++ l').forM Action.scheduleStartHandler s).state.Pending q := by
  intro q hq
  obtain ⟨s', hok, hpending, -⟩ := forM_scheduleStartHandler_ok hl hfresh
  have happend : (l ++ l').forM (Action.scheduleStartHandler (ω := ω)) =
      l.forM Action.scheduleStartHandler >>= fun _ => l'.forM Action.scheduleStartHandler :=
    List.forM_append
  rw [happend, bind_apply, hok]
  exact (hpending q hq).forM l'

theorem Schedules.forM (l : List ActionPtr) (s : Core ω) :
    Schedules s (l.forM Action.scheduleStartHandler s).state :=
  Composed.related .refl .trans (fun h => h) (.forM fun p _ => .prim fun s =>
    scheduleStartHandler p s) s

end

end Cosidia
