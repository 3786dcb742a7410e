import Cosidia.Verify.Specs

/-!
# The entry points of objects as a transition system

A handler that has been taken up goes through a few stages, and at each of them the core does one
thing that matters to the other handlers: it moves an action between the manager's slots, notes an
id, schedules an end handler or calls a virtual method. `Act` lists all these transitions; `Quiet`
changes may happen in between. `invoke_acts` shows that the entry points do nothing else, so that an
invariant has to be checked against the constructors of `Act` only.
-/

namespace Cosidia

open EStateM Relation

variable {ω : Type}

namespace Core

/-! ## Managers -/

def manager (s : Core ω) (o : ObjectPtr) : ObjectActionManager := (s.objects.cell o).mActionManager

def current (s : Core ω) (o : ObjectPtr) : ActionId := (s.objects.cell o).mCurrentAction

def setManager (o : ObjectPtr) (m : ObjectActionManager) (s : Core ω) : Core ω :=
  s.writeObject o { s.objects.cell o with mActionManager := m }

def setCurrent (o : ObjectPtr) (id : ActionId) (s : Core ω) : Core ω :=
  s.writeObject o { s.objects.cell o with mCurrentAction := id }

def setState (p : ActionPtr) (state : ActionStateMachine) (s : Core ω) : Core ω :=
  s.writeAction p { s.actions.cell p with mStateMachine := state }

def shift (p : ActionPtr) (t : TimePoint) (s : Core ω) : Core ω :=
  s.writeAction p { s.actions.cell p with mStartTime := t }

theorem setManager_manager (o o' : ObjectPtr) (m : ObjectActionManager) (s : Core ω) :
    (s.setManager o m).manager o' = if o' = o then m else s.manager o' := by
  simp only [manager, setManager, writeObject_objects, Heap.write_cell]
  split <;> rfl

@[simp] theorem setManager_current (o o' : ObjectPtr) (m : ObjectActionManager) (s : Core ω) :
    (s.setManager o m).current o' = s.current o' := by
  simp only [current, setManager, writeObject_objects, Heap.write_cell]
  split
  · next h => rw [h]
  · rfl

theorem setCurrent_current (o o' : ObjectPtr) (id : ActionId) (s : Core ω) :
    (s.setCurrent o id).current o' = if o' = o then id else s.current o' := by
  simp only [current, setCurrent, writeObject_objects, Heap.write_cell]
  split <;> rfl

@[simp] theorem setCurrent_manager (o o' : ObjectPtr) (id : ActionId) (s : Core ω) :
    (s.setCurrent o id).manager o' = s.manager o' := by
  simp only [manager, setCurrent, writeObject_objects, Heap.write_cell]
  split
  · next h => rw [h]
  · rfl

end Core

/-! ## Transitions -/

/-- `b` is `a` after changes that the code of an object may make. -/
structure Action.Tamed (a b : Action) : Prop where
  kind : b.kind = a.kind
  mDuration : b.mDuration = a.mDuration
  mStartTime : b.mStartTime = a.mStartTime
  mAffectedObject : b.mAffectedObject = a.mAffectedObject
  mActionId : b.mActionId = a.mActionId
  waiting : b.mStateMachine = .waiting → a.mStateMachine = .waiting

theorem Action.Tamed.refl (a : Action) : a.Tamed a := ⟨rfl, rfl, rfl, rfl, rfl, id⟩

/-- Nothing has changed but what the transitions do not look at. -/
structure Quiet (s s' : Core ω) : Prop where
  mActions : s'.mActions = s.mActions
  mCurrentActionTime : s'.mCurrentActionTime = s.mCurrentActionTime
  mCurrentActionId : s'.mCurrentActionId = s.mCurrentActionId
  history : s'.history = s.history
  actions : s.actions.next ≤ s'.actions.next
  action : ∀ p < s.actions.next, (s.actions.cell p).Tamed (s'.actions.cell p)
  objects : s.objects.next ≤ s'.objects.next
  object : ∀ o < s.objects.next, s'.manager o = s.manager o ∧ s'.current o = s.current o
  unmade : ∀ o, s.objects.next ≤ o → s'.manager o = s.manager o ∨ s'.manager o = {}

/-- How far the code of a handler has come. -/
inductive Stage where
  /-- It has returned, or hands over to the code of an object at its end. -/
  | idle
  /-- `invoke` of a handler for `a` on the object `o`. -/
  | taken (kind : HandlerKind) (o : ObjectPtr) (a : ActionPtr)
  /-- `a` is active. The id of `noting` is to be noted, then `ending` gets its end handler. -/
  | starting (o : ObjectPtr) (noting ending a : ActionPtr)
  | noted (o : ObjectPtr) (ending a : ActionPtr)
  /-- `startExecution` of `a` is to be called. -/
  | armed (o : ObjectPtr) (a : ActionPtr)
  /-- `initObject` of `a` is to be called. -/
  | initialising (o : ObjectPtr) (a : ActionPtr)
  /-- `endExecution` or `initObject` of `a` has been called. -/
  | closing (kind : HandlerKind) (o : ObjectPtr) (a : ActionPtr)
  /-- No action is active after `a`, but some are waiting. -/
  | released (kind : HandlerKind) (o : ObjectPtr) (a : ActionPtr)
  /-- `b` has been activated after `a`. -/
  | activated (kind : HandlerKind) (o : ObjectPtr) (a b : ActionPtr)

/-- The action whose end handler is scheduled when `b` is started after `a`: the ended action
itself in `endExecutionBase`, the started one in `initObjectBase`. -/
def Stage.ending (kind : HandlerKind) (a b : ActionPtr) : ActionPtr :=
  match kind with
  | .handlerEnd => a
  | .handlerStart | .handlerInit => b

/-- What `endExecutionBase` and `initObjectBase` do with an action that they have activated after
`action`. -/
def BaseObject.startShifted (V : Virtuals ω) (k : HandlerKind) (obj : ObjectPtr)
    (action update : ActionPtr) : CoreM ω Unit := do
  noteCurrentAction obj action
  Action.scheduleEndHandler (Stage.ending k action update)
  startExecution V obj update

/-- One transition of the code of a handler. -/
inductive Act : Stage × Core ω → Stage × Core ω → Prop
  | quiet {st s s'} : Quiet s s' → Act (st, s) (st, s')
  | schedule {st s p state} : p < s.actions.next →
    (s.actions.cell p).mStateMachine = .waiting → state ≠ .waiting →
    s.mCurrentActionTime ≤ s.timeOf ⟨(s.actions.cell p).kind.startHandler, p⟩ →
    Act (st, s) (st, (s.setState p state).accept ⟨(s.actions.cell p).kind.startHandler, p⟩)
  | rejectStart {st s p state} : p < s.actions.next →
    (s.actions.cell p).mStateMachine = .waiting → state ≠ .waiting →
    Act (st, s) (st, (s.setState p state).giveId ⟨(s.actions.cell p).kind.startHandler, p⟩)
  | start {s o a} : o < s.objects.next → s.manager o = ⟨none, []⟩ →
    Act (.taken .handlerStart o a, s) (.starting o a a a, s.setManager o ⟨some a, []⟩)
  | init {s o a} : o < s.objects.next → s.manager o = ⟨none, []⟩ →
    Act (.taken .handlerInit o a, s) (.initialising o a, s.setManager o ⟨some a, []⟩)
  | delay {s k o a b q} : o < s.objects.next → k ≠ .handlerEnd → s.manager o = ⟨some b, q⟩ →
    Act (.taken k o a, s) (.idle, s.setManager o ⟨some b, q ++ [a]⟩)
  | stuck {s k o a b q} : o < s.objects.next → k ≠ .handlerEnd → s.manager o = ⟨none, b :: q⟩ →
    Act (.taken k o a, s) (.idle, s.setManager o ⟨none, b :: q ++ [a]⟩)
  | note {s o x y a} : Act (.starting o x y a, s)
    (.noted o y a, s.setCurrent o (s.actions.cell x).mActionId)
  | noteInit {s o a} : Act (.initialising o a, s)
    (.initialising o a, s.setCurrent o (s.actions.cell a).mActionId)
  | scheduleEnd {s o y a} : y < s.actions.next → (s.actions.cell y).kind = .durationAction →
    s.mCurrentActionTime ≤ s.timeOf ⟨.handlerEnd, y⟩ →
    Act (.noted o y a, s) (.armed o a, s.accept ⟨.handlerEnd, y⟩)
  | skipEnd {s o y a} : (s.actions.cell y).kind = .initAction → Act (.noted o y a, s) (.armed o a, s)
  | rejectEnd {s o y a} : Act (.noted o y a, s) (.noted o y a, s.giveId ⟨.handlerEnd, y⟩)
  | callStart {s o a} : Act (.armed o a, s) (.idle, BaseObject.noteCall .handlerStart o a s)
  | callEnd {s o a} : Act (.taken .handlerEnd o a, s)
    (.closing .handlerEnd o a, BaseObject.noteCall .handlerEnd o a s)
  | callInit {s o a} : Act (.initialising o a, s)
    (.closing .handlerInit o a, BaseObject.noteCall .handlerInit o a s)
  | release {s k o a} : (s.manager o).mDelayedQueue = [] →
    Act (.closing k o a, s) (.idle, s.setManager o ⟨none, []⟩)
  | releaseSome {s k o a b q} : (s.manager o).mDelayedQueue = b :: q →
    Act (.closing k o a, s) (.released k o a, s.setManager o ⟨none, b :: q⟩)
  | activate {s k o a b q} : o < s.objects.next → s.manager o = ⟨none, b :: q⟩ →
    Act (.released k o a, s) (.activated k o a b, s.setManager o ⟨some b, q⟩)
  | shift {s k o a b} : b < s.actions.next →
    (s.actions.cell b).mStartTime ≤ (s.actions.cell a).getEndTime →
    Act (.activated k o a b, s)
      (.starting o a (Stage.ending k a b) b, s.shift b (s.actions.cell a).getEndTime)

/-- Transitions on end. -/
abbrev Acts : Stage × Core ω → Stage × Core ω → Prop := ReflTransGen Act

/-! ## Quiet changes -/

namespace Quiet

variable {s s' s'' : Core ω}

theorem refl (s : Core ω) : Quiet s s :=
  ⟨rfl, rfl, rfl, rfl, Nat.le_refl _, fun _ _ => .refl _, Nat.le_refl _, fun _ _ => ⟨rfl, rfl⟩,
    fun _ _ => .inl rfl⟩

theorem writeAction {p : ActionPtr} {a : Action} (h : (s.actions.cell p).Tamed a) :
    Quiet s (s.writeAction p a) where
  mActions := rfl
  mCurrentActionTime := rfl
  mCurrentActionId := rfl
  history := rfl
  actions := Nat.le_refl _
  action q _ := by
    simp only [Core.writeAction_actions, Heap.write_cell]
    split
    · next hq => rw [hq]; exact h
    · exact .refl _
  objects := Nat.le_refl _
  object _ _ := ⟨rfl, rfl⟩
  unmade _ _ := .inl rfl

theorem writeObject {p : ObjectPtr} {o : BaseObject}
    (hm : o.mActionManager = s.manager p) (hc : o.mCurrentAction = s.current p) :
    Quiet s (s.writeObject p o) := by
  have hsame : ∀ q, (s.writeObject p o).manager q = s.manager q ∧
      (s.writeObject p o).current q = s.current q := by
    intro q
    simp only [Core.manager, Core.current, Core.writeObject_objects, Heap.write_cell]
    split
    · next hq => subst hq; exact ⟨hm, hc⟩
    · exact ⟨rfl, rfl⟩
  exact ⟨rfl, rfl, rfl, rfl, Nat.le_refl _, fun _ _ => .refl _, Nat.le_refl _, fun q _ => hsame q,
    fun q _ => .inl (hsame q).1⟩

theorem writeObjectList (s : Core ω) (l : ObjectList) : Quiet s (s.writeObjectList l) :=
  { refl s with }

theorem world (s : Core ω) (w : ω) : Quiet s { s with world := w } :=
  { refl s with }

theorem allocAction (s : Core ω) (a : Action) : Quiet s { s with actions := s.actions.alloc a } :=
  { refl s with
    actions := Nat.le_succ _
    action p hp := by
      change (s.actions.cell p).Tamed ((s.actions.alloc a).cell p)
      rw [Heap.alloc_cell_of_lt hp]
      exact .refl _ }

theorem allocObject (s : Core ω) {o : BaseObject} (ho : o.mActionManager = {}) :
    Quiet s { s with objects := s.objects.alloc o } :=
  { refl s with
    objects := Nat.le_succ _
    object p hp := by
      simp only [Core.manager, Core.current, Heap.alloc_cell_of_lt hp, and_self]
    unmade p _ := by
      simp only [Core.manager]
      rcases eq_or_ne p s.objects.next with rfl | hne
      · exact .inr (by rw [Heap.alloc_cell_self, ho])
      · exact .inl (by simp [Heap.alloc, Function.update_of_ne hne]) }

theorem onAction {α : Type} (s : Core ω) {p : ActionPtr} {x : EStateM Failure Action α}
    (h : ∀ a : Action, a.Tamed (x a).state) : Quiet s (onAction p x s).state :=
  Post.state <| post_onAction (fun _ => post_of_state (.writeAction (h _))) (.refl s)

theorem onObject {α : Type} (s : Core ω) {p : ObjectPtr} {x : EStateM Failure BaseObject α}
    (h : ∀ o, (x o).state.mActionManager = o.mActionManager ∧
      (x o).state.mCurrentAction = o.mCurrentAction) : Quiet s (onObject p x s).state :=
  Post.state <| post_onObject (fun _ => post_of_state (.writeObject (h _).1 (h _).2)) (.refl s)

theorem onObjectList {α : Type} (s : Core ω) (x : EStateM Failure ObjectList α) :
    Quiet s (onObjectList x s).state := by
  simp only [Cosidia.onObjectList]
  rw [zoom_state]
  exact writeObjectList s _

end Quiet

/-! ## The code of objects -/

/-- What `scheduleStartHandler` can do: nothing of interest, or give the action an id and put its
first handler into the list. -/
theorem scheduleStartHandler_acts (st : Stage) (s : Core ω) (p : ActionPtr) :
    Acts (st, s) (st, (Action.scheduleStartHandler p s).state) := by
  by_cases hp : p < s.actions.next
  swap
  · unfold Action.scheduleStartHandler
    rw [bind_apply, getAction_of_not_lt hp]
    exact .refl
  have hstate : (s.actions.cell p).kind.scheduled ≠ .waiting := by
    cases (s.actions.cell p).kind <;> nofun
  rw [Action.scheduleStartHandler_cases hp]
  split_ifs with hid hw ht
  · exact .single (.schedule hp hw hstate (by rwa [Core.timeOf_startHandler]))
  · exact .single (.rejectStart hp hw hstate)
  · exact .single (.quiet (.writeAction ⟨rfl, rfl, rfl, rfl, rfl, nofun⟩))
  · exact .refl

theorem ObjectPrim.acts {α : Type} {x : CoreM ω α} (h : ObjectPrim x) (st : Stage) (s : Core ω) :
    Acts (st, s) (st, (x s).state) := by
  cases h with
  | getAction p => exact .single (.quiet (.onAction s fun _ => .refl _))
  | getObject p => exact .single (.quiet (.onObject s fun _ => ⟨rfl, rfl⟩))
  | create kind duration start id generator =>
    rcases ActionFactory.create_state kind duration start id generator s with h | ⟨a, -, -, h⟩
    · rw [h]
    · rw [h]
      exact .single (.quiet (.allocAction _ _))
  | setType p type => exact .single (.quiet (.onAction s fun _ => ⟨rfl, rfl, rfl, rfl, rfl, id⟩))
  | setActionData p data =>
    refine .single (.quiet (.onAction s fun a => ?_))
    cases h : a.mActionData <;>
      simp only [Action.setActionData, bind_apply, get_apply, h, Option.isSome_none,
        Option.isSome_some, Bool.false_eq_true, if_true, if_false] <;>
      exact ⟨rfl, rfl, rfl, rfl, rfl, id⟩
  | scheduleStartHandler p => exact scheduleStartHandler_acts st s p
  | makeObject name externalId => exact .single (.quiet (.allocObject s rfl))
  | setObjectId p id | addParent p id | addChild p id =>
    exact .single (.quiet (.onObject s fun _ => ⟨rfl, rfl⟩))
  | setExternalId p id =>
    refine .single (.quiet (.onObject s fun o => ?_))
    cases h : o.isInitialized <;>
      simp only [BaseObject.setExternalId, bind_apply, get_apply, h, enforce, Bool.not_true,
        Bool.not_false, Bool.false_eq_true, if_true, if_false] <;>
      exact ⟨rfl, rfl⟩
  | getNextObjectId | removeObjectFromSimulation id => exact .single (.quiet (.onObjectList s _))
  | addObject p | addUniqueObject p =>
    obtain ⟨l, h⟩ := Core.addInitialized_state p _ _ s
    exact .single (.quiet (h ▸ .writeObjectList s l))
  | world f => exact .single (.quiet (.world s _))

/-- The code of an object leaves the stage as it is. -/
theorem ObjectProgram.acts {α : Type} {x : CoreM ω α} (h : ObjectProgram x) (st : Stage)
    (s : Core ω) : Acts (st, s) (st, (x s).state) :=
  h.related (R := fun s s' => Acts (st, s) (st, s')) (fun _ => .refl) (fun h1 h2 => h1.trans h2)
    (fun hx s => hx.acts st s) s

/-- No manager has changed, and those of new objects are empty. -/
structure SameManagers (s s' : Core ω) : Prop where
  objects : s.objects.next ≤ s'.objects.next
  object : ∀ o < s.objects.next, s'.manager o = s.manager o
  unmade : ∀ o, s.objects.next ≤ o → s'.manager o = s.manager o ∨ s'.manager o = {}

namespace SameManagers

variable {s s' s'' : Core ω}

theorem of_eq (hnext : s'.objects.next = s.objects.next) (h : ∀ o, s'.manager o = s.manager o) :
    SameManagers s s' :=
  ⟨hnext.ge, fun o _ => h o, fun o _ => .inl (h o)⟩

theorem refl (s : Core ω) : SameManagers s s := .of_eq rfl fun _ => rfl

theorem trans (h : SameManagers s s') (h' : SameManagers s' s'') : SameManagers s s'' where
  objects := h.objects.trans h'.objects
  object o ho := (h'.object o (ho.trans_le h.objects)).trans (h.object o ho)
  unmade o ho := by
    rcases lt_or_ge o s'.objects.next with ho' | ho'
    · rw [h'.object o ho']
      exact h.unmade o ho
    · rcases h'.unmade o ho' with hm | hm
      · rw [hm]
        exact h.unmade o ho
      · exact .inr hm

end SameManagers

theorem Quiet.managers {s s' : Core ω} (h : Quiet s s') : SameManagers s s' :=
  ⟨h.objects, fun o ho => (h.object o ho).1, h.unmade⟩

/-- The code of an object leaves the managers alone. -/
theorem ObjectProgram.managers {α : Type} {x : CoreM ω α} (h : ObjectProgram x) (s : Core ω) :
    SameManagers s (x s).state := by
  -- a handler that is idle stays idle
  have hacts : ∀ {c : Stage × Core ω}, Acts (.idle, s) c → c.1 = .idle ∧ SameManagers s c.2 := by
    intro c h
    induction h with
    | refl => exact ⟨rfl, .refl s⟩
    | tail _ hact ih =>
      cases hact with
      | quiet hq => exact ⟨ih.1, ih.2.trans hq.managers⟩
      | schedule | rejectStart => exact ⟨ih.1, ih.2.trans (.of_eq rfl fun _ => rfl)⟩
      | _ => cases ih.1
  exact (hacts (h.acts .idle s)).2

/-! ## The entry points -/

theorem post_onManager {α : Type} {s : Core ω} {o : ObjectPtr} {Q : α → Core ω → Prop}
    {E : Failure → Core ω → Prop} {x : EStateM Failure ObjectActionManager α}
    (h : o < s.objects.next → Post x (s.manager o) (fun r m => Q r (s.setManager o m))
      fun e m => E e (s.setManager o m))
    (hnull : E .nullDereference s) : Post (onObject o (BaseObject.onActionManager x)) s Q E :=
  post_onObject (fun ho => post_zoom (h ho)) hnull

theorem onManager_activate {s : Core ω} {o : ObjectPtr} {b : ActionPtr} {q : List ActionPtr}
    (ho : o < s.objects.next) (hm : s.manager o = ⟨none, b :: q⟩) :
    onObject o (BaseObject.onActionManager ObjectActionManager.activateNextAvailableAction) s =
      .ok b (s.setManager o ⟨some b, q⟩) := by
  simp only [onObject]
  rw [if_pos ho]
  refine zoom_eq_ok.2 ⟨_, zoom_eq_ok.2 ⟨⟨some b, q⟩, ?_, rfl⟩, rfl⟩
  rw [show (s.objects.cell o).mActionManager = ⟨none, b :: q⟩ from hm,
    ObjectActionManager.activateNextAvailableAction_idle]

section
variable {V : Virtuals ω} (hV : V.Lawful) {c : Stage × Core ω} {s : Core ω}

/-- What is left when the code of a handler that started at `c` throws. -/
def Fails (c : Stage × Core ω) (_ : Failure) (s : Core ω) : Prop := ∃ st, Acts c (st, s)

theorem post_getAction {st : Stage} (h : Acts c (st, s)) (p : ActionPtr) :
    Post (getAction p) s
      (fun a s' => s' = s ∧ a = s.actions.cell p ∧ p < s.actions.next) (Fails c) :=
  post_onAction (fun hp => ⟨by rw [Core.writeAction, Heap.write_cell_eq], rfl, hp⟩) ⟨st, h⟩

theorem post_getObject {st : Stage} (h : Acts c (st, s)) (p : ObjectPtr) :
    Post (getObject p) s (fun o s' => s' = s ∧ o = s.objects.cell p) (Fails c) :=
  post_onObject (fun _ => ⟨by rw [Core.writeObject, Heap.write_cell_eq], rfl⟩) ⟨st, h⟩

theorem post_check {st : Stage} (h : Acts c (st, s)) (b : Bool) (msg : String) :
    Post (enforce b msg) s (fun _ s' => s' = s) (Fails c) :=
  post_enforce (fun _ => rfl) fun _ => ⟨st, h⟩

theorem post_objectProgram {α : Type} {x : CoreM ω α} (hx : ObjectProgram x) {st : Stage}
    (h : Acts c (st, s)) : Post x s (fun _ s' => Acts c (st, s')) (Fails c) :=
  (post_of_state (I := fun s' => Acts c (st, s')) (h.trans (hx.acts st s))).mono
    (fun _ _ h => h) fun _ _ h => ⟨st, h⟩

theorem post_noteCurrentAction {o : ObjectPtr} {x : ActionPtr} {st st' : Stage}
    (h : Acts c (st, s))
    (hact : Act (st, s) (st', s.setCurrent o (s.actions.cell x).mActionId)) :
    Post (BaseObject.noteCurrentAction o x) s (fun _ s' => Acts c (st', s')) (Fails c) := by
  apply Post.bind (post_getAction h x)
  rintro _ _ ⟨rfl, rfl, -⟩
  exact post_onObject (fun _ => h.tail hact) ⟨st, h⟩

theorem post_scheduleEndHandler {o : ObjectPtr} {y a : ActionPtr}
    (h : Acts c (.noted o y a, s)) :
    Post (Action.scheduleEndHandler y) s (fun _ s' => Acts c (.armed o a, s')) (Fails c) := by
  apply Post.bind (post_getAction h y)
  rintro _ _ ⟨rfl, rfl, hy⟩
  split
  case h_1 hk =>
    apply Post.bind (post_getAction h y)
    rintro _ _ ⟨rfl, -, -⟩
    apply Post.bind (post_check h _ _)
    rintro _ _ rfl
    simp only [Post]
    rw [Core.scheduleAction_apply, if_pos (by exact hy)]
    split_ifs with ht
    · exact h.tail (.scheduleEnd hy hk ht)
    · exact ⟨_, h.tail .rejectEnd⟩
  case h_2 hk => exact h.tail (.skipEnd hk)

include hV

theorem post_startExecution {o : ObjectPtr} {a : ActionPtr} (h : Acts c (.armed o a, s)) :
    Post (BaseObject.startExecution V o a) s (fun _ s' => Acts c (.idle, s')) (Fails c) :=
  Post.bind (M := fun _ s' => Acts c (.idle, s')) (h.tail .callStart) fun _ _ h =>
    post_objectProgram (hV.startExecution _ _) h

theorem post_starting {o : ObjectPtr} {x y a : ActionPtr} (h : Acts c (.starting o x y a, s)) :
    Post (do BaseObject.noteCurrentAction o x
             Action.scheduleEndHandler y
             BaseObject.startExecution V o a) s (fun _ s' => Acts c (.idle, s')) (Fails c) :=
  Post.bind (post_noteCurrentAction h .note) fun _ _ h =>
    Post.bind (post_scheduleEndHandler h) fun _ _ h => post_startExecution hV h

omit hV in
theorem post_endAndCheckAvailable {k : HandlerKind} {o : ObjectPtr} {a : ActionPtr}
    (h : Acts c (.closing k o a, s)) :
    Post (BaseObject.endAndCheckAvailable o) s (fun available s' =>
      (available = true → ∃ b q, s'.manager o = ⟨none, b :: q⟩ ∧ Acts c (.released k o a, s')) ∧
        (available = false → Acts c (.idle, s'))) (Fails c) := by
  refine post_onManager (fun _ => ?_) ⟨_, h⟩
  rw [Post, ObjectActionManager.endAndCheckAvailable_apply]
  cases hq : (s.manager o).mDelayedQueue with
  | nil => exact ⟨by simp [ObjectActionManager.isActionAvailable, hq], fun _ => h.tail (.release hq)⟩
  | cons b q =>
    refine ⟨fun _ => ⟨b, q, ?_, h.tail (.releaseSome hq)⟩, ?_⟩
    · rw [Core.setManager_manager, if_pos rfl]
    · simp [ObjectActionManager.isActionAvailable, hq]

omit hV in
theorem post_activateShifted {k : HandlerKind} {o : ObjectPtr} {a b : ActionPtr}
    {q : List ActionPtr} (hm : s.manager o = ⟨none, b :: q⟩) (h : Acts c (.released k o a, s)) :
    Post (BaseObject.activateShifted o a) s
      (fun update s' => Acts c (.starting o a (Stage.ending k a update) update, s')) (Fails c) := by
  refine Post.bind (M := fun update s' => update = b ∧ Acts c (.activated k o a b, s'))
    (post_onManager (fun ho => ?_) ⟨_, h⟩) ?_
  · rw [hm, Post, ObjectActionManager.activateNextAvailableAction_idle]
    exact ⟨rfl, h.tail (.activate ho hm)⟩
  · rintro update s ⟨rfl, h⟩
    apply Post.bind (post_getAction h a)
    rintro _ _ ⟨rfl, rfl, -⟩
    refine Post.bind (M := fun _ s' =>
        Acts c (.starting o a (Stage.ending k a update) update, s'))
      (post_onAction (fun hu => ?_) ⟨_, h⟩) fun _ _ h => h
    rw [Post, Action.shiftStartTime_apply]
    split_ifs with ht
    · exact h.tail (.shift hu ht)
    · exact ⟨_, by rwa [Core.writeAction, Heap.write_cell_eq]⟩

/-- After a virtual method: the next waiting action is started, if there is one. -/
theorem post_closing {k : HandlerKind} {o : ObjectPtr} {a : ActionPtr}
    (h : Acts c (.closing k o a, s)) :
    Post (do
      if ← BaseObject.endAndCheckAvailable o then
        BaseObject.startShifted V k o a (← BaseObject.activateShifted o a)) s
      (fun _ s' => Acts c (.idle, s')) (Fails c) := by
  apply Post.bind (post_endAndCheckAvailable h)
  rintro available s ⟨htrue, hfalse⟩
  cases available with
  | false => exact hfalse rfl
  | true =>
    obtain ⟨b, q, hm, h⟩ := htrue rfl
    exact Post.bind (post_activateShifted hm h) fun _ _ h => post_starting hV h

omit hV in
theorem post_startOrDelay {k : HandlerKind} {o : ObjectPtr} {a : ActionPtr} {st : Stage}
    (h : Acts c (.taken k o a, s)) (hk : k ≠ .handlerEnd)
    (hst : ∀ s : Core ω, o < s.objects.next → s.manager o = ⟨none, []⟩ →
      Act (.taken k o a, s) (st, s.setManager o ⟨some a, []⟩)) :
    Post (BaseObject.startOrDelay o a) s
      (fun delayed s' => Acts c (if delayed then .idle else st, s')) (Fails c) := by
  refine post_onManager (fun ho => ?_) ⟨_, h⟩
  rcases hm : s.manager o with ⟨_ | b, _ | ⟨b', q⟩⟩
  · rw [Post, ObjectActionManager.startOrDelay_idle]
    exact h.tail (hst s ho hm)
  · rw [Post, ObjectActionManager.startOrDelay_stuck]
    exact ⟨_, h.tail (.stuck ho hk hm)⟩
  · rw [Post, ObjectActionManager.startOrDelay_busy]
    exact h.tail (.delay ho hk hm)
  · rw [Post, ObjectActionManager.startOrDelay_busy]
    exact h.tail (.delay ho hk hm)

theorem post_startExecutionBase {o : ObjectPtr} {a : ActionPtr}
    (h : Acts c (.taken .handlerStart o a, s)) :
    Post (BaseObject.startExecutionBase V o a) s (fun _ s' => Acts c (.idle, s')) (Fails c) := by
  apply Post.bind (post_getObject h o)
  rintro _ _ ⟨rfl, -⟩
  apply Post.bind (post_check h _ _)
  rintro _ _ rfl
  apply Post.bind (post_getObject h o)
  rintro _ _ ⟨rfl, -⟩
  apply Post.bind (post_check h _ _)
  rintro _ _ rfl
  refine Post.bind (M := fun _ s' => Acts c (.taken .handlerStart o a, s'))
    (post_onObject (fun _ => h.tail (.quiet (.writeObject rfl rfl))) ⟨_, h⟩) fun _ s h => ?_
  apply Post.bind (post_startOrDelay h nofun fun _ => .start)
  intro delayed s h
  cases delayed with
  | true => exact h
  | false => exact post_starting hV h

theorem post_endExecutionBase {o : ObjectPtr} {a : ActionPtr} (compareIds : Bool)
    (h : Acts c (.taken .handlerEnd o a, s)) :
    Post (BaseObject.endExecutionBase V compareIds o a) s (fun _ s' => Acts c (.idle, s'))
      (Fails c) := by
  have hrest : ∀ s, Acts c (.taken .handlerEnd o a, s) → Post (do
      BaseObject.endExecution V o a
      if ← BaseObject.endAndCheckAvailable o then
        let update ← BaseObject.activateShifted o a
        BaseObject.noteCurrentAction o a
        Action.scheduleEndHandler a
        BaseObject.startExecution V o update) s (fun _ s' => Acts c (.idle, s')) (Fails c) := by
    intro s h
    refine Post.bind (M := fun _ s' => Acts c (.closing .handlerEnd o a, s')) ?_
      fun _ _ h => post_closing (k := .handlerEnd) hV h
    exact Post.bind (M := fun _ s' => Acts c (.closing .handlerEnd o a, s')) (h.tail .callEnd)
      fun _ _ h => post_objectProgram (hV.endExecution _ _) h
  cases compareIds with
  | false => exact hrest s h
  | true =>
    apply Post.bind (post_getAction h a)
    rintro _ _ ⟨rfl, -, -⟩
    apply Post.bind (post_getObject h o)
    rintro _ _ ⟨rfl, -⟩
    apply Post.bind (post_check h _ _)
    rintro _ _ rfl
    exact hrest _ h

theorem post_initObjectBase {o : ObjectPtr} {a : ActionPtr}
    (h : Acts c (.taken .handlerInit o a, s)) :
    Post (BaseObject.initObjectBase V o a) s (fun _ s' => Acts c (.idle, s')) (Fails c) := by
  apply Post.bind (post_startOrDelay h nofun fun _ => .init)
  intro delayed s h
  cases delayed with
  | true => exact h
  | false =>
    apply Post.bind (post_noteCurrentAction h .noteInit)
    intro _ s h
    refine Post.bind (M := fun _ s' => Acts c (.closing .handlerInit o a, s')) ?_
      fun _ _ h => post_closing (k := .handlerInit) hV h
    exact Post.bind (M := fun _ s' => Acts c (.closing .handlerInit o a, s')) (h.tail .callInit)
      fun _ _ h => post_objectProgram (hV.initObject _ _) h

/-- The entry points consist of the transitions listed in `Act`. -/
theorem post_invoke {o : ObjectPtr} {handler : ActionHandler} (compareIds : Bool)
    (h : Acts c (.taken handler.kind o handler.mCorrespondingAction, s)) :
    Post (BaseObject.invoke V compareIds handler o) s (fun _ s' => Acts c (.idle, s'))
      (Fails c) := by
  simp only [BaseObject.invoke]
  cases hk : handler.kind with
  | handlerStart => exact post_startExecutionBase hV (hk ▸ h)
  | handlerEnd => exact post_endExecutionBase hV compareIds (hk ▸ h)
  | handlerInit => exact post_initObjectBase hV (hk ▸ h)

end

end Cosidia
