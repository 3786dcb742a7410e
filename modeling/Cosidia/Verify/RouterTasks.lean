import Cosidia.Networking.Router
import Cosidia.Verify.Specs

/-!
# What the tasks of a router do to its tracker

Everything a task does before it asks the runtime for the next deadline leaves the tracker alone
(`Prepares`). The question comes last, and only its answer moves the tracker (`Asks`).
-/

namespace Cosidia

open EStateM

namespace Router

/-! ## Before the runtime is asked -/

/-- What changes of a router before the runtime is asked. -/
structure Prepared (r r' : Router) : Prop where
  mTracker : r'.mTracker = r.mTracker
  mRadioObject : r'.mRadioObject = r.mRadioObject
  mFuture : r'.mFuture = r.mFuture
  fibers : r'.fibers = r.fibers
  launched : r'.launched = r.launched
  fetched : r'.fetched = r.fetched
  reports : r'.reports = r.reports
  mInitDone : r.mInitDone = true → r'.mInitDone = true
  mRouter : r.mRouter = true → r'.mRouter = true
  initialised : r'.mInitDone = true → r.mInitDone = true ∨ r'.mRouter = true
  indicated : r.indicated <+: r'.indicated

namespace Prepared

variable {r r' r'' : Router}

theorem refl (r : Router) : Prepared r r :=
  ⟨rfl, rfl, rfl, rfl, rfl, rfl, rfl, id, id, .inl, List.prefix_refl _⟩

theorem trans (h : Prepared r r') (h' : Prepared r' r'') : Prepared r r'' where
  mTracker := h'.mTracker.trans h.mTracker
  mRadioObject := h'.mRadioObject.trans h.mRadioObject
  mFuture := h'.mFuture.trans h.mFuture
  fibers := h'.fibers.trans h.fibers
  launched := h'.launched.trans h.launched
  fetched := h'.fetched.trans h.fetched
  reports := h'.reports.trans h.reports
  mInitDone hr := h'.mInitDone (h.mInitDone hr)
  mRouter hr := h'.mRouter (h.mRouter hr)
  initialised hr := (h'.initialised hr).elim
    (fun hr' => (h.initialised hr').imp_right h'.mRouter) .inr
  indicated := h.indicated.trans h'.indicated

end Prepared

/-- The methods of the parts of a router that a task calls before it asks the runtime. -/
inductive Prim : {α : Type} → EStateM Failure Router α → Prop
  | onRuntime {α : Type} (x : EStateM Failure Runtime α) : Prim (onRuntime x)
  | onAccessInterface {α : Type} (x : EStateM Failure AccessInterface α) :
    Prim (onAccessInterface x)
  | update (f : Router → Router) : (∀ r, Prepared r (f r)) → Prim (modify f)

theorem Prim.prepared {α : Type} {x : EStateM Failure Router α} (h : Prim x) (r : Router) :
    Prepared r (x r).state := by
  cases h with
  | onRuntime x =>
    simp only [Router.onRuntime]
    split
    · exact .refl r
    · rw [zoom_state]
      exact { Prepared.refl r with }
  | onAccessInterface x =>
    simp only [Router.onAccessInterface]
    split
    · exact .refl r
    · rw [zoom_state]
      exact { Prepared.refl r with }
  | update f hf => exact hf r

/-- Programs of the primitives. -/
abbrev Program {α : Type} (x : EStateM Failure Router α) : Prop := Composed Prim x

theorem Program.prepared {α : Type} {x : EStateM Failure Router α} (h : Program x) (r : Router) :
    Prepared r (x r).state :=
  h.related .refl .trans (fun hx r => hx.prepared r) r

theorem program_call (reply : Reply) : Program (call reply) := by
  have hforM : ∀ l : List DataPtr, Program (l.forM fun transmission =>
      onAccessInterface (AccessInterface.request transmission)) := by
    intro l
    induction l with
    | nil => exact .pure _
    | cons _ l ih => exact .bind (.prim (.onAccessInterface _)) fun _ => ih
  refine .bind (hforM _) fun _ => .bind (.prim (.onRuntime _)) fun _ => ?_
  split
  · exact .throw _
  · exact .pure _

theorem program_callRouter (reply : Reply) : Program (callRouter reply) := by
  refine .bind .get fun r => ?_
  cases r.mRouter with
  | false => exact .bind (.throw _) fun _ => program_call reply
  | true => exact program_call reply

theorem program_trigger (tp : ItsTime) (reply : Reply) : Program (trigger tp reply) :=
  .bind (.prim (.onRuntime _)) fun _ => .bind (Composed.enforce _ _) fun _ =>
    .bind (.prim (.onRuntime _)) fun _ => .bind (program_call _) fun _ => .prim (.onRuntime _)

theorem program_triggerSim (tp : TimePoint) (reply : Reply) : Program (triggerSim tp reply) :=
  .bind (.prim (.onRuntime _)) fun _ => .bind (Composed.enforce _ _) fun _ => program_trigger _ _

theorem program_triggerPending (reply : Reply) (turns : Nat) :
    Program (triggerPending reply turns) := by
  induction turns with
  | zero => exact .pure _
  | succ turns ih =>
    refine .bind (.prim (.onRuntime _)) fun t => ?_
    split
    · exact .bind (.prim (.onRuntime _)) fun _ => .bind (program_trigger _ _) fun _ =>
        .bind (.prim (.onAccessInterface _)) fun _ => ih
    · exact .pure _

theorem program_construct (constructed : Bool) {f : Router → Router} (hf : ∀ r, Prepared r (f r)) :
    Program (construct constructed f) :=
  .bind (Composed.enforce _ _) fun _ => .prim (.update f hf)

theorem program_indicate (transmission : DataPtr) (reply : Reply) :
    Program (indicate transmission reply) := by
  refine .bind .get fun r => ?_
  have hrest : Program (do
      modify fun r : Router => { r with indicated := r.indicated ++ [transmission] }
      call reply) :=
    .bind (.prim (.update _ fun r => { Prepared.refl r with indicated := List.prefix_append _ _ }))
      fun _ => program_call reply
  cases r.mRouter with
  | false => exact .bind (.throw _) fun _ => hrest
  | true => exact hrest

theorem program_constructAll (start : TimePoint) (id : ObjectId) (replies : Replies) :
    Program (constructAll start id replies) :=
  .bind .get fun _ => .bind (program_construct _ fun r => { Prepared.refl r with }) fun _ =>
    .bind .get fun _ =>
    .bind (program_construct _ fun r => { Prepared.refl r with mRouter := fun _ => rfl, initialised := .inl }) fun _ =>
    .bind (program_call _) fun _ =>
    .bind .get fun _ => .bind (program_construct _ fun r => { Prepared.refl r with }) fun _ =>
    .prim (.onAccessInterface _)

/-- Once everything has been constructed, so has `mRouter`. -/
theorem constructAll_mRouter (start : TimePoint) (id : ObjectId) (replies : Replies) (r : Router) :
    Post (constructAll start id replies) r (fun _ r' => r'.mRouter = true) fun _ _ => True := by
  have hconstruct : ∀ (constructed : Bool) (f : Router → Router) (r : Router),
      Post (construct constructed f) r (fun _ r' => r' = f r) fun _ _ => True := fun _ _ r =>
    Post.bind (M := fun _ r' => r' = r) (post_enforce (fun _ => rfl) fun _ => trivial)
      fun _ _ h => by rw [h]; rfl
  have hrest : Program (do
      call replies.construct
      construct (← get).mAccessInterface.isSome fun r => { r with mAccessInterface := some {} }
      onAccessInterface (AccessInterface.initializeCache id)) :=
    .bind (program_call _) fun _ => .bind .get fun _ =>
      .bind (program_construct _ fun r => { Prepared.refl r with }) fun _ =>
        .prim (.onAccessInterface _)
  apply Post.bind (M := fun _ _ => True) (post_get trivial)
  intro _ r _
  apply Post.bind (hconstruct _ _ r)
  intro _ r₁ _
  apply Post.bind (M := fun _ _ => True) (post_get trivial)
  intro _ r₂ _
  apply Post.bind (hconstruct _ _ r₂)
  rintro _ _ rfl
  exact Post.mono (post_of_state (I := fun r' => r'.mRouter = true)
    ((hrest.prepared _).mRouter rfl)) (fun _ _ h => h) fun _ _ _ => trivial

/-- Change the router `this`. -/
def update (this : ObjectPtr) (f : Router → Router) (s : Core Network) : Core Network :=
  { s with world := Function.update s.world this (f (s.world this)) }

@[simp] theorem update_world {this : ObjectPtr} {s : Core Network} (f : Router → Router) :
    (update this f s).world this = f (s.world this) :=
  Function.update_self ..

/-- What changes of the core before the runtime of `this` is asked. -/
structure Prepares (this : ObjectPtr) (s s' : Core Network) : Prop where
  router : Prepared (s.world this) (s'.world this)
  actions : s.actions.next ≤ s'.actions.next
  action : ∀ p < s.actions.next, s'.actions.cell p = s.actions.cell p
  objects : s'.objects = s.objects

namespace Prepares

variable {this : ObjectPtr} {s s' s'' : Core Network}

theorem refl (s : Core Network) : Prepares this s s :=
  ⟨.refl _, Nat.le_refl _, fun _ _ => rfl, rfl⟩

theorem trans (h : Prepares this s s') (h' : Prepares this s' s'') : Prepares this s s'' where
  router := h.router.trans h'.router
  actions := h.actions.trans h'.actions
  action p hp := (h'.action p (hp.trans_le h.actions)).trans (h.action p hp)
  objects := h'.objects.trans h.objects

theorem alloc (s : Core Network) (a : Action) :
    Prepares this s { s with actions := s.actions.alloc a } where
  router := .refl _
  actions := Nat.le_succ _
  action _ hp := Heap.alloc_cell_of_lt hp
  objects := rfl

/-- Changing an action that is new does not count. -/
theorem writeAction (h : Prepares this s s') {p : ActionPtr} (hp : s.actions.next ≤ p)
    (a : Action) : Prepares this s (s'.writeAction p a) where
  router := h.router
  actions := h.actions
  action q hq := (Heap.write_cell_of_ne (hq.trans_le hp).ne).trans (h.action q hq)
  objects := h.objects

theorem onRouter {α : Type} {x : EStateM Failure Router α} (hx : Program x) (s : Core Network) :
    Prepares this s (onRouter this x s).state := by
  simp only [Cosidia.onRouter]
  rw [zoom_state]
  refine ⟨?_, Nat.le_refl _, fun _ _ => rfl, rfl⟩
  simpa using hx.prepared (s.world this)

/-- `mInitDone` is set after `mRouter` has been constructed. -/
theorem initialise (h : Prepares this s s') (hrouter : (s'.world this).mRouter = true) :
    Prepares this s (update this (fun r => { r with mInitDone := true }) s') where
  router := by
    rw [update_world]
    exact { h.router with mInitDone := fun _ => rfl, initialised := fun _ => .inr hrouter }
  actions := h.actions
  action := h.action
  objects := h.objects

end Prepares

/-- The program returns or throws before the runtime is asked. -/
abbrev Preparing (this : ObjectPtr) (s₀ : Core Network) {α : Type} (x : CoreM Network α)
    (s : Core Network) : Prop :=
  Post x s (fun _ s' => Prepares this s₀ s') fun _ s' => Prepares this s₀ s'

section
variable {this : ObjectPtr} {s₀ s : Core Network}

theorem getRouter_apply : onRouter this get s = .ok (s.world this) s := by
  simp [onRouter, zoom, get_apply]

variable (h : Prepares this s₀ s)
include h

theorem preparing_onRouter {α : Type} {x : EStateM Failure Router α} (hx : Program x) :
    Preparing this s₀ (onRouter this x) s :=
  post_of_state (I := fun s' => Prepares this s₀ s') (h.trans (.onRouter hx s))

/-- A method of the router that also establishes `Q`. -/
theorem preparing_onRouter_of_post {α : Type} {x : EStateM Failure Router α} (hx : Program x)
    {Q : Router → Prop} (hQ : Post x (s.world this) (fun _ r => Q r) fun _ _ => True) :
    Post (onRouter this x) s (fun _ s' => Prepares this s₀ s' ∧ Q (s'.world this)) fun _ s' =>
      Prepares this s₀ s' :=
  have hpost : Returns (onRouter this x) s fun _ s' => Q (s'.world this) :=
    post_zoom (Post.mono hQ (fun _ _ h => by simpa using h) fun _ _ _ => trivial)
  Post.mono ((preparing_onRouter h hx).and hpost) (fun _ _ h => h) fun _ _ h => h.1

theorem preparing_getAction (p : ActionPtr) :
    Post (getAction p) s (fun a s' => s' = s ∧ a = s.actions.cell p ∧ p < s.actions.next)
      fun _ s' => Prepares this s₀ s' :=
  post_onAction (fun hp => ⟨by rw [Core.writeAction, Heap.write_cell_eq], rfl, hp⟩) h

theorem preparing_getObject (p : ObjectPtr) :
    Post (getObject p) s (fun o s' => s' = s ∧ o = s.objects.cell p) fun _ s' =>
      Prepares this s₀ s' :=
  post_onObject (fun _ => ⟨by rw [Core.writeObject, Heap.write_cell_eq], rfl⟩) h

theorem preparing_create {duration : Duration} {start : TimePoint} {id generator : ObjectId} :
    Post (ActionFactory.create .durationAction duration start id generator) s
      (fun p s' => s₀.actions.next ≤ p ∧ Prepares this s₀ s') fun _ s' => Prepares this s₀ s' := by
  refine Post.bind (M := fun _ s' => s' = s) (post_enforce (fun _ => rfl) fun _ => h) ?_
  rintro _ s rfl
  refine Post.bind (M := fun _ s' => s' = s) (post_enforce (fun _ => rfl) fun _ => h) ?_
  rintro _ s rfl
  exact ⟨h.actions, h.trans (.alloc s _)⟩

theorem preparing_onNew {p : ActionPtr} (hp : s₀.actions.next ≤ p) {x : EStateM Failure Action Unit} :
    Preparing this s₀ (onAction p x) s :=
  post_onAction (fun _ => post_of_state (I := fun a => Prepares this s₀ (s.writeAction p a))
    (h.writeAction hp _)) h

theorem preparing_createAction {start : TimePoint} {type : Symbol} :
    Preparing this s₀ (createAction this start type) s := by
  refine Post.bind (M := fun p s' => s₀.actions.next ≤ p ∧ Prepares this s₀ s') ?_ ?_
  · apply Post.bind (preparing_getObject h this)
    rintro _ s ⟨rfl, -⟩
    exact preparing_create h
  · rintro p s ⟨hp, h⟩
    exact Post.bind (preparing_onNew h hp) fun _ _ h => h

theorem preparing_scheduleTransmission {data : RouterUpdateData} {action : ActionPtr}
    {receivers : Option Failure} :
    Preparing this s₀ (scheduleTransmission this data action receivers) s := by
  apply Post.bind (preparing_onRouter h (.prim (.onAccessInterface _)))
  intro interface s h
  split
  swap
  · exact h
  apply Post.bind (preparing_onRouter h (.prim (.onAccessInterface _)))
  intro transmission s h
  apply Post.bind (preparing_getAction h action)
  rintro _ s ⟨rfl, -, -⟩
  rw [post_bind_of_ok getRouter_apply]
  split
  · exact h
  apply Post.bind (preparing_getObject h _)
  rintro _ s ⟨rfl, -⟩
  apply Post.bind (preparing_getObject h _)
  rintro _ s ⟨rfl, -⟩
  apply Post.bind (preparing_create h)
  rintro p s ⟨hp, h⟩
  apply Post.bind (preparing_onNew h hp)
  intro _ s h
  split
  · exact Post.bind (preparing_onNew h hp) fun _ _ h => h
  · exact h

end

/-! ## The question to the runtime -/

/-- What `nextStart()` of the tracker of `this` reports. -/
def nextStart (this : ObjectPtr) (s : Core Network) : TimePoint :=
  match (s.world this).mTracker.mNextStart with
  | some action => (s.actions.cell action).mStartTime
  | none => SimClock.zero

/-- The router has an object with a valid id, and its tracker points to actions. -/
structure Placed (this : ObjectPtr) (s : Core Network) : Prop where
  object : this < s.objects.next
  valid : (s.objects.cell this).mObjectId.valid = true
  start : ∀ p, (s.world this).mTracker.mNextStart = some p → p < s.actions.next

/-- What `createAction` makes. -/
def selfAction (id : ObjectId) (start : TimePoint) (type : Symbol) : Action :=
  { kind := .durationAction, mDuration := Duration.milliseconds 2, mStartTime := start,
    mAffectedObject := id, mGeneratingObject := id, mType := type }

@[simp] theorem report_mTracker (d : TimePoint) (r : Router) : (report d r).mTracker = r.mTracker := rfl

/-- `n` becomes the next action of the tracker. -/
def track (n : ActionPtr) (r : Router) : Router :=
  { r with mTracker := ⟨some n, r.mTracker.mNextEnd.or (some n)⟩ }

section
variable {this : ObjectPtr} {s : Core Network}

theorem update_self (s : Core Network) : update this (fun _ => s.world this) s = s := by
  simp [update]

variable (this s) in
theorem onRouter_of_ok {α : Type} {x : EStateM Failure Router α} {a : α} {r : Router}
    (hx : x (s.world this) = .ok a r) :
    onRouter this x s = .ok a (update this (fun _ => r) s) :=
  zoom_eq_ok.2 ⟨r, hx, rfl⟩

theorem onRuntime_of_ok {α : Type} {x : EStateM Failure Runtime α} {a : α} {r : Router}
    {t t' : Runtime} (ht : r.mRuntime = some t) (hx : x t = .ok a t') :
    onRuntime x r = .ok a { r with mRuntime := some t' } := by
  simp only [onRuntime]
  simp only [ht]
  exact zoom_eq_ok.2 ⟨t', hx, rfl⟩

theorem onRuntime_of_error {α : Type} {x : EStateM Failure Runtime α} {e : Failure} {r : Router}
    {t : Runtime} (ht : r.mRuntime = some t) (hx : x t = .error e t) : onRuntime x r = .error e r := by
  simp only [onRuntime]
  simp only [ht]
  exact zoom_eq_error.2 ⟨t, hx, by rw [← ht]⟩

/-- The runtime is only read. -/
theorem onRuntime_of_read {α : Type} {x : EStateM Failure Runtime α} {a : α} {r : Router} {t : Runtime}
    (ht : r.mRuntime = some t) (hx : x t = .ok a t) : onRuntime x r = .ok a r := by
  rw [onRuntime_of_ok ht hx, ← ht]

theorem callNextStart_apply (t : Runtime) : Runtime.callNextStart t =
    if t.NextStartFits then .ok t.getNextStart t else .error .overflow t := by
  rw [Runtime.callNextStart, bind_apply, get_apply]
  dsimp only
  split <;> rfl

theorem callNowToNext_apply (t : Runtime) : Runtime.callNowToNext t =
    if t.NowToNextFits then .ok t.getDurationNowToNext t else .error .overflow t := by
  rw [Runtime.callNowToNext, bind_apply, get_apply]
  dsimp only
  split <;> rfl

theorem onTracker_of_ok {α : Type} {x : EStateM Failure ActiveActionTracker α} {a : α} {r : Router}
    {t : ActiveActionTracker} (hx : x r.mTracker = .ok a t) :
    onTracker x r = .ok a { r with mTracker := t } :=
  zoom_eq_ok.2 ⟨t, hx, rfl⟩

theorem onRouter_modify (f : Router → Router) :
    onRouter this (modify f) s = .ok ⟨⟩ (update this f s) := rfl

theorem createAction_apply (h : Placed this s) (start : TimePoint) (type : Symbol) :
    createAction this start type s =
      if 0 ≤ start then .ok s.actions.next
        { s with actions := s.actions.alloc (selfAction (s.objects.cell this).mObjectId start type) }
      else .error (.runtimeError "Action: negative start time") s := by
  have hobj : getObject this s = .ok (s.objects.cell this) s := getObject_of_lt h.object
  unfold createAction createSelfAction ActionFactory.create
  simp only [bind_apply, hobj, h.valid, enforce_true, pure_apply]
  by_cases hs : 0 ≤ start
  · have hnew : ∀ a : Action, onAction s.actions.next (Action.setType type)
        { s with actions := s.actions.alloc a } =
        .ok ⟨⟩ { s with actions := s.actions.alloc { a with mType := type } } := by
      intro a
      rw [onAction_of_ok (Nat.lt_succ_self s.actions.next) (by rw [Heap.alloc_cell_self]; rfl)]
      simp [Core.writeAction]
    simp only [enforce, ge_iff_le, hs, decide_true, if_true, pure_apply, get_apply, modify_apply, hnew]
    rfl
  · simp [enforce, hs, throw_apply]

/-- The runtime cannot report a deadline that is out of range. -/
theorem scheduleNextUpdate_overflow {t : Runtime} (ht : (s.world this).mRuntime = some t)
    (hfits : ¬ t.NextStartFits) (data : RouterUpdateData) :
    scheduleNextUpdate this data s = .error .overflow s := by
  have hcall := (callNextStart_apply t).trans (if_neg hfits)
  have hget : onRouter this (onRuntime Runtime.callNextStart) s = .error .overflow s := by
    simp only [onRouter]
    exact zoom_eq_error.2 ⟨s.world this, onRuntime_of_error ht hcall, update_self s⟩
  exact bind_eq_error.2 (.inl hget)

/-- The runtime reports `d`: unless the tracker knows it already, an update is made for then. -/
theorem scheduleNextUpdate_apply (h : Placed this s) {t : Runtime}
    (ht : (s.world this).mRuntime = some t) (hfits : t.NextStartFits) (data : RouterUpdateData) :
    scheduleNextUpdate this data s =
      let d := t.getNextStart
      let s' := update this (report d) s
      if d = nextStart this s then .ok data s'
      else if 0 ≤ d then
        .ok { data with actionsToSchedule := data.actionsToSchedule ++ [s.actions.next] }
          { update this (track s.actions.next ∘ report d) s with
            actions := s.actions.alloc (selfAction (s.objects.cell this).mObjectId d "update") }
      else .error (.runtimeError "Action: negative start time") s' := by
  have hcall := (callNextStart_apply t).trans (if_pos hfits)
  have hget : onRouter this (onRuntime Runtime.callNextStart) s = .ok t.getNextStart s := by
    rw [onRouter_of_ok this s (onRuntime_of_read ht hcall), update_self]
  have hnext : (s.world this).mTracker.nextStart (update this (report t.getNextStart) s) =
      .ok (nextStart this s) (update this (report t.getNextStart) s) := by
    unfold ActiveActionTracker.nextStart nextStart
    cases hS : (s.world this).mTracker.mNextStart with
    | none => rfl
    | some p =>
      have hp : getAction p (update this (report t.getNextStart) s) = .ok (s.actions.cell p) _ :=
        getAction_of_lt (h.start p hS)
      simp only [bind_apply, hp, pure_apply]
  have hplaced : Placed this (update this (report t.getNextStart) s) :=
    ⟨h.object, h.valid, by rw [update_world, report_mTracker]; exact h.start⟩
  have hcreate := createAction_apply hplaced t.getNextStart "update"
  simp only [scheduleNextUpdate]
  simp only [bind_apply, hget, onRouter_modify, getRouter_apply, update_world, report_mTracker, hnext]
  by_cases hd : t.getNextStart = nextStart this s
  · simp only [hd, ne_eq, not_true_eq_false, if_true, if_false, pure_apply]
  · simp only [hd, ne_eq, not_false_eq_true, if_true, if_false, bind_apply, hcreate]
    by_cases hd0 : 0 ≤ t.getNextStart
    · have hset := onRouter_of_ok this { update this (report t.getNextStart) s with
          actions := s.actions.alloc (selfAction (s.objects.cell this).mObjectId t.getNextStart
            "update") }
        (onTracker_of_ok (ActiveActionTracker.setNext_apply s.actions.next _))
      simp only [hd0, if_true, update] at hset ⊢
      rw [hset]
      simp [track, Function.update_idem, pure_apply]
    · simp only [hd0, if_false]

end

/-- An update is made for one of the deadlines `ds`. -/
def Supersedes (this : ObjectPtr) (s : Core Network) (ds : List TimePoint) : Prop :=
  ∃ d ∈ ds, 0 ≤ d ∧ d ≠ nextStart this s

/-- What a task does to its router, if the runtime reports `ds` to it. -/
structure Works (this : ObjectPtr) (ds : List TimePoint) (s s' : Core Network) : Prop where
  once : ds.length ≤ 1
  reports : (s'.world this).reports = (s.world this).reports ++ ds
  mFuture : (s'.world this).mFuture = (s.world this).mFuture
  fibers : (s'.world this).fibers = (s.world this).fibers
  launched : (s'.world this).launched = (s.world this).launched
  fetched : (s'.world this).fetched = (s.world this).fetched
  mInitDone : (s.world this).mInitDone = true → (s'.world this).mInitDone = true
  mRouter : (s.world this).mRouter = true → (s'.world this).mRouter = true
  initialised : (s'.world this).mInitDone = true →
    (s.world this).mInitDone = true ∨ (s'.world this).mRouter = true
  indicated : (s.world this).indicated <+: (s'.world this).indicated
  actions : s.actions.next ≤ s'.actions.next
  action : ∀ p < s.actions.next, s'.actions.cell p = s.actions.cell p
  objects : s'.objects = s.objects
  keeps : ¬ Supersedes this s ds → (s'.world this).mTracker = (s.world this).mTracker
  supersedes : Supersedes this s ds → ∃ n, s.actions.next ≤ n ∧ n < s'.actions.next ∧
    (s'.world this).mTracker = ⟨some n, (s.world this).mTracker.mNextEnd.or (some n)⟩ ∧
    (s'.actions.cell n).mType = "update"

section
variable {this : ObjectPtr} {s₀ s s' : Core Network}

theorem Prepares.works (h : Prepares this s s') : Works this [] s s' where
  once := by simp
  reports := by simp [h.router.reports]
  mFuture := h.router.mFuture
  fibers := h.router.fibers
  launched := h.router.launched
  fetched := h.router.fetched
  mInitDone := h.router.mInitDone
  mRouter := h.router.mRouter
  initialised := h.router.initialised
  indicated := h.router.indicated
  actions := h.actions
  action := h.action
  objects := h.objects
  keeps _ := h.router.mTracker
  supersedes := by simp [Supersedes]

theorem Prepares.placed (h : Prepares this s s') (hs : Placed this s) : Placed this s' where
  object := by rw [h.objects]; exact hs.object
  valid := by rw [h.objects]; exact hs.valid
  start p hp := (hs.start p (by rwa [← h.router.mTracker])).trans_le h.actions

theorem Prepares.nextStart (h : Prepares this s s') (hs : Placed this s) :
    nextStart this s' = nextStart this s := by
  simp only [Router.nextStart]
  rw [h.router.mTracker]
  cases hS : (s.world this).mTracker.mNextStart with
  | none => rfl
  | some p => simp only [h.action p (hs.start p hS)]

/-- The program works, whether it returns or throws. -/
abbrev Working (this : ObjectPtr) (s₀ : Core Network) {α : Type} (x : CoreM Network α)
    (s : Core Network) : Prop :=
  Post x s (fun _ s' => ∃ ds, Works this ds s₀ s') fun _ s' => ∃ ds, Works this ds s₀ s'

theorem onRuntime_null {α : Type} {x : EStateM Failure Runtime α}
    (h : (s.world this).mRuntime = none) :
    onRouter this (onRuntime x) s = .error .nullDereference s := by
  simp only [onRouter]
  rw [zoom_eq_error]
  exact ⟨s.world this, by unfold onRuntime; rw [h], update_self s⟩

theorem Works.report (h : Prepares this s₀ s) {d : TimePoint}
    (hd : ¬ (0 ≤ d ∧ d ≠ nextStart this s₀)) : Works this [d] s₀ (update this (report d) s) where
  once := Nat.le_refl _
  reports := by simp [Router.report, h.router.reports]
  mFuture := by simp [Router.report, h.router.mFuture]
  fibers := by simp [Router.report, h.router.fibers]
  launched := by simp [Router.report, h.router.launched]
  fetched := by simp [Router.report, h.router.fetched]
  mInitDone := by simpa [Router.report] using h.router.mInitDone
  mRouter := by simpa [Router.report] using h.router.mRouter
  initialised := by simpa [Router.report] using h.router.initialised
  indicated := by simpa [Router.report] using h.router.indicated
  actions := h.actions
  action := h.action
  objects := h.objects
  keeps _ := by simp [Router.report, h.router.mTracker]
  supersedes hsup := by
    obtain ⟨d', hd', hsup⟩ := hsup
    rw [List.mem_singleton.1 hd'] at hsup
    exact absurd hsup hd

theorem Works.track (h : Prepares this s₀ s) {d : TimePoint} {a : Action}
    (hd : 0 ≤ d ∧ d ≠ nextStart this s₀) (ha : a.mType = "update") :
    Works this [d] s₀ { update this (track s.actions.next ∘ Router.report d) s with
      actions := s.actions.alloc a } where
  once := Nat.le_refl _
  reports := by simp [Router.report, Router.track, h.router.reports]
  mFuture := by simp [Router.report, Router.track, h.router.mFuture]
  fibers := by simp [Router.report, Router.track, h.router.fibers]
  launched := by simp [Router.report, Router.track, h.router.launched]
  fetched := by simp [Router.report, Router.track, h.router.fetched]
  mInitDone := by simpa [Router.report, Router.track] using h.router.mInitDone
  mRouter := by simpa [Router.report, Router.track] using h.router.mRouter
  initialised := by simpa [Router.report, Router.track] using h.router.initialised
  indicated := by simpa [Router.report, Router.track] using h.router.indicated
  actions := h.actions.trans (Nat.le_succ _)
  action p hp := (Heap.alloc_cell_of_lt (hp.trans_le h.actions)).trans (h.action p hp)
  objects := h.objects
  keeps hsup := absurd ⟨d, List.mem_singleton_self d, hd⟩ hsup
  supersedes _ := ⟨s.actions.next, h.actions, Nat.lt_succ_self _,
    by simp [Router.report, Router.track, h.router.mTracker], by simpa using ha⟩

theorem working_scheduleNextUpdate (hs : Placed this s₀) (h : Prepares this s₀ s)
    (data : RouterUpdateData) : Working this s₀ (scheduleNextUpdate this data) s := by
  cases ht : (s.world this).mRuntime with
  | none =>
    unfold Working Post scheduleNextUpdate
    rw [bind_apply, onRuntime_null ht]
    exact ⟨_, h.works⟩
  | some t =>
    unfold Working Post
    by_cases hfits : t.NextStartFits
    swap
    · rw [scheduleNextUpdate_overflow ht hfits]
      exact ⟨_, h.works⟩
    rw [scheduleNextUpdate_apply (h.placed hs) ht hfits, h.nextStart hs]
    dsimp only
    by_cases hnext : t.getNextStart = nextStart this s₀
    · rw [if_pos hnext]
      exact ⟨_, .report h fun hd => hd.2 hnext⟩
    · by_cases hd : 0 ≤ t.getNextStart
      · rw [if_neg hnext, if_pos hd]
        exact ⟨_, .track h ⟨hd, hnext⟩ rfl⟩
      · rw [if_neg hnext, if_neg hd]
        exact ⟨_, .report h fun hd' => hd hd'.1⟩

theorem Preparing.working {α β : Type} {x : CoreM Network α} {f : α → CoreM Network β}
    (hx : Preparing this s₀ x s)
    (hf : ∀ a s', Prepares this s₀ s' → Working this s₀ (f a) s') :
    Working this s₀ (x >>= f) s :=
  Post.bind (M := fun _ s' => Prepares this s₀ s')
    (Post.mono hx (fun _ _ h => h) fun _ _ h => ⟨_, h.works⟩) hf

theorem working_commonActions (hs : Placed this s₀) (h : Prepares this s₀ s)
    (data : RouterUpdateData) (action : ActionPtr) (replies : Replies) :
    Working this s₀ (commonActions this data action replies) s := by
  apply Preparing.working (preparing_onRouter h (program_callRouter _))
  intro _ s h
  refine Post.bind (Post.mono (preparing_getAction h action) (fun _ _ h => h)
    fun _ _ h => ⟨_, h.works⟩) ?_
  rintro _ s ⟨rfl, -, -⟩
  apply Preparing.working (preparing_onRouter h (program_triggerSim _ _))
  intro _ s h
  exact Preparing.working (preparing_scheduleTransmission h) fun data s h =>
    working_scheduleNextUpdate hs h data

/-- Whatever a task is and whatever vanetza does, the task only works. -/
theorem working_runTask (hs : Placed this s) (task : RouterTask) (action : ActionPtr)
    (replies : Replies) : Working this s (runTask this task action replies) s := by
  have h : Prepares this s s := .refl s
  have hget : ∀ s', Prepares this s s' → ∀ p, Post (getAction p) s'
      (fun a s'' => s'' = s' ∧ a = s'.actions.cell p ∧ p < s'.actions.next)
      fun _ s'' => ∃ ds, Works this ds s s'' := fun s' h p =>
    Post.mono (preparing_getAction h p) (fun _ _ h => h) fun _ _ h => ⟨_, h.works⟩
  cases task with
  | executeUpdate => exact working_commonActions hs h _ _ _
  | transmissionReceived =>
    simp only [Working]
    rw [show runTask this .transmissionReceived action replies =
      transmissionReceived this action replies from rfl]
    simp only [transmissionReceived]
    rw [post_bind_of_ok getRouter_apply]
    split
    swap
    · exact ⟨_, h.works⟩
    apply Post.bind (hget s h action)
    rintro _ s' ⟨rfl, -, -⟩
    split
    · exact ⟨_, h.works⟩
    · exact Preparing.working (preparing_onRouter h (program_indicate _ _)) fun _ _ h =>
        working_commonActions hs h _ _ _
  | caUpdate =>
    simp only [Working]
    rw [show runTask this .caUpdate action replies = caUpdate this action replies from rfl]
    simp only [caUpdate]
    rw [post_bind_of_ok getRouter_apply]
    have hrest : ∀ s', Prepares this s s' → Working this s (do
        let start := (← getAction action).mStartTime
        let caAction ← createAction this (start + Duration.milliseconds 100) "caUpdate"
        commonActions this { actionsToSchedule := [caAction] } action replies) s' := by
      intro s' h
      apply Post.bind (hget s' h action)
      rintro _ s' ⟨rfl, -, -⟩
      exact Preparing.working (preparing_createAction h) fun _ _ h => working_commonActions hs h _ _ _
    split
    · exact Preparing.working (preparing_onRouter h (program_callRouter _)) fun _ s' h => hrest s' h
    · exact hrest s h
  | initRouter =>
    apply Post.bind (hget s h action)
    rintro _ s' ⟨rfl, -, -⟩
    refine Post.bind (M := fun _ s'' => s'' = s') (Post.mono (preparing_getObject h this)
      (fun _ _ h => h.1) fun _ _ h => ⟨_, h.works⟩) ?_
    rintro _ s' rfl
    refine Post.bind (Post.mono (preparing_onRouter_of_post h (program_constructAll _ _ _)
      (constructAll_mRouter _ _ _ _)) (fun _ _ h => h) fun _ _ h => ⟨_, h.works⟩) ?_
    rintro _ s' ⟨h, hrouter⟩
    refine Post.bind (M := fun _ s'' => Prepares this s' s'') (Post.mono
      (preparing_onRouter (.refl s') (program_triggerPending _ _)) (fun _ _ h => h)
      fun _ _ h' => ⟨_, (h.trans h').works⟩) fun _ s'' h' => ?_
    rw [post_bind_of_ok (onRouter_modify _)]
    replace h := (h.trans h').initialise (h'.router.mRouter hrouter)
    exact Preparing.working (preparing_createAction h) fun _ s' h =>
      working_scheduleNextUpdate hs h _

end

/-! ## Fibers -/

section
variable {this : ObjectPtr} {s s' : Core Network}

/-- Only exceptions are kept. -/
theorem post_attempt {α : Type} {x : CoreM Network α} {I : Core Network → Prop}
    (hx : Post x s (fun _ => I) fun _ => I) :
    Post (attempt x) s (fun _ => I) fun _ => I := by
  refine Post.tryCatch (E := fun _ => I) (Post.bind hx fun _ _ h => h) fun e _ h => ?_
  cases e <;> exact h

/-- The fiber runs at this call. -/
def RunsFiber (this : ObjectPtr) (number : Nat) (s s' : Core Network) : Prop :=
  ∃ task action ds s₁ result, (s.world this).fibers[number]? = some ⟨task, action, none⟩ ∧
    Works this ds s s₁ ∧ s' = update this (fun r =>
      { r with fibers := r.fibers.set number ⟨task, action, some result⟩ }) s₁

theorem runFiber_spec (hs : Placed this s) (number : Nat) (replies : Replies) :
    Post (runFiber this number replies) s
      (fun _ s' => RunsFiber this number s s' ∨
        (∀ f, (s.world this).fibers[number]? = some f → f.result ≠ none) ∧ s' = s)
      fun _ s' => ∃ ds, Works this ds s s' := by
  simp only [runFiber]
  rw [post_bind_of_ok getRouter_apply]
  split
  case h_1 task action hf =>
    apply Post.bind (post_attempt (working_runTask hs task action replies))
    rintro result s₁ ⟨ds, hw⟩
    exact .inl ⟨task, action, ds, s₁, result, hf, hw, rfl⟩
  case h_2 hf =>
    refine .inr ⟨fun f hsome hnone => ?_, rfl⟩
    obtain ⟨task, action, result⟩ := f
    cases hnone
    exact hf task action hsome

theorem Placed.update (hs : Placed this s) {f : Router → Router}
    (hf : (f (s.world this)).mTracker = (s.world this).mTracker) : Placed this (update this f s) :=
  ⟨hs.object, hs.valid, fun p hp => hs.start p (by rwa [update_world, hf] at hp)⟩

/-- A result is fetched and, at last, its actions are scheduled. -/
def Fetches (this : ObjectPtr) (action : ActionPtr) (replies : Replies) (s s' : Core Network) :
    Prop :=
  ∃ number s₁, (s.world this).mFuture = some number ∧
    runFiber this number replies (update this (noteFetched action) s) = .ok () s₁ ∧
    Schedules (update this (fun r => { r with mFuture := none }) s₁) s'

/-- In any case it is noted that the result of `action` was asked for. -/
def NotesFetched (this : ObjectPtr) (action : ActionPtr) (s s' : Core Network) : Prop :=
  (s'.world this).fetched = (s.world this).fetched ++ [action] ∧
    (s'.world this).launched = (s.world this).launched

theorem Fetches.notes {action : ActionPtr} {replies : Replies} (h : Fetches this action replies s s')
    (hs : Placed this s) : NotesFetched this action s s' := by
  obtain ⟨number, s₁, -, hrun, hsched⟩ := h
  simp only [NotesFetched]
  rw [hsched.world, update_world]
  rcases (runFiber_spec (hs.update rfl) number replies).ok hrun with
    ⟨task, a, ds, s₂, result, -, hw, rfl⟩ | ⟨-, rfl⟩
  · simp only [update_world]
    exact ⟨hw.fetched.trans (by simp [noteFetched]), hw.launched.trans (by simp [noteFetched])⟩
  · simp [noteFetched]

theorem Fetches.schedules {action : ActionPtr} {replies : Replies} {s'' : Core Network}
    (h : Fetches this action replies s s') (h' : Schedules s' s'') :
    Fetches this action replies s s'' := by
  obtain ⟨number, s₁, hf, hrun, hsched⟩ := h
  exact ⟨number, s₁, hf, hrun, hsched.trans h'⟩

theorem post_getFuture (hs : Placed this s) (action : ActionPtr) (replies : Replies) :
    Post (getFuture this action replies) s (fun _ s' => Fetches this action replies s s')
      fun _ s' => NotesFetched this action s s' := by
  have hnoted : NotesFetched this action s (Router.update this (noteFetched action) s) := by
    simp [NotesFetched, noteFetched]
  simp only [getFuture]
  rw [post_bind_of_ok (onRouter_modify _), post_bind_of_ok getRouter_apply]
  have hfuture : ((Router.update this (noteFetched action) s).world this).mFuture =
      (s.world this).mFuture := by simp [noteFetched]
  split
  case h_1 => exact hnoted
  case h_2 number hnumber =>
    rw [hfuture] at hnumber
    cases hrun : runFiber this number replies (Router.update this (noteFetched action) s) with
    | error e s₁ =>
      obtain ⟨ds, hw⟩ := (runFiber_spec (hs.update rfl) number replies).error hrun
      simp only [Post]
      rw [bind_apply, hrun]
      exact ⟨hw.fetched.trans hnoted.1, hw.launched.trans hnoted.2⟩
    | ok _ s₁ =>
      have hfetch : Fetches this action replies s
          (Router.update this (fun r => { r with mFuture := none }) s₁) :=
        ⟨number, s₁, hnumber, hrun, .refl _⟩
      rw [post_bind_of_ok hrun, post_bind_of_ok (onRouter_modify _), post_bind_of_ok getRouter_apply]
      split
      · next result _ =>
        cases result with
        | ok data => exact hfetch
        | error e => exact hfetch.notes hs
      · exact hfetch.notes hs

theorem post_commit (hs : Placed this s) (action : ActionPtr) (replies : Replies)
    (setup : Option Failure) :
    Post (commit this action replies setup) s (fun _ s' => Fetches this action replies s s')
      fun _ s' => NotesFetched this action s s' := by
  have hforM : ∀ (l : List ActionPtr) (s' : Core Network), Fetches this action replies s s' →
      Post (l.forM Action.scheduleStartHandler) s' (fun _ s'' => Fetches this action replies s s'')
        fun _ s'' => Fetches this action replies s s'' := by
    intro l
    induction l with
    | nil => exact fun _ h => h
    | cons p l ih =>
      exact fun s' h => Post.bind (post_of_state (I := fun s'' => Fetches this action replies s s'')
        (h.schedules (.scheduleStartHandler p s'))) fun _ s'' h => ih s'' h
  refine Post.tryCatch (E := fun _ s' => NotesFetched this action s s') ?_ fun e _ h => ?_
  · apply Post.bind (post_getFuture hs action replies)
    intro data s' h
    refine Post.bind (Post.mono (hforM data.actionsToSchedule s' h) (fun _ _ h => h)
      fun _ _ h => h.notes hs) fun _ s' h => ?_
    cases data.actionToDelete.isSome with
    | true => cases data.transmission.isSome <;> exact h.notes hs
    | false =>
      cases data.transmission.isSome with
      | false => exact h
      | true => cases setup <;> first | exact h | exact h.notes hs
  · cases e <;> exact h

end

end Router

end Cosidia
