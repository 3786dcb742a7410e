import Cosidia.Verify.RouterRuns

/-!
# When the follow-up actions of a router start

A task looks at the next deadline of its runtime as soon as its action starts, but what it makes of
the deadline is scheduled when the action ends.
-/

namespace Cosidia

open EStateM

namespace Router

/-! ## The clock of a router -/

section
variable {r : Router} {t : Runtime}

theorem returns_onRuntime (ht : r.mRuntime = some t) (f : Runtime → Runtime) :
    Returns (onRuntime (modify f)) r fun _ r' => r'.mRuntime = some (f t) := by
  unfold Returns Post
  rw [onRuntime_of_ok ht (modify_apply f t)]

theorem getRuntime_apply (ht : r.mRuntime = some t) : onRuntime get r = .ok t r :=
  onRuntime_of_read ht (get_apply t)

theorem onAccessInterface_mRuntime {α : Type} (x : EStateM Failure AccessInterface α) (r : Router) :
    (onAccessInterface x r).state.mRuntime = r.mRuntime := by
  simp only [onAccessInterface]
  split
  · rfl
  · rw [zoom_state]

theorem returns_onAccessInterface {α : Type} (ht : r.mRuntime = some t)
    (x : EStateM Failure AccessInterface α) :
    Returns (onAccessInterface x) r fun _ r' => r'.mRuntime = some t :=
  Post.mono (post_of_state (I := fun r' => r'.mRuntime = some t)
    ((onAccessInterface_mRuntime x r).trans ht)) (fun _ _ h => h) fun _ _ _ => trivial

theorem returns_call (ht : r.mRuntime = some t) (reply : Reply) :
    Returns (call reply) r fun _ r' => r'.mRuntime = some { t with next := reply.next } := by
  have hforM : ∀ (l : List DataPtr) (r : Router), r.mRuntime = some t →
      Returns (l.forM fun transmission =>
        onAccessInterface (AccessInterface.request transmission)) r
        fun _ r' => r'.mRuntime = some t := by
    intro l
    induction l with
    | nil => exact fun _ h => h
    | cons _ l ih => exact fun r h => Post.bind (returns_onAccessInterface h _) fun _ r' h => ih r' h
  apply Post.bind (hforM _ r ht)
  intro _ r₁ h
  apply Post.bind (returns_onRuntime h _)
  intro _ r₂ h
  cases reply.failure with
  | none => exact h
  | some e => exact trivial

theorem returns_callRouter (ht : r.mRuntime = some t) (reply : Reply) :
    Returns (callRouter reply) r fun _ r' => r'.mRuntime = some { t with next := reply.next } := by
  simp only [callRouter]
  rw [Returns, post_bind_of_ok (get_apply r)]
  cases hr : r.mRouter with
  | false => exact trivial
  | true => exact returns_call ht reply

theorem returns_indicate (ht : r.mRuntime = some t) (transmission : DataPtr) (reply : Reply) :
    Returns (indicate transmission reply) r fun _ r' =>
      r'.mRuntime = some { t with next := reply.next } := by
  simp only [indicate]
  rw [Returns, post_bind_of_ok (get_apply r)]
  cases hr : r.mRouter with
  | false => exact trivial
  | true =>
    apply Post.bind (M := fun _ r' => r'.mRuntime = some t) (post_modify ht)
    intro _ _ h
    exact returns_call h reply

/-- `trigger` leaves the deadline that vanetza reports, but none that is due. -/
theorem returns_trigger (ht : r.mRuntime = some t) (tp : ItsTime) (reply : Reply) :
    Returns (trigger tp reply) r fun _ r' => r'.mRuntime =
      some { t with now := tp, next := max reply.next (tp + 1), mLastTrigger := tp } := by
  simp only [trigger]
  rw [Returns, post_bind_of_ok (getRuntime_apply ht)]
  refine Post.bind (M := fun _ r' => r' = r) (post_enforce (fun _ => rfl) fun _ => trivial) ?_
  rintro _ r rfl
  apply Post.bind (returns_onRuntime ht _)
  intro _ r₁ h
  apply Post.bind (returns_call h _)
  intro _ r₂ h
  exact returns_onRuntime h _

theorem returns_triggerSim (ht : r.mRuntime = some t) (tp : TimePoint) (reply : Reply) :
    Returns (triggerSim tp reply) r fun _ r' => ∃ now last, r'.mRuntime = some { t with
      now := now, next := max reply.next (t.advanceTo tp + 1), mLastTrigger := last } := by
  simp only [triggerSim]
  rw [Returns, post_bind_of_ok (getRuntime_apply ht)]
  refine Post.bind (M := fun _ r' => r' = r) (post_enforce (fun _ => rfl) fun _ => trivial) ?_
  rintro _ r rfl
  exact Post.mono (returns_trigger ht _ reply) (fun _ _ h => ⟨_, _, h⟩) fun _ _ _ => trivial

/-- What the loop of `initRouter` leaves of a deadline. -/
def leftPending (reply : Reply) (t : Runtime) : ItsTime :=
  if t.next ≤ t.now then max reply.next (t.next + 1) else t.next

theorem getDurationNowToNext_nonpos (t : Runtime) : t.getDurationNowToNext ≤ 0 ↔ t.next ≤ t.now := by
  have hmicro : ∀ n now : Int, (n - now) * 1000 ≤ 0 ↔ n ≤ now := fun n now => by omega
  exact hmicro t.next t.now

theorem getNowToNext_apply (ht : r.mRuntime = some t) (hfits : t.NowToNextFits) :
    onRuntime Runtime.callNowToNext r = .ok t.getDurationNowToNext r :=
  onRuntime_of_read ht ((callNowToNext_apply t).trans (if_pos hfits))

/-- A duration that is out of range lets nothing return. -/
theorem returns_nowToNext_overflow {β : Type} (ht : r.mRuntime = some t) (hfits : ¬ t.NowToNextFits)
    (f : Duration → EStateM Failure Router β) {Q : β → Router → Prop} :
    Returns (onRuntime Runtime.callNowToNext >>= f) r Q := by
  have hcall := (callNowToNext_apply t).trans (if_neg hfits)
  unfold Returns Post
  rw [bind_eq_error.2 (.inl (onRuntime_of_error ht hcall))]
  trivial

/-- A second turn of the loop of `initRouter` is never taken, however many are allowed. -/
theorem returns_triggerPending (ht : r.mRuntime = some t) (reply : Reply) (turns : Nat) :
    Returns (triggerPending reply (turns + 1)) r fun _ r' => ∃ now last, r'.mRuntime =
      some { t with now := now, next := leftPending reply t, mLastTrigger := last } := by
  unfold triggerPending leftPending
  by_cases hfits : t.NowToNextFits
  swap
  · exact returns_nowToNext_overflow ht hfits _
  rw [Returns, post_bind_of_ok (getNowToNext_apply ht hfits)]
  by_cases hdue : t.next ≤ t.now
  · rw [if_pos ((getDurationNowToNext_nonpos t).2 hdue), if_pos hdue,
      post_bind_of_ok (getRuntime_apply ht)]
    apply Post.bind (returns_trigger ht _ reply)
    intro _ r₁ h
    apply Post.bind (returns_onAccessInterface h _)
    intro _ r₂ h
    cases turns with
    | zero => exact ⟨_, _, h⟩
    | succ turns =>
      simp only [triggerPending]
      by_cases hfits : Runtime.NowToNextFits { t with
          now := t.next, next := max reply.next (t.next + 1), mLastTrigger := t.next }
      swap
      · exact returns_nowToNext_overflow h hfits _
      rw [post_bind_of_ok (getNowToNext_apply h hfits), if_neg]
      · exact ⟨_, _, h⟩
      · rw [getDurationNowToNext_nonpos]
        exact not_le.2 ((Int.lt_succ _).trans_le (le_max_right ..))
  · rw [if_neg (mt (getDurationNowToNext_nonpos t).1 hdue), if_neg hdue]
    exact ⟨_, _, ht⟩

theorem returns_constructAll (start : TimePoint) (id : ObjectId) (replies : Replies) (r : Router) :
    Returns (constructAll start id replies) r fun _ r' => r'.mRuntime =
      some { Runtime.makeRuntime replies.utcStartTime start with next := replies.construct.next } := by
  have hconstruct : ∀ (constructed : Bool) (f : Router → Router) (r : Router),
      Returns (construct constructed f) r fun _ r' => r' = f r := fun _ _ r =>
    Post.bind (M := fun _ r' => r' = r) (post_enforce (fun _ => rfl) fun _ => trivial)
      fun _ _ h => by rw [h]; rfl
  simp only [constructAll]
  rw [Returns, post_bind_of_ok (get_apply r)]
  apply Post.bind (hconstruct _ _ r)
  rintro _ r rfl
  rw [post_bind_of_ok (get_apply _)]
  apply Post.bind (hconstruct _ _ _)
  rintro _ r rfl
  apply Post.bind (returns_call rfl _)
  intro _ r₁ h
  rw [post_bind_of_ok (get_apply r₁)]
  apply Post.bind (hconstruct _ _ r₁)
  rintro _ r₂ rfl
  exact returns_onAccessInterface (r := { r₁ with mAccessInterface := some {} }) h _

end

/-! ## What is made while the router works -/

/-- The actions start at `bound` or later. -/
def Late (bound : TimePoint) (actions : List ActionPtr) (s : Core Network) : Prop :=
  ∀ p ∈ actions, p < s.actions.next ∧ bound ≤ (s.actions.cell p).mStartTime

/-- The runtime of `this` is `t`, and what has been made since `s₀` does not matter before. -/
structure Ticks (this : ObjectPtr) (s₀ : Core Network) (t : Runtime) (s : Core Network) : Prop where
  prepares : Prepares this s₀ s
  mRuntime : (s.world this).mRuntime = some t

section
variable {this : ObjectPtr} {s₀ s s' : Core Network} {t t' : Runtime} {bound start : TimePoint}
  {actions : List ActionPtr}

theorem Late.prepares (h : Late bound actions s) (hs : Prepares this s s') : Late bound actions s' :=
  fun p hp => ⟨(h p hp).1.trans_le hs.actions, by rw [hs.action p (h p hp).1]; exact (h p hp).2⟩

theorem Late.append {p : ActionPtr} (h : Late bound actions s) (hp : p < s.actions.next)
    (hstart : bound ≤ (s.actions.cell p).mStartTime) : Late bound (actions ++ [p]) s := by
  intro q hq
  rcases List.mem_append.1 hq with hq | hq
  · exact h q hq
  · obtain rfl := List.mem_singleton.1 hq
    exact ⟨hp, hstart⟩

theorem Ticks.refl (ht : (s.world this).mRuntime = some t) : Ticks this s t s := ⟨.refl s, ht⟩

theorem Ticks.trans (h : Ticks this s₀ t s) (h' : Ticks this s t' s') : Ticks this s₀ t' s' :=
  ⟨h.prepares.trans h'.prepares, h'.mRuntime⟩

theorem returns_onRouter {α : Type} {x : EStateM Failure Router α} (hx : Program x)
    {Q : Router → Prop} (hQ : Returns x (s.world this) fun _ r => Q r) :
    Returns (onRouter this x) s fun _ s' => Prepares this s s' ∧ Q (s'.world this) :=
  Post.mono (preparing_onRouter_of_post (.refl s) hx hQ) (fun _ _ h => h) fun _ _ _ => trivial

theorem ticks_onRouter {α : Type} {x : EStateM Failure Router α} (hx : Program x)
    (hQ : Returns x (s.world this) fun _ r => r.mRuntime = some t) :
    Returns (onRouter this x) s fun _ s' => Ticks this s t s' :=
  Post.mono (returns_onRouter hx hQ) (fun _ _ h => ⟨h.1, h.2⟩) fun _ _ _ => trivial

theorem ticks_onAccessInterface {α : Type} (ht : (s.world this).mRuntime = some t)
    (x : EStateM Failure AccessInterface α) :
    Returns (onRouter this (onAccessInterface x)) s fun _ s' => Ticks this s t s' :=
  ticks_onRouter (.prim (.onAccessInterface x)) (returns_onAccessInterface ht x)

/-- `p` has been made since `s₀` and starts at `start`. -/
structure Made (this : ObjectPtr) (s₀ : Core Network) (start : TimePoint) (p : ActionPtr)
    (s : Core Network) : Prop where
  new : s₀.actions.next ≤ p
  lt : p < s.actions.next
  mStartTime : (s.actions.cell p).mStartTime = start
  prepares : Prepares this s₀ s
  world : s.world = s₀.world

theorem returns_getObject (p : ObjectPtr) : Returns (getObject p) s fun _ s' => s' = s :=
  post_onObject (fun _ => show s.writeObject p (s.objects.cell p) = s by
    rw [Core.writeObject, Heap.write_cell_eq]) trivial

variable (this) in
theorem returns_create {duration : Duration} {id generator : ObjectId} :
    Returns (ActionFactory.create .durationAction duration start id generator) s
      fun p s' => Made this s start p s' := by
  refine Post.bind (M := fun _ s' => s' = s) (post_enforce (fun _ => rfl) fun _ => trivial) ?_
  rintro _ s rfl
  refine Post.bind (M := fun _ s' => s' = s) (post_enforce (fun _ => rfl) fun _ => trivial) ?_
  rintro _ s rfl
  exact ⟨Nat.le_refl _, Nat.lt_succ_self _, by rw [Heap.alloc_cell_self], .alloc s _, rfl⟩

/-- Setting the type or the data of what has been made does not change when it starts. -/
theorem Made.returns_onAction {p : ActionPtr} (h : Made this s₀ start p s)
    {x : EStateM Failure Action Unit}
    (hx : ∀ a, Returns x a fun _ a' => a'.mStartTime = a.mStartTime) :
    Returns (onAction p x) s fun _ s' => Made this s₀ start p s' := by
  refine post_onAction (fun _ => Post.mono (hx _) (fun _ a ha => ?_) fun _ _ _ => trivial) trivial
  exact ⟨h.new, h.lt, by simpa using ha.trans h.mStartTime, h.prepares.writeAction h.new a, h.world⟩

theorem returns_setType (type : Symbol) (a : Action) :
    Returns (Action.setType type) a fun _ a' => a'.mStartTime = a.mStartTime := rfl

theorem returns_setActionData (data : DataPtr) (a : Action) :
    Returns (Action.setActionData data) a fun _ a' => a'.mStartTime = a.mStartTime := by
  simp only [Action.setActionData]
  rw [Returns, post_bind_of_ok (get_apply a)]
  cases a.mActionData with
  | none => rfl
  | some _ => trivial

/-- The transmission starts a millisecond after the action has ended. -/
theorem returns_scheduleTransmission (ht : (s.world this).mRuntime = some t)
    (data : RouterUpdateData) {action : ActionPtr} (ha : action < s.actions.next)
    (hlate : Late (s.actions.cell action).getEndTime data.actionsToSchedule s)
    (receivers : Option Failure) :
    Returns (scheduleTransmission this data action receivers) s fun data' s' => Ticks this s t s' ∧
      Late (s.actions.cell action).getEndTime data'.actionsToSchedule s' := by
  apply Post.bind (ticks_onAccessInterface ht _)
  intro interface s₁ h₁
  split
  swap
  · exact ⟨h₁, hlate.prepares h₁.prepares⟩
  apply Post.bind (ticks_onAccessInterface h₁.mRuntime _)
  intro transmission s₂ h₂
  replace h₂ := h₁.trans h₂
  have hget : getAction action s₂ = .ok (s.actions.cell action) s₂ := by
    rw [getAction_of_lt (ha.trans_le h₂.prepares.actions), h₂.prepares.action action ha]
  rw [post_bind_of_ok hget, post_bind_of_ok getRouter_apply]
  split
  · trivial
  next radio _ =>
    apply Post.bind (returns_getObject radio)
    rintro _ s₂ rfl
    apply Post.bind (returns_getObject this)
    rintro _ s₂ rfl
    apply Post.bind (returns_create this)
    intro p s₃ h₃
    apply Post.bind (h₃.returns_onAction (returns_setType _))
    intro _ s₄ h₄
    have hdone : ∀ s₅, Made this s₂ ((s.actions.cell action).getEndTime + Duration.milliseconds 1) p
        s₅ → Ticks this s t s₅ ∧
          Late (s.actions.cell action).getEndTime (data.actionsToSchedule ++ [p]) s₅ := by
      intro s₅ h₅
      refine ⟨⟨h₂.prepares.trans h₅.prepares, by rw [h₅.world]; exact h₂.mRuntime⟩, ?_⟩
      apply Late.append (hlate.prepares (h₂.prepares.trans h₅.prepares)) h₅.lt
      rw [h₅.mStartTime]
      exact Int.le_add_of_nonneg_right (by decide)
    cases transmission with
    | none => exact hdone s₄ h₄
    | some d =>
      exact Post.bind (h₄.returns_onAction (returns_setActionData d)) fun _ s₅ h₅ => hdone s₅ h₅

/-- Of what a task makes, only the next update may start too early. -/
theorem returns_scheduleNextUpdate (hs : Placed this s) (ht : (s.world this).mRuntime = some t)
    (data : RouterUpdateData) (hlate : Late bound data.actionsToSchedule s) :
    Returns (scheduleNextUpdate this data) s fun data' s' =>
      (∀ p ∈ data'.actionsToSchedule, bound ≤ (s'.actions.cell p).mStartTime) ↔
        t.getNextStart = nextStart this s ∨ bound ≤ t.getNextStart := by
  unfold Returns Post
  by_cases hfits : t.NextStartFits
  swap
  · rw [scheduleNextUpdate_overflow ht hfits]
    trivial
  rw [scheduleNextUpdate_apply hs ht hfits]
  dsimp only
  by_cases hnext : t.getNextStart = nextStart this s
  · rw [if_pos hnext]
    exact iff_of_true (fun p hp => (hlate p hp).2) (.inl hnext)
  · by_cases hd : 0 ≤ t.getNextStart
    · rw [if_neg hnext, if_pos hd]
      simp only [hnext, false_or, List.mem_append, List.mem_singleton]
      constructor
      · intro h
        simpa [selfAction] using h s.actions.next (.inr rfl)
      · rintro h p (hp | rfl)
        · rw [Heap.alloc_cell_of_lt (hlate p hp).1]
          exact (hlate p hp).2
        · simpa [selfAction] using h
    · rw [if_neg hnext, if_neg hd]
      trivial

/-- Of what `commonActions` adds, only the next update may start too early. -/
theorem returns_commonActions (hs : Placed this s₀) (h : Ticks this s₀ t s) {action : ActionPtr}
    (ha : action < s₀.actions.next) (data : RouterUpdateData)
    (hlate : Late (s₀.actions.cell action).getEndTime data.actionsToSchedule s) (replies : Replies) :
    let d := Runtime.getNextStart { t with
      next := max replies.trigger.next (t.advanceTo (s₀.actions.cell action).mStartTime + 1) }
    Returns (commonActions this data action replies) s fun data' s' =>
      (∀ p ∈ data'.actionsToSchedule,
          (s₀.actions.cell action).getEndTime ≤ (s'.actions.cell p).mStartTime) ↔
        d = nextStart this s₀ ∨ (s₀.actions.cell action).getEndTime ≤ d := by
  intro d
  refine Post.bind (ticks_onRouter (program_callRouter _) (returns_callRouter h.mRuntime _))
    fun _ s₁ h₁ => ?_
  replace hlate := hlate.prepares h₁.prepares
  replace h₁ := h.trans h₁
  have hget : getAction action s₁ = .ok (s₀.actions.cell action) s₁ := by
    rw [getAction_of_lt (ha.trans_le h₁.prepares.actions), h₁.prepares.action action ha]
  rw [post_bind_of_ok hget]
  refine Post.bind (returns_onRouter (program_triggerSim _ _) (returns_triggerSim h₁.mRuntime _ _))
    fun _ s₂ h₂ => ?_
  obtain ⟨hprep, now, last, ht₂⟩ := h₂
  replace hlate := hlate.prepares hprep
  replace hprep := h₁.prepares.trans hprep
  rw [← hprep.action action ha] at hlate ⊢
  refine Post.bind (returns_scheduleTransmission ht₂ data (ha.trans_le hprep.actions) hlate _)
    fun data' s₃ h₃ => ?_
  obtain ⟨h₃, hlate₃⟩ := h₃
  replace hprep := hprep.trans h₃.prepares
  have hnext := returns_scheduleNextUpdate (hprep.placed hs) h₃.mRuntime data' hlate₃
  rw [hprep.nextStart hs] at hnext
  exact hnext

end

/-! ## The deadline that decides -/

/-- What the runtime reports at the end of a task that asks it. -/
def lastDeadline (task : RouterTask) (start : TimePoint) (r : Router) (replies : Replies) :
    TimePoint :=
  match task, r.mRuntime with
  | .initRouter, _ =>
    let t := Runtime.makeRuntime replies.utcStartTime start
    Runtime.getNextStart
      { t with next := leftPending replies.pending { t with next := replies.construct.next } }
  | _, some t => Runtime.getNextStart { t with next := max replies.trigger.next (t.advanceTo start + 1) }
  | _, none => SimClock.zero

/-! ### A router without a runtime -/

section
variable {this : ObjectPtr} {s : Core Network} {r : Router}

theorem call_never (ht : r.mRuntime = none) (reply : Reply) :
    Returns (call reply) r fun _ _ => False := by
  have hforM : ∀ (l : List DataPtr) (r : Router), r.mRuntime = none →
      Returns (l.forM fun transmission =>
        onAccessInterface (AccessInterface.request transmission)) r
        fun _ r' => r'.mRuntime = none := by
    intro l
    induction l with
    | nil => exact fun _ h => h
    | cons _ l ih =>
      intro r h
      refine Post.bind (M := fun _ r' => r'.mRuntime = none) ?_ fun _ r' h => ih r' h
      exact Post.mono (post_of_state (I := fun r' => r'.mRuntime = none)
        ((onAccessInterface_mRuntime _ r).trans h)) (fun _ _ h => h) fun _ _ _ => trivial
  apply Post.bind (hforM _ r ht)
  intro _ r₁ h
  refine Post.bind (M := fun _ _ => False) ?_ fun _ _ h => h.elim
  unfold Post onRuntime
  rw [h]
  trivial

theorem callRouter_never (ht : r.mRuntime = none) (reply : Reply) :
    Returns (callRouter reply) r fun _ _ => False := by
  simp only [callRouter]
  rw [Returns, post_bind_of_ok (get_apply r)]
  cases hr : r.mRouter with
  | false => exact trivial
  | true => exact call_never ht reply

theorem indicate_never (ht : r.mRuntime = none) (transmission : DataPtr) (reply : Reply) :
    Returns (indicate transmission reply) r fun _ _ => False := by
  simp only [indicate]
  rw [Returns, post_bind_of_ok (get_apply r)]
  cases hr : r.mRouter with
  | false => exact trivial
  | true =>
    apply Post.bind (M := fun _ r' => r'.mRuntime = none) (post_modify ht)
    intro _ _ h
    exact call_never h reply

theorem onRouter_never {α β : Type} {x : EStateM Failure Router α} {f : α → CoreM Network β}
    {Q : β → Core Network → Prop} (hx : Returns x (s.world this) fun _ _ => False) :
    Returns (onRouter this x >>= f) s Q :=
  Post.bind (M := fun _ _ => False) (post_zoom hx) fun _ _ h => h.elim

theorem commonActions_never (ht : (s.world this).mRuntime = none) (data : RouterUpdateData)
    (action : ActionPtr) (replies : Replies) {Q : RouterUpdateData → Core Network → Prop} :
    Returns (commonActions this data action replies) s Q :=
  onRouter_never (callRouter_never ht _)

end

/-! ### Tasks -/

section
variable {this : ObjectPtr} {s : Core Network} {a : ActionPtr}

/-- The next `caUpdate` starts 98 milliseconds after the action has ended. -/
theorem returns_createAction (hs : Placed this s) {t : Runtime} (s₀ : Core Network)
    (h : Ticks this s₀ t s) {start bound : TimePoint} (hbound : bound ≤ start) (type : Symbol) :
    Returns (createAction this start type) s fun p s' => Ticks this s₀ t s' ∧ Late bound [p] s' := by
  unfold Returns Post
  rw [createAction_apply hs]
  split_ifs with hstart
  · refine ⟨⟨h.prepares.trans (.alloc s _), h.mRuntime⟩, fun q hq => ?_⟩
    obtain rfl := List.mem_singleton.1 hq
    exact ⟨Nat.lt_succ_self _, by simpa [selfAction] using hbound⟩
  · trivial

/-- `caUpdate` from where the next one is made. -/
theorem returns_scheduleCa {s₀ : Core Network} {t : Runtime} (hs : Placed this s₀)
    (h : Ticks this s₀ t s) (ha : a < s₀.actions.next)
    (hlate : (s₀.actions.cell a).getEndTime ≤
      (s₀.actions.cell a).mStartTime + Duration.milliseconds 100) (replies : Replies) :
    let d := Runtime.getNextStart { t with
      next := max replies.trigger.next (t.advanceTo (s₀.actions.cell a).mStartTime + 1) }
    Returns (do
      let start := (← getAction a).mStartTime
      let caAction ← createAction this (start + Duration.milliseconds 100) "caUpdate"
      commonActions this { actionsToSchedule := [caAction] } a replies) s fun data' s' =>
      (∀ p ∈ data'.actionsToSchedule,
          (s₀.actions.cell a).getEndTime ≤ (s'.actions.cell p).mStartTime) ↔
        d = nextStart this s₀ ∨ (s₀.actions.cell a).getEndTime ≤ d := by
  have hget : getAction a s = .ok (s₀.actions.cell a) s := by
    rw [getAction_of_lt (ha.trans_le h.prepares.actions), h.prepares.action a ha]
  intro d
  rw [Returns, post_bind_of_ok hget]
  apply Post.bind (returns_createAction (h.prepares.placed hs) s₀ h hlate _)
  intro p s₁ h₁
  exact returns_commonActions hs h₁.1 ha _ h₁.2 replies

theorem returns_scheduleCa_none (hs : Placed this s) (ht : (s.world this).mRuntime = none)
    (ha : a < s.actions.next) {replies : Replies} {Q : RouterUpdateData → Core Network → Prop} :
    Returns (do
      let start := (← getAction a).mStartTime
      let caAction ← createAction this (start + Duration.milliseconds 100) "caUpdate"
      commonActions this { actionsToSchedule := [caAction] } a replies) s Q := by
  have hget : getAction a s = .ok (s.actions.cell a) s := getAction_of_lt ha
  rw [Returns, post_bind_of_ok hget]
  refine Post.bind (M := fun _ s' => (s'.world this).mRuntime = none) ?_ fun p s₁ h₁ =>
    commonActions_never h₁ _ _ _
  simp only [Post]
  rw [createAction_apply hs]
  split_ifs
  · exact ht
  · trivial

/-- Everything that the task has made starts no earlier than its action `a`, started in `s`, ends. -/
def InTime (a : ActionPtr) (s : Core Network) (data : RouterUpdateData) (s' : Core Network) : Prop :=
  ∀ p ∈ data.actionsToSchedule, (s.actions.cell a).getEndTime ≤ (s'.actions.cell p).mStartTime

/-- The task makes no update, or makes it for a deadline no earlier than the end of `a`. -/
def Harmless (this : ObjectPtr) (task : RouterTask) (a : ActionPtr) (replies : Replies)
    (s : Core Network) : Prop :=
  let d := lastDeadline task (s.actions.cell a).mStartTime (s.world this) replies
  (task = .transmissionReceived ∧ (s.world this).mInitDone = false) ∨ d = nextStart this s ∨
    (s.actions.cell a).getEndTime ≤ d

theorem late_nil (bound : TimePoint) : Late bound [] s := fun _ hp => by simp at hp

theorem inTime_executeUpdate (hs : Placed this s) (ha : a < s.actions.next) (replies : Replies) :
    Returns (executeUpdate this a replies) s fun data s' =>
      InTime a s data s' ↔ Harmless this .executeUpdate a replies s := by
  simp only [Harmless, reduceCtorEq, false_and, false_or]
  cases ht : (s.world this).mRuntime with
  | none => exact commonActions_never ht _ _ _
  | some t =>
    simp only [lastDeadline, ht]
    exact returns_commonActions hs (.refl ht) ha {} (late_nil _) replies

theorem inTime_transmissionReceived (hs : Placed this s) (ha : a < s.actions.next)
    (replies : Replies) :
    Returns (transmissionReceived this a replies) s fun data s' =>
      InTime a s data s' ↔ Harmless this .transmissionReceived a replies s := by
  have hget : getAction a s = .ok (s.actions.cell a) s := getAction_of_lt ha
  simp only [Harmless, true_and]
  simp only [transmissionReceived]
  rw [Returns, post_bind_of_ok getRouter_apply]
  cases hinit : (s.world this).mInitDone with
  | false => exact iff_of_true (fun p hp => by simp at hp) (.inl rfl)
  | true =>
    simp only [if_true, Bool.true_eq_false, false_or]
    rw [post_bind_of_ok hget]
    cases hdata : (s.actions.cell a).mActionData with
    | none => trivial
    | some transmission =>
      cases ht : (s.world this).mRuntime with
      | none => exact onRouter_never (indicate_never ht _ _)
      | some t =>
        refine Post.bind (ticks_onRouter (program_indicate _ _) (returns_indicate ht _ _))
          fun _ s₁ h₁ => ?_
        simp only [lastDeadline, ht]
        exact returns_commonActions hs h₁ ha {} (late_nil _) replies

/-- The hundred milliseconds between two `caUpdate` actions are longer than an action. -/
theorem getEndTime_le (hduration : (s.actions.cell a).mDuration = Duration.milliseconds 2) :
    (s.actions.cell a).getEndTime ≤ (s.actions.cell a).mStartTime + Duration.milliseconds 100 := by
  simp only [Action.getEndTime]
  rw [hduration, Int.add_comm]
  exact Int.add_le_add_left (by decide) _

theorem inTime_caUpdate (hs : Placed this s) (ha : a < s.actions.next)
    (hduration : (s.actions.cell a).mDuration = Duration.milliseconds 2) (replies : Replies) :
    Returns (caUpdate this a replies) s fun data s' =>
      InTime a s data s' ↔ Harmless this .caUpdate a replies s := by
  simp only [Harmless, reduceCtorEq, false_and, false_or]
  simp only [caUpdate]
  rw [Returns, post_bind_of_ok getRouter_apply]
  cases ht : (s.world this).mRuntime with
  | none =>
    split_ifs
    · exact onRouter_never (callRouter_never ht _)
    · exact returns_scheduleCa_none hs ht ha
  | some t =>
    simp only [lastDeadline, ht]
    split_ifs
    · refine Post.bind (ticks_onRouter (program_callRouter _) (returns_callRouter ht _))
        fun _ s₁ h₁ => ?_
      exact returns_scheduleCa hs h₁ ha (getEndTime_le hduration) replies
    · exact returns_scheduleCa hs (.refl ht) ha (getEndTime_le hduration) replies

theorem inTime_initRouter (hs : Placed this s) (ha : a < s.actions.next)
    (hduration : (s.actions.cell a).mDuration = Duration.milliseconds 2) (replies : Replies) :
    Returns (initRouter this a replies) s fun data s' =>
      InTime a s data s' ↔ Harmless this .initRouter a replies s := by
  have hget : getAction a s = .ok (s.actions.cell a) s := getAction_of_lt ha
  simp only [Harmless, reduceCtorEq, false_and, false_or]
  simp only [initRouter]
  rw [Returns, post_bind_of_ok hget]
  apply Post.bind (returns_getObject this)
  rintro o s rfl
  refine Post.bind (returns_onRouter (program_constructAll _ _ _)
    (Post.mono ((returns_constructAll _ _ _ _).and (constructAll_mRouter _ _ _ _))
      (fun _ _ h => h) fun _ _ _ => trivial)) fun _ s₁ h₁ => ?_
  obtain ⟨hprep₁, ht₁, hrouter⟩ := h₁
  refine Post.bind (returns_onRouter (program_triggerPending _ _)
    (returns_triggerPending ht₁ _ 1)) fun _ s₂ h₂ => ?_
  obtain ⟨hprep₂, now, last, ht₂⟩ := h₂
  rw [post_bind_of_ok (onRouter_modify _)]
  have h₃ := (hprep₁.trans hprep₂).initialise (hprep₂.router.mRouter hrouter)
  refine Post.bind (returns_createAction (h₃.placed hs) s ⟨h₃, by rw [update_world]; exact ht₂⟩
    (getEndTime_le hduration) _) fun p s₄ h₄ => ?_
  obtain ⟨h₄, hlate₄⟩ := h₄
  have hnext := returns_scheduleNextUpdate (h₄.prepares.placed hs) h₄.mRuntime
    { actionsToSchedule := [p] } hlate₄
  rw [h₄.prepares.nextStart hs] at hnext
  exact hnext

end

end Router

/-- Everything that a task makes starts no earlier than its action ends if and only if the task
makes no update, or makes it for a deadline no earlier than the end. -/
theorem inTime_iff (this : ObjectPtr) (s : Core Network) (hs : Router.Placed this s) (a : ActionPtr)
    (ha : a < s.actions.next) (hduration : (s.actions.cell a).mDuration = Duration.milliseconds 2)
    (task : RouterTask) (replies : Replies) (data : RouterUpdateData) (s' : Core Network)
    (h : Router.runTask this task a replies s = .ok data s') :
    Router.InTime a s data s' ↔ Router.Harmless this task a replies s := by
  cases task with
  | executeUpdate => exact (Router.inTime_executeUpdate hs ha replies).ok h
  | transmissionReceived => exact (Router.inTime_transmissionReceived hs ha replies).ok h
  | caUpdate => exact (Router.inTime_caUpdate hs ha hduration replies).ok h
  | initRouter => exact (Router.inTime_initRouter hs ha hduration replies).ok h

/-! ## A deadline while an update runs -/

namespace Router

/-- The update at 300 ms runs, and the runtime reports a deadline at 301 ms. -/
def hurried : Result Failure (Core Network) RouterUpdateData :=
  runTask 0 .executeUpdate 2 (deadline 301000) initialised

/-- The update made for the deadline starts at 301 ms, and is to be scheduled at 302 ms. -/
theorem hurried_evaluated :
    ((2 : ActionPtr) < initialised.actions.next ∧
      (initialised.actions.cell (2 : ActionPtr)).mType = "update" ∧
      (initialised.actions.cell (2 : ActionPtr)).mDuration = Duration.milliseconds 2) ∧
    hurried.value? = some { actionsToSchedule := [3] } ∧
    (hurried.state.actions.cell (3 : ActionPtr)).mStartTime <
      (initialised.actions.cell (2 : ActionPtr)).getEndTime := by
  decide +kernel

theorem hurried_eq_ok : hurried = .ok { actionsToSchedule := [3] } hurried.state :=
  Result.eq_ok hurried_evaluated.2.1

theorem not_inTime_hurried : ¬ InTime 2 initialised { actionsToSchedule := [3] } hurried.state := by
  intro h
  obtain ⟨-, -, hlt⟩ := hurried_evaluated
  exact absurd (h 3 (List.mem_singleton_self 3)) (Int.not_le.2 hlt)

end Router

theorem inTime_iff_hurried :
    ¬ Router.InTime 2 Router.initialised { actionsToSchedule := [3] } Router.hurried.state := by
  obtain ⟨⟨ha, -, hduration⟩, -⟩ := Router.hurried_evaluated
  have hplaced : Router.Placed 0 Router.initialised :=
    (Router.atRest_of_reachable (Router.initialised_reachable fun _ _ _ => .inl)).placed
  rw [inTime_iff 0 Router.initialised hplaced 2 ha hduration .executeUpdate
    (Router.deadline 301000) _ _ Router.hurried_eq_ok]
  simp only [Router.Harmless]
  decide +kernel

theorem not_inTime :
    ¬ ∀ this s, Reachable (Router.Fresh this) (Router.Step this fun _ _ _ => True) s →
      ∀ a < s.actions.next, (s.actions.cell a).mType ∈ Router.types →
      (s.actions.cell a).mDuration = Duration.milliseconds 2 →
      ∀ replies data s', Router.runTask this (Router.taskOf (s.actions.cell a).mType) a replies s =
        .ok data s' → Router.InTime a s data s' := by
  intro h
  obtain ⟨⟨ha, htype, hduration⟩, -⟩ := Router.hurried_evaluated
  have hin := h 0 Router.initialised (Router.initialised_reachable fun _ _ _ _ => trivial)
    (2 : ActionPtr) ha (by rw [htype]; decide) hduration (Router.deadline 301000) _ _
    (by rw [htype]; exact Router.hurried_eq_ok)
  exact Router.not_inTime_hurried hin

end Cosidia
