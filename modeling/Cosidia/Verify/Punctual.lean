import Cosidia.Verify.Phases
import Cosidia.Verify.Runs

/-!
# Handlers are served at the time they report

The list keeps a copy of the time that a handler reports, while the start time inside its action can
still be shifted. `Timed` says that the copies are right: only actions without a pending handler are
shifted. It follows that the check of `executeActionOnFinishedTimer` never fails, that no start time
is shifted back, and that the virtual methods are called at the times of their actions.
-/

namespace Cosidia

open EStateM

variable {ω : Type}

/-- Every pending handler is kept under the time it reports. -/
def Core.Keyed (s : Core ω) (batch : List Scheduling) : Prop :=
  ∀ x ∈ pending batch s, x.time = s.timeOf x.handler

/-- The action in hand is on time. -/
def Stage.OnTime (s : Core ω) : Stage → Prop
  | .idle => True
  | .taken k _ a => s.timeOf ⟨k, a⟩ = s.mCurrentActionTime
  | .starting _ _ _ a | .noted _ _ a | .armed _ a =>
    (s.actions.cell a).mStartTime = s.mCurrentActionTime
  -- nothing waits while an object is initialised, so nothing is activated afterwards
  | .initialising o _ => (s.manager o).mDelayedQueue = []
  | .closing k o a => k = .handlerEnd ∧ (s.actions.cell a).getEndTime = s.mCurrentActionTime ∨
    (s.manager o).mDelayedQueue = []
  | .released _ _ a => (s.actions.cell a).getEndTime = s.mCurrentActionTime
  | .activated _ _ a b => (s.actions.cell a).getEndTime = s.mCurrentActionTime ∧
    (s.actions.cell b).mStartTime ≤ s.mCurrentActionTime

structure Timed (st : Stage) (batch : List Scheduling) (s : Core ω) : Prop where
  key : s.Keyed batch
  waiting : ∀ o, ∀ b ∈ (s.manager o).mDelayedQueue,
    (s.actions.cell b).mStartTime ≤ s.mCurrentActionTime
  onTime : st.OnTime s

/-- The actions already made keep their times. -/
def SameTimes (s s' : Core ω) : Prop := ∀ p < s.actions.next,
  (s'.actions.cell p).mStartTime = (s.actions.cell p).mStartTime ∧
    (s'.actions.cell p).mDuration = (s.actions.cell p).mDuration

namespace SameTimes

variable {s s' : Core ω}

theorem quiet (h : Quiet s s') : SameTimes s s' :=
  fun p hp => ⟨(h.action p hp).mStartTime, (h.action p hp).mDuration⟩

theorem giveId (s : Core ω) (handler : ActionHandler) : SameTimes s (s.giveId handler) := by
  intro p _
  rcases eq_or_ne p handler.mCorrespondingAction with rfl | hp
  · simp [Core.giveId]
  · rw [show (s.giveId handler).actions.cell p = s.actions.cell p from Heap.write_cell_of_ne hp]
    exact ⟨rfl, rfl⟩

variable (h : SameTimes s s')
include h

theorem getEndTime {p : ActionPtr} (hp : p < s.actions.next) :
    (s'.actions.cell p).getEndTime = (s.actions.cell p).getEndTime := by
  simp only [Action.getEndTime]
  rw [(h p hp).1, (h p hp).2]

theorem timeOf (handler : ActionHandler) (hp : handler.mCorrespondingAction < s.actions.next) :
    s'.timeOf handler = s.timeOf handler := by
  unfold Core.timeOf ActionHandler.getTime
  cases handler.kind with
  | handlerStart | handlerInit => exact (h _ hp).1
  | handlerEnd => exact h.getEndTime hp

end SameTimes

section
variable {phase : ActionPtr → Phase} {batch : List Scheduling} {s s' : Core ω} {st : Stage}

/-- The action in hand has been made. -/
theorem Phased.made_of_active (hp : Phased phase batch s) {o : ObjectPtr} {a : ActionPtr}
    (h : (s.manager o).mActiveAction = some a) : a < s.actions.next :=
  (hp.made a (by simp [hp.active o a h])).1

theorem Phased.made_of_queue (hp : Phased phase batch s) {o : ObjectPtr} {a : ActionPtr}
    (h : a ∈ (s.manager o).mDelayedQueue) : a < s.actions.next :=
  (hp.made a (by simp [hp.queue o a h])).1

theorem Phased.made_of_begun (hp : Phased phase batch s) {a : ActionPtr}
    (h : ∃ o, phase a = .begun o) : a < s.actions.next := by
  obtain ⟨o, ho⟩ := h
  exact (hp.made a (by simp [ho])).1

theorem Stage.OnTime.frame (h : st.OnTime s) (hp : Phased phase batch s)
    (hh : st.InHand phase batch s) (hnow : s'.mCurrentActionTime = s.mCurrentActionTime)
    (htimes : SameTimes s s') (hman : ∀ o, s'.manager o = s.manager o ∨ s'.manager o = {}) :
    st.OnTime s' := by
  have hempty : ∀ {o}, (s.manager o).mDelayedQueue = [] → (s'.manager o).mDelayedQueue = [] := by
    intro o ho
    rcases hman o with hm | hm
    · rw [hm, ho]
    · rw [hm]
  cases st with
  | idle => trivial
  | taken k o a =>
    have ha : a < s.actions.next := by
      obtain ⟨-, hk⟩ := hh
      split_ifs at hk
      · exact hp.made_of_begun hk
      · exact (hp.made a (by simp [hk.1])).1
    have htime := htimes.timeOf ⟨k, a⟩ ha
    exact htime.trans (h.trans hnow.symm)
  | starting o x y a | noted o y a | armed o a =>
    have ha : (s.manager o).mActiveAction = some a := hh.1
    exact (htimes a (hp.made_of_active ha)).1.trans (h.trans hnow.symm)
  | initialising o a => exact hempty h
  | closing k o a =>
    rcases h with ⟨hk, h⟩ | h
    · exact .inl ⟨hk, (htimes.getEndTime (hp.made_of_begun hh.2)).trans (h.trans hnow.symm)⟩
    · exact .inr (hempty h)
  | released k o a => exact (htimes.getEndTime (hp.made_of_begun hh.2)).trans (h.trans hnow.symm)
  | activated k o a b =>
    obtain ⟨ha, hb⟩ := h
    obtain ⟨-, hbegun, hactive, -⟩ := hh
    refine ⟨(htimes.getEndTime (hp.made_of_begun hbegun)).trans (ha.trans hnow.symm), ?_⟩
    rw [(htimes b (hp.made_of_active hactive)).1, hnow]
    exact hb

namespace Timed

/-- What leaves the list, the times and the managers alone. -/
theorem frame (h : Timed st batch s) (hp : Phased phase batch s) (hh : st.InHand phase batch s)
    (hlist : s'.mActions = s.mActions) (hnow : s'.mCurrentActionTime = s.mCurrentActionTime)
    (htimes : SameTimes s s') (hman : ∀ o, s'.manager o = s.manager o ∨ s'.manager o = {}) :
    Timed st batch s' := by
  refine ⟨fun x hx => ?_, fun o b hb => ?_, h.onTime.frame hp hh hnow htimes hman⟩
  · rw [pending, hlist] at hx
    exact (h.key x hx).trans (htimes.timeOf x.handler (hp.pending_made hx).1).symm
  · rcases hman o with hm | hm <;> rw [hm] at hb
    · rw [(htimes b (hp.made_of_queue hb)).1, hnow]
      exact h.waiting o b hb
    · cases hb

theorem quiet (h : Timed st batch s) (hp : Phased phase batch s) (hh : st.InHand phase batch s)
    (hq : Quiet s s') : Timed st batch s' :=
  h.frame hp hh hq.mActions hq.mCurrentActionTime (.quiet hq) fun o =>
    (lt_or_ge o s.objects.next).elim (fun ho => .inl (hq.object o ho).1) (hq.unmade o)

theorem giveId (h : Timed st batch s) (hp : Phased phase batch s) (hh : st.InHand phase batch s)
    (handler : ActionHandler) : Timed st batch (s.giveId handler) :=
  h.frame hp hh rfl rfl (.giveId s handler) fun _ => .inl rfl

/-- A handler is accepted under the time it reports. -/
theorem accept (h : Timed st batch s) (hp : Phased phase batch s) (hh : st.InHand phase batch s)
    (handler : ActionHandler) (hlt : handler.mCorrespondingAction < s.actions.next) :
    Timed st batch (s.accept handler) := by
  have htimes : SameTimes s (s.accept handler) := SameTimes.giveId s handler
  refine ⟨fun x hx => ?_, (h.giveId hp hh handler).waiting,
    h.onTime.frame hp hh rfl htimes fun _ => .inl rfl⟩
  rcases List.mem_cons.1 ((pending_accept_perm hp.filed batch handler).mem_iff.1 hx) with rfl | hx
  · exact (htimes.timeOf handler hlt).symm
  · exact (h.key x hx).trans (htimes.timeOf x.handler (hp.pending_made hx).1).symm

/-- The manager of an object changes, and the stage with it. -/
theorem setManager (h : Timed st batch s) {st' : Stage} {o : ObjectPtr} {m : ObjectActionManager}
    (hq : ∀ b ∈ m.mDelayedQueue, (s.actions.cell b).mStartTime ≤ s.mCurrentActionTime)
    (hst : st'.OnTime (s.setManager o m)) : Timed st' batch (s.setManager o m) := by
  refine ⟨h.key, fun o' b hb => ?_, hst⟩
  rw [Core.setManager_manager] at hb
  split at hb
  · exact hq b hb
  · exact h.waiting o' b hb

theorem setCurrent (h : Timed st batch s) {st' : Stage} {o : ObjectPtr} {id : ActionId}
    (hst : st'.OnTime (s.setCurrent o id)) : Timed st' batch (s.setCurrent o id) :=
  ⟨h.key, fun o' b hb => h.waiting o' b (by rwa [Core.setCurrent_manager] at hb), hst⟩

/-- `b`, which is not pending, is shifted to the current time. -/
theorem shift (h : Timed st batch s) {st' : Stage} {b : ActionPtr}
    (hl : Loose batch s b) (hst : st'.OnTime (s.shift b s.mCurrentActionTime)) :
    Timed st' batch (s.shift b s.mCurrentActionTime) := by
  have hcell : ∀ p, p ≠ b → (s.shift b s.mCurrentActionTime).actions.cell p = s.actions.cell p :=
    fun p hp => Heap.write_cell_of_ne hp
  refine ⟨fun x hx => ?_, fun o a ha => ?_, hst⟩
  · have hne : x.action ≠ b := fun he => hl (he ▸ List.mem_map_of_mem hx)
    apply (h.key x hx).trans
    simp only [Core.timeOf]
    rw [show x.handler.mCorrespondingAction = x.action from rfl, hcell _ hne]
  · rcases eq_or_ne a b with rfl | hne
    · simp [Core.shift]
    · rw [hcell a hne]
      exact h.waiting o a ha

theorem startTime {k : HandlerKind} {o : ObjectPtr} {a : ActionPtr}
    (h : Timed (.taken k o a) batch s) (hk : k ≠ .handlerEnd) :
    (s.actions.cell a).mStartTime ≤ s.mCurrentActionTime := by
  have ht := h.onTime
  cases k with
  | handlerStart | handlerInit => exact le_of_eq ht
  | handlerEnd => exact absurd rfl hk

theorem act {c c' : Stage × Core ω} (hact : Act c c') (hi : InPhase c.1 batch c.2)
    (h : Timed c.1 batch c.2) : Timed c'.1 batch c'.2 := by
  obtain ⟨phase, hp, hh⟩ := hi
  cases hact with
  | quiet hq => exact h.quiet hp hh hq
  | @schedule st s p state hlt hw hs ht =>
    have hq : Quiet s (s.setState p state) :=
      .writeAction ⟨rfl, rfl, rfl, rfl, rfl, fun h => absurd h hs⟩
    exact (h.quiet hp hh hq).accept (hp.quiet hq) (hh.quiet hp hq) _ hlt
  | @rejectStart st s p state hlt hw hs =>
    have hq : Quiet s (s.setState p state) :=
      .writeAction ⟨rfl, rfl, rfl, rfl, rfl, fun h => absurd h hs⟩
    exact (h.quiet hp hh hq).giveId (hp.quiet hq) (hh.quiet hp hq) _
  | start ho hm => exact h.setManager nofun h.onTime
  | init ho hm => exact h.setManager nofun (by simp [Stage.OnTime, Core.setManager_manager])
  | @delay s k o a b q ho hk hm =>
    refine h.setManager (fun c hc => ?_) trivial
    rcases List.mem_append.1 hc with hc | hc
    · exact h.waiting o c (by rw [hm]; exact hc)
    · rw [List.mem_singleton.1 hc]
      exact h.startTime hk
  | @stuck s k o a b q ho hk hm =>
    refine h.setManager (fun c hc => ?_) trivial
    rcases List.mem_append.1 hc with hc | hc
    · exact h.waiting o c (by rw [hm]; exact hc)
    · rw [List.mem_singleton.1 hc]
      exact h.startTime hk
  | note => exact h.setCurrent h.onTime
  | noteInit =>
    apply h.setCurrent
    simp only [Stage.OnTime, Core.setCurrent_manager]
    exact h.onTime
  | @scheduleEnd s o y a hlt hk ht =>
    have ha := h.accept hp hh ⟨.handlerEnd, y⟩ hlt
    exact ⟨ha.key, ha.waiting, ha.onTime⟩
  | skipEnd hk => exact ⟨h.key, h.waiting, h.onTime⟩
  | rejectEnd => exact h.giveId hp hh _
  | callStart => exact ⟨h.key, h.waiting, trivial⟩
  | callEnd => exact ⟨h.key, h.waiting, .inl ⟨rfl, h.onTime⟩⟩
  | callInit => exact ⟨h.key, h.waiting, .inr h.onTime⟩
  | release hq => exact h.setManager nofun trivial
  | @releaseSome s k o a b q hq =>
    refine h.setManager (fun c hc => h.waiting o c (by rwa [hq])) ?_
    rcases h.onTime with ⟨-, ht⟩ | ht
    · exact ht
    · rw [hq] at ht
      cases ht
  | @activate s k o a b q ho hm =>
    have hq : ∀ c ∈ b :: q, (s.actions.cell c).mStartTime ≤ s.mCurrentActionTime :=
      fun c hc => h.waiting o c (by rwa [hm])
    exact h.setManager (fun c hc => hq c (List.mem_cons_of_mem _ hc))
      ⟨h.onTime, hq b (List.mem_cons_self ..)⟩
  | @shift s k o a b hlt ht =>
    obtain ⟨-, -, -, -, hl⟩ := hh
    rw [h.onTime.1]
    exact h.shift hl (by simp [Stage.OnTime, Core.shift])

theorem take {x : Scheduling} {rest : List Scheduling} (h : Timed .idle (x :: rest) s)
    (ht : x.time = s.mCurrentActionTime) (o : ObjectPtr) :
    Timed (.taken x.handler.kind o x.action) rest (s.takeUp x) :=
  ⟨fun y hy => h.key y (List.mem_cons_of_mem _ hy), h.waiting,
    (h.key x (List.mem_cons_self ..)).symm.trans ht⟩

/-- The core keeps the copies of the times right. -/
theorem stepwise : Stepwise (ω := ω) (fun _ _ => True)
    fun st batch s => InPhase st batch s ∧ Timed st batch s where
  act hact h := ⟨InPhase.act hact h.1, h.2.act hact h.1⟩
  advance ht h := ⟨InPhase.stepwise.advance ht h.1, h.2.key,
    fun o b hb => (h.2.waiting o b hb).trans ht, trivial⟩
  fetch h hent hfiled := ⟨InPhase.stepwise.fetch h.1 hent hfiled,
    fun x hx => h.2.key x (by simpa [pending, hent] using hx), h.2.waiting, trivial⟩
  fail h := ⟨InPhase.stepwise.fail h.1, h.2.key, h.2.waiting, trivial⟩
  drop hC h hrem := ⟨InPhase.stepwise.drop hC h.1 hrem,
    fun x hx => h.2.key x (List.mem_cons_of_mem _ hx), h.2.waiting, trivial⟩
  take _ h htime _ _ := ⟨h.1.take _, h.2.take htime _⟩

end Timed

end

/-! ## The entry points up to the shift -/

namespace BaseObject

variable (V : Virtuals ω)

/-- What `endExecutionBase` and `initObjectBase` do until they activate an action that waits; `true`
means that they do. -/
def closing (compareIds : Bool) (handler : ActionHandler) (obj : ObjectPtr) : CoreM ω Bool :=
  let action := handler.mCorrespondingAction
  match handler.kind with
  | .handlerStart => return false
  | .handlerEnd => do
    if compareIds then
      let id := (← getAction action).mActionId
      enforce (id == (← getObject obj).mCurrentAction) "BaseObject: Action ends wrong action"
    endExecution V obj action
    endAndCheckAvailable obj
  | .handlerInit => do
    if ← startOrDelay obj action then
      return false
    else
      noteCurrentAction obj action
      initObject V obj action
      endAndCheckAvailable obj

/-- Handlers that do not start an action shift one only after `closing`. -/
theorem invoke_eq_closing (compareIds : Bool) (handler : ActionHandler) (obj : ObjectPtr)
    (h : handler.kind ≠ .handlerStart) :
    invoke V compareIds handler obj = (do
      if ← closing V compareIds handler obj then
        startShifted V handler.kind obj handler.mCorrespondingAction
          (← activateShifted obj handler.mCorrespondingAction)) := by
  unfold invoke closing startShifted
  cases hk : handler.kind with
  | handlerStart => exact absurd hk h
  | handlerEnd =>
    cases compareIds with
    | false => simp only [endExecutionBase, bind_assoc, Bool.false_eq_true, if_false, Stage.ending]
    | true => simp only [endExecutionBase, bind_assoc, if_true, Stage.ending]
  | handlerInit =>
    simp only [initObjectBase, bind_assoc, Stage.ending]
    congr
    funext delayed
    cases delayed with
    | true => simp
    | false => simp [bind_assoc]

theorem kind_of_closing {compareIds : Bool} {handler : ActionHandler} {obj : ObjectPtr} {s s' : Core ω}
    (h : closing V compareIds handler obj s = .ok true s') : handler.kind ≠ .handlerStart := by
  intro hk
  unfold closing at h
  rw [hk] at h
  cases (pure_eq_ok.1 h).1

end BaseObject

section
variable {V : Virtuals ω} (hV : V.Lawful) {c : Stage × Core ω} {s s' : Core ω}
include hV

theorem post_callEnd {o : ObjectPtr} {a : ActionPtr} (h : Acts c (.taken .handlerEnd o a, s)) :
    Post (BaseObject.endExecution V o a) s (fun _ s' => Acts c (.closing .handlerEnd o a, s'))
      (Fails c) :=
  Post.bind (M := fun _ s' => Acts c (.closing .handlerEnd o a, s')) (h.tail .callEnd)
    fun _ _ h => post_objectProgram (hV.endExecution _ _) h

theorem post_callInit {o : ObjectPtr} {a : ActionPtr} (h : Acts c (.initialising o a, s)) :
    Post (BaseObject.initObject V o a) s (fun _ s' => Acts c (.closing .handlerInit o a, s'))
      (Fails c) :=
  Post.bind (M := fun _ s' => Acts c (.closing .handlerInit o a, s')) (h.tail .callInit)
    fun _ _ h => post_objectProgram (hV.initObject _ _) h

/-- If `closing` returns `true`, an action waits on an object that nothing is active on. -/
theorem released_of_closing {compareIds : Bool} {handler : ActionHandler} {o : ObjectPtr}
    (h : Acts c (.taken handler.kind o handler.mCorrespondingAction, s))
    (hclosing : BaseObject.closing V compareIds handler o s = .ok true s') :
    ∃ b q, s'.manager o = ⟨none, b :: q⟩ ∧
      Acts c (.released handler.kind o handler.mCorrespondingAction, s') := by
  simp only [BaseObject.closing] at hclosing
  cases hk : handler.kind with
  | handlerStart =>
    rw [hk] at hclosing
    cases (pure_eq_ok.1 hclosing).1
  | handlerEnd =>
    rw [hk] at h hclosing
    have hend : ∀ s₁, Acts c (.taken .handlerEnd o handler.mCorrespondingAction, s₁) →
        (do BaseObject.endExecution V o handler.mCorrespondingAction
            BaseObject.endAndCheckAvailable o) s₁ = .ok true s' →
        ∃ b q, s'.manager o = ⟨none, b :: q⟩ ∧
          Acts c (.released .handlerEnd o handler.mCorrespondingAction, s') := by
      intro s₁ h₁ hok
      obtain ⟨_, s₂, h₂, hok⟩ := bind_eq_ok.1 hok
      exact ((post_endAndCheckAvailable ((post_callEnd hV h₁).ok h₂)).ok hok).1 rfl
    cases compareIds with
    | false => exact hend s h hclosing
    | true =>
      obtain ⟨_, s₁, h₁, hget⟩ := bind_eq_ok.1 hclosing
      obtain ⟨rfl, -, -⟩ := (post_getAction h _).ok h₁
      obtain ⟨_, s₂, h₂, hcheck⟩ := bind_eq_ok.1 hget
      obtain ⟨rfl, -⟩ := (post_getObject h _).ok h₂
      obtain ⟨_, s₃, h₃, hrest⟩ := bind_eq_ok.1 hcheck
      obtain rfl := (post_check h _ _).ok h₃
      exact hend _ h hrest
  | handlerInit =>
    rw [hk] at h hclosing
    obtain ⟨delayed, s₁, h₁, hclosing⟩ := bind_eq_ok.1 hclosing
    have hinit := (post_startOrDelay h nofun fun _ => .init).ok h₁
    cases delayed with
    | true => cases (pure_eq_ok.1 hclosing).1
    | false =>
      obtain ⟨_, s₂, h₂, hclosing⟩ := bind_eq_ok.1 hclosing
      obtain ⟨_, s₃, h₃, hclosing⟩ := bind_eq_ok.1 hclosing
      have hclosed := (post_callInit hV ((post_noteCurrentAction hinit .noteInit).ok h₂)).ok h₃
      exact ((post_endAndCheckAvailable hclosed).ok hclosing).1 rfl

end

/-- After the end of an action the next one can be shifted to it. -/
theorem Timed.activateShifted {phase : ActionPtr → Phase} {batch : List Scheduling} {s : Core ω}
    {k : HandlerKind} {o : ObjectPtr} {a b : ActionPtr} {q : List ActionPtr}
    (h : Timed (.released k o a) batch s) (hp : Phased phase batch s)
    (hh : (Stage.released k o a).InHand phase batch s) (hm : s.manager o = ⟨none, b :: q⟩) :
    ∃ s', BaseObject.activateShifted o a s = .ok b s' := by
  have hb : b ∈ (s.manager o).mDelayedQueue := by rw [hm]; exact List.mem_cons_self ..
  have ho : o < s.objects.next := by
    by_contra ho
    rw [hp.unmade o (not_lt.1 ho)] at hm
    cases hm
  have hget : getAction a (s.setManager o ⟨some b, q⟩) =
      Result.ok (s.actions.cell a) (s.setManager o ⟨some b, q⟩) :=
    getAction_of_lt (hp.made_of_begun hh.2)
  have hle : (s.actions.cell b).mStartTime ≤ (s.actions.cell a).getEndTime :=
    (h.waiting o b hb).trans (le_of_eq h.onTime.symm)
  have hshift : onAction b (Action.shiftStartTime (s.actions.cell a).getEndTime)
      (s.setManager o ⟨some b, q⟩) = Result.ok ()
        ((s.setManager o ⟨some b, q⟩).shift b (s.actions.cell a).getEndTime) := by
    refine onAction_of_ok (s := s.setManager o ⟨some b, q⟩) (hp.made_of_queue hb) ?_
    rw [Action.shiftStartTime_apply]
    exact if_pos hle
  exact ⟨_, bind_eq_ok.2 ⟨b, _, onManager_activate ho hm,
    bind_eq_ok.2 ⟨_, _, hget, bind_eq_ok.2 ⟨_, _, hshift, rfl⟩⟩⟩⟩

/-! ## Virtual methods that check the time -/

/-- The virtual methods, each of which first compares the current time with that of its action. -/
def Virtuals.checked (V : Virtuals ω) : Virtuals ω where
  startExecution o a := do
    enforce ((← getAction a).mStartTime == (← get).mCurrentActionTime) "startExecution at a wrong time"
    V.startExecution o a
  endExecution o a := do
    enforce ((← getAction a).getEndTime == (← get).mCurrentActionTime) "endExecution at a wrong time"
    V.endExecution o a
  initObject := V.initObject

section
variable {V V' : Virtuals ω} {c : Stage × Core ω} {s : Core ω}

/-- `V'` does what `V` does wherever the code of a handler that started at `c` calls it. -/
structure Virtuals.Agree (V V' : Virtuals ω) (c : Stage × Core ω) : Prop where
  startExecution : ∀ {o a s}, Acts c (.armed o a, s) →
    BaseObject.startExecution V' o a s = BaseObject.startExecution V o a s
  endExecution : ∀ {o a s}, Acts c (.taken .handlerEnd o a, s) →
    BaseObject.endExecution V' o a s = BaseObject.endExecution V o a s
  initObject : V'.initObject = V.initObject

namespace Virtuals.Agree

variable (hV : V.Lawful) (h : V.Agree V' c)
include h

theorem starting {o : ObjectPtr} {x y a : ActionPtr} (hs : Acts c (.starting o x y a, s)) :
    (do BaseObject.noteCurrentAction o x
        Action.scheduleEndHandler y
        BaseObject.startExecution V' o a) s =
      (do BaseObject.noteCurrentAction o x
          Action.scheduleEndHandler y
          BaseObject.startExecution V o a) s :=
  Post.bind_congr (post_noteCurrentAction hs .note) rfl fun _ _ hs =>
    Post.bind_congr (post_scheduleEndHandler hs) rfl fun _ _ hs => h.startExecution hs

theorem closing {k : HandlerKind} {o : ObjectPtr} {a : ActionPtr} (hs : Acts c (.closing k o a, s)) :
    (do if ← BaseObject.endAndCheckAvailable o then
          BaseObject.startShifted V' k o a (← BaseObject.activateShifted o a)) s =
      (do if ← BaseObject.endAndCheckAvailable o then
            BaseObject.startShifted V k o a (← BaseObject.activateShifted o a)) s := by
  apply Post.bind_congr (post_endAndCheckAvailable hs) rfl
  rintro available s ⟨htrue, -⟩
  cases available with
  | false => rfl
  | true =>
    obtain ⟨b, q, hm, hs⟩ := htrue rfl
    exact Post.bind_congr (post_activateShifted hm hs) rfl fun _ _ hs => h.starting hs

theorem startExecutionBase {o : ObjectPtr} {a : ActionPtr}
    (hs : Acts c (.taken .handlerStart o a, s)) :
    BaseObject.startExecutionBase V' o a s = BaseObject.startExecutionBase V o a s := by
  apply Post.bind_congr (post_getObject hs o) rfl
  rintro _ _ ⟨rfl, -⟩
  apply Post.bind_congr (post_check hs _ _) rfl
  rintro _ _ rfl
  apply Post.bind_congr (post_getObject hs o) rfl
  rintro _ _ ⟨rfl, -⟩
  apply Post.bind_congr (post_check hs _ _) rfl
  rintro _ _ rfl
  refine Post.bind_congr (Q := fun _ s' => Acts c (.taken .handlerStart o a, s')) (E := Fails c)
    (post_onObject (fun _ => hs.tail (.quiet (.writeObject rfl rfl))) ⟨_, hs⟩) rfl fun _ s hs => ?_
  apply Post.bind_congr (post_startOrDelay hs nofun fun _ => .start) rfl
  intro delayed s hs
  cases delayed with
  | true => rfl
  | false => exact h.starting hs

include hV

theorem endExecutionBase {o : ObjectPtr} {a : ActionPtr} (compareIds : Bool)
    (hs : Acts c (.taken .handlerEnd o a, s)) :
    BaseObject.endExecutionBase V' compareIds o a s =
      BaseObject.endExecutionBase V compareIds o a s := by
  have hrest : ∀ s, Acts c (.taken .handlerEnd o a, s) →
      BaseObject.endExecutionBase V' false o a s = BaseObject.endExecutionBase V false o a s :=
    fun s hs => Post.bind_congr (post_callEnd hV hs) (h.endExecution hs) fun _ _ hs => h.closing (k := .handlerEnd) hs
  cases compareIds with
  | false => exact hrest s hs
  | true =>
    apply Post.bind_congr (post_getAction hs a) rfl
    rintro _ _ ⟨rfl, -, -⟩
    apply Post.bind_congr (post_getObject hs o) rfl
    rintro _ _ ⟨rfl, -⟩
    apply Post.bind_congr (post_check hs _ _) rfl
    rintro _ _ rfl
    exact hrest _ hs

theorem initObjectBase {o : ObjectPtr} {a : ActionPtr} (hs : Acts c (.taken .handlerInit o a, s)) :
    BaseObject.initObjectBase V' o a s = BaseObject.initObjectBase V o a s := by
  apply Post.bind_congr (post_startOrDelay hs nofun fun _ => .init) rfl
  intro delayed s hs
  cases delayed with
  | true => rfl
  | false =>
    apply Post.bind_congr (post_noteCurrentAction hs .noteInit) rfl
    intro _ s hs
    have hinit : BaseObject.initObject V' o a s = BaseObject.initObject V o a s := by
      simp only [BaseObject.initObject]
      rw [h.initObject]
    exact Post.bind_congr (post_callInit hV hs) hinit fun _ _ hs => h.closing (k := .handlerInit) hs

/-- The entry points reach the virtual methods only at the stages where the two agree. -/
theorem invoke {o : ObjectPtr} {handler : ActionHandler} (compareIds : Bool)
    (hs : Acts c (.taken handler.kind o handler.mCorrespondingAction, s)) :
    BaseObject.invoke V' compareIds handler o s = BaseObject.invoke V compareIds handler o s := by
  simp only [BaseObject.invoke]
  cases hk : handler.kind with
  | handlerStart => exact h.startExecutionBase (hk ▸ hs)
  | handlerEnd => exact h.endExecutionBase hV compareIds (hk ▸ hs)
  | handlerInit => exact h.initObjectBase hV (hk ▸ hs)

end Virtuals.Agree

end

/-! ## Along a run -/

/-- At every stage after a handler has been taken up on time the checks of the times pass. -/
theorem Virtuals.checked_agree {V : Virtuals ω} {c : Stage × Core ω} {batch : List Scheduling}
    (hi : InPhase c.1 batch c.2) (h : Timed c.1 batch c.2) : V.Agree V.checked c := by
  have hall : ∀ {c'}, Acts c c' → InPhase c'.1 batch c'.2 ∧ Timed c'.1 batch c'.2 :=
    fun hacts => Timed.stepwise.acts hacts ⟨hi, h⟩
  -- the check reads the action and the time, finds them equal and leaves the rest to `V`
  have hpass : ∀ {a : ActionPtr} {s : Core ω} (f : Action → TimePoint) (msg : String)
      (x : CoreM ω Unit), a < s.actions.next → f (s.actions.cell a) = s.mCurrentActionTime →
      (do enforce (f (← getAction a) == (← get).mCurrentActionTime) msg
          x) s = x s := by
    intro a s f msg x ha hf
    rw [bind_apply, getAction_of_lt ha]
    dsimp only
    rw [bind_apply, get_apply]
    dsimp only
    rw [hf, bind_apply, beq_self_eq_true, enforce_true]
    rfl
  refine ⟨fun {o a s} hs => ?_, fun {o a s} hs => ?_, rfl⟩
  · obtain ⟨⟨phase, hp, hh⟩, ht⟩ := hall hs
    exact hpass Action.mStartTime _ _ (hp.made_of_active hh.1) ht.onTime
  · obtain ⟨⟨phase, hp, hh⟩, ht⟩ := hall hs
    exact hpass Action.getEndTime _ _ (hp.made_of_begun hh.2) ht.onTime

/-- A step of the loop over the fetched handlers depends on the virtual methods only in `invoke`. -/
theorem Core.dispatch_congr {V V' : Virtuals ω} {compareIds : Bool} {h : Scheduling} {s : Core ω}
    (hinvoke : ∀ o, h.handler.mCorrespondingAction < s.actions.next →
      BaseObject.invoke V' compareIds h.handler o s = BaseObject.invoke V compareIds h.handler o s) :
    Core.dispatch V' compareIds h s = Core.dispatch V compareIds h s := by
  refine Post.bind_congr (Q := fun _ s' => s' = s ∧ h.handler.mCorrespondingAction < s.actions.next)
    (E := fun _ _ => True)
    (post_onAction (fun hp => ⟨by rw [Core.writeAction, Heap.write_cell_eq], hp⟩) trivial) rfl ?_
  rintro action s ⟨rfl, hp⟩
  refine Post.bind_congr (Q := fun _ s' => s' = s) (E := fun _ _ => True)
    (post_enforce (fun _ => rfl) fun _ => trivial) rfl ?_
  rintro _ s rfl
  refine Post.bind_congr (Q := fun _ s' => s' = s) (E := fun _ _ => True)
    (post_enforce (fun _ => rfl) fun _ => trivial) rfl ?_
  rintro _ s rfl
  refine Post.bind_congr (Q := fun _ s' => s' = s) (E := fun _ _ => True) (post_get rfl) rfl ?_
  rintro t s rfl
  refine Post.bind_congr (Q := fun _ s' => s' = s) (E := fun _ _ => True) ?_ rfl ?_
  · cases t.mObjectList.getObjectByIdFromCurrentContainer action.mAffectedObject with
    | error e => exact trivial
    | ok found => rfl
  · rintro found s rfl
    cases found with
    | none => rfl
    | some o => exact hinvoke o hp

section
variable {V : Virtuals ω} {setup : CoreM ω Unit} {compareIds : Bool} {world : ω} {m : Machine ω}

/-- The check of `executeActionOnFinishedTimer` passes when the timer fires. -/
theorem Timed.fetch_executing (h : Timed .idle m.batch m.core) (hi : InPhase .idle m.batch m.core)
    (ho : m.InOrder) (hm : m.control = .waiting) : m.fetch.control = .executing := by
  obtain ⟨phase, hp, -⟩ := hi
  obtain ⟨b, l, hpop, hent, -, htime, hnil⟩ := ActionList.popNextHandlers_spec ho.agenda.filed
  have hpop' : Core.popNextHandlers m.core = .ok b { m.core with mActions := l } :=
    zoom_eq_ok.2 ⟨l, hpop, rfl⟩
  have hnow := ho.waiting hm
  -- an empty list would have been announced by a time point in the past
  have hne : m.core.mActions.entries ≠ [] := fun he =>
    ne_of_gt (ho.agenda.invalid_lt) (by rw [hnow, ho.agenda.next_of_entries_nil he])
  cases b with
  | nil => exact absurd (hnil.1 rfl) hne
  | cons x rest =>
    have hx : x ∈ pending m.batch m.core := by simp [pending, hent]
    have hcheck : Core.checkHandlers (x :: rest) { m.core with mActions := l } =
        Result.ok .executing { m.core with mActions := l } := by
      have heq : m.core.mCurrentActionTime = m.core.timeOf x.handler :=
        hnow.trans ((htime x (List.mem_cons_self ..)).symm.trans (h.key x hx))
      have hget : getAction x.action { m.core with mActions := l } =
          Result.ok (m.core.actions.cell x.action) { m.core with mActions := l } :=
        getAction_of_lt (hp.pending_made hx).1
      refine bind_eq_ok.2 ⟨_, _, hget, bind_eq_ok.2 ⟨_, _, get_apply _, ?_⟩⟩
      refine bind_eq_ok.2 ⟨(), _, enforce_eq_ok.2 ⟨beq_iff_eq.2 heq, rfl⟩, rfl⟩
    simp only [Machine.fetch]
    rw [hpop']
    dsimp only
    rw [Machine.resume_of_ok _ _ hcheck]

/-- In every machine that a simulation reaches the pending handlers are kept under the times they
report and those of the batch report the current time. So the check on what the timer has fetched
passes, checking the times at the calls of `startExecution` and `endExecution` makes no difference,
and where an action is activated its start time is not after the end it is shifted to, so that the
handler goes on with it. -/
theorem punctual_of_reached (hV : V.Lawful) (hsetup : ObjectProgram setup)
    (h : Reached V compareIds setup world m) :
    (∀ t l, m.core.mActions[t]? = some l → ∀ x ∈ l, m.core.timeOf x.handler = t) ∧
    (m.control = .executing → ∀ x ∈ m.batch, m.core.timeOf x.handler = m.core.mCurrentActionTime) ∧
    (m.control = .waiting → m.fetch.control = .executing) ∧
    (∀ delay, m.step V.checked compareIds setup delay = m.step V compareIds setup delay) ∧
    ∀ x rest o s, m.control = .executing → m.batch = x :: rest →
      BaseObject.closing V compareIds x.handler o (m.core.takeUp x) = .ok true s →
      ∃ b s', BaseObject.activateShifted o x.handler.mCorrespondingAction s = .ok b s' ∧
        BaseObject.invoke V compareIds x.handler o (m.core.takeUp x) =
          BaseObject.startShifted V x.handler.kind o x.handler.mCorrespondingAction b s' := by
  have hreached := Timed.stepwise.reached hV hsetup (fun _ _ _ => trivial)
    ⟨⟨_, Phased.new world, trivial⟩, by simp [Core.Keyed, pending, Core.new],
      by simp [Core.manager, Core.new, Heap.empty], trivial⟩ h
  have ho := (ReachedUnder.atSomeMoment hV hsetup h).inOrder
  obtain ⟨st, batch, ⟨hi, ht⟩, hidle⟩ := hreached.stage
  have hexecuting : m.control = .executing → st = .idle ∧ batch = m.batch :=
    fun hm => hidle fun f hf => by cases hm.symm.trans hf
  have hwaiting : m.control = .waiting → st = .idle ∧ batch = m.batch :=
    fun hm => hidle fun f hf => by cases hm.symm.trans hf
  have htaken : ∀ {x rest} o, m.control = .executing → m.batch = x :: rest →
      InPhase (.taken x.handler.kind o x.action) rest (m.core.takeUp x) ∧
        Timed (.taken x.handler.kind o x.action) rest (m.core.takeUp x) := by
    intro x rest o hm hb
    obtain ⟨rfl, rfl⟩ := hexecuting hm
    have htime := ho.executing (.inl hm) x (by rw [hb]; exact List.mem_cons_self ..)
    rw [hb] at hi ht
    exact ⟨hi.take o, ht.take htime o⟩
  refine ⟨fun t l hl x hx => ?_, fun hm x hx => ?_, fun hm => ?_, fun delay => ?_, ?_⟩
  · have hmem : x ∈ m.core.mActions.entries := BucketMap.mem_entries.2 ⟨t, l, hl, hx⟩
    rw [← ht.key x (List.mem_append_right _ hmem)]
    exact (ho.agenda.filed t l hl).2 x hx
  · obtain ⟨rfl, rfl⟩ := hexecuting hm
    rw [← ht.key x (List.mem_append_left _ hx)]
    exact ho.executing (.inl hm) x hx
  · obtain ⟨rfl, rfl⟩ := hwaiting hm
    exact ht.fetch_executing hi ho hm
  · simp only [Machine.step]
    cases hm : m.control with
    | executing =>
      cases hb : m.batch with
      | nil => rfl
      | cons x rest =>
        have hdispatch : Core.dispatch V.checked compareIds x (m.core.takeUp x) =
            Core.dispatch V compareIds x (m.core.takeUp x) :=
          Core.dispatch_congr fun o _ => by
            obtain ⟨hi, ht⟩ := htaken o hm hb
            exact (Virtuals.checked_agree hi ht).invoke hV compareIds .refl
        dsimp only
        unfold Machine.resume
        dsimp only
        rw [bind_apply, bind_apply, hdispatch]
    | _ => rfl
  · intro x rest o s hm hb hclosing
    obtain ⟨hi, ht⟩ := htaken o hm hb
    obtain ⟨b, q, hman, hacts⟩ := released_of_closing hV .refl hclosing
    obtain ⟨⟨phase, hp, hh⟩, htimed⟩ := Timed.stepwise.acts hacts ⟨hi, ht⟩
    obtain ⟨s', hshift⟩ := htimed.activateShifted hp hh hman
    refine ⟨b, s', hshift, ?_⟩
    rw [BaseObject.invoke_eq_closing V compareIds x.handler o (BaseObject.kind_of_closing V hclosing),
      bind_apply, hclosing]
    dsimp only
    rw [if_pos rfl, bind_apply, hshift]

end

/-- The end of an action behind which another one waits. -/
theorem punctual_of_reached_waiting :
    let V : Virtuals Unit := SimulationManager.virtuals
    let setup := oneObject [(5, 0), (5, 0)]
    let m := oneObjectRun false [(5, 0), (5, 0)] 8
    m.control = .executing ∧ m.batch.map Scheduling.handler = [⟨.handlerEnd, 0⟩] ∧
      m.core.manager 0 = ⟨some 0, [1]⟩ ∧
      (∀ t l, m.core.mActions[t]? = some l → ∀ x ∈ l, m.core.timeOf x.handler = t) ∧
      (m.control = .executing →
        ∀ x ∈ m.batch, m.core.timeOf x.handler = m.core.mCurrentActionTime) ∧
      (m.control = .waiting → m.fetch.control = .executing) ∧
      (∀ delay, m.step V.checked false setup delay = m.step V false setup delay) ∧
      ∀ x rest o s, m.control = .executing → m.batch = x :: rest →
        BaseObject.closing V false x.handler o (m.core.takeUp x) = .ok true s →
        ∃ b s', BaseObject.activateShifted o x.handler.mCorrespondingAction s = .ok b s' ∧
          BaseObject.invoke V false x.handler o (m.core.takeUp x) =
            BaseObject.startShifted V x.handler.kind o x.handler.mCorrespondingAction b s' :=
  ⟨by decide +kernel, by decide +kernel, by decide +kernel,
    punctual_of_reached SimulationManager.virtuals_lawful (oneObject_program _) ReachedUnder.run⟩

end Cosidia
