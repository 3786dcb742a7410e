import Cosidia.Verify.Phases
import Cosidia.Verify.Runs
import Mathlib.Algebra.Group.Nat.Defs

/-!
# The recorded id of the running action

An object records the id of the action it starts and compares it with the id the action has at its
end. `Recorded` says which scheduling the recorded id comes from: the one of the action's start
handler. The end handler is scheduled after the id has been recorded and gives the action another
one, so that the two agree only if the id counter has wrapped around in between.
-/

namespace Cosidia

open EStateM

variable {ω : Type}

/-- What `o` has recorded is the id that the start handler of `a` was scheduled with. -/
def Core.Direct (s : Core ω) (o : ObjectPtr) (a : ActionPtr) : Prop :=
  ∃ x ∈ s.history.accepted, x.handler = ⟨.handlerStart, a⟩ ∧ s.current o = BitVec.ofNat 32 x.ids

/-- `a` still has the id that its start handler was scheduled with. -/
def Core.StartId (s : Core ω) (a : ActionPtr) : Prop :=
  ∃ x ∈ s.history.accepted, x.handler = ⟨.handlerStart, a⟩ ∧
    (s.actions.cell a).mActionId = BitVec.ofNat 32 x.ids

/-- Every object that has `a` active has recorded the id of its start handler. -/
def Core.Known (s : Core ω) (a : ActionPtr) : Prop :=
  ∀ o, (s.manager o).mActiveAction = some a → s.Direct o a

/-- What the stages between the start of a handler and the scheduling of an end handler know. -/
def Stage.Knows (batch : List Scheduling) (s : Core ω) : Stage → Prop
  | .taken .handlerStart _ a => s.StartId a
  | .taken .handlerEnd _ a => s.Known a
  | .starting _ x y a => x = y ∧ (y = a → s.StartId a) ∧ (y ≠ a → s.Known y) ∧ Loose batch s a
  | .noted o y a => (y = a → s.Direct o a) ∧ (y ≠ a → s.Known y ∧ Loose batch s a)
  | .initialising o _ => (s.manager o).mDelayedQueue = []
  | .closing k o a => if k = .handlerEnd then s.Known a else (s.manager o).mDelayedQueue = []
  | .released k _ a => k = .handlerEnd ∧ s.Known a
  | .activated k _ a b => k = .handlerEnd ∧ s.Known a ∧ a ≠ b
  | _ => True

/-- Where the recorded ids come from. -/
structure Recorded (st : Stage) (batch : List Scheduling) (s : Core ω) : Prop where
  bound : ∀ x ∈ s.history.accepted, x.ids ≤ s.history.ids
  accepted : ∀ x ∈ pending batch s, x ∈ s.history.accepted
  /-- A start handler is scheduled before the end handler of the same action. -/
  later : ∀ e ∈ pending batch s, e.handler.kind = .handlerEnd → ∀ x ∈ s.history.accepted,
    x.handler = ⟨.handlerStart, e.action⟩ → x.ids < e.ids
  direct : ∀ o a, (s.manager o).mActiveAction = some a → s.Direct o a ∨ Loose batch s a
  knows : st.Knows batch s

section
variable {phase : ActionPtr → Phase} {st : Stage} {batch : List Scheduling} {s s' : Core ω}

/-- What is recorded about the actions that have begun is kept from `s` to `s'`. -/
structure Retains (phase : ActionPtr → Phase) (batch : List Scheduling) (s s' : Core ω) : Prop where
  direct : ∀ o a, s'.current o = s.current o → s.Direct o a → s'.Direct o a
  start : ∀ a, phase a ≠ .unscheduled → s.StartId a → s'.StartId a
  loose : ∀ a, phase a ≠ .unscheduled → Loose batch s a → Loose batch s' a
  active : ∀ o a, (s'.manager o).mActiveAction = some a →
    (s.manager o).mActiveAction = some a ∧ s'.current o = s.current o
  current : ∀ o a, (s.manager o).mActiveAction = some a → s'.current o = s.current o
  queue : ∀ o, (s.manager o).mDelayedQueue = [] → (s'.manager o).mDelayedQueue = []

theorem Retains.known (h : Retains phase batch s s') {a : ActionPtr} (hk : s.Known a) : s'.Known a :=
  fun o ha => h.direct o a (h.active o a ha).2 (hk o (h.active o a ha).1)

theorem Stage.Knows.retain (hp : Phased phase batch s) (hh : st.InHand phase batch s)
    (h : Retains phase batch s s') (hk : st.Knows batch s) : st.Knows batch s' := by
  have hbegun : ∀ {a o}, phase a = .begun o → phase a ≠ .unscheduled := fun h => by simp [h]
  cases st with
  | idle | armed o a => trivial
  | taken k o a =>
    cases k with
    | handlerStart =>
      have ha : phase a = .scheduled := hh.2.1
      exact h.start _ (by simp [ha]) hk
    | handlerEnd => exact h.known hk
    | handlerInit => trivial
  | starting o x y a =>
    have ha := hbegun (hp.active _ _ hh.1)
    exact ⟨hk.1, fun he => h.start _ ha (hk.2.1 he), fun he => h.known (hk.2.2.1 he),
      h.loose _ ha hk.2.2.2⟩
  | noted o y a =>
    have ha := hbegun (hp.active _ _ hh.1)
    exact ⟨fun he => h.direct _ _ (h.current _ _ hh.1) (hk.1 he), fun he =>
      ⟨h.known (hk.2 he).1, h.loose _ ha (hk.2 he).2⟩⟩
  | initialising o a => exact h.queue _ hk
  | closing k o a =>
    by_cases he : k = .handlerEnd
    · simp only [Stage.Knows, if_pos he] at hk ⊢
      exact h.known hk
    · simp only [Stage.Knows, if_neg he] at hk ⊢
      exact h.queue _ hk
  | released k o a => exact ⟨hk.1, h.known hk.2⟩
  | activated k o a b => exact ⟨hk.1, h.known hk.2.1, hk.2.2⟩

end

namespace Recorded

variable {phase : ActionPtr → Phase} {st : Stage} {batch : List Scheduling} {s s' : Core ω}

/-- Changes that keep what is recorded about the actions that have begun. -/
theorem frame (h : Recorded st batch s) (hp : Phased phase batch s) (hh : st.InHand phase batch s)
    (hids : s.history.ids ≤ s'.history.ids)
    (hacc : ∀ x ∈ s'.history.accepted, x ∈ s.history.accepted ∨
      s.history.ids < x.ids ∧ x.ids ≤ s'.history.ids ∧ phase x.action = .unscheduled)
    (hacc' : ∀ x ∈ s.history.accepted, x ∈ s'.history.accepted)
    (hpend : ∀ x ∈ pending batch s', x ∈ pending batch s ∨
      x ∈ s'.history.accepted ∧ x.handler.kind ≠ .handlerEnd ∧ phase x.action = .unscheduled)
    (hman : ∀ o, s'.manager o = s.manager o ∧ s'.current o = s.current o ∨
      s.manager o = {} ∧ s'.manager o = {})
    (hid : ∀ a, phase a ≠ .unscheduled →
      (s'.actions.cell a).mActionId = (s.actions.cell a).mActionId) :
    Recorded st batch s' := by
  have hretains : Retains phase batch s s' := by
    refine ⟨fun o a hc ⟨x, hx, hxa, hxc⟩ => ⟨x, hacc' x hx, hxa, hc.trans hxc⟩,
      fun a ha ⟨x, hx, hxa, hxc⟩ => ⟨x, hacc' x hx, hxa, (hid _ ha).trans hxc⟩,
      fun a ha hl hmem => ?_, fun o a ha => ?_, fun o a ha => ?_, fun o hq => ?_⟩
    · obtain ⟨x, hx, rfl⟩ := List.mem_map.1 hmem
      rcases hpend x hx with hx | ⟨-, -, hun⟩
      · exact hl (List.mem_map_of_mem hx)
      · exact ha hun
    · rcases hman o with hm | hm
      · exact ⟨hm.1 ▸ ha, hm.2⟩
      · rw [hm.2] at ha; cases ha
    · rcases hman o with hm | hm
      · exact hm.2
      · rw [hm.1] at ha; cases ha
    · rcases hman o with hm | hm
      · rw [hm.1, hq]
      · rw [hm.2]
  refine ⟨fun x hx => ?_, fun x hx => ?_, fun e he hk x hx hxa => ?_, fun o a ha => ?_,
    h.knows.retain hp hh hretains⟩
  · rcases hacc x hx with hx | hx
    · exact (h.bound x hx).trans hids
    · exact hx.2.1
  · rcases hpend x hx with hx | hx
    · exact hacc' x (h.accepted x hx)
    · exact hx.1
  · rcases hpend e he with he | he
    · rcases hacc x hx with hx | ⟨-, -, hun⟩
      · exact h.later e he hk x hx hxa
      · have hxe : x.action = e.action := by rw [Scheduling.action, hxa]
        exact absurd (hxe ▸ hun) (hp.pending_made he).2
    · exact absurd hk he.2.1
  · obtain ⟨hactive, hcurrent⟩ := hretains.active o a ha
    rcases h.direct o a hactive with hd | hl
    · exact .inl (hretains.direct o a hcurrent hd)
    · exact .inr (hretains.loose a (by simp [hp.active _ _ hactive]) hl)

theorem quiet (h : Recorded st batch s) (hp : Phased phase batch s) (hh : st.InHand phase batch s)
    (hq : Quiet s s') : Recorded st batch s' := by
  refine h.frame hp hh (by rw [hq.history]) (fun x hx => .inl ?_) (fun x hx => ?_)
    (fun x hx => .inl ?_) (fun o => ?_) fun a ha => (hq.action a (hp.made a ha).1).mActionId
  · rwa [hq.history] at hx
  · rwa [hq.history]
  · simpa only [pending, hq.mActions] using hx
  · rcases lt_or_ge o s.objects.next with ho | ho
    · exact .inl (hq.object o ho)
    · have hnone := hp.unmade o ho
      exact .inr ⟨hnone, (hq.unmade o ho).elim (fun h => h.trans hnone) fun h => h⟩

/-- `scheduleStartHandler` adds the scheduling of an action that is in no other place. -/
theorem schedule (h : Recorded st batch s) (hp : Phased phase batch s)
    (hh : st.InHand phase batch s) {p : ActionPtr} {state : ActionStateMachine}
    (hw : (s.actions.cell p).mStateMachine = .waiting) (hs : state ≠ .waiting) :
    Recorded st batch ((s.setState p state).accept ⟨(s.actions.cell p).kind.startHandler, p⟩) := by
  have hq : Quiet s (s.setState p state) :=
    .writeAction ⟨rfl, rfl, rfl, rfl, rfl, fun h => absurd h hs⟩
  have hun : phase p = .unscheduled := by_contra fun hne => (hp.made p hne).2 hw
  have hstart : (s.actions.cell p).kind.startHandler ≠ .handlerEnd := by
    cases (s.actions.cell p).kind <;> nofun
  have hperm := pending_accept_perm (hp.quiet hq).filed batch
    ⟨(s.actions.cell p).kind.startHandler, p⟩
  refine (h.quiet hp hh hq).frame (hp.quiet hq) (hh.quiet hp hq) (Nat.le_succ _)
    (fun x hx => ?_) (fun x hx => List.mem_append_left _ hx) (fun x hx => ?_)
    (fun o => .inl ⟨rfl, rfl⟩) fun a ha => ?_
  · rcases List.mem_append.1 hx with hx | hx
    · exact .inl hx
    · obtain rfl := List.mem_singleton.1 hx
      exact .inr ⟨Nat.lt_succ_self _, Nat.le_refl _, hun⟩
  · rcases List.mem_cons.1 (hperm.mem_iff.1 hx) with rfl | hx
    · exact .inr ⟨List.mem_append_right _ (List.mem_singleton_self _), hstart, hun⟩
    · exact .inl hx
  · exact congrArg Action.mActionId (Heap.write_cell_of_ne fun he => ha (by rw [he]; exact hun))

theorem rejectStart (h : Recorded st batch s) (hp : Phased phase batch s)
    (hh : st.InHand phase batch s) {k : HandlerKind} {p : ActionPtr} {state : ActionStateMachine}
    (hw : (s.actions.cell p).mStateMachine = .waiting) (hs : state ≠ .waiting) :
    Recorded st batch ((s.setState p state).giveId ⟨k, p⟩) := by
  have hq : Quiet s (s.setState p state) :=
    .writeAction ⟨rfl, rfl, rfl, rfl, rfl, fun h => absurd h hs⟩
  have hun : phase p = .unscheduled := by_contra fun hne => (hp.made p hne).2 hw
  exact (h.quiet hp hh hq).frame (hp.quiet hq) (hh.quiet hp hq) (Nat.le_succ _)
    (fun x hx => .inl hx) (fun x hx => hx) (fun x hx => .inl hx) (fun o => .inl ⟨rfl, rfl⟩)
    fun a ha => congrArg Action.mActionId
      (Heap.write_cell_of_ne fun he => ha (by rw [he]; exact hun))

/-- The manager of `o` changes; what becomes active is loose. -/
theorem setManager {st' : Stage} (h : Recorded st batch s) {o : ObjectPtr}
    {m : ObjectActionManager}
    (hact : ∀ a, m.mActiveAction = some a →
      (s.manager o).mActiveAction = some a ∨ Loose batch s a)
    (hk : st'.Knows batch (s.setManager o m)) : Recorded st' batch (s.setManager o m) := by
  refine ⟨h.bound, h.accepted, h.later, fun o' a ha => ?_, hk⟩
  have hold : (s.manager o').mActiveAction = some a →
      (s.setManager o m).Direct o' a ∨ Loose batch s a := fun ha =>
    (h.direct o' a ha).imp_left fun ⟨x, hx, hxa, hxc⟩ =>
      ⟨x, hx, hxa, (Core.setManager_current ..).trans hxc⟩
  rw [Core.setManager_manager] at ha
  split at ha
  · next ho => subst ho; exact (hact a ha).elim hold .inr
  · exact hold ha

theorem known_setManager {o : ObjectPtr} {m : ObjectActionManager} {a : ActionPtr}
    (hm : m.mActiveAction ≠ some a) (h : s.Known a) : (s.setManager o m).Known a := by
  intro o' ha
  rw [Core.setManager_manager] at ha
  split at ha
  · exact absurd ha hm
  · obtain ⟨x, hx, hxa, hxc⟩ := h o' ha
    exact ⟨x, hx, hxa, (Core.setManager_current ..).trans hxc⟩

/-- An end handler is scheduled. -/
theorem scheduleEnd (hp : Phased phase batch s) {o : ObjectPtr} {y a : ActionPtr}
    (hh : (Stage.noted o y a).InHand phase batch s) (h : Recorded (.noted o y a) batch s) :
    Recorded (.armed o a) batch (s.accept ⟨.handlerEnd, y⟩) := by
  have hperm := pending_accept_perm hp.filed batch ⟨.handlerEnd, y⟩
  have hmem : ∀ {x}, x ∈ pending batch (s.accept ⟨.handlerEnd, y⟩) →
      x = s.nextScheduling ⟨.handlerEnd, y⟩ ∨ x ∈ pending batch s := fun hx =>
    List.mem_cons.1 (hperm.mem_iff.1 hx)
  have hacc : ∀ {x}, x ∈ (s.accept ⟨.handlerEnd, y⟩).history.accepted →
      x = s.nextScheduling ⟨.handlerEnd, y⟩ ∨ x ∈ s.history.accepted := fun hx =>
    (List.mem_append.1 hx).symm.imp_left List.mem_singleton.1
  have hdirect : ∀ {o' a'}, s.Direct o' a' → (s.accept ⟨.handlerEnd, y⟩).Direct o' a' :=
    fun ⟨x, hx, hxa⟩ => ⟨x, List.mem_append_left _ hx, hxa⟩
  refine ⟨fun x hx => ?_, fun x hx => ?_, fun e he hk x hx hxa => ?_, fun o' a' ha => ?_, trivial⟩
  · rcases hacc hx with rfl | hx
    · exact Nat.le_refl _
    · exact (h.bound x hx).trans (Nat.le_succ _)
  · rcases hmem hx with rfl | hx
    · exact List.mem_append_right _ (List.mem_singleton_self _)
    · exact List.mem_append_left _ (h.accepted x hx)
  · rcases hacc hx with rfl | hx
    · cases hxa
    · rcases hmem he with rfl | he
      · exact Nat.lt_succ_of_le (h.bound x hx)
      · exact h.later e he hk x hx hxa
  · rcases h.direct o' a' ha with hd | hl
    · exact .inl (hdirect hd)
    · rcases eq_or_ne a' y with rfl | hne
      · left
        by_cases hya : a' = a
        · subst hya
          have ho : Phase.begun o' = .begun o :=
            (hp.active _ _ ha).symm.trans (hp.active _ _ hh.1)
          cases ho
          exact hdirect (h.knows.1 rfl)
        · exact hdirect ((h.knows.2 hya).1 o' ha)
      · refine .inr fun hmem' => ?_
        obtain ⟨x, hx, rfl⟩ := List.mem_map.1 hmem'
        rcases hmem hx with rfl | hx
        · exact hne rfl
        · exact hl (List.mem_map_of_mem hx)

theorem act {c c' : Stage × Core ω} (hact : Act c c') (hi : InPhase c.1 batch c.2)
    (h : Recorded c.1 batch c.2) : Recorded c'.1 batch c'.2 := by
  obtain ⟨phase, hp, hh⟩ := hi
  cases hact with
  | quiet hq => exact h.quiet hp hh hq
  | schedule _ hw hs _ => exact h.schedule hp hh hw hs
  | rejectStart _ hw hs => exact h.rejectStart hp hh hw hs
  | start ho hm =>
    refine h.setManager (fun c hc => .inr ?_) ⟨rfl, fun _ => h.knows, fun hne => absurd rfl hne, hh.1⟩
    rw [← Option.some.inj hc]
    exact hh.1
  | init ho hm =>
    refine h.setManager (fun c hc => .inr ?_) ?_
    · rw [← Option.some.inj hc]
      exact hh.1
    · simp [Stage.Knows, Core.setManager_manager]
  | delay ho hk hm => exact h.setManager (fun c hc => .inl (by rw [hm]; exact hc)) trivial
  | stuck ho hk hm => exact h.setManager nofun trivial
  | @note s o x y a =>
    obtain ⟨rfl, hstart, hknown, hloose⟩ := h.knows
    have hself : (s.setCurrent o (s.actions.cell x).mActionId).current o =
        (s.actions.cell x).mActionId := by rw [Core.setCurrent_current, if_pos rfl]
    have hother : ∀ {o' a'}, o' ≠ o → s.Direct o' a' →
        (s.setCurrent o (s.actions.cell x).mActionId).Direct o' a' := fun hne ⟨z, hz, hza, hzc⟩ =>
      ⟨z, hz, hza, by rw [Core.setCurrent_current, if_neg hne, hzc]⟩
    have hdirect : x = a → (s.setCurrent o (s.actions.cell x).mActionId).Direct o a := by
      rintro rfl
      obtain ⟨z, hz, hza, hzc⟩ := hstart rfl
      exact ⟨z, hz, hza, hself.trans hzc⟩
    refine ⟨h.bound, h.accepted, h.later, fun o' a' ha => ?_, hdirect, fun hne => ⟨?_, hloose⟩⟩
    · rw [Core.setCurrent_manager] at ha
      rcases eq_or_ne o' o with rfl | hne
      · obtain rfl := Option.some.inj (hh.1.symm.trans ha)
        exact .inr hloose
      · exact (h.direct o' a' ha).imp_left (hother hne)
    · intro o' ha
      rw [Core.setCurrent_manager] at ha
      refine hother ?_ (hknown hne o' ha)
      rintro rfl
      exact hne (Option.some.inj (ha.symm.trans hh.1))
  | @noteInit s o a =>
    refine ⟨h.bound, h.accepted, h.later, fun o' a' ha => ?_, ?_⟩
    · rw [Core.setCurrent_manager] at ha
      rcases eq_or_ne o' o with rfl | hne
      · obtain rfl := Option.some.inj (hh.1.symm.trans ha)
        exact .inr hh.2
      · refine (h.direct o' a' ha).imp_left fun ⟨z, hz, hza, hzc⟩ => ⟨z, hz, hza, ?_⟩
        rw [Core.setCurrent_current, if_neg hne, hzc]
    · have hk := h.knows
      simpa [Stage.Knows] using hk
  | scheduleEnd _ _ _ => exact scheduleEnd hp hh h
  | skipEnd _ => exact ⟨h.bound, h.accepted, h.later, h.direct, trivial⟩
  | rejectEnd =>
    exact ⟨fun x hx => (h.bound x hx).trans (Nat.le_succ _), h.accepted, h.later, h.direct, h.knows⟩
  | callStart => exact ⟨h.bound, h.accepted, h.later, h.direct, trivial⟩
  | callEnd => exact ⟨h.bound, h.accepted, h.later, h.direct, h.knows⟩
  | callInit => exact ⟨h.bound, h.accepted, h.later, h.direct, h.knows⟩
  | release hq => exact h.setManager nofun trivial
  | @releaseSome s k o a b q hq =>
    have hk := h.knows
    by_cases he : k = .handlerEnd
    · simp only [Stage.Knows, if_pos he] at hk
      exact h.setManager nofun ⟨he, known_setManager nofun hk⟩
    · simp only [Stage.Knows, if_neg he] at hk
      rw [hq] at hk
      cases hk
  | @activate s k o a b q ho hm =>
    have hb : phase b = .delayed o := hp.queue o b (by rw [hm]; exact List.mem_cons_self ..)
    have hab : a ≠ b := by
      rintro rfl
      obtain ⟨o', ho'⟩ := hh.2
      simp [hb] at ho'
    refine h.setManager (fun c hc => .inr ?_) ⟨h.knows.1, known_setManager ?_ h.knows.2, hab⟩
    · rw [← Option.some.inj hc]
      exact hp.loose_of_delayed hb
    · exact fun he => hab (Option.some.inj he).symm
  | @shift s k o a b hlt ht =>
    obtain ⟨rfl, hknown, hab⟩ := h.knows
    exact ⟨h.bound, h.accepted, h.later, h.direct, rfl, fun he => absurd he hab, fun _ => hknown,
      hh.2.2.2.2⟩

/-- Handlers leave the pending ones. -/
theorem sublist {batch' : List Scheduling} (h : Recorded .idle batch s)
    (hsub : (pending batch' s').Sublist (pending batch s))
    (hacc : s'.history.accepted = s.history.accepted) (hids : s'.history.ids = s.history.ids)
    (hobj : s'.objects = s.objects) : Recorded .idle batch' s' := by
  refine ⟨?_, fun x hx => ?_, fun e he hk x hx => ?_, fun o a ha => ?_, trivial⟩
  · rw [hacc, hids]; exact h.bound
  · rw [hacc]; exact h.accepted x (hsub.subset hx)
  · rw [hacc] at hx
    exact h.later e (hsub.subset he) hk x hx
  · simp only [Core.manager, hobj] at ha
    rcases h.direct o a ha with hd | hl
    · obtain ⟨x, hx, hxa, hxc⟩ := hd
      exact .inl ⟨x, hacc ▸ hx, hxa, by simpa only [Core.current, hobj] using hxc⟩
    · exact .inr fun hmem => hl ((hsub.map _).subset hmem)

/-- The core keeps the phases and the origin of the recorded ids. -/
theorem stepwise : Stepwise (ω := ω) (fun _ _ => True)
    fun st batch s => InPhase st batch s ∧ Recorded st batch s where
  act hact h := ⟨h.1.act hact, h.2.act hact h.1⟩
  advance ht h := ⟨InPhase.stepwise.advance ht h.1, { h.2 with }⟩
  fetch h hent hfiled := by
    refine ⟨InPhase.stepwise.fetch h.1 hent hfiled, h.2.sublist ?_ rfl rfl rfl⟩
    simp [pending, hent]
  fail h := ⟨InPhase.stepwise.fail h.1, h.2.sublist (List.Sublist.refl _) rfl rfl rfl⟩
  drop hC h hr :=
    ⟨InPhase.stepwise.drop hC h.1 hr, h.2.sublist (List.sublist_cons_self ..) rfl rfl rfl⟩
  take {x rest s o} hC h ht hlt hlook := by
    refine ⟨InPhase.stepwise.take hC h.1 ht hlt hlook, ?_⟩
    obtain ⟨⟨phase, hp, -⟩, hr⟩ := h
    have hmem : x ∈ pending (x :: rest) s := List.mem_cons_self ..
    have hrest : Recorded .idle rest (s.takeUp x) :=
      hr.sublist (List.sublist_cons_self ..) rfl rfl rfl
    refine { hrest with knows := ?_ }
    cases hk : x.handler.kind with
    | handlerStart => exact ⟨x, hr.accepted x hmem, by rw [← hk], hp.pendingId x hmem⟩
    | handlerEnd =>
      intro o' ha
      exact (hr.direct o' _ ha).resolve_right fun hl => hl (List.mem_map_of_mem hmem)
    | handlerInit => trivial

end Recorded

/-! ## The comparison in `endExecutionBase` -/

/-- The comparison that `endExecutionBase` of `a` makes on `o`. -/
def Core.IdsAgree (s : Core ω) (o : ObjectPtr) (a : ActionPtr) : Prop :=
  (s.actions.cell a).mActionId = (s.objects.cell o).mCurrentAction

/-- If the ids do not agree, `endExecutionBase` throws before it calls `endExecution`. -/
theorem endExecutionBase_of_not_idsAgree (V : Virtuals ω) {s : Core ω} {o : ObjectPtr}
    {a : ActionPtr} (ha : a < s.actions.next) (ho : o < s.objects.next) (h : ¬ s.IdsAgree o a) :
    BaseObject.endExecutionBase V true o a s =
      .error (.runtimeError "BaseObject: Action ends wrong action") s := by
  have hne : (s.actions.cell a).mActionId ≠ (s.objects.cell o).mCurrentAction := h
  simp [BaseObject.endExecutionBase, bind_apply, getAction_of_lt ha, getObject_of_lt ho, enforce,
    hne, throw_apply]

private theorem ofNat_eq_iff_dvd {m n : Nat} (h : m ≤ n) :
    BitVec.ofNat 32 n = BitVec.ofNat 32 m ↔ 2 ^ 32 ∣ n - m := by
  rw [← BitVec.toNat_inj, BitVec.toNat_ofNat, BitVec.toNat_ofNat]
  omega

section
variable {V : Virtuals ω} (hV : V.Lawful) {setup : CoreM ω Unit} (hsetup : ObjectProgram setup)
include hV hsetup

/-- When the end handler of the running action is due, the ids agree exactly if the core has given
out a multiple of 2³² ids since the start handler was scheduled. -/
theorem idsAgree_iff {compareIds : Bool} {world : ω} {m : Machine ω}
    (h : Reached V compareIds setup world m) (hm : m.control = .executing) {e : Scheduling}
    {rest : List Scheduling} (hb : m.batch = e :: rest) (he : e.handler.kind = .handlerEnd)
    {o : ObjectPtr} (ho : (m.core.manager o).mActiveAction = some e.action) :
    ∃ x ∈ m.core.history.accepted, x.handler = ⟨.handlerStart, e.action⟩ ∧ x.ids < e.ids ∧
      (m.core.IdsAgree o e.action ↔ 2 ^ 32 ∣ e.ids - x.ids) := by
  have hi : InPhase .idle m.batch m.core ∧ Recorded .idle m.batch m.core := by
    have := Recorded.stepwise.reached hV hsetup (fun _ _ _ => trivial)
      ⟨⟨_, .new world, trivial⟩, by simp [Core.new], by simp [pending, Core.new],
        by simp [pending, Core.new], by simp [Core.manager, Core.new, Heap.empty], trivial⟩ h
    simpa [Machine.Holds, hm] using this
  obtain ⟨⟨phase, hp, -⟩, hr⟩ := hi
  have hmem : e ∈ pending m.batch m.core := by
    rw [hb]
    exact List.mem_cons_self ..
  obtain ⟨x, hx, hxa, hxc⟩ :=
    (hr.direct o _ ho).resolve_right fun hl => hl (List.mem_map_of_mem hmem)
  have hlt := hr.later e hmem he x hx hxa
  refine ⟨x, hx, hxa, hlt, ?_⟩
  rw [← ofNat_eq_iff_dvd hlt.le, ← hp.pendingId e hmem, ← hxc]
  rfl

end

/-- The end of the only action of a simulation, which fails. -/
theorem oneObjectRun_evaluated :
    (oneObjectRun true [(5, 0)] 7).control = .executing ∧
      (oneObjectRun true [(5, 0)] 7).batch = [⟨⟨.handlerEnd, 0⟩, 5, 2, 2⟩] ∧
      ((oneObjectRun true [(5, 0)] 7).core.manager (0 : ObjectPtr)).mActiveAction = some 0 ∧
      ¬ (oneObjectRun true [(5, 0)] 7).core.IdsAgree 0 0 := by
  simp only [Core.IdsAgree]
  decide +kernel

theorem oneObjectRun_reached : Reached SimulationManager.virtuals true (oneObject [(5, 0)]) ()
    (oneObjectRun true [(5, 0)] 7) := ReachedUnder.run

theorem idsAgree_iff_single :
    let m := oneObjectRun true [(5, 0)] 7
    ∃ e, m.batch = [e] ∧ ∃ x ∈ m.core.history.accepted,
      x.handler = ⟨.handlerStart, e.action⟩ ∧ x.ids < e.ids ∧
        (m.core.IdsAgree 0 e.action ↔ 2 ^ 32 ∣ e.ids - x.ids) := by
  obtain ⟨hcontrol, hbatch, hactive, -⟩ := oneObjectRun_evaluated
  exact ⟨_, hbatch, idsAgree_iff SimulationManager.virtuals_lawful (oneObject_program _)
    oneObjectRun_reached hcontrol hbatch rfl hactive⟩

theorem not_idsAgree :
    ¬ ∀ (m : Machine Unit) (work : List (Duration × TimePoint)),
      Reached SimulationManager.virtuals true (oneObject work) () m → m.control = .executing →
      ∀ e rest, m.batch = e :: rest → e.handler.kind = .handlerEnd → ∀ o,
      (m.core.manager o).mActiveAction = some e.action → m.core.IdsAgree o e.action := by
  intro h
  obtain ⟨hcontrol, hbatch, hactive, hids⟩ := oneObjectRun_evaluated
  exact hids (h _ _ oneObjectRun_reached hcontrol _ _ hbatch rfl 0 hactive)

end Cosidia
