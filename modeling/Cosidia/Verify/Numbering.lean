import Cosidia.Verify.Runs
import Cosidia.Verify.Stepwise
import Mathlib.Algebra.Group.Nat.Defs

/-!
# How long action ids tell actions apart

The counter of action ids has 32 bits, and an action whose id is zero counts as one that has not been
scheduled yet. So the checks on the ids of actions are right as long as the counter has not come back
to zero.
-/

namespace Cosidia

open EStateM

variable {ω : Type}

/-! ## The ids given out -/

/-- What a counter of 32 bits shows while it is counted up `n` times from zero. -/
def counted (n : Nat) : List ActionId := (List.range n).map fun k => BitVec.ofNat 32 (k + 1)

theorem counted_succ (n : Nat) : counted (n + 1) = counted n ++ [BitVec.ofNat 32 n + 1] := by
  rw [counted, List.range_succ, List.map_append, List.map_singleton, BitVec.ofNat_add]
  rfl

theorem length_counted (n : Nat) : (counted n).length = n := by
  rw [counted, List.length_map, List.length_range]

theorem mem_counted {n : Nat} {id : ActionId} :
    id ∈ counted n ↔ ∃ k < n, BitVec.ofNat 32 (k + 1) = id := by
  simp [counted]

private theorem ofNat_succ_inj {j k : Nat} (hj : j < 2 ^ 32) (hk : k < 2 ^ 32)
    (h : BitVec.ofNat 32 (j + 1) = BitVec.ofNat 32 (k + 1)) : j = k := by
  rw [← BitVec.toNat_inj, BitVec.toNat_ofNat, BitVec.toNat_ofNat] at h
  omega

private theorem ofNat_succ_eq_zero {k : Nat} : BitVec.ofNat 32 (k + 1) = 0 ↔ 2 ^ 32 ∣ k + 1 := by
  rw [← BitVec.toNat_inj, BitVec.toNat_ofNat]
  exact (Nat.dvd_iff_mod_eq_zero ..).symm

/-- Zero is shown at the end of the first round. -/
theorem zero_mem_counted_iff {n : Nat} : 0 ∈ counted n ↔ 2 ^ 32 ≤ n := by
  rw [mem_counted]
  constructor
  · rintro ⟨k, hk, hzero⟩
    exact (Nat.le_of_dvd (Nat.succ_pos k) (ofNat_succ_eq_zero.1 hzero)).trans hk
  · intro hn
    exact ⟨2 ^ 32 - 1, by omega, ofNat_succ_eq_zero.2 (by decide)⟩

theorem counted_nodup {n : Nat} (h : n < 2 ^ 32) : (counted n).Nodup := by
  apply List.nodup_range.map_on
  intro j hj k hk hjk
  exact ofNat_succ_inj ((List.mem_range.1 hj).trans h) ((List.mem_range.1 hk).trans h) hjk

namespace Core

/-- The checks on the ids of actions are right about which actions have been scheduled. -/
structure JudgesIds (s : Core ω) : Prop where
  /-- `scheduleStartHandler` finds an id set exactly if it has already started the action. -/
  starting : ∀ p < s.actions.next,
    (Action.scheduleStartHandler p s).error? =
        some (.runtimeError (s.actions.cell p).kind.idAlreadySet) ↔
      (s.actions.cell p).mStateMachine ≠ .waiting
  /-- `scheduleEndHandler` misses an id exactly if the action has not been started. -/
  ending : ∀ p < s.actions.next, (s.actions.cell p).kind = .durationAction →
    ((Action.scheduleEndHandler p s).error? = some (.runtimeError
        "DurationAction: tried to schedule endHandler without beginHandler scheduled") ↔
      (s.actions.cell p).mStateMachine = .waiting)
  /-- No action with a scheduled handler is without an id. -/
  scheduled : ∀ x ∈ s.history.accepted,
    (s.actions.cell x.handler.mCorrespondingAction).mActionId ≠ 0

end Core

/-! ## What handlers do to the ids -/

/-- The counter shows how many ids have been given out, which are what it has shown so far, and until it
has come back to zero the actions without an id are those that wait to be scheduled. -/
structure Core.Numbered (s : Core ω) : Prop where
  counter : s.mCurrentActionId = BitVec.ofNat 32 s.history.ids
  given : s.history.given = counted s.history.ids
  made : ∀ x ∈ s.history.accepted, x.handler.mCorrespondingAction < s.actions.next
  waiting : s.history.ids < 2 ^ 32 → ∀ p < s.actions.next,
    ((s.actions.cell p).mActionId = 0 ↔ (s.actions.cell p).mStateMachine = .waiting)
  scheduled : s.history.ids < 2 ^ 32 → ∀ x ∈ s.history.accepted,
    (s.actions.cell x.handler.mCorrespondingAction).mActionId ≠ 0

/-- Nothing has happened to the ids; new actions wait without one. -/
structure SameNumbers (s s' : Core ω) : Prop where
  mCurrentActionId : s'.mCurrentActionId = s.mCurrentActionId
  ids : s'.history.ids = s.history.ids
  given : s'.history.given = s.history.given
  accepted : s'.history.accepted = s.history.accepted
  next : s.actions.next ≤ s'.actions.next
  action : ∀ p < s.actions.next, (s'.actions.cell p).mActionId = (s.actions.cell p).mActionId ∧
    (s'.actions.cell p).mStateMachine = (s.actions.cell p).mStateMachine
  new : ∀ p < s'.actions.next, s.actions.next ≤ p →
    (s'.actions.cell p).mActionId = 0 ∧ (s'.actions.cell p).mStateMachine = .waiting

namespace SameNumbers

/-- The actions are left alone. -/
theorem of_actions {s s' : Core ω} (hid : s'.mCurrentActionId = s.mCurrentActionId)
    (hactions : s'.actions = s.actions) (hids : s'.history.ids = s.history.ids)
    (hgiven : s'.history.given = s.history.given)
    (haccepted : s'.history.accepted = s.history.accepted) : SameNumbers s s' where
  mCurrentActionId := hid
  ids := hids
  given := hgiven
  accepted := haccepted
  next := by rw [hactions]
  action p _ := by rw [hactions]; exact ⟨rfl, rfl⟩
  new p hp hnew := by rw [hactions] at hp; omega

theorem refl (s : Core ω) : SameNumbers s s := of_actions rfl rfl rfl rfl rfl

theorem onAction {α : Type} {p : ActionPtr} {x : EStateM Failure Action α}
    (hx : ∀ a, (x a).state.mActionId = a.mActionId ∧
      (x a).state.mStateMachine = a.mStateMachine) (s : Core ω) :
    SameNumbers s (onAction p x s).state := by
  refine Post.state (post_onAction (fun _ => post_of_state ?_) (.refl s))
  refine ⟨rfl, rfl, rfl, rfl, Nat.le_refl _, fun q _ => ?_, fun q hq hnew => absurd hq (not_lt.2 hnew)⟩
  rcases eq_or_ne q p with rfl | hq
  · simpa using hx _
  · rw [show (s.writeAction p _).actions.cell q = s.actions.cell q from Heap.write_cell_of_ne hq]
    exact ⟨rfl, rfl⟩

theorem onObject {α : Type} (p : ObjectPtr) (x : EStateM Failure BaseObject α) (s : Core ω) :
    SameNumbers s (onObject p x s).state :=
  Post.state (post_onObject (fun _ => post_of_state (of_actions rfl rfl rfl rfl rfl)) (.refl s))

theorem onObjectList {α : Type} (x : EStateM Failure ObjectList α) (s : Core ω) :
    SameNumbers s (onObjectList x s).state := by
  simp only [Cosidia.onObjectList]
  rw [zoom_state]
  exact of_actions rfl rfl rfl rfl rfl

theorem allocAction (s : Core ω) {a : Action} (hid : a.mActionId = 0)
    (hwaiting : a.mStateMachine = .waiting) :
    SameNumbers s { s with actions := s.actions.alloc a } where
  mCurrentActionId := rfl
  ids := rfl
  given := rfl
  accepted := rfl
  next := Nat.le_succ _
  action p hp := by
    rw [Heap.alloc_cell_of_lt hp]
    exact ⟨rfl, rfl⟩
  new p hp hnew := by
    obtain rfl := Nat.le_antisymm (Nat.le_of_lt_succ hp) hnew
    rw [Heap.alloc_cell_self]
    exact ⟨hid, hwaiting⟩

end SameNumbers

namespace Core.Numbered

variable {s s' : Core ω}

theorem new (world : ω) : (Core.new world).Numbered where
  counter := rfl
  given := rfl
  made x hx := by cases hx
  waiting _ p hp := absurd hp (Nat.not_lt_zero p)
  scheduled _ x hx := by cases hx

theorem same (h : s.Numbered) (hs : SameNumbers s s') : s'.Numbered := by
  refine ⟨?_, ?_, fun x hx => ?_, fun hids p hp => ?_, fun hids x hx => ?_⟩
  · rw [hs.mCurrentActionId, hs.ids]
    exact h.counter
  · rw [hs.given, hs.ids]
    exact h.given
  · rw [hs.accepted] at hx
    exact (h.made x hx).trans_le hs.next
  · rw [hs.ids] at hids
    by_cases hold : p < s.actions.next
    · rw [(hs.action p hold).1, (hs.action p hold).2]
      exact h.waiting hids p hold
    · obtain ⟨hid, hwaiting⟩ := hs.new p hp (not_lt.1 hold)
      exact iff_of_true hid hwaiting
  · rw [hs.ids] at hids
    rw [hs.accepted] at hx
    rw [(hs.action _ (h.made x hx)).1]
    exact h.scheduled hids x hx

/-- The id that is given out next is zero only when the counter has come back to zero. -/
theorem next_ne_zero (h : s.Numbered) (hids : s.history.ids + 1 < 2 ^ 32) :
    s.mCurrentActionId + 1 ≠ 0 := by
  have hzero : BitVec.ofNat 32 (s.history.ids + 1) ≠ 0 := fun hzero =>
    absurd (Nat.le_of_dvd (Nat.succ_pos _) (ofNat_succ_eq_zero.1 hzero)) (not_le.2 hids)
  rwa [h.counter, show (1 : ActionId) = BitVec.ofNat 32 1 from rfl, ← BitVec.ofNat_add]

section
variable {handler : ActionHandler} {p : ActionPtr} {a : Action}

theorem started_cell (hp : handler.mCorrespondingAction = p) :
    ((s.writeAction p a).giveId handler).actions.cell p =
      { a with mActionId := s.mCurrentActionId + 1 } := by
  rw [Core.giveId, hp]
  apply (Heap.write_cell_self ..).trans
  rw [Core.writeAction_actions, Heap.write_cell_self]
  rfl

theorem started_cell_of_ne (hp : handler.mCorrespondingAction = p) {q : ActionPtr} (hq : q ≠ p) :
    ((s.writeAction p a).giveId handler).actions.cell q = s.actions.cell q := by
  rw [Core.giveId, hp]
  exact (Heap.write_cell_of_ne hq).trans (Heap.write_cell_of_ne hq)

/-- An action that has been started is given an id. -/
theorem giveId (h : s.Numbered) (handler : ActionHandler) (hp : handler.mCorrespondingAction = p)
    (hstarted : s.history.ids + 1 < 2 ^ 32 → a.mStateMachine ≠ .waiting) :
    ((s.writeAction p a).giveId handler).Numbered := by
  refine ⟨?_, ?_, h.made, fun hids q hq => ?_, fun hids x hx => ?_⟩
  · apply (congrArg (· + 1) h.counter).trans
    exact (BitVec.ofNat_add s.history.ids 1).symm
  · change s.history.given ++ [s.mCurrentActionId + 1] = counted (s.history.ids + 1)
    rw [counted_succ, h.given, h.counter]
  · rcases eq_or_ne q p with rfl | hne
    · rw [started_cell hp]
      exact iff_of_false (h.next_ne_zero hids) (hstarted hids)
    · rw [started_cell_of_ne hp hne]
      exact h.waiting (Nat.lt_of_succ_lt hids) q hq
  · rcases eq_or_ne x.handler.mCorrespondingAction p with he | hne
    · rw [he, started_cell hp]
      exact h.next_ne_zero hids
    · rw [started_cell_of_ne hp hne]
      exact h.scheduled (Nat.lt_of_succ_lt hids) x hx

/-- An action that has been started is given an id, and the handler is accepted. -/
theorem accept (h : s.Numbered) (handler : ActionHandler) (hp : handler.mCorrespondingAction = p)
    (hmade : p < s.actions.next)
    (hstarted : s.history.ids + 1 < 2 ^ 32 → a.mStateMachine ≠ .waiting) :
    ((s.writeAction p a).accept handler).Numbered := by
  have hgive := h.giveId handler hp hstarted
  have hcases : ∀ x ∈ ((s.writeAction p a).accept handler).history.accepted,
      x ∈ s.history.accepted ∨ x.handler.mCorrespondingAction = p := by
    intro x hx
    rw [Core.accept_accepted] at hx
    rcases List.mem_append.1 hx with hx | hx
    · exact .inl hx
    · obtain rfl := List.mem_singleton.1 hx
      exact .inr hp
  refine ⟨hgive.counter, hgive.given, fun x hx => ?_, hgive.waiting, fun hids x hx => ?_⟩
  · rcases hcases x hx with hx | he
    · exact hgive.made x hx
    · rw [he]
      exact hmade
  · rcases hcases x hx with hx | he
    · exact hgive.scheduled hids x hx
    · rw [he, Core.accept_actions, started_cell hp]
      exact h.next_ne_zero hids

end

theorem scheduleStartHandler (h : s.Numbered) (p : ActionPtr) :
    (Action.scheduleStartHandler p s).state.Numbered := by
  by_cases hp : p < s.actions.next
  swap
  · simp only [Action.scheduleStartHandler]
    rw [bind_apply, getAction_of_not_lt hp]
    exact h
  have hstarted : (s.actions.cell p).scheduled.mStateMachine ≠ .waiting := by
    simp only [Action.scheduled]
    cases (s.actions.cell p).kind <;> simp [ActionKind.scheduled]
  rw [Action.scheduleStartHandler_cases hp]
  split_ifs with hid hwaiting htime
  · exact h.accept _ rfl hp fun _ => hstarted
  · exact h.giveId _ rfl fun _ => hstarted
  · -- an action without an id that does not wait: the counter has come back to zero
    have hids : ¬ s.history.ids < 2 ^ 32 := fun hids => hwaiting ((h.waiting hids p hp).1 hid)
    exact ⟨h.counter, h.given, h.made, fun h => absurd h hids, fun h => absurd h hids⟩
  · exact h

theorem scheduleEndHandler (h : s.Numbered) (p : ActionPtr) :
    (Action.scheduleEndHandler p s).state.Numbered := by
  by_cases hp : p < s.actions.next
  swap
  · simp only [Action.scheduleEndHandler]
    rw [bind_apply, getAction_of_not_lt hp]
    exact h
  cases hk : (s.actions.cell p).kind with
  | initAction =>
    rw [Action.scheduleEndHandler_of_initAction hp hk]
    exact h
  | durationAction =>
    have hsame : s.writeAction p (s.actions.cell p) = s := by
      rw [Core.writeAction, Heap.write_cell_eq]
    have hstarted (hid : (s.actions.cell p).mActionId ≠ 0) :
        s.history.ids + 1 < 2 ^ 32 → (s.actions.cell p).mStateMachine ≠ .waiting :=
      fun hids hw => hid ((h.waiting (Nat.lt_of_succ_lt hids) p hp).2 hw)
    rw [Action.scheduleEndHandler_cases hp hk]
    split_ifs with hid htime
    · exact h
    · have haccept := h.accept ⟨.handlerEnd, p⟩ rfl hp (hstarted hid)
      rwa [hsame] at haccept
    · have hgive := h.giveId ⟨.handlerEnd, p⟩ rfl (hstarted hid)
      rwa [hsame] at hgive

/-- Everything the code of an object does. -/
theorem objectPrim {α : Type} {x : CoreM ω α} (h : s.Numbered) (hx : ObjectPrim x) :
    (x s).state.Numbered := by
  cases hx with
  | getAction p => exact h.same (.onAction (fun _ => ⟨rfl, rfl⟩) s)
  | getObject p => exact h.same (.onObject p _ s)
  | create kind duration start id generator =>
    rcases ActionFactory.create_state kind duration start id generator s with he | ⟨a, hid, hw, he⟩
    · rw [he]
      exact h
    · rw [he]
      exact h.same (.allocAction s hid hw)
  | setType p type => exact h.same (.onAction (fun _ => ⟨rfl, rfl⟩) s)
  | setActionData p data =>
    refine h.same (.onAction (fun a => ?_) s)
    cases ha : a.mActionData <;>
      simp [Action.setActionData, bind_apply, get_apply, ha, throw_apply, modify_apply]
  | scheduleStartHandler p => exact h.scheduleStartHandler p
  | makeObject name externalId => exact h.same (.of_actions rfl rfl rfl rfl rfl)
  | setObjectId p id | addParent p id | addChild p id | setExternalId p id =>
    exact h.same (.onObject p _ s)
  | getNextObjectId | removeObjectFromSimulation id => exact h.same (.onObjectList _ s)
  | addObject p | addUniqueObject p =>
    obtain ⟨l, he⟩ := Core.addInitialized_state p _ _ s
    exact he ▸ h.same (.of_actions rfl rfl rfl rfl rfl)
  | world f => exact h.same (.of_actions rfl rfl rfl rfl rfl)

theorem handlerProgram {α : Type} {x : CoreM ω α} (hx : HandlerProgram x) (h : s.Numbered) :
    (x s).state.Numbered := by
  refine hx.preserves (I := Core.Numbered) (fun {_ _} hx s h => ?_) h
  cases hx with
  | object hx => exact h.objectPrim hx
  | onObject p x => exact h.same (.onObject p x s)
  | shiftStartTime p t =>
    refine h.same (.onAction (fun a => ?_) s)
    rw [Action.shiftStartTime_apply]
    split_ifs <;> exact ⟨rfl, rfl⟩
  | scheduleEndHandler p => exact h.scheduleEndHandler p
  | noteCall kind obj action => exact h.same (.of_actions rfl rfl rfl rfl rfl)

theorem scheduleStartHandler_set_iff {p : ActionPtr} (hp : p < s.actions.next) :
    (Action.scheduleStartHandler p s).error? =
        some (.runtimeError (s.actions.cell p).kind.idAlreadySet) ↔
      (s.actions.cell p).mActionId ≠ 0 := by
  have horder : (s.actions.cell p).kind.idAlreadySet ≠ "ActionList: Wrong order of actions" := by
    cases (s.actions.cell p).kind <;> decide
  have hstate : (s.actions.cell p).kind.idAlreadySet ≠
      "ActionStateMachine: Wrong State for begin Action" := by
    cases (s.actions.cell p).kind <;> decide
  rw [Action.scheduleStartHandler_cases hp]
  split_ifs with hid hwaiting htime
  · simp [Result.error?, hid]
  · simp [Result.error?, hid, horder.symm]
  · simp [Result.error?, hid, hstate.symm]
  · exact iff_of_true rfl hid

theorem scheduleEndHandler_unset_iff {p : ActionPtr} (hp : p < s.actions.next)
    (hk : (s.actions.cell p).kind = .durationAction) :
    (Action.scheduleEndHandler p s).error? = some (.runtimeError
        "DurationAction: tried to schedule endHandler without beginHandler scheduled") ↔
      (s.actions.cell p).mActionId = 0 := by
  rw [Action.scheduleEndHandler_cases hp hk]
  split_ifs with hid htime
  · exact iff_of_true rfl hid
  · simpa [Result.error?] using hid
  · simpa [Result.error?] using hid

/-- As long as the counter has not come back to zero, the checks are right. -/
theorem judgesIds (h : s.Numbered) (hids : s.history.ids < 2 ^ 32) : s.JudgesIds where
  starting p hp := (scheduleStartHandler_set_iff hp).trans (not_congr (h.waiting hids p hp))
  ending p hp hk := (scheduleEndHandler_unset_iff hp hk).trans (h.waiting hids p hp)
  scheduled := h.scheduled hids

end Core.Numbered

/-! ## Whole runs -/

section
variable (V : Virtuals ω) (compareIds : Bool) (setup : CoreM ω Unit) (world : ω)

/-- The cores that a simulation passes through, those in the middle of a handler included. -/
inductive Passed : Core ω → Prop
  | between {m : Machine ω} : Reached V compareIds setup world m → Passed m.core
  /-- The next handler of the batch is taken up. -/
  | takeUp {m : Machine ω} {h : Scheduling} {rest : List Scheduling} :
    Reached V compareIds setup world m → m.control = .executing → m.batch = h :: rest →
    Passed (m.core.takeUp h)
  /-- Some of the code of a handler, or of `setup`, has run. -/
  | code {α : Type} {s : Core ω} {x : CoreM ω α} : Passed s → HandlerProgram x →
    Passed (x s).state

end

section
variable {V : Virtuals ω} (hV : V.Lawful) {setup : CoreM ω Unit} (hsetup : ObjectProgram setup)
include hV hsetup

theorem Machine.numbered_step {m : Machine ω} (h : m.core.Numbered) (compareIds : Bool)
    (delay : Duration) : (m.step V compareIds setup delay).core.Numbered := by
  simp only [Machine.step]
  split
  case h_1 hm =>
    rw [Machine.resume_core]
    have hprogram : HandlerProgram (do setup; return Control.runSimulationLoop) :=
      .bind (HandlerProgram.objectProgram hsetup) fun _ => .pure _
    exact h.handlerProgram hprogram
  case h_2 hm =>
    simp only [Machine.loop]
    rw [Machine.resume_core, Core.runSimulationLoop_apply]
    dsimp only
    split_ifs <;> exact h.same (.of_actions rfl rfl rfl rfl rfl)
  case h_3 hm =>
    simp only [Machine.fetch]
    have hpop : SameNumbers m.core (Core.popNextHandlers m.core).state := by
      rw [Core.popNextHandlers, zoom_state]
      exact .of_actions rfl rfl rfl rfl rfl
    cases hx : Core.popNextHandlers m.core with
    | ok handlers s =>
      rw [hx] at hpop
      rw [Machine.resume_core, Core.checkHandlers_state]
      exact h.same hpop
    | error f s =>
      rw [hx] at hpop
      exact h.same hpop
  case h_4 hm =>
    split
    case h_1 hb => exact h
    case h_2 x rest hb =>
      have htaken : (m.core.takeUp x).Numbered := h.same (.of_actions rfl rfl rfl rfl rfl)
      have hprogram : HandlerProgram (do Core.dispatch V compareIds x; return Control.executing) :=
        .bind (HandlerProgram.dispatch hV compareIds x) fun _ => .pure _
      rw [Machine.resume_core]
      exact htaken.handlerProgram hprogram
  all_goals exact h

variable {compareIds : Bool} {world : ω} {s : Core ω}

theorem Passed.numbered (h : Passed V compareIds setup world s) : s.Numbered := by
  have hreached : ∀ {m}, Reached V compareIds setup world m → m.core.Numbered := by
    intro m hm
    refine hm.invariant (I := fun m => m.core.Numbered) ?_ ?_
    · rintro m rfl
      exact .new world
    · rintro m m' - hi ⟨-, delay, rfl⟩
      exact Machine.numbered_step hV hsetup hi compareIds delay
  induction h with
  | between hm => exact hreached hm
  | takeUp hm _ _ => exact (hreached hm).same (.of_actions rfl rfl rfl rfl rfl)
  | code _ hx ih => exact ih.handlerProgram hx

/-- The ids given out are distinct and not zero, and the checks on them are right, exactly as long as
fewer than 2³² ids have been given out. -/
theorem idsDistinct_iff (h : Passed V compareIds setup world s) :
    s.history.given.Nodup ∧ 0 ∉ s.history.given ∧ s.JudgesIds ↔ s.history.given.length < 2 ^ 32 := by
  have hnumbered := h.numbered hV hsetup
  rw [hnumbered.given, length_counted]
  constructor
  · rintro ⟨-, hzero, -⟩
    exact not_le.1 fun hle => hzero (zero_mem_counted_iff.2 hle)
  · intro hids
    exact ⟨counted_nodup hids, fun hzero => not_le.2 hids (zero_mem_counted_iff.1 hzero),
      hnumbered.judgesIds hids⟩

end

/-! ## Many actions for one object -/

/-- Each action that is made and scheduled takes one id. -/
theorem forM_createSelfAction_ids {o : ObjectPtr} (work : List (Duration × TimePoint)) {s : Core ω}
    (ho : o < s.objects.next) (hid : (s.objects.cell o).mObjectId.valid = true)
    (hnow : s.mCurrentActionTime = 0) (hstart : ∀ w ∈ work, 0 ≤ w.2) :
    ((work.forM fun w => do
      let action ← createSelfAction o w.1 w.2
      Action.scheduleStartHandler action : CoreM ω Unit) s).state.history.ids = s.history.ids + work.length := by
  induction work generalizing s with
  | nil => rfl
  | cons w work ih =>
    have h0 := hstart w (List.mem_cons_self ..)
    -- the action is made, and scheduled for a time that is not over
    let made := { s with actions := s.actions.alloc ⟨.durationAction, w.1, w.2,
      (s.objects.cell o).mObjectId, (s.objects.cell o).mObjectId, "default", none, 0, .waiting⟩ }
    have hmake : createSelfAction o w.1 w.2 s = .ok s.actions.next made :=
      bind_eq_ok.2 ⟨_, s, getObject_of_lt ho, ActionFactory.create_apply hid h0 s⟩
    have hcell : made.actions.cell s.actions.next = _ := Heap.alloc_cell_self ..
    have hschedule : Action.scheduleStartHandler s.actions.next made =
        .ok () (made.schedule s.actions.next) := by
      apply Action.scheduleStartHandler_apply (Nat.lt_succ_self _) (by rw [hcell]) (by rw [hcell])
      rw [hcell]
      exact hnow.trans_le h0
    have hfirst : (do
        let action ← createSelfAction o w.1 w.2
        Action.scheduleStartHandler action) s = .ok () (made.schedule s.actions.next) :=
      bind_eq_ok.2 ⟨_, _, hmake, hschedule⟩
    have hrest : (List.forM (w :: work) fun w => do
        let action ← createSelfAction o w.1 w.2
        Action.scheduleStartHandler action) s = (List.forM work fun w => do
          let action ← createSelfAction o w.1 w.2
          Action.scheduleStartHandler action) (made.schedule s.actions.next) := by
      apply (bind_apply _ _ s).trans
      beta_reduce
      rw [hfirst]
    rw [hrest]
    refine (ih (s := made.schedule s.actions.next) ho hid hnow
      fun w hw => hstart w (List.mem_cons_of_mem _ hw)).trans ?_
    have hids : (made.schedule s.actions.next).history.ids = s.history.ids + 1 := rfl
    rw [hids, List.length_cons]
    omega

theorem oneObject_ids {work : List (Duration × TimePoint)} (hstart : ∀ w ∈ work, 0 ≤ w.2)
    (world : ω) : (oneObject work (Core.new world)).state.history.ids = work.length := by
  obtain ⟨s, hs, ho, hid, hnow, hids⟩ : ∃ s : Core ω, oneObject work (Core.new world) =
      (work.forM fun w => do
        let action ← createSelfAction 0 w.1 w.2
        Action.scheduleStartHandler action : CoreM ω Unit) s ∧ 0 < s.objects.next ∧
      (s.objects.cell 0).mObjectId.valid = true ∧ s.mCurrentActionTime = 0 ∧ s.history.ids = 0 :=
    ⟨_, rfl, Nat.lt_succ_self 0, rfl, rfl, rfl⟩
  rw [hs, forM_createSelfAction_ids work ho hid hnow hstart, hids, Nat.zero_add]

theorem oneObject_passed (work : List (Duration × TimePoint)) :
    Passed SimulationManager.virtuals true (oneObject work) () (oneObject work (Core.new ())).state :=
  .code (.between (.init rfl)) (.objectProgram (oneObject_program work))

/-- The ids that are given out to the actions. -/
theorem oneObject_given {work : List (Duration × TimePoint)} (hstart : ∀ w ∈ work, 0 ≤ w.2) :
    (oneObject work (Core.new ())).state.history.given = counted work.length := by
  rw [((oneObject_passed work).numbered SimulationManager.virtuals_lawful
    (oneObject_program work)).given, oneObject_ids hstart]

/-- One action, whose id is not zero. -/
theorem idsDistinct_iff_single :
    let s := (oneObject [(5, 0)] (Core.new ())).state
    s.history.given = [1] ∧ s.history.given.Nodup ∧ 0 ∉ s.history.given ∧ s.JudgesIds := by
  have hgiven : (oneObject [(5, 0)] (Core.new ())).state.history.given = [1] :=
    oneObject_given (by simp)
  refine ⟨hgiven, (idsDistinct_iff SimulationManager.virtuals_lawful (oneObject_program _)
    (oneObject_passed _)).2 ?_⟩
  rw [hgiven]
  decide

/-- The 2³²-th action that is scheduled is given the id zero. -/
theorem not_idsDistinct :
    ¬ ∀ (work : List (Duration × TimePoint)) (s : Core Unit),
      Passed SimulationManager.virtuals true (oneObject work) () s →
        s.history.given.Nodup ∧ 0 ∉ s.history.given ∧ s.JudgesIds := by
  intro h
  obtain ⟨-, hzero, -⟩ := h (List.replicate (2 ^ 32) (5, 0)) _ (oneObject_passed _)
  apply hzero
  rw [oneObject_given (fun w hw => (List.eq_of_mem_replicate hw) ▸ le_rfl), List.length_replicate,
    zero_mem_counted_iff]

end Cosidia
