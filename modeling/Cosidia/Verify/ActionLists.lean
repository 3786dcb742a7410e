import Cosidia.Core.ActionList
import Cosidia.Theory.Calls
import Cosidia.Theory.StableQueue

/-!
# The action list is a stable priority queue

To its callers an `ActionList` is the list of the handlers inserted and not yet popped, in the order
of insertion. `StableQueue.perform` says what each call does to this list; the buckets of the
`ActionList` sort it by time point, whatever the calls and the time point the core is at.
-/

namespace Cosidia

open EStateM BucketMap

variable {α : Type}

/-- The calls of an `ActionList`. `mCurrentActionTime` is a reference to a member of the core: an
insertion comes with the value that it finds there. -/
inductive ActionListCall (α : Type) where
  | insertHandler (mCurrentActionTime : TimePoint) (handler : α)
  | popNextHandlers
  | getNextHandlerList
  | getNextTimePoint

/-- What the calls return. -/
inductive ActionListReply (α : Type) where
  | done
  | handlers (l : List α)
  | time (t : TimePoint)
  deriving DecidableEq

/-- A call of an action list; `key` is the time a handler reports. -/
def ActionList.perform (key : α → TimePoint) :
    ActionListCall α → EStateM Failure (HandlerMap α) (ActionListReply α)
  | .insertHandler now h => do
    ActionList.insertHandler now (key h) h
    return .done
  | .popNextHandlers => do return .handlers (← ActionList.popNextHandlers)
  | .getNextHandlerList => do return .handlers (← ActionList.getNextHandlerList)
  | .getNextTimePoint => do return .time (ActionList.getNextTimePoint (← get))

/-- The time point of the handlers that leave next. -/
def StableQueue.nextTime (key : α → TimePoint) (l : List α) : TimePoint :=
  match StableQueue.front key l with
  | [] => SimClock.invalid
  | h :: _ => key h

/-- The same calls of the list of handlers inserted and not yet popped. -/
def StableQueue.perform (key : α → TimePoint) :
    ActionListCall α → EStateM Failure (List α) (ActionListReply α)
  | .insertHandler now h => do
    enforce (key h ≥ now) "ActionList: Wrong order of actions"
    modify (· ++ [h])
    return .done
  | .popNextHandlers => do
    let l ← get
    set (StableQueue.rest key l)
    return .handlers (StableQueue.front key l)
  | .getNextHandlerList => do return .handlers (StableQueue.front key (← get))
  | .getNextTimePoint => do return .time (StableQueue.nextTime key (← get))

section
variable {key : α → TimePoint} {m : HandlerMap α} {l : List α}

@[simp] theorem StableQueue.perform_popNextHandlers :
    StableQueue.perform key .popNextHandlers l =
      .ok (.handlers (StableQueue.front key l)) (StableQueue.rest key l) := rfl

@[simp] theorem StableQueue.perform_getNextHandlerList :
    StableQueue.perform key .getNextHandlerList l = .ok (.handlers (StableQueue.front key l)) l := rfl

@[simp] theorem StableQueue.perform_getNextTimePoint :
    StableQueue.perform key .getNextTimePoint l = .ok (.time (StableQueue.nextTime key l)) l := rfl

theorem StableQueue.perform_insertHandler (now : TimePoint) (x : α) :
    StableQueue.perform key (.insertHandler now x) l =
      if now ≤ key x then .ok .done (l ++ [x])
      else .error (.runtimeError "ActionList: Wrong order of actions") l := by
  by_cases hx : now ≤ key x
  · have hdec : decide (key x ≥ now) = true := decide_eq_true hx
    simp only [StableQueue.perform, bind_apply, hdec, enforce_true, pure_apply, modify_apply,
      if_pos hx]
  · have hdec : decide (key x ≥ now) = false := decide_eq_false hx
    simp only [StableQueue.perform, bind_apply, enforce, hdec, throw_apply, if_neg hx,
      Bool.false_eq_true, if_false]

theorem ActionList.getNextTimePoint_eq (h : Sorts key m l) :
    ActionList.getNextTimePoint m = StableQueue.nextTime key l := by
  cases hl : m.toList with
  | nil =>
    obtain rfl := h.toList_eq_nil_iff.1 hl
    exact ActionList.getNextTimePoint_of_nil hl
  | cons e buckets =>
    obtain ⟨-, hne, hkey⟩ := h.first hl
    rw [ActionList.getNextTimePoint_of_cons hl, StableQueue.nextTime]
    cases hfront : StableQueue.front key l with
    | nil => exact absurd hfront hne
    | cons x front => exact (hkey x (by rw [hfront]; exact List.mem_cons_self ..)).symm

theorem ActionList.popNextHandlers_of_sorts (h : Sorts key m l) :
    ∃ m', ActionList.popNextHandlers m = .ok (StableQueue.front key l) m' ∧
      Sorts key m' (StableQueue.rest key l) := by
  cases hl : m.toList with
  | nil =>
    obtain rfl := h.toList_eq_nil_iff.1 hl
    refine ⟨m, ?_, h⟩
    simp only [ActionList.popNextHandlers, bind_apply, get_apply, hl, List.head?_nil, pure_apply]
    rfl
  | cons e buckets =>
    obtain ⟨time, b⟩ := e
    obtain ⟨hb, hne, -⟩ := h.first hl
    subst hb
    have hfull : (StableQueue.front key l).isEmpty = false := by simpa using hne
    refine ⟨m.erase time, ?_, h.erase_first hl⟩
    simp only [ActionList.popNextHandlers, bind_apply, get_apply, hl, List.head?_cons, modify_apply,
      hfull, Bool.not_false, enforce_true, pure_apply]

theorem ActionList.getNextHandlerList_of_sorts (h : Sorts key m l) :
    ActionList.getNextHandlerList m = .ok (StableQueue.front key l) m := by
  cases hl : m.toList with
  | nil =>
    obtain rfl := h.toList_eq_nil_iff.1 hl
    simp only [ActionList.getNextHandlerList, bind_apply, get_apply, hl, List.head?_nil, pure_apply]
    rfl
  | cons e buckets =>
    obtain ⟨time, b⟩ := e
    obtain ⟨hb, hne, -⟩ := h.first hl
    subst hb
    have hfull : (StableQueue.front key l).isEmpty = false := by simpa using hne
    simp only [ActionList.getNextHandlerList, bind_apply, get_apply, hl, List.head?_cons, hfull,
      Bool.not_false, enforce_true, pure_apply]

/-- One call: the buckets answer as the list does and sort what it has become. -/
theorem ActionList.perform_sorts (h : Sorts key m l) (call : ActionListCall α) :
    (ActionList.perform key call m).outcome = (StableQueue.perform key call l).outcome ∧
      Sorts key (ActionList.perform key call m).state (StableQueue.perform key call l).state := by
  cases call with
  | insertHandler now x =>
    rw [StableQueue.perform_insertHandler]
    by_cases hx : now ≤ key x
    · have hinsert : ActionList.insertHandler now (key x) x m = .ok () (m.push (key x) x) :=
        ActionList.insertHandler_eq_ok.2 ⟨hx, rfl⟩
      simp only [ActionList.perform, bind_apply, hinsert, pure_apply, if_pos hx]
      exact ⟨rfl, h.push x⟩
    · have hreject : ActionList.insertHandler now (key x) x m =
          .error (.runtimeError "ActionList: Wrong order of actions") m :=
        ActionList.insertHandler_eq_error.2 ⟨not_le.1 hx, rfl, rfl⟩
      simp only [ActionList.perform, bind_apply, hreject, if_neg hx]
      exact ⟨rfl, h⟩
  | popNextHandlers =>
    obtain ⟨m', hpop, hm'⟩ := ActionList.popNextHandlers_of_sorts h
    simp only [ActionList.perform, bind_apply, hpop, pure_apply]
    exact ⟨rfl, hm'⟩
  | getNextHandlerList =>
    simp only [ActionList.perform, bind_apply, ActionList.getNextHandlerList_of_sorts h, pure_apply]
    exact ⟨rfl, h⟩
  | getNextTimePoint =>
    simp only [ActionList.perform, bind_apply, get_apply, pure_apply,
      ActionList.getNextTimePoint_eq h]
    exact ⟨rfl, h⟩

end

/-! ## All sequences of calls -/

/-- No call of the list reports an empty list at a time point. -/
theorem StableQueue.outcome_ne_emptyList (key : α → TimePoint) (call : ActionListCall α)
    (l : List α) :
    (StableQueue.perform key call l).outcome ≠
      .error (.runtimeError "ActionList: Time point with empty list") := by
  cases call with
  | insertHandler now x =>
    rw [StableQueue.perform_insertHandler]
    split <;> simp
  | popNextHandlers | getNextHandlerList | getNextTimePoint => simp

/-- The list holds handlers of non-negative times if the core is never before the start. -/
theorem StableQueue.perform_nonneg {key : α → TimePoint} {call : ActionListCall α}
    (hcall : ∀ now h, call = .insertHandler now h → 0 ≤ now) {l : List α}
    (hl : ∀ h ∈ l, 0 ≤ key h) : ∀ h ∈ (StableQueue.perform key call l).state, 0 ≤ key h := by
  cases call with
  | insertHandler now x =>
    rw [StableQueue.perform_insertHandler]
    split
    · next hx =>
      refine List.forall_mem_append.2 ⟨hl, List.forall_mem_singleton.2 ?_⟩
      exact (hcall now x rfl).trans hx
    · exact hl
  | popNextHandlers =>
    intro h hh
    exact hl h (List.mem_filter.1 hh).1
  | getNextHandlerList => exact hl
  | getNextTimePoint => exact hl

theorem StableQueue.nextTime_eq_invalid_iff {key : α → TimePoint} {l : List α}
    (hl : ∀ h ∈ l, 0 ≤ key h) : StableQueue.nextTime key l = SimClock.invalid ↔ l = [] := by
  have hnil : StableQueue.front key l = [] ↔ l = [] := StableQueue.front_eq_nil_iff
  rw [← hnil, StableQueue.nextTime]
  cases hfront : StableQueue.front key l with
  | nil => exact iff_of_true rfl rfl
  | cons x front =>
    have hx : x ∈ StableQueue.front key l := by
      rw [hfront]
      exact List.mem_cons_self ..
    have hkey := hl x (StableQueue.mem_front.1 hx).1
    have hinvalid : SimClock.invalid < 0 := by decide
    exact iff_of_false (hinvalid.trans_le hkey).ne' (List.cons_ne_nil _ _)

/-- Whatever the calls, an `ActionList` answers like the list of the handlers inserted and not yet
popped, which its buckets sort; no check for an empty list ever fires. -/
theorem actionList_stablePriorityQueue (key : α → TimePoint) (calls : List (ActionListCall α))
    (hcalls : ∀ now h, .insertHandler now h ∈ calls → 0 ≤ now) :
    let m := Calls.after (ActionList.perform key) ∅ calls
    let pending := Calls.after (StableQueue.perform key) [] calls
    Calls.outcomes (ActionList.perform key) ∅ calls =
        Calls.outcomes (StableQueue.perform key) [] calls ∧
      .error (.runtimeError "ActionList: Time point with empty list") ∉
        Calls.outcomes (ActionList.perform key) ∅ calls ∧
      (∀ time b, m[time]? = some b ↔ b ≠ [] ∧ b = pending.filter (key · = time)) ∧
      (ActionList.getNextTimePoint m = SimClock.invalid ↔ pending = []) := by
  intro m pending
  obtain ⟨houtcomes, hsorts⟩ := Calls.simulated (sorts_empty key)
    fun call _ m l h => ActionList.perform_sorts h call
  have hnonneg : ∀ h ∈ pending, 0 ≤ key h :=
    (Calls.invariant _ _ (I := fun l => ∀ h ∈ l, 0 ≤ key h) (List.forall_mem_nil _)
      fun call hcall l hl => StableQueue.perform_nonneg
        (fun now h he => hcalls now h (he ▸ hcall)) hl).2
  refine ⟨houtcomes, ?_, hsorts, ?_⟩
  · rw [houtcomes, Calls.outcomes]
    intro hmem
    obtain ⟨e, -, he⟩ := List.mem_map.1 hmem
    exact StableQueue.outcome_ne_emptyList key e.2 e.1 he
  · rw [ActionList.getNextTimePoint_eq hsorts]
    exact StableQueue.nextTime_eq_invalid_iff hnonneg

/-- A handler earlier than one already popped is the next, and of two at one time the first. -/
theorem actionList_stablePriorityQueue_afterPop :
    Calls.outcomes (ActionList.perform fun h : Int × Nat => h.1) ∅
        [.insertHandler 0 (5, 0), .popNextHandlers, .insertHandler 0 (3, 1), .insertHandler 4 (3, 2),
          .insertHandler 0 (3, 3), .getNextTimePoint, .popNextHandlers] =
      [.ok .done, .ok (.handlers [(5, 0)]), .ok .done,
        .error (.runtimeError "ActionList: Wrong order of actions"), .ok .done, .ok (.time 3),
        .ok (.handlers [(3, 1), (3, 3)])] := by
  obtain ⟨houtcomes, -⟩ := actionList_stablePriorityQueue (fun h : Int × Nat => h.1)
    [.insertHandler 0 (5, 0), .popNextHandlers, .insertHandler 0 (3, 1), .insertHandler 4 (3, 2),
      .insertHandler 0 (3, 3), .getNextTimePoint, .popNextHandlers]
    (by simp only [List.mem_cons, ActionListCall.insertHandler.injEq]; grind)
  rw [houtcomes]
  rfl

end Cosidia
