import Cosidia.Core.Basic
import Cosidia.Theory.BucketMap

/-!
# The future action set

`ActionList` keeps the pending handlers by time point. The handlers it holds are left open here:
it never looks into them but for the time they report when they are inserted.
-/

namespace Cosidia

open EStateM

/-- `std::map<SimClock::time_point, std::list<HandlerP>>`. -/
abbrev HandlerMap (α : Type) := BucketMap TimePoint α compare

namespace ActionList

variable {α : Type}

def getNextTimePoint (mHandlerMap : HandlerMap α) : TimePoint :=
  match mHandlerMap.toList.head? with
  | none => SimClock.invalid
  | some (time, _) => time

/-- `insertHandler` of a handler that reports `time` while the core is at `mCurrentActionTime`. -/
def insertHandler (mCurrentActionTime time : TimePoint) (handler : α) :
    EStateM Failure (HandlerMap α) Unit := do
  enforce (time ≥ mCurrentActionTime) "ActionList: Wrong order of actions"
  modify fun m => m.push time handler

def popNextHandlers : EStateM Failure (HandlerMap α) (List α) := do
  match (← get).toList.head? with
  | none => return []
  | some (time, nextAction) =>
    enforce (!nextAction.isEmpty) "ActionList: Time point with empty list"
    modify fun m => m.erase time
    return nextAction

def getNextHandlerList : EStateM Failure (HandlerMap α) (List α) := do
  match (← get).toList.head? with
  | none => return []
  | some (_, nextAction) =>
    enforce (!nextAction.isEmpty) "ActionList: Time point with empty list"
    return nextAction

/-! ## What each operation does -/

variable {key : α → TimePoint} {m m' : HandlerMap α} {now : TimePoint}

theorem insertHandler_eq_ok {time : TimePoint} {h : α} {u : Unit} :
    insertHandler now time h m = .ok u m' ↔ now ≤ time ∧ m' = m.push time h := by
  simp only [insertHandler, bind_eq_ok, enforce_eq_ok, modify_eq_ok, decide_eq_true_eq]
  exact ⟨fun ⟨_, _, ⟨h1, h2⟩, h3⟩ => ⟨h1, by rw [← h3, h2]⟩, fun ⟨h1, h2⟩ => ⟨⟨⟩, m, ⟨h1, rfl⟩, h2.symm⟩⟩

theorem insertHandler_eq_error {time : TimePoint} {h : α} {e : Failure} :
    insertHandler now time h m = .error e m' ↔
      time < now ∧ e = .runtimeError "ActionList: Wrong order of actions" ∧ m' = m := by
  simp only [insertHandler, bind_eq_error, enforce_eq_error, modify_apply, decide_eq_false_iff_not,
    reduceCtorEq, and_false, exists_const, or_false, not_le, ge_iff_le]
  exact and_congr_right fun _ => and_congr_right fun _ => eq_comm

theorem getNextTimePoint_of_nil (h : m.toList = []) : getNextTimePoint m = SimClock.invalid := by
  simp [getNextTimePoint, h]

theorem getNextTimePoint_of_cons {time : TimePoint} {b : List α} {rest}
    (h : m.toList = (time, b) :: rest) : getNextTimePoint m = time := by
  simp [getNextTimePoint, h]

/-- From a list whose time points all have handlers, `popNextHandlers` takes the front entries, and
all of them report the time `getNextTimePoint` has announced. -/
theorem popNextHandlers_spec (hm : m.Filed key) :
    ∃ b m', popNextHandlers m = .ok b m' ∧ m.entries = b ++ m'.entries ∧ m'.Filed key ∧
      (∀ h ∈ b, key h = getNextTimePoint m) ∧ (b = [] ↔ m.entries = []) := by
  cases hl : m.toList with
  | nil =>
    have he := (hm.toList_nil_iff).1 hl
    refine ⟨[], m, ?_, by simp, hm, by simp, by simp [he]⟩
    simp [popNextHandlers, bind_eq_ok, get_eq_ok, hl, pure_apply]
  | cons e rest =>
    obtain ⟨time, b⟩ := e
    have hb := hm time b (BucketMap.getElem?_first hl)
    refine ⟨b, m.erase time, ?_, BucketMap.entries_pop hl, hm.erase time, ?_, ?_⟩
    · have hne : b.isEmpty = false := by simp [hb.1]
      simp only [popNextHandlers, bind_apply, get_apply, hl, List.head?_cons, modify_apply, hne,
        Bool.not_false, enforce_true, pure_apply]
    · rw [getNextTimePoint_of_cons hl]
      exact hb.2
    · simp [BucketMap.entries_pop hl, hb.1]

/-- The announced time point is not after the time of any handler in the list. -/
theorem getNextTimePoint_le (hm : m.Filed key) {h : α} (hh : h ∈ m.entries) :
    getNextTimePoint m ≤ key h := by
  cases hl : m.toList with
  | nil => simp [(hm.toList_nil_iff).1 hl] at hh
  | cons e rest =>
    rw [getNextTimePoint_of_cons hl]
    have := BucketMap.Filed.first_le hl hm hh
    rwa [ne_eq, compare_gt_iff_gt, not_lt] at this

end ActionList

end Cosidia
