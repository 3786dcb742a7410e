import Cosidia.Theory.BucketMap

/-!
# Stable priority queues

A stable priority queue is the list of its entries in the order in which they came in: the next ones
to leave are those with the least key, all of them and in that order. A map of buckets that `Sorts`
such a list has them in its first bucket.
-/

open Std (TreeMap)

namespace StableQueue

variable {κ α : Type} [LinearOrder κ] (key : α → κ)

/-- No entry of `l` has a smaller key. -/
def IsFirst (l : List α) (x : α) : Prop := ∀ y ∈ l, key x ≤ key y

instance (l : List α) (x : α) : Decidable (IsFirst key l x) := List.decidableBAll _ _

/-- The entries that leave next. -/
def front (l : List α) : List α := l.filter (IsFirst key l ·)

/-- The entries that stay when these have left. -/
def rest (l : List α) : List α := l.filter (¬ IsFirst key l ·)

variable {key} {l : List α} {x y : α}

theorem mem_front : x ∈ front key l ↔ x ∈ l ∧ IsFirst key l x := by simp [front]

theorem exists_isFirst (hl : l ≠ []) : ∃ x ∈ l, IsFirst key l x := by
  induction l with
  | nil => exact absurd rfl hl
  | cons a l ih =>
    rcases eq_or_ne l [] with rfl | hne
    · exact ⟨a, List.mem_cons_self .., by simp [IsFirst]⟩
    · obtain ⟨x, hx, hfirst⟩ := ih hne
      rcases le_total (key a) (key x) with hle | hle
      · refine ⟨a, List.mem_cons_self .., List.forall_mem_cons.2 ⟨le_rfl, fun y hy => ?_⟩⟩
        exact hle.trans (hfirst y hy)
      · exact ⟨x, List.mem_cons_of_mem a hx, List.forall_mem_cons.2 ⟨hle, hfirst⟩⟩

theorem front_eq_nil_iff : front key l = [] ↔ l = [] := by
  constructor
  · intro h
    by_contra hl
    obtain ⟨x, hx, hfirst⟩ : ∃ x ∈ l, IsFirst key l x := exists_isFirst hl
    have hmem := mem_front.2 ⟨hx, hfirst⟩
    rw [h] at hmem
    cases hmem
  · rintro rfl
    rfl

/-- The entries with the least key are those of the bucket of this key. -/
theorem front_eq_filter (hx : x ∈ l) (hfirst : IsFirst key l x) :
    front key l = l.filter (key · = key x) := by
  refine List.filter_congr fun y hy => decide_eq_decide.2 ⟨fun h => ?_, fun h z hz => ?_⟩
  · exact le_antisymm (h x hx) (hfirst y hy)
  · rw [h]
    exact hfirst z hz

end StableQueue

namespace BucketMap

open StableQueue

variable {κ α : Type} [LinearOrder κ] {key : α → κ} {m : BucketMap κ α compare} {l : List α}

/-- The buckets hold the entries of `l`, each in the bucket of its key and there in the order in
which they stand in `l`; no bucket is empty. -/
def Sorts (key : α → κ) (m : BucketMap κ α compare) (l : List α) : Prop :=
  ∀ k b, m[k]? = some b ↔ b ≠ [] ∧ b = l.filter (key · = k)

theorem sorts_empty (key : α → κ) : Sorts key (∅ : BucketMap κ α compare) [] := by
  intro k b
  simp

namespace Sorts

variable (h : Sorts key m l)
include h

theorem filed : Filed key m := by
  intro k b hb
  obtain ⟨hne, rfl⟩ := (h k b).1 hb
  exact ⟨hne, fun x hx => of_decide_eq_true (List.mem_filter.1 hx).2⟩

theorem getD_eq (k : κ) : m.getD k [] = l.filter (key · = k) := by
  rw [TreeMap.getD_eq_getD_getElem?]
  cases hb : m[k]? with
  | some b => exact ((h k b).1 hb).2
  | none =>
    by_contra hne
    have hsome := (h k (l.filter (key · = k))).2 ⟨fun hnil => hne hnil.symm, rfl⟩
    rw [hb] at hsome
    cases hsome

/-- An entry that comes in goes to the end of its bucket. -/
theorem push (x : α) : Sorts key (m.push (key x) x) (l ++ [x]) := by
  intro k b
  rw [BucketMap.push, TreeMap.getElem?_insert, h.getD_eq, List.filter_append]
  by_cases hk : key x = k
  · subst hk
    have hself : compare (key x) (key x) = .eq := compare_eq_iff_eq.2 rfl
    constructor
    · intro hb
      rw [if_pos hself, Option.some.injEq] at hb
      subst hb
      simp
    · rintro ⟨-, rfl⟩
      simp
  · have hcmp : compare (key x) k ≠ .eq := fun heq => hk (compare_eq_iff_eq.1 heq)
    simp [hcmp, hk, h k b]

theorem toList_eq_nil_iff : m.toList = [] ↔ l = [] := by
  constructor
  · intro hnil
    by_contra hne
    obtain ⟨x, hx⟩ := List.exists_mem_of_ne_nil l hne
    have hmem : x ∈ l.filter (key · = key x) := List.mem_filter.2 ⟨hx, decide_eq_true rfl⟩
    have hb := (h (key x) _).2 ⟨List.ne_nil_of_mem hmem, rfl⟩
    rw [← TreeMap.mem_toList_iff_getElem?_eq_some, hnil] at hb
    cases hb
  · rintro rfl
    apply List.eq_nil_iff_forall_not_mem.2
    intro e he
    have hb := (h e.1 e.2).1 (TreeMap.mem_toList_iff_getElem?_eq_some.1 he)
    exact hb.1 hb.2

section first
variable {k : κ} {b : List α} {buckets : List (κ × List α)} (hl : m.toList = (k, b) :: buckets)
include hl

theorem first_le {x : α} (hx : x ∈ l) : k ≤ key x := by
  have hmem : x ∈ l.filter (key · = key x) := List.mem_filter.2 ⟨hx, decide_eq_true rfl⟩
  have hb := (h (key x) _).2 ⟨List.ne_nil_of_mem hmem, rfl⟩
  have := h.filed.first_le hl (mem_entries.2 ⟨_, _, hb, hmem⟩)
  rwa [ne_eq, compare_gt_iff_gt, not_lt] at this

/-- The first bucket holds the entries that leave next, and its key is theirs. -/
theorem first : b = front key l ∧ front key l ≠ [] ∧ ∀ x ∈ front key l, key x = k := by
  obtain ⟨hne, hb⟩ := (h k b).1 (getElem?_first hl)
  obtain ⟨x, hx⟩ := List.exists_mem_of_ne_nil b hne
  obtain ⟨hxl, hxk⟩ := List.mem_filter.1 (hb ▸ hx)
  have hxk := of_decide_eq_true hxk
  have hfront : front key l = b := by
    rw [front_eq_filter hxl fun y hy => hxk ▸ h.first_le hl hy, hxk, hb]
  refine ⟨hfront.symm, hfront ▸ hne, fun y hy => ?_⟩
  rw [hfront, hb] at hy
  exact of_decide_eq_true (List.mem_filter.1 hy).2

/-- Without the first bucket the others hold what stays. -/
theorem erase_first : Sorts key (m.erase k) (rest key l) := by
  intro k' b'
  have hfirst : ∀ x ∈ l, IsFirst key l x ↔ key x = k := fun x hx => by
    refine ⟨fun hx' => (h.first hl).2.2 x (mem_front.2 ⟨hx, hx'⟩), fun hk y hy => ?_⟩
    exact hk ▸ h.first_le hl hy
  have hrest : rest key l = l.filter (¬ key · = k) :=
    List.filter_congr fun x hx => decide_eq_decide.2 (not_congr (hfirst x hx))
  rw [TreeMap.getElem?_erase, hrest, List.filter_filter]
  by_cases hk : k = k'
  · subst hk
    simp
  · have hcmp : compare k k' ≠ .eq := fun heq => hk (compare_eq_iff_eq.1 heq)
    rw [if_neg hcmp, h k' b']
    apply and_congr_right
    intro _
    rw [List.filter_congr fun x _ => ?_]
    by_cases hx : key x = k'
    · simp [hx, Ne.symm hk]
    · simp [hx]

end first

end Sorts

end BucketMap
