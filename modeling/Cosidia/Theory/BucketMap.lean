import Mathlib.Data.List.Sort

/-!
# Ordered maps of first-in-first-out buckets

A `std::map<κ, std::list<α>>` in which a new entry is appended to the bucket of its key and the
bucket of the least key is taken out as a whole. `entries` lists everything stored in the order in
which it would be taken out; `push` inserts into that list behind the entries of smaller and equal
keys (`entries_push`) and `pop` removes a prefix of it (`entries_pop`).
-/

open Std (TreeMap TransCmp LawfulEqCmp OrientedCmp ReflCmp)

namespace Std.TreeMap

variable {κ β : Type} {cmp : κ → κ → Ordering} [TransCmp cmp] [LawfulEqCmp cmp]

/-- An ordered map iterates over the only ascending list of its bindings. -/
theorem toList_eq_of_ascending {m : TreeMap κ β cmp} {l : List (κ × β)}
    (hs : l.Pairwise fun a b => cmp a.1 b.1 = .lt) (hm : ∀ k v, (k, v) ∈ l ↔ m[k]? = some v) :
    m.toList = l := by
  have hne : ∀ {l : List (κ × β)}, (l.Pairwise fun a b => cmp a.1 b.1 = .lt) → l.Nodup :=
    fun h => h.imp fun h e => by subst e; simp [ReflCmp.compare_self] at h
  have hord := ordered_keys_toList (t := m)
  refine @List.Perm.eq_of_pairwise _ (fun a b => cmp a.1 b.1 = .lt) _ _ ?_ hord hs ?_
  · intro a b _ _ hab hba
    exact absurd hba (OrientedCmp.not_lt_of_lt hab)
  · refine (List.perm_ext_iff_of_nodup (hne hord) (hne hs)).2 fun ⟨k, v⟩ => ?_
    rw [hm, mem_toList_iff_getElem?_eq_some]

end Std.TreeMap

/-- An ordered map of buckets. -/
abbrev BucketMap (κ α : Type) (cmp : κ → κ → Ordering) := TreeMap κ (List α) cmp

namespace BucketMap

variable {κ α : Type} {cmp : κ → κ → Ordering}

/-- Append `x` to the bucket of `k`, which is made if it is missing. -/
def push (m : BucketMap κ α cmp) (k : κ) (x : α) : BucketMap κ α cmp :=
  m.insert k (m.getD k [] ++ [x])

/-- Everything stored, in the order in which it would be taken out. -/
def entries (m : BucketMap κ α cmp) : List α := m.toList.flatMap (·.2)

/-- Every bucket is filed under the key of its entries, and none is empty. -/
def Filed (key : α → κ) (m : BucketMap κ α cmp) : Prop :=
  ∀ (k : κ) (b : List α), m[k]? = some b → b ≠ [] ∧ ∀ x ∈ b, key x = k

@[simp] theorem entries_empty : entries (∅ : BucketMap κ α cmp) = [] := rfl

variable [TransCmp cmp] {key : α → κ} {m : BucketMap κ α cmp}

theorem filed_empty (key : α → κ) : Filed key (∅ : BucketMap κ α cmp) := by
  intro k b h
  simp at h

variable [LawfulEqCmp cmp]

theorem mem_entries {x : α} : x ∈ m.entries ↔ ∃ (k : κ) (b : List α), m[k]? = some b ∧ x ∈ b := by
  simp only [entries, List.mem_flatMap, Prod.exists, TreeMap.mem_toList_iff_getElem?_eq_some]

theorem Filed.mem_bucket (h : Filed key m) {x : α} (hx : x ∈ m.entries) :
    ∃ b, m[key x]? = some b ∧ x ∈ b := by
  obtain ⟨k, b, hb, hx⟩ := mem_entries.1 hx
  rw [(h k b hb).2 x hx]
  exact ⟨b, hb, hx⟩

theorem mem_entries_push {k : κ} {x y : α} :
    x ∈ (m.push k y).entries ↔ x = y ∨ x ∈ m.entries := by
  simp only [mem_entries, push, TreeMap.getElem?_insert, TreeMap.getD_eq_getD_getElem?]
  constructor
  · rintro ⟨k', b, hb, hx⟩
    split_ifs at hb
    · rw [← Option.some.inj hb, List.mem_append, List.mem_singleton] at hx
      apply hx.symm.imp_right
      intro hx
      cases hold : m[k]? with
      | none =>
        rw [hold] at hx
        cases hx
      | some b' =>
        rw [hold] at hx
        exact ⟨k, b', hold, hx⟩
    · exact .inr ⟨k', b, hb, hx⟩
  · rintro (rfl | ⟨k', b, hb, hx⟩)
    · exact ⟨k, _, if_pos ReflCmp.compare_self, List.mem_append_right _ (List.mem_singleton_self _)⟩
    · rcases Decidable.em (cmp k k' = .eq) with heq | hne
      · obtain rfl := LawfulEqCmp.eq_of_compare heq
        refine ⟨k, _, if_pos heq, List.mem_append_left _ ?_⟩
        rwa [hb]
      · exact ⟨k', b, (if_neg hne).trans hb, hx⟩

/-! ## Taking out the first bucket -/

omit [TransCmp cmp] [LawfulEqCmp cmp] in
theorem entries_of_toList_nil (h : m.toList = []) : m.entries = [] := by simp [entries, h]

theorem Filed.toList_nil_iff (h : Filed key m) : m.toList = [] ↔ m.entries = [] := by
  refine ⟨entries_of_toList_nil, fun he => ?_⟩
  cases hl : m.toList with
  | nil => rfl
  | cons e l =>
    have hb := h e.1 e.2 (TreeMap.mem_toList_iff_getElem?_eq_some.1 (by rw [hl]; simp))
    simp [entries, hl, hb.1] at he

section first
variable {k : κ} {b : List α} {rest : List (κ × List α)} (hl : m.toList = (k, b) :: rest)
include hl

theorem getElem?_first : m[k]? = some b :=
  TreeMap.mem_toList_iff_getElem?_eq_some.1 (by rw [hl]; simp)

omit [LawfulEqCmp cmp] in
theorem first_lt : ∀ e ∈ rest, cmp k e.1 = .lt := by
  have h := TreeMap.ordered_keys_toList (t := m)
  rw [hl, List.pairwise_cons] at h
  exact h.1

theorem toList_erase_first : (m.erase k).toList = rest := by
  have hord := TreeMap.ordered_keys_toList (t := m)
  rw [hl, List.pairwise_cons] at hord
  apply TreeMap.toList_eq_of_ascending hord.2
  intro k' v
  rw [TreeMap.getElem?_erase]
  constructor
  · intro h
    have hlt := first_lt hl _ h
    rw [if_neg (by simp [hlt])]
    exact TreeMap.mem_toList_iff_getElem?_eq_some.1 (by rw [hl]; simp [h])
  · intro h
    split at h
    · cases h
    · have hmem := TreeMap.mem_toList_iff_getElem?_eq_some.2 h
      rw [hl, List.mem_cons] at hmem
      rcases hmem with he | hmem
      · cases he; simp [ReflCmp.compare_self] at *
      · exact hmem

/-- Taking out the first bucket takes a prefix of the entries. -/
theorem entries_pop : m.entries = b ++ entries (m.erase k) := by
  simp [entries, toList_erase_first hl, hl]

theorem Filed.first_le (h : Filed key m) {x : α} (hx : x ∈ m.entries) : cmp k (key x) ≠ .gt := by
  obtain ⟨b', hb', _⟩ := h.mem_bucket hx
  have hmem := TreeMap.mem_toList_iff_getElem?_eq_some.2 hb'
  rw [hl, List.mem_cons] at hmem
  rcases hmem with he | hmem
  · rw [(Prod.mk.inj he).1]; simp [ReflCmp.compare_self]
  · simp [first_lt hl _ hmem]

end first

omit [LawfulEqCmp cmp] in
theorem Filed.erase (h : Filed key m) (k : κ) : Filed key (m.erase k) := by
  intro k' b hb
  rw [TreeMap.getElem?_erase] at hb
  split at hb
  · cases hb
  · exact h k' b hb

/-! ## Pushing an entry -/

theorem Filed.push (h : Filed key m) (x : α) : Filed key (m.push (key x) x) := by
  intro k b hb
  rw [BucketMap.push, TreeMap.getElem?_insert] at hb
  split at hb
  · rename_i heq
    obtain rfl := LawfulEqCmp.eq_of_compare heq
    cases hb
    refine ⟨by simp, fun y hy => ?_⟩
    rcases List.mem_append.1 hy with hy | hy
    · rw [TreeMap.getD_eq_getD_getElem?] at hy
      cases hb : m[key x]? with
      | none => simp [hb] at hy
      | some b => rw [hb] at hy; exact (h _ b hb).2 y hy
    · rw [List.mem_singleton.1 hy]
  · exact h k b hb

private theorem toList_split (m : BucketMap κ α cmp) (k : κ) (o : List (κ × List α))
    (ho : ∀ e ∈ o, e.1 = k) (hlen : o.Pairwise fun _ _ => False)
    (m' : BucketMap κ α cmp) (hne : ∀ k', k' ≠ k → m'[k']? = m[k']?)
    (hk : ∀ v, m'[k]? = some v ↔ (k, v) ∈ o) :
    m'.toList = m.toList.filter (fun e => cmp e.1 k = .lt) ++ o ++
      m.toList.filter (fun e => cmp k e.1 = .lt) := by
  have hord := TreeMap.ordered_keys_toList (t := m)
  refine TreeMap.toList_eq_of_ascending ?_ fun k' v => ?_
  · simp only [List.pairwise_append, List.mem_append, List.mem_filter, decide_eq_true_eq]
    refine ⟨⟨hord.filter _, hlen.imp False.elim, fun a ha b hb => ?_⟩, hord.filter _, ?_⟩
    · rw [ho b hb]; exact ha.2
    · rintro a (ha | ha) b hb
      · exact TransCmp.lt_trans ha.2 hb.2
      · rw [ho a ha]; exact hb.2
  · simp only [List.mem_append, List.mem_filter, decide_eq_true_eq,
      TreeMap.mem_toList_iff_getElem?_eq_some]
    by_cases hkk : k' = k
    · subst hkk
      simp [ReflCmp.compare_self, hk]
    · have hno : (k', v) ∉ o := fun h => hkk (ho _ h)
      have hcmp : cmp k' k ≠ .eq := fun h => hkk (LawfulEqCmp.eq_of_compare h)
      rw [hne k' hkk]
      constructor
      · rintro ((h | h) | h)
        · exact h.1
        · exact absurd h hno
        · exact h.1
      · intro h
        cases hc : cmp k' k with
        | lt => exact .inl (.inl ⟨h, rfl⟩)
        | eq => exact absurd hc hcmp
        | gt => exact .inr ⟨h, OrientedCmp.lt_of_gt hc⟩

/-- Pushing `x` inserts it behind the entries of smaller and equal keys and before the others. -/
theorem Filed.entries_push (h : Filed key m) (x : α) :
    ∃ l r, m.entries = l ++ r ∧ (m.push (key x) x).entries = l ++ x :: r ∧
      (∀ y ∈ l, cmp (key x) (key y) ≠ .lt) ∧ ∀ y ∈ r, cmp (key x) (key y) = .lt := by
  have hlow : ∀ e ∈ m.toList, ∀ y ∈ e.2, key y = e.1 := fun e he y hy =>
    (h e.1 e.2 (TreeMap.mem_toList_iff_getElem?_eq_some.1 he)).2 y hy
  have hold := toList_split m (key x) ((m[key x]?).toList.map fun b => (key x, b))
    (by simp) (by cases m[key x]? <;> simp) m (fun _ _ => rfl) (by simp)
  have hnew := toList_split m (key x) [(key x, m.getD (key x) [] ++ [x])]
    (by simp) (by simp) (m.push (key x) x)
    (fun k' hk' => by
      rw [BucketMap.push, TreeMap.getElem?_insert, if_neg]
      exact fun h => hk' (LawfulEqCmp.eq_of_compare h).symm)
    (by simp [BucketMap.push, eq_comm])
  refine ⟨(m.toList.filter fun e => cmp e.1 (key x) = .lt).flatMap (·.2) ++ m.getD (key x) [],
    (m.toList.filter fun e => cmp (key x) e.1 = .lt).flatMap (·.2), ?_, ?_, ?_, ?_⟩
  · refine (congrArg (List.flatMap fun e : κ × List α => e.2) hold).trans ?_
    cases hb : m[key x]? with
    | none => simp [TreeMap.getD_eq_getD_getElem?, hb]
    | some b => simp [TreeMap.getD_eq_getD_getElem?, hb]
  · refine (congrArg (List.flatMap fun e : κ × List α => e.2) hnew).trans ?_
    simp
  · intro y hy
    simp only [List.mem_append, List.mem_flatMap, List.mem_filter, decide_eq_true_eq] at hy
    rcases hy with ⟨e, ⟨he, hlt⟩, hy⟩ | hy
    · rw [hlow e he y hy]; exact OrientedCmp.not_lt_of_lt hlt
    · rw [TreeMap.getD_eq_getD_getElem?] at hy
      cases hb : m[key x]? with
      | none => simp [hb] at hy
      | some b =>
        rw [hb] at hy
        rw [(h _ b hb).2 y hy]; simp [ReflCmp.compare_self]
  · intro y hy
    simp only [List.mem_flatMap, List.mem_filter, decide_eq_true_eq] at hy
    obtain ⟨e, ⟨he, hlt⟩, hy⟩ := hy
    rw [hlow e he y hy]; exact hlt

theorem Filed.entries_push_perm (h : Filed key m) (x : α) :
    (m.push (key x) x).entries.Perm (x :: m.entries) := by
  obtain ⟨l, r, hm, hp, -, -⟩ := h.entries_push x
  rw [hm, hp]
  exact List.perm_middle

end BucketMap
