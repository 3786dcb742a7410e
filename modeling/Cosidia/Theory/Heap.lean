import Mathlib.Data.List.Basic
import Mathlib.Logic.Function.Basic

/-!
# A heap of cells of one type

Cells are made by `alloc`, which never hands out the same pointer twice, and are read and written
through their pointers. `next` is the first pointer that has not been handed out.
-/

/-- A heap of cells holding an `α` each; pointers are numbers. -/
structure Heap (α : Type) where
  cell : Nat → α
  next : Nat

namespace Heap

variable {α : Type}

/-- The heap in which nothing has been made. -/
def empty (a : α) : Heap α := ⟨fun _ => a, 0⟩

/-- Make a cell holding `a`; its pointer is the old `next`. -/
def alloc (h : Heap α) (a : α) : Heap α := ⟨Function.update h.cell h.next a, h.next + 1⟩

/-- Replace what the cell `p` holds. -/
def write (h : Heap α) (p : Nat) (a : α) : Heap α := { h with cell := Function.update h.cell p a }

@[simp] theorem empty_next (a : α) : (empty a).next = 0 := rfl

@[simp] theorem alloc_next (h : Heap α) (a : α) : (h.alloc a).next = h.next + 1 := rfl

@[simp] theorem write_next (h : Heap α) (p : Nat) (a : α) : (h.write p a).next = h.next := rfl

@[simp] theorem alloc_cell_self (h : Heap α) (a : α) : (h.alloc a).cell h.next = a := by
  simp [alloc]

theorem alloc_cell_of_lt {h : Heap α} {a : α} {p : Nat} (hp : p < h.next) :
    (h.alloc a).cell p = h.cell p := by
  simp [alloc, Function.update_of_ne (Nat.ne_of_lt hp)]

@[simp] theorem write_cell_self (h : Heap α) (p : Nat) (a : α) : (h.write p a).cell p = a := by
  simp [write]

theorem write_cell_of_ne {h : Heap α} {a : α} {p q : Nat} (hpq : q ≠ p) :
    (h.write p a).cell q = h.cell q := by
  simp [write, Function.update_of_ne hpq]

@[simp] theorem write_cell_eq (h : Heap α) (p : Nat) : h.write p (h.cell p) = h := by
  simp [write]

@[simp] theorem alloc_write (h : Heap α) (a b : α) : (h.alloc a).write h.next b = h.alloc b := by
  simp [alloc, write]

theorem write_cell (h : Heap α) (p q : Nat) (a : α) :
    (h.write p a).cell q = if q = p then a else h.cell q := by
  simp [write, Function.update_apply]

/-! ## Many cells at once -/

/-- Make a cell for every element of a list; their pointers follow each other. -/
def allocAll (h : Heap α) (l : List α) : Heap α := l.foldl alloc h

@[simp] theorem allocAll_next (h : Heap α) (l : List α) :
    (h.allocAll l).next = h.next + l.length := by
  induction l generalizing h with
  | nil => rfl
  | cons a l ih =>
    apply (ih (h.alloc a)).trans
    rw [alloc_next, List.length_cons]
    omega

theorem allocAll_cell_of_lt {h : Heap α} {l : List α} {p : Nat} (hp : p < h.next) :
    (h.allocAll l).cell p = h.cell p := by
  induction l generalizing h with
  | nil => rfl
  | cons a l ih => exact (@ih (h.alloc a) (Nat.lt_succ_of_lt hp)).trans (alloc_cell_of_lt hp)

theorem map_allocAll_cell (h : Heap α) (l : List α) :
    (List.range' h.next l.length).map (h.allocAll l).cell = l := by
  induction l generalizing h with
  | nil => rfl
  | cons a l ih =>
    have hcell : (h.allocAll (a :: l)).cell h.next = a :=
      (@allocAll_cell_of_lt _ (h.alloc a) l _ (Nat.lt_succ_self _)).trans (alloc_cell_self ..)
    rw [List.length_cons, List.range'_succ, List.map_cons, hcell]
    exact congrArg (a :: ·) (ih (h.alloc a))

/-- The new cells hold the elements of the list, one after the other. -/
theorem forall₂_allocAll (h : Heap α) (l : List α) :
    List.Forall₂ (fun a p => p < (h.allocAll l).next ∧ (h.allocAll l).cell p = a) l
      (List.range' h.next l.length) := by
  induction l generalizing h with
  | nil => exact .nil
  | cons a l ih =>
    refine .cons ⟨?_, ?_⟩ (ih (h.alloc a))
    · rw [allocAll_next, List.length_cons]
      omega
    · exact (@allocAll_cell_of_lt _ (h.alloc a) l _ (Nat.lt_succ_self _)).trans (alloc_cell_self ..)

end Heap
