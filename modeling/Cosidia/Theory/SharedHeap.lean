import Cosidia.Theory.Heap

/-!
# Shared and weak pointers

Values of one type that are owned by shared pointers and destroyed when the last of these is gone.
A control block is never reused, the address of a destroyed value may be. A weak pointer holds a
control block and does not keep the value alive.
-/

/-- Shared values; those destroyed are remembered. -/
structure SharedHeap (α : Type) where
  blocks : Heap α
  /-- `get()` of a shared pointer with this control block. -/
  address : Nat → Nat
  alive : Nat → Bool
  made : ∀ {b}, alive b = true → b < blocks.next
  /-- Values that are alive at the same time are at different addresses. -/
  distinct : ∀ {b b'}, alive b = true → alive b' = true → address b = address b' → b = b'

namespace SharedHeap

variable {α : Type} (h : SharedHeap α)

def empty (a : α) : SharedHeap α where
  blocks := .empty a
  address _ := 0
  alive _ := false
  made := nofun
  distinct := nofun

/-- What the control block `b` was made for. -/
def value (b : Nat) : α := h.blocks.cell b

/-- Make a value at an address where none is alive. -/
def make (a : α) (address : Nat) (hfree : ∀ b, h.alive b = true → h.address b ≠ address) :
    SharedHeap α where
  blocks := h.blocks.alloc a
  address := Function.update h.address h.blocks.next address
  alive := Function.update h.alive h.blocks.next true
  made {b} hb := by
    rcases eq_or_ne b h.blocks.next with rfl | hne
    · exact Nat.lt_succ_self _
    · rw [Function.update_of_ne hne] at hb
      exact Nat.lt_succ_of_lt (h.made hb)
  distinct {b b'} hb hb' haddr := by
    rcases eq_or_ne b h.blocks.next with rfl | hne <;>
      rcases eq_or_ne b' h.blocks.next with rfl | hne'
    · rfl
    · rw [Function.update_self, Function.update_of_ne hne'] at haddr
      rw [Function.update_of_ne hne'] at hb'
      exact absurd haddr.symm (hfree b' hb')
    · rw [Function.update_self, Function.update_of_ne hne] at haddr
      rw [Function.update_of_ne hne] at hb
      exact absurd haddr (hfree b hb)
    · rw [Function.update_of_ne hne, Function.update_of_ne hne'] at haddr
      rw [Function.update_of_ne hne] at hb
      rw [Function.update_of_ne hne'] at hb'
      exact h.distinct hb hb' haddr

/-- The last shared pointer to the value of `b` is gone. -/
def destroy (b : Nat) : SharedHeap α where
  blocks := h.blocks
  address := h.address
  alive := Function.update h.alive b false
  made {b'} hb' := by
    rcases eq_or_ne b' b with rfl | hne
    · simp at hb'
    · rw [Function.update_of_ne hne] at hb'
      exact h.made hb'
  distinct {b₁ b₂} h₁ h₂ haddr := by
    rcases eq_or_ne b₁ b with rfl | hne₁
    · simp at h₁
    rcases eq_or_ne b₂ b with rfl | hne₂
    · simp at h₂
    rw [Function.update_of_ne hne₁] at h₁
    rw [Function.update_of_ne hne₂] at h₂
    exact h.distinct h₁ h₂ haddr

theorem make_value {a : α} {address b : Nat} {hfree} (hb : b < h.blocks.next) :
    (h.make a address hfree).value b = h.value b :=
  Heap.alloc_cell_of_lt hb

@[simp] theorem make_value_self {a : α} {address : Nat} {hfree} :
    (h.make a address hfree).value h.blocks.next = a :=
  Heap.alloc_cell_self ..

@[simp] theorem destroy_value (b b' : Nat) : (h.destroy b).value b' = h.value b' := rfl

/-! ## Weak pointers -/

/-- `expired()` of a weak pointer, which is `none` if it was never set. -/
def expired (w : Option Nat) : Bool := w.all fun b => !h.alive b

/-- `lock()`; the result `none` is the null pointer. -/
def lock (w : Option Nat) : Option Nat := w.filter h.alive

/-- `get()`; the result `none` is the null pointer. -/
def get (p : Option Nat) : Option Nat := p.map h.address

variable {h}

theorem lock_some {b : Nat} (hb : h.alive b = true) : h.lock (some b) = some b := by
  simp [lock, hb]

/-- A weak pointer that still leads to the address of a value which is alive leads to that value. -/
theorem eq_some_of_get_lock {w : Option Nat} {b : Nat} (hb : h.alive b = true)
    (hw : h.get (h.lock w) = some (h.address b)) : w = some b := by
  cases w with
  | none => cases hw
  | some b' =>
    by_cases hb' : h.alive b' = true
    · rw [lock_some hb', get, Option.map_some, Option.some.injEq] at hw
      rw [h.distinct hb' hb hw]
    · rw [lock, Option.filter_some_neg (by simpa using hb')] at hw
      cases hw

end SharedHeap
