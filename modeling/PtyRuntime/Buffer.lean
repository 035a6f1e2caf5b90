import Mathlib.Data.List.Basic

/-! Growable arrays and the room they own. An array that is full when an item is pushed at
least doubles its room; nothing else moves an array. The library names no program. -/

/-- The items of an array and the number of items it has room for. -/
@[ext] structure Buffer (α : Type*) where
  items : List α
  capacity : Nat
  fits : items.length ≤ capacity

namespace Buffer

variable {α β : Type*}

def withCapacity (capacity : Nat) : Buffer α := ⟨[], capacity, Nat.zero_le _⟩

/-- The array that owns nothing. -/
def new : Buffer α := withCapacity 0

/-- A copy is allocated at its exact size. -/
def copy (items : List α) : Buffer α := ⟨items, items.length, Nat.le_refl _⟩

/-- Push one item; `least` is the room a first allocation takes at least. -/
def push (least : Nat) (b : Buffer α) (item : α) : Buffer α where
  items := b.items ++ [item]
  capacity :=
    if b.items.length < b.capacity then b.capacity else max least (max (2 * b.capacity) (b.capacity + 1))
  fits := by
    have fits := b.fits
    rw [List.length_append, List.length_singleton]
    split <;> omega

/-- Keep a sublist of the items in place. -/
def keep (b : Buffer α) (items : List α) (sub : items.Sublist b.items) : Buffer α :=
  ⟨items, b.capacity, Nat.le_trans sub.length_le b.fits⟩

def clear (b : Buffer α) : Buffer α := b.keep [] (List.nil_sublist _)

def dropLast (b : Buffer α) : Buffer α := b.keep b.items.dropLast (List.dropLast_sublist _)

def eraseIdx (b : Buffer α) (index : Nat) : Buffer α := b.keep (b.items.eraseIdx index) (List.eraseIdx_sublist _ _)

def filter (b : Buffer α) (p : α → Bool) : Buffer α := b.keep (b.items.filter p) List.filter_sublist

/-- Push items one after the other. -/
def extend (least : Nat) (b : Buffer α) (items : List α) : Buffer α := items.foldl (push least) b

@[simp] theorem copy_items (items : List α) : (copy items).items = items := rfl
@[simp] theorem copy_capacity (items : List α) : (copy items).capacity = items.length := rfl
@[simp] theorem push_items (least : Nat) (b : Buffer α) (item : α) : (b.push least item).items = b.items ++ [item] := rfl
@[simp] theorem clear_items (b : Buffer α) : b.clear.items = [] := rfl
@[simp] theorem dropLast_items (b : Buffer α) : b.dropLast.items = b.items.dropLast := rfl
@[simp] theorem eraseIdx_items (b : Buffer α) (index : Nat) : (b.eraseIdx index).items = b.items.eraseIdx index := rfl
@[simp] theorem filter_items (b : Buffer α) (p : α → Bool) : (b.filter p).items = b.items.filter p := rfl

/-- The room is what a copy of the items would take. -/
def Exact (b : Buffer α) : Prop := b.capacity = b.items.length

theorem copy_exact (items : List α) : (copy items).Exact := rfl

/-- An array that started empty and was only pushed to wastes at most half of its room. -/
def Doubled (least : Nat) (b : Buffer α) : Prop := b.capacity ≤ max least (2 * b.items.length)

theorem new_doubled (least : Nat) : (new : Buffer α).Doubled least := Nat.zero_le _

theorem Doubled.push {least : Nat} {b : Buffer α} (doubled : b.Doubled least) (item : α) :
    (b.push least item).Doubled least := by
  have fits := b.fits
  simp only [Doubled, Buffer.push, List.length_append, List.length_singleton] at doubled ⊢
  split <;> omega

/-- Room stays below a bound that allows for one more doubling. -/
theorem push_capacity_le {least bound : Nat} {b : Buffer α} (within : b.capacity ≤ bound) (first : least ≤ bound)
    (few : 2 * b.items.length ≤ bound) (some : 0 < bound) (item : α) : (b.push least item).capacity ≤ bound := by
  have fits := b.fits
  simp only [Buffer.push]
  split <;> omega

theorem extend_items (least : Nat) (b : Buffer α) (items : List α) : (b.extend least items).items = b.items ++ items := by
  induction items generalizing b with
  | nil => exact (List.append_nil _).symm
  | cons item items ih => rw [extend, List.foldl_cons, ← extend, ih, push_items, List.append_assoc, List.singleton_append]

/-- Items that have room do not move the array. -/
theorem extend_capacity {least : Nat} {b : Buffer α} {items : List α}
    (room : b.items.length + items.length ≤ b.capacity) : (b.extend least items).capacity = b.capacity := by
  induction items generalizing b with
  | nil => rfl
  | cons item items ih =>
    rw [List.length_cons] at room
    have kept : (b.push least item).capacity = b.capacity := if_pos (by omega)
    rw [extend, List.foldl_cons, ← extend, ih, kept]
    rw [kept, push_items, List.length_append, List.length_singleton]
    omega

/-- A buffer sized in advance for what is written to it ends up full. -/
theorem extend_exact (least : Nat) (items : List α) : ((withCapacity items.length).extend least items).Exact := by
  rw [Exact, extend_items, extend_capacity (Nat.le_of_eq (Nat.zero_add _))]
  exact (congrArg List.length (List.nil_append items)).symm

end Buffer
