import Mathlib.Algebra.BigOperators.Group.List.Basic
import Mathlib.Algebra.Order.Ring.Nat
import Mathlib.Data.List.Perm.Basic

/-! The sum of a measure over a collection whose members are taken out, changed and put
back. -/
namespace Tally

variable {α : Type} {measure : α → Nat}

def total (measure : α → Nat) (items : List α) : Nat := (items.map measure).sum

@[simp] theorem total_nil : total measure [] = 0 := rfl

@[simp] theorem total_cons (item : α) (items : List α) :
    total measure (item :: items) = measure item + total measure items := by
  simp [total]

@[simp] theorem total_append (first second : List α) :
    total measure (first ++ second) = total measure first + total measure second := by
  simp [total]

theorem total_flatMap {β : Type} (f : β → List α) (items : List β) :
    total measure (items.flatMap f) = total (fun item => total measure (f item)) items := by
  induction items with
  | nil => rfl
  | cons item rest ih => rw [List.flatMap_cons, total_append, total_cons, ih]

theorem total_perm {first second : List α} (perm : first.Perm second) :
    total measure first = total measure second := (perm.map measure).sum_eq

theorem total_eraseIdx {items : List α} {index : Nat} {item : α}
    (found : items[index]? = some item) :
    total measure items = measure item + total measure (items.eraseIdx index) := by
  obtain ⟨bound, rfl⟩ := List.getElem?_eq_some_iff.mp found
  rw [← total_cons]
  exact (total_perm (List.getElem_cons_eraseIdx_perm bound)).symm

/-- A member is replaced. -/
theorem total_set {items : List α} {index : Nat} {item : α} (found : items[index]? = some item) (next : α) :
    total measure (items.set index next) + measure item = total measure items + measure next := by
  induction items generalizing index with
  | nil => cases found
  | cons head rest ih =>
    cases index with
    | zero =>
      obtain rfl := Option.some.inj found
      rw [List.set_cons_zero, total_cons, total_cons]
      omega
    | succ index =>
      rw [List.set_cons_succ, total_cons, total_cons]
      have rest := ih found
      omega

theorem total_eraseP {items : List α} {p : α → Bool} {item : α} (found : items.find? p = some item) :
    total measure items = measure item + total measure (items.eraseP p) := by
  induction items with
  | nil => cases found
  | cons head rest ih =>
    by_cases here : p head = true
    · rw [List.find?_cons_of_pos here] at found
      obtain rfl := Option.some.inj found
      rw [List.eraseP_cons_of_pos here, total_cons]
    · rw [List.find?_cons_of_neg here] at found
      rw [List.eraseP_cons_of_neg here, total_cons, total_cons, ih found]
      omega

theorem le_total {items : List α} {item : α} (member : item ∈ items) :
    measure item ≤ total measure items := by
  induction items with
  | nil => cases member
  | cons head rest ih =>
    rw [total_cons]
    rcases List.mem_cons.mp member with rfl | later
    · exact Nat.le_add_right _ _
    · exact Nat.le_add_left_of_le (ih later)

theorem total_congr {measure' : α → Nat} {items : List α}
    (same : ∀ item ∈ items, measure item = measure' item) :
    total measure items = total measure' items :=
  congrArg List.sum (List.map_congr_left same)

/-- A measure that counts no member. -/
theorem total_eq_zero {items : List α} (none : ∀ item ∈ items, measure item = 0) : total measure items = 0 := by
  induction items with
  | nil => rfl
  | cons head rest ih =>
    rw [total_cons, none head List.mem_cons_self, ih fun item member => none item (List.mem_cons_of_mem head member)]

end Tally
