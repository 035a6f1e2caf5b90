import Mathlib.Data.List.DropRight

/-! A stream that only grows, seen through a window that keeps some suffix of
it. The library names no program: it is the abstract object that a bounded
retention buffer stands for, and the one its readers reason about. -/
namespace Window

variable {α : Type*}

/-- The whole stream and the position its retained suffix starts at. -/
structure Ledger (α : Type*) where
  stream : List α
  floor : Nat
  inside : floor ≤ stream.length

namespace Ledger

def empty : Ledger α := ⟨[], 0, Nat.le_refl 0⟩

def retained (w : Ledger α) : List α := w.stream.drop w.floor

/-- Extend the stream and keep at most `keep` of the newest retained elements. -/
def extend (w : Ledger α) (chunk : List α) (keep : Nat) : Ledger α where
  stream := w.stream ++ chunk
  floor := max w.floor ((w.stream ++ chunk).length - keep)
  inside := by
    have := w.inside
    simp only [List.length_append]
    omega

/-- The elements of the half-open range `[first, last)`. -/
def range (w : Ledger α) (first last : Nat) : List α := (w.stream.take last).drop first

@[simp] theorem extend_stream (w : Ledger α) (chunk : List α) (keep : Nat) :
    (w.extend chunk keep).stream = w.stream ++ chunk := rfl

theorem retained_length (w : Ledger α) : w.retained.length = w.stream.length - w.floor := by
  simp only [retained, List.length_drop]

/-- Retention after an extension is the newest `keep` elements of what was
retained followed by the chunk. -/
theorem retained_extend (w : Ledger α) (chunk : List α) (keep : Nat) :
    (w.extend chunk keep).retained = (w.retained ++ chunk).rtake keep := by
  have inside := w.inside
  simp only [retained, extend, List.rtake, List.length_append, List.length_drop]
  rw [← List.drop_append_of_le_length inside, List.drop_drop]
  congr 1
  omega

/-- Reading the retained suffix at a relative position is reading the stream
at the absolute one. -/
theorem range_of_retained (w : Ledger α) (offset size : Nat) (kept : w.floor ≤ offset) :
    (w.retained.drop (offset - w.floor)).take size =
      w.range offset (min (offset + size) w.stream.length) := by
  simp only [retained, range, List.drop_drop, List.drop_take]
  rw [show w.floor + (offset - w.floor) = offset by omega]
  rcases Nat.le_total (offset + size) w.stream.length with short | long
  · rw [Nat.min_eq_left short, Nat.add_sub_cancel_left]
  · rw [Nat.min_eq_right long, List.take_of_length_le (by simp only [List.length_drop]; omega),
      List.take_of_length_le (by simp only [List.length_drop]; omega)]

theorem range_length (w : Ledger α) (first : Nat) {last : Nat} (produced : last ≤ w.stream.length) :
    (w.range first last).length = last - first := by
  simp only [range, List.length_drop, List.length_take]
  omega

end Ledger
end Window
