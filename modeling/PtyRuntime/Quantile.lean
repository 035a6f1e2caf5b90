import Mathlib.Data.List.Sort
import Mathlib.Algebra.BigOperators.Group.List.Basic
import Mathlib.Algebra.Order.Ring.Nat

/-! Elements by rank, and finding them by running totals over counts instead of
sorting. A rank counts from one in ascending order. -/
namespace Quantile

section Rank

variable {α β : Type*} [LinearOrder α] [LinearOrder β] {xs ys : List α} {x bound : α} {rank : Nat}

def atRank (xs : List α) (rank : Nat) : Option α := (xs.insertionSort (· ≤ ·))[rank - 1]?

theorem atRank_some (positive : 0 < rank) (within : rank ≤ xs.length) : ∃ x, atRank xs rank = some x := by
  have inside : rank - 1 < (xs.insertionSort (· ≤ ·)).length := by
    rw [List.length_insertionSort]
    omega
  exact ⟨_, List.getElem?_eq_getElem inside⟩

theorem atRank_mem (found : atRank xs rank = some x) : x ∈ xs :=
  (List.mem_insertionSort _).mp (List.mem_of_getElem? found)

/-- In a sorted list the elements up to a bound come first. -/
theorem le_iff_lt_countP (sorted : ys.Pairwise (· ≤ ·)) {index : Nat} (found : ys[index]? = some x) :
    x ≤ bound ↔ index < ys.countP (· ≤ bound) := by
  induction ys generalizing index with
  | nil => cases found
  | cons head rest ih =>
    obtain ⟨least, sorted⟩ := List.pairwise_cons.mp sorted
    by_cases low : head ≤ bound
    · rw [List.countP_cons_of_pos (by simpa using low)]
      cases index with
      | zero =>
        obtain rfl := Option.some.inj found
        exact iff_of_true low (Nat.succ_pos _)
      | succ index => exact (ih sorted found).trans Nat.succ_lt_succ_iff.symm
    · have high : ∀ y ∈ rest, ¬y ≤ bound := fun y member below => low ((least y member).trans below)
      rw [List.countP_cons_of_neg (by simpa using low), List.countP_eq_zero.mpr (by simpa using high)]
      refine iff_of_false (fun below => ?_) (Nat.not_lt_zero _)
      rcases List.mem_cons.mp (List.mem_of_getElem? found) with rfl | member
      · exact low below
      · exact high x member below

/-- The element of a rank is at most a bound when that many elements are. -/
theorem atRank_le_iff (positive : 0 < rank) (found : atRank xs rank = some x) :
    x ≤ bound ↔ rank ≤ xs.countP (· ≤ bound) := by
  rw [le_iff_lt_countP (List.pairwise_insertionSort _ xs) found,
    (List.perm_insertionSort _ xs).countP_eq]
  omega

theorem atRank_mono {first second : Nat} {x y : α} (order : first ≤ second) (low : atRank xs first = some x)
    (high : atRank xs second = some y) : x ≤ y := by
  obtain ⟨_, rfl⟩ := List.getElem?_eq_some_iff.mp low
  obtain ⟨_, rfl⟩ := List.getElem?_eq_some_iff.mp high
  exact List.sortedLE_insertionSort.getElem_le_getElem_of_le (Nat.sub_le_sub_right order 1)

/-- The last rank holds the greatest element. -/
theorem le_atRank_length (found : atRank xs xs.length = some x) {y : α} (member : y ∈ xs) : y ≤ x := by
  have positive : 0 < xs.length := List.length_pos_of_mem member
  have all := (atRank_le_iff positive found).mp (le_refl x)
  have counted := List.countP_eq_length.mp (Nat.le_antisymm List.countP_le_length all)
  simpa using counted y member

/-- A monotone function maps the element of a rank to the one of that rank. -/
theorem atRank_map {f : α → β} (mono : Monotone f) (xs : List α) (rank : Nat) :
    atRank (xs.map f) rank = (atRank xs rank).map f := by
  have same : (xs.map f).insertionSort (· ≤ ·) = (xs.insertionSort (· ≤ ·)).map f := by
    refine List.Perm.eq_of_pairwise' (List.pairwise_insertionSort _ _) ?_ ?_
    · exact List.pairwise_map.mpr ((List.pairwise_insertionSort (· ≤ ·) xs).imp fun order => mono order)
    · exact (List.perm_insertionSort _ _).trans ((List.perm_insertionSort _ xs).map f).symm
  rw [atRank, atRank, same, List.getElem?_map]

end Rank

/-- The first place at which the running total reaches a rank. -/
def reaches (rank : Nat) : List Nat → Nat → Option Nat
  | [], _ => none
  | count :: counts, total =>
    if rank ≤ total + count then some 0 else (reaches rank counts (total + count)).map (· + 1)

theorem reaches_some {rank : Nat} {counts : List Nat} {total place : Nat}
    (found : reaches rank counts total = some place) (short : total < rank) :
    place < counts.length ∧ total + (counts.take place).sum < rank ∧
      rank ≤ total + (counts.take (place + 1)).sum := by
  induction counts generalizing total place with
  | nil => cases found
  | cons count counts ih =>
    rw [reaches] at found
    split at found
    · rename_i enough
      obtain rfl := Option.some.inj found
      exact ⟨Nat.succ_pos _, by simpa using short, by simpa using enough⟩
    · rename_i few
      obtain ⟨place, later, rfl⟩ := Option.map_eq_some_iff.mp found
      obtain ⟨inside, before, after⟩ := ih later (Nat.lt_of_not_le few)
      simp only [List.length_cons, List.take_succ_cons, List.sum_cons] at before after ⊢
      exact ⟨Nat.succ_lt_succ inside, by omega, by omega⟩

theorem reaches_of_le {rank : Nat} {counts : List Nat} {total : Nat} (short : total < rank)
    (enough : rank ≤ total + counts.sum) : ∃ place, reaches rank counts total = some place := by
  induction counts generalizing total with
  | nil => exact absurd enough (Nat.not_le_of_lt (by simpa using short))
  | cons count counts ih =>
    rw [reaches]
    split
    · exact ⟨0, rfl⟩
    · rename_i few
      rw [List.sum_cons] at enough
      obtain ⟨place, later⟩ := ih (Nat.lt_of_not_le few) (by omega)
      exact ⟨place + 1, by rw [later]; rfl⟩

/-- How often each value below a width occurs. -/
def counts (places : List Nat) (width : Nat) : List Nat := (List.range width).map fun place => places.count place

theorem countP_lt_succ (places : List Nat) (width : Nat) :
    places.countP (· < width + 1) = places.countP (· < width) + places.count width := by
  induction places with
  | nil => rfl
  | cons head rest ih =>
    simp only [List.countP_cons, List.count_cons, beq_iff_eq, decide_eq_true_eq, ih]
    split <;> split <;> split <;> omega

theorem sum_counts (places : List Nat) (width : Nat) : (counts places width).sum = places.countP (· < width) := by
  induction width with
  | zero => simp [counts]
  | succ width ih =>
    rw [counts] at ih
    rw [counts, List.range_succ, List.map_append, List.sum_append, ih, countP_lt_succ]
    simp only [List.map_cons, List.map_nil, List.sum_cons, List.sum_nil, Nat.add_zero]

theorem take_counts (places : List Nat) {place width : Nat} (inside : place ≤ width) :
    (counts places width).take place = counts places place := by
  rw [counts, counts, ← List.map_take, List.take_range, Nat.min_eq_left inside]

/-- The running total over the counts finds the element of a rank. -/
theorem reaches_counts {places : List Nat} {width rank : Nat} (bounded : ∀ place ∈ places, place < width)
    (positive : 0 < rank) (within : rank ≤ places.length) :
    reaches rank (counts places width) 0 = atRank places rank := by
  have every : (counts places width).sum = places.length := by
    rw [sum_counts]
    exact List.countP_eq_length.mpr (by simpa using bounded)
  have enough : rank ≤ 0 + (counts places width).sum := by omega
  obtain ⟨place, found⟩ := reaches_of_le positive enough
  obtain ⟨x, held⟩ := atRank_some positive within
  obtain ⟨inside, before, after⟩ := reaches_some found positive
  have inside : place < width := by simpa [counts] using inside
  rw [take_counts places inside.le, sum_counts] at before
  rw [take_counts places inside, sum_counts] at after
  have low : x ≤ place := (atRank_le_iff positive held).mpr (by simpa [Nat.lt_succ_iff] using after)
  have high : ¬x < place := by
    intro below
    have reached := (atRank_le_iff positive held).mp (Nat.le_sub_one_of_lt below)
    have same : places.countP (· ≤ place - 1) = places.countP (· < place) :=
      List.countP_congr fun y _ => by
        simp only [decide_eq_true_eq]
        omega
    omega
  rw [found, held, Nat.le_antisymm low (Nat.le_of_not_lt high)]

end Quantile
