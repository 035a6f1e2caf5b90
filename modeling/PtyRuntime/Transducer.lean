import Mathlib.Algebra.Order.Ring.Nat
import Mathlib.Data.List.Basic

/-! Streaming transducers: a state advanced one symbol at a time, with at most
one output per symbol. Outputs are tagged with the number of symbols consumed
when they were emitted, so that runs over adjacent pieces of one input compose
without translating positions. -/
structure Transducer (σ α β : Type) where
  step : σ → α → σ × Option β

namespace Transducer

variable {σ α β : Type} (m : Transducer σ α β)

/-- The final state and the tagged outputs of an input that starts after `start`
symbols. -/
def feed (s : σ) (start : Nat) : List α → σ × List (Nat × β)
  | [] => (s, [])
  | a :: rest =>
    let last := feed (m.step s a).1 (start + 1) rest
    (last.1, ((m.step s a).2.map (start + 1, ·)).toList ++ last.2)

@[simp] theorem feed_nil (s : σ) (start : Nat) : m.feed s start [] = (s, []) := rfl

theorem feed_append (s : σ) (start : Nat) (first second : List α) :
    m.feed s start (first ++ second) =
      ((m.feed (m.feed s start first).1 (start + first.length) second).1,
        (m.feed s start first).2 ++
          (m.feed (m.feed s start first).1 (start + first.length) second).2) := by
  induction first generalizing s start with
  | nil => simp [feed]
  | cons a rest ih =>
    simp only [List.cons_append, feed, ih, List.length_cons, List.append_assoc]
    rw [Nat.add_assoc, Nat.add_comm 1]

/-- Positions are relative to where the input starts. -/
theorem feed_shift (s : σ) (start offset : Nat) (input : List α) :
    m.feed s (start + offset) input =
      ((m.feed s offset input).1, (m.feed s offset input).2.map (Prod.map (start + ·) id)) := by
  induction input generalizing s offset with
  | nil => rfl
  | cons a rest ih =>
    have tail := ih (m.step s a).1 (offset + 1)
    simp only [feed, Nat.add_assoc, tail]
    cases (m.step s a).2 <;> simp

/-- Symbols the state ignores can be skipped. -/
theorem feed_skip {s : σ} {ignored : List α} (quiet : ∀ a ∈ ignored, m.step s a = (s, none))
    (start : Nat) (rest : List α) :
    m.feed s start (ignored ++ rest) = m.feed s (start + ignored.length) rest := by
  induction ignored generalizing start with
  | nil => rfl
  | cons a ignored ih =>
    have stay := quiet a (List.mem_cons_self ..)
    simp only [List.cons_append, feed, stay, Option.map_none, Option.toList_none, List.nil_append,
      List.length_cons]
    rw [ih (fun b member => quiet b (List.mem_cons_of_mem _ member)), Nat.add_assoc, Nat.add_comm 1]

theorem outputs_le_inputs (s : σ) (start : Nat) (input : List α) :
    (m.feed s start input).2.length ≤ input.length := by
  induction input generalizing s start with
  | nil => exact Nat.le_refl 0
  | cons a rest ih =>
    have tail := ih (m.step s a).1 (start + 1)
    simp only [feed, List.length_append, List.length_cons]
    cases (m.step s a).2 with
    | none =>
      simp only [Option.map_none, Option.toList_none, List.length_nil]
      omega
    | some b =>
      simp only [Option.map_some, Option.toList_some, List.length_singleton]
      omega

/-- Outputs are tagged within the input, in strictly increasing order. -/
theorem feed_ascends (s : σ) (start : Nat) (input : List α) :
    ((m.feed s start input).2.map Prod.fst).Pairwise (· < ·) ∧
      ∀ position ∈ (m.feed s start input).2.map Prod.fst,
        start < position ∧ position ≤ start + input.length := by
  induction input generalizing s start with
  | nil => simp [feed]
  | cons a rest ih =>
    obtain ⟨sorted, bounds⟩ := ih (m.step s a).1 (start + 1)
    have later : ∀ position ∈ (m.feed (m.step s a).1 (start + 1) rest).2.map Prod.fst,
        start + 1 < position ∧ position ≤ start + (a :: rest).length := by
      intro position member
      have bound := bounds position member
      simp only [List.length_cons]
      omega
    simp only [feed]
    cases (m.step s a).2 with
    | none =>
      refine ⟨sorted, fun position member => ?_⟩
      have bound := later position member
      omega
    | some b =>
      refine ⟨List.pairwise_cons.mpr ⟨fun position member => (later position member).1, sorted⟩, ?_⟩
      intro position member
      rcases List.mem_cons.mp member with rfl | member
      · simp
      · have bound := later position member
        omega

/-- An output is tagged with the end of the symbol that made the state emit it. -/
theorem mem_feed {s : σ} {start position : Nat} {input : List α} {b : β} :
    (position, b) ∈ (m.feed s start input).2 ↔
      ∃ before a after, input = before ++ a :: after ∧ position = start + before.length + 1 ∧
        (m.step (m.feed s start before).1 a).2 = some b := by
  induction input generalizing s start with
  | nil => exact iff_of_false (by simp) (by rintro ⟨before, a, after, wrong, -⟩; simp at wrong)
  | cons head rest ih =>
    rw [feed, List.mem_append, ih]
    constructor
    · rintro (now | ⟨before, a, after, rfl, rfl, emitted⟩)
      · rw [Option.mem_toList, Option.map_eq_some_iff] at now
        obtain ⟨_, emitted, same⟩ := now
        obtain ⟨rfl, rfl⟩ := Prod.mk.inj same
        exact ⟨[], head, rest, rfl, rfl, emitted⟩
      · refine ⟨head :: before, a, after, rfl, ?_, emitted⟩
        rw [List.length_cons]
        omega
    · rintro ⟨before, a, after, split, rfl, emitted⟩
      cases before with
      | nil =>
        obtain ⟨rfl, rfl⟩ := List.cons.inj split
        refine .inl ?_
        rw [Option.mem_toList, Option.map_eq_some_iff]
        exact ⟨b, emitted, rfl⟩
      | cons first before =>
        obtain ⟨rfl, rfl⟩ := List.cons.inj split
        refine .inr ⟨before, a, after, rfl, ?_, emitted⟩
        rw [List.length_cons]
        omega

/-- When every step pays for its output out of a fixed income and what the state has saved,
a run pays out at most its income and the savings it started with. -/
theorem feed_cost {cost : β → Nat} {saved : σ → Nat} {income : Nat}
    (pays : ∀ s a, ((m.step s a).2.map cost).getD 0 + saved (m.step s a).1 ≤ saved s + income)
    (s : σ) (start : Nat) (input : List α) :
    ((m.feed s start input).2.map fun output => cost output.2).sum + saved (m.feed s start input).1 ≤
      saved s + income * input.length := by
  induction input generalizing s start with
  | nil => simp
  | cons a rest ih =>
    have first := pays s a
    have later := ih (m.step s a).1 (start + 1)
    simp only [feed, List.map_append, List.sum_append, List.length_cons, Nat.mul_succ]
    cases signal : (m.step s a).2 with
    | none =>
      simp only [signal, Option.map_none, Option.getD_none, Option.toList_none, List.map_nil, List.sum_nil] at first ⊢
      omega
    | some b =>
      simp only [signal, Option.map_some, Option.getD_some, Option.toList_some, List.map_cons, List.map_nil,
        List.sum_cons, List.sum_nil] at first ⊢
      omega

end Transducer
