import Mathlib.Data.List.Induction
import Mathlib.Data.List.Count

/-! Machines that keep a record of what they do, and machines made of smaller ones. A record
is lawful when every entry is allowed after the entries before it. -/
namespace Chronicle

variable {α : Type*} {allows : List α → α → Prop} {record : List α} {entry : α}

/-- Every entry is allowed by the entries before it. -/
def Lawful (allows : List α → α → Prop) (record : List α) : Prop :=
  ∀ before entry after, record = before ++ entry :: after → allows before entry

theorem Lawful.nil : Lawful allows [] := by
  intro before entry after split
  simp at split

theorem Lawful.snoc (lawful : Lawful allows record) (allowed : allows record entry) :
    Lawful allows (record ++ [entry]) := by
  intro before other after split
  rcases List.eq_nil_or_concat after with rfl | ⟨front, last, rfl⟩
  · obtain ⟨rfl, same⟩ := List.append_inj' split rfl
    obtain rfl := List.singleton_inj.mp same
    exact allowed
  · rw [List.concat_eq_append, ← List.cons_append, ← List.append_assoc] at split
    exact lawful before other front (List.append_inj' split rfl).1

/-- What stands in a lawful record was allowed when it came. -/
theorem Lawful.allowed (lawful : Lawful allows record) (member : entry ∈ record) :
    ∃ before, before <+: record ∧ allows before entry := by
  obtain ⟨before, after, split⟩ := List.append_of_mem member
  exact ⟨before, ⟨entry :: after, split.symm⟩, lawful before entry after split⟩

/-- Entries that are only allowed while there is none of them come at most once. -/
theorem Lawful.once (lawful : Lawful allows record) (p : α → Bool)
    (first : ∀ before entry, allows before entry → p entry = true → ∀ old ∈ before, p old = false) :
    record.countP p ≤ 1 := by
  induction record using List.reverseRecOn with
  | nil => exact Nat.zero_le 1
  | append_singleton record entry ih =>
    have before : Lawful allows record := fun front other rest split =>
      lawful front other (rest ++ [entry]) (by rw [split, List.append_assoc, List.cons_append])
    rw [List.countP_append, List.countP_singleton]
    cases marked : p entry with
    | false => exact ih before
    | true =>
      have none : record.countP p = 0 :=
        List.countP_eq_zero.mpr fun old member =>
          Bool.eq_false_iff.mp (first record entry (lawful record entry [] rfl) marked old member)
      simp [none]

theorem Lawful.unique (lawful : Lawful allows record) (p : α → Bool)
    (first : ∀ before entry, allows before entry → p entry = true → ∀ old ∈ before, p old = false) {one other : α}
    (here : one ∈ record) (there : other ∈ record) (marked : p one = true) (also : p other = true) : one = other := by
  obtain ⟨before, after, split⟩ := List.append_of_mem here
  rw [split] at there
  rcases List.mem_append.mp there with earlier | last
  · have unmarked := first before one (lawful before one after split) marked other earlier
    cases unmarked.symm.trans also
  · rcases List.mem_cons.mp last with same | later
    · exact same.symm
    · obtain ⟨between, rest, parts⟩ := List.append_of_mem later
      have whole : record = (before ++ one :: between) ++ other :: rest := by
        rw [split, parts, List.append_assoc, List.cons_append]
      have unmarked := first _ other (lawful _ other rest whole) also one (by simp)
      cases unmarked.symm.trans marked

section Parts
variable {σ τ ε φ : Type*} {step : σ → ε → σ} {part : σ → τ} {partStep : τ → φ → τ}

/-- Where every step is a run of a part, every run is. -/
theorem part_run (moves : ∀ s event, ∃ own : List φ, part (step s event) = own.foldl partStep (part s))
    (s : σ) (events : List ε) : ∃ own : List φ, part (events.foldl step s) = own.foldl partStep (part s) := by
  induction events generalizing s with
  | nil => exact ⟨[], rfl⟩
  | cons event events ih =>
    obtain ⟨first, own⟩ := moves s event
    obtain ⟨rest, runs⟩ := ih (step s event)
    exact ⟨first ++ rest, by rw [List.foldl_cons, runs, own, List.foldl_append]⟩

end Parts
end Chronicle
