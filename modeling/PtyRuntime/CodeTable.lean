import Mathlib.Data.List.Nodup

/-! Numeric codes of the values of a type, read in both directions from one list. -/

/-- Every value has a code, and no two entries share a code or a value. -/
structure CodeTable (α : Type) [DecidableEq α] where
  entries : List (Nat × α)
  complete : ∀ value, (entries.find? (·.2 = value)).isSome
  codes_nodup : (entries.map Prod.fst).Nodup
  values_nodup : (entries.map Prod.snd).Nodup

namespace CodeTable

variable {α : Type} [DecidableEq α]

def encode (c : CodeTable α) (value : α) : Nat :=
  ((c.entries.find? (·.2 = value)).get (c.complete value)).1

def decode (c : CodeTable α) (code : Nat) : Option α := (c.entries.find? (·.1 = code)).map Prod.snd

theorem encode_eq (c : CodeTable α) {code : Nat} {value : α} :
    c.encode value = code ↔ (code, value) ∈ c.entries := by
  obtain ⟨⟨first, second⟩, found⟩ := Option.isSome_iff_exists.mp (c.complete value)
  have same : second = value := by simpa using List.find?_some found
  subst same
  have member := List.mem_of_find?_eq_some found
  have code_eq : c.encode second = first := by simp only [encode, found, Option.get_some]
  rw [code_eq]
  constructor
  · rintro rfl
    exact member
  · intro also
    have unique := List.inj_on_of_nodup_map c.values_nodup member also rfl
    exact congrArg Prod.fst unique

/-- A code is read as the value that it was written for, and as no other. -/
theorem decode_eq (c : CodeTable α) {code : Nat} {value : α} :
    c.decode code = some value ↔ c.encode value = code := by
  rw [encode_eq, decode, Option.map_eq_some_iff]
  constructor
  · rintro ⟨⟨first, second⟩, found, rfl⟩
    have same : first = code := by simpa using List.find?_some found
    rw [← same]
    exact List.mem_of_find?_eq_some found
  · intro member
    cases found : c.entries.find? (·.1 = code) with
    | some entry =>
      have same : entry.1 = code := by simpa using List.find?_some found
      have unique := List.inj_on_of_nodup_map c.codes_nodup (List.mem_of_find?_eq_some found)
        member same
      exact ⟨entry, rfl, congrArg Prod.snd unique⟩
    | none =>
      have absent := List.find?_eq_none.mp found _ member
      simp at absent

end CodeTable
