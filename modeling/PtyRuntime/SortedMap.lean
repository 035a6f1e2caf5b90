import Mathlib.Data.List.Basic
import Mathlib.Order.Lattice

/-! Finite maps kept in ascending key order. Everything a client needs about an
operation is what it does to `get?`. -/
structure SortedMap (κ α : Type) [LinearOrder κ] where
  entries : List (κ × α)
  sorted : entries.Pairwise (fun a b => a.1 < b.1)

namespace SortedMap

variable {κ α : Type} [LinearOrder κ]

def empty : SortedMap κ α := ⟨[], List.Pairwise.nil⟩

def get? (m : SortedMap κ α) (k : κ) : Option α := (m.entries.find? (·.1 = k)).map (·.2)

def isEmpty (m : SortedMap κ α) : Bool := m.entries.isEmpty

def insertEntry (k : κ) (v : α) : List (κ × α) → List (κ × α)
  | [] => [(k, v)]
  | entry :: rest =>
    if k < entry.1 then (k, v) :: entry :: rest
    else if k = entry.1 then (k, v) :: rest
    else entry :: insertEntry k v rest

theorem mem_insertEntry {k : κ} {v : α} {entries : List (κ × α)} {entry : κ × α}
    (member : entry ∈ insertEntry k v entries) : entry = (k, v) ∨ entry ∈ entries := by
  induction entries with
  | nil => exact .inl (by simpa [insertEntry] using member)
  | cons head rest ih =>
    simp only [insertEntry] at member
    split at member
    · simpa using member
    · split at member
      · rcases List.mem_cons.mp member with rfl | later
        · exact .inl rfl
        · exact .inr (List.mem_cons_of_mem _ later)
      · rcases List.mem_cons.mp member with rfl | later
        · exact .inr (List.mem_cons_self ..)
        · rcases ih later with here | there
          · exact .inl here
          · exact .inr (List.mem_cons_of_mem _ there)

theorem insertEntry_sorted (k : κ) (v : α) {entries : List (κ × α)}
    (sorted : entries.Pairwise (fun a b => a.1 < b.1)) :
    (insertEntry k v entries).Pairwise (fun a b => a.1 < b.1) := by
  induction entries with
  | nil => exact List.pairwise_singleton ..
  | cons head rest ih =>
    obtain ⟨first, later⟩ := List.pairwise_cons.mp sorted
    simp only [insertEntry]
    split
    · rename_i below
      refine List.pairwise_cons.mpr ⟨?_, sorted⟩
      intro entry member
      rcases List.mem_cons.mp member with rfl | further
      · exact below
      · exact lt_trans below (first entry further)
    · split
      · rename_i same
        exact List.pairwise_cons.mpr ⟨fun entry member => same ▸ first entry member, later⟩
      · rename_i notBelow other
        refine List.pairwise_cons.mpr ⟨?_, ih later⟩
        intro entry member
        rcases mem_insertEntry member with rfl | kept
        · exact lt_of_le_of_ne (not_lt.mp notBelow) (Ne.symm other)
        · exact first entry kept

def insert (m : SortedMap κ α) (k : κ) (v : α) : SortedMap κ α :=
  ⟨insertEntry k v m.entries, insertEntry_sorted k v m.sorted⟩

def erase (m : SortedMap κ α) (k : κ) : SortedMap κ α :=
  ⟨m.entries.filter (·.1 ≠ k), m.sorted.filter _⟩

/-- Replace every value, keeping the keys. -/
def mapValues (m : SortedMap κ α) (f : κ → α → α) : SortedMap κ α :=
  ⟨m.entries.map fun entry => (entry.1, f entry.1 entry.2),
    List.pairwise_map.mpr m.sorted⟩

/-- The entry with the least key, and the map without it. -/
def popFirst (m : SortedMap κ α) : Option ((κ × α) × SortedMap κ α) :=
  match _shape : m.entries with
  | [] => none
  | entry :: rest => some (entry, ⟨rest, (List.pairwise_cons.mp (_shape ▸ m.sorted)).2⟩)

@[simp] theorem get?_empty (k : κ) : (empty : SortedMap κ α).get? k = none := rfl

theorem find?_insertEntry (k : κ) (v : α) (entries : List (κ × α)) (j : κ)
    (sorted : entries.Pairwise (fun a b => a.1 < b.1)) :
    (insertEntry k v entries).find? (·.1 = j) =
      if j = k then some (k, v) else entries.find? (·.1 = j) := by
  induction entries with
  | nil => by_cases same : j = k <;> simp [insertEntry, same, eq_comm]
  | cons head rest ih =>
    have tail := ih (List.pairwise_cons.mp sorted).2
    simp only [insertEntry]
    split
    · by_cases same : j = k <;> simp [same, eq_comm]
    · split
      · rename_i same
        subst same
        by_cases here : j = head.1 <;> simp [here, eq_comm]
      · rename_i other
        by_cases here : head.1 = j
        · have apart : ¬ j = k := fun same => other (here ▸ same.symm ▸ rfl)
          simp [here, apart]
        · simp [here, tail]

theorem get?_insert (m : SortedMap κ α) (k j : κ) (v : α) :
    (m.insert k v).get? j = if j = k then some v else m.get? j := by
  unfold get? insert
  rw [find?_insertEntry k v m.entries j m.sorted]
  split <;> rfl

theorem get?_erase (m : SortedMap κ α) (k j : κ) :
    (m.erase k).get? j = if j = k then none else m.get? j := by
  simp only [get?, erase, List.find?_filter]
  split
  · rename_i same
    subst same
    simp
  · rename_i other
    congr 1
    apply congrArg (fun p => m.entries.find? p)
    funext entry
    by_cases here : entry.1 = j <;> simp [here, other]

@[simp] theorem get?_mapValues (m : SortedMap κ α) (f : κ → α → α) (k : κ) :
    (m.mapValues f).get? k = (m.get? k).map (f k) := by
  simp only [get?, mapValues, List.find?_map, Option.map_map]
  cases found : m.entries.find? (fun entry => entry.1 = k) with
  | none => simp [Function.comp_def, found]
  | some entry =>
    have key : entry.1 = k := by simpa using List.find?_some found
    simp [Function.comp_def, found, key]

@[ext] theorem ext {m n : SortedMap κ α} (same : m.entries = n.entries) : m = n := by
  cases m
  cases n
  cases same
  rfl

@[simp] theorem length_mapValues (m : SortedMap κ α) (f : κ → α → α) :
    (m.mapValues f).entries.length = m.entries.length := List.length_map _

theorem mapValues_mapValues (m : SortedMap κ α) (f g : κ → α → α) :
    (m.mapValues f).mapValues g = m.mapValues fun k v => g k (f k v) := by
  ext1
  simp [mapValues]

theorem map_insertEntry (k : κ) (v : α) (f : κ → α → α) (entries : List (κ × α)) :
    (insertEntry k v entries).map (fun entry => (entry.1, f entry.1 entry.2)) =
      insertEntry k (f k v) (entries.map fun entry => (entry.1, f entry.1 entry.2)) := by
  induction entries with
  | nil => rfl
  | cons head rest ih =>
    simp only [insertEntry, List.map_cons]
    split
    · rfl
    · split
      · rfl
      · rw [List.map_cons, ih]

theorem mapValues_insert (m : SortedMap κ α) (k : κ) (v : α) (f : κ → α → α) :
    (m.insert k v).mapValues f = (m.mapValues f).insert k (f k v) :=
  ext (map_insertEntry k v f m.entries)

theorem mapValues_erase (m : SortedMap κ α) (k : κ) (f : κ → α → α) :
    (m.erase k).mapValues f = (m.mapValues f).erase k := by
  ext1
  simp [mapValues, erase, List.filter_map, Function.comp_def]

theorem mem_of_get? {m : SortedMap κ α} {k : κ} {v : α} (found : m.get? k = some v) :
    (k, v) ∈ m.entries := by
  obtain ⟨entry, located, rfl⟩ := Option.map_eq_some_iff.mp found
  have key : entry.1 = k := by simpa using List.find?_some located
  rw [← key]
  exact List.mem_of_find?_eq_some located

theorem isEmpty_iff {m : SortedMap κ α} : m.isEmpty ↔ ∀ k, m.get? k = none := by
  constructor
  · intro none k
    simp [get?, List.isEmpty_iff.mp none]
  · intro none
    cases shape : m.entries with
    | nil => simp [isEmpty, shape]
    | cons entry rest =>
      have absent := none entry.1
      simp [get?, shape] at absent

theorem popFirst_some {m rest : SortedMap κ α} {k : κ} {v : α}
    (popped : m.popFirst = some ((k, v), rest)) :
    m.get? k = some v ∧ (∀ j, m.get? j ≠ none → k ≤ j) ∧
      ∀ j, rest.get? j = if j = k then none else m.get? j := by
  unfold popFirst at popped
  split at popped
  · cases popped
  · rename_i entry tail shape
    obtain ⟨rfl, rfl⟩ := Prod.mk.inj (Option.some.inj popped)
    have sorted := m.sorted
    rw [shape] at sorted
    have above := (List.pairwise_cons.mp sorted).1
    refine ⟨by simp [get?, shape], ?_, ?_⟩
    · intro j present
      obtain ⟨w, found⟩ := Option.ne_none_iff_exists'.mp present
      have member := mem_of_get? found
      rw [shape] at member
      rcases List.mem_cons.mp member with here | later
      · exact le_of_eq (congrArg Prod.fst here).symm
      · exact le_of_lt (above _ later)
    · intro j
      by_cases same : j = k
      · subst same
        simp only [get?, if_true, Option.map_eq_none_iff, List.find?_eq_none, decide_eq_true_eq]
        exact fun entry member here => absurd (above entry member) (by simp [here])
      · simp [get?, shape, same, eq_comm]

theorem length_popFirst {m rest : SortedMap κ α} {entry : κ × α}
    (popped : m.popFirst = some (entry, rest)) : rest.entries.length < m.entries.length := by
  unfold popFirst at popped
  split at popped
  · cases popped
  · rename_i head tail shape
    obtain ⟨rfl, rfl⟩ := Prod.mk.inj (Option.some.inj popped)
    simp [shape]

theorem length_insertEntry {k : κ} {v : α} {entries : List (κ × α)}
    (fresh : ∀ entry ∈ entries, entry.1 ≠ k) :
    (insertEntry k v entries).length = entries.length + 1 := by
  induction entries with
  | nil => rfl
  | cons head rest ih =>
    have tail := ih fun entry member => fresh entry (List.mem_cons_of_mem _ member)
    have apart : ¬ k = head.1 := fun same => fresh head List.mem_cons_self same.symm
    simp only [insertEntry, if_neg apart]
    split
    · rfl
    · rw [List.length_cons, tail, List.length_cons]

theorem length_insert {m : SortedMap κ α} {k : κ} {v : α} (fresh : ∀ entry ∈ m.entries, entry.1 ≠ k) :
    (m.insert k v).entries.length = m.entries.length + 1 := length_insertEntry fresh

/-- Keys are distinct, so exactly one entry goes. -/
theorem length_erase {m : SortedMap κ α} {k : κ} (present : (m.get? k).isSome = true) :
    (m.erase k).entries.length + 1 = m.entries.length := by
  obtain ⟨v, found⟩ := Option.isSome_iff_exists.mp present
  obtain ⟨before, after, shape⟩ := List.append_of_mem (mem_of_get? found)
  have sorted := m.sorted
  rw [shape, List.pairwise_append] at sorted
  obtain ⟨_, tail, across⟩ := sorted
  have below : before.filter (fun entry => decide (entry.1 ≠ k)) = before := by
    refine List.filter_eq_self.mpr fun entry member => decide_eq_true ?_
    exact ne_of_lt (across entry member (k, v) List.mem_cons_self)
  have above : after.filter (fun entry => decide (entry.1 ≠ k)) = after := by
    refine List.filter_eq_self.mpr fun entry member => decide_eq_true ?_
    exact ne_of_gt ((List.pairwise_cons.mp tail).1 entry member)
  simp only [erase, shape, List.filter_append, List.filter_cons, below, above]
  simp [Nat.add_assoc]

theorem get?_foldl_insert_of_not_mem {β : Type} (key : β → κ) (value : β → α) {items : List β}
    {k : κ} (absent : ∀ item ∈ items, key item ≠ k) (m : SortedMap κ α) :
    (items.foldl (fun map item => map.insert (key item) (value item)) m).get? k = m.get? k := by
  induction items generalizing m with
  | nil => rfl
  | cons item rest ih =>
    rw [List.forall_mem_cons] at absent
    rw [List.foldl_cons, ih absent.2, get?_insert, if_neg absent.1.symm]

theorem get?_foldl_insert_of_mem {β : Type} (key : β → κ) (value : β → α) {items : List β}
    (distinct : (items.map key).Nodup) {item : β} (member : item ∈ items) (m : SortedMap κ α) :
    (items.foldl (fun map item => map.insert (key item) (value item)) m).get? (key item) =
      some (value item) := by
  induction items generalizing m with
  | nil => cases member
  | cons first rest ih =>
    rw [List.map_cons, List.nodup_cons] at distinct
    rw [List.foldl_cons]
    rcases List.mem_cons.mp member with rfl | later
    · rw [get?_foldl_insert_of_not_mem, get?_insert, if_pos rfl]
      intro other inside same
      exact distinct.1 (List.mem_map.mpr ⟨other, inside, same⟩)
    · exact ih distinct.2 later _

end SortedMap
