import Mathlib.Data.List.Basic
import Mathlib.Data.Set.Card

/-! Maps that remember when each key was last reported, bounded by evicting the key
whose report is the oldest; and lists that keep the values in that order. -/

/-- A partial map whose entries carry the time of their last report. -/
structure Recency (κ ν : Type) where
  entry : κ → Option (ν × Nat)
  now : Nat

namespace Recency

variable {κ ν : Type}

def empty : Recency κ ν := ⟨fun _ => none, 0⟩

/-- The number of keys held. -/
noncomputable def size (m : Recency κ ν) : Nat := {k | (m.entry k).isSome}.ncard

/-- No other key was reported before this one. -/
def Oldest (m : Recency κ ν) (k : κ) (e : ν × Nat) : Prop :=
  m.entry k = some e ∧ ∀ other e', m.entry other = some e' → e.2 ≤ e'.2

open Classical in
/-- Forget the entries that are `gone`. -/
noncomputable def remove (m : Recency κ ν) (gone : κ → ν × Nat → Prop) : Recency κ ν where
  entry k := (m.entry k).filter fun e => ¬gone k e
  now := m.now

/-- Whether forgetting would forget anything. -/
def Removes (m : Recency κ ν) (gone : κ → ν × Nat → Prop) : Prop :=
  ∃ k e, m.entry k = some e ∧ gone k e

open Classical in
/-- What is left when `k` is about to be reported: a new key at the limit evicts the
oldest one. -/
noncomputable def room (m : Recency κ ν) (limit : Nat) (k : κ) : Recency κ ν :=
  if m.entry k = none ∧ m.size = limit then m.remove m.Oldest else m

/-- Put a value under its key, as the latest report. -/
def place [DecidableEq κ] (m : Recency κ ν) (k : κ) (v : ν) : Recency κ ν where
  entry := Function.update m.entry k (some (v, m.now))
  now := m.now + 1

theorem place_entry [DecidableEq κ] (m : Recency κ ν) (k other : κ) (v : ν) :
    (m.place k v).entry other = if other = k then some (v, m.now) else m.entry other :=
  Function.update_apply _ _ _ _

noncomputable def report [DecidableEq κ] (m : Recency κ ν) (limit : Nat) (k : κ) (v : ν) :
    Recency κ ν := (m.room limit k).place k v

/-- The values of the map in the order of their reports, the oldest first. -/
structure Lists (key : ν → κ) (m : Recency κ ν) (stamped : List (ν × Nat)) : Prop where
  ascending : stamped.Pairwise fun a b => a.2 < b.2
  past : ∀ e ∈ stamped, e.2 < m.now
  entry : ∀ k e, m.entry k = some e ↔ e ∈ stamped ∧ key e.1 = k

namespace Lists

variable {key : ν → κ} {m : Recency κ ν} {stamped : List (ν × Nat)}

theorem nil : Lists key (empty : Recency κ ν) [] where
  ascending := .nil
  past _ member := by cases member
  entry k e := by simp [empty]

theorem nodup (lists : Lists key m stamped) : stamped.Nodup := by
  apply List.Pairwise.imp _ lists.ascending
  rintro a _ before rfl
  exact Nat.lt_irrefl _ before

theorem same_of_key (lists : Lists key m stamped) {a b : ν × Nat} (first : a ∈ stamped)
    (second : b ∈ stamped) (same : key a.1 = key b.1) : a = b := by
  have here := (lists.entry (key b.1) a).mpr ⟨first, same⟩
  have there := (lists.entry (key b.1) b).mpr ⟨second, rfl⟩
  exact Option.some.inj (here.symm.trans there)

theorem keys_nodup (lists : Lists key m stamped) :
    (stamped.map fun e => key e.1).Nodup := by
  apply List.Nodup.map_on _ lists.nodup
  intro a first b second same
  exact lists.same_of_key first second same

theorem size_eq (lists : Lists key m stamped) : m.size = stamped.length := by
  classical
  have held : {k | (m.entry k).isSome} = ((stamped.map fun e => key e.1).toFinset : Set κ) := by
    ext k
    simp only [Set.mem_ofPred_eq, List.coe_toFinset, List.mem_map]
    constructor
    · intro some
      obtain ⟨e, here⟩ := Option.isSome_iff_exists.mp some
      exact ⟨e, (lists.entry k e).mp here⟩
    · rintro ⟨e, member, rfl⟩
      rw [(lists.entry _ e).mpr ⟨member, rfl⟩]
      rfl
  rw [size, held, Set.ncard_coe_finset, List.toFinset_card_of_nodup lists.keys_nodup,
    List.length_map]

/-- The order of the reports leaves no choice of list. -/
theorem unique {other : List (ν × Nat)} (lists : Lists key m stamped) (also : Lists key m other) :
    stamped = other := by
  have same : ∀ e, e ∈ stamped ↔ e ∈ other := by
    intro e
    have here := lists.entry (key e.1) e
    have there := also.entry (key e.1) e
    simp only [and_true] at here there
    exact here.symm.trans there
  have perm : stamped.Perm other := (List.perm_ext_iff_of_nodup lists.nodup also.nodup).mpr same
  exact perm.eq_of_pairwise (fun a b _ _ less more => absurd less (Nat.lt_asymm more))
    lists.ascending also.ascending

/-- The first of the list is the oldest of the map, and the only one. -/
theorem oldest_iff {first : ν × Nat} {rest : List (ν × Nat)} (lists : Lists key m (first :: rest))
    {k : κ} {e : ν × Nat} (held : m.entry k = some e) : m.Oldest k e ↔ e = first := by
  obtain ⟨member, -⟩ := (lists.entry k e).mp held
  have least := (List.pairwise_cons.mp lists.ascending).1
  constructor
  · rintro ⟨-, before⟩
    rcases List.mem_cons.mp member with same | later
    · exact same
    · have bound := before _ first ((lists.entry _ first).mpr ⟨List.mem_cons_self, rfl⟩)
      exact absurd (least e later) (Nat.not_lt.mpr bound)
  · rintro rfl
    refine ⟨held, fun other e' there => ?_⟩
    rcases List.mem_cons.mp ((lists.entry other e').mp there).1 with rfl | later
    · exact Nat.le_refl _
    · exact Nat.le_of_lt (least e' later)

/-- Forgetting entries filters the list. -/
theorem remove {gone : κ → ν × Nat → Prop} {keep : ν × Nat → Bool} (lists : Lists key m stamped)
    (agree : ∀ e ∈ stamped, keep e = true ↔ ¬gone (key e.1) e) :
    Lists key (m.remove gone) (stamped.filter keep) where
  ascending := lists.ascending.filter keep
  past e member := lists.past e (List.mem_filter.mp member).1
  entry k e := by
    simp only [Recency.remove, Option.filter_eq_some_iff, decide_eq_true_eq, List.mem_filter,
      lists.entry]
    constructor
    · rintro ⟨⟨member, rfl⟩, kept⟩
      exact ⟨⟨member, (agree e member).mpr kept⟩, rfl⟩
    · rintro ⟨⟨member, kept⟩, rfl⟩
      exact ⟨⟨member, rfl⟩, (agree e member).mp kept⟩

/-- Something is forgotten exactly when the list gets shorter. -/
theorem removes_iff {gone : κ → ν × Nat → Prop} {keep : ν × Nat → Bool}
    (lists : Lists key m stamped) (agree : ∀ e ∈ stamped, keep e = true ↔ ¬gone (key e.1) e) :
    m.Removes gone ↔ (stamped.filter keep).length ≠ stamped.length := by
  rw [ne_eq, List.length_filter_eq_length_iff, not_forall]
  constructor
  · rintro ⟨k, e, held, lost⟩
    obtain ⟨member, rfl⟩ := (lists.entry k e).mp held
    exact ⟨e, fun kept => (agree e member).mp (kept member) lost⟩
  · rintro ⟨e, lost⟩
    obtain ⟨member, dropped⟩ := Classical.not_imp.mp lost
    refine ⟨key e.1, e, (lists.entry _ e).mpr ⟨member, rfl⟩, ?_⟩
    exact Classical.not_not.mp fun kept => dropped ((agree e member).mpr kept)

/-- Eviction at the limit drops the head of the list. -/
theorem evict {first : ν × Nat} {rest : List (ν × Nat)} (lists : Lists key m (first :: rest)) :
    Lists key (m.remove m.Oldest) rest := by
  classical
  have filtered : Lists key (m.remove m.Oldest) ((first :: rest).filter fun e => e ≠ first) :=
    lists.remove fun e member => by
      rw [lists.oldest_iff ((lists.entry _ e).mpr ⟨member, rfl⟩), decide_eq_true_eq]
  have fresh : first ∉ rest := (List.nodup_cons.mp lists.nodup).1
  have tail : (first :: rest).filter (fun e => decide (e ≠ first)) = rest := by
    rw [List.filter_cons_of_neg (by simp), List.filter_eq_self]
    intro e member
    simp only [decide_eq_true_eq]
    rintro rfl
    exact fresh member
  rwa [tail] at filtered

/-- A report goes to the end of a list without its key. -/
theorem place [DecidableEq κ] (lists : Lists key m stamped) {v : ν}
    (absent : ∀ e ∈ stamped, key e.1 ≠ key v) :
    Lists key (m.place (key v) v) (stamped ++ [(v, m.now)]) where
  ascending := by
    apply List.pairwise_append.mpr
    refine ⟨lists.ascending, List.pairwise_singleton _ _, fun a before b last => ?_⟩
    obtain rfl := List.mem_singleton.mp last
    exact lists.past a before
  past e member := by
    rcases List.mem_append.mp member with before | last
    · exact Nat.lt_succ_of_lt (lists.past e before)
    · obtain rfl := List.mem_singleton.mp last
      exact Nat.lt_succ_self _
  entry k e := by
    rw [List.mem_append, List.mem_singleton]
    by_cases same : k = key v
    · subst same
      rw [place_entry, if_pos rfl, Option.some.injEq]
      constructor
      · rintro rfl
        exact ⟨.inr rfl, rfl⟩
      · rintro ⟨before | rfl, same⟩
        · exact absurd same (absent e before)
        · rfl
    · rw [place_entry, if_neg same, lists.entry]
      constructor
      · rintro ⟨before, rfl⟩
        exact ⟨.inl before, rfl⟩
      · rintro ⟨before | rfl, rfl⟩
        · exact ⟨before, rfl⟩
        · exact absurd rfl same

/-- A known key moves to the end of the list, whatever the limit. -/
theorem report_known [DecidableEq κ] (lists : Lists key m stamped) (limit : Nat) {v : ν}
    (known : ∃ e ∈ stamped, key e.1 = key v) :
    Lists key (m.report limit (key v) v)
      (stamped.filter (fun e => key e.1 ≠ key v) ++ [(v, m.now)]) := by
  obtain ⟨e, member, same⟩ := known
  have held : m.entry (key v) = some e := (lists.entry _ e).mpr ⟨member, same⟩
  have room : m.room limit (key v) = m := by
    rw [Recency.room, if_neg]
    rintro ⟨none, -⟩
    cases held.symm.trans none
  have left : Lists key (m.remove fun k _ => k = key v)
      (stamped.filter fun e => key e.1 ≠ key v) :=
    lists.remove fun e _ => by rw [decide_eq_true_eq]
  have placed := left.place (v := v) fun e member => by
    simpa using (List.mem_filter.mp member).2
  have same : (m.remove fun k _ => k = key v).place (key v) v = m.place (key v) v := by
    simp only [Recency.place, Recency.remove, mk.injEq, and_true]
    funext k
    by_cases here : k = key v
    · rw [here, Function.update_self, Function.update_self]
    · rw [Function.update_of_ne here, Function.update_of_ne here]
      cases m.entry k <;> simp [here]
  rw [Recency.report, room, ← same]
  exact placed

/-- A new key goes to the end; at the limit the head makes room for it. -/
theorem report_new [DecidableEq κ] (lists : Lists key m stamped) {limit : Nat} {v : ν}
    (positive : 0 < limit) (fresh : ∀ e ∈ stamped, key e.1 ≠ key v) :
    Lists key (m.report limit (key v) v)
      ((if stamped.length = limit then stamped.tail else stamped) ++ [(v, m.now)]) := by
  have absent : m.entry (key v) = none := by
    rw [Option.eq_none_iff_forall_ne_some]
    intro e held
    obtain ⟨member, same⟩ := (lists.entry _ e).mp held
    exact fresh e member same
  by_cases full : stamped.length = limit
  · rw [if_pos full, Recency.report, Recency.room, if_pos ⟨absent, lists.size_eq.trans full⟩]
    cases stamped with
    | nil => exact absurd full (Nat.ne_of_lt positive)
    | cons first rest => exact lists.evict.place fun e member => fresh e (List.mem_cons_of_mem _ member)
  · rw [if_neg full, Recency.report, Recency.room, if_neg]
    · exact lists.place fresh
    · rintro ⟨-, reached⟩
      exact full (lists.size_eq.symm.trans reached)

end Lists
end Recency
