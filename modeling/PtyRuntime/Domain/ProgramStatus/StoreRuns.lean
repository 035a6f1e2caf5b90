import PtyRuntime.Domain.ProgramStatus.ReportLaws
import PtyRuntime.Recency

/-! A session's store over its whole life: the records are what a map that remembers
its reports would hold after the same mutations, in the order of their reports. -/
namespace PtyRuntime

/-- Records by identifier, and how often they changed. -/
structure StatusReference where
  map : Recency Bytes ProgramStatusRecord
  revision : Nat

namespace StatusReference

def empty : StatusReference := ⟨.empty, 0⟩

/-- An identifier, and every one below it; the empty one is above all. -/
def Below (id other : Bytes) : Prop := id = [] ∨ other = id ∨ id ++ ascii "/" <+: other

open Classical in
/-- Forgetting counts as a change only when something was forgotten. -/
noncomputable def remove (s : StatusReference) (gone : Bytes → ProgramStatusRecord × Nat → Prop) :
    StatusReference where
  map := s.map.remove gone
  revision := if s.map.Removes gone then s.revision + 1 else s.revision

noncomputable def apply (limit : Nat) (s : StatusReference) : Mutation → StatusReference
  | .report record => ⟨s.map.report limit record.id record, s.revision + 1⟩
  | .clear id => s.remove fun other _ => Below id other
  | .exit => s.remove fun _ e => e.1.state = .working ∨ e.1.state = .blocked
  | .reset => s.remove fun _ _ => True

end StatusReference

namespace ProgramStatusStore

/-- The records are the reference's, in the order of their reports. -/
structure Agrees (s : ProgramStatusStore) (reference : StatusReference)
    (stamped : List (ProgramStatusRecord × Nat)) : Prop where
  lists : Recency.Lists (·.id) reference.map stamped
  records : s.records = stamped.map Prod.fst
  revision : s.revision = reference.revision
  within : stamped.length ≤ s.limit

theorem retain_agrees {s : ProgramStatusStore} {reference : StatusReference}
    {stamped : List (ProgramStatusRecord × Nat)} (agrees : s.Agrees reference stamped)
    {keep : ProgramStatusRecord → Bool} {gone : Bytes → ProgramStatusRecord × Nat → Prop}
    (same : ∀ record time, keep record = true ↔ ¬gone record.id (record, time)) :
    (s.retain keep).Agrees (reference.remove gone) (stamped.filter fun e => keep e.1) := by
  have matched : ∀ e ∈ stamped, keep e.1 = true ↔ ¬gone e.1.id e := fun e _ => same e.1 e.2
  have kept : s.records.filter keep = (stamped.filter fun e => keep e.1).map Prod.fst := by
    rw [agrees.records, List.filter_map]
    rfl
  refine ⟨agrees.lists.remove matched, kept, ?_,
    (List.length_filter_le _ _).trans agrees.within⟩
  have shorter := agrees.lists.removes_iff matched
  have left : (s.records.filter keep).length = (stamped.filter fun e => keep e.1).length := by
    rw [kept, List.length_map]
  have total : s.records.length = stamped.length := by rw [agrees.records, List.length_map]
  simp only [retain, StatusReference.remove, left, total]
  by_cases lost : reference.map.Removes gone
  · rw [if_pos lost, if_pos (shorter.mp lost), agrees.revision]
  · rw [if_neg lost, if_neg fun fewer => lost (shorter.mpr fewer), agrees.revision]

/-- An identifier's own record and the records below it are cleared, and no others. -/
theorem cleared_iff (id : Bytes) (r : ProgramStatusRecord) :
    (!id.isEmpty && r.id != id &&
      !((stripStart id r.id).any fun suffix => (ascii "/").isPrefixOf suffix)) = true ↔
      ¬StatusReference.Below id r.id := by
  have stripped : (stripStart id r.id).any (fun suffix => (ascii "/").isPrefixOf suffix) = true ↔
      id ++ ascii "/" <+: r.id := by
    simp only [stripStart]
    constructor
    · intro found
      split at found
      · rename_i leads
        obtain ⟨rest, whole⟩ := List.isPrefixOf_iff_prefix.mp leads
        rw [← whole, List.drop_left, Option.any_some, List.isPrefixOf_iff_prefix] at found
        rw [← whole]
        exact (List.prefix_append_right_inj id).mpr found
      · cases found
    · rintro ⟨rest, whole⟩
      have leads : id.isPrefixOf r.id = true := by
        rw [List.isPrefixOf_iff_prefix, ← whole, List.append_assoc]
        exact List.prefix_append _ _
      rw [if_pos leads, Option.any_some, ← whole, List.append_assoc, List.drop_left,
        List.isPrefixOf_iff_prefix]
      exact List.prefix_append _ _
  rw [StatusReference.Below, ← stripped]
  simp [not_or, and_assoc]

/-- With distinct identifiers, erasing the first match keeps exactly the others. -/
theorem eraseP_eq_filter {id : Bytes} {records : List ProgramStatusRecord}
    (nodup : (records.map (·.id)).Nodup) :
    records.eraseP (·.id == id) = records.filter (·.id != id) := by
  induction records with
  | nil => rfl
  | cons first rest ih =>
    obtain ⟨fresh, nodup⟩ := List.nodup_cons.mp nodup
    by_cases same : first.id = id
    · have others : rest.filter (·.id != id) = rest := by
        rw [List.filter_eq_self]
        intro other member
        simp only [bne_iff_ne]
        intro again
        exact fresh (List.mem_map.mpr ⟨other, member, again.trans same.symm⟩)
      simp [same, others]
    · rw [List.eraseP_cons_of_neg (by simpa using same), List.filter_cons_of_pos (by simpa using same),
        ih nodup]

theorem report_agrees {s : ProgramStatusStore} {reference : StatusReference}
    {stamped : List (ProgramStatusRecord × Nat)} (agrees : s.Agrees reference stamped)
    (positive : 0 < s.limit) (record : ProgramStatusRecord) :
    ∃ stamped, (s.apply (.report record)).Agrees
      (reference.apply s.limit (.report record)) stamped := by
  have nodup : (s.records.map (·.id)).Nodup := by
    rw [agrees.records, List.map_map]
    exact agrees.lists.keys_nodup
  cases found : s.records.findIdx? (·.id == record.id) with
  | some index =>
    have known : ∃ e ∈ stamped, e.1.id = record.id := by
      obtain ⟨bound, same, -⟩ := List.findIdx?_eq_some_iff_getElem.mp found
      obtain ⟨r, member, same⟩ : ∃ r ∈ s.records, r.id = record.id :=
        ⟨_, List.getElem_mem bound, by simpa using same⟩
      rw [agrees.records] at member
      obtain ⟨e, here, rfl⟩ := List.mem_map.mp member
      exact ⟨e, here, same⟩
    have erased : s.records.eraseIdx index =
        (stamped.filter fun e => e.1.id ≠ record.id).map Prod.fst := by
      have whole : s.records.eraseP (·.id == record.id) = _ := List.eraseP_eq_eraseIdx
      rw [found] at whole
      dsimp only at whole
      rw [← whole, eraseP_eq_filter nodup, agrees.records, List.filter_map]
      congr 2
      funext e
      simp [bne, beq_eq_decide]
    refine ⟨_, agrees.lists.report_known s.limit known, ?_, ?_, ?_⟩
    · simp only [apply, found, erased, List.map_append, List.map_cons, List.map_nil]
    · exact congrArg (· + 1) agrees.revision
    · obtain ⟨e, member, same⟩ := known
      have fewer : (stamped.filter fun e => decide (e.1.id ≠ record.id)).length < stamped.length :=
        List.length_filter_lt_length_iff_exists.mpr ⟨e, member, by simpa using same⟩
      rw [List.length_append, List.length_singleton]
      exact fewer.trans_le agrees.within
  | none =>
    have fresh : ∀ e ∈ stamped, e.1.id ≠ record.id := by
      intro e member same
      have unmatched := List.findIdx?_eq_none_iff.mp found e.1
        (agrees.records ▸ List.mem_map_of_mem member)
      simp [same] at unmatched
    have length : s.records.length = stamped.length := by rw [agrees.records, List.length_map]
    refine ⟨_, agrees.lists.report_new positive fresh, ?_, ?_, ?_⟩
    · simp only [apply, found, length]
      split <;> simp [agrees.records, List.map_tail]
    · exact congrArg (· + 1) agrees.revision
    · have within := agrees.within
      rw [List.length_append, List.length_singleton]
      change _ ≤ s.limit
      split
      · rw [List.length_tail]
        omega
      · omega

theorem apply_agrees {s : ProgramStatusStore} {reference : StatusReference}
    {stamped : List (ProgramStatusRecord × Nat)} (agrees : s.Agrees reference stamped)
    (positive : 0 < s.limit) (m : Mutation) :
    ∃ stamped, (s.apply m).Agrees (reference.apply s.limit m) stamped := by
  cases m with
  | report record => exact report_agrees agrees positive record
  | clear id => exact ⟨_, retain_agrees agrees fun record _ => cleared_iff id record⟩
  | exit =>
    refine ⟨_, retain_agrees agrees fun record _ => ?_⟩
    simp [not_or]
  | reset =>
    refine ⟨_, retain_agrees agrees fun record _ => ?_⟩
    simp

theorem foldl_agrees {s : ProgramStatusStore} {reference : StatusReference}
    {stamped : List (ProgramStatusRecord × Nat)} (agrees : s.Agrees reference stamped)
    (positive : 0 < s.limit) (mutations : List Mutation) :
    ∃ stamped, (mutations.foldl apply s).Agrees
      (mutations.foldl (StatusReference.apply s.limit) reference) stamped := by
  induction mutations generalizing s reference stamped with
  | nil => exact ⟨stamped, agrees⟩
  | cons m rest ih =>
    obtain ⟨stamped, next⟩ := apply_agrees agrees positive m
    have limit := (apply_identity s m).2.2.1
    obtain ⟨stamped, last⟩ := ih next (limit ▸ positive)
    rw [limit] at last
    exact ⟨stamped, last⟩

/-- The scanner and the generation are beside the records. -/
theorem Agrees.frame {s : ProgramStatusStore} {reference : StatusReference}
    {stamped : List (ProgramStatusRecord × Nat)} (agrees : s.Agrees reference stamped)
    (scanner : Scanner) (generation : Nat) :
    ({ s with scanner, generation } : ProgramStatusStore).Agrees reference stamped :=
  ⟨agrees.lists, agrees.records, agrees.revision, agrees.within⟩

theorem apply_bounded {s : ProgramStatusStore} {m : Mutation} (given : m.Bounded)
    (bounded : ∀ r ∈ s.records, r.Bounded) : ∀ r ∈ (s.apply m).records, r.Bounded := by
  have retained : ∀ keep : ProgramStatusRecord → Bool, ∀ r ∈ (s.retain keep).records, r.Bounded :=
    fun keep r member => bounded r (List.mem_filter.mp member).1
  cases m with
  | report record =>
    intro r member
    rcases List.mem_append.mp member with before | last
    · refine bounded r ?_
      split at before
      · exact List.mem_of_mem_eraseIdx before
      · split at before
        · exact List.mem_of_mem_eraseIdx before
        · exact before
    · obtain rfl := List.mem_singleton.mp last
      exact given
  | clear id => exact retained _
  | exit => exact retained _
  | reset => exact retained _

theorem foldl_bounded {s : ProgramStatusStore} {mutations : List Mutation}
    (given : ∀ m ∈ mutations, m.Bounded) (bounded : ∀ r ∈ s.records, r.Bounded) :
    ∀ r ∈ (mutations.foldl apply s).records, r.Bounded := by
  induction mutations generalizing s with
  | nil => exact bounded
  | cons m rest ih =>
    exact ih (fun other member => given other (List.mem_cons_of_mem _ member))
      (apply_bounded (given m List.mem_cons_self) bounded)

theorem foldl_limit (s : ProgramStatusStore) (mutations : List Mutation) :
    (mutations.foldl apply s).limit = s.limit := by
  induction mutations generalizing s with
  | nil => rfl
  | cons m rest ih => exact (ih (s.apply m)).trans (apply_identity s m).2.2.1

theorem commit_cases (s : ProgramStatusStore) (plan : ProgramStatusPlan) :
    (∃ error, s.commit plan = (.error error, s)) ∨
      (plan.identity = s.identity ∧ plan.generation = s.generation ∧
        s.commit plan = (.ok (), { plan.mutations.foldl apply s with
          scanner := plan.scanner, generation := s.generation + 1 })) := by
  unfold commit
  split
  · exact .inl ⟨_, rfl⟩
  · rename_i current
    rw [not_or, not_not, not_not] at current
    dsimp only
    rw [(foldl_apply_bounds s plan.mutations).2.1]
    exact .inr ⟨current.1.symm, current.2.symm, rfl⟩

theorem processExited_cases (s : ProgramStatusStore) :
    (∃ error, s.processExited = (.error error, s)) ∨
      (s.generation ≠ u64Max ∧ s.revision ≠ u64Max ∧
        s.processExited = (.ok (), { s.apply .exit with generation := s.generation + 1 })) := by
  unfold processExited
  split
  · exact .inl ⟨_, rfl⟩
  · rename_i room
    rw [not_or] at room
    dsimp only
    rw [(apply_identity s .exit).2.1]
    exact .inr ⟨room.1, room.2, rfl⟩

/-- A store, the plans scanned from it that have been neither committed nor dropped,
and every mutation it was given so far. -/
structure Life where
  store : ProgramStatusStore
  plans : List ProgramStatusPlan := []
  history : List Mutation := []

namespace Life

/-- What a store's owner can do; a plan of another store can be committed as well. -/
inductive Event where
  | scan (chunk : Bytes)
  | commit (index : Nat)
  | foreign (plan : ProgramStatusPlan)
  | drop (index : Nat)
  | processExited

def commitPlan (life : Life) (plan : ProgramStatusPlan) : Life :=
  match life.store.commit plan with
  | (.error _, store) => { life with store }
  | (.ok (), store) => { life with store, history := life.history ++ plan.mutations }

def step (life : Life) : Event → Life
  | .scan chunk =>
    match life.store.scan chunk with
    | .error _ => life
    | .ok plan => { life with plans := life.plans ++ [plan] }
  | .commit index =>
    match life.plans[index]? with
    | none => life
    | some plan => { life with plans := life.plans.eraseIdx index }.commitPlan plan
  | .foreign plan => if plan.identity = life.store.identity then life else life.commitPlan plan
  | .drop index => { life with plans := life.plans.eraseIdx index }
  | .processExited =>
    match life.store.processExited with
    | (.error _, store) => { life with store }
    | (.ok (), store) => { life with store, history := life.history ++ [.exit] }

def run (life : Life) (events : List Event) : Life := events.foldl step life

/-- What a plan that has not been committed guarantees while it is current. -/
structure Planned (s : ProgramStatusStore) (plan : ProgramStatusPlan) : Prop where
  older : plan.generation ≤ s.generation
  bounded : ∀ m ∈ plan.mutations, m.Bounded
  room : plan.generation = s.generation →
    s.generation < u64Max ∧ s.revision + plan.mutations.length ≤ u64Max

/-- What holds of a store throughout its life. -/
structure Sound (limit : Nat) (life : Life) : Prop where
  capped : life.store.limit = limit
  agrees : ∃ stamped, life.store.Agrees
    (life.history.foldl (StatusReference.apply limit) .empty) stamped
  bounded : ∀ r ∈ life.store.records, r.Bounded
  planned : ∀ plan ∈ life.plans, Planned life.store plan
  counters : life.store.revision ≤ u64Max ∧ life.store.generation ≤ u64Max

theorem scan_planned {s : ProgramStatusStore} {chunk : Bytes} {plan : ProgramStatusPlan}
    (scanned : s.scan chunk = .ok plan) (within : s.generation ≤ u64Max) : Planned s plan := by
  obtain ⟨-, generation, scan⟩ := scan_ok scanned
  have mutations : plan.mutations = (s.scanner.scan chunk).2.1 := congrArg (·.2.1) scan
  have few : plan.mutations.length ≤ chunk.length := by
    rw [mutations, Scanner.scan_eq_feed]
    exact (mutationsOf_length _).trans (Scanner.machine.outputs_le_inputs s.scanner 0 chunk)
  refine ⟨generation.le, fun m member => ?_, fun _ => ?_⟩
  · rw [mutations] at member
    exact Scanner.scan_bounded _ _ m member
  · simp only [ProgramStatusStore.scan] at scanned
    split at scanned
    · cases scanned
    rename_i small
    split at scanned
    · cases scanned
    · rename_i room
      have scannable : maxScanBytes < u64Max := by decide
      rw [not_or] at room
      omega

/-- Once the store has moved on, a plan is stale and promises nothing more. -/
theorem Planned.outdated {s s' : ProgramStatusStore} {plan : ProgramStatusPlan}
    (planned : Planned s plan) (moved : s.generation < s'.generation) : Planned s' plan where
  older := planned.older.trans moved.le
  bounded := planned.bounded
  room current := absurd (current ▸ planned.older) (Nat.not_le.mpr moved)

theorem commitPlan_sound {limit : Nat} {life : Life} {plan : ProgramStatusPlan} (positive : 0 < limit)
    (sound : life.Sound limit) (planned : Planned life.store plan) :
    (life.commitPlan plan).Sound limit := by
  rcases commit_cases life.store plan with ⟨error, refused⟩ | ⟨-, current, committed⟩
  · rw [commitPlan, refused]
    exact sound
  · rw [commitPlan, committed]
    obtain ⟨stamped, agrees⟩ := sound.agrees
    obtain ⟨stamped, applied⟩ := foldl_agrees agrees (sound.capped ▸ positive) plan.mutations
    have room := planned.room current
    have bounds := foldl_apply_bounds life.store plan.mutations
    have kept := (foldl_limit life.store plan.mutations).trans sound.capped
    refine ⟨kept, ⟨stamped, ?_⟩, foldl_bounded planned.bounded sound.bounded, ?_, ?_, room.1⟩
    · rw [List.foldl_append, ← sound.capped]
      rw [← sound.capped] at applied
      exact applied.frame _ _
    · exact fun other member => (sound.planned other member).outdated (Nat.lt_succ_self _)
    · exact bounds.2.2.trans room.2

theorem step_sound {limit : Nat} {life : Life} (positive : 0 < limit) (sound : life.Sound limit)
    (event : Event) : (life.step event).Sound limit := by
  have fewer : ∀ index, ({ life with plans := life.plans.eraseIdx index } : Life).Sound limit :=
    fun index => { sound with
      planned := fun plan member => sound.planned plan (List.mem_of_mem_eraseIdx member) }
  cases event with
  | scan chunk =>
    simp only [step]
    split
    · exact sound
    · rename_i plan scanned
      refine { sound with planned := fun other member => ?_ }
      rcases List.mem_append.mp member with before | last
      · exact sound.planned other before
      · obtain rfl := List.mem_singleton.mp last
        exact scan_planned scanned sound.counters.2
  | commit index =>
    simp only [step]
    split
    · exact sound
    · rename_i plan found
      exact commitPlan_sound positive (fewer index)
        (sound.planned plan (List.mem_of_getElem? found))
  | foreign plan =>
    simp only [step]
    split
    · exact sound
    · rename_i other
      rcases commit_cases life.store plan with ⟨error, refused⟩ | ⟨same, -⟩
      · rw [commitPlan, refused]
        exact sound
      · exact absurd same other
  | drop index => exact fewer index
  | processExited =>
    simp only [step]
    rcases processExited_cases life.store with ⟨error, refused⟩ | ⟨generation, revision, exited⟩
    · rw [refused]
      exact sound
    · rw [exited]
      obtain ⟨stamped, agrees⟩ := sound.agrees
      obtain ⟨stamped, applied⟩ := apply_agrees agrees (sound.capped ▸ positive) .exit
      have bounds := apply_identity life.store .exit
      have counters := sound.counters
      refine ⟨bounds.2.2.1.trans sound.capped, ⟨stamped, ?_⟩, apply_bounded trivial sound.bounded, ?_,
        ?_, ?_⟩
      · rw [List.foldl_append, ← sound.capped]
        rw [← sound.capped] at applied
        exact applied.frame _ _
      · exact fun other member => (sound.planned other member).outdated (Nat.lt_succ_self _)
      · have bound := bounds.2.2.2
        simp only
        omega
      · simp only
        omega

theorem run_sound {limit : Nat} {life : Life} (positive : 0 < limit) (sound : life.Sound limit)
    (events : List Event) : (life.run events).Sound limit := by
  induction events generalizing life with
  | nil => exact sound
  | cons event rest ih => exact ih (step_sound positive sound event)

theorem new_sound {identity limit : Nat} {store : ProgramStatusStore}
    (created : ProgramStatusStore.new identity limit = .ok store) :
    0 < limit ∧ ({ store } : Life).Sound limit := by
  simp only [ProgramStatusStore.new] at created
  split at created
  · rename_i allowed
    obtain rfl := Except.ok.inj created
    refine ⟨by omega, rfl, ⟨[], .nil, rfl, rfl, Nat.zero_le _⟩, ?_, ?_, Nat.zero_le _, Nat.zero_le _⟩
    · exact fun r member => by cases member
    · exact fun plan member => by cases member
  · cases created

end Life

/-- After every life of a store its records are the reference's, in the order of
their reports, and within the protocol's bounds; and no counter has overflowed. -/
theorem records_follow_reference {identity limit : Nat} {store : ProgramStatusStore}
    (created : ProgramStatusStore.new identity limit = .ok store) (events : List Life.Event) :
    let life := ({ store } : Life).run events
    let reference := life.history.foldl (StatusReference.apply limit) .empty
    (∃ stamped, Recency.Lists (·.id) reference.map stamped ∧
      life.store.records = stamped.map Prod.fst ∧
      ∀ other, Recency.Lists (·.id) reference.map other → other = stamped) ∧
    life.store.revision = reference.revision ∧
    (life.store.records.map (·.id)).Nodup ∧ life.store.records.length ≤ limit ∧
    (∀ record ∈ life.store.records, record.Bounded) ∧
    life.store.revision ≤ u64Max ∧ life.store.generation ≤ u64Max := by
  obtain ⟨positive, start⟩ := Life.new_sound created
  have sound := Life.run_sound positive start events
  obtain ⟨stamped, agrees⟩ := sound.agrees
  refine ⟨⟨stamped, agrees.lists, agrees.records, fun other also => also.unique agrees.lists⟩,
    agrees.revision, ?_, ?_, sound.bounded, sound.counters⟩
  · rw [agrees.records, List.map_map]
    exact agrees.lists.keys_nodup
  · rw [agrees.records, List.length_map, ← sound.capped]
    exact agrees.within

/-- A program that reported once and then exited. -/
theorem records_follow_reference_exited :
    let chunk := 0x1b :: ascii "]7501;state=working:id=a/b" ++ [7]
    let life := ({ store := { identity := 0, limit := 64 } } : Life).run
      [.scan chunk, .commit 0, .processExited]
    let reference := life.history.foldl (StatusReference.apply 64) .empty
    life.store.revision = reference.revision ∧ life.store.records.length ≤ 64 := by
  intro chunk life reference
  have created : ProgramStatusStore.new 0 64 = .ok { identity := 0, limit := 64 } := rfl
  have law := records_follow_reference created [.scan chunk, .commit 0, .processExited]
  exact ⟨law.2.1, law.2.2.2.1⟩

end ProgramStatusStore
end PtyRuntime
