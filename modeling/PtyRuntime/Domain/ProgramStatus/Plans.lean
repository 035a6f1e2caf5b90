import PtyRuntime.Domain.ProgramStatus.StoreRuns

/-! Plans commit whole or not at all. A generation names one state of the store, so a
plan either meets the very store it was scanned from, whose counters still have the
room the scan saw, or it is stale and changes nothing. -/
namespace PtyRuntime.ProgramStatusStore

/-- What can become of a store: it is the same, or of a later generation. -/
structure Becomes (s s' : ProgramStatusStore) : Prop where
  identity : s'.identity = s.identity
  moved : s' = s ∨ s.generation < s'.generation

namespace Becomes

theorem refl (s : ProgramStatusStore) : s.Becomes s := ⟨rfl, .inl rfl⟩

theorem le {s s' : ProgramStatusStore} (becomes : s.Becomes s') : s.generation ≤ s'.generation := by
  rcases becomes.moved with rfl | later
  · exact Nat.le_refl _
  · exact later.le

theorem trans {s s' s'' : ProgramStatusStore} (first : s.Becomes s') (second : s'.Becomes s'') :
    s.Becomes s'' where
  identity := second.identity.trans first.identity
  moved := by
    rcases second.moved with rfl | later
    · exact first.moved
    · exact .inr (first.le.trans_lt later)

end Becomes

theorem commit_becomes (s : ProgramStatusStore) (plan : ProgramStatusPlan) :
    s.Becomes (s.commit plan).2 := by
  rcases commit_cases s plan with ⟨error, refused⟩ | ⟨-, -, committed⟩
  · rw [refused]
    exact .refl s
  · rw [committed]
    exact ⟨(foldl_apply_bounds s plan.mutations).1, .inr (Nat.lt_succ_self _)⟩

theorem processExited_becomes (s : ProgramStatusStore) : s.Becomes s.processExited.2 := by
  rcases processExited_cases s with ⟨error, refused⟩ | ⟨-, -, exited⟩
  · rw [refused]
    exact .refl s
  · rw [exited]
    exact ⟨(apply_identity s .exit).1, .inr (Nat.lt_succ_self _)⟩

namespace Life

theorem commitPlan_store (life : Life) (plan : ProgramStatusPlan) :
    (life.commitPlan plan).store = (life.store.commit plan).2 := by
  rcases commit_cases life.store plan with ⟨error, refused⟩ | ⟨-, -, committed⟩
  · rw [commitPlan, refused]
  · rw [commitPlan, committed]

theorem scan_store (life : Life) (chunk : Bytes) : (life.step (.scan chunk)).store = life.store := by
  simp only [step]
  split <;> rfl

theorem exit_store (life : Life) :
    (life.step .processExited).store = life.store.processExited.2 := by
  simp only [step]
  split
  · rename_i refused
    rw [refused]
  · rename_i exited
    rw [exited]

theorem step_becomes (life : Life) (event : Event) : life.store.Becomes (life.step event).store := by
  cases event with
  | scan chunk =>
    rw [scan_store]
    exact .refl _
  | commit index =>
    simp only [step]
    split
    · exact .refl _
    · rw [commitPlan_store]
      exact commit_becomes _ _
  | foreign plan =>
    simp only [step]
    split
    · exact .refl _
    · rw [commitPlan_store]
      exact commit_becomes _ _
  | drop index => exact .refl _
  | processExited =>
    rw [exit_store]
    exact processExited_becomes life.store

theorem run_becomes (life : Life) (events : List Event) : life.store.Becomes (life.run events).store := by
  induction events generalizing life with
  | nil => exact .refl _
  | cons event rest ih => exact (step_becomes life event).trans (ih (life.step event))

end Life

/-- The plan is refused and the store is left as it was. -/
def Stale (s : ProgramStatusStore) (plan : ProgramStatusPlan) : Prop :=
  s.commit plan = (.error .stalePlan, s)

/-- The plan is applied whole, and no counter passes its maximum on the way. -/
structure Commits (s : ProgramStatusStore) (plan : ProgramStatusPlan) : Prop where
  accepted : s.commit plan = (.ok (), { plan.mutations.foldl apply s with
    scanner := plan.scanner, generation := s.generation + 1 })
  generation : s.generation + 1 ≤ u64Max
  revision : ∀ applied, applied <+: plan.mutations → (applied.foldl apply s).revision ≤ u64Max

theorem stale_of_identity {s : ProgramStatusStore} {plan : ProgramStatusPlan}
    (foreign : plan.identity ≠ s.identity) : s.Stale plan :=
  if_pos (.inl foreign.symm)

theorem stale_of_older {s : ProgramStatusStore} {plan : ProgramStatusPlan}
    (older : plan.generation < s.generation) : s.Stale plan :=
  if_pos (.inr (Nat.ne_of_gt older))

/-- Only the generation of the store commits, and it moves the store past its own. -/
theorem committed_generation {s : ProgramStatusStore} {plan : ProgramStatusPlan}
    (accepted : (s.commit plan).1 = .ok ()) :
    plan.generation = s.generation ∧ s.generation < (s.commit plan).2.generation := by
  rcases commit_cases s plan with ⟨error, refused⟩ | ⟨-, current, committed⟩
  · rw [refused] at accepted
    cases accepted
  · rw [committed]
    exact ⟨current, Nat.lt_succ_self _⟩

theorem exited_generation {s : ProgramStatusStore} (accepted : s.processExited.1 = .ok ()) :
    s.generation < s.processExited.2.generation := by
  rcases processExited_cases s with ⟨error, refused⟩ | ⟨-, -, exited⟩
  · rw [refused] at accepted
    cases accepted
  · rw [exited]
    exact Nat.lt_succ_self _

theorem scan_mutations {s : ProgramStatusStore} {chunk : Bytes} {plan : ProgramStatusPlan}
    (scanned : s.scan chunk = .ok plan) : plan.mutations.length ≤ chunk.length := by
  obtain ⟨-, -, scan⟩ := scan_ok scanned
  rw [show plan.mutations = (s.scanner.scan chunk).2.1 from congrArg (·.2.1) scan,
    Scanner.scan_eq_feed]
  exact (mutationsOf_length _).trans (Scanner.machine.outputs_le_inputs s.scanner 0 chunk)

/-- The room a scan found is enough for every mutation of its plan. -/
theorem scan_commits {s : ProgramStatusStore} {chunk : Bytes} {plan : ProgramStatusPlan}
    (within : s.generation ≤ u64Max) (scanned : s.scan chunk = .ok plan) : s.Commits plan := by
  obtain ⟨identity, generation, -⟩ := scan_ok scanned
  have room := (Life.scan_planned scanned within).room generation
  refine ⟨?_, room.1, fun applied partly => ?_⟩
  · rcases commit_cases s plan with ⟨error, refused⟩ | ⟨-, -, committed⟩
    · rw [commit, if_neg (by simp [identity, generation])] at refused
      cases refused
    · exact committed
  · have bound := (foldl_apply_bounds s applied).2.2
    have shorter := partly.length_le
    omega

/-- A scan is refused for want of revisions before the guard can wrap around. -/
theorem scan_exhausted (s : ProgramStatusStore) (chunk : Bytes) :
    s.scan chunk = .error .revisionExhausted ↔ chunk.length ≤ maxScanBytes ∧
      chunk.length + 1 ≤ u64Max ∧
      (s.generation = u64Max ∨ u64Max < s.revision + (chunk.length + 1)) := by
  have small : maxScanBytes + 1 ≤ u64Max := by decide
  unfold scan
  split
  · rename_i large
    exact iff_of_false (by simp) fun admitted => Nat.not_lt.mpr admitted.1 large
  rename_i admitted
  split
  · rename_i full
    exact iff_of_true rfl (by omega)
  · rename_i room
    exact iff_of_false (by simp) (by omega)

theorem exit_counters {s : ProgramStatusStore} (generation : s.generation ≤ u64Max)
    (revision : s.revision ≤ u64Max) :
    (s.processExited = (.error .revisionExhausted, s) ∧
        (s.generation = u64Max ∨ s.revision = u64Max)) ∨
      (s.processExited.1 = .ok () ∧ s.processExited.2.generation = s.generation + 1 ∧
        s.processExited.2.generation ≤ u64Max ∧ s.processExited.2.revision ≤ u64Max) := by
  by_cases full : s.generation = u64Max ∨ s.revision = u64Max
  · exact .inl ⟨if_pos full, full⟩
  · right
    rcases processExited_cases s with ⟨error, refused⟩ | ⟨-, -, exited⟩
    · rw [processExited, if_neg full] at refused
      cases refused
    · rw [exited]
      have bound := (apply_identity s .exit).2.2.2
      rw [not_or] at full
      refine ⟨rfl, rfl, ?_, ?_⟩ <;> dsimp only <;> omega

/-- Between a scan and the commit of its plan anything may happen to the store. The
plan commits exactly when nothing did, then within the counters' range and at the
expense of every plan as old as it; otherwise, or offered to another store, it is stale
and changes nothing. The counters' exhaustion is reported with the store untouched. -/
theorem plans_commit_atomically {identity limit : Nat} {store : ProgramStatusStore}
    (created : ProgramStatusStore.new identity limit = .ok store) (first later : List Life.Event) :
    let before := ({ store } : Life).run first
    let now := before.run later
    (∀ chunk plan, before.store.scan chunk = .ok plan →
      plan.mutations.length ≤ chunk.length ∧
      ((now.store = before.store ∧ now.store.Commits plan) ∨
        (before.store.generation < now.store.generation ∧ now.store.Stale plan)) ∧
      ((now.store.commit plan).1 = .ok () → ∀ other : ProgramStatusPlan,
        other.generation ≤ plan.generation → ∀ rest,
          (({ now with store := (now.store.commit plan).2 } : Life).run rest).store.Stale other) ∧
      (now.store.processExited.1 = .ok () → ∀ rest,
        ((now.step .processExited).run rest).store.Stale plan)) ∧
    (∀ chunk, (now.step (.scan chunk)).store = now.store ∧
      (now.store.scan chunk = .error .revisionExhausted ↔ chunk.length ≤ maxScanBytes ∧
        chunk.length + 1 ≤ u64Max ∧
        (now.store.generation = u64Max ∨ u64Max < now.store.revision + (chunk.length + 1)))) ∧
    (∀ plan : ProgramStatusPlan, plan.identity ≠ now.store.identity → now.store.Stale plan) ∧
    ((now.store.processExited = (.error .revisionExhausted, now.store) ∧
        (now.store.generation = u64Max ∨ now.store.revision = u64Max)) ∨
      (now.store.processExited.1 = .ok () ∧
        now.store.processExited.2.generation = now.store.generation + 1 ∧
        now.store.processExited.2.generation ≤ u64Max ∧
        now.store.processExited.2.revision ≤ u64Max)) := by
  intro before now
  obtain ⟨positive, start⟩ := Life.new_sound created
  have counters := (Life.run_sound positive start first).counters
  have counters' := (Life.run_sound positive (Life.run_sound positive start first) later).counters
  have becomes : before.store.Becomes now.store := Life.run_becomes before later
  refine ⟨fun chunk plan scanned => ⟨scan_mutations scanned, ?_, ?_, ?_⟩,
    fun chunk => ⟨Life.scan_store now chunk, scan_exhausted now.store chunk⟩,
    fun plan foreign => stale_of_identity foreign, exit_counters counters'.2 counters'.1⟩
  · have generation := (scan_ok scanned).2.1
    rcases becomes.moved with same | moved
    · left
      rw [same]
      exact ⟨rfl, scan_commits counters.2 scanned⟩
    · exact .inr ⟨moved, stale_of_older (generation.trans_lt moved)⟩
  · intro accepted other older rest
    obtain ⟨current, moved⟩ := committed_generation accepted
    have after := (Life.run_becomes { now with store := (now.store.commit plan).2 } rest).le
    exact stale_of_older ((older.trans_eq current).trans_lt (moved.trans_le after))
  · intro exited rest
    have older : plan.generation ≤ now.store.generation :=
      (scan_ok scanned).2.1.trans_le becomes.le
    have moved : now.store.generation < (now.step .processExited).store.generation := by
      rw [Life.exit_store]
      exact exited_generation exited
    exact stale_of_older ((older.trans_lt moved).trans_le (Life.run_becomes _ rest).le)

/-- The process exits between a scan and the commit of its plan. -/
theorem plans_commit_atomically_exited :
    let before : Life := { store := { identity := 0, limit := 64 } }
    ∃ plan, before.store.scan (0x1b :: ascii "]7501;state=idle" ++ [7]) = .ok plan ∧
      (before.run [.processExited]).store.Stale plan := by
  intro before
  have created : ProgramStatusStore.new 0 64 = .ok before.store := rfl
  have law := plans_commit_atomically created [] [.processExited]
  obtain ⟨plan, scanned⟩ :
      ∃ plan, before.store.scan (0x1b :: ascii "]7501;state=idle" ++ [7]) = .ok plan := by
    rw [ProgramStatusStore.scan, if_neg (by decide), if_neg (by decide)]
    exact ⟨_, rfl⟩
  rcases (law.1 _ plan scanned).2.1 with ⟨same, -⟩ | ⟨-, stale⟩
  · exact absurd (congrArg (·.generation) same) (by decide)
  · exact ⟨plan, scanned, stale⟩

end PtyRuntime.ProgramStatusStore
