import PtyRuntime.Domain.Projection.Policy

/-! What each call of the projection policy can do: a call that can fail is refused and
changes nothing, or it is admitted under its guards and leaves exactly the state
given here. Everything else about the policy is derived from these. -/
namespace PtyRuntime.ProjectionPolicy

theorem new_ok {cellSize : Nat} {lifetime : SessionLifetime} {options : ProjectionOptions}
    {now : Nat} {p : ProjectionPolicy} (created : new cellSize lifetime options now = .ok p) :
    p = {
      status := {
        published := ⟨lifetime, 0⟩
        processed := ⟨lifetime, 0⟩
        controlGeneration := .initial
        residency := .resident
        history := .complete
        skippedHistoryPages := 0
        failure := none
        parkingFailure := none }
      options
      activity := 0
      operation := 0
      lastActivity := now
      retryAt := now
      attempts := 0 } := by
  unfold new at created
  split at created
  · contradiction
  · rename_i accepted
    obtain rfl := ProjectionOptions.validate_eq accepted
    exact (Except.ok.inj created).symm

theorem recordActivity_cases (p : ProjectionPolicy) (now : Nat) :
    (∃ error, p.recordActivity now = (.error error, p)) ∨
      (p.status.residency.isClosing = false ∧ p.recordActivity now = (.ok (), { p with
        activity := p.activity + 1, lastActivity := now, retryAt := now, attempts := 0 })) := by
  unfold recordActivity
  split
  · exact .inl ⟨_, rfl⟩
  rename_i alive
  split
  · exact .inl ⟨_, rfl⟩
  · rename_i activity counted
    rw [(checkedAdd_eq_some.mp counted).2]
    exact .inr ⟨Bool.eq_false_iff.mpr alive, rfl⟩

theorem admitOutput_cases (p : ProjectionPolicy) (bytes now : Nat) :
    (∃ error, p.admitOutput bytes now = (.error error, p)) ∨
      (p.status.residency.isClosing = false ∧ p.status.published.offset + bytes ≤ u64Max ∧
        p.admitOutput bytes now = (.ok (), { p with
          status := { p.status with
            published := { p.status.published with offset := p.status.published.offset + bytes } }
          activity := p.activity + 1, lastActivity := now, retryAt := now, attempts := 0 })) := by
  unfold admitOutput
  split
  · exact .inl ⟨_, rfl⟩
  split
  · exact .inl ⟨_, rfl⟩
  rename_i next counted
  obtain ⟨fits, rfl⟩ := checkedAdd_eq_some.mp counted
  rcases recordActivity_cases p now with ⟨error, refused⟩ | ⟨alive, recorded⟩
  · rw [refused]
    exact .inl ⟨error, rfl⟩
  · rw [recorded]
    exact .inr ⟨alive, fits, rfl⟩

theorem recordProcessed_cases (p : ProjectionPolicy) (bytes : Nat) :
    (∃ error, p.recordProcessed bytes = (.error error, p)) ∨
      (p.status.processed.offset + bytes ≤ p.status.published.offset ∧
        p.recordProcessed bytes = (.ok (), { p with
          status := { p.status with
            processed := { p.status.processed with
              offset := p.status.processed.offset + bytes } } })) := by
  unfold recordProcessed
  split
  · exact .inl ⟨_, rfl⟩
  rename_i next counted
  rw [(checkedAdd_eq_some.mp counted).2]
  split
  · exact .inl ⟨_, rfl⟩
  · exact .inr ⟨Nat.le_of_not_lt ‹_›, rfl⟩

theorem recordControlApplied_cases (p : ProjectionPolicy) (generation : ControlGeneration) :
    (∃ error, p.recordControlApplied generation = (.error error, p)) ∨
      (generation.value = p.status.controlGeneration.value + 1 ∧
        p.recordControlApplied generation =
          (.ok (), { p with status := { p.status with controlGeneration := generation } })) := by
  unfold recordControlApplied
  split
  · exact .inl ⟨_, rfl⟩
  · rename_i expected
    exact .inr ⟨(ControlGeneration.next_eq_some.mp (not_not.mp expected)).2, rfl⟩

/-- A park is offered only to a resident model with attempts left. -/
theorem parkDelay_offered {p : ProjectionPolicy} {now delay : Nat}
    (offered : p.parkDelay now = some delay) :
    p.status.residency = .resident ∧ p.attempts < p.options.maxParkAttempts := by
  unfold parkDelay at offered
  split at offered
  · cases offered
  · rename_i due
    rw [not_or, not_not, Nat.not_le] at due
    exact due

theorem beginPark_cases (p : ProjectionPolicy) (now : Nat) :
    (∃ error, p.beginPark now = (.error error, p)) ∨
      (p.status.residency = .resident ∧ p.attempts < p.options.maxParkAttempts ∧
        p.status.published = p.status.processed ∧
        p.beginPark now =
          (.ok {
            generation := p.operation + 1
            activity := p.activity
            processed := p.status.processed
            controlGeneration := p.status.controlGeneration },
          { p with
            operation := p.operation + 1
            status := { p.status with residency := .parking }
            attempts := p.attempts + 1 })) := by
  unfold beginPark
  split
  · exact .inl ⟨_, rfl⟩
  rename_i due
  rw [not_or, not_not, not_not] at due
  obtain ⟨resident, room⟩ := parkDelay_offered due.1
  split
  · exact .inl ⟨_, rfl⟩
  · rename_i operation counted
    rw [(checkedAdd_eq_some.mp counted).2]
    exact .inr ⟨resident, room, due.2, rfl⟩

theorem attemptValid_iff {p : ProjectionPolicy} {attempt : ParkAttempt} {quiet : Bool} :
    p.attemptValid attempt quiet = true ↔
      p.status.residency = .parking ∧ p.operation = attempt.generation ∧
        p.activity = attempt.activity ∧ p.status.processed = attempt.processed ∧
        p.status.controlGeneration = attempt.controlGeneration ∧ quiet = true := by
  simp only [attemptValid, decide_eq_true_eq]

theorem commitPark_cases (p : ProjectionPolicy) (attempt : ParkAttempt) (quiet : Bool) :
    (p.attemptValid attempt quiet = true ∧ p.commitPark attempt quiet = (true, { p with
        status := { p.status with residency := .parked, parkingFailure := none }
        attempts := 0 })) ∨
      (p.attemptValid attempt quiet = false ∧ p.status.residency = .parking ∧
        p.commitPark attempt quiet =
          (false, { p with status := { p.status with residency := .resident } })) ∨
      (p.attemptValid attempt quiet = false ∧ p.commitPark attempt quiet = (false, p)) := by
  unfold commitPark
  split
  · exact .inl ⟨‹_›, rfl⟩
  · rename_i stale
    have stale := Bool.eq_false_iff.mpr stale
    split
    · exact .inr (.inl ⟨stale, ‹_›, rfl⟩)
    · exact .inr (.inr ⟨stale, rfl⟩)

/-- A failed attempt leaves the parking state and nothing else. -/
theorem parkFailed_cases (p : ProjectionPolicy) (error : ProjectionError) (now : Nat) :
    (p.status.residency = .parking ∧ p.parkFailed error now = { p with
        status := { p.status with residency := .resident, parkingFailure := some error }
        retryAt := durationAdd now p.options.retryAfter }) ∨
      (p.status.residency ≠ .parking ∧ p.parkFailed error now = { p with
        status := { p.status with parkingFailure := some error }
        retryAt := durationAdd now p.options.retryAfter }) := by
  unfold parkFailed
  split
  · exact .inl ⟨‹_›, rfl⟩
  · exact .inr ⟨‹_›, rfl⟩

/-- A restoration call that is admitted finds one of its allowed residencies. -/
theorem requireRestorationSource_ok {p : ProjectionPolicy} {allowed : List Residency}
    (admitted : p.requireRestorationSource allowed = .ok ()) :
    p.status.residency ∈ allowed ∧ p.status.failure = none := by
  unfold requireRestorationSource at admitted
  split at admitted
  · contradiction
  split at admitted
  · contradiction
  · rename_i failure
    split at admitted
    · exact ⟨‹_›, failure⟩
    · contradiction

theorem beginRestore_cases (p : ProjectionPolicy) :
    (∃ error, p.beginRestore = (.error error, p)) ∨
      (p.status.residency = .parked ∧ p.beginRestore = (.ok (), { p with
        status := { p.status with residency := .restoring, history := .usable } })) := by
  unfold beginRestore
  split
  · exact .inl ⟨_, rfl⟩
  · rename_i required
    exact .inr ⟨List.mem_singleton.mp (requireRestorationSource_ok required).1, rfl⟩

theorem restorationProgress_cases (p : ProjectionPolicy) (progress : RestorationProgress) :
    (∃ error, p.restorationProgress progress = (.error error, p)) ∨
      ((p.status.residency = .restoring ∨ p.status.residency = .usable) ∧
        p.status.history.skippedPages ≤ progress.skippedPages ∧
        p.restorationProgress progress = (.ok (), { p with
          status := { p.status with
            skippedHistoryPages := p.status.skippedHistoryPages +
              (progress.skippedPages - p.status.history.skippedPages)
            history := progress
            residency := if progress.isFinished then .resident else .usable } })) := by
  unfold restorationProgress
  split
  · exact .inl ⟨_, rfl⟩
  rename_i required
  have allowed := (requireRestorationSource_ok required).1
  simp only [List.mem_cons, List.not_mem_nil, or_false] at allowed
  split
  · exact .inl ⟨_, rfl⟩
  rename_i additional difference
  obtain ⟨reached, rfl⟩ := checkedSub_eq_some.mp difference
  split
  · exact .inl ⟨_, rfl⟩
  · rename_i total counted
    rw [(checkedAdd_eq_some.mp counted).2]
    exact .inr ⟨allowed, reached, rfl⟩

theorem fail_closing {p : ProjectionPolicy} (ended : p.status.residency.isClosing = true)
    (error : ProjectionError) : p.fail error = p := by
  simp [fail, ended]

theorem fail_open {p : ProjectionPolicy} (alive : p.status.residency.isClosing = false)
    (error : ProjectionError) :
    p.fail error =
      { p with status := { p.status with failure := some error, residency := .failed } } := by
  simp [fail, alive]

theorem close_cases (p : ProjectionPolicy) :
    (p.status.residency = .closed ∧ p.close = p) ∨ (p.status.residency ≠ .closed ∧
      p.close = { p with status := { p.status with residency := .closing } }) := by
  unfold close
  split
  · exact .inr ⟨‹_›, rfl⟩
  · exact .inl ⟨not_not.mp ‹_›, rfl⟩

end PtyRuntime.ProjectionPolicy
