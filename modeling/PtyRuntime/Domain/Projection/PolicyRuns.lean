import PtyRuntime.Domain.Projection.PolicyLaws

/-! Whole runs of the projection policy: the attempts it issues and which of them can
still be released, the pages its restorations skipped, and its laws together. -/
namespace PtyRuntime.ProjectionPolicy

/-- The park attempts a sequence of calls issues, in order. -/
def issued (p : ProjectionPolicy) : List Call → List ParkAttempt
  | [] => []
  | call :: rest =>
    (match (p.step call).1 with
      | .ok (.attempt attempt) => [attempt]
      | _ => []) ++ issued (p.step call).2 rest

/-- An issued attempt names a fresh operation and the version it was taken at. -/
theorem step_attempt {p : ProjectionPolicy} {call : Call} {attempt : ParkAttempt}
    (given : (p.step call).1 = .ok (.attempt attempt)) :
    attempt.generation = p.operation + 1 ∧ (p.step call).2.operation = p.operation + 1 ∧
      attempt.activity = (p.step call).2.activity := by
  generalize after : (p.step call).2 = q
  have admitted := step_ok given
  rw [after] at admitted
  cases admitted with
  | beginPark resident room level => exact ⟨rfl, rfl, rfl⟩

theorem issued_above (p : ProjectionPolicy) (calls : List Call) :
    ∀ attempt ∈ p.issued calls, p.operation < attempt.generation := by
  induction calls generalizing p with
  | nil => simp [issued]
  | cons call rest ih =>
    intro attempt member
    simp only [issued, List.mem_append] at member
    rcases member with now | later
    · split at now
      · rename_i found given
        obtain rfl := List.mem_singleton.mp now
        have := (step_attempt given).1
        omega
      · cases now
    · exact Nat.lt_of_le_of_lt (step_evolves p call).operation (ih _ attempt later)

theorem issued_increasing (p : ProjectionPolicy) (calls : List Call) :
    (p.issued calls).Pairwise (fun earlier later => earlier.generation < later.generation) := by
  induction calls generalizing p with
  | nil => exact .nil
  | cons call rest ih =>
    simp only [issued]
    split
    · rename_i attempt given
      refine List.pairwise_cons.mpr ⟨fun later member => ?_, ih _⟩
      obtain ⟨generation, operation, _⟩ := step_attempt given
      have := issued_above _ rest later member
      omega
    · exact ih _

/-- The release decision is exactly the validity of the attempt. -/
theorem commitPark_released (p : ProjectionPolicy) (attempt : ParkAttempt) (quiet : Bool) :
    (p.commitPark attempt quiet).1 = p.attemptValid attempt quiet := by
  rcases commitPark_cases p attempt quiet with
    ⟨valid, released⟩ | ⟨stale, -, refused⟩ | ⟨stale, refused⟩
  · rw [released, valid]
  · rw [refused, stale]
  · rw [refused, stale]

/-- Once a generation has been released, neither it nor an older one is valid
in any later state: parking again takes a fresh operation. -/
theorem released_once {p q : ProjectionPolicy} {attempt again : ParkAttempt} {quiet quiet' : Bool}
    (released : (p.commitPark attempt quiet).1 = true)
    (later : Evolves (p.commitPark attempt quiet).2 q)
    (older : again.generation ≤ attempt.generation) : (q.commitPark again quiet').1 = false := by
  rw [commitPark_released] at released
  have parked : (p.commitPark attempt quiet).2.status.residency = .parked := by
    simp only [commitPark, released, if_true]
  have current : (p.commitPark attempt quiet).2.operation = attempt.generation := by
    simp only [commitPark, released, if_true]
    exact (attemptValid_iff.mp released).2.1
  rw [commitPark_released, ← Bool.not_eq_true]
  intro valid
  obtain ⟨parking, operation, _⟩ := attemptValid_iff.mp valid
  have bound := later.operation
  have before := later.parking parking (by omega)
  rw [parked] at before
  cases before

/-- A state that has seen activity since an attempt was issued refuses it. -/
theorem stale_activity {q : ProjectionPolicy} {attempt : ParkAttempt} {quiet : Bool}
    (moved : attempt.activity < q.activity) : (q.commitPark attempt quiet).1 = false := by
  rw [commitPark_released, ← Bool.not_eq_true]
  intro valid
  have same := (attemptValid_iff.mp valid).2.2.1
  omega

/-- The calls that count as activity: parser admission and ordered controls. -/
def Call.isActivity : Call → Bool
  | .admitOutput _ _ | .recordActivity _ => true
  | _ => false

theorem activity_advances {p : ProjectionPolicy} {call : Call} (active : call.isActivity = true)
    (ok : ∃ answer, (p.step call).1 = .ok answer) : p.activity < (p.step call).2.activity := by
  obtain ⟨answer, ok⟩ := ok
  generalize after : (p.step call).2 = q
  have admitted := step_ok ok
  rw [after] at admitted
  cases admitted with
  | admitOutput alive | recordActivity alive => exact Nat.lt_succ_self _
  | _ => cases active

/-- The last skipped-page count each restoration reported, newest first. -/
def restorations (p : ProjectionPolicy) (counts : List Nat) : List Call → List Nat
  | [] => counts
  | call :: rest =>
    restorations (p.step call).2
      (match call, (p.step call).1 with
        | .beginRestore, .ok _ => 0 :: counts
        | .restorationProgress progress, .ok _ => progress.skippedPages :: counts.tail
        | _, _ => counts) rest

/-- The running total is the sum of the counts, the current one included. -/
structure Skips (p : ProjectionPolicy) (counts : List Nat) : Prop where
  total : p.status.skippedHistoryPages = counts.sum
  current : p.status.history.skippedPages = counts.headD 0

theorem Skips.of_same {p q : ProjectionPolicy} {counts : List Nat} (skips : Skips p counts)
    (total : q.status.skippedHistoryPages = p.status.skippedHistoryPages)
    (history : q.status.history = p.status.history) : Skips q counts :=
  ⟨total.trans skips.total, (congrArg _ history).trans skips.current⟩

/-- The current restoration's earlier count is replaced, not added again. -/
theorem Skips.replace {p : ProjectionPolicy} {counts : List Nat} (skips : Skips p counts)
    {pages : Nat} (reached : p.status.history.skippedPages ≤ pages) :
    p.status.skippedHistoryPages + (pages - p.status.history.skippedPages) =
      (pages :: counts.tail).sum := by
  have counted : counts.sum = counts.headD 0 + counts.tail.sum := by cases counts <;> simp
  have total := skips.total
  have current := skips.current
  rw [List.sum_cons]
  omega

theorem Admitted.skips {p q : ProjectionPolicy} {counts : List Nat} {call : Call} {answer : Answer}
    (admitted : Admitted p call answer q) (skips : Skips p counts) :
    Skips q (match call with
      | .beginRestore => 0 :: counts
      | .restorationProgress progress => progress.skippedPages :: counts.tail
      | _ => counts) := by
  cases admitted with
  | beginRestore parked => exact ⟨by simpa using skips.total, rfl⟩
  | restorationProgress source reached => exact ⟨skips.replace reached, rfl⟩
  | lateCommit | failClosing | closeAgain => exact skips
  | admitOutput | recordActivity | recordProcessed | recordControlApplied | beginPark | release
  | unpark | parkFailed | lateParkFailed | fail | close | maintenanceFailed | cleanupFailed
  | markClosed => exact skips.of_same rfl rfl

theorem step_skips {p : ProjectionPolicy} {counts : List Nat} (skips : Skips p counts)
    (call : Call) :
    Skips (p.step call).2
      (match call, (p.step call).1 with
        | .beginRestore, .ok _ => 0 :: counts
        | .restorationProgress progress, .ok _ => progress.skippedPages :: counts.tail
        | _, _ => counts) := by
  rcases step_cases p call with ⟨error, refused⟩ | ⟨answer, q, done, admitted⟩
  · rw [refused]
    cases call <;> exact skips
  · rw [done]
    have next := admitted.skips skips
    cases call <;> exact next

theorem run_skips {p : ProjectionPolicy} {counts : List Nat} (skips : Skips p counts)
    (calls : List Call) : Skips (p.run calls) (p.restorations counts calls) := by
  induction calls generalizing p counts with
  | nil => exact skips
  | cons call rest ih => exact ih (step_skips skips call)

/-- Every law of the policy, from a fresh policy over every sequence of calls. -/
theorem policy_laws {cellSize : Nat} {lifetime : SessionLifetime} {options : ProjectionOptions}
    {now : Nat} {fresh : ProjectionPolicy}
    (created : new cellSize lifetime options now = .ok fresh) (calls : List Call) :
    let p := fresh.run calls
    p.status.processed.offset ≤ p.status.published.offset ∧
    p.status.processed.lifetime = lifetime ∧ p.status.published.lifetime = lifetime ∧
    p.attempts ≤ options.maxParkAttempts ∧
    (fresh.issued calls).Pairwise (fun earlier later => earlier.generation ≠ later.generation) ∧
    p.status.skippedHistoryPages = (fresh.restorations [] calls).sum ∧
    (∀ call, let q := (p.step call).2
      p.status.published.offset ≤ q.status.published.offset ∧
      p.status.processed.offset ≤ q.status.processed.offset ∧
      p.status.controlGeneration.value ≤ q.status.controlGeneration.value ∧
      (p.status.residency = .closed → q.status.residency = .closed) ∧
      (p.status.residency = .closing →
        q.status.residency = .closing ∨ q.status.residency = .closed) ∧
      (p.status.residency = .failed → q.status.residency = .failed ∨
        q.status.residency = .closing ∨ q.status.residency = .closed) ∧
      (∀ error, (p.step call).1 = .error error → q = p)) ∧
    (∀ attempt quiet, (p.step (.commitPark attempt quiet)).1 = .ok (.released true) →
      ∀ later again quiet', again.generation ≤ attempt.generation →
        (((p.step (.commitPark attempt quiet)).2.run later).step (.commitPark again quiet')).1 =
          .ok (.released false)) ∧
    (∀ park attempt, (p.step park).1 = .ok (.attempt attempt) →
      ∀ before activity after quiet, activity.isActivity = true →
        (∃ answer, ((((p.step park).2.run before).step activity).1 = .ok answer)) →
        ((((p.step park).2.run (before ++ activity :: after)).step
          (.commitPark attempt quiet)).1 = .ok (.released false))) := by
  intro p
  have start := new_ok created
  have evolved : Evolves fresh p := run_evolves fresh calls
  have now := run_valid (new_valid created) calls
  have started : Skips fresh [] := by
    rw [start]
    exact ⟨rfl, rfl⟩
  refine ⟨now.ordered, ?_, ?_, ?_, ?_, ?_, ?_, ?_, ?_⟩
  · rw [evolved.processedLifetime, start]
  · rw [evolved.publishedLifetime, start]
  · have same : p.options = options := by rw [evolved.options, start]
    rw [← same]
    exact now.attempts
  · exact (issued_increasing fresh calls).imp fun less => Nat.ne_of_lt less
  · exact (run_skips started calls).total
  · intro call q
    have step : Evolves p q := step_evolves p call
    have follows := step.residency
    refine ⟨step.published, step.processed, step.control, ?_, ?_, ?_, ?_⟩
    · intro closed
      simpa only [closed, Follows] using follows
    · intro closing
      simpa only [closing, Follows] using follows
    · intro failed
      simpa only [failed, Follows] using follows
    · intro error failed
      exact step_error failed
  · intro attempt quiet released later again quiet' older
    have released : (p.commitPark attempt quiet).1 = true := by
      simpa only [step, Except.ok.injEq, Answer.released.injEq] using released
    exact congrArg (fun b => Except.ok (Answer.released b))
      (released_once released (run_evolves _ later) older)
  · intro park attempt given before activity after quiet active ok
    have issuedAt := (step_attempt given).2.2
    have first := (run_evolves (p.step park).2 before).activity
    have moved := activity_advances active ok
    have last := (run_evolves
      ((((p.step park).2.run before).step activity).2) after).activity
    have split : (p.step park).2.run (before ++ activity :: after) =
        ((((p.step park).2.run before).step activity).2).run after := run_append _ _ _
    rw [split]
    exact congrArg (fun b => Except.ok (Answer.released b)) (stale_activity (by omega))

/-- The default options of an 80 by 24 terminal are accepted, and the laws hold
of the run that parks it after a minute and releases the attempt. -/
theorem policy_laws_default :
    ∃ fresh, new 72 ⟨1, 1⟩ (.new (.new ⟨80, 24, by decide, by decide, by decide⟩)) 0 = .ok fresh ∧
      (fresh.step (.beginPark (seconds 60))).1 = .ok (.attempt ⟨1, 0, ⟨⟨1, 1⟩, 0⟩, .initial⟩) ∧
      (fresh.run [.beginPark (seconds 60), .commitPark ⟨1, 0, ⟨⟨1, 1⟩, 0⟩, .initial⟩ true]).attempts
        ≤ 3 := by
  refine ⟨_, rfl, rfl, ?_⟩
  have created : new 72 ⟨1, 1⟩ (.new (.new ⟨80, 24, by decide, by decide, by decide⟩)) 0 =
    .ok _ := rfl
  exact (policy_laws created _).2.2.2.1

end PtyRuntime.ProjectionPolicy
