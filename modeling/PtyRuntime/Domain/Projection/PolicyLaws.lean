import PtyRuntime.Domain.Projection.PolicySteps

/-! Sequences of policy calls, with arbitrary arguments and clock values and in any
order of late completions: what a call may change and in which direction, as a
preorder on policies, and what every call keeps. -/
namespace PtyRuntime.ProjectionPolicy

/-- The mutators of the policy with their arguments. -/
inductive Call where
  | admitOutput (bytes now : Nat)
  | recordActivity (now : Nat)
  | recordProcessed (bytes : Nat)
  | recordControlApplied (generation : ControlGeneration)
  | beginPark (now : Nat)
  | commitPark (attempt : ParkAttempt) (noPendingWork : Bool)
  | parkFailed (error : ProjectionError) (now : Nat)
  | beginRestore
  | restorationProgress (progress : RestorationProgress)
  | fail (error : ProjectionError)
  | close
  | maintenanceFailed (error : ProjectionError)
  | cleanupFailed (error : ProjectionError)
  | markClosed

/-- What a call answers when it does not fail. -/
inductive Answer where
  | done
  | attempt (issued : ParkAttempt)
  | released (released : Bool)
  deriving DecidableEq

def step (p : ProjectionPolicy) : Call → Except ProjectionError Answer × ProjectionPolicy
  | .admitOutput bytes now => ((p.admitOutput bytes now).1.map fun _ => .done, (p.admitOutput bytes now).2)
  | .recordActivity now => ((p.recordActivity now).1.map fun _ => .done, (p.recordActivity now).2)
  | .recordProcessed bytes => ((p.recordProcessed bytes).1.map fun _ => .done, (p.recordProcessed bytes).2)
  | .recordControlApplied generation =>
    ((p.recordControlApplied generation).1.map fun _ => .done, (p.recordControlApplied generation).2)
  | .beginPark now => ((p.beginPark now).1.map .attempt, (p.beginPark now).2)
  | .commitPark attempt quiet =>
    (.ok (.released (p.commitPark attempt quiet).1), (p.commitPark attempt quiet).2)
  | .parkFailed error now => (.ok .done, p.parkFailed error now)
  | .beginRestore => (p.beginRestore.1.map fun _ => .done, p.beginRestore.2)
  | .restorationProgress progress =>
    ((p.restorationProgress progress).1.map fun _ => .done, (p.restorationProgress progress).2)
  | .fail error => (.ok .done, p.fail error)
  | .close => (.ok .done, p.close)
  | .maintenanceFailed error => (.ok .done, p.maintenanceFailed error)
  | .cleanupFailed error => (.ok .done, p.cleanupFailed error)
  | .markClosed => (.ok .done, p.markClosed)

def run (p : ProjectionPolicy) (calls : List Call) : ProjectionPolicy :=
  calls.foldl (fun p call => (p.step call).2) p

theorem run_append (p : ProjectionPolicy) (first second : List Call) :
    p.run (first ++ second) = (p.run first).run second := List.foldl_append

/-- The residencies each state can be in after one more call. -/
def Follows : Residency → Residency → Prop
  | .closed, next => next = .closed
  | .closing, next => next = .closing ∨ next = .closed
  | .failed, next => next = .failed ∨ next = .closing ∨ next = .closed
  | _, _ => True

theorem Follows.refl (r : Residency) : Follows r r := by
  cases r <;> simp [Follows]

theorem Follows.trans {r s t : Residency} (first : Follows r s)
    (second : Follows s t) : Follows r t := by
  cases r <;> simp only [Follows] at first ⊢
  · rcases first with rfl | rfl | rfl
    · exact second
    · exact .inr second
    · exact .inr (.inr second)
  · rcases first with rfl | rfl
    · exact second
    · exact .inr second
  · subst first
    exact second

/-- Everything one call may change, and in which direction. The last field says
that parking is entered only with a fresh operation generation. -/
structure Evolves (p q : ProjectionPolicy) : Prop where
  options : q.options = p.options
  publishedLifetime : q.status.published.lifetime = p.status.published.lifetime
  processedLifetime : q.status.processed.lifetime = p.status.processed.lifetime
  published : p.status.published.offset ≤ q.status.published.offset
  processed : p.status.processed.offset ≤ q.status.processed.offset
  control : p.status.controlGeneration.value ≤ q.status.controlGeneration.value
  activity : p.activity ≤ q.activity
  operation : p.operation ≤ q.operation
  residency : Follows p.status.residency q.status.residency
  parking : q.status.residency = .parking → q.operation = p.operation →
    p.status.residency = .parking

namespace Evolves
variable {p q r : ProjectionPolicy}

theorem refl (p : ProjectionPolicy) : Evolves p p :=
  ⟨rfl, rfl, rfl, Nat.le_refl _, Nat.le_refl _, Nat.le_refl _, Nat.le_refl _, Nat.le_refl _,
    Follows.refl _, fun parking _ => parking⟩

theorem trans (first : Evolves p q) (second : Evolves q r) : Evolves p r where
  options := second.options.trans first.options
  publishedLifetime := second.publishedLifetime.trans first.publishedLifetime
  processedLifetime := second.processedLifetime.trans first.processedLifetime
  published := Nat.le_trans first.published second.published
  processed := Nat.le_trans first.processed second.processed
  control := Nat.le_trans first.control second.control
  activity := Nat.le_trans first.activity second.activity
  operation := Nat.le_trans first.operation second.operation
  residency := first.residency.trans second.residency
  parking := by
    intro parking same
    have lower := first.operation
    have upper := second.operation
    exact first.parking (second.parking parking (by omega)) (by omega)

end Evolves

/-- The calls that are not refused, with what each answers and leaves. A call that comes
too late for the transition it belongs to is listed apart. -/
inductive Admitted (p : ProjectionPolicy) : Call → Answer → ProjectionPolicy → Prop where
  | admitOutput {bytes now : Nat} (alive : p.status.residency.isClosing = false) :
      Admitted p (.admitOutput bytes now) .done { p with
        status := { p.status with
          published := { p.status.published with offset := p.status.published.offset + bytes } }
        activity := p.activity + 1, lastActivity := now, retryAt := now, attempts := 0 }
  | recordActivity {now : Nat} (alive : p.status.residency.isClosing = false) :
      Admitted p (.recordActivity now) .done { p with
        activity := p.activity + 1, lastActivity := now, retryAt := now, attempts := 0 }
  | recordProcessed {bytes : Nat}
      (within : p.status.processed.offset + bytes ≤ p.status.published.offset) :
      Admitted p (.recordProcessed bytes) .done { p with
        status := { p.status with
          processed := { p.status.processed with offset := p.status.processed.offset + bytes } } }
  | recordControlApplied {generation : ControlGeneration}
      (next : generation.value = p.status.controlGeneration.value + 1) :
      Admitted p (.recordControlApplied generation) .done
        { p with status := { p.status with controlGeneration := generation } }
  | beginPark {now : Nat} (resident : p.status.residency = .resident)
      (room : p.attempts < p.options.maxParkAttempts)
      (level : p.status.published = p.status.processed) :
      Admitted p (.beginPark now)
        (.attempt {
          generation := p.operation + 1
          activity := p.activity
          processed := p.status.processed
          controlGeneration := p.status.controlGeneration })
        { p with
          operation := p.operation + 1
          status := { p.status with residency := .parking }
          attempts := p.attempts + 1 }
  | release {attempt : ParkAttempt} {quiet : Bool} (valid : p.attemptValid attempt quiet = true) :
      Admitted p (.commitPark attempt quiet) (.released true) { p with
        status := { p.status with residency := .parked, parkingFailure := none }
        attempts := 0 }
  | unpark {attempt : ParkAttempt} {quiet : Bool} (stale : p.attemptValid attempt quiet = false)
      (parking : p.status.residency = .parking) :
      Admitted p (.commitPark attempt quiet) (.released false)
        { p with status := { p.status with residency := .resident } }
  | lateCommit {attempt : ParkAttempt} {quiet : Bool}
      (stale : p.attemptValid attempt quiet = false) :
      Admitted p (.commitPark attempt quiet) (.released false) p
  | parkFailed {error : ProjectionError} {now : Nat} (parking : p.status.residency = .parking) :
      Admitted p (.parkFailed error now) .done { p with
        status := { p.status with residency := .resident, parkingFailure := some error }
        retryAt := durationAdd now p.options.retryAfter }
  | lateParkFailed {error : ProjectionError} {now : Nat} :
      Admitted p (.parkFailed error now) .done { p with
        status := { p.status with parkingFailure := some error }
        retryAt := durationAdd now p.options.retryAfter }
  | beginRestore (parked : p.status.residency = .parked) :
      Admitted p .beginRestore .done { p with
        status := { p.status with residency := .restoring, history := .usable } }
  | restorationProgress {progress : RestorationProgress}
      (source : p.status.residency = .restoring ∨ p.status.residency = .usable)
      (reached : p.status.history.skippedPages ≤ progress.skippedPages) :
      Admitted p (.restorationProgress progress) .done { p with
        status := { p.status with
          skippedHistoryPages := p.status.skippedHistoryPages +
            (progress.skippedPages - p.status.history.skippedPages)
          history := progress
          residency := if progress.isFinished then .resident else .usable } }
  | fail {error : ProjectionError} (alive : p.status.residency.isClosing = false) :
      Admitted p (.fail error) .done
        { p with status := { p.status with failure := some error, residency := .failed } }
  | failClosing {error : ProjectionError} : Admitted p (.fail error) .done p
  | close (running : p.status.residency ≠ .closed) :
      Admitted p .close .done { p with status := { p.status with residency := .closing } }
  | closeAgain : Admitted p .close .done p
  | maintenanceFailed {error : ProjectionError} :
      Admitted p (.maintenanceFailed error) .done
        { p with status := { p.status with parkingFailure := some error } }
  | cleanupFailed {error : ProjectionError} :
      Admitted p (.cleanupFailed error) .done
        { p with status := { p.status with failure := some error } }
  | markClosed : Admitted p .markClosed .done
      { p with status := { p.status with residency := .closed } }

/-- Every call is refused and changes nothing, or is one of the admitted ones. -/
theorem step_cases (p : ProjectionPolicy) (call : Call) :
    (∃ error, p.step call = (.error error, p)) ∨
      ∃ answer q, p.step call = (.ok answer, q) ∧ Admitted p call answer q := by
  cases call with
  | admitOutput bytes now =>
    rcases admitOutput_cases p bytes now with ⟨error, refused⟩ | ⟨alive, -, admitted⟩
    · exact .inl ⟨error, by rw [step, refused]; rfl⟩
    · exact .inr ⟨_, _, by rw [step, admitted]; rfl, .admitOutput alive⟩
  | recordActivity now =>
    rcases recordActivity_cases p now with ⟨error, refused⟩ | ⟨alive, recorded⟩
    · exact .inl ⟨error, by rw [step, refused]; rfl⟩
    · exact .inr ⟨_, _, by rw [step, recorded]; rfl, .recordActivity alive⟩
  | recordProcessed bytes =>
    rcases recordProcessed_cases p bytes with ⟨error, refused⟩ | ⟨within, counted⟩
    · exact .inl ⟨error, by rw [step, refused]; rfl⟩
    · exact .inr ⟨_, _, by rw [step, counted]; rfl, .recordProcessed within⟩
  | recordControlApplied generation =>
    rcases recordControlApplied_cases p generation with ⟨error, refused⟩ | ⟨next, applied⟩
    · exact .inl ⟨error, by rw [step, refused]; rfl⟩
    · exact .inr ⟨_, _, by rw [step, applied]; rfl, .recordControlApplied next⟩
  | beginPark now =>
    rcases beginPark_cases p now with ⟨error, refused⟩ | ⟨resident, room, level, begun⟩
    · exact .inl ⟨error, by rw [step, refused]; rfl⟩
    · exact .inr ⟨_, _, by rw [step, begun]; rfl, .beginPark resident room level⟩
  | commitPark attempt quiet =>
    rcases commitPark_cases p attempt quiet with
      ⟨valid, released⟩ | ⟨stale, parking, refused⟩ | ⟨stale, refused⟩
    · exact .inr ⟨_, _, by rw [step, released], .release valid⟩
    · exact .inr ⟨_, _, by rw [step, refused], .unpark stale parking⟩
    · exact .inr ⟨_, _, by rw [step, refused], .lateCommit stale⟩
  | parkFailed error now =>
    rcases parkFailed_cases p error now with ⟨parking, left⟩ | ⟨-, noted⟩
    · exact .inr ⟨_, _, by rw [step, left], .parkFailed parking⟩
    · exact .inr ⟨_, _, by rw [step, noted], .lateParkFailed⟩
  | beginRestore =>
    rcases beginRestore_cases p with ⟨error, refused⟩ | ⟨parked, begun⟩
    · exact .inl ⟨error, by rw [step, refused]; rfl⟩
    · exact .inr ⟨_, _, by rw [step, begun]; rfl, .beginRestore parked⟩
  | restorationProgress progress =>
    rcases restorationProgress_cases p progress with ⟨error, refused⟩ | ⟨source, reached, advanced⟩
    · exact .inl ⟨error, by rw [step, refused]; rfl⟩
    · exact .inr ⟨_, _, by rw [step, advanced]; rfl, .restorationProgress source reached⟩
  | fail error =>
    cases ended : p.status.residency.isClosing with
    | true => exact .inr ⟨_, _, by rw [step, fail_closing ended], .failClosing⟩
    | false => exact .inr ⟨_, _, by rw [step, fail_open ended], .fail ended⟩
  | close =>
    rcases close_cases p with ⟨-, same⟩ | ⟨running, closing⟩
    · exact .inr ⟨_, _, by rw [step, same], .closeAgain⟩
    · exact .inr ⟨_, _, by rw [step, closing], .close running⟩
  | maintenanceFailed error => exact .inr ⟨_, _, rfl, .maintenanceFailed⟩
  | cleanupFailed error => exact .inr ⟨_, _, rfl, .cleanupFailed⟩
  | markClosed => exact .inr ⟨_, _, rfl, .markClosed⟩

/-- A call that fails leaves the whole policy as it was. -/
theorem step_error {p : ProjectionPolicy} {call : Call} {error : ProjectionError}
    (failed : (p.step call).1 = .error error) : (p.step call).2 = p := by
  rcases step_cases p call with ⟨_, refused⟩ | ⟨answer, q, admitted, -⟩
  · rw [refused]
  · rw [admitted] at failed
    cases failed

/-- A call that answers was admitted. -/
theorem step_ok {p : ProjectionPolicy} {call : Call} {answer : Answer}
    (answered : (p.step call).1 = .ok answer) : Admitted p call answer (p.step call).2 := by
  rcases step_cases p call with ⟨error, refused⟩ | ⟨other, q, done, admitted⟩
  · rw [refused] at answered
    cases answered
  · rw [done] at answered ⊢
    obtain rfl := Except.ok.inj answered
    exact admitted

/-- What every admitted call keeps, every call keeps. -/
theorem step_preserves {P : ProjectionPolicy → Prop} {p : ProjectionPolicy} (call : Call) (holds : P p)
    (kept : ∀ {answer q}, Admitted p call answer q → P q) : P (p.step call).2 := by
  rcases step_cases p call with ⟨error, refused⟩ | ⟨answer, q, done, admitted⟩
  · rw [refused]
    exact holds
  · rw [done]
    exact kept admitted

/-- Only the call that closes for good reaches or leaves the closed residency. -/
theorem Admitted.closed {p q : ProjectionPolicy} {call : Call} {answer : Answer}
    (admitted : Admitted p call answer q) (other : call ≠ .markClosed) :
    q.status.residency = .closed ↔ p.status.residency = .closed := by
  cases admitted with
  | beginPark resident => simp [resident]
  | release valid => simp [(attemptValid_iff.mp valid).1]
  | unpark _ parking | parkFailed parking => simp [parking]
  | beginRestore parked => simp [parked]
  | @restorationProgress progress source =>
    rcases source with source | source <;> cases progress.isFinished <;> simp [source]
  | fail alive =>
    have running : p.status.residency ≠ .closed := fun closed => by simp [closed, Residency.isClosing] at alive
    simp [running]
  | close running => simp [running]
  | markClosed => exact absurd rfl other
  | admitOutput | recordActivity | recordProcessed | recordControlApplied | lateCommit | lateParkFailed
  | failClosing | closeAgain | maintenanceFailed | cleanupFailed => exact Iff.rfl

theorem step_closed (p : ProjectionPolicy) {call : Call} (other : call ≠ .markClosed) :
    (p.step call).2.status.residency = .closed ↔ p.status.residency = .closed := by
  rcases step_cases p call with ⟨error, refused⟩ | ⟨answer, q, done, admitted⟩
  · rw [refused]
  · rw [done]
    exact admitted.closed other

/-- Only two calls change whether the projection is closing. -/
theorem Admitted.closing {p q : ProjectionPolicy} {call : Call} {answer : Answer}
    (admitted : Admitted p call answer q) (other : call ≠ .close ∧ call ≠ .markClosed) :
    q.status.residency.isClosing = p.status.residency.isClosing := by
  cases admitted with
  | beginPark resident => simp [resident, Residency.isClosing]
  | release valid => simp [(attemptValid_iff.mp valid).1, Residency.isClosing]
  | unpark _ parking | parkFailed parking => simp [parking, Residency.isClosing]
  | beginRestore parked => simp [parked, Residency.isClosing]
  | @restorationProgress progress source =>
    rcases source with source | source <;> cases progress.isFinished <;> simp [source, Residency.isClosing]
  | fail alive => exact alive.symm
  | close | closeAgain => exact absurd rfl other.1
  | markClosed => exact absurd rfl other.2
  | admitOutput | recordActivity | recordProcessed | recordControlApplied | lateCommit | lateParkFailed
  | failClosing | maintenanceFailed | cleanupFailed => rfl

theorem step_closing (p : ProjectionPolicy) {call : Call} (other : call ≠ .close ∧ call ≠ .markClosed) :
    (p.step call).2.status.residency.isClosing = p.status.residency.isClosing := by
  rcases step_cases p call with ⟨error, refused⟩ | ⟨answer, q, done, admitted⟩
  · rw [refused]
  · rw [done]
    exact admitted.closing other

theorem Admitted.evolves {p q : ProjectionPolicy} {call : Call} {answer : Answer}
    (admitted : Admitted p call answer q) : Evolves p q := by
  cases admitted with
  | admitOutput alive =>
    exact { Evolves.refl p with published := Nat.le_add_right _ _, activity := Nat.le_succ _ }
  | recordActivity alive => exact { Evolves.refl p with activity := Nat.le_succ _ }
  | recordProcessed within => exact { Evolves.refl p with processed := Nat.le_add_right _ _ }
  | recordControlApplied next =>
    exact { Evolves.refl p with control := by simp only [next]; omega }
  | beginPark resident room level =>
    exact { Evolves.refl p with
      operation := Nat.le_succ _
      residency := by rw [resident]; trivial
      parking := fun _ same => absurd same (Nat.succ_ne_self _) }
  | release valid =>
    have parking := (attemptValid_iff.mp valid).1
    exact { Evolves.refl p with
      residency := by rw [parking]; trivial
      parking := fun _ _ => parking }
  | unpark _ parking | parkFailed parking =>
    exact { Evolves.refl p with
      residency := by rw [parking]; trivial
      parking := fun _ _ => parking }
  | beginRestore parked =>
    exact { Evolves.refl p with
      residency := by rw [parked]; trivial
      parking := fun restoring _ => by cases restoring }
  | restorationProgress source reached =>
    rename_i progress
    exact { Evolves.refl p with
      residency := by rcases source with source | source <;> rw [source] <;> trivial
      parking := fun parking _ => by
        revert parking
        cases progress.isFinished <;> simp }
  | fail alive =>
    exact { Evolves.refl p with
      residency := by
        cases residency : p.status.residency <;> simp_all [Residency.isClosing, Follows]
      parking := fun failed _ => by cases failed }
  | close running =>
    exact { Evolves.refl p with
      residency := by cases residency : p.status.residency <;> simp_all [Follows]
      parking := fun closing _ => by cases closing }
  | markClosed =>
    exact { Evolves.refl p with
      residency := by cases residency : p.status.residency <;> simp [Follows]
      parking := fun closed _ => by cases closed }
  | lateCommit | failClosing | closeAgain => exact .refl p
  | lateParkFailed | maintenanceFailed | cleanupFailed => exact { Evolves.refl p with }

theorem step_evolves (p : ProjectionPolicy) (call : Call) : Evolves p (p.step call).2 :=
  step_preserves call (.refl p) fun admitted => admitted.evolves

theorem run_evolves (p : ProjectionPolicy) (calls : List Call) : Evolves p (p.run calls) := by
  induction calls generalizing p with
  | nil => exact .refl p
  | cons call rest ih => exact (step_evolves p call).trans (ih _)

/-- The processed position never passes the published one, and retries stay
within their bound. -/
structure Valid (p : ProjectionPolicy) : Prop where
  ordered : p.status.processed.offset ≤ p.status.published.offset
  attempts : p.attempts ≤ p.options.maxParkAttempts

theorem new_valid {cellSize : Nat} {lifetime : SessionLifetime} {options : ProjectionOptions}
    {now : Nat} {p : ProjectionPolicy} (created : new cellSize lifetime options now = .ok p) :
    Valid p := by
  obtain rfl := new_ok created
  exact ⟨Nat.le_refl _, Nat.zero_le _⟩

theorem Admitted.valid {p q : ProjectionPolicy} {call : Call} {answer : Answer}
    (admitted : Admitted p call answer q) (valid : Valid p) : Valid q := by
  cases admitted with
  | admitOutput alive =>
    exact ⟨Nat.le_trans valid.ordered (Nat.le_add_right _ _), Nat.zero_le _⟩
  | recordActivity | release => exact ⟨valid.ordered, Nat.zero_le _⟩
  | recordProcessed within => exact ⟨within, valid.attempts⟩
  | beginPark resident room level => exact ⟨valid.ordered, room⟩
  | lateCommit | failClosing | closeAgain => exact valid
  | recordControlApplied | unpark | parkFailed | lateParkFailed | beginRestore | restorationProgress
  | fail | close | maintenanceFailed | cleanupFailed | markClosed =>
    exact ⟨valid.ordered, valid.attempts⟩

theorem step_valid {p : ProjectionPolicy} (valid : Valid p) (call : Call) :
    Valid (p.step call).2 :=
  step_preserves call valid fun admitted => admitted.valid valid

theorem run_valid {p : ProjectionPolicy} (valid : Valid p) (calls : List Call) :
    Valid (p.run calls) := by
  induction calls generalizing p with
  | nil => exact valid
  | cons call rest ih => exact ih (step_valid valid call)

end PtyRuntime.ProjectionPolicy
