import PtyRuntime.Domain.Projection.Options
import PtyRuntime.Domain.Replay

/-! Session lifecycle facts. Exit, drain, supervision and admission outcomes are
written independently by the reader, supervisor and spawn paths; completion is
recomputed from them on every read. -/
namespace PtyRuntime

/-- Application failures do not expose registry locks or external errors. -/
inductive RuntimeError where
  | existingSession
  | missingSession
  | capacity
  | closed
  | notFinished
  | invalidCursor
  | process (error : ProcessError)
  | projection (error : ProjectionError)
  | internal
  deriving DecidableEq, Repr

/-- Global application admission ceilings. All remain finite. -/
structure RuntimeOptions where
  maxSessions : Nat := 512
  maxObservers : Nat := 2048
  replayBytes : Nat := 16 * 1024 * 1024
  outputPageBytes : Nat := 16384
  inputBytes : Nat := 4 * 1024 * 1024
  inputSlots : Nat := 512
  projection : ProjectionLimits := {}
  deriving DecidableEq, Repr

/-- Validate global admission bounds before starting infrastructure. -/
def RuntimeOptions.validate (o : RuntimeOptions) : Except RuntimeError Unit :=
  if o.maxSessions = 0 ∨ o.maxObservers = 0 ∨ o.outputPageBytes = 0 ∨ o.outputPageBytes > 65536 ∨
      o.inputSlots = 0 ∨ o.inputBytes = 0 then .error .capacity
  else
    match o.projection.validate with
    | .error e => .error (.projection e)
    | .ok _ => .ok ()

/-- Per-session creation choices. -/
structure SessionOptions where
  size : TerminalSize
  replayBytes : Nat := 65536
  maxObservers : Nat := 16
  process : ProcessLimits := {}
  /-- Without it the session is raw bytes. -/
  projection : Option ProjectionOptions := none
  deriving DecidableEq, Repr

/-- Validate local choices against the runtime's shared admission ceilings. -/
def SessionOptions.validate (cellSize : Nat) (o : SessionOptions) (runtime : RuntimeOptions) :
    Except RuntimeError Unit :=
  match o.process.validate with
  | .error e => .error (.process e)
  | .ok () =>
    if o.maxObservers = 0 then .error .capacity
    else
      match o.projection with
      | none => .ok ()
      | some projection =>
        match projection.validate cellSize with
        | .error e => .error (.projection e)
        | .ok _ =>
          if projection.terminal.size ≠ o.size ∨
              o.process.readChunk > projection.terminal.feedBytes ∨
              o.process.readChunk > projection.stagingBytes ∨
              o.process.readChunk > runtime.projection.stagingBytes ∨
              projection.terminal.replyBytes > runtime.projection.viewBytes ∨
              projection.terminal.replyBytes > runtime.inputBytes ∨
              projection.terminal.replyBytes > o.process.inputChunk then
            .error (.projection .invalidConfiguration)
          else .ok ()

/-- Separate process, drain, and cancellation facts. -/
structure SessionStatus where
  exit : Option ExitStatus := none
  drain : Option DrainOutcome := none
  supervisionError : Option ProcessError := none
  admissionError : Option RuntimeError := none
  cancellationRequested : Bool := false
  deriving DecidableEq, Repr

/-- Final outcome preserves real exit and incomplete drain independently. -/
structure Completion where
  status : SessionStatus
  deriving DecidableEq, Repr

/-- Observation results. Completion follows retained output and gaps in cursor order. -/
inductive OutputEvent where
  | replay (page : ReplayPage)
  | complete (completion : Completion)
  deriving DecidableEq, Repr

namespace SessionStatus

/-- Preserve the first actual exit; contradictory reports are rejected. -/
def recordExit (s : SessionStatus) (status : ExitStatus) : Except RuntimeError Unit × SessionStatus :=
  if s.exit.any (· ≠ status) then (.error .internal, s)
  else (.ok (), { s with exit := some status })

/-- Preserve final drain independently from exit. -/
def recordDrain (s : SessionStatus) (outcome : DrainOutcome) :
    Except RuntimeError Unit × SessionStatus :=
  if s.drain.any (· ≠ outcome) then (.error .internal, s)
  else (.ok (), { s with drain := some outcome })

/-- Record failed supervision without inventing an actual exit. -/
def recordFailure (s : SessionStatus) (error : ProcessError) : SessionStatus :=
  { s with supervisionError := s.supervisionError.or (some error) }

/-- Fail admission without manufacturing process supervision or exit. -/
def recordAdmissionFailure (s : SessionStatus) (error : RuntimeError) : SessionStatus :=
  { s with admissionError := s.admissionError.or (some error) }

/-- Whether process supervision and output draining have both finished. -/
def completion (s : SessionStatus) : Option Completion :=
  if (s.exit.isSome || s.supervisionError.isSome || s.admissionError.isSome) && s.drain.isSome then
    some ⟨s⟩
  else none

/-- Cancellation is durable intent until process supervision completes. -/
def admitCancel (s : SessionStatus) : Except RuntimeError Unit × SessionStatus :=
  if s.completion.isSome then (.error .closed, s)
  else (.ok (), { s with cancellationRequested := true })

/-- The lifecycle callbacks that reach one session, in any order. The last two
are the rollbacks of a spawn whose projection or process could not be created. -/
inductive Report where
  | exited (status : ExitStatus)
  | drained (outcome : DrainOutcome)
  | supervisionFailed (error : ProcessError)
  | cancel
  | projectionRejected (error : RuntimeError)
  | processRejected (error : ProcessError)
  deriving DecidableEq, Repr

/-- The status change each callback makes under the session's state lock. -/
def report (s : SessionStatus) : Report → SessionStatus
  | .exited status =>
    match s.recordExit status with
    | (.error _, s) => s.recordFailure .internal
    | (.ok (), s) => s
  | .drained outcome =>
    match s.recordDrain outcome with
    | (.error _, s) => s.recordFailure .internal
    | (.ok (), s) => s
  | .supervisionFailed error => s.recordFailure error
  | .cancel => s.admitCancel.2
  | .projectionRejected error => ((s.recordAdmissionFailure error).recordDrain .eof).2
  | .processRejected error => ((s.recordFailure error).recordDrain (.failed error)).2

def reports (s : SessionStatus) (events : List Report) : SessionStatus := events.foldl report s

theorem completion_eq_some {s : SessionStatus} {c : Completion} :
    s.completion = some c ↔ (s.exit.isSome ∨ s.supervisionError.isSome ∨ s.admissionError.isSome) ∧
      s.drain.isSome ∧ c = ⟨s⟩ := by
  unfold completion
  split
  · rename_i finished
    simp only [Bool.and_eq_true, Bool.or_eq_true, or_assoc] at finished
    simp only [Option.some.injEq, finished.1, finished.2, true_and]
    exact eq_comm
  · rename_i unfinished
    simp only [Bool.and_eq_true, Bool.or_eq_true, or_assoc, not_and] at unfinished
    simp only [reduceCtorEq, false_iff, not_and]
    exact fun supervised drained => absurd drained (unfinished supervised)

theorem completion_isSome {s : SessionStatus} :
    s.completion.isSome ↔ s.completion = some ⟨s⟩ := by
  unfold completion
  split <;> simp

/-- Whether a report brings a fact the status has not recorded yet: an exit or
drain where none is known, or, where it would be kept as a failure, the first
failure of that kind. A cancellation of a finished session is refused. -/
def Adds (s : SessionStatus) : Report → Bool
  | .exited status => s.exit ≠ some status ∧ (s.exit = none ∨ s.supervisionError = none)
  | .drained outcome => s.drain ≠ some outcome ∧ (s.drain = none ∨ s.supervisionError = none)
  | .supervisionFailed _ | .processRejected _ => s.supervisionError = none
  | .projectionRejected _ => s.admissionError = none
  | .cancel => false

theorem recordFailure_eq_self {s : SessionStatus} {error : ProcessError} :
    s.recordFailure error = s ↔ s.supervisionError ≠ none := by
  obtain ⟨exit, drain, supervision, admission, cancelled⟩ := s
  cases supervision <;> simp [recordFailure]

theorem recordExit_known {s : SessionStatus} {known : ExitStatus} (exited : s.exit = some known)
    (status : ExitStatus) :
    s.recordExit status = (if known = status then .ok () else .error .internal, s) := by
  by_cases same : known = status
  · subst same
    simp only [recordExit, exited, Option.any_some, ne_eq, not_true_eq_false, decide_false,
      Bool.false_eq_true, if_false, if_true]
    rw [← exited]
  · simp only [recordExit, exited, Option.any_some, ne_eq, same, not_false_eq_true, decide_true,
      if_true, if_false]

theorem recordDrain_known {s : SessionStatus} {known : DrainOutcome} (drained : s.drain = some known)
    (outcome : DrainOutcome) :
    s.recordDrain outcome = (if known = outcome then .ok () else .error .internal, s) := by
  by_cases same : known = outcome
  · subst same
    simp only [recordDrain, drained, Option.any_some, ne_eq, not_true_eq_false, decide_false,
      Bool.false_eq_true, if_false, if_true]
    rw [← drained]
  · simp only [recordDrain, drained, Option.any_some, ne_eq, same, not_false_eq_true, decide_true,
      if_true, if_false]

/-- A finished session's status is left as it was exactly by the reports that
add no fact to it. -/
theorem report_eq_self {s : SessionStatus} (finished : s.completion = some ⟨s⟩) (event : Report) :
    s.report event = s ↔ s.Adds event = false := by
  obtain ⟨_, drained, _⟩ := completion_eq_some.mp finished
  obtain ⟨known, drained⟩ := Option.isSome_iff_exists.mp drained
  cases event with
  | exited status =>
    cases exit : s.exit with
    | none =>
      simp only [report, recordExit, Adds, exit, Option.any_none, Bool.false_eq_true, if_false,
        reduceCtorEq, ne_eq, not_false_eq_true, true_or, and_self, decide_true,
        Bool.true_eq_false, iff_false]
      intro same
      have := congrArg SessionStatus.exit same
      rw [exit] at this
      cases this
    | some first =>
      simp only [report, recordExit_known exit, Adds, exit]
      by_cases same : first = status
      · simp [same]
      · simp [same, recordFailure_eq_self]
  | drained outcome =>
    simp only [report, recordDrain_known drained, Adds, drained]
    by_cases same : known = outcome
    · simp [same]
    · simp [same, recordFailure_eq_self]
  | supervisionFailed error => simp [report, recordFailure_eq_self, Adds]
  | cancel => simp [report, admitCancel, finished, Adds]
  | projectionRejected error =>
    have kept : (s.recordAdmissionFailure error).drain = some known := drained
    simp only [report, recordDrain_known kept, Adds]
    obtain ⟨exit, drain, supervision, admission, cancelled⟩ := s
    cases admission <;> simp [recordAdmissionFailure]
  | processRejected error =>
    have kept : (s.recordFailure error).drain = some known := drained
    simp [report, recordDrain_known kept, recordFailure_eq_self, Adds]

/-- A finished session still reads the same completion after a report exactly
when the report left the whole status alone. -/
theorem report_completion {s : SessionStatus} (finished : s.completion = some ⟨s⟩)
    (event : Report) : (s.report event).completion = some ⟨s⟩ ↔ s.Adds event = false := by
  rw [← report_eq_self finished event]
  constructor
  · intro same
    obtain ⟨_, _, same⟩ := completion_eq_some.mp same
    exact (Completion.mk.inj same).symm
  · intro same
    rw [same]
    exact finished

/-- Between any two points of a sequence of reports, a known completion stays
the same. -/
def StableCompletion (s : SessionStatus) (events : List Report) : Prop :=
  ∀ before after rest, events = before ++ after ++ rest → ∀ c,
    (s.reports before).completion = some c → (s.reports (before ++ after)).completion = some c

theorem reports_append (s : SessionStatus) (first second : List Report) :
    s.reports (first ++ second) = (s.reports first).reports second := List.foldl_append

/-- Completion is stable along a sequence of reports exactly when no report that
follows completion adds a fact that was still missing. -/
theorem stableCompletion_iff (s : SessionStatus) (events : List Report) :
    StableCompletion s events ↔
      ∀ before event after, events = before ++ event :: after →
        (s.reports before).completion.isSome → (s.reports before).Adds event = false := by
  constructor
  · intro stable before event after split finished
    have finished := completion_isSome.mp finished
    have next := stable before [event] after (by simpa using split) _ finished
    rw [reports_append] at next
    exact (report_completion finished event).mp next
  · intro quiet before after rest split c known
    have finished : (s.reports before).completion = some ⟨s.reports before⟩ :=
      completion_isSome.mp (by rw [known]; rfl)
    obtain rfl : c = ⟨s.reports before⟩ := Option.some.inj (known.symm.trans finished)
    -- Each report after completion leaves the status, and so the completion, unchanged.
    have unchanged : s.reports (before ++ after) = s.reports before := by
      clear known
      induction after generalizing before with
      | nil => rw [List.append_nil]
      | cons event after ih =>
        have same := (report_eq_self finished event).mpr
          (quiet before event (after ++ rest) (by simpa using split) (by rw [finished]; rfl))
        have step : s.reports (before ++ [event]) = s.reports before :=
          (reports_append s before [event]).trans same
        have later := ih (before ++ [event]) (by simpa using split) (by rw [step]; exact finished)
        rw [step] at later
        simpa using later
    rw [unchanged]
    exact finished

/-- A child that exits and drains, and whose guardian then faults: the finished
session's completion is replaced by one that carries a supervision error. -/
theorem completion_changes_after_fault :
    ¬ StableCompletion {}
      [.exited (.code 0), .drained .eof, .supervisionFailed .internal] := by
  intro stable
  have later := stable [.exited (.code 0), .drained .eof] [.supervisionFailed .internal] [] rfl _ rfl
  revert later
  decide

end SessionStatus
end PtyRuntime
