import Mathlib.Data.List.ReduceOption
import PtyRuntime.Infrastructure.Process.LifecycleAnswers

/-! Whole runs of one process under its supervisor: each exit and each failure is told once, to
an application whose writes were all answered; the workload is terminated before it is killed;
the reader is cut short only for a cause; and a process that was dropped leaves nothing. -/
namespace PtyRuntime

namespace Guardian.Owner

theorem turn_run (o : Owner) (answers : Answers) (late : Bool) :
    ∃ events, (o.turn answers late).2 = o.run events ∧ ∀ event ∈ events, takes event = false := by
  have served : ∃ events, o.step (.service answers) = o.run events ∧ ∀ event ∈ events, takes event = false :=
    ⟨[.service answers], rfl, fun _ member => List.mem_singleton.mp member ▸ rfl⟩
  unfold Owner.turn
  dsimp only
  split
  · exact served
  · split
    · exact served
    · split
      · exact served
      · split
        · refine ⟨[.service answers, .grantExecution], rfl, ?_⟩
          intro event member
          simp only [List.mem_cons, List.not_mem_nil, or_false] at member
          rcases member with rfl | rfl
          · rfl
          · rfl
        · split
          · exact served
          · exact served

/-- Waiting for the admission hands nothing out. -/
theorem admit_run (o : Owner) (turns : List (Answers × Bool)) :
    ∃ events, ( Owner.admit o turns).2 = o.run events ∧ ∀ event ∈ events, takes event = false := by
  induction turns generalizing o with
  | nil => exact ⟨[], rfl, by simp⟩
  | cons turn turns ih =>
    obtain ⟨answers, late⟩ := turn
    obtain ⟨first, runs, untaken⟩ := o.turn_run answers late
    unfold Owner.admit
    dsimp only
    split
    · exact ⟨first, runs, untaken⟩
    · obtain ⟨rest, waits, quiet⟩ := ih (o.turn answers late).2
      refine ⟨first ++ rest, ?_, ?_⟩
      · rw [waits, runs]
        exact List.foldl_append.symm
      · intro event member
        rcases List.mem_append.mp member with early | late
        · exact untaken event early
        · exact quiet event late

end Guardian.Owner

namespace OwnedProcess
open Guardian (Kind)
open Chronicle

variable {s s' : OwnedProcess}

theorem exitStatus_isSome {status : Int32} (known : Guardian.wifexited status ∨ Guardian.wifsignaled status) :
    (exitStatus status).isSome = true := by
  unfold exitStatus
  split
  · rfl
  · rename_i unexited
    rw [if_pos (known.resolve_left unexited)]
    rfl

/-- What the guardian handed out is what was recorded. -/
structure Collecting (s : OwnedProcess) : Prop where
  valid : s.guardian.Valid
  credible : s.guardian.guardian.Credible
  exits : s.guardian.exits ≠ [] → s.exitAt.isSome = true
  recorded : ∀ now status, .recorded now status ∈ s.trace → ∃ raw ∈ s.guardian.exits, exitStatus raw = some status
  faults : 0 < s.guardian.faults ↔ s.supervisionLost = true

theorem Collecting.quiet (collecting : s.Collecting) (quiet : Quiet s s') : s'.Collecting := by
  obtain ⟨own, runs, untaken⟩ := quiet.guardian
  obtain ⟨valid, credible, exits, faults⟩ :=
    Guardian.Owner.run_untaken collecting.credible collecting.valid untaken
  rw [← runs] at valid credible exits faults
  constructor
  · exact valid
  · exact credible
  · rw [exits, quiet.exitAt]
    exact collecting.exits
  · intro now status member
    rw [exits]
    exact collecting.recorded now status (quiet.recorded member)
  · rw [faults, quiet.supervisionLost]
    exact collecting.faults

/-- A report says nothing new. -/
theorem Collecting.reported (collecting : s.Collecting) (report : Report) : (s.log (.reported report)).Collecting := by
  refine { collecting with recorded := ?_ }
  intro now status member
  refine collecting.recorded now status ((List.mem_append.mp member).resolve_right fun new => ?_)
  cases List.mem_singleton.mp new

theorem Collecting.goto (collecting : s.Collecting) (phase : Phase) : (s.goto phase).Collecting := { collecting with }

/-- No exit is pending, so none is handed out. -/
theorem Collecting.takeExit_none (collecting : s.Collecting) (pending : s.guardian.guardian.pendingExit = none)
    (phase : Phase) : (({ s with guardian := s.guardian.step .takeExit } : OwnedProcess).goto phase).Collecting := by
  have same : (s.guardian.step .takeExit).exits = s.guardian.exits := by
    change s.guardian.exits ++ s.guardian.guardian.pendingExit.toList = _
    rw [pending]
    exact List.append_nil _
  refine ⟨(collecting.valid.step .takeExit).1, collecting.credible, ?_, ?_, collecting.faults⟩
  · exact fun some => collecting.exits (same ▸ some)
  · intro now status member
    change ∃ raw ∈ (s.guardian.step .takeExit).exits, _
    rw [same]
    exact collecting.recorded now status member

theorem Collecting.takeExit_some (collecting : s.Collecting) {raw : Int32}
    (pending : s.guardian.guardian.pendingExit = some raw) (now : Nat) (polled : Bool) :
    (({ s with guardian := s.guardian.step .takeExit } : OwnedProcess).recordExit now raw polled).Collecting := by
  have valid : (s.guardian.step .takeExit).Valid := (collecting.valid.step .takeExit).1
  have accounted := collecting.valid.accounted.exits
  rw [pending] at accounted
  have own : (s.guardian.step .takeExit).exits = s.guardian.exits ++ [raw] := by
    change s.guardian.exits ++ s.guardian.guardian.pendingExit.toList = _
    rw [pending]
    rfl
  have observed : s.guardian.guardian.observedExit = some raw := by
    have member : raw ∈ s.guardian.guardian.observedExit.toList := by
      rw [← accounted]
      exact List.mem_append_right _ (List.mem_singleton_self _)
    exact Option.mem_toList.mp member
  have recorded (now : Nat) (status : ExitStatus) (member : .recorded now status ∈ s.trace) :
      ∃ raw ∈ (s.guardian.step .takeExit).exits, exitStatus raw = some status := by
    obtain ⟨old, collected, same⟩ := collecting.recorded now status member
    rw [own]
    exact ⟨old, List.mem_append_left _ collected, same⟩
  unfold OwnedProcess.recordExit
  split
  · rename_i known
    exact ⟨valid, collecting.credible, fun _ => known, recorded, collecting.faults⟩
  · split
    · rename_i status classified
      refine ⟨valid, collecting.credible, fun _ => rfl, ?_, collecting.faults⟩
      intro now other member
      rcases List.mem_append.mp member with old | new
      · exact recorded now other old
      · cases List.mem_singleton.mp new
        refine ⟨raw, ?_, classified⟩
        change raw ∈ (s.guardian.step .takeExit).exits
        rw [own]
        exact List.mem_append_right _ (List.mem_singleton_self _)
    -- the guardian only takes a status that can be classified
    · rename_i unclassified
      have some := exitStatus_isSome (collecting.credible raw observed)
      rw [unclassified] at some
      cases some

theorem Collecting.reap (collecting : s.Collecting) (turn : Turn) (polled : Bool) : (s.reap turn polled).Collecting := by
  have served : ({ s.service turn.service with
      guardian := (s.service turn.service).guardian.run [.takeEscalationApplied, .takeTermApplied] } :
      OwnedProcess).Collecting := by
    refine (collecting.quiet (s.quiet_service turn.service)).quiet { Quiet.refl _ with guardian := ⟨_, rfl, ?_⟩ }
    intro event member
    simp only [List.mem_cons, List.not_mem_nil, or_false] at member
    rcases member with rfl | rfl
    · rfl
    · rfl
  unfold OwnedProcess.reap
  dsimp only
  split
  · rename_i raw pending
    exact served.takeExit_some pending turn.now polled
  · rename_i pending
    exact served.takeExit_none pending _

theorem Collecting.faulting (collecting : s.Collecting) (after : After) (phase : Phase) :
    (if s.guardian.guardian.pendingFault then
      ({ s with guardian := s.guardian.step .takeFault } : OwnedProcess).reportFailure after
    else ({ s with guardian := s.guardian.step .takeFault } : OwnedProcess).goto phase).Collecting := by
  have valid : (s.guardian.step .takeFault).Valid := (collecting.valid.step .takeFault).1
  have accounted := collecting.valid.accounted.faults
  have counted : (s.guardian.step .takeFault).faults = s.guardian.faults + s.guardian.guardian.pendingFault.toNat := rfl
  split
  · rename_i pending
    rw [pending] at accounted counted
    have most := Bool.toNat_le s.guardian.guardian.fault
    have fresh : s.supervisionLost = false := by
      rw [← Bool.not_eq_true, ← collecting.faults]
      simp only [Bool.toNat_true] at accounted
      omega
    unfold OwnedProcess.reportFailure
    rw [if_neg (by simp [fresh])]
    refine ⟨valid, collecting.credible, collecting.exits, ?_, ?_⟩
    · intro now status member
      refine collecting.recorded now status ((List.mem_append.mp member).resolve_right fun new => ?_)
      cases List.mem_singleton.mp new
    · change 0 < (s.guardian.step .takeFault).faults ↔ true = true
      rw [counted]
      simp
  · rename_i none
    have same : (s.guardian.step .takeFault).faults = s.guardian.faults := by
      rw [counted]
      simp [none]
    refine ⟨valid, collecting.credible, collecting.exits, collecting.recorded, ?_⟩
    change 0 < (s.guardian.step .takeFault).faults ↔ _
    rw [same]
    exact collecting.faults

theorem Collecting.advance (collecting : s.Collecting) (turn : Turn) : (s.advance turn).Collecting := by
  unfold OwnedProcess.advance
  split
  · exact (collecting.quiet (s.quiet_begin turn)).goto _
  · dsimp only
    split
    · exact (collecting.quiet (s.quiet_escalate _)).goto _
    · exact collecting.goto _
  · exact { collecting with }
  · dsimp only
    split
    · exact (collecting.quiet s.quiet_stop).goto _
    · exact collecting.goto _
  · dsimp only
    split
    · exact (collecting.quiet ((s.quiet_releaseGuardian _ _).trans (quiet_discard _ _))).goto _
    · exact collecting.goto _
  · split
    · exact (collecting.quiet (s.quiet_log .released rfl)).goto _
    · exact collecting.goto _
  · exact collecting.goto _
  · exact collecting.reap turn _
  · exact { collecting with }
  · exact { collecting with }
  · exact { collecting with }
  · exact (collecting.reported _).goto _
  · exact collecting.faulting _ _
  · exact (collecting.quiet s.quiet_stop).goto _
  · exact (collecting.reported _).goto _
  · exact { collecting with }
  · exact (collecting.quiet s.quiet_stop).goto _
  · split
    · exact (collecting.quiet (s.quiet_order turn.now .abort)).goto _
    · exact collecting
  · split
    · exact collecting.goto _
    · exact collecting.quiet (s.quiet_service turn.service)
  · exact collecting

theorem Collecting.step (collecting : s.Collecting) (event : Event) : (s.step event).Collecting := by
  cases event with
  | advance turn => exact collecting.advance turn
  | unwind =>
    change s.unwind.Collecting
    unfold OwnedProcess.unwind
    split
    · exact (collecting.quiet (s.quiet_log .released rfl)).goto _
    · exact collecting
  | read answers | writeReserved bytes now | requestResize size | requestCancel => exact { collecting with }
  | cancelStep call =>
    change (s.cancelStep call).Collecting
    unfold OwnedProcess.cancelStep
    split
    · exact { collecting with }
    · exact { collecting with }
    · exact collecting.quiet { s.quiet_log .cancelled rfl with }
    · exact collecting

/-- The session and the reader only make steps of their own. -/
structure Moved (s s' : OwnedProcess) : Prop where
  limits : s'.limits = s.limits
  session : ∃ calls, s'.session = s.session.run calls
  reader : ∃ moves, s'.reader = s.reader.run moves

theorem moved_still (limits : s'.limits = s.limits) (session : s'.session = s.session)
    (reader : s'.reader = s.reader) : Moved s s' :=
  ⟨limits, ⟨[], session⟩, ⟨[], reader⟩⟩

theorem moved_begin (s : OwnedProcess) (turn : Turn) : Moved s (s.begin turn) := by
  unfold OwnedProcess.begin
  dsimp only
  split
  · exact moved_still rfl rfl rfl
  · exact moved_still rfl rfl rfl

theorem moved_escalate (s : OwnedProcess) (now : Nat) : Moved s (s.escalate now) := by
  obtain ⟨limits, -, -, -, -, session, reader⟩ := s.terminate_same now
  unfold OwnedProcess.escalate
  dsimp only
  split
  · exact moved_still limits session reader
  · exact moved_still limits session reader

theorem moved_release (s : OwnedProcess) (now : Nat) (shutting : Bool) :
    Moved s ((s.releaseGuardian now shutting).discard now) := by
  have released : Moved s (s.releaseGuardian now shutting) := by
    unfold OwnedProcess.releaseGuardian
    split
    · exact moved_still rfl rfl rfl
    · exact moved_still rfl rfl rfl
  unfold OwnedProcess.discard
  split
  · exact { released with }
  · exact released

theorem moved_reportFailure (s : OwnedProcess) (after : After) : Moved s (s.reportFailure after) := by
  unfold OwnedProcess.reportFailure
  split
  · exact moved_still rfl rfl rfl
  · exact moved_still rfl rfl rfl

theorem moved_recordExit (s : OwnedProcess) (now : Nat) (status : Int32) (polled : Bool) :
    Moved s (s.recordExit now status polled) := by
  unfold OwnedProcess.recordExit
  split
  · exact moved_still rfl rfl rfl
  · split
    · exact moved_still rfl rfl rfl
    · exact s.moved_reportFailure _

theorem moved_reap (s : OwnedProcess) (turn : Turn) (polled : Bool) : Moved s (s.reap turn polled) := by
  have recorded (guardian : Guardian.Owner) (watch : Bool) (status : Int32) :
      Moved s (({ s with guardian, watch } : OwnedProcess).recordExit turn.now status polled) :=
    { moved_recordExit { s with guardian, watch } turn.now status polled with }
  unfold OwnedProcess.reap
  dsimp only
  split
  · exact recorded _ _ _
  · exact moved_still rfl rfl rfl

theorem moved_advance (s : OwnedProcess) (turn : Turn) : Moved s (s.advance turn) := by
  cases phase : s.phase with
  | waiting =>
    simp only [OwnedProcess.advance, phase]
    exact { s.moved_begin turn with }
  | cancelling now shutting =>
    simp only [OwnedProcess.advance, phase]
    split
    · exact { s.moved_escalate now with }
    · exact moved_still rfl rfl rfl
  | resizing now shutting alive =>
    simp only [OwnedProcess.advance, phase]
    cases alive with
    | true => exact ⟨rfl, ⟨[.takeResize turn.resized], rfl⟩, ⟨[], rfl⟩⟩
    | false => exact moved_still rfl rfl rfl
  | stopping now shutting =>
    simp only [OwnedProcess.advance, phase]
    split
    · exact ⟨rfl, ⟨[], rfl⟩, ⟨[.stop], rfl⟩⟩
    · exact moved_still rfl rfl rfl
  | releasing now shutting =>
    simp only [OwnedProcess.advance, phase]
    split
    · exact { s.moved_release now shutting with }
    · exact moved_still rfl rfl rfl
  | reaping polled =>
    simp only [OwnedProcess.advance, phase]
    exact s.moved_reap turn polled
  | noting status polled =>
    simp only [OwnedProcess.advance, phase]
    exact ⟨rfl, ⟨[], rfl⟩, ⟨[.noteWorkloadExit], rfl⟩⟩
  | closing next =>
    simp only [OwnedProcess.advance, phase]
    exact ⟨rfl, ⟨[.beginFinish next.reason], rfl⟩, ⟨[], rfl⟩⟩
  | finishing next =>
    simp only [OwnedProcess.advance, phase]
    exact ⟨rfl, ⟨[.finishInputs 0], rfl⟩, ⟨[], rfl⟩⟩
  | faulting polled =>
    simp only [OwnedProcess.advance, phase]
    split
    · exact { moved_reportFailure { s with guardian := s.guardian.step .takeFault } (.done polled) with }
    · exact moved_still rfl rfl rfl
  | halting after | dropping =>
    simp only [OwnedProcess.advance, phase]
    exact ⟨rfl, ⟨[], rfl⟩, ⟨[.stop], rfl⟩⟩
  | writing =>
    simp only [OwnedProcess.advance, phase]
    refine ⟨rfl, ?_, ⟨[], rfl⟩⟩
    change ∃ calls, (if s.exitAt.isNone then s.session.writeReady turn.now turn.write else s.session) = _
    split
    · exact ⟨[.writeReady turn.now turn.write], rfl⟩
    · exact ⟨[], rfl⟩
  | retaining | joining | cleaning =>
    simp only [OwnedProcess.advance, phase]
    split
    · exact moved_still rfl rfl rfl
    · exact moved_still rfl rfl rfl
  | polling | exiting | failing | dropped =>
    simp only [OwnedProcess.advance, phase]
    exact moved_still rfl rfl rfl

theorem moved_step (s : OwnedProcess) (event : Event) : Moved s (s.step event) := by
  cases event with
  | advance turn => exact s.moved_advance turn
  | unwind =>
    change Moved s s.unwind
    unfold OwnedProcess.unwind
    split
    · exact moved_still rfl rfl rfl
    · exact moved_still rfl rfl rfl
  | read answers => exact ⟨rfl, ⟨[], rfl⟩, ⟨[.advance answers], rfl⟩⟩
  | writeReserved bytes now => exact ⟨rfl, ⟨[.writeReserved bytes now], rfl⟩, ⟨[], rfl⟩⟩
  | requestResize size => exact ⟨rfl, ⟨[.requestResize size], rfl⟩, ⟨[], rfl⟩⟩
  | requestCancel => exact moved_still rfl rfl rfl
  | cancelStep call =>
    change Moved s (s.cancelStep call)
    unfold OwnedProcess.cancelStep
    split <;> exact moved_still rfl rfl rfl

theorem run_limits (s : OwnedProcess) (events : List Event) : (s.run events).limits = s.limits := by
  induction events generalizing s with
  | nil => rfl
  | cons event events ih => exact (ih (s.step event)).trans (s.moved_step event).limits

theorem session_run (s : OwnedProcess) (events : List Event) :
    ∃ calls, (s.run events).session = s.session.run calls :=
  @part_run _ _ _ _ step session ProcessSession.step (fun s event => (s.moved_step event).session) s events

theorem reader_run (s : OwnedProcess) (events : List Event) : ∃ moves, (s.run events).reader = s.reader.run moves :=
  @part_run _ _ _ _ step reader ProcessReader.step (fun s event => (s.moved_step event).reader) s events

/-- What holds of a process at every point of a run. -/
structure Kept (s : OwnedProcess) : Prop where
  faithful : s.Faithful
  telling : s.Telling
  answering : s.Answering
  collecting : s.Collecting

theorem Kept.step (kept : s.Kept) (event : Event) : (s.step event).Kept where
  faithful := kept.faithful.step kept.telling event
  telling := kept.telling.step kept.faithful event
  answering := kept.answering.step kept.faithful kept.telling event
  collecting := kept.collecting.step event

theorem Kept.run (kept : s.Kept) (events : List Event) : (s.run events).Kept := by
  induction events generalizing s with
  | nil => exact kept
  | cons event events ih => exact ih (kept.step event)

theorem start_collecting (limits : ProcessLimits) {guardian : Guardian.Owner} (valid : guardian.Valid)
    (credible : guardian.guardian.Credible) (exits : guardian.exits = []) (faults : guardian.faults = 0)
    (watch : Bool) : (start limits guardian watch).Collecting := by
  constructor
  · exact valid
  · exact credible
  · exact fun some => absurd exits some
  · intro now status none
    cases none
  · change 0 < guardian.faults ↔ false = true
    simp [faults]

section Registered
variable (limits : ProcessLimits) (sid : Int32) (channels : Fin 2 → Guardian.Channel) (generation : UInt64)
  (turns : List (Guardian.Answers × Bool)) (watch : Bool)

/-- The process as the supervisor takes it over after the wait for its admission, however that
ended. -/
def registered : OwnedProcess :=
  let admission := Guardian.Owner.admit (.new sid channels generation) turns
  start limits admission.2 watch

theorem registered_kept : (registered limits sid channels generation turns watch).Kept := by
  obtain ⟨events, runs, untaken⟩ := Guardian.Owner.admit_run (.new sid channels generation) turns
  have fresh : (Guardian.Owner.new sid channels generation).guardian.Credible := by
    intro status none
    cases none
  obtain ⟨valid, credible, exits, faults⟩ :=
    Guardian.Owner.run_untaken fresh (Guardian.Owner.new_valid sid channels generation) untaken
  unfold registered
  dsimp only
  rw [runs]
  constructor
  · exact start_faithful _ _ _
  · exact start_telling _ _ _
  · exact start_answering _ _ _
  · exact start_collecting limits valid credible exits faults watch

def Act.exits : Act → Bool
  | .reported (.exited _) => true
  | _ => false

def Act.fails : Act → Bool
  | .reported (.supervisionFailed _) => true
  | _ => false

def Act.records : Act → Bool
  | .recorded _ _ => true
  | _ => false

def Act.orders (kind : Kind) : Act → Bool
  | .ordered _ other => other = kind
  | _ => false

theorem Act.exits_iff {act : Act} : act.exits = true ↔ ∃ status, act = .reported (.exited status) := by
  rcases act with _ | _ | _ | _ | _ | (_ | _) | _ | _ <;> simp [Act.exits]

theorem Act.fails_iff {act : Act} : act.fails = true ↔ ∃ error, act = .reported (.supervisionFailed error) := by
  rcases act with _ | _ | _ | _ | _ | (_ | _) | _ | _ <;> simp [Act.fails]

theorem Act.records_iff {act : Act} : act.records = true ↔ ∃ now status, act = .recorded now status := by
  cases act <;> simp [Act.records]

theorem Act.orders_iff {act : Act} {kind : Kind} : act.orders kind = true ↔ ∃ now, act = .ordered now kind := by
  cases act <;> simp [Act.orders]

/-- Only one exit is recorded. -/
theorem recorded_unique {limits : ProcessLimits} {record : List Act} (lawful : Lawful (Allowed limits) record)
    {now later : Nat} {status other : ExitStatus} (here : .recorded now status ∈ record)
    (there : .recorded later other ∈ record) : status = other := by
  have same := lawful.unique Act.records ?_ here there rfl rfl
  · cases same
    rfl
  · intro before entry allowed records old member
    obtain ⟨now, status, rfl⟩ := Act.records_iff.mp records
    rw [Bool.eq_false_iff, ne_eq, Act.records_iff]
    rintro ⟨earlier, old, rfl⟩
    exact allowed earlier old member

theorem ordered_once {limits : ProcessLimits} {record : List Act} {kind : Kind}
    (lawful : Lawful (Allowed limits) record)
    (fresh : ∀ before now, Allowed limits before (.ordered now kind) → ¬Ordered before kind) :
    record.countP (Act.orders kind) ≤ 1 := by
  refine lawful.once (Act.orders kind) ?_
  intro before entry allowed orders old member
  obtain ⟨now, rfl⟩ := Act.orders_iff.mp orders
  rw [Bool.eq_false_iff, ne_eq, Act.orders_iff]
  rintro ⟨earlier, rfl⟩
  exact fresh before now allowed ⟨earlier, member⟩

/-- A workload that exited is reported once, with the status its own helper sent, and a
failed supervision once, after a fault of the guardian; when the supervisor is done with a
pass, or with the process, both have been reported. -/
theorem exit_reported_once (events : List Event) :
    let s := (registered limits sid channels generation turns watch).run events
    s.trace.countP Act.exits ≤ 1 ∧ s.trace.countP Act.fails ≤ 1 ∧
      (∀ status, .reported (.exited status) ∈ s.trace → ∃ index frame workload,
        .frame index frame ∈ s.guardian.history ∧ frame.kind = .workloadExit ∧
          s.guardian.guardian.started = some workload ∧ frame.values.second = workload.first ∧
          exitStatus frame.values.first = some status) ∧
      (∀ error, .reported (.supervisionFailed error) ∈ s.trace →
        error = .internal ∧ s.guardian.guardian.fault = true) ∧
      (s.phase.between = true ∨ s.phase = .dropped →
        (∀ now status, .recorded now status ∈ s.trace → .reported (.exited status) ∈ s.trace) ∧
        (.lost ∈ s.trace → .reported (.supervisionFailed .internal) ∈ s.trace)) := by
  intro s
  have kept : s.Kept := (registered_kept limits sid channels generation turns watch).run events
  have lawful := kept.faithful.lawful
  refine ⟨lawful.once Act.exits ?_, lawful.once Act.fails ?_, ?_, ?_, ?_⟩
  · intro before entry allowed exits old member
    obtain ⟨status, rfl⟩ := Act.exits_iff.mp exits
    rw [Bool.eq_false_iff, ne_eq, Act.exits_iff]
    rintro ⟨other, rfl⟩
    exact allowed.2 other member
  · intro before entry allowed fails old member
    obtain ⟨error, rfl⟩ := Act.fails_iff.mp fails
    rw [Bool.eq_false_iff, ne_eq, Act.fails_iff]
    rintro ⟨other, rfl⟩
    exact allowed.2.2.2 other member
  · intro status member
    obtain ⟨before, early, ⟨now, recorded⟩, -⟩ := lawful.allowed member
    obtain ⟨raw, collected, classified⟩ := kept.collecting.recorded now status (early.subset recorded)
    obtain ⟨index, frame, workload, seen, kind, rfl, started, named⟩ :=
      kept.collecting.valid.sound.exited raw collected
    exact ⟨index, frame, workload, seen, kind, started, named, classified⟩
  · intro error member
    obtain ⟨before, early, internal, lost, -, -⟩ := lawful.allowed member
    refine ⟨internal, ?_⟩
    have handed := kept.collecting.faults.mpr (kept.faithful.lost.mpr (early.subset lost))
    have balance := kept.collecting.valid.accounted.faults
    cases fault : s.guardian.guardian.fault with
    | true => rfl
    | false =>
      rw [fault, Bool.toNat_false] at balance
      omega
  · intro calm
    have still : s.phase.exit = none ∧ s.phase.loses = false := by
      cases phase : s.phase with
      | waiting | retaining | polling | dropped => exact ⟨rfl, rfl⟩
      | _ =>
        rw [phase] at calm
        rcases calm with none | none <;> cases none
    constructor
    · intro now status member
      have collected := (kept.faithful.exit now).mpr ⟨status, member⟩
      obtain ⟨told, reported⟩ :=
        (kept.telling.exited (by rw [collected]; rfl)).resolve_right (by simp [still.1])
      obtain ⟨before, early, ⟨earlier, recorded⟩, -⟩ := lawful.allowed reported
      rw [recorded_unique lawful member (early.subset recorded)]
      exact reported
    · intro lost
      exact (kept.telling.failed (kept.faithful.lost.mpr lost)).resolve_right (by simp [still.2])

/-- What stays of the session once its queues are shut. -/
theorem Kept.shut (kept : s.Kept) (shut : s.session.Shut) (later : List Event) :
    (s.run later).session.settled.map (·.bytes) = s.session.admitted ∧
      ProcessSession.Same s.session (s.run later).session := by
  obtain ⟨calls, runs⟩ := s.session_run later
  obtain ⟨-, same⟩ := shut.run calls
  rw [← runs] at same
  exact ⟨same.settled ▸ shut.settled kept.answering.sound, same⟩

/-- A report finds every write that was admitted answered, and from then on no write is
admitted or answered, no byte handed to the system and no size set. -/
theorem report_ends_session (events : List Event) (report : Report) (later : List Event) :
    let s := (registered limits sid channels generation turns watch).run events
    .reported report ∈ s.trace → (s.run later).session.settled.map (·.bytes) = s.session.admitted ∧
      ProcessSession.Same s.session (s.run later).session := by
  intro s member
  have kept : s.Kept := (registered_kept limits sid channels generation turns watch).run events
  exact kept.shut (kept.answering.cleared (.inl ⟨report, member⟩)) later

/-- The helpers admit the workload, tell that it exited, and retire. -/
def exitedAtOnce : Guardian.Answers where
  writes _ := []
  reads index :=
    if index = Guardian.SENTINEL then
      [.data (Guardian.Owner.record .hello #v[300, 301, 0, 0]).encode,
        .data (Guardian.Owner.record .admitted #v[302, 301, 300, 300]).encode,
        .data (Guardian.Owner.record .retiring #v[300, 0, 0, 0]).encode, .data []]
    else
      [.data (Guardian.Owner.record .hello #v[300, 301, 0, 0]).encode,
        .data (Guardian.Owner.record .workloadExit #v[768, 302, 0, 0]).encode,
        .data (Guardian.Owner.record .retiring #v[301, 0, 0, 0]).encode, .data []]
  wait := .exited

/-- A write is admitted, and the exit reported. -/
def writtenThenExited : List Event := .writeReserved [104, 105] 0 :: List.replicate 5 (.advance {})

theorem report_ends_session_exited :
    let s := (registered {} 300 (fun _ => .new 7) 7 [(exitedAtOnce, false)] false).run writtenThenExited
    .reported (.exited (.code 3)) ∈ s.trace ∧
      (s.run [.writeReserved [106] 0]).session.settled.map (·.bytes) = s.session.admitted ∧
      ProcessSession.Same s.session (s.run [.writeReserved [106] 0]).session := by
  intro s
  have member : .reported (.exited (.code 3)) ∈ s.trace := by decide +kernel
  exact ⟨member, report_ends_session _ _ _ _ _ _ _ (.exited (.code 3)) _ member⟩

/-- Every order, stop and report of the supervisor is allowed by what came before it, where
the workload is over once its exit is recorded or the supervision of it lost; the workload is
terminated and killed once at most. -/
theorem orders_staged (events : List Event) :
    let s := (registered limits sid channels generation turns watch).run events
    Lawful (Allowed limits) s.trace ∧ s.trace.countP (Act.orders .terminate) ≤ 1 ∧
      s.trace.countP (Act.orders .kill) ≤ 1 := by
  intro s
  have kept : s.Kept := (registered_kept limits sid channels generation turns watch).run events
  have lawful := kept.faithful.lawful
  refine ⟨?_, ordered_once lawful ?_, ordered_once lawful ?_⟩
  · rw [run_limits] at lawful
    exact lawful
  · exact fun before now allowed => allowed.2.1
  · exact fun before now allowed => allowed.2.1

/-- The reader gives its endpoint up only after the exit of the workload was recorded, and
reports a truncated drain only after it was stopped or its output was closed. -/
theorem reader_cut_for_cause (events : List Event) :
    let s := (registered limits sid channels generation turns watch).run events
    (.released ∈ s.reader.trace → ∃ now status, .recorded now status ∈ s.trace) ∧
      (.drained .truncated ∈ s.reader.trace → .stopped ∈ s.trace ∨
        ∃ chunk, .offered chunk (some .closed) ∈ s.reader.trace) := by
  intro s
  have kept : s.Kept := (registered_kept limits sid channels generation turns watch).run events
  obtain ⟨moves, reads⟩ : ∃ moves, s.reader = (ProcessReader.new true).run moves := reader_run _ events
  obtain ⟨loop, valid⟩ := (ProcessReader.new_valid true).run moves
  rw [← reads] at valid
  constructor
  · intro member
    have released : .released ∈ loop := by
      rw [valid.reported] at member
      refine (List.mem_append.mp member).resolve_right fun report => ?_
      cases phase : s.reader.phase with
      | finishing outcome | done outcome =>
        rw [phase] at report
        cases List.mem_singleton.mp report
      | _ =>
        rw [phase] at report
        cases report
    obtain ⟨earlier, rest, split⟩ := List.append_of_mem released
    obtain ⟨front, seen, -⟩ := valid.released earlier rest split
    have exited : .sawExit true ∈ loop := by
      rw [split, seen]
      simp
    obtain ⟨now, recorded⟩ := Option.isSome_iff_exists.mp (kept.answering.knowing (valid.exited exited))
    exact ⟨now, (kept.faithful.exit now).mp recorded⟩
  · intro member
    have cut : s.reader.Cut := by
      rw [reads]
      exact (ProcessReader.new_cut true).run moves
    exact (cut (valid.honest.drained member)).imp_left kept.faithful.stopped.mp

/-- A process that was dropped leaves nothing behind: the sentinel was reaped and both
channels have ended, the reader has ended and reported its drain, and every write that was
admitted is answered, for ever. -/
theorem dropped_leaves_nothing (events later : List Event) :
    let s := (registered limits sid channels generation turns watch).run events
    s.phase = .dropped → s.guardian.guardian.complete = true ∧
      (∃ outcome, s.reader.phase = .done outcome ∧ .drained outcome ∈ s.reader.trace) ∧
      (s.run later).session.settled.map (·.bytes) = s.session.admitted ∧
      ProcessSession.Same s.session (s.run later).session := by
  intro s dropped
  have kept : s.Kept := (registered_kept limits sid channels generation turns watch).run events
  refine ⟨kept.answering.gone dropped, ?_, ?_⟩
  · obtain ⟨outcome, done⟩ := kept.answering.joined (by rw [dropped]; rfl)
    obtain ⟨moves, reads⟩ : ∃ moves, s.reader = (ProcessReader.new true).run moves := reader_run _ events
    obtain ⟨loop, valid⟩ := (ProcessReader.new_valid true).run moves
    rw [← reads] at valid
    refine ⟨outcome, done, ?_⟩
    rw [valid.reported, done]
    exact List.mem_append_right _ (List.mem_singleton_self _)
  · refine kept.shut (kept.answering.cleared (.inr ?_)) later
    rw [dropped]
    rfl

/-- The reader drains the terminal, and the supervisor drops the process. -/
def drainedThenDropped : List Event :=
  writtenThenExited ++ List.replicate 7 (.read ⟨.ready, .wouldBlock, some .accepted, some ()⟩) ++
    List.replicate 9 (.read ⟨.ready, .eio, some .accepted, some ()⟩) ++ List.replicate 14 (.advance {})

theorem dropped_leaves_nothing_drained :
    let s := (registered {} 300 (fun _ => .new 7) 7 [(exitedAtOnce, false)] false).run drainedThenDropped
    s.phase = .dropped ∧ s.guardian.guardian.complete = true ∧
      (∃ outcome, s.reader.phase = .done outcome ∧ .drained outcome ∈ s.reader.trace) ∧
      (s.run []).session.settled.map (·.bytes) = s.session.admitted ∧
      ProcessSession.Same s.session (s.run []).session := by
  intro s
  have dropped : s.phase = .dropped := by decide +kernel
  exact ⟨dropped, dropped_leaves_nothing _ _ _ _ _ _ _ _ dropped⟩

end Registered

/-- How many steps of the supervisor are left of a drop that need not wait. -/
def Phase.left : Phase → Nat
  | .dropped => 0
  | .cleaning => 1
  | .joining => 2
  | .finishing _ => 3
  | .closing _ => 4
  | _ => 5

def Event.supervises : Event → Bool
  | .advance _ => true
  | _ => false

def Event.reads : Event → Bool
  | .read _ => true
  | _ => false

/-- The process is dropped, its reader was told to stop, and its helpers are gone. -/
structure Leaving (s : OwnedProcess) : Prop where
  drops : s.phase.drops = true
  complete : s.guardian.guardian.complete = true
  stopped : s.reader.stopReader = true

theorem Leaving.advance (leaving : s.Leaving) (turn : Turn) :
    (s.advance turn).Leaving ∧ (s.advance turn).reader.phase = s.reader.phase ∧
      (s.reader.phase.left = 0 → (s.advance turn).phase.left ≤ s.phase.left - 1) := by
  obtain ⟨drops, complete, stopped⟩ := id leaving
  cases phase : s.phase with
  | dropping =>
    simp only [OwnedProcess.advance, phase]
    exact ⟨⟨rfl, complete, rfl⟩, rfl, fun _ => Nat.le_refl _⟩
  | closing next =>
    simp only [OwnedProcess.advance, phase]
    rw [phase] at drops
    cases next with
    | drop => exact ⟨⟨rfl, complete, stopped⟩, rfl, fun _ => Nat.le_refl _⟩
    | _ => cases drops
  | finishing next =>
    simp only [OwnedProcess.advance, phase]
    rw [phase] at drops
    cases next with
    | drop => exact ⟨⟨rfl, complete, stopped⟩, rfl, fun _ => Nat.le_refl _⟩
    | _ => cases drops
  | joining =>
    simp only [OwnedProcess.advance, phase]
    split
    · refine ⟨⟨rfl, ?_, stopped⟩, rfl, fun _ => Nat.le_refl _⟩
      change (s.guardian.guardian.request .abort).complete = true
      rw [Guardian.request_eq]
      exact complete
    · rename_i running
      refine ⟨leaving, rfl, fun ended => ?_⟩
      obtain ⟨outcome, done⟩ := ProcessReader.done_of_left ended
      exact absurd done (running outcome)
  | cleaning =>
    simp only [OwnedProcess.advance, phase, complete, if_true]
    exact ⟨⟨rfl, complete, stopped⟩, rfl, fun _ => Nat.le_refl _⟩
  | dropped =>
    simp only [OwnedProcess.advance, phase]
    exact ⟨leaving, trivial, fun _ => Nat.le_refl _⟩
  | _ =>
    rw [phase] at drops
    cases drops

theorem Leaving.step (leaving : s.Leaving) (event : Event) :
    (s.step event).Leaving ∧ (s.step event).reader.phase.left ≤ s.reader.phase.left - event.reads.toNat ∧
      (s.reader.phase.left = 0 → (s.step event).phase.left ≤ s.phase.left - event.supervises.toNat) := by
  obtain ⟨drops, complete, stopped⟩ := id leaving
  cases event with
  | advance turn =>
    obtain ⟨next, same, fewer⟩ := leaving.advance turn
    refine ⟨next, Nat.le_of_eq ?_, fewer⟩
    change (s.advance turn).reader.phase.left = _
    rw [same]
    rfl
  | unwind =>
    change s.unwind.Leaving ∧ s.unwind.reader.phase.left ≤ _ ∧ (_ → s.unwind.phase.left ≤ _)
    unfold OwnedProcess.unwind
    rw [if_neg]
    · exact ⟨leaving, Nat.le_refl _, fun _ => Nat.le_refl _⟩
    · cases phase : s.phase with
      | waiting | retaining | polling =>
        rw [phase] at drops
        cases drops
      | _ => exact Bool.false_ne_true
  | read answers =>
    refine ⟨⟨drops, complete, ?_⟩, ProcessReader.advance_left (.inl stopped) answers, fun _ => Nat.le_refl _⟩
    exact (reader_flags s.reader answers).1.trans stopped
  | writeReserved | requestResize | requestCancel =>
    exact ⟨⟨drops, complete, stopped⟩, Nat.le_refl _, fun _ => Nat.le_refl _⟩
  | cancelStep call =>
    change (s.cancelStep call).Leaving ∧ (s.cancelStep call).reader.phase.left ≤ _ ∧
      (_ → (s.cancelStep call).phase.left ≤ _)
    unfold OwnedProcess.cancelStep
    split <;> exact ⟨⟨drops, complete, stopped⟩, Nat.le_refl _, fun _ => Nat.le_refl _⟩

theorem Leaving.run (leaving : s.Leaving) (events : List Event) :
    (s.run events).Leaving ∧ (s.run events).reader.phase.left ≤ s.reader.phase.left - events.countP Event.reads ∧
      (s.reader.phase.left = 0 → (s.run events).phase.left ≤ s.phase.left - events.countP Event.supervises) := by
  induction events generalizing s with
  | nil => exact ⟨leaving, Nat.le_refl _, fun _ => Nat.le_refl _⟩
  | cons event events ih =>
    obtain ⟨next, reading, fewer⟩ := leaving.step event
    obtain ⟨last, rest, drops⟩ := ih next
    have reads : (event :: events).countP Event.reads = events.countP Event.reads + event.reads.toNat := by
      rw [List.countP_cons]
      cases event.reads <;> rfl
    have supervises :
        (event :: events).countP Event.supervises = events.countP Event.supervises + event.supervises.toNat := by
      rw [List.countP_cons]
      cases event.supervises <;> rfl
    refine ⟨last, ?_, fun ended => ?_⟩
    · change (OwnedProcess.run (s.step event) events).reader.phase.left ≤ _
      omega
    · change (OwnedProcess.run (s.step event) events).phase.left ≤ _
      have first := fewer ended
      have second := drops (by omega)
      omega

/-- The drop of a process waits for its reader and its helpers only: the helpers gone, six
steps of the reader and then five of the supervisor end it, whatever clients do meanwhile. -/
theorem drop_ends (s : OwnedProcess) (drops : s.phase.drops = true) (complete : s.guardian.guardian.complete = true)
    (stopped : s.reader.stopReader = true) (first later : List Event) (reads : 6 ≤ first.countP Event.reads)
    (supervises : 5 ≤ later.countP Event.supervises) : (s.run (first ++ later)).phase = .dropped := by
  have whole : s.run (first ++ later) = (s.run first).run later := List.foldl_append
  rw [whole]
  obtain ⟨leaving, reading, -⟩ := Leaving.run ⟨drops, complete, stopped⟩ first
  obtain ⟨-, -, left⟩ := leaving.run later
  have few : s.reader.phase.left ≤ 6 := by
    cases s.reader.phase <;> simp [ProcessReader.Phase.left]
  have most : (s.run first).phase.left ≤ 5 := by
    cases (s.run first).phase <;> simp [Phase.left]
  have fewer := left (by omega)
  have none : ((s.run first).run later).phase.left = 0 := by omega
  cases phase : ((s.run first).run later).phase with
  | dropped => rfl
  | _ =>
    rw [phase] at none
    cases none

/-- The supervisor panics once the exit was reported, and the reader is stopped while it reads. -/
theorem drop_ends_unwound :
    let s := (registered {} 300 (fun _ => .new 7) 7 [(exitedAtOnce, false)] false).run
      (writtenThenExited ++ [.advance {}, .unwind, .advance {}])
    s.reader.phase = .top ∧
      (s.run (List.replicate 6 (.read ⟨.ready, .wouldBlock, none, none⟩) ++ List.replicate 5 (.advance {}))).phase =
        .dropped := by
  intro s
  have closing : s.phase = .closing .drop := by decide +kernel
  have complete : s.guardian.guardian.complete = true := by decide +kernel
  have stopped : s.reader.stopReader = true := by decide +kernel
  have top : s.reader.phase = .top := by decide +kernel
  exact ⟨top, drop_ends s (by rw [closing]; rfl) complete stopped _ _ (by decide) (by decide)⟩

theorem early_of_mem {times : List (Option Nat)} {now time : Nat}
    (early : ∀ due, times.reduceOption.min? = some due → now < due) (member : some time ∈ times) : now < time := by
  have listed : time ∈ times.reduceOption := List.reduceOption_mem_iff.mpr member
  cases least : times.reduceOption.min? with
  | none =>
    rw [List.min?_eq_none_iff] at least
    rw [least] at listed
    cases listed
  | some due =>
    have before := early due least
    have under := (List.min?_eq_some_iff.mp least).2 time listed
    omega

/-- A pass before the deadline has nothing to do that only time asks for: no kill, no stop of
a drain, no discard where one is scheduled already, no write that is over; and a guardian
that is polled is polled again within ten milliseconds. -/
theorem deadline_misses_nothing (s : OwnedProcess) (clock now : Nat)
    (early : ∀ due, s.deadline clock = some due → now < due) :
    (∀ start ∈ s.cancelAt, start ≤ now → s.killed = false → s.escalate now = s) ∧
      ((∀ start ∈ s.exitAt, start ≤ now) → s.reader.stopReader = false → s.drainOver now = false) ∧
      (s.discardAt.isSome = true → s.discard now = s) ∧
      (∀ input ∈ s.session.input.head?, now < input.deadline) ∧
      (s.needsPoll = true → now < clock + milliseconds 10) := by
  unfold OwnedProcess.deadline at early
  dsimp only at early
  refine ⟨?_, ?_, ?_, ?_, ?_⟩
  · intro start cancelled past spared
    rw [Option.mem_def] at cancelled
    have before : now < start + s.limits.terminateGrace := early_of_mem early (by simp [cancelled, spared])
    have same : s.terminate now = s := by
      unfold OwnedProcess.terminate
      rw [if_neg (by simp [cancelled])]
    unfold OwnedProcess.escalate
    rw [same]
    refine if_neg ?_
    simp only [cancelled, Option.any_some, decide_eq_true_eq]
    omega
  · intro past running
    unfold OwnedProcess.drainOver
    cases recorded : s.exitAt with
    | none => rfl
    | some start =>
      have since := past start recorded
      have before : now < start + s.limits.drainTimeout := early_of_mem early (by simp [recorded, running])
      simp only [Option.any_some, decide_eq_false_iff_not]
      omega
  · intro some
    obtain ⟨due, discards⟩ := Option.isSome_iff_exists.mp some
    have before : now < due := early_of_mem early (by simp [discards])
    unfold OwnedProcess.discard
    refine if_neg ?_
    simp only [discards, Option.all_some, Bool.and_eq_true, decide_eq_true_eq]
    omega
  · intro input front
    exact early_of_mem early (by simp [Option.mem_def.mp front])
  · intro polled
    exact early_of_mem early (by simp [polled])

/-- A cancel at five, with the grace of a quarter of a second, and no kill before it is over. -/
theorem deadline_misses_nothing_cancelled :
    let s := { start {} (.new 100 (fun _ => .new 7) 7) true with cancelAt := some 5 }
    s.escalate 250000004 = s ∧ s.drainOver 250000004 = false := by
  intro s
  have due : s.deadline 0 = some 250000005 := by decide +kernel
  have early : ∀ due, s.deadline 0 = some due → 250000004 < due := by
    intro other same
    cases due.symm.trans same
    decide
  obtain ⟨kills, drains, -⟩ := deadline_misses_nothing s 0 250000004 early
  exact ⟨kills 5 rfl (by decide) rfl, drains (by rintro _ ⟨⟩) rfl⟩

end OwnedProcess
end PtyRuntime
