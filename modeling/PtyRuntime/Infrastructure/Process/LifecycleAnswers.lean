import PtyRuntime.Infrastructure.Process.LifecycleReports

/-! What a report finds: the queues of the session are shut and every write was answered, and
the reader, which is cut short only for a cause, knows of the exit. -/
namespace PtyRuntime

namespace ProcessSession
variable {s : ProcessSession}

/-- The queues are empty and closed. -/
structure Shut (s : ProcessSession) : Prop where
  closed : s.closed = true
  input : s.input = []
  resize : s.resize = none

/-- What a client was told, and what the system took of it. -/
structure Same (s s' : ProcessSession) : Prop where
  admitted : s'.admitted = s.admitted
  accepted : s'.accepted = s.accepted
  settled : s'.settled = s.settled
  resized : s'.resized = s.resized

theorem Shut.step (shut : s.Shut) (event : Event) : (s.step event).Shut ∧ Same s (s.step event) := by
  obtain ⟨closed, input, resize⟩ := shut
  have kept : (s.step event).Shut := by
    obtain ⟨still, empty⟩ := closed_step closed input event
    refine ⟨still, empty, ?_⟩
    cases event with
    | writeReserved bytes now => simp [ProcessSession.step, writeReserved, closed, resize]
    | requestResize size => simp [ProcessSession.step, requestResize, closed, resize]
    | takeResize outcome => simp [ProcessSession.step, takeResize, resize]
    | writeReady now answer => simp [ProcessSession.step, writeReady, input, resize]
    | beginFinish reason => exact resize
    | finishInputs call =>
      simp only [ProcessSession.step, finishInputs]
      split
      · exact resize
      · rfl
  refine ⟨kept, ?_⟩
  cases event with
  | writeReserved bytes now => constructor <;> simp [ProcessSession.step, writeReserved, closed]
  | requestResize size => constructor <;> simp [ProcessSession.step, requestResize, closed]
  | takeResize outcome => constructor <;> simp [ProcessSession.step, takeResize, resize]
  | writeReady now answer => constructor <;> simp [ProcessSession.step, writeReady, input]
  | beginFinish reason => exact ⟨rfl, rfl, rfl, rfl⟩
  | finishInputs call =>
    simp only [ProcessSession.step, finishInputs]
    split
    · exact ⟨rfl, rfl, rfl, rfl⟩
    · constructor
      · rfl
      · rfl
      · simp [input]
      · simp [resize]

theorem Shut.run (shut : s.Shut) (events : List Event) : (s.run events).Shut ∧ Same s (s.run events) := by
  induction events generalizing s with
  | nil => exact ⟨shut, rfl, rfl, rfl, rfl⟩
  | cons event events ih =>
    obtain ⟨next, same⟩ := shut.step event
    obtain ⟨last, rest⟩ := ih next
    exact ⟨last, rest.admitted.trans same.admitted, rest.accepted.trans same.accepted,
      rest.settled.trans same.settled, rest.resized.trans same.resized⟩

/-- A teardown leaves the queues shut. -/
theorem Sound.shut (sound : Sound s) {reason : ProcessError} (finishing : s.finishing = [reason]) :
    (s.finishInputs 0).Shut ∧ (s.finishInputs 0).finishing = [] := by
  have closed := sound.closing (by rw [finishing]; exact List.cons_ne_nil _ _)
  unfold ProcessSession.finishInputs
  rw [finishing]
  exact ⟨⟨closed, rfl, rfl⟩, rfl⟩

/-- The teardown is over with the queues. -/
theorem Shut.settled (shut : s.Shut) (sound : Sound s) : s.settled.map (·.bytes) = s.admitted := by
  have ordered := sound.ordered
  rw [shut.input, List.map_nil, List.append_nil] at ordered
  exact ordered.symm

theorem takeResize_finishing (s : ProcessSession) (outcome : Except ProcessError Unit) :
    (s.takeResize outcome).finishing = s.finishing := by
  unfold takeResize
  split <;> rfl

theorem writeReady_finishing (s : ProcessSession) (now : Nat) (answer : WriteAnswer) :
    (s.writeReady now answer).finishing = s.finishing := by
  unfold writeReady
  split
  · rfl
  · dsimp only
    split <;> rfl

theorem writeReserved_finishing (s : ProcessSession) (bytes : Bytes) (now : Nat) :
    (s.writeReserved bytes now).2.finishing = s.finishing := by
  unfold writeReserved
  split
  · rfl
  · split <;> rfl

theorem requestResize_finishing (s : ProcessSession) (size : TerminalSize) :
    (s.requestResize size).2.finishing = s.finishing := by
  unfold requestResize
  split
  · rfl
  · split <;> rfl

end ProcessSession

namespace ProcessReader
variable {r : ProcessReader}

/-- A drain is cut short by a stop or by an application that has closed its output. -/
def Cut (r : ProcessReader) : Prop :=
  r.phase.outcome = some .truncated → r.stopReader = true ∨ ∃ chunk, .offered chunk (some .closed) ∈ r.trace

theorem new_cut (retained : Bool) : (new retained).Cut := by
  rintro ⟨⟩

theorem cut_unlessStopped (r : ProcessReader) {phase : Phase} (going : phase.outcome = none) :
    (r.unlessStopped phase).Cut := by
  unfold ProcessReader.unlessStopped
  split
  · rename_i stopped
    exact fun _ => .inl stopped
  · intro truncated
    cases going.symm.trans truncated

theorem Cut.advance (cut : r.Cut) (answers : Answers) : (r.advance answers).Cut := by
  cases phase : r.phase with
  | top | woken | inner | offering chunk =>
    simp only [ProcessReader.advance, phase]
    exact r.cut_unlessStopped rfl
  | polling =>
    simp only [ProcessReader.advance, phase]
    intro truncated
    cases poll : answers.poll <;> rw [poll] at truncated <;> cases truncated
  | reading =>
    simp only [ProcessReader.advance, phase]
    intro truncated
    change (r.afterRead answers.read).outcome = _ at truncated
    unfold ProcessReader.afterRead at truncated
    repeat' split at truncated
    all_goals cases truncated
  | ended | blocked =>
    simp only [ProcessReader.advance, phase]
    intro truncated
    split at truncated <;> cases truncated
  | calling chunk =>
    simp only [ProcessReader.advance, phase]
    intro truncated
    change (ProcessReader.afterOffer chunk answers.outputObserved).outcome = _ at truncated
    cases answer : answers.outputObserved with
    | none =>
      rw [answer] at truncated
      cases truncated
    | some acceptance =>
      rw [answer] at truncated
      cases acceptance with
      | closed => exact .inr ⟨chunk, List.mem_append_right _ (List.mem_singleton_self _)⟩
      | _ => cases truncated
  | waiting chunk =>
    simp only [ProcessReader.advance, phase]
    intro truncated
    cases answer : answers.waitForCapacity <;> rw [answer] at truncated <;> cases truncated
  | returned outcome =>
    simp only [ProcessReader.advance, phase]
    exact fun truncated => cut (by rw [phase]; exact truncated)
  | draining outcome =>
    simp only [ProcessReader.advance, phase]
    intro truncated
    refine (cut (by rw [phase]; exact truncated)).imp_right ?_
    rintro ⟨chunk, member⟩
    exact ⟨chunk, List.mem_append_left _ member⟩
  | finishing outcome =>
    simp only [ProcessReader.advance, phase]
    exact fun truncated => cut (by rw [phase]; exact truncated)
  | done outcome =>
    simp only [ProcessReader.advance, phase]
    exact cut

theorem Cut.run (cut : r.Cut) (events : List Event) : (r.run events).Cut := by
  induction events generalizing r with
  | nil => exact cut
  | cons event events ih =>
    refine ih ?_
    cases event with
    | stop => exact fun _ => .inl rfl
    | noteWorkloadExit => exact cut
    | advance answers => exact cut.advance answers

/-- What was reported is what the loop returned. -/
theorem Honest.drained {retained : Bool} {loop : List Action} (honest : Honest retained r loop)
    {outcome : DrainOutcome} (member : .drained outcome ∈ r.trace) : r.phase.outcome = some outcome := by
  rw [honest.reported] at member
  have last := (List.mem_append.mp member).resolve_left (honest.unreported outcome)
  cases phase : r.phase with
  | finishing other | done other =>
    rw [phase] at last
    cases List.mem_singleton.mp last
    rfl
  | _ =>
    rw [phase] at last
    cases last

end ProcessReader

namespace OwnedProcess
open Guardian (Kind)
open Chronicle

variable {s s' : OwnedProcess}

/-- The reader has ended. -/
def Phase.joined : Phase → Bool
  | .cleaning | .dropped => true
  | _ => false

theorem After.phase_joined (after : After) : after.phase.joined = false := by
  rcases after with _ | ⟨_ | _⟩ <;> rfl

theorem Phase.undropped {phase : Phase} (other : phase.joined = false) : phase ≠ .dropped := by
  rintro rfl
  cases other

theorem never {flag : Bool} {p : Prop} (down : flag = false) (up : flag = true) : p :=
  absurd (down.symm.trans up) Bool.false_ne_true

/-- The inputs are finished and the reader knows, by the time a report is made. -/
structure Answering (s : OwnedProcess) : Prop where
  sound : ProcessSession.Sound s.session
  finishing : s.session.finishing = s.phase.finishes
  cleared : (∃ report, .reported report ∈ s.trace) ∨ s.phase.cleared = true → s.session.Shut
  noted : (∃ status, .reported (.exited status) ∈ s.trace) ∨ s.phase.noted = true → s.reader.workloadExited = true
  knowing : s.reader.workloadExited = true → s.exitAt.isSome = true
  joined : s.phase.joined = true → ∃ outcome, s.reader.phase = .done outcome
  gone : s.phase = .dropped → s.guardian.guardian.complete = true

/-- The session moves by its own steps, with no teardown begun or ended. -/
structure Served (session session' : ProcessSession) : Prop where
  sound : session.Sound → session'.Sound
  shut : session.Shut → session'.Shut
  finishing : session'.finishing = session.finishing

theorem Served.refl (session : ProcessSession) : Served session session := ⟨id, id, rfl⟩

theorem served_step (session : ProcessSession) (event : ProcessSession.Event)
    (same : (session.step event).finishing = session.finishing) : Served session (session.step event) where
  sound sound := sound.step event
  shut shut := (shut.step event).1
  finishing := same

/-- A step that makes no report and is not about to make one. -/
structure Onward (s s' : OwnedProcess) : Prop where
  reported : ∀ report, .reported report ∈ s'.trace ↔ .reported report ∈ s.trace
  served : Served s.session s'.session
  workloadExited : s'.reader.workloadExited = s.reader.workloadExited
  exitAt : s.exitAt.isSome = true → s'.exitAt.isSome = true
  finishes : s'.phase.finishes = s.phase.finishes
  cleared : s'.phase.cleared = true → s.phase.cleared = true
  noted : s'.phase.noted = true → s.phase.noted = true

theorem Answering.onward (answering : s.Answering) (onward : Onward s s')
    (joined : s'.phase.joined = true → ∃ outcome, s'.reader.phase = .done outcome)
    (gone : s'.phase = .dropped → s'.guardian.guardian.complete = true) : s'.Answering where
  sound := onward.served.sound answering.sound
  finishing := onward.served.finishing.trans (answering.finishing.trans onward.finishes.symm)
  cleared cause := by
    refine onward.served.shut (answering.cleared (cause.imp ?_ onward.cleared))
    rintro ⟨report, member⟩
    exact ⟨report, (onward.reported report).mp member⟩
  noted cause := by
    rw [onward.workloadExited]
    refine answering.noted (cause.imp ?_ onward.noted)
    rintro ⟨status, member⟩
    exact ⟨status, (onward.reported _).mp member⟩
  knowing noted := onward.exitAt (answering.knowing (onward.workloadExited ▸ noted))
  joined := joined
  gone := gone

/-- A quiet step to a phase that has nothing behind it. -/
theorem Quiet.onward (quiet : Quiet s s') (finishes : s'.phase.finishes = s.phase.finishes)
    (cleared : s'.phase.cleared = true → s.phase.cleared = true)
    (noted : s'.phase.noted = true → s.phase.noted = true) : Onward s s' where
  reported := quiet.reported
  served := quiet.session ▸ .refl _
  workloadExited := quiet.workloadExited
  exitAt some := quiet.exitAt ▸ some
  finishes := finishes
  cleared := cleared
  noted := noted

theorem onward_reportFailure (s : OwnedProcess) (after : After) (finishes : s.phase.finishes = []) :
    Onward s (s.reportFailure after) := by
  unfold OwnedProcess.reportFailure
  split
  · refine (s.quiet_goto after.phase).onward (after.phase_finishes.trans finishes.symm) ?_ ?_
    · intro cleared
      cases after.phase_cleared.symm.trans cleared
    · intro noted
      cases after.phase_noted.symm.trans noted
  · constructor
    · simp [goto, log]
    · exact .refl _
    · rfl
    · exact id
    · exact finishes.symm
    · rintro ⟨⟩
    · rintro ⟨⟩

theorem onward_recordExit (s : OwnedProcess) (now : Nat) (status : Int32) (polled : Bool)
    (finishes : s.phase.finishes = []) : Onward s (s.recordExit now status polled) := by
  unfold OwnedProcess.recordExit
  split
  · exact (s.quiet_goto _).onward finishes.symm (never rfl) (never rfl)
  · split
    · constructor
      · simp [goto, log]
      · exact .refl _
      · rfl
      · exact fun _ => rfl
      · exact finishes.symm
      · rintro ⟨⟩
      · rintro ⟨⟩
    · exact s.onward_reportFailure _ finishes

theorem reportFailure_joined (s : OwnedProcess) (after : After) : (s.reportFailure after).phase.joined = false := by
  unfold OwnedProcess.reportFailure
  split
  · exact after.phase_joined
  · rfl

theorem recordExit_joined (s : OwnedProcess) (now : Nat) (status : Int32) (polled : Bool) :
    (s.recordExit now status polled).phase.joined = false := by
  unfold OwnedProcess.recordExit
  split
  · rfl
  · split
    · rfl
    · exact s.reportFailure_joined _

/-- The phase is none of those after the join. -/
theorem Answering.before (answering : s.Answering) (onward : Onward s s') (other : s'.phase.joined = false) :
    s'.Answering :=
  answering.onward onward (never other) fun here => absurd here (Phase.undropped other)

theorem Answering.advance (answering : s.Answering) (faithful : s.Faithful) (telling : s.Telling) (turn : Turn) :
    (s.advance turn).Answering := by
  have calm {t : OwnedProcess} {phase : Phase} (quiet : Quiet s t) (finishes : phase.finishes = s.phase.finishes)
      (cleared : phase.cleared = false) (noted : phase.noted = false) (other : phase.joined = false) :
      (t.goto phase).Answering :=
    answering.before ((quiet.trans (t.quiet_goto phase)).onward finishes (never cleared) (never noted)) other
  cases phase : s.phase with
  | waiting =>
    simp only [OwnedProcess.advance, phase]
    exact calm (s.quiet_begin turn) (by rw [phase]; rfl) rfl rfl rfl
  | cancelling now shutting =>
    simp only [OwnedProcess.advance, phase]
    split
    · exact calm (s.quiet_escalate now) (by rw [phase]; rfl) rfl rfl rfl
    · exact calm (.refl s) (by rw [phase]; rfl) rfl rfl rfl
  | resizing now shutting alive =>
    simp only [OwnedProcess.advance, phase]
    refine answering.before ?_ rfl
    constructor
    · exact fun _ => .rfl
    · change Served s.session (if alive then s.session.takeResize turn.resized else s.session)
      split
      · exact served_step _ (.takeResize turn.resized) (s.session.takeResize_finishing _)
      · exact .refl _
    · rfl
    · exact id
    · rw [phase]
      rfl
    · exact never rfl
    · exact never rfl
  | stopping now shutting =>
    simp only [OwnedProcess.advance, phase]
    split
    · exact calm s.quiet_stop (by rw [phase]; rfl) rfl rfl rfl
    · exact calm (.refl s) (by rw [phase]; rfl) rfl rfl rfl
  | releasing now shutting =>
    simp only [OwnedProcess.advance, phase]
    split
    · exact calm ((s.quiet_releaseGuardian now shutting).trans (quiet_discard _ now)) (by rw [phase]; rfl) rfl rfl
        rfl
    · exact calm (.refl s) (by rw [phase]; rfl) rfl rfl rfl
  | retaining =>
    simp only [OwnedProcess.advance, phase]
    split
    · exact calm (s.quiet_log .released rfl) (by rw [phase]; rfl) rfl rfl rfl
    · exact calm (.refl s) (by rw [phase]; rfl) rfl rfl rfl
  | polling =>
    simp only [OwnedProcess.advance, phase]
    split
    · exact calm (.refl s) (by rw [phase]; rfl) rfl rfl rfl
    · exact calm (.refl s) (by rw [phase]; rfl) rfl rfl rfl
  | reaping polled =>
    simp only [OwnedProcess.advance, phase]
    have finishes : s.phase.finishes = [] := by
      rw [phase]
      rfl
    have onwards (guardian : Guardian.Owner) (watch : Bool) (status : Int32) :
        Onward s (({ s with guardian, watch } : OwnedProcess).recordExit turn.now status polled) :=
      { onward_recordExit { s with guardian, watch } turn.now status polled finishes with }
    unfold reap
    dsimp only
    split
    · refine answering.before ?_ (recordExit_joined _ turn.now _ polled)
      exact onwards _ _ _
    · refine answering.before ?_ rfl
      constructor
      · exact fun _ => .rfl
      · exact .refl _
      · rfl
      · exact id
      · exact finishes.symm
      · exact never rfl
      · exact never rfl
  | noting status polled =>
    simp only [OwnedProcess.advance, phase]
    constructor
    · exact answering.sound
    · exact answering.finishing.trans (by rw [phase]; rfl)
    · exact fun cause => answering.cleared (.inl (cause.resolve_right (never rfl)))
    · exact fun _ => rfl
    · intro _
      obtain ⟨⟨now, member⟩, -⟩ := telling.exiting status (by rw [phase]; rfl)
      change s.exitAt.isSome = true
      rw [(faithful.exit now).mpr ⟨status, member⟩]
      rfl
    · exact never rfl
    · exact fun here => absurd here (Phase.undropped rfl)
  | closing next =>
    simp only [OwnedProcess.advance, phase]
    constructor
    · exact answering.sound.step (.beginFinish next.reason)
    · change s.session.finishing ++ [next.reason] = [next.reason]
      rw [answering.finishing, phase]
      rfl
    · intro cause
      exact ((answering.cleared (.inl (cause.resolve_right (never rfl)))).step (.beginFinish next.reason)).1
    · intro cause
      refine answering.noted (cause.imp_right fun noted => ?_)
      rw [phase]
      cases next with
      | exit => rfl
      | _ => cases noted
    · exact answering.knowing
    · exact never rfl
    · exact fun here => absurd here (Phase.undropped rfl)
  | finishing next =>
    simp only [OwnedProcess.advance, phase]
    have begun : s.session.finishing = [next.reason] := answering.finishing.trans (by rw [phase]; rfl)
    obtain ⟨shut, ended⟩ := answering.sound.shut begun
    constructor
    · exact answering.sound.finishInputs 0
    · refine ended.trans ?_
      cases next <;> rfl
    · exact fun _ => shut
    · intro cause
      refine answering.noted (cause.imp_right fun noted => ?_)
      rw [phase]
      cases next with
      | exit => rfl
      | _ => cases noted
    · exact answering.knowing
    · intro here
      cases next <;> cases here
    · intro here
      cases next <;> cases here
  | exiting status polled =>
    simp only [OwnedProcess.advance, phase]
    constructor
    · exact answering.sound
    · exact answering.finishing.trans (by rw [phase]; rfl)
    · exact fun _ => answering.cleared (.inr (by rw [phase]; rfl))
    · exact fun _ => answering.noted (.inr (by rw [phase]; rfl))
    · exact answering.knowing
    · exact never rfl
    · exact fun here => absurd here (Phase.undropped rfl)
  | faulting polled =>
    simp only [OwnedProcess.advance, phase]
    have finishes : s.phase.finishes = [] := by
      rw [phase]
      rfl
    split
    · refine answering.before ?_ (reportFailure_joined _ _)
      exact { onward_reportFailure { s with guardian := s.guardian.step .takeFault } (.done polled) finishes with }
    · refine answering.before ?_ ?_
      · constructor
        · exact fun _ => .rfl
        · exact .refl _
        · rfl
        · exact id
        · exact (After.phase_finishes _).trans finishes.symm
        · intro cleared
          cases (After.phase_cleared _).symm.trans cleared
        · intro noted
          cases (After.phase_noted _).symm.trans noted
      · exact After.phase_joined _
  | halting after =>
    simp only [OwnedProcess.advance, phase]
    refine answering.before ((s.quiet_stop.trans (quiet_goto _ (.failing after))).onward ?_ ?_ (never rfl)) rfl
    · rw [phase]
      rfl
    · rw [phase]
      exact id
  | failing after =>
    simp only [OwnedProcess.advance, phase]
    constructor
    · exact answering.sound
    · refine answering.finishing.trans ?_
      rw [phase]
      exact after.phase_finishes.symm
    · exact fun _ => answering.cleared (.inr (by rw [phase]; rfl))
    · rintro (⟨status, member⟩ | noted)
      · refine answering.noted (.inl ⟨status, (List.mem_append.mp member).resolve_right fun new => ?_⟩)
        cases List.mem_singleton.mp new
      · cases after.phase_noted.symm.trans noted
    · exact answering.knowing
    · exact never after.phase_joined
    · exact fun here => absurd here (Phase.undropped after.phase_joined)
  | writing =>
    simp only [OwnedProcess.advance, phase]
    refine answering.before ?_ rfl
    constructor
    · exact fun _ => .rfl
    · change Served s.session (if s.exitAt.isNone then s.session.writeReady turn.now turn.write else s.session)
      split
      · exact served_step _ (.writeReady turn.now turn.write) (s.session.writeReady_finishing _ _)
      · exact .refl _
    · rfl
    · exact id
    · rw [phase]
      rfl
    · exact never rfl
    · exact never rfl
  | dropping =>
    simp only [OwnedProcess.advance, phase]
    exact calm s.quiet_stop (by rw [phase]; rfl) rfl rfl rfl
  | joining =>
    simp only [OwnedProcess.advance, phase]
    split
    · rename_i outcome done
      have quiet := (s.quiet_order turn.now .abort).trans (quiet_goto _ .cleaning)
      refine answering.onward (quiet.onward ?_ ?_ (never rfl)) (fun _ => ⟨outcome, done⟩) ?_
      · rw [phase]
        rfl
      · rw [phase]
        exact id
      · intro here
        cases here
    · exact answering
  | cleaning =>
    simp only [OwnedProcess.advance, phase]
    have done := answering.joined (by rw [phase]; rfl)
    split
    · rename_i complete
      refine answering.onward ((s.quiet_goto .dropped).onward ?_ ?_ (never rfl)) (fun _ => done) fun _ => complete
      · rw [phase]
        rfl
      · rw [phase]
        exact id
    · refine answering.onward ((s.quiet_service turn.service).onward rfl id id) (fun _ => done) ?_
      intro here
      cases phase.symm.trans here
  | dropped =>
    simp only [OwnedProcess.advance, phase]
    exact answering

theorem Answering.step (answering : s.Answering) (faithful : s.Faithful) (telling : s.Telling) (event : Event) :
    (s.step event).Answering := by
  cases event with
  | advance turn => exact answering.advance faithful telling turn
  | unwind =>
    change s.unwind.Answering
    unfold OwnedProcess.unwind
    split
    · rename_i between
      have finishes : s.phase.finishes = [] := by
        cases phase : s.phase with
        | waiting | retaining | polling => rfl
        | _ =>
          rw [phase] at between
          cases between
      exact answering.before (((s.quiet_log .released rfl).trans (quiet_goto _ _)).onward finishes.symm (never rfl)
        (never rfl)) rfl
    · exact answering
  | read answers =>
    refine answering.onward ⟨fun _ => .rfl, .refl _, (reader_flags s.reader answers).2, id, rfl, id, id⟩ ?_ answering.gone
    intro here
    obtain ⟨outcome, done⟩ := answering.joined here
    refine ⟨outcome, ?_⟩
    change (s.reader.advance answers).phase = _
    simp only [ProcessReader.advance, done]
  | writeReserved bytes now =>
    have served := served_step s.session (.writeReserved bytes now) (s.session.writeReserved_finishing bytes now)
    exact answering.onward ⟨fun _ => .rfl, served, rfl, id, rfl, id, id⟩ answering.joined answering.gone
  | requestResize size =>
    have served := served_step s.session (.requestResize size) (s.session.requestResize_finishing size)
    exact answering.onward ⟨fun _ => .rfl, served, rfl, id, rfl, id, id⟩ answering.joined answering.gone
  | requestCancel => exact { answering with }
  | cancelStep call =>
    change (s.cancelStep call).Answering
    unfold OwnedProcess.cancelStep
    split
    · exact { answering with }
    · exact { answering with }
    · have quiet := s.quiet_log .cancelled rfl
      exact answering.onward { quiet.onward rfl id id with } answering.joined answering.gone
    · exact answering

theorem start_answering (limits : ProcessLimits) (guardian : Guardian.Owner) (watch : Bool) :
    (start limits guardian watch).Answering := by
  constructor
  · exact ProcessSession.new_sound _
  · rfl
  · rintro (⟨report, none⟩ | none)
    · cases none
    · cases none
  · rintro (⟨status, none⟩ | none)
    · cases none
    · cases none
  · exact never rfl
  · exact never rfl
  · exact fun here => absurd here (Phase.undropped rfl)

end OwnedProcess
end PtyRuntime
