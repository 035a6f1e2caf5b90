import PtyRuntime.Infrastructure.Process.LifecycleLaws

/-! What the supervisor collected is reported once, and what it reports holds: a report finds
the inputs finished, an exit is the one the helpers told of, and a failure is a fault of the
guardian. -/
namespace PtyRuntime

namespace Guardian

/-- An exit that was observed is one of a process that exited or was signalled. -/
def Credible (g : Guardian) : Prop := ∀ status, g.observedExit = some status → wifexited status ∨ wifsignaled status

variable {g g' : Guardian}

theorem request_observedExit (g : Guardian) (kind : Kind) : (g.request kind).observedExit = g.observedExit := by
  rw [request_eq]

theorem markFault_observedExit (g : Guardian) : g.markFault.observedExit = g.observedExit := by
  unfold markFault
  rw [request_observedExit]
  split <;> rfl

theorem Credible.move {seen : List Entry} (credible : g.Credible) (move : Move g seen g') : g'.Credible := by
  intro status observed
  cases move with
  | channel _ _ _ | sent _ | granted | reaped | ungranted => exact credible status observed
  | accepted accepts =>
    cases accepts with
    | firstExit named exited fresh => exact Option.some.inj observed ▸ exited
    | _ => exact credible status observed
  | refused _ _ | broken _ =>
    rw [markFault_observedExit] at observed
    exact credible status observed
  | ended index =>
    refine credible status (Eq.trans ?_ observed)
    unfold channelEnded
    dsimp only
    split
    · rw [markFault_observedExit]
    · rfl
  | waitFailed reaped =>
    refine credible status (Eq.trans ?_ observed)
    exact g.markFault_observedExit.symm
  | requested kind =>
    rw [request_observedExit] at observed
    exact credible status observed

theorem Credible.moves {seen : List Entry} (credible : g.Credible) (moves : Moves g seen g') : g'.Credible := by
  induction moves with
  | nil => exact credible
  | cons move _ ih => exact ih (credible.move move)

namespace Owner
variable {o : Owner}

theorem step_credible (credible : o.guardian.Credible) (event : Event) : (o.step event).guardian.Credible := by
  cases event with
  | service answers => exact credible.moves (service_moves _ answers)
  | grantExecution => exact credible.moves (grantExecution_moves _)
  | request kind => exact credible.moves (.single (.requested kind))
  | takeExit | takeFault | takeTermApplied | takeEscalationApplied => exact credible

/-- The event hands out an exit or a fault. -/
def takes : Event → Bool
  | .takeExit | .takeFault => true
  | _ => false

/-- What a run keeps that hands out nothing. -/
theorem run_untaken (credible : o.guardian.Credible) (valid : o.Valid) {events : List Event}
    (untaken : ∀ event ∈ events, takes event = false) :
    (o.run events).Valid ∧ (o.run events).guardian.Credible ∧ (o.run events).exits = o.exits ∧
      (o.run events).faults = o.faults := by
  induction events generalizing o with
  | nil => exact ⟨valid, credible, rfl, rfl⟩
  | cons event events ih =>
    have same : (o.step event).exits = o.exits ∧ (o.step event).faults = o.faults := by
      have first := untaken event List.mem_cons_self
      cases event with
      | takeExit | takeFault => cases first
      | _ => exact ⟨rfl, rfl⟩
    obtain ⟨valid, credible, exits, faults⟩ := ih (step_credible credible event) (valid.step event).1
      fun event member => untaken event (List.mem_cons_of_mem _ member)
    exact ⟨valid, credible, exits.trans same.1, faults.trans same.2⟩

end Owner
end Guardian

namespace OwnedProcess
open Guardian (Kind)
open Chronicle

variable {s s' s'' : OwnedProcess}

def Act.quiet : Act → Bool
  | .recorded .. | .lost | .reported _ => false
  | _ => true

/-- Nothing was collected, lost or reported, and the session was left alone. -/
structure Quiet (s s' : OwnedProcess) : Prop where
  acts : ∃ acts, s'.trace = s.trace ++ acts ∧ ∀ act ∈ acts, act.quiet = true
  guardian : ∃ own, s'.guardian = s.guardian.run own ∧ ∀ event ∈ own, Guardian.Owner.takes event = false
  exitAt : s'.exitAt = s.exitAt
  supervisionLost : s'.supervisionLost = s.supervisionLost
  session : s'.session = s.session
  workloadExited : s'.reader.workloadExited = s.reader.workloadExited

theorem Quiet.refl (s : OwnedProcess) : Quiet s s where
  acts := ⟨[], (List.append_nil _).symm, fun _ none => nomatch none⟩
  guardian := ⟨[], rfl, fun _ none => nomatch none⟩
  exitAt := rfl
  supervisionLost := rfl
  session := rfl
  workloadExited := rfl

theorem Quiet.trans (first : Quiet s s') (second : Quiet s' s'') : Quiet s s'' where
  acts := by
    obtain ⟨acts, trace, quiet⟩ := first.acts
    obtain ⟨more, rest, still⟩ := second.acts
    refine ⟨acts ++ more, by rw [rest, trace, List.append_assoc], ?_⟩
    intro act member
    rcases List.mem_append.mp member with old | new
    · exact quiet act old
    · exact still act new
  guardian := by
    obtain ⟨own, runs, quiet⟩ := first.guardian
    obtain ⟨more, rest, still⟩ := second.guardian
    refine ⟨own ++ more, ?_, ?_⟩
    · rw [rest, runs]
      exact List.foldl_append.symm
    · intro event member
      rcases List.mem_append.mp member with old | new
      · exact quiet event old
      · exact still event new
  exitAt := second.exitAt.trans first.exitAt
  supervisionLost := second.supervisionLost.trans first.supervisionLost
  session := second.session.trans first.session
  workloadExited := second.workloadExited.trans first.workloadExited

theorem quiet_goto (s : OwnedProcess) (phase : Phase) : Quiet s (s.goto phase) := { Quiet.refl s with }

theorem quiet_log (s : OwnedProcess) (act : Act) (quiet : act.quiet = true) : Quiet s (s.log act) :=
  { Quiet.refl s with acts := ⟨[act], rfl, fun _ member => List.mem_singleton.mp member ▸ quiet⟩ }

theorem quiet_order (s : OwnedProcess) (now : Nat) (kind : Kind) : Quiet s (s.order now kind) where
  acts := ⟨[.ordered now kind], rfl, fun _ member => List.mem_singleton.mp member ▸ rfl⟩
  guardian := ⟨[.request kind], rfl, fun _ member => List.mem_singleton.mp member ▸ rfl⟩
  exitAt := rfl
  supervisionLost := rfl
  session := rfl
  workloadExited := rfl

theorem quiet_stop (s : OwnedProcess) : Quiet s s.stop where
  acts := ⟨[.stopped], rfl, fun _ member => List.mem_singleton.mp member ▸ rfl⟩
  guardian := ⟨[], rfl, fun _ none => nomatch none⟩
  exitAt := rfl
  supervisionLost := rfl
  session := rfl
  workloadExited := rfl

theorem quiet_begin (s : OwnedProcess) (turn : Turn) : Quiet s (s.begin turn) := by
  have began := s.quiet_log (.began turn.now turn.shutting turn.immediate s.reader.readerFailed) rfl
  unfold begin
  dsimp only
  split
  · exact began.trans { quiet_order _ turn.now .abort with }
  · exact began

theorem quiet_terminate (s : OwnedProcess) (now : Nat) : Quiet s (s.terminate now) := by
  unfold terminate
  split
  · exact { s.quiet_order now .terminate with }
  · exact .refl s

theorem quiet_escalate (s : OwnedProcess) (now : Nat) : Quiet s (s.escalate now) := by
  unfold escalate
  dsimp only
  split
  · exact (s.quiet_terminate now).trans { quiet_order _ now .kill with }
  · exact s.quiet_terminate now

theorem quiet_releaseGuardian (s : OwnedProcess) (now : Nat) (shutting : Bool) :
    Quiet s (s.releaseGuardian now shutting) := by
  unfold releaseGuardian
  split
  · exact s.quiet_order now .release
  · exact .refl s

theorem quiet_discard (s : OwnedProcess) (now : Nat) : Quiet s (s.discard now) := by
  unfold discard
  split
  · exact { Quiet.refl s with }
  · exact .refl s

theorem quiet_service (s : OwnedProcess) (answers : Guardian.Answers) : Quiet s (s.service answers) :=
  { Quiet.refl s with guardian := ⟨[.service answers], rfl, fun _ member => List.mem_singleton.mp member ▸ rfl⟩ }

theorem Quiet.reported (quiet : Quiet s s') (report : Report) :
    .reported report ∈ s'.trace ↔ .reported report ∈ s.trace := by
  obtain ⟨acts, trace, silent⟩ := quiet.acts
  rw [trace, List.mem_append]
  refine or_iff_left ?_
  intro member
  cases silent _ member

theorem Quiet.earlier (quiet : Quiet s s') {act : Act} (member : act ∈ s.trace) : act ∈ s'.trace := by
  obtain ⟨acts, trace, -⟩ := quiet.acts
  rw [trace]
  exact List.mem_append_left _ member

theorem Quiet.recorded (quiet : Quiet s s') {now : Nat} {status : ExitStatus}
    (member : .recorded now status ∈ s'.trace) : .recorded now status ∈ s.trace := by
  obtain ⟨acts, trace, silent⟩ := quiet.acts
  rw [trace] at member
  refine (List.mem_append.mp member).resolve_right ?_
  intro new
  cases silent _ new

theorem Telling.idle (telling : s.Telling) (quiet : Quiet s s') (exit : s'.phase.exit = s.phase.exit)
    (loses : s'.phase.loses = s.phase.loses) (halted : ∀ after, s'.phase = .failing after → .stopped ∈ s'.trace) :
    s'.Telling := by
  constructor
  · rw [quiet.exitAt, exit]
    simpa only [quiet.reported] using telling.exited
  · intro status about
    obtain ⟨⟨now, member⟩, none⟩ := telling.exiting status (exit ▸ about)
    refine ⟨⟨now, quiet.earlier member⟩, ?_⟩
    simpa only [quiet.reported] using none
  · rw [quiet.supervisionLost, loses, quiet.reported]
    exact telling.failed
  · intro about
    obtain ⟨member, none⟩ := telling.failing (loses ▸ about)
    refine ⟨quiet.earlier member, ?_⟩
    simpa only [quiet.reported] using none
  · exact halted

/-- The supervisor goes on with nothing to report. -/
theorem Telling.still {phase : Phase} (telling : s.Telling) (exit : phase.exit = s.phase.exit)
    (loses : phase.loses = s.phase.loses) (calm : phase.loses = false) : (s.goto phase).Telling := by
  refine telling.idle (s.quiet_goto phase) exit loses ?_
  intro after failing
  rw [show phase = .failing after from failing] at calm
  cases calm

theorem Telling.reportFailure (telling : s.Telling) (faithful : s.Faithful) (after : After)
    (quiet : s.phase.exit = none) (calm : s.phase.loses = false) : (s.reportFailure after).Telling := by
  unfold OwnedProcess.reportFailure
  split
  · exact telling.still (after.phase_exit.trans quiet.symm) (after.phase_loses.trans calm.symm) after.phase_loses
  · rename_i supervised
    have unreported (error : ProcessError) : .reported (.supervisionFailed error) ∉ s.trace := by
      intro member
      obtain ⟨before, early, -, lost, -, -⟩ := faithful.lawful.allowed member
      exact supervised (faithful.lost.mpr (early.subset lost))
    constructor
    · intro some
      obtain ⟨status, member⟩ := (telling.exited some).resolve_right (by simp [quiet])
      exact .inl ⟨status, List.mem_append_left _ member⟩
    · rintro status ⟨⟩
    · exact fun _ => .inr rfl
    · intro _
      refine ⟨List.mem_append_right _ (List.mem_singleton_self _), fun error member => ?_⟩
      rcases List.mem_append.mp member with old | new
      · exact unreported error old
      · cases List.mem_singleton.mp new
    · rintro other ⟨⟩

theorem Telling.recordExit (telling : s.Telling) (faithful : s.Faithful) (now : Nat) (status : Int32) (polled : Bool)
    (quiet : s.phase.exit = none) (calm : s.phase.loses = false) : (s.recordExit now status polled).Telling := by
  unfold OwnedProcess.recordExit
  split
  · exact telling.still quiet.symm calm.symm rfl
  · rename_i fresh
    have first : s.exitAt = none := by simpa using fresh
    split
    · rename_i status _
      have unreported (other : ExitStatus) : .reported (.exited other) ∉ s.trace := by
        intro member
        obtain ⟨before, early, ⟨earlier, recorded⟩, -⟩ := faithful.lawful.allowed member
        cases first.symm.trans ((faithful.exit earlier).mpr ⟨other, early.subset recorded⟩)
      constructor
      · exact fun _ => .inr rfl
      · rintro _ ⟨⟩
        refine ⟨⟨now, List.mem_append_right _ (List.mem_singleton_self _)⟩, fun other member => ?_⟩
        rcases List.mem_append.mp member with old | new
        · exact unreported other old
        · cases List.mem_singleton.mp new
      · intro lost
        refine .inl (List.mem_append_left _ ?_)
        exact (telling.failed lost).resolve_right (by simp [calm])
      · intro none
        cases none
      · rintro other ⟨⟩
    · exact telling.reportFailure faithful _ quiet calm

theorem Telling.advance (telling : s.Telling) (faithful : s.Faithful) (turn : Turn) : (s.advance turn).Telling := by
  -- a step that is quiet, from a phase without a report to one without
  have calm {t : OwnedProcess} {phase : Phase} (quiet : Quiet s t) (exit : phase.exit = s.phase.exit)
      (loses : phase.loses = s.phase.loses) (still : phase.loses = false) : (t.goto phase).Telling := by
    refine telling.idle (quiet.trans (t.quiet_goto phase)) exit loses ?_
    intro after failing
    rw [show phase = .failing after from failing] at still
    cases still
  cases phase : s.phase with
  | waiting =>
    simp only [OwnedProcess.advance, phase]
    exact calm (s.quiet_begin turn) (by rw [phase]; rfl) (by rw [phase]; rfl) rfl
  | cancelling now shutting =>
    simp only [OwnedProcess.advance, phase]
    split
    · exact calm (s.quiet_escalate now) (by rw [phase]; rfl) (by rw [phase]; rfl) rfl
    · exact calm (.refl s) (by rw [phase]; rfl) (by rw [phase]; rfl) rfl
  | resizing now shutting alive =>
    simp only [OwnedProcess.advance, phase]
    have same : ({ s with session := if alive then s.session.takeResize turn.resized else s.session } :
        OwnedProcess).Telling := { telling with }
    refine same.still ?_ ?_ rfl
    · change _ = s.phase.exit
      rw [phase]
      rfl
    · change _ = s.phase.loses
      rw [phase]
      rfl
  | stopping now shutting =>
    simp only [OwnedProcess.advance, phase]
    split
    · exact calm s.quiet_stop (by rw [phase]; rfl) (by rw [phase]; rfl) rfl
    · exact calm (.refl s) (by rw [phase]; rfl) (by rw [phase]; rfl) rfl
  | releasing now shutting =>
    simp only [OwnedProcess.advance, phase]
    split
    · refine calm ((s.quiet_releaseGuardian now shutting).trans (quiet_discard _ now)) ?_ ?_ rfl
      · rw [phase]
        rfl
      · rw [phase]
        rfl
    · exact calm (.refl s) (by rw [phase]; rfl) (by rw [phase]; rfl) rfl
  | retaining =>
    simp only [OwnedProcess.advance, phase]
    split
    · exact calm (s.quiet_log .released rfl) (by rw [phase]; rfl) (by rw [phase]; rfl) rfl
    · exact calm (.refl s) (by rw [phase]; rfl) (by rw [phase]; rfl) rfl
  | polling =>
    simp only [OwnedProcess.advance, phase]
    split
    · exact calm (.refl s) (by rw [phase]; rfl) (by rw [phase]; rfl) rfl
    · exact calm (.refl s) (by rw [phase]; rfl) (by rw [phase]; rfl) rfl
  | reaping polled =>
    simp only [OwnedProcess.advance, phase]
    have same (guardian : Guardian.Owner) (watch : Bool) : ({ s with guardian, watch } : OwnedProcess).Telling :=
      { telling with }
    have held (guardian : Guardian.Owner) (watch : Bool) : ({ s with guardian, watch } : OwnedProcess).Faithful :=
      { faithful with }
    have quiet : s.phase.exit = none ∧ s.phase.loses = false := by
      rw [phase]
      exact ⟨rfl, rfl⟩
    unfold reap
    dsimp only
    split
    · exact (same _ _).recordExit (held _ _) turn.now _ polled quiet.1 quiet.2
    · exact (same _ _).still quiet.1.symm quiet.2.symm rfl
  | noting status polled =>
    simp only [OwnedProcess.advance, phase]
    have same : ({ s with reader := s.reader.noteWorkloadExit } : OwnedProcess).Telling := { telling with }
    refine same.still ?_ ?_ rfl
    · change _ = s.phase.exit
      rw [phase]
      rfl
    · change _ = s.phase.loses
      rw [phase]
      rfl
  | closing next =>
    simp only [OwnedProcess.advance, phase]
    have same : ({ s with session := s.session.beginFinish next.reason } : OwnedProcess).Telling := { telling with }
    refine same.idle (quiet_goto _ _) ?_ ?_ ?_
    · change _ = s.phase.exit
      rw [phase]
      cases next <;> rfl
    · change _ = s.phase.loses
      rw [phase]
      cases next <;> rfl
    · intro after failing
      cases failing
  | finishing next =>
    simp only [OwnedProcess.advance, phase]
    have same : ({ s with session := s.session.finishInputs 0 } : OwnedProcess).Telling := { telling with }
    refine same.idle (quiet_goto _ _) ?_ ?_ ?_
    · change _ = s.phase.exit
      rw [phase]
      cases next <;> rfl
    · change _ = s.phase.loses
      rw [phase]
      cases next <;> rfl
    · intro after failing
      cases next <;> cases failing
  | exiting status polled =>
    simp only [OwnedProcess.advance, phase]
    constructor
    · exact fun _ => .inl ⟨status, List.mem_append_right _ (List.mem_singleton_self _)⟩
    · rintro _ ⟨⟩
    · intro lost
      refine .inl (List.mem_append_left _ ((telling.failed lost).resolve_right ?_))
      rw [phase]
      exact Bool.false_ne_true
    · intro none
      cases none
    · rintro _ ⟨⟩
  | faulting polled =>
    simp only [OwnedProcess.advance, phase]
    have same : ({ s with guardian := s.guardian.step .takeFault } : OwnedProcess).Telling := { telling with }
    have held : ({ s with guardian := s.guardian.step .takeFault } : OwnedProcess).Faithful := { faithful with }
    have quiet : s.phase.exit = none ∧ s.phase.loses = false := by
      rw [phase]
      exact ⟨rfl, rfl⟩
    split
    · exact same.reportFailure held _ quiet.1 quiet.2
    · exact same.still ((After.phase_exit _).trans quiet.1.symm) ((After.phase_loses _).trans quiet.2.symm)
        (After.phase_loses _)
  | halting after =>
    simp only [OwnedProcess.advance, phase]
    refine telling.idle (s.quiet_stop.trans (quiet_goto _ _)) ?_ ?_ ?_
    · rw [phase]
      rfl
    · rw [phase]
      rfl
    · exact fun _ _ => List.mem_append_right _ (List.mem_singleton_self _)
  | failing after =>
    simp only [OwnedProcess.advance, phase]
    constructor
    · intro some
      obtain ⟨status, member⟩ := (telling.exited some).resolve_right (by simp [phase, Phase.exit])
      exact .inl ⟨status, List.mem_append_left _ member⟩
    · intro status about
      cases after.phase_exit.symm.trans about
    · exact fun _ => .inl (List.mem_append_right _ (List.mem_singleton_self _))
    · intro about
      cases after.phase_loses.symm.trans about
    · intro other failing
      have loses := after.phase_loses
      rw [show after.phase = .failing other from failing] at loses
      cases loses
  | writing =>
    simp only [OwnedProcess.advance, phase]
    have same : ({ s with session := if s.exitAt.isNone then s.session.writeReady turn.now turn.write else s.session } :
        OwnedProcess).Telling := { telling with }
    refine same.still ?_ ?_ rfl
    · change _ = s.phase.exit
      rw [phase]
      rfl
    · change _ = s.phase.loses
      rw [phase]
      rfl
  | dropping =>
    simp only [OwnedProcess.advance, phase]
    exact calm s.quiet_stop (by rw [phase]; rfl) (by rw [phase]; rfl) rfl
  | joining =>
    simp only [OwnedProcess.advance, phase]
    split
    · exact calm (s.quiet_order turn.now .abort) (by rw [phase]; rfl) (by rw [phase]; rfl) rfl
    · exact telling
  | cleaning =>
    simp only [OwnedProcess.advance, phase]
    split
    · exact calm (.refl s) (by rw [phase]; rfl) (by rw [phase]; rfl) rfl
    · exact { telling with }
  | dropped =>
    simp only [OwnedProcess.advance, phase]
    exact telling

theorem Telling.step (telling : s.Telling) (faithful : s.Faithful) (event : Event) : (s.step event).Telling := by
  cases event with
  | advance turn => exact telling.advance faithful turn
  | unwind =>
    change s.unwind.Telling
    unfold OwnedProcess.unwind
    split
    · rename_i between
      have still : s.phase.exit = none ∧ s.phase.loses = false := by
        cases phase : s.phase with
        | waiting | retaining | polling => exact ⟨rfl, rfl⟩
        | _ =>
          rw [phase] at between
          cases between
      refine telling.idle ((s.quiet_log .released rfl).trans (quiet_goto _ _)) still.1.symm still.2.symm ?_
      intro after failing
      cases failing
    · exact telling
  | read answers | writeReserved bytes now | requestResize size | requestCancel => exact { telling with }
  | cancelStep call =>
    change (s.cancelStep call).Telling
    unfold OwnedProcess.cancelStep
    split
    · exact { telling with }
    · exact { telling with }
    · refine telling.idle { s.quiet_log .cancelled rfl with } rfl rfl ?_
      exact fun after failing => List.mem_append_left _ (telling.halted after failing)
    · exact telling

theorem start_telling (limits : ProcessLimits) (guardian : Guardian.Owner) (watch : Bool) :
    (start limits guardian watch).Telling := by
  constructor
  · rintro ⟨⟩
  · rintro status ⟨⟩
  · rintro ⟨⟩
  · rintro ⟨⟩
  · rintro after ⟨⟩

end OwnedProcess
end PtyRuntime
