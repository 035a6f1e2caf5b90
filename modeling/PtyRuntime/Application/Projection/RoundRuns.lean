import PtyRuntime.Application.Projection.RoundLaws
import PtyRuntime.Application.Projection.CustodyRuns

/-! Every program that takes the workspace lock keeps the rounds of deletions, cleanup
included, and so does every run of a projection, whatever runs beside it. -/
namespace PtyRuntime
open Thread PtyRuntime.Core Reaping

namespace Coordinator

theorem maintain_rounds {A : Core → Prop} [Core.Steady A] :
    Along deletions A (Reaps False (Paced [])) maintain (fun _ => A) fun _ => Reaps False (Paced []) := by
  apply (Along.aside Spec.glance Completing.look_each (R := Routine)).bind
  intro due
  split
  · exact startDelete_rounds.bind fun _ => Along.pure fun _ core reaps => ⟨core, reaps⟩
  · exact Along.pure fun _ core reaps => ⟨core, reaps⟩

theorem serveIdle_rounds (maintenance : Option WorkSchedule) :
    Along deletions (fun k => Idle k ∧ Quiet k) (Reaps False (Paced [])) (serveIdle maintenance)
      (fun _ => Idle) fun _ => Reaps False (Paced []) := by
  cases maintenance with
  | some schedule => exact Along.pure fun _ core reaps => ⟨core.1, reaps⟩
  | none =>
    refine Along.bind (B := fun (busy : Bool) k => (Idle k ∧ Quiet k) ∧ (busy = false → IoFree k))
      (Along.aside (R := Routine) (Spec.look fun c _ holds => ⟨holds, ioFree_of_vacant⟩)
        Completing.look_each) fun busy => ?_
    apply (Along.aside Spec.glance Completing.look_each (R := Routine)).bind
    intro holding
    cases busy with
    | true => exact Along.pure fun _ core reaps => ⟨core.1.1, reaps⟩
    | false =>
      cases holding with
      | true =>
        exact (startDelete_rounds (A := Idle)).strengthen fun _ core reaps => ⟨core.1.1, reaps⟩
      | false =>
        exact (Along.aside (F := Reaps False (Paced [])) considerPark_spec considerPark_routine).strengthen
          fun _ core reaps => ⟨⟨core.1, core.2 rfl⟩, reaps⟩

variable (r : Residency)

theorem serve_rounds (serving : r ≠ .usable) :
    Along deletions (fun k => Primed r k ∧ TerminalIs true k) (Reaps False (Paced [])) serve
      (fun _ => Idle) fun _ => Reaps False (Paced []) := by
  refine maintain_rounds.bind fun maintenance => (Along.aside (takeNext_spec r serving)
    Serving.takeNext (R := Routine)).bind fun taken => ?_
  cases taken with
  | some command =>
    exact Along.aside (serveCommand_spec command) (Serving.serveCommand_each command) (R := Routine)
  | none => exact serveIdle_rounds maintenance

theorem runPhase_rounds :
    Along deletions (Primed r) (Reaps False (Paced [])) (runPhase r) (fun _ => Idle)
      fun _ => Reaps False (Paced []) := by
  refine (Along.aside (takeExit_spec r) Serving.takeExit_each (R := Routine)).bind fun _ =>
    (Along.aside sealJournalIfDrained_spec Serving.sealJournalIfDrained_each (R := Routine)).bind
      fun _ => ?_
  refine Along.bind (B := fun (phase : Phase) k => Primed r k ∧ InPhase r k phase)
    (Along.aside (R := Routine) (Spec.look fun c _ primed => ⟨primed, inPhase_of r c⟩)
      Completing.look_each) fun phase => ?_
  cases phase with
  | detached =>
    refine (Along.aside (F := Reaps False (Paced [])) readBackSource_spec
      readBackSource_routine).strengthen fun c core reaps => ⟨⟨core.1.idle ?_, core.2⟩, reaps⟩
    rw [Core.dequeues, show c.core.terminal = false from core.2, Bool.false_and]
  | restoring =>
    rintro c ⟨⟨primed, terminal, rfl⟩, reaps⟩
    exact Along.aside restoreStep_spec restoreStep_routine c ⟨⟨primed, terminal⟩, reaps⟩
  | serving =>
    rintro c ⟨⟨primed, terminal, serving⟩, reaps⟩
    exact serve_rounds r serving c ⟨⟨primed, terminal⟩, reaps⟩

theorem workWhileFailed_rounds :
    Along deletions Idle (Reaps False (Paced [])) workWhileFailed (fun _ => Idle)
      fun _ => Reaps False (Paced []) := by
  apply (Along.aside Spec.glance Completing.look_each (R := Routine)).bind
  intro due
  split
  · exact startDelete_rounds
  · exact Along.pure fun _ core reaps => ⟨core, reaps⟩

theorem runOpen_rounds :
    Along deletions (fun k => Idle k ∧ Seen r k) (Reaps False (Paced [])) (runOpen r) (fun _ => Idle)
      fun _ => Reaps False (Paced []) := by
  apply (Along.aside (pollInflightOperations_spec r) Operating.pollInflightOperations_each
    (R := Routine)).bind
  intro polled
  cases polled with
  | some schedule => exact Along.pure fun _ core reaps => ⟨core.1.1, reaps⟩
  | none =>
    refine ((Along.aside (checkFailure_spec r) (Operating.poise r) (R := Routine)).strengthen
      fun _ core reaps => ⟨⟨core.1, core.2 rfl⟩, reaps⟩).bind fun failure => ?_
    cases failure with
    | some error => exact workWhileFailed_rounds
    | none => exact runPhase_rounds r

def Vacated (v : Reaping) : Prop := v.deletion = none

instance : Lasting Vacated where
  keep beside vacant := beside.vacant vacant

theorem takeCleanupRetry_rounds {A : Core → Prop} [Core.Steady A] :
    Along deletions A (fun c => Reaps False (fun v => Paced [] v ∧ Vacated v) c ∧ Sourceless c)
      takeCleanupRetry (fun _ => A)
      fun pending c => Reaps False (Decided pending.1 pending.2) c ∧ Sourceless c :=
  Along.lock (Spec.aside fun _ => rfl) fun _ _ _ sound holds _ => ⟨sound.act _ _ false, id,
    holds.1.step rfl rfl fun round => round.1.decided round.2, holds.2⟩

theorem retryDeletions_rounds {A : Core → Prop} [Core.Steady A]
    (failed : Option ProjectionError) (owed : Bool) :
    Along deletions A (fun c => Reaps False (Decided failed owed) c ∧ Sourceless c) (retryDeletions owed)
      (fun _ => A) fun _ c => Reaps False (Acting failed) c ∧ Sourceless c := by
  cases owed with
  | false =>
    refine Along.pure fun _ core holds => ⟨core, holds.1.imp ?_, holds.2⟩
    cases failed with
    | none => exact id
    | some error => exact .inr
  | true =>
    refine Along.update (Spec.asideUpdate fun _ => rfl) fun c _ _ sound holds _ => ?_
    obtain ⟨reaps, bare⟩ := holds
    have empty : c.workspace.source = none := bare
    have became : ({ c with workspace := { c.workspace with
        reaper := c.workspace.reaper.restoreAttempts } } : Coordinator).reaping =
        { c.reaping with
          waiting := c.reaping.waiting.map fun attempt => { attempt with attempts := 0 } } := by
      simp only [reaping, NativeWorkspace.waiting, empty]
      simp [SourceReaper.restoreAttempts]
    refine ⟨sound_of_became became { sound with }, id, reaps.step became rfl ?_, bare⟩
    cases failed with
    | none => exact Beginning.restore
    | some error => exact .inl

/-- Cleanup gives up on what it holds. -/
theorem surrender_rounds {A : Core → Prop} [Core.Steady A] (error : ProjectionError) :
    Along deletions A (fun c => Reaps False (Acting (some error)) c ∧ Sourceless c)
      (Thread.update fun c : Coordinator => { c with
        unreclaimed := c.unreclaimed ++ c.workspace.reaper.surrender.1
        workspace := { c.workspace with reaper := c.workspace.reaper.surrender.2 }
        rounds := (c.rounds.surrender c.workspace.reaper.queue).act (some error)
          c.admission.retryCleanup }) (fun _ => A)
      fun _ => Reaps False (Concluded (some error)) := by
  refine Along.update (Spec.asideUpdate fun _ => rfl) fun c _ _ sound holds _ => ?_
  obtain ⟨reaps, bare⟩ := holds
  have empty : c.workspace.source = none := bare
  have queued : c.reaping.waiting = c.workspace.reaper.queue := by
    simp [reaping, NativeWorkspace.waiting, empty]
  have became : ({ c with
      unreclaimed := c.unreclaimed ++ c.workspace.reaper.surrender.1
      workspace := { c.workspace with reaper := c.workspace.reaper.surrender.2 }
      rounds := (c.rounds.surrender c.workspace.reaper.queue).act (some error)
        c.admission.retryCleanup } : Coordinator).reaping = { c.reaping with
      waiting := []
      log := (c.reaping.log.surrender c.reaping.waiting).act (some error) c.reaping.retry } := by
    rw [queued]
    simp only [reaping, NativeWorkspace.waiting, empty, SourceReaper.surrender]
    rfl
  have given : Sound { c.reaping with
      waiting := []
      log := (c.reaping.log.surrender c.reaping.waiting).act (some error) c.reaping.retry } ∧
      Concluded (some error) { c.reaping with
        waiting := []
        log := (c.reaping.log.surrender c.reaping.waiting).act (some error) c.reaping.retry } := by
    rcases reaps with ⟨⟨⟩, -⟩ | overtaken | surrendering
    · have still : ((c.reaping.log.surrender c.reaping.waiting).act (some error)
          c.reaping.retry).overtaken = true := Overtaken.act overtaken _ _
      exact ⟨sound.of_overtaken still ⟨rfl, rfl⟩ ⟨rfl, rfl⟩ ⟨rfl, rfl⟩, .inl still⟩
    · exact (surrendering.give sound error).imp_right .inr
  rw [← became] at given
  exact ⟨given.1, id, .inr given.2⟩

theorem reapForClose_rounds {A : Core → Prop} [Core.Steady A] (failed : Option ProjectionError) :
    Along deletions A (fun c => Reaps False (Acting failed) c ∧ Sourceless c) (reapForClose failed)
      (fun _ => A) fun reaped => match reaped with
        | some _ => Reaps False (Paced [])
        | none => Reaps False (Concluded failed) := by
  refine Along.bind (B := fun _ => A) (G := fun (holding : Bool) c =>
    (Reaps False (Acting failed) c ∧ Sourceless c) ∧
      (holding = false → Reaps False (Concluded failed) c))
    (Along.look (fun _ => id) Spec.glance fun c _ _ _ holds => ⟨holds, fun idle => ?_⟩)
    fun holding => ?_
  · have empty : c.reaping.waiting = [] := by
      have bare : c.workspace.source = none := holds.2
      have idle : c.workspace.reaper.queue = [] := by simpa [SourceReaper.holdsSources] using idle
      simp [reaping, NativeWorkspace.waiting, bare, idle]
    refine holds.1.imp fun acting => ?_
    cases failed with
    | none => exact Beginning.cleared acting empty
    | some error => exact acting.imp_right fun surrendering => surrendering.empty empty
  cases holding with
  | false => exact Along.pure fun _ core holds => ⟨core, holds.2 rfl⟩
  | true =>
    cases failed with
    | some error =>
      exact ((surrender_rounds error).strengthen fun _ core holds => ⟨core, holds.1⟩).bind fun _ =>
        Along.pure fun _ core reaps => ⟨core, reaps⟩
    | none =>
      exact (startDelete_rounds.strengthen fun _ core holds =>
        ⟨core, holds.1.1.imp Beginning.paced⟩).bind fun _ => Along.pure fun _ core reaps =>
          ⟨core, reaps⟩

def Closed (v : Reaping) : Prop := v.closed = true

instance : Lasting Closed where
  keep beside closed := by
    cases beside <;> exact closed

def Shut (v : Reaping) : Prop := v.closed = true ∧ v.services = false

instance : Lasting Shut where
  keep beside shut := by
    cases beside <;> exact shut

theorem finishClose_rounds (failed : Option ProjectionError) :
    Along deletions Ended (Reaps False (Concluded failed)) (finishClose failed) (fun _ => Ended)
      fun _ => Reaps False Closed := by
  refine Along.lock (finishClose_spec failed) fun c _ _ sound reaps _ => ?_
  have closed : (c.admission.finishClose failed).2.status.residency = .closed :=
    congrArg (·.residency) (finishClose_policy c.admission failed).2
  have became : ({ c with
      admission := (c.admission.finishClose failed).2
      rounds := c.rounds.act failed c.admission.retryCleanup } : Coordinator).reaping =
      { c.reaping with
        closed := true
        failure := failed.or c.reaping.unconfirmed
        log := c.reaping.log.act failed c.reaping.retry } := by
    simp only [reaping, closed, decide_true]
    rfl
  refine ⟨sound_of_became became ?_, id, reaps.step became rfl fun _ => rfl⟩
  have concluded := reaps.sure
  cases failed with
  | none => exact Cleared.close concluded sound
  | some error =>
    rcases concluded with overtaken | surrendered
    · exact sound.of_overtaken (Overtaken.act overtaken _ _) ⟨rfl, rfl⟩ ⟨rfl, rfl⟩ ⟨rfl, rfl⟩
    · exact surrendered.close sound error

theorem releaseWiring_rounds :
    Along deletions Ended (Reaps False Closed) releaseWiring (fun _ => Ended)
      fun _ c => Resting c.reaping := by
  refine Along.bind (B := fun _ => Ended) (G := fun _ => Reaps False Shut)
    (Along.update (Spec.asideUpdate fun _ => rfl) fun c _ _ sound reaps _ =>
      ⟨{ sound with }, id, reaps.step rfl rfl fun closed => ⟨closed, rfl⟩⟩) fun _ => ?_
  exact (Along.aside (R := Routine) takeHandle_ended (Upholds.update fun _ => ⟨rfl, id⟩)).weaken
    fun _ _ core reaps => ⟨core, .inr reaps.sure⟩

theorem takeProcess_routine : takeProcess.Upholds (fun _ _ => True) Routine :=
  Upholds.update fun _ => ⟨rfl, id⟩

theorem finishCleanup_rounds (failed : Option ProjectionError) :
    Along deletions Ended (Reaps False (Concluded failed)) (finishCleanup failed) (fun _ => Ended)
      fun _ c => Resting c.reaping := by
  refine (finishClose_rounds failed).bind fun settled =>
    (Along.aside takeProcess_spec takeProcess_routine).bind fun _ =>
      (Along.aside (completeWaiters_spec _ _) (Completing.completeWaiters_each _ _)
        (R := Routine)).bind fun _ => releaseWiring_rounds.bind fun _ => ?_
  exact Along.pure fun _ core rest => ⟨core, rest⟩

theorem cleanupSources_rounds :
    Along deletions Ended (Reaps False (Paced [])) cleanupSources (fun _ => Ended)
      fun _ c => Resting c.reaping := by
  refine Along.bind (B := fun _ => Ended) (G := fun (busy : Bool) => Reaps False fun v =>
    Paced [] v ∧ (busy = false → Vacated v)) (Along.look (fun _ => id) Spec.glance
      fun c _ _ _ reaps => reaps.imp fun paced => ⟨paced, fun idle => ?_⟩) fun busy => ?_
  · have vacant : c.workspace.io = none := by simpa using idle
    rw [Vacated, reaping, vacant]
    rfl
  cases busy with
  | true =>
    exact Along.pure fun _ core reaps => ⟨core, .inl reaps.sure.1⟩
  | false =>
    refine Along.bind (B := fun _ => Ended) (G := fun _ c =>
      Reaps False (fun v => Paced [] v ∧ Vacated v) c ∧ Sourceless c)
      (Along.update retireRestored_ended fun c _ _ sound reaps _ => ?_) fun _ =>
        takeCleanupRetry_rounds.bind fun pending => (retryDeletions_rounds _ _).bind fun _ =>
          (reapForClose_rounds _).bind fun reaped => ?_
    · have routine := retireSource_routine c
      exact ⟨routine.sound sound, id, (reaps.imp fun round => ⟨round.1, round.2 rfl⟩).of_same
        routine.reaping, (retireSource_waiting c.workspace).2.2.2⟩
    · cases reaped with
      | some schedule =>
        exact Along.pure fun _ core reaps => ⟨core, .inl reaps.sure⟩
      | none => exact finishCleanup_rounds _

theorem cleanup_rounds :
    Along deletions Ended (Reaps False (Paced [])) cleanup (fun _ => Idle)
      fun _ c => Resting c.reaping := by
  refine Along.bind (B := fun _ => Ended) (Along.aside (R := Routine)
    (Spec.asideUpdate fun _ => rfl) Reporting.clearProgramStatus_each) fun _ =>
    Along.bind (B := fun _ => Ended) (Along.aside (R := Routine)
      (Spec.update fun c valid ended => ?_) (Upholds.update fun _ => ⟨rfl, id⟩)) fun _ =>
      (Along.aside closingResize_spec Resizes.closingResize_each (R := Routine)).bind
        fun waiting => ?_
  · exact ended.kept valid rfl ⟨rfl, rfl, rfl⟩ rfl ended.2 rfl (fun _ => rfl) id (fun _ => id) rfl
  · cases waiting with
    | some schedule =>
      exact Along.pure fun _ core reaps => ⟨core.1, .inl reaps.sure⟩
    | none => exact cleanupSources_rounds.weaken fun _ _ core rest => ⟨core.1, rest⟩

instance : deletions.Steady fun c => Resting c.reaping where
  keep beside rest := Lasting.keep beside.1 rest

theorem run_rounds :
    Along deletions Idle (fun c => Resting c.reaping) run (fun _ => Idle)
      fun _ c => Resting c.reaping := by
  have rested : ∀ c, Reaps False (Paced []) c → Resting c.reaping :=
    fun _ reaps => .inl reaps.sure
  refine Along.bind (G := fun (available : Bool) c =>
    Resting c.reaping ∧ (available = true → Reaps False (Paced []) c))
    (Along.look (fun _ => id) services_spec fun c _ _ _ rest => ⟨rest, fun available => ?_⟩)
    fun available => ?_
  · refine .inr (rest.resolve_right fun shut => ?_)
    cases shut.2.symm.trans available
  cases available with
  | false => exact Along.pure fun _ core holds => ⟨core, holds.1⟩
  | true =>
    refine (finishIo_rounds.strengthen fun _ core holds => ⟨core, holds.2 rfl⟩).bind fun _ =>
      Along.bind (B := fun (seen : ProjectionStatus) k =>
        (Idle k ∧ Seen seen.residency k) ∧ (seen.residency.isClosing = true → k.closing = true))
        (Along.aside (R := Routine) (Spec.look fun c _ idle => ⟨⟨idle, .inl rfl⟩, id⟩)
          Completing.look_each) fun seen => ?_
    split
    · rename_i ending
      exact cleanup_rounds.strengthen fun _ core reaps => ⟨⟨core.1.1, core.2 ending⟩, reaps⟩
    split
    · exact workWhileFailed_rounds.mono (fun _ core reaps => ⟨core.1.1, reaps⟩)
        fun _ c core reaps => ⟨core, rested c reaps⟩
    · exact (runOpen_rounds seen.residency).mono (fun _ core reaps => ⟨core.1, reaps⟩)
        fun _ c core reaps => ⟨core, rested c reaps⟩

def Torn (c : Coordinator) : Prop := c.rounds.abandoned = true

theorem Beside.torn {v v' : Reaping} (beside : Reaping.Beside v v') (torn : v.log.abandoned = true) :
    v'.log.abandoned = true := by
  cases beside <;> exact torn

instance : deletions.Steady Torn where
  keep beside torn := Beside.torn beside.1 torn

/-- Abandoned cleanup stays abandoned. -/
theorem Along.torn {α : Type} {A : Core → Prop} {F : Coordinator → Prop} {work : Work α}
    {B : α → Core → Prop} {G : α → Coordinator → Prop} (along : Along deletions A F work B G) :
    Along deletions A (fun c => F c ∧ Torn c) work B fun value c => G value c ∧ Torn c := by
  rintro c ⟨core, rest, torn⟩
  have stays : ((projection.extend deletions).discipline ()).Stable Torn := Along.stable
  have own : ∀ c c', ((projection.extend deletions).discipline ()).guar c c' → Torn c → Torn c' :=
    fun _ _ owed => owed.2
  exact (Discipline.Safe.frame (fun _ _ => stays.keep) own (along c ⟨core, rest⟩) torn).mono
    fun _ _ both => ⟨both.1.1, both.1.2, both.2⟩

theorem abandonClose_rounds :
    Along deletions Idle (fun c => Resting c.reaping) abandonClose (fun _ => Ended) fun _ => Torn :=
  Along.lock abandonClose_spec fun _ _ _ sound _ _ =>
    ⟨{ sound with ended := fun _ kept => (nomatch kept) }, fun _ => rfl, rfl⟩

theorem abandonIo_rounds :
    Along deletions Ended Torn abandonIo (fun _ => Ended) fun _ => Torn := by
  refine Along.bind (G := fun _ => Torn) (Along.lock abandonJob_spec fun c _ _ sound torn _ => ?_)
    fun pending => ?_
  · have deleted : (c.storage.abandon c.workspace.io).deleted = c.storage.deleted := by
      rcases c.workspace.io with _ | (_ | _ | _ | _) <;> rfl
    have became : ({ c with
        workspace := { c.workspace with io := none }
        storage := c.storage.abandon c.workspace.io } : Coordinator).reaping =
        { c.reaping with deletion := none } := by
      simp only [reaping, deleted]
      rfl
    exact ⟨sound_of_became became sound.vacate, id, torn⟩
  · rcases pending with _ | (_ | _ | _ | _)
    · exact Along.pure fun _ core torn => ⟨core, torn⟩
    · exact Along.aside (recordUnreclaimed_spec _) (Upholds.update (P := Routine) fun _ => ⟨rfl, id⟩)
    · exact Along.pure fun _ core torn => ⟨core, torn⟩
    · exact Along.aside (failRequest_spec _ _) (Completing.failRequest_each _ _) (R := Routine)
    · exact Along.aside (recordUnreclaimed_spec _) (Upholds.update (P := Routine) fun _ => ⟨rfl, id⟩)

theorem abandonSources_rounds :
    Along deletions Ended Torn abandonSources (fun _ => Ended) fun _ => Torn := by
  refine (Along.aside retireRestored_ended retireRestored_routine).bind fun _ =>
    Along.bind (B := fun _ => Ended) (G := fun _ => Torn) (Along.update (Spec.asideUpdate fun _ => rfl)
      fun c _ _ sound torn _ => ⟨{ sound with }, id, torn⟩) fun _ =>
        (Along.aside discardOperations_spec Operating.discardOperations_each (R := Routine)).closing.bind
          fun _ => Along.aside (R := Routine) dropTerminal_ended (Upholds.update fun _ => ⟨rfl, id⟩)

theorem abandonWaiters_rounds :
    Along deletions Ended Torn (locked (·.abandonWaiters)) (fun _ => Ended)
      fun _ => Reaps False Closed :=
  Along.lock abandonWaiters_spec fun _ _ _ sound torn _ =>
    ⟨{ sound with ended := fun _ kept => (nomatch torn.symm.trans kept) }, id, .inr rfl⟩

theorem finishAfterShutdown_rounds :
    Along deletions Idle (fun c => Resting c.reaping) finishAfterShutdown (fun _ => Idle)
      fun _ c => Resting c.reaping := by
  apply (Along.aside status_spec Completing.look_each (R := Routine)).bind
  intro seen
  split
  · exact Along.pure fun _ core rest => ⟨core, rest⟩
  refine Along.bind (B := fun _ => Idle) (Along.aside (R := Routine) (Spec.asideUpdate fun _ => rfl)
    Reporting.clearProgramStatus_each) fun _ =>
    (Along.aside (onJournal_spec _) (Upholds.update fun _ => ⟨rfl, id⟩) (R := Routine)).bind fun _ =>
      abandonClose_rounds.bind fun rejected => ?_
  refine (Along.aside (failCommands_spec rejected _) (Completing.failCommands_each _ _)
    (R := Routine)).bind fun _ => ?_
  refine (finishIo_rounds.torn.closing.mono (fun _ core torn => ⟨core, .inl ⟨trivial, torn⟩, torn⟩)
    fun _ c core both => ⟨core, both.2⟩).bind fun _ => abandonIo_rounds.bind fun _ =>
      abandonSources_rounds.bind fun _ => abandonWaiters_rounds.bind fun waiters => ?_
  refine (Along.aside (completeWaiters_spec waiters _) (Completing.completeWaiters_each _ _)
    (R := Routine)).bind fun _ => (Along.aside takeProcess_spec takeProcess_routine).bind fun _ => ?_
  exact releaseWiring_rounds.weaken fun _ _ core rest => ⟨core.1, rest⟩

theorem owner_rounds (owner : Owner) :
    Along deletions Idle (fun c => Resting c.reaping) owner.thread (fun _ => Idle)
      fun _ c => Resting c.reaping := by
  cases owner with
  | run => exact run_rounds.bind fun _ => Along.pure fun _ core rest => ⟨core, rest⟩
  | failed =>
    exact (Along.aside failed_spec Operating.failed_each (R := Routine)).bind fun _ =>
      Along.pure fun _ core rest => ⟨core, rest⟩
  | finishAfterShutdown => exact finishAfterShutdown_rounds

/-- A step of another thread: it asks for a round, ends a deletion, or does neither. -/
def Asks (c c' : Coordinator) : Prop := deletions.meddle c c'

theorem requestClose_asks (waiter : Option TicketId) :
    (requestClose waiter).Upholds (fun _ _ => True) Asks := by
  refine Upholds.lock fun c => ?_
  unfold Admission.requestClose
  split
  · exact Routine.meddle ⟨rfl, id⟩
  rename_i running
  have alive : c.reaping.closed = false := decide_eq_false running
  have still : ¬c.admission.policy.close.status.residency = .closed :=
    (@ProjectionPolicy.step_closed c.admission.policy .close (nomatch ·)).not.mpr running
  have became : ({ c with
      admission := { c.admission with
        policy := c.admission.policy.close
        cleanupFailure := none
        retryCleanup := true
        closeWaiters := c.admission.closeWaiters ++ waiter.toList
        queue := [] }
      rounds := c.rounds.close (.started c.admission.queue) } : Coordinator).reaping =
      { c.reaping with
        retry := true
        failure := none
        log := { c.reaping.log with fresh := false, failed := [], surrendered := none } } := by
    have same : decide (c.admission.policy.close.status.residency = .closed) = c.reaping.closed :=
      (decide_eq_false still).trans alive.symm
    simp only [reaping, Admission.status] at same ⊢
    rw [← same]
    rfl
  refine ⟨?_, id⟩
  rw [became]
  exact .close alive

/-- A job that deletes nothing, or has published, leaves every deletion as it was. -/
theorem publish_other (s : StorageLog) (config : ProjectionConfig) (limit : Nat) (a : Answer)
    {job : PendingIo} (other : ∀ attempt, job.deletion? ≠ some (attempt, none)) :
    (job.publish config limit a).deletion? = job.deletion? ∧
      (s.publish config a job).deleted = s.deleted := by
  rcases job with ⟨attempt, disk, checkpoint, _ | _⟩ | ⟨_, _ | _⟩ | ⟨_, _, _ | _⟩ | ⟨attempt, _ | _⟩
  · refine ⟨rfl, ?_⟩
    simp only [StorageLog.publish]
    split
    · rfl
    · split <;> rfl
  · exact ⟨rfl, rfl⟩
  · exact ⟨rfl, rfl⟩
  · exact ⟨rfl, rfl⟩
  · exact ⟨rfl, rfl⟩
  · exact ⟨rfl, rfl⟩
  · exact absurd rfl (other attempt)
  · exact ⟨rfl, rfl⟩

theorem publishJob_asks (a : Answer) : (publishJob a).Upholds (fun _ _ => True) Asks := by
  refine Upholds.update fun c => ?_
  cases busy : c.workspace.io with
  | none => exact Routine.meddle ⟨by simp [reaping, NativeWorkspace.waiting, busy], id⟩
  | some job =>
    by_cases other : ∀ attempt, job.deletion? ≠ some (attempt, none)
    · obtain ⟨deletion, deleted⟩ :=
        publish_other c.storage c.config c.workspace.config.checkpointBytes a other
      refine Routine.meddle ⟨?_, id⟩
      simp only [reaping, busy, Option.map_some, Option.elim_some, Option.bind_some, deletion, deleted]
      rfl
    · obtain ⟨attempt, due⟩ := not_forall_not.mp other
      cases job with
      | commit | restore | transfer => cases due
      | delete attempt mailbox =>
        obtain ⟨rfl, rfl⟩ := Prod.mk.inj (Option.some.inj due)
        have due : c.reaping.deletion = some (attempt, none) := by
          rw [reaping, busy]
          rfl
        obtain ⟨-, -, -, kept⟩ := Stock.publish_reports c.storage c.config a (.delete attempt none)
        refine ⟨.publish (jobResult a (deleteJob a)) _ due kept fun deleted => ?_, id⟩
        change _ ∈ (c.storage.publish c.config a (.delete attempt none)).deleted
        simp [StorageLog.publish, deleted]

instance : Completing (fun _ _ => True) Asks where
  refl _ := Routine.meddle ⟨rfl, id⟩
  tickets _ _ _ := Routine.meddle ⟨rfl, id⟩

/-- The shared storage budget is beside the rounds. -/
theorem useDisk_asks (c : Coordinator) (use : DiskUse) : Asks c (c.useDisk use) := by
  refine Routine.meddle ?_
  cases use <;> simp only [useDisk] <;> split <;> exact ⟨rfl, id⟩

theorem admitCommand_frame (a : Admission) (command : Command) :
    ∃ queue, (a.admitCommand fun a => (.ok command, a)).2 = { a with queue } := by
  unfold Admission.admitCommand
  split <;> exact ⟨_, rfl⟩

theorem recordActivity_routine (c : Coordinator) (now : Nat) (queue : List Command) (trace : Trace)
    (order : OrderLog) : Routine c { c with
      admission := { c.admission with policy := (c.admission.policy.recordActivity now).2, queue }
      trace, order } :=
  .of_policy (.recordActivity now) (nomatch ·) rfl rfl rfl

theorem admitResize_asks (size : TerminalSize) (ticket : TicketId) (now : Nat) :
    (admitResize size ticket now).Upholds (fun _ _ => True) Asks := by
  refine Upholds.lock fun c => Routine.meddle ?_
  unfold Admission.admitCommand
  cases c.admission.checkAccepting with
  | error e => exact ⟨rfl, id⟩
  | ok _ =>
    dsimp only
    by_cases drained : c.admission.outputDrain.isSome = true
    · rw [if_pos drained]
      exact ⟨rfl, id⟩
    · rw [if_neg drained]
      have routine := recordActivity_routine c now
      rcases recorded : c.admission.policy.recordActivity now with ⟨result, policy⟩
      simp only [Admission.recordActivity, Admission.withPolicy, recorded] at routine ⊢
      cases result with
      | error e => exact routine _ _ _
      | ok _ => exact routine _ _ _

theorem recordExit_asks : recordExit.Upholds (fun _ _ => True) Asks := by
  refine Upholds.lock fun c => Routine.meddle ?_
  rcases recordProcessExit_cases c.admission with refused | ⟨-, -, -, queued⟩
  · rw [refused]
    exact ⟨rfl, id⟩
  · rw [queued]
    exact ⟨rfl, id⟩

theorem offerOutput_asks (bytes : Bytes) (answer : Answer) :
    (admitOutput bytes answer).Upholds (fun _ _ => True) Asks := by
  refine Upholds.lock fun c => Routine.meddle ?_
  rcases offerOutput_cases c bytes answer with
    ⟨acceptance, -, rejected⟩ | ⟨-, nothing⟩ | ⟨policy, admitted, queued⟩
  · rw [rejected]
    exact ⟨rfl, id⟩
  · rw [nothing]
    exact ⟨rfl, id⟩
  · rw [queued]
    exact .of_policy (.admitOutput bytes.length answer.now) (nomatch ·)
      (congrArg Prod.snd admitted).symm rfl rfl

instance : Bystanding (fun _ _ => True) Asks where
  fails error := Completing.fail_of_steps error (fun c => (fail_routine c error).meddle)
    fun _ _ => Routine.meddle ⟨rfl, id⟩

instance : Calling (fun _ _ => True) Asks where
  admitResize := admitResize_asks
  push command _ _ := Upholds.lock fun c => Routine.meddle
    (.of_queue (admitCommand_frame c.admission command) rfl ⟨rfl, rfl, rfl, rfl⟩)
  exit := recordExit_asks
  drains outcome := notifyOutputDrained_of_steps outcome
    (locked_each fun _ => Routine.meddle ⟨rfl, id⟩) fun _ _ _ => Routine.meddle ⟨rfl, id⟩
  closes := close_of_steps requestClose_asks fun _ => Routine.meddle ⟨rfl, id⟩
  wiring _ _ := Routine.meddle ⟨rfl, id⟩
  read _ _ _ := Upholds.lock fun _ => Routine.meddle ⟨rfl, id⟩
  cancel _ _ := Routine.meddle ⟨rfl, id⟩
  forget _ _ := Routine.meddle ⟨rfl, id⟩
  stall _ _ := Routine.meddle ⟨rfl, id⟩
  offer := offerOutput_asks

theorem call_asks (call : Call) : call.thread.Upholds (fun _ _ => True) Asks :=
  Calling.call_each call (Upholds.input.bind publishJob_asks) fun use =>
    Upholds.update fun c => useDisk_asks c use

/-- Every program of a projection keeps the rounds of its deletions. -/
theorem deletions_sound : (projection.extend deletions).Sound := by
  refine projection_sound.extend (fun role c c' step rest => ?_) (fun role program entered => ?_)
    fun program called => ?_
  · rcases step with meddled | ⟨other, differs, -⟩
    · have rest : Resting c.reaping := rest
      exact Lasting.keep (P := Resting) meddled.2.1 rest
    · exact absurd rfl differs
  · obtain ⟨owner, rfl⟩ := entered
    exact owner_rounds owner
  · obtain ⟨call, rfl⟩ := called
    exact Contract.caller_along (projection_sound.caller _ ⟨call, rfl⟩) (fun _ _ _ => trivial)
      (call_asks call) fun _ _ asks _ sound => ⟨sound.beside asks.1, asks⟩

end Coordinator
end PtyRuntime
