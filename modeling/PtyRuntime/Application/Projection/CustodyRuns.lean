import PtyRuntime.Application.Projection.CustodyLaws

/-! Every program that takes the workspace lock accounts for its disk reservations,
and so does every run of a projection, whatever runs beside it. -/
namespace PtyRuntime
open Thread PtyRuntime.Core Stock

namespace Coordinator

theorem readBackSource_along :
    Along reservations (fun k => Idle k ∧ TerminalIs false k) (Holding none) readBackSource
      (fun _ => Idle) fun _ => Holding none := by
  refine Along.bind (B := fun (busy : Bool) k => (Idle k ∧ TerminalIs false k) ∧
    (busy = false → IoFree k)) (Along.aside (R := Untouched)
    (Spec.look fun c _ holds => ⟨holds, ioFree_of_vacant⟩) Completing.look_each) fun busy => ?_
  cases busy with
  | true => exact Along.pure fun _ core holds => ⟨core.1.1, holds⟩
  | false =>
    refine ((Along.aside (R := Untouched) takeWork_spec
      (Upholds.lock fun _ => rfl)).strengthen fun _ core holds =>
        ⟨⟨core.1.1, core.1.2, core.2 rfl⟩, holds⟩).bind fun work => ?_
    cases work with
    | none => exact Along.pure fun _ core holds => ⟨core.1, holds⟩
    | some transfer => exact startRead_along transfer

theorem stepHistory_along :
    Along reservations (fun k => Live k ∧ Seen .usable k) (Holding none) stepHistory (fun _ => Idle)
      fun _ => Holding none := by
  apply (Along.aside Spec.glance Completing.look_each (R := Untouched)).bind
  intro present
  split
  · refine (Along.aside (nativeCall_keeps _) (Bystanding.nativeCall_each _)
      (R := Untouched)).bind fun result => Along.bind (B := fun _ => Progressing)
      (Along.aside (R := Untouched) (Spec.update fun c valid holds => ?_)
        (Upholds.update fun _ => rfl)) fun _ => ?_
    · exact ⟨valid.workspace _ _ _ _, .of_policy rfl rfl rfl, progressing_of_live holds.1 holds.2⟩
    · cases result with
      | ok progress =>
        exact (historyProgress_along progress).bind fun _ => Along.pure fun _ core holds =>
          ⟨core, holds⟩
      | error error =>
        exact (Along.aside (fail_spec error) (Bystanding.fails error) (R := Untouched)).bind
          fun _ => Along.pure fun _ core holds => ⟨core.1.clear.idle_of_down core.2, holds⟩
  · exact Along.pure fun _ core holds => ⟨core.1.idle, holds⟩

theorem takeDuringRestore_untouched : takeDuringRestore.Upholds (fun _ _ => True) Untouched := by
  apply Completing.look_each.bind
  intro owed
  split
  · exact Upholds.pure _
  · exact untouched_take _

theorem restoreStep_along :
    Along reservations (fun k => Primed .usable k ∧ TerminalIs true k) (Holding none) restoreStep
      (fun _ => Idle) fun _ => Holding none := by
  apply (Along.aside takeDuringRestore_spec takeDuringRestore_untouched).bind
  intro taken
  cases taken with
  | some command =>
    refine Along.bind (A := Ready command) (B := fun _ => Ready command) (Along.aside (R := Untouched)
      (Spec.update fun c valid ready => ?_) (Upholds.update fun _ => rfl)) fun _ =>
        Along.aside (R := Untouched) ((applyCommand_spec command).weaken fun _ _ live => live.idle)
          (Serving.applyCommand_each command)
    exact ⟨valid.workspace _ _ _ _, .of_policy rfl rfl rfl, ready_owed ready true⟩
  | none => exact stepHistory_along

theorem maintain_along {A : Core → Prop} [Core.Steady A] :
    Along reservations A (Holding none) maintain (fun _ => A) fun _ => Holding none := by
  apply (Along.aside Spec.glance Completing.look_each (R := Untouched)).bind
  intro due
  split
  · exact startDelete_along.bind fun _ => Along.pure fun _ core holds => ⟨core, holds⟩
  · exact Along.pure fun _ core holds => ⟨core, holds⟩

theorem serveIdle_along (maintenance : Option WorkSchedule) :
    Along reservations (fun k => Idle k ∧ Quiet k) (Holding none) (serveIdle maintenance)
      (fun _ => Idle) fun _ => Holding none := by
  cases maintenance with
  | some schedule => exact Along.pure fun _ core holds => ⟨core.1, holds⟩
  | none =>
    refine Along.bind (B := fun (busy : Bool) k => (Idle k ∧ Quiet k) ∧ (busy = false → IoFree k))
      (G := fun (busy : Bool) c => Holding none c ∧ (busy = false → Vacant c))
      (Along.look (fun _ => rfl) (Spec.look fun c _ holds => ⟨holds, ioFree_of_vacant⟩)
        fun c _ _ _ idle => ⟨idle, fun vacant => by simpa [Vacant] using vacant⟩) fun busy => ?_
    apply (Along.aside Spec.glance Completing.look_each (R := Untouched)).bind
    intro holding
    cases busy with
    | true => exact Along.pure fun _ core holds => ⟨core.1.1, holds.1⟩
    | false =>
      cases holding with
      | true =>
        exact (startDelete_along (A := Idle)).strengthen fun _ core holds => ⟨core.1.1, holds.1⟩
      | false =>
        exact considerPark_along.strengthen fun _ core holds =>
          ⟨⟨core.1, core.2 rfl⟩, holds.1, holds.2 rfl⟩

variable (r : Residency)

theorem serve_along (serving : r ≠ .usable) :
    Along reservations (fun k => Primed r k ∧ TerminalIs true k) (Holding none) serve
      (fun _ => Idle) fun _ => Holding none := by
  refine maintain_along.bind fun maintenance => (Along.aside (takeNext_spec r serving)
    (untouched_take _)).bind fun taken => ?_
  cases taken with
  | some command =>
    exact Along.aside (serveCommand_spec command) (Serving.serveCommand_each command)
      (R := Untouched)
  | none => exact serveIdle_along maintenance

theorem runPhase_along :
    Along reservations (Primed r) (Holding none) (runPhase r) (fun _ => Idle)
      fun _ => Holding none := by
  refine (Along.aside (takeExit_spec r) Serving.takeExit_each (R := Untouched)).bind fun _ =>
    (Along.aside sealJournalIfDrained_spec Serving.sealJournalIfDrained_each (R := Untouched)).bind
      fun _ => ?_
  refine Along.bind (B := fun (phase : Phase) k => Primed r k ∧ InPhase r k phase)
    (Along.aside (R := Untouched) (Spec.look fun c _ primed => ⟨primed, inPhase_of r c⟩)
      Completing.look_each) fun phase => ?_
  cases phase with
  | detached =>
    refine readBackSource_along.strengthen fun c core holds => ⟨⟨core.1.idle ?_, core.2⟩, holds⟩
    rw [Core.dequeues, show c.core.terminal = false from core.2, Bool.false_and]
  | restoring =>
    rintro c ⟨⟨primed, terminal, rfl⟩, holds⟩
    exact restoreStep_along c ⟨⟨primed, terminal⟩, holds⟩
  | serving =>
    rintro c ⟨⟨primed, terminal, serving⟩, holds⟩
    exact serve_along r serving c ⟨⟨primed, terminal⟩, holds⟩

theorem workWhileFailed_along :
    Along reservations Idle (Holding none) workWhileFailed (fun _ => Idle) fun _ => Holding none := by
  apply (Along.aside Spec.glance Completing.look_each (R := Untouched)).bind
  intro due
  split
  · exact startDelete_along
  · exact Along.pure fun _ core holds => ⟨core, holds⟩

theorem runOpen_along :
    Along reservations (fun k => Idle k ∧ Seen r k) (Holding none) (runOpen r) (fun _ => Idle)
      fun _ => Holding none := by
  apply (Along.aside (pollInflightOperations_spec r) Operating.pollInflightOperations_each
    (R := Untouched)).bind
  intro polled
  cases polled with
  | some schedule => exact Along.pure fun _ core holds => ⟨core.1.1, holds⟩
  | none =>
    refine ((Along.aside (checkFailure_spec r) (Operating.poise r) (R := Untouched)).strengthen
      fun _ core holds => ⟨⟨core.1, core.2 rfl⟩, holds⟩).bind fun failure => ?_
    cases failure with
    | some error => exact workWhileFailed_along
    | none => exact runPhase_along r

/-- What the reaper still held is surrendered to the runtime's ledger. -/
theorem surrender_along {A : Core → Prop} [Core.Steady A] (rounds : Coordinator → RoundLog) :
    Along reservations A (Holding none) (Thread.update fun c : Coordinator => { c with
      unreclaimed := c.unreclaimed ++ c.workspace.reaper.surrender.1
      workspace := { c.workspace with reaper := c.workspace.reaper.surrender.2 }
      rounds := rounds c }) (fun _ => A) fun _ => Holding none := by
  refine Along.update (Spec.asideUpdate fun _ => rfl) fun c _ _ acc idle _ => ⟨?_, rfl, idle⟩
  refine shift_kept acc c.workspace.source _ _ fun other => ?_
  have ledger : (c.workspace.reaper.queue.map fun attempt =>
      UnreclaimedSource.ofCommitted attempt.source).map (·.disk) =
      c.workspace.reaper.queue.map (·.source.disk) := by
    rw [List.map_map]
    rfl
  simp only [leasesAt, stock, SourceReaper.surrender, List.map_append, ledger, List.map_nil,
    List.count_append, List.count_nil]
  omega

theorem retryDeletions_along {A : Core → Prop} [Core.Steady A] (retry : Bool) :
    Along reservations A (Holding none) (retryDeletions retry) (fun _ => A) fun _ => Holding none := by
  cases retry with
  | false => exact Along.pure fun _ core holds => ⟨core, holds⟩
  | true =>
    refine Along.update (Spec.asideUpdate fun _ => rfl) fun c _ _ acc idle _ => ⟨?_, rfl, idle⟩
    refine shift_kept acc c.workspace.source _ c.unreclaimed fun other => ?_
    simp only [leasesAt, stock, SourceReaper.restoreAttempts, List.map_map, Function.comp_def]

theorem reapForClose_along {A : Core → Prop} [Core.Steady A] (failed : Option ProjectionError) :
    Along reservations A (Holding none) (reapForClose failed) (fun _ => A) fun _ => Holding none := by
  apply (Along.aside Spec.glance Completing.look_each (R := Untouched)).bind
  intro holding
  split
  · cases failed with
    | some error => exact (surrender_along _).bind fun _ => Along.pure fun _ core holds => ⟨core, holds⟩
    | none => exact startDelete_along.bind fun _ => Along.pure fun _ core holds => ⟨core, holds⟩
  · exact Along.pure fun _ core holds => ⟨core, holds⟩

theorem takeProcess_untouched : takeProcess.Upholds (fun _ _ => True) Untouched := Upholds.update fun _ => rfl

theorem releaseWiring_untouched : releaseWiring.Upholds (fun _ _ => True) Untouched :=
  Upholds.bind (Upholds.update fun _ => rfl) fun _ => Upholds.update fun _ => rfl

theorem finishCleanup_untouched (failed : Option ProjectionError) :
    (finishCleanup failed).Upholds (fun _ _ => True) Untouched :=
  Upholds.bind (Upholds.lock fun _ => rfl) fun _ => takeProcess_untouched.bind fun _ =>
    (Completing.completeWaiters_each _ _).bind fun _ => releaseWiring_untouched.bind fun _ =>
      Upholds.pure _

theorem cleanupSources_along :
    Along reservations Ended (Holding none) cleanupSources (fun _ => Ended) fun _ => Holding none := by
  apply (Along.aside Spec.glance Completing.look_each (R := Untouched)).bind
  intro busy
  split
  · exact Along.pure fun _ core holds => ⟨core, holds⟩
  · refine (retireRestored_along retireRestored_ended).bind fun _ =>
      Along.bind (B := fun _ => Ended) (Along.aside (R := Untouched) (Spec.aside fun _ => rfl)
        (Upholds.lock fun _ => rfl)) fun pending => (retryDeletions_along _).bind fun _ =>
          (reapForClose_along _).bind fun reaped => ?_
    cases reaped with
    | some schedule => exact Along.pure fun _ core holds => ⟨core, holds⟩
    | none => exact Along.aside (finishCleanup_spec _) (finishCleanup_untouched _)

theorem cleanup_along :
    Along reservations Ended (Holding none) cleanup (fun _ => Idle) fun _ => Holding none := by
  refine Along.bind (B := fun _ => Ended) (Along.aside (R := Untouched)
    (Spec.asideUpdate fun _ => rfl) Reporting.clearProgramStatus_each) fun _ =>
    Along.bind (B := fun _ => Ended) (Along.aside (R := Untouched)
      (Spec.update fun c valid ended => ?_) (Upholds.update fun _ => rfl)) fun _ =>
      (Along.aside closingResize_spec Resizes.closingResize_each (R := Untouched)).bind
        fun waiting => ?_
  · exact ended.kept valid rfl ⟨rfl, rfl, rfl⟩ rfl ended.2 rfl (fun _ => rfl) id (fun _ => id) rfl
  · cases waiting with
    | some schedule => exact Along.pure fun _ core holds => ⟨core.1, holds⟩
    | none => exact cleanupSources_along.weaken fun _ _ core holds => ⟨core.1, holds⟩

theorem run_along : Along reservations Idle (Holding none) run (fun _ => Idle) fun _ => Holding none := by
  apply (Along.aside services_spec Completing.look_each (R := Untouched)).bind
  intro available
  split
  · refine finishIo_along.bind fun _ => Along.bind (B := fun (seen : ProjectionStatus) k =>
      (Idle k ∧ Seen seen.residency k) ∧ (seen.residency.isClosing = true → k.closing = true))
      (Along.aside (R := Untouched) (Spec.look fun c _ idle => ⟨⟨idle, .inl rfl⟩, id⟩)
        Completing.look_each) fun seen => ?_
    split
    · rename_i ending
      exact cleanup_along.strengthen fun _ core holds => ⟨⟨core.1.1, core.2 ending⟩, holds⟩
    split
    · exact workWhileFailed_along.strengthen fun _ core holds => ⟨core.1.1, holds⟩
    · exact (runOpen_along seen.residency).strengthen fun _ core holds => ⟨core.1, holds⟩
  · exact Along.pure fun _ core holds => ⟨core, holds⟩

/-- What an abandoned job gives back. -/
def abandoned : Option PendingIo → Option Custody
  | some (.commit _ disk _ _) => some (.commit disk)
  | some (.delete attempt _) => some (.delete attempt.source.disk)
  | _ => none

theorem abandonIo_along :
    Along reservations Ended (Holding none) abandonIo (fun _ => Ended) fun _ => Holding none := by
  refine Along.bind (G := fun pending => Holding (abandoned pending))
    (Along.lock abandonJob_spec fun c _ _ acc idle _ => ⟨abandon_kept acc idle, rfl, ?_⟩)
    fun pending => ?_
  · have idle : c.storage.moving = none := idle
    rcases c.workspace.io with _ | (_ | _ | _ | _) <;>
      simp [Holding, abandoned, StorageLog.abandon, StorageLog.hold, idle]
  · rcases pending with _ | (⟨attempt, disk, _, _⟩ | _ | _ | ⟨attempt, _⟩)
    · exact Along.pure fun _ core holds => ⟨core, holds⟩
    · exact recordUnreclaimed_along (.inl rfl) (.fromUncertainPark · attempt disk) fun _ => rfl
    · exact Along.pure fun _ core holds => ⟨core, holds⟩
    · exact Along.aside (F := Holding none) (R := Untouched) (failRequest_spec _ _)
        (Completing.failRequest_each _ _)
    · exact recordUnreclaimed_along (.inr rfl) (fun _ => .ofCommitted attempt.source) fun _ => rfl

theorem abandonSources_along :
    Along reservations Ended (Holding none) abandonSources (fun _ => Ended) fun _ => Holding none :=
  (retireRestored_along retireRestored_ended).bind fun _ => (surrender_along (·.rounds)).bind fun _ =>
    (Along.aside discardOperations_spec Operating.discardOperations_each (R := Untouched)).closing.bind
      fun _ => Along.aside (R := Untouched) dropTerminal_ended (Upholds.update fun _ => rfl)

theorem finishAfterShutdown_along :
    Along reservations Idle (Holding none) finishAfterShutdown (fun _ => Idle)
      fun _ => Holding none := by
  apply (Along.aside status_spec Completing.look_each (R := Untouched)).bind
  intro seen
  split
  · exact Along.pure fun _ core holds => ⟨core, holds⟩
  · refine Along.bind (B := fun _ => Idle) (Along.aside (R := Untouched)
      (Spec.asideUpdate fun _ => rfl) Reporting.clearProgramStatus_each) fun _ =>
      (Along.aside (onJournal_spec _) (Upholds.update fun _ => rfl) (R := Untouched)).bind fun _ =>
        (Along.aside abandonClose_spec (Upholds.lock (P := Untouched) fun _ => rfl)).bind
          fun rejected => ?_
    refine (Along.aside (failCommands_spec rejected _) (Completing.failCommands_each _ _)
      (R := Untouched)).bind fun _ => finishIo_along.closing.bind fun _ => abandonIo_along.bind
        fun _ => abandonSources_along.bind fun _ => ?_
    refine (Along.aside abandonWaiters_spec (locked_each (R := Untouched) fun _ => rfl)).bind
      fun waiters => (Along.aside (completeWaiters_spec waiters _)
        (Completing.completeWaiters_each _ _) (R := Untouched)).bind fun _ => ?_
    exact (Along.aside takeProcess_spec takeProcess_untouched).bind fun _ =>
      (Along.aside releaseWiring_spec releaseWiring_untouched).weaken fun _ _ core holds =>
        ⟨core.1, holds⟩

theorem owner_along (owner : Owner) :
    Along reservations Idle (Holding none) owner.thread (fun _ => Idle) fun _ => Holding none := by
  cases owner with
  | run => exact run_along.bind fun _ => Along.pure fun _ core holds => ⟨core, holds⟩
  | failed =>
    exact (Along.aside failed_spec Operating.failed_each (R := Untouched)).bind fun _ =>
      Along.pure fun _ core holds => ⟨core, holds⟩
  | finishAfterShutdown => exact finishAfterShutdown_along

/-- What a step of another thread keeps of the books, and leaves of the worker's. -/
def Shares (c c' : Coordinator) : Prop :=
  Accounted c.stock → Accounted c'.stock ∧ Stock.Beside c.stock c'.stock

theorem Shares.of_same {c c' : Coordinator} (same : c'.stock = c.stock) : Shares c c' := by
  intro acc
  rw [same]
  exact ⟨acc, .refl _⟩

theorem publishJob_shares (a : Answer) : (publishJob a).Upholds (fun _ _ => True) Shares := by
  refine Upholds.update fun c acc => ?_
  cases busy : c.workspace.io with
  | none =>
    have same : ({ c with
        workspace := { c.workspace with io := none }, storage := c.storage } : Coordinator).stock =
        c.stock := by
      simp [stock, busy]
    simp only [Option.map_none, Option.elim_none]
    rw [same]
    exact ⟨acc, .refl _⟩
  | some job =>
    obtain ⟨moving, submitted, reported⟩ := publish_reports c.storage c.config a job
    refine ⟨publish_kept acc busy _ a, rfl, rfl, rfl, moving, submitted, reported, fun vacant => ?_⟩
    cases busy.symm.trans vacant

theorem shareDisk_shares (use : DiskUse) : (shareDisk use).Upholds (fun _ _ => True) Shares := by
  refine Upholds.update fun c acc => ?_
  have vacant : c.workspace.io = none → c.workspace.io = none ∧ c.storage.rejected = c.storage.rejected ∧
      c.storage.deleted = c.storage.deleted ∧ c.storage.objects = c.storage.objects :=
    fun vacant => ⟨vacant, rfl, rfl, rfl⟩
  have subset : c.storage.rejected ⊆ c.storage.rejected ∧ c.storage.deleted ⊆ c.storage.deleted :=
    ⟨List.Subset.refl _, List.Subset.refl _⟩
  cases use with
  | acquire bytes =>
    simp only [useDisk]
    split
    · rename_i slot room
      exact ⟨acquireElsewhere_kept acc slot room, rfl, rfl, rfl, rfl, rfl, subset, vacant⟩
    · exact ⟨acc, .refl _⟩
  | release index =>
    simp only [useDisk]
    split
    · exact ⟨acc, .refl _⟩
    · rename_i found
      exact ⟨releaseElsewhere_kept acc found, rfl, rfl, rfl, rfl, rfl, subset, vacant⟩
  | surrender index reference key descriptor =>
    simp only [useDisk]
    split
    · exact ⟨acc, .refl _⟩
    · rename_i found
      exact ⟨surrenderElsewhere_kept acc found, rfl, rfl, rfl, rfl, rfl, subset, vacant⟩

instance : Completing (fun _ _ => True) Shares where
  refl _ := .of_same rfl
  tickets _ _ _ := .of_same rfl

instance : Bystanding (fun _ _ => True) Shares where
  fails error := Completing.fail_of_steps error (fun _ => .of_same rfl) fun _ _ => .of_same rfl

instance : Calling (fun _ _ => True) Shares where
  admitResize size ticket now := Upholds.lock fun c => .of_same (by split <;> rfl)
  push _ _ _ := Upholds.lock fun _ => .of_same rfl
  exit := Upholds.lock fun c => .of_same (by split <;> rfl)
  drains outcome := notifyOutputDrained_of_steps outcome (locked_each fun _ => .of_same rfl)
    fun _ _ _ => .of_same rfl
  closes := close_of_steps (fun _ => Upholds.lock fun _ => .of_same rfl) fun _ => .of_same rfl
  wiring _ _ := .of_same rfl
  read _ _ _ := Upholds.lock fun _ => .of_same rfl
  cancel _ _ := .of_same rfl
  forget _ _ := .of_same rfl
  stall _ _ := .of_same rfl
  offer bytes answer := Upholds.lock fun c => .of_same (by unfold offerOutput; split <;> rfl)

theorem call_shares (call : Call) : call.thread.Upholds (fun _ _ => True) Shares :=
  Calling.call_each call (Upholds.input.bind publishJob_shares) shareDisk_shares

/-- Every program of a projection keeps the books of its disk reservations. -/
theorem reservations_sound : (projection.extend reservations).Sound := by
  refine projection_sound.extend (fun role c c' step idle => ?_) (fun role program entered => ?_)
    fun program called => ?_
  · rcases step with meddled | ⟨other, differs, -⟩
    · exact meddled.2.moving.trans idle
    · exact absurd rfl differs
  · obtain ⟨owner, rfl⟩ := entered
    exact owner_along owner
  · obtain ⟨call, rfl⟩ := called
    exact Contract.caller_along (projection_sound.caller _ ⟨call, rfl⟩) (fun _ _ _ => trivial)
      (call_shares call) fun _ _ shares _ acc => shares acc

end Coordinator
end PtyRuntime
