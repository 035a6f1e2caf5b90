import PtyRuntime.Application.Projection.Rounds
import PtyRuntime.Application.Projection.CustodyLaws

/-! What the worker's programs make of a round of deletions, and what other threads
leave of it. Most programs move no source and decide nothing about cleanup. -/
namespace PtyRuntime
open Thread PtyRuntime.Core Reaping

namespace Coordinator

/-- The rounds of deletions, on top of the projection's contract. -/
def deletions : Addition Unit Coordinator where
  inv c := c.reaping.Sound
  idle _ c := Resting c.reaping
  guar _ c c' := c.rounds.abandoned = true → c'.rounds.abandoned = true
  meddle c c' := Reaping.Beside c.reaping c'.reaping ∧
    (c.workspace.source = none → c'.workspace.source = none)

instance : Tracks deletions fun _ _ => True := ⟨fun _ _ _ => trivial⟩

structure Routine (c c' : Coordinator) : Prop where
  reaping : c'.reaping = c.reaping
  source : c.workspace.source = none → c'.workspace.source = none

theorem Routine.meddle {c c' : Coordinator} (routine : Routine c c') : deletions.meddle c c' := by
  refine ⟨?_, routine.source⟩
  rw [routine.reaping]
  exact .same _

theorem Routine.sound {c c' : Coordinator} (routine : Routine c c') (sound : c.reaping.Sound) :
    c'.reaping.Sound := by
  rw [routine.reaping]
  exact sound

instance : deletions.Neutral () Routine where
  step {c c'} routine sound := by
    have same : c'.rounds.abandoned = c.rounds.abandoned := congrArg (·.log.abandoned) routine.reaping
    exact ⟨routine.sound sound, same.trans, routine.meddle⟩

/-- A call of the policy changes nothing about cleanup, unless it closes for good. -/
theorem Routine.of_policy {c c' : Coordinator} (call : ProjectionPolicy.Call)
    (other : call ≠ .markClosed) (policy : c'.admission.policy = (c.admission.policy.step call).2)
    (rest : { c'.reaping with closed := c.reaping.closed } = c.reaping)
    (source : c'.workspace.source = c.workspace.source) : Routine c c' := by
  have closed : c'.reaping.closed = c.reaping.closed := by
    refine decide_eq_decide.mpr ?_
    rw [Admission.status, policy]
    exact c.admission.policy.step_closed other
  rw [← closed] at rest
  exact ⟨rest, source.trans⟩

/-- Only the queue of admitted work has changed. -/
theorem Routine.of_queue {c c' : Coordinator} (admission : ∃ queue, c'.admission = { c.admission with queue })
    (workspace : c'.workspace = c.workspace)
    (rest : c'.wiring.services = c.wiring.services ∧ c'.config = c.config ∧
      c'.storage.deleted = c.storage.deleted ∧ c'.rounds = c.rounds) : Routine c c' := by
  obtain ⟨queue, admission⟩ := admission
  obtain ⟨services, config, deleted, rounds⟩ := rest
  refine ⟨?_, fun none => workspace ▸ none⟩
  simp only [Coordinator.reaping, admission, workspace, services, config, deleted, rounds]
  rfl

theorem takeNextIf_frame (a : Admission) (allowed : Command → Bool) :
    ∃ queue, (a.takeNextIf allowed).2 = { a with queue } := by
  unfold Admission.takeNextIf
  split
  · exact ⟨_, rfl⟩
  · exact ⟨_, rfl⟩

theorem takeWhileServing_frame (a : Admission) :
    ∃ queue, a.takeNextOutputWhileServing.2 = { a with queue } := by
  unfold Admission.takeNextOutputWhileServing
  split
  · exact ⟨_, rfl⟩
  · exact takeNextIf_frame a _

theorem takeCheckpointIfAnyWork_frame (a : Admission) :
    ∃ queue, a.takeCheckpointIfAnyWork.2 = { a with queue } := by
  unfold Admission.takeCheckpointIfAnyWork
  split <;> exact ⟨_, rfl⟩

theorem requeue_frame (a : Admission) (command : Command) :
    ∃ queue, (a.requeue command).2 = { a with queue } := by
  unfold Admission.requeue
  split <;> exact ⟨_, rfl⟩

theorem take_routine {take : Coordinator → Option Command × Admission}
    (queue : ∀ c, ∃ queue, (take c).2 = { c.admission with queue }) :
    (takeCommand take).Upholds (fun _ _ => True) Routine :=
  Upholds.lock fun c => .of_queue (queue c) rfl ⟨rfl, rfl, rfl, rfl⟩

theorem fail_routine (c : Coordinator) (error : ProjectionError) :
    Routine c { c with admission := (c.admission.fail error).2 } :=
  .of_policy (.fail error) (nomatch ·) rfl rfl rfl

theorem recordProcessed_routine (bytes : Bytes) :
    (recordProcessed bytes).Upholds (fun _ _ => True) Routine := by
  refine Upholds.lock fun c => ?_
  split
  all_goals
    rename_i admission counted
    obtain rfl : (c.admission.recordProcessed bytes.length).2 = admission := congrArg Prod.snd counted
    exact .of_policy (.recordProcessed bytes.length) (by simp) rfl rfl rfl

theorem recordControlApplied_routine (generation : ControlGeneration) :
    (recordControlApplied generation).Upholds (fun _ _ => True) Routine := by
  refine Upholds.lock fun c => ?_
  split
  all_goals
    rename_i admission counted
    obtain rfl : (c.admission.recordControlApplied generation).2 = admission :=
      congrArg Prod.snd counted
    exact .of_policy (.recordControlApplied generation) (by simp) rfl rfl rfl

instance : Completing (fun _ _ => True) Routine where
  refl _ := ⟨rfl, id⟩
  tickets _ _ _ := ⟨rfl, id⟩

instance : Serving (fun _ _ => True) Routine where
  fails error := Completing.fail_of_steps error (fail_routine · error) fun _ _ => ⟨rfl, id⟩
  observe _ := ⟨rfl, id⟩
  forget _ _ := ⟨rfl, id⟩
  program _ _ _ := ⟨rfl, id⟩
  giveBack c command _ := .of_queue (requeue_frame c.admission command) rfl ⟨rfl, rfl, rfl, rfl⟩
  feed _ _ := ⟨rfl, id⟩
  count := recordProcessed_routine
  appendOutput _ _ _ _ := ⟨rfl, id⟩
  reply _ _ := ⟨rfl, id⟩
  slot _ _ := ⟨rfl, id⟩
  size _ _ := ⟨rfl, id⟩
  give _ _ _ := ⟨rfl, id⟩
  settle _ _ := ⟨rfl, id⟩
  finish _ _ := ⟨rfl, id⟩
  control := recordControlApplied_routine
  appendResize _ _ _ _ := ⟨rfl, id⟩
  poise _ := Upholds.lock fun _ => ⟨rfl, id⟩
  takeNext := take_routine fun _ => ⟨_, rfl⟩
  takeOutput := take_routine fun c => takeWhileServing_frame c.admission
  takeRestoring := take_routine fun c => takeNextIf_frame c.admission c.allowedDuringRestore
  marker := Upholds.lock fun c => .of_queue (takeNextIf_frame c.admission _) rfl ⟨rfl, rfl, rfl, rfl⟩
  sealClean _ _ := ⟨rfl, id⟩
  owe _ _ := ⟨rfl, id⟩

theorem submit_routine {job : PendingIo} (other : job.deletion? = none) :
    (submit job).Upholds (fun _ _ => True) Routine := by
  refine Upholds.input.bind fun a => Upholds.lock fun c => ?_
  split
  · exact ⟨rfl, id⟩
  rename_i busy
  split
  · have vacant : c.workspace.io = none := by simpa using busy
    have rounds : c.rounds.submit job = c.rounds := by
      cases job with
      | delete attempt mailbox => cases other
      | commit | restore | transfer => rfl
    refine ⟨?_, id⟩
    simp only [reaping, vacant, rounds, Option.bind_some, other]
    cases job with
    | delete attempt mailbox => cases other
    | commit | restore | transfer => rfl
  · exact ⟨rfl, id⟩

theorem readForTransfer_routine (source : CommittedSource) (request : SnapshotRequest) :
    (readForTransfer source request).Upholds (fun _ _ => True) Routine := by
  refine (submit_routine rfl).bind fun result => ?_
  cases result with
  | ok _ => exact Upholds.pure _
  | error error => exact (Completing.failRequest_each _ _).bind fun _ => Upholds.pure _

theorem beginRestore_routine (c : Coordinator) :
    Routine c { c with admission := c.admission.beginRestore.2 } :=
  .of_policy .beginRestore (nomatch ·) rfl rfl rfl

theorem readForRestore_routine (source : CommittedSource) :
    (readForRestore source).Upholds (fun _ _ => True) Routine := by
  refine Upholds.input.bind fun resident => ?_
  split
  · refine (submit_routine rfl).bind fun result => ?_
    cases result with
    | error error => exact Upholds.pure _
    | ok _ =>
      refine (locked_each beginRestore_routine).bind fun begun => ?_
      cases begun with
      | error error => exact (Bystanding.fails error).bind fun _ => Upholds.pure _
      | ok _ => exact Upholds.pure _
  · exact Upholds.pure _

theorem startRead_routine (transfer : Option Command) :
    (startRead transfer).Upholds (fun _ _ => True) Routine := by
  apply Completing.look_each.bind
  intro available
  split
  · apply Completing.look_each.bind
    intro source
    cases source with
    | none => exact (Bystanding.fails _).bind fun _ => Upholds.pure _
    | some source =>
      apply Upholds.input.bind
      intro memory
      split
      · exact readForTransfer_routine source _
      · exact readForRestore_routine source
      · exact (Completing.failCommand_each _ _).bind fun _ => Upholds.pure _
      · exact Upholds.pure _
  · exact Upholds.pure _

theorem readBackSource_routine : readBackSource.Upholds (fun _ _ => True) Routine := by
  apply Completing.look_each.bind
  intro busy
  split
  · exact Upholds.pure _
  · refine Upholds.bind (Upholds.lock fun c => .of_queue (takeCheckpointIfAnyWork_frame c.admission)
      rfl ⟨rfl, rfl, rfl, rfl⟩) fun work => ?_
    cases work with
    | none => exact Upholds.pure _
    | some transfer => exact startRead_routine transfer

theorem parkFailed_routine (c : Coordinator) (error : ProjectionError) (now : Nat) :
    Routine c { c with admission := c.admission.parkFailed error now } :=
  .of_policy (.parkFailed error now) (nomatch ·) rfl rfl rfl

theorem parkFailed_each (error : ProjectionError) :
    (parkFailed error).Upholds (fun _ _ => True) Routine :=
  Upholds.input.bind fun a => (locked_each (parkFailed_routine · error a.now)).bind fun _ =>
    Completing.look_each

theorem beginPark_routine (now : Nat) : (beginPark now).Upholds (fun _ _ => True) Routine := by
  refine Upholds.lock fun c => ?_
  have frame : Routine c { c with admission := (c.admission.beginPark now).2 } := by
    unfold Admission.beginPark
    split
    · exact ⟨rfl, id⟩
    · split
      all_goals
        rename_i policy begun
        obtain rfl : (c.admission.policy.beginPark now).2 = policy := congrArg Prod.snd begun
        exact .of_policy (.beginPark now) (nomatch ·) rfl rfl rfl
  split <;> rename_i begun <;> rw [begun] at frame
  · exact ⟨frame.reaping, frame.source⟩
  · exact frame

theorem acquireDisk_routine : acquireDisk.Upholds (fun _ _ => True) Routine := by
  refine Upholds.input.bind fun a => Upholds.bind (Upholds.lock fun c => ?_) fun slot => ?_
  · split <;> exact ⟨rfl, id⟩
  cases slot with
  | false => exact Upholds.pure _
  | true =>
    refine Upholds.bind (Upholds.lock fun c => ?_) fun disk => ?_
    · split <;> exact ⟨rfl, id⟩
    cases disk with
    | some disk => exact Upholds.pure _
    | none => exact (Upholds.update fun _ => ⟨rfl, id⟩).bind fun _ => Upholds.pure _

theorem releaseDisk_routine (disk : DiskLease) :
    (releaseDisk disk).Upholds (fun _ _ => True) Routine :=
  (Upholds.update fun _ => ⟨rfl, id⟩).bind fun _ => Upholds.update fun _ => ⟨rfl, id⟩

theorem encodePark_routine : encodePark.Upholds (fun _ _ => True) Routine := by
  apply Upholds.input.bind
  intro memory
  split
  · apply acquireDisk_routine.bind
    intro disk
    cases disk with
    | none => exact Upholds.pure _
    | some disk =>
      refine Completing.look_each.bind fun version => (Bystanding.encode_each version).bind
        fun encoded => (Upholds.update fun _ => ⟨rfl, id⟩).bind fun _ => ?_
      cases encoded with
      | error error => exact (releaseDisk_routine disk).bind fun _ => Upholds.pure _
      | ok checkpoint => exact Upholds.pure _
  · exact Upholds.pure _

theorem submitPark_routine (attempt : ParkAttempt) (checkpoint : TerminalCheckpoint)
    (disk : DiskLease) : (submitPark attempt checkpoint disk).Upholds (fun _ _ => True) Routine := by
  refine (submit_routine rfl).bind fun result => ?_
  cases result with
  | ok _ => exact Upholds.pure _
  | error error =>
    exact (parkFailed_each error).bind fun _ => (releaseDisk_routine disk).bind fun _ =>
      Upholds.pure _

theorem startPark_routine : startPark.Upholds (fun _ _ => True) Routine := by
  apply Completing.look_each.bind
  intro available
  split
  · refine Upholds.input.bind fun a => (beginPark_routine a.now).bind fun start => ?_
    cases start with
    | busy => exact Upholds.pure _
    | notDue => exact Upholds.pure _
    | ready attempt =>
      refine encodePark_routine.bind fun encoded => ?_
      cases encoded with
      | error error => exact parkFailed_each error
      | ok encoded => exact submitPark_routine attempt encoded.1 encoded.2
  · exact Upholds.pure _

theorem considerPark_routine : considerPark.Upholds (fun _ _ => True) Routine := by
  refine Upholds.input.bind fun a => Completing.look_each.bind fun delay => ?_
  cases delay with
  | none => exact Upholds.pure _
  | some delay =>
    dsimp only
    split
    · exact startPark_routine
    · exact Upholds.pure _

/-- Retiring a source leaves it where it was in the order. -/
theorem retireSource_waiting (w : NativeWorkspace) : w.retireSource.waiting = w.waiting ∧
    w.retireSource.reaper.maxAttempts = w.reaper.maxAttempts ∧ w.retireSource.io = w.io ∧
    w.retireSource.source = none := by
  unfold NativeWorkspace.retireSource
  split
  · rename_i none
    exact ⟨rfl, rfl, rfl, none⟩
  · rename_i source some
    simp [NativeWorkspace.waiting, SourceReaper.retire, some]

theorem retireSource_routine (c : Coordinator) :
    Routine c { c with workspace := c.workspace.retireSource } := by
  refine ⟨?_, fun _ => (retireSource_waiting c.workspace).2.2.2⟩
  obtain ⟨waiting, most, io, -⟩ := retireSource_waiting c.workspace
  simp only [reaping, waiting, most, io]

theorem retireRestored_routine : retireRestored.Upholds (fun _ _ => True) Routine :=
  Upholds.update retireSource_routine

theorem historyProgress_routine (progress : RestorationProgress) :
    (historyProgress progress).Upholds (fun _ _ => True) Routine := by
  refine (locked_each fun c => .of_policy (.restorationProgress progress) (nomatch ·) rfl rfl rfl).bind
    fun result => ?_
  cases result with
  | error error => exact Bystanding.fails error
  | ok _ =>
    dsimp only
    split
    · exact retireRestored_routine
    · exact Upholds.pure _

theorem applyRestore_routine (result : Except ProjectionError TerminalCheckpoint) :
    (applyRestore result).Upholds (fun _ _ => True) Routine := by
  cases result with
  | error error => exact Bystanding.fails error
  | ok checkpoint =>
    apply (Bystanding.nativeCall_each _).bind
    intro restored
    cases restored with
    | error error => exact Bystanding.fails error
    | ok terminal =>
      apply (Bystanding.nativeCall_each _).bind
      intro progress
      cases progress with
      | error error => exact Upholds.pure _
      | ok progress =>
        exact (Upholds.update fun _ => ⟨rfl, id⟩).bind fun _ => historyProgress_routine progress

theorem stepHistory_routine : stepHistory.Upholds (fun _ _ => True) Routine := by
  apply Completing.look_each.bind
  intro present
  split
  · refine (Bystanding.nativeCall_each _).bind fun result =>
      (Upholds.update fun _ => ⟨rfl, id⟩).bind fun _ => ?_
    cases result with
    | ok progress => exact (historyProgress_routine progress).bind fun _ => Upholds.pure _
    | error error => exact (Bystanding.fails error).bind fun _ => Upholds.pure _
  · exact Upholds.pure _

theorem restoreStep_routine : restoreStep.Upholds (fun _ _ => True) Routine := by
  refine Upholds.bind (Completing.look_each.bind fun owed => ?_) fun taken => ?_
  · split
    · exact Upholds.pure _
    · exact Serving.takeRestoring
  · cases taken with
    | some command =>
      exact (Upholds.update fun _ => ⟨rfl, id⟩).bind fun _ => Serving.applyCommand_each command
    | none => exact stepHistory_routine

/-- `P` of the sources and the round, unless the projection is being torn down and
cleanup has been abandoned. -/
def Reaps (torn : Prop) (P : Reaping → Prop) (c : Coordinator) : Prop := Unless torn P c.reaping

variable {torn : Prop}

instance {P : Reaping → Prop} [Lasting P] : deletions.Steady (Reaps torn P) where
  keep beside reaps := Lasting.keep beside.1 reaps

instance : deletions.Steady Sourceless where
  keep beside none := beside.2 none

theorem Reaps.of_same {P : Reaping → Prop} {c c' : Coordinator} (reaps : Reaps torn P c)
    (same : c'.reaping = c.reaping) : Reaps torn P c' := by
  rw [Reaps, same]
  exact reaps

theorem Reaps.imp {P Q : Reaping → Prop} {c : Coordinator} (reaps : Reaps torn P c)
    (weaker : P c.reaping → Q c.reaping) : Reaps torn Q c := Or.imp_right weaker reaps

/-- A run is not part of a teardown. -/
theorem Reaps.sure {P : Reaping → Prop} {c : Coordinator} (reaps : Reaps False P c) : P c.reaping :=
  reaps.resolve_left fun torn => torn.1

theorem sound_of_became {c : Coordinator} {v : Reaping} (became : c.reaping = v) (sound : v.Sound) :
    deletions.inv c := by
  change c.reaping.Sound
  rw [became]
  exact sound

/-- One step of the worker that does not abandon cleanup. -/
theorem Reaps.step {P Q : Reaping → Prop} {c c' : Coordinator} {v : Reaping} (reaps : Reaps torn P c)
    (became : c'.reaping = v) (same : v.log.abandoned = c.rounds.abandoned)
    (moved : P c.reaping → Q v) : Reaps torn Q c' := by
  rw [Reaps, became]
  exact Or.imp (And.imp_right same.trans) moved reaps

section Deletion

variable {A : Core → Prop} [Core.Steady A]

theorem checkOut_waiting {w : NativeWorkspace} {attempt : DeleteAttempt} {reaper : SourceReaper}
    (due : w.reaper.checkOut = some (attempt, reaper)) :
    w.waiting = attempt :: ({ w with reaper } : NativeWorkspace).waiting ∧
      attempt.attempts < w.reaper.maxAttempts ∧ reaper.maxAttempts = w.reaper.maxAttempts := by
  unfold SourceReaper.checkOut at due
  split at due
  · cases due
  rename_i oldest rest queued
  split at due
  · cases due
  rename_i left
  obtain ⟨rfl, rfl⟩ := Prod.mk.inj (Option.some.inj due)
  refine ⟨?_, not_le.mp left, rfl⟩
  rw [NativeWorkspace.waiting, queued]
  rfl

/-- A source that is due is out of the queue. -/
def Due (torn : Prop) : Option DeleteAttempt → Coordinator → Prop
  | none => Reaps torn (Paced [])
  | some attempt => Reaps torn (Checked attempt)

instance (due : Option DeleteAttempt) : deletions.Steady (Due torn due) := by
  cases due <;> unfold Due <;> infer_instance

/-- A source whose deletion was refused is still out of the queue. -/
def Submitted (torn : Prop) (attempt : DeleteAttempt) : Except ProjectionError Unit → Coordinator → Prop
  | .ok _ => Reaps torn (Paced [])
  | .error _ => Reaps torn (Checked attempt)

instance (attempt : DeleteAttempt) (result : Except ProjectionError Unit) :
    deletions.Steady (Submitted torn attempt result) := by
  cases result <;> unfold Submitted <;> infer_instance

theorem startDelete_rounds :
    Along deletions A (Reaps torn (Paced [])) startDelete (fun _ => A) fun _ => Reaps torn (Paced []) := by
  refine Along.bind (G := Due torn)
    (Along.lock checkOut_spec fun c _ _ sound reaps _ => ?_) fun due => ?_
  · split
    · exact ⟨sound, id, reaps⟩
    rename_i attempt reaper due
    obtain ⟨waiting, left, most⟩ := checkOut_waiting due
    have became : ({ c with
        workspace := { c.workspace with reaper }
        storage := c.storage.hold (.delete attempt.source.disk) } : Coordinator).reaping =
        { c.reaping with waiting := ({ c.workspace with reaper } : NativeWorkspace).waiting } := by
      simp only [reaping, most]
      rfl
    exact ⟨sound_of_became became { sound with }, id,
      reaps.step became rfl fun paced => paced.checkOut waiting left⟩
  · cases due with
    | none => exact Along.pure fun _ core reaps => ⟨core, reaps⟩
    | some attempt =>
      refine Along.bind (G := Submitted torn attempt)
        (Along.input.bind fun a => Along.lock ((submit_aside (.delete attempt none)
          ⟨rfl, rfl⟩).of_input a) fun c _ _ sound reaps _ => ?_) fun result => ?_
      · split
        · exact ⟨sound, id, reaps⟩
        rename_i busy
        have vacant : c.reaping.deletion = none := by
          have vacant : c.workspace.io = none := by simpa using busy
          rw [reaping, vacant]
          rfl
        split
        · exact ⟨sound.submit attempt, id, reaps.step rfl rfl fun checked => checked.submit vacant⟩
        · exact ⟨sound, id, reaps⟩
      · cases result with
        | ok _ => exact Along.pure fun _ core reaps => ⟨core, reaps⟩
        | error error =>
          refine Along.bind (B := fun _ => A) (G := fun _ => Reaps torn (Paced []))
            (Along.update (F := Reaps torn (Checked attempt)) (Spec.asideUpdate fun _ => rfl)
              fun c _ _ sound reaps _ => ?_) fun _ => Along.pure fun _ core reaps => ⟨core, reaps⟩
          exact ⟨{ sound with }, id, reaps.step rfl rfl fun checked => checked.putBack⟩

/-- A job that has ended is in the worker's hand, and so is the source it deleted. -/
def Received (torn : Prop) : Option FinishedIo → Coordinator → Prop
  | some (.delete attempt result) => Reaps torn fun v =>
      Returned attempt v ∧ (result = .ok () → Gone attempt.source.disk.id v)
  | some (.commit _ _ _) | some (.restore _) | some (.transfer _ _) | none => Reaps torn (Paced [])

instance (finished : Option FinishedIo) : deletions.Steady (Received torn finished) := by
  rcases finished with _ | (_ | _ | _ | _) <;> unfold Received <;> infer_instance

theorem takeFinished_rounds :
    Along deletions Idle (Reaps torn (Paced [])) takeFinished Finishing
      (Received torn) := by
  refine Along.lock takeFinished_spec fun c _ _ sound reaps _ => ?_
  split
  · exact ⟨sound, id, reaps⟩
  rename_i finished ended
  obtain ⟨job, busy, done⟩ := Option.bind_eq_some_iff.mp ended
  have inert : job.deletion? = none → Routine c { c with
      workspace := { c.workspace with io := none }, storage := c.storage.take finished } := by
    refine fun other => ⟨?_, id⟩
    simp only [reaping, busy, Option.bind_some, other]
    cases finished <;> rfl
  cases job with
  | commit _ _ _ mailbox | restore _ mailbox | transfer _ _ mailbox =>
    cases mailbox with
    | none => cases done
    | some result =>
      obtain rfl := Option.some.inj done
      exact ⟨(inert rfl).sound sound, id, reaps.of_same (inert rfl).reaping⟩
  | delete attempt mailbox =>
    cases mailbox with
    | none => cases done
    | some result =>
      obtain rfl := Option.some.inj done
      have flying : c.reaping.deletion = some (attempt, some result) := by
        rw [reaping, busy]
        rfl
      refine ⟨sound.vacate, id, reaps.step rfl rfl fun paced => ⟨paced.take flying, ?_⟩⟩
      rintro rfl
      exact sound.published attempt flying

theorem settleDelete_rounds (attempt : DeleteAttempt) (result : Except ProjectionError Unit) :
    Along deletions A (Received torn (some (.delete attempt result))) (settleDelete attempt result)
      (fun _ => A) fun failed => match failed with
        | none => Reaps torn (Paced [])
        | some _ => Reaps torn Failing := by
  cases result with
  | ok _ =>
    refine ((Along.aside (F := Reaps torn (Paced [])) (releaseDisk_spec _)
      (releaseDisk_routine _)).strengthen fun _ core received => ⟨core, ?_⟩).bind fun _ =>
        Along.pure fun _ core reaps => ⟨core, reaps⟩
    exact Reaps.imp received fun returned => returned.1.deleted (returned.2 rfl)
  | error error =>
    refine Along.lock (Spec.aside fun _ => rfl) fun c _ _ sound received _ => ?_
    have next : min (attempt.attempts + 1) (2 ^ 32 - 1) ≤ attempt.attempts + 1 := min_le_left _ _
    refine ⟨sound.retry _ _, fun abandoned => ?_, ?_⟩
    · unfold RoundLog.fail
      split <;> exact abandoned
    have same : (c.rounds.fail attempt.source.disk).abandoned = c.rounds.abandoned := by
      unfold RoundLog.fail
      split <;> rfl
    simp only [SourceReaper.finishDelete]
    split
    · rename_i spent
      exact Reaps.step received rfl same fun returned => returned.1.exhausted next spent
    · exact Reaps.step received rfl same fun returned => returned.1.retry next

end Deletion

theorem applyDelete_rounds (attempt : DeleteAttempt) (result : Except ProjectionError Unit) :
    Along deletions Idle (Received torn (some (.delete attempt result))) (applyDelete attempt result)
      (fun _ => Idle) fun _ => Reaps torn (Paced []) := by
  apply (settleDelete_rounds attempt result).bind
  intro failed
  cases failed with
  | none => exact Along.pure fun _ core reaps => ⟨core, reaps⟩
  | some error =>
    refine Along.lock (F := Reaps torn Failing) (maintenanceFailed_spec error) fun c _ _ sound reaps _ => ?_
    refine ⟨sound.record (reaps.imp fun failing => failing.paced.alive) error, id, ?_⟩
    exact reaps.step rfl rfl fun failing => failing.record error

theorem commitPark_routine (c : Coordinator) (attempt : ParkAttempt) :
    Routine c { c with admission := (c.admission.commitPark attempt).2 } :=
  .of_policy (.commitPark attempt c.admission.queue.isEmpty) (nomatch ·) rfl rfl rfl

/-- A superseded source falls due before one that is held to be read back. -/
theorem retireSource_rounds {A : Core → Prop} [Core.Steady A] (source : CommittedSource) :
    Along deletions A (Reaps torn (Paced [])) (retireSource source) (fun _ => A)
      fun _ => Reaps torn (Paced []) := by
  refine Along.update (Spec.asideUpdate fun _ => rfl) fun c _ _ sound reaps _ => ?_
  refine ⟨sound.hold (Paced.running reaps) _ source.disk, id, reaps.step rfl rfl fun paced =>
    paced.hold source rfl (fun other member => ?_) (List.append_assoc _ [_] _)⟩
  obtain ⟨held, -, rfl⟩ := List.mem_map.mp member
  rfl

theorem finishCommit_rounds (attempt : ParkAttempt) (disk : DiskLease) (reference : CheckpointRef) :
    Along deletions (Landed attempt) (Reaps torn (Paced [])) (finishCommit attempt disk reference)
      (fun _ => Idle) fun _ => Reaps torn (Paced []) := by
  refine Along.bind (B := fun (compatibility : String) k =>
    Landed attempt k ∧ CompatibilityIs compatibility k)
    (Along.aside (Spec.look fun c _ holds => ⟨holds, rfl⟩) Completing.look_each (R := Routine))
    fun compatibility => ?_
  refine Along.bind (G := fun (release : Bool) c =>
    Reaps torn (Paced []) c ∧ (release = true → Sourceless c))
    (Along.lock (commitPark_spec attempt compatibility) fun c _ landed sound reaps _ => ?_)
    fun release => ?_
  · have routine := commitPark_routine c attempt
    exact ⟨routine.sound sound, id, reaps.of_same routine.reaping, sourceless_of_release landed.1⟩
  cases release with
  | false =>
    exact (retireSource_rounds (A := Idle) _).strengthen fun _ core holds => ⟨core, holds.1⟩
  | true =>
    refine Along.update (A := Released (attempt.descriptor compatibility))
      (F := fun c => Reaps torn (Paced []) c ∧ (true = true → Sourceless c))
      (Spec.update fun c valid released => drop_kept valid released) fun c _ _ sound holds _ => ?_
    have none : c.workspace.source = none := holds.2 rfl
    have queued : c.reaping.waiting = c.workspace.reaper.queue ++ [] := by
      simp only [reaping, NativeWorkspace.waiting, none]
      rfl
    exact ⟨sound.hold (Paced.running holds.1) _ disk, id, holds.1.step rfl rfl fun paced =>
      paced.hold { reference, descriptor := attempt.descriptor compatibility, disk } queued
        (fun _ wrong => (nomatch wrong)) rfl⟩

theorem parkOutcomeUncertain_rounds (attempt : ParkAttempt) (disk : DiskLease)
    (error : ProjectionError) (now : Nat) :
    Along deletions (Landed attempt) (Reaps torn (Paced [])) (parkOutcomeUncertain disk error now)
      (fun _ => Idle) fun _ => Reaps torn (Paced []) := by
  refine Along.update (uncertainPark_spec attempt disk error now) fun c _ _ sound reaps _ => ?_
  have became : ({ c with
      admission := c.admission.parkOutcomeUncertain error now
      rounds := c.rounds.doubt disk } : Coordinator).reaping =
      { c.reaping with unconfirmed := some error, log := c.rounds.doubt disk } := by
    have closed := (parkFailed_routine c error now).reaping
    have closed := congrArg Reaping.closed closed
    simp only [reaping] at closed ⊢
    rw [← closed]
    rfl
  exact ⟨sound_of_became became (sound.doubt (Paced.running reaps) error disk), id,
    reaps.step became rfl fun paced => { paced with }⟩

theorem applyCommit_rounds (attempt : ParkAttempt) (disk : DiskLease)
    (result : Except ProjectionError CommitOutcome) :
    Along deletions (Landed attempt) (Reaps torn (Paced [])) (applyCommit attempt disk result)
      (fun _ => Idle) fun _ => Reaps torn (Paced []) := by
  have recorded : Along deletions (Landed attempt) (Reaps torn (Paced []))
      (recordUnreclaimed (.fromUncertainPark · attempt disk)) (fun _ => Landed attempt)
      fun _ => Reaps torn (Paced []) :=
    Along.aside (recordUnreclaimed_spec _) (Upholds.update (P := Routine) fun _ => ⟨rfl, id⟩)
  unfold applyCommit
  cases commitOutcome result with
  | published reference => exact finishCommit_rounds attempt disk reference
  | uncertain error =>
    exact recorded.bind fun _ => Along.input.bind fun a =>
      parkOutcomeUncertain_rounds attempt disk error a.now
  | rejected error =>
    exact Along.input.bind fun a => (Along.aside (rejectPark_spec attempt error a.now)
      (locked_each fun c => parkFailed_routine c error a.now)).bind fun _ =>
        Along.aside (releaseDisk_spec disk) (releaseDisk_routine disk)

theorem applyFinished_rounds (closing : Bool) (finished : FinishedIo) :
    Along deletions (fun k => Finishing (some finished) k ∧ (closing = true → k.Down))
      (Received torn (some finished)) (applyFinished closing finished) (fun _ => Idle)
      fun _ => Reaps torn (Paced []) := by
  cases finished with
  | commit attempt disk result =>
    exact (applyCommit_rounds attempt disk result).strengthen fun _ core reaps => ⟨core.1, reaps⟩
  | restore result =>
    cases closing with
    | true => exact Along.pure fun _ core reaps => ⟨core.1.clear.idle_of_down (core.2 rfl), reaps⟩
    | false =>
      exact (Along.aside (F := Reaps torn (Paced [])) (applyRestore_spec result)
        (applyRestore_routine result)).strengthen fun _ core reaps => ⟨core.1, reaps⟩
  | transfer request result =>
    exact (Along.aside (F := Reaps torn (Paced [])) (R := Routine)
      (completeRequest_spec (A := Idle) request _) (Observing.completeRequest_each _ _)).strengthen
      fun _ core reaps => ⟨core.1, reaps⟩
  | delete attempt result =>
    exact (applyDelete_rounds attempt result).strengthen fun _ core reaps => ⟨core.1, reaps⟩

theorem finishIo_rounds :
    Along deletions Idle (Reaps torn (Paced [])) finishIo (fun _ => Idle) fun _ => Reaps torn (Paced []) := by
  apply (Along.aside services_spec Completing.look_each (R := Routine)).bind
  intro available
  split
  · apply takeFinished_rounds.bind
    intro finished
    cases finished with
    | none => exact Along.pure fun _ core reaps => ⟨core, reaps⟩
    | some finished =>
      refine Along.bind (B := fun (now : ProjectionStatus) k => Finishing (some finished) k ∧
        (now.residency.isClosing = true → k.Down)) (Along.aside (R := Routine)
        (Spec.look fun c _ holds => ⟨holds, .inr⟩) Completing.look_each)
        fun now => applyFinished_rounds now.residency.isClosing finished
  · exact Along.pure fun _ core reaps => ⟨core, reaps⟩

end Coordinator
end PtyRuntime
