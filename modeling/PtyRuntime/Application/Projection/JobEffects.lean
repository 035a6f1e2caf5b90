import PtyRuntime.Application.Projection.Effects
import PtyRuntime.Domain.Projection.PolicyLaws

/-! What the steps of the blocking-I/O lifecycle can do: jobs, reservations, parking,
reading a source back and reaping. A relation that allows these effects holds of every
step of a program that takes no command and does not end the projection. -/
namespace PtyRuntime
open Thread

/-- The calls that move a projection between its residencies without ending it, with
the two that put an error of maintenance on record. -/
def ProjectionPolicy.Call.parks : ProjectionPolicy.Call → Bool
  | .beginPark _ | .commitPark _ _ | .parkFailed _ _ | .beginRestore | .restorationProgress _
  | .maintenanceFailed _ => true
  | _ => false

theorem ProjectionPolicy.parks_open {call : ProjectionPolicy.Call} (parks : call.parks = true) :
    call ≠ .close ∧ call ≠ .markClosed :=
  ⟨fun close => by simp [close, ProjectionPolicy.Call.parks] at parks,
    fun closed => by simp [closed, ProjectionPolicy.Call.parks] at parks⟩

/-- The job reads a source back for a transfer. -/
def PendingIo.reads : PendingIo → Bool
  | .transfer _ _ _ => true
  | _ => false

namespace Coordinator

variable {W R : Coordinator → Coordinator → Prop}

/-- What a step that neither restores a model nor reads a source back does to the
workspace: the model stays or goes, and so does the job in flight, unless another starts. -/
structure Shelved (w : NativeWorkspace) (terminal : Option Terminal) (io : Option PendingIo) : Prop where
  terminal : terminal = w.terminal ∨ terminal = none
  io : io = w.io ∨ io = none ∨ ∃ job, io = some job ∧ job.reads = false

theorem Shelved.same (w : NativeWorkspace) : Shelved w w.terminal w.io := ⟨.inl rfl, .inl rfl⟩

/-- The effects of moving between residencies and of releasing the wiring. -/
class Residing (W : outParam (Coordinator → Coordinator → Prop)) (R : Coordinator → Coordinator → Prop) :
    Prop extends Bystanding W R where
  encoded : ∀ c encoded, R c { c with trace := { c.trace with encoded } }
  park : ∀ c call since cleanupFailure unreclaimedFailure rounds, call.parks = true → R c { c with
    admission := { c.admission with
      policy := (c.admission.policy.step call).2, cleanupFailure, unreclaimedFailure }
    trace := { c.trace with since }
    rounds }
  retry : ∀ c retryCleanup rounds, R c { c with admission := { c.admission with retryCleanup }, rounds }
  wire : ∀ c wiring, R c { c with wiring }

/-- The effects of the blocking-I/O lifecycle, but for those of reading a source back. -/
class Shelving (W : outParam (Coordinator → Coordinator → Prop)) (R : Coordinator → Coordinator → Prop) :
    Prop extends Residing W R where
  shelve : ∀ c terminal historyStepOwed source io reaper disk storage rounds unreclaimed,
    Shelved c.workspace terminal io → R c { c with
      workspace := { c.workspace with terminal, historyStepOwed, source, io, reaper }
      disk, storage, rounds, unreclaimed }

/-- The effects of the blocking-I/O lifecycle and of operating the native model. -/
class Storing (W : outParam (Coordinator → Coordinator → Prop)) (R : Coordinator → Coordinator → Prop) :
    Prop extends Operating W R, Residing W R where
  move : ∀ c terminal historyStepOwed source io reaper disk storage rounds unreclaimed, R c { c with
    workspace := { c.workspace with terminal, historyStepOwed, source, io, reaper }
    disk, storage, rounds, unreclaimed }

instance [Storing W R] : Shelving W R where
  shelve c _ _ _ _ _ _ _ _ _ _ := Storing.move c _ _ _ _ _ _ _ _ _

/-- Submitting a job, where the step that records it is allowed. -/
theorem submit_of_step {job : PendingIo} (refl : ∀ c, R c c) (step : ∀ (c : Coordinator) storage rounds,
    R c { c with workspace := { c.workspace with io := some job }, storage, rounds }) :
    (submit job).Upholds W R := by
  refine Upholds.input.bind fun a => Upholds.lock fun c => ?_
  split
  · exact refl c
  · split
    · exact step c _ _
    · exact refl c

open Completing Bystanding Residing

namespace Shelving

variable [Shelving W R]

theorem submit_each {job : PendingIo} (kind : job.reads = false) : (submit job).Upholds W R :=
  submit_of_step refl fun c storage rounds =>
    shelve c _ _ _ _ _ _ storage rounds _ ⟨.inl rfl, .inr (.inr ⟨job, rfl, kind⟩)⟩

theorem acquireDisk_each : acquireDisk.Upholds W R := by
  refine Upholds.input.bind fun a => Upholds.bind (Upholds.lock fun c => ?_) fun slot => ?_
  · split
    · exact shelve c _ _ _ _ _ _ _ _ _ (.same _)
    · exact refl c
  cases slot with
  | false => exact Upholds.pure _
  | true =>
    refine Upholds.bind (Upholds.lock fun c => ?_) fun disk => ?_
    · split
      · exact refl c
      · exact shelve c _ _ _ _ _ _ _ _ _ (.same _)
    cases disk with
    | some disk => exact Upholds.pure _
    | none => exact (Upholds.update fun c => shelve c _ _ _ _ _ _ _ _ _ (.same _)).bind fun _ => Upholds.pure _

theorem releaseDisk_each (disk : DiskLease) : (releaseDisk disk).Upholds W R :=
  (Upholds.update fun c => shelve c _ _ _ _ _ _ _ _ _ (.same _)).bind fun _ =>
    Upholds.update fun c => shelve c _ _ _ _ _ _ _ _ _ (.same _)

theorem startDelete_each : startDelete.Upholds W R := by
  refine Upholds.bind (Upholds.lock fun c => ?_) fun due => ?_
  · split
    · exact refl c
    · exact shelve c _ _ _ _ _ _ _ _ _ (.same _)
  cases due with
  | none => exact Upholds.pure _
  | some attempt =>
    refine (submit_each rfl).bind fun result => ?_
    cases result with
    | ok _ => exact Upholds.pure _
    | error error => exact (Upholds.update fun c => shelve c _ _ _ _ _ _ _ _ _ (.same _)).bind fun _ => Upholds.pure _

theorem workWhileFailed_each : workWhileFailed.Upholds W R := by
  apply look_each.bind
  intro due
  split
  · exact startDelete_each
  · exact Upholds.pure _

theorem maintain_each : maintain.Upholds W R := by
  apply look_each.bind
  intro due
  split
  · exact startDelete_each.bind fun _ => Upholds.pure _
  · exact Upholds.pure _

theorem readForRestore_each (source : CommittedSource) : (readForRestore source).Upholds W R := by
  refine Upholds.input.bind fun resident => ?_
  split
  · refine (submit_each rfl).bind fun result => ?_
    cases result with
    | error error => exact Upholds.pure _
    | ok _ =>
      refine (locked_each fun c => park c .beginRestore _ _ _ _ rfl).bind fun begun => ?_
      cases begun with
      | error error => exact (fails error).bind fun _ => Upholds.pure _
      | ok _ => exact Upholds.pure _
  · exact Upholds.pure _

theorem retireSource_frame (w : NativeWorkspace) :
    ∃ source reaper, w.retireSource = { w with source, reaper } := by
  unfold NativeWorkspace.retireSource
  split <;> exact ⟨_, _, rfl⟩

theorem retireRestored_each : retireRestored.Upholds W R := by
  refine Upholds.update fun c => ?_
  obtain ⟨source, reaper, became⟩ := retireSource_frame c.workspace
  simp only [became]
  exact shelve c _ _ _ _ _ _ _ _ _ (.same _)

theorem historyProgress_each (progress : RestorationProgress) : (historyProgress progress).Upholds W R := by
  refine (locked_each fun c => park c (.restorationProgress progress) _ _ _ _ rfl).bind fun result => ?_
  cases result with
  | error error => exact fails error
  | ok _ =>
    dsimp only
    split
    · exact retireRestored_each
    · exact Upholds.pure _

theorem stepHistory_each : stepHistory.Upholds W R := by
  apply look_each.bind
  intro present
  split
  · refine (nativeCall_each _).bind fun result =>
      (Upholds.update fun c => shelve c _ _ _ _ _ _ _ _ _ (.same _)).bind fun _ => ?_
    cases result with
    | ok progress => exact (historyProgress_each progress).bind fun _ => Upholds.pure _
    | error error => exact (fails error).bind fun _ => Upholds.pure _
  · exact Upholds.pure _

theorem encodePark_each : encodePark.Upholds W R := by
  apply Upholds.input.bind
  intro memory
  split
  · apply acquireDisk_each.bind
    intro disk
    cases disk with
    | none => exact Upholds.pure _
    | some disk =>
      refine look_each.bind fun version => (encode_each version).bind fun result =>
        (Upholds.update fun c => encoded c _).bind fun _ => ?_
      cases result with
      | error error => exact (releaseDisk_each disk).bind fun _ => Upholds.pure _
      | ok checkpoint => exact Upholds.pure _
  · exact Upholds.pure _

theorem parkFailed_each (error : ProjectionError) : (parkFailed error).Upholds W R :=
  Upholds.input.bind fun a => (locked_each fun c => park c (.parkFailed error a.now) _ _ _ _ rfl).bind
    fun _ => look_each

theorem submitPark_each (attempt : ParkAttempt) (checkpoint : TerminalCheckpoint) (disk : DiskLease) :
    (submitPark attempt checkpoint disk).Upholds W R := by
  refine (submit_each rfl).bind fun result => ?_
  cases result with
  | ok _ => exact Upholds.pure _
  | error error =>
    exact (parkFailed_each error).bind fun _ => (releaseDisk_each disk).bind fun _ => Upholds.pure _

theorem beginPark_each (now : Nat) : (beginPark now).Upholds W R := by
  refine Upholds.lock fun c => ?_
  unfold Admission.beginPark
  by_cases waiting : c.admission.queue ≠ []
  · rw [if_pos waiting]
    exact refl c
  · rw [if_neg waiting]
    have step := fun since => park (R := R) c (.beginPark now) since c.admission.cleanupFailure
      c.admission.unreclaimedFailure c.rounds rfl
    rcases begun : c.admission.policy.beginPark now with ⟨_ | attempt, policy⟩
    · simp only [ProjectionPolicy.step, begun] at step
      exact step c.trace.since
    · simp only [ProjectionPolicy.step, begun] at step
      exact step 0

theorem startPark_each : startPark.Upholds W R := by
  apply look_each.bind
  intro available
  split
  · refine Upholds.input.bind fun a => (beginPark_each a.now).bind fun start => ?_
    cases start with
    | busy => exact Upholds.pure _
    | notDue => exact Upholds.pure _
    | ready attempt =>
      refine encodePark_each.bind fun result => ?_
      cases result with
      | error error => exact parkFailed_each error
      | ok parts => exact submitPark_each attempt parts.1 parts.2
  · exact Upholds.pure _

theorem considerPark_each : considerPark.Upholds W R := by
  refine Upholds.input.bind fun a => look_each.bind fun delay => ?_
  cases delay with
  | none => exact Upholds.pure _
  | some delay =>
    dsimp only
    split
    · exact startPark_each
    · exact Upholds.pure _

theorem serveIdle_each (maintenance : Option WorkSchedule) : (serveIdle maintenance).Upholds W R := by
  cases maintenance with
  | some schedule => exact Upholds.pure _
  | none =>
    refine look_each.bind fun busy => look_each.bind fun holding => ?_
    split
    · exact Upholds.pure _
    · split
      · exact startDelete_each
      · exact considerPark_each

theorem takeFinished_each : takeFinished.Upholds W R := by
  refine Upholds.lock fun c => ?_
  split
  · exact refl c
  · exact shelve c _ _ _ _ _ _ _ _ _ ⟨.inl rfl, .inr (.inl rfl)⟩

theorem recordUnreclaimed_each (source : String → UnreclaimedSource) :
    (recordUnreclaimed source).Upholds W R := Upholds.update fun c => shelve c _ _ _ _ _ _ _ _ _ (.same _)

theorem applyCommit_each (attempt : ParkAttempt) (disk : DiskLease)
    (result : Except ProjectionError CommitOutcome) : (applyCommit attempt disk result).Upholds W R := by
  unfold applyCommit
  cases commitOutcome result with
  | published reference =>
    refine look_each.bind fun compatibility => (locked_each fun c =>
      park c (.commitPark attempt c.admission.queue.isEmpty) _ _ _ _ rfl).bind fun release => ?_
    split
    · exact Upholds.update fun c => shelve c _ _ _ _ _ _ _ _ _ ⟨.inr rfl, .inl rfl⟩
    · exact Upholds.update fun c => shelve c _ _ _ _ _ _ _ _ _ (.same _)
  | uncertain error =>
    exact (recordUnreclaimed_each _).bind fun _ => Upholds.input.bind fun a =>
      Upholds.update fun c => park c (.parkFailed error a.now) _ _ _ _ rfl
  | rejected error =>
    exact Upholds.input.bind fun a => (locked_each fun c =>
      park c (.parkFailed error a.now) _ _ _ _ rfl).bind fun _ => releaseDisk_each disk

theorem applyDelete_each (attempt : DeleteAttempt) (result : Except ProjectionError Unit) :
    (applyDelete attempt result).Upholds W R := by
  refine Upholds.bind ?_ fun failed => ?_
  · cases result with
    | ok _ => exact (releaseDisk_each _).bind fun _ => Upholds.pure _
    | error error => exact Upholds.lock fun c => shelve c _ _ _ _ _ _ _ _ _ (.same _)
  · cases failed with
    | none => exact Upholds.pure _
    | some error => exact locked_each fun c => park c (.maintenanceFailed error) _ _ _ _ rfl

theorem takeProcess_each : takeProcess.Upholds W R := Upholds.update fun c => wire c _

theorem releaseWiring_each : releaseWiring.Upholds W R :=
  (Upholds.update fun c => wire c _).bind fun _ => Upholds.update fun c => wire c _

theorem takeCleanupRetry_each : takeCleanupRetry.Upholds W R := Upholds.lock fun c => retry c _ _

theorem retryDeletions_each (owed : Bool) : (retryDeletions owed).Upholds W R := by
  unfold retryDeletions
  split
  · exact Upholds.update fun c => shelve c _ _ _ _ _ _ _ _ _ (.same _)
  · exact Upholds.pure _

theorem reapForClose_each (failed : Option ProjectionError) : (reapForClose failed).Upholds W R := by
  apply look_each.bind
  intro holding
  split
  · cases failed with
    | some error => exact (Upholds.update fun c => shelve c _ _ _ _ _ _ _ _ _ (.same _)).bind fun _ => Upholds.pure _
    | none => exact startDelete_each.bind fun _ => Upholds.pure _
  · exact Upholds.pure _

theorem abandonIo_each : abandonIo.Upholds W R := by
  refine Upholds.bind (Upholds.lock fun c => shelve c _ _ _ _ _ _ _ _ _ ⟨.inl rfl, .inr (.inl rfl)⟩) fun pending => ?_
  rcases pending with _ | (_ | _ | _ | _)
  · exact Upholds.pure _
  · exact recordUnreclaimed_each _
  · exact Upholds.pure _
  · exact failRequest_each _ _
  · exact recordUnreclaimed_each _

end Shelving

namespace Storing

open Shelving

variable [Storing W R]

theorem readForTransfer_each (source : CommittedSource) (request : SnapshotRequest) :
    (readForTransfer source request).Upholds W R := by
  refine (submit_of_step Completing.refl fun c _ _ => move c _ _ _ _ _ _ _ _ _).bind fun result => ?_
  cases result with
  | ok _ => exact Upholds.pure _
  | error error => exact (failRequest_each _ _).bind fun _ => Upholds.pure _

theorem startRead_each (transfer : Option Command) : (startRead transfer).Upholds W R := by
  apply look_each.bind
  intro available
  split
  · apply look_each.bind
    intro source
    cases source with
    | none => exact (fails _).bind fun _ => Upholds.pure _
    | some source =>
      apply Upholds.input.bind
      intro memory
      split
      · exact readForTransfer_each source _
      · exact readForRestore_each source
      · exact (failCommand_each _ _).bind fun _ => Upholds.pure _
      · exact Upholds.pure _
  · exact Upholds.pure _

theorem applyRestore_each (result : Except ProjectionError TerminalCheckpoint) :
    (applyRestore result).Upholds W R := by
  cases result with
  | error error => exact fails error
  | ok checkpoint =>
    apply (nativeCall_each _).bind
    intro restored
    cases restored with
    | error error => exact fails error
    | ok terminal =>
      apply (nativeCall_each _).bind
      intro progress
      cases progress with
      | error error => exact Upholds.pure _
      | ok progress =>
        exact (Upholds.update fun c => move c _ _ _ _ _ _ _ _ _).bind fun _ => historyProgress_each progress

theorem applyFinished_each (closing : Bool) (finished : FinishedIo) :
    (applyFinished closing finished).Upholds W R := by
  cases finished with
  | commit attempt disk result => exact applyCommit_each attempt disk result
  | restore result =>
    cases closing with
    | true => exact Upholds.pure _
    | false => exact applyRestore_each result
  | transfer request result => exact Observing.completeRequest_each _ _
  | delete attempt result => exact applyDelete_each attempt result

theorem finishIo_each : finishIo.Upholds W R := by
  apply look_each.bind
  intro available
  split
  · apply takeFinished_each.bind
    intro finished
    cases finished with
    | none => exact Upholds.pure _
    | some finished => exact look_each.bind fun now => applyFinished_each _ finished
  · exact Upholds.pure _

theorem abandonSources_each : abandonSources.Upholds W R := by
  refine retireRestored_each.bind fun _ => (Upholds.update fun c => move c _ _ _ _ _ _ _ _ _).bind
    fun _ => Operating.discardOperations_each.bind fun _ => ?_
  exact Upholds.update fun c => move c _ _ _ _ _ _ _ _ _

end Storing
end Coordinator
end PtyRuntime
