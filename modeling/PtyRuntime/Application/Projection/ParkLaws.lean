import PtyRuntime.Application.Projection.CommandLaws

/-! Parking keeps the worker's promises: the live model is given up only for a
committed source of the exact current version. -/
namespace PtyRuntime
open Thread PtyRuntime.Core

namespace Core

/-- The decision to park has been made; the live model is still to be dropped. -/
structure Released (version : CheckpointDescriptor) (k : Core) : Prop where
  clear : Clear k
  parked : (k.residency = .parked ∧ k.restore = false) ∨ k.Down
  current : version = k.descriptor
  encoded : k.trace.encoded = some version
  quiet : k.reply = false ∧ k.resize = false

instance (version : CheckpointDescriptor) : Steady (Released version) where
  keep {k k'} beside released := by
    obtain ⟨-, -, -, restore, reply, resize, -⟩ := beside.workspace
    refine ⟨Steady.keep beside released.clear, ?_, ?_, beside.trace.2.2.2.2.trans released.encoded,
      reply.trans released.quiet.1, resize.trans released.quiet.2⟩
    · rcases released.parked with ⟨parked, free⟩ | down
      · exact beside.residency.imp (fun same => ⟨same.trans parked, restore.trans free⟩) id
      · exact .inr (beside.down down)
    · rw [released.current, descriptor, descriptor, beside.version.1, beside.version.2,
        beside.fixed.2.2]

/-- The attempt captured the current version, which only the worker can move. -/
def Captured (attempt : ParkAttempt) (k : Core) : Prop :=
  attempt.descriptor k.compatibility = k.descriptor

instance (attempt : ParkAttempt) : Steady (Captured attempt) where
  keep {k k'} beside captured := by
    unfold Captured at captured ⊢
    rw [beside.fixed.2.2, captured, descriptor, descriptor, beside.version.1, beside.version.2,
      beside.fixed.2.2]

/-- The checkpoint was encoded at the attempt's version. -/
def EncodedAt (attempt : ParkAttempt) (k : Core) : Prop :=
  k.trace.encoded = some (attempt.descriptor k.compatibility)

instance (attempt : ParkAttempt) : Steady (EncodedAt attempt) where
  keep beside encoded := by
    unfold EncodedAt at encoded ⊢
    rw [beside.trace.2.2.2.2, beside.fixed.2.2, encoded]

def VersionIs (version : CheckpointDescriptor) (k : Core) : Prop := k.descriptor = version

instance (version : CheckpointDescriptor) : Steady (VersionIs version) where
  keep {k k'} beside current := by
    unfold VersionIs at current ⊢
    rw [← current, descriptor, descriptor, beside.version.1, beside.version.2, beside.fixed.2.2]

def CompatibilityIs (compatibility : String) (k : Core) : Prop := k.compatibility = compatibility

instance (compatibility : String) : Steady (CompatibilityIs compatibility) where
  keep beside := beside.fixed.2.2.trans

end Core

namespace Coordinator

/-- Leaving the parking state without parking keeps the live model. -/
theorem unpark_kept {k : Core} (valid : Valid k) (idle : Idle k) (parking : k.residency = .parking)
    {policy : ProjectionPolicy} (resident : policy.status.residency = .resident)
    (positions : policy.status.published = k.policy.status.published ∧
      policy.status.processed = k.policy.status.processed ∧
      policy.status.controlGeneration = k.policy.status.controlGeneration)
    (activity : policy.activity = k.policy.activity)
    (failure : policy.status.failure = k.policy.status.failure) :
    Valid { k with policy } ∧ Owes k { k with policy } ∧ Idle { k with policy } := by
  have alive : ¬k.Down := not_down_of parking (by decide)
  have ended : k.closing = false := closing_of parking rfl
  have after : ({ k with policy } : Core).residency = .resident := resident
  refine ⟨valid.of_policy positions activity ?_ fun wrong => ?_,
    .of_trace rfl positions.1 (fun wrong => ?_) rfl (fun _ wrong => ?_) fun failed => ?_, ?_⟩
  · rw [resident, ended]
    rfl
  · rw [resident] at wrong
    cases wrong
  · rw [ended] at wrong
    cases wrong
  · rw [after] at wrong
    cases wrong
  · change policy.status.failure.isSome
    rw [failure]
    exact failed
  · obtain ⟨terminal, source⟩ := idle.shape.live (.inr parking)
    have free : k.restore = false := idle.shape.unrestored alive (by rw [parking]; decide)
    exact Clear.idle (Clear.of_policy idle.clear rfl fun down => absurd down alive)
      (.of_resident (.inl after) terminal source free)

/-- A failed parking attempt keeps the live model. -/
theorem parkFailed_kept {k : Core} (valid : Valid k) (idle : Idle k) (error : ProjectionError)
    (now : Nat) :
    Valid { k with policy := k.policy.parkFailed error now } ∧
      Owes k { k with policy := k.policy.parkFailed error now } ∧
      Idle { k with policy := k.policy.parkFailed error now } := by
  rcases k.policy.parkFailed_cases error now with ⟨parking, left⟩ | ⟨parking, noted⟩
  · rw [left]
    exact unpark_kept valid idle parking rfl ⟨rfl, rfl, rfl⟩ rfl rfl
  · rw [noted]
    exact ⟨valid.of_policy ⟨rfl, rfl, rfl⟩ rfl rfl valid.failed,
      .of_trace rfl rfl id rfl (fun before => absurd before parking) id,
      Clear.idle (Clear.of_policy idle.clear rfl id) (idle.shape.of_status rfl rfl rfl)⟩

theorem parkFailed_spec (error : ProjectionError) : Spec Idle (parkFailed error) fun _ => Idle := by
  refine Spec.input.bind fun a => Spec.bind (B := fun _ => Idle) (Spec.lock fun c valid idle => ?_)
    fun _ => Spec.glance
  exact parkFailed_kept valid idle error a.now

/-- A parking attempt between its beginning and its submission. -/
def Attempting (attempt : ParkAttempt) (k : Core) : Prop :=
  (Idle k ∧ IoFree k) ∧ Attempted attempt k ∧ Captured attempt k

instance (attempt : ParkAttempt) : Steady (Attempting attempt) :=
  inferInstanceAs (Steady fun k => (Idle k ∧ IoFree k) ∧ Attempted attempt k ∧ Captured attempt k)

theorem admission_beginPark_cases (a : Admission) (now : Nat) :
    a.beginPark now = (.busy, a) ∨ a.beginPark now = (.notDue, a) ∨
      (a.queue = [] ∧ a.status.residency = .resident ∧ a.status.published = a.status.processed ∧
        a.beginPark now =
          (.ready {
            generation := a.policy.operation + 1
            activity := a.policy.activity
            processed := a.status.processed
            controlGeneration := a.status.controlGeneration },
          { a with policy := { a.policy with
              operation := a.policy.operation + 1
              status := { a.policy.status with residency := .parking }
              attempts := a.policy.attempts + 1 } })) := by
  unfold Admission.beginPark
  split
  · exact .inl rfl
  · rename_i work
    rw [not_not] at work
    rcases a.policy.beginPark_cases now with ⟨error, refused⟩ | ⟨resident, -, level, begun⟩
    · rw [refused]
      exact .inr (.inl rfl)
    · rw [begun]
      exact .inr (.inr ⟨work, resident, level, rfl⟩)

theorem beginPark_spec (now : Nat) :
    Spec (fun k => (Idle k ∧ Quiet k) ∧ IoFree k) (beginPark now) fun start k => match start with
      | .ready attempt => Attempting attempt k
      | _ => Idle k := by
  apply Spec.lock
  intro c valid holds
  obtain ⟨⟨idle, quiet⟩, free⟩ := holds
  rcases admission_beginPark_cases c.admission now with
    busy | notDue | ⟨work, resident, level, begun⟩
  · simp only [busy]
    exact ⟨valid, Owes.refl _, idle⟩
  · simp only [notDue]
    exact ⟨valid, Owes.refl _, idle⟩
  simp only [begun]
  have alive : ¬c.core.Down := not_down_of resident (by decide)
  have ended : c.core.closing = false := closing_of resident rfl
  obtain ⟨reply, resize⟩ := quiet.resolve_right fun wrong => by rw [ended] at wrong; cases wrong
  refine ⟨?_, ?_, ⟨⟨?_, ?_, ?_, ?_⟩, free⟩, ⟨le_rfl, fun _ => ?_⟩, rfl⟩
  · exact {
      conserved := fun _ => valid.conserved ended
      published := valid.published
      processed := valid.processed
      fed := fun _ => valid.fed ended
      failed := fun wrong => by cases wrong
      registered := fun gone => by
        have wrong := valid.registered gone
        rw [ended] at wrong
        cases wrong
      attempted := fun attempt pending => by cases free.1.symm.trans pending }
  · refine ⟨⟨rfl, rfl⟩, fun wrong => ?_, fun before => ?_, fun before after => ?_, fun failed calm _ => ?_⟩
    · cases ended.symm.trans wrong
    · cases before.symm.trans resident
    · cases before.symm.trans after
    · exact ⟨failed, calm, List.prefix_rfl, .inl rfl⟩
  · exact idle.empty
  · exact idle.calm
  · obtain ⟨terminal, source⟩ := idle.shape.live (.inl resident)
    exact .of_resident (.inr rfl) terminal source free.2
  · exact .inl (idle.clean.resolve_right alive)
  · refine ⟨rfl, fun command member => ?_, reply, resize, level, rfl, rfl⟩
    rw [show c.admission.queue = [] from work] at member
    cases member

theorem setEncoded_kept {attempt : ParkAttempt} {k : Core} (valid : Valid k)
    (attempting : Attempting attempt k) :
    Valid { k with trace := { k.trace with encoded := some k.descriptor } } ∧
      Owes k { k with trace := { k.trace with encoded := some k.descriptor } } ∧
      Attempting attempt { k with trace := { k.trace with encoded := some k.descriptor } } ∧
      EncodedAt attempt { k with trace := { k.trace with encoded := some k.descriptor } } := by
  obtain ⟨⟨idle, free⟩, attempted, captured⟩ := attempting
  refine ⟨?_, ?_, ⟨⟨⟨idle.empty, idle.calm, idle.shape.behind _ _ _, idle.clean⟩, free⟩,
    ⟨attempted.within, attempted.quiet⟩, captured⟩, congrArg some captured.symm⟩
  · exact { valid with attempted := fun attempt pending => by cases free.1.symm.trans pending }
  · exact .of_residency rfl rfl rfl rfl fun failed calm _ =>
      ⟨failed, calm, List.prefix_rfl, .inl rfl⟩

section Reservations

variable {A : Core → Prop} [Steady A]

theorem giveBackSlot_spec : Spec A giveBackSlot fun _ => A := Spec.asideUpdate fun _ => rfl

theorem releaseDisk_spec (disk : DiskLease) : Spec A (releaseDisk disk) fun _ => A :=
  Spec.bind (B := fun _ => A) (Spec.asideUpdate fun _ => rfl) fun _ => giveBackSlot_spec

theorem takeSlot_spec (a : Answer) : Spec A (takeSlot a) fun _ => A := by
  apply Spec.aside
  intro c
  dsimp only
  split <;> rfl

theorem takeBytes_spec : Spec A takeBytes fun _ => A := by
  apply Spec.aside
  intro c
  dsimp only
  split <;> rfl

theorem acquireDisk_spec : Spec A acquireDisk fun _ => A := by
  refine Spec.input.bind fun a => (takeSlot_spec a).bind fun slot => ?_
  split
  · apply takeBytes_spec.bind
    intro disk
    cases disk with
    | some disk => exact Spec.skip
    | none => exact giveBackSlot_spec.bind fun _ => Spec.skip
  · exact Spec.skip

theorem recordUnreclaimed_spec (source : String → UnreclaimedSource) :
    Spec A (recordUnreclaimed source) fun _ => A := Spec.asideUpdate fun _ => rfl

end Reservations

theorem encodePark_spec (attempt : ParkAttempt) :
    Spec (Attempting attempt) encodePark fun result k =>
      Attempting attempt k ∧ (∀ checkpoint, result = .ok checkpoint → EncodedAt attempt k) := by
  have refused : ∀ error : ProjectionError, Spec (Attempting attempt)
      (pure (.error error) : Work (Except ProjectionError (TerminalCheckpoint × DiskLease)))
      fun result k => Attempting attempt k ∧
        (∀ checkpoint, result = .ok checkpoint → EncodedAt attempt k) :=
    fun error => Spec.pure fun _ holds => ⟨holds, fun _ wrong => by cases wrong⟩
  apply Spec.input.bind
  intro memory
  split
  · apply acquireDisk_spec.bind
    intro disk
    cases disk with
    | none => exact refused _
    | some disk =>
      refine Spec.bind (B := fun (version : CheckpointDescriptor) k =>
        Attempting attempt k ∧ VersionIs version k) (Spec.look fun c _ holds => ⟨holds, rfl⟩)
        fun version => (encode_spec version).bind fun encoded => ?_
      refine Spec.bind (B := fun _ k => Attempting attempt k ∧ EncodedAt attempt k)
        (Spec.update fun c valid holds => ?_) fun _ => ?_
      · obtain ⟨attempting, rfl⟩ := holds
        exact setEncoded_kept valid attempting
      · cases encoded with
        | error error =>
          exact (releaseDisk_spec disk).bind fun _ => (refused error).strengthen fun _ both => both.1
        | ok checkpoint => exact Spec.pure fun _ both => ⟨both.1, fun _ _ => both.2⟩
  · exact refused _

/-- The commit of an attempt that is still under way goes into the slot. -/
theorem submitCommit_spec (attempt : ParkAttempt) (checkpoint : TerminalCheckpoint)
    (disk : DiskLease) :
    Spec (fun k => Attempting attempt k ∧ EncodedAt attempt k)
      (submit (.commit attempt disk checkpoint none)) fun _ => Idle := by
  refine Spec.input.bind fun a => Spec.lock fun c valid holds => ?_
  obtain ⟨⟨⟨idle, free⟩, attempted, captured⟩, encoded⟩ := holds
  split
  · exact ⟨valid, Owes.refl _, idle⟩
  split
  · have became : ({ c with
        workspace := { c.workspace with io := some (.commit attempt disk checkpoint none) }
        storage := c.storage.submit (.commit attempt disk checkpoint none)
        rounds := c.rounds.submit (.commit attempt disk checkpoint none) } : Coordinator).core =
        { c.core with commit := some attempt } := by
      have := free.2
      simp_all [core, PendingIo.attempt?, PendingIo.restores]
    rw [became]
    refine ⟨{ valid with attempted := fun pending same => ?_ }, .of_policy rfl rfl rfl,
      ⟨idle.empty, idle.calm, idle.shape.behind _ _ _, idle.clean⟩⟩
    obtain rfl := Option.some.inj same
    exact ⟨⟨attempted.within, attempted.quiet⟩, encoded⟩
  · exact ⟨valid, Owes.refl _, idle⟩

theorem submitPark_spec (attempt : ParkAttempt) (checkpoint : TerminalCheckpoint)
    (disk : DiskLease) :
    Spec (fun k => Attempting attempt k ∧ EncodedAt attempt k) (submitPark attempt checkpoint disk)
      fun _ => Idle := by
  apply (submitCommit_spec attempt checkpoint disk).bind
  intro result
  cases result with
  | ok _ => exact Spec.skip
  | error error =>
    exact (parkFailed_spec error).bind fun _ => (releaseDisk_spec disk).bind fun _ => Spec.skip

theorem startPark_spec :
    Spec (fun k => (Idle k ∧ Quiet k) ∧ IoFree k) startPark fun _ => Idle := by
  apply services_spec.bind
  intro available
  split
  · refine Spec.input.bind fun a => (beginPark_spec a.now).bind fun start => ?_
    cases start with
    | busy => exact Spec.skip
    | notDue => exact Spec.skip
    | ready attempt =>
      refine Spec.bind (A := Attempting attempt) (encodePark_spec attempt) fun encoded => ?_
      cases encoded with
      | error error => exact (parkFailed_spec error).strengthen fun _ holds => holds.1.1.1
      | ok encoded =>
        exact (submitPark_spec attempt encoded.1 encoded.2).strengthen fun _ holds =>
          ⟨holds.1, holds.2 encoded rfl⟩
  · exact Spec.pure fun _ holds => holds.1.1

/-- A commit has landed and its outcome is still to be applied. -/
def Landed (attempt : ParkAttempt) (k : Core) : Prop :=
  Idle k ∧ Attempted attempt k ∧ EncodedAt attempt k

instance (attempt : ParkAttempt) : Steady (Landed attempt) :=
  inferInstanceAs (Steady fun k => Idle k ∧ Attempted attempt k ∧ EncodedAt attempt k)

/-- The release decision is made only for the exact version that was encoded. -/
theorem release_kept {attempt : ParkAttempt} {k : Core} (valid : Valid k) (landed : Landed attempt k)
    (current : k.policy.attemptValid attempt k.queue.isEmpty = true) {policy : ProjectionPolicy}
    (released : policy = { k.policy with
      status := { k.policy.status with residency := .parked, parkingFailure := none }
      attempts := 0 }) :
    Valid { k with policy } ∧ Owes k { k with policy } ∧
      Released (attempt.descriptor k.compatibility) { k with policy } := by
  subst released
  obtain ⟨idle, attempted, encoded⟩ := landed
  obtain ⟨parking, -, activity, -, -, empty⟩ := ProjectionPolicy.attemptValid_iff.mp current
  obtain ⟨since, -, reply, resize, level, processed, control⟩ := attempted.quiet activity.symm
  have version : attempt.descriptor k.compatibility = k.descriptor := by
    rw [ParkAttempt.descriptor, Core.descriptor, processed, control]
  have alive : ¬k.Down := not_down_of parking (by decide)
  have ended : k.closing = false := closing_of parking rfl
  have free : k.restore = false :=
    idle.shape.unrestored alive (by rw [show k.residency = .parking from parking]; decide)
  refine ⟨valid.of_policy ⟨rfl, rfl, rfl⟩ rfl ended.symm (fun wrong => by cases wrong), ?_, ?_⟩
  · refine ⟨⟨rfl, rfl⟩, fun wrong => ?_, fun _ _ => ?_, fun before after => ?_,
      fun failed calm _ => ⟨failed, calm, List.prefix_rfl, .inl rfl⟩⟩
    · rw [ended] at wrong
      cases wrong
    · exact ⟨level, List.isEmpty_iff.mp empty, reply, resize, since, version ▸ encoded⟩
    · cases before.symm.trans after
  · exact ⟨Clear.of_policy idle.clear rfl fun down => absurd down alive, .inl ⟨rfl, free⟩,
      version, encoded, reply, resize⟩

theorem commitPark_spec (attempt : ParkAttempt) (compatibility : String) :
    Spec (fun k => Landed attempt k ∧ CompatibilityIs compatibility k) (locked (·.commitPark attempt))
      fun release k => match release with
        | true => Released (attempt.descriptor compatibility) k
        | false => Idle k := by
  apply Spec.lock
  intro c valid holds
  obtain ⟨landed, rfl⟩ := holds
  rcases c.admission.policy.commitPark_cases attempt c.admission.queue.isEmpty with
    ⟨current, released⟩ | ⟨-, parking, refused⟩ | ⟨-, refused⟩
  · simp only [Admission.commitPark, released]
    exact release_kept valid landed current rfl
  · simp only [Admission.commitPark, refused]
    exact unpark_kept valid landed.1 parking rfl ⟨rfl, rfl, rfl⟩ rfl rfl
  · simp only [Admission.commitPark, refused]
    exact ⟨valid, Owes.refl _, landed.1⟩

/-- Dropping the live model leaves the committed source of its own version. -/
theorem drop_kept {version : CheckpointDescriptor} {k : Core} (valid : Valid k)
    (released : Released version k) :
    Valid { k with terminal := false, source := some version } ∧
      Owes k { k with terminal := false, source := some version } ∧
      Idle { k with terminal := false, source := some version } := by
  refine ⟨valid.workspace _ _ _ _, ⟨⟨rfl, rfl⟩, id, fun before after => ?_, fun _ _ _ => ?_,
    fun failed calm _ => ⟨failed, calm, List.prefix_rfl, .inl rfl⟩⟩,
    Clear.idle (Clear.of_policy released.clear rfl id) ?_⟩
  · cases before.symm.trans after
  · have current : version = ({ k with terminal := false, source := some version } : Core).descriptor :=
      released.current
    exact ⟨congrArg some current, released.encoded.trans (congrArg some current), released.quiet⟩
  rcases released.parked with ⟨parked, free⟩ | down
  · exact .of_parked parked rfl (congrArg some released.current) released.quiet free
  · exact Shape.of_down down

theorem finishCommit_spec (attempt : ParkAttempt) (disk : DiskLease) (reference : CheckpointRef) :
    Spec (Landed attempt) (finishCommit attempt disk reference) fun _ => Idle := by
  refine Spec.bind (B := fun (compatibility : String) k =>
    Landed attempt k ∧ CompatibilityIs compatibility k) (Spec.look fun c _ holds => ⟨holds, rfl⟩)
    fun compatibility => (commitPark_spec attempt compatibility).bind fun release => ?_
  cases release with
  | true =>
    exact Spec.update (A := Released (attempt.descriptor compatibility)) fun c valid released =>
      drop_kept valid released
  | false => exact Spec.asideUpdate (A := Idle) fun _ => rfl

theorem rejectPark_spec (attempt : ParkAttempt) (error : ProjectionError) (now : Nat) :
    Spec (Landed attempt) (locked fun admission => ((), admission.parkFailed error now))
      fun _ => Idle :=
  Spec.lock fun _ valid landed => parkFailed_kept valid landed.1 error now

theorem uncertainPark_spec (attempt : ParkAttempt) (disk : DiskLease) (error : ProjectionError)
    (now : Nat) : Spec (Landed attempt) (parkOutcomeUncertain disk error now) fun _ => Idle :=
  Spec.update fun _ valid landed => parkFailed_kept valid landed.1 error now

theorem applyCommit_spec (attempt : ParkAttempt) (disk : DiskLease)
    (result : Except ProjectionError CommitOutcome) :
    Spec (Landed attempt) (applyCommit attempt disk result) fun _ => Idle := by
  unfold applyCommit
  cases commitOutcome result with
  | published reference => exact finishCommit_spec attempt disk reference
  | rejected error =>
    exact Spec.input.bind fun a => (rejectPark_spec attempt error a.now).bind fun _ =>
      releaseDisk_spec disk
  | uncertain error =>
    exact (recordUnreclaimed_spec _).bind fun _ => Spec.input.bind fun a =>
      uncertainPark_spec attempt disk error a.now

end Coordinator
end PtyRuntime
