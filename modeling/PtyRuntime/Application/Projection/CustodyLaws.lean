import PtyRuntime.Application.Projection.Along
import PtyRuntime.Application.Projection.Custody

/-! The worker's programs hand every disk reservation on, beside any other threads:
while the workspace lock is free it holds none, and it lets go of one only when
nothing can be stored under it. -/
namespace PtyRuntime
open Thread PtyRuntime.Core

namespace Stock

/-- What a step of another thread leaves of the worker's reservations. -/
structure Beside (k k' : Stock) : Prop where
  config : k'.config = k.config
  source : k'.source = k.source
  reaper : k'.reaper = k.reaper
  moving : k'.log.moving = k.log.moving
  submitted : k'.log.submitted = k.log.submitted
  reported : k.log.rejected ⊆ k'.log.rejected ∧ k.log.deleted ⊆ k'.log.deleted
  /-- Only a job in flight can report, and only the worker can start one. -/
  vacant : k.io = none → k'.io = none ∧ k'.log.rejected = k.log.rejected ∧
    k'.log.deleted = k.log.deleted ∧ k'.log.objects = k.log.objects

theorem Beside.refl (k : Stock) : Beside k k :=
  ⟨rfl, rfl, rfl, rfl, rfl, ⟨List.Subset.refl _, List.Subset.refl _⟩,
    fun vacant => ⟨vacant, rfl, rfl, rfl⟩⟩

theorem Beside.done {k k' : Stock} (beside : Beside k k') {id : Nat} (done : Book.Done k.log id) :
    Book.Done k'.log id := by
  rcases done with rejected | deleted | never
  · exact .inl (beside.reported.1 rejected)
  · exact .inr (.inl (beside.reported.2 deleted))
  · exact .inr (.inr (beside.submitted ▸ never))

end Stock

open Stock

namespace Coordinator

/-- The books of the storage budget, on top of the projection's contract. -/
def reservations : Addition Unit Coordinator where
  inv c := Accounted c.stock
  idle _ c := c.storage.moving = none
  guar _ c c' := c'.config = c.config
  meddle c c' := Stock.Beside c.stock c'.stock

instance : Tracks reservations fun _ _ => True := ⟨fun _ _ _ => trivial⟩

def Untouched (c c' : Coordinator) : Prop := c'.stock = c.stock

instance : reservations.Neutral () Untouched where
  step {c c'} same acc := by
    have same : c'.stock = c.stock := same
    refine ⟨?_, congrArg Stock.config same, ?_⟩
    · change Accounted c'.stock
      rw [same]
      exact acc
    · change Stock.Beside c.stock c'.stock
      rw [same]
      exact .refl _

theorem untouched_take (take : Coordinator → Option Command × Admission) :
    (takeCommand take).Upholds (fun _ _ => True) Untouched := Upholds.lock fun _ => rfl

instance : Completing (fun _ _ => True) Untouched where
  refl _ := rfl
  tickets _ _ _ := rfl

instance : Serving (fun _ _ => True) Untouched where
  fails error := Completing.fail_of_steps error (fun _ => rfl) fun _ _ => rfl
  observe _ := rfl
  forget _ _ := rfl
  program _ _ _ := rfl
  giveBack _ _ _ := rfl
  feed _ _ := rfl
  count bytes := Upholds.lock fun c => by
    split <;> rfl
  appendOutput _ _ _ _ := rfl
  reply _ _ := rfl
  slot _ _ := rfl
  size _ _ := rfl
  give _ _ _ := rfl
  settle _ _ := rfl
  finish _ _ := rfl
  control generation := Upholds.lock fun c => by
    split <;> rfl
  appendResize _ _ _ _ := rfl
  poise _ := Upholds.lock fun _ => rfl
  takeNext := untouched_take _
  takeOutput := untouched_take _
  takeRestoring := untouched_take _
  marker := Upholds.lock fun _ => rfl
  sealClean _ _ := rfl
  owe _ _ := rfl

theorem parkFailed_untouched (error : ProjectionError) : (parkFailed error).Upholds (fun _ _ => True) Untouched :=
  Upholds.input.bind fun _ => (locked_each (R := Untouched) fun _ => rfl).bind fun _ =>
    Completing.look_each

theorem beginPark_untouched (now : Nat) : (beginPark now).Upholds (fun _ _ => True) Untouched :=
  Upholds.lock fun c => by
    split <;> rfl

def Holding (custody : Option Custody) (c : Coordinator) : Prop := c.storage.moving = custody

instance (custody : Option Custody) : reservations.Steady (Holding custody) where
  keep beside holding := beside.moving.trans holding

def Vacant (c : Coordinator) : Prop := c.workspace.io = none

instance : reservations.Steady Vacant where
  keep beside vacant := (beside.vacant vacant).1

/-- A lease whose commit has yet to be submitted. -/
structure Unsubmitted (disk : DiskLease) (c : Coordinator) : Prop where
  held : c.storage.moving = some (.commit disk)
  vacant : c.workspace.io = none
  never : disk.id ∉ c.storage.submitted
  unreported : disk.id ∉ c.storage.rejected ∧ disk.id ∉ c.storage.deleted
  empty : disk.id ∉ c.storage.objects.map (·.disk.id)

instance (disk : DiskLease) : reservations.Steady (Unsubmitted disk) where
  keep {c c'} beside fresh := by
    obtain ⟨vacant, rejected, deleted, objects⟩ := beside.vacant fresh.vacant
    refine ⟨beside.moving.trans fresh.held, vacant, ?_, ⟨?_, ?_⟩, ?_⟩
    · exact beside.submitted ▸ fresh.never
    · exact rejected ▸ fresh.unreported.1
    · exact deleted ▸ fresh.unreported.2
    · exact objects ▸ fresh.empty

/-- A lease under which nothing can be stored any more. -/
def Dropping (disk : DiskLease) (c : Coordinator) : Prop :=
  ∃ custody : Custody, c.storage.moving = some custody ∧ custody.Of disk ∧
    Book.Done c.storage disk.id

instance (disk : DiskLease) : reservations.Steady (Dropping disk) where
  keep beside := by
    rintro ⟨custody, held, own, done⟩
    exact ⟨custody, beside.moving.trans held, own, beside.done done⟩

theorem Unsubmitted.dropping {disk : DiskLease} {c : Coordinator} (fresh : Unsubmitted disk c) :
    Dropping disk c := ⟨.commit disk, fresh.held, .inl rfl, .inr (.inr fresh.never)⟩

section Reservations

variable {A : Core → Prop} [Core.Steady A]

theorem takeSlot_along (a : Answer) :
    Along reservations A (fun c => Holding none c ∧ Vacant c) (takeSlot a) (fun _ => A) fun slot c =>
      Holding (if slot then some .slot else none) c ∧ Vacant c := by
  refine Along.lock (takeSlot_spec a) fun c _ _ acc holds _ => ?_
  split
  · rename_i storedSlots _ granted
    exact ⟨takeSlot_kept acc holds.1 granted, rfl, rfl, holds.2⟩
  · exact ⟨acc, rfl, holds⟩

theorem giveBackSlot_along :
    Along reservations A (Holding (some .slot)) giveBackSlot (fun _ => A) fun _ => Holding none :=
  Along.update giveBackSlot_spec fun _ _ _ acc held _ => ⟨giveBackSlot_kept acc held, rfl, rfl⟩

/-- A granted lease is new to the books. -/
theorem unsubmitted_next {c c' : Coordinator} (acc : Accounted c.stock) (vacant : Vacant c')
    (log : c'.storage = { c.storage with
      granted := c.storage.granted + 1, moving := some (.commit c.stock.nextLease) }) :
    Unsubmitted c.stock.nextLease c' := by
  have known : ∀ id, id ∈ c.storage.submitted ∨ id ∈ c.storage.rejected ∨ id ∈ c.storage.deleted →
      id ≠ c.storage.granted := fun id member => (acc.sound.known id member).ne
  refine ⟨?_, vacant, ?_, ⟨?_, ?_⟩, ?_⟩
  · rw [log]
  · rw [log]
    exact fun member => known _ (.inl member) rfl
  · rw [log]
    exact fun member => known _ (.inr (.inl member)) rfl
  · rw [log]
    exact fun member => known _ (.inr (.inr member)) rfl
  · rw [log]
    intro member
    obtain ⟨object, stored, same⟩ := List.mem_map.mp member
    have issued := acc.sound.issued _ (acc.sound.objects object stored).1
    exact absurd same issued.ne

theorem takeBytes_along :
    Along reservations A (fun c => Holding (some .slot) c ∧ Vacant c) takeBytes (fun _ => A)
      fun disk c => match disk with
        | some disk => Unsubmitted disk c
        | none => Holding (some .slot) c := by
  refine Along.lock takeBytes_spec fun c _ _ acc holds _ => ?_
  split
  · exact ⟨acc, rfl, holds.1⟩
  · rename_i stored granted
    exact ⟨takeBytes_kept acc holds.1 granted, rfl, unsubmitted_next acc holds.2 rfl⟩

theorem acquireDisk_along :
    Along reservations A (fun c => Holding none c ∧ Vacant c) acquireDisk (fun _ => A)
      fun disk c => match disk with
        | some disk => Unsubmitted disk c
        | none => Holding none c := by
  refine Along.input.bind fun a => (takeSlot_along a).bind fun slot => ?_
  cases slot with
  | false => exact Along.pure fun _ core holds => ⟨core, holds.1⟩
  | true =>
    apply takeBytes_along.bind
    intro disk
    cases disk with
    | some disk => exact Along.pure fun _ core fresh => ⟨core, fresh⟩
    | none => exact giveBackSlot_along.bind fun _ => Along.pure fun _ core holds => ⟨core, holds⟩

theorem releaseDisk_along (disk : DiskLease) :
    Along reservations A (Dropping disk) (releaseDisk disk) (fun _ => A) fun _ => Holding none := by
  refine Along.bind (B := fun _ => A) (G := fun _ => Holding (some .slot))
    (Along.update (Spec.asideUpdate fun _ => rfl) fun c _ _ acc dropping _ => ?_)
    fun _ => giveBackSlot_along
  obtain ⟨custody, held, own, done⟩ := dropping
  exact ⟨dropBytes_kept acc held own done, rfl, rfl⟩

end Reservations

section Jobs

variable {A : Core → Prop} [Core.Steady A]

/-- A job that is submitted takes the reservation that goes with it along. -/
theorem submit_along {job : PendingIo} {B : Except ProjectionError Unit → Core → Prop}
    {F : Coordinator → Prop} {G : Coordinator → Prop} [reservations.Steady F]
    (base : Spec A (submit job) B)
    (taken : ∀ c, Accounted c.stock → F c → c.workspace.io = none →
      Accounted { c.stock with io := some job, log := c.storage.submit job } ∧
        ∀ c' : Coordinator, c'.storage = c.storage.submit job → G c') :
    Along reservations A F (submit job) B fun result c => match result with
      | .ok _ => G c
      | .error _ => F c := by
  refine Along.input.bind fun a => Along.lock (base.of_input a) fun c _ _ acc holds _ => ?_
  split
  · exact ⟨acc, rfl, holds⟩
  rename_i busy
  split
  · obtain ⟨kept, after⟩ := taken c acc holds (by simpa using busy)
    exact ⟨kept, rfl, after _ rfl⟩
  · exact ⟨acc, rfl, holds⟩

end Jobs

theorem encodePark_along (attempt : ParkAttempt) :
    Along reservations (Attempting attempt) (fun c => Holding none c ∧ Vacant c) encodePark
      (fun result k => Attempting attempt k ∧
        (∀ checkpoint, result = .ok checkpoint → EncodedAt attempt k))
      fun result c => match result with
        | .ok encoded => Unsubmitted encoded.2 c
        | .error _ => Holding none c := by
  apply Along.input.bind
  intro memory
  split
  · apply acquireDisk_along.bind
    intro disk
    cases disk with
    | none => exact Along.pure fun _ core holds => ⟨⟨core, fun _ wrong => by cases wrong⟩, holds⟩
    | some disk =>
      refine Along.bind (F := Unsubmitted disk) (B := fun (version : CheckpointDescriptor) k =>
        Attempting attempt k ∧ VersionIs version k)
        (Along.aside (Spec.look fun c _ holds => ⟨holds, rfl⟩) Completing.look_each (R := Untouched))
        fun version => ?_
      refine (Along.aside (encode_spec version) (Bystanding.encode_each version)
        (R := Untouched)).bind fun encoded => ?_
      refine Along.bind (B := fun _ k => Attempting attempt k ∧ EncodedAt attempt k)
        (Along.aside (Spec.update fun c valid holds => ?_) (Upholds.update fun _ => rfl)
          (R := Untouched)) fun _ => ?_
      · obtain ⟨attempting, rfl⟩ := holds
        exact setEncoded_kept valid attempting
      · cases encoded with
        | error error =>
          exact ((releaseDisk_along disk).strengthen fun _ core fresh =>
            ⟨core, Unsubmitted.dropping fresh⟩).bind fun _ => Along.pure fun _ core holds =>
              ⟨⟨core.1, fun _ wrong => by cases wrong⟩, holds⟩
        | ok checkpoint =>
          exact Along.pure fun _ core fresh => ⟨⟨core.1, fun _ _ => core.2⟩, fresh⟩
  · exact Along.pure fun _ core holds => ⟨⟨core, fun _ wrong => by cases wrong⟩, holds.1⟩

theorem submitPark_along (attempt : ParkAttempt) (checkpoint : TerminalCheckpoint)
    (disk : DiskLease) :
    Along reservations (fun k => Attempting attempt k ∧ EncodedAt attempt k) (Unsubmitted disk)
      (submitPark attempt checkpoint disk) (fun _ => Idle) fun _ => Holding none := by
  refine (submit_along (G := Holding none) (submitCommit_spec attempt checkpoint disk)
    fun c acc fresh vacant => ⟨?_, fun c' log => ?_⟩).bind fun result => ?_
  · exact submitCommit_kept acc vacant checkpoint fresh.held
      ⟨fresh.unreported.1, fresh.unreported.2, fresh.empty⟩
  · rw [Holding, log]
    rfl
  · cases result with
    | ok _ => exact Along.pure fun _ core holds => ⟨core, holds⟩
    | error error =>
      refine (Along.aside (F := Unsubmitted disk) (parkFailed_spec error)
        (parkFailed_untouched error)).bind fun schedule => ?_
      exact ((releaseDisk_along disk).strengthen fun _ core fresh =>
        ⟨core, Unsubmitted.dropping fresh⟩).bind fun _ => Along.pure fun _ core holds =>
          ⟨core, holds⟩

theorem startPark_along :
    Along reservations (fun k => (Idle k ∧ Quiet k) ∧ IoFree k)
      (fun c => Holding none c ∧ Vacant c) startPark (fun _ => Idle) fun _ => Holding none := by
  apply (Along.aside services_spec Completing.look_each (R := Untouched)).bind
  intro available
  split
  · refine Along.input.bind fun a => (Along.aside (beginPark_spec a.now)
      (beginPark_untouched a.now)).bind fun start => ?_
    cases start with
    | busy => exact Along.pure fun _ core holds => ⟨core, holds.1⟩
    | notDue => exact Along.pure fun _ core holds => ⟨core, holds.1⟩
    | ready attempt =>
      refine Along.bind (A := Attempting attempt) (encodePark_along attempt) fun encoded => ?_
      cases encoded with
      | error error =>
        exact (Along.aside (F := Holding none) (parkFailed_spec error)
          (parkFailed_untouched error)).strengthen fun _ core holds => ⟨core.1.1.1, holds⟩
      | ok encoded =>
        exact (submitPark_along attempt encoded.1 encoded.2).strengthen fun _ core holds =>
          ⟨⟨core.1, core.2 encoded rfl⟩, holds⟩
  · exact Along.pure fun _ core holds => ⟨core.1.1, holds.1⟩

theorem considerPark_along :
    Along reservations (fun k => (Idle k ∧ Quiet k) ∧ IoFree k)
      (fun c => Holding none c ∧ Vacant c) considerPark (fun _ => Idle) fun _ => Holding none := by
  refine Along.input.bind fun a => (Along.aside Spec.glance Completing.look_each
    (R := Untouched)).bind fun delay => ?_
  cases delay with
  | none => exact Along.pure fun _ core holds => ⟨core.1.1, holds.1⟩
  | some delay =>
    dsimp only
    split
    · exact startPark_along
    · exact Along.pure fun _ core holds => ⟨core.1.1, holds.1⟩

section Deletion

variable {A : Core → Prop} [Core.Steady A]

theorem checkOut_spec : Spec A (Thread.lock fun c : Coordinator =>
    match c.workspace.reaper.checkOut with
    | none => (none, c)
    | some (attempt, reaper) =>
      (some attempt, { c with
        workspace := { c.workspace with reaper }
        storage := c.storage.hold (.delete attempt.source.disk) })) fun _ => A := by
  refine Spec.aside fun c => ?_
  dsimp only
  split <;> rfl

theorem startDelete_along :
    Along reservations A (Holding none) startDelete (fun _ => A) fun _ => Holding none := by
  refine Along.bind (G := fun due => Holding (due.map fun attempt => .delete attempt.source.disk))
    (Along.lock checkOut_spec fun c _ _ acc idle _ => ?_) fun due => ?_
  · split
    · exact ⟨acc, rfl, idle⟩
    · rename_i attempt reaper due
      exact ⟨checkOut_kept acc idle due, rfl, rfl⟩
  · cases due with
    | none => exact Along.pure fun _ core holds => ⟨core, holds⟩
    | some attempt =>
      refine (submit_along (F := Holding (some (.delete attempt.source.disk))) (G := Holding none)
        (submit_aside (.delete attempt none) ⟨rfl, rfl⟩)
        fun c acc held vacant => ⟨submitDelete_kept acc vacant held, fun c' log => ?_⟩).bind
        fun result => ?_
      · rw [Holding, log]
        rfl
      · cases result with
        | ok _ => exact Along.pure fun _ core holds => ⟨core, holds⟩
        | error error =>
          refine Along.bind (F := Holding (some (.delete attempt.source.disk))) (B := fun _ => A)
            (G := fun _ => Holding none)
            (Along.update (Spec.asideUpdate fun _ => rfl) fun c _ _ acc held _ => ⟨?_, rfl, rfl⟩)
            fun _ => Along.pure fun _ core holds => ⟨core, holds⟩
          refine place_kept acc held (.inr rfl) c.workspace.source _ c.unreclaimed fun other => ?_
          simp only [leasesAt, stock, SourceReaper.putBack, List.map_cons, List.count_append,
            List.count_cons]
          omega

theorem settleDelete_along (attempt : DeleteAttempt) (result : Except ProjectionError Unit) :
    Along reservations A (fun c => Holding (some (.delete attempt.source.disk)) c ∧
        (result = .ok () → Book.Done c.storage attempt.source.disk.id))
      (settleDelete attempt result) (fun _ => A) fun _ => Holding none := by
  cases result with
  | ok _ =>
    exact ((releaseDisk_along _).strengthen fun _ core holds =>
      ⟨core, _, holds.1, .inr rfl, holds.2 rfl⟩).bind fun _ => Along.pure fun _ core holds =>
        ⟨core, holds⟩
  | error error =>
    refine (Along.lock (F := Holding (some (.delete attempt.source.disk)))
      (Spec.aside fun _ => rfl) fun c _ _ acc held _ => ⟨?_, rfl, rfl⟩).strengthen
      fun _ core holds => ⟨core, holds.1⟩
    refine place_kept acc held (.inr rfl) c.workspace.source _ c.unreclaimed fun other => ?_
    simp only [leasesAt, stock, SourceReaper.finishDelete, SourceReaper.putBack, List.map_cons,
      List.count_append, List.count_cons]
    omega

end Deletion

/-- What the worker holds of a job it has just taken. -/
def Delivered : Option FinishedIo → Coordinator → Prop
  | some (.commit _ disk result), c => Holding (some (.commit disk)) c ∧
      ∀ error, result = .ok (.rejected error) → Book.Done c.storage disk.id
  | some (.delete attempt result), c => Holding (some (.delete attempt.source.disk)) c ∧
      (result = .ok () → Book.Done c.storage attempt.source.disk.id)
  | some (.restore _), c | some (.transfer _ _), c | none, c => Holding none c

instance (finished : Option FinishedIo) : reservations.Steady (Delivered finished) where
  keep {c c'} beside delivered := by
    have kept : ∀ custody, Holding custody c → Holding custody c' := fun _ holding =>
      beside.moving.trans holding
    rcases finished with _ | (_ | _ | _ | _)
    · exact kept _ delivered
    · exact ⟨kept _ delivered.1, fun error same => beside.done (delivered.2 error same)⟩
    · exact kept _ delivered
    · exact kept _ delivered
    · exact ⟨kept _ delivered.1, fun same => beside.done (delivered.2 same)⟩

theorem delivered_of {c c' : Coordinator} (acc : Accounted c.stock) (idle : Holding none c)
    {job : PendingIo} {finished : FinishedIo} (busy : c.workspace.io = some job)
    (ended : job.finished = some finished) (log : c'.storage = c.storage.take finished) :
    Delivered (some finished) c' := by
  have pending := acc.pending job busy
  rcases job with ⟨attempt, disk, checkpoint, _ | result⟩ | ⟨source, _ | result⟩ |
    ⟨request, source, _ | result⟩ | ⟨attempt, _ | result⟩ <;>
    simp only [PendingIo.finished, reduceCtorEq, Option.some.injEq] at ended <;> subst ended
  · refine ⟨by rw [Holding, log]; rfl, fun error same => ?_⟩
    subst same
    rw [log]
    exact pending
  · exact (congrArg StorageLog.moving log).trans idle
  · exact (congrArg StorageLog.moving log).trans idle
  · refine ⟨by rw [Holding, log]; rfl, fun same => ?_⟩
    subst same
    rw [log]
    exact pending

theorem takeFinished_along :
    Along reservations Idle (Holding none) takeFinished Finishing Delivered := by
  refine Along.lock takeFinished_spec fun c _ _ acc idle _ => ?_
  cases busy : c.workspace.io with
  | none => exact ⟨acc, rfl, idle⟩
  | some job =>
    simp only [Option.bind_some]
    split
    · exact ⟨acc, rfl, idle⟩
    · rename_i finished ended
      exact ⟨take_kept acc idle busy ended, rfl, delivered_of acc idle busy ended rfl⟩

section Placing

variable {A : Core → Prop} [Core.Steady A]

theorem recordUnreclaimed_along {lease : DiskLease} {custody : Custody} (own : custody.Of lease)
    (source : String → UnreclaimedSource) (same : ∀ compatibility, (source compatibility).disk = lease) :
    Along reservations A (Holding (some custody)) (recordUnreclaimed source) (fun _ => A)
      fun _ => Holding none := by
  refine Along.update (recordUnreclaimed_spec source) fun c _ _ acc held _ => ⟨?_, rfl, rfl⟩
  refine place_kept acc held own c.workspace.source c.workspace.reaper _ fun other => ?_
  simp only [leasesAt, stock, List.map_append, List.map_cons, List.map_nil, List.count_append,
    List.count_cons, List.count_nil, same]
  omega

theorem retireSource_along {source : CommittedSource} {custody : Custody} (own : custody.Of source.disk) :
    Along reservations A (Holding (some custody)) (retireSource source) (fun _ => A)
      fun _ => Holding none := by
  refine Along.update (Spec.asideUpdate fun _ => rfl) fun c _ _ acc held _ => ⟨?_, rfl, rfl⟩
  refine place_kept acc held own c.workspace.source _ c.unreclaimed fun other => ?_
  simp only [leasesAt, stock, SourceReaper.retire, List.map_append, List.map_cons, List.map_nil,
    List.count_append, List.count_cons, List.count_nil]
  omega

end Placing

def Sourceless (c : Coordinator) : Prop := c.workspace.source = none

instance : reservations.Steady Sourceless where
  keep beside none := beside.source.trans none

/-- A park is released only from the parking state, where no source is held. -/
theorem sourceless_of_release {attempt : ParkAttempt} {c : Coordinator} (landed : Landed attempt c.core)
    (released : (c.admission.commitPark attempt).1 = true) : Sourceless c := by
  rcases c.admission.policy.commitPark_cases attempt c.admission.queue.isEmpty with
    ⟨current, -⟩ | ⟨-, -, refused⟩ | ⟨-, refused⟩
  · have parking := (ProjectionPolicy.attemptValid_iff.mp current).1
    have none := (landed.1.shape.live (.inr parking)).2
    exact Option.map_eq_none_iff.mp none
  · simp [Admission.commitPark, refused] at released
  · simp [Admission.commitPark, refused] at released

theorem finishCommit_along (attempt : ParkAttempt) (disk : DiskLease) (reference : CheckpointRef) :
    Along reservations (Landed attempt) (Holding (some (.commit disk)))
      (finishCommit attempt disk reference) (fun _ => Idle) fun _ => Holding none := by
  refine Along.bind (B := fun (compatibility : String) k =>
    Landed attempt k ∧ CompatibilityIs compatibility k)
    (Along.aside (Spec.look fun c _ holds => ⟨holds, rfl⟩) Completing.look_each (R := Untouched))
    fun compatibility => ?_
  refine Along.bind (G := fun (release : Bool) c =>
    Holding (some (.commit disk)) c ∧ (release = true → Sourceless c))
    (Along.lock (commitPark_spec attempt compatibility) fun c _ landed acc held _ =>
      ⟨acc, rfl, held, sourceless_of_release landed.1⟩) fun release => ?_
  cases release with
  | false =>
    exact (retireSource_along (A := Idle) (.inl rfl)).strengthen fun _ core holds => ⟨core, holds.1⟩
  | true =>
    refine Along.update (A := Released (attempt.descriptor compatibility))
      (Spec.update fun c valid released => drop_kept valid released) fun c _ _ acc holds _ =>
        ⟨?_, rfl, rfl⟩
    have none : c.workspace.source = none := holds.2 rfl
    refine place_kept acc holds.1 (.inl rfl) (some _) c.workspace.reaper c.unreclaimed fun other => ?_
    simp only [leasesAt, stock, none, Option.map_some, Option.map_none, Option.toList,
      List.count_append, List.count_cons, List.count_nil]
    omega

theorem applyCommit_along (attempt : ParkAttempt) (disk : DiskLease)
    (result : Except ProjectionError CommitOutcome) :
    Along reservations (Landed attempt)
      (fun c => Holding (some (.commit disk)) c ∧
        ∀ error, result = .ok (.rejected error) → Book.Done c.storage disk.id)
      (applyCommit attempt disk result) (fun _ => Idle) fun _ => Holding none := by
  have uncertain : ∀ error : ProjectionError, Along reservations (Landed attempt)
      (Holding (some (.commit disk))) (do
        recordUnreclaimed (.fromUncertainPark · attempt disk)
        let a ← input
        parkOutcomeUncertain disk error a.now)
      (fun _ => Idle) fun _ => Holding none := by
    intro error
    exact (recordUnreclaimed_along (.inl rfl) (.fromUncertainPark · attempt disk) fun _ => rfl).bind
      fun _ => Along.input.bind fun a => Along.aside (uncertainPark_spec attempt disk error a.now)
        (Upholds.update (P := Untouched) fun _ => rfl)
  rcases result with error | (reference | error | error)
  · exact (uncertain error).strengthen fun _ core holds => ⟨core, holds.1⟩
  · exact (finishCommit_along attempt disk reference).strengthen fun _ core holds => ⟨core, holds.1⟩
  · refine Along.input.bind fun a => ?_
    refine (Along.bind (F := Dropping disk) (Along.aside (rejectPark_spec attempt error a.now)
      (locked_each (R := Untouched) fun _ => rfl)) fun _ => releaseDisk_along disk).strengthen
      fun _ core holds => ⟨core, _, holds.1, .inl rfl, holds.2 error rfl⟩
  · exact (uncertain error).strengthen fun _ core holds => ⟨core, holds.1⟩

theorem applyDelete_along (attempt : DeleteAttempt) (result : Except ProjectionError Unit) :
    Along reservations Idle (fun c => Holding (some (.delete attempt.source.disk)) c ∧
        (result = .ok () → Book.Done c.storage attempt.source.disk.id))
      (applyDelete attempt result) (fun _ => Idle) fun _ => Holding none := by
  apply (settleDelete_along attempt result).bind
  intro failed
  cases failed with
  | none => exact Along.pure fun _ core holds => ⟨core, holds⟩
  | some error =>
    exact Along.aside (maintenanceFailed_spec error) (locked_each (R := Untouched) fun _ => rfl)

theorem retireRestored_along {A : Core → Prop} {B : Unit → Core → Prop} [Core.Steady A]
    (base : Spec A retireRestored B) :
    Along reservations A (Holding none) retireRestored B fun _ => Holding none := by
  refine Along.update base fun c _ _ acc idle _ => ?_
  cases held : c.workspace.source with
  | none =>
    simp only [NativeWorkspace.retireSource, held]
    exact ⟨acc, rfl, idle⟩
  | some source =>
    simp only [NativeWorkspace.retireSource, held]
    refine ⟨shift_kept acc none _ c.unreclaimed fun other => ?_, rfl, idle⟩
    simp only [leasesAt, stock, held, SourceReaper.retire, Option.map_some, Option.map_none,
      Option.toList, List.map_append, List.map_cons, List.map_nil, List.count_append,
      List.count_cons, List.count_nil]
    omega

theorem historyProgress_along (progress : RestorationProgress) :
    Along reservations Progressing (Holding none) (historyProgress progress) (fun _ => Idle)
      fun _ => Holding none := by
  apply (Along.aside (recordProgress_spec progress) (locked_each (R := Untouched) fun _ => rfl)).bind
  intro result
  cases result with
  | error error =>
    exact Along.aside (R := Untouched) ((fail_spec (A := Progressing) error).weaken fun _ k holds =>
      holds.1.clear.idle_of_down holds.2) (Bystanding.fails error)
  | ok _ =>
    dsimp only
    split
    · exact retireRestored_along retireRestored_spec
    · exact Along.pure fun _ core holds => ⟨core, holds⟩

theorem adoptTerminal_along (terminal : Terminal) :
    Along reservations Unrestored (Holding none) (adoptTerminal terminal) (fun _ => Idle)
      fun _ => Holding none := by
  apply (Along.aside (nativeCall_spec _) (Bystanding.nativeCall_each _) (R := Untouched)).bind
  intro result
  cases result with
  | error error =>
    refine Along.pure fun c core holds => ⟨?_, holds⟩
    refine core.1.clear.idle_of_down (core.2 (fun a error answered => ?_) error rfl)
    cases progress : a.progress <;> simp [progress] at answered
  | ok progress =>
    exact ((Along.aside (adoptModel_spec terminal) (Upholds.update fun _ => rfl)
      (R := Untouched)).strengthen fun _ core holds => ⟨core.1, holds⟩).bind fun _ =>
        historyProgress_along progress

theorem applyRestore_along (result : Except ProjectionError TerminalCheckpoint) :
    Along reservations Unrestored (Holding none) (applyRestore result) (fun _ => Idle)
      fun _ => Holding none := by
  have failed : ∀ error, Along reservations Unrestored (Holding none) (fail error) (fun _ => Idle)
      fun _ => Holding none := fun error =>
    Along.aside (R := Untouched) ((fail_spec error).weaken fun _ k holds =>
      holds.1.clear.idle_of_down holds.2) (Bystanding.fails error)
  cases result with
  | error error => exact failed error
  | ok checkpoint =>
    apply (Along.aside (nativeCall_keeps _) (Bystanding.nativeCall_each _) (R := Untouched)).bind
    intro restored
    cases restored with
    | error error => exact failed error
    | ok terminal => exact adoptTerminal_along terminal

theorem applyFinished_along (closing : Bool) (finished : FinishedIo) :
    Along reservations (fun k => Finishing (some finished) k ∧ (closing = true → k.Down))
      (Delivered (some finished)) (applyFinished closing finished) (fun _ => Idle)
      fun _ => Holding none := by
  cases finished with
  | commit attempt disk result =>
    exact (applyCommit_along attempt disk result).strengthen fun _ core holds => ⟨core.1, holds⟩
  | restore result =>
    cases closing with
    | true => exact Along.pure fun _ core holds => ⟨core.1.clear.idle_of_down (core.2 rfl), holds⟩
    | false => exact (applyRestore_along result).strengthen fun _ core holds => ⟨core.1, holds⟩
  | transfer request result =>
    exact (Along.aside (F := Holding none) (R := Untouched)
      (completeRequest_spec (A := Idle) request _) (Observing.completeRequest_each _ _)).strengthen
      fun _ core holds => ⟨core.1, holds⟩
  | delete attempt result =>
    exact (applyDelete_along attempt result).strengthen fun _ core holds => ⟨core.1, holds⟩

theorem finishIo_along :
    Along reservations Idle (Holding none) finishIo (fun _ => Idle) fun _ => Holding none := by
  apply (Along.aside services_spec Completing.look_each (R := Untouched)).bind
  intro available
  split
  · apply takeFinished_along.bind
    intro finished
    cases finished with
    | none => exact Along.pure fun _ core holds => ⟨core, holds⟩
    | some finished =>
      refine Along.bind (B := fun (now : ProjectionStatus) k => Finishing (some finished) k ∧
        (now.residency.isClosing = true → k.Down)) (Along.aside (R := Untouched)
        (Spec.look fun c _ holds => ⟨holds, .inr⟩) Completing.look_each)
        fun now => applyFinished_along now.residency.isClosing finished
  · exact Along.pure fun _ core holds => ⟨core, holds⟩

/-- Reading a source back moves no reservation. -/
theorem submitRead_along {A : Core → Prop} {B : Except ProjectionError Unit → Core → Prop}
    [Core.Steady A] {job : PendingIo} (bare : job.commitLease = none ∧ job.deleteLease = none)
    (base : Spec A (submit job) B) :
    Along reservations A (Holding none) (submit job) B fun _ => Holding none := by
  refine Along.input.bind fun a => Along.lock (base.of_input a) fun c _ _ acc idle _ => ?_
  split
  · exact ⟨acc, rfl, idle⟩
  rename_i busy
  split
  · have vacant : c.workspace.io = none := by simpa using busy
    refine ⟨submitRead_kept acc vacant bare, rfl, ?_⟩
    cases job with
    | commit attempt disk checkpoint mailbox => cases bare.1
    | delete attempt mailbox => cases bare.2
    | restore _ _ | transfer _ _ _ => exact idle
  · exact ⟨acc, rfl, idle⟩

theorem readForTransfer_along {A : Core → Prop} [Core.Steady A] (source : CommittedSource)
    (request : SnapshotRequest) :
    Along reservations A (Holding none) (readForTransfer source request) (fun _ => A)
      fun _ => Holding none := by
  apply (submitRead_along ⟨rfl, rfl⟩ (submit_aside
    (.transfer request source.toStoredCheckpoint none) ⟨rfl, rfl⟩)).bind
  intro result
  cases result with
  | ok _ => exact Along.pure fun _ core holds => ⟨core, holds⟩
  | error error =>
    exact (Along.aside (failRequest_spec _ _) (Completing.failRequest_each _ _)
      (R := Untouched)).bind fun _ => Along.pure fun _ core holds => ⟨core, holds⟩

theorem readForRestore_along (source : CommittedSource) :
    Along reservations (fun k => Idle k ∧ TerminalIs false k ∧ IoFree k) (Holding none)
      (readForRestore source) (fun _ => Idle) fun _ => Holding none := by
  apply Along.input.bind
  intro resident
  split
  · apply (submitRead_along ⟨rfl, rfl⟩ (submit_restore_spec source.toStoredCheckpoint)).bind
    intro result
    cases result with
    | error error => exact Along.pure fun _ core holds => ⟨core, holds⟩
    | ok _ =>
      apply (Along.aside beginRestore_spec (locked_each (R := Untouched) fun _ => rfl)).bind
      intro begun
      cases begun with
      | error error =>
        exact (Along.aside (A := Begun) (fail_spec error) (Bystanding.fails error)
          (R := Untouched)).bind fun _ => Along.pure fun _ core holds =>
            ⟨core.1.clear.idle_of_down core.2, holds⟩
      | ok _ => exact Along.pure fun _ core holds => ⟨core, holds⟩
  · exact Along.pure fun _ core holds => ⟨core.1, holds⟩

theorem startRead_along (transfer : Option Command) :
    Along reservations (fun k => Idle k ∧ TerminalIs false k ∧ IoFree k) (Holding none)
      (startRead transfer) (fun _ => Idle) fun _ => Holding none := by
  apply (Along.aside services_spec Completing.look_each (R := Untouched)).bind
  intro available
  split
  · apply (Along.aside Spec.glance Completing.look_each (R := Untouched)).bind
    intro source
    cases source with
    | none =>
      exact (Along.aside (fail_spec _) (Bystanding.fails _) (R := Untouched)).bind fun _ =>
        Along.pure fun _ core holds => ⟨core.1.1, holds⟩
    | some source =>
      apply Along.input.bind
      intro memory
      split
      · exact (readForTransfer_along source _).weaken fun _ _ core holds => ⟨core.1, holds⟩
      · exact readForRestore_along source
      · exact (Along.aside (failCommand_spec _ _) (Completing.failCommand_each _ _)
          (R := Untouched)).bind fun _ => Along.pure fun _ core holds => ⟨core.1, holds⟩
      · exact Along.pure fun _ core holds => ⟨core.1, holds⟩
  · exact Along.pure fun _ core holds => ⟨core.1, holds⟩

end Coordinator
end PtyRuntime
