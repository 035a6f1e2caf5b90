import PtyRuntime.Application.Projection.Storage

/-! Where a projection's disk reservations are, and what each movement of one does
to the books: whoever holds a lease hands it on, and none is dropped while anything
may be stored under it. -/
namespace PtyRuntime

def PendingIo.commitLease : PendingIo → Option DiskLease
  | .commit _ disk _ _ => some disk
  | _ => none

def PendingIo.deleteLease : PendingIo → Option DiskLease
  | .delete attempt _ => some attempt.source.disk
  | _ => none

namespace Custody

def commitLease : Custody → Option DiskLease
  | .commit disk => some disk
  | _ => none

def deleteLease : Custody → Option DiskLease
  | .delete disk => some disk
  | _ => none

def slots : Custody → Nat
  | .slot => 1
  | _ => 0

/-- The lease the worker holds, if the slot has become one. -/
def Of (lease : DiskLease) (custody : Custody) : Prop :=
  custody = .commit lease ∨ custody = .delete lease

end Custody

/-- Where a reservation can be. A commit is in flight from the grant of its lease until
its outcome is settled, a deletion from the checkout of its source. -/
inductive DiskPlace where
  | commit
  | source
  | reaper
  | delete
  | ledger
  deriving DecidableEq, Repr

/-- The part of a projection that disk reservations are about. -/
structure Stock where
  config : ProjectionConfig
  source : Option CommittedSource
  io : Option PendingIo
  reaper : SourceReaper
  unreclaimed : List UnreclaimedSource
  disk : DiskBudget
  log : StorageLog

def Coordinator.stock (c : Coordinator) : Stock where
  config := c.config
  source := c.workspace.source
  io := c.workspace.io
  reaper := c.workspace.reaper
  unreclaimed := c.unreclaimed
  disk := c.disk
  log := c.storage

namespace Stock

def leasesAt (k : Stock) : DiskPlace → List DiskLease
  | .commit => (k.io.bind PendingIo.commitLease).toList ++
      (k.log.moving.bind Custody.commitLease).toList
  | .source => (k.source.map (·.disk)).toList
  | .reaper => k.reaper.queue.map (·.source.disk)
  | .delete => (k.io.bind PendingIo.deleteLease).toList ++
      (k.log.moving.bind Custody.deleteLease).toList
  | .ledger => k.unreclaimed.map (·.disk)

/-- Every reservation charged to the budget, those of other projections included. -/
def charged (k : Stock) : List DiskLease :=
  k.leasesAt .commit ++ k.leasesAt .source ++ k.leasesAt .reaper ++ k.leasesAt .delete ++
    k.leasesAt .ledger ++ k.disk.elsewhere

def loose (k : Stock) : Nat := (k.log.moving.map Custody.slots).getD 0

def book (k : Stock) : Book where
  charged := k.charged
  loose := k.loose
  disk := k.disk
  log := k.log

/-- What is known of the job in flight. -/
def Pending (log : StorageLog) : PendingIo → Prop
  | .commit _ disk _ none => ¬Book.Done log disk.id ∧ disk.id ∉ log.objects.map (·.disk.id)
  | .commit _ disk _ (some (.ok (.rejected _))) => Book.Done log disk.id
  | .delete attempt (some (.ok ())) => Book.Done log attempt.source.disk.id
  | _ => True

structure Accounted (k : Stock) : Prop where
  sound : k.book.Sound
  limits : k.disk.stored.limit = k.config.storedBytes ∧
    k.disk.storedSlots.limit = k.config.storedSlots
  sized : ∀ disk ∈ k.leasesAt .commit, disk.bytes = k.config.protectedBytes
  foreign : ∀ disk ∈ k.disk.elsewhere, disk.id ∉ k.log.submitted
  pending : ∀ job, k.io = some job → Pending k.log job

theorem pending_moving {log : StorageLog} (moving : Option Custody) {job : PendingIo}
    (pending : Pending log job) : Pending { log with moving } job := by
  rcases job with ⟨_, _, _, _ | _ | _ | _ | _⟩ | _ | _ | ⟨_, _ | _ | _⟩ <;> exact pending

variable {k : Stock}

/-- Handing reservations on, whoever holds them, leaves the books in order. -/
theorem Accounted.move {k' : Stock} (acc : Accounted k) (moving : Option Custody)
    (log : k'.log = { k.log with moving }) (disk : k'.disk = k.disk) (config : k'.config = k.config)
    (loose : k'.loose = k.loose) (count : ∀ lease, k'.charged.count lease = k.charged.count lease)
    (sized : ∀ lease ∈ k'.leasesAt .commit, lease ∈ k.leasesAt .commit)
    (pending : ∀ job, k'.io = some job → Pending k'.log job) : Accounted k' where
  sound := by
    have arranged := acc.sound.rearrange (List.perm_iff_count.mpr count) moving
    have same : k'.book = { k.book with charged := k'.charged, log := { k.log with moving } } := by
      rw [book, book, loose, disk, log]
    rw [same]
    exact arranged
  limits := by
    rw [disk, config]
    exact acc.limits
  sized lease member := by
    rw [config]
    exact acc.sized lease (sized lease member)
  foreign lease member := by
    rw [log]
    exact acc.foreign lease (disk ▸ member)
  pending := pending

theorem takeSlot_kept (acc : Accounted k) (idle : k.log.moving = none) {storedSlots : Quota}
    (granted : k.disk.storedSlots.acquire 1 = (true, storedSlots)) :
    Accounted { k with
      disk := { k.disk with storedSlots }, log := { k.log with moving := some .slot } } := by
  have taken := acc.sound.takeSlot (some .slot) granted
  obtain ⟨limit, -, -⟩ := Quota.acquire_true granted
  refine ⟨?_, ⟨acc.limits.1, limit.trans acc.limits.2⟩, ?_, acc.foreign,
    fun job busy => pending_moving _ (acc.pending job busy)⟩
  · simpa [book, charged, loose, leasesAt, idle, Custody.commitLease, Custody.deleteLease,
      Custody.slots] using taken
  · intro disk member
    refine acc.sized disk ?_
    simpa [leasesAt, idle, Custody.commitLease] using member

theorem giveBackSlot_kept (acc : Accounted k) (held : k.log.moving = some .slot) :
    Accounted { k with
      disk := { k.disk with storedSlots := k.disk.storedSlots.release 1 }
      log := { k.log with moving := none } } := by
  have given := acc.sound.giveBackSlot 0
    (by simp [book, loose, held, Custody.slots]) none
  refine ⟨?_, acc.limits, ?_, acc.foreign, fun job busy => pending_moving _ (acc.pending job busy)⟩
  · simpa [book, charged, loose, leasesAt, held, Custody.commitLease, Custody.deleteLease]
      using given
  · intro disk member
    refine acc.sized disk ?_
    simpa [leasesAt, held, Custody.commitLease] using member

/-- The lease the next grant makes. -/
def nextLease (k : Stock) : DiskLease := { id := k.log.granted, bytes := k.config.protectedBytes }

theorem takeBytes_kept (acc : Accounted k) (held : k.log.moving = some .slot) {stored : Quota}
    (granted : k.disk.stored.acquire k.config.protectedBytes = (true, stored)) :
    Accounted { k with
      disk := { k.disk with stored }
      log := { k.log with
        granted := k.log.granted + 1, moving := some (.commit k.nextLease) } } := by
  have quota := Quota.acquire_true granted
  refine ⟨?_, ⟨quota.1.trans acc.limits.1, acc.limits.2⟩, ?_, acc.foreign, fun job busy => ?_⟩
  · refine acc.sound.grant 0 { k.disk with stored } (some (.commit k.nextLease))
      k.config.protectedBytes quota ?_ acc.sound.slotLimit (List.perm_iff_count.mpr fun lease => ?_)
    · have slots : k.disk.storedSlots.used = k.charged.length + k.loose := acc.sound.slots
      have one : k.loose = 1 := by simp [loose, held, Custody.slots]
      rw [one] at slots
      exact slots
    · simp only [charged, leasesAt, book, held, Option.bind_some, Custody.commitLease,
        Custody.deleteLease, Option.toList, List.count_append, List.count_cons, List.count_nil,
        nextLease]
      omega
  · intro disk member
    simp only [leasesAt, Option.bind_some, Custody.commitLease, Option.toList,
      List.mem_append, List.mem_singleton] at member
    rcases member with old | rfl
    · exact acc.sized disk (List.mem_append_left _ old)
    · rfl
  · have before := acc.pending job busy
    rcases job with ⟨_, _, _, _ | _ | _ | _ | _⟩ | _ | _ | ⟨_, _ | _ | _⟩ <;> exact before

/-- The first half of dropping a lease. -/
theorem dropBytes_kept (acc : Accounted k) {lease : DiskLease} {custody : Custody}
    (held : k.log.moving = some custody) (own : custody.Of lease) (done : Book.Done k.log lease.id) :
    Accounted { k with
      disk := { k.disk with stored := k.disk.stored.release lease.bytes }
      log := { k.log with moving := some .slot } } := by
  have count : ∀ other, k.charged.count other = (lease :: charged { k with
      disk := { k.disk with stored := k.disk.stored.release lease.bytes }
      log := { k.log with moving := some .slot } }).count other := by
    intro other
    rcases own with rfl | rfl <;>
      simp only [charged, leasesAt, held, Option.bind_some, Custody.commitLease, Custody.deleteLease,
        Option.toList, List.count_append, List.count_cons, List.count_nil] <;> omega
  have perm := List.perm_iff_count.mpr count
  refine ⟨?_, acc.limits, ?_, acc.foreign, fun job busy => pending_moving _ (acc.pending job busy)⟩
  · refine acc.sound.drop { k.disk with stored := k.disk.stored.release lease.bytes } 1
      (some .slot) done rfl acc.sound.slotLimit ?_ perm
    have slots : k.disk.storedSlots.used = k.charged.length + k.loose := acc.sound.slots
    have none : k.loose = 0 := by
      rcases own with rfl | rfl <;> simp [loose, held, Custody.slots]
    rw [none, perm.length_eq] at slots
    exact slots
  · intro disk member
    refine acc.sized disk ?_
    simp only [leasesAt, Option.bind_some, Custody.commitLease, Option.toList,
      List.append_nil] at member
    exact List.mem_append_left _ member

/-- A commit is submitted with the lease the worker holds. -/
theorem submitCommit_kept (acc : Accounted k) (vacant : k.io = none) {attempt : ParkAttempt}
    {disk : DiskLease} (checkpoint : TerminalCheckpoint) (held : k.log.moving = some (.commit disk))
    (fresh : disk.id ∉ k.log.rejected ∧ disk.id ∉ k.log.deleted ∧
      disk.id ∉ k.log.objects.map (·.disk.id)) :
    Accounted { k with
      io := some (.commit attempt disk checkpoint none)
      log := k.log.submit (.commit attempt disk checkpoint none) } := by
  have charged : disk ∈ k.charged := by
    simp [Stock.charged, leasesAt, held, Custody.commitLease]
  have count : ∀ lease, (Stock.charged { k with
      io := some (.commit attempt disk checkpoint none)
      log := k.log.submit (.commit attempt disk checkpoint none) }).count lease =
      k.charged.count lease := by
    intro lease
    simp only [Stock.charged, leasesAt, held, vacant, StorageLog.submit, Option.bind_some,
      Option.bind_none, PendingIo.commitLease, PendingIo.deleteLease, Custody.commitLease,
      Custody.deleteLease, Option.toList, List.count_append, List.count_nil]
    omega
  refine ⟨?_, acc.limits, ?_, ?_, ?_⟩
  · have submitted := acc.sound.submit charged (List.perm_iff_count.mpr count) none
    have same : k.loose = 0 := by simp [loose, held, Custody.slots]
    simp only [book, same] at submitted
    exact submitted
  · intro lease member
    refine acc.sized lease ?_
    simpa [leasesAt, held, vacant, StorageLog.submit, PendingIo.commitLease, Custody.commitLease]
      using member
  · intro lease member submitted
    rcases List.mem_append.mp submitted with old | new
    · exact acc.foreign lease member old
    · have twice := acc.sound.distinct
      simp only [book, Stock.charged, List.map_append, List.nodup_append] at twice
      refine twice.2.2 disk.id ?_ lease.id (List.mem_map_of_mem member) (List.mem_singleton.mp new).symm
      simp [leasesAt, held, Custody.commitLease]
  · intro job same
    obtain rfl := Option.some.inj same
    refine ⟨?_, fresh.2.2⟩
    rintro (rejected | deleted | never)
    · exact fresh.1 rejected
    · exact fresh.2.1 deleted
    · exact never (List.mem_append_right _ (List.mem_singleton_self _))

theorem submitDelete_kept (acc : Accounted k) (vacant : k.io = none) {attempt : DeleteAttempt}
    (held : k.log.moving = some (.delete attempt.source.disk)) :
    Accounted { k with
      io := some (.delete attempt none), log := k.log.submit (.delete attempt none) } := by
  refine acc.move none rfl rfl rfl ?_ (fun lease => ?_) (fun lease member => ?_) fun job same => ?_
  · simp [loose, held, StorageLog.submit, Custody.slots]
  · simp only [charged, leasesAt, held, vacant, StorageLog.submit, Option.bind_some,
      Option.bind_none, PendingIo.commitLease, PendingIo.deleteLease, Custody.commitLease,
      Custody.deleteLease, Option.toList, List.count_append, List.count_nil]
    omega
  · simp [leasesAt, StorageLog.submit, PendingIo.commitLease] at member
  · obtain rfl := Option.some.inj same
    trivial

/-- A job that reads a source back holds no lease. -/
theorem submitRead_kept (acc : Accounted k) (vacant : k.io = none) {job : PendingIo}
    (bare : job.commitLease = none ∧ job.deleteLease = none) :
    Accounted { k with io := some job, log := k.log.submit job } := by
  cases job with
  | commit attempt disk checkpoint mailbox => cases bare.1
  | delete attempt mailbox => cases bare.2
  | restore _ _ | transfer _ _ _ =>
    refine acc.move k.log.moving rfl rfl rfl rfl (fun lease => ?_) (fun lease member => ?_)
      fun job same => ?_
    · simp [charged, leasesAt, vacant, StorageLog.submit, PendingIo.commitLease,
        PendingIo.deleteLease]
    · simpa [leasesAt, vacant, StorageLog.submit, PendingIo.commitLease] using member
    · obtain rfl := Option.some.inj same
      trivial

/-- A finished job gives its lease back to the worker. -/
theorem take_kept (acc : Accounted k) (idle : k.log.moving = none) {job : PendingIo}
    {finished : FinishedIo} (busy : k.io = some job) (ended : job.finished = some finished) :
    Accounted { k with io := none, log := k.log.take finished } := by
  have vacated : ∀ next, (none : Option PendingIo) = some next →
      Pending (k.log.take finished) next := fun _ wrong => by cases wrong
  rcases job with ⟨attempt, disk, checkpoint, _ | result⟩ | ⟨source, _ | result⟩ |
    ⟨request, source, _ | result⟩ | ⟨attempt, _ | result⟩ <;>
    simp only [PendingIo.finished, reduceCtorEq, Option.some.injEq] at ended <;> subst ended
  · refine acc.move (some (.commit disk)) rfl rfl rfl ?_ (fun lease => ?_) (fun lease member => ?_)
      vacated
    · simp [loose, idle, StorageLog.take, StorageLog.hold, Custody.slots]
    · simp [charged, leasesAt, idle, busy, StorageLog.take, StorageLog.hold, PendingIo.commitLease,
        PendingIo.deleteLease, Custody.commitLease, Custody.deleteLease]
    · simpa [leasesAt, busy, idle, StorageLog.take, StorageLog.hold, PendingIo.commitLease,
        Custody.commitLease] using member
  · refine acc.move k.log.moving rfl rfl rfl rfl (fun lease => ?_) (fun lease member => ?_) vacated
    · simp [charged, leasesAt, busy, StorageLog.take, PendingIo.commitLease, PendingIo.deleteLease]
    · simpa [leasesAt, busy, StorageLog.take, PendingIo.commitLease] using member
  · refine acc.move k.log.moving rfl rfl rfl rfl (fun lease => ?_) (fun lease member => ?_) vacated
    · simp [charged, leasesAt, busy, StorageLog.take, PendingIo.commitLease, PendingIo.deleteLease]
    · simpa [leasesAt, busy, StorageLog.take, PendingIo.commitLease] using member
  · refine acc.move (some (.delete attempt.source.disk)) rfl rfl rfl ?_ (fun lease => ?_)
      (fun lease member => ?_) vacated
    · simp [loose, idle, StorageLog.take, StorageLog.hold, Custody.slots]
    · simp [charged, leasesAt, idle, busy, StorageLog.take, StorageLog.hold, PendingIo.commitLease,
        PendingIo.deleteLease, Custody.commitLease, Custody.deleteLease]
    · simp [leasesAt, StorageLog.take, StorageLog.hold, Custody.commitLease] at member

/-- An abandoned job gives its lease back to the worker. -/
theorem abandon_kept (acc : Accounted k) (idle : k.log.moving = none) :
    Accounted { k with io := none, log := k.log.abandon k.io } := by
  have vacated : ∀ next, (none : Option PendingIo) = some next →
      Pending (k.log.abandon k.io) next := fun _ wrong => by cases wrong
  rcases busy : k.io with _ | (⟨attempt, disk, checkpoint, mailbox⟩ | ⟨source, mailbox⟩ |
    ⟨request, source, mailbox⟩ | ⟨attempt, mailbox⟩) <;> rw [busy] at vacated
  · refine acc.move k.log.moving rfl rfl rfl rfl (fun lease => ?_) (fun lease member => ?_) vacated
    · simp [charged, leasesAt, busy, StorageLog.abandon]
    · simpa [leasesAt, busy, StorageLog.abandon] using member
  · refine acc.move (some (.commit disk)) rfl rfl rfl ?_ (fun lease => ?_) (fun lease member => ?_)
      vacated
    · simp [loose, idle, StorageLog.abandon, StorageLog.hold, Custody.slots]
    · simp [charged, leasesAt, idle, busy, StorageLog.abandon, StorageLog.hold,
        PendingIo.commitLease, PendingIo.deleteLease, Custody.commitLease, Custody.deleteLease]
    · simpa [leasesAt, busy, idle, StorageLog.abandon, StorageLog.hold, PendingIo.commitLease,
        Custody.commitLease] using member
  · refine acc.move k.log.moving rfl rfl rfl rfl (fun lease => ?_) (fun lease member => ?_) vacated
    · simp [charged, leasesAt, busy, StorageLog.abandon, PendingIo.commitLease,
        PendingIo.deleteLease]
    · simpa [leasesAt, busy, StorageLog.abandon, PendingIo.commitLease] using member
  · refine acc.move k.log.moving rfl rfl rfl rfl (fun lease => ?_) (fun lease member => ?_) vacated
    · simp [charged, leasesAt, busy, StorageLog.abandon, PendingIo.commitLease,
        PendingIo.deleteLease]
    · simpa [leasesAt, busy, StorageLog.abandon, PendingIo.commitLease] using member
  · refine acc.move (some (.delete attempt.source.disk)) rfl rfl rfl ?_ (fun lease => ?_)
      (fun lease member => ?_) vacated
    · simp [loose, idle, StorageLog.abandon, StorageLog.hold, Custody.slots]
    · simp [charged, leasesAt, idle, busy, StorageLog.abandon, StorageLog.hold,
        PendingIo.commitLease, PendingIo.deleteLease, Custody.commitLease, Custody.deleteLease]
    · simp [leasesAt, StorageLog.abandon, StorageLog.hold, Custody.commitLease] at member

/-- The worker puts the lease it holds down as the source, in the reaper or in the
runtime's ledger. -/
theorem place_kept (acc : Accounted k) {lease : DiskLease} {custody : Custody}
    (held : k.log.moving = some custody) (own : custody.Of lease) (source : Option CommittedSource)
    (reaper : SourceReaper) (unreclaimed : List UnreclaimedSource)
    (count : ∀ other, ((source.map (·.disk)).toList ++ reaper.queue.map (·.source.disk) ++
        unreclaimed.map (·.disk)).count other =
      (lease :: (k.leasesAt .source ++ k.leasesAt .reaper ++ k.leasesAt .ledger)).count other) :
    Accounted { k with source, reaper, unreclaimed, log := k.log.place } := by
  refine acc.move none rfl rfl rfl ?_ (fun other => ?_) (fun other member => ?_)
    fun job busy => pending_moving _ (acc.pending job busy)
  · rcases own with rfl | rfl <;> simp [loose, held, StorageLog.place, Custody.slots]
  · have moved := count other
    rcases own with rfl | rfl <;>
      simp only [charged, leasesAt, held, StorageLog.place, Option.bind_some, Option.bind_none,
        Custody.commitLease, Custody.deleteLease, Option.toList, List.count_append, List.count_cons,
        List.count_nil] at moved ⊢ <;> omega
  · simp only [leasesAt, StorageLog.place, Option.bind_none, Option.toList, List.append_nil] at member
    exact List.mem_append_left _ member

/-- The reaper hands its oldest source to the worker. -/
theorem checkOut_kept (acc : Accounted k) (idle : k.log.moving = none) {attempt : DeleteAttempt}
    {reaper : SourceReaper} (due : k.reaper.checkOut = some (attempt, reaper)) :
    Accounted { k with reaper, log := k.log.hold (.delete attempt.source.disk) } := by
  have queue : k.reaper.queue = attempt :: reaper.queue := by
    unfold SourceReaper.checkOut at due
    cases queue : k.reaper.queue with
    | nil => simp [queue] at due
    | cons first rest =>
      simp only [queue] at due
      split at due
      · cases due
      · obtain ⟨rfl, rfl⟩ := Prod.mk.inj (Option.some.inj due)
        rfl
  refine acc.move (some (.delete attempt.source.disk)) rfl rfl rfl ?_ (fun lease => ?_)
    (fun lease member => ?_) fun job busy => pending_moving _ (acc.pending job busy)
  · simp [loose, idle, StorageLog.hold, Custody.slots]
  · simp only [charged, leasesAt, idle, queue, StorageLog.hold, Option.bind_some, Option.bind_none,
      Custody.commitLease, Custody.deleteLease, Option.toList, List.count_append, List.map_cons,
      List.count_cons, List.count_nil]
    omega
  · simpa [leasesAt, idle, StorageLog.hold, Custody.commitLease] using member

/-- Sources move between the workspace, the reaper and the ledger. -/
theorem shift_kept (acc : Accounted k) (source : Option CommittedSource) (reaper : SourceReaper)
    (unreclaimed : List UnreclaimedSource)
    (count : ∀ other, ((source.map (·.disk)).toList ++ reaper.queue.map (·.source.disk) ++
        unreclaimed.map (·.disk)).count other =
      (k.leasesAt .source ++ k.leasesAt .reaper ++ k.leasesAt .ledger).count other) :
    Accounted { k with source, reaper, unreclaimed } := by
  refine acc.move k.log.moving rfl rfl rfl rfl (fun other => ?_) (fun other member => member)
    fun job busy => acc.pending job busy
  have moved := count other
  simp only [charged, leasesAt, List.count_append] at moved ⊢
  omega

/-- The ciphertext a commit job offers the store fits the protected limit. -/
theorem offeredBytes_le {key : CheckpointKey} {descriptor : CheckpointDescriptor}
    {protectedMax bytes : Nat} {a : Answer}
    (offered : offeredBytes key descriptor protectedMax a = some bytes) : bytes ≤ protectedMax := by
  unfold offeredBytes at offered
  split at offered
  · cases offered
  · split at offered
    · cases offered
    · rename_i fits
      obtain rfl := Option.some.inj offered
      simp only [not_or, not_lt] at fits
      exact fits.2.2.2

theorem leasesAt_publish (k : Stock) {job : PendingIo} (busy : k.io = some job) (plaintextMax : Nat)
    (a : Answer) (log : StorageLog) (moving : log.moving = k.log.moving) (place : DiskPlace) :
    leasesAt { k with io := some (job.publish k.config plaintextMax a), log } place =
      k.leasesAt place := by
  cases place <;>
    rcases job with ⟨_, _, _, _ | _⟩ | ⟨_, _ | _⟩ | ⟨_, _, _ | _⟩ | ⟨_, _ | _⟩ <;>
      simp [leasesAt, busy, moving, PendingIo.publish, PendingIo.commitLease, PendingIo.deleteLease]

/-- A job only adds to what is known of its lease. -/
theorem publish_reports (log : StorageLog) (config : ProjectionConfig) (a : Answer) (job : PendingIo) :
    (log.publish config a job).moving = log.moving ∧
      (log.publish config a job).submitted = log.submitted ∧
      log.rejected ⊆ (log.publish config a job).rejected ∧
      log.deleted ⊆ (log.publish config a job).deleted := by
  have same : log.moving = log.moving ∧ log.submitted = log.submitted ∧
      log.rejected ⊆ log.rejected ∧ log.deleted ⊆ log.deleted :=
    ⟨rfl, rfl, List.Subset.refl _, List.Subset.refl _⟩
  rcases job with ⟨attempt, disk, checkpoint, _ | result⟩ | ⟨source, mailbox⟩ |
    ⟨request, source, mailbox⟩ | ⟨attempt, _ | result⟩
  · simp only [StorageLog.publish]
    split
    · exact ⟨rfl, rfl, List.subset_append_left _ _, List.Subset.refl _⟩
    · split <;> exact same
  · exact same
  · exact same
  · exact same
  · simp only [StorageLog.publish]
    split
    · exact same
    · exact ⟨rfl, rfl, List.Subset.refl _, List.subset_append_left _ _⟩
  · exact same

/-- A job that has reported keeps the leases where they are. -/
theorem Accounted.publish (acc : Accounted k) {job : PendingIo} (busy : k.io = some job)
    (plaintextMax : Nat) (a : Answer) (log : StorageLog) (moving : log.moving = k.log.moving)
    (submitted : log.submitted = k.log.submitted) (sound : Book.Sound { k.book with log })
    (pending : Pending log (job.publish k.config plaintextMax a)) :
    Accounted { k with io := some (job.publish k.config plaintextMax a), log } := by
  have places := k.leasesAt_publish busy plaintextMax a log moving
  refine ⟨?_, acc.limits, ?_, ?_, ?_⟩
  · have same : book { k with io := some (job.publish k.config plaintextMax a), log } =
        { k.book with log } := by
      simp only [book, charged, loose, places, moving]
    rw [same]
    exact sound
  · intro disk member
    rw [places] at member
    exact acc.sized disk member
  · intro disk member
    exact submitted ▸ acc.foreign disk member
  · intro next same
    obtain rfl := Option.some.inj same
    exact pending

theorem publishCommit_kept (acc : Accounted k) {attempt : ParkAttempt} {disk : DiskLease}
    {checkpoint : TerminalCheckpoint} (busy : k.io = some (.commit attempt disk checkpoint none))
    (plaintextMax : Nat) (a : Answer) :
    Accounted { k with
      io := some (PendingIo.publish k.config plaintextMax a (.commit attempt disk checkpoint none))
      log := k.log.publish k.config a (.commit attempt disk checkpoint none) } := by
  obtain ⟨live, empty⟩ := acc.pending _ busy
  have held : disk ∈ k.leasesAt .commit := by simp [leasesAt, busy, PendingIo.commitLease]
  have charged : disk ∈ k.charged := by simp [Stock.charged, held]
  have stored : ∀ bytes, offeredBytes attempt.key checkpoint.descriptor k.config.protectedBytes a =
      some bytes → Book.Sound { k.book with
        log := { k.log with objects := k.log.objects ++ [{ disk, bytes }] } } := by
    intro bytes offered
    refine acc.sound.store charged ?_ live empty
    rw [acc.sized disk held]
    exact offeredBytes_le offered
  simp only [StorageLog.publish]
  split
  · -- A rejection promises that nothing was stored.
    rename_i error rejected
    refine acc.publish busy plaintextMax a _ rfl rfl ?_ ?_
    · refine acc.sound.report charged { k.log with rejected := k.log.rejected ++ [disk.id] } rfl rfl
        (fun id => ?_) (fun id => ?_) (List.Sublist.refl _) fun object member same => ?_
      · simp only [List.mem_append, List.mem_singleton, book]
        tauto
      · simp only [book]
        tauto
      · exact empty (same ▸ List.mem_map_of_mem member)
    · simp only [PendingIo.publish, rejected, Pending]
      exact .inl (List.mem_append_right _ (List.mem_singleton_self _))
  · rename_i other
    have settled : ∀ log : StorageLog, Pending log (PendingIo.publish k.config plaintextMax a
        (.commit attempt disk checkpoint none)) := by
      intro log
      simp only [PendingIo.publish]
      rcases reported : jobResult a (.ok
          (commitJob attempt.key checkpoint.descriptor k.config.protectedBytes a)) with
        error | (reference | error | error)
      · trivial
      · trivial
      · exact absurd reported (other error)
      · trivial
    cases offered : offeredBytes attempt.key checkpoint.descriptor k.config.protectedBytes a with
    | none => exact acc.publish busy plaintextMax a _ rfl rfl acc.sound (settled _)
    | some bytes => exact acc.publish busy plaintextMax a _ rfl rfl (stored bytes offered) (settled _)

theorem publishDelete_kept (acc : Accounted k) {attempt : DeleteAttempt}
    (busy : k.io = some (.delete attempt none)) (plaintextMax : Nat) (a : Answer) :
    Accounted { k with
      io := some (PendingIo.publish k.config plaintextMax a (.delete attempt none))
      log := k.log.publish k.config a (.delete attempt none) } := by
  have charged : attempt.source.disk ∈ k.charged := by
    simp [Stock.charged, leasesAt, busy, PendingIo.deleteLease]
  simp only [StorageLog.publish]
  split
  · rename_i error failed
    refine acc.publish busy plaintextMax a _ rfl rfl acc.sound ?_
    simp only [PendingIo.publish, failed, Pending]
  · rename_i deleted
    refine acc.publish busy plaintextMax a _ rfl rfl ?_ ?_
    · refine acc.sound.report charged _ rfl rfl (fun id => ?_) (fun id => ?_)
        List.filter_sublist fun object member => ?_
      · simp only [book]
        tauto
      · simp only [List.mem_append, List.mem_singleton, book]
        tauto
      · simpa using (List.mem_filter.mp member).2
    · simp only [PendingIo.publish, deleted, Pending]
      exact .inr (.inl (List.mem_append_right _ (List.mem_singleton_self _)))

/-- The blocking pool completes the job in flight. -/
theorem publish_kept (acc : Accounted k) {job : PendingIo} (busy : k.io = some job)
    (plaintextMax : Nat) (a : Answer) :
    Accounted { k with
      io := some (job.publish k.config plaintextMax a), log := k.log.publish k.config a job } := by
  have unchanged : ∀ job, k.io = some job → (∀ log, Pending log (job.publish k.config plaintextMax a)) →
      Accounted { k with io := some (job.publish k.config plaintextMax a) } := fun job busy pending =>
    acc.publish busy plaintextMax a k.log rfl rfl acc.sound (pending _)
  have again : ∀ job, k.io = some job → job.publish k.config plaintextMax a = job →
      Accounted { k with io := some (job.publish k.config plaintextMax a) } := by
    intro job busy same
    rw [same, ← busy]
    exact acc
  rcases job with ⟨attempt, disk, checkpoint, _ | result⟩ | ⟨source, _ | result⟩ |
    ⟨request, source, _ | result⟩ | ⟨attempt, _ | result⟩
  · exact publishCommit_kept acc busy plaintextMax a
  · exact again _ busy rfl
  · exact unchanged _ busy fun _ => trivial
  · exact again _ busy rfl
  · exact unchanged _ busy fun _ => trivial
  · exact again _ busy rfl
  · exact publishDelete_kept acc busy plaintextMax a
  · exact again _ busy rfl

theorem pending_granted {log : StorageLog} (granted : Nat) {job : PendingIo}
    (pending : Pending log job) : Pending { log with granted } job := by
  rcases job with ⟨_, _, _, _ | _ | _ | _ | _⟩ | _ | _ | ⟨_, _ | _ | _⟩ <;> exact pending

/-- Another projection takes a lease. -/
theorem acquireElsewhere_kept (acc : Accounted k) {bytes : Nat} {stored storedSlots : Quota}
    (slot : k.disk.storedSlots.acquire 1 = (true, storedSlots))
    (room : k.disk.stored.acquire bytes = (true, stored)) :
    Accounted { k with
      disk := {
        stored, storedSlots
        elsewhere := k.disk.elsewhere ++ [{ id := k.log.granted, bytes }] }
      log := { k.log with granted := k.log.granted + 1 } } := by
  obtain ⟨slotLimit, slots, slotWithin⟩ := Quota.acquire_true slot
  have quota := Quota.acquire_true room
  refine ⟨?_, ⟨quota.1.trans acc.limits.1, slotLimit.trans acc.limits.2⟩, acc.sized, ?_,
    fun job busy => pending_granted _ (acc.pending job busy)⟩
  · refine acc.sound.grant k.loose _ k.log.moving bytes quota ?_ ?_ (List.perm_iff_count.mpr fun lease => ?_)
    · have used : k.disk.storedSlots.used = k.charged.length + k.loose := acc.sound.slots
      change storedSlots.used = k.charged.length + 1 + k.loose
      omega
    · change storedSlots.used ≤ storedSlots.limit
      rw [slotLimit]
      exact slotWithin
    · simp only [charged, leasesAt, book, List.count_append, List.count_cons, List.count_nil]
      omega
  · intro disk member submitted
    rcases List.mem_append.mp member with old | new
    · exact acc.foreign disk old submitted
    · rw [List.mem_singleton.mp new] at submitted
      exact absurd (acc.sound.known _ (.inl submitted)) (lt_irrefl _)

theorem count_elsewhere {elsewhere : List DiskLease} {index : Nat} {disk : DiskLease}
    (found : elsewhere[index]? = some disk) (lease : DiskLease) :
    elsewhere.count lease = (disk :: elsewhere.eraseIdx index).count lease := by
  obtain ⟨below, rfl⟩ := List.getElem?_eq_some_iff.mp found
  exact ((List.getElem_cons_eraseIdx_perm below).count_eq lease).symm

/-- Another projection drops a lease it holds. -/
theorem releaseElsewhere_kept (acc : Accounted k) {index : Nat} {lease : DiskLease}
    (found : k.disk.elsewhere[index]? = some lease) :
    Accounted { k with disk := {
      stored := k.disk.stored.release lease.bytes
      storedSlots := k.disk.storedSlots.release 1
      elsewhere := k.disk.elsewhere.eraseIdx index } } := by
  have foreign := acc.foreign lease (List.mem_of_getElem? found)
  have perm : k.charged.Perm (lease :: charged { k with disk := {
      stored := k.disk.stored.release lease.bytes
      storedSlots := k.disk.storedSlots.release 1
      elsewhere := k.disk.elsewhere.eraseIdx index } }) := by
    refine List.perm_iff_count.mpr fun other => ?_
    have split := count_elsewhere found other
    simp only [charged, leasesAt, List.count_append, List.count_cons] at split ⊢
    omega
  refine ⟨?_, acc.limits, acc.sized, fun disk member =>
    acc.foreign disk (List.mem_of_mem_eraseIdx member), acc.pending⟩
  refine acc.sound.drop _ k.loose k.log.moving (.inr (.inr foreign)) rfl ?_ ?_ perm
  · exact (Nat.sub_le _ _).trans acc.sound.slotLimit
  · have used : k.disk.storedSlots.used = k.charged.length + k.loose := acc.sound.slots
    rw [perm.length_eq, List.length_cons] at used
    change k.disk.storedSlots.used - 1 = _
    omega

/-- Another projection surrenders a lease to the runtime's ledger. -/
theorem surrenderElsewhere_kept (acc : Accounted k) {index : Nat} {source : UnreclaimedSource}
    (found : k.disk.elsewhere[index]? = some source.disk) :
    Accounted { k with
      disk := { k.disk with elsewhere := k.disk.elsewhere.eraseIdx index }
      unreclaimed := k.unreclaimed ++ [source] } := by
  have perm : (charged { k with
      disk := { k.disk with elsewhere := k.disk.elsewhere.eraseIdx index }
      unreclaimed := k.unreclaimed ++ [source] }).Perm k.charged := by
    refine List.perm_iff_count.mpr fun other => ?_
    have split := count_elsewhere found other
    simp only [charged, leasesAt, List.map_append, List.map_cons, List.map_nil, List.count_append,
      List.count_cons, List.count_nil] at split ⊢
    omega
  have arranged := acc.sound.rearrange perm k.log.moving
  exact ⟨{ arranged with }, acc.limits, acc.sized, fun disk member =>
    acc.foreign disk (List.mem_of_mem_eraseIdx member), acc.pending⟩

end Stock
end PtyRuntime
