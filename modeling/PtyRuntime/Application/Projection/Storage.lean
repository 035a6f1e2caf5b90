import PtyRuntime.Application.Projection.Callers
import Mathlib.Data.List.Perm.Basic
import Mathlib.Algebra.BigOperators.Group.List.Basic

/-! The books of a runtime's storage budget: which reservations are charged, what the
provider may hold under them, and why any other reservation was released. Each
lemma says what one movement of a reservation does to the books. -/
namespace PtyRuntime

theorem Quota.acquire_true {q q' : Quota} {amount : Nat} (granted : q.acquire amount = (true, q')) :
    q'.limit = q.limit ∧ q'.used = q.used + amount ∧ q'.used ≤ q.limit := by
  unfold Quota.acquire at granted
  cases sum : (checkedAdd q.used amount).filter (· ≤ q.limit) with
  | none => simp [sum] at granted
  | some used =>
    rw [sum] at granted
    obtain rfl := (Prod.mk.inj granted).2
    obtain ⟨added, within⟩ := Option.filter_eq_some_iff.mp sum
    exact ⟨rfl, (checkedAdd_eq_some.mp added).2, by simpa using within⟩

/-- The charged reservations, the slots held without bytes, the budget they are
charged to and what is known of their commits and deletions. -/
structure Book where
  charged : List DiskLease
  loose : Nat
  disk : DiskBudget
  log : StorageLog

namespace Book

/-- Nothing can be in the store under this reservation. -/
def Done (log : StorageLog) (id : Nat) : Prop :=
  id ∈ log.rejected ∨ id ∈ log.deleted ∨ id ∉ log.submitted

structure Sound (b : Book) : Prop where
  distinct : (b.charged.map (·.id)).Nodup
  issued : ∀ disk ∈ b.charged, disk.id < b.log.granted
  slots : b.disk.storedSlots.used = b.charged.length + b.loose
  slotLimit : b.disk.storedSlots.used ≤ b.disk.storedSlots.limit
  bytes : b.disk.stored.used = (b.charged.map (·.bytes)).sum
  byteLimit : b.disk.stored.used ≤ b.disk.stored.limit
  objects : ∀ object ∈ b.log.objects, object.disk ∈ b.charged ∧ object.bytes ≤ object.disk.bytes ∧
    ¬Done b.log object.disk.id
  single : (b.log.objects.map (·.disk.id)).Nodup
  known : ∀ id, id ∈ b.log.submitted ∨ id ∈ b.log.rejected ∨ id ∈ b.log.deleted → id < b.log.granted
  released : ∀ id < b.log.granted, id ∉ b.charged.map (·.id) → Done b.log id

variable {b : Book}

/-- Moving a reservation from one holder to another changes nothing. -/
theorem Sound.rearrange (sound : b.Sound) {charged : List DiskLease} (perm : charged.Perm b.charged)
    (moving : Option Custody) :
    Sound { b with charged, log := { b.log with moving } } where
  distinct := (perm.map _).nodup_iff.mpr sound.distinct
  issued disk member := sound.issued disk (perm.mem_iff.mp member)
  slots := by
    rw [perm.length_eq]
    exact sound.slots
  slotLimit := sound.slotLimit
  bytes := by
    rw [(perm.map _).sum_eq]
    exact sound.bytes
  byteLimit := sound.byteLimit
  objects object member :=
    let ⟨charged, rest⟩ := sound.objects object member
    ⟨perm.mem_iff.mpr charged, rest⟩
  single := sound.single
  known := sound.known
  released id below absent := sound.released id below fun present =>
    absent ((perm.map _).mem_iff.mpr present)

theorem Sound.takeSlot (sound : b.Sound) {storedSlots : Quota} (moving : Option Custody)
    (granted : b.disk.storedSlots.acquire 1 = (true, storedSlots)) :
    Sound { b with
      loose := b.loose + 1
      disk := { b.disk with storedSlots }
      log := { b.log with moving } } := by
  obtain ⟨limit, used, within⟩ := Quota.acquire_true granted
  exact { sound with
    slots := by
      rw [used, sound.slots]
      exact Nat.add_assoc _ _ _
    slotLimit := by
      rw [limit]
      exact within }

theorem Sound.giveBackSlot (sound : b.Sound) (loose : Nat) (held : b.loose = loose + 1)
    (moving : Option Custody) :
    Sound { b with
      loose
      disk := { b.disk with storedSlots := b.disk.storedSlots.release 1 }
      log := { b.log with moving } } := by
  have used : b.disk.storedSlots.used = b.charged.length + loose + 1 := by
    rw [sound.slots, held]
    rfl
  exact { sound with
    slots := by
      simp only [Quota.release, used]
      omega
    slotLimit := (Nat.sub_le _ _).trans sound.slotLimit }

/-- A granted lease is new: nothing is known of it. -/
theorem Sound.grant (sound : b.Sound) (loose : Nat) (disk : DiskBudget) (moving : Option Custody)
    (bytes : Nat) (stored : disk.stored.limit = b.disk.stored.limit ∧
      disk.stored.used = b.disk.stored.used + bytes ∧ disk.stored.used ≤ b.disk.stored.limit)
    (slots : disk.storedSlots.used = b.charged.length + 1 + loose)
    (slotLimit : disk.storedSlots.used ≤ disk.storedSlots.limit) {charged : List DiskLease}
    (perm : charged.Perm ({ id := b.log.granted, bytes } :: b.charged)) :
    Sound { charged, loose, disk, log := { b.log with granted := b.log.granted + 1, moving } } := by
  obtain ⟨limit, used, within⟩ := stored
  have fresh : b.log.granted ∉ b.charged.map (·.id) := by
    intro present
    obtain ⟨disk, member, same⟩ := List.mem_map.mp present
    exact absurd same (sound.issued disk member).ne
  constructor
  · rw [(perm.map _).nodup_iff]
    exact List.nodup_cons.mpr ⟨fresh, sound.distinct⟩
  · intro disk member
    rcases List.mem_cons.mp (perm.mem_iff.mp member) with rfl | old
    · exact Nat.lt_succ_self _
    · exact (sound.issued disk old).trans (Nat.lt_succ_self _)
  · rw [perm.length_eq, slots]
    rfl
  · exact slotLimit
  · rw [(perm.map _).sum_eq, used, sound.bytes, List.map_cons, List.sum_cons]
    exact Nat.add_comm _ _
  · rw [limit]
    exact within
  · intro object member
    obtain ⟨charged, rest⟩ := sound.objects object member
    exact ⟨perm.mem_iff.mpr (List.mem_cons_of_mem _ charged), rest⟩
  · exact sound.single
  · exact fun id member => (sound.known id member).trans (Nat.lt_succ_self _)
  · intro id below absent
    have other : id ≠ b.log.granted := by
      rintro rfl
      exact absent ((perm.map _).mem_iff.mpr List.mem_cons_self)
    have below : id < b.log.granted + 1 := below
    refine sound.released id (by omega) fun present => absent ?_
    exact (perm.map _).mem_iff.mpr (List.mem_cons_of_mem _ present)

/-- A lease is dropped once nothing can be stored under it. -/
theorem Sound.drop (sound : b.Sound) {lease : DiskLease} (disk : DiskBudget) (loose : Nat)
    (moving : Option Custody) (done : Done b.log lease.id)
    (stored : disk.stored = b.disk.stored.release lease.bytes)
    (slotLimit : disk.storedSlots.used ≤ disk.storedSlots.limit) {charged : List DiskLease}
    (slots : disk.storedSlots.used = charged.length + loose)
    (perm : b.charged.Perm (lease :: charged)) :
    Sound { charged, loose, disk, log := { b.log with moving } } := by
  have distinct := (perm.map (·.id)).nodup_iff.mp sound.distinct
  rw [List.map_cons, List.nodup_cons] at distinct
  have total : b.disk.stored.used = lease.bytes + (charged.map (·.bytes)).sum := by
    rw [sound.bytes, (perm.map _).sum_eq, List.map_cons, List.sum_cons]
  constructor
  · exact distinct.2
  · exact fun disk member => sound.issued disk (perm.mem_iff.mpr (List.mem_cons_of_mem _ member))
  · exact slots
  · exact slotLimit
  · change disk.stored.used = _
    rw [stored, Quota.release, total]
    exact Nat.add_sub_cancel_left _ _
  · change disk.stored.used ≤ disk.stored.limit
    rw [stored]
    exact (Nat.sub_le _ _).trans sound.byteLimit
  · intro object member
    obtain ⟨held, within, live⟩ := sound.objects object member
    refine ⟨?_, within, live⟩
    rcases List.mem_cons.mp (perm.mem_iff.mp held) with same | other
    · exact absurd (same ▸ done) live
    · exact other
  · exact sound.single
  · exact sound.known
  · intro id below absent
    by_cases same : id = lease.id
    · exact same ▸ done
    · refine sound.released id below fun present => ?_
      rcases List.mem_cons.mp ((perm.map (·.id)).mem_iff.mp present) with wrong | other
      · exact same wrong
      · exact absent other

/-- Submitting a commit may put something under its lease from then on. -/
theorem Sound.submit (sound : b.Sound) {lease : DiskLease} (held : lease ∈ b.charged)
    {charged : List DiskLease} (perm : charged.Perm b.charged) (moving : Option Custody) :
    Sound { b with
      charged, log := { b.log with moving, submitted := b.log.submitted ++ [lease.id] } } := by
  have more : ∀ id, Done { b.log with moving, submitted := b.log.submitted ++ [lease.id] } id →
      Done b.log id := by
    rintro id (rejected | deleted | never)
    · exact .inl rejected
    · exact .inr (.inl deleted)
    · exact .inr (.inr fun old => never (List.mem_append_left _ old))
  have less : ∀ id, id ≠ lease.id → Done b.log id →
      Done { b.log with moving, submitted := b.log.submitted ++ [lease.id] } id := by
    rintro id other (rejected | deleted | never)
    · exact .inl rejected
    · exact .inr (.inl deleted)
    · refine .inr (.inr fun now => ?_)
      rcases List.mem_append.mp now with old | new
      · exact never old
      · exact other (List.mem_singleton.mp new)
  have arranged := sound.rearrange perm moving
  exact {
    distinct := arranged.distinct
    issued := arranged.issued
    slots := arranged.slots
    slotLimit := arranged.slotLimit
    bytes := arranged.bytes
    byteLimit := arranged.byteLimit
    objects := fun object member =>
      let ⟨charged, within, live⟩ := arranged.objects object member
      ⟨charged, within, fun done => live (more _ done)⟩
    single := sound.single
    known := by
      rintro id (submitted | other)
      · rcases List.mem_append.mp submitted with old | new
        · exact sound.known id (.inl old)
        · rw [List.mem_singleton.mp new]
          exact sound.issued lease held
      · exact sound.known id (.inr other)
    released := by
      intro id below absent
      refine less id ?_ (arranged.released id below absent)
      rintro rfl
      exact absent ((perm.map _).mem_iff.mpr (List.mem_map_of_mem held)) }

/-- A job reports on its own lease: a rejection, or a deletion after which nothing is
left under it. -/
theorem Sound.report (sound : b.Sound) {lease : DiskLease} (held : lease ∈ b.charged)
    (log : StorageLog) (granted : log.granted = b.log.granted) (submitted : log.submitted = b.log.submitted)
    (rejected : ∀ id, id ∈ log.rejected ↔ id ∈ b.log.rejected ∨ (id = lease.id ∧ id ∈ log.rejected))
    (deleted : ∀ id, id ∈ log.deleted ↔ id ∈ b.log.deleted ∨ (id = lease.id ∧ id ∈ log.deleted))
    (objects : log.objects.Sublist b.log.objects)
    (none : ∀ object ∈ log.objects, object.disk.id ≠ lease.id) : Sound { b with log } := by
  have more : ∀ id, id ≠ lease.id → Done log id → Done b.log id := by
    rintro id other (reported | reported | never)
    · exact .inl (((rejected id).mp reported).resolve_right fun wrong => other wrong.1)
    · exact .inr (.inl (((deleted id).mp reported).resolve_right fun wrong => other wrong.1))
    · exact .inr (.inr (submitted ▸ never))
  exact {
    distinct := sound.distinct
    issued := fun disk member => granted ▸ sound.issued disk member
    slots := sound.slots
    slotLimit := sound.slotLimit
    bytes := sound.bytes
    byteLimit := sound.byteLimit
    objects := fun object member =>
      let ⟨charged, within, live⟩ := sound.objects object (objects.subset member)
      ⟨charged, within, fun done => live (more _ (none object member) done)⟩
    single := sound.single.sublist (objects.map _)
    known := by
      change ∀ id, _ → id < log.granted
      rw [granted]
      rintro id (known | known | known)
      · exact sound.known id (.inl (submitted ▸ known))
      · rcases (rejected id).mp known with old | ⟨rfl, -⟩
        · exact sound.known id (.inr (.inl old))
        · exact sound.issued lease held
      · rcases (deleted id).mp known with old | ⟨rfl, -⟩
        · exact sound.known id (.inr (.inr old))
        · exact sound.issued lease held
    released := by
      intro id below absent
      rcases sound.released id (granted ▸ below) absent with old | old | never
      · exact .inl ((rejected id).mpr (.inl old))
      · exact .inr (.inl ((deleted id).mpr (.inl old)))
      · exact .inr (.inr (submitted.symm ▸ never)) }

/-- A commit job has put ciphertext under its lease. -/
theorem Sound.store (sound : b.Sound) {lease : DiskLease} {bytes : Nat} (held : lease ∈ b.charged)
    (within : bytes ≤ lease.bytes) (live : ¬Done b.log lease.id)
    (empty : lease.id ∉ b.log.objects.map (·.disk.id)) :
    Sound { b with log := { b.log with objects := b.log.objects ++ [{ disk := lease, bytes }] } } :=
  { sound with
    objects := by
      intro object member
      rcases List.mem_append.mp member with old | new
      · exact sound.objects object old
      · rw [List.mem_singleton.mp new]
        exact ⟨held, within, live⟩
    single := by
      rw [List.map_append, List.nodup_append]
      refine ⟨sound.single, List.pairwise_singleton _ _, ?_⟩
      rintro id old other new rfl
      rw [List.mem_singleton.mp new] at old
      exact empty old }

end Book
end PtyRuntime
