import PtyRuntime.Application.Projection.CustodyRuns
import PtyRuntime.Application.Projection.Parking
import Mathlib.Data.List.Nodup
import Mathlib.Data.List.Perm.Subperm
import Mathlib.Algebra.Order.BigOperators.Group.List
import Mathlib.Algebra.Order.Ring.Nat

/-! Disk reservations are conserved: each is in one place until nothing can be stored
under it, so the budget covers whatever the store holds. -/
namespace PtyRuntime
open Thread PtyRuntime.Core Stock

/-- What has become of a granted reservation. -/
inductive Whereabouts where
  | held (place : DiskPlace)
  | elsewhere
  | released
  deriving DecidableEq, Repr

namespace Coordinator

/-- Whether a granted reservation is there. One that is held is held once. -/
def Located (c : Coordinator) (id : Nat) : Whereabouts → Prop
  | .held place => ((c.stock.leasesAt place).map (·.id)).count id = 1
  | .elsewhere => id ∈ c.disk.elsewhere.map (·.id)
  | .released => ∀ disk ∈ c.stock.charged, disk.id ≠ id

structure ConservesReservations (c : Coordinator) : Prop where
  /-- Every reservation is in exactly one place, and there once. -/
  located : ∀ id < c.storage.granted, ∃! whereabouts, c.Located id whereabouts
  /-- A reservation is released only for one of three reasons. -/
  released : ∀ id < c.storage.granted, c.Located id .released →
    id ∈ c.storage.deleted ∨ id ∈ c.storage.rejected ∨ id ∉ c.storage.submitted
  /-- Whatever the provider may hold, it holds under a reservation of its size. -/
  objects : ∀ object ∈ c.storage.objects, object.disk ∈ c.stock.charged ∧
    object.bytes ≤ object.disk.bytes
  covered : (c.storage.objects.map (·.bytes)).sum ≤ c.disk.stored.used ∧
    c.storage.objects.length ≤ c.disk.storedSlots.used
  within : c.disk.stored.used ≤ c.config.storedBytes ∧ c.disk.storedSlots.used ≤ c.config.storedSlots
  ledger : c.unreclaimed.length ≤ c.config.storedSlots

/-- How often a reservation is there. -/
def copies (c : Coordinator) (id : Nat) : Whereabouts → Nat
  | .held place => ((c.stock.leasesAt place).map (·.id)).count id
  | .elsewhere => (c.disk.elsewhere.map (·.id)).count id
  | .released => 1 - (c.stock.charged.map (·.id)).count id

theorem copies_charged (c : Coordinator) (id : Nat) :
    (c.stock.charged.map (·.id)).count id =
      c.copies id (.held .commit) + c.copies id (.held .source) + c.copies id (.held .reaper) +
        c.copies id (.held .delete) + c.copies id (.held .ledger) + c.copies id .elsewhere := by
  simp only [charged, copies, List.map_append, List.count_append]
  rfl

theorem located_iff {c : Coordinator} {id : Nat} (most : (c.stock.charged.map (·.id)).count id ≤ 1)
    (whereabouts : Whereabouts) : c.Located id whereabouts ↔ c.copies id whereabouts = 1 := by
  have split := c.copies_charged id
  cases whereabouts with
  | held place => rfl
  | elsewhere =>
    have present : id ∈ c.disk.elsewhere.map (·.id) ↔ 0 < c.copies id .elsewhere :=
      List.count_pos_iff.symm
    rw [Located, present]
    omega
  | released =>
    have absent : (∀ disk ∈ c.stock.charged, disk.id ≠ id) ↔
        (c.stock.charged.map (·.id)).count id = 0 := by
      simp [List.count_eq_zero]
    rw [Located, absent, copies]
    omega

/-- What is there once in all is in exactly one place. -/
theorem unique_of_once (count : Whereabouts → Nat)
    (once : count (.held .commit) + count (.held .source) + count (.held .reaper) +
      count (.held .delete) + count (.held .ledger) + count .elsewhere + count .released = 1) :
    ∃! whereabouts, count whereabouts = 1 := by
  have somewhere : count (.held .commit) = 1 ∨ count (.held .source) = 1 ∨
      count (.held .reaper) = 1 ∨ count (.held .delete) = 1 ∨ count (.held .ledger) = 1 ∨
      count .elsewhere = 1 ∨ count .released = 1 := by omega
  rcases somewhere with here | here | here | here | here | here | here <;>
    refine ⟨_, here, fun other there => ?_⟩ <;>
      rcases other with (_ | _ | _ | _ | _) | _ | _ <;> first | rfl | omega

theorem located_unique {c : Coordinator} {id : Nat}
    (most : (c.stock.charged.map (·.id)).count id ≤ 1) :
    ∃! whereabouts, c.Located id whereabouts := by
  have split := c.copies_charged id
  have released : c.copies id .released = 1 - (c.stock.charged.map (·.id)).count id := rfl
  simp only [located_iff most]
  exact unique_of_once (c.copies id) (by omega)

/-- The reservations the store's objects are under, each charged once. -/
theorem objects_subperm {c : Coordinator} (acc : Accounted c.stock) :
    (c.storage.objects.map (·.disk)).Subperm c.stock.charged := by
  have distinct : (c.storage.objects.map (·.disk)).Nodup := by
    have single : ((c.storage.objects.map (·.disk)).map (·.id)).Nodup := by
      rw [List.map_map]
      exact acc.sound.single
    exact List.Nodup.of_map _ single
  refine distinct.subperm fun disk member => ?_
  obtain ⟨object, stored, rfl⟩ := List.mem_map.mp member
  exact (acc.sound.objects object stored).1

theorem accounted_conserves {c : Coordinator} (acc : Accounted c.stock) : ConservesReservations c where
  located id _ := located_unique (List.nodup_iff_count_le_one.mp acc.sound.distinct id)
  released id granted gone := by
    have absent : id ∉ c.stock.charged.map (·.id) := by
      rintro present
      obtain ⟨disk, member, same⟩ := List.mem_map.mp present
      exact gone disk member same
    rcases acc.sound.released id granted absent with rejected | deleted | never
    · exact .inr (.inl rejected)
    · exact .inl deleted
    · exact .inr (.inr never)
  objects object stored :=
    let ⟨held, fits, _⟩ := acc.sound.objects object stored
    ⟨held, fits⟩
  covered := by
    have sub := objects_subperm acc
    have bytes : c.disk.stored.used = (c.stock.charged.map (·.bytes)).sum := acc.sound.bytes
    have slots : c.disk.storedSlots.used = c.stock.charged.length + c.stock.loose := acc.sound.slots
    constructor
    · calc (c.storage.objects.map (·.bytes)).sum
          ≤ (c.storage.objects.map (·.disk.bytes)).sum :=
            List.sum_le_sum fun object stored => (acc.sound.objects object stored).2.1
        _ = ((c.storage.objects.map (·.disk)).map (·.bytes)).sum := by
            rw [List.map_map]
            rfl
        _ ≤ (c.stock.charged.map (·.bytes)).sum := by
            obtain ⟨part, perm, sub⟩ := sub
            rw [← (perm.map _).sum_eq]
            exact (sub.map _).sum_le_sum fun _ _ => Nat.zero_le _
        _ = c.disk.stored.used := bytes.symm
    · have most := sub.length_le
      rw [List.length_map] at most
      omega
  within := by
    obtain ⟨storedBytes, storedSlots⟩ := acc.limits
    exact ⟨acc.sound.byteLimit.trans_eq storedBytes, acc.sound.slotLimit.trans_eq storedSlots⟩
  ledger := by
    have slots : c.disk.storedSlots.used = c.stock.charged.length + c.stock.loose := acc.sound.slots
    have limit : c.disk.storedSlots.used ≤ c.config.storedSlots :=
      acc.sound.slotLimit.trans_eq acc.limits.2
    have length : c.unreclaimed.length ≤ c.stock.charged.length := by
      have ledger : (c.stock.leasesAt .ledger).length = c.unreclaimed.length := List.length_map _
      simp only [charged, List.length_append]
      omega
    omega

section Created

variable {lifetime : SessionLifetime} {config : ProjectionConfig} {now identity : Nat}
  {c : Coordinator} (created : create lifetime config now identity = .ok c)
include created

theorem create_accounted : Accounted c.stock ∧ c.storage.moving = none ∧ c.config = config := by
  obtain ⟨policy, store, -, -, rfl⟩ := create_made created
  refine ⟨⟨?_, ⟨rfl, rfl⟩, ?_, ?_, ?_⟩, rfl, rfl⟩
  · constructor <;> simp [book, charged, leasesAt, loose, stock]
  · intro disk member
    simp [leasesAt, stock] at member
  · intro disk member
    cases member
  · intro job busy
    cases busy

theorem after_accounted (events : List Event) :
    (projection.extend reservations).Kept (c.after events) := by
  obtain ⟨acc, idle, -⟩ := create_accounted created
  have start : (projection.extend reservations).Kept (.start c) :=
    Contract.kept_start ⟨(create_idle created).1, acc⟩ fun _ => ⟨(create_idle created).2, idle⟩
  exact start.run reservations_sound choices_allowed

theorem after_config (events : List Event) : (c.after events).shared.config = config := by
  obtain ⟨-, -, same⟩ := create_accounted created
  refine (after_accounted created []).preserve reservations_sound (P := fun c => c.config = config)
    choices_allowed (fun s s' _ _ moves holds => ?_) same
  rcases moves with rfl | meddled | ⟨role, owed⟩
  · exact holds
  · exact meddled.2.config.trans holds
  · exact owed.2.trans holds

end Created

/-- Disk reservations are conserved in every state a projection reaches, whatever runs
beside it, and while no run holds the workspace its worker holds none of them. -/
theorem disk_reservations_conserved {lifetime : SessionLifetime} {config : ProjectionConfig}
    {now identity : Nat} {c : Coordinator}
    (created : create lifetime config now identity = .ok c) (events : List Event) :
    ConservesReservations (c.after events).shared ∧ (c.after events).shared.config = config ∧
      ((c.after events).held () = none → (c.after events).shared.storage.moving = none) := by
  have kept := after_accounted created events
  exact ⟨accounted_conserves kept.inv.2, after_config created events,
    fun free => (kept.idle () free).2⟩

set_option maxRecDepth 4000 in
/-- A parked projection's reservation is with its source. -/
theorem disk_reservations_conserved_parked :
    (sample.after idleSchedule).shared.storage.granted = 1 ∧
      (sample.after idleSchedule).shared.Located 0 (.held .source) ∧
      ConservesReservations (sample.after idleSchedule).shared :=
  ⟨rfl, rfl, (disk_reservations_conserved sample_created idleSchedule).1⟩

end Coordinator
end PtyRuntime
