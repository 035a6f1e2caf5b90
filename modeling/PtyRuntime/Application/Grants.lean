import PtyRuntime.Application.ReservationLaws

/-! When a call that takes leases, or an input lease, is granted all it asks for, as long as
nothing else runs. -/
namespace PtyRuntime

open Tally

variable {κ : Type} [DecidableEq κ]

def Want.lease (want : Want κ) : Lease κ := ⟨want.first, want.second, want.count⟩

/-- The amounts a call takes, in order. -/
def Want.amounts (wants : List (Want κ)) : List (κ × Nat) := wants.flatMap (·.lease.releases)

namespace Reservations

variable {r : Reservations κ} {allocation : ReplayBuffer.Allocation}

/-- There is room for these amounts below the limits, and a `usize` counts them. -/
def Room (r : Reservations κ) (pending : List (κ × Nat)) : Prop :=
  ∀ entry ∈ pending, (r.quotas entry.1).used + total (amount entry.1) pending ≤ min (r.quotas entry.1).limit u64Max

def chargeAll (r : Reservations κ) (pending : List (κ × Nat)) : Reservations κ :=
  pending.foldl (fun r entry => r.charge entry.1 entry.2) r

theorem charge_used (r : Reservations κ) (q k : κ) (n : Nat) :
    ((r.charge q n).quotas k).used = (r.quotas k).used + amount k (q, n) ∧
      ((r.charge q n).quotas k).limit = (r.quotas k).limit := by
  unfold charge amount
  by_cases same : q = k
  · subst same
    simp
  · simp [Function.update_of_ne (Ne.symm same), same]

theorem Room.rest {q : κ} {n : Nat} {pending : List (κ × Nat)} (room : r.Room ((q, n) :: pending)) :
    (r.charge q n).Room pending := by
  intro entry member
  have fits := room entry (List.mem_cons_of_mem _ member)
  obtain ⟨used, limit⟩ := r.charge_used q entry.1 n
  rw [total_cons] at fits
  rw [used, limit]
  omega

theorem take_granted {q : κ} {n : Nat} {pending : List (κ × Nat)} (room : r.Room ((q, n) :: pending)) :
    r.take q n = (true, r.charge q n) := by
  have fits := room (q, n) List.mem_cons_self
  rw [total_cons, amount, if_pos rfl] at fits
  dsimp only at fits
  rw [take, Quota.acquire_eq, if_pos ⟨by omega, by omega⟩]
  rfl

/-- The only call under way takes its next step. -/
theorem advance_alone (idle : r.tasks = []) (task : Task κ) :
    (r.spawn task).step (.advance 0 allocation) = settle (r.perform task allocation) := by
  have same : { r.spawn task with tasks := (r.spawn task).tasks.eraseIdx 0 } = r := by
    simp only [spawn, idle, List.nil_append, List.eraseIdx_cons_zero]
    cases r
    cases idle
    rfl
  have found : (r.spawn task).tasks[0]? = some task := by
    simp only [spawn, idle]
    rfl
  rw [step, found]
  dsimp only
  rw [same]

theorem chargeAll_frame (r : Reservations κ) (pending : List (κ × Nat)) :
    (r.chargeAll pending).tasks = r.tasks ∧ (r.chargeAll pending).leases = r.leases ∧
      (r.chargeAll pending).inputs = r.inputs := by
  induction pending generalizing r with
  | nil => exact ⟨rfl, rfl, rfl⟩
  | cons entry rest ih => exact ih (r.charge entry.1 entry.2)

theorem chargeAll_append (r : Reservations κ) (first second : List (κ × Nat)) :
    r.chargeAll (first ++ second) = (r.chargeAll first).chargeAll second := List.foldl_append

theorem Room.after {first second : List (κ × Nat)} (room : r.Room (first ++ second)) :
    (r.chargeAll first).Room second := by
  induction first generalizing r with
  | nil => exact room
  | cons entry rest ih => exact ih room.rest

/-- The next lease of a call that runs alone is complete after one access or two. -/
theorem lease_granted (idle : r.tasks = []) (owner : Nat) (leases : List (Lease κ)) (want : Want κ)
    (wants : List (Want κ)) {pending : List (κ × Nat)} (room : r.Room (want.lease.releases ++ pending))
    (allocation : ReplayBuffer.Allocation) :
    ∃ steps, (r.spawn (.acquire owner leases want wants)).run (List.replicate steps (.advance 0 allocation)) =
      settle ((r.chargeAll want.lease.releases).built owner (want.lease :: leases) wants) := by
  obtain ⟨first, second, count⟩ := want
  have taken : r.take first count = (true, r.charge first count) := take_granted room
  cases second with
  | none =>
    refine ⟨1, (advance_alone idle _).trans ?_⟩
    simp only [perform, taken]
    rfl
  | some second =>
    have head : (r.spawn (.acquire owner leases ⟨first, some second, count⟩ wants)).step (.advance 0 allocation) =
        (r.charge first count).spawn (.attach owner leases ⟨first, none, count⟩ second wants) := by
      rw [advance_alone idle]
      simp only [perform, taken]
      rfl
    have idle' : (r.charge first count).tasks = [] := idle
    have attached : (r.charge first count).take second count = (true, (r.charge first count).charge second count) :=
      take_granted (Room.rest room)
    refine ⟨2, (congrArg (step · (.advance 0 allocation)) head).trans ((advance_alone idle' _).trans ?_)⟩
    simp only [perform, attached]
    rfl

/-- A call that runs alone and still has these leases to take ends with all of them. -/
theorem leases_granted (idle : r.tasks = []) (owner : Nat) (leases : List (Lease κ)) (want : Want κ)
    (wants : List (Want κ)) (room : r.Room (Want.amounts (want :: wants))) (allocation : ReplayBuffer.Allocation) :
    ∃ steps, (r.spawn (.acquire owner leases want wants)).run (List.replicate steps (.advance 0 allocation)) =
      { r.chargeAll (Want.amounts (want :: wants)) with
        leases := (((want :: wants).map Want.lease).reverse ++ leases).map (owner, ·) ++ r.leases } := by
  induction wants generalizing r leases want with
  | nil =>
    rw [Want.amounts, List.flatMap_cons] at room ⊢
    obtain ⟨steps, taken⟩ := lease_granted idle owner leases want [] room allocation
    obtain ⟨-, kept, -⟩ := r.chargeAll_frame want.lease.releases
    refine ⟨steps, taken.trans ?_⟩
    rw [built, settle, kept, List.flatMap_nil, List.append_nil]
    rfl
  | cons next wants ih =>
    rw [Want.amounts, List.flatMap_cons] at room ⊢
    obtain ⟨steps, taken⟩ := lease_granted idle owner leases want (next :: wants) room allocation
    obtain ⟨tasks, kept, -⟩ := r.chargeAll_frame want.lease.releases
    obtain ⟨more, ended⟩ := ih (tasks.trans idle) (want.lease :: leases) next room.after
    refine ⟨steps + more, ?_⟩
    rw [List.replicate_add, run, List.foldl_append]
    refine (congrArg (run · (List.replicate more (.advance 0 allocation))) taken).trans (ended.trans ?_)
    rw [chargeAll_append, kept]
    simp [Want.amounts]

/-- An input lease that there is room for is granted in two accesses. -/
theorem input_granted (idle : r.tasks = []) (owner : Nat) (bytes slots : κ) (count : Nat)
    (room : r.Room [(slots, 1), (bytes, count)]) (allocation : ReplayBuffer.Allocation) :
    (r.spawn (.inputSlots owner bytes slots count)).run (List.replicate 2 (.advance 0 allocation)) =
      { r.chargeAll [(slots, 1), (bytes, count)] with inputs := (owner, ⟨bytes, slots, count⟩) :: r.inputs } := by
  have head : (r.spawn (.inputSlots owner bytes slots count)).step (.advance 0 allocation) =
      (r.charge slots 1).spawn (.inputBytes owner bytes slots count) := by
    rw [advance_alone idle, perform, take_granted room]
    rfl
  have idle' : (r.charge slots 1).tasks = [] := idle
  refine (congrArg (step · (.advance 0 allocation)) head).trans ((advance_alone idle' _).trans ?_)
  rw [perform, take_granted room.rest]
  rfl

/-- A call for these leases that begins while no other is under way ends with all of them. -/
def Grants (r : Reservations κ) (owner : Nat) (wants : List (Want κ)) : Prop :=
  ∀ allocation, ∃ want rest steps, wants = want :: rest ∧
    r.run (.begin (.lease owner want rest) :: List.replicate steps (.advance 0 allocation)) =
      { r.chargeAll (Want.amounts wants) with
        leases := (wants.map Want.lease).reverse.map (owner, ·) ++ r.leases }

/-- A call for an input lease that begins while no other is under way ends with it. -/
def GrantsInput (r : Reservations κ) (owner : Nat) (bytes slots : κ) (count : Nat) : Prop :=
  ∀ allocation, ∃ steps,
    r.run (.begin (.inputLease owner bytes slots count) :: List.replicate steps (.advance 0 allocation)) =
      { r.chargeAll [(slots, 1), (bytes, count)] with inputs := (owner, ⟨bytes, slots, count⟩) :: r.inputs }

theorem grants (idle : r.tasks = []) (owner : Nat) {want : Want κ} {rest : List (Want κ)}
    (room : r.Room (Want.amounts (want :: rest))) : r.Grants owner (want :: rest) := by
  intro allocation
  obtain ⟨steps, granted⟩ := leases_granted idle owner [] want rest room allocation
  rw [List.append_nil] at granted
  exact ⟨want, rest, steps, rfl, granted⟩

theorem grants_input (idle : r.tasks = []) (owner : Nat) {bytes slots : κ} {count : Nat}
    (room : r.Room [(slots, 1), (bytes, count)]) : r.GrantsInput owner bytes slots count :=
  fun allocation => ⟨2, input_granted idle owner bytes slots count room allocation⟩

end Reservations
end PtyRuntime
