import PtyRuntime.Application.ReservationLaws

/-! Whole runs of the shared counters: each stands at the sum of what is live, releases
never underflow, a refused acquisition leaves no trace, and replay storage is charged
exactly. -/
namespace PtyRuntime.Reservations

open Tally

variable {κ : Type} [DecidableEq κ] {base r : Reservations κ}

/-- The release a call makes with its next access. -/
def nextRelease (r : Reservations κ) : Task κ → Option (κ × Nat)
  | .giveBack (entry :: _) _ => some entry
  | .shrink _ _ released => some (r.replayQuota, released)
  | _ => none

theorem nextRelease_le {task : Task κ} {q : κ} {n : Nat} (releases : r.nextRelease task = some (q, n)) :
    n ≤ taskCharge r.observers r.replayQuota q task := by
  have own : amount q (q, n) = n := by simp [amount]
  unfold nextRelease at releases
  split at releases
  · obtain rfl := Option.some.inj releases
    simp only [taskCharge, total_cons]
    omega
  · obtain ⟨rfl, rfl⟩ := Prod.mk.inj (Option.some.inj releases)
    simp only [taskCharge]
    omega
  · cases releases

/-- A call that reserves something, at any point until it is granted or refused. -/
def Acquiring : Task κ → Prop
  | .acquire .. | .attach .. | .inputSlots .. | .inputBytes .. | .registerWatcher _
  | .insertWatcher _ => True
  | .giveBack _ refused => refused = true
  | _ => False

/-- The accesses of one call until its end, each in whatever state the other calls have
left that still counts what the call owns. -/
inductive Performs (base : Reservations κ) : Task κ → List (Reservations κ × Reservations κ) →
    Bool → Prop where
  | ended {task : Task κ} {r r' : Reservations κ} {allocation : ReplayBuffer.Allocation}
      {granted : Bool}
      (solvent : Solvent base r fun q => taskCharge r.observers r.replayQuota q task)
      (last : r.perform task allocation = (r', .ended granted)) :
      Performs base task [(r, r')] granted
  | running {task rest : Task κ} {r r' : Reservations κ} {allocation : ReplayBuffer.Allocation}
      {own : List (Reservations κ × Reservations κ)} {granted : Bool}
      (solvent : Solvent base r fun q => taskCharge r.observers r.replayQuota q task)
      (next : r.perform task allocation = (r', .running rest))
      (later : Performs base rest own granted) : Performs base task ((r, r') :: own) granted

/-- Until it is granted, an acquisition only moves its own amounts. -/
def Private (r : Reservations κ) : Reservations κ × Progress κ → Prop
  | (r', .running task) => Acquiring task ∧ ∀ q, r'.charged q = r.charged q
  | (r', .ended granted) => granted = false → ∀ q, r'.charged q = r.charged q

theorem abandon_private (leases : List (Lease κ)) : Private r (r, abandon leases) := by
  unfold abandon
  split
  · exact fun _ _ => rfl
  · exact ⟨rfl, fun _ => rfl⟩

theorem built_private (owner : Nat) (leases : List (Lease κ)) (wants : List (Want κ)) (q : κ)
    (n : Nat) : Private r ((r.charge q n).built owner leases wants) := by
  cases wants with
  | nil => exact fun refused => by cases refused
  | cons want wants => exact ⟨trivial, fun _ => rfl⟩

theorem insertWatcher_private (session : Nat) (allocation : ReplayBuffer.Allocation) :
    Private r (r.perform (.insertWatcher session) allocation) := by
  simp only [perform]
  cases found : r.sessions.find? (·.id = session) with
  | none => exact ⟨trivial, fun _ => rfl⟩
  | some s =>
    rcases s.insertWatcher_cases with ⟨e, refused⟩ | inserted
    · simp only [refused]
      refine ⟨rfl, fun q => ?_⟩
      simp only [charged, total_cons]
      rw [total_eraseP found]
    · simp only [inserted]
      exact fun refused => by cases refused

theorem perform_private {task : Task κ} (acquiring : Acquiring task)
    (allocation : ReplayBuffer.Allocation) : Private r (r.perform task allocation) := by
  cases task with
  | acquire owner leases want wants =>
    rcases take_cases r want.first want.count with refused | ⟨-, taken⟩
    · simp only [perform, refused]
      exact abandon_private leases
    · simp only [perform, taken]
      cases want.second with
      | none => exact built_private owner _ wants _ _
      | some second => exact ⟨trivial, fun _ => rfl⟩
  | attach owner leases lease second wants =>
    rcases take_cases r second lease.count with refused | ⟨-, taken⟩
    · simp only [perform, refused]
      exact abandon_private (lease :: leases)
    · simp only [perform, taken]
      exact built_private owner _ wants _ _
  | inputSlots owner bytes slots count =>
    rcases take_cases r slots 1 with refused | ⟨-, taken⟩
    · simp only [perform, refused]
      exact fun _ _ => rfl
    · simp only [perform, taken]
      exact ⟨trivial, fun _ => rfl⟩
  | inputBytes owner bytes slots count =>
    rcases take_cases r bytes count with refused | ⟨-, taken⟩
    · simp only [perform, refused]
      exact ⟨rfl, fun _ => rfl⟩
    · simp only [perform, taken]
      exact fun refused => by cases refused
  | registerWatcher session =>
    rcases take_cases r r.observers 1 with refused | ⟨-, taken⟩
    · simp only [perform, refused]
      exact fun _ _ => rfl
    · simp only [perform, taken]
      exact ⟨trivial, fun _ => rfl⟩
  | insertWatcher session => exact insertWatcher_private session allocation
  | giveBack pending refused =>
    obtain rfl : refused = true := acquiring
    cases pending with
    | nil => exact fun _ _ => rfl
    | cons entry pending =>
      simp only [perform]
      split
      · exact fun _ _ => rfl
      · exact ⟨rfl, fun _ => rfl⟩
  | removeWatcher | output | grow | excess | shrink => cases acquiring

/-- Over all its accesses a refused call takes from each counter what it gives back,
less what it owned to begin with. -/
theorem refused_returns {task : Task κ} {own : List (Reservations κ × Reservations κ)}
    {granted : Bool} (performs : Performs base task own granted) (refused : granted = false)
    (acquiring : Acquiring task) (sound : TaskSound task) (q : κ) :
    total (fun access => (access.1.quotas q).used) own =
      total (fun access => (access.2.quotas q).used) own +
        taskCharge base.observers base.replayQuota q task := by
  induction performs with
  | @ended task r r' allocation granted solvent last =>
    have covers := perform_covers allocation solvent sound
    have kept := perform_private (r := r) acquiring allocation
    rw [last] at covers kept
    have before := solvent.balance q
    have after : (r'.quotas q).used = r'.charged q + 0 := Solvent.balance covers q
    have same := kept refused q
    simp only [total_cons, total_nil, ← solvent.fixed.observers, ← solvent.fixed.replayQuota]
    omega
  | @running task rest r r' allocation own granted solvent next later ih =>
    have covers := perform_covers allocation solvent sound
    have kept := perform_private (r := r) acquiring allocation
    rw [next] at covers kept
    have before := solvent.balance q
    have after : (r'.quotas q).used =
      r'.charged q + taskCharge r'.observers r'.replayQuota q rest := covers.1.balance q
    rw [covers.1.fixed.observers, covers.1.fixed.replayQuota] at after
    have same := kept.2 q
    have tail := ih refused kept.1 covers.2
    rw [solvent.fixed.observers, solvent.fixed.replayQuota] at before
    simp only [total_cons]
    omega

/-- Quota conservation over every run. Each counter stands at the counts of the live
leases and input leases, the registered watchers and allocated replay of the sessions and
what unfinished calls hold, within its limit; no release underflows; and the accesses of
an acquisition that ends refused cancel out on every counter. -/
theorem quotas_conserved (limits : κ → Nat) (observers replayQuota : κ)
    (events : List (Event κ)) :
    let base := new limits observers replayQuota
    let r := base.run events
    (∀ q, (r.quotas q).used =
        total (fun lease => lease.2.charge q) r.leases +
        total (fun lease => lease.2.charge q) r.inputs +
        total (sessionCharge observers replayQuota q) r.sessions +
        total (taskCharge observers replayQuota q) r.tasks) ∧
    (∀ q, (r.quotas q).used ≤ limits q) ∧
    (∀ task ∈ r.tasks, ∀ q n, r.nextRelease task = some (q, n) → n ≤ (r.quotas q).used) ∧
    (∀ task ∈ r.tasks, ∀ index, r.tasks[index]? = some task →
      Solvent base { r with tasks := r.tasks.eraseIdx index }
        fun q => taskCharge observers replayQuota q task) ∧
    (∀ (call : Call κ) own, Acquiring call.task → Performs base call.task own false → ∀ q,
      total (fun access => (access.1.quotas q).used) own =
        total (fun access => (access.2.quotas q).used) own) := by
  intro base r
  have solvent : Solvent base r fun _ => 0 := run_solvent (new_solvent ..) events
  have named : r.observers = observers ∧ r.replayQuota = replayQuota :=
    ⟨solvent.fixed.observers, solvent.fixed.replayQuota⟩
  refine ⟨fun q => ?_, fun q => ?_, fun task member q n releases => ?_, ?_, ?_⟩
  · rw [solvent.balance q, charged, named.1, named.2]
    rfl
  · have := solvent.limited q
    rw [solvent.fixed.limits q] at this
    exact this
  · have mine := nextRelease_le releases
    have counted : taskCharge r.observers r.replayQuota q task ≤ r.charged q :=
      Nat.le_add_left_of_le (le_total member)
    have := solvent.balance q
    omega
  · intro task member index found
    rw [← named.1, ← named.2]
    refine solvent.exchange (fun q => ?_) solvent.sessions fun other listed => ?_
    · simp only [charged]
      rw [total_eraseIdx found]
      omega
    · exact solvent.tasks other (List.mem_of_mem_eraseIdx listed)
  · intro call own acquiring performs q
    have returned := refused_returns performs rfl acquiring (call.task_free observers replayQuota q).1 q
    rw [(call.task_free _ _ q).2] at returned
    exact returned

-- A lease refused by its second counter has returned its first half after three accesses.
example :
    let r := (new (fun q => if q then 0 else 1) false false).run
      [.begin (.lease 0 (.sharedAndLocal false true 1) []), .advance 0 none, .advance 0 none,
        .advance 0 none]
    (r.quotas false).used = 0 ∧ r.tasks.length = 0 := by decide

end PtyRuntime.Reservations
