import PtyRuntime.Infrastructure.Scheduling.Blocking
import PtyRuntime.Tally

/-! What every step of the blocking executor keeps: what was admitted is counted, jobs
leave the queue in the order they came, none waits behind a worker that sleeps, and a
thread that returns from `shutdown` leaves no worker behind. -/
namespace PtyRuntime.BoundedBlockingExecutor
open Tally

variable {s : BoundedBlockingExecutor}

namespace Worker

def busy : Worker → Nat
  | .running _ | .finishing => 1
  | _ => 0

def asleep : Worker → Nat
  | .waiting => 1
  | _ => 0

def looks : Worker → Nat
  | .looking => 1
  | _ => 0

/-- The job is in the worker's hand. -/
def holds (job : Job) : Worker → Nat
  | .running held => if held = job then 1 else 0
  | _ => 0

@[simp] theorem woken_busy (w : Worker) : w.woken.busy = w.busy := by cases w <;> rfl
@[simp] theorem woken_asleep (w : Worker) : w.woken.asleep = 0 := by cases w <;> rfl
@[simp] theorem woken_looks (w : Worker) : w.woken.looks = w.looks + w.asleep := by cases w <;> rfl
@[simp] theorem woken_holds (job : Job) (w : Worker) : w.woken.holds job = w.holds job := by cases w <;> rfl

@[simp] theorem woken_eq_exited {w : Worker} : w.woken = .exited ↔ w = .exited := by
  cases w <;> simp [woken]

end Worker

namespace Caller

def joins : Caller → Nat
  | .joining _ => 1
  | _ => 0

@[simp] theorem woken_joins (c : Caller) : c.woken.joins = c.joins := by cases c <;> rfl

@[simp] theorem woken_eq_joining {c : Caller} {handles : List Nat} :
    c.woken = .joining handles ↔ c = .joining handles := by
  cases c <;> simp [woken]

theorem woken_ne_waiting (c : Caller) : c.woken ≠ .waiting := by cases c <;> simp [woken]

end Caller

/-- How many workers count under a measure. -/
def count (s : BoundedBlockingExecutor) (measure : Worker → Nat) : Nat := total measure s.workers

theorem count_setWorker {worker : Nat} {before : Worker} (found : s.workers[worker]? = some before)
    (measure : Worker → Nat) (after : Worker) :
    (s.setWorker worker after).count measure + measure before = s.count measure + measure after :=
  total_set found after

theorem total_woken (workers : List Worker) (measure : Worker → Nat) :
    total measure (workers.map Worker.woken) = total (fun w => measure w.woken) workers := by
  simp only [total, List.map_map, Function.comp_def]

theorem total_add (workers : List Worker) (first second : Worker → Nat) :
    total (fun w => first w + second w) workers = total first workers + total second workers := by
  induction workers with
  | nil => rfl
  | cons w rest ih =>
    rw [total_cons, total_cons, total_cons, ih]
    omega

theorem total_zero (workers : List Worker) : total (fun _ => 0) workers = 0 := by
  induction workers with
  | nil => rfl
  | cons w rest ih => rw [total_cons, ih]

theorem notifyAll_count (s : BoundedBlockingExecutor) :
    s.notifyAll.count Worker.asleep = 0 ∧
      s.notifyAll.count Worker.looks = s.count Worker.looks + s.count Worker.asleep ∧
      s.notifyAll.count Worker.busy = s.count Worker.busy ∧
      ∀ job, s.notifyAll.count (Worker.holds job) = s.count (Worker.holds job) := by
  simp only [count, notifyAll, total_woken, Worker.woken_asleep, Worker.woken_looks, Worker.woken_busy,
    Worker.woken_holds, total_add, total_zero, true_and, implies_true]

theorem asleep_zero (none : ∀ worker : Nat, s.workers[worker]? ≠ some .waiting) :
    s.count Worker.asleep = 0 := by
  refine total_eq_zero fun w member => ?_
  obtain ⟨worker, found⟩ := List.mem_iff_getElem?.mp member
  cases w with
  | waiting => exact absurd found (none worker)
  | _ => rfl

/-- `notify_one` wakes a worker that is asleep, if there is one. -/
theorem notifyOne_cases (s : BoundedBlockingExecutor) (choice : Nat) :
    (s.notifyOne choice = s ∧ s.count Worker.asleep = 0) ∨
      ∃ worker : Nat, s.workers[worker]? = some .waiting ∧ s.notifyOne choice = s.setWorker worker .looking := by
  unfold notifyOne
  split
  · rename_i here
    exact .inr ⟨choice, here, rfl⟩
  · split
    · rename_i worker found
      obtain ⟨within, here, -⟩ := List.findIdx?_eq_some_iff_getElem.mp found
      refine .inr ⟨worker, ?_, rfl⟩
      rw [List.getElem?_eq_getElem within]
      exact congrArg some (by simpa using here)
    · rename_i none
      refine .inl ⟨rfl, asleep_zero fun worker found => ?_⟩
      have other := List.findIdx?_eq_none_iff.mp none _ (List.mem_of_getElem? found)
      simp at other

/-- A worker that is asleep counts as one of them. -/
theorem asleep_pos {worker : Nat} (found : s.workers[worker]? = some .waiting) : 1 ≤ s.count Worker.asleep :=
  @le_total _ Worker.asleep _ _ (List.mem_of_getElem? found)

/-- What every step keeps of the queue and the workers. -/
structure Valid (s : BoundedBlockingExecutor) : Prop where
  counted : s.active = s.count Worker.busy
  admitted : s.jobs.length + s.active ≤ s.maxJobs
  order : s.jobs = List.range' (s.accepted - s.jobs.length) s.jobs.length
  fewer : s.jobs.length ≤ s.accepted
  once : ∀ job, s.count (Worker.holds job) + s.finished.count job =
    if job < s.accepted - s.jobs.length then 1 else 0
  awake : s.count Worker.asleep = 0 ∨ s.jobs.length ≤ s.count Worker.looks
  shut : s.closed = true → s.count Worker.asleep = 0
  ended : .exited ∈ s.workers → s.closed = true ∧ s.jobs = []

theorem new_valid {maxJobs workers : Nat} {reserved : Bool} {spawned : Nat}
    (made : new maxJobs workers reserved spawned = .ok s) : s.Valid := by
  unfold new at made
  split at made
  · cases made
  split at made
  · cases made
  split at made
  · cases made
  obtain rfl := Except.ok.inj made
  have idle (measure : Worker → Nat) (none : measure .looking = 0) :
      total measure (List.replicate workers .looking) = 0 := by
    refine total_eq_zero fun w member => ?_
    rw [(List.mem_replicate.mp member).2, none]
  constructor
  · exact (idle Worker.busy rfl).symm
  · exact Nat.zero_le _
  · rfl
  · exact Nat.le_refl _
  · intro job
    rw [count, idle (Worker.holds job) rfl]
    rfl
  · exact .inl (idle Worker.asleep rfl)
  · exact fun _ => idle Worker.asleep rfl
  · intro member
    cases (List.mem_replicate.mp member).2

/-- A change of the workers that is not seen by the queue. -/
theorem Valid.workers (valid : s.Valid) {workers : List Worker} {closed : Bool}
    (busy : total Worker.busy workers = s.count Worker.busy)
    (holds : ∀ job, total (Worker.holds job) workers = s.count (Worker.holds job))
    (awake : total Worker.asleep workers = 0 ∨ s.jobs.length ≤ total Worker.looks workers)
    (shut : closed = true → total Worker.asleep workers = 0)
    (ended : .exited ∈ workers → closed = true ∧ s.jobs = []) :
    Valid { s with workers, closed } where
  counted := valid.counted.trans busy.symm
  admitted := valid.admitted
  order := valid.order
  fewer := valid.fewer
  once job := by
    change total (Worker.holds job) workers + _ = _
    rw [holds]
    exact valid.once job
  awake := awake
  shut := shut
  ended := ended

theorem exited_of_woken {workers : List Worker} (member : .exited ∈ workers.map Worker.woken) :
    .exited ∈ workers := by
  obtain ⟨w, old, same⟩ := List.mem_map.mp member
  exact Worker.woken_eq_exited.mp same ▸ old

theorem exited_of_set {worker : Nat} {phase : Worker} (other : phase ≠ .exited)
    (member : .exited ∈ (s.setWorker worker phase).workers) : .exited ∈ s.workers :=
  (List.mem_or_eq_of_mem_set member).resolve_right (Ne.symm other)

theorem Valid.close (valid : s.Valid) : s.close.Valid := by
  obtain ⟨asleep, -, busy, holds⟩ := s.notifyAll_count
  exact valid.workers busy holds (.inl asleep) (fun _ => asleep) fun member =>
    ⟨rfl, (valid.ended (exited_of_woken member)).2⟩

/-- A job is queued, and the workers are told. -/
theorem Valid.push (valid : s.Valid) (room : s.jobs.length + s.active < s.maxJobs) :
    let pushed : BoundedBlockingExecutor := { s with jobs := s.jobs ++ [s.accepted], accepted := s.accepted + 1 }
    s.closed = false → ∀ workers : List Worker, total Worker.busy workers = s.count Worker.busy →
      (∀ job, total (Worker.holds job) workers = s.count (Worker.holds job)) →
      (total Worker.asleep workers = 0 ∨ s.jobs.length + 1 ≤ total Worker.looks workers) →
      (.exited ∈ workers → .exited ∈ s.workers) → Valid { pushed with workers } := by
  intro pushed opened workers busy holds awake ended
  have fewer := valid.fewer
  constructor
  · exact valid.counted.trans busy.symm
  · change (s.jobs ++ [s.accepted]).length + s.active ≤ s.maxJobs
    rw [List.length_append, List.length_singleton]
    omega
  · change s.jobs ++ [s.accepted] = List.range' (s.accepted + 1 - (s.jobs ++ [s.accepted]).length) _
    rw [List.length_append, List.length_singleton, Nat.add_sub_add_right, List.range'_concat, ← valid.order,
      Nat.one_mul, Nat.sub_add_cancel fewer]
  · change (s.jobs ++ [s.accepted]).length ≤ s.accepted + 1
    rw [List.length_append, List.length_singleton]
    exact Nat.succ_le_succ fewer
  · intro job
    change total (Worker.holds job) workers + s.finished.count job =
      if job < s.accepted + 1 - (s.jobs ++ [s.accepted]).length then 1 else 0
    rw [List.length_append, List.length_singleton, Nat.add_sub_add_right, holds]
    exact valid.once job
  · change _ ∨ (s.jobs ++ [s.accepted]).length ≤ _
    rw [List.length_append, List.length_singleton]
    exact awake
  · exact fun closed => absurd (opened.symm.trans closed) (by decide)
  · exact fun member => absurd (opened.symm.trans (valid.ended (ended member)).1) (by decide)

theorem Valid.submit (valid : s.Valid) (choice : Nat) : (s.submit choice).2.Valid := by
  unfold BoundedBlockingExecutor.submit
  split
  · exact valid
  split
  · exact valid
  rename_i opened full
  have opened : s.closed = false := by simpa using opened
  have pushes := valid.push (Nat.lt_of_not_le full) opened
  rcases notifyOne_cases { s with jobs := s.jobs ++ [s.accepted], accepted := s.accepted + 1 } choice with
    ⟨same, none⟩ | ⟨worker, asleep, woke⟩
  · change Valid (notifyOne _ choice)
    rw [same]
    exact pushes s.workers rfl (fun _ => rfl) (.inl none) id
  · change Valid (notifyOne _ choice)
    rw [woke]
    have asleep : s.workers[worker]? = some .waiting := asleep
    refine pushes (s.workers.set worker .looking) ?_ ?_ ?_ (exited_of_set (by simp))
    · exact count_setWorker asleep Worker.busy .looking
    · exact fun job => count_setWorker asleep (Worker.holds job) .looking
    · have looks := count_setWorker asleep Worker.looks .looking
      have sleeps := asleep_pos asleep
      have looks : total Worker.looks (s.workers.set worker .looking) = s.count Worker.looks + 1 := looks
      right
      rw [looks]
      rcases valid.awake with none | enough
      · omega
      · exact Nat.succ_le_succ enough

/-- The oldest job goes into a worker's hand. -/
theorem Valid.pop (valid : s.Valid) {worker : Nat} (looking : s.workers[worker]? = some .looking) {job : Job}
    {rest : List Job} (front : s.jobs = job :: rest) :
    Valid ({ s with jobs := rest, active := s.active + 1 }.setWorker worker (.running job)) := by
  have changes := fun measure => count_setWorker looking measure (.running job)
  have length : s.jobs.length = rest.length + 1 := by rw [front, List.length_cons]
  have fewer := valid.fewer
  have order := valid.order
  rw [front, List.length_cons, List.range'_succ] at order
  obtain ⟨oldest, others⟩ := List.cons.inj order
  constructor
  · have busy := changes Worker.busy
    exact congrArg (· + 1) valid.counted |>.trans busy.symm
  · have admitted := valid.admitted
    change rest.length + (s.active + 1) ≤ s.maxJobs
    omega
  · change rest = List.range' (s.accepted - rest.length) rest.length
    rw [show s.accepted - rest.length = s.accepted - (rest.length + 1) + 1 by omega]
    exact others
  · change rest.length ≤ s.accepted
    omega
  · intro other
    have holds := changes (Worker.holds other)
    have once := valid.once other
    change _ + s.finished.count other = if other < s.accepted - rest.length then 1 else 0
    have holds : (s.setWorker worker (.running job)).count (Worker.holds other) =
        s.count (Worker.holds other) + if job = other then 1 else 0 := holds
    have started : s.accepted - s.jobs.length = job := by rw [length, oldest]
    change (s.setWorker worker (.running job)).count (Worker.holds other) + _ = _
    rw [holds, show s.accepted - rest.length = job + 1 by omega]
    rw [started] at once
    by_cases same : job = other
    · rw [← same] at once ⊢
      rw [if_neg (Nat.lt_irrefl job)] at once
      rw [if_pos rfl, if_pos job.lt_succ_self]
      omega
    · rw [if_neg same, Nat.add_zero, once]
      have earlier : other < job ↔ other < job + 1 :=
        ⟨Nat.lt_succ_of_lt, fun early => Nat.lt_of_le_of_ne (Nat.le_of_lt_succ early) (Ne.symm same)⟩
      simp only [earlier]
  · have looks := changes Worker.looks
    have sleeps := changes Worker.asleep
    have sleeps : (s.setWorker worker (.running job)).count Worker.asleep = s.count Worker.asleep := sleeps
    have looks : (s.setWorker worker (.running job)).count Worker.looks + 1 = s.count Worker.looks := looks
    change (s.setWorker worker (.running job)).count Worker.asleep = 0 ∨
      rest.length ≤ (s.setWorker worker (.running job)).count Worker.looks
    rw [sleeps]
    refine valid.awake.imp id fun enough => ?_
    omega
  · intro closed
    have sleeps : (s.setWorker worker (.running job)).count Worker.asleep = s.count Worker.asleep :=
      changes Worker.asleep
    exact sleeps.trans (valid.shut closed)
  · intro member
    have empty := (valid.ended (exited_of_set (by simp) member)).2
    cases front.symm.trans empty

theorem Valid.look (valid : s.Valid) {worker : Nat} (looking : s.workers[worker]? = some .looking) :
    (s.look worker).Valid := by
  unfold BoundedBlockingExecutor.look
  split
  · rename_i job rest front
    exact valid.pop looking front
  · rename_i empty
    have short : s.jobs.length = 0 := by rw [empty]; rfl
    split
    · rename_i closed
      have none := count_setWorker looking Worker.asleep .exited
      exact valid.workers (count_setWorker looking Worker.busy .exited)
        (fun job => count_setWorker looking (Worker.holds job) .exited) (.inr (by omega))
        (fun _ => none.trans (valid.shut closed)) fun _ => ⟨closed, empty⟩
    · rename_i opened
      exact valid.workers (count_setWorker looking Worker.busy .waiting)
        (fun job => count_setWorker looking (Worker.holds job) .waiting) (.inr (by omega))
        (fun closed => absurd closed opened) fun member => valid.ended (exited_of_set (by simp) member)

/-- The job in a worker's hand has ended. -/
theorem Valid.ran (valid : s.Valid) {worker : Nat} {job : Job}
    (running : s.workers[worker]? = some (.running job)) : (s.ran worker job).Valid := by
  have changes := fun measure => count_setWorker running measure .finishing
  have looks : (s.setWorker worker .finishing).count Worker.looks = s.count Worker.looks := changes Worker.looks
  have sleeps : (s.setWorker worker .finishing).count Worker.asleep = s.count Worker.asleep := changes Worker.asleep
  constructor
  · exact valid.counted.trans (Nat.add_right_cancel (changes Worker.busy)).symm
  · exact valid.admitted
  · exact valid.order
  · exact valid.fewer
  · intro other
    have holds : (s.setWorker worker .finishing).count (Worker.holds other) + (if job = other then 1 else 0) =
        s.count (Worker.holds other) := changes (Worker.holds other)
    have once := valid.once other
    change (s.setWorker worker .finishing).count (Worker.holds other) + (s.finished ++ [job]).count other =
      if other < s.accepted - s.jobs.length then 1 else 0
    rw [← once, ← holds, List.count_append, List.count_singleton]
    simp only [beq_iff_eq]
    omega
  · change (s.setWorker worker .finishing).count Worker.asleep = 0 ∨
      s.jobs.length ≤ (s.setWorker worker .finishing).count Worker.looks
    rw [sleeps, looks]
    exact valid.awake
  · exact fun closed => sleeps.trans (valid.shut closed)
  · exact fun member => valid.ended (exited_of_set (by simp) member)

theorem Valid.complete (valid : s.Valid) {worker : Nat}
    (finishing : s.workers[worker]? = some .finishing) : (s.complete worker).Valid := by
  have woken : s.notifyAll.workers[worker]? = some .finishing := by
    change (s.workers.map Worker.woken)[worker]? = _
    rw [List.getElem?_map, finishing]
    rfl
  have changes := fun measure => count_setWorker woken measure .looking
  obtain ⟨asleep, -, busy, holds⟩ := s.notifyAll_count
  have sleeps : (s.notifyAll.setWorker worker .looking).count Worker.asleep = 0 := by
    rw [← asleep]
    exact changes Worker.asleep
  have busy : (s.notifyAll.setWorker worker .looking).count Worker.busy + 1 = s.count Worker.busy := by
    rw [← busy]
    exact changes Worker.busy
  constructor
  · change s.active - 1 = (s.notifyAll.setWorker worker .looking).count Worker.busy
    have counted := valid.counted
    omega
  · have admitted := valid.admitted
    change s.jobs.length + (s.active - 1) ≤ s.maxJobs
    omega
  · exact valid.order
  · exact valid.fewer
  · intro job
    have same : (s.notifyAll.setWorker worker .looking).count (Worker.holds job) = s.count (Worker.holds job) :=
      (changes (Worker.holds job)).trans (holds job)
    change (s.notifyAll.setWorker worker .looking).count (Worker.holds job) + _ = _
    rw [same]
    exact valid.once job
  · exact .inl sleeps
  · exact fun _ => sleeps
  · exact fun member => valid.ended (exited_of_woken (exited_of_set (s := s.notifyAll) (by simp) member))

theorem Valid.work (valid : s.Valid) (worker : Nat) : (s.work worker).Valid := by
  unfold BoundedBlockingExecutor.work
  split
  · exact valid.look ‹_›
  · exact valid.ran ‹_›
  · exact valid.complete ‹_›
  · exact valid

theorem Valid.stir (valid : s.Valid) (worker : Nat) : (s.stir worker).Valid := by
  unfold BoundedBlockingExecutor.stir
  split
  · rename_i asleep
    have looks : (s.setWorker worker .looking).count Worker.looks = s.count Worker.looks + 1 :=
      count_setWorker asleep Worker.looks .looking
    have sleeps : (s.setWorker worker .looking).count Worker.asleep + 1 = s.count Worker.asleep :=
      count_setWorker asleep Worker.asleep .looking
    have slept := asleep_pos asleep
    refine valid.workers (count_setWorker asleep Worker.busy .looking)
      (fun job => count_setWorker asleep (Worker.holds job) .looking) ?_ (fun closed => ?_) fun member =>
        valid.ended (exited_of_set (by simp) member)
    · right
      change s.jobs.length ≤ (s.setWorker worker .looking).count Worker.looks
      rcases valid.awake with none | enough <;> omega
    · have none := valid.shut closed
      omega
  · exact valid

theorem Valid.stirCaller (valid : s.Valid) (caller : Nat) : (s.stirCaller caller).Valid := by
  unfold BoundedBlockingExecutor.stirCaller
  split
  · exact { valid with }
  · exact valid

/-- The callers of `shutdown` touch neither the queue nor the workers. -/
theorem Valid.join (valid : s.Valid) (caller : Nat) : (s.join caller).Valid := by
  unfold BoundedBlockingExecutor.join
  repeat' split
  all_goals exact { valid with }

theorem Valid.step (valid : s.Valid) (event : Event) : (s.step event).Valid := by
  cases event with
  | submit choice => exact valid.submit choice
  | close => exact valid.close
  | shutdown => exact { valid.close with }
  | work worker => exact valid.work worker
  | join caller => exact valid.join caller
  | stir worker => exact valid.stir worker
  | stirCaller caller => exact valid.stirCaller caller

theorem Valid.run (valid : s.Valid) (events : List Event) : (s.run events).Valid := by
  induction events generalizing s with
  | nil => exact valid
  | cons event rest ih => exact ih (valid.step event)

end PtyRuntime.BoundedBlockingExecutor
