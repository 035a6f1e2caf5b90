import PtyRuntime.Infrastructure.Scheduling.BlockingRuns
import PtyRuntime.Interleaving.Liveness

/-! Progress of the blocking executor: under weak fairness every accepted job is run in
the end, and every call of `shutdown` returns once all of them have been. -/
namespace PtyRuntime.BoundedBlockingExecutor
open Tally Liveness

variable {s : BoundedBlockingExecutor}

inductive Agent where
  | worker (worker : Nat)
  | caller (caller : Nat)
  deriving DecidableEq

def Event.agent : Event → Option Agent
  | .work worker => some (.worker worker)
  | .join caller => some (.caller caller)
  | _ => none

/-- The thread is neither asleep nor done, nor waiting for a thread that is not. -/
def Enabled (s : BoundedBlockingExecutor) : Agent → Prop
  | .worker worker => ∃ phase, s.workers[worker]? = some phase ∧ phase ≠ .waiting ∧ phase ≠ .exited
  | .caller caller => s.callers[caller]? = some .entering ∨ s.callers[caller]? = some (.joining []) ∨
      ∃ worker rest, s.callers[caller]? = some (.joining (worker :: rest)) ∧
        s.workers[worker]? = some .exited

/-- Every thread that can go on does so in the end; in particular every job ends. -/
def Fair (s : BoundedBlockingExecutor) (schedule : Nat → Event) : Prop :=
  WeaklyFair Event.agent Enabled (states step s schedule) schedule

theorem set_phase {worker other : Nat} {phase after : Worker} (found : s.workers[other]? = some phase)
    (differs : worker ≠ other) : (s.setWorker worker after).workers[other]? = some phase := by
  change (s.workers.set worker after)[other]? = _
  rw [List.getElem?_set_ne differs]
  exact found

theorem woken_phase {other : Nat} {phase : Worker} (found : s.workers[other]? = some phase)
    (awake : phase ≠ .waiting) : s.notifyAll.workers[other]? = some phase := by
  change (s.workers.map Worker.woken)[other]? = _
  rw [List.getElem?_map, found]
  cases phase with
  | waiting => exact absurd rfl awake
  | _ => rfl

/-- Only its own step moves a worker that is awake. -/
theorem step_phase {event : Event} {worker : Nat} {phase : Worker} (found : s.workers[worker]? = some phase)
    (awake : phase ≠ .waiting) (other : event.agent ≠ some (.worker worker)) :
    (s.step event).workers[worker]? = some phase := by
  have differs {index : Nat} (asleep : s.workers[index]? = some .waiting) : index ≠ worker := by
    rintro rfl
    exact awake (Option.some.inj (found.symm.trans asleep))
  cases event with
  | submit choice =>
    simp only [step, submit]
    split
    · exact found
    split
    · exact found
    rcases notifyOne_cases { s with jobs := s.jobs ++ [s.accepted], accepted := s.accepted + 1 } choice with
      ⟨same, -⟩ | ⟨index, asleep, woke⟩
    · rw [same]
      exact found
    · rw [woke]
      exact set_phase (s := { s with jobs := s.jobs ++ [s.accepted], accepted := s.accepted + 1 }) found (differs asleep)
  | close => exact woken_phase (s := { s with closed := true }) found awake
  | shutdown => exact woken_phase (s := { s with closed := true }) found awake
  | work index =>
    have apart : index ≠ worker := fun same => other (by rw [same]; rfl)
    simp only [step, work]
    split
    · simp only [look]
      split
      · exact set_phase (s := { s with jobs := _, active := _ }) found apart
      · exact set_phase found apart
    · exact set_phase (s := { s with finished := _ }) found apart
    · exact set_phase (woken_phase (s := { s with active := s.active - 1 }) found awake) apart
    · exact found
  | join caller =>
    simp only [step, join]
    repeat' split
    all_goals exact found
  | stir index =>
    simp only [step, stir]
    split
    · exact set_phase found (differs ‹_›)
    · exact found
  | stirCaller caller =>
    simp only [step, stirCaller]
    split <;> exact found

/-- No step takes back a job that was accepted or one that has finished. -/
theorem step_grows (event : Event) : s.accepted ≤ (s.step event).accepted ∧
    ∀ job ∈ s.finished, job ∈ (s.step event).finished := by
  cases event with
  | submit choice =>
    simp only [step, submit]
    split
    · exact ⟨Nat.le_refl _, fun _ => id⟩
    split
    · exact ⟨Nat.le_refl _, fun _ => id⟩
    rcases notifyOne_cases { s with jobs := s.jobs ++ [s.accepted], accepted := s.accepted + 1 } choice with
      ⟨same, -⟩ | ⟨index, -, same⟩
    all_goals
      rw [same]
      exact ⟨Nat.le_succ _, fun _ => id⟩
  | work worker =>
    simp only [step, work]
    split
    · simp only [look]
      split <;> exact ⟨Nat.le_refl _, fun _ => id⟩
    · exact ⟨Nat.le_refl _, fun _ => List.mem_append_left _⟩
    · exact ⟨Nat.le_refl _, fun _ => id⟩
    · exact ⟨Nat.le_refl _, fun _ => id⟩
  | close | shutdown => exact ⟨Nat.le_refl _, fun _ => id⟩
  | join caller =>
    simp only [step, join]
    repeat' split
    all_goals exact ⟨Nat.le_refl _, fun _ => id⟩
  | stir worker =>
    simp only [step, stir]
    split <;> exact ⟨Nat.le_refl _, fun _ => id⟩
  | stirCaller caller =>
    simp only [step, stirCaller]
    split <;> exact ⟨Nat.le_refl _, fun _ => id⟩

theorem agent_worker {event : Event} {worker : Nat} (own : event.agent = some (.worker worker)) :
    event = .work worker := by
  cases event with
  | work index => exact congrArg Event.work (Agent.worker.inj (Option.some.inj own))
  | join caller => cases own
  | _ => cases own

/-- A worker that cannot go on does nothing. -/
theorem work_idle {worker : Nat} (idle : ¬s.Enabled (.worker worker)) : s.work worker = s := by
  unfold work
  split
  · exact absurd ⟨_, ‹_›, by simp, by simp⟩ idle
  · exact absurd ⟨_, ‹_›, by simp, by simp⟩ idle
  · exact absurd ⟨_, ‹_›, by simp, by simp⟩ idle
  · rfl

/-- Nobody else takes a worker's next step away. -/
theorem step_enabled {event : Event} {worker : Nat} (able : s.Enabled (.worker worker))
    (other : event.agent ≠ some (.worker worker)) : (s.step event).Enabled (.worker worker) := by
  obtain ⟨phase, found, awake, going⟩ := able
  exact ⟨phase, step_phase found awake other, awake, going⟩

/-- How many jobs have been started. -/
def started (s : BoundedBlockingExecutor) : Nat := s.accepted - s.jobs.length

/-- The steps until a worker looks for a job again. -/
def Worker.toil : Worker → Nat
  | .running _ => 2
  | .finishing => 1
  | _ => 0

theorem notifyAll_toil (s : BoundedBlockingExecutor) : s.notifyAll.count Worker.toil = s.count Worker.toil := by
  rw [count, notifyAll, total_woken]
  exact total_congr fun w _ => by cases w <;> rfl

/-- A step of a worker brings it nearer to its next job or starts one. -/
theorem work_toil (valid : s.Valid) (worker : Nat) :
    ¬s.Enabled (.worker worker) ∨ s.jobs = [] ∨
      ((s.work worker).started = s.started ∧ (s.work worker).count Worker.toil + 1 = s.count Worker.toil) ∨
      ((s.work worker).started = s.started + 1 ∧ (s.work worker).count Worker.toil = s.count Worker.toil + 2) := by
  unfold work
  split
  · rename_i looking
    unfold look
    split
    · rename_i job rest front
      have fewer := valid.fewer
      refine .inr (.inr (.inr ⟨?_, count_setWorker looking Worker.toil (.running job)⟩))
      rw [front, List.length_cons] at fewer
      change s.accepted - rest.length = s.accepted - s.jobs.length + 1
      rw [front, List.length_cons]
      omega
    · rename_i empty
      exact .inr (.inl empty)
  · rename_i running
    refine .inr (.inr (.inl ⟨rfl, ?_⟩))
    have toil : (s.setWorker worker .finishing).count Worker.toil + 2 = s.count Worker.toil + 1 :=
      count_setWorker running Worker.toil .finishing
    exact Nat.succ.inj toil
  · rename_i finishing
    have woken : s.notifyAll.workers[worker]? = some .finishing := woken_phase finishing (by simp)
    refine .inr (.inr (.inl ⟨rfl, ?_⟩))
    rw [← s.notifyAll_toil]
    exact count_setWorker woken Worker.toil .looking
  · rename_i looking running finishing
    left
    rintro ⟨phase, found, awake, going⟩
    cases phase with
    | looking => exact looking found
    | waiting => exact awake rfl
    | running job => exact running job found
    | finishing => exact finishing found
    | exited => exact going rfl

/-- Whoever else steps, no job is started and no worker moves on. -/
theorem step_toil {event : Event} (other : ∀ worker, event ≠ .work worker) :
    (s.step event).started = s.started ∧ (s.step event).count Worker.toil = s.count Worker.toil := by
  cases event with
  | submit choice =>
    simp only [step, submit]
    split
    · exact ⟨rfl, rfl⟩
    split
    · exact ⟨rfl, rfl⟩
    have same : { s with jobs := s.jobs ++ [s.accepted], accepted := s.accepted + 1 }.started = s.started := by
      simp only [started, List.length_append, List.length_singleton, Nat.add_sub_add_right]
    rcases notifyOne_cases { s with jobs := s.jobs ++ [s.accepted], accepted := s.accepted + 1 } choice with
      ⟨woke, -⟩ | ⟨index, asleep, woke⟩
    · rw [woke]
      exact ⟨same, rfl⟩
    · rw [woke]
      exact ⟨same, count_setWorker (s := s) asleep Worker.toil .looking⟩
  | work worker => exact absurd rfl (other worker)
  | close | shutdown => exact ⟨rfl, notifyAll_toil _⟩
  | join caller =>
    simp only [step, join]
    repeat' split
    all_goals exact ⟨rfl, rfl⟩
  | stir worker =>
    simp only [step, stir]
    split
    · rename_i asleep
      exact ⟨rfl, count_setWorker asleep Worker.toil .looking⟩
    · exact ⟨rfl, rfl⟩
  | stirCaller caller =>
    simp only [step, stirCaller]
    split <;> exact ⟨rfl, rfl⟩

/-- What has to happen before the job is started. -/
def ahead (job : Nat) (s : BoundedBlockingExecutor) : Nat :=
  if job < s.started then 0 else 1 + 3 * (job - s.started) + s.count Worker.toil

theorem ahead_pos {job : Nat} : 0 < s.ahead job ↔ s.started ≤ job := by
  unfold ahead
  split <;> omega

theorem ahead_zero {job : Nat} : s.ahead job = 0 ↔ job < s.started := by
  unfold ahead
  split <;> omega

theorem started_le (event : Event) : s.started ≤ (s.step event).started := by
  by_cases own : ∃ worker, event = .work worker
  · obtain ⟨worker, rfl⟩ := own
    change s.started ≤ (s.work worker).started
    unfold work
    split
    · unfold look
      split
      · rename_i job rest front
        change s.accepted - s.jobs.length ≤ s.accepted - rest.length
        rw [front, List.length_cons]
        omega
      · exact Nat.le_refl _
    all_goals exact Nat.le_refl _
  · exact (step_toil fun worker same => own ⟨worker, same⟩).1.ge

/-- Somebody is awake while a job is queued. -/
theorem Valid.someone (valid : s.Valid) (some : 0 < s.workers.length) (queued : s.jobs ≠ []) :
    ∃ worker, s.Enabled (.worker worker) := by
  rcases valid.awake with none | enough
  · have found : s.workers[0]? = .some s.workers[0] := List.getElem?_eq_getElem some
    refine ⟨0, s.workers[0], found, fun asleep => ?_, fun exited => ?_⟩
    · exact asleep_mem (asleep ▸ List.mem_of_getElem? found) none
    · exact queued (valid.ended (exited ▸ List.mem_of_getElem? found)).2
  · by_contra nobody
    rw [not_exists] at nobody
    have idle : s.count Worker.looks = 0 := by
      refine total_eq_zero fun w member => ?_
      obtain ⟨worker, found⟩ := List.mem_iff_getElem?.mp member
      cases w with
      | looking => exact absurd ⟨_, found, by simp, by simp⟩ (nobody worker)
      | _ => rfl
    rw [idle] at enough
    exact queued (List.length_eq_zero_iff.mp (Nat.le_zero.mp enough))

theorem start_effort (job : Nat) : Effort step Event.agent Enabled (fun _ => True)
    (fun s => s.Valid ∧ 0 < s.workers.length ∧ job < s.accepted) (ahead job)
    (fun s agent => 0 < s.ahead job ∧ ∃ worker, agent = .worker worker ∧ s.Enabled agent) := by
  have queued {s : BoundedBlockingExecutor} (valid : s.Valid) (accepted : job < s.accepted)
      (more : 0 < s.ahead job) : s.jobs ≠ [] := by
    intro empty
    have before := ahead_pos.mp more
    rw [started, empty, List.length_nil] at before
    omega
  have moves {s : BoundedBlockingExecutor} (event : Event) (valid : s.Valid) :
      (∃ worker, event = .work worker) ∨ (s.step event).ahead job = s.ahead job := by
    by_cases own : ∃ worker, event = .work worker
    · exact .inl own
    · obtain ⟨begun, toil⟩ := step_toil fun worker same => own ⟨worker, same⟩
      exact .inr (by rw [ahead, ahead, begun, toil])
  have works {s : BoundedBlockingExecutor} (valid : s.Valid) (more : s.jobs ≠ []) {worker : Nat}
      (able : s.Enabled (.worker worker)) (open_ : 0 < s.ahead job) :
      (s.work worker).ahead job < s.ahead job := by
    have before := ahead_pos.mp open_
    rcases work_toil valid worker with idle | empty | ⟨begun, toil⟩ | ⟨begun, toil⟩
    · exact absurd able idle
    · exact absurd empty more
    · rw [ahead, ahead, begun, if_neg (Nat.not_lt.mpr before), if_neg (Nat.not_lt.mpr before)]
      omega
    · rw [ahead, ahead, begun, toil, if_neg (Nat.not_lt.mpr before)]
      split <;> omega
  constructor
  · rintro s event - ⟨valid, staffed, accepted⟩
    exact ⟨valid.step event, s.step_length event ▸ staffed, accepted.trans_le (s.step_grows event).1⟩
  · rintro s event - ⟨valid, -, accepted⟩
    rcases moves event valid with ⟨worker, rfl⟩ | same
    · rcases Nat.eq_zero_or_pos (s.ahead job) with none | more
      · rw [none, Nat.le_zero, ahead_zero]
        exact (ahead_zero.mp none).trans_le (s.started_le (.work worker))
      · by_cases able : s.Enabled (.worker worker)
        · exact (works valid (queued valid accepted more) able more).le
        · exact (congrArg (ahead job) (work_idle able)).le
    · exact same.le
  · rintro s ⟨valid, staffed, accepted⟩ more
    obtain ⟨worker, able⟩ := valid.someone staffed (queued valid accepted more)
    exact ⟨.worker worker, more, worker, rfl, able⟩
  · rintro s agent - ⟨-, worker, rfl, able⟩
    exact able
  · rintro s event agent - ⟨valid, -, accepted⟩ ⟨more, worker, rfl, able⟩ other
    rcases moves event valid with ⟨index, rfl⟩ | same
    · by_cases moving : s.Enabled (.worker index)
      · exact .inl (works valid (queued valid accepted more) moving more)
      · refine .inr ?_
        rw [show s.step (.work index) = s from work_idle moving]
        exact ⟨more, worker, rfl, able⟩
    · exact .inr ⟨same ▸ more, worker, rfl, step_enabled able other⟩
  · rintro s event agent - ⟨valid, -, accepted⟩ ⟨more, worker, rfl, able⟩ own
    obtain rfl := agent_worker own
    exact works valid (queued valid accepted more) able more

/-- A job that was started is in a worker's hand until it ends. -/
theorem Valid.held (valid : s.Valid) {job : Nat} (begun : job < s.started) (going : job ∉ s.finished) :
    ∃ worker : Nat, s.workers[worker]? = some (.running job) := by
  have once := valid.once job
  rw [if_pos (show job < s.accepted - s.jobs.length from begun), List.count_eq_zero.mpr going, Nat.add_zero] at once
  by_contra nobody
  rw [not_exists] at nobody
  have free : s.count (Worker.holds job) = 0 := by
    refine total_eq_zero fun w member => ?_
    obtain ⟨worker, found⟩ := List.mem_iff_getElem?.mp member
    cases w with
    | running held =>
      refine if_neg fun same => nobody worker ?_
      rw [found, same]
    | _ => rfl
  rw [free] at once
  cases once

theorem finish_effort (job : Nat) : Effort step Event.agent Enabled (fun _ => True)
    (fun s => s.Valid ∧ job < s.started) (fun s => if job ∈ s.finished then 0 else 1)
    (fun s agent => job ∉ s.finished ∧ ∃ worker : Nat, agent = .worker worker ∧
      s.workers[worker]? = some (.running job)) := by
  have grows (s : BoundedBlockingExecutor) (event : Event) :
      (if job ∈ (s.step event).finished then 0 else 1) ≤ if job ∈ s.finished then 0 else 1 := by
    by_cases done : job ∈ s.finished
    · rw [if_pos done, if_pos ((s.step_grows event).2 job done)]
    · rw [if_neg done]
      split <;> simp
  constructor
  · rintro s event - ⟨valid, begun⟩
    exact ⟨valid.step event, begun.trans_le (s.started_le event)⟩
  · rintro s event - -
    exact grows s event
  · rintro s ⟨valid, begun⟩ more
    have going : job ∉ s.finished := fun done => by simp [done] at more
    obtain ⟨worker, held⟩ := valid.held begun going
    exact ⟨.worker worker, going, worker, rfl, held⟩
  · rintro s agent - ⟨-, worker, rfl, held⟩
    exact ⟨_, held, by simp, by simp⟩
  · rintro s event agent - - ⟨going, worker, rfl, held⟩ other
    by_cases done : job ∈ (s.step event).finished
    · exact .inl (by simp [going, done])
    · exact .inr ⟨done, worker, rfl, step_phase held (by simp) other⟩
  · rintro s event agent - - ⟨going, worker, rfl, held⟩ own
    obtain rfl := agent_worker own
    have ended : job ∈ (s.step (.work worker)).finished := by
      simp only [step, work, held, ran, setWorker]
      exact List.mem_append_right _ (List.mem_singleton_self job)
    simp [going, ended]

theorem states_kept (schedule : Nat → Event) (valid : s.Valid) (n : Nat) :
    (states step s schedule n).Valid ∧ (states step s schedule n).workers.length = s.workers.length := by
  induction n with
  | zero => exact ⟨valid, rfl⟩
  | succ n ih => exact ⟨ih.1.step _, (step_length _).trans ih.2⟩

/-- In every fair schedule every job that is accepted is run to its end, whatever else is
submitted and whenever the executor is shut down. -/
theorem accepted_jobs_finish {maxJobs workers : Nat} {reserved : Bool} {spawned : Nat}
    (made : new maxJobs workers reserved spawned = .ok s) {schedule : Nat → Event} (fair : s.Fair schedule)
    {n job : Nat} (accepted : job < (states step s schedule n).accepted) :
    ∃ m, n ≤ m ∧ job ∈ (states step s schedule m).finished := by
  obtain ⟨valid, length⟩ := states_kept schedule (new_valid made) n
  have staffed : 0 < (states step s schedule n).workers.length := length ▸ new_staffed made
  obtain ⟨first, since, ⟨valid, -, -⟩, none⟩ :=
    (start_effort job).finishes fair (fun _ _ => trivial) ⟨valid, staffed, accepted⟩
  obtain ⟨last, later, -, none⟩ :=
    (finish_effort job).finishes fair (fun _ _ => trivial) ⟨valid, ahead_zero.mp none⟩
  refine ⟨last, since.trans later, ?_⟩
  by_contra going
  rw [if_neg going] at none
  cases none

/-- The steps a worker of a closed executor takes before it looks into an empty queue. -/
def Worker.weight : Worker → Nat
  | .looking | .waiting => 1
  | .running _ => 3
  | .finishing => 2
  | .exited => 0

/-- The steps a caller takes, at most, once the workers have exited. -/
def Caller.weight (workers : Nat) : Caller → Nat
  | .entering | .waiting => workers + 2
  | .joining rest => rest.length + 1
  | .returned => 0

/-- What is left to do for a closed executor. -/
def left (s : BoundedBlockingExecutor) : Nat :=
  4 * s.jobs.length + s.count Worker.weight + total (Caller.weight s.workers.length) s.callers

theorem notifyAll_weight (s : BoundedBlockingExecutor) : s.notifyAll.count Worker.weight = s.count Worker.weight := by
  rw [count, notifyAll, total_woken]
  exact total_congr fun w _ => by cases w <;> rfl

/-- Each step of a worker of a closed executor brings the end nearer. -/
theorem work_left (closed : s.closed = true) {worker : Nat} (able : s.Enabled (.worker worker)) :
    (s.work worker).left < s.left := by
  obtain ⟨phase, found, awake, going⟩ := able
  have length (t : BoundedBlockingExecutor) (same : t.workers.length = s.workers.length)
      (callers : t.callers = s.callers) (less : 4 * t.jobs.length + t.count Worker.weight <
        4 * s.jobs.length + s.count Worker.weight) : t.left < s.left := by
    rw [left, left, same, callers]
    exact Nat.add_lt_add_right less _
  refine length _ (s.work_beside worker).length (s.work_beside worker).callers ?_
  unfold work
  rw [found]
  cases phase with
  | looking =>
    dsimp only
    unfold look
    split
    · rename_i job rest front
      have weighs : (s.setWorker worker (.running job)).count Worker.weight + 1 = s.count Worker.weight + 3 :=
        count_setWorker found Worker.weight (.running job)
      change 4 * rest.length + (s.setWorker worker (.running job)).count Worker.weight < _
      rw [front, List.length_cons]
      omega
    · have weighs : (s.setWorker worker .exited).count Worker.weight + 1 = s.count Worker.weight :=
        count_setWorker found Worker.weight .exited
      rw [closed, if_pos rfl]
      change 4 * s.jobs.length + _ < _
      omega
  | running job =>
    have weighs : (s.setWorker worker .finishing).count Worker.weight + 3 = s.count Worker.weight + 2 :=
      count_setWorker found Worker.weight .finishing
    change 4 * s.jobs.length + (s.setWorker worker .finishing).count Worker.weight < _
    omega
  | finishing =>
    have weighs : (s.notifyAll.setWorker worker .looking).count Worker.weight + 2 =
        s.notifyAll.count Worker.weight + 1 :=
      count_setWorker (woken_phase found (by simp)) Worker.weight .looking
    rw [s.notifyAll_weight] at weighs
    change 4 * s.jobs.length + (s.notifyAll.setWorker worker .looking).count Worker.weight < _
    omega
  | waiting => exact absurd rfl awake
  | exited => exact absurd rfl going

theorem setCaller_left {caller : Nat} {before : Caller} (found : s.callers[caller]? = some before)
    (after : Caller) : (s.setCaller caller after).left + before.weight s.workers.length =
      s.left + after.weight s.workers.length := by
  have weighs := @total_set _ (Caller.weight s.workers.length) _ _ _ found after
  change 4 * s.jobs.length + s.count Worker.weight +
      total (Caller.weight s.workers.length) (s.callers.set caller after) + _ =
    4 * s.jobs.length + s.count Worker.weight + total (Caller.weight s.workers.length) s.callers + _
  omega

/-- A caller's step that brings the end nearer: it finds nobody else joining, or joins. -/
def Useful (s : BoundedBlockingExecutor) : Agent → Prop
  | .worker worker => s.Enabled (.worker worker)
  | .caller caller => s.Exited ∧ ((s.callers[caller]? = some .entering ∧ s.joining = false) ∨
      ∃ rest, s.callers[caller]? = some (.joining rest))

theorem woken_left (s : BoundedBlockingExecutor) :
    total (Caller.weight s.workers.length) (s.callers.map Caller.woken) =
      total (Caller.weight s.workers.length) s.callers := by
  simp only [total, List.map_map]
  congr 1
  exact List.map_congr_left fun c _ => by cases c <;> rfl

theorem join_left (joins : s.Joins) (caller : Nat) :
    (s.join caller).left < s.left ∨ ((s.join caller).left = s.left ∧ ¬s.Useful (.caller caller) ∧
      ∀ other, s.Useful (.caller other) → (s.join caller).Useful (.caller other)) := by
  unfold join
  split
  · rename_i entering
    split
    · rename_i busy
      refine .inr ⟨Nat.add_right_cancel (setCaller_left entering .waiting), ?_, fun other useful => ?_⟩
      · rintro ⟨-, ⟨-, free⟩ | ⟨rest, joining⟩⟩
        · cases busy.symm.trans free
        · cases entering.symm.trans joining
      · obtain ⟨exited, ⟨-, free⟩ | ⟨rest, joining⟩⟩ := useful
        · cases busy.symm.trans free
        · refine ⟨exited, .inr ⟨rest, ?_⟩⟩
          have differs : caller ≠ other := by
            rintro rfl
            cases entering.symm.trans joining
          change (s.callers.set caller .waiting)[other]? = _
          rw [List.getElem?_set_ne differs]
          exact joining
    · left
      have weighs := setCaller_left (s := { s with joining := true, handles := [] }) entering (.joining s.handles)
      change _ + (s.workers.length + 2) = s.left + (s.handles.length + 1) at weighs
      have few := joins.few
      omega
  · rename_i worker rest joining
    split
    · left
      have weighs := setCaller_left joining (.joining rest)
      change _ + (rest.length + 1 + 1) = _ + (rest.length + 1) at weighs
      omega
    · rename_i going
      refine .inr ⟨rfl, ?_, fun other useful => useful⟩
      rintro ⟨exited, -⟩
      exact going (exited worker (joins.joined _ (List.mem_of_getElem? joining) worker List.mem_cons_self))
  · rename_i joining
    left
    have woken : ({ s with joining := false, callers := s.callers.map Caller.woken } :
        BoundedBlockingExecutor).callers[caller]? = some (.joining []) := by
      change (s.callers.map Caller.woken)[caller]? = _
      rw [List.getElem?_map, joining]
      rfl
    have weighs := setCaller_left woken .returned
    have same : ({ s with joining := false, callers := s.callers.map Caller.woken } :
        BoundedBlockingExecutor).left = s.left :=
      congrArg (4 * s.jobs.length + s.count Worker.weight + ·) s.woken_left
    rw [same] at weighs
    change _ + 1 = _ + 0 at weighs
    omega
  · rename_i entering joining done
    refine .inr ⟨rfl, ?_, fun other useful => useful⟩
    rintro ⟨-, ⟨found, -⟩ | ⟨rest, found⟩⟩
    · exact entering found
    · cases rest with
      | nil => exact done found
      | cons worker rest => exact joining worker rest found

theorem Exited.step (exited : s.Exited) (event : Event) (idle : ∀ worker, event ≠ .work worker) :
    (s.step event).Exited := by
  intro worker within
  rw [step_length] at within
  refine step_phase (exited worker within) (by simp) fun own => ?_
  exact idle worker (agent_worker own)

/-- Nothing else that can happen to a closed executor matters. -/
theorem still (valid : s.Valid) (closed : s.closed = true) {event : Event}
    (other : (∀ worker, event ≠ .work worker) ∧ (∀ caller, event ≠ .join caller) ∧ event ≠ .shutdown) :
    (s.step event).left = s.left ∧ ∀ agent, s.Useful agent → (s.step event).Useful agent := by
  have worker {index : Nat} (able : s.Enabled (.worker index)) : (s.step event).Enabled (.worker index) :=
    step_enabled able fun own => other.1 index (agent_worker own)
  cases event with
  | submit choice =>
    have refused : s.step (.submit choice) = s := by
      simp only [step, submit, closed, if_true]
    rw [refused]
    exact ⟨rfl, fun _ => id⟩
  | close =>
    have length : s.close.workers.length = s.workers.length := s.close_beside.length
    refine ⟨?_, fun agent useful => ?_⟩
    · change 4 * s.jobs.length + s.notifyAll.count Worker.weight +
        total (Caller.weight s.close.workers.length) s.callers = s.left
      rw [notifyAll_weight, length]
      rfl
    · cases agent with
      | worker index => exact worker useful
      | caller caller => exact ⟨useful.1.step .close other.1, useful.2⟩
  | stir index =>
    have same : s.step (.stir index) = s := by
      simp only [step, stir]
      split
      · rename_i asleep
        exact absurd (valid.shut closed) (asleep_mem (List.mem_of_getElem? asleep))
      · rfl
    rw [same]
    exact ⟨rfl, fun _ => id⟩
  | stirCaller caller =>
    simp only [step, stirCaller] at worker ⊢
    split
    · rename_i waiting
      refine ⟨Nat.add_right_cancel (setCaller_left waiting .entering), fun agent useful => ?_⟩
      cases agent with
      | worker index => exact useful
      | caller index =>
        have differs : caller ≠ index := by
          rintro rfl
          rcases useful.2 with ⟨entering, -⟩ | ⟨rest, joining⟩
          · cases waiting.symm.trans entering
          · cases waiting.symm.trans joining
        refine ⟨useful.1, ?_⟩
        change ((s.callers.set caller .entering)[index]? = _ ∧ _) ∨ ∃ rest, (s.callers.set caller .entering)[index]? = _
        rw [List.getElem?_set_ne differs]
        exact useful.2
    · exact ⟨rfl, fun _ => id⟩
  | shutdown => exact absurd rfl other.2.2
  | work index => exact absurd rfl (other.1 index)
  | join caller => exact absurd rfl (other.2.1 caller)

/-- While anything is left to do, some thread can do it. -/
theorem Valid.useful (valid : s.Valid) (joins : s.Joins) (closed : s.closed = true)
    (staffed : 0 < s.workers.length) (more : 0 < s.left) : ∃ agent, s.Useful agent := by
  by_cases exited : s.Exited
  · have empty : s.jobs = [] := (valid.ended (List.mem_of_getElem? (exited 0 staffed))).2
    have idle : s.count Worker.weight = 0 := by
      refine total_eq_zero fun w member => ?_
      obtain ⟨worker, found⟩ := List.mem_iff_getElem?.mp member
      obtain ⟨within, -⟩ := List.getElem?_eq_some_iff.mp found
      rw [Option.some.inj (found.symm.trans (exited worker within))]
      rfl
    have joiner (busy : s.joining = true) : ∃ agent, s.Useful agent := by
      obtain ⟨rest, member⟩ := joins.someone busy
      obtain ⟨caller, found⟩ := List.mem_iff_getElem?.mp member
      exact ⟨.caller caller, exited, .inr ⟨rest, found⟩⟩
    by_cases busy : s.joining = true
    · exact joiner busy
    by_contra nobody
    rw [not_exists] at nobody
    rw [left, empty, idle] at more
    refine Nat.lt_irrefl 0 (more.trans_le (Nat.le_zero.mpr ?_))
    change 0 + total (Caller.weight s.workers.length) s.callers = 0
    rw [Nat.zero_add, total]
    refine List.sum_eq_zero fun weight member => ?_
    obtain ⟨phase, held, rfl⟩ := List.mem_map.mp member
    obtain ⟨caller, found⟩ := List.mem_iff_getElem?.mp held
    cases phase with
    | entering => exact absurd ⟨exited, .inl ⟨found, by simpa using busy⟩⟩ (nobody (.caller caller))
    | waiting => exact absurd (joins.parked held) busy
    | joining rest => exact absurd ⟨exited, .inr ⟨rest, found⟩⟩ (nobody (.caller caller))
    | returned => rfl
  · obtain ⟨worker, within, going⟩ : ∃ worker, worker < s.workers.length ∧ s.workers[worker]? ≠ some .exited := by
      by_contra none
      refine exited fun worker within => ?_
      by_contra going
      exact none ⟨worker, within, going⟩
    have found : s.workers[worker]? = some s.workers[worker] := List.getElem?_eq_getElem within
    refine ⟨.worker worker, s.workers[worker], found, fun asleep => ?_, fun ended => going (found.trans (congrArg some ended))⟩
    exact asleep_mem (asleep ▸ List.mem_of_getElem? found) (valid.shut closed)

theorem step_closed (closed : s.closed = true) (event : Event) : (s.step event).closed = true := by
  cases event with
  | submit choice => exact (s.submit_beside choice).closed closed
  | close | shutdown => rfl
  | work worker => exact (s.work_beside worker).closed closed
  | join caller =>
    simp only [step, join]
    repeat' split
    all_goals exact closed
  | stir worker => exact (s.stir_beside worker).closed closed
  | stirCaller caller =>
    simp only [step, stirCaller]
    split <;> exact closed

theorem shutdown_effort : Effort step Event.agent Enabled (· ≠ .shutdown)
    (fun s => s.Valid ∧ s.Joins ∧ s.closed = true ∧ 0 < s.workers.length) left Useful := by
  -- What any step does: it brings the end nearer, or leaves everybody what they had to do.
  have moves {s : BoundedBlockingExecutor} {event : Event} (other : event ≠ .shutdown) (valid : s.Valid)
      (joins : s.Joins) (closed : s.closed = true) : (s.step event).left < s.left ∨
        ((s.step event).left = s.left ∧ (∀ agent, event.agent = some agent → ¬s.Useful agent) ∧
          ∀ agent, s.Useful agent → (s.step event).Useful agent) := by
    cases event with
    | work worker =>
      by_cases able : s.Enabled (.worker worker)
      · exact .inl (work_left closed able)
      · have idle : s.step (.work worker) = s := work_idle able
        rw [idle]
        refine .inr ⟨rfl, fun agent own => ?_, fun _ => id⟩
        obtain rfl := Option.some.inj own
        exact able
    | join caller =>
      rcases join_left joins caller with lower | ⟨same, useless, others⟩
      · exact .inl lower
      · refine .inr ⟨same, fun agent own => ?_, fun agent useful => ?_⟩
        · obtain rfl := Option.some.inj own
          exact useless
        · cases agent with
          | worker worker => exact step_enabled useful fun own => by cases own
          | caller index => exact others index useful
    | submit | close | shutdown | stir | stirCaller =>
      obtain ⟨same, others⟩ := still valid closed ⟨by simp, by simp, other⟩
      exact .inr ⟨same, fun _ own => absurd own (by simp [Event.agent]), others⟩
  constructor
  · rintro s event - ⟨valid, joins, closed, staffed⟩
    exact ⟨valid.step event, joins.step event, step_closed closed event, s.step_length event ▸ staffed⟩
  · rintro s event other ⟨valid, joins, closed, -⟩
    exact (moves other valid joins closed).elim (·.le) (·.1.le)
  · rintro s ⟨valid, joins, closed, staffed⟩ more
    exact valid.useful joins closed staffed more
  · rintro s agent ⟨-, joins, -, -⟩ useful
    cases agent with
    | worker worker => exact useful
    | caller caller =>
      obtain ⟨exited, ⟨entering, -⟩ | ⟨rest, joining⟩⟩ := useful
      · exact .inl entering
      · cases rest with
        | nil => exact .inr (.inl joining)
        | cons worker rest =>
          refine .inr (.inr ⟨worker, rest, joining, exited worker ?_⟩)
          exact joins.joined _ (List.mem_of_getElem? joining) worker List.mem_cons_self
  · rintro s event agent other ⟨valid, joins, closed, -⟩ useful -
    exact (moves other valid joins closed).imp id fun still => still.2.2 agent useful
  · rintro s event agent other ⟨valid, joins, closed, -⟩ useful own
    exact (moves other valid joins closed).resolve_right fun still => still.2.1 agent own useful

/-- In every fair schedule in which the executor is closed and nobody calls `shutdown` any
more, every call of it returns in the end, with every worker gone and every job finished. -/
theorem shutdown_returns {maxJobs workers : Nat} {reserved : Bool} {spawned : Nat}
    (made : new maxJobs workers reserved spawned = .ok s) {schedule : Nat → Event} (fair : s.Fair schedule)
    {n : Nat} (closed : (states step s schedule n).closed = true)
    (quiet : ∀ k, n ≤ k → schedule k ≠ .shutdown) :
    ∃ m, n ≤ m ∧ (states step s schedule m).Exited ∧
      (∀ caller ∈ (states step s schedule m).callers, caller = .returned) ∧
      ∀ job, job < (states step s schedule m).accepted → (states step s schedule m).finished.count job = 1 := by
  have joins (m : Nat) : (states step s schedule m).Joins := by
    induction m with
    | zero => exact new_joins made
    | succ m ih => exact ih.step _
  obtain ⟨valid, length⟩ := states_kept schedule (new_valid made) n
  have staffed : 0 < (states step s schedule n).workers.length := length ▸ new_staffed made
  obtain ⟨m, since, ⟨valid, joins, closed, staffed⟩, none⟩ :=
    shutdown_effort.finishes fair quiet ⟨valid, joins n, closed, staffed⟩
  have weights : (states step s schedule m).count Worker.weight = 0 ∧
      total (Caller.weight (states step s schedule m).workers.length) (states step s schedule m).callers = 0 := by
    unfold left at none
    omega
  have exited : (states step s schedule m).Exited := by
    intro worker within
    have found := List.getElem?_eq_getElem within
    have light := @le_total _ Worker.weight _ _ (List.mem_of_getElem? found)
    rw [show total Worker.weight (states step s schedule m).workers = 0 from weights.1] at light
    rw [found]
    generalize (states step s schedule m).workers[worker] = phase at light
    cases phase with
    | exited => rfl
    | _ => cases light
  refine ⟨m, since, exited, fun caller member => ?_, valid.all_finished exited staffed⟩
  have light := @le_total _ (Caller.weight (states step s schedule m).workers.length) _ _ member
  rw [weights.2] at light
  cases caller with
  | returned => rfl
  | _ => cases light

/-- A job is submitted and the executor shut down, while worker and caller take turns. -/
def sampleSchedule : Nat → Event
  | 0 => .submit 0
  | 1 => .shutdown
  | n + 2 => if n % 2 = 0 then .work 0 else .join 0

/-- The state of the sample once everything is done. -/
def sampleEnd : BoundedBlockingExecutor :=
  { sample with closed := true, workers := [.exited], handles := [], callers := [.returned], accepted := 1
                finished := [0] }

theorem sample_ends (n : Nat) : states step sample sampleSchedule (n + 14) = sampleEnd := by
  induction n with
  | zero => rfl
  | succ n ih =>
    change (states step sample sampleSchedule (n + 14)).step (sampleSchedule (n + 14)) = sampleEnd
    rw [ih]
    change sampleEnd.step (if (n + 12) % 2 = 0 then .work 0 else .join 0) = sampleEnd
    split <;> rfl

theorem sampleEnd_idle (agent : Agent) : ¬sampleEnd.Enabled agent := by
  cases agent with
  | worker worker =>
    rintro ⟨phase, found, -, going⟩
    have member : phase ∈ [Worker.exited] := List.mem_of_getElem? found
    exact going (List.mem_singleton.mp member)
  | caller caller =>
    have phases {phase : Caller} (found : sampleEnd.callers[caller]? = some phase) : phase = .returned := by
      have member : phase ∈ [Caller.returned] := List.mem_of_getElem? found
      exact List.mem_singleton.mp member
    rintro (found | found | ⟨worker, rest, found, -⟩) <;> cases phases found

theorem sample_fair : sample.Fair sampleSchedule := by
  intro agent n able
  have late : n ≤ n + 14 := Nat.le_add_right n 14
  have still := able (n + 14) late
  rw [sample_ends] at still
  exact absurd still (sampleEnd_idle agent)

theorem accepted_jobs_finish_sample : ∃ m, 1 ≤ m ∧ 0 ∈ (states step sample sampleSchedule m).finished :=
  accepted_jobs_finish sample_made sample_fair (show 0 < (states step sample sampleSchedule 1).accepted by decide)

theorem shutdown_returns_sample : ∃ m, 2 ≤ m ∧ (states step sample sampleSchedule m).Exited ∧
    (∀ caller ∈ (states step sample sampleSchedule m).callers, caller = .returned) ∧
    ∀ job, job < (states step sample sampleSchedule m).accepted →
      (states step sample sampleSchedule m).finished.count job = 1 := by
  refine shutdown_returns sample_made sample_fair (by decide) fun k since => ?_
  obtain ⟨k, rfl⟩ := Nat.exists_eq_add_of_le' since
  change (if k % 2 = 0 then Event.work 0 else .join 0) ≠ .shutdown
  split <;> simp

end PtyRuntime.BoundedBlockingExecutor
