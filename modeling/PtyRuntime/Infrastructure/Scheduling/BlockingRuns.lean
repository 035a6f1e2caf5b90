import PtyRuntime.Infrastructure.Scheduling.BlockingLaws

/-! The blocking executor over whole runs: each job is run once and in turn, nobody sleeps
while there is something to do, and `shutdown` returns to no thread before its time. -/
namespace PtyRuntime.BoundedBlockingExecutor
open Tally

variable {s : BoundedBlockingExecutor}

/-- What every step keeps of the threads in `Workers::join`. -/
structure Joins (s : BoundedBlockingExecutor) : Prop where
  single : total Caller.joins s.callers = s.joining.toNat
  taken : s.joining = true → s.handles = []
  owed : ∀ worker, worker < s.workers.length → s.workers[worker]? = some .exited ∨ worker ∈ s.handles ∨
    ∃ rest, .joining rest ∈ s.callers ∧ worker ∈ rest
  parked : .waiting ∈ s.callers → s.joining = true
  gone : .returned ∈ s.callers → ∀ worker, worker < s.workers.length → s.workers[worker]? = some .exited
  called : s.callers ≠ [] → s.closed = true
  few : s.handles.length ≤ s.workers.length
  known : ∀ worker ∈ s.handles, worker < s.workers.length
  joined : ∀ rest, .joining rest ∈ s.callers → ∀ worker ∈ rest, worker < s.workers.length

theorem new_joins {maxJobs workers : Nat} {reserved : Bool} {spawned : Nat}
    (made : new maxJobs workers reserved spawned = .ok s) : s.Joins := by
  unfold new at made
  split at made
  · cases made
  split at made
  · cases made
  split at made
  · cases made
  obtain rfl := Except.ok.inj made
  constructor
  · rfl
  · intro joining
    cases joining
  · intro worker within
    rw [List.length_replicate] at within
    exact .inr (.inl (List.mem_range.mpr within))
  · intro member
    cases member
  · intro member
    cases member
  · exact fun called => absurd rfl called
  · simp
  · intro worker member
    rw [List.length_replicate]
    exact List.mem_range.mp member
  · intro rest member
    cases member

/-- What a step that is not of `Workers::join` leaves in place. -/
structure Beside (s s' : BoundedBlockingExecutor) : Prop where
  handles : s'.handles = s.handles
  joining : s'.joining = s.joining
  callers : s'.callers = s.callers
  length : s'.workers.length = s.workers.length
  exited : ∀ worker : Nat, s.workers[worker]? = some .exited → s'.workers[worker]? = some .exited
  closed : s.closed = true → s'.closed = true

theorem Beside.refl (s : BoundedBlockingExecutor) : Beside s s := ⟨rfl, rfl, rfl, rfl, fun _ => id, id⟩

theorem Joins.beside (joins : s.Joins) {s' : BoundedBlockingExecutor} (beside : Beside s s') : s'.Joins where
  single := by
    rw [beside.callers, beside.joining]
    exact joins.single
  taken := by
    rw [beside.handles, beside.joining]
    exact joins.taken
  owed worker within := by
    rw [beside.length] at within
    rw [beside.handles, beside.callers]
    exact (joins.owed worker within).imp (beside.exited worker) id
  parked := by
    rw [beside.callers, beside.joining]
    exact joins.parked
  gone := by
    rw [beside.callers, beside.length]
    exact fun member worker within => beside.exited worker (joins.gone member worker within)
  called := by
    rw [beside.callers]
    exact fun some => beside.closed (joins.called some)
  few := by
    rw [beside.handles, beside.length]
    exact joins.few
  known := by
    rw [beside.handles, beside.length]
    exact joins.known
  joined := by
    rw [beside.callers, beside.length]
    exact joins.joined

theorem setWorker_beside {worker : Nat} {before : Worker} (found : s.workers[worker]? = some before)
    (going : before ≠ .exited) (after : Worker) : Beside s (s.setWorker worker after) where
  handles := rfl
  joining := rfl
  callers := rfl
  length := List.length_set
  exited other ended := by
    have differs : worker ≠ other := by
      rintro rfl
      exact going (Option.some.inj (found.symm.trans ended))
    change (s.workers.set worker after)[other]? = _
    rw [List.getElem?_set_ne differs]
    exact ended
  closed := id

theorem notifyAll_beside (s : BoundedBlockingExecutor) : Beside s s.notifyAll where
  handles := rfl
  joining := rfl
  callers := rfl
  length := List.length_map ..
  exited worker ended := by
    change (s.workers.map Worker.woken)[worker]? = _
    rw [List.getElem?_map, ended]
    rfl
  closed := id

theorem submit_beside (s : BoundedBlockingExecutor) (choice : Nat) : Beside s (s.submit choice).2 := by
  unfold submit
  split
  · exact .refl s
  split
  · exact .refl s
  rcases notifyOne_cases { s with jobs := s.jobs ++ [s.accepted], accepted := s.accepted + 1 } choice with
    ⟨same, -⟩ | ⟨worker, asleep, woke⟩
  · change Beside s (notifyOne _ choice)
    rw [same]
    exact { Beside.refl s with }
  · change Beside s (notifyOne _ choice)
    rw [woke]
    exact { setWorker_beside (s := s) asleep (by simp) .looking with }

theorem work_beside (s : BoundedBlockingExecutor) (worker : Nat) : Beside s (s.work worker) := by
  unfold work
  split
  · rename_i looking
    unfold look
    split
    · exact { setWorker_beside looking (by simp) (.running _) with }
    · exact setWorker_beside looking (by simp) _
  · rename_i running
    exact { setWorker_beside running (by simp) .finishing with }
  · rename_i finishing
    have woken : s.notifyAll.workers[worker]? = some .finishing := by
      change (s.workers.map Worker.woken)[worker]? = _
      rw [List.getElem?_map, finishing]
      rfl
    have woke := s.notifyAll_beside
    have set := setWorker_beside woken (by simp) .looking
    exact ⟨rfl, rfl, rfl, set.length.trans woke.length, fun other ended => set.exited other (woke.exited other ended), id⟩
  · exact .refl s

theorem stir_beside (s : BoundedBlockingExecutor) (worker : Nat) : Beside s (s.stir worker) := by
  unfold stir
  split
  · exact setWorker_beside ‹_› (by simp) .looking
  · exact .refl s

theorem mem_setCaller {caller : Nat} {before after phase : Caller} (found : s.callers[caller]? = some before)
    (member : phase ∈ s.callers) (other : phase ≠ before) : phase ∈ (s.setCaller caller after).callers := by
  obtain ⟨index, held⟩ := List.mem_iff_getElem?.mp member
  have differs : caller ≠ index := by
    rintro rfl
    exact other (Option.some.inj (held.symm.trans found))
  refine List.mem_of_getElem? (i := index) ?_
  change (s.callers.set caller after)[index]? = _
  rw [List.getElem?_set_ne differs]
  exact held

theorem mem_of_setCaller {caller : Nat} {after phase : Caller}
    (member : phase ∈ (s.setCaller caller after).callers) : phase ∈ s.callers ∨ phase = after :=
  List.mem_or_eq_of_mem_set member

theorem setCaller_joins {caller : Nat} {before : Caller} (found : s.callers[caller]? = some before)
    (after : Caller) :
    total Caller.joins (s.setCaller caller after).callers + before.joins =
      total Caller.joins s.callers + after.joins := total_set found after

theorem called_of_mem {caller : Nat} {phase : Caller} (found : s.callers[caller]? = some phase) : s.callers ≠ [] := by
  intro none
  rw [none] at found
  cases found

/-- A caller finds another one joining. -/
theorem Joins.park (joins : s.Joins) {caller : Nat} (entering : s.callers[caller]? = some .entering)
    (busy : s.joining = true) : (s.setCaller caller .waiting).Joins where
  single := (setCaller_joins entering .waiting).trans joins.single
  taken := joins.taken
  owed worker within := by
    refine (joins.owed worker within).imp id (Or.imp id fun ⟨rest, member, own⟩ => ⟨rest, ?_, own⟩)
    exact mem_setCaller entering member (by simp)
  parked _ := busy
  gone member := joins.gone ((mem_of_setCaller member).resolve_right (by simp))
  called _ := joins.called (called_of_mem entering)
  few := joins.few
  known := joins.known
  joined rest member := joins.joined rest ((mem_of_setCaller member).resolve_right (by simp))

/-- A caller takes the handles. -/
theorem Joins.take (joins : s.Joins) {caller : Nat} (entering : s.callers[caller]? = some .entering)
    (free : s.joining = false) :
    Joins ({ s with joining := true, handles := [] }.setCaller caller (.joining s.handles)) where
  single := by
    have joined := setCaller_joins entering (.joining s.handles)
    rw [joins.single, free] at joined
    exact joined
  taken _ := rfl
  owed worker within := by
    rcases joins.owed worker within with ended | own | ⟨rest, member, own⟩
    · exact .inl ended
    · refine .inr (.inr ⟨s.handles, ?_, own⟩)
      obtain ⟨bound, -⟩ := List.getElem?_eq_some_iff.mp entering
      exact List.mem_set bound _
    · exact .inr (.inr ⟨rest, mem_setCaller entering member (by simp), own⟩)
  parked _ := rfl
  gone member := joins.gone ((mem_of_setCaller (s := s) member).resolve_right (by simp))
  called _ := joins.called (called_of_mem entering)
  few := Nat.zero_le _
  known _ member := by cases member
  joined rest member := by
    rcases mem_of_setCaller (s := s) member with old | same
    · exact joins.joined rest old
    · obtain rfl := Caller.joining.inj same
      exact joins.known

/-- A caller finds the next worker finished. -/
theorem Joins.reap (joins : s.Joins) {caller worker : Nat} {rest : List Nat}
    (joining : s.callers[caller]? = some (.joining (worker :: rest)))
    (ended : s.workers[worker]? = some .exited) : (s.setCaller caller (.joining rest)).Joins where
  single := Nat.add_right_cancel (setCaller_joins joining (.joining rest)) |>.trans joins.single
  taken := joins.taken
  owed other within := by
    obtain ⟨bound, -⟩ := List.getElem?_eq_some_iff.mp joining
    rcases joins.owed other within with done | own | ⟨others, member, own⟩
    · exact .inl done
    · exact .inr (.inl own)
    · by_cases same : others = worker :: rest
      · subst same
        rcases List.mem_cons.mp own with rfl | later
        · exact .inl ended
        · exact .inr (.inr ⟨rest, List.mem_set bound _, later⟩)
      · exact .inr (.inr ⟨others, mem_setCaller joining member (by simpa using same), own⟩)
  parked member := joins.parked ((mem_of_setCaller member).resolve_right (by simp))
  gone member := joins.gone ((mem_of_setCaller member).resolve_right (by simp))
  called _ := joins.called (called_of_mem joining)
  few := joins.few
  known := joins.known
  joined others member := by
    have old := joins.joined (worker :: rest) (List.mem_of_getElem? joining)
    rcases mem_of_setCaller member with other | same
    · exact joins.joined others other
    · obtain rfl := Caller.joining.inj same
      exact fun w own => old w (List.mem_cons_of_mem worker own)

/-- The thread that joins is the only one. -/
theorem Joins.alone (joins : s.Joins) {caller : Nat} {rest : List Nat}
    (joining : s.callers[caller]? = some (.joining rest)) (after : Caller) (idle : after.joins = 0) :
    s.joining = true ∧ total Caller.joins (s.setCaller caller after).callers = 0 := by
  have member := @le_total _ Caller.joins _ _ (List.mem_of_getElem? joining)
  have changed := setCaller_joins joining after
  have own : Caller.joins (.joining rest) = 1 := rfl
  rw [joins.single] at member changed
  have busy : s.joining = true := by
    cases held : s.joining with
    | true => rfl
    | false =>
      rw [held, own] at member
      cases member
  rw [busy, idle, own] at changed
  exact ⟨busy, Nat.add_right_cancel (changed.trans (Nat.add_comm _ _))⟩

theorem Joins.all_exited (joins : s.Joins) {caller : Nat} (joining : s.callers[caller]? = some (.joining [])) :
    ∀ worker, worker < s.workers.length → s.workers[worker]? = some .exited := by
  intro worker within
  obtain ⟨busy, alone⟩ := joins.alone joining .returned rfl
  rcases joins.owed worker within with ended | own | ⟨rest, member, own⟩
  · exact ended
  · rw [joins.taken busy] at own
    cases own
  · by_cases same : rest = []
    · subst same
      cases own
    · have other : .joining rest ∈ (s.setCaller caller .returned).callers :=
        mem_setCaller joining member (by simpa using same)
      have bound := @le_total _ Caller.joins _ _ other
      rw [alone] at bound
      cases bound

theorem total_joins_woken (callers : List Caller) :
    total Caller.joins (callers.map Caller.woken) = total Caller.joins callers := by
  simp only [total, List.map_map, Function.comp_def, Caller.woken_joins]

/-- The thread that joined is done, and wakes the others. -/
theorem Joins.release (joins : s.Joins) {caller : Nat} (joining : s.callers[caller]? = some (.joining [])) :
    Joins ({ s with joining := false, callers := s.callers.map Caller.woken }.setCaller caller .returned) := by
  have ended := joins.all_exited joining
  obtain ⟨-, alone⟩ := joins.alone joining .returned rfl
  have shape : (s.callers.map Caller.woken).set caller .returned =
      (s.callers.set caller .returned).map Caller.woken := by
    rw [List.map_set]
    rfl
  have was {phase : Caller} (member : phase ∈ (s.callers.map Caller.woken).set caller .returned) :
      ∃ old ∈ s.callers.set caller .returned, old.woken = phase := by
    rw [shape] at member
    exact List.mem_map.mp member
  constructor
  · change total Caller.joins ((s.callers.map Caller.woken).set caller .returned) = 0
    rw [shape, total_joins_woken]
    exact alone
  · intro joining
    cases joining
  · exact fun worker within => .inl (ended worker within)
  · intro member
    obtain ⟨old, -, same⟩ := was member
    exact absurd same old.woken_ne_waiting
  · exact fun _ => ended
  · exact fun _ => joins.called (called_of_mem joining)
  · exact joins.few
  · exact joins.known
  · intro rest member
    obtain ⟨old, kept, same⟩ := was member
    rw [Caller.woken_eq_joining.mp same] at kept
    exact joins.joined rest ((mem_of_setCaller (s := s) kept).resolve_right (by simp))

theorem Joins.join (joins : s.Joins) (caller : Nat) : (s.join caller).Joins := by
  unfold BoundedBlockingExecutor.join
  split
  · rename_i entering
    split
    · exact joins.park entering ‹_›
    · exact joins.take entering (by simpa using ‹¬s.joining = true›)
  · rename_i joining
    split
    · exact joins.reap joining ‹_›
    · exact joins
  · exact joins.release ‹_›
  · exact joins

theorem Joins.stirCaller (joins : s.Joins) (caller : Nat) : (s.stirCaller caller).Joins := by
  unfold BoundedBlockingExecutor.stirCaller
  split
  · rename_i waiting
    have busy := joins.parked (List.mem_of_getElem? waiting)
    constructor
    · exact (setCaller_joins waiting .entering).trans joins.single
    · exact joins.taken
    · intro worker within
      refine (joins.owed worker within).imp id (Or.imp id fun ⟨rest, member, own⟩ => ⟨rest, ?_, own⟩)
      exact mem_setCaller waiting member (by simp)
    · exact fun _ => busy
    · exact fun member => joins.gone ((mem_of_setCaller member).resolve_right (by simp))
    · exact fun _ => joins.called (called_of_mem waiting)
    · exact joins.few
    · exact joins.known
    · exact fun rest member => joins.joined rest ((mem_of_setCaller member).resolve_right (by simp))
  · exact joins

theorem close_beside (s : BoundedBlockingExecutor) : Beside s s.close :=
  { s.notifyAll_beside with closed := fun _ => rfl }

/-- Another thread calls `shutdown`. -/
theorem Joins.shutdown (joins : s.Joins) : s.shutdown.Joins := by
  have closed := joins.beside s.close_beside
  have was {phase : Caller} (member : phase ∈ s.callers ++ [.entering]) (other : phase ≠ .entering) :
      phase ∈ s.callers :=
    (List.mem_append.mp member).resolve_right fun new => other (List.mem_singleton.mp new)
  constructor
  · change total Caller.joins (s.callers ++ [.entering]) = _
    rw [total_append]
    exact joins.single
  · exact closed.taken
  · intro worker within
    refine (closed.owed worker within).imp id (Or.imp id fun ⟨rest, member, own⟩ => ⟨rest, ?_, own⟩)
    exact List.mem_append_left _ member
  · exact fun member => joins.parked (was member (by simp))
  · exact fun member => closed.gone (was member (by simp))
  · exact fun _ => rfl
  · exact closed.few
  · exact closed.known
  · exact fun rest member => closed.joined rest (was member (by simp))

theorem Joins.step (joins : s.Joins) (event : Event) : (s.step event).Joins := by
  cases event with
  | submit choice => exact joins.beside (s.submit_beside choice)
  | close => exact joins.beside s.close_beside
  | shutdown => exact joins.shutdown
  | work worker => exact joins.beside (s.work_beside worker)
  | join caller => exact joins.join caller
  | stir worker => exact joins.beside (s.stir_beside worker)
  | stirCaller caller => exact joins.stirCaller caller

theorem Joins.run (joins : s.Joins) (events : List Event) : (s.run events).Joins := by
  induction events generalizing s with
  | nil => exact joins
  | cons event rest ih => exact ih (joins.step event)

/-- Each accepted job is in one place, and jobs are started in the order they came. -/
structure Orderly (s : BoundedBlockingExecutor) : Prop where
  admitted : s.jobs.length + s.active ≤ s.maxJobs
  active : s.active = s.count Worker.busy
  order : s.jobs = List.range' (s.accepted - s.jobs.length) s.jobs.length
  once : ∀ job, s.jobs.count job + s.count (Worker.holds job) + s.finished.count job =
    if job < s.accepted then 1 else 0

theorem Valid.orderly (valid : s.Valid) : s.Orderly where
  admitted := valid.admitted
  active := valid.counted
  order := valid.order
  once job := by
    have queued : s.jobs.count job =
        if s.accepted - s.jobs.length ≤ job ∧ job < s.accepted then 1 else 0 := by
      have nodup : s.jobs.Nodup := valid.order ▸ List.nodup_range'
      rw [nodup.count]
      congr 1
      rw [valid.order, List.mem_range'_1, ← valid.order, Nat.sub_add_cancel valid.fewer]
    have once := valid.once job
    rw [Nat.add_assoc, once, queued]
    by_cases started : job < s.accepted - s.jobs.length
    · rw [if_neg fun queued => Nat.not_lt.mpr queued.1 started, if_pos started,
        if_pos (started.trans_le (Nat.sub_le _ _))]
    · simp only [Nat.le_of_not_lt started, true_and, if_neg started, Nat.add_zero]

/-- Nobody sleeps while there is something to do. -/
structure Awake (s : BoundedBlockingExecutor) : Prop where
  /-- While a worker sleeps, others are about to look for every queued job. -/
  covered : .waiting ∈ s.workers → s.jobs.length ≤ s.count Worker.looks
  /-- Once the executor is closed no worker sleeps. -/
  shut : s.closed = true → .waiting ∉ s.workers
  /-- A worker only exits when there is nothing left to do. -/
  exited : .exited ∈ s.workers → s.closed = true ∧ s.jobs = []
  /-- A caller of `shutdown` only sleeps while another joins the workers. -/
  parked : .waiting ∈ s.callers → ∃ handles, .joining handles ∈ s.callers

theorem asleep_mem (asleep : .waiting ∈ s.workers) : s.count Worker.asleep ≠ 0 := by
  have counted := @le_total _ Worker.asleep _ _ asleep
  exact Nat.ne_of_gt counted

theorem joining_of_total {callers : List Caller} (some : total Caller.joins callers ≠ 0) :
    ∃ handles, .joining handles ∈ callers := by
  induction callers with
  | nil => exact absurd rfl some
  | cons caller rest ih =>
    cases caller with
    | joining handles => exact ⟨handles, List.mem_cons_self⟩
    | entering | waiting | returned =>
      rw [total_cons] at some
      obtain ⟨handles, member⟩ := ih fun none => some (by rw [none]; rfl)
      exact ⟨handles, List.mem_cons_of_mem _ member⟩

theorem Joins.someone (joins : s.Joins) (busy : s.joining = true) : ∃ handles, .joining handles ∈ s.callers := by
  refine joining_of_total ?_
  rw [joins.single, busy]
  exact Nat.one_ne_zero

theorem Valid.awakes (valid : s.Valid) (joins : s.Joins) : s.Awake where
  covered asleep := valid.awake.resolve_left (asleep_mem asleep)
  shut closed asleep := asleep_mem asleep (valid.shut closed)
  exited := valid.ended
  parked waiting := joins.someone (joins.parked waiting)

variable {maxJobs workers : Nat} {reserved : Bool} {spawned : Nat}

/-- In every run each accepted job is queued, in one worker's hand or finished, never twice,
and the queue holds the latest ones in order. -/
theorem jobs_run_once_in_order (made : new maxJobs workers reserved spawned = .ok s) (events : List Event) :
    Orderly (s.run events) :=
  ((new_valid made).run events).orderly

/-- In every run no wakeup is lost. -/
theorem wakeups_not_lost (made : new maxJobs workers reserved spawned = .ok s) (events : List Event) :
    Awake (s.run events) :=
  ((new_valid made).run events).awakes ((new_joins made).run events)

/-- All workers have exited. -/
def Exited (s : BoundedBlockingExecutor) : Prop :=
  ∀ worker, worker < s.workers.length → s.workers[worker]? = some .exited

theorem Valid.all_finished (valid : s.Valid) (ended : s.Exited) (some : 0 < s.workers.length) :
    ∀ job, job < s.accepted → s.finished.count job = 1 := by
  intro job accepted
  have empty : s.jobs = [] := (valid.ended (List.mem_of_getElem? (ended 0 some))).2
  have free : s.count (Worker.holds job) = 0 := by
    refine total_eq_zero fun w member => ?_
    obtain ⟨worker, found⟩ := List.mem_iff_getElem?.mp member
    obtain ⟨within, -⟩ := List.getElem?_eq_some_iff.mp found
    rw [Option.some.inj (found.symm.trans (ended worker within))]
    rfl
  have once := valid.once job
  rw [free, empty, List.length_nil, Nat.sub_zero, if_pos accepted, Nat.zero_add] at once
  exact once

theorem step_length (event : Event) : (s.step event).workers.length = s.workers.length := by
  cases event with
  | submit choice => exact (s.submit_beside choice).length
  | close => exact s.close_beside.length
  | shutdown => exact s.close_beside.length
  | work worker => exact (s.work_beside worker).length
  | join caller =>
    simp only [step, join]
    repeat' split
    all_goals rfl
  | stir worker => exact (s.stir_beside worker).length
  | stirCaller caller =>
    simp only [step, stirCaller]
    split <;> rfl

theorem new_staffed {maxJobs workers : Nat} {reserved : Bool} {spawned : Nat}
    (made : new maxJobs workers reserved spawned = .ok s) : 0 < s.workers.length := by
  unfold new at made
  split at made
  · cases made
  rename_i right
  split at made
  · cases made
  split at made
  · cases made
  obtain rfl := Except.ok.inj made
  rw [List.length_replicate]
  simp only [Bool.or_eq_true, decide_eq_true_eq, not_or] at right
  exact Nat.pos_of_ne_zero right.1.2

theorem run_length (s : BoundedBlockingExecutor) (events : List Event) :
    (s.run events).workers.length = s.workers.length := by
  induction events generalizing s with
  | nil => rfl
  | cons event rest ih => exact (ih (s.step event)).trans (s.step_length event)

/-- `shutdown` returns to no thread of the outside before every worker has exited and every
accepted job has been run, and nothing is accepted from then on. -/
theorem shutdown_waits (made : new maxJobs workers reserved spawned = .ok s) (events : List Event)
    (returned : .returned ∈ (s.run events).callers) :
    (s.run events).Exited ∧ (∀ job, job < (s.run events).accepted → (s.run events).finished.count job = 1) ∧
      ∀ choice, ((s.run events).submit choice).1 = .error .closed := by
  have joins := (new_joins made).run events
  have exited := joins.gone returned
  refine ⟨exited, ((new_valid made).run events).all_finished exited (run_length s events ▸ new_staffed made),
    fun choice => ?_⟩
  rw [submit, if_pos (joins.called (List.ne_nil_of_mem returned))]

def sample : BoundedBlockingExecutor where
  jobs := []
  active := 0
  closed := false
  maxJobs := 2
  workers := [.looking]
  handles := [0]
  joining := false
  callers := []
  accepted := 0
  finished := []

theorem sample_made : new 2 1 true 1 = .ok sample := rfl

/-- Two jobs are submitted, the executor is shut down twice, and everyone goes on to the end. -/
def sampleEvents : List Event :=
  [.work 0, .submit 0, .submit 0, .submit 0, .shutdown, .join 0, .work 0, .shutdown, .join 1, .work 0, .work 0,
    .work 0, .work 0, .work 0, .work 0, .join 0, .join 0, .join 1, .join 1]

theorem jobs_run_once_in_order_sample :
    (sample.run (sampleEvents.take 7)).jobs = [1] ∧ (sample.run (sampleEvents.take 7)).active = 1 ∧
      Orderly (sample.run (sampleEvents.take 7)) :=
  ⟨by decide, by decide, jobs_run_once_in_order sample_made _⟩

theorem wakeups_not_lost_sample :
    (sample.run (sampleEvents.take 9)).callers = [.joining [0], .waiting] ∧
      Awake (sample.run (sampleEvents.take 9)) :=
  ⟨by decide, wakeups_not_lost sample_made _⟩

theorem shutdown_waits_sample :
    (sample.run sampleEvents).finished = [0, 1] ∧ (sample.run sampleEvents).Exited ∧
      (∀ job, job < (sample.run sampleEvents).accepted → (sample.run sampleEvents).finished.count job = 1) ∧
      ∀ choice, ((sample.run sampleEvents).submit choice).1 = .error .closed :=
  ⟨by decide, shutdown_waits sample_made sampleEvents (by decide)⟩

end PtyRuntime.BoundedBlockingExecutor
