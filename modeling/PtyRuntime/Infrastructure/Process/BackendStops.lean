import PtyRuntime.Infrastructure.Process.BackendProgress

/-! Progress of `stop`: once the processes exit, both threads end and every call of it
returns. All that is left to do is counted over callers, channels, threads and processes
together, and every step of somebody who can go on makes it less. -/
namespace PtyRuntime.UnixProcessBackend
open Tally Liveness

variable {s s' : UnixProcessBackend}

/-- A call that comes after the shutdown is refused, and leaves nothing to do. -/
def Caller.weight : Caller → Nat
  | .admitting => 13
  | .sending _ => 12
  | _ => 0

def Message.weight : Message → Nat
  | .launch _ => 11
  | .shutdown => 1

def Next.weight : Next → Nat
  | .drain => 6
  | .receive => 7
  | .wake => 8

def Spawner.weight : Spawner → Nat
  | .received _ => 16
  | .launching _ => 15
  | .launched _ => 14
  | .handing _ => 13
  | .rejecting _ _ next => next.weight + 1
  | .replying _ _ next => next.weight
  | .waking => 7
  | .receiving => 6
  | .draining | .unwinding _ => 5
  | .leaving _ => 4
  | .raising => 3
  | .closing => 2
  | .signalling => 1
  | .exited => 0

def Supervisor.weight : Supervisor → Nat
  | .took _ _ => 12
  | .starting _ _ => 11
  | .refusing _ _ _ => 10
  | .replying _ _ _ => 9
  | .retaining _ true 0 => 6
  | .retaining _ _ _ => 11
  | .polling _ _ => 10
  | .reading => 9
  | .taking _ => 8
  | .loading _ | .unwinding (some _) => 7
  | .unwinding none => 6
  | .leaving _ => 5
  | .closing => 4
  | .swapping => 3
  | .sending => 2
  | .exited => 0

theorem Spawner.exited_of_weight {phase : Spawner} (light : phase.weight = 0) : phase = .exited := by
  cases phase with
  | exited => rfl
  | replying request error next => cases next <;> cases light
  | _ => cases light

theorem Supervisor.exited_of_weight {phase : Supervisor} (light : phase.weight = 0) : phase = .exited := by
  cases phase with
  | exited => rfl
  | unwinding request => cases request <;> cases light
  | retaining admitted shutting seen => cases shutting <;> cases seen <;> cases light
  | _ => cases light

def Stopper.weight : Stopper → Nat
  | .raising => 9
  | .closing => 8
  | .swapping => 7
  | .sending => 6
  | .waking => 4
  | .locking => 3
  | .joining => 2
  | .joined => 1
  | .returned => 0

def load (s : UnixProcessBackend) : Nat :=
  total Caller.weight s.callers + total Message.weight s.requests + s.spawner.weight + 5 * s.ready.length +
    s.supervisor.weight + 2 * s.processes.length + total Stopper.weight s.stoppers

/-- A step of the spawner that can go on. -/
theorem spawnerStep_load (able : s.Enabled .spawner) (launch : Launch) : (s.spawnerStep launch).load < s.load := by
  unfold spawnerStep
  cases phase : s.spawner with
  | receiving =>
    dsimp only
    split
    all_goals rename_i front
    · simp only [load, phase, front, Spawner.weight, Message.weight, total_cons]
      omega
    · simp only [load, phase, front, Spawner.weight, Message.weight, total_cons]
      omega
    · exact absurd front (able.2 phase)
  | draining =>
    dsimp only
    split
    all_goals
      rename_i front
      simp only [load, phase, front, Spawner.weight, Message.weight, Next.weight, total_cons, total_nil]
      omega
  | leaving panicked =>
    dsimp only
    split
    all_goals rename_i front
    · simp only [load, phase, front, discard, release, reply, Spawner.weight, Message.weight, total_cons]
      omega
    · simp only [load, phase, front, Spawner.weight, Message.weight, total_cons]
      omega
    · split
      all_goals
        simp only [load, phase, Spawner.weight]
        omega
  | handing request =>
    dsimp only
    rcases s.hand?_cases request with ⟨handed, -⟩ | ⟨full, -⟩
    · rw [handed]
      simp only [load, phase, Spawner.weight, List.length_append, List.length_singleton]
      omega
    · rw [full]
      simp only [load, phase, Spawner.weight, Next.weight]
      omega
  | received request | launched request =>
    dsimp only
    split
    all_goals
      simp only [load, phase, Spawner.weight, Next.weight]
      omega
  | launching request =>
    cases launch
    all_goals
      simp only [load, phase, Spawner.weight, Next.weight]
      omega
  | rejecting request error next =>
    simp only [load, phase, release, Spawner.weight]
    omega
  | replying request error next =>
    cases next
    all_goals
      simp only [load, phase, reply, Next.phase, Spawner.weight, Next.weight]
      omega
  | unwinding request | waking | raising | closing | signalling =>
    simp only [load, phase, discard, release, reply, Spawner.weight]
    omega
  | exited => exact absurd phase able.1

/-- Every process turns out to be complete, and `poll` returns. -/
def Outcome.Ends (outcome : Outcome) : Prop := outcome.complete = true ∧ outcome.woken = true

/-- A step of the supervisor once the shutdown is asked for and the processes end. -/
theorem supervisorStep_load (going : s.supervisor ≠ .exited) (shut : s.shutdown = true) {outcome : Outcome}
    (ends : outcome.Ends) : (s.supervisorStep outcome).load < s.load := by
  unfold supervisorStep
  cases phase : s.supervisor with
  | taking admitted =>
    dsimp only
    split
    · simp only [load, phase, Supervisor.weight]
      omega
    · split
      all_goals
        rename_i front
        simp only [load, phase, front, Supervisor.weight, List.length_cons, List.length_nil]
        omega
  | took admitted request =>
    simp only [shut, if_true, load, phase, Supervisor.weight]
    omega
  | starting admitted request =>
    dsimp only
    split
    · simp only [load, phase, Supervisor.weight]
      omega
    · split
      all_goals
        simp only [load, phase, reply, Supervisor.weight, List.length_append, List.length_singleton]
        omega
  | refusing admitted request error | replying admitted request error =>
    simp only [load, phase, reply, release, Supervisor.weight]
    omega
  | loading admitted =>
    dsimp only
    split
    all_goals
      simp only [shut, load, phase, Supervisor.weight]
      omega
  | retaining admitted shutting seen =>
    dsimp only
    split
    · rename_i within
      rw [if_pos ends.1]
      simp only [load, phase, release, List.length_eraseIdx_of_lt within]
      omega
    · rename_i beyond
      split
      · cases shutting <;> cases seen <;> simp only [load, phase, Supervisor.weight] <;> omega
      · rename_i more
        have late : (Supervisor.retaining admitted shutting seen).weight = 11 := by
          cases shutting with
          | false => rfl
          | true =>
            cases seen with
            | succ seen => rfl
            | zero =>
              have none : s.processes = [] := List.eq_nil_of_length_eq_zero (Nat.eq_zero_of_not_pos beyond)
              simp [none] at more
        simp only [load, phase, late]
        simp only [Supervisor.weight]
        omega
  | polling hurried shutting =>
    simp only [ends.2, Bool.or_true, Bool.true_or, if_true, load, phase, Supervisor.weight]
    omega
  | reading =>
    dsimp only
    split
    all_goals
      simp only [load, phase, Supervisor.weight]
      omega
  | unwinding request =>
    cases request with
    | none =>
      dsimp only
      split
      all_goals
        rename_i front
        simp only [load, phase, front, release, Supervisor.weight, List.length_cons, List.length_nil]
        omega
    | some request =>
      simp only [load, phase, discard, release, reply, Supervisor.weight]
      omega
  | leaving panicked =>
    dsimp only
    split
    · rename_i front
      simp only [load, phase, front, discard, release, reply, Supervisor.weight, List.length_cons]
      omega
    · split
      all_goals
        simp only [load, phase, Supervisor.weight]
        omega
  | closing =>
    simp only [load, phase, Supervisor.weight]
    omega
  | swapping =>
    dsimp only
    split
    all_goals
      simp only [load, phase, Supervisor.weight]
      omega
  | sending =>
    dsimp only
    rcases s.request?_cases .shutdown with ⟨sent, -⟩ | ⟨full, -⟩
    · rw [sent]
      simp only [Option.getD_some, load, phase, Supervisor.weight, Message.weight, total_append, total_cons, total_nil]
      omega
    · rw [full]
      simp only [Option.getD_none, load, phase, Supervisor.weight]
      omega
  | exited => exact absurd phase going

theorem setStopper_load {stopper : Nat} {before : Stopper} (found : s.stoppers[stopper]? = some before)
    (after : Stopper) : (s.setStopper stopper after).load + before.weight = s.load + after.weight := by
  have counted := @total_set _ Stopper.weight _ _ _ found after
  simp only [load, setStopper]
  omega

/-- A step of a call of `stop` that can go on. -/
theorem stopperStep_load {stopper : Nat} (able : s.Enabled (.stopper stopper)) :
    (s.stopperStep stopper).load < s.load := by
  obtain ⟨phase, found, going, free, supervisor, spawner⟩ := able
  have moved (after : Stopper) := setStopper_load found after
  unfold stopperStep
  rw [found]
  cases phase with
  | raising =>
    have moved := moved .closing
    change (s.setStopper stopper .closing).load < s.load
    simp only [Stopper.weight] at moved
    omega
  | closing =>
    have moved := moved .swapping
    change (s.setStopper stopper .swapping).load < s.load
    simp only [Stopper.weight] at moved
    omega
  | swapping =>
    have waking := moved .waking
    have sending := moved .sending
    simp only [Stopper.weight] at waking sending
    dsimp only
    split
    · change (s.setStopper stopper .waking).load < s.load
      omega
    · change (s.setStopper stopper .sending).load < s.load
      omega
  | sending =>
    have moved := moved .waking
    simp only [Stopper.weight] at moved
    dsimp only
    rcases s.request?_cases .shutdown with ⟨sent, -⟩ | ⟨full, -⟩
    · rw [sent, Option.getD_some]
      simp only [load, setStopper, total_append, total_cons, total_nil, Message.weight] at moved ⊢
      omega
    · rw [full, Option.getD_none]
      omega
  | waking =>
    have moved := moved .locking
    change (s.setStopper stopper .locking).load < s.load
    simp only [Stopper.weight] at moved
    omega
  | locking =>
    have returned := moved .returned
    have joining := moved .joining
    simp only [Stopper.weight] at returned joining
    simp only [free rfl, Bool.false_eq_true, if_false]
    split
    · omega
    · change (s.setStopper stopper .joining).load < s.load
      omega
  | joining =>
    have moved := moved .joined
    simp only [Stopper.weight] at moved
    rw [if_pos (supervisor rfl)]
    change (s.setStopper stopper .joined).load < s.load
    omega
  | joined =>
    have moved := moved .returned
    simp only [Stopper.weight] at moved
    rw [if_pos (spawner rfl)]
    change (s.setStopper stopper .returned).load < s.load
    omega
  | returned => exact absurd rfl going

theorem setCaller_load {caller : Nat} {before : Caller} (found : s.callers[caller]? = some before)
    (after : Caller) : (s.setCaller caller after).load + before.weight = s.load + after.weight := by
  have counted := @total_set _ Caller.weight _ _ _ found after
  simp only [load, setCaller]
  omega

/-- A call of `spawn` leaves no more to do, and less while it is admitted or sends. -/
theorem call_load (shut : s.shutdown = true) (caller : Nat) : (s.call caller).load ≤ s.load ∧
    (s.callers[caller]? = some .admitting ∨ (∃ request, s.callers[caller]? = some (.sending request)) →
      (s.call caller).load < s.load) := by
  unfold call
  cases found : s.callers[caller]? with
  | none => exact ⟨Nat.le_refl _, by simp⟩
  | some phase =>
    have moved (after : Caller) := setCaller_load found after
    have kept {after : Caller} (light : phase.weight = 0 ∧ after.weight = 0) : (s.setCaller caller after).load ≤ s.load := by
      have moved := moved after
      omega
    cases phase with
    | entering =>
      simp only [shut, if_true]
      exact ⟨kept ⟨rfl, rfl⟩, by simp⟩
    | admitting =>
      have sending := moved (.sending caller)
      have returned := moved (.returned (.error .capacity))
      simp only [Caller.weight] at sending returned
      have less : (if s.active < s.max then { s with active := s.active + 1 }.setCaller caller (.sending caller)
          else s.setCaller caller (.returned (.error .capacity))).load < s.load := by
        split
        · change (s.setCaller caller (.sending caller)).load < s.load
          omega
        · omega
      exact ⟨less.le, fun _ => less⟩
    | sending request =>
      have waking := moved .waking
      have returned := moved (.returned (.error .closed))
      simp only [Caller.weight] at waking returned
      dsimp only
      rcases s.request?_cases (.launch request) with ⟨sent, -⟩ | ⟨full, -⟩
      · have less : ({ s with requests := s.requests ++ [Message.launch request] }.setCaller caller .waking).load < s.load := by
          simp only [load, setCaller, total_append, total_cons, total_nil, Message.weight] at waking ⊢
          omega
        rw [sent]
        exact ⟨less.le, fun _ => less⟩
      · have less : ((s.discard request).setCaller caller (.returned (.error .closed))).load < s.load := by
          change (s.setCaller caller (.returned (.error .closed))).load < s.load
          omega
        rw [full]
        exact ⟨less.le, fun _ => less⟩
    | waking =>
      refine ⟨?_, by simp⟩
      change (s.setCaller caller .waiting).load ≤ s.load
      exact kept ⟨rfl, rfl⟩
    | waiting =>
      refine ⟨?_, by simp⟩
      dsimp only
      split
      · exact kept ⟨rfl, rfl⟩
      · exact kept ⟨rfl, rfl⟩
      · exact Nat.le_refl _
    | returned answer => exact ⟨Nat.le_refl _, by simp⟩

/-- What `poll` waits for when there are processes: besides a byte in the wake socket, what
the processes do and their deadlines make it return. -/
def Stirred (s : UnixProcessBackend) : Agent → Prop
  | .supervisor => s.supervisor ≠ .exited ∧
      ∀ shutting, s.supervisor = .polling false shutting → s.wake = true ∨ s.processes ≠ []
  | agent => s.Enabled agent

/-- Somebody who can go on, and whose step leaves less to do. -/
def Useful (s : UnixProcessBackend) : Agent → Prop
  | .call caller => s.callers[caller]? = some .admitting ∨ ∃ request, s.callers[caller]? = some (.sending request)
  | agent => s.Stirred agent

/-- Nobody comes in to stop it any more, the processes end, and `poll` returns. -/
def Event.Calm : Event → Prop
  | .stop _ => False
  | .supervisor outcome => outcome.Ends
  | _ => True

/-- In a pass that shuts down, `poll` is only called while there are processes. -/
def Dutiful (s : UnixProcessBackend) : Prop := ∀ hurried, s.supervisor = .polling hurried true → s.processes ≠ []

theorem spawnerStep_idle (idle : ¬s.Enabled .spawner) (launch : Launch) : s.spawnerStep launch = s := by
  unfold spawnerStep
  cases phase : s.spawner with
  | receiving =>
    have none : s.requests = [] := by
      by_contra some
      exact idle ⟨by simp [phase], fun _ => some⟩
    dsimp only
    rw [none]
  | exited => rfl
  | _ => exact absurd ⟨by simp [phase], by simp [phase]⟩ idle

theorem stopperStep_idle {stopper : Nat} (idle : ¬s.Enabled (.stopper stopper)) : s.stopperStep stopper = s := by
  unfold stopperStep
  cases found : s.stoppers[stopper]? with
  | none => rfl
  | some phase =>
    cases phase with
    | locking =>
      have locked : s.locked = true := by
        by_contra free
        exact idle ⟨_, found, by simp, fun _ => by simpa using free, by simp, by simp⟩
      dsimp only
      rw [if_pos locked]
    | joining =>
      dsimp only
      rw [if_neg fun exited => idle ⟨_, found, by simp, by simp, fun _ => exited, by simp⟩]
    | joined =>
      dsimp only
      rw [if_neg fun exited => idle ⟨_, found, by simp, by simp, by simp, fun _ => exited⟩]
    | returned => rfl
    | _ => exact absurd ⟨_, found, by simp, by simp, by simp, by simp⟩ idle

theorem spawn_load (s : UnixProcessBackend) (limits : ProcessLimits) : (s.spawn limits).load = s.load := by
  simp only [load, spawn, total_append, total_cons, total_nil]
  cases limits.validate <;> simp only [Caller.weight, Nat.add_zero]

theorem step_load_le {event : Event} (calm : event.Calm) (shut : s.shutdown = true) : (s.step event).load ≤ s.load := by
  cases event with
  | spawn limits => exact (s.spawn_load limits).le
  | call caller => exact (call_load shut caller).1
  | stop immediate => cases calm
  | spawner launch =>
    by_cases able : s.Enabled .spawner
    · exact (spawnerStep_load able launch).le
    · exact (congrArg load (spawnerStep_idle able launch)).le
  | supervisor outcome =>
    by_cases exited : s.supervisor = .exited
    · have idle : s.supervisorStep outcome = s := by
        unfold supervisorStep
        rw [exited]
      exact (congrArg load idle).le
    · exact (supervisorStep_load exited shut calm).le
  | stopper index =>
    by_cases able : s.Enabled (.stopper index)
    · exact (stopperStep_load able).le
    · exact (congrArg load (stopperStep_idle able)).le

theorem step_load_lt {event : Event} (calm : event.Calm) (shut : s.shutdown = true) {agent : Agent} (useful : s.Useful agent)
    (own : event.agent = some agent) : (s.step event).load < s.load := by
  cases event with
  | spawn limits => cases own
  | stop immediate => cases own
  | call caller =>
    obtain rfl := Option.some.inj own
    exact (call_load shut caller).2 useful
  | spawner launch =>
    obtain rfl := Option.some.inj own
    exact spawnerStep_load useful launch
  | supervisor outcome =>
    obtain rfl := Option.some.inj own
    exact supervisorStep_load useful.1 shut calm
  | stopper index =>
    obtain rfl := Option.some.inj own
    exact stopperStep_load useful

/-- A thread that is gone stays gone. -/
theorem exited_kept (s : UnixProcessBackend) (event : Event) :
    (s.supervisor = .exited → (s.step event).supervisor = .exited) ∧
      (s.spawner = .exited → (s.step event).spawner = .exited) := by
  by_cases own : event.agent = some .spawner
  · obtain ⟨launch, rfl⟩ := Event.of_spawner own
    have moves := s.spawnerStep_moves launch
    exact ⟨moves.supervisor.1 ▸ id, moves.exited⟩
  · by_cases other : event.agent = some .supervisor
    · obtain ⟨outcome, rfl⟩ := Event.of_supervisor other
      have moves := s.supervisorStep_moves outcome
      exact ⟨moves.exited, moves.spawner ▸ id⟩
    · obtain ⟨⟨spawner, supervisor⟩, -⟩ := s.step_aside own other
      exact ⟨supervisor ▸ id, spawner ▸ id⟩

theorem stoppers_kept {event : Event} (calm : event.Calm) (other : ∀ index, event.agent ≠ some (.stopper index)) :
    (s.step event).stoppers = s.stoppers ∧ (s.step event).locked = s.locked := by
  cases event with
  | spawn limits => exact ⟨rfl, rfl⟩
  | stop immediate => cases calm
  | stopper index => exact absurd rfl (other index)
  | call caller =>
    have stops := (s.call_moves caller).stops
    exact ⟨stops.1, stops.2.1⟩
  | spawner launch =>
    have stops := (s.spawnerStep_moves launch).stops
    exact ⟨stops.1, stops.2.2.1⟩
  | supervisor outcome =>
    have stops := (s.supervisorStep_moves outcome).stops
    exact ⟨stops.1, stops.2.1⟩

/-- Another's step does not take a useful step away, unless it is of use itself. -/
theorem useful_kept {event : Event} (calm : event.Calm) {agent : Agent} (useful : s.Useful agent)
    (other : event.agent ≠ some agent) : (s.step event).load < s.load ∨ (s.step event).Useful agent := by
  cases agent with
  | call caller =>
    refine .inr ?_
    rcases useful with admitting | ⟨request, sending⟩
    · exact .inl (step_phase admitting other)
    · exact .inr ⟨request, step_phase sending other⟩
  | spawner =>
    have kept : (s.step event).spawner = s.spawner ∧ ∃ more, (s.step event).requests = s.requests ++ more := by
      by_cases own : event.agent = some .supervisor
      · obtain ⟨outcome, rfl⟩ := Event.of_supervisor own
        have moves := s.supervisorStep_moves outcome
        refine ⟨moves.spawner, ?_⟩
        rcases moves.requests with ⟨same, -⟩ | ⟨-, -, more⟩
        · exact ⟨[], same.trans (List.append_nil _).symm⟩
        · exact ⟨_, more⟩
      · have aside := s.step_aside other own
        exact ⟨aside.threads.1, aside.requests⟩
    obtain ⟨spawner, more, requests⟩ := kept
    refine .inr ⟨spawner ▸ useful.1, fun receiving => ?_⟩
    rw [requests]
    exact List.append_ne_nil_of_left_ne_nil (useful.2 (spawner ▸ receiving)) more
  | supervisor =>
    have kept : (s.step event).supervisor = s.supervisor ∧ (s.step event).processes = s.processes ∧
        (s.wake = true → (s.step event).wake = true) := by
      by_cases own : event.agent = some .spawner
      · obtain ⟨launch, rfl⟩ := Event.of_spawner own
        have moves := s.spawnerStep_moves launch
        exact ⟨moves.supervisor.1, moves.supervisor.2, fun wake => moves.wake (.inl wake)⟩
      · have aside := s.step_aside own other
        exact ⟨aside.threads.2, aside.processes, aside.wake⟩
    obtain ⟨supervisor, processes, wake⟩ := kept
    refine .inr ⟨supervisor ▸ useful.1, fun shutting asleep => ?_⟩
    rw [processes]
    exact (useful.2 shutting (supervisor ▸ asleep)).imp_left wake
  | stopper index =>
    obtain ⟨phase, found, going, free, supervisor, spawner⟩ := useful
    have exited := s.exited_kept event
    by_cases own : ∃ third, event.agent = some (.stopper third)
    · obtain ⟨third, own⟩ := own
      by_cases able : s.Enabled (.stopper third)
      · refine .inl ?_
        cases event with
        | stopper place =>
          obtain rfl := Agent.stopper.inj (Option.some.inj own)
          exact stopperStep_load able
        | _ => cases own
      · refine .inr ?_
        have idle : s.step event = s := by
          cases event with
          | stopper place =>
            obtain rfl := Agent.stopper.inj (Option.some.inj own)
            exact stopperStep_idle able
          | _ => cases own
        rw [idle]
        exact ⟨phase, found, going, free, supervisor, spawner⟩
    · obtain ⟨stoppers, locked⟩ := stoppers_kept calm fun third stops => own ⟨third, stops⟩
      refine .inr ⟨phase, ?_, going, ?_, fun joining => exited.1 (supervisor joining),
        fun joined => exited.2 (spawner joined)⟩
      · rw [stoppers]
        exact found
      · rw [locked]
        exact free

theorem Dutiful.step (dutiful : s.Dutiful) (event : Event) : (s.step event).Dutiful := by
  by_cases own : event.agent = some .supervisor
  · obtain ⟨outcome, rfl⟩ := Event.of_supervisor own
    intro hurried asleep
    rcases (s.supervisorStep_moves outcome).dutiful hurried asleep with some | ⟨before, same⟩
    · exact some
    · exact fun none => dutiful hurried before (same.symm.trans none)
  · have kept : (s.step event).supervisor = s.supervisor ∧ (s.step event).processes = s.processes := by
      by_cases other : event.agent = some .spawner
      · obtain ⟨launch, rfl⟩ := Event.of_spawner other
        exact (s.spawnerStep_moves launch).supervisor
      · have aside := s.step_aside other own
        exact ⟨aside.threads.2, aside.processes⟩
    intro hurried asleep
    rw [kept.2]
    exact dutiful hurried (kept.1 ▸ asleep)

/-- While anything is left to do, somebody can do some of it. -/
theorem Wired.useful (wired : s.Wired) (dutiful : s.Dutiful) (shut : s.shutdown = true) (asked : s.stoppers ≠ [])
    (more : 0 < s.load) : ∃ agent, s.Useful agent := by
  by_contra nobody
  rw [not_exists] at nobody
  have stuck {phase : Stopper} (member : phase ∈ s.stoppers) (going : phase ≠ .returned) :
      phase = .locking ∧ s.locked = true ∨ phase = .joining ∧ s.supervisor ≠ .exited ∨
        phase = .joined ∧ s.spawner ≠ .exited := by
    obtain ⟨index, found⟩ := List.mem_iff_getElem?.mp member
    by_contra able
    rw [not_or, not_or] at able
    refine nobody (.stopper index) ⟨phase, found, going, fun here => ?_, fun here => ?_, fun here => ?_⟩
    · by_contra locked
      exact able.1 ⟨here, by simpa using locked⟩
    · by_contra alive
      exact able.2.1 ⟨here, alive⟩
    · by_contra alive
      exact able.2.2 ⟨here, alive⟩
  have quiet {measure : Stopper → Nat} (locking : measure .locking = 0) (joining : measure .joining = 0)
      (joined : measure .joined = 0) (returned : measure .returned = 0) : total measure s.stoppers = 0 := by
    refine total_eq_zero fun phase member => ?_
    by_cases finished : phase = .returned
    · rw [finished, returned]
    · rcases stuck member finished with ⟨rfl, -⟩ | ⟨rfl, -⟩ | ⟨rfl, -⟩
      · exact locking
      · exact joining
      · exact joined
  have stopped : s.spawnStop = true := by
    obtain ⟨phase, member⟩ := List.exists_mem_of_ne_nil _ asked
    have honest := wired.honest phase member
    by_cases finished : phase = .returned
    · subst finished
      exact honest.1
    · rcases stuck member finished with ⟨rfl, -⟩ | ⟨rfl, -⟩ | ⟨rfl, -⟩
      · exact honest
      · exact honest
      · exact honest.1
  have supervisor : s.supervisor = .exited := by
    by_contra going
    refine nobody .supervisor ⟨going, fun shutting asleep => ?_⟩
    by_contra neither
    rw [not_or, not_not] at neither
    cases shutting with
    | true => exact dutiful false asleep neither.2
    | false =>
      rcases wired.aware shut (by rw [asleep]; rfl) with wake | signalling | waking
      · exact neither.1 wake
      · exact nobody .spawner ⟨by simp [signalling], by simp [signalling]⟩
      · exact absurd (quiet rfl rfl rfl rfl) waking.ne'
  have spawner : s.spawner = .exited := by
    by_contra going
    refine nobody .spawner ⟨going, fun receiving none => ?_⟩
    rcases wired.told stopped with notice | past
    · refine notice.ne' ?_
      unfold UnixProcessBackend.notices
      rw [none, supervisor, quiet rfl rfl rfl rfl]
      rfl
    · rw [receiving] at past
      cases past
  have returned {phase : Stopper} (member : phase ∈ s.stoppers) : phase = .returned := by
    by_contra going
    have joiner {phase : Stopper} (member : phase ∈ s.stoppers) (joins : phase.joins ≠ 0) : False := by
      rcases stuck member (by rintro rfl; exact joins rfl) with ⟨rfl, -⟩ | ⟨-, alive⟩ | ⟨-, alive⟩
      · exact joins rfl
      · exact alive supervisor
      · exact alive spawner
    rcases stuck member going with ⟨-, locked⟩ | ⟨-, alive⟩ | ⟨-, alive⟩
    · have held := wired.joins
      rw [if_pos locked, total_eq_zero fun phase member => ?_] at held
      · cases held
      · by_contra joins
        exact joiner member joins
    · exact alive supervisor
    · exact alive spawner
  have callers : total Caller.weight s.callers = 0 := by
    refine total_eq_zero fun phase member => ?_
    obtain ⟨index, found⟩ := List.mem_iff_getElem?.mp member
    cases phase with
    | admitting => exact absurd (.inl found) (nobody (.call index))
    | sending request => exact absurd (.inr ⟨request, found⟩) (nobody (.call index))
    | _ => rfl
  have stoppers : total Stopper.weight s.stoppers = 0 :=
    total_eq_zero fun phase member => by rw [returned member, Stopper.weight]
  have requests := wired.requests (by rw [spawner]; rfl)
  have ready := wired.ready (by rw [supervisor]; rfl)
  have processes := wired.processes (by rw [supervisor]; rfl)
  refine more.ne' ?_
  unfold load
  rw [callers, stoppers, requests, ready, processes, supervisor, spawner]
  rfl

theorem shutdown_kept (s : UnixProcessBackend) (event : Event) (shut : s.shutdown = true) :
    (s.step event).shutdown = true := by
  cases event with
  | spawn limits | stop immediate => exact shut
  | call caller => exact (s.call_moves caller).flags.1.trans shut
  | spawner launch =>
    rcases (s.spawnerStep_moves launch).shutdown with same | ⟨set, -⟩
    · exact same.trans shut
    · exact set
  | supervisor outcome => exact (s.supervisorStep_moves outcome).shutdown shut
  | stopper index =>
    change (s.stopperStep index).shutdown = true
    unfold stopperStep
    split
    case h_4 =>
      rcases s.request?_cases .shutdown with ⟨sent, -⟩ | ⟨full, -⟩
      · rw [sent]
        exact shut
      · rw [full]
        exact shut
    case h_2 => rfl
    all_goals
      repeat' split
      all_goals exact shut

theorem stoppers_length (s : UnixProcessBackend) (event : Event) :
    s.stoppers.length ≤ (s.step event).stoppers.length := by
  cases event with
  | spawn limits => exact Nat.le_refl _
  | stop immediate => exact List.length_append ▸ Nat.le_add_right ..
  | call caller => exact (congrArg List.length (s.call_moves caller).stops.1).ge
  | spawner launch => exact (congrArg List.length (s.spawnerStep_moves launch).stops.1).ge
  | supervisor outcome => exact (congrArg List.length (s.supervisorStep_moves outcome).stops.1).ge
  | stopper index =>
    change s.stoppers.length ≤ (s.stopperStep index).stoppers.length
    have kept (phase : Stopper) : s.stoppers.length ≤ (s.stoppers.set index phase).length := (List.length_set ..).ge
    unfold stopperStep
    split
    case h_4 =>
      rcases s.request?_cases .shutdown with ⟨sent, -⟩ | ⟨full, -⟩
      · rw [sent]
        exact kept _
      · rw [full]
        exact kept _
    all_goals
      repeat' split
      all_goals first | exact kept _ | exact Nat.le_refl _

theorem stop_effort : Effort step Event.agent Stirred Event.Calm
    (fun s => s.Valid ∧ s.Wired ∧ s.Dutiful ∧ s.shutdown = true ∧ s.stoppers ≠ []) load Useful := by
  constructor
  · rintro s event calm ⟨valid, wired, dutiful, shut, asked⟩
    refine ⟨valid.step event, wired.step valid event, dutiful.step event, s.shutdown_kept event shut, ?_⟩
    rw [← List.length_pos_iff] at asked ⊢
    exact asked.trans_le (s.stoppers_length event)
  · rintro s event calm ⟨-, -, -, shut, -⟩
    exact step_load_le calm shut
  · rintro s ⟨-, wired, dutiful, shut, asked⟩ more
    exact wired.useful dutiful shut asked more
  · rintro s agent - useful
    cases agent with
    | call caller =>
      rcases useful with admitting | ⟨request, sending⟩
      · exact ⟨_, admitting, by simp, by simp⟩
      · exact ⟨_, sending, by simp, by simp⟩
    | _ => exact useful
  · rintro s event agent calm - useful other
    exact useful_kept calm useful other
  · rintro s event agent calm ⟨-, -, -, shut, -⟩ useful own
    exact step_load_lt calm shut useful own

/-- Steps of a call of `stop` until the shutdown is asked for. -/
def asking (index : Nat) (s : UnixProcessBackend) : Nat :=
  if s.shutdown then 0
  else
    match s.stoppers[index]? with
    | some .raising => 2
    | some .closing => 1
    | _ => 0

theorem stopper_phase {index : Nat} {phase : Stopper} (found : s.stoppers[index]? = some phase) {event : Event}
    (other : event.agent ≠ some (.stopper index)) : (s.step event).stoppers[index]? = some phase := by
  cases event with
  | stop immediate => exact (List.getElem?_append_left (List.getElem?_eq_some_iff.mp found).1).trans found
  | stopper place =>
    have differs : place ≠ index := fun same => other (same ▸ rfl)
    have kept (phase' : Stopper) : (s.stoppers.set place phase')[index]? = some phase :=
      (List.getElem?_set_ne differs).trans found
    change (s.stopperStep place).stoppers[index]? = some phase
    unfold stopperStep
    split
    case h_4 =>
      rcases s.request?_cases .shutdown with ⟨sent, -⟩ | ⟨full, -⟩
      · rw [sent]
        exact kept _
      · rw [full]
        exact kept _
    all_goals
      repeat' split
      all_goals first | exact kept _ | exact found
  | spawn limits => exact found
  | call caller => exact (congrArg (·[index]?) (s.call_moves caller).stops.1).trans found
  | spawner launch => exact (congrArg (·[index]?) (s.spawnerStep_moves launch).stops.1).trans found
  | supervisor outcome => exact (congrArg (·[index]?) (s.supervisorStep_moves outcome).stops.1).trans found

theorem asking_shut {index : Nat} (shut : s.shutdown = true) : asking index s = 0 := if_pos shut

theorem Wired.asked (wired : s.Wired) {index : Nat} (within : index < s.stoppers.length) (none : asking index s = 0) :
    s.shutdown = true := by
  have found := List.getElem?_eq_getElem within
  have honest := wired.honest _ (List.mem_of_getElem? found)
  unfold asking at none
  rw [found] at none
  cases phase : s.stoppers[index] with
  | raising | closing =>
    rw [phase] at none
    by_contra unasked
    rw [if_neg unasked] at none
    cases none
  | swapping =>
    rw [phase] at honest
    exact honest
  | joined | returned =>
    rw [phase] at honest
    exact wired.closed (.inl honest.1)
  | _ =>
    rw [phase] at honest
    exact wired.closed (.inl honest)

/-- A call of `stop` asks for the shutdown, unless somebody has done so before it. -/
theorem asking_effort (index : Nat) : Effort step Event.agent Stirred (fun _ => True)
    (fun s => s.Valid ∧ s.Wired ∧ index < s.stoppers.length) (asking index)
    (fun s agent => agent = .stopper index ∧ 0 < asking index s) := by
  have asks {s : UnixProcessBackend} (more : 0 < asking index s) : s.shutdown = false ∧
      (s.stoppers[index]? = some .raising ∨ s.stoppers[index]? = some .closing) := by
    unfold asking at more
    split at more
    · cases more
    · rename_i unasked
      refine ⟨by simpa using unasked, ?_⟩
      split at more
      · exact .inl ‹_›
      · exact .inr ‹_›
      · cases more
  have own {s : UnixProcessBackend} (more : 0 < asking index s) :
      asking index (s.stopperStep index) < asking index s := by
    obtain ⟨unasked, found | found⟩ := asks more
    · have within := (List.getElem?_eq_some_iff.mp found).1
      have next : s.stopperStep index = { s with immediate := true }.setStopper index .closing := by
        unfold stopperStep
        rw [found]
      have after : (s.stoppers.set index .closing)[index]? = some .closing := List.getElem?_set_self within
      rw [next]
      unfold asking setStopper
      rw [after, found, unasked]
      decide
    · have next : s.stopperStep index = { s with shutdown := true }.setStopper index .swapping := by
        unfold stopperStep
        rw [found]
      rw [next, asking_shut rfl]
      exact more
  have others {s : UnixProcessBackend} {event : Event} (within : index < s.stoppers.length)
      (other : event.agent ≠ some (.stopper index)) :
      asking index (s.step event) = 0 ∨ asking index (s.step event) = asking index s := by
    cases shut : (s.step event).shutdown with
    | true => exact .inl (asking_shut shut)
    | false =>
      have found := List.getElem?_eq_getElem within
      have before : s.shutdown = false := by
        by_contra set
        exact absurd (s.shutdown_kept event (by simpa using set)) (by simp [shut])
      refine .inr ?_
      unfold asking
      rw [shut, before, stopper_phase found other, found]
  have mine {event : Event} (mine : event.agent = some (.stopper index)) : event = .stopper index := by
    cases event with
    | stopper place =>
      obtain rfl := Agent.stopper.inj (Option.some.inj mine)
      rfl
    | _ => cases mine
  constructor
  · rintro s event - ⟨valid, wired, within⟩
    exact ⟨valid.step event, wired.step valid event, within.trans_le (s.stoppers_length event)⟩
  · rintro s event - ⟨-, wired, within⟩
    by_cases his : event.agent = some (.stopper index)
    · obtain rfl := mine his
      by_cases more : 0 < asking index s
      · exact (own more).le
      · have shut := wired.asked within (Nat.eq_zero_of_not_pos more)
        exact (asking_shut (s.shutdown_kept _ shut)).trans_le (Nat.zero_le _)
    · rcases others within his with none | same
      · exact none.trans_le (Nat.zero_le _)
      · exact same.le
  · rintro s - more
    exact ⟨_, rfl, more⟩
  · rintro s agent - ⟨rfl, more⟩
    obtain ⟨-, found | found⟩ := asks more
    all_goals exact ⟨_, found, by simp, by simp, by simp, by simp⟩
  · rintro s event agent - ⟨-, -, within⟩ ⟨rfl, more⟩ other
    rcases others within other with none | same
    · exact .inl (none.trans_lt more)
    · exact .inr ⟨rfl, same ▸ more⟩
  · rintro s event agent - - ⟨rfl, more⟩ his
    obtain rfl := mine his
    exact own more

theorem new_dutiful {max : Nat} (made : new max = .ok s) : s.Dutiful := by
  unfold new at made
  split at made
  · cases made
  · cases made
    rintro hurried ⟨⟩

/-- In every fair schedule in which, from some point on, nobody calls `stop` any more and
the processes turn out to be complete, every call of `stop` returns, both threads are gone,
and they leave neither a process nor a message. -/
theorem stop_returns {max : Nat} (made : new max = .ok s) {schedule : Nat → Event}
    (fair : WeaklyFair Event.agent Stirred (states step s schedule) schedule) {n index : Nat}
    (asked : index < (states step s schedule n).stoppers.length) (calm : ∀ k, n ≤ k → (schedule k).Calm) :
    ∃ m, n ≤ m ∧ (∀ stopper ∈ (states step s schedule m).stoppers, stopper = .returned) ∧
      (states step s schedule m).spawner = .exited ∧ (states step s schedule m).supervisor = .exited ∧
      (states step s schedule m).processes = [] ∧ (states step s schedule m).requests = [] ∧
      (states step s schedule m).ready = [] := by
  have dutiful (m : Nat) : (states step s schedule m).Dutiful := by
    induction m with
    | zero => exact new_dutiful made
    | succ m ih => exact ih.step _
  obtain ⟨valid, wired⟩ := states_reached made schedule n
  obtain ⟨m, since, ⟨valid, wired, within⟩, none⟩ :=
    (asking_effort index).finishes fair (fun _ _ => trivial) ⟨valid, wired, asked⟩
  have shut := wired.asked within none
  have some : (states step s schedule m).stoppers ≠ [] := List.ne_nil_of_length_pos (Nat.zero_lt_of_lt within)
  obtain ⟨k, later, ⟨-, wired, -, -, -⟩, none⟩ := stop_effort.finishes fair (fun k after => calm k (since.trans after))
    ⟨valid, wired, dutiful m, shut, some⟩
  have weights : (states step s schedule k).spawner.weight = 0 ∧ (states step s schedule k).supervisor.weight = 0 ∧
      total Stopper.weight (states step s schedule k).stoppers = 0 := by
    unfold load at none
    omega
  have spawner := Spawner.exited_of_weight weights.1
  have supervisor := Supervisor.exited_of_weight weights.2.1
  refine ⟨k, since.trans later, fun stopper member => ?_, spawner, supervisor, ?_, ?_, ?_⟩
  · have light := @le_total _ Stopper.weight _ _ member
    rw [weights.2.2] at light
    cases stopper with
    | returned => rfl
    | _ => cases light
  · exact wired.processes (by rw [supervisor]; rfl)
  · exact wired.requests (by rw [spawner]; rfl)
  · exact wired.ready (by rw [supervisor]; rfl)

/-- The sample's events, and then idle steps. -/
def sampleSchedule (n : Nat) : Event := (sampleStop[n]?).getD (.call 0)

def sampleEnd : UnixProcessBackend :=
  { sample with
    shutdown := true, spawnStop := true, wake := true, spawner := .exited, supervisor := .exited
    callers := [.returned (.ok ())], replies := [.sent (.ok ())], stoppers := [.returned], taken := true }

theorem sample_ends (n : Nat) : states step sample sampleSchedule (n + 31) = sampleEnd := by
  induction n with
  | zero => decide
  | succ n ih =>
    have idle : sampleSchedule (n + 31) = .call 0 := by
      unfold sampleSchedule
      rw [List.getElem?_eq_none (Nat.le_add_left 31 n)]
      rfl
    change (states step sample sampleSchedule (n + 31)).step (sampleSchedule (n + 31)) = _
    rw [ih, idle]
    rfl

theorem sample_over (agent : Agent) : ¬sampleEnd.Stirred agent := by
  cases agent with
  | call caller =>
    rintro ⟨phase, found, going, -⟩
    have member : phase ∈ [Caller.returned (.ok ())] := List.mem_of_getElem? found
    exact going _ (List.mem_singleton.mp member)
  | spawner => exact fun able => able.1 rfl
  | supervisor => exact fun able => able.1 rfl
  | stopper index =>
    rintro ⟨phase, found, going, -⟩
    have member : phase ∈ [Stopper.returned] := List.mem_of_getElem? found
    exact going (List.mem_singleton.mp member)

theorem sample_stirred : WeaklyFair Event.agent Stirred (states step sample sampleSchedule) sampleSchedule := by
  intro agent n able
  have still := able (n + 31) (Nat.le_add_right n 31)
  rw [sample_ends] at still
  exact absurd still (sample_over agent)

theorem sample_fair : sample.Fair sampleSchedule := by
  intro agent n able
  have still := able (n + 31) (Nat.le_add_right n 31)
  rw [sample_ends] at still
  refine absurd ?_ (sample_over agent)
  cases agent with
  | supervisor => exact absurd rfl still.1
  | _ => exact still

theorem spawn_returns_sample :
    ∃ m, 1 ≤ m ∧ ∃ answer, (states step sample sampleSchedule m).callers[0]? = some (.returned answer) :=
  spawn_returns sample_made sample_fair (by decide)

theorem sampleStop_calm (event : Event) (member : event ∈ sampleStop.drop 16) : event.Calm := by
  have shape : sampleStop.drop 16 = List.replicate 5 (.stopper 0) ++ List.replicate 3 (.spawner .launched) ++
      List.replicate 5 (.supervisor { complete := true, woken := true }) ++ List.replicate 2 (.stopper 0) := rfl
  rw [shape] at member
  simp only [List.mem_append, List.mem_replicate] at member
  rcases member with ((⟨-, rfl⟩ | ⟨-, rfl⟩) | ⟨-, rfl⟩) | ⟨-, rfl⟩
  · trivial
  · trivial
  · exact ⟨rfl, rfl⟩
  · trivial

theorem stop_returns_sample : ∃ m, 16 ≤ m ∧
    (∀ stopper ∈ (states step sample sampleSchedule m).stoppers, stopper = .returned) ∧
    (states step sample sampleSchedule m).spawner = .exited ∧
    (states step sample sampleSchedule m).supervisor = .exited ∧
    (states step sample sampleSchedule m).processes = [] ∧ (states step sample sampleSchedule m).requests = [] ∧
    (states step sample sampleSchedule m).ready = [] := by
  have asked : 0 < (states step sample sampleSchedule 16).stoppers.length := by decide
  refine stop_returns sample_made sample_stirred asked fun k since => ?_
  obtain ⟨j, rfl⟩ := Nat.exists_eq_add_of_le since
  unfold sampleSchedule
  rw [← List.getElem?_drop]
  cases found : (sampleStop.drop 16)[j]? with
  | none => trivial
  | some event => exact sampleStop_calm event (List.mem_of_getElem? found)

end PtyRuntime.UnixProcessBackend
