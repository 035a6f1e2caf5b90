import PtyRuntime.Infrastructure.Process.BackendWires

/-! Whole runs of the process owner: admissions are conserved, no message is refused by a
channel that is full, every call is answered once, no thread sleeps over work, and nothing
is left behind a call of `stop` that has returned. -/
namespace PtyRuntime.UnixProcessBackend
open Tally

variable {s s' : UnixProcessBackend}

/-- A request that is awaited has no process yet. -/
theorem Valid.count_le (valid : s.Valid) (request : Nat) : (s.custody ++ s.processes).count request ≤ 1 := by
  rw [List.count_append]
  have once := valid.once request
  have alive := valid.alive request
  by_cases owned : request ∈ s.processes
  · have idle : ¬0 < s.custody.count request + s.owed.count request := by
      rw [valid.placed request]
      intro awaits
      cases awaits.2.symm.trans (valid.registered owned)
    omega
  · rw [List.count_eq_zero.mpr owned]
    omega

/-- Whatever happens, an admission is counted from the moment it is given until the request
is refused, dropped, or its process released, and it is given to nobody twice. -/
theorem admissions_conserved {max : Nat} (made : new max = .ok s) (events : List Event) :
    (s.run events).active = ((s.run events).custody ++ (s.run events).processes).length ∧
      (s.run events).active ≤ max ∧ ((s.run events).custody ++ (s.run events).processes).Nodup := by
  obtain ⟨valid, -⟩ := reached made events
  refine ⟨?_, ?_, ?_⟩
  · rw [List.length_append]
    exact valid.admitted
  · rw [← new_max made, ← run_max events]
    exact valid.bounded
  · exact List.nodup_iff_count.mpr valid.count_le

def sample : UnixProcessBackend := { max := 1 }

theorem sample_made : new 1 = .ok sample := rfl

def sampleSpawn : List Event :=
  .spawn {} :: List.replicate 4 (.call 0) ++ List.replicate 6 (.spawner .launched) ++
    List.replicate 3 (.supervisor {}) ++ [.call 0]

theorem admissions_conserved_sample : (sample.run sampleSpawn).active = 1 ∧ (sample.run sampleSpawn).processes = [0] :=
  ⟨(admissions_conserved sample_made sampleSpawn).1, rfl⟩

/-- Neither channel is ever too full: a launch, a prepared child and the one `Shutdown` are
turned away only once the thread at the other end is gone. -/
theorem messages_find_room {max : Nat} (made : new max = .ok s) (events : List Event) :
    ((s.run events).spawner.receives = true →
      (∀ caller request : Nat, (s.run events).callers[caller]? = some (.sending request) →
        ((s.run events).request? (.launch request)).isSome = true) ∧
      (.sending ∈ (s.run events).stoppers ∨ (s.run events).supervisor = .sending →
        ((s.run events).request? .shutdown).isSome = true)) ∧
    ((s.run events).supervisor.receives = true → ∀ request, (s.run events).spawner = .handing request →
      ((s.run events).hand? request).isSome = true) := by
  obtain ⟨valid, wired⟩ := reached made events
  have accepted (accepts : (s.run events).spawner.receives = true)
      (room : (s.run events).requests.length ≤ (s.run events).max) (message : Message) :
      ((s.run events).request? message).isSome = true := by
    rcases (s.run events).request?_cases message with ⟨sent, -⟩ | ⟨-, full⟩
    · rw [sent]
      rfl
    · exact absurd (full accepts) (Nat.not_le.mpr (Nat.lt_succ_of_le room))
  refine ⟨fun accepts => ⟨fun caller request found => ?_, fun sender => ?_⟩, fun accepts request found => ?_⟩
  · exact accepted accepts (valid.launch_room wired.few found) _
  · refine accepted accepts (valid.notice_room wired.few ?_) _
    rcases sender with member | sending
    · exact Nat.add_pos_left (@le_total _ Stopper.notice _ _ member) _
    · rw [sending]
      exact Nat.succ_pos _
  · rcases (s.run events).hand?_cases request with ⟨sent, -⟩ | ⟨-, full⟩
    · rw [sent]
      rfl
    · exact absurd (full accepts) (Nat.not_le.mpr (valid.ready_room found))

theorem messages_find_room_sample :
    ((sample.run (sampleSpawn.take 3)).request? (.launch 0)).isSome = true ∧
      ((sample.run (sampleSpawn.take 9)).hand? 0).isSome = true :=
  ⟨((messages_find_room sample_made (sampleSpawn.take 3)).1 rfl).1 0 0 rfl,
    (messages_find_room sample_made (sampleSpawn.take 9)).2 rfl 0 rfl⟩

/-- One request at most is answered, one that is awaited, and with success only as its
process is registered. -/
def Answers (s s' : UnixProcessBackend) : Prop :=
  s'.replies = s.replies ∨ ∃ request reply, s.replies[request]? = some .empty ∧
    s'.replies = s.replies.set request reply ∧
    (reply = .sent (.ok ()) → s'.processes = s.processes ++ [request])

theorem Change.answers (change : Change s s') (callers : s'.callers = s.callers) (valid : s.Valid) : Answers s s' := by
  cases change with
  | idle custody owed active replies processes | frees request custody owed active replies processes
  | retires index request found custody owed active replies processes => exact .inl replies
  | rejects request error custody owed active replies processes =>
    obtain ⟨awaited, -⟩ := valid.settles callers replies (by simp) fun other => by
      rw [count_kept custody, Nat.add_assoc, count_moved owed]
    exact .inr ⟨request, _, awaited.2, replies, by simp⟩
  | registers request custody owed active replies processes =>
    obtain ⟨awaited, -⟩ := valid.settles callers replies (by simp) fun other => by
      rw [count_kept owed, Nat.add_right_comm, count_moved custody]
    exact .inr ⟨request, _, awaited.2, replies, fun _ => processes⟩
  | discards request custody owed active replies processes =>
    obtain ⟨awaited, -⟩ := valid.settles callers replies (by simp) fun other => by
      rw [count_kept owed, Nat.add_right_comm, count_moved custody]
    exact .inr ⟨request, _, awaited.2, replies, by simp⟩

/-- A call that cannot send drops its own request, and answers no other. -/
theorem Valid.call_answers (valid : s.Valid) (caller : Nat) : Answers s (s.call caller) := by
  unfold UnixProcessBackend.call
  split
  case h_3 request phase =>
    rcases s.request?_cases (.launch request) with ⟨sent, -⟩ | ⟨full, -⟩
    · rw [sent]
      exact .inl rfl
    · rw [full]
      obtain rfl := valid.named phase
      have held : 0 < s.custody.count request + s.owed.count request := by
        refine Nat.add_pos_left (List.count_pos_iff.mpr ?_) _
        refine List.mem_append_left _ (List.mem_flatMap.mpr ⟨_, List.mem_of_getElem? phase, ?_⟩)
        exact List.mem_singleton_self request
      exact .inr ⟨request, _, ((valid.placed request).mp held).2, rfl, by simp⟩
  all_goals
    repeat' split
    all_goals exact .inl rfl

/-- A call of `spawn` has a reply of its own; no other step makes one. -/
theorem Valid.step_answers (valid : s.Valid) (event : Event) :
    (s.step event).replies = s.replies ++ [.empty] ∨ Answers s (s.step event) := by
  cases event with
  | spawn limits => exact .inl rfl
  | stop immediate => exact .inr (.inl rfl)
  | spawner launch => exact .inr ((s.spawnerStep_change launch).answers (s.spawnerStep_callers launch).1 valid)
  | supervisor outcome =>
    exact .inr ((s.supervisorStep_change outcome).answers (s.supervisorStep_callers outcome).1 valid)
  | stopper stopper =>
    obtain ⟨change, callers, -⟩ := s.stopperStep_still stopper
    exact .inr (change.answers callers valid)
  | call caller => exact .inr (valid.call_answers caller)

/-- An answer is given to a request that is awaited, so what was answered stays answered. -/
theorem Valid.answer_kept (valid : s.Valid) (event : Event) {request : Nat} {reply : Reply}
    (found : s.replies[request]? = some reply) (settled : reply ≠ .empty) :
    (s.step event).replies[request]? = some reply := by
  rcases valid.step_answers event with more | same | ⟨other, answer, awaited, replies, -⟩
  · rw [more, List.getElem?_append_left (List.getElem?_eq_some_iff.mp found).1]
    exact found
  · rw [same]
    exact found
  · have differs : other ≠ request := by
      rintro rfl
      exact settled (Option.some.inj (found.symm.trans awaited))
    rw [replies, List.getElem?_set_ne differs]
    exact found

/-- What a request was answered stays its answer, and nobody answers it again. -/
theorem answers_stand {max : Nat} (made : new max = .ok s) (events more : List Event) {request : Nat} {reply : Reply}
    (found : (s.run events).replies[request]? = some reply) (settled : reply ≠ .empty) :
    ((s.run events).run more).replies[request]? = some reply ∧
      request ∉ ((s.run events).run more).custody ++ ((s.run events).run more).owed := by
  have kept : ((s.run events).run more).Valid ∧ ((s.run events).run more).replies[request]? = some reply := by
    obtain ⟨valid, -⟩ := reached made events
    generalize s.run events = t at found valid
    induction more generalizing t with
    | nil => exact ⟨valid, found⟩
    | cons event rest ih => exact ih _ (valid.answer_kept event found settled) (valid.step event)
  refine ⟨kept.2, fun member => ?_⟩
  have placed : 0 < ((s.run events).run more).custody.count request + ((s.run events).run more).owed.count request := by
    rw [← List.count_append]
    exact List.count_pos_iff.mpr member
  exact settled (Option.some.inj (kept.2.symm.trans ((kept.1.placed request).mp placed).2))

def sampleStop : List Event :=
  sampleSpawn ++ .stop false :: List.replicate 5 (.stopper 0) ++ List.replicate 3 (.spawner .launched) ++
    List.replicate 5 (.supervisor { complete := true, woken := true }) ++ List.replicate 2 (.stopper 0)

theorem answers_stand_sample :
    ((sample.run sampleSpawn).run (sampleStop.drop 15)).replies[0]? = some (.sent (.ok ())) ∧
      0 ∉ ((sample.run sampleSpawn).run (sampleStop.drop 15)).custody ++
        ((sample.run sampleSpawn).run (sampleStop.drop 15)).owed :=
  answers_stand sample_made sampleSpawn (sampleStop.drop 15) rfl (by simp)

/-- The request is awaited, and the step that answers it owns its process from then on. -/
structure Registers (s s' : UnixProcessBackend) (request : Nat) : Prop where
  awaited : s.replies[request]? = some .empty
  process : s'.processes = s.processes ++ [request]
  told : s'.replies[request]? = some (.sent (.ok ()))

theorem Answers.told (answers : Answers s s') {request : Nat} (told : s'.replies[request]? = some (.sent (.ok ()))) :
    s.replies[request]? = some (.sent (.ok ())) ∨ Registers s s' request := by
  rcases answers with same | ⟨other, reply, awaited, replies, registers⟩
  · exact .inl (same ▸ told)
  · by_cases own : other = request
    · subst own
      have given : s'.replies[other]? = some reply := by
        rw [replies, List.getElem?_set_self (List.getElem?_eq_some_iff.mp awaited).1]
      exact .inr ⟨awaited, registers (Option.some.inj (given.symm.trans told)), told⟩
    · rw [replies, List.getElem?_set_ne own] at told
      exact .inl told

/-- Only a start that has succeeded gives the supervisor one process more. -/
theorem supervisorStep_started {outcome : Outcome} {request : Nat}
    (process : (s.supervisorStep outcome).processes = s.processes ++ [request]) : outcome.started = .ok () := by
  have grown : (s.supervisorStep outcome).processes.length = s.processes.length + 1 := by
    rw [process, List.length_append, List.length_singleton]
  have never : s.processes.length ≠ s.processes.length + 1 := (Nat.succ_ne_self _).symm
  cases phase : s.supervisor with
  | starting admitted held =>
    simp only [supervisorStep, phase] at grown
    split at grown
    · exact absurd grown never
    · split at grown
      case h_1 started => exact started
      case h_2 => exact absurd grown never
  | retaining admitted shutting seen =>
    simp only [supervisorStep, phase] at grown
    split at grown
    · split at grown
      · have fewer := s.processes.length_eraseIdx_le seen
        change (s.processes.eraseIdx seen).length = _ at grown
        omega
      · exact absurd grown never
    · split at grown
      all_goals exact absurd grown never
  | unwinding held =>
    cases held with
    | some other =>
      simp only [supervisorStep, phase] at grown
      exact absurd grown never
    | none =>
      simp only [supervisorStep, phase] at grown
      split at grown
      · rename_i rest front
        change rest.length = _ at grown
        rw [front, List.length_cons] at grown
        omega
      · exact absurd grown never
  | sending =>
    simp only [supervisorStep, phase] at grown
    rcases s.request?_cases .shutdown with ⟨sent, -⟩ | ⟨full, -⟩
    · rw [sent] at grown
      exact absurd grown never
    · rw [full] at grown
      exact absurd grown never
  | _ =>
    simp only [supervisorStep, phase] at grown
    repeat' split at grown
    all_goals exact absurd grown never

theorem stopperStep_processes (s : UnixProcessBackend) (stopper : Nat) :
    (s.stopperStep stopper).processes = s.processes := by
  unfold stopperStep
  split
  case h_4 =>
    rcases s.request?_cases .shutdown with ⟨sent, -⟩ | ⟨full, -⟩
    · rw [sent]
      rfl
    · rw [full]
      rfl
  all_goals
    repeat' split
    all_goals rfl

/-- Nobody else starts one. -/
theorem step_started {event : Event} {request : Nat} (process : (s.step event).processes = s.processes ++ [request]) :
    ∃ outcome, event = .supervisor outcome ∧ outcome.started = .ok () := by
  have never {other : UnixProcessBackend} (same : other.processes = s.processes) :
      other.processes ≠ s.processes ++ [request] := by
    rw [same]
    simp
  cases event with
  | supervisor outcome => exact ⟨outcome, rfl, supervisorStep_started process⟩
  | spawn limits | stop immediate => exact absurd process (never rfl)
  | spawner launch => exact absurd process (never (s.spawnerStep_moves launch).supervisor.2)
  | stopper stopper => exact absurd process (never (s.stopperStep_processes stopper))
  | call caller => exact absurd process (never (s.call_moves caller).threads.2.2.2)

/-- A step after which a request is answered with success answered it before, or is the
supervisor's registration of it. -/
theorem Valid.told_step (valid : s.Valid) (event : Event) {request : Nat}
    (told : (s.step event).replies[request]? = some (.sent (.ok ()))) :
    s.replies[request]? = some (.sent (.ok ())) ∨
      ∃ outcome, event = .supervisor outcome ∧ outcome.started = .ok () ∧ Registers s (s.step event) request := by
  rcases valid.step_answers event with more | answers
  · rw [more, List.getElem?_append] at told
    split at told
    · exact .inl told
    · cases List.mem_singleton.mp (List.mem_of_getElem? told)
  · refine (answers.told told).imp_right fun registers => ?_
    obtain ⟨outcome, own, started⟩ := step_started registers.process
    exact ⟨outcome, own, started, registers⟩

/-- In a run after which a request is answered with success, and was not before, the
supervisor has registered it. -/
theorem Valid.told_origin (valid : s.Valid) (events : List Event) {request : Nat}
    (told : (s.run events).replies[request]? = some (.sent (.ok ())))
    (fresh : s.replies[request]? ≠ some (.sent (.ok ()))) :
    ∃ before outcome after, events = before ++ .supervisor outcome :: after ∧ outcome.started = .ok () ∧
      Registers (s.run before) (s.run (before ++ [.supervisor outcome])) request := by
  induction events generalizing s with
  | nil => exact absurd told fresh
  | cons event rest ih =>
    by_cases answered : (s.step event).replies[request]? = some (.sent (.ok ()))
    · obtain ⟨outcome, rfl, started, registers⟩ := (valid.told_step event answered).resolve_left fresh
      exact ⟨[], outcome, rest, rfl, started, registers⟩
    · obtain ⟨before, outcome, after, rfl, started, registers⟩ := ih (valid.step event) told answered
      exact ⟨event :: before, outcome, after, rfl, started, registers⟩

theorem new_replies {max : Nat} (made : new max = .ok s) : s.replies = [] := by
  unfold new at made
  split at made
  · cases made
  · cases made
    rfl

/-- A spawn call that fails leaves no admission and no process behind, one that succeeds was
told so by the step of the supervisor that registered its process, and one that waits has
its request in one place. -/
theorem spawn_answers {max : Nat} (made : new max = .ok s) (events : List Event) (caller : Nat) :
    (∀ error, (s.run events).callers[caller]? = some (.returned (.error error)) →
      caller ∉ (s.run events).custody ++ (s.run events).owed ++ (s.run events).processes) ∧
    ((s.run events).callers[caller]? = some (.returned (.ok ())) →
      (s.run events).replies[caller]? = some (.sent (.ok ())) ∧
      ∃ before outcome after, events = before ++ .supervisor outcome :: after ∧ outcome.started = .ok () ∧
        Registers (s.run before) (s.run (before ++ [.supervisor outcome])) caller) ∧
    ((s.run events).callers[caller]? = some .waiting → (s.run events).replies[caller]? = some .empty →
      ((s.run events).custody ++ (s.run events).owed).count caller = 1) := by
  obtain ⟨valid, -⟩ := reached made events
  refine ⟨fun error returned => ?_, fun returned => ?_, fun waiting empty => ?_⟩
  · generalize s.run events = t at *
    have idle : ¬0 < t.custody.count caller + t.owed.count caller := by
      rw [valid.placed, awaits_iff returned]
      rintro ⟨⟨⟩, -⟩
    intro member
    rcases List.mem_append.mp member with held | owned
    · rw [← List.count_append] at idle
      exact idle (List.count_pos_iff.mpr held)
    · have registered := valid.registered owned
      rcases valid.told returned with told | ⟨-, empty | dropped⟩
      · cases registered.symm.trans told
      · cases registered.symm.trans empty
      · cases registered.symm.trans dropped
  · have told : (s.run events).replies[caller]? = some (.sent (.ok ())) := by
      rcases valid.told returned with told | ⟨⟨error, failed⟩, -⟩
      · exact told
      · cases failed
    refine ⟨told, (new_valid made).told_origin events told ?_⟩
    rw [new_replies made]
    rintro ⟨⟩
  · have once := valid.once caller
    have placed := (valid.placed caller).mpr ((awaits_iff waiting).mpr ⟨rfl, empty⟩)
    rw [List.count_append]
    omega

/-- A second call, for which there is no room. -/
def sampleFull : List Event := sampleSpawn ++ [.spawn {}, .call 1, .call 1]

theorem spawn_answers_sample :
    1 ∉ (sample.run sampleFull).custody ++ (sample.run sampleFull).owed ++ (sample.run sampleFull).processes ∧
      (∃ before outcome after, sampleFull = before ++ .supervisor outcome :: after ∧ outcome.started = .ok () ∧
        Registers (sample.run before) (sample.run (before ++ [.supervisor outcome])) 0) ∧
      ((sample.run (sampleSpawn.take 5)).custody ++ (sample.run (sampleSpawn.take 5)).owed).count 0 = 1 :=
  ⟨(spawn_answers sample_made sampleFull 1).1 .capacity rfl, ((spawn_answers sample_made sampleFull 0).2.1 rfl).2,
    (spawn_answers sample_made (sampleSpawn.take 5) 0).2.2 rfl rfl⟩

/-- The supervisor does not go to sleep, or stay asleep, over a child that is ready or a
shutdown it has not seen: a byte is in the socket, or somebody is about to write one. -/
theorem wakes_not_lost {max : Nat} (made : new max = .ok s) (events : List Event) {shutting : Bool}
    (asleep : (s.run events).supervisor = .polling false shutting) (empty : (s.run events).wake = false) :
    ((s.run events).ready ≠ [] → (s.run events).spawner = .waking) ∧
      ((s.run events).shutdown = true → shutting = false → (s.run events).spawner = .signalling ∨
        ∃ stopper ∈ (s.run events).stoppers, stopper = .swapping ∨ stopper = .sending ∨ stopper = .waking) := by
  obtain ⟨-, wired⟩ := reached made events
  generalize s.run events = t at *
  refine ⟨fun some => ?_, ?_⟩
  · have called := wired.called some (by rw [asleep]; rfl)
    exact called.resolve_left (by simp [empty])
  · rintro shut rfl
    rcases wired.aware shut (by rw [asleep]; rfl) with wake | signalling | waking
    · cases empty.symm.trans wake
    · exact .inl signalling
    · refine .inr ?_
      by_contra nobody
      refine waking.ne' (total_eq_zero fun stopper member => ?_)
      cases stopper with
      | swapping => exact absurd ⟨_, member, .inl rfl⟩ nobody
      | sending => exact absurd ⟨_, member, .inr (.inl rfl)⟩ nobody
      | waking => exact absurd ⟨_, member, .inr (.inr rfl)⟩ nobody
      | _ => rfl

/-- The supervisor polls before the call comes, and the call has not written its byte yet. -/
def samplePoll : List Event :=
  List.replicate 3 (.supervisor {}) ++ sampleSpawn.take 4 ++ List.replicate 5 (.spawner .launched)

theorem wakes_not_lost_sample : (sample.run samplePoll).spawner = .waking := by
  have asleep : (sample.run samplePoll).supervisor = .polling false false := rfl
  have empty : (sample.run samplePoll).wake = false := rfl
  exact (wakes_not_lost sample_made samplePoll asleep empty).1 (by decide)

/-- Once a call of `stop` has returned, both threads are gone, no process and no message is
left, and the only admissions are those of calls that are about to be refused. -/
theorem stop_leaves_nothing {max : Nat} (made : new max = .ok s) (events : List Event)
    (returned : .returned ∈ (s.run events).stoppers) :
    (s.run events).supervisor = .exited ∧ (s.run events).spawner = .exited ∧ (s.run events).processes = [] ∧
      (s.run events).ready = [] ∧ (s.run events).requests = [] ∧
      (s.run events).active = ((s.run events).callers.flatMap Caller.held).length ∧
      ∀ {caller : Nat}, (s.run events).callers[caller]? = some .waking ∨ (s.run events).callers[caller]? = some .waiting →
        (s.run events).replies[caller]? ≠ some .empty := by
  obtain ⟨valid, wired⟩ := reached made events
  generalize s.run events = t at *
  obtain ⟨-, supervisor, spawner⟩ := wired.honest _ returned
  have processes := wired.processes (by rw [supervisor]; rfl)
  have ready := wired.ready (by rw [supervisor]; rfl)
  have requests := wired.requests (by rw [spawner]; rfl)
  have custody : t.custody = t.callers.flatMap Caller.held := by
    simp [custody, supervisor, spawner, ready, requests, Spawner.held, Supervisor.held]
  refine ⟨supervisor, spawner, processes, ready, requests, ?_, fun {caller} waits empty => ?_⟩
  · rw [valid.admitted, custody, processes, List.length_nil, Nat.add_zero]
  · have owed : t.owed = [] := by
      simp [UnixProcessBackend.owed, supervisor, spawner, Spawner.owed, Supervisor.owed]
    have placed : 0 < t.custody.count caller + t.owed.count caller := by
      rw [valid.placed]
      rcases waits with found | found
      all_goals exact (awaits_iff found).mpr ⟨rfl, empty⟩
    rw [owed, List.count_nil, Nat.add_zero, List.count_pos_iff, custody] at placed
    obtain ⟨phase, member, held⟩ := List.mem_flatMap.mp placed
    obtain ⟨place, found⟩ := List.mem_iff_getElem?.mp member
    -- The request is at its own call, and that call is past sending.
    cases phase with
    | sending request =>
      obtain rfl := List.mem_singleton.mp held
      obtain rfl := valid.named found
      rcases waits with other | other
      all_goals cases found.symm.trans other
    | _ => cases held

theorem stop_leaves_nothing_sample :
    (sample.run sampleStop).supervisor = .exited ∧ (sample.run sampleStop).spawner = .exited ∧
      (sample.run sampleStop).processes = [] ∧ (sample.run sampleStop).active = 0 := by
  obtain ⟨supervisor, spawner, processes, -, -, active, -⟩ :=
    stop_leaves_nothing sample_made sampleStop List.mem_cons_self
  exact ⟨supervisor, spawner, processes, active⟩

end PtyRuntime.UnixProcessBackend
