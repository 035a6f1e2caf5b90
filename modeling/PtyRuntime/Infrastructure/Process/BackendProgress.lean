import PtyRuntime.Infrastructure.Process.BackendService

/-! Progress of the process owner: under weak fairness every call of `spawn` returns, come
what may. A request stays with its server until that takes its step, whatever the others do. -/
namespace PtyRuntime.UnixProcessBackend
open Tally Liveness

variable {s s' : UnixProcessBackend} {c : Nat}

/-- Nobody but its server touches a request; a byte in the wake socket may help. -/
theorem turn_wake (supervisor : s'.supervisor = s.supervisor) (processes : s'.processes = s.processes)
    (max : s'.max = s.max) (wake : s.wake = true → s'.wake = true) :
    s'.turn ≤ s.turn ∧ (s.supervisor.asleep = true → s.wake = false → s'.wake = true → s'.turn < s.turn) := by
  unfold turn
  rw [supervisor, processes, max]
  cases phase : s.supervisor with
  | polling hurried shutting =>
    cases before : s.wake with
    | true => simp [wake before]
    | false => cases after : s'.wake <;> simp
  | unwinding request => cases request <;> simp [Supervisor.asleep]
  | _ => simp [Supervisor.asleep]

/-- A step that is not the supervisor's leaves a request on its side at least as near. -/
theorem ahead_kept (ahead : s.place c ≠ .spawner) (empty : s.replies[c]? = some .empty)
    (supervisor : s'.supervisor = s.supervisor) (processes : s'.processes = s.processes) (max : s'.max = s.max)
    (wake : s.wake = true → s'.wake = true) (ready : ∃ more, s'.ready = s.ready ++ more) :
    s'.service c < s.service c ∨ s'.service c = s.service c ∧ s'.server c = s.server c ∧
      (s.server c = .spawner → s'.wake = false) := by
  by_cases waits : s'.replies[c]? = some .empty
  · rcases s.place_cases c with ⟨held, -⟩ | ⟨held, member, -⟩ | ⟨-, place⟩
    · have held' : c ∈ s'.supervisor.held ++ s'.supervisor.owed := supervisor ▸ held
      refine .inr ⟨?_, ?_, ?_⟩
      · rw [service_supervisor held' waits, service_supervisor held empty, supervisor]
      · unfold server place
        rw [if_pos held, if_pos held']
      · unfold server place
        rw [if_pos held]
        simp
    · have other : c ∉ s'.supervisor.held ++ s'.supervisor.owed := supervisor ▸ held
      obtain ⟨more, ready⟩ := ready
      have member' : c ∈ s'.ready := ready ▸ List.mem_append_left _ member
      have same : s'.ready.idxOf c = s.ready.idxOf c := by rw [ready, List.idxOf_append_of_mem member]
      obtain ⟨turn, sooner⟩ := turn_wake supervisor processes max wake
      rw [service_ready other member' waits, service_ready held member empty, same, round, round, max]
      unfold server place
      rw [if_neg held, if_pos member, if_neg other, if_pos member', supervisor]
      rcases Nat.lt_or_eq_of_le turn with less | equal
      · exact .inl (by omega)
      · refine .inr ⟨by rw [equal], ?_⟩
        cases asleep : s.supervisor.asleep with
        | false => simp
        | true =>
          cases before : s.wake with
          | true => simp [wake before]
          | false =>
            cases after : s'.wake with
            | false => simp
            | true => exact absurd equal (Nat.ne_of_lt (sooner asleep before after))
    · exact absurd place ahead
  · refine .inl ?_
    rw [service_answered waits]
    exact service_pos empty

/-- A step that is not the spawner's leaves a request on its side where it is. -/
theorem behind_kept (behind : s.Behind c) (empty : s.replies[c]? = some .empty)
    (queued : c ∈ s.spawner.held ++ s.spawner.owed ∨ .launch c ∈ s.requests)
    (spawner : s'.spawner = s.spawner) (requests : ∃ more, s'.requests = s.requests ++ more) (max : s'.max = s.max)
    (still : s'.Behind c) : s'.service c < s.service c ∨ s'.service c = s.service c ∧ s'.server c = s.server c := by
  by_cases waits : s'.replies[c]? = some .empty
  · refine .inr ⟨?_, ?_⟩
    · obtain ⟨more, requests⟩ := requests
      rw [still.service waits, behind.service empty, spawner, round, round, max, side, side]
      rcases queued with held | member
      · rw [if_pos held, if_pos held]
      · rw [requests, List.idxOf_append_of_mem member]
    · unfold server
      rw [behind_iff.mp behind, behind_iff.mp still]
  · refine .inl ?_
    rw [service_answered waits]
    exact service_pos empty

/-- The supervisor takes requests from its channel only. -/
theorem supervisorStep_behind (behind : s.Behind c) (outcome : Outcome) : (s.supervisorStep outcome).Behind c := by
  obtain ⟨other, away⟩ := behind
  have ready := (s.supervisorStep_moves outcome).ready.subset
  refine ⟨?_, fun member => away (ready member)⟩
  unfold supervisorStep
  cases phase : s.supervisor with
  | taking admitted =>
    dsimp only
    split
    · simp [Supervisor.held, Supervisor.owed]
    · split
      · rename_i front
        rw [front] at away
        simpa [Supervisor.held, Supervisor.owed] using List.ne_of_not_mem_cons away
      · simp [Supervisor.held, Supervisor.owed]
  | took | starting =>
    rw [phase] at other
    dsimp only
    repeat' split
    all_goals simp_all [Supervisor.held, Supervisor.owed]
  | refusing =>
    rw [phase] at other
    simpa [Supervisor.held, Supervisor.owed] using other
  | unwinding request =>
    cases request with
    | none =>
      dsimp only
      split <;> simp_all [Supervisor.held, Supervisor.owed, release]
    | some request => simp [Supervisor.held, Supervisor.owed]
  | leaving =>
    dsimp only
    split
    · simp [phase, discard, release, reply, Supervisor.held, Supervisor.owed]
    · split <;> simp [Supervisor.held, Supervisor.owed]
  | retaining =>
    dsimp only
    repeat' split
    all_goals simp [phase, release, Supervisor.held, Supervisor.owed]
  | polling =>
    dsimp only
    split <;> simp [phase, Supervisor.held, Supervisor.owed]
  | replying | loading | reading | closing | swapping | sending =>
    dsimp only
    repeat' split
    all_goals simp [Supervisor.held, Supervisor.owed]
  | exited => simp [phase, Supervisor.held, Supervisor.owed]

/-- What callers of `spawn` and `stop` may do to the threads. -/
structure Aside (s s' : UnixProcessBackend) : Prop where
  threads : s'.spawner = s.spawner ∧ s'.supervisor = s.supervisor
  processes : s'.processes = s.processes
  max : s'.max = s.max
  ready : s'.ready = s.ready
  requests : ∃ more, s'.requests = s.requests ++ more
  wake : s.wake = true → s'.wake = true

theorem step_aside (s : UnixProcessBackend) {event : Event} (spawner : event.agent ≠ some .spawner)
    (supervisor : event.agent ≠ some .supervisor) : Aside s (s.step event) := by
  cases event with
  | spawn limits | stop immediate => exact ⟨⟨rfl, rfl⟩, rfl, rfl, rfl, ⟨[], (List.append_nil _).symm⟩, id⟩
  | spawner launch => exact absurd rfl spawner
  | supervisor outcome => exact absurd rfl supervisor
  | call caller =>
    obtain ⟨requests, wake, -, ⟨spawner, supervisor, ready, processes⟩, -⟩ := s.call_moves caller
    refine ⟨⟨spawner, supervisor⟩, processes, s.step_max (.call caller), ready, ?_, wake⟩
    rcases requests with same | ⟨-, request, more⟩
    · exact ⟨[], same.trans (List.append_nil _).symm⟩
    · exact ⟨_, more⟩
  | stopper index =>
    change Aside s (s.stopperStep index)
    unfold stopperStep
    have same : Aside s s := ⟨⟨rfl, rfl⟩, rfl, rfl, rfl, ⟨[], (List.append_nil _).symm⟩, id⟩
    split
    case h_4 =>
      rcases s.request?_cases .shutdown with ⟨sent, -⟩ | ⟨full, -⟩
      · rw [sent]
        exact ⟨⟨rfl, rfl⟩, rfl, rfl, rfl, ⟨_, rfl⟩, id⟩
      · rw [full]
        exact ⟨⟨rfl, rfl⟩, rfl, rfl, rfl, ⟨[], (List.append_nil _).symm⟩, id⟩
    case h_5 => exact ⟨⟨rfl, rfl⟩, rfl, rfl, rfl, ⟨[], (List.append_nil _).symm⟩, fun _ => rfl⟩
    all_goals
      repeat' split
      all_goals exact ⟨⟨rfl, rfl⟩, rfl, rfl, rfl, ⟨[], (List.append_nil _).symm⟩, id⟩

/-- A request on the side of the spawner is in its hand or its channel. -/
theorem Valid.queued (valid : s.Valid) {phase : Caller} (found : s.callers[c]? = some phase)
    (sent : phase = .waking ∨ phase = .waiting) (empty : s.replies[c]? = some .empty) (behind : s.Behind c) :
    c ∈ s.spawner.held ++ s.spawner.owed ∨ .launch c ∈ s.requests := by
  have out : phase.out = true := by
    rcases sent with rfl | rfl <;> rfl
  have placed := (valid.placed c).mpr ((awaits_iff found).mpr ⟨out, empty⟩)
  rw [← List.count_append, List.count_pos_iff] at placed
  simp only [custody, UnixProcessBackend.owed, List.mem_append, List.mem_flatMap] at placed
  have supervisor := behind.supervisor
  rw [List.mem_append, not_or] at supervisor
  rw [List.mem_append]
  rcases placed with (⟨caller, member, held⟩ | ⟨message, member, held⟩ | held | held | held) | held | held
  · cases caller with
    | sending request =>
      obtain ⟨index, here⟩ := List.mem_iff_getElem?.mp member
      obtain rfl := List.mem_singleton.mp held
      obtain rfl := valid.named here
      rcases sent with rfl | rfl <;> cases found.symm.trans here
    | _ => cases held
  · cases message with
    | launch request =>
      obtain rfl := List.mem_singleton.mp held
      exact .inr member
    | shutdown => cases held
  · exact .inl (.inl held)
  · exact absurd held behind.ready
  · exact absurd held supervisor.1
  · exact .inl (.inr held)
  · exact absurd held supervisor.2

theorem Event.of_spawner {event : Event} (own : event.agent = some .spawner) : ∃ launch, event = .spawner launch := by
  cases event with
  | spawner launch => exact ⟨launch, rfl⟩
  | _ => cases own

theorem Event.of_supervisor {event : Event} (own : event.agent = some .supervisor) :
    ∃ outcome, event = .supervisor outcome := by
  cases event with
  | supervisor outcome => exact ⟨outcome, rfl⟩
  | _ => cases own

/-- The request came nearer, or is where it was and its server has not moved. -/
def Served (s : UnixProcessBackend) (event : Event) (c : Nat) : Prop :=
  (s.step event).service c < s.service c ∨ (s.step event).service c = s.service c ∧
    (s.step event).server c = s.server c ∧ event.agent ≠ some (s.server c)

theorem served_behind (valid : s.Valid) (wired : s.Wired) (behind : s.Behind c) (empty : s.replies[c]? = some .empty)
    (queued : c ∈ s.spawner.held ++ s.spawner.owed ∨ .launch c ∈ s.requests) (event : Event) : s.Served event c := by
  have server : s.server c = .spawner := by
    unfold UnixProcessBackend.server
    rw [behind_iff.mp behind]
  by_cases own : event.agent = some .spawner
  · obtain ⟨launch, rfl⟩ := Event.of_spawner own
    exact .inl (spawnerStep_nearer valid wired behind empty queued launch)
  · have kept (spawner : (s.step event).spawner = s.spawner)
        (requests : ∃ more, (s.step event).requests = s.requests ++ more) (still : (s.step event).Behind c) :
        s.Served event c :=
      (behind_kept behind empty queued spawner requests (s.step_max event) still).imp_right
        fun ⟨same, kept⟩ => ⟨same, kept, server ▸ own⟩
    by_cases other : event.agent = some .supervisor
    · obtain ⟨outcome, rfl⟩ := Event.of_supervisor other
      have moves := s.supervisorStep_moves outcome
      refine kept moves.spawner ?_ (supervisorStep_behind behind outcome)
      rcases moves.requests with ⟨same, -⟩ | ⟨-, -, more⟩
      · exact ⟨[], same.trans (List.append_nil _).symm⟩
      · exact ⟨_, more⟩
    · obtain ⟨⟨spawner, supervisor⟩, processes, max, ready, requests, wake⟩ := s.step_aside own other
      refine kept spawner requests ⟨?_, ?_⟩
      · rw [supervisor]
        exact behind.supervisor
      · rw [ready]
        exact behind.ready

/-- The spawner is about to wake the supervisor that sleeps over a child. -/
theorem Wired.server_waking (wired : s.Wired) (server : s.server c = .spawner) (ahead : s.place c ≠ .spawner) :
    s.spawner = .waking := by
  unfold UnixProcessBackend.server at server
  rcases s.place_cases c with ⟨-, place⟩ | ⟨-, member, place⟩ | ⟨-, place⟩
  · rw [place] at server
    cases server
  · rw [place] at server
    cases sleeps : s.supervisor.asleep && !s.wake with
    | false => simp [sleeps] at server
    | true =>
      rw [Bool.and_eq_true, Bool.not_eq_true'] at sleeps
      have dozing : s.supervisor.dozing = true := by
        cases phase : s.supervisor <;> simp_all [Supervisor.asleep, Supervisor.dozing]
      exact (wired.called (List.ne_nil_of_mem member) dozing).resolve_left (by simp [sleeps.2])
  · exact absurd place ahead

theorem served_ahead (valid : s.Valid) (wired : s.Wired) (ahead : s.place c ≠ .spawner)
    (empty : s.replies[c]? = some .empty) (event : Event) : s.Served event c := by
  by_cases other : event.agent = some .supervisor
  · obtain ⟨outcome, rfl⟩ := Event.of_supervisor other
    rcases s.place_cases c with ⟨held, -⟩ | ⟨away, member, place⟩ | ⟨-, place⟩
    · exact .inl (supervisorStep_held empty held outcome)
    · rcases supervisorStep_ready valid wired empty away member outcome with nearer | ⟨asleep, wake, same⟩
      · exact .inl nearer
      · refine .inr ⟨congrArg (fun t => t.service c) same, congrArg (fun t => t.server c) same, ?_⟩
        have server : s.server c = .spawner := by
          unfold UnixProcessBackend.server
          rw [place]
          simp [asleep, wake]
        rw [server]
        rintro ⟨⟩
    · exact absurd place ahead
  · by_cases own : event.agent = some .spawner
    · obtain ⟨launch, rfl⟩ := Event.of_spawner own
      have moves := s.spawnerStep_moves launch
      have ready : ∃ more, (s.spawnerStep launch).ready = s.ready ++ more := by
        rcases moves.ready with same | ⟨-, -, request, more⟩
        · exact ⟨[], same.trans (List.append_nil _).symm⟩
        · exact ⟨_, more⟩
      refine (ahead_kept ahead empty moves.supervisor.1 moves.supervisor.2 (s.step_max (.spawner launch))
        (fun wake => moves.wake (.inl wake)) ready).imp_right fun ⟨same, kept, quiet⟩ => ⟨same, kept, fun serves => ?_⟩
      have server : s.server c = .spawner := (Option.some.inj serves).symm
      have wake := moves.wake (.inr (.inl (wired.server_waking server ahead)))
      cases (quiet server).symm.trans wake
    · obtain ⟨⟨spawner, supervisor⟩, processes, max, ready, requests, wake⟩ := s.step_aside own other
      refine (ahead_kept ahead empty supervisor processes max wake
        ⟨[], ready.trans (List.append_nil _).symm⟩).imp_right fun ⟨same, kept, _⟩ => ⟨same, kept, fun serves => ?_⟩
      -- Its server is one of the two threads.
      unfold UnixProcessBackend.server at serves
      split at serves
      · exact other serves
      · split at serves
        · exact own serves
        · exact other serves
      · exact own serves

/-- Whatever happens, a request that was sent comes nearer to its answer, or stays where it
is while its server, which is still the same, has not moved. -/
theorem served (valid : s.Valid) (wired : s.Wired) {phase : Caller} (found : s.callers[c]? = some phase)
    (sent : phase = .waking ∨ phase = .waiting) (empty : s.replies[c]? = some .empty) (event : Event) :
    s.Served event c := by
  by_cases here : s.place c = .spawner
  · have behind := behind_iff.mpr here
    exact served_behind valid wired behind empty (valid.queued found sent empty behind) event
  · exact served_ahead valid wired here empty event

/-- More than any request has before it when it is sent. -/
def ahead (s : UnixProcessBackend) : Nat := s.max * s.round + 20 + 9 * s.max

theorem service_le (valid : s.Valid) (room : s.requests.length ≤ s.max + 1) : s.service c ≤ s.ahead + 9 := by
  by_cases empty : s.replies[c]? = some .empty
  · rcases s.place_cases c with ⟨held, -⟩ | ⟨away, member, -⟩ | ⟨behind, -⟩
    · rw [service_supervisor held empty]
      unfold ahead Supervisor.hand
      split <;> omega
    · rw [service_ready away member empty]
      have place := List.idxOf_lt_length_of_mem member
      have length := s.length_custody
      have few := valid.custody_le
      have turn := turn_lt valid
      have rounds : s.ready.idxOf c * s.round + s.round ≤ s.max * s.round := by
        rw [← Nat.succ_mul]
        exact Nat.mul_le_mul_right _ (by omega)
      unfold ahead
      omega
    · rw [behind.service empty]
      have place : s.requests.idxOf (.launch c) ≤ s.requests.length := List.idxOf_le_length
      have hand : s.spawner.hand ≤ 7 := by
        unfold Spawner.hand
        split <;> omega
      unfold ahead side
      split <;> omega
  · rw [service_answered empty]
    exact Nat.zero_le _

/-- What is left of a call in a phase. -/
def remaining (s : UnixProcessBackend) (c : Nat) : Caller → Nat
  | .entering => s.ahead + 14
  | .admitting => s.ahead + 13
  | .sending _ => s.ahead + 12
  | .waking => s.service c + 2
  | .waiting => s.service c + 1
  | .returned _ => 0

/-- What is left before a call returns. -/
def left (c : Nat) (s : UnixProcessBackend) : Nat := (s.callers[c]?.map (s.remaining c)).getD 0

theorem left_of {phase : Caller} (found : s.callers[c]? = some phase) : left c s = s.remaining c phase := by
  rw [left, found]
  rfl

/-- Whose step brings a call nearer to its return. -/
def next (c : Nat) (s : UnixProcessBackend) : Option Agent :=
  match s.callers[c]? with
  | some .waiting => if s.replies[c]? = some .empty then some (s.server c) else some (.call c)
  | some (.returned _) | none => none
  | some _ => some (.call c)

theorem step_phase {phase : Caller} (found : s.callers[c]? = some phase) {event : Event}
    (other : event.agent ≠ some (.call c)) : (s.step event).callers[c]? = some phase := by
  cases event with
  | spawn limits => exact (List.getElem?_append_left (List.getElem?_eq_some_iff.mp found).1).trans found
  | stop immediate => exact found
  | spawner launch => exact (congrArg (·[c]?) (s.spawnerStep_callers launch).1).trans found
  | supervisor outcome => exact (congrArg (·[c]?) (s.supervisorStep_callers outcome).1).trans found
  | stopper index => exact (congrArg (·[c]?) (s.stopperStep_still index).2.1).trans found
  | call caller =>
    have differs : caller ≠ c := fun same => other (same ▸ rfl)
    have kept (phase' : Caller) : (s.callers.set caller phase')[c]? = some phase :=
      (List.getElem?_set_ne differs).trans found
    change (s.call caller).callers[c]? = some phase
    unfold call
    split
    case h_3 request _ =>
      rcases s.request?_cases (.launch request) with ⟨sent, -⟩ | ⟨full, -⟩
      · rw [sent]
        exact kept _
      · rw [full]
        exact kept _
    all_goals
      repeat' split
      all_goals first | exact kept _ | exact found

theorem service_settled (valid : s.Valid) {phase : Caller} (found : s.callers[c]? = some phase)
    (settled : s.replies[c]? ≠ some .empty) (event : Event) : (s.step event).replies[c]? ≠ some .empty := by
  have within : c < s.replies.length := valid.paired.symm ▸ (List.getElem?_eq_some_iff.mp found).1
  have there := List.getElem?_eq_getElem within
  rw [valid.answer_kept event there fun empty => settled (there.trans (congrArg some empty)), ← there]
  exact settled

/-- A call comes nearer to its return, or nothing has changed for it and the one whose step
it needs has not moved. -/
def Moved (c : Nat) (s : UnixProcessBackend) (event : Event) : Prop :=
  left c (s.step event) < left c s ∨ left c (s.step event) = left c s ∧ next c (s.step event) = next c s ∧
    ∀ agent, next c s = some agent → event.agent ≠ some agent

theorem moved_others (valid : s.Valid) (wired : s.Wired) {phase : Caller} (found : s.callers[c]? = some phase)
    {event : Event} (other : event.agent ≠ some (.call c)) : Moved c s event := by
  have found' := step_phase found other
  have own {agent : Agent} (mine : some (Agent.call c) = some agent) : event.agent ≠ some agent := mine ▸ other
  have max := s.step_max event
  have far : (s.step event).ahead = s.ahead := by
    rw [ahead, ahead, round, round, max]
  unfold Moved next
  rw [left_of found, left_of found', found, found']
  cases phase with
  | entering | admitting | sending => exact .inr ⟨by simp only [remaining, far], rfl, fun agent => own⟩
  | waking =>
    by_cases empty : s.replies[c]? = some .empty
    · rcases served valid wired found (.inl rfl) empty event with nearer | ⟨same, -⟩
      · exact .inl (Nat.add_lt_add_right nearer 2)
      · exact .inr ⟨by simp only [remaining, same], rfl, fun agent => own⟩
    · refine .inr ⟨?_, rfl, fun agent => own⟩
      simp only [remaining, service_answered empty, service_answered (service_settled valid found empty event)]
  | waiting =>
    by_cases empty : s.replies[c]? = some .empty
    · rcases served valid wired found (.inr rfl) empty event with nearer | ⟨same, server, idle⟩
      · exact .inl (Nat.add_lt_add_right nearer 1)
      · have still : (s.step event).replies[c]? = some .empty := by
          by_contra settled
          rw [service_answered settled] at same
          exact absurd same (Nat.ne_of_lt (service_pos empty))
        simp only [empty, still, if_true]
        exact .inr ⟨by simp only [remaining, same], by rw [server], fun agent mine => mine ▸ idle⟩
    · have settled := service_settled valid found empty event
      refine .inr ⟨?_, ?_, ?_⟩
      · simp only [remaining, service_answered empty, service_answered settled]
      · simp only [if_neg empty, if_neg settled]
      · simp only [if_neg empty]
        exact fun agent => own
  | returned => exact .inr ⟨rfl, rfl, fun agent none => by cases none⟩

theorem moved_own (valid : s.Valid) (wired : s.Wired) {phase : Caller} (found : s.callers[c]? = some phase) :
    Moved c s (.call c) := by
  have within := (List.getElem?_eq_some_iff.mp found).1
  -- The call takes its step, and less is left.
  have goes (t : UnixProcessBackend) {phase' : Caller} (taken : s.call c = t)
      (callers : t.callers = s.callers.set c phase') (less : t.remaining c phase' < s.remaining c phase) :
      Moved c s (.call c) := by
    refine .inl ?_
    change left c (s.call c) < left c s
    rw [taken, left_of (callers ▸ List.getElem?_set_self within), left_of found]
    exact less
  cases phase with
  | entering =>
    refine goes (s.setCaller c (if s.shutdown then .returned (.error .closed) else .admitting)) ?_ rfl ?_
    · unfold call
      rw [found]
    · split <;> simp [remaining, ahead, round, setCaller]
  | admitting =>
    by_cases room : s.active < s.max
    · refine goes ({ s with active := s.active + 1 }.setCaller c (.sending c)) ?_ rfl ?_
      · unfold call
        rw [found]
        exact if_pos room
      · simp [remaining, ahead, round, setCaller]
    · refine goes (s.setCaller c (.returned (.error .capacity))) ?_ rfl (by simp [remaining])
      unfold call
      rw [found]
      exact if_neg room
  | sending request =>
    obtain rfl := valid.named found
    rcases s.request?_cases (.launch request) with ⟨sent, -⟩ | ⟨full, -⟩
    · have taken : s.call request = { s with requests := s.requests ++ [Message.launch request] }.setCaller request .waking := by
        unfold call
        rw [found]
        dsimp only
        rw [sent]
      refine goes _ taken rfl ?_
      have room := valid.launch_room wired.few found
      have kept : (s.call request).Valid := valid.call request
      rw [taken] at kept
      have bound := @service_le _ request kept (by
        simp only [setCaller, List.length_append, List.length_singleton]
        omega)
      simp only [remaining]
      change _ < s.ahead + 12
      change _ ≤ s.ahead + 9 at bound
      omega
    · refine goes ((s.discard request).setCaller request (.returned (.error .closed))) ?_ rfl (by simp [remaining])
      unfold call
      rw [found]
      dsimp only
      rw [full]
  | waking =>
    have taken : s.call c = { s with wake := true }.setCaller c .waiting := by
      unfold call
      rw [found]
    refine goes _ taken rfl ?_
    rw [← taken]
    change (s.step (.call c)).service c + 1 < s.service c + 2
    by_cases empty : s.replies[c]? = some .empty
    · rcases served valid wired found (.inl rfl) empty (.call c) with nearer | ⟨same, -⟩
      · omega
      · omega
    · rw [service_answered (service_settled valid found empty (.call c))]
      omega
  | waiting =>
    cases came : s.replies[c]? with
    | none =>
      have gone : c < s.replies.length := valid.paired.symm ▸ within
      exact absurd (List.getElem?_eq_none_iff.mp came) (Nat.not_le.mpr gone)
    | some reply =>
      cases reply with
      | empty =>
        have same : s.step (.call c) = s := by
          change s.call c = s
          unfold call
          rw [found]
          dsimp only
          rw [came]
        unfold Moved
        rw [same]
        refine .inr ⟨rfl, rfl, fun agent mine serves => ?_⟩
        unfold next server at mine
        simp only [found, came, if_true, Option.some.injEq] at mine
        obtain rfl := Option.some.inj serves
        split at mine
        · cases mine
        · split at mine <;> cases mine
        · cases mine
      | sent answer =>
        refine goes (s.setCaller c (.returned answer)) ?_ rfl (by simp [remaining])
        unfold call
        rw [found]
        dsimp only
        rw [came]
      | dropped =>
        refine goes (s.setCaller c (.returned (.error (if s.shutdown then .closed else .internal)))) ?_ rfl (by simp [remaining])
        unfold call
        rw [found]
        dsimp only
        rw [came]
  | returned answer =>
    have same : s.step (.call c) = s := by
      change s.call c = s
      unfold call
      rw [found]
    unfold Moved
    rw [same]
    exact .inr ⟨rfl, rfl, fun agent none => by simp [next, found] at none⟩

theorem moved (valid : s.Valid) (wired : s.Wired) {phase : Caller} (found : s.callers[c]? = some phase)
    (event : Event) : Moved c s event := by
  by_cases own : event.agent = some (.call c)
  · obtain rfl : event = .call c := by
      cases event with
      | call caller =>
        obtain rfl := Agent.call.inj (Option.some.inj own)
        rfl
      | _ => cases own
    exact moved_own valid wired found
  · exact moved_others valid wired found own

theorem callers_length (s : UnixProcessBackend) (event : Event) : s.callers.length ≤ (s.step event).callers.length := by
  cases event with
  | spawn limits => exact List.length_append ▸ Nat.le_add_right ..
  | stop immediate => exact Nat.le_refl _
  | spawner launch => exact (congrArg List.length (s.spawnerStep_callers launch).1).ge
  | supervisor outcome => exact (congrArg List.length (s.supervisorStep_callers outcome).1).ge
  | stopper index => exact (congrArg List.length (s.stopperStep_still index).2.1).ge
  | call caller =>
    change s.callers.length ≤ (s.call caller).callers.length
    have kept (phase : Caller) : s.callers.length ≤ (s.callers.set caller phase).length := (List.length_set ..).ge
    unfold call
    split
    case h_3 request _ =>
      rcases s.request?_cases (.launch request) with ⟨sent, -⟩ | ⟨full, -⟩
      · rw [sent]
        exact kept _
      · rw [full]
        exact kept _
    all_goals
      repeat' split
      all_goals first | exact kept _ | exact Nat.le_refl _

/-- The server of a request that is awaited can go on. -/
theorem server_enabled (valid : s.Valid) (wired : s.Wired) (found : s.callers[c]? = some .waiting)
    (empty : s.replies[c]? = some .empty) : s.Enabled (s.server c) := by
  rcases s.place_cases c with ⟨held, place⟩ | ⟨-, member, place⟩ | ⟨behind, place⟩
  · have server : s.server c = .supervisor := by
      unfold server
      rw [place]
    rw [server]
    constructor
    · intro exited
      simp [exited, Supervisor.held, Supervisor.owed] at held
    · intro shutting asleep
      simp [asleep, Supervisor.held, Supervisor.owed] at held
  · cases sleeps : s.supervisor.asleep && !s.wake with
    | true =>
      have server : s.server c = .spawner := by
        unfold server
        rw [place]
        exact if_pos sleeps
      have waking := wired.server_waking server (place ▸ by simp)
      rw [server]
      constructor
      · simp [waking]
      · simp [waking]
    | false =>
      have server : s.server c = .supervisor := by
        unfold server
        rw [place]
        exact if_neg (by simp [sleeps])
      rw [server]
      constructor
      · intro exited
        have none := wired.ready (by rw [exited]; rfl)
        simp [none] at member
      · intro shutting asleep
        simpa [asleep, Supervisor.asleep] using sleeps
  · have server : s.server c = .spawner := by
      unfold server
      rw [place]
    have queued := valid.queued found (.inr rfl) empty behind
    rw [server]
    constructor
    · intro exited
      have none := wired.requests (by rw [exited]; rfl)
      simp [exited, none, Spawner.held, Spawner.owed] at queued
    · intro receiving none
      simp [receiving, none, Spawner.held, Spawner.owed] at queued

/-- Everything a call still has to wait for gets done, whatever else happens. -/
theorem spawn_effort (c : Nat) : Effort step Event.agent Enabled (fun _ => True)
    (fun s => s.Valid ∧ s.Wired ∧ c < s.callers.length) (left c) (fun s agent => next c s = some agent) := by
  have found {s : UnixProcessBackend} (within : c < s.callers.length) : s.callers[c]? = some s.callers[c] :=
    List.getElem?_eq_getElem within
  constructor
  · rintro s event - ⟨valid, wired, within⟩
    exact ⟨valid.step event, wired.step valid event, within.trans_le (s.callers_length event)⟩
  · rintro s event - ⟨valid, wired, within⟩
    exact (moved valid wired (found within) event).elim (·.le) (·.1.le)
  · rintro s ⟨valid, wired, within⟩ more
    rw [left_of (found within)] at more
    unfold next
    rw [found within]
    cases phase : s.callers[c] with
    | returned answer =>
      rw [phase] at more
      cases more
    | waiting =>
      dsimp only
      split
      · exact ⟨_, rfl⟩
      · exact ⟨_, rfl⟩
    | _ => exact ⟨_, rfl⟩
  · rintro s agent ⟨valid, wired, within⟩ mine
    unfold next at mine
    rw [found within] at mine
    cases phase : s.callers[c] with
    | returned answer =>
      rw [phase] at mine
      cases mine
    | waiting =>
      rw [phase] at mine
      dsimp only at mine
      split at mine
      · rename_i empty
        obtain rfl := Option.some.inj mine
        exact server_enabled valid wired (phase ▸ found within) empty
      · rename_i answered
        obtain rfl := Option.some.inj mine
        exact ⟨.waiting, phase ▸ found within, by simp, fun _ => answered⟩
    | entering | admitting | sending | waking =>
      rw [phase] at mine
      obtain rfl := Option.some.inj mine
      exact ⟨_, phase ▸ found within, by simp, by simp⟩
  · rintro s event agent - ⟨valid, wired, within⟩ mine other
    exact (moved valid wired (found within) event).imp_right fun same => same.2.1.trans mine
  · rintro s event agent - ⟨valid, wired, within⟩ mine serves
    exact (moved valid wired (found within) event).resolve_right fun same => same.2.2 agent mine serves

/-- In every fair schedule, whatever launching, registering and the processes come to and
whoever stops the owner meanwhile, every call of `spawn` returns in the end. -/
theorem spawn_returns {max : Nat} (made : new max = .ok s) {schedule : Nat → Event} (fair : s.Fair schedule)
    {n caller : Nat} (called : caller < (states step s schedule n).callers.length) :
    ∃ m, n ≤ m ∧ ∃ answer, (states step s schedule m).callers[caller]? = some (.returned answer) := by
  obtain ⟨valid, wired⟩ := states_reached made schedule n
  obtain ⟨m, later, ⟨-, -, within⟩, none⟩ :=
    (spawn_effort caller).finishes fair (fun _ _ => trivial) ⟨valid, wired, called⟩
  refine ⟨m, later, ?_⟩
  have found := List.getElem?_eq_getElem within
  rw [left_of found] at none
  rw [found]
  cases phase : (states step s schedule m).callers[caller] with
  | returned answer => exact ⟨answer, rfl⟩
  | _ =>
    rw [phase] at none
    cases none

end PtyRuntime.UnixProcessBackend
