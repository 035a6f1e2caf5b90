import PtyRuntime.Infrastructure.Process.BackendCalls

/-! Channels, wake socket and join handles of the process owner: what each thread does to
what it shares, and what every step keeps of it. -/
namespace PtyRuntime.UnixProcessBackend
open Tally

variable {s s' : UnixProcessBackend}

namespace Spawner

/-- The thread has left the loop over its requests. -/
def past : Spawner → Bool
  | .draining | .leaving _ | .unwinding _ | .raising | .closing | .signalling | .exited => true
  | .rejecting _ _ .drain | .replying _ _ .drain => true
  | _ => false

/-- Nothing is left in its channel. -/
def gone : Spawner → Bool
  | .raising | .closing | .signalling | .exited => true
  | _ => false

/-- What a step of the spawner does to what it shares. -/
structure Moves (s s' : UnixProcessBackend) : Prop where
  requests : s'.requests <:+ s.requests
  emptied : (s.spawner.gone = true → s.requests = []) → s'.spawner.gone = true → s'.requests = []
  told : s'.requests.count .shutdown = s.requests.count .shutdown ∨ s'.spawner.past = true
  past : s.spawner.past = true → s'.spawner.past = true
  ready : s'.ready = s.ready ∨
    s'.spawner = .waking ∧ s.supervisor.receives = true ∧ ∃ request, s'.ready = s.ready ++ [request]
  wake : s.wake = true ∨ s.spawner = .waking ∨ s.spawner = .signalling → s'.wake = true
  shutdown : s'.shutdown = s.shutdown ∨ s'.shutdown = true ∧ s'.spawner = .signalling
  exited : s.spawner = .exited → s'.spawner = .exited
  supervisor : s'.supervisor = s.supervisor ∧ s'.processes = s.processes
  stops : s'.stoppers = s.stoppers ∧ s'.spawnStop = s.spawnStop ∧ s'.locked = s.locked ∧ s'.taken = s.taken

end Spawner

theorem spawnerStep_moves (s : UnixProcessBackend) (launch : Launch) : Spawner.Moves s (s.spawnerStep launch) := by
  unfold spawnerStep
  cases phase : s.spawner with
  | receiving =>
    dsimp only
    split
    all_goals constructor <;> simp_all [Spawner.gone, Spawner.past]
  | draining =>
    dsimp only
    split
    all_goals constructor <;> simp_all [Spawner.gone, Spawner.past]
  | leaving panicked =>
    dsimp only
    split
    · constructor <;> simp_all [Spawner.gone, Spawner.past, discard, release, reply]
    · constructor <;> simp_all [Spawner.gone, Spawner.past]
    · cases panicked <;> constructor <;> simp_all [Spawner.gone, Spawner.past]
  | handing request =>
    dsimp only
    rcases s.hand?_cases request with ⟨handed, accepts⟩ | ⟨full, -⟩
    · rw [handed]
      constructor <;> simp_all [Spawner.gone, Spawner.past]
    · rw [full]
      constructor <;> simp_all [Spawner.gone, Spawner.past]
  | received request | launched request =>
    dsimp only
    cases shut : s.shutdown <;> constructor <;> simp_all [Spawner.gone, Spawner.past]
  | launching request =>
    dsimp only
    cases launch <;> constructor <;> simp_all [Spawner.gone, Spawner.past]
  | rejecting request error next | replying request error next =>
    dsimp only
    cases next <;> constructor <;> simp_all [Spawner.gone, Spawner.past, release, reply, Next.phase]
  | unwinding request | waking | raising | closing | signalling | exited =>
    dsimp only
    constructor <;> simp_all [Spawner.gone, Spawner.past, discard, release, reply]

namespace Supervisor

/-- Nothing is left in its channel. -/
def gone : Supervisor → Bool
  | .closing | .swapping | .sending | .exited => true
  | _ => false

/-- On the way to `poll`, with nothing left in the channel when it was looked at last. -/
def dozing : Supervisor → Bool
  | .loading admitted | .retaining admitted _ _ => admitted ≠ 8
  | .polling hurried _ => !hurried
  | _ => false

/-- On the way to `poll`, `shutdown` not having been set when it was loaded. -/
def unaware : Supervisor → Bool
  | .retaining _ shutting _ | .polling _ shutting => !shutting
  | _ => false

/-- About to send the one `Shutdown`. -/
def notice : Supervisor → Nat
  | .sending => 1
  | _ => 0

/-- What a step of the supervisor does to what it shares. -/
structure Moves (s s' : UnixProcessBackend) : Prop where
  ready : s'.ready <:+ s.ready
  emptied : (s.supervisor.gone = true → s.ready = []) → s'.supervisor.gone = true → s'.ready = []
  reaped : (s.supervisor.receives = false → s.processes = []) → s'.supervisor.receives = false → s'.processes = []
  requests : (s'.requests = s.requests ∧ (s.supervisor = .sending → s.spawner.receives = true → s.max + 1 ≤ s.requests.length)) ∨
    s.supervisor = .sending ∧ s.spawner.receives = true ∧ s'.requests = s.requests ++ [.shutdown]
  notice : s'.supervisor.notice = (if s.supervisor = .swapping ∧ s.spawnStop = false then 1 else 0)
  stop : s'.spawnStop = (s.spawnStop || s.supervisor == .swapping)
  dozing : s'.supervisor.dozing = true → s'.ready = [] ∨ s.supervisor.dozing = true ∧ s'.ready = s.ready ∧ s'.wake = s.wake
  unaware : s'.supervisor.unaware = true → s'.shutdown = false ∨
    s.supervisor.unaware = true ∧ s'.shutdown = s.shutdown ∧ s'.wake = s.wake
  dutiful : ∀ hurried, s'.supervisor = .polling hurried true →
    s'.processes ≠ [] ∨ s.supervisor = .polling hurried true ∧ s'.processes = s.processes
  shutdown : s.shutdown = true → s'.shutdown = true
  closed : (s.supervisor = .swapping → s.shutdown = true) → s'.supervisor = .swapping → s'.shutdown = true
  exited : s.supervisor = .exited → s'.supervisor = .exited
  spawner : s'.spawner = s.spawner
  stops : s'.stoppers = s.stoppers ∧ s'.locked = s.locked ∧ s'.taken = s.taken

end Supervisor

theorem supervisorStep_moves (s : UnixProcessBackend) (outcome : Outcome) :
    Supervisor.Moves s (s.supervisorStep outcome) := by
  open Supervisor in
  unfold supervisorStep
  cases phase : s.supervisor with
  | taking admitted =>
    dsimp only
    split
    · constructor <;> simp_all [gone, receives, dozing, unaware, notice]
    · split
      all_goals constructor <;> simp_all [gone, receives, dozing, unaware, notice]
  | took admitted request =>
    dsimp only
    cases shut : s.shutdown <;> constructor <;> simp_all [gone, receives, dozing, unaware, notice]
  | starting admitted request =>
    dsimp only
    split
    · constructor <;> simp_all [gone, receives, dozing, unaware, notice]
    · split
      all_goals constructor <;> simp_all [gone, receives, dozing, unaware, notice, reply]
  | refusing admitted request error | replying admitted request error =>
    dsimp only
    constructor <;> simp_all [gone, receives, dozing, unaware, notice, reply, release]
  | loading admitted =>
    dsimp only
    cases shut : s.shutdown <;> split <;> constructor <;> simp_all [gone, receives, dozing, unaware, notice]
  | retaining admitted shutting seen =>
    dsimp only
    split
    · split
      all_goals constructor <;> simp_all [gone, receives, dozing, unaware, notice, release]
    · split
      all_goals constructor <;> simp_all [gone, receives, dozing, unaware, notice]
  | polling hurried shutting =>
    dsimp only
    split
    all_goals constructor <;> simp_all [gone, receives, dozing, unaware, notice]
  | reading =>
    dsimp only
    cases panicked : outcome.panicked <;> constructor <;> simp_all [gone, receives, dozing, unaware, notice]
  | unwinding held =>
    cases held with
    | none =>
      dsimp only
      split
      all_goals constructor <;> simp_all [gone, receives, dozing, unaware, notice, release]
    | some request =>
      dsimp only
      constructor <;> simp_all [gone, receives, dozing, unaware, notice, discard, release, reply]
  | leaving panicked =>
    dsimp only
    split
    · constructor <;> simp_all [gone, receives, dozing, unaware, notice, discard, release, reply]
    · cases panicked <;> constructor <;> simp_all [gone, receives, dozing, unaware, notice]
  | swapping =>
    dsimp only
    cases stop : s.spawnStop <;> constructor <;> simp_all [gone, receives, dozing, unaware, notice]
  | sending =>
    dsimp only
    rcases s.request?_cases .shutdown with ⟨sent, accepts⟩ | ⟨full, refused⟩
    · rw [sent]
      constructor <;> simp_all [gone, receives, dozing, unaware, notice]
    · rw [full]
      constructor <;> simp_all [gone, receives, dozing, unaware, notice]
  | closing | exited =>
    dsimp only
    constructor <;> simp_all [gone, receives, dozing, unaware, notice]

namespace Caller

/-- What a call does to what it shares with the threads. -/
structure Moves (s s' : UnixProcessBackend) : Prop where
  requests : s'.requests = s.requests ∨
    s.spawner.receives = true ∧ ∃ request, s'.requests = s.requests ++ [.launch request]
  wake : s.wake = true → s'.wake = true
  flags : s'.shutdown = s.shutdown ∧ s'.spawnStop = s.spawnStop
  threads : s'.spawner = s.spawner ∧ s'.supervisor = s.supervisor ∧ s'.ready = s.ready ∧ s'.processes = s.processes
  stops : s'.stoppers = s.stoppers ∧ s'.locked = s.locked ∧ s'.taken = s.taken

end Caller

theorem call_moves (s : UnixProcessBackend) (caller : Nat) : Caller.Moves s (s.call caller) := by
  unfold call
  split
  case h_3 request found =>
    rcases s.request?_cases (.launch request) with ⟨sent, accepts⟩ | ⟨full, -⟩
    · rw [sent]
      exact ⟨.inr ⟨accepts, request, rfl⟩, id, ⟨rfl, rfl⟩, ⟨rfl, rfl, rfl, rfl⟩, rfl, rfl, rfl⟩
    · rw [full]
      exact ⟨.inl rfl, id, ⟨rfl, rfl⟩, ⟨rfl, rfl, rfl, rfl⟩, rfl, rfl, rfl⟩
  all_goals
    repeat' split
    all_goals constructor <;> simp [setCaller]

namespace Stopper

/-- About to send the one `Shutdown`. -/
def notice : Stopper → Nat
  | .sending => 1
  | _ => 0

/-- About to wake the supervisor. -/
def wakes : Stopper → Nat
  | .swapping | .sending | .waking => 1
  | _ => 0

/-- Owner of the join handles. -/
def joins : Stopper → Nat
  | .joining | .joined => 1
  | _ => 0

/-- What a phase of `stop` says. -/
def Honest (s : UnixProcessBackend) : Stopper → Prop
  | .raising | .closing => True
  | .swapping => s.shutdown = true
  | .sending | .waking | .locking | .joining => s.spawnStop = true
  | .joined => s.spawnStop = true ∧ s.supervisor = .exited
  | .returned => s.spawnStop = true ∧ s.supervisor = .exited ∧ s.spawner = .exited

end Stopper

/-- `Shutdown` messages in the channel or about to be sent. -/
def notices (s : UnixProcessBackend) : Nat :=
  s.requests.count .shutdown + total Stopper.notice s.stoppers + s.supervisor.notice

/-- What every step keeps of the channels, the wake socket and the join handles. -/
structure Wired (s : UnixProcessBackend) : Prop where
  notices : s.notices ≤ if s.spawnStop then 1 else 0
  told : s.spawnStop = true → 0 < s.notices ∨ s.spawner.past = true
  requests : s.spawner.gone = true → s.requests = []
  ready : s.supervisor.gone = true → s.ready = []
  processes : s.supervisor.receives = false → s.processes = []
  closed : s.spawnStop = true ∨ s.supervisor = .swapping → s.shutdown = true
  called : s.ready ≠ [] → s.supervisor.dozing = true → s.wake = true ∨ s.spawner = .waking
  aware : s.shutdown = true → s.supervisor.unaware = true →
    s.wake = true ∨ s.spawner = .signalling ∨ 0 < total Stopper.wakes s.stoppers
  joins : total Stopper.joins s.stoppers = if s.locked then 1 else 0
  taken : s.locked = true → s.taken = true
  emptied : s.taken = true → s.locked = false → s.supervisor = .exited ∧ s.spawner = .exited
  honest : ∀ phase ∈ s.stoppers, phase.Honest s

theorem new_wired {max : Nat} (made : new max = .ok s) : s.Wired := by
  unfold new at made
  split at made
  · cases made
  · cases made
    constructor <;> simp [UnixProcessBackend.notices, Supervisor.notice, Spawner.gone, Supervisor.gone, Supervisor.receives]

theorem Stopper.Honest.mono {phase : Stopper} (honest : phase.Honest s) (shutdown : s.shutdown = true → s'.shutdown = true)
    (stop : s.spawnStop = true → s'.spawnStop = true) (supervisor : s.supervisor = .exited → s'.supervisor = .exited)
    (spawner : s.spawner = .exited → s'.spawner = .exited) : phase.Honest s' := by
  cases phase with
  | raising | closing => trivial
  | swapping => exact shutdown honest
  | joined => exact ⟨stop honest.1, supervisor honest.2⟩
  | returned => exact ⟨stop honest.1, supervisor honest.2.1, spawner honest.2.2⟩
  | _ => exact stop honest

theorem Wired.caller (wired : s.Wired) (moves : Caller.Moves s s') : s'.Wired := by
  obtain ⟨requests, wake, ⟨shutdown, stop⟩, ⟨spawner, supervisor, ready, processes⟩, stoppers, locked, taken⟩ := moves
  have counts : s'.notices = s.notices := by
    rcases requests with same | ⟨-, request, more⟩
    · rw [UnixProcessBackend.notices, UnixProcessBackend.notices, same, stoppers, supervisor]
    · rw [UnixProcessBackend.notices, UnixProcessBackend.notices, more, stoppers, supervisor, List.count_append]
      rfl
  constructor
  · rw [counts, stop]
    exact wired.notices
  · rw [counts, stop, spawner]
    exact wired.told
  · intro gone
    rw [spawner] at gone
    rcases requests with same | ⟨accepts, -⟩
    · exact same.trans (wired.requests gone)
    · cases phase : s.spawner <;> simp_all [Spawner.gone, Spawner.receives]
  · rw [supervisor, ready]
    exact wired.ready
  · rw [supervisor, processes]
    exact wired.processes
  · rw [stop, supervisor, shutdown]
    exact wired.closed
  · rw [ready, supervisor, spawner]
    exact fun some dozing => (wired.called some dozing).imp_left wake
  · rw [shutdown, supervisor, spawner, stoppers]
    exact fun shut unaware => (wired.aware shut unaware).imp_left wake
  · rw [stoppers, locked]
    exact wired.joins
  · rw [locked, taken]
    exact wired.taken
  · rw [taken, locked, supervisor, spawner]
    exact wired.emptied
  · intro phase member
    rw [stoppers] at member
    exact (wired.honest phase member).mono (shutdown ▸ id) (stop ▸ id) (supervisor ▸ id) (spawner ▸ id)

theorem Wired.spawner (wired : s.Wired) (moves : Spawner.Moves s s') : s'.Wired := by
  obtain ⟨supervisor, processes⟩ := moves.supervisor
  obtain ⟨stoppers, stop, locked, taken⟩ := moves.stops
  have fewer : s'.notices ≤ s.notices := by
    rw [UnixProcessBackend.notices, UnixProcessBackend.notices, stoppers, supervisor]
    exact Nat.add_le_add_right (Nat.add_le_add_right (moves.requests.sublist.count_le _) _) _
  have shutdown (shut : s.shutdown = true) : s'.shutdown = true := by
    rcases moves.shutdown with same | ⟨set, -⟩
    · rw [same, shut]
    · exact set
  constructor
  · rw [stop]
    exact fewer.trans wired.notices
  · rw [stop]
    intro stopped
    rcases wired.told stopped with notice | past
    · rcases moves.told with same | past
      · refine .inl ?_
        rwa [UnixProcessBackend.notices, same, stoppers, supervisor]
      · exact .inr past
    · exact .inr (moves.past past)
  · exact moves.emptied wired.requests
  · rw [supervisor]
    intro gone
    rcases moves.ready with same | ⟨-, accepts, -⟩
    · exact same.trans (wired.ready gone)
    · cases phase : s.supervisor <;> simp_all [Supervisor.gone, Supervisor.receives]
  · rw [supervisor, processes]
    exact wired.processes
  · rw [stop, supervisor]
    exact fun closed => shutdown (wired.closed closed)
  · rw [supervisor]
    intro some dozing
    rcases moves.ready with same | ⟨waking, -⟩
    · rcases wired.called (same ▸ some) dozing with wake | waking
      · exact .inl (moves.wake (.inl wake))
      · exact .inl (moves.wake (.inr (.inl waking)))
    · exact .inr waking
  · rw [supervisor, stoppers]
    intro shut unaware
    rcases moves.shutdown with same | ⟨-, signalling⟩
    · rcases wired.aware (same ▸ shut) unaware with wake | signalling | waking
      · exact .inl (moves.wake (.inl wake))
      · exact .inl (moves.wake (.inr (.inr signalling)))
      · exact .inr (.inr waking)
    · exact .inr (.inl signalling)
  · rw [stoppers, locked]
    exact wired.joins
  · rw [locked, taken]
    exact wired.taken
  · rw [taken, locked, supervisor]
    exact fun took free => (wired.emptied took free).imp_right moves.exited
  · intro phase member
    rw [stoppers] at member
    exact (wired.honest phase member).mono shutdown (stop ▸ id) (supervisor ▸ id) moves.exited

theorem length_requests (s : UnixProcessBackend) :
    s.requests.length = s.requests.count .shutdown + s.queued fun _ => 1 := by
  unfold queued
  induction s.requests with
  | nil => rfl
  | cons message rest ih =>
    cases message <;> simp [ih, Message.held] <;> omega

theorem length_custody (s : UnixProcessBackend) : s.custody.length =
    (s.calling fun _ => 1) + (s.queued fun _ => 1) + s.spawner.held.length + s.ready.length + s.supervisor.held.length := by
  have sum := s.total_custody fun _ => 1
  simpa [total] using sum

theorem Valid.custody_le (valid : s.Valid) : s.custody.length ≤ s.max := by
  have admitted := valid.admitted
  have bounded := valid.bounded
  omega

/-- The one `Shutdown` finds room, whoever sends it. -/
theorem Valid.notice_room (valid : s.Valid) (few : s.notices ≤ 1)
    (sender : 0 < total Stopper.notice s.stoppers + s.supervisor.notice) : s.requests.length ≤ s.max := by
  have length := s.length_requests
  have custody := s.length_custody
  have bounded := valid.custody_le
  unfold notices at few
  omega

/-- A launch that was admitted finds room. -/
theorem Valid.launch_room (valid : s.Valid) (few : s.notices ≤ 1) {caller request : Nat}
    (found : s.callers[caller]? = some (.sending request)) : s.requests.length ≤ s.max := by
  have length := s.length_requests
  have custody := s.length_custody
  have bounded := valid.custody_le
  have own : 1 ≤ s.calling fun _ => 1 :=
    @le_total _ (fun caller : Caller => total (fun _ => 1) caller.held) _ _ (List.mem_of_getElem? found)
  unfold notices at few
  omega

/-- A prepared child finds room. -/
theorem Valid.ready_room (valid : s.Valid) {request : Nat} (found : s.spawner = .handing request) :
    s.ready.length < s.max := by
  have custody := s.length_custody
  have bounded := valid.custody_le
  have own : s.spawner.held.length = 1 := by
    rw [found]
    rfl
  omega

theorem Wired.few (wired : s.Wired) : s.notices ≤ 1 := by
  have notices := wired.notices
  split at notices <;> omega

/-- The one `Shutdown` is on its way, or it was lost with the channel. -/
theorem Supervisor.Moves.notices (moves : Supervisor.Moves s s')
    (room : s.supervisor = .sending → s.requests.length ≤ s.max) :
    s'.notices = s.notices + (if s.supervisor = .swapping ∧ s.spawnStop = false then 1 else 0) ∨
      s'.notices + 1 = s.notices ∧ s.spawner.receives = false := by
  have notice := moves.notice
  unfold UnixProcessBackend.notices
  rw [moves.stops.1, notice]
  by_cases sending : s.supervisor = .sending
  · rw [sending]
    rcases moves.requests with ⟨same, full⟩ | ⟨-, accepts, more⟩
    · refine .inr ⟨?_, ?_⟩
      · rw [same, if_neg (by simp)]
        simp only [Supervisor.notice]
      · cases accepts : s.spawner.receives with
        | false => rfl
        | true => exact absurd (full sending accepts) (Nat.not_le.mpr (Nat.lt_succ_of_le (room sending)))
    · refine .inl ?_
      rw [more, List.count_append, if_neg (by simp)]
      simp only [Supervisor.notice, List.count_singleton_self]
      omega
  · have quiet : s.supervisor.notice = 0 := by
      cases phase : s.supervisor <;> simp_all [Supervisor.notice]
    rcases moves.requests with ⟨same, -⟩ | ⟨sends, -⟩
    · exact .inl (by rw [same, quiet, Nat.add_zero])
    · exact absurd sends sending

theorem Spawner.past_of_receives {phase : Spawner} (closed : phase.receives = false) : phase.past = true := by
  cases phase <;> simp_all [Spawner.receives, Spawner.past]

theorem Wired.supervisor (wired : s.Wired) (valid : s.Valid) (moves : Supervisor.Moves s s') : s'.Wired := by
  obtain ⟨stoppers, locked, taken⟩ := moves.stops
  have spawner := moves.spawner
  have room (sending : s.supervisor = .sending) : s.requests.length ≤ s.max := by
    refine valid.notice_room wired.few ?_
    rw [sending]
    exact Nat.succ_pos _
  have notices := moves.notices room
  have stop := moves.stop
  constructor
  · have few := wired.notices
    rcases notices with more | ⟨less, -⟩
    · rw [more, stop]
      by_cases swaps : s.supervisor = .swapping ∧ s.spawnStop = false
      · simp_all
      · rw [if_neg swaps]
        refine few.trans ?_
        cases s.spawnStop <;> simp
    · refine Nat.le_of_succ_le (less.trans_le (few.trans ?_))
      rw [stop]
      cases s.spawnStop <;> simp
  · intro stopped
    rw [spawner]
    rcases notices with more | ⟨-, closed⟩
    · rw [more]
      by_cases swaps : s.supervisor = .swapping ∧ s.spawnStop = false
      · rw [if_pos swaps]
        exact .inl (Nat.succ_pos _)
      · rw [if_neg swaps]
        refine wired.told ?_
        rw [stop] at stopped
        cases before : s.spawnStop with
        | true => rfl
        | false => exact absurd ⟨by simpa [before] using stopped, before⟩ swaps
    · exact .inr (Spawner.past_of_receives closed)
  · rw [spawner]
    intro gone
    rcases moves.requests with ⟨same, -⟩ | ⟨-, accepts, -⟩
    · exact same.trans (wired.requests gone)
    · cases phase : s.spawner <;> simp_all [Spawner.gone, Spawner.receives]
  · exact moves.emptied wired.ready
  · exact moves.reaped wired.processes
  · rintro (stopped | swaps)
    · rw [stop, Bool.or_eq_true, beq_iff_eq] at stopped
      exact moves.shutdown (wired.closed stopped)
    · exact moves.closed (fun before => wired.closed (.inr before)) swaps
  · rw [spawner]
    intro some dozing
    rcases moves.dozing dozing with none | ⟨before, ready, wake⟩
    · exact absurd none some
    · rw [wake]
      exact wired.called (ready ▸ some) before
  · rw [spawner, stoppers]
    intro shut unaware
    rcases moves.unaware unaware with down | ⟨before, shutdown, wake⟩
    · cases down.symm.trans shut
    · rw [wake]
      exact wired.aware (shutdown ▸ shut) before
  · rw [stoppers, locked]
    exact wired.joins
  · rw [locked, taken]
    exact wired.taken
  · rw [taken, locked, spawner]
    exact fun took free => (wired.emptied took free).imp_left moves.exited
  · intro phase member
    rw [stoppers] at member
    exact (wired.honest phase member).mono moves.shutdown (fun stopped => by simp [stop, stopped]) moves.exited (spawner ▸ id)

/-- What a call of `stop` does to what it shares, in one step. -/
structure Stopper.Moves (s s' : UnixProcessBackend) (before after : Stopper) : Prop where
  threads : s'.spawner = s.spawner ∧ s'.supervisor = s.supervisor ∧ s'.ready = s.ready ∧ s'.processes = s.processes
  requests : s'.requests = s.requests ∨ s.spawner.receives = true ∧ s'.requests = s.requests ++ [.shutdown]
  shutdown : s.shutdown = true → s'.shutdown = true
  stop : s.spawnStop = true → s'.spawnStop = true
  wake : s.wake = true → s'.wake = true
  notices : s'.notices ≤ if s'.spawnStop then 1 else 0
  told : s'.spawnStop = true → 0 < s'.notices ∨ s.spawner.past = true
  closed : s'.spawnStop = true → s'.shutdown = true
  wakes : s'.shutdown = s.shutdown ∧ before.wakes ≤ after.wakes ∨ 0 < after.wakes ∨ s'.wake = true
  joins : (if s'.locked then 1 else 0) + before.joins = (if s.locked then 1 else 0) + after.joins
  taken : s'.locked = true → s'.taken = true
  emptied : s'.taken = true → s'.locked = false → s.supervisor = .exited ∧ s.spawner = .exited
  honest : after.Honest s'

theorem Wired.stopper (wired : s.Wired) {stopper : Nat} {before after : Stopper}
    (found : s.stoppers[stopper]? = some before) (stoppers : s'.stoppers = s.stoppers.set stopper after)
    (moves : Stopper.Moves s s' before after) : s'.Wired := by
  obtain ⟨spawner, supervisor, ready, processes⟩ := moves.threads
  constructor
  · exact moves.notices
  · exact spawner ▸ moves.told
  · rw [spawner]
    intro gone
    rcases moves.requests with same | ⟨accepts, -⟩
    · exact same.trans (wired.requests gone)
    · cases phase : s.spawner <;> simp_all [Spawner.gone, Spawner.receives]
  · exact supervisor ▸ ready ▸ wired.ready
  · exact supervisor ▸ processes ▸ wired.processes
  · rintro (stopped | swaps)
    · exact moves.closed stopped
    · exact moves.shutdown (wired.closed (.inr (supervisor ▸ swaps)))
  · rw [ready, supervisor, spawner]
    exact fun some dozing => (wired.called some dozing).imp_left moves.wake
  · rw [supervisor, spawner]
    intro shut unaware
    have counted := @total_set _ Stopper.wakes _ _ _ found after
    rw [← stoppers] at counted
    rcases moves.wakes with ⟨same, more⟩ | some | wake
    · rcases wired.aware (same ▸ shut) unaware with wake | signalling | waking
      · exact .inl (moves.wake wake)
      · exact .inr (.inl signalling)
      · exact .inr (.inr (by omega))
    · have here := @le_total _ Stopper.wakes _ _ (List.mem_of_getElem? found)
      exact .inr (.inr (by omega))
    · exact .inl wake
  · have counted := @total_set _ Stopper.joins _ _ _ found after
    rw [← stoppers, wired.joins] at counted
    have joins := moves.joins
    omega
  · exact moves.taken
  · rw [supervisor, spawner]
    exact moves.emptied
  · intro phase member
    rw [stoppers] at member
    rcases List.mem_or_eq_of_mem_set member with old | rfl
    · exact (wired.honest phase old).mono moves.shutdown moves.stop (supervisor ▸ id) (spawner ▸ id)
    · exact moves.honest

theorem setStopper_notices {stopper : Nat} {before : Stopper} (found : s.stoppers[stopper]? = some before)
    (after : Stopper) : (s.setStopper stopper after).notices + before.notice = s.notices + after.notice := by
  have counted := @total_set _ Stopper.notice _ _ _ found after
  unfold UnixProcessBackend.notices
  change s.requests.count .shutdown + total Stopper.notice (s.stoppers.set stopper after) + s.supervisor.notice + _ = _
  omega

theorem Wired.stopperStep (wired : s.Wired) (valid : s.Valid) (stopper : Nat) : (s.stopperStep stopper).Wired := by
  unfold UnixProcessBackend.stopperStep
  cases found : s.stoppers[stopper]? with
  | none => exact wired
  | some phase =>
    have member := List.mem_of_getElem? found
    have honest := wired.honest phase member
    have told := wired.told
    have few := wired.notices
    have counted (after : Stopper) := setStopper_notices found after
    cases phase with
    | raising =>
      have same : (s.setStopper stopper .closing).notices = s.notices := counted .closing
      exact wired.stopper found rfl ⟨⟨rfl, rfl, rfl, rfl⟩, .inl rfl, id, id, id, same.trans_le few, fun h => same ▸ told h,
        fun h => wired.closed (.inl h), .inl ⟨rfl, Nat.le_refl _⟩, rfl, wired.taken, wired.emptied, trivial⟩
    | closing =>
      have same : (s.setStopper stopper .swapping).notices = s.notices := counted .swapping
      exact wired.stopper found rfl ⟨⟨rfl, rfl, rfl, rfl⟩, .inl rfl, fun _ => rfl, id, id, same.trans_le few,
        fun h => same ▸ told h, fun _ => rfl, .inr (.inl Nat.one_pos), rfl, wired.taken, wired.emptied, rfl⟩
    | swapping =>
      dsimp only
      split
      · rename_i stopped
        have same : (s.setStopper stopper .waking).notices = s.notices := counted .waking
        refine wired.stopper found rfl ⟨⟨rfl, rfl, rfl, rfl⟩, .inl rfl, id, fun _ => rfl, id, ?_,
          fun _ => same ▸ told stopped, fun _ => honest, .inl ⟨rfl, Nat.le_refl _⟩, rfl, wired.taken, wired.emptied, rfl⟩
        rw [stopped] at few
        exact same.trans_le few
      · rename_i fresh
        have more : (s.setStopper stopper .sending).notices = s.notices + 1 := counted .sending
        refine wired.stopper found rfl ⟨⟨rfl, rfl, rfl, rfl⟩, .inl rfl, id, fun _ => rfl, id, ?_, fun _ => .inl ?_,
          fun _ => honest, .inl ⟨rfl, Nat.le_refl _⟩, rfl, wired.taken, wired.emptied, rfl⟩
        · rw [if_neg fresh] at few
          exact more.trans_le (Nat.succ_le_succ few)
        · exact more.symm ▸ Nat.succ_pos s.notices
    | sending =>
      have less : (s.setStopper stopper .waking).notices + 1 = s.notices := counted .waking
      have sender : 1 ≤ total Stopper.notice s.stoppers := @le_total _ Stopper.notice _ _ member
      have shut : s.shutdown = true := wired.closed (.inl honest)
      dsimp only
      rcases s.request?_cases .shutdown with ⟨sent, accepts⟩ | ⟨full, refused⟩
      · rw [sent, Option.getD_some]
        have same : ({ s with requests := s.requests ++ [Message.shutdown] }.setStopper stopper .waking).notices = s.notices := by
          rw [← less]
          unfold UnixProcessBackend.notices setStopper
          simp only [List.count_append, List.count_singleton_self]
          omega
        exact wired.stopper found rfl ⟨⟨rfl, rfl, rfl, rfl⟩, .inr ⟨accepts, rfl⟩, id, id, id, same.trans_le few,
          fun h => same ▸ told h, fun _ => shut, .inl ⟨rfl, Nat.le_refl _⟩, rfl, wired.taken, wired.emptied, honest⟩
      · rw [full, Option.getD_none]
        have past : s.spawner.past = true := by
          refine Spawner.past_of_receives ?_
          by_contra accepts
          have room := valid.notice_room wired.few (Nat.add_pos_left sender _)
          exact absurd (refused (by simpa using accepts)) (Nat.not_le.mpr (Nat.lt_succ_of_le room))
        exact wired.stopper found rfl ⟨⟨rfl, rfl, rfl, rfl⟩, .inl rfl, id, id, id,
          Nat.le_of_succ_le (less.trans_le few), fun _ => .inr past, fun _ => shut, .inl ⟨rfl, Nat.le_refl _⟩, rfl,
          wired.taken, wired.emptied, honest⟩
    | waking =>
      have same : (s.setStopper stopper .locking).notices = s.notices := counted .locking
      have shut : s.shutdown = true := wired.closed (.inl honest)
      exact wired.stopper found rfl ⟨⟨rfl, rfl, rfl, rfl⟩, .inl rfl, id, id, fun _ => rfl, same.trans_le few,
        fun h => same ▸ told h, fun _ => shut, .inr (.inr rfl), rfl, wired.taken, wired.emptied, honest⟩
    | locking =>
      have shut : s.shutdown = true := wired.closed (.inl honest)
      dsimp only
      split
      · exact wired
      · rename_i free
        split
        · rename_i taken
          have same : (s.setStopper stopper .returned).notices = s.notices := counted .returned
          obtain ⟨supervisor, spawner⟩ := wired.emptied taken (by simpa using free)
          exact wired.stopper found rfl ⟨⟨rfl, rfl, rfl, rfl⟩, .inl rfl, id, id, id, same.trans_le few,
            fun h => same ▸ told h, fun _ => shut, .inl ⟨rfl, Nat.le_refl _⟩, rfl, wired.taken, wired.emptied,
            ⟨honest, supervisor, spawner⟩⟩
        · have same : (s.setStopper stopper .joining).notices = s.notices := counted .joining
          refine wired.stopper found rfl ⟨⟨rfl, rfl, rfl, rfl⟩, .inl rfl, id, id, id, same.trans_le few,
            fun h => same ▸ told h, fun _ => shut, .inl ⟨rfl, Nat.le_refl _⟩, ?_, fun _ => rfl, ?_, honest⟩
          · rw [if_neg free]
            rfl
          · rintro - ⟨⟩
    | joining =>
      have shut : s.shutdown = true := wired.closed (.inl honest)
      dsimp only
      split
      · rename_i exited
        have same : (s.setStopper stopper .joined).notices = s.notices := counted .joined
        exact wired.stopper found rfl ⟨⟨rfl, rfl, rfl, rfl⟩, .inl rfl, id, id, id, same.trans_le few,
          fun h => same ▸ told h, fun _ => shut, .inl ⟨rfl, Nat.le_refl _⟩, rfl, wired.taken, wired.emptied,
          ⟨honest, exited⟩⟩
      · exact wired
    | joined =>
      have shut : s.shutdown = true := wired.closed (.inl honest.1)
      dsimp only
      split
      · rename_i exited
        have same : (s.setStopper stopper .returned).notices = s.notices := counted .returned
        have locked : s.locked = true := by
          have one := @le_total _ Stopper.joins _ _ member
          rw [wired.joins] at one
          by_contra free
          rw [if_neg free] at one
          cases one
        refine wired.stopper found rfl ⟨⟨rfl, rfl, rfl, rfl⟩, .inl rfl, id, id, id, same.trans_le few,
          fun h => same ▸ told h, fun _ => shut, .inl ⟨rfl, Nat.le_refl _⟩, ?_, ?_, fun _ _ => ⟨honest.2, exited⟩,
          ⟨honest.1, honest.2, exited⟩⟩
        · rw [locked]
          rfl
        · rintro ⟨⟩
      · exact wired
    | returned => exact wired

theorem Wired.stop (wired : s.Wired) (immediate : Bool) : (s.stop immediate).Wired := by
  have quiet {measure : Stopper → Nat} (raising : measure .raising = 0) (closing : measure .closing = 0) :
      total measure (s.stop immediate).stoppers = total measure s.stoppers := by
    unfold UnixProcessBackend.stop
    rw [total_append, total_cons, total_nil]
    cases immediate <;> simp [raising, closing]
  have notices : (s.stop immediate).notices = s.notices := by
    unfold UnixProcessBackend.notices
    rw [quiet rfl rfl]
    rfl
  refine ⟨notices ▸ wired.notices, notices ▸ wired.told, wired.requests, wired.ready, wired.processes, wired.closed,
    wired.called, ?_, ?_, wired.taken, wired.emptied, fun phase member => ?_⟩
  · rw [quiet rfl rfl]
    exact wired.aware
  · rw [quiet rfl rfl]
    exact wired.joins
  · rcases List.mem_append.mp member with old | new
    · exact (wired.honest phase old).mono id id id id
    · rw [List.mem_singleton.mp new]
      cases immediate <;> trivial

theorem Wired.step (wired : s.Wired) (valid : s.Valid) (event : Event) : (s.step event).Wired := by
  cases event with
  | spawn limits => exact wired.caller ⟨.inl rfl, id, ⟨rfl, rfl⟩, ⟨rfl, rfl, rfl, rfl⟩, rfl, rfl, rfl⟩
  | call caller => exact wired.caller (s.call_moves caller)
  | spawner launch => exact wired.spawner (s.spawnerStep_moves launch)
  | supervisor outcome => exact wired.supervisor valid (s.supervisorStep_moves outcome)
  | stop immediate => exact wired.stop immediate
  | stopper stopper => exact wired.stopperStep valid stopper

theorem run_wired (events : List Event) (valid : s.Valid) (wired : s.Wired) :
    (s.run events).Valid ∧ (s.run events).Wired := by
  induction events generalizing s with
  | nil => exact ⟨valid, wired⟩
  | cons event rest ih => exact ih (valid.step event) (wired.step valid event)

theorem reached {max : Nat} (made : new max = .ok s) (events : List Event) :
    (s.run events).Valid ∧ (s.run events).Wired :=
  run_wired events (new_valid made) (new_wired made)

end PtyRuntime.UnixProcessBackend
