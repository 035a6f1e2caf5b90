import PtyRuntime.Infrastructure.Process.BackendRuns
import PtyRuntime.Interleaving.Liveness

/-! The way of one request through the process owner: what the threads still have to do for
it, and that each step of the thread it is with brings it nearer to its answer. -/
namespace PtyRuntime.UnixProcessBackend
open Tally Liveness

variable {s s' : UnixProcessBackend} {c : Nat}

/-- Who takes a step. -/
inductive Agent where
  | call (caller : Nat)
  | spawner
  | supervisor
  | stopper (stopper : Nat)

def Event.agent : Event → Option Agent
  | .spawn _ | .stop _ => none
  | .call caller => some (.call caller)
  | .spawner _ => some .spawner
  | .supervisor _ => some .supervisor
  | .stopper index => some (.stopper index)

/-- What the next step of somebody waits for. -/
def Enabled (s : UnixProcessBackend) : Agent → Prop
  | .call caller => ∃ phase, s.callers[caller]? = some phase ∧ (∀ answer, phase ≠ .returned answer) ∧
      (phase = .waiting → s.replies[caller]? ≠ some .empty)
  | .spawner => s.spawner ≠ .exited ∧ (s.spawner = .receiving → s.requests ≠ [])
  | .supervisor => s.supervisor ≠ .exited ∧ ∀ shutting, s.supervisor = .polling false shutting → s.wake = true
  | .stopper stopper => ∃ phase, s.stoppers[stopper]? = some phase ∧ phase ≠ .returned ∧
      (phase = .locking → s.locked = false) ∧ (phase = .joining → s.supervisor = .exited) ∧
      (phase = .joined → s.spawner = .exited)

/-- A fair schedule: whoever can go on is scheduled in the end. -/
abbrev Fair (s : UnixProcessBackend) (schedule : Nat → Event) : Prop :=
  WeaklyFair Event.agent Enabled (states step s schedule) schedule

theorem states_reached {max : Nat} (made : new max = .ok s) (schedule : Nat → Event) (n : Nat) :
    (states step s schedule n).Valid ∧ (states step s schedule n).Wired := by
  induction n with
  | zero => exact ⟨new_valid made, new_wired made⟩
  | succ n ih => exact ⟨ih.1.step _, ih.2.step ih.1 _⟩

/-- Steps the spawner still takes over the request in its hand. -/
def Spawner.hand : Spawner → Nat
  | .received _ => 7
  | .launching _ => 6
  | .launched _ => 5
  | .handing _ => 4
  | .rejecting _ _ _ => 3
  | .replying _ _ _ => 2
  | .waking | .unwinding _ => 1
  | _ => 0

def Supervisor.hand : Supervisor → Nat
  | .took _ _ => 4
  | .starting _ _ => 3
  | .refusing _ _ _ => 2
  | .replying _ _ _ | .unwinding (some _) => 1
  | _ => 0

/-- More than the supervisor ever needs before it takes the next child. -/
def round (s : UnixProcessBackend) : Nat := 2 * s.max + 12

/-- Steps of the supervisor until it takes the next child, or drops it. -/
def turn (s : UnixProcessBackend) : Nat :=
  match s.supervisor with
  | .taking admitted => if admitted = 8 then 2 * s.max + 7 else 0
  | .took _ _ => 2 * s.max + 11
  | .starting _ _ => 2 * s.max + 10
  | .refusing _ _ _ => 2 * s.max + 9
  | .replying _ _ _ => 2 * s.max + 8
  | .loading _ => 2 * s.max + 6
  | .retaining _ _ seen => s.max + 5 + (s.processes.length - seen)
  | .polling _ _ => if s.wake then s.max + 3 else s.max + 4
  | .reading | .unwinding (some _) => s.max + 2
  | .unwinding none => s.processes.length + 1
  | _ => 0

inductive Place where
  | supervisor
  | ready
  /-- In the hand of the spawner or in its channel. -/
  | spawner
  deriving DecidableEq

/-- Where the request of a call is once it has been sent. -/
def place (s : UnixProcessBackend) (c : Nat) : Place :=
  if c ∈ s.supervisor.held ++ s.supervisor.owed then .supervisor
  else if c ∈ s.ready then .ready
  else .spawner

/-- What the spawner still has to do for a request in its channel or its hand. -/
def side (phase : Spawner) (requests : List Message) (c : Nat) : Nat :=
  if c ∈ phase.held ++ phase.owed then phase.hand else 8 + 9 * requests.idxOf (.launch c) + phase.hand

/-- What the threads still have to do before the request is answered. -/
def service (s : UnixProcessBackend) (c : Nat) : Nat :=
  if s.replies[c]? = some .empty then
    match s.place c with
    | .supervisor => s.supervisor.hand
    | .ready => 5 + s.ready.idxOf c * s.round + s.turn
    | .spawner => s.max * s.round + 5 + side s.spawner s.requests c
  else 0

/-- In `poll` with no time limit of its own. -/
def Supervisor.asleep : Supervisor → Bool
  | .polling hurried _ => !hurried
  | _ => false

/-- Whose step brings the request nearer to its answer. -/
def server (s : UnixProcessBackend) (c : Nat) : Agent :=
  match s.place c with
  | .supervisor => .supervisor
  | .ready => if s.supervisor.asleep && !s.wake then .spawner else .supervisor
  | .spawner => .spawner

theorem turn_lt (valid : s.Valid) : s.turn < s.round := by
  have few : s.processes.length ≤ s.max := by
    have admitted := valid.admitted
    have bounded := valid.bounded
    omega
  unfold turn round
  split
  all_goals try split
  all_goals omega

/-- The request is on the side of the spawner. -/
structure Behind (s : UnixProcessBackend) (c : Nat) : Prop where
  supervisor : c ∉ s.supervisor.held ++ s.supervisor.owed
  ready : c ∉ s.ready

theorem behind_iff : s.Behind c ↔ s.place c = .spawner := by
  unfold place
  constructor
  · intro behind
    rw [if_neg behind.supervisor, if_neg behind.ready]
  · intro here
    constructor
    · intro member
      rw [if_pos member] at here
      cases here
    · intro member
      rw [if_pos member] at here
      split at here <;> cases here

theorem place_cases (s : UnixProcessBackend) (c : Nat) :
    (c ∈ s.supervisor.held ++ s.supervisor.owed ∧ s.place c = .supervisor) ∨
      (c ∉ s.supervisor.held ++ s.supervisor.owed ∧ c ∈ s.ready ∧ s.place c = .ready) ∨
      (s.Behind c ∧ s.place c = .spawner) := by
  by_cases held : c ∈ s.supervisor.held ++ s.supervisor.owed
  · exact .inl ⟨held, if_pos held⟩
  · by_cases member : c ∈ s.ready
    · exact .inr (.inl ⟨held, member, (if_neg held).trans (if_pos member)⟩)
    · exact .inr (.inr ⟨⟨held, member⟩, behind_iff.mp ⟨held, member⟩⟩)

theorem Behind.service (behind : s.Behind c) (empty : s.replies[c]? = some .empty) :
    s.service c = s.max * s.round + 5 + side s.spawner s.requests c := by
  unfold UnixProcessBackend.service
  rw [if_pos empty, behind_iff.mp behind]

theorem service_ready (other : c ∉ s.supervisor.held ++ s.supervisor.owed) (member : c ∈ s.ready)
    (empty : s.replies[c]? = some .empty) : s.service c = 5 + s.ready.idxOf c * s.round + s.turn := by
  unfold service place
  rw [if_pos empty, if_neg other, if_pos member]

theorem service_supervisor (held : c ∈ s.supervisor.held ++ s.supervisor.owed)
    (empty : s.replies[c]? = some .empty) : s.service c = s.supervisor.hand := by
  unfold service place
  rw [if_pos empty, if_pos held]

theorem service_pos (empty : s.replies[c]? = some .empty) : 0 < s.service c := by
  by_cases held : c ∈ s.supervisor.held ++ s.supervisor.owed
  · rw [service_supervisor held empty]
    cases phase : s.supervisor with
    | unwinding request =>
      cases request with
      | none => simp [phase, Supervisor.held, Supervisor.owed] at held
      | some request => exact Nat.one_pos
    | took | starting | refusing | replying => exact Nat.succ_pos _
    | _ => simp [phase, Supervisor.held, Supervisor.owed] at held
  · unfold service place
    rw [if_pos empty, if_neg held]
    split <;> rename_i here
    · split at here <;> cases here
    all_goals omega

theorem service_answered (answered : s.replies[c]? ≠ some .empty) : s.service c = 0 := if_neg answered

/-- Every step of the spawner brings what it has in its hand or its channel nearer. -/
theorem spawnerStep_nearer (valid : s.Valid) (wired : s.Wired) (behind : s.Behind c) (empty : s.replies[c]? = some .empty)
    (queued : c ∈ s.spawner.held ++ s.spawner.owed ∨ .launch c ∈ s.requests) (launch : Launch) :
    (s.spawnerStep launch).service c < s.service c := by
  rw [behind.service empty]
  obtain ⟨bound, same⟩ : ∃ bound, bound = side s.spawner s.requests c := ⟨_, rfl⟩
  rw [← same]
  have answered (t : UnixProcessBackend) {reply : Reply} (replies : t.replies = s.replies.set c reply)
      (settled : reply ≠ .empty) : t.service c < s.max * s.round + 5 + bound := by
    refine (service_answered ?_).trans_lt (Nat.add_pos_left (Nat.succ_pos _) bound)
    rw [replies, List.getElem?_set_self (List.getElem?_eq_some_iff.mp empty).1]
    simpa using settled
  -- On this side, and not answered: the spawner has less to do.
  have still (t : UnixProcessBackend) (frame : t.supervisor = s.supervisor ∧ c ∉ t.ready ∧ t.max = s.max)
      (less : side t.spawner t.requests c < bound) : t.service c < s.max * s.round + 5 + bound := by
    by_cases waits : t.replies[c]? = some .empty
    · have same : t.Behind c := ⟨by rw [frame.1]; exact behind.supervisor, frame.2.1⟩
      rw [same.service waits, round, round, frame.2.2]
      omega
    · exact (service_answered waits).trans_lt (Nat.add_pos_left (Nat.succ_pos _) bound)
  unfold spawnerStep
  cases phase : s.spawner with
  | receiving | draining =>
    simp only [phase, Spawner.held, Spawner.owed, List.append_nil, List.not_mem_nil, false_or] at queued
    dsimp only
    split
    · rename_i request rest front
      refine still _ ⟨rfl, behind.ready, rfl⟩ ?_
      by_cases own : request = c
      · simp [same, side, phase, front, own, Spawner.held, Spawner.owed, Spawner.hand]
      · simp [same, side, phase, front, own, Ne.symm own, Spawner.held, Spawner.owed, Spawner.hand]
        omega
    · rename_i rest front
      refine still _ ⟨rfl, behind.ready, rfl⟩ ?_
      simp [same, side, phase, front, Spawner.held, Spawner.owed, Spawner.hand]
    · rename_i front
      simp [front] at queued
  | received request | launched request =>
    refine still _ ⟨rfl, behind.ready, rfl⟩ ?_
    dsimp only
    split
    all_goals
      by_cases own : request = c
      all_goals simp [same, side, phase, own, Ne.symm, Spawner.held, Spawner.owed, Spawner.hand]
  | launching request =>
    refine still _ ⟨rfl, behind.ready, rfl⟩ ?_
    dsimp only
    by_cases own : request = c
    all_goals cases launch <;> simp [same, side, phase, own, Ne.symm, Spawner.held, Spawner.owed, Spawner.hand]
  | handing request =>
    dsimp only
    rcases s.hand?_cases request with ⟨handed, -⟩ | ⟨full, -⟩
    · rw [handed]
      by_cases own : request = c
      · subst own
        have room := valid.ready_room phase
        have turn := turn_lt valid
        have rounds : s.ready.length * s.round + s.round ≤ s.max * s.round := by
          rw [← Nat.succ_mul]
          exact Nat.mul_le_mul_right _ room
        have last : (s.ready ++ [request]).idxOf request = s.ready.length := by
          rw [List.idxOf_append_of_notMem behind.ready, List.idxOf_cons_self, Nat.add_zero]
        have there : service { s with ready := s.ready ++ [request], spawner := .waking } request =
            5 + s.ready.length * s.round + s.turn := by
          rw [← last]
          exact @service_ready { s with ready := s.ready ++ [request], spawner := .waking } _ behind.supervisor
            (by simp) empty
        refine there.trans_lt ?_
        omega
      · refine still _ ⟨rfl, ?_, rfl⟩ ?_
        · simpa [Ne.symm own] using behind.ready
        · simp [same, side, phase, Ne.symm own, Spawner.held, Spawner.owed, Spawner.hand]
    · rw [full]
      refine still _ ⟨rfl, behind.ready, rfl⟩ ?_
      by_cases own : request = c
      all_goals simp [same, side, phase, own, Ne.symm, Spawner.held, Spawner.owed, Spawner.hand]
  | rejecting request error next =>
    refine still _ ⟨rfl, behind.ready, rfl⟩ ?_
    by_cases own : request = c
    all_goals simp [same, side, phase, own, Ne.symm, release, Spawner.held, Spawner.owed, Spawner.hand]
  | replying request error next =>
    by_cases own : request = c
    · exact answered _ (congrArg (fun r => s.replies.set r _) own) (by simp)
    · refine still _ ⟨rfl, behind.ready, rfl⟩ ?_
      cases next <;>
        simp [same, side, phase, Ne.symm own, reply, Next.phase, Spawner.held, Spawner.owed, Spawner.hand]
  | waking =>
    refine still _ ⟨rfl, behind.ready, rfl⟩ ?_
    simp [same, side, phase, Spawner.held, Spawner.owed, Spawner.hand]
  | leaving panicked =>
    simp only [phase, Spawner.held, Spawner.owed, List.append_nil, List.not_mem_nil, false_or] at queued
    dsimp only
    split
    · rename_i request rest front
      by_cases own : request = c
      · exact answered _ (congrArg (fun r => s.replies.set r _) own) (by simp)
      · refine still _ ⟨rfl, behind.ready, rfl⟩ ?_
        simp [same, side, phase, front, own, discard, release, reply, Spawner.held, Spawner.owed, Spawner.hand]
    · rename_i rest front
      refine still _ ⟨rfl, behind.ready, rfl⟩ ?_
      simp [same, side, phase, front, Spawner.held, Spawner.owed, Spawner.hand]
    · rename_i front
      simp [front] at queued
  | unwinding request =>
    by_cases own : request = c
    · exact answered _ (congrArg (fun r => s.replies.set r _) own) (by simp)
    · refine still _ ⟨rfl, behind.ready, rfl⟩ ?_
      simp [same, side, phase, Ne.symm own, discard, release, reply, Spawner.held, Spawner.owed, Spawner.hand]
  | raising | closing | signalling | exited =>
    have none := wired.requests (by rw [phase]; rfl)
    simp [phase, none, Spawner.held, Spawner.owed] at queued

/-- A request in the hand of the supervisor comes nearer with each of its steps. -/
theorem supervisorStep_held (empty : s.replies[c]? = some .empty)
    (held : c ∈ s.supervisor.held ++ s.supervisor.owed) (outcome : Outcome) :
    (s.supervisorStep outcome).service c < s.service c := by
  rw [service_supervisor held empty]
  obtain ⟨bound, same⟩ : ∃ bound, bound = s.supervisor.hand := ⟨_, rfl⟩
  rw [← same]
  have still (t : UnixProcessBackend) (hand : c ∈ t.supervisor.held ++ t.supervisor.owed)
      (less : t.supervisor.hand < bound) : t.service c < bound := by
    by_cases waits : t.replies[c]? = some .empty
    · rw [service_supervisor hand waits]
      exact less
    · rw [service_answered waits]
      exact Nat.zero_lt_of_lt less
  have answered (t : UnixProcessBackend) {reply : Reply} (replies : t.replies = s.replies.set c reply)
      (settled : reply ≠ .empty) (more : 0 < bound) : t.service c < bound := by
    refine (service_answered ?_).trans_lt more
    rw [replies, List.getElem?_set_self (List.getElem?_eq_some_iff.mp empty).1]
    simpa using settled
  unfold supervisorStep
  cases phase : s.supervisor with
  | took admitted request =>
    obtain rfl : c = request := by simpa [phase, Supervisor.held, Supervisor.owed] using held
    dsimp only
    split <;> refine still _ (by simp [Supervisor.held]) (by simp [same, phase, Supervisor.hand])
  | starting admitted request =>
    obtain rfl : c = request := by simpa [phase, Supervisor.held, Supervisor.owed] using held
    dsimp only
    split
    · exact still _ (by simp [Supervisor.held]) (by simp [same, phase, Supervisor.hand])
    · split
      · exact answered _ rfl (by simp) (by simp [same, phase, Supervisor.hand])
      · exact still _ (by simp [Supervisor.held]) (by simp [same, phase, Supervisor.hand])
  | refusing admitted request error =>
    obtain rfl : c = request := by simpa [phase, Supervisor.held, Supervisor.owed] using held
    exact still _ (by simp [Supervisor.held, Supervisor.owed]) (by simp [same, phase, Supervisor.hand])
  | replying admitted request error =>
    obtain rfl : c = request := by simpa [phase, Supervisor.held, Supervisor.owed] using held
    exact answered _ rfl (by simp) (by simp [same, phase, Supervisor.hand])
  | unwinding request =>
    cases request with
    | none => simp [phase, Supervisor.held, Supervisor.owed] at held
    | some request =>
      obtain rfl : c = request := by simpa [phase, Supervisor.held, Supervisor.owed] using held
      exact answered _ rfl (by simp) (by simp [same, phase, Supervisor.hand])
  | _ => simp [phase, Supervisor.held, Supervisor.owed] at held

/-- Every step of the supervisor brings it nearer to a child in its channel, unless it
sleeps and is not woken. -/
theorem supervisorStep_ready (valid : s.Valid) (wired : s.Wired) (empty : s.replies[c]? = some .empty)
    (other : c ∉ s.supervisor.held ++ s.supervisor.owed) (member : c ∈ s.ready) (outcome : Outcome) :
    (s.supervisorStep outcome).service c < s.service c ∨
      s.supervisor.asleep = true ∧ s.wake = false ∧ s.supervisorStep outcome = s := by
  rw [service_ready other member empty]
  have few : s.processes.length ≤ s.max := by
    have admitted := valid.admitted
    have bounded := valid.bounded
    omega
  obtain ⟨bound, same⟩ : ∃ bound, bound = s.turn := ⟨_, rfl⟩
  rw [← same]
  have answered (t : UnixProcessBackend) (replies : t.replies[c]? ≠ some .empty) :
      t.service c < 5 + s.ready.idxOf c * s.round + bound := by
    rw [service_answered replies]
    omega
  have still (t : UnixProcessBackend) (hand : t.supervisor.held ++ t.supervisor.owed ⊆ s.supervisor.held ++ s.supervisor.owed)
      (ready : t.ready = s.ready) (max : t.max = s.max) (less : t.turn < bound) :
      t.service c < 5 + s.ready.idxOf c * s.round + bound := by
    by_cases waits : t.replies[c]? = some .empty
    · rw [service_ready (fun held => other (hand held)) (ready ▸ member) waits, ready, round, round, max]
      omega
    · exact answered t waits
  unfold supervisorStep
  cases phase : s.supervisor with
  | taking admitted =>
    dsimp only
    split
    · rename_i eight
      refine .inl (still _ (by simp [Supervisor.held, Supervisor.owed]) rfl rfl ?_)
      simp [same, turn, phase, eight]
    · rename_i fewer
      split
      · rename_i request rest front
        refine .inl ?_
        rw [front]
        by_cases own : request = c
        · subst own
          by_cases waits : s.replies[request]? = some .empty
          · refine (@service_supervisor { s with ready := rest, supervisor := .took admitted request } _ ?_ waits).trans_lt ?_
            · exact List.mem_cons_self
            · simp [Supervisor.hand]
              omega
          · exact absurd empty waits
        · have later : c ∈ rest := by
            rw [front] at member
            exact (List.mem_cons.mp member).resolve_left (Ne.symm own)
          refine (@service_ready { s with ready := rest, supervisor := .took admitted request } _ ?_ later empty).trans_lt ?_
          · simpa [Supervisor.held, Supervisor.owed] using Ne.symm own
          · rw [List.idxOf_cons_ne _ own, Nat.succ_mul]
            simp [turn, round]
            omega
      · rename_i front
        simp [front] at member
  | loading admitted =>
    dsimp only
    refine .inl ?_
    split
    · refine still _ (by simp [Supervisor.held, Supervisor.owed]) rfl rfl ?_
      simp only [same, turn, phase]
      omega
    · refine still _ (by simp [Supervisor.held, Supervisor.owed]) rfl rfl ?_
      simp only [same, turn, phase]
      omega
  | took admitted request =>
    refine .inl (still _ ?_ rfl rfl ?_)
    · dsimp only
      split <;> simp [phase, Supervisor.held, Supervisor.owed]
    · dsimp only
      split <;> simp [same, turn, phase]
  | starting admitted request =>
    dsimp only
    refine .inl ?_
    split
    · refine still _ (by simp [phase, Supervisor.held, Supervisor.owed]) rfl rfl ?_
      simp [same, turn, phase]
      omega
    · split
      · refine still _ (by simp [Supervisor.held, Supervisor.owed]) rfl rfl ?_
        simp only [same, turn, phase, reply]
        split <;> omega
      · refine still _ (by simp [phase, Supervisor.held, Supervisor.owed]) rfl rfl ?_
        simp [same, turn, phase]
  | refusing admitted request error =>
    refine .inl (still _ (by simp [phase, Supervisor.held, Supervisor.owed]) rfl rfl ?_)
    simp [same, turn, phase, release]
  | replying admitted request error =>
    refine .inl (still _ (by simp [Supervisor.held, Supervisor.owed]) rfl rfl ?_)
    simp only [same, turn, phase, reply]
    split <;> omega
  | retaining admitted shutting seen =>
    dsimp only
    refine .inl ?_
    split
    · rename_i within
      split
      · refine still _ (by simp [phase, release, Supervisor.held, Supervisor.owed]) rfl rfl ?_
        simp only [same, turn, phase, release, List.length_eraseIdx_of_lt within]
        omega
      · refine still _ (by simp [Supervisor.held, Supervisor.owed]) rfl rfl ?_
        simp only [same, turn, phase]
        omega
    · split
      · refine still _ (by simp [Supervisor.held, Supervisor.owed]) rfl rfl ?_
        simp only [same, turn, phase]
        omega
      · refine still _ (by simp [Supervisor.held, Supervisor.owed]) rfl rfl ?_
        simp only [same, turn, phase]
        split <;> omega
  | polling hurried shutting =>
    dsimp only
    split
    · refine .inl (still _ (by simp [Supervisor.held, Supervisor.owed]) rfl rfl ?_)
      simp only [same, turn, phase]
      split <;> omega
    · rename_i quiet
      refine .inr ⟨?_, ?_, rfl⟩
      all_goals simp_all [Supervisor.asleep]
  | reading =>
    refine .inl (still _ ?_ rfl rfl ?_)
    · dsimp only
      split <;> simp [Supervisor.held, Supervisor.owed]
    · dsimp only
      split
      · simp only [same, turn, phase]
        omega
      · simp [same, turn, phase]
  | unwinding request =>
    refine .inl ?_
    cases request with
    | none =>
      dsimp only
      split
      · rename_i front
        refine still _ (by simp [phase, release, Supervisor.held, Supervisor.owed]) rfl rfl ?_
        simp [same, turn, phase, release, front]
      · refine still _ (by simp [Supervisor.held, Supervisor.owed]) rfl rfl ?_
        simp [same, turn, phase]
    | some request =>
      refine still _ (by simp [Supervisor.held, Supervisor.owed]) rfl rfl ?_
      simp only [same, turn, phase, discard, release, reply]
      omega
  | leaving panicked =>
    dsimp only
    refine .inl ?_
    split
    · rename_i request rest front
      rw [front] at member ⊢
      by_cases own : request = c
      · refine (service_answered ?_).trans_lt (by omega)
        subst own
        simp [discard, reply, release, List.getElem?_set_self (List.getElem?_eq_some_iff.mp empty).1]
      · have later : c ∈ rest := (List.mem_cons.mp member).resolve_left (Ne.symm own)
        have waits : (s.replies.set request .dropped)[c]? = some .empty := (List.getElem?_set_ne own).trans empty
        refine (@service_ready { s.discard request with ready := rest } _ other later waits).trans_lt ?_
        rw [List.idxOf_cons_ne _ own, Nat.succ_mul]
        simp [turn, round, phase, discard, reply, release]
        omega
    · rename_i front
      simp [front] at member
  | closing | swapping | sending | exited =>
    have none := wired.ready (by rw [phase]; rfl)
    simp [none] at member

end PtyRuntime.UnixProcessBackend
