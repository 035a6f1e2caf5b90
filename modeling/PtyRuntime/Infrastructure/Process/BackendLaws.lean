import PtyRuntime.Infrastructure.Process.Backend
import PtyRuntime.Tally

/-! Requests of the process owner: where each one is, whether its admission is still
counted, and whether it has been answered. Every step moves at most one of them. -/
namespace PtyRuntime.UnixProcessBackend
open Tally

variable {s s' : UnixProcessBackend} {measure : Nat → Nat}

namespace Caller

def held : Caller → List Nat
  | .sending request => [request]
  | _ => []

/-- The call is admitted and has not returned. -/
def out : Caller → Bool
  | .sending _ | .waking | .waiting => true
  | _ => false

end Caller

def Message.held : Message → List Nat
  | .launch request => [request]
  | .shutdown => []

namespace Spawner

/-- The request in its hand with the admission. -/
def held : Spawner → List Nat
  | .received request | .launching request | .launched request | .handing request
  | .rejecting request _ _ | .unwinding request => [request]
  | _ => []

/-- The request to be answered, the admission of which is gone. -/
def owed : Spawner → List Nat
  | .replying request _ _ => [request]
  | _ => []

@[simp] theorem held_phase (next : Next) : next.phase.held = [] := by cases next <;> rfl
@[simp] theorem owed_phase (next : Next) : next.phase.owed = [] := by cases next <;> rfl

end Spawner

namespace Supervisor

def held : Supervisor → List Nat
  | .took _ request | .starting _ request | .refusing _ request _ | .unwinding (some request) => [request]
  | _ => []

def owed : Supervisor → List Nat
  | .replying _ request _ => [request]
  | _ => []

end Supervisor

/-- The admitted requests that no process stands for yet. -/
def custody (s : UnixProcessBackend) : List Nat :=
  s.callers.flatMap Caller.held ++ (s.requests.flatMap Message.held ++ (s.spawner.held ++ (s.ready ++ s.supervisor.held)))

def owed (s : UnixProcessBackend) : List Nat := s.spawner.owed ++ s.supervisor.owed

def calling (s : UnixProcessBackend) (measure : Nat → Nat) : Nat :=
  total (fun caller => total measure caller.held) s.callers

def queued (s : UnixProcessBackend) (measure : Nat → Nat) : Nat :=
  total (fun message => total measure message.held) s.requests

theorem total_custody (s : UnixProcessBackend) (measure : Nat → Nat) :
    total measure s.custody = s.calling measure + s.queued measure + total measure s.spawner.held +
      total measure s.ready + total measure s.supervisor.held := by
  simp only [custody, calling, queued, total_append, total_flatMap]
  omega

theorem total_owed (s : UnixProcessBackend) (measure : Nat → Nat) :
    total measure s.owed = total measure s.spawner.owed + total measure s.supervisor.owed :=
  total_append _ _

theorem request?_cases (s : UnixProcessBackend) (message : Message) :
    (s.request? message = some { s with requests := s.requests ++ [message] } ∧ s.spawner.receives = true) ∨
      (s.request? message = none ∧ (s.spawner.receives = true → s.max + 1 ≤ s.requests.length)) := by
  unfold request?
  split
  · rename_i room
    exact .inl ⟨rfl, (Bool.and_eq_true_iff.mp room).1⟩
  · rename_i full
    refine .inr ⟨rfl, fun receives => ?_⟩
    simpa [receives] using full

theorem hand?_cases (s : UnixProcessBackend) (request : Nat) :
    (s.hand? request = some { s with ready := s.ready ++ [request] } ∧ s.supervisor.receives = true) ∨
      (s.hand? request = none ∧ (s.supervisor.receives = true → s.max ≤ s.ready.length)) := by
  unfold hand?
  split
  · rename_i room
    exact .inl ⟨rfl, (Bool.and_eq_true_iff.mp room).1⟩
  · rename_i full
    refine .inr ⟨rfl, fun receives => ?_⟩
    simpa [receives] using full

/-- What becomes of the requests and their answers in a step. -/
inductive Change (s s' : UnixProcessBackend) : Prop where
  | idle (custody : ∀ m, total m s'.custody = total m s.custody)
      (owed : ∀ m, total m s'.owed = total m s.owed) (active : s'.active = s.active)
      (replies : s'.replies = s.replies) (processes : s'.processes = s.processes)
  | frees (request : Nat) (custody : ∀ m, total m s'.custody + m request = total m s.custody)
      (owed : ∀ m, total m s'.owed = total m s.owed + m request) (active : s'.active = s.active - 1)
      (replies : s'.replies = s.replies) (processes : s'.processes = s.processes)
  | rejects (request : Nat) (error : ProcessError) (custody : ∀ m, total m s'.custody = total m s.custody)
      (owed : ∀ m, total m s'.owed + m request = total m s.owed) (active : s'.active = s.active)
      (replies : s'.replies = s.replies.set request (.sent (.error error)))
      (processes : s'.processes = s.processes)
  | registers (request : Nat) (custody : ∀ m, total m s'.custody + m request = total m s.custody)
      (owed : ∀ m, total m s'.owed = total m s.owed) (active : s'.active = s.active)
      (replies : s'.replies = s.replies.set request (.sent (.ok ())))
      (processes : s'.processes = s.processes ++ [request])
  | discards (request : Nat) (custody : ∀ m, total m s'.custody + m request = total m s.custody)
      (owed : ∀ m, total m s'.owed = total m s.owed) (active : s'.active = s.active - 1)
      (replies : s'.replies = s.replies.set request .dropped) (processes : s'.processes = s.processes)
  | retires (index request : Nat) (found : s.processes[index]? = some request)
      (custody : ∀ m, total m s'.custody = total m s.custody)
      (owed : ∀ m, total m s'.owed = total m s.owed) (active : s'.active = s.active - 1)
      (replies : s'.replies = s.replies) (processes : s'.processes = s.processes.eraseIdx index)

theorem Change.still (custody : s'.custody = s.custody) (owed : s'.owed = s.owed) (active : s'.active = s.active)
    (replies : s'.replies = s.replies) (processes : s'.processes = s.processes) : Change s s' :=
  .idle (fun m => congrArg (total m) custody) (fun m => congrArg (total m) owed) active replies processes

/-- The spawner goes on, and keeps what it holds and owes. -/
theorem Change.spawned {before after : Spawner} {immediate shutdown wake : Bool} (phase : s.spawner = before)
    (held : after.held = before.held) (owed : after.owed = before.owed) :
    Change s { s with immediate, shutdown, wake, spawner := after } := by
  refine .still ?_ ?_ rfl rfl rfl
  · simp only [custody, phase, held]
  · simp only [UnixProcessBackend.owed, phase, owed]

/-- So does the supervisor. -/
theorem Change.supervised {before after : Supervisor} {shutdown spawnStop wake : Bool} (phase : s.supervisor = before)
    (held : after.held = before.held) (owed : after.owed = before.owed) :
    Change s { s with shutdown, spawnStop, wake, supervisor := after } := by
  refine .still ?_ ?_ rfl rfl rfl
  · simp only [custody, phase, held]
  · simp only [UnixProcessBackend.owed, phase, owed]

theorem spawnerStep_change (s : UnixProcessBackend) (launch : Launch) : Change s (s.spawnerStep launch) := by
  have same : Change s s := .still rfl rfl rfl rfl rfl
  unfold spawnerStep
  cases phase : s.spawner with
  | receiving =>
    dsimp only
    split
    on_goal 3 => exact same
    all_goals
      rename_i front
      refine .idle (fun m => ?_) (fun m => ?_) rfl rfl rfl
    all_goals simp [total_custody, total_owed, calling, queued, phase, front, Spawner.held, Spawner.owed, Message.held]
    omega
  | draining =>
    dsimp only
    split
    all_goals
      rename_i front
      refine .idle (fun m => ?_) (fun m => ?_) rfl rfl rfl
    all_goals simp [total_custody, total_owed, calling, queued, phase, front, Spawner.held, Spawner.owed, Message.held]
    omega
  | received request | launched request =>
    dsimp only
    split
    all_goals exact .spawned phase rfl rfl
  | launching request =>
    cases launch with
    | launched | failed error | panicked => exact .spawned phase rfl rfl
  | handing request =>
    dsimp only
    rcases s.hand?_cases request with ⟨handed, -⟩ | ⟨full, -⟩
    · rw [handed]
      refine .idle (fun m => ?_) (fun m => ?_) rfl rfl rfl
      all_goals simp [total_custody, total_owed, calling, queued, phase, Spawner.held, Spawner.owed]
      omega
    · rw [full]
      exact .spawned phase rfl rfl
  | rejecting request error next =>
    refine .frees request (fun m => ?_) (fun m => ?_) rfl rfl rfl
    all_goals simp [total_custody, total_owed, calling, queued, release, phase, Spawner.held, Spawner.owed]
    all_goals omega
  | replying request error next =>
    refine .rejects request error (fun m => ?_) (fun m => ?_) rfl rfl rfl
    · simp only [total_custody, calling, queued, reply, phase, Spawner.held_phase]
      rfl
    · simp only [total_owed, reply, phase, Spawner.owed_phase]
      simp only [Spawner.owed, total_cons, total_nil]
      omega
  | leaving panicked =>
    dsimp only
    split
    · rename_i request rest front
      refine .discards request (fun m => ?_) (fun m => ?_) rfl rfl rfl
      all_goals simp [total_custody, total_owed, calling, queued, discard, release, reply, phase, front, Message.held]
      omega
    · rename_i rest front
      refine .idle (fun m => ?_) (fun m => ?_) rfl rfl rfl
      all_goals simp [total_custody, total_owed, calling, queued, phase, front, Message.held]
    · split
      all_goals exact .spawned phase rfl rfl
  | unwinding request =>
    refine .discards request (fun m => ?_) (fun m => ?_) rfl rfl rfl
    all_goals simp [total_custody, total_owed, calling, queued, discard, release, reply, phase, Spawner.held, Spawner.owed]
    omega
  | waking | raising | closing | signalling => exact .spawned phase rfl rfl
  | exited => exact same

theorem supervisorStep_change (s : UnixProcessBackend) (outcome : Outcome) :
    Change s (s.supervisorStep outcome) := by
  have same : Change s s := .still rfl rfl rfl rfl rfl
  unfold supervisorStep
  cases phase : s.supervisor with
  | taking admitted =>
    dsimp only
    split
    · exact .supervised phase rfl rfl
    · split
      · rename_i request rest front
        refine .idle (fun m => ?_) (fun m => ?_) rfl rfl rfl
        all_goals simp [total_custody, total_owed, calling, queued, phase, front, Supervisor.held, Supervisor.owed]
        omega
      · exact .supervised phase rfl rfl
  | took admitted request =>
    dsimp only
    split
    all_goals exact .supervised phase rfl rfl
  | starting admitted request =>
    dsimp only
    split
    · exact .supervised phase rfl rfl
    · split
      · refine .registers request (fun m => ?_) (fun m => ?_) rfl rfl rfl
        all_goals simp [total_custody, total_owed, calling, queued, reply, phase, Supervisor.held, Supervisor.owed]
      · exact .supervised phase rfl rfl
  | refusing admitted request error =>
    refine .frees request (fun m => ?_) (fun m => ?_) rfl rfl rfl
    all_goals simp [total_custody, total_owed, calling, queued, release, phase, Supervisor.held, Supervisor.owed]
  | replying admitted request error =>
    refine .rejects request error (fun m => ?_) (fun m => ?_) rfl rfl rfl
    all_goals simp [total_custody, total_owed, calling, queued, reply, phase, Supervisor.held, Supervisor.owed]
  | loading admitted =>
    dsimp only
    split
    all_goals exact .supervised phase rfl rfl
  | retaining admitted shutting seen =>
    dsimp only
    split
    · rename_i within
      split
      · refine .retires seen (s.processes[seen]) (List.getElem?_eq_getElem within) (fun _ => ?_) (fun _ => rfl) rfl rfl rfl
        simp only [total_custody, calling, queued, release]
      · exact .supervised phase rfl rfl
    · split
      all_goals exact .supervised phase rfl rfl
  | polling hurried shutting =>
    dsimp only
    split
    · exact .supervised phase rfl rfl
    · exact same
  | reading =>
    dsimp only
    split
    all_goals exact .supervised phase rfl rfl
  | unwinding held =>
    cases held with
    | none =>
      dsimp only
      split
      · rename_i request rest front
        refine .retires 0 request (by rw [front]; rfl) (fun _ => ?_) (fun _ => rfl) rfl rfl (by rw [front]; rfl)
        simp only [total_custody, calling, queued, release]
      · exact .supervised phase rfl rfl
    | some request =>
      refine .discards request (fun m => ?_) (fun m => ?_) rfl rfl rfl
      all_goals simp [total_custody, total_owed, calling, queued, discard, release, reply, phase, Supervisor.held, Supervisor.owed]
  | leaving panicked =>
    dsimp only
    split
    · rename_i request rest front
      refine .discards request (fun m => ?_) (fun m => ?_) rfl rfl rfl
      all_goals simp [total_custody, total_owed, calling, queued, discard, release, reply, phase, front]
      omega
    · split
      all_goals exact .supervised phase rfl rfl
  | closing => exact .supervised phase rfl rfl
  | swapping =>
    dsimp only
    split
    all_goals exact .supervised phase rfl rfl
  | sending =>
    dsimp only
    rcases s.request?_cases .shutdown with ⟨sent, -⟩ | ⟨full, -⟩
    · rw [sent]
      refine .idle (fun m => ?_) (fun m => ?_) rfl rfl rfl
      all_goals simp [total_custody, total_owed, calling, queued, phase, Message.held, Supervisor.held, Supervisor.owed]
    · rw [full]
      exact .supervised phase rfl rfl
  | exited => exact same

/-- The call is out, and nothing has come back for it. -/
def Awaits (s : UnixProcessBackend) (request : Nat) : Prop :=
  (∃ phase, s.callers[request]? = some phase ∧ phase.out = true) ∧ s.replies[request]? = some .empty

/-- What every step keeps of the requests. -/
structure Valid (s : UnixProcessBackend) : Prop where
  admitted : s.active = s.custody.length + s.processes.length
  bounded : s.active ≤ s.max
  paired : s.replies.length = s.callers.length
  named : ∀ {caller request : Nat}, s.callers[caller]? = some (.sending request) → request = caller
  early : ∀ {caller : Nat}, s.callers[caller]? = some .entering ∨ s.callers[caller]? = some .admitting →
    s.replies[caller]? = some .empty
  once : ∀ request, s.custody.count request + s.owed.count request ≤ 1
  placed : ∀ request, 0 < s.custody.count request + s.owed.count request ↔ s.Awaits request
  alive : ∀ request, s.processes.count request ≤ 1
  registered : ∀ {request : Nat}, request ∈ s.processes → s.replies[request]? = some (.sent (.ok ()))
  told : ∀ {caller : Nat} {answer : Answer}, s.callers[caller]? = some (.returned answer) →
    s.replies[caller]? = some (.sent answer) ∨
      (∃ error, answer = .error error) ∧ (s.replies[caller]? = some .empty ∨ s.replies[caller]? = some .dropped)

theorem new_valid {max : Nat} (made : new max = .ok s) : s.Valid := by
  unfold new at made
  split at made
  · cases made
  · cases made
    constructor <;> simp [custody, UnixProcessBackend.owed, Spawner.held, Spawner.owed, Supervisor.held,
      Supervisor.owed, Awaits]

theorem length_moved {before after : List Nat} {request : Nat}
    (moved : ∀ m, total m after + m request = total m before) : after.length + 1 = before.length := by
  simpa [total] using moved fun _ => 1

theorem length_kept {before after : List Nat} (kept : ∀ m, total m after = total m before) :
    after.length = before.length := by
  simpa [total] using kept fun _ => 1

theorem count_total (items : List Nat) (request : Nat) :
    items.count request = total (fun item => if item = request then 1 else 0) items := by
  induction items with
  | nil => rfl
  | cons item rest ih => simp [List.count_cons, ih, Nat.add_comm]

theorem count_moved {before after : List Nat} {request : Nat}
    (moved : ∀ m, total m after + m request = total m before) (other : Nat) :
    after.count other + (if request = other then 1 else 0) = before.count other := by
  rw [count_total, count_total]
  exact moved _

theorem count_kept {before after : List Nat} (kept : ∀ m, total m after = total m before) (other : Nat) :
    after.count other = before.count other := by
  rw [count_total, count_total]
  exact kept _

/-- A request that is answered was awaited, and is not any more. -/
theorem Valid.settles (valid : s.Valid) {request : Nat} {reply : Reply} (callers : s'.callers = s.callers)
    (replies : s'.replies = s.replies.set request reply) (settled : reply ≠ .empty)
    (moved : ∀ other, s'.custody.count other + s'.owed.count other + (if request = other then 1 else 0) =
      s.custody.count other + s.owed.count other) :
    s.Awaits request ∧ (∀ other, s'.custody.count other + s'.owed.count other ≤ 1) ∧
      ∀ other, 0 < s'.custody.count other + s'.owed.count other ↔ s'.Awaits other := by
  have awaited : s.Awaits request := by
    refine (valid.placed request).mp ?_
    have here := moved request
    rw [if_pos rfl] at here
    omega
  refine ⟨awaited, fun other => ?_, fun other => ?_⟩
  · have here := moved other
    have once := valid.once other
    omega
  · have here := moved other
    by_cases same : request = other
    · subst same
      have once := valid.once request
      rw [if_pos rfl] at here
      refine ⟨fun more => by omega, fun awaits => ?_⟩
      have found := awaits.2
      rw [replies, List.getElem?_set_self (List.getElem?_eq_some_iff.mp awaited.2).1] at found
      exact absurd (Option.some.inj found) settled
    · rw [if_neg same, Nat.add_zero] at here
      rw [here, valid.placed other, Awaits, Awaits, callers, replies, List.getElem?_set_ne same]

theorem Change.admitted (change : Change s s') (valid : s.Valid) :
    s'.active = s'.custody.length + s'.processes.length ∧ s'.active ≤ s.active := by
  have counted := valid.admitted
  cases change with
  | idle custody owed active replies processes =>
    have length := length_kept custody
    rw [active, processes]
    omega
  | frees request custody owed active replies processes =>
    have length := length_moved custody
    rw [active, processes]
    omega
  | rejects request error custody owed active replies processes =>
    have length := length_kept custody
    rw [active, processes]
    omega
  | registers request custody owed active replies processes =>
    have length := length_moved custody
    rw [active, processes, List.length_append, List.length_singleton]
    omega
  | discards request custody owed active replies processes =>
    have length := length_moved custody
    rw [active, processes]
    omega
  | retires index request found custody owed active replies processes =>
    have length := length_kept custody
    obtain ⟨within, -⟩ := List.getElem?_eq_some_iff.mp found
    rw [active, processes, List.length_eraseIdx_of_lt within]
    omega

theorem Awaits.congr (callers : s'.callers = s.callers) (replies : s'.replies = s.replies) (request : Nat) :
    s'.Awaits request ↔ s.Awaits request := by
  rw [Awaits, Awaits, callers, replies]

theorem Change.placed (change : Change s s') (callers : s'.callers = s.callers) (valid : s.Valid) :
    (∀ other, s'.custody.count other + s'.owed.count other ≤ 1) ∧
      ∀ other, 0 < s'.custody.count other + s'.owed.count other ↔ s'.Awaits other := by
  have still (replies : s'.replies = s.replies)
      (sums : ∀ other, s'.custody.count other + s'.owed.count other = s.custody.count other + s.owed.count other) :
      (∀ other, s'.custody.count other + s'.owed.count other ≤ 1) ∧
        ∀ other, 0 < s'.custody.count other + s'.owed.count other ↔ s'.Awaits other := by
    refine ⟨fun other => ?_, fun other => ?_⟩
    · rw [sums]
      exact valid.once other
    · rw [sums, Awaits.congr callers replies]
      exact valid.placed other
  cases change with
  | idle custody owed active replies processes =>
    exact still replies fun other => by rw [count_kept custody, count_kept owed]
  | frees request custody owed active replies processes =>
    refine still replies fun other => ?_
    have moved := count_moved custody other
    have back := count_moved (fun m => (owed m).symm) other
    omega
  | rejects request error custody owed active replies processes =>
    refine (valid.settles callers replies (by simp) fun other => ?_).2
    rw [count_kept custody, Nat.add_assoc, count_moved owed]
  | registers request custody owed active replies processes =>
    refine (valid.settles callers replies (by simp) fun other => ?_).2
    have moved := count_moved custody other
    rw [count_kept owed]
    omega
  | discards request custody owed active replies processes =>
    refine (valid.settles callers replies (by simp) fun other => ?_).2
    have moved := count_moved custody other
    rw [count_kept owed]
    omega
  | retires index request found custody owed active replies processes =>
    exact still replies fun other => by rw [count_kept custody, count_kept owed]

/-- What an answer leaves alone: calls that wait for nothing, and processes. -/
theorem Valid.beside (valid : s.Valid) {request : Nat} {reply : Reply} (awaited : s.Awaits request)
    (replies : s'.replies = s.replies.set request reply) :
    (∀ {caller : Nat} {phase}, s.callers[caller]? = some phase → phase.out = false →
      s'.replies[caller]? = s.replies[caller]?) ∧
      request ∉ s.processes ∧ ∀ {other : Nat}, other ∈ s.processes → s'.replies[other]? = some (.sent (.ok ())) := by
  obtain ⟨⟨phase, found, out⟩, empty⟩ := awaited
  have gone : request ∉ s.processes := by
    intro member
    cases empty.symm.trans (valid.registered member)
  refine ⟨fun {caller other} here inside => ?_, gone, fun {other} member => ?_⟩
  · have differs : request ≠ caller := by
      rintro rfl
      obtain rfl := Option.some.inj (found.symm.trans here)
      cases out.symm.trans inside
    rw [replies, List.getElem?_set_ne differs]
  · have differs : request ≠ other := fun same => gone (same ▸ member)
    rw [replies, List.getElem?_set_ne differs]
    exact valid.registered member

theorem Change.valid (change : Change s s') (callers : s'.callers = s.callers) (max : s'.max = s.max)
    (valid : s.Valid) : s'.Valid := by
  obtain ⟨admitted, fewer⟩ := change.admitted valid
  obtain ⟨once, placed⟩ := change.placed callers valid
  have bounded : s'.active ≤ s'.max := max ▸ fewer.trans valid.bounded
  have named : ∀ {caller request : Nat}, s'.callers[caller]? = some (.sending request) → request = caller :=
    fun found => valid.named (callers ▸ found)
  have settled {request : Nat} {reply : Reply} (awaited : s.Awaits request)
      (replies : s'.replies = s.replies.set request reply) (alive : ∀ request, s'.processes.count request ≤ 1)
      (registered : ∀ {request : Nat}, request ∈ s'.processes → s'.replies[request]? = some (.sent (.ok ()))) :
      s'.Valid := by
    obtain ⟨others, -, -⟩ := valid.beside awaited replies
    refine ⟨admitted, bounded, ?_, named, ?_, once, placed, alive, registered, ?_⟩
    · rw [replies, callers, List.length_set]
      exact valid.paired
    · intro caller waits
      rw [callers] at waits
      rcases waits with found | found
      all_goals
        rw [others found rfl]
      · exact valid.early (.inl found)
      · exact valid.early (.inr found)
    · intro caller answer found
      rw [callers] at found
      rw [others found rfl]
      exact valid.told found
  have still (replies : s'.replies = s.replies) (processes : s'.processes.Sublist s.processes) : s'.Valid := by
    refine ⟨admitted, bounded, ?_, named, ?_, once, placed, fun other => ?_, fun member => ?_, ?_⟩
    · rw [replies, callers]
      exact valid.paired
    · rw [replies, callers]
      exact valid.early
    · exact (processes.count_le other).trans (valid.alive other)
    · rw [replies]
      exact valid.registered (processes.subset member)
    · rw [replies, callers]
      exact valid.told
  cases change with
  | idle custody owed active replies processes => exact still replies (processes ▸ List.Sublist.refl _)
  | frees request custody owed active replies processes => exact still replies (processes ▸ List.Sublist.refl _)
  | retires index request found custody owed active replies processes =>
    exact still replies (processes ▸ List.eraseIdx_sublist _ _)
  | rejects request error custody owed active replies processes =>
    have awaited := (valid.settles callers replies (by simp) fun other => by
      rw [count_kept custody, Nat.add_assoc, count_moved owed]).1
    obtain ⟨-, -, registered⟩ := valid.beside awaited replies
    refine settled awaited replies (processes ▸ valid.alive) fun member => registered (processes ▸ member)
  | discards request custody owed active replies processes =>
    have awaited := (valid.settles callers replies (by simp) fun other => by
      rw [count_kept owed, Nat.add_right_comm, count_moved custody]).1
    obtain ⟨-, -, registered⟩ := valid.beside awaited replies
    refine settled awaited replies (processes ▸ valid.alive) fun member => registered (processes ▸ member)
  | registers request custody owed active replies processes =>
    have awaited := (valid.settles callers replies (by simp) fun other => by
      rw [count_kept owed, Nat.add_right_comm, count_moved custody]).1
    obtain ⟨-, gone, registered⟩ := valid.beside awaited replies
    refine settled awaited replies (fun other => ?_) fun {other} member => ?_
    · rw [processes, List.count_append, List.count_singleton]
      have alive := valid.alive other
      split
      · rename_i same
        rw [← eq_of_beq same, List.count_eq_zero.mpr gone]
      · exact alive
    · rw [processes] at member
      rcases List.mem_append.mp member with before | new
      · exact registered before
      · rw [replies, List.mem_singleton.mp new, List.getElem?_set_self (List.getElem?_eq_some_iff.mp awaited.2).1]

end PtyRuntime.UnixProcessBackend
