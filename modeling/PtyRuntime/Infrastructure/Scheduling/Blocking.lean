import PtyRuntime.Infrastructure.Scheduling.Pool

/-! The executor of finite blocking calls: a queue behind a mutex, one condition variable
for its workers, and the joining of the workers, which has a mutex and a condition
variable of its own. Every step is one hold of a mutex, the run of one job, or one thread
found finished; a thread asleep on a condition variable may also wake for no reason. -/
namespace PtyRuntime

namespace BoundedBlockingExecutor

/-- The place of a job in the order of acceptance. -/
abbrev Job := Nat

/-- Where a worker is in `run`. -/
inductive Worker where
  | looking
  | waiting
  | running (job : Job)
  | finishing
  | exited
  deriving DecidableEq, Repr

/-- Where a thread that called `shutdown` is in `Workers::join`. -/
inductive Caller where
  | entering
  | waiting
  | joining (handles : List Nat)
  | returned
  deriving DecidableEq, Repr

end BoundedBlockingExecutor

open BoundedBlockingExecutor in
structure BoundedBlockingExecutor where
  jobs : List Job
  active : Nat
  closed : Bool
  maxJobs : Nat
  workers : List Worker
  /-- The join handles that no thread has taken. -/
  handles : List Nat
  joining : Bool
  callers : List Caller
  /-- How many jobs have been accepted. No decision reads it. -/
  accepted : Nat
  /-- The jobs that have returned or panicked. No decision reads it. -/
  finished : List Job
  deriving DecidableEq, Repr

namespace BoundedBlockingExecutor

/-- `reserved` is whether the queue's capacity can be allocated, and `spawned` how many
threads can be created; the ones already created are stopped and joined if that is too few. -/
def new (maxJobs workers : Nat) (reserved : Bool) (spawned : Nat) :
    Except SchedulingError BoundedBlockingExecutor :=
  if maxJobs = 0 || workers = 0 || workers > 64 then .error .capacity
  else if !reserved then .error .capacity
  else if spawned < workers then .error .failed
  else .ok {
    jobs := []
    active := 0
    closed := false
    maxJobs
    workers := List.replicate workers .looking
    handles := List.range workers
    joining := false
    callers := []
    accepted := 0
    finished := [] }

def setWorker (s : BoundedBlockingExecutor) (worker : Nat) (phase : Worker) : BoundedBlockingExecutor :=
  { s with workers := s.workers.set worker phase }

def setCaller (s : BoundedBlockingExecutor) (caller : Nat) (phase : Caller) : BoundedBlockingExecutor :=
  { s with callers := s.callers.set caller phase }

def Worker.woken : Worker → Worker
  | .waiting => .looking
  | worker => worker

def Caller.woken : Caller → Caller
  | .waiting => .entering
  | caller => caller

/-- `notify_one` wakes some worker that is asleep, `choice` if that one is. -/
def notifyOne (s : BoundedBlockingExecutor) (choice : Nat) : BoundedBlockingExecutor :=
  if s.workers[choice]? = some .waiting then s.setWorker choice .looking
  else
    match s.workers.findIdx? (· = .waiting) with
    | some worker => s.setWorker worker .looking
    | none => s

def notifyAll (s : BoundedBlockingExecutor) : BoundedBlockingExecutor :=
  { s with workers := s.workers.map Worker.woken }

def submit (s : BoundedBlockingExecutor) (choice : Nat) :
    Except SchedulingError Unit × BoundedBlockingExecutor :=
  if s.closed then (.error .closed, s)
  else if s.jobs.length + s.active ≥ s.maxJobs then (.error .capacity, s)
  else (.ok (), { s with jobs := s.jobs ++ [s.accepted], accepted := s.accepted + 1 }.notifyOne choice)

/-- The first half of `shutdown`; all of it when a job calls it, since `Workers::join` sends
a worker's own thread back at once. -/
def close (s : BoundedBlockingExecutor) : BoundedBlockingExecutor :=
  { s with closed := true }.notifyAll

/-- A thread of the outside calls `shutdown`, and goes on to join the workers. -/
def shutdown (s : BoundedBlockingExecutor) : BoundedBlockingExecutor :=
  { s.close with callers := s.callers ++ [.entering] }

/-- One pass of the inner loop of `run`. -/
def look (s : BoundedBlockingExecutor) (worker : Nat) : BoundedBlockingExecutor :=
  match s.jobs with
  | job :: rest => { s with jobs := rest, active := s.active + 1 }.setWorker worker (.running job)
  | [] => s.setWorker worker (if s.closed then .exited else .waiting)

/-- `catch_unwind` makes nothing of how the job ended. -/
def ran (s : BoundedBlockingExecutor) (worker : Nat) (job : Job) : BoundedBlockingExecutor :=
  { s with finished := s.finished ++ [job] }.setWorker worker .finishing

/-- The end of the outer loop of `run`. -/
def complete (s : BoundedBlockingExecutor) (worker : Nat) : BoundedBlockingExecutor :=
  { s with active := s.active - 1 }.notifyAll.setWorker worker .looking

/-- The next step of a worker; one that is asleep or has exited takes none. -/
def work (s : BoundedBlockingExecutor) (worker : Nat) : BoundedBlockingExecutor :=
  match s.workers[worker]? with
  | some .looking => s.look worker
  | some (.running job) => s.ran worker job
  | some .finishing => s.complete worker
  | _ => s

/-- The next step of a thread in `Workers::join`; it waits for a worker that has not exited. -/
def join (s : BoundedBlockingExecutor) (caller : Nat) : BoundedBlockingExecutor :=
  match s.callers[caller]? with
  | some .entering =>
    if s.joining then s.setCaller caller .waiting
    else { s with joining := true, handles := [] }.setCaller caller (.joining s.handles)
  | some (.joining (worker :: rest)) =>
    if s.workers[worker]? = some .exited then s.setCaller caller (.joining rest) else s
  | some (.joining []) =>
    { s with joining := false, callers := s.callers.map Caller.woken }.setCaller caller .returned
  | _ => s

inductive Event where
  | submit (choice : Nat)
  | close
  | shutdown
  | work (worker : Nat)
  | join (caller : Nat)
  /-- A worker or a caller that is asleep wakes for no reason. -/
  | stir (worker : Nat)
  | stirCaller (caller : Nat)
  deriving DecidableEq, Repr

def stir (s : BoundedBlockingExecutor) (worker : Nat) : BoundedBlockingExecutor :=
  if s.workers[worker]? = some .waiting then s.setWorker worker .looking else s

def stirCaller (s : BoundedBlockingExecutor) (caller : Nat) : BoundedBlockingExecutor :=
  if s.callers[caller]? = some .waiting then s.setCaller caller .entering else s

def step (s : BoundedBlockingExecutor) : Event → BoundedBlockingExecutor
  | .submit choice => (s.submit choice).2
  | .close => s.close
  | .shutdown => s.shutdown
  | .work worker => s.work worker
  | .join caller => s.join caller
  | .stir worker => s.stir worker
  | .stirCaller caller => s.stirCaller caller

def run (s : BoundedBlockingExecutor) (events : List Event) : BoundedBlockingExecutor :=
  events.foldl step s

end BoundedBlockingExecutor
end PtyRuntime
