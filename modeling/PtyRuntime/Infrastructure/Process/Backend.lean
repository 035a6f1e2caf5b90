import PtyRuntime.Domain.Process

/-! The process owner: callers of `spawn` and `shutdown`, the spawner thread that launches,
and the supervisor thread that registers and reaps. Every step is one atomic access, one
use of a channel or of the wake socket, or one call into the system with its answer;
dropping what a channel still holds takes one step for each message. -/
namespace PtyRuntime

namespace UnixProcessBackend

/-- What a launch request is to its spawn call. -/
abbrev Answer := Except ProcessError Unit

/-- A request is told by the place of its spawn call among all of them. -/
inductive Message where
  | launch (request : Nat)
  | shutdown
  deriving DecidableEq, Repr

/-- The reply channel of a request. -/
inductive Reply where
  | empty
  | sent (answer : Answer)
  /-- The sender is gone and nothing was sent. -/
  | dropped
  deriving DecidableEq, Repr

/-- Where a call of `spawn` is. -/
inductive Caller where
  | entering
  | admitting
  | sending (request : Nat)
  | waking
  | waiting
  | returned (answer : Answer)
  deriving DecidableEq, Repr

/-- What the spawner does after it has answered a request. -/
inductive Next where
  | receive
  | wake
  | drain
  deriving DecidableEq, Repr

/-- Where the spawner is. -/
inductive Spawner where
  | receiving
  | received (request : Nat)
  | launching (request : Nat)
  | launched (request : Nat)
  | handing (request : Nat)
  /-- About to drop the request, and the child if there is one. -/
  | rejecting (request : Nat) (error : ProcessError) (next : Next)
  | replying (request : Nat) (error : ProcessError) (next : Next)
  | waking
  | draining
  /-- The channel is closed, and what it still holds is dropped. -/
  | leaving (panicked : Bool)
  | unwinding (request : Nat)
  | raising
  | closing
  | signalling
  | exited
  deriving DecidableEq, Repr

/-- Where the supervisor is; `admitted` counts what this pass took from the channel. -/
inductive Supervisor where
  | taking (admitted : Nat)
  | took (admitted request : Nat)
  | starting (admitted request : Nat)
  | refusing (admitted request : Nat) (error : ProcessError)
  | replying (admitted request : Nat) (error : ProcessError)
  | loading (admitted : Nat)
  /-- In `retain_mut`, `seen` processes having been kept. -/
  | retaining (admitted : Nat) (shutting : Bool) (seen : Nat)
  | polling (hurried shutting : Bool)
  | reading
  | unwinding (request : Option Nat)
  | leaving (panicked : Bool)
  | closing
  | swapping
  | sending
  | exited
  deriving DecidableEq, Repr

/-- Where a call of `stop` is. -/
inductive Stopper where
  | raising
  | closing
  | swapping
  | sending
  | waking
  | locking
  | joining
  | joined
  | returned
  deriving DecidableEq, Repr

end UnixProcessBackend

open UnixProcessBackend in
structure UnixProcessBackend where
  immediate : Bool := false
  shutdown : Bool := false
  spawnStop : Bool := false
  active : Nat := 0
  max : Nat
  /-- A byte is in the wake socket. -/
  wake : Bool := false
  requests : List Message := []
  ready : List Nat := []
  spawner : Spawner := .receiving
  supervisor : Supervisor := .taking 0
  /-- The requests whose processes the supervisor owns. -/
  processes : List Nat := []
  callers : List Caller := []
  replies : List Reply := []
  stoppers : List Stopper := []
  /-- The mutex over the join handles. -/
  locked : Bool := false
  taken : Bool := false
  deriving DecidableEq, Repr

namespace UnixProcessBackend

/-- `new`, its roots, image and threads at hand. -/
def new (max : Nat) : Except ProcessError UnixProcessBackend :=
  if max = 0 || max > 65536 then .error .capacity else .ok { max }

/-- The request channel is open. -/
def Spawner.receives : Spawner → Bool
  | .leaving _ | .raising | .closing | .signalling | .exited => false
  | _ => true

/-- The channel of prepared children is open. -/
def Supervisor.receives : Supervisor → Bool
  | .leaving _ | .closing | .swapping | .sending | .exited => false
  | _ => true

/-- `try_send` on the request channel; `none` drops the message. -/
def request? (s : UnixProcessBackend) (message : Message) : Option UnixProcessBackend :=
  if s.spawner.receives && s.requests.length < s.max + 1 then
    some { s with requests := s.requests ++ [message] }
  else none

/-- `try_send` on the channel of prepared children. -/
def hand? (s : UnixProcessBackend) (request : Nat) : Option UnixProcessBackend :=
  if s.supervisor.receives && s.ready.length < s.max then some { s with ready := s.ready ++ [request] }
  else none

/-- `Drop for Admission`. -/
def release (s : UnixProcessBackend) : UnixProcessBackend := { s with active := s.active - 1 }

def reply (s : UnixProcessBackend) (request : Nat) (reply : Reply) : UnixProcessBackend :=
  { s with replies := s.replies.set request reply }

/-- A request is dropped unanswered. -/
def discard (s : UnixProcessBackend) (request : Nat) : UnixProcessBackend :=
  s.release.reply request .dropped

def setCaller (s : UnixProcessBackend) (caller : Nat) (phase : Caller) : UnixProcessBackend :=
  { s with callers := s.callers.set caller phase }

/-- The next step of a call of `spawn`. -/
def call (s : UnixProcessBackend) (caller : Nat) : UnixProcessBackend :=
  match s.callers[caller]? with
  | some .entering =>
    s.setCaller caller (if s.shutdown then .returned (.error .closed) else .admitting)
  | some .admitting =>
    if s.active < s.max then { s with active := s.active + 1 }.setCaller caller (.sending caller)
    else s.setCaller caller (.returned (.error .capacity))
  | some (.sending request) =>
    match s.request? (.launch request) with
    | some s => s.setCaller caller .waking
    | none => (s.discard request).setCaller caller (.returned (.error .closed))
  | some .waking => { s with wake := true }.setCaller caller .waiting
  | some .waiting =>
    match s.replies[caller]? with
    | some (.sent answer) => s.setCaller caller (.returned answer)
    | some .dropped =>
      s.setCaller caller (.returned (.error (if s.shutdown then .closed else .internal)))
    | _ => s
  | _ => s

/-- A call of `spawn` that passes the validation of its limits. -/
def spawn (s : UnixProcessBackend) (limits : ProcessLimits) : UnixProcessBackend :=
  { s with
    callers := s.callers ++ [match limits.validate with
      | .ok _ => .entering
      | .error error => .returned (.error error)]
    replies := s.replies ++ [.empty] }

/-- What `spawn::launch` comes to. -/
inductive Launch where
  | launched
  | failed (error : ProcessError)
  | panicked
  deriving DecidableEq, Repr

def Next.phase : Next → Spawner
  | .receive => .receiving
  | .wake => .waking
  | .drain => .draining

/-- The next step of the spawner. -/
def spawnerStep (s : UnixProcessBackend) (launch : Launch) : UnixProcessBackend :=
  match s.spawner with
  | .receiving =>
    match s.requests with
    | .launch request :: rest => { s with requests := rest, spawner := .received request }
    | .shutdown :: rest => { s with requests := rest, spawner := .draining }
    | [] => s
  | .received request =>
    { s with spawner := if s.shutdown then .rejecting request .closed .receive else .launching request }
  | .launching request =>
    { s with spawner := match launch with
      | .launched => .launched request
      | .failed error => .rejecting request error .receive
      | .panicked => .unwinding request }
  | .launched request =>
    { s with spawner := if s.shutdown then .rejecting request .closed .receive else .handing request }
  | .handing request =>
    match s.hand? request with
    | some s => { s with spawner := .waking }
    | none => { s with spawner := .rejecting request .closed .wake }
  | .rejecting request error next => { s.release with spawner := .replying request error next }
  | .replying request error next => { s.reply request (.sent (.error error)) with spawner := next.phase }
  | .waking => { s with wake := true, spawner := .receiving }
  | .draining =>
    match s.requests with
    | .launch request :: rest => { s with requests := rest, spawner := .rejecting request .closed .drain }
    | .shutdown :: rest => { s with requests := rest }
    | [] => { s with spawner := .leaving false }
  | .leaving panicked =>
    match s.requests with
    | .launch request :: rest => { s.discard request with requests := rest }
    | .shutdown :: rest => { s with requests := rest }
    | [] => { s with spawner := if panicked then .raising else .exited }
  | .unwinding request => { s.discard request with spawner := .leaving true }
  | .raising => { s with immediate := true, spawner := .closing }
  | .closing => { s with shutdown := true, spawner := .signalling }
  | .signalling => { s with wake := true, spawner := .exited }
  | .exited => s

/-- What the system answers the supervisor. -/
structure Outcome where
  /-- `registration::start`. -/
  started : Answer := .ok ()
  /-- The process at hand is complete and its reader done. -/
  complete : Bool := false
  /-- `poll` returns with no byte in the wake socket: a deadline, a descriptor, a signal. -/
  woken : Bool := false
  /-- `poll` fails. -/
  failed : Bool := false
  panicked : Bool := false
  deriving DecidableEq, Repr

/-- The next step of the supervisor. -/
def supervisorStep (s : UnixProcessBackend) (outcome : Outcome) : UnixProcessBackend :=
  match s.supervisor with
  | .taking admitted =>
    if admitted = 8 then { s with supervisor := .loading admitted }
    else
      match s.ready with
      | request :: rest => { s with ready := rest, supervisor := .took admitted request }
      | [] => { s with supervisor := .loading admitted }
  | .took admitted request =>
    { s with supervisor :=
      if s.shutdown then .refusing admitted request .closed else .starting admitted request }
  | .starting admitted request =>
    if outcome.panicked then { s with supervisor := .unwinding (some request) }
    else
      match outcome.started with
      | .ok _ =>
        { s.reply request (.sent (.ok ())) with
          processes := s.processes ++ [request], supervisor := .taking (admitted + 1) }
      | .error error => { s with supervisor := .refusing admitted request error }
  | .refusing admitted request error => { s.release with supervisor := .replying admitted request error }
  | .replying admitted request error =>
    { s.reply request (.sent (.error error)) with supervisor := .taking (admitted + 1) }
  | .loading admitted =>
    if outcome.panicked then { s with supervisor := .unwinding none }
    else { s with supervisor := .retaining admitted s.shutdown 0 }
  | .retaining admitted shutting seen =>
    if seen < s.processes.length then
      if outcome.complete then { s.release with processes := s.processes.eraseIdx seen }
      else { s with supervisor := .retaining admitted shutting (seen + 1) }
    else if shutting && s.processes.isEmpty then { s with supervisor := .leaving false }
    else { s with supervisor := .polling (admitted = 8) shutting }
  | .polling hurried _ =>
    if s.wake || hurried || outcome.woken || outcome.failed then
      { s with shutdown := s.shutdown || outcome.failed, supervisor := .reading }
    else s
  | .reading => { s with wake := false, supervisor := if outcome.panicked then .unwinding none else .taking 0 }
  | .unwinding (some request) => { s.discard request with supervisor := .unwinding none }
  | .unwinding none =>
    match s.processes with
    | _ :: rest => { s.release with processes := rest }
    | [] => { s with supervisor := .leaving true }
  | .leaving panicked =>
    match s.ready with
    | request :: rest => { s.discard request with ready := rest }
    | [] => { s with supervisor := if panicked then .closing else .exited }
  | .closing => { s with shutdown := true, supervisor := .swapping }
  | .swapping => { s with spawnStop := true, supervisor := if s.spawnStop then .exited else .sending }
  | .sending => { (s.request? .shutdown).getD s with supervisor := .exited }
  | .exited => s

def setStopper (s : UnixProcessBackend) (stopper : Nat) (phase : Stopper) : UnixProcessBackend :=
  { s with stoppers := s.stoppers.set stopper phase }

/-- A call of `stop`. -/
def stop (s : UnixProcessBackend) (immediate : Bool) : UnixProcessBackend :=
  { s with stoppers := s.stoppers ++ [if immediate then .raising else .closing] }

/-- The next step of a call of `stop`. -/
def stopperStep (s : UnixProcessBackend) (stopper : Nat) : UnixProcessBackend :=
  match s.stoppers[stopper]? with
  | some .raising => { s with immediate := true }.setStopper stopper .closing
  | some .closing => { s with shutdown := true }.setStopper stopper .swapping
  | some .swapping =>
    { s with spawnStop := true }.setStopper stopper (if s.spawnStop then .waking else .sending)
  | some .sending => ((s.request? .shutdown).getD s).setStopper stopper .waking
  | some .waking => { s with wake := true }.setStopper stopper .locking
  | some .locking =>
    if s.locked then s
    else if s.taken then s.setStopper stopper .returned
    else { s with locked := true, taken := true }.setStopper stopper .joining
  | some .joining => if s.supervisor = .exited then s.setStopper stopper .joined else s
  | some .joined =>
    if s.spawner = .exited then { s with locked := false }.setStopper stopper .returned else s
  | _ => s

inductive Event where
  | spawn (limits : ProcessLimits)
  | call (caller : Nat)
  | spawner (launch : Launch)
  | supervisor (outcome : Outcome)
  | stop (immediate : Bool)
  | stopper (stopper : Nat)

def step (s : UnixProcessBackend) : Event → UnixProcessBackend
  | .spawn limits => s.spawn limits
  | .call caller => s.call caller
  | .spawner launch => s.spawnerStep launch
  | .supervisor outcome => s.supervisorStep outcome
  | .stop immediate => s.stop immediate
  | .stopper stopper => s.stopperStep stopper

def run (s : UnixProcessBackend) (events : List Event) : UnixProcessBackend :=
  events.foldl step s

end UnixProcessBackend
end PtyRuntime
