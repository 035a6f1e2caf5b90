import PtyRuntime.Infrastructure.Process.GuardianRuns
import PtyRuntime.Infrastructure.Process.SessionLaws
import PtyRuntime.Infrastructure.Process.ReaderLaws

/-! One process of the supervisor, from its registration until it is dropped. The supervisor
goes over it pass by pass, its reader runs beside it, and clients write, resize and cancel.
Every step is one access to what these share, or stays within what the supervisor owns; the
clock and the system answer in the step's argument. -/
namespace PtyRuntime

namespace Guardian

/-- One turn of the loop of `admit`, with the answers of its service and with whether its
deadline is over; without a result the loop goes on. -/
def Owner.turn (o : Owner) (answers : Answers) (late : Bool) : Option (Except ProcessError Unit) × Owner :=
  let o := o.step (.service answers)
  match o.guardian.startError with
  | some error => (some (.error error), o)
  | none =>
    if o.guardian.fault then (some (.error .internal), o)
    else if o.guardian.admitted then (some (.ok ()), o)
    else if !o.guardian.executionGranted && (List.finRange 2).all fun index => (o.guardian.hello index).isSome then
      (none, o.step .grantExecution)
    else if late then (some (.error .timeout), o)
    else (none, o)

/-- The loop of `admit`; without a result it is still running. -/
def Owner.admit (o : Owner) : List (Answers × Bool) → Option (Except ProcessError Unit) × Owner
  | [] => (none, o)
  | (answers, late) :: turns =>
    let next := o.turn answers late
    if next.1.isSome then next else Owner.admit next.2 turns

end Guardian

namespace OwnedProcess
open Guardian (Kind)

/-- `code` and `signal` of a raw wait status. -/
def exitStatus (status : Int32) : Option ExitStatus :=
  if Guardian.wifexited status then some (.code (status.toUInt32 >>> 8 &&& 0xff).toNat)
  else if Guardian.wifsignaled status then some (.signal (status.toUInt32 &&& 0x7f).toNat)
  else none

/-- What the application is told. -/
inductive Report where
  | exited (status : ExitStatus)
  | supervisionFailed (error : ProcessError)
  deriving DecidableEq, Repr

/-- What was done to the process, in the order in which it was done. -/
inductive Act where
  /-- A pass begins: whether it shuts down, at once, and whether the reader has failed. -/
  | began (now : Nat) (shutting immediate failed : Bool)
  | ordered (now : Nat) (kind : Kind)
  | recorded (now : Nat) (status : ExitStatus)
  | lost
  /-- The reader is told to stop. -/
  | stopped
  | reported (report : Report)
  /-- A client's request to cancel is stored. -/
  | cancelled
  /-- The supervisor drops the process. -/
  | released
  deriving DecidableEq, Repr

/-- What comes after a failure was reported: the rest of `reap`, of a turn that polled or of
the registration. -/
inductive After where
  | fault (polled : Bool)
  | done (polled : Bool)
  deriving DecidableEq, Repr

/-- What comes after the inputs are finished. -/
inductive Next where
  | exit (status : ExitStatus) (polled : Bool)
  | loss (after : After)
  | drop
  deriving DecidableEq, Repr

/-- Where the supervisor is with the process. -/
inductive Phase where
  | waiting
  | cancelling (now : Nat) (shutting : Bool)
  | resizing (now : Nat) (shutting alive : Bool)
  | stopping (now : Nat) (shutting : Bool)
  | releasing (now : Nat) (shutting : Bool)
  | retaining
  | polling
  | reaping (polled : Bool)
  | noting (status : ExitStatus) (polled : Bool)
  | closing (next : Next)
  | finishing (next : Next)
  | exiting (status : ExitStatus) (polled : Bool)
  | faulting (polled : Bool)
  | halting (after : After)
  | failing (after : After)
  | writing
  | dropping
  | joining
  | cleaning
  | dropped
  deriving DecidableEq, Repr

def After.phase : After → Phase
  | .fault polled => .faulting polled
  | .done true => .writing
  | .done false => .waiting

def Next.reason : Next → ProcessError
  | .exit _ _ | .drop => .closed
  | .loss _ => .internal

def Next.phase : Next → Phase
  | .exit status polled => .exiting status polled
  | .loss after => .halting after
  | .drop => .joining

/-- Where a call of `request_cancel` is. The mutex between its loads of `closed` guards a
measurement only. -/
inductive Cancel where
  | entering
  | rechecking
  | storing
  | returned (answer : Except ProcessError Unit)
  deriving DecidableEq, Repr

/-- What the clock, the other parts of the supervisor and the system answer in one step. -/
structure Turn where
  now : Nat := 0
  shutting : Bool := false
  immediate : Bool := false
  resized : Except ProcessError Unit := .ok ()
  /-- A descriptor of the guardian is ready. -/
  woken : Bool := false
  service : Guardian.Answers := ⟨fun _ => [], fun _ => [], .running⟩
  write : ProcessSession.WriteAnswer := .wouldBlock

end OwnedProcess

open OwnedProcess in
/-- The process with the session it shares. What was done to it is recorded beside it. -/
structure OwnedProcess where
  limits : ProcessLimits
  guardian : Guardian.Owner
  /-- The guardian watches its sentinel. -/
  watch : Bool
  session : ProcessSession
  reader : ProcessReader
  cancel : Bool := false
  cancels : List Cancel := []
  exitAt : Option Nat := none
  cancelAt : Option Nat := none
  killed : Bool := false
  supervisionLost : Bool := false
  discardAt : Option Nat := none
  phase : Phase := .reaping false
  trace : List Act := []

namespace OwnedProcess
open Guardian (Kind)

def milliseconds (n : Nat) : Nat := n * 1000000

/-- `start`: the reader holds the child endpoint, and the process is reaped once. -/
def start (limits : ProcessLimits) (guardian : Guardian.Owner) (watch : Bool) : OwnedProcess where
  limits := limits
  guardian := guardian
  watch := watch
  session := .new ⟨limits.inputChunk, limits.inputSlots, limits.inputBytes, limits.writeTimeout⟩
  reader := .new true

def goto (s : OwnedProcess) (phase : Phase) : OwnedProcess := { s with phase }

def log (s : OwnedProcess) (act : Act) : OwnedProcess := { s with trace := s.trace ++ [act] }

/-- `needs_poll` of the guardian. -/
def needsPoll (s : OwnedProcess) : Bool := !s.guardian.guardian.reaped && !s.watch

def order (s : OwnedProcess) (now : Nat) (kind : Kind) : OwnedProcess :=
  { s with guardian := s.guardian.step (.request kind) }.log (.ordered now kind)

/-- `Session::stop`. -/
def stop (s : OwnedProcess) : OwnedProcess := { s with reader := s.reader.stop }.log .stopped

def begin (s : OwnedProcess) (turn : Turn) : OwnedProcess :=
  let s := s.log (.began turn.now turn.shutting turn.immediate s.reader.readerFailed)
  if turn.immediate || s.supervisionLost || s.reader.readerFailed then
    { s.order turn.now .abort with killed := true }
  else s

def terminate (s : OwnedProcess) (now : Nat) : OwnedProcess :=
  if s.cancelAt.isNone then { s.order now .terminate with cancelAt := some now } else s

/-- Terminate the workload, and kill it once the grace is over. -/
def escalate (s : OwnedProcess) (now : Nat) : OwnedProcess :=
  let s := s.terminate now
  if s.cancelAt.any (s.limits.terminateGrace ≤ now - ·) then { s.order now .kill with killed := true } else s

def drainOver (s : OwnedProcess) (now : Nat) : Bool := s.exitAt.any (s.limits.drainTimeout ≤ now - ·)

def releaseGuardian (s : OwnedProcess) (now : Nat) (shutting : Bool) : OwnedProcess :=
  if s.exitAt.isSome || s.supervisionLost || shutting then s.order now .release else s

/-- Drain what the terminal still holds, until the helpers are gone. -/
def discard (s : OwnedProcess) (now : Nat) : OwnedProcess :=
  if !s.guardian.guardian.complete && s.discardAt.all (· ≤ now) then
    { s with discardAt := some (now + milliseconds 10) }
  else s

/-- `report_failure` up to where the inputs are finished. -/
def reportFailure (s : OwnedProcess) (after : After) : OwnedProcess :=
  if s.supervisionLost then s.goto after.phase
  else ({ s with supervisionLost := true }.log .lost).goto (.closing (.loss after))

/-- `record_exit` up to where the exit is noted. -/
def recordExit (s : OwnedProcess) (now : Nat) (status : Int32) (polled : Bool) : OwnedProcess :=
  if s.exitAt.isSome then s.goto (.faulting polled)
  else
    match exitStatus status with
    | some status => ({ s with exitAt := some now }.log (.recorded now status)).goto (.noting status polled)
    | none => s.reportFailure (.fault polled)

/-- One service of the guardian; a sentinel that was reaped or lost is not watched any more. -/
def service (s : OwnedProcess) (answers : Guardian.Answers) : OwnedProcess :=
  let seen := (s.guardian.guardian.service answers).2
  { s with
    guardian := s.guardian.step (.service answers)
    watch := s.watch && !seen.any fun entry => entry matches .reaped | .waitFailed }

def reap (s : OwnedProcess) (turn : Turn) (polled : Bool) : OwnedProcess :=
  let s := s.service turn.service
  let s := { s with guardian := s.guardian.run [.takeEscalationApplied, .takeTermApplied] }
  let exit := s.guardian.guardian.pendingExit
  let s := { s with guardian := s.guardian.step .takeExit }
  match exit with
  | some status => s.recordExit turn.now status polled
  | none => s.goto (.faulting polled)

def advance (s : OwnedProcess) (turn : Turn) : OwnedProcess :=
  match s.phase with
  | .waiting => (s.begin turn).goto (.cancelling turn.now turn.shutting)
  | .cancelling now shutting =>
    let alive := s.exitAt.isNone && !s.supervisionLost
    let s := if alive && !s.killed && (shutting || s.cancel) then s.escalate now else s
    s.goto (.resizing now shutting alive)
  | .resizing now shutting alive =>
    { s with session := if alive then s.session.takeResize turn.resized else s.session }.goto (.stopping now shutting)
  | .stopping now shutting =>
    let s := if shutting || s.drainOver now then s.stop else s
    s.goto (.releasing now shutting)
  | .releasing now shutting =>
    let s := if s.reader.readerDone then (s.releaseGuardian now shutting).discard now else s
    s.goto .retaining
  -- the thread of a reader that is done is joined
  | .retaining =>
    if s.guardian.guardian.complete && s.reader.readerDone then (s.log .released).goto .dropping
    else s.goto .polling
  | .polling => s.goto (if turn.woken || s.needsPoll then .reaping true else .writing)
  | .reaping polled => s.reap turn polled
  | .noting status polled => { s with reader := s.reader.noteWorkloadExit }.goto (.closing (.exit status polled))
  | .closing next => { s with session := s.session.beginFinish next.reason }.goto (.finishing next)
  | .finishing next => { s with session := s.session.finishInputs 0 }.goto next.phase
  | .exiting status polled => (s.log (.reported (.exited status))).goto (.faulting polled)
  | .faulting polled =>
    let fault := s.guardian.guardian.pendingFault
    let s := { s with guardian := s.guardian.step .takeFault }
    if fault then s.reportFailure (.done polled) else s.goto (After.done polled).phase
  | .halting after => s.stop.goto (.failing after)
  | .failing after => (s.log (.reported (.supervisionFailed .internal))).goto after.phase
  | .writing =>
    { s with session := if s.exitAt.isNone then s.session.writeReady turn.now turn.write else s.session }.goto .waiting
  | .dropping => s.stop.goto (.closing .drop)
  | .joining =>
    match s.reader.phase with
    | .done _ => (s.order turn.now .abort).goto .cleaning
    | _ => s
  | .cleaning =>
    if s.guardian.guardian.complete then s.goto .dropped else s.service turn.service
  | .dropped => s

/-- Where other code of the supervisor runs, and a panic of it drops the process. -/
def Phase.between : Phase → Bool
  | .waiting | .retaining | .polling => true
  | _ => false

def unwind (s : OwnedProcess) : OwnedProcess :=
  if s.phase.between then (s.log .released).goto .dropping else s

/-- One step of a call of `request_cancel`. -/
def cancelStep (s : OwnedProcess) (call : Nat) : OwnedProcess :=
  match s.cancels[call]? with
  | some .entering =>
    { s with cancels := s.cancels.set call (if s.session.closed then .returned (.error .closed) else .rechecking) }
  | some .rechecking =>
    { s with cancels := s.cancels.set call (if s.session.closed then .returned (.error .closed) else .storing) }
  | some .storing => { s with cancel := true, cancels := s.cancels.set call (.returned (.ok ())) }.log .cancelled
  | _ => s

inductive Event where
  | advance (turn : Turn)
  | unwind
  | read (answers : ProcessReader.Answers)
  | writeReserved (bytes : Bytes) (now : Nat)
  | requestResize (size : TerminalSize)
  | requestCancel
  | cancelStep (call : Nat)

def step (s : OwnedProcess) : Event → OwnedProcess
  | .advance turn => s.advance turn
  | .unwind => s.unwind
  | .read answers => { s with reader := s.reader.advance answers }
  | .writeReserved bytes now => { s with session := (s.session.writeReserved bytes now).2 }
  | .requestResize size => { s with session := (s.session.requestResize size).2 }
  | .requestCancel => { s with cancels := s.cancels ++ [.entering] }
  | .cancelStep call => s.cancelStep call

def run (s : OwnedProcess) (events : List Event) : OwnedProcess := events.foldl step s

def deadline (s : OwnedProcess) (clock : Nat) : Option Nat :=
  let cancel := if s.killed then none else s.cancelAt.map (· + s.limits.terminateGrace)
  let drain := if s.reader.stopReader then none else s.exitAt.map (· + s.limits.drainTimeout)
  let input := s.session.input.head?.map (·.deadline)
  let fallback := if s.needsPoll then some (clock + milliseconds 10) else none
  [cancel, drain, input, s.discardAt, fallback].reduceOption.min?

end OwnedProcess
end PtyRuntime
