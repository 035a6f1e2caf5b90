import PtyRuntime.Domain.Process
import PtyRuntime.Domain.Replay

/-! The output reader of one process: the thread that reads the master, offers what it read
to the output callback and reports how the drain ended. Each load of a shared flag and each
call of the system or of the callback is one step, so the flags may change between any two. -/
namespace PtyRuntime
namespace ProcessReader

inductive PollAnswer where
  | ready
  | interrupted
  | failed
  deriving DecidableEq, Repr

/-- What the system answers to one read of the master. -/
inductive ReadAnswer where
  | data (chunk : Bytes)
  | interrupted
  | wouldBlock
  | eio
  | failed (error : ProcessError)
  deriving DecidableEq, Repr

/-- The master's own report that its last child endpoint is gone. -/
def ReadAnswer.isEnd : ReadAnswer → Bool
  | .data [] | .eio => true
  | _ => false

/-- A read after which nothing is known to wait in the master. -/
def ReadAnswer.isDry : ReadAnswer → Bool
  | .data [] | .wouldBlock => true
  | _ => false

/-- What the outside answers if the next step asks it. A callback without an answer panicked. -/
structure Answers where
  poll : PollAnswer
  read : ReadAnswer
  outputObserved : Option OutputAcceptance
  waitForCapacity : Option Unit

/-- Where the thread stands. -/
inductive Phase where
  | top
  | polling
  /-- the wake socket is drained -/
  | woken
  | inner
  | reading
  /-- a read returned zero while the child endpoint is retained -/
  | ended
  /-- a read would have blocked -/
  | blocked
  | offering (chunk : Bytes)
  | calling (chunk : Bytes)
  | waiting (chunk : Bytes)
  /-- the read loop returned, or its panic was caught -/
  | returned (outcome : DrainOutcome)
  | draining (outcome : DrainOutcome)
  | finishing (outcome : DrainOutcome)
  | done (outcome : DrainOutcome)
  deriving DecidableEq, Repr

/-- What the reader did, as the outside sees it. -/
inductive Action where
  | read (answer : ReadAnswer)
  | sawExit (exited : Bool)
  | released
  | offered (chunk : Bytes) (answer : Option OutputAcceptance)
  | drained (outcome : DrainOutcome)
  deriving DecidableEq, Repr

end ProcessReader

open ProcessReader in
/-- The thread with the session flags it shares. What it did is recorded beside them. -/
structure ProcessReader where
  phase : Phase
  retained : Bool
  stopReader : Bool
  workloadExited : Bool
  readerFailed : Bool
  readerDone : Bool
  trace : List Action

namespace ProcessReader

/-- `retained` tells whether the host passed a child endpoint to hold. -/
def new (retained : Bool) : ProcessReader :=
  { phase := .top, retained, stopReader := false, workloadExited := false, readerFailed := false,
    readerDone := false, trace := [] }

def stop (r : ProcessReader) : ProcessReader := { r with stopReader := true }

def noteWorkloadExit (r : ProcessReader) : ProcessReader := { r with workloadExited := true }

def goto (r : ProcessReader) (phase : Phase) : ProcessReader := { r with phase }

def log (r : ProcessReader) (action : Action) : ProcessReader := { r with trace := r.trace ++ [action] }

/-- One load of `stop_reader`: a stop ends the drain short. -/
def unlessStopped (r : ProcessReader) (phase : Phase) : ProcessReader :=
  r.goto (if r.stopReader then .returned .truncated else phase)

/-- `drop(retained.take())` in the read loop. -/
def release (r : ProcessReader) : ProcessReader := { r with retained := false }.log .released

/-- What the read loop does with the answer of one read. -/
def afterRead (r : ProcessReader) (answer : ReadAnswer) : Phase :=
  match answer with
  | .data [] => if r.retained then .ended else .returned .eof
  | .data (byte :: chunk) => .offering (byte :: chunk)
  | .interrupted => .inner
  | .wouldBlock => .blocked
  | .eio => if r.retained then .top else .returned .eof
  | .failed error => .returned (.failed error)

/-- What it does with the answer of one offer. `catch_unwind` turns a panic into a failure. -/
def afterOffer (chunk : Bytes) : Option OutputAcceptance → Phase
  | some .accepted => .inner
  | some .closed => .returned .truncated
  | some .backpressure => .waiting chunk
  | none => .returned (.failed .internal)

/-- One step of `reader`, whose read loop holds the phases up to `waiting`. -/
def advance (r : ProcessReader) (answers : Answers) : ProcessReader :=
  match r.phase with
  | .top => r.unlessStopped .polling
  | .polling =>
    r.goto <| match answers.poll with
      | .ready => .woken
      | .interrupted => .top
      | .failed => .returned (.failed .io)
  | .woken => r.unlessStopped .inner
  | .inner => r.unlessStopped .reading
  | .reading => (r.goto (r.afterRead answers.read)).log (.read answers.read)
  | .ended =>
    let seen := r.log (.sawExit r.workloadExited)
    if r.workloadExited then seen.release.goto .inner else seen.goto .top
  | .blocked =>
    let seen := r.log (.sawExit r.workloadExited)
    if r.workloadExited && r.retained then seen.release.goto .inner else seen.goto .top
  | .offering chunk => r.unlessStopped (.calling chunk)
  | .calling chunk =>
    (r.goto (afterOffer chunk answers.outputObserved)).log (.offered chunk answers.outputObserved)
  | .waiting chunk =>
    r.goto <| match answers.waitForCapacity with
      | some () => .offering chunk
      | none => .returned (.failed .internal)
  | .returned outcome =>
    { r with
      phase := .draining outcome
      retained := false
      readerFailed := r.readerFailed || outcome matches .failed _ }
  -- whether this callback panics makes no difference
  | .draining outcome => (r.goto (.finishing outcome)).log (.drained outcome)
  | .finishing outcome => { r with phase := .done outcome, readerDone := true }
  | .done _ => r

inductive Event where
  | stop
  | noteWorkloadExit
  | advance (answers : Answers)

def step (r : ProcessReader) : Event → ProcessReader
  | .stop => r.stop
  | .noteWorkloadExit => r.noteWorkloadExit
  | .advance answers => r.advance answers

def run (r : ProcessReader) (events : List Event) : ProcessReader := events.foldl step r

end ProcessReader
end PtyRuntime
