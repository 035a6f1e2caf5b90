import PtyRuntime.Domain.Process
import PtyRuntime.Domain.Terminal

/-! The input queue of one process. Admission, the supervisor's write step and the last
part of teardown each hold the queue's mutex and are one step; the flag that closes it
is stored before teardown takes that mutex, so teardown is two. -/
namespace PtyRuntime
namespace ProcessSession

/-- The part of `ProcessLimits` that admission reads. -/
structure InputLimits where
  inputChunk : Nat
  inputSlots : Nat
  inputBytes : Nat
  writeTimeout : Nat
  deriving DecidableEq, Repr

/-- One queued chunk. `reply` tells the channels apart. -/
structure Input where
  bytes : Bytes
  offset : Nat
  deadline : Nat
  reply : Nat
  deriving DecidableEq, Repr

/-- A chunk that left the queue, and what its channel was sent. -/
structure Settled where
  reply : Nat
  bytes : Bytes
  outcome : WriteOutcome
  deriving DecidableEq, Repr

/-- What the system answers to one write of a nonempty buffer. -/
inductive WriteAnswer where
  | accepted (count : Nat)
  | wouldBlock
  | failed (error : ProcessError)
  deriving DecidableEq, Repr

/-- One attempt at the front chunk: how many bytes the system took, and why it failed. -/
def Input.attempt (input : Input) (now : Nat) (answer : WriteAnswer) : Nat × Option ProcessError :=
  if input.deadline ≤ now then (0, some .timeout)
  else if input.offset < input.bytes.length then
    match answer with
    | .accepted 0 => (0, some .io)
    -- the system takes at most what it was given
    | .accepted (count + 1) => (min (count + 1) (input.bytes.length - input.offset), none)
    | .wouldBlock => (0, none)
    | .failed error => (0, some error)
  else (0, none)

end ProcessSession

open ProcessSession in
/-- The queues with the closed flag and the teardowns that have stored it. What was
admitted, accepted by the system and answered is recorded beside them. -/
structure ProcessSession where
  limits : InputLimits
  input : List Input
  bytes : Nat
  resize : Option TerminalSize
  closed : Bool
  finishing : List ProcessError
  admitted : List Bytes
  accepted : Bytes
  settled : List Settled
  resized : List (TerminalSize × Except ProcessError Unit)

namespace ProcessSession

def new (limits : InputLimits) : ProcessSession :=
  { limits, input := [], bytes := 0, resize := none, closed := false, finishing := [], admitted := [],
    accepted := [], settled := [], resized := [] }

def writeReserved (s : ProcessSession) (bytes : Bytes) (now : Nat) :
    Except ProcessError Unit × ProcessSession :=
  if s.closed then (.error .closed, s)
  else if s.limits.inputChunk < bytes.length ∨ s.limits.inputSlots ≤ s.input.length ∨
      s.limits.inputBytes - s.bytes < bytes.length then (.error .capacity, s)
  else
    (.ok (),
      { s with
        bytes := s.bytes + bytes.length
        input := s.input ++ [⟨bytes, 0, now + s.limits.writeTimeout, s.admitted.length⟩]
        admitted := s.admitted ++ [bytes] })

/-- `resize_timed`. -/
def requestResize (s : ProcessSession) (size : TerminalSize) : Except ProcessError Unit × ProcessSession :=
  if s.closed then (.error .closed, s)
  else if s.resize.isSome then (.error .capacity, s)
  else (.ok (), { s with resize := some size })

/-- The supervisor takes a requested resize and answers what the endpoint answered. -/
def takeResize (s : ProcessSession) (outcome : Except ProcessError Unit) : ProcessSession :=
  match s.resize with
  | none => s
  | some size => { s with resize := none, resized := s.resized ++ [(size, outcome)] }

def writeReady (s : ProcessSession) (now : Nat) (answer : WriteAnswer) : ProcessSession :=
  match s.input with
  | [] => s
  | input :: rest =>
    let (count, failure) := input.attempt now answer
    let s := { s with accepted := s.accepted ++ (input.bytes.drop input.offset).take count }
    let input := { input with offset := input.offset + count }
    if failure.isSome || input.offset = input.bytes.length then
      { s with
        input := rest
        bytes := s.bytes - input.bytes.length
        settled := s.settled ++ [⟨input.reply, input.bytes, ⟨input.offset, failure⟩⟩] }
    else { s with input := input :: rest }

/-- The start of `finish_inputs`. -/
def beginFinish (s : ProcessSession) (reason : ProcessError) : ProcessSession :=
  { s with closed := true, finishing := s.finishing ++ [reason] }

/-- The rest of one `finish_inputs`: it takes the queues and answers what was in them. -/
def finishInputs (s : ProcessSession) (call : Nat) : ProcessSession :=
  match s.finishing[call]? with
  | none => s
  | some reason =>
    { s with
      finishing := s.finishing.eraseIdx call
      input := []
      bytes := 0
      resize := none
      settled := s.settled ++ s.input.map fun input => ⟨input.reply, input.bytes, ⟨input.offset, some reason⟩⟩
      resized := s.resized ++ s.resize.toList.map fun size => (size, .error reason) }

inductive Event where
  | writeReserved (bytes : Bytes) (now : Nat)
  | requestResize (size : TerminalSize)
  | takeResize (outcome : Except ProcessError Unit)
  | writeReady (now : Nat) (answer : WriteAnswer)
  | beginFinish (reason : ProcessError)
  | finishInputs (call : Nat)

def step (s : ProcessSession) : Event → ProcessSession
  | .writeReserved bytes now => (s.writeReserved bytes now).2
  | .requestResize size => (s.requestResize size).2
  | .takeResize outcome => s.takeResize outcome
  | .writeReady now answer => s.writeReady now answer
  | .beginFinish reason => s.beginFinish reason
  | .finishInputs call => s.finishInputs call

def run (s : ProcessSession) (events : List Event) : ProcessSession := events.foldl step s

end ProcessSession
end PtyRuntime
