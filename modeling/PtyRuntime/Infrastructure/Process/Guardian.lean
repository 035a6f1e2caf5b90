import PtyRuntime.Domain.Process
import PtyRuntime.Infrastructure.Process.Protocol

/-! Host-side ownership of two helper channels and the direct session sentinel.
Channel 0 leads to the sentinel, channel 1 to the guardian. What the system answers in
one service step is an argument; what the step saw is returned beside the new state. -/
namespace PtyRuntime

namespace Guardian

/-- The channel to the sentinel. -/
abbrev SENTINEL : Fin 2 := 0

/-- The channel to the guardian. -/
abbrev GUARDIAN : Fin 2 := 1

def SIGTERM : Int32 := 15

def SIGKILL : Int32 := 9

/-- `WIFEXITED` of a raw wait status. -/
def wifexited (status : Int32) : Bool := status.toUInt32 &&& 0x7f = 0

/-- `WIFSIGNALED` of a raw wait status. -/
def wifsignaled (status : Int32) : Bool :=
  status.toUInt32 &&& 0x7f ≠ 0 ∧ status.toUInt32 &&& 0x7f ≠ 0x7f

/-- Classify a failure to create a process by its error number: `EAGAIN`, `EMFILE`,
`ENFILE`, `ENOMEM` and `ENOSPC` are capacity. -/
def creationError (errno : Int32) : ProcessError :=
  if errno = 11 ∨ errno = 24 ∨ errno = 23 ∨ errno = 12 ∨ errno = 28 then .capacity
  else if errno = 2 then .notFound
  else if errno = 13 ∨ errno = 1 then .permissionDenied
  else .io

/-- What `try_wait` says about the sentinel. -/
inductive WaitAnswer where
  | exited
  | running
  | failed
  deriving DecidableEq, Repr

/-- One observation of the owner, in the order in which they are made. -/
inductive Entry where
  | frame (index : Fin 2) (frame : Frame)
  | broken (index : Fin 2)
  | ended (index : Fin 2)
  | requested (kind : Kind)
  | ungranted
  | reaped
  | waitFailed
  deriving DecidableEq, Repr

/-- What the system answers during one service step. -/
structure Answers where
  writes : Fin 2 → List WriteAnswer
  reads : Fin 2 → List ReadAnswer
  wait : WaitAnswer

end Guardian

open Guardian

structure Guardian where
  sid : Int32
  channels : Fin 2 → Option Channel
  generation : UInt64
  hello : Fin 2 → Option Values
  started : Option Values
  admitted : Bool
  executionGranted : Bool
  startError : Option ProcessError
  control : Option Kind
  sent : Fin 2 → Option Kind
  retiring : Fin 2 → Bool
  reaped : Bool
  observedExit : Option Int32
  pendingExit : Option Int32
  fault : Bool
  pendingFault : Bool
  termApplied : Bool
  escalationApplied : Bool
  escalationReported : Bool

namespace Guardian

def new (sid : Int32) (channels : Fin 2 → Channel) (generation : UInt64) : Guardian where
  sid := sid
  channels index := some (channels index)
  generation := generation
  hello _ := none
  started := none
  admitted := false
  executionGranted := false
  startError := none
  control := none
  sent _ := none
  retiring _ := false
  reaped := false
  observedExit := none
  pendingExit := none
  fault := false
  pendingFault := false
  termApplied := false
  escalationApplied := false
  escalationReported := false

/-- The reported workload process, zero before the report. -/
def id (g : Guardian) : UInt32 := (g.started.map fun values => values.first.toUInt32).getD 0

def request (g : Guardian) (kind : Kind) : Guardian :=
  if g.control.all fun current => current.code < kind.code then { g with control := some kind } else g

def markFault (g : Guardian) : Guardian :=
  let g := if !g.fault then { g with fault := true, pendingFault := true } else g
  g.request .abort

def channelEnded (g : Guardian) (index : Fin 2) : Guardian :=
  let g := { g with channels := Function.update g.channels index none }
  if !g.retiring index && g.startError.isNone then g.markFault else g

def receive (g : Guardian) (index : Fin 2) (frame : Frame) : Guardian :=
  let values := frame.values
  match frame.kind with
  | .hello =>
    if values.first = g.sid ∧ (0 : Int32) < values.second ∧ values.second ≠ g.sid ∧ values.third = 0 ∧ values.fourth = 0 then
      if (g.hello index).any (· ≠ values) ∨ (g.hello (1 - index)).any (· ≠ values) then g.markFault
      else { g with hello := Function.update g.hello index (some values) }
    else g.markFault
  | .started | .admitted =>
    if (0 : Int32) < values.first ∧ values.first ≠ g.sid ∧ values.first ≠ values.second ∧
        (values.third = g.sid ∧ values.fourth = g.sid) ∧
        (g.hello index).any (fun hello => hello.second = values.second) then
      if (frame.kind = .started ∧ index ≠ 1) ∨ (frame.kind = .admitted ∧ index ≠ 0) ∨
          g.started.any (· ≠ values) then g.markFault
      else
        let g := { g with started := some values }
        if frame.kind = .admitted then { g with admitted := true } else g
    else g.markFault
  | .workloadExit =>
    if values.second = g.id.toInt32 ∧ g.id ≠ 0 ∧ (wifexited values.first ∨ wifsignaled values.first) then
      if g.observedExit.any (· ≠ values.first) then g.markFault
      else if g.observedExit.isNone then
        { g with observedExit := some values.first, pendingExit := some values.first }
      else g
    else g.markFault
  | .startFailed =>
    if !g.admitted then { g with startError := some (creationError values.first) } else g.markFault
  | .signalApplied =>
    if index = 1 ∧ g.id ≠ 0 ∧ g.control.isSome ∧ values = #v[g.id.toInt32, SIGTERM, 7, 0] then
      { g with termApplied := true }
    else g.markFault
  | .escalated =>
    if index = 1 ∧ g.id ≠ 0 ∧ values = #v[g.id.toInt32, SIGKILL, 0, 0] then
      if !g.escalationReported then { g with escalationApplied := true, escalationReported := true }
      else g
    else g.markFault
  | .fault => g.markFault
  | .retiring =>
    if (0 : Int32) < values.first ∧ values.first ≠ g.id.toInt32 ∧ (index = 1 ∨ values.first = g.sid) then
      { g with retiring := Function.update g.retiring index true }
    else g.markFault
  | .successor =>
    if (0 : Int32) < values.first ∧ (0 : Int32) < values.second ∧ values.third = g.sid then g else g.markFault
  | _ => g.markFault

/-- Offer the requested control to one helper and flush what is queued for it. -/
def offer (g : Guardian) (index : Fin 2) (writes : List WriteAnswer) : Guardian :=
  match g.channels index with
  | none => g
  | some channel =>
    let (channel, sent) :=
      match g.control with
      | some kind =>
        if g.sent index ≠ some kind then
          match channel.enqueue ⟨kind, g.generation, .replicate 4 0⟩ with
          | (.ok (), channel) => (channel, some kind)
          | (.error _, channel) => (channel, g.sent index)
        else (channel, g.sent index)
      | none => (channel, g.sent index)
    { g with
      channels := Function.update g.channels index (some (channel.flush writes).2.1)
      sent := Function.update g.sent index sent }

/-- One read of a channel, and whether the loop goes on. -/
def message (g : Guardian) (index : Fin 2) (channel : Channel) (read : ReadAnswer) :
    Guardian × List Entry × Bool :=
  let (result, channel) := channel.receive read
  let g := { g with channels := Function.update g.channels index (some channel) }
  match result with
  | .ok (some frame) => (g.receive index frame, [.frame index frame], true)
  | .ok none => if channel.eof then (g.channelEnded index, [.ended index], false) else (g, [], false)
  | .error error =>
    let g := g.markFault
    if error ≠ .invalidData then (g.channelEnded index, [.broken index, .ended index], false)
    else (g, [.broken index], false)

/-- The receive loop; no further answer stands for a read that would block. -/
def messages : Nat → List ReadAnswer → Guardian → Fin 2 → Guardian × List Entry
  | 0, _, g, _ => (g, [])
  | _ + 1, [], g, _ => (g, [])
  | reads + 1, read :: answers, g, index =>
    match g.channels index with
    | none => (g, [])
    | some channel =>
      let (g, seen, again) := g.message index channel read
      if again then
        let (g, later) := messages reads answers g index
        (g, seen ++ later)
      else (g, seen)

def wait (g : Guardian) (answer : WaitAnswer) : Guardian × List Entry :=
  if g.reaped then (g, [])
  else
    match answer with
    | .exited => ({ g with reaped := true }, [.reaped])
    | .running => (g, [])
    | .failed =>
      let g := g.markFault
      if (g.channels 0).isNone ∧ (g.channels 1).isNone then ({ g with reaped := true }, [.waitFailed])
      else (g, [.waitFailed])

def serviceChannel (g : Guardian) (index : Fin 2) (answers : Answers) : Guardian × List Entry :=
  messages 8 (answers.reads index) (g.offer index (answers.writes index)) index

def service (g : Guardian) (answers : Answers) : Guardian × List Entry :=
  let (g, first) := g.serviceChannel 0 answers
  let (g, second) := g.serviceChannel 1 answers
  let (g, last) := g.wait answers.wait
  (g, first ++ (second ++ last))

/-- Queue the execution grant on one channel. -/
def grantChannel (g : Guardian) (index : Fin 2) : Guardian × List Entry :=
  match g.channels index with
  | none => (g, [])
  | some channel =>
    match channel.enqueue ⟨.execute, g.generation, .replicate 4 0⟩ with
    | (.ok (), channel) => ({ g with channels := Function.update g.channels index (some channel) }, [])
    | (.error _, channel) =>
      ({ g with channels := Function.update g.channels index (some channel), startError := some .io },
        [.ungranted])

/-- The step of `admit` between two services: grant execution once both helpers said hello. -/
def grantExecution (g : Guardian) : Guardian × List Entry :=
  if !g.executionGranted ∧ (g.hello 0).isSome ∧ (g.hello 1).isSome then
    let (g, first) := g.grantChannel 0
    let (g, second) := g.grantChannel 1
    ({ g with executionGranted := true }, first ++ second)
  else (g, [])

def takeExit (g : Guardian) : Option Int32 × Guardian := (g.pendingExit, { g with pendingExit := none })

def takeEscalationApplied (g : Guardian) : Bool × Guardian :=
  (g.escalationApplied, { g with escalationApplied := false })

def takeTermApplied (g : Guardian) : Bool × Guardian := (g.termApplied, { g with termApplied := false })

def takeFault (g : Guardian) : Bool × Guardian := (g.pendingFault, { g with pendingFault := false })

def complete (g : Guardian) : Bool :=
  g.reaped && (g.channels 0).isNone && (g.channels 1).isNone

def cleanupSucceeded (g : Guardian) : Bool := g.complete && !g.fault

end Guardian
end PtyRuntime
