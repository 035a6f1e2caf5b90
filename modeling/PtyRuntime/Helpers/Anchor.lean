import PtyRuntime.Infrastructure.Process.Guardian

/-! A helper's view of an anchor: the child that joins a process group to pin its
identity and is the only one to signal it. What the system answers is an argument; the
anchor itself is another process and is seen through its frames and its wait status. -/
namespace PtyRuntime.Helper

open Guardian

/-- Instants and durations count nanoseconds. -/
def millis (n : Nat) : Nat := n * 1000000

namespace Anchor

inductive State where
  | joining
  | pinned
  | rejected
  | finished
  deriving DecidableEq, Repr

/-- What the system answers during one `tick`. -/
structure Answers where
  reads : List ReadAnswer
  writes : List WriteAnswer
  wait : WaitAnswer

end Anchor

/-- The frames received so far are kept beside the state. -/
structure Anchor where
  pid : Int32
  group : Int32
  state : Anchor.State
  termApplied : Bool
  channel : Channel
  wanted : Option Kind
  sent : Option Kind
  generation : UInt64
  received : List Frame
  deriving DecidableEq, Repr

namespace Anchor

/-- The parent's side of `start`, with the process its fork made, if the setup succeeded. -/
def start (forked : Option Int32) (group : Int32) (generation : UInt64) : Option Anchor :=
  forked.map fun pid =>
    { pid, group, state := .joining, termApplied := false, channel := Channel.new generation,
      wanted := none, sent := none, generation, received := [] }

def request (a : Anchor) (kind : Kind) : Anchor :=
  if a.wanted ≠ some .kill then { a with wanted := some kind } else a

def receive (a : Anchor) (frame : Frame) : Except IoError Anchor :=
  match frame.kind with
  | .hello => .ok { a with state := if frame.values.first = 1 then .pinned else .rejected }
  | .signalApplied =>
    if a.state = .pinned ∧ (a.sent = some .terminate ∨ a.sent = some .kill) ∧
        frame.values = #v[a.group, SIGTERM, 0, 0] then .ok { a with termApplied := true }
    else .error .invalidData
  | _ => .error .invalidData

/-- The receive loop of `tick`; no further answer stands for a read that would block. -/
def messages : Nat → List ReadAnswer → Anchor → Except IoError Unit × Anchor
  | 0, _, a => (.ok (), a)
  | _ + 1, [], a => (.ok (), a)
  | reads + 1, read :: answers, a =>
    let (result, channel) := a.channel.receive read
    let a := { a with channel }
    match result with
    | .error error => (.error error, a)
    | .ok none => (.ok (), a)
    | .ok (some frame) =>
      let a := { a with received := a.received ++ [frame] }
      match a.receive frame with
      | .error error => (.error error, a)
      | .ok a => messages reads answers a

/-- Hand a wanted signal to a pinned anchor. -/
def forward (a : Anchor) : Except IoError Unit × Anchor :=
  if a.state = .pinned ∧ a.wanted ≠ a.sent then
    match a.wanted with
    | none => (.ok (), a)
    | some kind =>
      match a.channel.enqueue ⟨kind, a.generation, .replicate 4 0⟩ with
      | (.error error, channel) => (.error error, { a with channel })
      | (.ok (), channel) => (.ok (), { a with channel, sent := some kind })
  else (.ok (), a)

/-- The end of `tick`: a failed flush is ignored, and only `wait` finishes an anchor. -/
def settle (a : Anchor) (answers : Answers) : Except IoError Unit × Anchor :=
  let a := { a with channel := (a.channel.flush answers.writes).2.1 }
  match answers.wait with
  | .failed => (.error .other, a)
  | .running => (.ok (), a)
  | .exited => (.ok (), { a with state := .finished })

def tick (a : Anchor) (answers : Answers) : Except IoError Unit × Anchor :=
  if a.state = .finished then (.ok (), a)
  else
    match messages 8 answers.reads a with
    | (.error error, a) => (.error error, a)
    | (.ok (), a) =>
      match a.forward with
      | (.error error, a) => (.error error, a)
      | (.ok (), a) => a.settle answers

end Anchor
end PtyRuntime.Helper
