import PtyRuntime.Helpers.Anchor

/-! Cancellation of a workload: SIGTERM and then SIGKILL to the workload itself, and to its
group and the foreground group through anchors. What the system answers is an argument;
what was sent, seen and acknowledged is recorded beside the state. -/
namespace PtyRuntime.Helper

open Guardian

/-- What `kill` answers. -/
inductive KillAnswer where
  | delivered
  | noSuchProcess
  | failed
  deriving DecidableEq, Repr

/-- The part of the workload's owner that cancellation reads. -/
structure Workload where
  pid : Int32
  reaped : Bool
  lost : Bool
  deriving DecidableEq, Repr

def Workload.signal (w : Workload) (answer : KillAnswer) : Except IoError Bool :=
  if w.reaped ∨ w.lost then .ok false
  else
    match answer with
    | .delivered => .ok true
    | .noSuchProcess => .ok false
    | .failed => .error .other

/-- Whether the guardian's own escalation deadline has passed. -/
def backstopDue (termAt : Option Nat) (grace now : Nat) : Bool :=
  termAt.any fun start => grace ≤ now - start

namespace Cancellation

/-- One direct signal to the workload, and what came of it. -/
structure Signalled where
  signal : Int32
  workload : Workload
  now : Nat
  cleaning : Bool
  result : Except IoError Bool

/-- What the system answers during one `tick`: to each anchor, to the signal, which group
is in the foreground, and the processes of new anchors for the workload's group and it. -/
structure Answers where
  ticks : Nat → Anchor.Answers
  signal : KillAnswer
  foreground : Int32
  workloadForked : Option Int32
  foregroundForked : Option Int32

end Cancellation

open Cancellation in
/-- From `signalled` on the fields are history: the direct signals, the anchors as their
ticks left them, the anchors started and those seen to exit, and how often each
acknowledgement was handed out. -/
structure Cancellation where
  sid : Int32
  guardian : Int32
  generation : UInt64
  anchors : List Anchor
  requested : Option Kind
  applied : Option Kind
  termAt : Option Nat
  grace : Nat
  resample : Bool
  retryAt : Nat
  termDirect : Bool
  termTargets : Option (Vector Int32 2)
  termGroups : Vector Bool 2
  termReported : Bool
  escalationApplied : Bool
  signalled : List Signalled
  ticked : List Anchor
  launched : List Int32
  finished : List Int32
  escalations : Nat
  acknowledgements : Nat

namespace Cancellation

def new (sid guardian : Int32) (generation : UInt64) (grace now : Nat) : Cancellation :=
  { sid, guardian, generation, anchors := [], requested := none, applied := none, termAt := none, grace,
    resample := false, retryAt := now, termDirect := false, termTargets := none,
    termGroups := #v[false, false], termReported := false, escalationApplied := false, signalled := [],
    ticked := [], launched := [], finished := [], escalations := 0, acknowledgements := 0 }

def request (c : Cancellation) (kind : Kind) : Cancellation :=
  if c.requested ≠ some .kill then { c with requested := some kind } else c

def stop (c : Cancellation) : Cancellation := { c.request .kill with resample := false }

/-- The loop over the anchors: each is ticked, and one that confirmed its SIGTERM counts
for the targets whose group is its own. -/
def tickAnchors (c : Cancellation) (ticks : Nat → Anchor.Answers) : Bool × Cancellation :=
  let results := c.anchors.mapIdx fun index anchor => anchor.tick (ticks index)
  let anchors := results.map Prod.snd
  let applied (group : Int32) := anchors.any fun anchor => anchor.termApplied && group = anchor.group
  (results.any fun result => result.1.toOption.isNone,
    { c with
      anchors
      termGroups := Vector.ofFn fun index =>
        c.termGroups.get index || c.termTargets.any fun targets => applied (targets.get index)
      ticked := c.ticked ++ anchors })

def retainLive (c : Cancellation) : Cancellation :=
  { c with
    anchors := c.anchors.filter fun anchor => anchor.state ≠ .finished
    finished := c.finished ++
      (c.anchors.filter fun anchor => anchor.state = .finished).map Anchor.pid }

/-- What the result of the direct signal means for the acknowledgements. -/
def answered (c : Cancellation) (kind : Kind) (cleaning : Bool) : Except IoError Bool → Bool × Cancellation
  | .ok applied =>
    if kind = .terminate then (false, { c with termDirect := applied })
    else if applied ∧ kind = .kill ∧ c.applied = some .terminate ∧ !cleaning then
      (false, { c with escalationApplied := true })
    else (false, c)
  | .error _ => (true, c)

/-- Take the requested stage, if it is a new one. -/
def apply (c : Cancellation) (workload : Workload) (now : Nat) (cleaning : Bool) (answer : KillAnswer) :
    Bool × Cancellation :=
  if c.requested ≠ c.applied then
    match c.requested with
    | none => (false, c)
    | some kind =>
      let signal := if kind = .kill then SIGKILL else SIGTERM
      let result := workload.signal answer
      let sent : Signalled := { signal, workload, now, cleaning, result }
      let (failed, c) := { c with signalled := c.signalled ++ [sent] }.answered kind cleaning result
      (failed,
        { c with
          anchors := c.anchors.map fun anchor => anchor.request kind
          termAt := if kind = .terminate then some now else c.termAt
          resample := true
          applied := some kind })
  else (false, c)

/-- The loop over the sampled groups, with the process each new anchor's fork made. -/
def pin : List (Int32 × Option Int32) → Bool → Cancellation → Bool × Cancellation
  | [], failed, c => (failed, c)
  | (group, forked) :: rest, failed, c =>
    if group ≤ 0 ∨ c.anchors.any fun anchor => anchor.group = group then pin rest failed c
    else if c.anchors.length = 2 then (failed, c)
    else
      match Anchor.start forked group c.generation with
      | some anchor =>
        let anchor := c.requested.elim anchor anchor.request
        pin rest failed
          { c with anchors := c.anchors ++ [anchor], launched := c.launched ++ [anchor.pid] }
      | none => pin rest true c

/-- A fresh sample of the groups to signal. -/
def sample (c : Cancellation) (workload : Workload) (now : Nat) (failed : Bool) (answers : Answers) :
    Bool × Cancellation :=
  if answers.foreground < 0 then (true, c)
  else if answers.foreground = c.sid ∨ answers.foreground = c.guardian then (true, c)
  else
    let c :=
      if c.requested = some .terminate ∧ c.termTargets.isNone then
        { c with termTargets := some #v[workload.pid, answers.foreground] }
      else c
    let (failed, c) :=
      pin [(workload.pid, answers.workloadForked), (answers.foreground, answers.foregroundForked)] failed c
    (failed,
      { c with resample := c.requested = some .kill ∧ !workload.reaped, retryAt := now + millis 10 })

def tick (c : Cancellation) (workload : Workload) (now : Nat) (cleaning : Bool) (answers : Answers) :
    Bool × Cancellation :=
  let (failed, c) := c.tickAnchors answers.ticks
  let c := c.retainLive
  let c := if backstopDue c.termAt c.grace now then c.request .kill else c
  let (unsent, c) := c.apply workload now cleaning answers.signal
  if cleaning then (failed || unsent, { c with resample := false })
  else if c.resample ∧ c.retryAt ≤ now then c.sample workload now (failed || unsent) answers
  else (failed || unsent, c)

def takeEscalationApplied (c : Cancellation) : Bool × Cancellation :=
  (c.escalationApplied,
    { c with escalationApplied := false, escalations := c.escalations + c.escalationApplied.toNat })

def takeTermApplied (c : Cancellation) : Bool × Cancellation :=
  if !c.termReported ∧ c.termDirect ∧ c.termTargets.isSome ∧ c.termGroups.all id then
    (true, { c with termReported := true, acknowledgements := c.acknowledgements + 1 })
  else (false, c)

/-- Only the two stages are requested. -/
inductive Call where
  | request (kind : Kind) (stage : kind = .terminate ∨ kind = .kill)
  | stop
  | tick (workload : Workload) (now : Nat) (cleaning : Bool) (answers : Answers)
  | takeEscalationApplied
  | takeTermApplied

def call (c : Cancellation) : Call → Cancellation
  | .request kind _ => c.request kind
  | .stop => c.stop
  | .tick workload now cleaning answers => (c.tick workload now cleaning answers).2
  | .takeEscalationApplied => c.takeEscalationApplied.2
  | .takeTermApplied => c.takeTermApplied.2

def run (c : Cancellation) (calls : List Call) : Cancellation := calls.foldl call c

end Cancellation
end PtyRuntime.Helper
