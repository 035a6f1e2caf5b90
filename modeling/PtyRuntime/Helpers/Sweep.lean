import PtyRuntime.Helpers.Anchor

/-! The cleanup sweep of a surviving helper: it scans the session in bounded steps,
kills the groups it finds through anchors and retires after a scan that found nothing
to do. What discovery observes is an argument; what a sweep did is recorded beside it. -/
namespace PtyRuntime.Helper

open Guardian

inductive Observation where
  | outsideOrGone
  | member (pid group : Int32)
  | unknown
  deriving DecidableEq, Repr

structure ReservedMembers where
  own : Bool
  peer : Bool
  deriving DecidableEq, Repr

inductive Progress where
  | working
  | retained
  | readyToRetire (members : ReservedMembers)
  deriving DecidableEq, Repr

namespace Sweep

abbrev Peers := Vector (Option Int32) 2

/-- What a sweep did, with the peers it knew at each observation. -/
inductive Entry where
  | started
  | observed (peers : Peers) (observation : Observation)
  | acted (group : Int32)
  | launched (pid : Int32)
  | finished (pid : Int32)
  | ended
  | passed
  | retried
  | peerGone
  | peerAdded (pid : Int32)
  deriving DecidableEq, Repr

/-- What the system answers during one `step`: the anchor's tick, whether discovery
opens, what is left of its inventory, and the process of a new anchor. -/
structure Answers where
  tick : Anchor.Answers
  opened : Bool
  observations : List Observation
  forked : Option Int32

end Sweep

/-- The inventory of a scan is the system's; `scan` tells whether one is open. The session
and the host descriptor only reach discovery and the anchor's own process. -/
structure Sweep where
  own : Int32
  peers : Sweep.Peers
  generation : UInt64
  scan : Bool
  anchor : Option Anchor
  uncertain : Bool
  acted : Bool
  reserved : ReservedMembers
  retryAt : Nat
  log : List Sweep.Entry

namespace Sweep

def new (own : Int32) (peer : Option Int32) (generation : UInt64) (now : Nat) : Sweep :=
  { own, peers := #v[peer, none], generation, scan := false, anchor := none, uncertain := false,
    acted := false, reserved := ⟨false, false⟩, retryAt := now, log := [] }

def did (s : Sweep) (entry : Entry) : Sweep := { s with log := s.log ++ [entry] }

def peerGone (s : Sweep) (now : Nat) : Sweep :=
  { s.did .peerGone with
    peers := #v[none, none], scan := false, uncertain := false, acted := false,
    reserved := ⟨false, false⟩, retryAt := now }

def additionalPeer (s : Sweep) (pid : Int32) : Sweep :=
  { s.did (.peerAdded pid) with peers := s.peers.set 1 (some pid) }

def retry (s : Sweep) (now : Nat) : Progress × Sweep :=
  (.retained,
    { s.did .retried with
      scan := false, uncertain := false, acted := false, reserved := ⟨false, false⟩,
      retryAt := now + millis 50 })

def retainForRetry (s : Sweep) (now : Nat) : Sweep := (s.retry now).2

/-- The part of `step` that serves a live anchor, with the progress that ends the step. -/
def serveAnchor (s : Sweep) (now : Nat) (answers : Anchor.Answers) : Option Progress × Sweep :=
  match s.anchor with
  | none => (none, s)
  | some anchor =>
    match anchor.tick answers with
    | (.error _, anchor) =>
      (some .retained, { s with anchor := some anchor, uncertain := true, retryAt := now + millis 10 })
    | (.ok (), anchor) =>
      if anchor.state ≠ .finished then (some .working, { s with anchor := some anchor })
      else (none, { s.did (.finished anchor.pid) with anchor := none })

/-- A member of a group that is not reserved: have an anchor kill its group. -/
def act (s : Sweep) (group : Int32) (forked : Option Int32) : Sweep :=
  let s := { s.did (.acted group) with acted := true }
  match Anchor.start forked group s.generation with
  | some anchor => { s.did (.launched anchor.pid) with anchor := some (anchor.request .kill) }
  | none => { s with uncertain := true }

/-- The end of the inventory. -/
def finishScan (s : Sweep) (now : Nat) : Progress × Sweep :=
  let s := { s.did .ended with scan := false }
  if s.uncertain then s.retry now
  else if s.acted then
    (.working,
      { s.did .passed with acted := false, reserved := ⟨false, false⟩, retryAt := now + millis 10 })
  else (.readyToRetire s.reserved, s)

/-- The loop of `step`, with the observations that are left to it. -/
def observe (now : Nat) (forked : Option Int32) : Nat → List Observation → Sweep → Progress × Sweep
  | 0, _, s => (.working, s)
  | _ + 1, [], s => s.finishScan now
  | left + 1, observation :: rest, s =>
    let s := s.did (.observed s.peers observation)
    match observation with
    | .outsideOrGone => observe now forked left rest s
    | .unknown => observe now forked left rest { s with uncertain := true }
    | .member pid group =>
      if pid = s.own ∨ some pid ∈ s.peers then observe now forked left rest s
      else if group = s.own then
        observe now forked left rest { s with reserved := { s.reserved with own := true } }
      else if some group ∈ s.peers then
        observe now forked left rest { s with reserved := { s.reserved with peer := true } }
      else (.working, s.act group forked)

def OBSERVATIONS : Nat := 128

/-- The part of `step` after the anchor. -/
def discover (s : Sweep) (now : Nat) (answers : Answers) : Progress × Sweep :=
  if s.scan then observe now answers.forked OBSERVATIONS answers.observations s
  else if answers.opened then
    observe now answers.forked OBSERVATIONS answers.observations { s.did .started with scan := true }
  else s.retry now

def step (s : Sweep) (now : Nat) (answers : Answers) : Progress × Sweep :=
  if now < s.retryAt then (.working, s)
  else
    match s.serveAnchor now answers.tick with
    | (some progress, s) => (progress, s)
    | (none, s) => s.discover now answers

inductive Call where
  | step (now : Nat) (answers : Answers)
  | peerGone (now : Nat)
  | additionalPeer (pid : Int32)
  | retainForRetry (now : Nat)

def call (s : Sweep) : Call → Sweep
  | .step now answers => (s.step now answers).2
  | .peerGone now => s.peerGone now
  | .additionalPeer pid => s.additionalPeer pid
  | .retainForRetry now => s.retainForRetry now

def run (s : Sweep) (calls : List Call) : Sweep := calls.foldl call s

end Sweep
end PtyRuntime.Helper
