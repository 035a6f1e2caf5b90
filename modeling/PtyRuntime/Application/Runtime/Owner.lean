import PtyRuntime.Domain.Session
import Mathlib.Logic.Function.Basic

/-! The owner of sessions. Spawning, forgetting and shutting down each cross three tables
(the admission gate, the registry and the projection slots) in separate critical sections;
a call is the section it will enter next with what it holds between them. Coordinators
are numbered in the order of their creation; what happens inside one is not seen here
but for its residency becoming closed. -/
namespace PtyRuntime

/-- Caller-selected registry key. -/
abbrev SessionId := String

namespace Runtime

inductive Slot where
  | vacant
  | reserved
  | owned (model : Nat)
  deriving DecidableEq, Repr

/-- What the ports answer to a call. -/
structure Answer where
  /-- `ProjectionCoordinator::create` -/
  create : Option RuntimeError
  /-- `IProcessBackend::spawn` -/
  spawn : Option ProcessError
  /-- the outcome that `ProjectionRuntime::close` waited for -/
  close : Option RuntimeError
  deriving DecidableEq, Repr

/-- Where a spawn or a forget is. -/
inductive Call where
  | admitted (id : SessionId) (lifetime : SessionLifetime) (projection : Bool)
  | registered (id : SessionId) (lifetime : SessionLifetime) (projection : Bool)
  | reserved (id : SessionId) (lifetime : SessionLifetime) (index : Nat)
  | unreserving (id : SessionId) (lifetime : SessionLifetime) (index : Nat) (error : RuntimeError)
  | built (id : SessionId) (lifetime : SessionLifetime) (index model : Nat)
  | published (id : SessionId) (lifetime : SessionLifetime) (model : Nat)
  | launching (id : SessionId) (lifetime : SessionLifetime)
  | refused (id : SessionId) (lifetime : SessionLifetime) (error : RuntimeError)
  | rejected (id : SessionId) (lifetime : SessionLifetime) (error : ProcessError)
  | rollingBack (id : SessionId) (lifetime : SessionLifetime) (close : Bool)
  | closingModel (lifetime : SessionLifetime)
  | leaving
  | forgetting (id : SessionId) (lifetime : SessionLifetime)
  | forgetClosing (id : SessionId) (lifetime : SessionLifetime)
  | removing (id : SessionId) (lifetime : SessionLifetime)
  | confirming (id : SessionId) (lifetime : SessionLifetime)
  | confirmed (id : SessionId) (lifetime : SessionLifetime)
  | returned
  deriving DecidableEq, Repr

/-- Where the shutdown that holds the runtime's shutdown mutex is. -/
inductive Shutdown where
  | started
  | begun
  | idle
  | closing (table remaining : List Slot)
  | stopping (table : List Slot)
  | finishing (remaining : List Slot)
  deriving DecidableEq, Repr

end Runtime

structure Runtime where
  owner : Nat
  maxSessions : Nat
  /-- whether projection services were composed -/
  projection : Bool
  -- `AdmissionGate`
  closing : Bool
  sequence : Nat
  spawns : Nat
  -- `MemorySessionRepository`, a context being known by its lifetime
  entries : List (SessionId × SessionLifetime)
  statuses : SessionLifetime → SessionStatus
  models : SessionLifetime → Option Nat
  -- `ProjectionRuntime`
  services : Bool
  slots : List Runtime.Slot
  -- coordinators
  created : Nat
  closed : Nat → Bool
  finished : Nat → Bool
  -- who is at work
  calls : List Runtime.Call
  shutdown : Option Runtime.Shutdown
  -- what has been handed out, which spawns failed, whether a shutdown has returned
  issued : List SessionLifetime
  failed : List SessionLifetime
  down : Bool

namespace Runtime

/-- `new`, with or without `with_projection`. -/
def new (owner maxSessions : Nat) (projection : Bool) : Runtime where
  owner
  maxSessions
  projection
  closing := false
  sequence := 0
  spawns := 0
  entries := []
  statuses _ := {}
  models _ := none
  services := projection
  slots := if projection then List.replicate maxSessions .vacant else []
  created := 0
  closed _ := false
  finished _ := false
  calls := []
  shutdown := none
  issued := []
  failed := []
  down := false

/-- `AdmissionGate::admit`. The counter of spawns in progress is checked like the sequence. -/
def gateAdmit (s : Runtime) : Except RuntimeError SessionLifetime × Runtime :=
  if s.closing then (.error .closed, s)
  else
    match checkedAdd s.sequence 1, checkedAdd s.spawns 1 with
    | some sequence, some spawns =>
      let lifetime := ⟨s.owner, sequence⟩
      (.ok lifetime, { s with sequence, spawns, issued := s.issued ++ [lifetime] })
    | _, _ => (.error .capacity, s)

/-- `MemorySessionRepository::lookup`. -/
def lookup (s : Runtime) (id : SessionId) : Except RuntimeError SessionLifetime :=
  match s.entries.lookup id with
  | none => .error .missingSession
  | some lifetime => .ok lifetime

/-- `MemorySessionRepository::register`. -/
def register (s : Runtime) (id : SessionId) (lifetime : SessionLifetime) : Except RuntimeError Runtime :=
  if (s.entries.lookup id).isSome then .error .existingSession
  else if s.maxSessions ≤ s.entries.length then .error .capacity
  else .ok { s with entries := (id, lifetime) :: s.entries }

/-- The last section of `remove_finished`, and `rollback_spawn`. -/
def removeLifetime (s : Runtime) (id : SessionId) (lifetime : SessionLifetime) : Runtime :=
  if s.entries.lookup id = some lifetime then { s with entries := s.entries.filter (·.1 ≠ id) } else s

def report (s : Runtime) (lifetime : SessionLifetime) (report : SessionStatus.Report) : Runtime :=
  { s with statuses := Function.update s.statuses lifetime ((s.statuses lifetime).report report) }

/-- The slot of a closed coordinator is free again. -/
def reclaim (closed : Nat → Bool) : Slot → Slot
  | .owned model => if closed model then .vacant else .owned model
  | slot => slot

/-- `ProjectionRuntime::reserve`, which reclaims first. -/
def reserve (s : Runtime) : Except RuntimeError Nat × Runtime :=
  let slots := s.slots.map (reclaim s.closed)
  match slots.findIdx? (· = .vacant) with
  | none => (.error .capacity, { s with slots })
  | some index => (.ok index, { s with slots := slots.set index .reserved })

/-- The next section of one call. -/
def advance (s : Runtime) (answer : Answer) : Call → Call × Runtime
  | .admitted id lifetime projection =>
    match s.register id lifetime with
    | .error _ => (.leaving, s)
    | .ok s => (.registered id lifetime projection, s)
  | .registered id lifetime projection =>
    if s.projection && projection then
      match s.reserve with
      | (.error error, s) => (.refused id lifetime error, s)
      | (.ok index, s) => (.reserved id lifetime index, s)
    else (.launching id lifetime, s)
  | .reserved id lifetime index =>
    if s.services then
      match answer.create with
      | some error => (.unreserving id lifetime index error, s)
      | none => (.built id lifetime index s.created, { s with created := s.created + 1 })
    else (.unreserving id lifetime index .closed, s)
  | .unreserving id lifetime index error =>
    (.refused id lifetime error, { s with slots := s.slots.set index .vacant })
  | .built id lifetime index model =>
    (.published id lifetime model, { s with slots := s.slots.set index (.owned model) })
  | .published id lifetime model =>
    (.launching id lifetime, { s with models := Function.update s.models lifetime (some model) })
  | .launching id lifetime =>
    match answer.spawn with
    | none => (.leaving, s)
    | some error => (.rejected id lifetime error, s)
  | .refused id lifetime error =>
    (.rollingBack id lifetime false,
      { s.report lifetime (.projectionRejected error) with failed := lifetime :: s.failed })
  | .rejected id lifetime error =>
    (.rollingBack id lifetime true,
      { s.report lifetime (.processRejected error) with failed := lifetime :: s.failed })
  | .rollingBack id lifetime close =>
    (if close then .closingModel lifetime else .leaving, s.removeLifetime id lifetime)
  | .closingModel _ => (.leaving, s)
  | .leaving => (.returned, { s with spawns := s.spawns - 1 })
  | .forgetting id lifetime =>
    if (s.statuses lifetime).completion.isNone then (.returned, s)
    else if s.projection && (s.models lifetime).isSome then (.forgetClosing id lifetime, s)
    else (.removing id lifetime, s)
  | .forgetClosing id lifetime =>
    if answer.close.isSome then (.returned, s) else (.removing id lifetime, s)
  | .removing id lifetime =>
    if s.lookup id = .ok lifetime then (.confirming id lifetime, s) else (.returned, s)
  | .confirming id lifetime =>
    if (s.statuses lifetime).completion.isNone then (.returned, s) else (.confirmed id lifetime, s)
  | .confirmed id lifetime => (.returned, s.removeLifetime id lifetime)
  | .returned => (.returned, s)

/-- The next section of the shutdown; `none` when it has returned. -/
def proceed (s : Runtime) : Shutdown → Option Shutdown × Runtime
  | .started => (some .begun, { s with closing := true })
  | .begun =>
    if s.spawns ≠ 0 then (some .begun, s)
    else if s.projection then (some .idle, s)
    else (none, { s with down := true })
  | .idle => (some (.closing s.slots s.slots), { s with slots := [] })
  | .closing table (_ :: remaining) => (some (.closing table remaining), s)
  | .closing table [] => (some (.stopping table), s)
  | .stopping table =>
    if s.services then (some (.finishing table), { s with services := false })
    else (none, { s with down := true })
  | .finishing (.owned model :: remaining) =>
    (some (.finishing remaining),
      if s.closed model then s else { s with finished := Function.update s.finished model true })
  | .finishing (_ :: remaining) => (some (.finishing remaining), s)
  | .finishing [] => (none, { s with down := true })

inductive Event where
  /-- a spawn whose options are valid for this runtime; `projection` is one of them -/
  | spawn (id : SessionId) (projection : Bool)
  | lookup (id : SessionId)
  | forget (id : SessionId)
  | resume (call : Nat) (answer : Answer)
  /-- `shutdown` takes its mutex, and so does dropping the runtime, which nothing else overlaps -/
  | shutdown
  | proceed
  /-- a callback that reaches a context -/
  | report (lifetime : SessionLifetime) (report : SessionStatus.Report)
  /-- a coordinator's residency becomes closed -/
  | close (model : Nat)

def step (s : Runtime) : Event → Runtime
  | .spawn id projection =>
    if projection && !s.projection then s
    else
      match s.gateAdmit with
      | (.error _, s) => s
      | (.ok lifetime, s) => { s with calls := s.calls ++ [.admitted id lifetime projection] }
  | .lookup _ => s
  | .forget id =>
    match s.lookup id with
    | .error _ => s
    | .ok lifetime => { s with calls := s.calls ++ [.forgetting id lifetime] }
  | .resume call answer =>
    match s.calls[call]? with
    | none => s
    | some phase =>
      let (next, s) := s.advance answer phase
      { s with calls := s.calls.set call next }
  | .shutdown => if s.shutdown.isSome then s else { s with shutdown := some .started }
  | .proceed =>
    match s.shutdown with
    | none => s
    | some phase =>
      let (next, s) := s.proceed phase
      { s with shutdown := next }
  | .report lifetime report => s.report lifetime report
  | .close model => { s with closed := Function.update s.closed model true }

def run (s : Runtime) (events : List Event) : Runtime := events.foldl step s

end Runtime
end PtyRuntime
