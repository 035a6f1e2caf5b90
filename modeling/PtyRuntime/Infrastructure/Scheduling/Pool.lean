import PtyRuntime.Application.Projection.State

/-! The fixed worker pool. Every operation holds the mutex of the state and is one step
here; work objects are counted references that anyone outside may drop or copy at any
time, so each look at such a count finds whatever the outside holds at that moment. -/
namespace PtyRuntime

inductive SchedulingError where
  | capacity
  | closed
  | failed
  deriving DecidableEq, Repr

/-- The identity of one work object. -/
abbrev WorkId := Nat

/-- How many references to each work object are held outside the pool at one moment. -/
abbrev Outside := WorkId → Nat

namespace StdWorkScheduler

structure Entry where
  id : Nat
  work : WorkId
  running : Bool
  pending : Bool
  closed : Bool
  due : Option Nat
  deriving DecidableEq, Repr

structure Handle where
  index : Nat
  id : Nat
  deriving DecidableEq, Repr

/-- What a worker took: the slot and the work object. The registration is remembered for
the proofs; the source keeps the bare index. -/
structure Run where
  index : Nat
  work : WorkId
  id : Nat
  deriving DecidableEq, Repr

/-- Where a worker is in its loop. It holds the work object while it runs, and has
released it when it finishes. -/
inductive Worker where
  | looking
  | running (run : Run)
  | finishing (run : Run) (schedule : WorkSchedule)
  | exited
  deriving DecidableEq, Repr

/-- How the callbacks of one invocation ended; `none` is a panic. -/
structure Outcome where
  run : Option WorkSchedule
  failed : Option WorkSchedule
  dropped : Option Unit
  deriving DecidableEq, Repr

/-- What one pass over the slots found. -/
inductive Taken where
  | exit
  | work (run : Run)
  | wait (nearest : Option Nat)
  deriving DecidableEq, Repr

end StdWorkScheduler

open StdWorkScheduler in
structure StdWorkScheduler where
  slots : List (Option Entry)
  next : Nat
  cursor : Nat
  closed : Bool
  workers : List Worker
  deriving DecidableEq, Repr

namespace StdWorkScheduler

/-- `with_workers`, its arguments in range and its threads started. -/
def withWorkers (maxSessions workers : Nat) : StdWorkScheduler where
  slots := List.replicate maxSessions none
  next := 0
  cursor := 0
  closed := false
  workers := List.replicate workers .looking

def slot (s : StdWorkScheduler) (index : Nat) : Option Entry := s.slots[index]?.join

def setSlot (s : StdWorkScheduler) (index : Nat) (entry : Option Entry) : StdWorkScheduler :=
  { s with slots := s.slots.set index entry }

def setWorker (s : StdWorkScheduler) (worker : Nat) (phase : Worker) : StdWorkScheduler :=
  { s with workers := s.workers.set worker phase }

/-- `Weak::strong_count`: the references outside and those of the workers. -/
def strongCount (s : StdWorkScheduler) (outside : Outside) (work : WorkId) : Nat :=
  outside work + s.workers.countP fun
    | .running run => run.work = work
    | _ => false

/-- The first loop of `register`: clear the slots of dropped work. `outside` is what each of
its looks finds. -/
def sweep (s : StdWorkScheduler) (outside : Nat → Outside) : StdWorkScheduler :=
  { s with
    slots := s.slots.mapIdx fun index slot =>
      slot.filter fun entry => !(!entry.running && s.strongCount (outside index) entry.work = 0) }

/-- Dropped work is cleared whatever follows. -/
def register (s : StdWorkScheduler) (work : WorkId) (outside : Nat → Outside) :
    Except SchedulingError Handle × StdWorkScheduler :=
  if s.closed then (.error .closed, s)
  else
    let s := s.sweep outside
    match s.slots.findIdx? Option.isNone with
    | none => (.error .capacity, s)
    | some index =>
      match checkedAdd s.next 1 with
      | none => (.error .failed, s)
      | some id =>
        let s := { s with next := id }
        (.ok ⟨index, id⟩, s.setSlot index (some ⟨id, work, false, false, false, none⟩))

/-- `shutdown`, before it joins the workers. -/
def shutdown (s : StdWorkScheduler) : StdWorkScheduler :=
  { s with
    closed := true
    slots := s.slots.map fun slot =>
      if slot.any (!·.running) then none else slot.map fun entry => { entry with closed := true } }

def wake (s : StdWorkScheduler) (handle : Handle) : Except SchedulingError Unit × StdWorkScheduler :=
  if s.closed then (.error .closed, s)
  else
    match (s.slot handle.index).filter fun entry => entry.id = handle.id && !entry.closed with
    | none => (.error .closed, s)
    | some entry => (.ok (), s.setSlot handle.index (some { entry with pending := true }))

/-- `close`, which dropping the handle calls too. -/
def close (s : StdWorkScheduler) (handle : Handle) : StdWorkScheduler :=
  match (s.slot handle.index).filter (·.id = handle.id) with
  | none => s
  | some entry =>
    if entry.running then s.setSlot handle.index (some { entry with closed := true })
    else s.setSlot handle.index none

/-- The loop of `take` over the remaining offsets. -/
def scan (now cursor : Nat) (outside : Nat → Outside) :
    List Nat → Option Nat → StdWorkScheduler → Taken × StdWorkScheduler
  | [], nearest, s => (.wait nearest, s)
  | offset :: rest, nearest, s =>
    let index := (cursor + offset) % s.slots.length
    match s.slot index with
    | none => scan now cursor outside rest nearest s
    | some entry =>
      if entry.running || entry.closed then scan now cursor outside rest nearest s
      else if s.strongCount (outside (2 * offset)) entry.work = 0 then
        scan now cursor outside rest nearest (s.setSlot index none)
      else if entry.pending || entry.due.any (· ≤ now) then
        -- `upgrade` is a second look at the count
        if s.strongCount (outside (2 * offset + 1)) entry.work = 0 then
          scan now cursor outside rest nearest (s.setSlot index none)
        else
          let started := { entry with pending := false, due := none, running := true }
          (.work ⟨index, entry.work, entry.id⟩,
            { s.setSlot index (some started) with cursor := (index + 1) % s.slots.length })
      else
        let nearest := entry.due.elim nearest fun due => some (nearest.elim due (min · due))
        scan now cursor outside rest nearest s

/-- One pass of `take`; a pass that finds nothing waits and starts over. -/
def take (s : StdWorkScheduler) (worker now : Nat) (outside : Nat → Outside) : Taken × StdWorkScheduler :=
  if s.closed then (.exit, s.setWorker worker .exited)
  else
    match scan now s.cursor outside (List.range s.slots.length) none s with
    | (.work run, s) => (.work run, s.setWorker worker (.running run))
    | (taken, s) => (taken, s)

/-- What `run` makes of the callbacks of one invocation. -/
def Outcome.schedule (outcome : Outcome) : WorkSchedule :=
  let schedule := outcome.run.getD (outcome.failed.getD .finished)
  if outcome.dropped.isNone then .finished else schedule

/-- When the next run is due; `deadline` is what the clock answers to the delay. -/
def nextDue (deadline : Option Nat) : WorkSchedule → Option Nat
  | .after _ => deadline
  | _ => none

/-- The end of `run`'s loop, for the slot the work was taken from. -/
def complete (s : StdWorkScheduler) (index : Nat) (schedule : WorkSchedule) (deadline : Option Nat) :
    StdWorkScheduler :=
  match s.slot index with
  | none => s
  | some entry =>
    if entry.closed || schedule = .finished then s.setSlot index none
    else s.setSlot index (some { entry with running := false, due := nextDue deadline schedule })

inductive Event where
  | register (work : WorkId) (outside : Nat → Outside)
  | wake (handle : Handle)
  | close (handle : Handle)
  | shutdown
  | take (worker now : Nat) (outside : Nat → Outside)
  | ran (worker : Nat) (outcome : Outcome)
  | complete (worker : Nat) (deadline : Option Nat)

inductive Answer where
  | registered (result : Except SchedulingError Handle)
  | woken (result : Except SchedulingError Unit)
  | taken (taken : Taken)
  | quiet

/-- One step of anyone; a worker that is elsewhere in its loop does nothing. -/
def step (s : StdWorkScheduler) : Event → Answer × StdWorkScheduler
  | .register work outside =>
    let (result, s) := s.register work outside
    (.registered result, s)
  | .wake handle =>
    let (result, s) := s.wake handle
    (.woken result, s)
  | .close handle => (.quiet, s.close handle)
  | .shutdown => (.quiet, s.shutdown)
  | .take worker now outside =>
    match s.workers[worker]? with
    | some .looking =>
      let (taken, s) := s.take worker now outside
      (.taken taken, s)
    | _ => (.quiet, s)
  | .ran worker outcome =>
    match s.workers[worker]? with
    | some (.running run) => (.quiet, s.setWorker worker (.finishing run outcome.schedule))
    | _ => (.quiet, s)
  | .complete worker deadline =>
    match s.workers[worker]? with
    | some (.finishing run schedule) =>
      (.quiet, (s.complete run.index schedule deadline).setWorker worker .looking)
    | _ => (.quiet, s)

def run (s : StdWorkScheduler) (events : List Event) : StdWorkScheduler :=
  events.foldl (fun s event => (s.step event).2) s

end StdWorkScheduler
end PtyRuntime
