import PtyRuntime.Application.Projection.Io

/-! The reaper beside the one job slot: sources are retired, checked out for a deletion and
settled, in any order of calls and with other jobs taking the slot in between. -/
namespace PtyRuntime
open Thread

namespace PendingIo

/-- `InFlight::submit`: an occupied slot or a full pool leaves the slot untouched. -/
def submit (io : Option PendingIo) (job : PendingIo) (accepts : Bool) : Except ProjectionError Unit × Option PendingIo :=
  if io.isSome then (.error .worker, io)
  else if accepts then (.ok (), some job)
  else (.error .capacity, io)

/-- `InFlight::take_finished`. -/
def takeFinished (io : Option PendingIo) : Option FinishedIo × Option PendingIo :=
  match io.bind finished with
  | none => (none, io)
  | some finished => (some finished, none)

/-- The deletion a job carries out. -/
def deleting? : PendingIo → Option DeleteAttempt
  | .delete attempt _ => some attempt
  | .commit .. | .restore .. | .transfer .. => none

end PendingIo

namespace SourceReaper

/-- `SourceReaper::start_delete`. -/
def startDelete (r : SourceReaper) (io : Option PendingIo) (accepts : Bool) :
    WorkSchedule × SourceReaper × Option PendingIo :=
  match r.checkOut with
  | none => (.dormant, r, io)
  | some (attempt, rest) =>
    match PendingIo.submit io (.delete attempt none) accepts with
    | (.ok (), io) => (.dormant, rest, io)
    | (.error _, io) => (.after retrySoon, rest.putBack attempt, io)

end SourceReaper

/-- A reaper and its slot. What was retired and what was deleted, each in order, and the
places in the order of retirement of the deletions submitted since attempts were last
restored are recorded beside them. -/
structure Deletions where
  reaper : SourceReaper
  io : Option PendingIo := none
  retired : List CommittedSource := []
  deleted : List CommittedSource := []
  submissions : List Nat := []

namespace Deletions

inductive Event where
  | retire (source : CommittedSource)
  | startDelete (accepts : Bool)
  /-- A job other than a deletion takes a free slot. -/
  | occupy (job : PendingIo)
  /-- The worker of the job publishes; a deletion may end in any way. -/
  | publish (result : Except ProjectionError Unit) (config : ProjectionConfig) (plaintextMax : Nat) (answer : Answer)
  /-- What was published is taken and, if it was a deletion, settled. -/
  | settle
  | restoreAttempts

def step (m : Deletions) : Event → Deletions
  | .retire source => { m with reaper := m.reaper.retire source, retired := m.retired ++ [source] }
  | .startDelete accepts =>
    let (_, reaper, io) := m.reaper.startDelete m.io accepts
    { m with
      reaper, io
      submissions := if m.io.isNone && io.isSome then m.submissions ++ [m.deleted.length] else m.submissions }
  | .occupy job => if m.io.isSome || job.deleting?.isSome then m else { m with io := some job }
  | .publish result config plaintextMax answer =>
    { m with
      io := m.io.map fun
        | .delete attempt none => .delete attempt (some result)
        | job => job.publish config plaintextMax answer }
  | .settle =>
    match PendingIo.takeFinished m.io with
    | (some (.delete attempt result), io) =>
      { m with
        io
        reaper := (m.reaper.finishDelete attempt result).2
        deleted := match result with
          | .ok () => m.deleted ++ [attempt.source]
          | .error _ => m.deleted }
    | (_, io) => { m with io }
  | .restoreAttempts => { m with reaper := m.reaper.restoreAttempts, submissions := [] }

def run (m : Deletions) (events : List Event) : Deletions := events.foldl step m

/-- A projection that has retired nothing. -/
def start (maxAttempts : Nat) : Deletions where
  reaper := { maxAttempts }

/-- The source whose deletion is in flight. -/
def inFlight (m : Deletions) : Option CommittedSource := (m.io.bind PendingIo.deleting?).map (·.source)

end Deletions

namespace Coordinator

theorem submit_alone (c : Coordinator) (job : PendingIo) (answer : Answer) :
    ∃ c', (submit job).alone c [answer] = some ((PendingIo.submit c.workspace.io job answer.submitted).1, c') ∧
      c'.workspace.io = (PendingIo.submit c.workspace.io job answer.submitted).2 ∧
      c'.workspace.reaper = c.workspace.reaper := by
  rw [submit, alone_input_bind, alone_lock, PendingIo.submit]
  cases c.workspace.io.isSome with
  | true => exact ⟨c, rfl, rfl, rfl⟩
  | false =>
    cases answer.submitted with
    | true => exact ⟨_, rfl, rfl, rfl⟩
    | false => exact ⟨c, rfl, rfl, rfl⟩

/-- The worker's own call, alone, does the same to the workspace. -/
theorem startDelete_alone (c : Coordinator) (answer : Answer) :
    ∃ c', startDelete.alone c (if c.workspace.reaper.checkOut.isSome then [answer] else []) =
        some ((c.workspace.reaper.startDelete c.workspace.io answer.submitted).1, c') ∧
      (c'.workspace.reaper, c'.workspace.io) =
        (c.workspace.reaper.startDelete c.workspace.io answer.submitted).2 := by
  rw [startDelete, alone_lock_bind, SourceReaper.startDelete]
  cases due : c.workspace.reaper.checkOut with
  | none => exact ⟨c, rfl, rfl⟩
  | some checked =>
    obtain ⟨attempt, rest⟩ := checked
    obtain ⟨c', submitted, io, reaper⟩ := submit_alone
      { c with
        workspace := { c.workspace with reaper := rest }
        storage := c.storage.hold (.delete attempt.source.disk) } (.delete attempt none) answer
    dsimp only at submitted io reaper ⊢
    rw [if_pos (Option.isSome_some), ← List.append_nil [answer], alone_bind submitted]
    cases offered : PendingIo.submit c.workspace.io (.delete attempt none) answer.submitted with
    | mk outcome slot =>
      rw [offered] at io
      cases outcome with
      | ok value => exact ⟨c', rfl, by rw [reaper, io]⟩
      | error e =>
        refine ⟨_, rfl, ?_⟩
        dsimp only
        rw [reaper, io]

/-- Alone, it takes the finished job as the workspace alone would. -/
theorem takeFinished_alone (c : Coordinator) :
    ∃ c', takeFinished.alone c [] = some ((PendingIo.takeFinished c.workspace.io).1, c') ∧
      c'.workspace.io = (PendingIo.takeFinished c.workspace.io).2 := by
  rw [takeFinished, alone_lock, PendingIo.takeFinished]
  cases c.workspace.io.bind PendingIo.finished with
  | none => exact ⟨c, rfl, rfl⟩
  | some finished => exact ⟨_, rfl, rfl⟩

/-- Alone, it settles a deletion as the reaper of the workspace does. -/
theorem settleDelete_alone (c : Coordinator) (attempt : DeleteAttempt) (result : Except ProjectionError Unit) :
    ∃ c', (settleDelete attempt result).alone c [] =
        some ((c.workspace.reaper.finishDelete attempt result).1, c') ∧
      c'.workspace.reaper = (c.workspace.reaper.finishDelete attempt result).2 := by
  cases result with
  | ok value => exact ⟨_, rfl, rfl⟩
  | error e => exact ⟨_, rfl, rfl⟩

end Coordinator
end PtyRuntime
