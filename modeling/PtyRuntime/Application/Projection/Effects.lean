import PtyRuntime.Application.Projection.Callers

/-! What the steps of each group of programs can do. A relation that allows the
effects of a group holds of every step of its programs, whatever the surroundings
answer; so an argument that is not about a group only looks at its effects. -/
namespace PtyRuntime
open Thread

/-- The observer starts where the checkpoint stands. -/
def StateTransfer.Joined (transfer : StateTransfer) : Prop :=
  transfer.observer.start.processed = transfer.checkpoint.descriptor.processed ∧
    transfer.observer.start.controlGeneration = transfer.checkpoint.descriptor.controlGeneration

/-- A result that hands out no transfer with a gap. -/
def Gapless (result : Except ProjectionError TicketValue) : Prop :=
  ∀ transfer, result = .ok (.transferred transfer) → transfer.Joined

theorem gapless_error (error : ProjectionError) : Gapless (.error error) := by simp [Gapless]

theorem gapless_map {α : Type} {f : α → TicketValue} (other : ∀ a transfer, f a ≠ .transferred transfer)
    (result : Except ProjectionError α) : Gapless (result.map f) := by
  intro transfer same
  cases result with
  | error error => cases same
  | ok a => exact absurd (Except.ok.inj same) (other a transfer)

/-- What a step may do to the tickets. -/
inductive TicketMove : List Ticket → List Ticket → Prop
  | settle {tickets : List Ticket} (ticket : TicketId) (result : Except ProjectionError TicketValue)
      (gapless : Gapless result) : TicketMove tickets (tickets.modify ticket (·.settle result))
  | reserve {tickets : List Ticket} : TicketMove tickets (tickets ++ [({} : Ticket)])
  | deliver {tickets : List Ticket} (ticket : TicketId) :
      TicketMove tickets (tickets.modify ticket ({ · with result := none }))
  | cancel {tickets : List Ticket} (ticket : TicketId) :
      TicketMove tickets (tickets.modify ticket ({ · with cancelled := true }))

namespace Coordinator

variable {W R : Coordinator → Coordinator → Prop}

theorem locked_each {α : Type} {f : Admission → α × Admission}
    (step : ∀ c : Coordinator, R c { c with admission := (f c.admission).2 }) :
    (locked f).Upholds W R := Upholds.lock step

/-- The effects of completing waits. -/
class Completing (W : outParam (Coordinator → Coordinator → Prop)) (R : Coordinator → Coordinator → Prop) :
    Prop where
  refl : ∀ c, R c c
  tickets : ∀ c tickets, TicketMove c.tickets tickets → R c { c with tickets }

namespace Completing

variable [Completing W R]

theorem look_each {α : Type} {f : Coordinator → α} : (look f : Work α).Upholds W R :=
  Upholds.look refl

theorem completeTicket_each (ticket : TicketId) {result : Except ProjectionError TicketValue}
    (gapless : Gapless result) : (completeTicket ticket result).Upholds W R :=
  Upholds.update fun c => tickets c _ (.settle ticket result gapless)

theorem failRequest_each (request : SnapshotRequest) (error : ProjectionError) :
    (failRequest request error).Upholds W R := by
  cases request <;> exact completeTicket_each _ (gapless_error error)

theorem failCommand_each (command : Command) (error : ProjectionError) :
    (failCommand command error).Upholds W R := by
  cases command with
  | output bytes => exact Upholds.pure _
  | processExited => exact Upholds.pure _
  | resize size ticket => exact completeTicket_each _ (gapless_error error)
  | view ticket => exact completeTicket_each _ (gapless_error error)
  | checkpoint request => exact failRequest_each _ _

theorem failCommands_each (commands : List Command) (error : ProjectionError) :
    (failCommands commands error).Upholds W R := by
  induction commands with
  | nil => exact Upholds.pure _
  | cons command rest ih => exact (failCommand_each command error).bind fun _ => ih

/-- Failing, where either step is allowed by itself. -/
theorem fail_of_steps (error : ProjectionError)
    (fail : ∀ c : Coordinator, R c { c with admission := (c.admission.fail error).2 })
    (sealed : ∀ c drain, R c { c with journal := (c.journal.finish drain (some error)).2 }) :
    (Coordinator.fail error).Upholds W R :=
  (Upholds.lock fail).bind fun answer =>
    (Upholds.update fun c => sealed c answer.2).bind fun _ => failCommands_each _ _

theorem requestCancelled_each (request : SnapshotRequest) : (requestCancelled request).Upholds W R := by
  cases request <;> exact look_each

theorem completeWaiters_each (waiters : List TicketId) (failed : Option ProjectionError) :
    (completeWaiters waiters failed).Upholds W R := by
  induction waiters with
  | nil => exact Upholds.pure _
  | cons waiter rest ih => exact (completeTicket_each waiter (gapless_map (by simp) _)).bind fun _ => ih

theorem wake_each : wake.Upholds W R := by
  apply look_each.bind
  intro registered
  split
  · exact Upholds.input.bind fun _ => Upholds.pure _
  · exact Upholds.pure _

end Completing

open Completing

/-- The effects of failing the projection and of completing waits. -/
class Bystanding (W : outParam (Coordinator → Coordinator → Prop)) (R : Coordinator → Coordinator → Prop) :
    Prop extends Completing W R where
  fails : ∀ error, (Coordinator.fail error).Upholds W R

namespace Bystanding

variable [Bystanding W R]

theorem nativeCall_each {α : Type} (answer : Answer → Option (Except TerminalError α)) :
    (nativeCall answer).Upholds W R := by
  apply Upholds.input.bind
  intro a
  rcases answer a with _ | (error | value)
  · exact (fails _).bind fun _ => Upholds.pure _
  · exact Upholds.pure _
  · exact Upholds.pure _

theorem wakeOrFail_each : wakeOrFail.Upholds W R := by
  apply wake_each.bind
  intro woken
  cases woken with
  | error error => exact fails error
  | ok _ => exact Upholds.pure _

theorem encode_each (descriptor : CheckpointDescriptor) : (encode descriptor).Upholds W R := by
  apply look_each.bind
  intro present
  split
  · apply (nativeCall_each _).bind
    intro result
    cases result with
    | error e => exact Upholds.pure _
    | ok checkpoint => exact look_each
  · exact Upholds.pure _

theorem snapshotResult_each : snapshotResult.Upholds W R := by
  apply Upholds.input.bind
  intro lease
  split
  · exact look_each.bind fun descriptor => encode_each descriptor
  · exact Upholds.pure _

theorem copyView_each : copyView.Upholds W R := by
  apply look_each.bind
  intro present
  split
  · apply (nativeCall_each _).bind
    intro view
    cases view with
    | error e => exact Upholds.pure _
    | ok view =>
      apply (nativeCall_each _).bind
      intro history
      cases history with
      | error e => exact Upholds.pure _
      | ok history => exact look_each.bind fun _ => Upholds.pure _
  · exact Upholds.pure _

theorem applyView_each (ticket : TicketId) : (applyView ticket).Upholds W R := by
  apply look_each.bind
  intro cancelled
  split
  · exact Upholds.pure _
  · refine Upholds.bind ?_ fun result => look_each.bind fun now => completeTicket_each _ ?_
    · refine Upholds.input.bind fun lease => look_each.bind fun reservation => ?_
      cases reservation with
      | error e => exact Upholds.pure _
      | ok bytes =>
        dsimp only
        split
        · exact copyView_each
        · exact Upholds.pure _
    · split
      · exact gapless_error _
      · exact gapless_map (by simp) result

end Bystanding

open Bystanding

/-- The effects of opening a transfer. -/
class Observing (W : outParam (Coordinator → Coordinator → Prop)) (R : Coordinator → Coordinator → Prop) :
    Prop extends Bystanding W R where
  observe : ∀ c, R c { c with journal := c.journal.openObserver.2 }
  forget : ∀ c id, R c { c with journal := c.journal.remove id }

namespace Observing

variable [Observing W R]

theorem openTransfer_each (ticket : TicketId) (checkpoint : TerminalCheckpoint) :
    (openTransfer ticket checkpoint).Upholds W R := by
  refine (Upholds.lock observe).bind fun opened => ?_
  cases opened with
  | error e => exact completeTicket_each _ (gapless_error e)
  | ok observer =>
    dsimp only
    split
    · exact (Upholds.update fun c => forget c observer.id).bind fun _ => completeTicket_each _ (gapless_error _)
    · rename_i level
      refine completeTicket_each _ fun transfer same => ?_
      obtain rfl := TicketValue.transferred.inj (Except.ok.inj same)
      exact ⟨not_not.mp (not_or.mp level).1, not_not.mp (not_or.mp level).2⟩

theorem completeRequest_each (request : SnapshotRequest)
    (result : Except ProjectionError TerminalCheckpoint) : (completeRequest request result).Upholds W R := by
  cases request with
  | checkpoint ticket => exact completeTicket_each _ (gapless_map (by simp) result)
  | transfer ticket =>
    apply look_each.bind
    intro cancelled
    split
    · exact Upholds.pure _
    · cases result with
      | error e => exact completeTicket_each _ (gapless_error e)
      | ok checkpoint => exact openTransfer_each ticket checkpoint

theorem snapshot_each (request : SnapshotRequest) : (snapshot request).Upholds W R := by
  apply (requestCancelled_each request).bind
  intro cancelled
  split
  · exact Upholds.pure _
  · refine snapshotResult_each.bind fun result => look_each.bind fun now => ?_
    split
    · exact failRequest_each _ _
    · exact completeRequest_each _ _

end Observing

/-- The effects of scanning output for program status. -/
class Reporting (W : outParam (Coordinator → Coordinator → Prop)) (R : Coordinator → Coordinator → Prop) :
    Prop extends Bystanding W R where
  program : ∀ c programStatus exits, R c { c with programStatus, exits }

namespace Reporting

variable [Reporting W R]

theorem commitStatus_each (prepared : PreparedStatus) : (commitStatus prepared).Upholds W R := by
  refine Upholds.lock fun c => ?_
  split
  · exact refl c
  · split <;> exact program c _ _

theorem applyExit_each : applyExit.Upholds W R := by
  refine Upholds.bind (Upholds.lock fun c => ?_) fun result => ?_
  · split <;> exact program c _ _
  · cases result with
    | error error => exact fails error
    | ok _ => exact Upholds.pure _

theorem finishProgramDrain_each : finishProgramDrain.Upholds W R := by
  refine Upholds.lock fun c => ?_
  split
  · split <;> exact program c _ _
  · exact program c _ _

theorem clearProgramStatus_each : clearProgramStatus.Upholds W R :=
  Upholds.update fun c => program c _ _

end Reporting

open Observing Reporting

/-- The effects of putting a command back. -/
class Returning (W : outParam (Coordinator → Coordinator → Prop)) (R : Coordinator → Coordinator → Prop) :
    Prop extends Bystanding W R where
  giveBack : ∀ c command, command.mutates = true → R c { c with
    admission := (c.admission.requeue command).2
    trace := c.trace.release command
    order := c.order.release command }

theorem Returning.requeue_each [Returning W R] (command : Command) (mutates : command.mutates = true) :
    (requeue command).Upholds W R := by
  refine (Upholds.lock fun c => Returning.giveBack c command mutates).bind fun refused => ?_
  cases refused with
  | none => exact Upholds.pure _
  | some command => exact failCommand_each command _

/-- The effects of keeping a reply and of writing it. -/
class Replying (W : outParam (Coordinator → Coordinator → Prop)) (R : Coordinator → Coordinator → Prop) :
    Prop extends Bystanding W R where
  reply : ∀ c reply, R c { c with workspace := { c.workspace with reply } }

namespace Replying

variable [Replying W R]

theorem pollReply_each (reply : Reply) : (pollReply reply).Upholds W R := by
  apply Upholds.input.bind
  intro a
  cases a.written with
  | none => exact Upholds.pure _
  | some outcome =>
    refine Upholds.bind ?_ fun _ => (Upholds.update fun c => Replying.reply c _).bind fun _ => Upholds.pure _
    unfold checkWritten
    split
    · exact fails _
    · exact Upholds.pure _

theorem submitReply_each (reply : Reply) : (submitReply reply).Upholds W R := by
  apply look_each.bind
  intro bound
  split
  · apply Upholds.input.bind
    intro a
    split
    · split
      · exact (Upholds.update fun c => Replying.reply c _).bind fun _ => pollReply_each reply
      · exact Upholds.pure _
      · exact (fails _).bind fun _ => (Upholds.update fun c => Replying.reply c _).bind fun _ =>
          Upholds.pure _
    · exact Upholds.pure _
  · exact Upholds.pure _

theorem pollReplySlot_each : pollReplySlot.Upholds W R := by
  apply look_each.bind
  intro pending
  cases pending with
  | none => exact Upholds.pure _
  | some reply =>
    dsimp only
    split
    · exact pollReply_each reply
    · exact submitReply_each reply

end Replying

/-- The effects of feeding output and of publishing what it caused. -/
class Writing (W : outParam (Coordinator → Coordinator → Prop)) (R : Coordinator → Coordinator → Prop) :
    Prop extends Replying W R where
  feed : ∀ c bytes, R c { c with
    trace := { c.trace with fed := c.trace.fed ++ bytes }
    order := c.order.give (bytes.map .byte) }
  appendOutput : ∀ c leases bytes processed,
    R c { c with journal := (c.journal.output leases bytes processed).2 }

namespace Writing

variable [Writing W R]

theorem feed_each (bytes : Bytes) : (Coordinator.feed bytes).Upholds W R :=
  (Upholds.update fun c => feed c bytes).bind fun _ => nativeCall_each _

theorem feedStatusSlice_each (bytes aggregate : Bytes) (limit : Nat) :
    (feedStatusSlice bytes aggregate limit).Upholds W R := by
  apply (feed_each bytes).bind
  intro result
  cases result <;> exact Upholds.pure _

theorem feedQueries_each (bytes : Bytes) (limit start : Nat) (aggregate : Bytes) (queries : List Nat) :
    (feedQueries bytes limit start aggregate queries).Upholds W R := by
  induction queries generalizing start aggregate with
  | nil =>
    unfold feedQueries
    split
    · exact feedStatusSlice_each _ _ _
    · exact Upholds.pure _
  | cons stop rest ih =>
    unfold feedQueries
    apply (feedStatusSlice_each _ _ _).bind
    intro result
    cases result with
    | error e => exact Upholds.pure _
    | ok aggregate =>
      dsimp only
      split
      · exact Upholds.pure _
      · exact ih _ _

theorem feedPresent_each (bytes : Bytes) (queries : List Nat) (limit : Nat) :
    (feedPresent bytes queries limit).Upholds W R := by
  apply look_each.bind
  intro present
  split
  · unfold feedStatusSlices
    split
    · apply (feed_each bytes).bind
      intro result
      cases result <;> exact Upholds.pure _
    · exact feedQueries_each _ _ _ _ _
  · exact Upholds.pure _

theorem publishOutput_each (bytes effects : Bytes) : (publishOutput bytes effects).Upholds W R := by
  refine look_each.bind fun applied => Upholds.input.bind fun a =>
    (Upholds.update fun c => appendOutput c a.leases bytes applied.processed).bind fun _ => ?_
  split
  · exact Upholds.pure _
  · exact (Upholds.update fun c => Replying.reply c _).bind fun _ => Upholds.pure _

end Writing

open Writing

theorem Returning.abandonOutput_each [Returning W R] (bytes : Bytes) (error : ProjectionError) :
    (abandonOutput bytes error).Upholds W R :=
  (Returning.requeue_each _ rfl).bind fun _ => (fails error).bind fun _ => Upholds.pure _

/-- The effects of applying output. -/
class Feeding (W : outParam (Coordinator → Coordinator → Prop)) (R : Coordinator → Coordinator → Prop) :
    Prop extends Reporting W R, Returning W R, Writing W R where
  count : ∀ bytes, (recordProcessed bytes).Upholds W R

namespace Feeding

variable [Feeding W R]

theorem applyOutput_each (bytes : Bytes) : (applyOutput bytes).Upholds W R := by
  refine look_each.bind fun limit => Upholds.input.bind fun scan => Upholds.input.bind fun record =>
    Upholds.input.bind fun reply => look_each.bind fun prepared => ?_
  rcases prepared with (_ | error) | prepared
  · exact (Returning.requeue_each _ rfl).bind fun _ => Upholds.pure _
  · exact Returning.abandonOutput_each _ _
  · apply (feedPresent_each _ _ _).bind
    intro fed
    cases fed with
    | error error => exact Returning.abandonOutput_each _ _
    | ok effects =>
      refine Upholds.bind ((commitStatus_each prepared).bind fun result => ?_) fun committed => ?_
      · cases result with
        | error e => exact Upholds.pure _
        | ok _ => exact count bytes
      · cases committed with
        | error error => exact Returning.abandonOutput_each _ _
        | ok _ => exact publishOutput_each _ _

end Feeding

/-- The effects of starting and settling a resize. -/
class Resizes (W : outParam (Coordinator → Coordinator → Prop)) (R : Coordinator → Coordinator → Prop) :
    Prop extends Returning W R where
  slot : ∀ c resize, R c { c with workspace := { c.workspace with resize } }
  size : ∀ c size, R c { c with
    workspace := { c.workspace with config := { c.workspace.config with size } } }
  give : ∀ c size generation, R c { c with order := c.order.give [.resize size generation] }
  settle : ∀ c settled, R c { c with order := c.order.settle settled }
  finish : ∀ c settled, R c { c with
    workspace := { c.workspace with resize := none }, order := c.order.settle settled }
  control : ∀ generation, (recordControlApplied generation).Upholds W R
  appendResize : ∀ c leases size generation,
    R c { c with journal := (c.journal.resized leases size generation).2 }

namespace Resizes

variable [Resizes W R]

theorem applyResize_each (size : TerminalSize) (ticket : TicketId) :
    (applyResize size ticket).Upholds W R := by
  apply look_each.bind
  intro bound
  split
  · apply look_each.bind
    intro status
    cases status.controlGeneration.next with
    | none => exact (completeTicket_each _ (gapless_error _)).bind fun _ => (fails _).bind fun _ => Upholds.pure _
    | some generation =>
      apply Upholds.input.bind
      intro a
      rcases a.resizing with error | _
      · exact (completeTicket_each _ (by simp [Gapless])).bind fun _ => (Upholds.update fun c => settle c _).bind fun _ =>
          Upholds.pure _
      · exact (Upholds.update fun c => slot c _).bind fun _ => Upholds.pure _
  · exact (Returning.requeue_each _ rfl).bind fun _ => Upholds.pure _

theorem resizeModel_each (resize : Resizing) (os : Except ProcessError Unit) :
    (resizeModel resize os).Upholds W R := by
  cases os with
  | error e => exact Upholds.pure _
  | ok _ =>
    apply look_each.bind
    intro present
    split
    · exact (Upholds.update fun c => give c _ _).bind fun _ => nativeCall_each _
    · exact Upholds.pure _

theorem settleModel_each (resize : Resizing) (os : Except ProcessError Unit)
    (model : Except ProjectionError Unit) : (settleModel resize os model).Upholds W R := by
  rcases model with error | _
  · cases os with
    | error e => exact Upholds.pure _
    | ok _ => exact fails error
  · refine (Upholds.update fun c => size c _).bind fun _ => (control _).bind fun result => ?_
    cases result with
    | error error => exact fails error
    | ok _ => exact Upholds.input.bind fun a => Upholds.update fun c => appendResize c _ _ _

theorem pollResizeSlot_each : pollResizeSlot.Upholds W R := by
  apply look_each.bind
  intro pending
  cases pending with
  | none => exact Upholds.pure _
  | some resize =>
    apply Upholds.input.bind
    intro a
    cases a.osResized with
    | none => exact Upholds.pure _
    | some os =>
      refine Upholds.bind ?_ fun _ => Upholds.pure _
      exact (resizeModel_each resize os).bind fun model => (settleModel_each resize os model).bind
        fun _ => (completeTicket_each _ (by simp [Gapless])).bind fun _ => Upholds.update fun c => finish c _

theorem closingResize_each : closingResize.Upholds W R := by
  apply look_each.bind
  intro pending
  cases pending with
  | none => exact Upholds.pure _
  | some resize =>
    apply look_each.bind
    intro registered
    split
    · apply Upholds.input.bind
      intro a
      cases a.osResized with
      | none => exact Upholds.pure _
      | some os =>
        exact (completeTicket_each _ (by simp [Gapless])).bind fun _ => (Upholds.update fun c => slot c _).bind fun _ =>
          Upholds.pure _
    · exact Upholds.pure _

end Resizes

/-- The effects of operating the native model: all that serving commands does but
for taking them and for program status. -/
class Operating (W : outParam (Coordinator → Coordinator → Prop)) (R : Coordinator → Coordinator → Prop) :
    Prop extends Observing W R, Writing W R, Resizes W R where
  poise : ∀ residency, (checkFailure residency).Upholds W R
  sealClean : ∀ c drain, R c { c with journal := (c.journal.finish (some drain) none).2 }
  owe : ∀ c owed, R c { c with workspace := { c.workspace with historyStepOwed := owed } }

namespace Operating

variable [Operating W R]

theorem pollInflightOperations_each : pollInflightOperations.Upholds W R := by
  apply look_each.bind
  intro registered
  split
  · apply Replying.pollReplySlot_each.bind
    intro waiting
    cases waiting with
    | some schedule => exact Upholds.pure _
    | none => exact Resizes.pollResizeSlot_each
  · exact Upholds.pure _

theorem discardOperations_each : discardOperations.Upholds W R := by
  refine (Upholds.update fun c => Replying.reply c _).bind fun _ => look_each.bind fun pending => ?_
  cases pending with
  | none => exact Upholds.pure _
  | some resize =>
    exact (Upholds.update fun c => Resizes.slot c _).bind fun _ => completeTicket_each _ (gapless_error _)

theorem failed_each : failed.Upholds W R := by
  refine (fails _).bind fun _ => discardOperations_each.bind fun _ => look_each.bind fun seen => ?_
  cases seen.residency <;> exact Upholds.pure _

end Operating

/-- The effects of serving commands. -/
class Serving (W : outParam (Coordinator → Coordinator → Prop)) (R : Coordinator → Coordinator → Prop) :
    Prop extends Operating W R, Feeding W R where
  takeNext : (takeCommand (·.admission.takeNext)).Upholds W R
  takeOutput : (takeCommand (·.admission.takeNextOutputWhileServing)).Upholds W R
  takeRestoring : (takeCommand fun c => c.admission.takeNextIf c.allowedDuringRestore).Upholds W R
  marker : takeMarker.Upholds W R

namespace Serving

variable [Serving W R]

theorem applyCommand_each (command : Command) : (applyCommand command).Upholds W R := by
  cases command with
  | output bytes => exact Feeding.applyOutput_each bytes
  | processExited => exact applyExit_each.bind fun _ => Upholds.pure _
  | resize size ticket => exact Resizes.applyResize_each size ticket
  | view ticket => exact (applyView_each ticket).bind fun _ => Upholds.pure _
  | checkpoint request => exact (snapshot_each request).bind fun _ => Upholds.pure _

theorem serveBatch_each (left fed : Nat) (schedule : WorkSchedule) :
    (serveBatch left fed schedule).Upholds W R := by
  induction left generalizing fed schedule with
  | zero => exact Upholds.pure _
  | succ left ih =>
    apply look_each.bind
    intro quiet
    split
    · apply takeOutput.bind
      intro taken
      cases taken with
      | none => exact Upholds.pure _
      | some command => exact (applyCommand_each command).bind fun schedule => ih _ schedule
    · exact Upholds.pure _

theorem serveCommand_each (command : Command) : (serveCommand command).Upholds W R := by
  apply (applyCommand_each command).bind
  intro schedule
  cases command with
  | output bytes => exact serveBatch_each _ _ _
  | processExited | resize | view | checkpoint => exact Upholds.pure _

theorem takeExit_each : takeExit.Upholds W R := by
  apply marker.bind
  intro taken
  cases taken with
  | none => exact Upholds.pure _
  | some command => exact applyExit_each

theorem sealJournalIfDrained_each : sealJournalIfDrained.Upholds W R := by
  refine look_each.bind fun engineIdle => look_each.bind fun drain => ?_
  cases drain with
  | none => exact Upholds.pure _
  | some drain =>
    apply finishProgramDrain_each.bind
    intro result
    cases result with
    | error error => exact fails error
    | ok _ => exact Upholds.update fun c => Operating.sealClean c drain

end Serving

section Bystanders

variable [Bystanding W R]

theorem reserveRequestSlot_each : reserveRequestSlot.Upholds W R := by
  apply Upholds.input.bind
  intro a
  split
  · exact Upholds.lock fun c => Completing.tickets c _ .reserve
  · exact Upholds.pure _

theorem failUnlessClosed_each (woken : Except ProjectionError Unit) :
    (failUnlessClosed woken).Upholds W R := by
  cases woken with
  | ok _ => exact Upholds.pure _
  | error error =>
    apply look_each.bind
    intro seen
    split
    · exact Upholds.pure _
    · exact fails _

/-- Reporting a drain, where either step is allowed by itself. -/
theorem notifyOutputDrained_of_steps (outcome : DrainOutcome)
    (drain : (locked (·.recordDrain outcome)).Upholds W R)
    (sealed : ∀ c drain error, R c { c with journal := (c.journal.finish drain (some error)).2 }) :
    (notifyOutputDrained outcome).Upholds W R := by
  refine drain.bind fun failure => Upholds.bind ?_ fun _ => wake_each.bind failUnlessClosed_each
  cases failure with
  | none => exact Upholds.pure _
  | some error => exact Upholds.update fun c => sealed c (some outcome) error

theorem wakeForClose_each : (do
    match ← wake with
    | .ok () => pure (.ok ())
    | .error error => do
      let outcome ← look (·.admission.closeOutcome)
      pure (if outcome.isNone then .error error else .ok ()) :
      Work (Except ProjectionError Unit)).Upholds W R := by
  apply wake_each.bind
  intro woken
  cases woken with
  | ok _ => exact Upholds.pure _
  | error error => exact look_each.bind fun _ => Upholds.pure _

/-- Closing, where either step is allowed by itself. -/
theorem close_of_steps (request : ∀ waiter, (requestClose waiter).Upholds W R)
    (closeJournal : ∀ c : Coordinator, R c { c with journal := c.journal.close.2 }) :
    (Coordinator.close).Upholds W R := by
  refine reserveRequestSlot_each.bind fun ticket => (request ticket).bind fun answer =>
    Upholds.bind ?_ fun result => ?_
  · cases answer with
    | alreadyClosed outcome =>
      cases ticket with
      | none => exact Upholds.pure _
      | some ticket => exact (completeTicket_each _ (gapless_map (by simp) outcome)).bind fun _ => Upholds.pure _
    | started rejected =>
      exact (Upholds.update closeJournal).bind fun _ => (failCommands_each _ _).bind fun _ =>
        wakeForClose_each
  · cases result with
    | error e => exact Upholds.pure _
    | ok _ => cases ticket <;> exact Upholds.pure _

end Bystanders

theorem discard_each {α : Type} {work : Work α} (each : work.Upholds W R) : (discard work).Upholds W R :=
  each.bind fun _ => Upholds.pure _

/-- The effects of everything that runs beside the worker, but for offered output,
the jobs and the other projections. -/
class Requesting (W : outParam (Coordinator → Coordinator → Prop)) (R : Coordinator → Coordinator → Prop) :
    Prop extends Bystanding W R where
  admitResize : ∀ size ticket now, (Coordinator.admitResize size ticket now).Upholds W R
  push : ∀ command : Command, command.mutates = false → command ≠ .processExited →
    (locked (·.admitCommand fun a => (.ok command, a))).Upholds W R
  exit : recordExit.Upholds W R
  drains : ∀ outcome, (notifyOutputDrained outcome).Upholds W R
  closes : (Coordinator.close).Upholds W R
  wiring : ∀ c process, R c { c with wiring := { c.wiring with process } }
  read : ∀ observer cursor waker, (readObserver observer cursor waker).Upholds W R
  cancel : ∀ c id, R c { c with journal := c.journal.cancelWait id }
  forget : ∀ c id, R c { c with journal := c.journal.remove id }

namespace Requesting

variable [Requesting W R]

theorem resize_each (size : TerminalSize) : (resize size).Upholds W R := by
  apply look_each.bind
  intro available
  split
  · apply reserveRequestSlot_each.bind
    intro reserved
    cases reserved with
    | none => exact Upholds.pure _
    | some ticket =>
      apply look_each.bind
      intro staged
      split
      · refine Upholds.input.bind fun a => (admitResize size ticket a.now).bind fun admitted => ?_
        cases admitted with
        | error e => exact Upholds.pure _
        | ok _ => exact wakeOrFail_each.bind fun _ => Upholds.pure _
      · exact Upholds.pure _
  · exact Upholds.pure _

theorem request_each (command : TicketId → Command)
    (inert : ∀ ticket, (command ticket).mutates = false)
    (other : ∀ ticket, command ticket ≠ .processExited) : (request command).Upholds W R := by
  apply reserveRequestSlot_each.bind
  intro reserved
  cases reserved with
  | none => exact Upholds.pure _
  | some ticket =>
    apply look_each.bind
    intro available
    split
    · refine Upholds.bind ((push (command ticket) (inert ticket) (other ticket)).bind fun admitted => ?_) fun result => ?_
      · cases admitted with
        | error e => exact Upholds.pure _
        | ok _ => exact wakeOrFail_each.bind fun _ => Upholds.pure _
      · cases result <;> exact Upholds.pure _
    · exact Upholds.pure _

theorem beginTransfer_each : beginTransfer.Upholds W R := by
  apply Upholds.input.bind
  intro permit
  split
  · exact request_each _ (fun _ => rfl) fun _ => nofun
  · exact Upholds.pure _

theorem notifyProcessExited_each : notifyProcessExited.Upholds W R := by
  apply exit.bind
  intro queued
  split
  · exact wakeOrFail_each
  · exact Upholds.pure _

theorem bindProcess_each : bindProcess.Upholds W R := by
  apply look_each.bind
  intro before
  split
  · exact Upholds.pure _
  refine Upholds.bind (Upholds.lock fun c => ?_) fun bound => ?_
  · dsimp only
    split
    · exact refl c
    · exact wiring c true
  split
  · apply look_each.bind
    intro after
    split
    · exact (Upholds.update fun c => wiring c false).bind fun _ => Upholds.pure _
    · apply wake_each.bind
      intro woken
      cases woken with
      | ok _ => exact Upholds.pure _
      | error error => exact (fails error).bind fun _ => Upholds.pure _
  · exact Upholds.pure _

theorem pollWait_each (ticket : TicketId) : (pollWait ticket).Upholds W R := by
  refine Upholds.lock fun c => ?_
  split
  · exact refl c
  · split
    · exact Completing.tickets c _ (.deliver ticket)
    · exact refl c

/-- Every call but output's, a job's and the other projections' only has the effects
above. -/
theorem call_each (call : Call) (silent : ∀ bytes, call ≠ .stageOutput bytes)
    (jobless : call ≠ .runJob) (own : ∀ use, call ≠ .shareDisk use) : call.thread.Upholds W R := by
  cases call with
  | stageOutput bytes => exact absurd rfl (silent bytes)
  | resize size => exact discard_each (resize_each size)
  | view => exact discard_each (request_each _ (fun _ => rfl) fun _ => nofun)
  | checkpoint => exact discard_each (request_each _ (fun _ => rfl) fun _ => nofun)
  | beginTransfer => exact discard_each beginTransfer_each
  | notifyProcessExited => exact notifyProcessExited_each
  | notifyOutputDrained outcome => exact drains outcome
  | close => exact discard_each closes
  | bindProcess => exact discard_each bindProcess_each
  | pollWait ticket => exact discard_each (pollWait_each ticket)
  | dropWait ticket =>
    exact (Upholds.update fun c => Completing.tickets c _ (.cancel ticket)).bind fun _ =>
      Upholds.update fun c => Completing.tickets c _ (.deliver ticket)
  | readObserver observer cursor waker => exact discard_each (read observer cursor waker)
  | cancelObserver observer => exact Upholds.update fun c => cancel c _
  | dropObserver observer => exact Upholds.update fun c => forget c _
  | runJob => exact absurd rfl jobless
  | shareDisk use => exact absurd rfl (own use)

end Requesting

/-- The effects of every call but a job's and the other projections'. -/
class Calling (W : outParam (Coordinator → Coordinator → Prop)) (R : Coordinator → Coordinator → Prop) :
    Prop extends Requesting W R where
  stall : ∀ c stallGeneration, R c { c with stallGeneration }
  offer : ∀ bytes answer, (admitOutput bytes answer).Upholds W R

namespace Calling

variable [Calling W R]

theorem stageOutput_each (bytes : Bytes) : (stageOutput bytes).Upholds W R := by
  apply look_each.bind
  intro available
  split
  · refine Upholds.input.bind fun a => (Upholds.update fun c => stall c _).bind fun _ =>
      (offer bytes a).bind fun outcome => ?_
    cases outcome with
    | rejected acceptance => exact Upholds.pure _
    | accepted => exact Upholds.pure _
    | queued => exact wakeOrFail_each.bind fun _ => Upholds.pure _
  · exact Upholds.pure _

/-- Whatever a call does, it does one of these things step by step. -/
theorem call_each (call : Call) (jobs : runJob.Upholds W R) (shared : ∀ use, (shareDisk use).Upholds W R) :
    call.thread.Upholds W R := by
  by_cases silent : ∀ bytes, call ≠ .stageOutput bytes
  · by_cases jobless : call = .runJob
    · exact jobless ▸ jobs
    by_cases own : ∀ use, call ≠ .shareDisk use
    · exact Requesting.call_each call silent jobless own
    · obtain ⟨use, used⟩ := not_forall.mp own
      exact not_not.mp used ▸ shared use
  · obtain ⟨bytes, offered⟩ := not_forall.mp silent
    exact not_not.mp offered ▸ discard_each (stageOutput_each bytes)

end Calling

end Coordinator
end PtyRuntime
