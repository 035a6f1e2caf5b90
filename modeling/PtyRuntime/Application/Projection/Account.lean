import PtyRuntime.Application.Projection.Along
import PtyRuntime.Application.Projection.JobEffects

/-! The order in which output and resizes are admitted, reach the native model and
settle, and the two positions that follow them: the policy's version and the boundary of
the continuation stream. Each lemma says what one movement does to that. -/
namespace PtyRuntime
open Thread

namespace Settled

/-- The command it was admitted as. -/
def command : Settled → Command
  | .output bytes => .output bytes
  | .resize size ticket _ _ _ => .resize size ticket

/-- What the native model was given for it. A resize whose model was gone gave it nothing. -/
def inputs : Settled → List ModelInput
  | .output bytes => bytes.map .byte
  | .resize _ _ _ (.error _) _ => []
  | .resize _ _ _ (.ok _) (.error .closed) => []
  | .resize size _ generation (.ok _) _ => [.resize size generation]

/-- A resize for which both the OS call and the model call have succeeded. -/
def applied : Settled → Bool
  | .resize _ _ _ (.ok _) (.ok _) => true
  | _ => false

def generation? : Settled → Option ControlGeneration
  | .output _ => none
  | .resize _ _ generation _ _ => some generation

/-- The resizes that both the OS and the model have applied. -/
def successes (settled : List Settled) : Nat := settled.countP Settled.applied

/-- Each resize ran at the generation after the successful ones before it. -/
def Numbered (settled : List Settled) : Prop :=
  ∀ before s after, settled = before ++ s :: after → ∀ generation, s.generation? = some generation →
    generation.value = successes before + 1

/-- What the native model has been given of a command that has not settled, `n` resizes
having succeeded before it. -/
def Partway (n : Nat) : Option Command → List ModelInput → Prop
  | some (.output bytes), part => part <+: bytes.map .byte
  | some (.resize size _), part => part = [] ∨ part = [.resize size ⟨n + 1⟩]
  | _, part => part = []

theorem Numbered.snoc {settled : List Settled} {s : Settled} (numbered : Numbered settled)
    (next : ∀ generation, s.generation? = some generation → generation.value = successes settled + 1) :
    Numbered (settled ++ [s]) := by
  intro before t after split generation ran
  rcases List.eq_nil_or_concat after with rfl | ⟨between, last, rfl⟩
  · obtain ⟨rfl, same⟩ := List.append_inj' split rfl
    obtain rfl := List.singleton_inj.mp same
    exact next generation ran
  · rw [List.concat_eq_append, ← List.cons_append, ← List.append_assoc] at split
    exact numbered before t between (List.append_inj' split rfl).1 generation ran

theorem partway_nil (n : Nat) (command : Option Command) : Partway n command [] := by
  unfold Partway
  split
  · exact List.nil_prefix
  · exact .inl rfl
  · rfl

end Settled

/-- What has become of a resize. -/
def Resizing.settled (resize : Resizing) (os : Except ProcessError Unit)
    (model : Except ProjectionError Unit) : Settled :=
  .resize resize.size resize.ticket resize.generation os model

open Settled

/-- The part of a projection that the order of commands and the two positions are about. -/
structure Account where
  closing : Bool
  failed : Bool
  queue : List Command
  processed : ReplayCursor
  published : ReplayCursor
  control : ControlGeneration
  activity : Nat
  drain : Bool
  resize : Option Resizing
  boundary : TransferBoundary
  sealed : Option TransferEnd
  shut : Bool
  lost : Bool
  log : OrderLog

def Coordinator.account (c : Coordinator) : Account where
  closing := c.admission.closing
  failed := c.admission.policy.status.failure.isSome
  queue := c.admission.queue
  processed := c.admission.policy.status.processed
  published := c.admission.policy.status.published
  control := c.admission.policy.status.controlGeneration
  activity := c.admission.policy.activity
  drain := c.admission.outputDrain.isSome
  resize := c.workspace.resize
  boundary := c.journal.order.boundary
  sealed := c.journal.order.sealed
  shut := c.journal.order.closed
  lost := c.journal.order.unavailable
  log := c.order

namespace Account

/-- Failed or closing: what is still queued need not take effect any more. -/
def Down (v : Account) : Prop := v.closing = true ∨ v.failed = true

/-- Queued output and resizes. -/
def pending (v : Account) : List Command := v.queue.filter (·.mutates)

/-- The stream stands where the policy does. -/
def Agreed (v : Account) : Prop :=
  v.boundary.processed = v.processed ∧ v.boundary.controlGeneration = v.control

/-- The admitted commands in order: those that have settled or were dropped, the one
the worker has begun, and those still to come. Only a projection that is down drops any. -/
structure Split (v : Account) (past later : List Command) (part : List ModelInput) : Prop where
  admitted : v.log.admitted = past ++ v.log.current.toList ++ later
  settled : (v.log.settled.map Settled.command).Sublist past
  queued : v.pending.Sublist later
  whole : ¬v.Down → v.log.settled.map Settled.command = past ∧ v.pending = later
  given : v.log.given = v.log.settled.flatMap Settled.inputs ++ part
  begun : Partway (successes v.log.settled) (v.log.current.toList ++ later).head? part

/-- What is true once the stream has ended without a failure. -/
structure Clean (v : Account) (ended : TransferEnd) : Prop where
  drain : v.drain = true
  idle : v.resize = none ∧ v.log.current = none
  empty : v.pending = []
  caught : v.published = v.processed
  version : ended.boundary.processed = v.processed ∧ ended.boundary.controlGeneration = v.control

/-- What everyone keeps. -/
structure Kept (v : Account) : Prop where
  emptied : v.closing = true → v.queue = []
  room : v.log.admitted.length ≤ v.activity ∧ v.activity ≤ u64Max
  filled : ∀ command ∈ v.log.admitted, command ≠ .output []
  ordered : ∃ past later part, v.Split past later part
  numbered : Numbered v.log.settled
  refused : v.log.refused = 0
  modelled : ∀ size ticket generation os error,
    .resize size ticket generation (.ok os) (.error error) ∈ v.log.settled → v.Down
  clean : ∀ ended, v.sealed = some ended → ended.projectionFailure = none → v.Clean ended
  broken : ∀ ended, v.sealed = some ended → ended.projectionFailure.isSome → v.Down
  available : v.lost = false

/-- What a step does that leaves alone what the worker has in hand: everything another
thread does, and dequeuing a command that leaves no mark. -/
inductive Beside : Account → Account → Prop where
  | same (v : Account) : Beside v v
  | push {v : Account} (command : Command) (alive : v.closing = false)
      (inert : command.mutates = false) : Beside v { v with queue := v.queue ++ [command] }
  | pop {v : Account} (command : Command) (rest : List Command) (front : v.queue = command :: rest)
      (inert : command.mutates = false) : Beside v { v with queue := rest }
  | output {v : Account} (bytes : Bytes) (alive : v.closing = false) (running : v.drain = false)
      (some : bytes ≠ []) (room : v.activity + 1 ≤ u64Max) :
      Beside v { v with
        queue := v.queue ++ [.output bytes]
        published := { v.published with offset := v.published.offset + bytes.length }
        activity := v.activity + 1
        log := v.log.admit (.output bytes) }
  | resize {v : Account} (size : TerminalSize) (ticket : TicketId) (alive : v.closing = false)
      (running : v.drain = false) (room : v.activity + 1 ≤ u64Max) :
      Beside v { v with
        queue := v.queue ++ [.resize size ticket]
        activity := v.activity + 1
        log := v.log.admit (.resize size ticket) }
  | drain (v : Account) : Beside v { v with drain := true }
  | fail (v : Account) :
      Beside v { v with failed := v.failed || !v.closing, queue := v.queue.filter (·.isOutput) }
  | close (v : Account) : Beside v { v with closing := true, queue := [] }
  | mark {v : Account} (ended : v.closing = true) : Beside v { v with failed := true }
  | cut {v : Account} (down : v.Down) (drain : Option DrainOutcome) (error : ProjectionError)
      (unsealed : v.sealed = none) :
      Beside v { v with sealed := some ⟨v.boundary, drain, some error⟩ }
  | shut {v : Account} (down : v.Down) : Beside v { v with shut := true }

/-- An assertion no other thread can falsify. -/
class Lasting (P : Account → Prop) : Prop where
  keep : ∀ {v v' : Account}, Beside v v' → P v → P v'

instance Lasting.and {P Q : Account → Prop} [first : Lasting P] [second : Lasting Q] :
    Lasting fun v => P v ∧ Q v where
  keep beside both := ⟨first.keep beside both.1, second.keep beside both.2⟩

instance Lasting.or {P Q : Account → Prop} [first : Lasting P] [second : Lasting Q] :
    Lasting fun v => P v ∨ Q v where
  keep beside either := either.imp (first.keep beside) (second.keep beside)

instance Lasting.exists {α : Type} {P : α → Account → Prop} [each : ∀ a, Lasting (P a)] :
    Lasting fun v => ∃ a, P a v where
  keep beside := fun ⟨a, holds⟩ => ⟨a, (each a).keep beside holds⟩

theorem Beside.closing {v v' : Account} (beside : Beside v v') (ended : v.closing = true) :
    v'.closing = true := by
  cases beside with
  | close => rfl
  | _ => exact ended

/-- Cleanup has been requested. -/
def Ending (v : Account) : Prop := v.closing = true

instance : Lasting Ending := ⟨Beside.closing⟩

/-- Down is for good. -/
instance : Lasting Down where
  keep {v v'} beside down := by
    cases beside with
    | fail => exact down.imp id fun failed => by simp [failed]
    | close => exact .inl rfl
    | mark => exact .inr rfl
    | _ => exact down

variable {v v' : Account} {past later : List Command} {part : List ModelInput}

/-- Dropping what is queued, which only happens to a projection that is down. -/
theorem Split.drop (split : v.Split past later part) (log : v'.log = v.log)
    (queued : v'.pending.Sublist v.pending) (down : v'.Down ∨ (v'.pending = v.pending ∧ (v.Down → v'.Down))) :
    v'.Split past later part where
  admitted := log ▸ split.admitted
  settled := log ▸ split.settled
  queued := queued.trans split.queued
  whole up := by
    obtain ⟨same, was⟩ := down.resolve_left up
    rw [log, same]
    exact split.whole (mt was up)
  given := log ▸ split.given
  begun := log ▸ split.begun

/-- The order only depends on the queue, the log and on whether the projection is up. -/
theorem Kept.frame (kept : v.Kept) (log : v'.log = v.log) (queue : v'.queue = v.queue)
    (down : v.Down → v'.Down) : ∃ past later part, v'.Split past later part := by
  obtain ⟨past, later, part, split⟩ := kept.ordered
  have pending : v'.pending = v.pending := by rw [Account.pending, queue, Account.pending]
  exact ⟨past, later, part, split.drop log (pending ▸ List.Sublist.refl _) (.inr ⟨pending, down⟩)⟩

/-- An admitted command comes after all the others. -/
theorem Split.admit (split : v.Split past later part) {command : Command} (mutates : command.mutates = true)
    (log : v'.log = v.log.admit command) (queue : v'.queue = v.queue ++ [command])
    (down : v.Down → v'.Down) : v'.Split past (later ++ [command]) part := by
  have pending : v'.pending = v.pending ++ [command] := by
    simp [Account.pending, queue, List.filter_append, mutates]
  constructor
  · rw [log]
    simp [ OrderLog.admit, split.admitted]
  · rw [log]
    exact split.settled
  · rw [pending]
    exact split.queued.append (List.Sublist.refl _)
  · rw [log, pending]
    exact fun up => ⟨(split.whole (mt down up)).1, by rw [(split.whole (mt down up)).2]⟩
  · rw [log]
    exact split.given
  · rw [log]
    change Partway (successes v.log.settled) (v.log.current.toList ++ (later ++ [command])).head? part
    have begun := split.begun
    rcases front : v.log.current.toList ++ later with _ | ⟨first, rest⟩
    · rw [front] at begun
      rw [show part = [] from begun]
      exact partway_nil _ _
    · rw [← List.append_assoc, front]
      rw [front] at begun
      exact begun

theorem Kept.admit (kept : v.Kept) {command : Command} (mutates : command.mutates = true)
    (some : command ≠ .output []) (alive : v.closing = false) (running : v.drain = false)
    (room : v.activity + 1 ≤ u64Max) (published : ReplayCursor) :
    Kept { v with
      queue := v.queue ++ [command], published, activity := v.activity + 1
      log := v.log.admit command } := by
  obtain ⟨past, later, part, split⟩ := kept.ordered
  refine { kept with
    emptied := fun closed => absurd (alive.symm.trans closed) (by decide)
    room := ⟨?_, room⟩
    filled := fun other member => ?_
    ordered := ⟨past, later ++ [command], part, split.admit mutates rfl rfl id⟩
    clean := fun ended sealed whole => ?_ }
  · simpa [ OrderLog.admit] using kept.room.1
  · rcases List.mem_append.mp member with old | new
    · exact kept.filled other old
    · rw [List.mem_singleton.mp new]
      exact some
  · exact absurd (running.symm.trans (kept.clean ended sealed whole).drain) (by decide)

/-- Dropping commands from the queue, and going down if they would have had an effect. -/
theorem Kept.drop (kept : v.Kept) {queue : List Command} {closing failed : Bool}
    (emptied : closing = true → queue = []) (queued : (queue.filter (·.mutates)).Sublist v.pending)
    (closed : v.closing = true → closing = true) (broke : v.failed = true → failed = true)
    (down : (closing = true ∨ failed = true) ∨ queue.filter (·.mutates) = v.pending) :
    Kept { v with queue, closing, failed } := by
  obtain ⟨past, later, part, split⟩ := kept.ordered
  have lasts : v.Down → closing = true ∨ failed = true := fun down => down.imp closed broke
  refine { kept with
    emptied
    ordered := ⟨past, later, part, split.drop rfl queued (down.imp id fun same => ⟨same, lasts⟩)⟩
    modelled := fun size ticket generation os error member =>
      lasts (kept.modelled size ticket generation os error member)
    clean := fun ended sealed whole => ?_
    broken := fun ended sealed failure => lasts (kept.broken ended sealed failure) }
  have clean := kept.clean ended sealed whole
  rw [clean.empty] at queued
  exact { clean with empty := List.sublist_nil.mp queued }

theorem Kept.alive (kept : v.Kept) {command : Command} {rest : List Command}
    (front : v.queue = command :: rest) : v.closing = false := by
  by_contra closed
  have empty := kept.emptied (by simpa using closed)
  cases front.symm.trans empty

theorem pending_pop {command : Command} {rest : List Command} (front : v.queue = command :: rest)
    (inert : command.mutates = false) : rest.filter (·.mutates) = v.pending := by
  rw [Account.pending, front, List.filter_cons_of_neg (by simp [inert])]

theorem Kept.shut (kept : v.Kept) : Kept { v with shut := true } :=
  { kept with
    ordered := kept.frame rfl rfl id
    clean := fun ended sealed whole => { kept.clean ended sealed whole with } }

/-- Whoever runs beside the worker keeps the account. -/
theorem Kept.beside (kept : v.Kept) (beside : Beside v v') : v'.Kept := by
  cases beside with
  | same => exact kept
  | push command alive inert =>
    have pending : (v.queue ++ [command]).filter (·.mutates) = v.pending := by
      simp [Account.pending, List.filter_append, inert]
    exact kept.drop (fun closed => absurd (alive.symm.trans closed) (by decide))
      (pending ▸ List.Sublist.refl _) id id (.inr pending)
  | pop command rest front inert =>
    have pending := pending_pop front inert
    exact kept.drop (fun closed => absurd ((kept.alive front).symm.trans closed) (by decide))
      (pending ▸ List.Sublist.refl _) id id (.inr pending)
  | output bytes alive running some room =>
    exact kept.admit rfl (fun empty => some (Command.output.inj empty)) alive running room _
  | resize size ticket alive running room =>
    exact kept.admit rfl (by simp) alive running room _
  | drain =>
    exact { kept with
      ordered := kept.frame rfl rfl id
      clean := fun ended sealed whole => { kept.clean ended sealed whole with drain := rfl } }
  | fail =>
    have queued : ((v.queue.filter (·.isOutput)).filter (·.mutates)).Sublist v.pending :=
      List.filter_sublist.filter _
    refine kept.drop (fun closed => ?_) queued id (fun failed => by simp [failed]) (.inl ?_)
    · rw [kept.emptied closed]
      rfl
    · cases v.closing <;> simp
  | close =>
    exact kept.drop (fun _ => rfl) (List.nil_sublist _) (fun _ => rfl) id (.inl (.inl rfl))
  | mark ended =>
    exact @Kept.drop v kept v.queue _ _ kept.emptied (List.Sublist.refl _) id (fun _ => rfl) (.inr rfl)
  | cut down drain error unsealed =>
    refine { kept with
      ordered := kept.frame rfl rfl id
      clean := fun ended sealed whole => ?_
      broken := fun _ _ _ => down }
    exact absurd (Option.some.inj sealed ▸ whole) (by simp)
  | shut down => exact kept.shut

/-- The resize in flight, the command the worker has begun and what the model was
given of it. -/
structure Holds (resize : Option Resizing) (current : Option Command) (part : List ModelInput)
    (v : Account) : Prop where
  resize : v.resize = resize
  current : v.log.current = current
  given : v.log.given = v.log.settled.flatMap Settled.inputs ++ part

instance (resize : Option Resizing) (current : Option Command) (part : List ModelInput) :
    Lasting (Holds resize current part) where
  keep {v v'} beside holds := by
    cases beside <;> exact ⟨holds.resize, holds.current, holds.given⟩

/-- The stream ended before it caught up, which only a failure or a close does. -/
def Behind (v : Account) : Prop := v.Down ∧ (v.sealed.isSome = true ∨ v.shut = true)

/-- What has settled is counted, and the stream is level with the policy. -/
structure Tally (v : Account) : Prop where
  counted : v.control.value = successes v.log.settled
  level : v.Agreed ∨ v.Behind
  within : v.boundary.cursor.sequence ≤ v.log.settled.length

/-- Only a projection that is down has its stream closed. -/
structure Books (v : Account) : Prop extends Tally v where
  closed : v.shut = true → v.Down

theorem Beside.version (beside : Beside v v') :
    v'.processed = v.processed ∧ v'.control = v.control ∧ v'.boundary = v.boundary ∧
      v'.log.settled = v.log.settled := by
  cases beside <;> exact ⟨rfl, rfl, rfl, rfl⟩

instance : Lasting Agreed where
  keep {v v'} beside agreed := by
    obtain ⟨processed, control, boundary, -⟩ := beside.version
    rw [Agreed, processed, control, boundary]
    exact agreed

instance : Lasting Behind where
  keep {v v'} beside behind := by
    refine ⟨Lasting.keep beside behind.1, ?_⟩
    cases beside with
    | cut => exact .inl rfl
    | shut => exact .inr rfl
    | _ => exact behind.2

instance : Lasting Tally where
  keep {v v'} beside tally := by
    obtain ⟨-, control, boundary, settled⟩ := beside.version
    refine ⟨?_, tally.level.imp (Lasting.keep beside) (Lasting.keep beside), ?_⟩
    · rw [control, settled]
      exact tally.counted
    · rw [boundary, settled]
      exact tally.within

instance : Lasting fun v => v.shut = true → v.Down where
  keep {v v'} beside closed shut := by
    by_cases was : v.shut = true
    · exact Lasting.keep beside (closed was)
    · cases beside with
      | shut down => exact down
      | _ => exact absurd shut was

instance : Lasting Books where
  keep beside books := ⟨Lasting.keep beside books.toTally,
    Lasting.keep (P := fun v => v.shut = true → v.Down) beside books.closed⟩

/-- Nothing is in hand and nothing in flight. -/
def Free (v : Account) : Prop := Holds none none [] v ∧ Books v

/-- The OS half of a resize is in flight at the next generation. -/
def Flying (resize : Resizing) (v : Account) : Prop :=
  (Holds (some resize) (some (.resize resize.size resize.ticket)) [] v ∧ Books v) ∧
    v.control.next = some resize.generation

instance : Lasting Free := inferInstanceAs (Lasting fun v => Holds none none [] v ∧ Books v)

instance (resize : Resizing) : Lasting (Flying resize) where
  keep {v v'} beside flying := by
    refine ⟨⟨Lasting.keep beside flying.1.1, Lasting.keep beside flying.1.2⟩, ?_⟩
    rw [beside.version.2.1]
    exact flying.2

/-- Nothing is in hand, but a resize may be in flight. -/
def Up (v : Account) : Prop := Free v ∨ ∃ resize, Flying resize v

instance : Lasting Up := inferInstanceAs (Lasting fun v => Free v ∨ ∃ resize, Flying resize v)

/-- What holds while no run is under way. -/
def Rest (v : Account) : Prop := Books v ∧ (v.Down ∨ Up v)

instance : Lasting Rest := inferInstanceAs (Lasting fun v => Books v ∧ (v.Down ∨ Up v))

/-- What is in the slot for the resize in flight. -/
def Slot (resize : Option Resizing) (v : Account) : Prop := v.resize = resize

instance (resize : Option Resizing) : Lasting (Slot resize) where
  keep beside slot := by cases beside <;> exact slot

/-- A run that has seen no failure: nothing is in flight and the stream is level, unless
the projection is closing. -/
def Poised (v : Account) : Prop := Up v ∧ (v.Ending ∨ (Free v ∧ v.Agreed))

instance : Lasting Poised :=
  inferInstanceAs (Lasting fun v => Up v ∧ (v.Ending ∨ (Free v ∧ v.Agreed)))

/-- A command is in the worker's hand, and the stream is level. -/
def Has (command : Command) (part : List ModelInput) (v : Account) : Prop :=
  (Holds none (some command) part v ∧ Books v) ∧ v.Agreed

instance (command : Command) (part : List ModelInput) : Lasting (Has command part) :=
  inferInstanceAs (Lasting fun v => (Holds none (some command) part v ∧ Books v) ∧ v.Agreed)

theorem Up.books (up : Up v) : Books v := by
  rcases up with free | ⟨resize, flying⟩
  · exact free.2
  · exact flying.1.2

theorem Up.rest (up : Up v) : Rest v := ⟨up.books, .inr up⟩

theorem Free.rest (free : Free v) : Rest v := Up.rest (.inl free)

theorem Up.free (up : Up v) (vacant : Slot none v) : Free v := by
  refine up.resolve_right ?_
  rintro ⟨resize, flying⟩
  cases vacant.symm.trans flying.1.1.resize

theorem Poised.rest (poised : Poised v) : Rest v := poised.1.rest

theorem Poised.of_open (poised : Poised v) (alive : v.closing = false) : Free v ∧ v.Agreed :=
  poised.2.resolve_left fun ended => absurd (alive.symm.trans ended) (by decide)

/-- A run that finds nothing wrong is poised. -/
theorem Up.poised (up : Up v) (calm : v.Ending ∨ Slot none v) (fine : v.failed = false) :
    Poised v := by
  refine ⟨up, ?_⟩
  by_cases ended : v.Ending
  · exact .inl ended
  · have free := up.free (calm.resolve_left ended)
    refine .inr ⟨free, free.2.level.resolve_right fun behind => ?_⟩
    rcases behind.1 with closed | broken
    · exact ended closed
    · rw [fine] at broken
      cases broken

/-- A stream that ends leaves what is in flight alone. -/
theorem Up.finish (up : Up v) (ended : TransferEnd) : Up { v with sealed := some ended } := by
  have finished (books : Books v) : Books { v with sealed := some ended } :=
    ⟨⟨books.counted, books.level.imp id fun behind => ⟨behind.1, .inl rfl⟩, books.within⟩, books.closed⟩
  rcases up with ⟨holds, books⟩ | ⟨resize, ⟨holds, books⟩, next⟩
  · exact .inl ⟨⟨holds.resize, holds.current, holds.given⟩, finished books⟩
  · exact .inr ⟨resize, ⟨⟨holds.resize, holds.current, holds.given⟩, finished books⟩, next⟩

theorem Poised.finish (poised : Poised v) (ended : TransferEnd) : Poised { v with sealed := some ended } := by
  refine ⟨poised.1.finish ended, poised.2.imp id fun calm => ?_⟩
  obtain ⟨⟨holds, books⟩, agreed⟩ := calm
  have up : Up { v with sealed := some ended } := Up.finish (.inl ⟨holds, books⟩) ended
  exact ⟨up.free holds.resize, agreed⟩

/-- An end on record is the end of a projection that is down. -/
def Unended (v : Account) : Prop := v.sealed = none ∨ v.Down

instance : Lasting Unended where
  keep {v v'} beside unended := by
    rcases unended with unsealed | down
    · cases beside with
      | cut down => exact .inr down
      | _ => exact .inl unsealed
    · exact .inr (Lasting.keep beside down)

/-- Output has settled and is still to be journaled. -/
structure Unwritten (v : Account) : Prop where
  holds : Holds none none [] v
  counted : v.control.value = successes v.log.settled
  within : v.boundary.cursor.sequence + 1 ≤ v.log.settled.length
  closed : v.shut = true → v.Down
  control : v.boundary.controlGeneration = v.control
  lifetime : v.processed.lifetime = v.boundary.processed.lifetime
  ahead : v.boundary.processed.offset < v.processed.offset
  unended : Unended v

/-- A resize is counted and still to be journaled. -/
structure Unjournaled (resize : Resizing) (v : Account) : Prop where
  holds : Holds (some resize) (some (.resize resize.size resize.ticket))
    [.resize resize.size resize.generation] v
  control : v.control = resize.generation
  counted : v.control.value = successes v.log.settled + 1
  within : v.boundary.cursor.sequence ≤ v.log.settled.length
  closed : v.shut = true → v.Down
  next : v.Behind ∨ (v.boundary.processed = v.processed ∧
    v.boundary.controlGeneration.next = some resize.generation)
  unended : Unended v

/-- A resize is about to settle as `s`. -/
structure Settling (resize : Resizing) (s : Settled) (v : Account) : Prop where
  holds : Holds (some resize) (some s.command) s.inputs v
  numbered : ∀ generation, s.generation? = some generation →
    generation.value = successes v.log.settled + 1
  counted : v.control.value = successes (v.log.settled ++ [s])
  level : v.Agreed ∨ v.Behind
  within : v.boundary.cursor.sequence ≤ v.log.settled.length + 1
  closed : v.shut = true → v.Down
  modelled : ∀ size ticket generation os error,
    s = .resize size ticket generation (.ok os) (.error error) → v.Down

instance : Lasting Unwritten where
  keep {v v'} beside unwritten := by
    obtain ⟨processed, control, boundary, settled⟩ := beside.version
    constructor
    · exact Lasting.keep beside unwritten.holds
    · rw [control, settled]
      exact unwritten.counted
    · rw [boundary, settled]
      exact unwritten.within
    · exact Lasting.keep (P := fun v => v.shut = true → v.Down) beside unwritten.closed
    · rw [boundary, control]
      exact unwritten.control
    · rw [boundary, processed]
      exact unwritten.lifetime
    · rw [boundary, processed]
      exact unwritten.ahead
    · exact Lasting.keep beside unwritten.unended

instance (resize : Resizing) : Lasting (Unjournaled resize) where
  keep {v v'} beside unjournaled := by
    obtain ⟨processed, control, boundary, settled⟩ := beside.version
    constructor
    · exact Lasting.keep beside unjournaled.holds
    · rw [control]
      exact unjournaled.control
    · rw [control, settled]
      exact unjournaled.counted
    · rw [boundary, settled]
      exact unjournaled.within
    · exact Lasting.keep (P := fun v => v.shut = true → v.Down) beside unjournaled.closed
    · rw [boundary, processed]
      exact unjournaled.next.imp (Lasting.keep beside) id
    · exact Lasting.keep beside unjournaled.unended

instance (resize : Resizing) (s : Settled) : Lasting (Settling resize s) where
  keep {v v'} beside settling := by
    obtain ⟨-, control, boundary, settled⟩ := beside.version
    constructor
    · exact Lasting.keep beside settling.holds
    · rw [settled]
      exact settling.numbered
    · rw [control, settled]
      exact settling.counted
    · exact settling.level.imp (Lasting.keep beside) (Lasting.keep beside)
    · rw [boundary, settled]
      exact settling.within
    · exact Lasting.keep (P := fun v => v.shut = true → v.Down) beside settling.closed
    · intro size ticket generation os error same
      exact Lasting.keep beside (settling.modelled size ticket generation os error same)

/-- The stream has not ended well while a command is in hand. -/
theorem Kept.unended (kept : v.Kept) {command : Command} (held : v.log.current = some command)
    {ended : TransferEnd} (sealed : v.sealed = some ended) : ended.projectionFailure ≠ none := by
  intro whole
  cases held.symm.trans (kept.clean ended sealed whole).idle.2

theorem Kept.held (kept : v.Kept) {command : Command} (held : v.log.current = some command) :
    command ∈ v.log.admitted ∧ Unended v := by
  obtain ⟨past, later, part, split⟩ := kept.ordered
  constructor
  · rw [split.admitted, held]
    simp
  · rcases sealed : v.sealed with _ | ended
    · exact .inl sealed
    · exact .inr (kept.broken ended sealed (Option.isSome_iff_ne_none.mpr (kept.unended held sealed)))

/-- Only what was admitted has settled or is in hand. -/
theorem Kept.length_settled (kept : v.Kept) :
    v.log.settled.length + v.log.current.toList.length ≤ v.activity := by
  obtain ⟨past, later, part, split⟩ := kept.ordered
  refine le_trans ?_ kept.room.1
  rw [split.admitted, List.length_append, List.length_append]
  have settled := split.settled.length_le
  rw [List.length_map] at settled
  omega

/-- The head of the queue goes into the worker's hand. -/
theorem Kept.take (kept : v.Kept) {command : Command} {rest : List Command}
    (front : v.queue = command :: rest) (mutates : command.mutates = true) (free : v.log.current = none)
    (fresh : v.log.given = v.log.settled.flatMap Settled.inputs) :
    Kept { v with queue := rest, log := { v.log with current := some command } } := by
  obtain ⟨past, later, part, split⟩ := kept.ordered
  have pending : v.pending = command :: rest.filter (·.mutates) := by
    rw [Account.pending, front, List.filter_cons_of_pos mutates]
  have empty : part = [] := List.append_cancel_left ((split.given.symm.trans fresh).trans (List.append_nil _).symm)
  have admitted := split.admitted
  rw [free, Option.toList_none, List.append_nil] at admitted
  have queued := split.queued
  rw [pending] at queued
  -- What is skipped before the command was dropped, which only happens to a projection that is down.
  obtain ⟨skipped, rest', found, tail, calm⟩ : ∃ skipped later', later = skipped ++ command :: later' ∧
      (rest.filter (·.mutates)).Sublist later' ∧
        (¬v.Down → skipped = [] ∧ rest.filter (·.mutates) = later') := by
    by_cases down : v.Down
    · obtain ⟨front, back, found, member, tail⟩ := List.cons_sublist_iff.mp queued
      obtain ⟨skipped, between, split⟩ := List.append_of_mem member
      refine ⟨skipped, between ++ back, ?_, tail.trans (List.sublist_append_right _ _), fun up => absurd down up⟩
      rw [found, split]
      simp
    · refine ⟨[], rest.filter (·.mutates), ?_, List.Sublist.refl _, fun _ => ⟨rfl, rfl⟩⟩
      rw [← (split.whole down).2, pending]
      rfl
  refine { kept with
    emptied := fun closed => absurd ((kept.alive front).symm.trans closed) (by decide)
    ordered := ⟨past ++ skipped, rest', [], ?_, ?_, tail, fun up => ?_, ?_, partway_nil _ _⟩
    clean := fun ended sealed whole => ?_ }
  · change v.log.admitted = past ++ skipped ++ [command] ++ rest'
    rw [admitted, found]
    simp
  · exact split.settled.trans (List.sublist_append_left _ _)
  · obtain ⟨none, same⟩ := calm up
    rw [none, List.append_nil]
    exact ⟨(split.whole up).1, same⟩
  · rw [List.append_nil]
    exact fresh
  · have empty := (kept.clean ended sealed whole).empty
    rw [pending] at empty
    cases empty

theorem Free.take (free : Free v) (agreed : v.Agreed) (command : Command) (rest : List Command) :
    Has command [] { v with queue := rest, log := { v.log with current := some command } } :=
  ⟨⟨⟨free.1.resize, rfl, free.1.given⟩, ⟨free.2.counted, .inl agreed, free.2.within⟩, free.2.closed⟩, agreed⟩

variable {resize : Option Resizing} {command : Command}

/-- The model is given more of the command in hand. -/
theorem Kept.give (kept : v.Kept) (holds : Holds resize (some command) part v) (inputs : List ModelInput)
    (begun : Partway (successes v.log.settled) (some command) (part ++ inputs)) :
    Kept { v with log := v.log.give inputs } ∧
      Holds resize (some command) (part ++ inputs) { v with log := v.log.give inputs } := by
  have given : (v.log.give inputs).given = v.log.settled.flatMap Settled.inputs ++ (part ++ inputs) := by
    rw [OrderLog.give, holds.given, List.append_assoc]
  refine ⟨?_, holds.resize, holds.current, given⟩
  obtain ⟨past, later, before, split⟩ := kept.ordered
  refine { kept with
    ordered := ⟨past, later, part ++ inputs, split.admitted, split.settled, split.queued, split.whole, given, ?_⟩
    clean := fun ended sealed whole => absurd whole (kept.unended holds.current sealed) }
  change Partway _ (v.log.current.toList ++ later).head? _
  rw [holds.current]
  exact begun

/-- The command in hand has had all the effect it will have. -/
theorem Kept.settle (kept : v.Kept) (s : Settled) (holds : Holds resize (some s.command) s.inputs v)
    (generation : ∀ generation, s.generation? = some generation →
      generation.value = successes v.log.settled + 1)
    (modelled : ∀ size ticket generation os error,
      s = .resize size ticket generation (.ok os) (.error error) → v.Down)
    (resize' : Option Resizing) (processed : ReplayCursor) :
    Kept { v with resize := resize', processed, log := v.log.settle s } ∧
      Holds resize' none [] { v with resize := resize', processed, log := v.log.settle s } := by
  have given : v.log.given = (v.log.settled ++ [s]).flatMap Settled.inputs ++ [] := by
    rw [holds.given]
    simp
  refine ⟨?_, rfl, rfl, given⟩
  obtain ⟨past, later, part, split⟩ := kept.ordered
  have admitted := split.admitted
  rw [holds.current, Option.toList_some] at admitted
  refine { kept with
    ordered := ⟨past ++ [s.command], later, [], ?_, ?_, split.queued, fun up => ?_, given, partway_nil _ _⟩
    numbered := ?_
    modelled := fun size ticket generation os error member => ?_
    clean := fun ended sealed whole => absurd whole (kept.unended holds.current sealed) }
  · change v.log.admitted = past ++ [s.command] ++ [] ++ later
    rw [admitted, List.append_nil]
  · change ((v.log.settled ++ [s]).map Settled.command).Sublist _
    rw [List.map_append]
    exact split.settled.append (List.Sublist.refl _)
  · change (v.log.settled ++ [s]).map Settled.command = _ ∧ _
    rw [List.map_append, (split.whole up).1]
    exact ⟨rfl, (split.whole up).2⟩
  · exact kept.numbered.snoc generation
  · rcases List.mem_append.mp member with old | new
    · exact kept.modelled size ticket generation os error old
    · exact modelled size ticket generation os error (List.mem_singleton.mp new).symm

/-- A command that goes back to the queue is the next one again; a closing projection
drops it. -/
theorem Kept.release (kept : v.Kept) (holds : Holds none (some command) part v)
    (mutates : command.mutates = true) {queue : List Command}
    (returned : queue = if v.closing then v.queue else command :: v.queue) :
    Kept { v with queue, log := { v.log with current := none } } ∧
      Holds none none part { v with queue, log := { v.log with current := none } } := by
  refine ⟨?_, holds.resize, rfl, holds.given⟩
  obtain ⟨past, later, before, split⟩ := kept.ordered
  have same : before = part := List.append_cancel_left (split.given.symm.trans holds.given)
  have admitted := split.admitted
  have begun := split.begun
  rw [holds.current] at admitted begun
  refine { kept with
    emptied := fun closed => ?_
    ordered := ⟨past, command :: later, part, ?_, split.settled, ?_, fun up => ?_, holds.given, same ▸ begun⟩
    clean := fun ended sealed whole => absurd whole (kept.unended holds.current sealed) }
  · rw [returned, if_pos closed]
    exact kept.emptied closed
  · change v.log.admitted = past ++ [] ++ command :: later
    rw [admitted]
    simp
  · change (queue.filter (·.mutates)).Sublist _
    rw [returned]
    split
    · exact split.queued.trans (List.sublist_cons_self _ _)
    · rw [List.filter_cons_of_pos mutates]
      exact split.queued.cons_cons command
  · have up : ¬v.Down := up
    have open_ : v.closing ≠ true := fun closed => up (.inl closed)
    change _ ∧ queue.filter (·.mutates) = _
    rw [returned, if_neg open_, List.filter_cons_of_pos mutates]
    exact ⟨(split.whole up).1, by rw [← (split.whole up).2]; rfl⟩

/-- The workspace and the policy move on while a command is in hand. -/
theorem Kept.advance (kept : v.Kept) (held : v.log.current = some command) (resize : Option Resizing)
    (processed : ReplayCursor) (control : ControlGeneration) :
    Kept { v with resize, processed, control } :=
  { kept with
    ordered := kept.frame rfl rfl id
    clean := fun _ sealed whole => absurd whole (kept.unended held sealed) }

theorem Kept.discard (kept : v.Kept) : Kept { v with resize := none } :=
  { kept with
    ordered := kept.frame rfl rfl id
    clean := fun ended sealed whole =>
      { kept.clean ended sealed whole with idle := ⟨rfl, (kept.clean ended sealed whole).idle.2⟩ } }

theorem Kept.write (kept : v.Kept) (boundary : TransferBoundary) : Kept { v with boundary } :=
  { kept with
    ordered := kept.frame rfl rfl id
    clean := fun ended sealed whole => { kept.clean ended sealed whole with } }

/-- Output that has settled is ahead of the stream by its own length. -/
theorem Has.settle {bytes : Bytes} (has : Has (.output bytes) (bytes.map .byte) v) (kept : v.Kept) :
    Unwritten { v with
      processed := { v.processed with offset := v.processed.offset + bytes.length }
      log := v.log.settle (.output bytes) } := by
  obtain ⟨⟨holds, books⟩, agreed⟩ := has
  obtain ⟨member, unended⟩ := kept.held holds.current
  have filled : bytes ≠ [] := fun empty => kept.filled _ member (by rw [empty])
  constructor
  · refine ⟨holds.resize, rfl, ?_⟩
    change v.log.given = (v.log.settled ++ [Settled.output bytes]).flatMap Settled.inputs ++ []
    rw [holds.given]
    simp [Settled.inputs]
  · change v.control.value = successes (v.log.settled ++ [Settled.output bytes])
    rw [books.counted]
    simp [successes, Settled.applied]
  · change _ ≤ (v.log.settled ++ [Settled.output bytes]).length
    rw [List.length_append]
    exact Nat.succ_le_succ books.within
  · exact books.closed
  · exact agreed.2
  · exact congrArg (·.lifetime) agreed.1.symm
  · change v.boundary.processed.offset < v.processed.offset + bytes.length
    rw [agreed.1]
    exact Nat.lt_add_of_pos_right (List.length_pos_iff.mpr filled)
  · exact unended

/-- The stream takes up output that has settled. -/
theorem Unwritten.write (unwritten : Unwritten v) :
    Free { v with boundary := {
      cursor := { v.boundary.cursor with sequence := v.boundary.cursor.sequence + 1 }
      processed := v.processed
      controlGeneration := v.boundary.controlGeneration } } :=
  ⟨⟨unwritten.holds.resize, unwritten.holds.current, unwritten.holds.given⟩,
    ⟨unwritten.counted, .inl ⟨rfl, unwritten.control⟩, unwritten.within⟩, unwritten.closed⟩

/-- Why a stream that takes nothing up any more is behind. -/
theorem Behind.of_ended (unended : Unended v) (closed : v.shut = true → v.Down)
    (ended : v.sealed.isSome = true ∨ v.shut = true) : v.Behind := by
  refine ⟨?_, ended⟩
  rcases ended with sealed | shut
  · exact unended.resolve_left (Option.isSome_iff_ne_none.mp sealed)
  · exact closed shut

/-- A stream that has ended takes nothing up any more. -/
theorem Unwritten.skip (unwritten : Unwritten v) (ended : v.sealed.isSome = true ∨ v.shut = true) :
    Free v :=
  ⟨unwritten.holds, ⟨unwritten.counted, .inr (.of_ended unwritten.unended unwritten.closed ended),
    Nat.le_of_succ_le unwritten.within⟩, unwritten.closed⟩

/-- A resize that both sides have applied is counted. -/
theorem Flying.count {resize : Resizing}
    (holds : Holds (some resize) (some (.resize resize.size resize.ticket))
      [.resize resize.size resize.generation] v) (books : Books v)
    (next : v.control.next = some resize.generation) (unended : Unended v) :
    Unjournaled resize { v with control := resize.generation } := by
  constructor
  · exact ⟨holds.resize, holds.current, holds.given⟩
  · rfl
  · rw [← books.counted]
    exact (ControlGeneration.next_eq_some.mp next).2
  · exact books.within
  · exact books.closed
  · refine books.level.symm.imp id fun agreed => ⟨agreed.1, ?_⟩
    rw [agreed.2]
    exact next
  · exact unended

theorem Unjournaled.numbered {resize : Resizing} (unjournaled : Unjournaled resize v)
    (generation : ControlGeneration)
    (ran : (resize.settled (.ok ()) (.ok ())).generation? = some generation) :
    generation.value = successes v.log.settled + 1 := by
  rw [← Option.some.inj ran, ← unjournaled.control]
  exact unjournaled.counted

theorem Unjournaled.counted_done {resize : Resizing} (unjournaled : Unjournaled resize v) :
    v.control.value = successes (v.log.settled ++ [resize.settled (.ok ()) (.ok ())]) := by
  rw [unjournaled.counted]
  simp [successes, Settled.applied, Resizing.settled]

/-- The stream takes up a resize that is counted. -/
theorem Unjournaled.write {resize : Resizing} (unjournaled : Unjournaled resize v)
    (same : v.boundary.processed = v.processed) :
    Settling resize (resize.settled (.ok ()) (.ok ())) { v with boundary := {
      cursor := { v.boundary.cursor with sequence := v.boundary.cursor.sequence + 1 }
      processed := v.boundary.processed
      controlGeneration := resize.generation } } := by
  constructor
  · exact ⟨unjournaled.holds.resize, unjournaled.holds.current, unjournaled.holds.given⟩
  · exact unjournaled.numbered
  · exact unjournaled.counted_done
  · exact .inl ⟨same, unjournaled.control.symm⟩
  · exact Nat.succ_le_succ unjournaled.within
  · exact unjournaled.closed
  · intro size ticket generation os error same
    simp [Resizing.settled] at same

/-- A stream that has ended leaves a counted resize out. -/
theorem Unjournaled.skip {resize : Resizing} (unjournaled : Unjournaled resize v)
    (ended : v.sealed.isSome = true ∨ v.shut = true) :
    Settling resize (resize.settled (.ok ()) (.ok ())) v := by
  constructor
  · exact unjournaled.holds
  · exact unjournaled.numbered
  · exact unjournaled.counted_done
  · exact .inr (.of_ended unjournaled.unended unjournaled.closed ended)
  · exact Nat.le_succ_of_le unjournaled.within
  · exact unjournaled.closed
  · intro size ticket generation os error same
    simp [Resizing.settled] at same

/-- A resize that settles leaves nothing in hand or in flight. -/
theorem Settling.free {resize : Resizing} {s : Settled} (settling : Settling resize s v) (kept : v.Kept) :
    Kept { v with resize := none, log := v.log.settle s } ∧
      Free { v with resize := none, log := v.log.settle s } := by
  obtain ⟨kept, holds⟩ := kept.settle s settling.holds settling.numbered settling.modelled none v.processed
  refine ⟨kept, holds, ⟨settling.counted, settling.level, ?_⟩, settling.closed⟩
  change _ ≤ (v.log.settled ++ [s]).length
  rw [List.length_append]
  exact settling.within

/-- The reader has drained and everything admitted has had its effect. -/
structure Caught (v : Account) : Prop where
  drain : v.drain = true
  empty : v.pending = []
  level : v.published = v.processed

instance : Lasting Caught where
  keep {v v'} beside caught := by
    have drain := caught.drain
    cases beside with
    | push command alive inert =>
      refine ⟨drain, ?_, caught.level⟩
      have empty : v.queue.filter (·.mutates) = [] := caught.empty
      simp [Account.pending, List.filter_append, empty, inert]
    | pop command rest front inert =>
      refine ⟨drain, ?_, caught.level⟩
      exact (pending_pop front inert).trans caught.empty
    | output bytes alive running => exact absurd (running.symm.trans drain) (by decide)
    | resize size ticket alive running => exact absurd (running.symm.trans drain) (by decide)
    | drain => exact ⟨rfl, caught.empty, caught.level⟩
    | fail =>
      refine ⟨drain, List.sublist_nil.mp ?_, caught.level⟩
      rw [← caught.empty]
      exact List.filter_sublist.filter _
    | close => exact ⟨drain, rfl, caught.level⟩
    | same | mark | cut | shut => exact ⟨drain, caught.empty, caught.level⟩

/-- The stream ends well. -/
theorem Kept.finish (kept : v.Kept) (free : Holds none none [] v) (agreed : v.Agreed) (caught : Caught v)
    (drain : DrainOutcome) :
    Kept { v with sealed := some ⟨v.boundary, some drain, none⟩ } := by
  refine { kept with
    ordered := kept.frame rfl rfl id
    clean := fun ended sealed whole => ?_
    broken := fun ended sealed failure => ?_ }
  · obtain rfl := Option.some.inj sealed
    exact ⟨caught.drain, ⟨free.resize, free.current⟩, caught.empty, caught.level, agreed⟩
  · obtain rfl := Option.some.inj sealed
    cases failure

end Account
end PtyRuntime
