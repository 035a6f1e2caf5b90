import PtyRuntime.Application.SessionWakeups
import PtyRuntime.Application.JournalObservers

/-! No observer is left asleep: over every run of a session and of a journal, a waker
that is still registered belongs to a read that is still pending. -/
namespace PtyRuntime

section Issued

variable {σ τ : Type} {step : σ → τ → σ} {registers : σ → τ → Option Nat} {ids : σ → List τ → List Nat}
  {Valid : σ → Prop} {next : σ → Nat}

/-- Ids that are the value of a counter which no step lowers are never handed out twice. -/
theorem issued_increasing (none_issued : ∀ s, ids s [] = [])
    (issued : ∀ s t rest, ids s (t :: rest) = (registers s t).toList ++ ids (step s t) rest)
    (keeps : ∀ s t, Valid s → Valid (step s t) ∧ next s ≤ next (step s t))
    (fresh : ∀ s t id, registers s t = some id → id = next s ∧ id < next (step s t))
    {s : σ} (valid : Valid s) (steps : List τ) :
    (∀ id ∈ ids s steps, next s ≤ id) ∧ (ids s steps).Pairwise (· < ·) := by
  induction steps generalizing s with
  | nil =>
    rw [none_issued]
    exact ⟨fun _ member => (nomatch member), .nil⟩
  | cons t rest ih =>
    obtain ⟨later, raised⟩ := keeps s t valid
    obtain ⟨above, increasing⟩ := ih later
    rw [issued]
    constructor
    · intro id member
      rcases List.mem_append.mp member with now | after
      · exact Nat.le_of_eq (fresh s t id (Option.mem_toList.mp now)).1.symm
      · exact raised.trans (above id after)
    · refine List.pairwise_append.mpr ⟨?_, increasing, fun id now other after => ?_⟩
      · cases registers s t <;> simp
      · exact (fresh s t id (Option.mem_toList.mp now)).2.trans_le (above other after)

end Issued

namespace Watched

/-- The watcher a step registers. -/
def registers (s : Watched) : Step → Option Nat
  | .session .register | .wait => s.observed.context.registerWatcher.1.toOption
  | _ => none

/-- The watcher ids a run hands out, in order. -/
def issuedIds (s : Watched) : List Step → List Nat
  | [] => []
  | step :: rest => (s.registers step).toList ++ issuedIds (s.step step) rest

theorem registers_fresh {s : Watched} {step : Step} {id : Nat} (given : s.registers step = some id) :
    id = s.observed.context.nextWatcher ∧ id < (s.step step).observed.context.nextWatcher := by
  have issued : s.observed.context.registerWatcher.1.toOption = some id →
      id = s.observed.context.nextWatcher ∧
        s.observed.context.registerWatcher.2.nextWatcher = id + 1 ∧
        s.observed.context.registerWatcher.1 = .ok id := by
    intro given
    rcases registerWatcher_cases s.observed.context with ⟨e, observers, refused⟩ | ⟨observers, done⟩
    · rw [refused] at given
      cases given
    · rw [done] at given ⊢
      obtain rfl := Option.some.inj given
      exact ⟨rfl, rfl, rfl⟩
  cases step with
  | session step =>
    cases step with
    | register =>
      obtain ⟨here, next, -⟩ := issued given
      exact ⟨here, Nat.lt_of_lt_of_eq (Nat.lt_succ_self id) next.symm⟩
    | output | report | otherSessions | poison | attach | take | finish | dropWait | detach =>
      cases given
  | wait =>
    obtain ⟨here, next, ok⟩ := issued given
    refine ⟨here, ?_⟩
    simp only [step]
    split
    · rename_i refused
      rw [refused] at ok
      cases ok
    · rename_i registered
      rw [registered] at next
      exact Nat.lt_of_lt_of_eq (Nat.lt_succ_self id) next.symm
  | pollWait | dropWait => cases given

/-- Watcher ids are never handed out twice. -/
theorem issuedIds_increasing {s : Watched} (valid : s.Valid) (steps : List Step) :
    (s.issuedIds steps).Pairwise (· < ·) := by
  have keeps (s : Watched) (step : Step) (valid : s.Valid) :
      (s.step step).Valid ∧ s.observed.context.nextWatcher ≤ (s.step step).observed.context.nextWatcher :=
    ⟨(step_accounts valid step).valid, (step_accounts valid step).next⟩
  exact (issued_increasing (fun _ => rfl) (fun _ _ _ => rfl) keeps (fun _ _ _ => registers_fresh)
    valid steps).2

/-- A page, a gap or a completion is there for the watcher. -/
def Ready (s : Watched) (id : Nat) : Prop :=
  (∃ a, s.observed.attachments.get? id = some a ∧ ¬ s.observed.context.Pending a.cursor) ∨
    ((s.waits.get? id).isSome = true ∧ s.observed.context.status.completion ≠ none)

theorem Waiting.not_ready {s : Watched} {id : Nat} (waiting : s.Waiting id) : ¬ s.Ready id := by
  rintro (⟨a, found, ready⟩ | ⟨waits, done⟩)
  · exact ready (waiting.attachment a found).2
  · exact done (waiting.completion waits)

end Watched

namespace Journal

/-- The read that a step makes: the observer, its start and its cursor. -/
def World.asks (w : World) : Step → Option (Nat × TransferCursor × TransferCursor)
  | .follow index _ =>
    w.followers[index]?.map fun f => (f.observer.id, f.observer.start.cursor, f.cursor)
  | .read id start cursor _ => some (id, start, cursor)
  | _ => none

/-- A journal with the start and the cursor of each observer's latest read. -/
structure Asked where
  world : World
  latest : SortedMap Nat (TransferCursor × TransferCursor)

namespace Asked

def new (lifetime : SessionLifetime) : Asked := ⟨.new lifetime, .empty⟩

def step (w : Asked) (step : Step) : Asked where
  world := w.world.step step
  latest :=
    match w.world.asks step with
    | none => w.latest
    | some (id, start, cursor) => w.latest.insert id (start, cursor)

def run (w : Asked) (steps : List Step) : Asked := steps.foldl step w

/-- The wakers a step takes to wake them. -/
def woken (w : Asked) : Step → List Waker
  | .output leases bytes processed => (w.world.journal.output leases bytes processed).1
  | .resized leases size generation => (w.world.journal.resized leases size generation).1
  | .finish drain failure => (w.world.journal.finish drain failure).1
  | .close => w.world.journal.close.1
  | _ => []

end Asked

def Stored (j : Journal) (id : Nat) (waker : Waker) : Prop :=
  j.observers.get? id = some (some waker)

/-- The read of an observer finds nothing yet. -/
def Pending (j : Journal) (id : Nat) (start cursor : TransferCursor) : Prop :=
  j.readResult id start cursor = .ok .pending

/-- Every registered waker was taken to be woken. -/
structure Notifies (j : Journal) (woken : List Waker) (j' : Journal) : Prop where
  woken : ∀ id waker, j.Stored id waker → waker ∈ woken
  taken : ∀ id waker, ¬ j'.Stored id waker
  next : j'.nextObserver = j.nextObserver

/-- Reads of the observers that remain see the same journal. -/
structure Quiet (j j' : Journal) : Prop where
  pending : ∀ id start cursor, (j'.observers.get? id).isSome = true → j.Pending id start cursor →
    j'.Pending id start cursor
  next : j.nextObserver ≤ j'.nextObserver

theorem takeWakers_notifies {j k : Journal} (observers : k.observers = j.observers)
    (next : k.nextObserver = j.nextObserver) : Notifies j k.takeWakers.1 k.takeWakers.2 where
  woken id waker stored := by
    simp only [takeWakers, observers, List.mem_filterMap]
    exact ⟨(id, some waker), SortedMap.mem_of_get? stored, rfl⟩
  taken id waker := by
    simp only [Stored, takeWakers, SortedMap.get?_mapValues]
    cases k.observers.get? id <;> simp
  next := next

/-- Only who is registered matters to a read, not their wakers. -/
theorem Pending.congr {j j' : Journal} {id : Nat} {start cursor : TransferCursor}
    (pending : j.Pending id start cursor) (order : j'.order = j.order)
    (records : j'.records = j.records) (present : (j'.observers.get? id).isSome = true) :
    j'.Pending id start cursor := by
  unfold Pending readResult at pending ⊢
  rw [order, records]
  split at pending
  · cases pending
  · rw [if_neg (by simpa [Option.isSome_iff_ne_none] using present)]
    exact pending

theorem retain_observers (j : Journal) (leases : Nat → Bool) (kind : RecordKind)
    (after : TransferBoundary) :
    (j.retain leases kind after).observers = j.observers ∧
      (j.retain leases kind after).nextObserver = j.nextObserver := by
  unfold retain
  split
  · exact ⟨rfl, rfl⟩
  · split <;> exact ⟨rfl, rfl⟩

/-- An append removes no observer. -/
theorem append_observers (j : Journal) (leases : Nat → Bool) (kind : RecordKind)
    (processed : Option ReplayCursor) :
    (j.append leases kind processed).2.observers = j.observers ∨
      (j.append leases kind processed).2.observers = j.observers.mapValues fun _ _ => none := by
  unfold append
  split
  · exact .inl rfl
  · refine .inr ?_
    rcases j.advance kind processed with ⟨answer, order⟩
    cases answer with
    | error e => rfl
    | ok after =>
      obtain ⟨observers, -⟩ := retain_observers { j with order } leases kind after
      simp only [takeWakers, observers]

/-- An append takes every waker, unless the stream no longer accepts events. -/
theorem append_wakes (j : Journal) (leases : Nat → Bool) (kind : RecordKind)
    (processed : Option ReplayCursor) :
    Notifies j (j.append leases kind processed).1 (j.append leases kind processed).2 ∨
      j.append leases kind processed = ([], j) := by
  unfold append
  split
  · exact .inr rfl
  · refine .inl ?_
    rcases j.advance kind processed with ⟨answer, order⟩
    cases answer with
    | error e => exact takeWakers_notifies rfl rfl
    | ok after =>
      obtain ⟨observers, next⟩ := retain_observers { j with order } leases kind after
      exact takeWakers_notifies observers next

namespace Asked

/-- A registered waker belongs to an observer whose latest read is still pending. -/
def Valid (w : Asked) : Prop :=
  ∀ id waker, w.world.journal.Stored id waker →
    ∃ start cursor, w.latest.get? id = some (start, cursor) ∧
      w.world.journal.Pending id start cursor

/-- Every waker a step leaves or removes is accounted for. -/
structure Accounts (w : Asked) (woken : List Waker) (w' : Asked) : Prop where
  valid : w'.Valid
  answered : ∀ id waker start cursor, w.world.journal.Stored id waker →
    w.latest.get? id = some (start, cursor) →
    (waker ∈ woken ∧ ∀ waker', ¬ w'.world.journal.Stored id waker') ∨
      ((w'.world.journal.observers.get? id).isSome = true →
        w'.world.journal.Pending id start cursor)
  next : w.world.journal.nextObserver ≤ w'.world.journal.nextObserver

/-- The rule for a step that wakes nobody and reads nothing. -/
theorem Valid.calm {w w' : Asked} (valid : w.Valid)
    (quiet : w.world.journal.Quiet w'.world.journal)
    (stored : ∀ id waker, w'.world.journal.Stored id waker → w.world.journal.Stored id waker)
    (latest : w'.latest = w.latest) : Accounts w [] w' := by
  refine ⟨fun id waker held => ?_, fun id waker start cursor held asked => .inr fun present => ?_,
    quiet.next⟩
  · obtain ⟨start, cursor, asked, pending⟩ := valid id waker (stored id waker held)
    exact ⟨start, cursor, latest ▸ asked, quiet.pending id start cursor (by rw [held]; rfl) pending⟩
  · obtain ⟨start', cursor', asked', pending⟩ := valid id waker held
    rw [asked] at asked'
    cases asked'
    exact quiet.pending id start cursor present pending

theorem Valid.unchanged {w w' : Asked} (valid : w.Valid)
    (journal : w'.world.journal = w.world.journal) (latest : w'.latest = w.latest) :
    Accounts w [] w' := by
  refine valid.calm ?_ (fun id waker held => ?_) latest
  · rw [journal]
    exact ⟨fun _ _ _ _ pending => pending, Nat.le_refl _⟩
  · rw [journal] at held
    exact held

/-- The rule for a step that takes every waker. -/
theorem Valid.notified {w w' : Asked} {woken : List Waker}
    (notifies : w.world.journal.Notifies woken w'.world.journal) : Accounts w woken w' where
  valid id waker held := absurd held (notifies.taken id waker)
  answered id waker _ _ held _ :=
    .inl ⟨notifies.woken id waker held, notifies.taken id⟩
  next := Nat.le_of_eq notifies.next.symm

theorem append_accounts {w w' : Asked} (valid : w.Valid) {leases : Nat → Bool} {kind : RecordKind}
    {processed : Option ReplayCursor} (latest : w'.latest = w.latest)
    (journal : w'.world.journal = (w.world.journal.append leases kind processed).2) :
    Accounts w (w.world.journal.append leases kind processed).1 w' := by
  rcases w.world.journal.append_wakes leases kind processed with notifies | silent
  · rw [← journal] at notifies
    exact Valid.notified notifies
  · rw [silent] at journal ⊢
    exact valid.unchanged journal latest

/-- Taking wakers out changes no read. -/
theorem quiet_of_wakers {j : Journal} {f : Nat → Option Waker → Option Waker} :
    j.Quiet { j with observers := j.observers.mapValues f } :=
  ⟨fun _ _ _ present pending => pending.congr rfl rfl present, Nat.le_refl _⟩

theorem stored_takeWaker {j : Journal} {id other : Nat} {waker : Waker}
    (stored : (j.takeWaker id).Stored other waker) : other ≠ id ∧ j.Stored other waker := by
  simp only [Stored, takeWaker, SortedMap.get?_mapValues, Option.map_eq_some_iff] at stored
  obtain ⟨slot, found, kept⟩ := stored
  split at kept
  · cases kept
  · rename_i apart
    rw [kept] at found
    exact ⟨apart, found⟩

/-- A read changes wakers only, and registers its own where it found nothing. -/
theorem read_slots (j : Journal) (id : Nat) (start cursor : TransferCursor)
    (waker : Option Waker) :
    (∃ slots, (j.read id start cursor waker).2 =
        { j with observers := j.observers.mapValues slots }) ∧
      ∀ other old, (j.read id start cursor waker).2.Stored other old →
        (other ≠ id ∧ j.Stored other old) ∨ (other = id ∧ j.Pending id start cursor) := by
  have result := World.read_result j id start cursor waker
  by_cases pending : (j.takeWaker id).readResult id start cursor = .ok .pending
  · simp only [read, pending] at result ⊢
    refine ⟨⟨fun key old => if key = id then waker else if key = id then none else old, ?_⟩,
      fun other old held => ?_⟩
    · simp only [takeWaker, SortedMap.mapValues_mapValues]
    · by_cases here : other = id
      · exact .inr ⟨here, result.symm⟩
      · refine .inl ⟨here, ?_⟩
        simp only [Stored, takeWaker, SortedMap.get?_mapValues, Option.map_map,
          Option.map_eq_some_iff, Function.comp_apply, if_neg here] at held
        obtain ⟨slot, found, kept⟩ := held
        rw [kept] at found
        exact found
  · have taken : (j.read id start cursor waker).2 = j.takeWaker id := by
      unfold read
      dsimp only
      generalize (j.takeWaker id).readResult id start cursor = result at pending ⊢
      rcases result with e | answer
      · rfl
      · cases answer with
        | pending => exact absurd rfl pending
        | event | sealedEnd => rfl
    rw [taken]
    exact ⟨⟨_, rfl⟩, fun other old held => .inl (stored_takeWaker held)⟩

/-- A read registers its waker only at the cursor it found pending. -/
theorem read_accounts {w w' : Asked} (valid : w.Valid) (id : Nat) (start cursor : TransferCursor)
    (waker : Option Waker) (latest : w'.latest = w.latest.insert id (start, cursor))
    (journal : w'.world.journal = (w.world.journal.read id start cursor waker).2) :
    Accounts w [] w' := by
  have shape := read_slots w.world.journal id start cursor waker
  rw [← journal] at shape
  obtain ⟨⟨slots, same⟩, stored⟩ := shape
  have quiet : w.world.journal.Quiet w'.world.journal := same ▸ quiet_of_wakers
  refine ⟨fun other old held => ?_, fun other old start' cursor' held asked => .inr fun present => ?_,
    quiet.next⟩
  · have present : (w'.world.journal.observers.get? other).isSome = true := by rw [held]; rfl
    rw [latest, SortedMap.get?_insert]
    rcases stored other old held with ⟨apart, before⟩ | ⟨rfl, pending⟩
    · obtain ⟨start', cursor', asked, waits⟩ := valid other old before
      exact ⟨start', cursor', by rw [if_neg apart, asked], quiet.pending _ _ _ present waits⟩
    · exact ⟨start, cursor, if_pos rfl, quiet.pending _ _ _ present pending⟩
  · obtain ⟨start'', cursor'', asked', pending⟩ := valid other old held
    rw [asked] at asked'
    cases asked'
    exact quiet.pending _ _ _ present pending

theorem open_accounts {w w' : Asked} (valid : w.Valid) (latest : w'.latest = w.latest)
    (journal : w'.world.journal = w.world.journal.openObserver.2) : Accounts w [] w' := by
  rcases openObserver_cases w.world.journal with ⟨e, refused⟩ | ⟨start, opened⟩
  · rw [refused] at journal
    exact valid.unchanged journal latest
  · rw [opened] at journal
    refine valid.calm ?_ (fun id waker held => ?_) latest
    · rw [journal]
      exact ⟨fun _ _ _ present pending => pending.congr rfl rfl present, Nat.le_succ _⟩
    · rw [Stored, journal] at held
      change (w.world.journal.observers.insert _ _).get? id = _ at held
      rw [SortedMap.get?_insert] at held
      split at held
      · cases held
      · exact held

/-- The last observer's departure leaves nobody to read. -/
theorem remove_accounts {w w' : Asked} (valid : w.Valid) {id : Nat} (latest : w'.latest = w.latest)
    (journal : w'.world.journal = w.world.journal.remove id) : Accounts w [] w' := by
  have shape : w'.world.journal.observers = w.world.journal.observers.erase id ∧
      w'.world.journal.nextObserver = w.world.journal.nextObserver ∧
      (w'.world.journal.observers.isEmpty = true ∨
        w'.world.journal.order = w.world.journal.order ∧
          w'.world.journal.records = w.world.journal.records) := by
    rw [journal]
    unfold remove
    simp only
    split
    · rename_i empty
      exact ⟨rfl, rfl, .inl empty⟩
    · exact ⟨rfl, rfl, .inr ⟨rfl, rfl⟩⟩
  obtain ⟨observers, next, rest⟩ := shape
  refine valid.calm ⟨fun other start cursor present pending => ?_, Nat.le_of_eq next.symm⟩
    (fun other waker held => ?_) latest
  · rcases rest with empty | ⟨order, records⟩
    · rw [SortedMap.isEmpty_iff.mp empty other] at present
      cases present
    · exact pending.congr order records present
  · rw [Stored, observers, SortedMap.get?_erase] at held
    split at held
    · cases held
    · exact held

theorem step_accounts {w : Asked} (valid : w.Valid) (step : Step) :
    Accounts w (w.woken step) (w.step step) := by
  cases step with
  | openObserver =>
    refine open_accounts valid rfl ?_
    simp only [Asked.step, World.step]
    rcases openObserver_cases w.world.journal with ⟨e, refused⟩ | ⟨start, opened⟩
    · rw [refused]
    · rw [opened]
  | follow index waker =>
    cases found : w.world.followers[index]? with
    | none =>
      have same : w.step (.follow index waker) = w := by
        simp only [Asked.step, World.step, World.asks, found, Option.map_none]
      rw [same]
      exact valid.unchanged rfl rfl
    | some f =>
      refine read_accounts valid f.observer.id f.observer.start.cursor f.cursor waker ?_ ?_
      · simp only [Asked.step, World.asks, found, Option.map_some]
      · simp only [Asked.step, World.step, found]
  | read id start cursor waker => exact read_accounts valid id start cursor waker rfl rfl
  | cancelWait id =>
    exact valid.calm quiet_of_wakers (fun other waker held => (stored_takeWaker held).2) rfl
  | remove id => exact remove_accounts valid rfl rfl
  | output leases bytes processed => exact append_accounts valid rfl rfl
  | resized leases size generation => exact append_accounts valid rfl rfl
  | finish drain failure => exact Valid.notified (takeWakers_notifies rfl rfl)
  | close => exact Valid.notified (takeWakers_notifies rfl rfl)

theorem run_valid {w : Asked} (valid : w.Valid) (steps : List Step) : (w.run steps).Valid := by
  induction steps generalizing w with
  | nil => exact valid
  | cons step rest ih => exact ih (step_accounts valid step).valid

/-- The observer a step registers. -/
def registers (w : Asked) : Step → Option Nat
  | .openObserver => w.world.journal.openObserver.1.toOption.map TransferObserver.id
  | _ => none

/-- The observer ids a run hands out, in order. -/
def issuedIds (w : Asked) : List Step → List Nat
  | [] => []
  | step :: rest => (w.registers step).toList ++ issuedIds (w.step step) rest

theorem registers_fresh {w : Asked} {step : Step} {id : Nat} (given : w.registers step = some id) :
    id = w.world.journal.nextObserver ∧ id < (w.step step).world.journal.nextObserver := by
  cases step with
  | openObserver =>
    simp only [registers] at given
    simp only [Asked.step, World.step]
    rcases openObserver_cases w.world.journal with ⟨e, refused⟩ | ⟨start, opened⟩
    · rw [refused] at given
      cases given
    · rw [opened] at given ⊢
      obtain rfl := Option.some.inj given
      exact ⟨rfl, Nat.lt_succ_self _⟩
  | follow | read | cancelWait | remove | output | resized | finish | close => cases given

/-- Observer ids are never handed out twice. -/
theorem issuedIds_increasing {w : Asked} (valid : w.Valid) (steps : List Step) :
    (w.issuedIds steps).Pairwise (· < ·) := by
  have keeps (w : Asked) (step : Step) (valid : w.Valid) :
      (w.step step).Valid ∧ w.world.journal.nextObserver ≤ (w.step step).world.journal.nextObserver :=
    ⟨(step_accounts valid step).valid, (step_accounts valid step).next⟩
  exact (issued_increasing (fun _ => rfl) (fun _ _ _ => rfl) keeps (fun _ _ _ => registers_fresh)
    valid steps).2

end Asked

end Journal

/-- No lost observer wakeup, over every run of a session with its attachments and
completion waits and of a journal with its observers. A stored waker means a pending
read; a step that makes a watcher ready has taken its waker to wake it; and no id is
handed out twice. -/
theorem no_lost_wakeup :
    (∀ (lifetime : SessionLifetime) (replayBytes maxObservers pageBytes : Nat)
        (observers replayQuota : Quota) (steps : List Watched.Step),
      let fresh := Watched.new lifetime replayBytes maxObservers pageBytes observers replayQuota
      let s := fresh.run steps
      (∀ id waker, s.observed.context.watchers.get? id = some (some waker) →
        (∀ a, s.observed.attachments.get? id = some a →
          s.observed.context.read a.cursor = .ok none) ∧
        ((s.waits.get? id).isSome = true → s.observed.context.status.completion = none)) ∧
      (∀ step id waker, s.observed.context.watchers.get? id = some (some waker) →
        (s.step step).Ready id → waker ∈ s.woken step ∧
          ∀ waker', (s.step step).observed.context.watchers.get? id ≠ some (some waker')) ∧
      (fresh.issuedIds steps).Pairwise (· < ·)) ∧
    (∀ (lifetime : SessionLifetime) (steps : List Journal.Step),
      let w := (Journal.Asked.new lifetime).run steps
      (∀ id waker, w.world.journal.observers.get? id = some (some waker) →
        ∃ start cursor, w.latest.get? id = some (start, cursor) ∧
          w.world.journal.readResult id start cursor = .ok .pending) ∧
      (∀ step id waker start cursor, w.world.journal.observers.get? id = some (some waker) →
        w.latest.get? id = some (start, cursor) →
        ((w.step step).world.journal.observers.get? id).isSome = true →
        (w.step step).world.journal.readResult id start cursor ≠ .ok .pending →
          waker ∈ w.woken step ∧
            ∀ waker', (w.step step).world.journal.observers.get? id ≠ some (some waker')) ∧
      ((Journal.Asked.new lifetime).issuedIds steps).Pairwise (· < ·)) := by
  constructor
  · intro lifetime replayBytes maxObservers pageBytes observers replayQuota steps fresh s
    have start : fresh.Valid := Watched.new_valid ..
    have valid : s.Valid := Watched.run_valid start steps
    refine ⟨fun id waker held => ?_, fun step id waker held ready => ?_,
      Watched.issuedIds_increasing start steps⟩
    · have waiting := valid.waiting id waker held
      exact ⟨fun a found => (waiting.attachment a found).2, waiting.completion⟩
    · rcases (Watched.step_accounts valid step).answered id waker held with taken | waiting
      · exact taken
      · exact absurd ready waiting.not_ready
  · intro lifetime steps w
    have start : (Journal.Asked.new lifetime).Valid := by
      intro id waker held
      cases held
    have valid : w.Valid := Journal.Asked.run_valid start steps
    refine ⟨valid, fun step id waker start cursor held asked present ready => ?_,
      Journal.Asked.issuedIds_increasing start steps⟩
    rcases (Journal.Asked.step_accounts valid step).answered id waker start cursor held asked
      with taken | pending
    · exact taken
    · exact absurd (pending present) ready

end PtyRuntime
