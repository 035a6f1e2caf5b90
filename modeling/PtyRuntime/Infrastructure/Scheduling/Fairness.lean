import PtyRuntime.Cyclic
import PtyRuntime.Infrastructure.Scheduling.PoolRuns

/-! Scheduler fairness. The cursor stands just behind the slot of the last run, and a pass
goes round the slots from there, so each run that is not the one a waiting registration
hopes for brings the cursor nearer to it. -/
namespace PtyRuntime.StdWorkScheduler

variable {s : StdWorkScheduler}

/-- A worker that passes at `now` or later may take the entry. -/
structure Ready (now : Nat) (entry : Entry) : Prop where
  idle : entry.running = false
  opened : entry.closed = false
  wanted : entry.pending = true ∨ entry.due.any (· ≤ now) = true

/-- The registration is ready in its slot. -/
def Waits (s : StdWorkScheduler) (now index id : Nat) : Prop :=
  ∃ entry, s.slot index = some entry ∧ entry.id = id ∧ Ready now entry

/-- A pass of the step reads the clock at `now` or later. -/
def Event.since (now : Nat) : Event → Prop
  | .take _ clock _ => now ≤ clock
  | _ => True

def Answer.starts : Answer → Bool
  | .taken (.work _) => true
  | _ => false

/-- How many runs were started. -/
def started (s : StdWorkScheduler) : List Event → Nat
  | [] => 0
  | event :: rest => (s.step event).1.starts.toNat + (s.step event).2.started rest

/-- The step is a pass of a worker over the slots. -/
def passing (s : StdWorkScheduler) : Event → Bool
  | .take worker _ _ => s.workers[worker]? = some .looking
  | _ => false

/-- How many passes the workers made. -/
def passes (s : StdWorkScheduler) : List Event → Nat
  | [] => 0
  | event :: rest => (s.passing event).toNat + (s.step event).2.passes rest

/-- How far the slot is ahead of the cursor. -/
def ahead (s : StdWorkScheduler) (index : Nat) : Nat := Cyclic.distance s.slots.length s.cursor index

/-- The number of slots never changes, the cursor is one of them, and no entry of a closed
pool is open. -/
structure Seated (size : Nat) (s : StdWorkScheduler) : Prop where
  length : s.slots.length = size
  cursor : 0 < size → s.cursor < size
  shut : s.closed = true → ∀ {index : Nat} {entry : Entry}, s.slot index = some entry → entry.closed = true

theorem Ready.later {now clock : Nat} {entry : Entry} (ready : Ready now entry) (past : now ≤ clock) :
    Ready clock entry := by
  refine ⟨ready.idle, ready.opened, ?_⟩
  rcases ready.wanted with pending | due
  · exact .inl pending
  · refine .inr ?_
    obtain ⟨time, held, reached⟩ := (Option.any_eq_true _ _).mp due
    exact (Option.any_eq_true _ _).mpr ⟨time, held, decide_eq_true ((of_decide_eq_true reached).trans past)⟩

/-- A cleared slot stays empty for the rest of a pass. -/
theorem scan_empty {now cursor : Nat} {outside : Nat → Outside} {offsets : List Nat} {nearest : Option Nat}
    {t : StdWorkScheduler} {index : Nat} (empty : t.slot index = none) :
    (scan now cursor outside offsets nearest t).2.slot index = none := by
  have pass := scan_slot now cursor outside offsets nearest t index
  rw [empty] at pass
  generalize (scan now cursor outside offsets nearest t).2.slot index = after at pass
  cases pass with
  | same => rfl

theorem scan_length (now cursor : Nat) (outside : Nat → Outside) (offsets : List Nat) (nearest : Option Nat)
    (t : StdWorkScheduler) : (scan now cursor outside offsets nearest t).2.slots.length = t.slots.length := by
  induction offsets generalizing nearest t with
  | nil => rfl
  | cons offset rest ih =>
    unfold scan
    dsimp only
    repeat' split
    all_goals simp [ih]

/-- A pass moves the cursor just behind the slot it took, and only then. -/
theorem scan_cursor (now cursor : Nat) (outside : Nat → Outside) (offsets : List Nat) (nearest : Option Nat)
    (t : StdWorkScheduler) :
    (∃ run, (scan now cursor outside offsets nearest t).1 = .work run ∧
        (scan now cursor outside offsets nearest t).2.cursor = (run.index + 1) % t.slots.length) ∨
      (∀ run, (scan now cursor outside offsets nearest t).1 ≠ .work run) ∧
        (scan now cursor outside offsets nearest t).2.cursor = t.cursor := by
  induction offsets generalizing nearest t with
  | nil => exact .inr ⟨nofun, rfl⟩
  | cons offset rest ih =>
    have cleared := ih nearest (t.setSlot ((cursor + offset) % t.slots.length) none)
    rw [setSlot_length] at cleared
    unfold scan
    dsimp only
    split
    · exact ih nearest t
    · split
      · exact ih nearest t
      · split
        · exact cleared
        · split
          · split
            · exact cleared
            · exact .inl ⟨_, rfl, rfl⟩
          · exact ih _ t

/-- A pass that comes by a ready slot takes it, clears it, or took one on the way. -/
theorem scan_reaches {now cursor offset : Nat} {outside : Nat → Outside} {offsets : List Nat}
    {nearest : Option Nat} {t : StdWorkScheduler} {entry : Entry} (ascending : offsets.Pairwise (· < ·))
    (within : ∀ offset ∈ offsets, offset < t.slots.length) (seated : cursor < t.slots.length)
    (member : offset ∈ offsets) (found : t.slot ((cursor + offset) % t.slots.length) = some entry)
    (ready : Ready now entry) :
    (∃ run passed, (scan now cursor outside offsets nearest t).1 = .work run ∧ passed ≤ offset ∧
        run.index = (cursor + passed) % t.slots.length) ∨
      (scan now cursor outside offsets nearest t).2.slot ((cursor + offset) % t.slots.length) = none := by
  induction offsets generalizing nearest t with
  | nil => cases member
  | cons first rest ih =>
    obtain ⟨least, ascending⟩ := List.pairwise_cons.mp ascending
    have inside : offset < t.slots.length := within offset member
    by_cases here : offset = first
    · -- the pass is at the slot
      subst here
      have cleared (nearest : Option Nat) :
          (scan now cursor outside rest nearest (t.setSlot ((cursor + offset) % t.slots.length) none)).2.slot
            ((cursor + offset) % t.slots.length) = none := by
        refine scan_empty ?_
        rw [slot_setSlot, if_pos ⟨rfl, slot_lt found⟩]
      have wanted : (entry.pending || entry.due.any (· ≤ now)) = true := by simpa using ready.wanted
      simp only [scan, found, ready.idle, ready.opened, wanted, Bool.or_self, Bool.false_eq_true, if_false, if_true]
      split
      · exact .inr (cleared nearest)
      · split
        · exact .inr (cleared nearest)
        · exact .inl ⟨_, offset, rfl, Nat.le_refl _, rfl⟩
    · -- it is at one before, and what it does there leaves the ready slot as it is
      have member : offset ∈ rest := (List.mem_cons.mp member).resolve_left here
      have before : first < offset := least offset member
      have elsewhere : (cursor + first) % t.slots.length ≠ (cursor + offset) % t.slots.length := fun same =>
        Nat.ne_of_lt before (Cyclic.add_inj seated (Nat.lt_trans before inside) inside same)
      have within : ∀ offset ∈ rest, offset < t.slots.length := fun other later =>
        within other (List.mem_cons_of_mem first later)
      have cleared := @ih nearest (t.setSlot ((cursor + first) % t.slots.length) none) ascending
      rw [setSlot_length, slot_setSlot, if_neg fun both => elsewhere both.1] at cleared
      have cleared := cleared within seated member found
      unfold scan
      dsimp only
      split
      · exact ih ascending within seated member found
      · split
        · exact ih ascending within seated member found
        · split
          · exact cleared
          · split
            · split
              · exact cleared
              · exact .inl ⟨_, first, rfl, Nat.le_of_lt before, rfl⟩
            · exact ih ascending within seated member found

/-- A step that is no pass: the answer starts nothing, and the seats stay as they are. -/
theorem step_still {event : Event} (idle : s.passing event = false) :
    (s.step event).1.starts = false ∧ (s.step event).2.slots.length = s.slots.length ∧
      (s.step event).2.cursor = s.cursor ∧ (event = .shutdown ∨ (s.step event).2.closed = s.closed) := by
  cases event with
  | register work outside =>
    simp only [step, register]
    repeat' split
    all_goals simp [sweep, Answer.starts]
  | wake handle =>
    simp only [step, wake]
    repeat' split
    all_goals simp [Answer.starts]
  | close handle =>
    simp only [step, close]
    repeat' split
    all_goals simp [Answer.starts]
  | shutdown => simp [step, shutdown, Answer.starts]
  | take worker now outside =>
    have elsewhere : s.step (.take worker now outside) = (.quiet, s) := by
      have busy : s.workers[worker]? ≠ some .looking := of_decide_eq_false idle
      simp only [step]
    rw [elsewhere]
    exact ⟨rfl, rfl, rfl, .inr rfl⟩
  | ran worker outcome =>
    simp only [step]
    split <;> exact ⟨rfl, rfl, rfl, .inr rfl⟩
  | complete worker deadline =>
    simp only [step, complete, setWorker]
    repeat' split
    all_goals simp [Answer.starts]

theorem step_pass {event : Event} (passing : s.passing event = true) :
    ∃ worker now outside, event = .take worker now outside ∧
      s.step event = (.taken (s.take worker now outside).1, (s.take worker now outside).2) := by
  cases event with
  | take worker now outside =>
    have looking : s.workers[worker]? = some .looking := of_decide_eq_true passing
    exact ⟨worker, now, outside, rfl, by simp only [step, looking]⟩
  | _ => cases passing

theorem step_length (s : StdWorkScheduler) (event : Event) : (s.step event).2.slots.length = s.slots.length := by
  cases passing : s.passing event with
  | false => exact (step_still passing).2.1
  | true =>
    obtain ⟨worker, now, outside, rfl, stepped⟩ := step_pass passing
    rw [stepped]
    cases opened : s.closed with
    | true => simp only [take, opened, if_true, setWorker]
    | false =>
      rw [(take_opened opened worker now outside).2.1]
      exact scan_length _ _ _ _ _ _

/-- A step passes over the slots of an open pool once, or starts nothing and leaves the
cursor where it is. -/
theorem step_scan (s : StdWorkScheduler) (event : Event) :
    (∃ worker now outside, event = .take worker now outside ∧ s.passing event = true ∧
      (s.step event).1 = .taken (scan now s.cursor outside (List.range s.slots.length) none s).1 ∧
      (s.step event).2.slots = (scan now s.cursor outside (List.range s.slots.length) none s).2.slots ∧
      (s.step event).2.cursor = (scan now s.cursor outside (List.range s.slots.length) none s).2.cursor) ∨
    (s.step event).1.starts = false ∧ (s.step event).2.cursor = s.cursor ∧
      (s.passing event = true → s.closed = true) := by
  cases passing : s.passing event with
  | false =>
    obtain ⟨quiet, -, cursor, -⟩ := step_still passing
    exact .inr ⟨quiet, cursor, nofun⟩
  | true =>
    obtain ⟨worker, now, outside, rfl, stepped⟩ := step_pass passing
    rw [stepped]
    cases opened : s.closed with
    | true =>
      refine .inr ⟨?_, ?_, fun _ => rfl⟩
      · simp only [take, opened, if_true]
        rfl
      · simp only [take, opened, if_true]
        rfl
    | false =>
      obtain ⟨taken, slots, -⟩ := take_opened opened worker now outside
      refine .inl ⟨worker, now, outside, rfl, rfl, by rw [taken], slots, ?_⟩
      simp only [take, opened, Bool.false_eq_true, if_false]
      split
      · rename_i same
        rw [same]
        rfl
      · rename_i same
        exact congrArg (·.2.cursor) same.symm

theorem withWorkers_seated (maxSessions workers : Nat) : Seated maxSessions (withWorkers maxSessions workers) where
  length := List.length_replicate
  cursor positive := positive
  shut closed := by cases closed

theorem step_opens (s : StdWorkScheduler) (event : Event) :
    event = .shutdown ∨ (s.step event).2.closed = s.closed := by
  cases passing : s.passing event with
  | false => exact (step_still passing).2.2.2
  | true =>
    obtain ⟨worker, now, outside, rfl, stepped⟩ := step_pass passing
    rw [stepped]
    cases opened : s.closed with
    | true => exact .inr (by simp only [take, opened, if_true, setWorker])
    | false => exact .inr (take_opened opened worker now outside).2.2.2.1

theorem closed_registers_nothing (closed : s.closed = true) (event : Event) (handle : Handle) :
    (s.step event).1 ≠ .registered (.ok handle) := by
  cases event with
  | register work outside => simp [step, register, closed]
  | wake | close | shutdown => simp [step]
  | take worker now outside =>
    simp only [step]
    split <;> simp
  | ran worker outcome =>
    simp only [step]
    split <;> simp
  | complete worker deadline =>
    simp only [step]
    split <;> simp

theorem shutdown_shut {index : Nat} {entry : Entry} (found : s.shutdown.slot index = some entry) :
    entry.closed = true := by
  unfold slot shutdown at found
  rw [List.getElem?_map] at found
  cases held : s.slots[index]? with
  | none =>
    rw [held] at found
    cases found
  | some slot =>
    rw [held] at found
    cases slot with
    | none => cases found
    | some old =>
      simp only [Option.map_some, Option.any_some, Option.join_some] at found
      split at found
      · cases found
      · cases found
        rfl

/-- The slots of a closed pool stay without open entries. -/
theorem Seated.shut_step {size : Nat} (seated : Seated size s) {event : Event}
    (closed : (s.step event).2.closed = true) {index : Nat} {entry : Entry}
    (found : (s.step event).2.slot index = some entry) : entry.closed = true := by
  rcases s.step_opens event with rfl | same
  · exact shutdown_shut found
  · rw [same] at closed
    have change := s.step_slot event index
    rw [found] at change
    generalize before : s.slot index = slot at change
    have shut : ∀ old, slot = some old → old.closed = true := fun old held => seated.shut closed (before.trans held)
    cases change with
    | same => exact shut _ rfl
    | registered answer => exact absurd answer (closed_registers_nothing closed event _)
    | woken _ =>
      have kept := shut _ rfl
      exact kept
    | marked _ _ => rfl
    | started _ _ opened => cases opened.symm.trans (shut _ rfl)
    | stopped _ _ _ =>
      have kept := shut _ rfl
      exact kept

theorem Seated.step {size : Nat} (seated : Seated size s) (event : Event) : Seated size (s.step event).2 where
  length := (s.step_length event).trans seated.length
  cursor positive := by
    rcases s.step_scan event with ⟨worker, now, outside, -, -, -, -, cursor⟩ | ⟨-, cursor, -⟩
    · rw [cursor]
      have moves := scan_cursor now s.cursor outside (List.range s.slots.length) none s
      rcases moves with ⟨run, -, moved⟩ | ⟨-, stays⟩
      · rw [moved, seated.length]
        exact Nat.mod_lt _ positive
      · rw [stays]
        exact seated.cursor positive
    · rw [cursor]
      exact seated.cursor positive
  shut closed _ _ found := seated.shut_step closed found

theorem Seated.run {size : Nat} (seated : Seated size s) (events : List Event) : Seated size (s.run events) := by
  induction events generalizing s with
  | nil => exact seated
  | cons event rest ih => exact ih (seated.step event)

/-- A step leaves a ready registration ready, starts its run or removes it. -/
theorem Valid.waits_step (valid : Valid s) {now index id : Nat} (waits : Waits s now index id) (event : Event) :
    Waits (s.step event).2 now index id ∨ Starts s event id ∨ Removes s event id := by
  obtain ⟨entry, found, rfl, ready⟩ := waits
  have change := s.step_slot event index
  rw [found] at change
  generalize after : (s.step event).2.slot index = slot at change
  cases change with
  | same => exact .inl ⟨entry, after, rfl, ready⟩
  | registered _ fresh _ free =>
    refine .inr (.inr (valid.removed found (free entry rfl) fun other held => ?_))
    obtain rfl := Option.some.inj (after.symm.trans held)
    have bound := valid.below found
    omega
  | woken _ => exact .inl ⟨_, after, rfl, ready.idle, ready.opened, .inl rfl⟩
  | marked _ running => cases ready.idle.symm.trans running
  | removed why => exact .inr (.inr (valid.removed found why fun _ held => nomatch after.symm.trans held))
  | started answer _ _ => exact .inr (.inl ⟨_, answer, rfl⟩)
  | stopped _ phase here =>
    -- its worker would be at a run of this slot
    subst here
    obtain ⟨running, held, -, -, busy⟩ := valid.held (by rw [hand, phase]; rfl)
    cases Option.some.inj (found.symm.trans held)
    cases ready.idle.symm.trans busy

/-- Where a ready registration is still ready, a pass started another run and brought the
cursor nearer, and any other step left the cursor where it was. -/
theorem Seated.nearer {size : Nat} (seated : Seated size s) {now index id : Nat} (waits : Waits s now index id)
    {event : Event} (since : event.since now) (still : Waits (s.step event).2 now index id) :
    s.passing event = true ∧ (s.step event).1.starts = true ∧ (s.step event).2.ahead index < s.ahead index ∨
      s.passing event = false ∧ (s.step event).1.starts = false ∧ (s.step event).2.ahead index = s.ahead index := by
  obtain ⟨entry, found, -, ready⟩ := waits
  have within := slot_lt found
  have started := seated.cursor (seated.length ▸ Nat.zero_lt_of_lt within)
  rw [← seated.length] at started
  rcases s.step_scan event with ⟨worker, clock, outside, rfl, passing, answer, slots, cursor⟩ | ⟨none, cursor, shut⟩
  · refine .inl ⟨passing, ?_⟩
    have place := Cyclic.add_distance started within
    have bound := Cyclic.distance_lt s.cursor within
    have reached := @scan_reaches clock s.cursor (Cyclic.distance s.slots.length s.cursor index) outside
      (List.range s.slots.length) none s entry List.pairwise_lt_range (fun _ member => List.mem_range.mp member)
      started (List.mem_range.mpr bound) (place.symm ▸ found) (ready.later since)
    rw [place] at reached
    rcases reached with ⟨run, passed, taken, near, here⟩ | gone
    · refine ⟨by rw [answer, taken]; rfl, ?_⟩
      have other : run.index ≠ index := by
        intro same
        obtain ⟨started, held, -, -, running⟩ := scan_work taken
        obtain ⟨entry', held', -, ready'⟩ := still
        rw [slot, slots, ← slot, ← same, running] at held'
        cases held'
        cases ready'.idle
      have short : passed < Cyclic.distance s.slots.length s.cursor index := by
        refine Nat.lt_of_le_of_ne near fun same => other ?_
        rw [here, same, place]
      have moved : (s.step (.take worker clock outside)).2.cursor = (run.index + 1) % s.slots.length := by
        have moves := scan_cursor clock s.cursor outside (List.range s.slots.length) none s
        rcases moves with ⟨run', taken', moved⟩ | ⟨none, -⟩
        · cases taken.symm.trans taken'
          exact cursor.trans moved
        · exact absurd taken (none run)
      have past := Cyclic.distance_past started within short
      rw [ahead, ahead, step_length, moved, here]
      omega
    · obtain ⟨entry', held, -⟩ := still
      rw [slot, slots, ← slot, gone] at held
      cases held
  · refine .inr ⟨?_, none, ?_⟩
    · cases passing : s.passing event with
      | false => rfl
      | true => cases ready.opened.symm.trans (seated.shut (shut passing) found)
    · rw [ahead, ahead, step_length, cursor]

/-- The registration was started or removed at a step after some that did neither. -/
def Ends (s : StdWorkScheduler) (id : Nat) (before : List Event) (event : Event) : Prop :=
  Starts (s.run before) event id ∨ Removes (s.run before) event id

theorem waits_run {size : Nat} (valid : Valid s) (seated : Seated size s) {now index id : Nat}
    (waits : Waits s now index id) {later : List Event} (clock : ∀ event ∈ later, event.since now) :
    (∃ before event after, later = before ++ event :: after ∧ Ends s id before event ∧
        s.passes before = s.started before ∧ s.started before + (s.run before).ahead index ≤ s.ahead index) ∨
      Waits (s.run later) now index id ∧ s.passes later = s.started later ∧
        s.started later + (s.run later).ahead index ≤ s.ahead index := by
  induction later generalizing s with
  | nil => exact .inr ⟨waits, rfl, by simp [started, run]⟩
  | cons event rest ih =>
    rcases valid.waits_step waits event with still | ended
    · have nearer := seated.nearer waits (clock event (List.mem_cons_self ..)) still
      have counted (before : List Event)
          (level : (s.step event).2.passes before = (s.step event).2.started before)
          (bound : (s.step event).2.started before + ((s.step event).2.run before).ahead index ≤
            (s.step event).2.ahead index) :
          s.passes (event :: before) = s.started (event :: before) ∧
            s.started (event :: before) + (s.run (event :: before)).ahead index ≤ s.ahead index := by
        have moved : s.run (event :: before) = (s.step event).2.run before := rfl
        rw [passes, started, moved]
        rcases nearer with ⟨passing, starts, nearer⟩ | ⟨passing, starts, same⟩
        · rw [passing, starts, Bool.toNat_true]
          omega
        · rw [passing, starts, Bool.toNat_false]
          omega
      rcases ih (valid.step event) (seated.step event) still
          (fun other member => clock other (List.mem_cons_of_mem event member)) with
        ⟨before, next, after, split, ended, level, bound⟩ | ⟨still, level, bound⟩
      · exact .inl ⟨event :: before, next, after, by rw [split]; rfl, ended, counted before level bound⟩
      · exact .inr ⟨still, counted rest level bound⟩
    · exact .inl ⟨[], event, rest, rfl, ended, rfl, by simp [started, run]⟩

/-- Whatever the others do, a ready registration is started or removed before `maxSessions`
passes are over, each of which starts a run and brings the cursor nearer. -/
theorem scheduler_fair (maxSessions workers : Nat) (earlier : List Event) {now index : Nat} {entry : Entry}
    (found : ((withWorkers maxSessions workers).run earlier).slot index = some entry) (ready : Ready now entry)
    (later : List Event) (clock : ∀ event ∈ later, event.since now) :
    let s := (withWorkers maxSessions workers).run earlier
    ((∃ before event after, later = before ++ event :: after ∧ Ends s entry.id before event ∧
        s.passes before = s.started before ∧ s.started before ≤ maxSessions - 1) ∨
      Waits (s.run later) now index entry.id ∧ s.passes later = s.started later ∧
        s.started later ≤ maxSessions - 1) ∧
    ∀ event, event.since now → (s.step event).1.starts = true → ¬Ends s entry.id [] event →
      (s.step event).2.ahead index < s.ahead index := by
  intro s
  have valid : Valid s := (withWorkers_valid maxSessions workers).run earlier
  have seated : Seated maxSessions s := (withWorkers_seated maxSessions workers).run earlier
  have waits : Waits s now index entry.id := ⟨entry, found, rfl, ready⟩
  have far : s.ahead index < maxSessions := seated.length ▸ Cyclic.distance_lt s.cursor (slot_lt found)
  refine ⟨?_, fun event since starts going => ?_⟩
  · rcases waits_run valid seated waits clock with
      ⟨before, event, after, split, ended, level, bound⟩ | ⟨still, level, bound⟩
    · exact .inl ⟨before, event, after, split, ended, level, by omega⟩
    · exact .inr ⟨still, level, by omega⟩
  · rcases valid.waits_step waits event with still | ended
    · rcases seated.nearer waits since still with ⟨-, -, nearer⟩ | ⟨-, none, -⟩
      · exact nearer
      · cases starts.symm.trans none
    · exact absurd ended going

/-- Two registrations, both awake: the one behind the cursor waits for one run. -/
theorem scheduler_fair_pair :
    let s := (withWorkers 2 1).run [.register 0 fun _ _ => 1, .register 1 fun _ _ => 1, .wake ⟨0, 1⟩,
      .take 0 0 fun _ _ => 1, .wake ⟨0, 1⟩, .wake ⟨1, 2⟩, .ran 0 ⟨some .dormant, none, some ()⟩, .complete 0 none]
    (∃ before event after, [Event.take 0 0 fun _ _ => 1] = before ++ event :: after ∧ Ends s 2 before event ∧
        s.passes before = s.started before ∧ s.started before ≤ 2 - 1) ∨
      Waits (s.run [.take 0 0 fun _ _ => 1]) 0 1 2 ∧
        s.passes [.take 0 0 fun _ _ => 1] = s.started [.take 0 0 fun _ _ => 1] ∧
        s.started [.take 0 0 fun _ _ => 1] ≤ 2 - 1 := by
  exact (@scheduler_fair 2 1 [.register 0 fun _ _ => 1, .register 1 fun _ _ => 1, .wake ⟨0, 1⟩,
    .take 0 0 fun _ _ => 1, .wake ⟨0, 1⟩, .wake ⟨1, 2⟩, .ran 0 ⟨some .dormant, none, some ()⟩, .complete 0 none]
    0 1 ⟨2, 1, false, true, false, none⟩ (by decide)
    ⟨rfl, rfl, .inl rfl⟩ [.take 0 0 fun _ _ => 1] (by simp [Event.since])).1

end PtyRuntime.StdWorkScheduler
