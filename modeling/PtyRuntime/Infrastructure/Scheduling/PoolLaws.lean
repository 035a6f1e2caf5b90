import PtyRuntime.Infrastructure.Scheduling.Pool

/-! Scheduler safety. One lemma tells everything a step may do to one slot, another what
it may do to one worker; every invariant of the pool follows from these two. -/
namespace PtyRuntime.StdWorkScheduler

variable {s : StdWorkScheduler}

@[simp] theorem slot_setSlot (s : StdWorkScheduler) (index : Nat) (entry : Option Entry) (other : Nat) :
    (s.setSlot index entry).slot other =
      if index = other ∧ index < s.slots.length then entry else s.slot other := by
  unfold slot setSlot
  rw [List.getElem?_set]
  by_cases same : index = other
  · subst same
    by_cases within : index < s.slots.length
    · simp [within]
    · simp [within]
  · simp [same]

@[simp] theorem slot_setWorker (s : StdWorkScheduler) (worker : Nat) (phase : Worker) (index : Nat) :
    (s.setWorker worker phase).slot index = s.slot index := rfl

@[simp] theorem setSlot_closed (s : StdWorkScheduler) (index : Nat) (entry : Option Entry) :
    (s.setSlot index entry).closed = s.closed := rfl

@[simp] theorem setSlot_cursor (s : StdWorkScheduler) (index : Nat) (entry : Option Entry) :
    (s.setSlot index entry).cursor = s.cursor := rfl

@[simp] theorem setSlot_length (s : StdWorkScheduler) (index : Nat) (entry : Option Entry) :
    (s.setSlot index entry).slots.length = s.slots.length := List.length_set

theorem slot_lt {index : Nat} {entry : Entry} (found : s.slot index = some entry) :
    index < s.slots.length := by
  by_contra out
  unfold slot at found
  rw [List.getElem?_eq_none (Nat.not_lt.mp out)] at found
  cases found

/-- The looks at outside references that a step makes. -/
def Event.outside : Event → Option (Nat → Outside)
  | .register _ outside => some outside
  | .take _ _ outside => some outside
  | _ => none

/-- Why an entry may leave its slot. -/
inductive Removal (s : StdWorkScheduler) (event : Event) (index : Nat) (entry : Entry) : Prop where
  | closed {handle : Handle} (called : event = .close handle) (own : handle.id = entry.id)
      (idle : entry.running = false)
  | shutdown (called : event = .shutdown) (idle : entry.running = false)
  | dropped {outside : Nat → Outside} {look : Nat} (looked : event.outside = some outside)
      (idle : entry.running = false) (gone : s.strongCount (outside look) entry.work = 0)
  | finished {worker : Nat} {deadline : Option Nat} {run : Run} {schedule : WorkSchedule}
      (called : event = .complete worker deadline)
      (phase : s.workers[worker]? = some (.finishing run schedule)) (here : run.index = index)
      (ended : entry.closed = true ∨ schedule = .finished)

/-- Everything a step may do to one slot. -/
inductive Change (s : StdWorkScheduler) (event : Event) (index : Nat) : Option Entry → Option Entry → Prop where
  | same (entry : Option Entry) : Change s event index entry entry
  | registered {before : Option Entry} {entry : Entry}
      (answer : (s.step event).1 = .registered (.ok ⟨index, entry.id⟩)) (fresh : entry.id = s.next + 1)
      (idle : entry.running = false) (free : ∀ old, before = some old → Removal s event index old) :
      Change s event index before (some entry)
  | woken {entry : Entry} (called : event = .wake ⟨index, entry.id⟩) :
      Change s event index (some entry) (some { entry with pending := true })
  | marked {entry : Entry} (called : event = .shutdown ∨ event = .close ⟨index, entry.id⟩)
      (running : entry.running = true) :
      Change s event index (some entry) (some { entry with closed := true })
  | removed {entry : Entry} (why : Removal s event index entry) : Change s event index (some entry) none
  | started {entry : Entry} (answer : (s.step event).1 = .taken (.work ⟨index, entry.work, entry.id⟩))
      (idle : entry.running = false) (opened : entry.closed = false) :
      Change s event index (some entry) (some { entry with pending := false, due := none, running := true })
  | stopped {entry : Entry} {worker : Nat} {deadline due : Option Nat} {run : Run} {schedule : WorkSchedule}
      (called : event = .complete worker deadline)
      (phase : s.workers[worker]? = some (.finishing run schedule)) (here : run.index = index) :
      Change s event index (some entry) (some { entry with running := false, due })

theorem wake_slot (handle : Handle) (index : Nat) :
    Change s (.wake handle) index (s.slot index) ((s.wake handle).2.slot index) := by
  unfold wake
  split
  · exact .same _
  · split
    · exact .same _
    · rename_i entry found
      obtain ⟨held, own⟩ := Option.filter_eq_some_iff.mp found
      have own : entry.id = handle.id ∧ entry.closed = false := by simpa using own
      rw [slot_setSlot]
      split
      · rename_i here
        obtain ⟨rfl, -⟩ := here
        rw [held]
        exact .woken (by rw [own.1])
      · exact .same _

theorem close_slot (handle : Handle) (index : Nat) :
    Change s (.close handle) index (s.slot index) ((s.close handle).slot index) := by
  unfold close
  split
  · exact .same _
  · rename_i entry found
    obtain ⟨held, own⟩ := Option.filter_eq_some_iff.mp found
    have own : entry.id = handle.id := by simpa using own
    split
    · rename_i running
      rw [slot_setSlot]
      split
      · rename_i here
        obtain ⟨rfl, -⟩ := here
        rw [held]
        exact .marked (.inr (by rw [own])) running
      · exact .same _
    · rename_i idle
      rw [slot_setSlot]
      split
      · rename_i here
        obtain ⟨rfl, -⟩ := here
        rw [held]
        exact .removed (.closed rfl own.symm (by simpa using idle))
      · exact .same _

theorem shutdown_slot (index : Nat) : Change s .shutdown index (s.slot index) (s.shutdown.slot index) := by
  unfold slot shutdown
  rw [List.getElem?_map]
  cases found : s.slots[index]? with
  | none => exact .same _
  | some slot =>
    cases slot with
    | none => exact .same _
    | some entry =>
      simp only [Option.map_some, Option.any_some, Option.join_some]
      split
      · rename_i idle
        exact .removed (.shutdown rfl (by simpa using idle))
      · rename_i running
        exact .marked (.inl rfl) (by simpa using running)

theorem complete_slot {worker : Nat} {deadline : Option Nat} {run : Run} {schedule : WorkSchedule}
    (phase : s.workers[worker]? = some (.finishing run schedule)) (index : Nat) :
    Change s (.complete worker deadline) index (s.slot index)
      ((s.complete run.index schedule deadline).slot index) := by
  unfold complete
  split
  · exact .same _
  · rename_i entry held
    split
    · rename_i ended
      rw [slot_setSlot]
      split
      · rename_i here
        obtain ⟨here, -⟩ := here
        rw [← here, held]
        exact .removed (.finished rfl phase rfl (by simpa using ended))
      · exact .same _
    · rw [slot_setSlot]
      split
      · rename_i here
        obtain ⟨here, -⟩ := here
        rw [← here, held]
        exact .stopped rfl phase rfl
      · exact .same _

theorem strongCount_congr {s t : StdWorkScheduler} (workers : t.workers = s.workers) (outside : Outside)
    (work : WorkId) : t.strongCount outside work = s.strongCount outside work := by
  rw [strongCount, strongCount, workers]

/-- What a pass over the slots may do to one of them. -/
inductive Scanned (s : StdWorkScheduler) (outside : Nat → Outside) (taken : Taken) (index : Nat) :
    Option Entry → Option Entry → Prop where
  | same (entry : Option Entry) (elsewhere : ∀ run, taken = .work run → run.index ≠ index) :
      Scanned s outside taken index entry entry
  | dropped {entry : Entry} {look : Nat} (idle : entry.running = false)
      (gone : s.strongCount (outside look) entry.work = 0)
      (elsewhere : ∀ run, taken = .work run → run.index ≠ index) :
      Scanned s outside taken index (some entry) none
  | started {entry : Entry} (found : taken = .work ⟨index, entry.work, entry.id⟩)
      (idle : entry.running = false) (opened : entry.closed = false) :
      Scanned s outside taken index (some entry)
        (some { entry with pending := false, due := none, running := true })

/-- A cleared slot stays clear for the rest of the pass. -/
theorem Scanned.after_clear {t : StdWorkScheduler} {outside : Nat → Outside} {taken : Taken}
    {index cleared look : Nat} {entry : Entry} {after : Option Entry} (held : t.slot cleared = some entry)
    (idle : entry.running = false) (gone : t.strongCount (outside look) entry.work = 0)
    (rest : Scanned (t.setSlot cleared none) outside taken index ((t.setSlot cleared none).slot index) after) :
    Scanned t outside taken index (t.slot index) after := by
  rw [slot_setSlot] at rest
  by_cases here : cleared = index
  · subst here
    rw [if_pos ⟨rfl, slot_lt held⟩] at rest
    rw [held]
    cases rest with
    | same _ elsewhere => exact .dropped idle gone elsewhere
  · rw [if_neg (fun both => here both.1)] at rest
    generalize t.slot index = before at rest ⊢
    cases rest with
    | same _ elsewhere => exact .same _ elsewhere
    | dropped idle gone elsewhere => exact .dropped idle ((strongCount_congr rfl _ _).symm.trans gone) elsewhere
    | started found idle opened => exact .started found idle opened

theorem scan_slot (now cursor : Nat) (outside : Nat → Outside) (offsets : List Nat) (nearest : Option Nat)
    (t : StdWorkScheduler) (index : Nat) :
    Scanned t outside (scan now cursor outside offsets nearest t).1 index (t.slot index)
      ((scan now cursor outside offsets nearest t).2.slot index) := by
  induction offsets generalizing nearest t with
  | nil => exact .same _ fun _ found => nomatch found
  | cons offset rest ih =>
    unfold scan
    dsimp only
    split
    · exact ih nearest t
    · rename_i entry held
      split
      · exact ih nearest t
      · rename_i free
        have free : entry.running = false ∧ entry.closed = false := by simpa using free
        split
        · rename_i gone
          exact .after_clear held free.1 gone (ih nearest _)
        · split
          · split
            · rename_i gone
              exact .after_clear held free.1 gone (ih nearest _)
            · have placed := slot_setSlot t ((cursor + offset) % t.slots.length)
                (some { entry with pending := false, due := none, running := true }) index
              change Scanned t outside _ index (t.slot index) ((t.setSlot _ _).slot index)
              rw [placed]
              split
              · rename_i here
                obtain ⟨rfl, -⟩ := here
                rw [held]
                exact .started rfl free.1 free.2
              · rename_i other
                refine .same _ fun run found => ?_
                cases found
                exact fun here => other ⟨here, slot_lt held⟩
          · exact ih _ t

/-- A pass touches slots and the cursor only. -/
theorem scan_frame (now cursor : Nat) (outside : Nat → Outside) (offsets : List Nat) (nearest : Option Nat)
    (t : StdWorkScheduler) :
    (scan now cursor outside offsets nearest t).2.workers = t.workers ∧
      (scan now cursor outside offsets nearest t).2.next = t.next ∧
      (scan now cursor outside offsets nearest t).2.closed = t.closed := by
  induction offsets generalizing nearest t with
  | nil => exact ⟨rfl, rfl, rfl⟩
  | cons offset rest ih =>
    unfold scan
    dsimp only
    repeat' split
    all_goals first | exact ih _ _ | exact ⟨rfl, rfl, rfl⟩

/-- The work a pass found is that of the entry it started. -/
theorem scan_work {now cursor : Nat} {outside : Nat → Outside} {offsets : List Nat} {nearest : Option Nat}
    {t : StdWorkScheduler} {run : Run} (found : (scan now cursor outside offsets nearest t).1 = .work run) :
    ∃ entry, t.slot run.index = some entry ∧ entry.running = false ∧ run = ⟨run.index, entry.work, entry.id⟩ ∧
      (scan now cursor outside offsets nearest t).2.slot run.index =
        some { entry with pending := false, due := none, running := true } := by
  have slot := scan_slot now cursor outside offsets nearest t run.index
  generalize t.slot run.index = before, (scan now cursor outside offsets nearest t).2.slot run.index = after at slot ⊢
  cases slot with
  | same _ elsewhere => exact absurd rfl (elsewhere run found)
  | dropped _ _ elsewhere => exact absurd rfl (elsewhere run found)
  | @started entry same idle opened =>
    exact ⟨entry, rfl, idle, Taken.work.inj (found.symm.trans same), rfl⟩

/-- An open pool's worker makes one pass; only its own phase depends on what that found. -/
theorem take_opened (opened : s.closed = false) (worker now : Nat) (outside : Nat → Outside) :
    let pass := scan now s.cursor outside (List.range s.slots.length) none s
    (s.take worker now outside).1 = pass.1 ∧ (s.take worker now outside).2.slots = pass.2.slots ∧
      (s.take worker now outside).2.next = s.next ∧ (s.take worker now outside).2.closed = false ∧
      (s.take worker now outside).2.workers =
        match pass.1 with
        | .work run => s.workers.set worker (.running run)
        | _ => s.workers := by
  obtain ⟨workers, next, closed⟩ := scan_frame now s.cursor outside (List.range s.slots.length) none s
  rw [opened] at closed
  simp only [take, opened, Bool.false_eq_true, if_false]
  generalize scan now s.cursor outside (List.range s.slots.length) none s = pass at workers next closed ⊢
  obtain ⟨taken, after⟩ := pass
  dsimp only at workers next closed ⊢
  cases taken with
  | work run => exact ⟨rfl, rfl, next, closed, by simp only [setWorker, workers]⟩
  | exit => exact ⟨rfl, rfl, next, closed, workers⟩
  | wait nearest => exact ⟨rfl, rfl, next, closed, workers⟩

theorem take_slot {worker now : Nat} {outside : Nat → Outside} (phase : s.workers[worker]? = some .looking)
    (index : Nat) :
    Change s (.take worker now outside) index (s.slot index) ((s.take worker now outside).2.slot index) := by
  have answer : (s.step (.take worker now outside)).1 = .taken (s.take worker now outside).1 := by
    simp only [step, phase]
  cases opened : s.closed with
  | true =>
    simp only [take, opened, if_true, slot_setWorker]
    exact .same _
  | false =>
    obtain ⟨taken, slots, -⟩ := take_opened opened worker now outside
    have pass := scan_slot now s.cursor outside (List.range s.slots.length) none s index
    rw [← taken] at pass
    have after : (s.take worker now outside).2.slot index =
        (scan now s.cursor outside (List.range s.slots.length) none s).2.slot index := by
      rw [slot, slot, slots]
    rw [after]
    generalize s.slot index = before,
      (scan now s.cursor outside (List.range s.slots.length) none s).2.slot index = after at pass ⊢
    cases pass with
    | same => exact .same _
    | dropped idle gone => exact .removed (.dropped rfl idle gone)
    | started found idle opened => exact .started (by rw [answer, found]) idle opened

theorem sweep_slot (outside : Nat → Outside) (index : Nat) :
    (s.sweep outside).slot index = s.slot index ∨
      ∃ entry, s.slot index = some entry ∧ entry.running = false ∧
        s.strongCount (outside index) entry.work = 0 ∧ (s.sweep outside).slot index = none := by
  unfold slot sweep
  rw [List.getElem?_mapIdx]
  cases s.slots[index]? with
  | none => exact .inl rfl
  | some slot =>
    cases slot with
    | none => exact .inl rfl
    | some entry =>
      simp only [Option.map_some, Option.join_some, Option.filter_some]
      split
      · exact .inl rfl
      · rename_i gone
        have gone : entry.running = false ∧ s.strongCount (outside index) entry.work = 0 := by simpa using gone
        exact .inr ⟨entry, rfl, gone.1, gone.2, rfl⟩

theorem slot_of_findIdx {index : Nat} (place : s.slots.findIdx? Option.isNone = some index) :
    s.slot index = none := by
  obtain ⟨within, empty, -⟩ := List.findIdx?_eq_some_iff_getElem.mp place
  rw [slot, List.getElem?_eq_getElem within, Option.join_some]
  exact Option.isNone_iff_eq_none.mp empty

theorem register_slot (work : WorkId) (outside : Nat → Outside) (index : Nat) :
    Change s (.register work outside) index (s.slot index) ((s.register work outside).2.slot index) := by
  have answer : (s.step (.register work outside)).1 = .registered (s.register work outside).1 := rfl
  have removal {entry : Entry} (idle : entry.running = false)
      (gone : s.strongCount (outside index) entry.work = 0) : Removal s (.register work outside) index entry :=
    .dropped rfl idle gone
  have swept : Change s (.register work outside) index (s.slot index) ((s.sweep outside).slot index) := by
    rcases s.sweep_slot outside index with same | ⟨entry, held, idle, gone, cleared⟩
    · rw [same]
      exact .same _
    · rw [held, cleared]
      exact .removed (removal idle gone)
  unfold register at answer ⊢
  split
  · exact .same _
  · rename_i opened
    rw [if_neg opened] at answer
    dsimp only at answer ⊢
    cases place : (s.sweep outside).slots.findIdx? Option.isNone with
    | none => exact swept
    | some free =>
      rw [place] at answer
      cases numbered : checkedAdd (s.sweep outside).next 1 with
      | none => exact swept
      | some id =>
        rw [numbered] at answer
        obtain ⟨-, rfl⟩ := checkedAdd_eq_some.mp numbered
        dsimp only at answer ⊢
        rw [slot_setSlot]
        split
        · rename_i here
          obtain ⟨rfl, -⟩ := here
          refine .registered answer rfl rfl fun old held => ?_
          have empty := slot_of_findIdx place
          rcases s.sweep_slot outside free with same | ⟨entry, occupied, idle, gone, -⟩
          · cases (same.symm.trans empty).symm.trans held
          · obtain rfl := Option.some.inj (occupied.symm.trans held)
            exact removal idle gone
        · exact swept

theorem step_slot (s : StdWorkScheduler) (event : Event) (index : Nat) :
    Change s event index (s.slot index) ((s.step event).2.slot index) := by
  cases event with
  | register work outside => exact register_slot work outside index
  | wake handle => exact wake_slot handle index
  | close handle => exact close_slot handle index
  | shutdown => exact shutdown_slot index
  | take worker now outside =>
    simp only [step]
    split
    · rename_i phase
      exact take_slot phase index
    · exact .same _
  | ran worker outcome =>
    simp only [step]
    split <;> exact .same _
  | complete worker deadline =>
    simp only [step]
    split
    · rename_i phase
      exact complete_slot phase index
    · exact .same _

/-- The run a worker is at, whether or not it has released the work object. -/
def Worker.hand : Worker → Option Run
  | .running run => some run
  | .finishing run _ => some run
  | _ => none

def hand (s : StdWorkScheduler) (worker : Nat) : Option Run := s.workers[worker]?.bind Worker.hand

/-- The step is the end of the worker's run. -/
def Completes (s : StdWorkScheduler) (event : Event) (worker : Nat) : Prop :=
  ∃ deadline run schedule, event = .complete worker deadline ∧
    s.workers[worker]? = some (.finishing run schedule)

theorem not_completes {event : Event} {worker : Nat} (other : ∀ deadline, event ≠ .complete worker deadline) :
    ¬Completes s event worker := by
  rintro ⟨deadline, -, -, called, -⟩
  exact other deadline called

/-- Everything a step may do to what one worker holds. -/
inductive HandChange (s : StdWorkScheduler) (event : Event) (worker : Nat) : Option Run → Option Run → Prop where
  | same (held : Option Run) (busy : ¬Completes s event worker) : HandChange s event worker held held
  | took {run : Run} {entry : Entry} {now : Nat} {outside : Nat → Outside}
      (called : event = .take worker now outside) (found : s.slot run.index = some entry)
      (idle : entry.running = false) (same : run = ⟨run.index, entry.work, entry.id⟩)
      (started : (s.step event).2.slot run.index =
        some { entry with pending := false, due := none, running := true }) :
      HandChange s event worker none (some run)
  | released {run : Run} {schedule : WorkSchedule} {deadline : Option Nat}
      (called : event = .complete worker deadline)
      (phase : s.workers[worker]? = some (.finishing run schedule)) :
      HandChange s event worker (some run) none

theorem register_workers (work : WorkId) (outside : Nat → Outside) :
    (s.register work outside).2.workers = s.workers := by
  unfold register
  dsimp only
  repeat' split
  all_goals rfl

theorem wake_workers (handle : Handle) : (s.wake handle).2.workers = s.workers := by
  unfold wake
  repeat' split
  all_goals rfl

theorem close_workers (handle : Handle) : (s.close handle).workers = s.workers := by
  unfold close
  repeat' split
  all_goals rfl

theorem complete_workers (index : Nat) (schedule : WorkSchedule) (deadline : Option Nat) :
    (s.complete index schedule deadline).workers = s.workers := by
  unfold complete
  repeat' split
  all_goals rfl

/-- Setting one worker's phase changes what it holds and nothing of the others. -/
theorem hand_set {workers : List Worker} {worker other : Nat} {old phase : Worker}
    (held : workers[worker]? = some old) :
    (workers.set worker phase)[other]?.bind Worker.hand =
      if worker = other then phase.hand else workers[other]?.bind Worker.hand := by
  rw [List.getElem?_set]
  by_cases same : worker = other
  · obtain ⟨within, -⟩ := List.getElem?_eq_some_iff.mp held
    subst same
    simp [within]
  · simp [same]

theorem take_hand {worker now : Nat} {outside : Nat → Outside} (phase : s.workers[worker]? = some .looking)
    (other : Nat) :
    HandChange s (.take worker now outside) other (s.hand other) ((s.take worker now outside).2.hand other) := by
  have stepped : (s.step (.take worker now outside)).2 = (s.take worker now outside).2 := by
    simp only [step, phase]
  cases opened : s.closed with
  | true =>
    have exits : (s.take worker now outside).2.hand other = s.hand other := by
      simp only [take, opened, if_true, hand, setWorker, hand_set phase]
      split
      · rename_i here
        rw [← here, phase]
        rfl
      · rfl
    rw [exits]
    exact .same _ (not_completes nofun)
  | false =>
    obtain ⟨taken, slots, -, -, workers⟩ := take_opened opened worker now outside
    have after : (s.take worker now outside).2.hand other =
        (match (scan now s.cursor outside (List.range s.slots.length) none s).1 with
          | .work run => s.workers.set worker (.running run)
          | _ => s.workers)[other]?.bind Worker.hand := by
      rw [hand, workers]
    rw [after]
    cases found : (scan now s.cursor outside (List.range s.slots.length) none s).1 with
    | work run =>
      dsimp only
      rw [hand_set phase]
      split
      · rename_i here
        subst here
        obtain ⟨entry, held, idle, same, started⟩ := scan_work found
        have none : s.hand worker = none := by rw [hand, phase]; rfl
        rw [none]
        refine .took rfl held idle same ?_
        rw [stepped, slot, slots]
        exact started
      · exact .same _ (not_completes nofun)
    | exit => exact .same _ (not_completes nofun)
    | wait nearest => exact .same _ (not_completes nofun)

theorem step_hand (s : StdWorkScheduler) (event : Event) (worker : Nat) :
    HandChange s event worker (s.hand worker) ((s.step event).2.hand worker) := by
  have same {t : StdWorkScheduler} (workers : t.workers = s.workers) (busy : ¬Completes s event worker) :
      HandChange s event worker (s.hand worker) (t.hand worker) := by
    have kept : t.hand worker = s.hand worker := by rw [hand, hand, workers]
    rw [kept]
    exact .same _ busy
  cases event with
  | register work outside => exact same (register_workers work outside) (not_completes nofun)
  | wake handle => exact same (wake_workers handle) (not_completes nofun)
  | close handle => exact same (close_workers handle) (not_completes nofun)
  | shutdown => exact same rfl (not_completes nofun)
  | take taker now outside =>
    by_cases phase : s.workers[taker]? = some .looking
    · have stepped : (s.step (.take taker now outside)).2 = (s.take taker now outside).2 := by
        simp only [step, phase]
      rw [stepped]
      exact take_hand phase worker
    · simp only [step]
      exact same rfl (not_completes nofun)
  | ran runner outcome =>
    simp only [step]
    split
    · rename_i run phase
      have kept : (s.setWorker runner (.finishing run outcome.schedule)).hand worker = s.hand worker := by
        simp only [hand, setWorker, hand_set phase]
        split
        · rename_i here
          rw [← here, phase]
          rfl
        · rfl
      rw [kept]
      exact .same _ (not_completes nofun)
    · exact same rfl (not_completes nofun)
  | complete completer deadline =>
    simp only [step]
    split
    · rename_i run schedule phase
      have after : ((s.complete run.index schedule deadline).setWorker completer .looking).hand worker =
          if completer = worker then none else s.hand worker := by
        simp only [hand, setWorker, complete_workers, hand_set phase]
        rfl
      rw [after]
      split
      · rename_i here
        subst here
        have holds : s.hand completer = some run := by rw [hand, phase]; rfl
        rw [holds]
        exact .released rfl phase
      · rename_i other
        exact .same _ (not_completes fun _ called => other (Event.complete.inj called).1)
    · rename_i idle
      refine same rfl fun ⟨_, run, schedule, called, phase⟩ => ?_
      obtain ⟨rfl, -⟩ := Event.complete.inj called
      exact idle run schedule phase

theorem step_next (s : StdWorkScheduler) (event : Event) :
    (s.step event).2.next = s.next ∧ (∀ handle, (s.step event).1 ≠ .registered (.ok handle)) ∨
      ∃ handle, (s.step event).1 = .registered (.ok handle) ∧ handle.id = s.next + 1 ∧
        (s.step event).2.next = s.next + 1 := by
  cases event with
  | register work outside =>
    simp only [step]
    unfold register
    split
    · exact .inl ⟨rfl, nofun⟩
    · dsimp only
      split
      · exact .inl ⟨rfl, nofun⟩
      · cases numbered : checkedAdd (s.sweep outside).next 1 with
        | none => exact .inl ⟨rfl, nofun⟩
        | some id =>
          obtain ⟨-, rfl⟩ := checkedAdd_eq_some.mp numbered
          exact .inr ⟨_, rfl, rfl, rfl⟩
  | wake handle =>
    refine .inl ⟨?_, nofun⟩
    simp only [step, wake]
    repeat' split
    all_goals rfl
  | close handle =>
    refine .inl ⟨?_, nofun⟩
    simp only [step, close]
    repeat' split
    all_goals rfl
  | shutdown => exact .inl ⟨rfl, nofun⟩
  | take worker now outside =>
    simp only [step]
    split
    · refine .inl ⟨?_, nofun⟩
      cases opened : s.closed with
      | true => simp only [take, opened, if_true, setWorker]
      | false => exact (take_opened opened worker now outside).2.2.1
    · exact .inl ⟨rfl, nofun⟩
  | ran worker outcome =>
    simp only [step]
    split <;> exact .inl ⟨rfl, nofun⟩
  | complete worker deadline =>
    simp only [step]
    split
    · refine .inl ⟨?_, nofun⟩
      simp only [setWorker, complete]
      repeat' split
      all_goals rfl
    · exact .inl ⟨rfl, nofun⟩

/-- A started entry has a worker that started it. -/
theorem taken_hand {event : Event} {run : Run} (answer : (s.step event).1 = .taken (.work run)) :
    ∃ worker, (s.step event).2.hand worker = some run := by
  cases event with
  | take worker now outside =>
    simp only [step] at answer ⊢
    split at answer
    · rename_i phase
      dsimp only
      have answer := Answer.taken.inj answer
      cases opened : s.closed with
      | true => simp [take, opened] at answer
      | false =>
        obtain ⟨taken, -, -, -, workers⟩ := take_opened opened worker now outside
        rw [← taken, answer] at workers
        refine ⟨worker, ?_⟩
        rw [hand, workers, hand_set phase, if_pos rfl]
        rfl
    · cases answer
  | register | wake | close | shutdown => cases answer
  | ran worker outcome =>
    simp only [step] at answer
    split at answer <;> cases answer
  | complete worker deadline =>
    simp only [step] at answer
    split at answer <;> cases answer

/-- Identities are unique, and running entries and workers at a run are in step. -/
structure Valid (s : StdWorkScheduler) : Prop where
  unique : ∀ {i j : Nat} {entry other : Entry}, s.slot i = some entry → s.slot j = some other →
    entry.id = other.id → i = j
  below : ∀ {i : Nat} {entry : Entry}, s.slot i = some entry → entry.id ≤ s.next
  held : ∀ {worker : Nat} {run : Run}, s.hand worker = some run →
    ∃ entry, s.slot run.index = some entry ∧ entry.id = run.id ∧ entry.work = run.work ∧ entry.running = true
  exclusive : ∀ {worker other : Nat} {run run' : Run}, s.hand worker = some run → s.hand other = some run' →
    run.index = run'.index → worker = other
  carried : ∀ {i : Nat} {entry : Entry}, s.slot i = some entry → entry.running = true →
    ∃ worker run, s.hand worker = some run ∧ run.index = i

theorem withWorkers_valid (maxSessions workers : Nat) : Valid (withWorkers maxSessions workers) := by
  have empty (i : Nat) : (withWorkers maxSessions workers).slot i = none := by
    simp only [slot, withWorkers, List.getElem?_replicate]
    split <;> rfl
  have idle (worker : Nat) : (withWorkers maxSessions workers).hand worker = none := by
    simp only [hand, withWorkers, List.getElem?_replicate]
    split <;> rfl
  constructor
  case unique => exact fun found => nomatch (empty _).symm.trans found
  case below => exact fun found => nomatch (empty _).symm.trans found
  case held => exact fun found => nomatch (idle _).symm.trans found
  case exclusive => exact fun found => nomatch (idle _).symm.trans found
  case carried => exact fun found => nomatch (empty _).symm.trans found

/-- An entry after a step was there before, with its identity and work, or is new. -/
theorem entry_origin {event : Event} {i : Nat} {entry : Entry} (after : (s.step event).2.slot i = some entry) :
    (∃ old, s.slot i = some old ∧ old.id = entry.id ∧ old.work = entry.work) ∨
      (s.step event).1 = .registered (.ok ⟨i, entry.id⟩) ∧ entry.id = s.next + 1 ∧ entry.running = false := by
  have change := s.step_slot event i
  rw [after] at change
  generalize s.slot i = before at change
  cases change with
  | same => exact .inl ⟨entry, rfl, rfl, rfl⟩
  | registered answer fresh idle _ => exact .inr ⟨answer, fresh, idle⟩
  | woken | marked | started | stopped => exact .inl ⟨_, rfl, rfl, rfl⟩

/-- A run that completes leaves no running entry behind. -/
theorem complete_idle {worker : Nat} {deadline : Option Nat} {run : Run} {schedule : WorkSchedule} {entry : Entry}
    (phase : s.workers[worker]? = some (.finishing run schedule))
    (after : (s.step (.complete worker deadline)).2.slot run.index = some entry) : entry.running = false := by
  simp only [step, phase, slot_setWorker] at after
  unfold complete at after
  cases held : s.slot run.index with
  | none =>
    simp only [held] at after
    cases after
  | some old =>
    simp only [held] at after
    split at after
    · rw [slot_setSlot, if_pos ⟨rfl, slot_lt held⟩] at after
      cases after
    · rw [slot_setSlot, if_pos ⟨rfl, slot_lt held⟩] at after
      cases after
      rfl

/-- A running entry leaves its slot, or stops, only by the completion of its own run. -/
theorem Valid.running_kept (valid : Valid s) {event : Event} {worker : Nat} {run : Run}
    (holds : s.hand worker = some run) (other : ¬Completes s event worker) :
    ∃ entry, (s.step event).2.slot run.index = some entry ∧ entry.id = run.id ∧ entry.work = run.work ∧
      entry.running = true := by
  obtain ⟨entry, found, id, work, running⟩ := valid.held holds
  have foreign {completer : Nat} {deadline : Option Nat} {run' : Run} {schedule : WorkSchedule}
      (called : event = .complete completer deadline)
      (phase : s.workers[completer]? = some (.finishing run' schedule)) (here : run'.index = run.index) : False := by
    have holds' : s.hand completer = some run' := by rw [hand, phase]; rfl
    obtain rfl := valid.exclusive holds' holds here
    exact other ⟨deadline, run', schedule, called, phase⟩
  have staying (why : Removal s event run.index entry) : False := by
    cases why with
    | closed _ _ idle => cases running.symm.trans idle
    | shutdown _ idle => cases running.symm.trans idle
    | dropped _ idle _ => cases running.symm.trans idle
    | finished called phase here _ => exact foreign called phase here
  have change := s.step_slot event run.index
  rw [found] at change
  generalize (s.step event).2.slot run.index = after at change ⊢
  cases change with
  | same => exact ⟨entry, rfl, id, work, running⟩
  | registered _ _ _ free => exact (staying (free entry rfl)).elim
  | woken _ => exact ⟨_, rfl, id, work, running⟩
  | marked _ _ => exact ⟨_, rfl, id, work, running⟩
  | removed why => exact (staying why).elim
  | started _ idle _ => cases running.symm.trans idle
  | stopped called phase here => exact (foreign called phase here).elim

theorem Valid.step (valid : Valid s) (event : Event) : Valid (s.step event).2 := by
  have old {i : Nat} {entry : Entry} (after : (s.step event).2.slot i = some entry) :
      (entry.id ≤ s.next ∧ ∃ before, s.slot i = some before ∧ before.id = entry.id) ∨
        entry.id = s.next + 1 ∧ (s.step event).1 = .registered (.ok ⟨i, entry.id⟩) := by
    rcases entry_origin after with ⟨before, found, id, -⟩ | ⟨answer, fresh, -⟩
    · exact .inl ⟨id ▸ valid.below found, before, found, id⟩
    · exact .inr ⟨fresh, answer⟩
  constructor
  case unique =>
    intro i j entry other first second same
    rcases old first with ⟨bound, before, found, id⟩ | ⟨fresh, answer⟩
    · rcases old second with ⟨-, before', found', id'⟩ | ⟨fresh', -⟩
      · exact valid.unique found found' (by rw [id, id', same])
      · omega
    · rcases old second with ⟨bound, -⟩ | ⟨-, answer'⟩
      · omega
      · exact congrArg Handle.index (Except.ok.inj (Answer.registered.inj (answer.symm.trans answer')))
  case below =>
    intro i entry after
    rcases old after with ⟨bound, -⟩ | ⟨fresh, answer⟩
    · rcases s.step_next event with ⟨next, -⟩ | ⟨_, -, -, next⟩ <;> omega
    · rcases s.step_next event with ⟨-, none⟩ | ⟨_, -, -, next⟩
      · exact absurd answer (none _)
      · omega
  case held =>
    intro worker run after
    have change := s.step_hand event worker
    rw [after] at change
    generalize before : s.hand worker = held at change
    cases change with
    | same _ busy => exact valid.running_kept before busy
    | took _ found _ same started => exact ⟨_, started, by rw [same], by rw [same], rfl⟩
  case exclusive =>
    intro worker other run run' first second here
    have change := s.step_hand event worker
    have change' := s.step_hand event other
    rw [first] at change
    rw [second] at change'
    generalize before : s.hand worker = held at change
    generalize before' : s.hand other = held' at change'
    cases change with
    | same _ _ =>
      cases change' with
      | same _ _ => exact valid.exclusive before before' here
      | took _ found idle _ _ =>
        obtain ⟨entry, found', -, -, running⟩ := valid.held before
        rw [here, found] at found'
        cases found'
        cases running.symm.trans idle
    | took called found idle _ _ =>
      cases change' with
      | same _ _ =>
        obtain ⟨entry, found', -, -, running⟩ := valid.held before'
        rw [← here, found] at found'
        cases found'
        cases running.symm.trans idle
      | took called' _ _ _ _ => exact (Event.take.inj (called.symm.trans called')).1
  case carried =>
    intro i entry after running
    have kept {worker : Nat} {run : Run} (holds : s.hand worker = some run) (here : run.index = i) :
        ∃ worker run, (s.step event).2.hand worker = some run ∧ run.index = i := by
      have change := s.step_hand event worker
      rw [holds] at change
      generalize hold : (s.step event).2.hand worker = held at change
      cases change with
      | same _ _ => exact ⟨worker, run, hold, here⟩
      | released called phase =>
        subst called here
        cases running.symm.trans (complete_idle phase after)
    have change := s.step_slot event i
    rw [after] at change
    generalize before : s.slot i = old at change
    cases change with
    | same =>
      obtain ⟨worker, run, holds, here⟩ := valid.carried before running
      exact kept holds here
    | registered _ _ idle _ => cases running.symm.trans idle
    | woken | marked =>
      obtain ⟨worker, run, holds, here⟩ := valid.carried before running
      exact kept holds here
    | started answer _ _ =>
      obtain ⟨worker, holds⟩ := taken_hand answer
      exact ⟨worker, _, holds, rfl⟩
    | stopped => cases running

end PtyRuntime.StdWorkScheduler
