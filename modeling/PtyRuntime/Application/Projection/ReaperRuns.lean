import PtyRuntime.Application.Projection.Reaper
import PtyRuntime.Application.Projection.Schedule

/-! Sources are deleted in the order they were retired, each is submitted a bounded number
of times until attempts are restored, and none is lost or duplicated, in every run. -/
namespace PtyRuntime

namespace SourceReaper

variable {r rest : SourceReaper} {attempt : DeleteAttempt}

theorem checkOut_some (due : r.checkOut = some (attempt, rest)) :
    r.queue = attempt :: rest.queue ∧ attempt.attempts < r.maxAttempts ∧ rest.maxAttempts = r.maxAttempts := by
  unfold checkOut at due
  split at due
  · cases due
  rename_i queued
  split at due
  · cases due
  rename_i left
  obtain ⟨rfl, rfl⟩ := Prod.mk.inj (Option.some.inj due)
  exact ⟨queued, Nat.lt_of_not_le left, rfl⟩

/-- A checkout that is put back leaves no trace. -/
theorem checkOut_putBack (due : r.checkOut = some (attempt, rest)) : rest.putBack attempt = r := by
  obtain ⟨queued, -, limit⟩ := checkOut_some due
  obtain ⟨queue, maxAttempts⟩ := r
  obtain ⟨later, most⟩ := rest
  obtain rfl : queue = _ := queued
  obtain rfl : most = _ := limit
  rfl

/-- A call submits the head of the queue if the pool accepts it, the slot is free and an
attempt is left, and else changes nothing. -/
theorem startDelete_eq {attempts : List DeleteAttempt} (queued : r.queue = attempt :: attempts) (io : Option PendingIo)
    (accepts : Bool) :
    (r.startDelete io accepts).2 =
      if accepts && io.isNone && decide (attempt.attempts < r.maxAttempts) then
        ({ r with queue := attempts }, some (.delete attempt none))
      else (r, io) := by
  by_cases left : attempt.attempts < r.maxAttempts
  · have due : r.checkOut = some (attempt, { r with queue := attempts }) := by
      simp only [checkOut, queued, ge_iff_le, Nat.not_le.mpr left, if_false]
    have whole : ({ r with queue := attempts } : SourceReaper).putBack attempt = r := checkOut_putBack due
    rw [startDelete, due]
    cases io with
    | some job =>
      cases accepts <;> exact congrArg (·, some job) whole
    | none =>
      cases accepts with
      | false => exact congrArg (·, none) whole
      | true => simp [PendingIo.submit, left]
  · have spent : r.checkOut = none := by
      simp only [checkOut, queued, ge_iff_le, Nat.le_of_not_lt left, if_true]
    simp [startDelete, spent, left]

theorem startDelete_nil (empty : r.queue = []) (io : Option PendingIo) (accepts : Bool) :
    (r.startDelete io accepts).2 = (r, io) := by
  have nothing : r.checkOut = none := by simp only [checkOut, empty]
  rw [startDelete, nothing]

/-- A failed deletion costs one attempt and goes back to the front; the error is reported
exactly when no attempt is left. -/
theorem finishDelete_error (r : SourceReaper) (attempt : DeleteAttempt) (error : ProjectionError)
    (left : attempt.attempts < r.maxAttempts) (bounded : r.maxAttempts ≤ 2 ^ 32 - 1) :
    (r.finishDelete attempt (.error error)).2 = r.putBack { attempt with attempts := attempt.attempts + 1 } ∧
      ((r.finishDelete attempt (.error error)).1 =
        if (r.finishDelete attempt (.error error)).2.checkOut = none then some error else none) := by
  have counted : min (attempt.attempts + 1) (2 ^ 32 - 1) = attempt.attempts + 1 := by omega
  have settled : r.finishDelete attempt (.error error) =
      (if attempt.attempts + 1 ≥ r.maxAttempts then some error else none,
        r.putBack { attempt with attempts := attempt.attempts + 1 }) := by
    rw [finishDelete, counted]
  rw [settled]
  refine ⟨rfl, ?_⟩
  by_cases spent : attempt.attempts + 1 ≥ r.maxAttempts <;> simp [putBack, checkOut, spent]

end SourceReaper

namespace Deletions

/-- The deletion in flight. -/
def attempt? (m : Deletions) : Option DeleteAttempt := m.io.bind PendingIo.deleting?

/-- How often the oldest source that is left may have been submitted. -/
def allowed (m : Deletions) : Nat :=
  match m.attempt? with
  | some attempt => attempt.attempts + 1
  | none => (m.reaper.queue.head?.map (·.attempts)).getD 0

structure Sound (most : Nat) (m : Deletions) : Prop where
  limit : m.reaper.maxAttempts = most
  places : m.retired = m.deleted ++ m.inFlight.toList ++ m.reaper.queue.map (·.source)
  started : ∀ attempt, m.attempt? = some attempt → attempt.attempts < most
  bounded : ∀ place, m.submissions.count place ≤ most
  oldest : m.submissions.count m.deleted.length ≤ m.allowed
  beyond : ∀ place, m.deleted.length < place → m.submissions.count place = 0

variable {m : Deletions} {most : Nat}

theorem start_sound (most : Nat) : Sound most (start most) := by
  constructor <;> simp [start, inFlight, attempt?, allowed]

theorem Sound.retire (sound : m.Sound most) (source : CommittedSource) : (m.step (.retire source)).Sound most where
  limit := sound.limit
  places := by
    have places := sound.places
    simp only [step, SourceReaper.retire, List.map_append, List.map_cons, List.map_nil, ← List.append_assoc]
    rw [places]
    rfl
  started := sound.started
  bounded := sound.bounded
  oldest := by
    have oldest := sound.oldest
    unfold allowed at oldest ⊢
    change m.submissions.count m.deleted.length ≤ match m.attempt? with | some attempt => _ | none => _
    cases flying : m.attempt? with
    | some attempt => simpa only [flying] using oldest
    | none =>
      simp only [flying, step, SourceReaper.retire] at oldest ⊢
      cases queued : m.reaper.queue <;> simpa [queued] using oldest
  beyond := sound.beyond

theorem step_startDelete (m : Deletions) (accepts : Bool) :
    m.step (.startDelete accepts) = { m with
      reaper := (m.reaper.startDelete m.io accepts).2.1
      io := (m.reaper.startDelete m.io accepts).2.2
      submissions :=
        if m.io.isNone && (m.reaper.startDelete m.io accepts).2.2.isSome then m.submissions ++ [m.deleted.length]
        else m.submissions } := rfl

theorem startDelete_unchanged {accepts : Bool} (same : (m.reaper.startDelete m.io accepts).2 = (m.reaper, m.io)) :
    m.step (.startDelete accepts) = m := by
  have never : (m.io.isNone && m.io.isSome) = false := by cases m.io <;> rfl
  rw [step_startDelete, same]
  simp only [never, Bool.false_eq_true, if_false]

/-- The same for a call on the slot. -/
theorem step_offers (m : Deletions) (accepts : Bool) {attempt : DeleteAttempt} {attempts : List DeleteAttempt}
    (queued : m.reaper.queue = attempt :: attempts) :
    m.step (.startDelete accepts) =
      if accepts && m.io.isNone && decide (attempt.attempts < m.reaper.maxAttempts) then { m with
        reaper := { m.reaper with queue := attempts }
        io := some (.delete attempt none)
        submissions := m.submissions ++ [m.deleted.length] }
      else m := by
  have called := SourceReaper.startDelete_eq queued m.io accepts
  by_cases due : (accepts && m.io.isNone && decide (attempt.attempts < m.reaper.maxAttempts)) = true
  · rw [if_pos due] at called ⊢
    have idle : m.io.isNone = true := by
      cases free : m.io.isNone <;> simp [free] at due ⊢
    rw [step_startDelete, called, idle]
    rfl
  · rw [if_neg due] at called ⊢
    exact startDelete_unchanged called

theorem Sound.startDelete (sound : m.Sound most) (accepts : Bool) : (m.step (.startDelete accepts)).Sound most := by
  cases queued : m.reaper.queue with
  | nil =>
    rw [startDelete_unchanged (SourceReaper.startDelete_nil queued m.io accepts)]
    exact sound
  | cons attempt rest =>
    rw [m.step_offers accepts queued]
    split
    · rename_i due
      simp only [Bool.and_eq_true, Option.isNone_iff_eq_none, decide_eq_true_eq] at due
      obtain ⟨⟨-, idle⟩, left⟩ := due
      have flying : m.attempt? = none := by rw [attempt?, idle]; rfl
      have oldest := sound.oldest
      rw [allowed, flying, queued] at oldest
      simp only [List.head?_cons, Option.map_some, Option.getD_some] at oldest
      refine ⟨sound.limit, ?_, ?_, fun place => ?_, ?_, fun place after => ?_⟩
      · have places := sound.places
        rw [inFlight, idle, queued] at places
        simpa [inFlight, PendingIo.deleting?] using places
      · intro other same
        obtain rfl := Option.some.inj same
        rw [← sound.limit]
        exact left
      · rw [List.count_append]
        by_cases here : place = m.deleted.length
        · subst here
          rw [List.count_singleton_self, ← sound.limit]
          omega
        · have bounded := sound.bounded place
          rw [List.count_singleton, if_neg (by simpa using Ne.symm here)]
          omega
      · rw [List.count_append, List.count_singleton_self]
        simp only [allowed, attempt?, Option.bind_some, PendingIo.deleting?]
        omega
      · have after : m.deleted.length < place := after
        rw [List.count_append, sound.beyond place after, List.count_singleton, if_neg (by simp only [beq_iff_eq]; omega)]
    · exact sound

theorem Sound.occupy (sound : m.Sound most) (job : PendingIo) : (m.step (.occupy job)).Sound most := by
  rw [step]
  split
  · exact sound
  · rename_i other
    obtain ⟨idle, kind⟩ : m.io = none ∧ job.deleting? = none := by
      cases io : m.io <;> cases kind : job.deleting? <;> simp [io, kind] at other ⊢
    have before : m.attempt? = none := by rw [attempt?, idle]; rfl
    have after : ({ m with io := some job } : Deletions).attempt? = none := kind
    have places := sound.places
    have oldest := sound.oldest
    refine ⟨sound.limit, ?_, ?_, sound.bounded, ?_, sound.beyond⟩
    · rw [inFlight, idle] at places
      rw [inFlight, Option.bind_some, kind]
      exact places
    · intro attempt same
      rw [after] at same
      cases same
    · rw [allowed, before] at oldest
      rw [allowed, after]
      exact oldest

/-- What a worker publishes tells which deletion it was and leaves it in the slot. -/
theorem publish_attempt (m : Deletions) (result : Except ProjectionError Unit) (config : ProjectionConfig)
    (plaintextMax : Nat) (answer : Answer) : (m.step (.publish result config plaintextMax answer)).attempt? = m.attempt? := by
  rw [attempt?, attempt?, step]
  cases m.io with
  | none => rfl
  | some job =>
    cases job with
    | delete attempt mailbox => cases mailbox <;> rfl
    | commit attempt disk checkpoint mailbox => cases mailbox <;> rfl
    | restore source mailbox => cases mailbox <;> rfl
    | transfer request source mailbox => cases mailbox <;> rfl

theorem Sound.publish (sound : m.Sound most) (result : Except ProjectionError Unit) (config : ProjectionConfig)
    (plaintextMax : Nat) (answer : Answer) : (m.step (.publish result config plaintextMax answer)).Sound most := by
  have same := m.publish_attempt result config plaintextMax answer
  have places := sound.places
  have oldest := sound.oldest
  refine ⟨sound.limit, ?_, fun attempt flying => sound.started attempt (same.symm.trans flying), sound.bounded, ?_,
    sound.beyond⟩
  · have kept : (m.step (.publish result config plaintextMax answer)).inFlight = m.inFlight :=
      congrArg (Option.map DeleteAttempt.source) same
    rw [kept]
    exact places
  · rw [allowed, same]
    exact oldest

theorem Sound.restore (sound : m.Sound most) : (m.step .restoreAttempts).Sound most where
  limit := sound.limit
  places := by
    have places := sound.places
    simp only [step, SourceReaper.restoreAttempts, List.map_map]
    exact places
  started := sound.started
  bounded _ := by simp [step]
  oldest := by simp [step]
  beyond _ _ := by simp [step]

/-- Only the deletion in flight can have been published as one. -/
theorem takeFinished_delete {io slot : Option PendingIo} {attempt : DeleteAttempt} {result : Except ProjectionError Unit}
    (taken : PendingIo.takeFinished io = (some (.delete attempt result), slot)) :
    io = some (.delete attempt (some result)) ∧ slot = none := by
  unfold PendingIo.takeFinished at taken
  cases io with
  | none => cases taken
  | some job =>
    cases job with
    | delete other mailbox =>
      cases mailbox with
      | none => cases taken
      | some published =>
        cases taken
        exact ⟨rfl, rfl⟩
    | commit other disk checkpoint mailbox => cases mailbox <;> cases taken
    | restore source mailbox => cases mailbox <;> cases taken
    | transfer request source mailbox => cases mailbox <;> cases taken

/-- A job that was no deletion leaves only a free slot behind. -/
theorem takeFinished_other {io slot : Option PendingIo} {finished : Option FinishedIo}
    (taken : PendingIo.takeFinished io = (finished, slot)) (other : ∀ attempt result, finished ≠ some (.delete attempt result)) :
    slot.bind PendingIo.deleting? = io.bind PendingIo.deleting? := by
  unfold PendingIo.takeFinished at taken
  cases io with
  | none =>
    cases taken
    rfl
  | some job =>
    cases job with
    | delete attempt mailbox =>
      cases mailbox with
      | none =>
        cases taken
        rfl
      | some published =>
        cases taken
        exact absurd rfl (other attempt published)
    | commit attempt disk checkpoint mailbox =>
      cases mailbox <;> cases taken <;> rfl
    | restore source mailbox => cases mailbox <;> cases taken <;> rfl
    | transfer request source mailbox => cases mailbox <;> cases taken <;> rfl

theorem Sound.settle (sound : m.Sound most) (bounded : most ≤ 2 ^ 32 - 1) : (m.step .settle).Sound most := by
  cases taken : PendingIo.takeFinished m.io with
  | mk finished slot =>
    by_cases deletion : ∃ attempt result, finished = some (.delete attempt result)
    · obtain ⟨attempt, result, rfl⟩ := deletion
      obtain ⟨flying, rfl⟩ := takeFinished_delete taken
      have same : m.attempt? = some attempt := by rw [attempt?, flying]; rfl
      have left := sound.started attempt same
      have places := sound.places
      have oldest := sound.oldest
      rw [inFlight, flying] at places
      rw [allowed, same] at oldest
      cases result with
      | ok value =>
        have next : m.step .settle = { m with io := none, deleted := m.deleted ++ [attempt.source] } := by
          rw [step, taken]
          rfl
        rw [next]
        refine ⟨sound.limit, ?_, nofun, sound.bounded, ?_, fun place after => sound.beyond place ?_⟩
        · simpa [inFlight, PendingIo.deleting?] using places
        · rw [List.length_append, List.length_singleton, sound.beyond _ (Nat.lt_succ_self _)]
          exact Nat.zero_le _
        · have after : (m.deleted ++ [attempt.source]).length < place := after
          rw [List.length_append, List.length_singleton] at after
          omega
      | error e =>
        have settled := (m.reaper.finishDelete_error attempt e (sound.limit ▸ left) (sound.limit ▸ bounded)).1
        have next : m.step .settle = { m with
            io := none, reaper := m.reaper.putBack { attempt with attempts := attempt.attempts + 1 } } := by
          rw [step, taken]
          simp only [settled]
        rw [next]
        refine ⟨sound.limit, ?_, nofun, sound.bounded, oldest, sound.beyond⟩
        simpa [inFlight, PendingIo.deleting?, SourceReaper.putBack] using places
    · have other : ∀ attempt result, finished ≠ some (.delete attempt result) :=
        fun attempt result same => deletion ⟨attempt, result, same⟩
      have kept := takeFinished_other taken other
      have next : m.step .settle = { m with io := slot } := by
        rw [step, taken]
        split
        · rename_i same
          cases same
          exact absurd rfl (other _ _)
        · rename_i same
          cases same
          rfl
      rw [next]
      have flying : ({ m with io := slot } : Deletions).attempt? = m.attempt? := kept
      have places := sound.places
      have oldest := sound.oldest
      refine ⟨sound.limit, ?_, fun attempt same => sound.started attempt (flying.symm.trans same), sound.bounded, ?_,
        sound.beyond⟩
      · have source : ({ m with io := slot } : Deletions).inFlight = m.inFlight :=
          congrArg (Option.map DeleteAttempt.source) kept
        rw [source]
        exact places
      · rw [allowed, flying]
        exact oldest

theorem Sound.step (sound : m.Sound most) (bounded : most ≤ 2 ^ 32 - 1) (event : Event) : (m.step event).Sound most := by
  cases event with
  | retire source => exact sound.retire source
  | startDelete accepts => exact sound.startDelete accepts
  | occupy job => exact sound.occupy job
  | publish result config plaintextMax answer => exact sound.publish result config plaintextMax answer
  | settle => exact sound.settle bounded
  | restoreAttempts => exact sound.restore

theorem run_sound (bounded : most ≤ 2 ^ 32 - 1) (events : List Event) : ((start most).run events).Sound most := by
  suffices general : ∀ m : Deletions, m.Sound most → (m.run events).Sound most from general _ (start_sound most)
  intro m sound
  induction events generalizing m with
  | nil => exact sound
  | cons event rest ih => exact ih (m.step event) (sound.step bounded event)

/-- Everything the deletions of one projection promise, with the moves they can make next. -/
structure Ordered (most : Nat) (m : Deletions) : Prop where
  /-- Nothing is lost, duplicated or reordered. -/
  places : m.retired = m.deleted ++ m.inFlight.toList ++ m.reaper.queue.map (·.source)
  /-- A call to start a deletion submits the oldest source that has not been deleted, if the
  pool accepts it, the slot is free and an attempt is left, and else changes nothing. -/
  offers : ∀ accepts, match m.reaper.queue with
    | [] => m.step (.startDelete accepts) = m
    | attempt :: rest =>
      (m.io = none → ∃ later, m.retired = m.deleted ++ attempt.source :: later) ∧
        m.step (.startDelete accepts) =
          if accepts && m.io.isNone && decide (attempt.attempts < most) then { m with
            reaper := { m.reaper with queue := rest }
            io := some (.delete attempt none)
            submissions := m.submissions ++ [m.deleted.length] }
          else m
  /-- Since attempts were last restored, no source was submitted more often than this. -/
  bounded : ∀ place, m.submissions.count place ≤ most
  /-- A failed deletion goes back to the front one attempt short, and its error is reported
  exactly when that was the last; a deletion that succeeded reports nothing. -/
  settles : ∀ attempt result, m.io = some (.delete attempt (some result)) →
    (m.step .settle).io = none ∧
      match result with
      | .ok () => (m.reaper.finishDelete attempt result).1 = none ∧ (m.step .settle).reaper = m.reaper ∧
          (m.step .settle).deleted = m.deleted ++ [attempt.source]
      | .error error =>
        (m.step .settle).reaper = m.reaper.putBack { attempt with attempts := attempt.attempts + 1 } ∧
          (m.step .settle).deleted = m.deleted ∧
          (m.reaper.finishDelete attempt result).1 =
            if (m.step .settle).reaper.checkOut = none then some error else none
  /-- With the deletion in flight, which the caller hands over first, exactly the sources that
  were retired and not deleted are handed over, in that order. -/
  surrenders : (m.inFlight.toList.map UnreclaimedSource.ofCommitted) ++ m.reaper.surrender.1 =
    (m.retired.drop m.deleted.length).map UnreclaimedSource.ofCommitted

/-- In every run the reaper deletes in order of retirement with bounded attempts. -/
theorem deletes_in_order (bounded : most ≤ 2 ^ 32 - 1) (events : List Event) :
    Ordered most ((start most).run events) := by
  have sound := run_sound bounded events
  generalize (start most).run events = m at sound
  have places := sound.places
  refine ⟨places, fun accepts => ?_, sound.bounded, fun attempt result flying => ?_, ?_⟩
  · cases queued : m.reaper.queue with
    | nil => exact startDelete_unchanged (SourceReaper.startDelete_nil queued m.io accepts)
    | cons attempt rest =>
      refine ⟨fun idle => ⟨rest.map (·.source), ?_⟩, ?_⟩
      · rw [inFlight, idle, queued] at places
        simpa using places
      · rw [m.step_offers accepts queued, sound.limit]
  · have taken : PendingIo.takeFinished m.io = (some (.delete attempt result), none) := by
      rw [flying]
      rfl
    cases result with
    | ok value =>
      have next : m.step .settle = { m with io := none, deleted := m.deleted ++ [attempt.source] } := by
        rw [step, taken]
        rfl
      rw [next]
      exact ⟨rfl, rfl, rfl, rfl⟩
    | error e =>
      have left := sound.started attempt (by rw [attempt?, flying]; rfl)
      obtain ⟨settled, reported⟩ := m.reaper.finishDelete_error attempt e (sound.limit ▸ left) (sound.limit ▸ bounded)
      have next : m.step .settle = { m with
          io := none, reaper := m.reaper.putBack { attempt with attempts := attempt.attempts + 1 } } := by
        rw [step, taken]
        simp only [settled]
      rw [next]
      refine ⟨rfl, rfl, rfl, ?_⟩
      rw [settled] at reported
      exact reported
  · rw [places, List.append_assoc, List.drop_left, List.map_append, SourceReaper.surrender, List.map_map]
    rfl

/-- A committed source under the lease of this number. -/
def sampleSource (id : Nat) : CommittedSource where
  reference := ⟨id, ⟨⟨1, 1⟩, id⟩, 1⟩
  descriptor := ⟨"engine-1", ⟨⟨1, 1⟩, 0⟩, .initial⟩
  disk := ⟨id, 1⟩

/-- The older of two sources fails twice, once of them across a restoration of attempts. -/
def twoSources : List Event :=
  [.retire (sampleSource 0), .startDelete false, .startDelete true, .retire (sampleSource 1), .startDelete true,
    .publish (.error .worker) Coordinator.sampleConfig 0 {}, .settle, .startDelete true, .restoreAttempts,
    .publish (.error .worker) Coordinator.sampleConfig 0 {}, .settle]

theorem deletes_in_order_two :
    (start 2).run twoSources = { (start 2).run twoSources with
        reaper := ⟨[⟨sampleSource 0, 2⟩, ⟨sampleSource 1, 0⟩], 2⟩
        io := none, retired := [sampleSource 0, sampleSource 1], deleted := [], submissions := [] } ∧
      Ordered 2 ((start 2).run twoSources) :=
  ⟨rfl, deletes_in_order (by decide) twoSources⟩

/-- A source whose deletion is in flight is neither deleted nor held by the reaper. -/
theorem surrender_leaves_flight :
    let m := (start 2).run [.retire (sampleSource 0), .startDelete true]
    m.retired = [sampleSource 0] ∧ m.deleted = [] ∧ m.reaper.surrender.1 = [] := ⟨rfl, rfl, rfl⟩

end Deletions
end PtyRuntime
