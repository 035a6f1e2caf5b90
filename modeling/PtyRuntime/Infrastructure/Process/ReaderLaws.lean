import PtyRuntime.Infrastructure.Process.Reader

/-! The reader never hides lost output: what it read was accepted, but for a last chunk after
which the drain is not reported as complete. -/
namespace PtyRuntime
namespace ProcessReader

/-- The nonempty chunk a read returned. -/
def Action.chunk : Action → Option Bytes
  | .read (.data (byte :: chunk)) => some (byte :: chunk)
  | _ => none

/-- The chunk an offer of which was accepted. -/
def Action.accepted : Action → Option Bytes
  | .offered chunk (some .accepted) => some chunk
  | _ => none

def chunksRead (trace : List Action) : List Bytes := trace.filterMap Action.chunk

def chunksAccepted (trace : List Action) : List Bytes := trace.filterMap Action.accepted

/-- What the loop returned, once it did. -/
def Phase.outcome : Phase → Option DrainOutcome
  | .returned outcome | .draining outcome | .finishing outcome | .done outcome => some outcome
  | _ => none

/-- The report of the drain, once it was made. -/
def Phase.report : Phase → List Action
  | .finishing outcome | .done outcome => [.drained outcome]
  | _ => []

/-- Whenever `action` was done, `before` held of what was done before it. -/
def Whenever (action : Action) (before : List Action → Prop) (trace : List Action) : Prop :=
  ∀ earlier later, trace = earlier ++ action :: later → before earlier

/-- The last thing done was a read of that kind. -/
def LastRead (kind : ReadAnswer → Bool) (trace : List Action) : Prop :=
  ∃ earlier answer, trace = earlier ++ [.read answer] ∧ kind answer = true

/-- The master reported its end when the reader held no child endpoint. `retained` tells
whether it held one at the start. -/
def SawEnd (retained : Bool) (trace : List Action) : Prop :=
  LastRead ReadAnswer.isEnd trace ∧ (retained = false ∨ .released ∈ trace)

/-- A read found nothing, and then the exit of the workload was seen. -/
def SawExitDry (trace : List Action) : Prop :=
  ∃ earlier, trace = earlier ++ [.sawExit true] ∧ LastRead ReadAnswer.isDry earlier

/-- What the reader owes its callback: `loop` is what was done before the drain was reported. -/
structure Honest (retained : Bool) (r : ProcessReader) (loop : List Action) : Prop where
  reported : r.trace = loop ++ r.phase.report
  unreported : ∀ outcome, .drained outcome ∉ loop
  delivered : ∃ rest, chunksRead loop = chunksAccepted loop ++ rest ∧ rest.length ≤ 1 ∧
    (rest ≠ [] → r.phase.outcome ≠ some .eof)
  ended : r.phase.outcome = some .eof → SawEnd retained loop
  released : Whenever .released SawExitDry loop
  exited : .sawExit true ∈ loop → r.workloadExited = true
  finished : r.readerDone = true ↔ ∃ outcome, r.phase = .done outcome

section Traces
variable {action next : Action} {before : List Action → Prop} {trace : List Action}

theorem Whenever.nil : Whenever action before [] := by
  intro earlier later split
  simp at split

theorem Whenever.snoc (holds : Whenever action before trace) (last : next = action → before trace) :
    Whenever action before (trace ++ [next]) := by
  intro earlier later split
  rcases List.eq_nil_or_concat later with rfl | ⟨later, final, rfl⟩
  · obtain ⟨rfl, same⟩ := List.append_inj' split rfl
    exact last (List.cons.inj same).1
  · rw [List.concat_eq_append, ← List.cons_append, ← List.append_assoc] at split
    exact holds earlier later (List.append_inj' split rfl).1

end Traces

/-- The chunks of `rest` were read and not accepted. -/
def Pending (trace : List Action) (rest : List Bytes) : Prop :=
  chunksRead trace = chunksAccepted trace ++ rest

section Hands
variable {trace : List Action} {action : Action} {rest : List Bytes} {chunk : Bytes}

theorem Pending.idle (pending : Pending trace rest) (unread : action.chunk = none)
    (unaccepted : action.accepted = none) : Pending (trace ++ [action]) rest := by
  simpa [Pending, chunksRead, chunksAccepted, List.filterMap_cons, unread, unaccepted] using pending

theorem Pending.read (pending : Pending trace []) (read : action.chunk = some chunk)
    (unaccepted : action.accepted = none) : Pending (trace ++ [action]) [chunk] := by
  simpa [Pending, chunksRead, chunksAccepted, List.filterMap_cons, read, unaccepted] using pending

theorem Pending.accept (pending : Pending trace [chunk]) (unread : action.chunk = none)
    (accepted : action.accepted = some chunk) : Pending (trace ++ [action]) [] := by
  simpa [Pending, chunksRead, chunksAccepted, List.filterMap_cons, unread, accepted] using pending

end Hands

/-- What each phase of the thread knows of what was done. -/
def Phase.Knows (retained : Bool) (trace : List Action) : Phase → Prop
  | .ended | .blocked => Pending trace [] ∧ LastRead ReadAnswer.isDry trace
  | .offering chunk | .calling chunk | .waiting chunk => Pending trace [chunk]
  | .returned outcome | .draining outcome | .finishing outcome | .done outcome =>
    (∃ rest, Pending trace rest ∧ rest.length ≤ 1 ∧ (rest ≠ [] → outcome ≠ .eof)) ∧
      (outcome = .eof → SawEnd retained trace)
  | _ => Pending trace []

section Steps
variable {retained : Bool} {r : ProcessReader} {loop : List Action} {phase : Phase}

/-- A running loop has at most one chunk in hand, and may fail or stop with it. -/
theorem Phase.Knows.cut (knows : phase.Knows retained loop) (running : phase.outcome = none)
    {outcome : DrainOutcome} (lossy : outcome ≠ .eof) : (Phase.returned outcome).Knows retained loop := by
  refine ⟨?_, fun eof => absurd eof lossy⟩
  cases phase with
  | top | polling | woken | inner | reading => exact ⟨[], knows, by simp, fun _ => lossy⟩
  | ended | blocked => exact ⟨[], knows.1, by simp, fun _ => lossy⟩
  | offering chunk | calling chunk | waiting chunk => exact ⟨[chunk], knows, by simp, fun _ => lossy⟩
  | returned | draining | finishing | done => cases running

/-- The invariant behind `Honest`. -/
structure Valid (retained : Bool) (r : ProcessReader) (loop : List Action) : Prop where
  reported : r.trace = loop ++ r.phase.report
  unreported : ∀ outcome, .drained outcome ∉ loop
  knows : r.phase.Knows retained loop
  endpoint : r.phase.outcome = none → r.retained = false → retained = false ∨ .released ∈ loop
  released : Whenever .released SawExitDry loop
  exited : .sawExit true ∈ loop → r.workloadExited = true
  finished : r.readerDone = true ↔ ∃ outcome, r.phase = .done outcome

theorem Valid.knows_at (valid : Valid retained r loop) (here : r.phase = phase) : phase.Knows retained loop :=
  here ▸ valid.knows

theorem Valid.honest (valid : Valid retained r loop) : Honest retained r loop where
  reported := valid.reported
  unreported := valid.unreported
  delivered := by
    cases phase : r.phase with
    | top | polling | woken | inner | reading => exact ⟨[], valid.knows_at phase, by simp, by simp⟩
    | ended | blocked => exact ⟨[], (valid.knows_at phase).1, by simp, by simp⟩
    | offering chunk | calling chunk | waiting chunk =>
      exact ⟨[chunk], valid.knows_at phase, by simp, by simp [Phase.outcome]⟩
    | returned | draining | finishing | done =>
      obtain ⟨⟨rest, pending, one, lossy⟩, -⟩ := valid.knows_at phase
      exact ⟨rest, pending, one, fun some eof => lossy some (Option.some.inj eof)⟩
  ended eof := by
    cases phase : r.phase with
    | returned | draining | finishing | done =>
      rw [phase] at eof
      exact (valid.knows_at phase).2 (Option.some.inj eof)
    | _ =>
      rw [phase] at eof
      cases eof
  released := valid.released
  exited := valid.exited
  finished := valid.finished

theorem new_valid (retained : Bool) : Valid retained (new retained) [] where
  reported := rfl
  unreported _ member := nomatch member
  knows := rfl
  endpoint _ absent := .inl absent
  released := .nil
  exited member := nomatch member
  finished := by simp [new]

theorem Phase.report_running (running : phase.outcome = none) : phase.report = [] := by
  cases phase <;> first | rfl | cases running

theorem Phase.undone (unreported : phase.report = []) : ¬ ∃ outcome, phase = .done outcome := by
  rintro ⟨outcome, rfl⟩
  cases unreported

/-- The loop goes to another phase and does nothing else. -/
theorem Valid.goto (valid : Valid retained r loop) (running : r.phase.outcome = none)
    (knows : phase.Knows retained loop) (unreported : phase.report = []) :
    Valid retained (r.goto phase) loop where
  reported := by
    have trace := valid.reported
    rw [Phase.report_running running] at trace
    rw [ProcessReader.goto, unreported]
    exact trace
  unreported := valid.unreported
  knows := knows
  endpoint _ := valid.endpoint running
  released := valid.released
  exited := valid.exited
  finished := by
    have before : r.readerDone = true ↔ False :=
      valid.finished.trans (iff_false_intro (Phase.undone (Phase.report_running running)))
    exact before.trans (iff_false_intro (Phase.undone unreported)).symm

/-- A running loop does something, and keeps its child endpoint. -/
theorem Valid.act (valid : Valid retained r loop) (running : r.phase.outcome = none) {action : Action}
    (knows : phase.Knows retained (loop ++ [action])) (unreported : phase.report = [])
    (undrained : ∀ outcome, action ≠ .drained outcome) (held : action ≠ .released)
    (exited : action = .sawExit true → r.workloadExited = true) :
    Valid retained ((r.goto phase).log action) (loop ++ [action]) where
  reported := by
    have trace := valid.reported
    rw [Phase.report_running running, List.append_nil] at trace
    simp only [log, ProcessReader.goto, unreported, trace, List.append_nil]
  unreported outcome member := by
    rcases List.mem_append.mp member with old | new
    · exact valid.unreported outcome old
    · exact undrained outcome (List.mem_singleton.mp new).symm
  knows := knows
  endpoint _ absent := (valid.endpoint running absent).imp_right (List.mem_append_left _)
  released := valid.released.snoc fun released => absurd released held
  exited member := by
    rcases List.mem_append.mp member with old | new
    · exact valid.exited old
    · exact exited (List.mem_singleton.mp new).symm
  finished := by
    have before : r.readerDone = true ↔ False :=
      valid.finished.trans (iff_false_intro (Phase.undone (Phase.report_running running)))
    exact before.trans (iff_false_intro (Phase.undone unreported)).symm

/-- The loop releases the child endpoint and reads on. -/
theorem Valid.release (valid : Valid retained r loop) (inner : r.phase = .inner) (dry : SawExitDry loop) :
    Valid retained r.release (loop ++ [.released]) where
  reported := by
    have trace := valid.reported
    simp only [inner, Phase.report, List.append_nil] at trace
    simp only [ProcessReader.release, log, inner, Phase.report, trace, List.append_nil]
  unreported outcome member := by
    rcases List.mem_append.mp member with old | new
    · exact valid.unreported outcome old
    · cases List.mem_singleton.mp new
  knows := by
    have pending : Pending loop [] := valid.knows_at inner
    simp only [ProcessReader.release, log, inner, Phase.Knows]
    exact pending.idle rfl rfl
  endpoint _ _ := .inr (List.mem_append_right _ (List.mem_singleton.mpr rfl))
  released := valid.released.snoc fun _ => dry
  exited member := by
    rcases List.mem_append.mp member with old | new
    · exact valid.exited old
    · cases List.mem_singleton.mp new
  finished := valid.finished

/-- One load of the stop flag. -/
theorem Valid.unlessStopped (valid : Valid retained r loop) (running : r.phase.outcome = none)
    (knows : phase.Knows retained loop) (unreported : phase.report = []) :
    Valid retained (r.unlessStopped phase) loop := by
  unfold ProcessReader.unlessStopped
  split
  · exact valid.goto running (valid.knows.cut running (by decide)) rfl
  · exact valid.goto running knows unreported

theorem lastRead {kind : ReadAnswer → Bool} {answer : ReadAnswer} (is : kind answer = true) :
    LastRead kind (loop ++ [.read answer]) :=
  ⟨loop, answer, rfl, is⟩

/-- A read of the master leaves the loop with what the phase after it knows. -/
theorem Valid.knows_afterRead (valid : Valid retained r loop) (reading : r.phase = .reading) (answer : ReadAnswer) :
    (r.afterRead answer).Knows retained (loop ++ [.read answer]) := by
  have pending : Pending loop [] := valid.knows_at reading
  -- whatever was not data leaves nothing in hand
  have none (dry : (Action.read answer).chunk = none) : Pending (loop ++ [.read answer]) [] :=
    pending.idle dry rfl
  have ended (absent : r.retained = false) (is : answer.isEnd = true) : SawEnd retained (loop ++ [.read answer]) :=
    ⟨lastRead is, (valid.endpoint (by rw [reading]; rfl) absent).imp_right (List.mem_append_left _)⟩
  unfold ProcessReader.afterRead
  cases answer with
  | data chunk =>
    cases chunk with
    | nil =>
      dsimp only
      split
      · exact ⟨none rfl, lastRead rfl⟩
      · rename_i absent
        exact ⟨⟨[], none rfl, by simp, by simp⟩, fun _ => ended (by simpa using absent) rfl⟩
    | cons byte chunk => exact pending.read rfl rfl
  | interrupted => exact none rfl
  | wouldBlock => exact ⟨none rfl, lastRead rfl⟩
  | eio =>
    dsimp only
    split
    · exact none rfl
    · rename_i absent
      exact ⟨⟨[], none rfl, by simp, by simp⟩, fun _ => ended (by simpa using absent) rfl⟩
  | failed error => exact ⟨⟨[], none rfl, by simp, by simp⟩, fun eof => by cases eof⟩

/-- The answer of an offer leaves the loop with what the phase after it knows. -/
theorem Valid.knows_afterOffer {chunk : Bytes} (valid : Valid retained r loop) (calling : r.phase = .calling chunk)
    (answer : Option OutputAcceptance) :
    (afterOffer chunk answer).Knows retained (loop ++ [.offered chunk answer]) := by
  have pending : Pending loop [chunk] := valid.knows_at calling
  cases answer with
  | none => exact ⟨⟨[chunk], pending.idle rfl rfl, by simp, by simp⟩, fun eof => by cases eof⟩
  | some acceptance =>
    cases acceptance with
    | accepted => exact pending.accept rfl rfl
    | backpressure => exact pending.idle rfl rfl
    | closed => exact ⟨⟨[chunk], pending.idle rfl rfl, by simp, by simp⟩, fun eof => by cases eof⟩

/-- The thread looks for the exit after a dry read, and releases its endpoint if it saw one. -/
theorem Valid.lookForExit (valid : Valid retained r loop) (running : r.phase.outcome = none)
    (pending : Pending loop []) (dry : LastRead ReadAnswer.isDry loop) {released : Bool}
    (exited : released = true → r.workloadExited = true) :
    ∃ loop, Valid retained
      (if released then (r.log (.sawExit r.workloadExited)).release.goto .inner
        else (r.log (.sawExit r.workloadExited)).goto .top) loop := by
  have pending : Pending (loop ++ [.sawExit r.workloadExited]) [] := pending.idle rfl rfl
  split
  · rename_i released
    have seen : Valid retained ((r.goto .inner).log (.sawExit r.workloadExited))
        (loop ++ [.sawExit r.workloadExited]) :=
      valid.act running pending rfl (by simp) (by simp) (by simp)
    rw [exited released] at seen ⊢
    exact ⟨_, seen.release rfl ⟨loop, rfl, dry⟩⟩
  · exact ⟨_, valid.act running pending rfl (by simp) (by simp) (by simp)⟩

/-- The thread keeps the invariant at every step. -/
theorem Valid.advance (valid : Valid retained r loop) (answers : Answers) :
    ∃ loop, Valid retained (r.advance answers) loop := by
  unfold ProcessReader.advance
  cases phase : r.phase with
  | top | woken | inner | offering =>
    exact ⟨loop, valid.unlessStopped (by rw [phase]; rfl) (valid.knows_at phase :) rfl⟩
  | polling =>
    have running : r.phase.outcome = none := by rw [phase]; rfl
    refine ⟨loop, valid.goto running ?_ ?_⟩
    · cases answers.poll with
      | ready | interrupted => exact (valid.knows_at phase :)
      | failed => exact valid.knows.cut running (by simp)
    · cases answers.poll <;> rfl
  | reading =>
    refine ⟨_, valid.act (by rw [phase]; rfl) (valid.knows_afterRead phase answers.read) ?_ (by simp) (by simp) (by simp)⟩
    unfold ProcessReader.afterRead
    split <;> try split
    all_goals rfl
  | ended =>
    obtain ⟨pending, dry⟩ := valid.knows_at phase
    exact valid.lookForExit (by rw [phase]; rfl) pending dry id
  | blocked =>
    obtain ⟨pending, dry⟩ := valid.knows_at phase
    exact valid.lookForExit (by rw [phase]; rfl) pending dry fun both => (Bool.and_eq_true_iff.mp both).1
  | calling chunk =>
    refine ⟨_, valid.act (by rw [phase]; rfl) (valid.knows_afterOffer phase answers.outputObserved) ?_
      (by simp) (by simp) (by simp)⟩
    unfold afterOffer
    split <;> rfl
  | waiting chunk =>
    have running : r.phase.outcome = none := by rw [phase]; rfl
    refine ⟨loop, valid.goto running ?_ ?_⟩
    · cases answers.waitForCapacity with
      | none => exact valid.knows.cut running (by simp)
      | some => exact (valid.knows_at phase :)
    · cases answers.waitForCapacity <;> rfl
  | returned outcome =>
    exact ⟨loop, {
      reported := by simpa [phase, Phase.report] using valid.reported
      unreported := valid.unreported
      knows := (valid.knows_at phase :)
      endpoint := fun running => by cases running
      released := valid.released
      exited := valid.exited
      finished := by simpa [phase] using valid.finished }⟩
  | draining outcome =>
    exact ⟨loop, {
      reported := by simpa [phase, Phase.report, log, ProcessReader.goto] using valid.reported
      unreported := valid.unreported
      knows := (valid.knows_at phase :)
      endpoint := fun running => by cases running
      released := valid.released
      exited := valid.exited
      finished := by simpa [phase, log, ProcessReader.goto] using valid.finished }⟩
  | finishing outcome =>
    exact ⟨loop, {
      reported := by simpa [phase, Phase.report] using valid.reported
      unreported := valid.unreported
      knows := (valid.knows_at phase :)
      endpoint := fun running => by cases running
      released := valid.released
      exited := valid.exited
      finished := by simp }⟩
  | done outcome => exact ⟨loop, valid⟩

/-- The session may set its flags at any point. -/
theorem Valid.step (valid : Valid retained r loop) (event : Event) : ∃ loop, Valid retained (r.step event) loop := by
  cases event with
  | stop => exact ⟨loop, { valid with }⟩
  | noteWorkloadExit => exact ⟨loop, { valid with exited := fun _ => rfl }⟩
  | advance answers => exact valid.advance answers

theorem Valid.run (valid : Valid retained r loop) (events : List Event) :
    ∃ loop, Valid retained (r.run events) loop := by
  induction events generalizing r loop with
  | nil => exact ⟨loop, valid⟩
  | cons event events ih =>
    obtain ⟨loop, valid⟩ := valid.step event
    exact ih valid

end Steps

/-- How many steps of its own the thread needs to end, once it cannot read on. -/
def Phase.left : Phase → Nat
  | .calling _ | .reading => 6
  | .polling | .ended | .blocked | .waiting _ => 5
  | .top | .woken | .inner | .offering _ => 4
  | .returned _ => 3
  | .draining _ => 2
  | .finishing _ => 1
  | .done _ => 0

/-- The loop returned or will not read on. -/
def Leaving (r : ProcessReader) : Prop := r.stopReader = true ∨ r.phase.outcome.isSome = true

section Ends
variable {r : ProcessReader}

theorem advance_left (leaving : r.Leaving) (answers : Answers) :
    (r.advance answers).phase.left ≤ r.phase.left - 1 := by
  have stopped (running : r.phase.outcome = none) : r.stopReader = true := by
    rcases leaving with stopped | returned
    · exact stopped
    · simp [running] at returned
  unfold ProcessReader.advance
  cases phase : r.phase with
  | top | woken | inner | offering =>
    simp [ProcessReader.unlessStopped, ProcessReader.goto, stopped (by rw [phase]; rfl), Phase.left]
  | polling => cases answers.poll <;> simp [ProcessReader.goto, Phase.left]
  | reading =>
    simp only [log, ProcessReader.goto, ProcessReader.afterRead]
    split <;> try split
    all_goals simp [Phase.left]
  | ended | blocked =>
    dsimp only
    split <;> simp [release, log, ProcessReader.goto, Phase.left]
  | calling chunk =>
    simp only [log, ProcessReader.goto, afterOffer]
    split <;> simp [Phase.left]
  | waiting chunk => cases answers.waitForCapacity <;> simp [ProcessReader.goto, Phase.left]
  | returned | draining | finishing | done => simp [log, ProcessReader.goto, Phase.left, phase]

/-- What the loop returned stays what it returned. -/
theorem step_outcome {outcome : DrainOutcome} (returned : r.phase.outcome = some outcome) (event : Event) :
    (r.step event).phase.outcome = some outcome := by
  cases event with
  | stop | noteWorkloadExit => exact returned
  | advance answers =>
    simp only [step, ProcessReader.advance]
    cases phase : r.phase with
    | returned | draining | finishing | done =>
      rw [phase] at returned
      simpa [Phase.outcome, log, ProcessReader.goto, phase] using returned
    | _ =>
      rw [phase] at returned
      cases returned

theorem step_stop (stopped : r.stopReader = true) (event : Event) : (r.step event).stopReader = true := by
  cases event with
  | stop => rfl
  | noteWorkloadExit => exact stopped
  | advance answers =>
    simp only [step, ProcessReader.advance]
    cases phase : r.phase with
    | ended | blocked =>
      dsimp only
      split <;> exact stopped
    | _ => exact stopped

theorem Leaving.step (leaving : r.Leaving) (event : Event) : (r.step event).Leaving := by
  rcases leaving with stopped | returned
  · exact .inl (step_stop stopped event)
  · obtain ⟨outcome, returned⟩ := Option.isSome_iff_exists.mp returned
    exact .inr (by rw [step_outcome returned event]; rfl)

/-- How often the thread itself was scheduled. -/
def advances (events : List Event) : Nat := events.countP fun event => event matches .advance _

theorem advances_advance (answers : Answers) (events : List Event) :
    advances (.advance answers :: events) = advances events + 1 := by
  simp [advances]

theorem advances_flag (event : Event) (events : List Event) (flag : ∀ answers, event ≠ .advance answers) :
    advances (event :: events) = advances events := by
  cases event with
  | stop | noteWorkloadExit => simp [advances]
  | advance answers => exact absurd rfl (flag answers)

/-- Enough steps of a thread that leaves bring it to its end. -/
theorem Leaving.run_left (leaving : r.Leaving) (events : List Event) :
    (r.run events).phase.left ≤ r.phase.left - advances events := by
  induction events generalizing r with
  | nil => exact Nat.le_refl _
  | cons event events ih =>
    have rest : ((r.step event).run events).phase.left ≤ (r.step event).phase.left - advances events :=
      ih (leaving.step event)
    have whole : r.run (event :: events) = (r.step event).run events := rfl
    rw [whole]
    cases event with
    | stop =>
      rw [advances_flag .stop events (by simp)]
      exact rest
    | noteWorkloadExit =>
      rw [advances_flag .noteWorkloadExit events (by simp)]
      exact rest
    | advance answers =>
      have first := advance_left leaving answers
      have count := advances_advance answers events
      have shown : (r.step (.advance answers)).phase.left = (r.advance answers).phase.left := rfl
      omega

theorem run_outcome {outcome : DrainOutcome} (returned : r.phase.outcome = some outcome) (events : List Event) :
    (r.run events).phase.outcome = some outcome := by
  induction events generalizing r with
  | nil => exact returned
  | cons event events ih => exact ih (step_outcome returned event)

theorem run_append (r : ProcessReader) (first second : List Event) :
    r.run (first ++ second) = (r.run first).run second :=
  List.foldl_append

theorem done_of_left (ended : r.phase.left = 0) : ∃ outcome, r.phase = .done outcome := by
  cases phase : r.phase with
  | done outcome => exact ⟨outcome, rfl⟩
  | _ => simp [phase, Phase.left] at ended

end Ends

/-- The reader never hides lost output, whatever the system and the callback answer and
whenever the session sets its flags: at every point of every run it is honest, and once its
loop returned, or after a stop, it ends and has reported what the loop returned. -/
theorem reader_hides_nothing (retained : Bool) (events : List Event) :
    (∃ loop, Honest retained ((new retained).run events) loop) ∧
      (∀ outcome later, ((new retained).run events).phase.outcome = some outcome → 3 ≤ advances later →
        ((new retained).run (events ++ later)).phase = .done outcome) ∧
      (∀ later, ((new retained).run events).stopReader = true → 6 ≤ advances later →
        ∃ outcome, ((new retained).run (events ++ later)).phase = .done outcome) := by
  refine ⟨?_, ?_, ?_⟩
  · obtain ⟨loop, valid⟩ := (new_valid retained).run events
    exact ⟨loop, valid.honest⟩
  · intro outcome later returned enough
    rw [run_append]
    have few : ((new retained).run events).phase.left ≤ 3 := by
      cases phase : ((new retained).run events).phase with
      | returned | draining | finishing | done => simp [Phase.left]
      | _ => simp [phase, Phase.outcome] at returned
    have left := Leaving.run_left (.inr (by rw [returned]; rfl)) later
    obtain ⟨final, done⟩ := done_of_left (r := ((new retained).run events).run later) (by omega)
    have same := run_outcome returned later
    rw [done] at same ⊢
    rw [Option.some.inj same]
  · intro later stopped enough
    rw [run_append]
    have few : ((new retained).run events).phase.left ≤ 6 := by
      cases ((new retained).run events).phase <;> simp [Phase.left]
    have left := Leaving.run_left (.inl stopped) later
    exact done_of_left (by omega)

end ProcessReader
end PtyRuntime
