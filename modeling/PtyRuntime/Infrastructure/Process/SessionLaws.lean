import PtyRuntime.Infrastructure.Process.Session

/-! Process input is written in order, once, with exact acknowledgements. -/
namespace PtyRuntime.ProcessSession

variable {input : Input} {now : Nat} {answer : WriteAnswer}

/-- A chunk that waits has bytes left, or never had any. -/
def Input.Waiting (input : Input) : Prop :=
  input.offset < input.bytes.length ∨ input.bytes = [] ∧ input.offset = 0

/-- An acknowledgement tells exactly how much was written, and whether that was all. -/
def Settled.Exact (settled : Settled) : Prop :=
  settled.outcome.written ≤ settled.bytes.length ∧
    (settled.outcome.error = none → settled.outcome.written = settled.bytes.length) ∧
    (settled.bytes ≠ [] → settled.outcome.written = settled.bytes.length → settled.outcome.error = none)

theorem Input.Waiting.le (waiting : input.Waiting) : input.offset ≤ input.bytes.length := by
  rcases waiting with some | ⟨-, none⟩ <;> omega

/-- Nothing is written of a chunk that fails, and never more than is left. -/
theorem Input.Waiting.attempt_cases (waiting : input.Waiting) (now : Nat) (answer : WriteAnswer) :
    (∃ failure, input.attempt now answer = (0, some failure)) ∨
      ∃ count, input.attempt now answer = (count, none) ∧ input.offset + count ≤ input.bytes.length := by
  unfold Input.attempt
  split
  · exact .inl ⟨_, rfl⟩
  · split
    · rename_i left
      cases answer with
      | accepted count =>
        cases count with
        | zero => exact .inl ⟨_, rfl⟩
        | succ count => exact .inr ⟨_, rfl, by omega⟩
      | wouldBlock => exact .inr ⟨0, rfl, waiting.le⟩
      | failed error => exact .inl ⟨_, rfl⟩
    · exact .inr ⟨0, rfl, waiting.le⟩

/-- Teardown acknowledges a waiting chunk exactly. -/
theorem Input.Waiting.exact (waiting : input.Waiting) (reason : ProcessError) :
    Settled.Exact ⟨input.reply, input.bytes, ⟨input.offset, some reason⟩⟩ := by
  refine ⟨waiting.le, (fun none => nomatch none), fun some whole => ?_⟩
  dsimp only at some whole
  rcases waiting with left | ⟨none, -⟩
  · omega
  · exact absurd none some

variable {s : ProcessSession}

/-- What every step keeps of the queue and of what was recorded beside it. -/
structure Sound (s : ProcessSession) : Prop where
  counted : s.bytes = (s.input.map (·.bytes.length)).sum
  bounded : s.bytes ≤ s.limits.inputBytes
  slots : s.input.length ≤ s.limits.inputSlots
  waiting : ∀ input ∈ s.input, input.Waiting
  untouched : ∀ input ∈ s.input.tail, input.offset = 0
  ordered : s.admitted = s.settled.map (·.bytes) ++ s.input.map (·.bytes)
  replies : s.settled.map (·.reply) ++ s.input.map (·.reply) = List.range s.admitted.length
  stream : s.accepted = (s.settled.map fun settled => settled.bytes.take settled.outcome.written).flatten ++
    (s.input.map fun input => input.bytes.take input.offset).flatten
  exact : ∀ settled ∈ s.settled, settled.Exact
  closing : s.finishing ≠ [] → s.closed = true

theorem new_sound (limits : InputLimits) : Sound (new limits) where
  counted := rfl
  bounded := Nat.zero_le _
  slots := Nat.zero_le _
  waiting _ member := nomatch member
  untouched _ member := nomatch member
  ordered := rfl
  replies := rfl
  stream := rfl
  exact _ member := nomatch member
  closing some := absurd rfl some

theorem Sound.writeReserved (sound : Sound s) (bytes : Bytes) (now : Nat) : Sound (s.writeReserved bytes now).2 := by
  unfold ProcessSession.writeReserved
  split
  · exact sound
  · split
    · exact sound
    · rename_i room
      obtain ⟨-, slot, fits⟩ := by simpa only [not_or, Nat.not_le, Nat.not_lt] using room
      have bounded := sound.bounded
      exact {
        counted := by simp [sound.counted]
        bounded := by dsimp only; omega
        slots := by simp only [List.length_append, List.length_singleton]; omega
        waiting := by
          intro input member
          rcases List.mem_append.mp member with old | new
          · exact sound.waiting input old
          · obtain rfl := List.mem_singleton.mp new
            unfold Input.Waiting
            cases bytes with
            | nil => exact .inr ⟨rfl, rfl⟩
            | cons byte rest => exact .inl (Nat.succ_pos _)
        untouched := by
          intro input member
          cases queue : s.input with
          | nil =>
            rw [queue] at member
            cases member
          | cons first rest =>
            rw [queue] at member
            rcases List.mem_append.mp member with old | new
            · exact sound.untouched input (by rw [queue]; exact old)
            · obtain rfl := List.mem_singleton.mp new
              rfl
        ordered := by simp [sound.ordered]
        replies := by
          simp only [List.map_append, List.map_cons, List.map_nil, List.length_append, List.length_singleton,
            List.range_succ, ← sound.replies, List.append_assoc]
        stream := by simp [sound.stream]
        exact := sound.exact
        closing := sound.closing }

/-- Untouched chunks have written nothing. -/
theorem flatten_untouched {inputs : List Input} (untouched : ∀ input ∈ inputs, input.offset = 0) :
    (inputs.map fun input => input.bytes.take input.offset).flatten = [] := by
  induction inputs with
  | nil => rfl
  | cons input rest ih =>
    obtain ⟨here, later⟩ := List.forall_mem_cons.mp untouched
    simp only [List.map_cons, here, List.take_zero, List.flatten_cons, List.nil_append, ih later]

/-- More of the front chunk continues the stream where it stopped. -/
theorem Sound.stream_front (sound : Sound s) {input : Input} {rest : List Input} (queue : s.input = input :: rest)
    (count : Nat) :
    s.accepted ++ (input.bytes.drop input.offset).take count =
      (s.settled.map fun settled => settled.bytes.take settled.outcome.written).flatten ++
        input.bytes.take (input.offset + count) := by
  have untouched : ∀ input ∈ rest, input.offset = 0 := by
    have all := sound.untouched
    rw [queue] at all
    exact all
  rw [sound.stream, queue, List.map_cons, List.flatten_cons, flatten_untouched untouched, List.append_nil,
    List.append_assoc, ← List.take_add]

/-- The front chunk goes on and stays in front. -/
theorem Sound.advance (sound : Sound s) {input : Input} {rest : List Input} (queue : s.input = input :: rest)
    {count : Nat} (left : input.offset + count < input.bytes.length ∨ input.bytes = [] ∧ input.offset + count = 0) :
    Sound { s with
      accepted := s.accepted ++ (input.bytes.drop input.offset).take count
      input := { input with offset := input.offset + count } :: rest } where
  counted := by simp [sound.counted, queue]
  bounded := sound.bounded
  slots := by simpa [queue] using sound.slots
  waiting other member := by
    rcases List.mem_cons.mp member with rfl | later
    · exact left
    · exact sound.waiting other (by rw [queue]; exact List.mem_cons_of_mem _ later)
  untouched := by simpa [queue] using sound.untouched
  ordered := by simp [sound.ordered, queue]
  replies := by simpa [queue] using sound.replies
  stream := by
    have untouched : ∀ input ∈ rest, input.offset = 0 := by simpa [queue] using sound.untouched
    dsimp only
    rw [sound.stream_front queue, List.map_cons, List.flatten_cons, flatten_untouched untouched, List.append_nil]
  exact := sound.exact
  closing := sound.closing

/-- The front chunk leaves the queue with an exact acknowledgement. -/
theorem Sound.settle (sound : Sound s) {input : Input} {rest : List Input} (queue : s.input = input :: rest)
    {count : Nat} {failure : Option ProcessError}
    (exact : Settled.Exact ⟨input.reply, input.bytes, ⟨input.offset + count, failure⟩⟩) :
    Sound { s with
      accepted := s.accepted ++ (input.bytes.drop input.offset).take count
      input := rest
      bytes := s.bytes - input.bytes.length
      settled := s.settled ++ [⟨input.reply, input.bytes, ⟨input.offset + count, failure⟩⟩] } where
  counted := by
    have counted := sound.counted
    rw [queue, List.map_cons, List.sum_cons] at counted
    dsimp only
    omega
  bounded := by
    have bounded := sound.bounded
    dsimp only
    omega
  slots := by
    have slots := sound.slots
    rw [queue, List.length_cons] at slots
    dsimp only
    omega
  waiting other member := sound.waiting other (by rw [queue]; exact List.mem_cons_of_mem _ member)
  untouched other member := by
    refine sound.untouched other ?_
    rw [queue, List.tail_cons]
    exact List.mem_of_mem_tail member
  ordered := by simp [sound.ordered, queue]
  replies := by simpa [queue] using sound.replies
  stream := by
    have untouched : ∀ input ∈ rest, input.offset = 0 := by simpa [queue] using sound.untouched
    dsimp only
    rw [sound.stream_front queue, flatten_untouched untouched]
    simp
  exact := by
    intro settled member
    rcases List.mem_append.mp member with old | new
    · exact sound.exact settled old
    · obtain rfl := List.mem_singleton.mp new
      exact exact
  closing := sound.closing

theorem Sound.writeReady (sound : Sound s) (now : Nat) (answer : WriteAnswer) : Sound (s.writeReady now answer) := by
  unfold ProcessSession.writeReady
  split
  · exact sound
  · rename_i input rest queue
    have waiting : input.Waiting := sound.waiting input (by rw [queue]; exact List.mem_cons_self)
    rcases waiting.attempt_cases now answer with ⟨failure, attempt⟩ | ⟨count, attempt, within⟩
    · simp only [attempt, Option.isSome_some, Bool.true_or, if_true]
      exact sound.settle queue (waiting.exact failure)
    · simp only [attempt, Option.isSome_none, Bool.false_or, decide_eq_true_eq]
      split
      · rename_i whole
        exact sound.settle queue ⟨within, (fun _ => whole), fun _ _ => rfl⟩
      · rename_i left
        exact sound.advance queue (.inl (by omega))

theorem Sound.finishInputs (sound : Sound s) (call : Nat) : Sound (s.finishInputs call) := by
  unfold ProcessSession.finishInputs
  split
  · exact sound
  · rename_i reason found
    have some : s.finishing ≠ [] := by
      rintro none
      rw [none] at found
      cases found
    exact {
      counted := rfl
      bounded := Nat.zero_le _
      slots := Nat.zero_le _
      waiting := fun _ member => nomatch member
      untouched := fun _ member => nomatch member
      ordered := by simp [sound.ordered, Function.comp_def]
      replies := by simpa [Function.comp_def] using sound.replies
      stream := by simp [sound.stream, Function.comp_def]
      exact := by
        intro settled member
        rcases List.mem_append.mp member with old | new
        · exact sound.exact settled old
        · obtain ⟨input, queued, rfl⟩ := List.mem_map.mp new
          exact (sound.waiting input queued).exact reason
      closing := fun _ => sound.closing some }

theorem Sound.step (sound : Sound s) (event : Event) : Sound (s.step event) := by
  cases event with
  | writeReserved bytes now => exact sound.writeReserved bytes now
  | requestResize size =>
    simp only [ProcessSession.step, ProcessSession.requestResize]
    split
    · exact sound
    · split
      · exact sound
      · exact { sound with closing := sound.closing }
  | takeResize outcome =>
    simp only [ProcessSession.step, ProcessSession.takeResize]
    split
    · exact sound
    · exact { sound with closing := sound.closing }
  | writeReady now answer => exact sound.writeReady now answer
  | beginFinish reason => exact { sound with closing := fun _ => rfl }
  | finishInputs call => exact sound.finishInputs call

theorem Sound.run (sound : Sound s) (events : List Event) : Sound (s.run events) := by
  induction events generalizing s with
  | nil => exact sound
  | cons event rest ih => exact ih (sound.step event)

theorem step_limits (s : ProcessSession) (event : Event) : (s.step event).limits = s.limits := by
  cases event <;> simp only [step, writeReserved, requestResize, takeResize, writeReady, beginFinish, finishInputs]
  all_goals (repeat' split)
  all_goals rfl

theorem run_limits (s : ProcessSession) (events : List Event) : (s.run events).limits = s.limits := by
  induction events generalizing s with
  | nil => rfl
  | cons event rest ih => exact (ih _).trans (s.step_limits event)

theorem closed_step (closed : s.closed = true) (empty : s.input = []) (event : Event) :
    (s.step event).closed = true ∧ (s.step event).input = [] := by
  cases event with
  | writeReserved bytes now => simp [step, writeReserved, closed, empty]
  | requestResize size => simp [step, requestResize, closed, empty]
  | takeResize outcome =>
    simp only [step, takeResize]
    split <;> exact ⟨closed, empty⟩
  | writeReady now answer => simp [step, writeReady, closed, empty]
  | beginFinish reason => exact ⟨rfl, empty⟩
  | finishInputs call =>
    simp only [step, finishInputs]
    split
    · exact ⟨closed, empty⟩
    · exact ⟨closed, rfl⟩

/-- Once one teardown is over, the queue stays empty. -/
theorem closed_run (closed : s.closed = true) (empty : s.input = []) (events : List Event) :
    (s.run events).closed = true ∧ (s.run events).input = [] := by
  induction events generalizing s with
  | nil => exact ⟨closed, empty⟩
  | cons event rest ih =>
    obtain ⟨closed, empty⟩ := closed_step closed empty event
    exact ih closed empty

theorem Sound.finished (sound : Sound s) {call : Nat} {reason : ProcessError}
    (begun : s.finishing[call]? = some reason) (later : List Event) :
    ((s.finishInputs call).run later).input = [] ∧
      ∀ bytes now, ((s.finishInputs call).run later).writeReserved bytes now =
        (.error .closed, (s.finishInputs call).run later) := by
  have some : s.finishing ≠ [] := by
    rintro none
    rw [none] at begun
    cases begun
  have after : (s.finishInputs call).closed = true ∧ (s.finishInputs call).input = [] := by
    simp only [ProcessSession.finishInputs, begun]
    exact ⟨sound.closing some, trivial⟩
  obtain ⟨closed, empty⟩ := closed_run after.1 after.2 later
  exact ⟨empty, fun bytes now => by rw [ProcessSession.writeReserved, if_pos closed]⟩

/-- For every interleaving of admissions, write steps and teardowns: the counters are
exact and bounded; what the system accepted is one prefix per admitted chunk, in order,
and only the front of the queue has begun; each chunk that left the queue was answered
once and exactly; and nothing is queued or admitted after a teardown. -/
theorem input_written_once (limits : InputLimits) (events : List Event) :
    let s := (new limits).run events
    (s.bytes = (s.input.map (·.bytes.length)).sum ∧ s.bytes ≤ limits.inputBytes ∧
      s.input.length ≤ limits.inputSlots) ∧
    (s.admitted = s.settled.map (·.bytes) ++ s.input.map (·.bytes) ∧
      s.accepted = (s.settled.map fun settled => settled.bytes.take settled.outcome.written).flatten ++
        (s.input.map fun input => input.bytes.take input.offset).flatten ∧
      ∀ input ∈ s.input.tail, input.offset = 0) ∧
    (s.settled.map (·.reply) ++ s.input.map (·.reply) = List.range s.admitted.length ∧
      ∀ settled ∈ s.settled, settled.outcome.written ≤ settled.bytes.length ∧
        (settled.outcome.error = none → settled.outcome.written = settled.bytes.length) ∧
        (settled.bytes ≠ [] → settled.outcome.written = settled.bytes.length → settled.outcome.error = none)) ∧
    ∀ call reason, s.finishing[call]? = some reason → ∀ later,
      ((s.finishInputs call).run later).input = [] ∧
        ∀ bytes now, ((s.finishInputs call).run later).writeReserved bytes now =
          (.error .closed, (s.finishInputs call).run later) := by
  have sound : Sound ((new limits).run events) := (new_sound limits).run events
  have same : ((new limits).run events).limits = limits := run_limits (new limits) events
  have bounded := sound.bounded
  have slots := sound.slots
  rw [same] at bounded slots
  exact ⟨⟨sound.counted, bounded, slots⟩, ⟨sound.ordered, sound.stream, sound.untouched⟩,
    ⟨sound.replies, sound.exact⟩, fun call reason begun later => sound.finished begun later⟩

end PtyRuntime.ProcessSession
