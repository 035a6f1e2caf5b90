import PtyRuntime.Infrastructure.EventStream.PublisherLaws

/-! Every step of a publisher keeps its invariant. -/
namespace PtyRuntime.EventStream

section

variable {StreamKey EventId : Type} {external : EventCrate EventId} {start : ReplayCursor}
  {pageBytes : Nat} {p : EventStreamPublisher StreamKey EventId} {sources : List Taken}
  {attempts : List (Nat × NewEvent EventId)} {lifetime : SessionLifetime}
  {s : Publishing StreamKey EventId}

theorem Stage.toIdle {published : Nat} {a : Attachment} {call : Call}
    (stage : Stage external start p sources attempts published a call) (free : a.hand = none) :
    Stage external start p sources attempts published a .idle := by
  cases stage with
  | idle pending level sequence free => exact .idle pending level sequence free
  | reading pending level sequence running => exact .idle pending level sequence free
  | holding pending last one sequence running free =>
    exact .holding pending last one sequence running free
  | prepared pending one sequence carries running free waiting =>
    exact .prepared pending one sequence carries running free (.inl rfl)

/-- A call that waits without a page in its hand may end. -/
theorem Valid.toIdle (valid : Valid external lifetime start pageBytes s)
    (free : (s.observed.attachments.get? s.watcher).bind (·.hand) = none) :
    Valid external lifetime start pageBytes { s with call := .idle } := by
  obtain ⟨a, found, owned⟩ := valid.own
  rw [found] at free
  exact { valid with own := ⟨a, found, { owned with stage := owned.stage.toIdle free }⟩ }

/-- A call that returns without a publication leaves everything else alone. -/
theorem Valid.finish (valid : Valid external lifetime start pageBytes s) (idle : s.call = .idle)
    {result : Except PublicationError (Option (Publication StreamKey))}
    (nothing : publicationOf result = none) :
    Valid external lifetime start pageBytes (s.finish result) := by
  have same : (s.finish result).publications = s.publications := by
    rw [publications_finish, nothing, Option.toList_none, List.append_nil]
  obtain ⟨a, found, cursor, hand, stage⟩ := valid.own
  refine ⟨valid.session, valid.page, ?_, a, found, cursor, hand, ?_⟩
  · rw [same]
    exact valid.logs
  · rw [same]
    rw [idle] at stage
    exact stage

/-- The session may move while the publisher's own attachment stays. -/
theorem Valid.observe (valid : Valid external lifetime start pageBytes s) (event : Observed.Step)
    (same : (s.observed.step event).attachments.get? s.watcher =
      s.observed.attachments.get? s.watcher) :
    Valid external lifetime start pageBytes { s with observed := s.observed.step event } := by
  obtain ⟨a, found, owned⟩ := valid.own
  obtain ⟨more, grown⟩ := Observed.step_stream s.observed event
  refine ⟨Observed.step_valid valid.session event, ?_, ?_, a, same.trans found,
    ⟨owned.cursor, owned.hand, owned.stage⟩⟩
  · exact (Observed.step_pageBytes ..).trans valid.page
  · dsimp only
    rw [grown]
    exact valid.logs.extend more

theorem Valid.submit (valid : Valid external lifetime start pageBytes s) (idle : s.call = .idle)
    (held : s.publisher.pending.isSome = true) (allocate : Nat → Bool) :
    Valid external lifetime start pageBytes (s.submit external allocate) := by
  obtain ⟨a, found, cursor, hand, stage⟩ := valid.own
  rw [idle] at stage
  unfold Publishing.submit
  cases stage with
  | idle pending => rw [pending] at held; cases held
  | @holding t pending last one sequence running free =>
    rcases prepare_source external allocate pending with
      ⟨e, failed⟩ | ⟨event, after, complete, room, encoded, named, schema, prepared⟩
    · rw [failed]
      exact valid.finish idle rfl
    · rw [prepared]
      have carries : Carries external start s.publisher.identity s.sources s.publications.length
          event after complete := by
        refine ⟨⟨t, last, encode_granted encoded⟩, ?_, ?_, schema⟩
        · rw [← (valid.logs.tiles.take _).lifetime_eq, ← sequence]
          exact named
        · rwa [← sequence]
      have logs := valid.logs.attempt carries
      refine ⟨valid.session, valid.page, ?_, a, found, cursor, hand, ?_⟩
      · rw [one]
        exact { logs with }
      · refine .prepared rfl one (congrArg (· + 1) sequence) carries running free (.inr ⟨rfl, ?_⟩)
        rw [one]
        exact List.mem_append_right _ (List.mem_singleton_self _)
  | prepared pending one sequence carries running free waiting =>
    rw [prepare_prepared pending]
    dsimp only
    rw [pending]
    dsimp only
    refine ⟨valid.session, valid.page, ?_, a, found, cursor, hand, ?_⟩
    · rw [one]
      exact valid.logs.attempt carries
    · refine .prepared pending one sequence carries running free (.inr ⟨rfl, ?_⟩)
      rw [one]
      exact List.mem_append_right _ (List.mem_singleton_self _)

theorem Valid.publishNext (valid : Valid external lifetime start pageBytes s)
    (allocate : Nat → Bool) :
    Valid external lifetime start pageBytes (s.publishNext external allocate) := by
  unfold Publishing.publishNext
  split
  · exact valid
  · rename_i idle
    have idle : s.call = .idle := Decidable.not_not.mp idle
    split
    · exact valid.finish idle rfl
    · rename_i running
      split
      · rename_i held
        exact valid.submit idle held allocate
      · rename_i empty
        obtain ⟨a, found, cursor, hand, stage⟩ := valid.own
        rw [found]
        split
        · exact valid.finish idle rfl
        · rename_i next b known
          obtain rfl := Option.some.inj known
          refine { valid with own := ⟨a, found, cursor, hand, ?_⟩ }
          rw [idle] at stage
          cases stage with
          | idle pending level sequence free =>
            exact .reading pending level sequence (Bool.eq_false_iff.mpr running)
          | holding pending => rw [pending] at empty; exact absurd rfl empty
          | prepared pending => rw [pending] at empty; exact absurd rfl empty
        · exact valid

theorem Stage.of_reading {published : Nat} {a : Attachment} {cursor : ReplayCursor}
    (stage : Stage external start p sources attempts published a (.reading cursor)) :
    cursor = a.cursor ∧ p.pending = none ∧ sources.length = published ∧ p.sequence = published ∧
      p.complete = false := by
  cases stage with
  | reading pending level sequence running => exact ⟨rfl, pending, level, sequence, running⟩
  | prepared pending one sequence carries running free waiting =>
    rcases waiting with wrong | ⟨wrong, -⟩ <;> cases wrong

theorem Stage.of_appending {published : Nat} {a : Attachment}
    (stage : Stage external start p sources attempts published a .appending) :
    ∃ prepared, p.pending = some (.prepared prepared) ∧ sources.length = published + 1 ∧
      p.sequence = published + 1 ∧
      Carries external start p.identity sources published prepared.event prepared.after
        prepared.complete ∧
      p.complete = false ∧ a.hand = none ∧ (published + 1, prepared.event) ∈ attempts := by
  cases stage with
  | prepared pending one sequence carries running free waiting =>
    rcases waiting with wrong | ⟨-, attempt⟩
    · cases wrong
    · exact ⟨_, pending, one, sequence, carries, running, free, attempt⟩

/-- The page a poll takes stays in the attachment's hand until the poll goes on. -/
theorem Valid.takes (valid : Valid external lifetime start pageBytes s) {a : Attachment}
    {cursor : ReplayCursor} (found : s.observed.attachments.get? s.watcher = some a)
    (waiting : s.call = .reading cursor) {waker : Waker} {t : Taken}
    (taken : s.observed.takes a.cursor = .ok (some t))
    (holds : (s.observed.take s.watcher (some waker)).attachments.get? s.watcher =
      some { a with hand := some t }) :
    Valid external lifetime start pageBytes
      { s with observed := s.observed.take s.watcher (some waker) } := by
  obtain ⟨b, known, owned⟩ := valid.own
  obtain rfl := Option.some.inj (found.symm.trans known)
  obtain ⟨more, grown⟩ := Observed.step_stream s.observed (.take s.watcher (some waker))
  have stage := owned.stage
  rw [waiting] at stage
  obtain ⟨rfl, pending, level, sequence, running⟩ := stage.of_reading
  refine ⟨Observed.take_valid valid.session .., (Observed.take_pageBytes ..).trans valid.page, ?_,
    _, holds, owned.cursor, ?_, ?_⟩
  · dsimp only
    rw [show (s.observed.take s.watcher (some waker)).stream = _ from grown]
    exact valid.logs.extend more
  · rintro _ ⟨⟩
    rw [← valid.page]
    exact Observed.takes_sound taken
  · dsimp only
    rw [waiting]
    exact .reading pending level sequence running

theorem Valid.poll (valid : Valid external lifetime start pageBytes s) (waker : Waker) :
    Valid external lifetime start pageBytes (s.poll waker) := by
  obtain ⟨a, found, owned⟩ := valid.own
  unfold Publishing.poll
  split
  · rename_i cursor b waiting known
    obtain rfl := Option.some.inj (found.symm.trans known)
    split
    · exact valid
    · rename_i free
      have free : a.hand = none := Option.not_isSome_iff_eq_none.mp free
      dsimp only
      rcases Observed.take_own (some waker) found with same | ⟨t, taken, holds⟩
      · have kept := valid.observe (.take s.watcher (some waker)) (same.trans found.symm)
        split
        · have over' := kept.observe (.dropWait s.watcher) rfl
          refine Valid.finish (over'.toIdle ?_) rfl rfl
          exact (congrArg (·.bind (·.hand)) same).trans free
        · exact kept
      · rw [taken]
        exact valid.takes found waiting taken holds
  · exact valid

/-- The event in the attachment's hand becomes the pending source. -/
theorem Valid.source (valid : Valid external lifetime start pageBytes s) {a : Attachment}
    {cursor : ReplayCursor} (found : s.observed.attachments.get? s.watcher = some a)
    (waiting : s.call = .reading cursor) {t : Taken} (held : a.hand = some t) :
    Valid external lifetime start pageBytes
      { s.endWait (s.observed.finish s.watcher) with
        call := .idle
        publisher := { s.publisher with pending := some (.source { start := cursor, event := t.event }) }
        sources := s.sources ++ [t] } := by
  obtain ⟨b, known, owned⟩ := valid.own
  obtain rfl := Option.some.inj (found.symm.trans known)
  have stage := owned.stage
  rw [waiting] at stage
  obtain ⟨rfl, -, level, sequence, running⟩ := stage.of_reading
  have piece := (valid.session.reads _ a found).hand t held
  rw [owned.cursor] at piece
  obtain ⟨more, grown⟩ := Observed.step_stream s.observed (.finish s.watcher)
  have logs := (valid.logs.read piece (owned.hand t held) level).extend more
  refine ⟨?_, ?_, ?_, _, Observed.finish_own found held, ?_, (fun _ wrong => by cases wrong), ?_⟩
  · exact Observed.step_valid (Observed.finish_valid valid.session _) (.dropWait s.watcher)
  · refine (Observed.step_pageBytes _ (.dropWait s.watcher)).trans ?_
    rw [Observed.finish_context]
    exact valid.page
  · have same : (s.observed.finish s.watcher).stream = s.observed.stream ++ more := grown
    change Logs external start pageBytes (s.observed.finish s.watcher).stream _ _ _ _
    rw [same]
    exact { logs with }
  · rw [position_snoc, ← owned.cursor]
  · refine .holding (t := t) ?_ ?_ ?_ sequence running rfl
    · change some (Pending.source { start := a.cursor, event := t.event }) = some (.source
        { start := position start ((s.sources ++ [t]).take s.publications.length), event := t.event })
      rw [← level, List.take_left, owned.cursor]
    · change (s.sources ++ [t])[s.publications.length]? = some t
      rw [← level, List.getElem?_concat_length]
    · change (s.sources ++ [t]).length = s.publications.length + 1
      rw [List.length_append, level, List.length_singleton]

theorem Valid.resume (valid : Valid external lifetime start pageBytes s) (allocate : Nat → Bool) :
    Valid external lifetime start pageBytes (s.resume external allocate) := by
  obtain ⟨a, found, owned⟩ := valid.own
  unfold Publishing.resume
  rw [found]
  split
  · rename_i cursor t waiting held
    exact (valid.source found waiting held).submit rfl rfl allocate
  · exact valid

theorem Valid.dropCall (valid : Valid external lifetime start pageBytes s) :
    Valid external lifetime start pageBytes s.dropCall := by
  obtain ⟨a, found, owned⟩ := valid.own
  unfold Publishing.dropCall
  split
  · exact valid
  · rename_i appending
    refine valid.toIdle ?_
    have stage := owned.stage
    rw [appending] at stage
    obtain ⟨prepared, -, -, -, -, -, free, -⟩ := stage.of_appending
    rw [found]
    exact free
  · split
    · exact valid
    · rename_i free
      exact (valid.observe (.dropWait s.watcher) rfl).toIdle (Option.not_isSome_iff_eq_none.mp free)

/-- A step returns from at most one call. -/
def ReturnsOnce (s t : Publishing StreamKey EventId) : Prop :=
  t.results = s.results ∨ ∃ result, t.results = s.results ++ [result]

theorem submit_returns (external : EventCrate EventId) (allocate : Nat → Bool)
    (s : Publishing StreamKey EventId) : ReturnsOnce s (s.submit external allocate) := by
  unfold Publishing.submit
  split
  · exact .inr ⟨_, rfl⟩
  · split
    · exact .inl rfl
    · exact .inr ⟨_, rfl⟩

theorem publishNext_returns (external : EventCrate EventId) (allocate : Nat → Bool)
    (s : Publishing StreamKey EventId) : ReturnsOnce s (s.publishNext external allocate) := by
  unfold Publishing.publishNext
  split
  · exact .inl rfl
  split
  · exact .inr ⟨_, rfl⟩
  split
  · exact submit_returns external allocate s
  split
  · exact .inr ⟨_, rfl⟩
  · exact .inl rfl
  · exact .inl rfl

theorem poll_returns (s : Publishing StreamKey EventId) (waker : Waker) :
    ReturnsOnce s (s.poll waker) := by
  unfold Publishing.poll
  split
  · split
    · exact .inl rfl
    · dsimp only
      split
      · exact .inr ⟨_, rfl⟩
      · exact .inl rfl
  · exact .inl rfl

theorem dropCall_returns (s : Publishing StreamKey EventId) : ReturnsOnce s s.dropCall := by
  unfold Publishing.dropCall
  split
  · exact .inl rfl
  · exact .inl rfl
  · split <;> exact .inl rfl

variable [DecidableEq StreamKey] [DecidableEq EventId]

/-- The sink's answer is refused, or it is a receipt of the pending event at an
offset beyond every one before it. -/
theorem receive_cases (external : EventCrate EventId) {prepared : Prepared EventId}
    (pending : p.pending = some (.prepared prepared))
    (answer : Except SinkFailure (Record StreamKey EventId)) :
    (∃ e, p.receive external answer = (.error e, p)) ∨
    ∃ cursor : StoreCursor StreamKey, p.lastEventOffset < cursor.offset ∧
      p.receive external answer =
        (.ok ⟨cursor, prepared.after, prepared.complete⟩, { p with
          lastEventOffset := cursor.offset
          acknowledged := prepared.after
          complete := prepared.complete
          pending := none }) := by
  unfold EventStreamPublisher.receive
  rw [pending]
  cases answer with
  | error failure => exact .inl ⟨_, rfl⟩
  | ok record =>
    dsimp only
    split
    · exact .inl ⟨_, rfl⟩
    · rename_i accepted
      refine .inr ⟨record.cursor, ?_, rfl⟩
      simp only [not_or] at accepted
      omega

theorem Valid.answered (valid : Valid external lifetime start pageBytes s)
    (answer : Except SinkFailure (Record StreamKey EventId)) :
    Valid external lifetime start pageBytes (s.answered external answer) := by
  obtain ⟨a, found, cursor, hand, stage⟩ := valid.own
  unfold Publishing.answered
  split
  · exact valid
  · rename_i appending
    rw [Decidable.not_not.mp appending] at stage
    obtain ⟨prepared, pending, one, sequence, carries, running, free, attempt⟩ := stage.of_appending
    rcases receive_cases external pending answer with
      ⟨e, refused⟩ | ⟨receipt, beyond, accepted⟩
    · rw [refused]
      have idle := valid.toIdle (by rw [found]; exact free)
      exact idle.finish rfl rfl
    · rw [accepted]
      have more := publications_finish { s with
        publisher := { s.publisher with
          lastEventOffset := receipt.offset
          acknowledged := prepared.after
          complete := prepared.complete
          pending := none } } (.ok (some ⟨receipt, prepared.after, prepared.complete⟩))
      refine ⟨valid.session, valid.page, ?_, a, found, cursor, hand, ?_⟩
      · rw [more]
        exact valid.logs.acknowledge ⟨receipt, prepared.after, prepared.complete⟩ attempt carries
          beyond running
      · rw [more]
        refine .idle rfl ?_ ?_ free
        · rw [List.length_append]
          exact one
        · rw [List.length_append]
          exact sequence

theorem step_valid (valid : Valid external lifetime start pageBytes s)
    (event : Event StreamKey EventId) :
    Valid external lifetime start pageBytes (s.step external event) := by
  cases event with
  | session step =>
    simp only [Publishing.step]
    split
    · rename_i spared
      exact valid.observe step (Observed.step_spares s.observed spared)
    · exact valid
  | call allocate => exact valid.publishNext allocate
  | poll waker => exact valid.poll waker
  | resume allocate => exact valid.resume allocate
  | answer answer => exact valid.answered answer
  | dropCall => exact valid.dropCall

theorem run_valid (valid : Valid external lifetime start pageBytes s)
    (events : List (Event StreamKey EventId)) :
    Valid external lifetime start pageBytes (s.run external events) := by
  induction events generalizing s with
  | nil => exact valid
  | cons event rest ih => exact ih (step_valid valid event)

theorem answered_returns (external : EventCrate EventId) (s : Publishing StreamKey EventId)
    (answer : Except SinkFailure (Record StreamKey EventId)) :
    ReturnsOnce s (s.answered external answer) := by
  unfold Publishing.answered
  split
  · exact .inl rfl
  split <;> exact .inr ⟨_, rfl⟩

theorem step_returns (external : EventCrate EventId) (s : Publishing StreamKey EventId)
    (event : Event StreamKey EventId) : ReturnsOnce s (s.step external event) := by
  cases event with
  | session step =>
    simp only [Publishing.step]
    split <;> exact .inl rfl
  | call allocate => exact publishNext_returns external allocate s
  | poll waker => exact poll_returns s waker
  | resume allocate =>
    simp only [Publishing.step, Publishing.resume]
    split
    · exact submit_returns external allocate _
    · exact .inl rfl
  | answer answer => exact answered_returns external s answer
  | dropCall => exact dropCall_returns s

/-- The acknowledged position moves only where a call returns a publication. -/
theorem step_acknowledged (valid : Valid external lifetime start pageBytes s)
    (event : Event StreamKey EventId) :
    (s.step external event).publisher.acknowledged = s.publisher.acknowledged ∨
      ∃ publication, (s.step external event).results = s.results ++ [.ok (some publication)] ∧
        (s.step external event).publisher.acknowledged = publication.byteCursor := by
  have next := step_valid valid event
  have now := valid.logs.acknowledgedAt_eq (Nat.le_refl _)
  have then' := next.logs.acknowledgedAt_eq (Nat.le_refl _)
  rw [← valid.logs.acknowledged] at now
  rw [← next.logs.acknowledged] at then'
  have unmoved (same : (s.step external event).publications = s.publications) :
      (s.step external event).publisher.acknowledged = s.publisher.acknowledged := by
    rw [← then', ← now, same]
  rcases step_returns external s event with same | ⟨result, grown⟩
  · exact .inl (unmoved (congrArg (List.filterMap publicationOf) same))
  · have grown' : (s.step external event).publications =
        s.publications ++ [result].filterMap publicationOf := by
      rw [Publishing.publications, grown, List.filterMap_append]
      rfl
    rcases result with e | _ | publication
    · exact .inl (unmoved (grown'.trans (List.append_nil _)))
    · exact .inl (unmoved (grown'.trans (List.append_nil _)))
    · refine .inr ⟨publication, grown, ?_⟩
      change _ = s.publications ++ [publication] at grown'
      rw [← then', grown', List.length_append, List.length_singleton, acknowledgedAt,
        List.getElem?_concat_length]
      rfl

theorem step_complete (valid : Valid external lifetime start pageBytes s)
    (complete : s.publisher.complete = true) (event : Event StreamKey EventId) :
    (s.step external event).attempts = s.attempts ∧
      (s.step external event).publisher.complete = true := by
  obtain ⟨idle, -⟩ := valid.complete complete
  cases event with
  | session step =>
    simp only [Publishing.step]
    split <;> exact ⟨rfl, complete⟩
  | call allocate =>
    simp only [Publishing.step, Publishing.publishNext, idle, complete, ne_eq, not_true_eq_false,
      if_false, if_true]
    exact ⟨rfl, complete⟩
  | poll waker =>
    simp only [Publishing.step, Publishing.poll, idle]
    exact ⟨trivial, complete⟩
  | resume allocate =>
    simp only [Publishing.step, Publishing.resume, idle]
    exact ⟨trivial, complete⟩
  | answer answer =>
    simp only [Publishing.step, Publishing.answered, idle, ne_eq, reduceCtorEq, not_false_eq_true,
      if_true]
    exact ⟨trivial, complete⟩
  | dropCall =>
    simp only [Publishing.step, Publishing.dropCall, idle]
    exact ⟨trivial, complete⟩

theorem run_complete (valid : Valid external lifetime start pageBytes s)
    (complete : s.publisher.complete = true) (events : List (Event StreamKey EventId)) :
    (s.run external events).attempts = s.attempts := by
  induction events generalizing s with
  | nil => rfl
  | cons event rest ih =>
    obtain ⟨same, still⟩ := step_complete valid complete event
    exact (ih (step_valid valid event) still).trans same

/-- Validated options bound the output pages. -/
theorem outputPageBytes_le {options : RuntimeOptions} (valid : options.validate = .ok ()) :
    options.outputPageBytes ≤ 65536 := by
  unfold RuntimeOptions.validate at valid
  split at valid
  · cases valid
  · rename_i bounds
    simp only [not_or] at bounds
    omega

/-- A publisher over any attachment of any session, in every run of calls, sink
answers, dropped calls and session activity: each source event is appended under
one identity, schema and payload that no other source event has, the next is read
after the acknowledgement, and the acknowledged events tile the stream. -/
theorem published_exactly_once (external : EventCrate EventId)
    (faithful : ∀ text text' id, external.eventId text = some id →
      external.eventId text' = some id → text = text')
    (options : RuntimeOptions) (lifetime : SessionLifetime) (replayBytes maxObservers : Nat)
    (observers replayQuota : Quota) (before : List Observed.Step) {watcher : Nat} {a : Attachment}
    (attached : ((Observed.new (.new lifetime replayBytes maxObservers options.outputPageBytes
      observers replayQuota)).run before).attachments.get? watcher = some a)
    (free : a.hand = none) (stream : StreamKey) (identity : Nat)
    (events : List (Event StreamKey EventId)) :
    let observed := (Observed.new (.new lifetime replayBytes maxObservers options.outputPageBytes
      observers replayQuota)).run before
    let s := (Publishing.new observed watcher a.cursor stream identity).run external events
    ExactlyOnce a.cursor s ∧
    (∀ event, (s.step external event).publisher.acknowledged = s.publisher.acknowledged ∨
      ∃ publication, (s.step external event).results = s.results ++ [.ok (some publication)] ∧
        (s.step external event).publisher.acknowledged = publication.byteCursor) ∧
    (∀ publication ∈ s.publications, publication.complete = true →
      ∀ later, (s.run external later).attempts = s.attempts) ∧
    (options.validate = .ok () → ∀ k t, s.sources[k]? = some t → ∀ allocate e,
      encode allocate (acknowledgedAt a.cursor s.publications k) t.event = .error e →
        e = .capacity ∧ ∃ size, allocate size = false) := by
  intro observed s
  have session := Observed.run_valid (Observed.new_valid lifetime replayBytes maxObservers
    options.outputPageBytes observers replayQuota) before
  have fresh : Valid external lifetime a.cursor _ (Publishing.new observed watcher a.cursor stream identity) :=
    new_valid session attached free stream identity
  have valid := run_valid fresh events
  refine ⟨valid.exactlyOnce faithful, step_acknowledged valid, ?_, ?_⟩
  · intro publication member complete later
    exact run_complete valid (valid.logs.ended publication member complete) later
  · intro accepted k t found allocate e failed
    refine valid.encodes ?_ found failed
    rw [Observed.run_pageBytes]
    exact outputPageBytes_le accepted

end

/-- A page whose first append is uncertain is appended again and acknowledged. -/
theorem published_exactly_once_retried :
    let start : ReplayCursor := ⟨⟨1, 1⟩, 0⟩
    let external : EventCrate String := ⟨some, fun _ => true, 1⟩
    let observed := (Observed.new (.new ⟨1, 1⟩ 4096 4 16384 ⟨4, 0⟩ ⟨8192, 0⟩)).run
      [.register, .attach 0 .oldest]
    let event : NewEvent String := ⟨eventIdText ⟨1, 1⟩ 7 1, ⟨SCHEMA, VERSION⟩,
      encodeHeader 1 start ⟨⟨1, 1⟩, 2⟩ ++ [104, 105]⟩
    let s := (Publishing.new observed 0 start "s" 7).run external
      [.session (.output [104, 105] .unprojected (some 4096)), .call fun _ => true, .poll 0,
        .resume fun _ => true, .answer (.error .commitUnknown), .call fun _ => true,
        .answer (.ok ⟨⟨"s", 1, 5⟩, event⟩)]
    ExactlyOnce start s ∧ s.attempts = [(1, event), (1, event)] ∧
      s.publisher.acknowledged = ⟨⟨1, 1⟩, 2⟩ :=
  ⟨(published_exactly_once ⟨some, fun _ => true, 1⟩
      (fun _ _ _ named named' => Option.some.inj (named.trans named'.symm)) {} ⟨1, 1⟩ 4096 4 ⟨4, 0⟩
      ⟨8192, 0⟩ [.register, .attach 0 .oldest] (a := ⟨⟨⟨1, 1⟩, 0⟩, ⟨⟨1, 1⟩, 0⟩, none, []⟩)
      (by decide +kernel) rfl "s" 7 _).1, by decide +kernel, by decide +kernel⟩

end PtyRuntime.EventStream
