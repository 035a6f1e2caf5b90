import PtyRuntime.Application.AttachmentOwner
import PtyRuntime.Infrastructure.EventStream.CodecLaws
import PtyRuntime.Infrastructure.EventStream.Publisher

/-! Publication is exactly once for each source event, whatever the sink answers
and wherever calls are dropped. The pending slot keeps the event the attachment
has moved past, and the identity of an event is its number. -/
namespace PtyRuntime.EventStream

/-- One publisher's identities differ in their sequence numbers. -/
theorem eventIdText_injective {lifetime : SessionLifetime} {identity m n : Nat} (low : m ≤ u64Max)
    (high : n ≤ u64Max) (same : eventIdText lifetime identity m = eventIdText lifetime identity n) :
    m = n := by
  have width : 16 ^ 16 = u64Max + 1 := by decide
  have texts := List.append_cancel_left (String.ofList_injective same)
  exact hex_injective (by omega) (by omega) texts

theorem encode_granted {allocate : Nat → Bool} {start next : ReplayCursor} {event : OutputEvent}
    {payload : Bytes} {complete : Bool}
    (encoded : encode allocate start event = .ok (payload, next, complete)) :
    encode (fun _ => true) start event = .ok (payload, next, complete) := by
  obtain ⟨⟨publishes, -⟩, rest⟩ := encode_eq_ok.mp encoded
  exact encode_eq_ok.mpr ⟨⟨publishes, rfl⟩, rest⟩

/-- Encoding ends where the attachment's own cursor went. -/
theorem encode_after {allocate : Nat → Bool} {start next : ReplayCursor} {event : OutputEvent}
    {payload : Bytes} {complete : Bool}
    (encoded : encode allocate start event = .ok (payload, next, complete)) :
    next = Attachment.advance start event := by
  obtain ⟨⟨publishes, -⟩, -⟩ := encode_eq_ok.mp encoded
  cases publishes <;> rfl

/-- A sound event at its cursor has an encoding. -/
theorem publishes_of_sound {pageBytes : Nat} {stream : Bytes} {cursor : ReplayCursor} {t : Taken}
    (sound : t.Sound pageBytes) (small : pageBytes ≤ 65536) (piece : Piece stream cursor t) :
    Publishes cursor t.event (Attachment.advance cursor t.event) := by
  unfold Piece at piece
  split at piece
  · rename_i start stop event
    obtain ⟨rfl, rfl, forward, -⟩ := piece
    rw [event]
    exact .gap rfl forward
  · rename_i start next payload event
    obtain ⟨rfl, rfl, filled, -, -⟩ := piece
    rw [event]
    exact .page rfl (List.length_pos_of_ne_nil filled)
      (Nat.le_trans (sound.page _ _ _ event) small) rfl
  · exact piece.elim
  · rename_i completion event
    rw [event]
    exact .completion (sound.finished completion event)

theorem encode_error {allocate : Nat → Bool} {start next : ReplayCursor} {event : OutputEvent}
    {e : PublicationError} (publishes : Publishes start event next)
    (failed : encode allocate start event = .error e) :
    e = .capacity ∧ allocate (37 + bodySize event) = false := by
  unfold encode at failed
  rw [layout_eq.mpr ⟨publishes, rfl, rfl⟩] at failed
  dsimp only at failed
  split at failed
  · cases failed
  · rename_i refused
    cases failed
    exact ⟨rfl, Bool.eq_false_iff.mpr refused⟩

/-- The event `event` is what an append of source number `k + 1` carries, and
`after` and `complete` are what its acknowledgement reports. -/
structure Carries {EventId : Type} (external : EventCrate EventId) (start : ReplayCursor)
    (identity : Nat) (sources : List Taken) (k : Nat) (event : NewEvent EventId)
    (after : ReplayCursor) (complete : Bool) : Prop where
  encoded : ∃ t, sources[k]? = some t ∧
    encode (fun _ => true) (position start (sources.take k)) t.event =
      .ok (event.payload, after, complete)
  id : external.eventId (eventIdText start.lifetime identity (k + 1)) = some event.id
  numbered : k + 1 ≤ u64Max
  schema : event.schema = ⟨SCHEMA, VERSION⟩

section

variable {StreamKey EventId : Type} {external : EventCrate EventId} {start : ReplayCursor}
  {identity : Nat} {sources : List Taken}

theorem Carries.unique {k : Nat} {event event' : NewEvent EventId} {after after' : ReplayCursor}
    {complete complete' : Bool} (first : Carries external start identity sources k event after complete)
    (second : Carries external start identity sources k event' after' complete') :
    event = event' ∧ after = after' ∧ complete = complete' := by
  obtain ⟨t, found, encoded⟩ := first.encoded
  obtain ⟨t', found', encoded'⟩ := second.encoded
  obtain rfl : t = t' := Option.some.inj (found.symm.trans found')
  have same := Except.ok.inj (encoded.symm.trans encoded')
  simp only [Prod.mk.injEq] at same
  obtain ⟨payload, after, complete⟩ := same
  have id := Option.some.inj (first.id.symm.trans second.id)
  obtain ⟨_, _, _⟩ := event
  obtain ⟨_, _, _⟩ := event'
  have schema := first.schema.trans second.schema.symm
  dsimp only at payload id schema
  subst payload id schema
  exact ⟨rfl, after, complete⟩

theorem Carries.lt {k : Nat} {event : NewEvent EventId} {after : ReplayCursor} {complete : Bool}
    (carries : Carries external start identity sources k event after complete) :
    k < sources.length := by
  obtain ⟨t, found, -⟩ := carries.encoded
  exact (List.getElem?_eq_some_iff.mp found).1

theorem Carries.grow {k : Nat} {event : NewEvent EventId} {after : ReplayCursor} {complete : Bool}
    (carries : Carries external start identity sources k event after complete) (more : List Taken) :
    Carries external start identity (sources ++ more) k event after complete := by
  have inside := carries.lt
  obtain ⟨⟨t, found, encoded⟩, id, numbered, schema⟩ := carries
  refine ⟨⟨t, ?_, ?_⟩, id, numbered, schema⟩
  · rw [List.getElem?_append_left inside]
    exact found
  · rw [List.take_append_of_le_length inside.le]
    exact encoded

/-- The acknowledged position after a publication. -/
theorem Carries.position {k : Nat} {event : NewEvent EventId} {after : ReplayCursor} {complete : Bool}
    (carries : Carries external start identity sources k event after complete) :
    after = position start (sources.take (k + 1)) := by
  obtain ⟨t, found, encoded⟩ := carries.encoded
  rw [encode_after encoded, List.take_add_one, found, Option.toList_some, position_snoc]

/-- The publications among the results of the calls. -/
def publicationOf : Except PublicationError (Option (Publication StreamKey)) →
    Option (Publication StreamKey)
  | .ok publication => publication
  | .error _ => none

def Publishing.publications (s : Publishing StreamKey EventId) : List (Publication StreamKey) :=
  s.results.filterMap publicationOf

/-- What the logs say about each other, the publisher and the session's stream. -/
structure Logs (external : EventCrate EventId) (start : ReplayCursor) (pageBytes : Nat)
    (stream : Bytes) (p : EventStreamPublisher StreamKey EventId) (sources : List Taken)
    (attempts : List (Nat × NewEvent EventId)) (publications : List (Publication StreamKey)) :
    Prop where
  tiles : Tiles stream start sources (position start sources)
  sound : ∀ t ∈ sources, t.Sound pageBytes
  acknowledged : p.acknowledged = position start (sources.take publications.length)
  attempted : ∀ number event, (number, event) ∈ attempts → ∃ k after complete, number = k + 1 ∧
    Carries external start p.identity sources k event after complete
  published : ∀ k publication, publications[k]? = some publication → ∃ event,
    (k + 1, event) ∈ attempts ∧ Carries external start p.identity sources k event
      publication.byteCursor publication.complete
  ordered : (publications.map (·.eventCursor.offset)).Pairwise (· < ·)
  bounded : ∀ publication ∈ publications, 0 < publication.eventCursor.offset ∧
    publication.eventCursor.offset ≤ p.lastEventOffset
  ended : ∀ publication ∈ publications, publication.complete = true → p.complete = true

variable {pageBytes : Nat} {stream : Bytes} {p : EventStreamPublisher StreamKey EventId}
  {attempts : List (Nat × NewEvent EventId)} {publications : List (Publication StreamKey)}

theorem Logs.extend (logs : Logs external start pageBytes stream p sources attempts publications)
    (more : Bytes) :
    Logs external start pageBytes (stream ++ more) p sources attempts publications :=
  { logs with tiles := logs.tiles.extend more }

/-- The publisher may read on while everything read is acknowledged. -/
theorem Logs.read (logs : Logs external start pageBytes stream p sources attempts publications)
    {t : Taken} (piece : Piece stream (position start sources) t) (sound : t.Sound pageBytes)
    (level : sources.length = publications.length) :
    Logs external start pageBytes stream p (sources ++ [t]) attempts publications where
  tiles := by
    rw [position_snoc]
    exact logs.tiles.snoc piece
  sound := by
    intro u member
    rcases List.mem_append.mp member with old | new
    · exact logs.sound u old
    · rwa [List.mem_singleton.mp new]
  acknowledged := by
    rw [logs.acknowledged, ← level, List.take_left, List.take_length]
  attempted := by
    intro number event attempt
    obtain ⟨k, after, complete, number, carries⟩ := logs.attempted number event attempt
    exact ⟨k, after, complete, number, carries.grow [t]⟩
  published := by
    intro k publication found
    obtain ⟨event, attempt, carries⟩ := logs.published k publication found
    exact ⟨event, attempt, carries.grow [t]⟩
  ordered := logs.ordered
  bounded := logs.bounded
  ended := logs.ended

theorem Logs.attempt (logs : Logs external start pageBytes stream p sources attempts publications)
    {k : Nat} {event : NewEvent EventId} {after : ReplayCursor} {complete : Bool}
    (carries : Carries external start p.identity sources k event after complete) :
    Logs external start pageBytes stream p sources (attempts ++ [(k + 1, event)]) publications :=
  { logs with
    attempted := by
      intro number other member
      rcases List.mem_append.mp member with old | new
      · exact logs.attempted number other old
      · obtain ⟨rfl, rfl⟩ := Prod.mk.inj (List.mem_singleton.mp new)
        exact ⟨k, after, complete, rfl, carries⟩
    published := by
      intro k publication found
      obtain ⟨event, attempt, carries⟩ := logs.published k publication found
      exact ⟨event, List.mem_append_left _ attempt, carries⟩ }

/-- A receipt for the pending event, of an offset beyond all before it. -/
theorem Logs.acknowledge
    (logs : Logs external start pageBytes stream p sources attempts publications)
    {event : NewEvent EventId} (publication : Publication StreamKey)
    (attempt : (publications.length + 1, event) ∈ attempts)
    (carries : Carries external start p.identity sources publications.length event
      publication.byteCursor publication.complete)
    (beyond : p.lastEventOffset < publication.eventCursor.offset) (running : p.complete = false) :
    Logs external start pageBytes stream
      { p with
        lastEventOffset := publication.eventCursor.offset
        acknowledged := publication.byteCursor
        complete := publication.complete
        pending := none }
      sources attempts (publications ++ [publication]) where
  tiles := logs.tiles
  sound := logs.sound
  acknowledged := by
    rw [List.length_append, List.length_singleton]
    exact carries.position
  attempted := logs.attempted
  published := by
    intro k other found
    rcases Nat.lt_or_ge k publications.length with inside | outside
    · rw [List.getElem?_append_left inside] at found
      exact logs.published k other found
    · have last : k < (publications ++ [publication]).length := (List.getElem?_eq_some_iff.mp found).1
      rw [List.length_append, List.length_singleton] at last
      obtain rfl : k = publications.length := by omega
      rw [List.getElem?_concat_length] at found
      obtain rfl := Option.some.inj found
      exact ⟨event, attempt, carries⟩
  ordered := by
    rw [List.map_append, List.pairwise_append]
    refine ⟨logs.ordered, List.pairwise_singleton .., ?_⟩
    intro offset old other new
    obtain ⟨before, member, rfl⟩ := List.mem_map.mp old
    obtain rfl := List.mem_singleton.mp new
    exact Nat.lt_of_le_of_lt (logs.bounded before member).2 beyond
  bounded := by
    intro other member
    rcases List.mem_append.mp member with old | new
    · have before := logs.bounded other old
      exact ⟨before.1, Nat.le_trans before.2 (Nat.le_of_lt beyond)⟩
    · obtain rfl := List.mem_singleton.mp new
      exact ⟨Nat.zero_lt_of_lt beyond, Nat.le_refl _⟩
  ended := by
    intro other member complete
    rcases List.mem_append.mp member with old | new
    · exact absurd (logs.ended other old complete) (by rw [running]; decide)
    · obtain rfl := List.mem_singleton.mp new
      exact complete

/-- How far the publisher is with the event it waits for or holds. -/
inductive Stage (external : EventCrate EventId) (start : ReplayCursor)
    (p : EventStreamPublisher StreamKey EventId) (sources : List Taken)
    (attempts : List (Nat × NewEvent EventId)) (published : Nat) (a : Attachment) : Call → Prop
  | idle (pending : p.pending = none) (level : sources.length = published)
      (sequence : p.sequence = published) (free : a.hand = none) :
      Stage external start p sources attempts published a .idle
  | reading (pending : p.pending = none) (level : sources.length = published)
      (sequence : p.sequence = published) (running : p.complete = false) :
      Stage external start p sources attempts published a (.reading a.cursor)
  | holding {t : Taken}
      (pending : p.pending =
        some (.source { start := position start (sources.take published), event := t.event }))
      (last : sources[published]? = some t) (one : sources.length = published + 1)
      (sequence : p.sequence = published) (running : p.complete = false) (free : a.hand = none) :
      Stage external start p sources attempts published a .idle
  | prepared {prepared : Prepared EventId} {call : Call} (pending : p.pending = some (.prepared prepared))
      (one : sources.length = published + 1) (sequence : p.sequence = published + 1)
      (carries : Carries external start p.identity sources published prepared.event prepared.after
        prepared.complete)
      (running : p.complete = false) (free : a.hand = none)
      (waiting : call = .idle ∨ call = .appending ∧ (published + 1, prepared.event) ∈ attempts) :
      Stage external start p sources attempts published a call

/-- The publisher's own attachment has read exactly the logged events. -/
structure Owned (external : EventCrate EventId) (start : ReplayCursor) (pageBytes : Nat)
    (s : Publishing StreamKey EventId) (a : Attachment) : Prop where
  cursor : a.cursor = position start s.sources
  hand : ∀ t, a.hand = some t → t.Sound pageBytes
  stage : Stage external start s.publisher s.sources s.attempts s.publications.length a s.call

structure Valid (external : EventCrate EventId) (lifetime : SessionLifetime) (start : ReplayCursor)
    (pageBytes : Nat) (s : Publishing StreamKey EventId) : Prop where
  session : s.observed.Valid lifetime
  page : s.observed.context.pageBytes = pageBytes
  logs : Logs external start pageBytes s.observed.stream s.publisher s.sources s.attempts
    s.publications
  own : ∃ a, s.observed.attachments.get? s.watcher = some a ∧ Owned external start pageBytes s a

variable {lifetime : SessionLifetime} {s : Publishing StreamKey EventId}

theorem publications_finish (s : Publishing StreamKey EventId)
    (result : Except PublicationError (Option (Publication StreamKey))) :
    (s.finish result).publications = s.publications ++ (publicationOf result).toList := by
  unfold Publishing.publications Publishing.finish
  rw [List.filterMap_append]
  cases h : publicationOf result with
  | none => rw [List.filterMap_cons_none h]; rfl
  | some publication => rw [List.filterMap_cons_some h]; rfl

/-- Preparing a source either changes nothing or fixes the event to append. -/
theorem prepare_source (external : EventCrate EventId) (allocate : Nat → Bool) {source : Source}
    (pending : p.pending = some (.source source)) :
    (∃ e, p.prepare external allocate = (.error e, p)) ∨
    ∃ (event : NewEvent EventId) (after : ReplayCursor) (complete : Bool),
      p.sequence + 1 ≤ u64Max ∧
      encode allocate source.start source.event = .ok (event.payload, after, complete) ∧
      external.eventId (eventIdText source.start.lifetime p.identity (p.sequence + 1)) =
        some event.id ∧
      event.schema = ⟨SCHEMA, VERSION⟩ ∧
      p.prepare external allocate = (.ok (), { p with
        pending := some (.prepared { event, after, complete })
        sequence := p.sequence + 1 }) := by
  unfold EventStreamPublisher.prepare
  rw [pending]
  dsimp only
  cases next : checkedAdd p.sequence 1 with
  | none => exact .inl ⟨_, rfl⟩
  | some sequence =>
    obtain ⟨room, rfl⟩ := checkedAdd_eq_some.mp next
    cases encoded : encode allocate source.start source.event with
    | error e => exact .inl ⟨_, rfl⟩
    | ok outcome =>
      obtain ⟨payload, after, complete⟩ := outcome
      dsimp only
      cases named : external.eventId (eventIdText source.start.lifetime p.identity (p.sequence + 1)) with
      | none => exact .inl ⟨_, rfl⟩
      | some id =>
        by_cases accepted : external.acceptsSchema SCHEMA = true
        · refine .inr ⟨⟨id, ⟨SCHEMA, VERSION⟩, payload⟩, after, complete, room, rfl, rfl, rfl, ?_⟩
          simp only [schema, accepted, if_true]
        · simp only [schema, accepted, Bool.false_eq_true, if_false]
          exact .inl ⟨_, rfl⟩

theorem prepare_prepared {allocate : Nat → Bool} {prepared : Prepared EventId}
    (pending : p.pending = some (.prepared prepared)) :
    p.prepare external allocate = (.ok (), p) := by
  unfold EventStreamPublisher.prepare
  rw [pending]

/-- The acknowledged position after the first publications. -/
def acknowledgedAt (start : ReplayCursor) (publications : List (Publication StreamKey)) :
    Nat → ReplayCursor
  | 0 => start
  | k + 1 => (publications[k]?.map (·.byteCursor)).getD start

theorem Logs.acknowledgedAt_eq
    (logs : Logs external start pageBytes stream p sources attempts publications) {k : Nat}
    (within : k ≤ publications.length) :
    acknowledgedAt start publications k = position start (sources.take k) := by
  cases k with
  | zero => rfl
  | succ k =>
    have found := List.getElem?_eq_getElem (Nat.lt_of_succ_le within)
    obtain ⟨event, -, carries⟩ := logs.published k _ found
    rw [acknowledgedAt, found]
    exact carries.position

/-- What all sinks and all cancellations leave true of a publisher that started at
`start`. An append is numbered by the events read when it was made. -/
structure ExactlyOnce (start : ReplayCursor) (s : Publishing StreamKey EventId) : Prop where
  same : ∀ number event event', (number, event) ∈ s.attempts → (number, event') ∈ s.attempts →
    event = event'
  distinct : ∀ number number' event event', (number, event) ∈ s.attempts →
    (number', event') ∈ s.attempts → event.id = event'.id → number = number'
  inTurn : s.publications.length ≤ s.sources.length ∧
    s.sources.length ≤ s.publications.length + 1
  attempted : ∀ number event, (number, event) ∈ s.attempts → ∃ k t after complete,
    number = k + 1 ∧ s.sources[k]? = some t ∧ event.schema = ⟨SCHEMA, VERSION⟩ ∧
    encode (fun _ => true) (acknowledgedAt start s.publications k) t.event =
      .ok (event.payload, after, complete)
  published : ∀ k publication, s.publications[k]? = some publication → ∃ t event,
    s.sources[k]? = some t ∧ (k + 1, event) ∈ s.attempts ∧
    encode (fun _ => true) (acknowledgedAt start s.publications k) t.event =
      .ok (event.payload, publication.byteCursor, publication.complete)
  acknowledged : s.publisher.acknowledged =
    acknowledgedAt start s.publications s.publications.length
  tiles : Tiles s.observed.stream start (s.sources.take s.publications.length)
    s.publisher.acknowledged
  offsets : (s.publications.map (·.eventCursor.offset)).Pairwise (· < ·)

theorem Valid.inTurn (valid : Valid external lifetime start pageBytes s) :
    s.publications.length ≤ s.sources.length ∧ s.sources.length ≤ s.publications.length + 1 := by
  obtain ⟨a, -, -, -, stage⟩ := valid.own
  generalize s.call = call at stage
  cases stage <;> omega

theorem Valid.exactlyOnce (valid : Valid external lifetime start pageBytes s)
    (faithful : ∀ text text' id, external.eventId text = some id →
      external.eventId text' = some id → text = text') : ExactlyOnce start s where
  same number event event' attempt attempt' := by
    obtain ⟨k, _, _, rfl, carries⟩ := valid.logs.attempted number event attempt
    obtain ⟨k', _, _, number, carries'⟩ := valid.logs.attempted _ event' attempt'
    obtain rfl : k = k' := Nat.succ.inj number
    exact (carries.unique carries').1
  distinct number number' event event' attempt attempt' same := by
    obtain ⟨k, _, _, rfl, carries⟩ := valid.logs.attempted number event attempt
    obtain ⟨k', _, _, rfl, carries'⟩ := valid.logs.attempted number' event' attempt'
    have texts := faithful _ _ _ carries.id (same ▸ carries'.id)
    exact eventIdText_injective carries.numbered carries'.numbered texts
  inTurn := valid.inTurn
  attempted number event attempt := by
    obtain ⟨k, after, complete, rfl, carries⟩ := valid.logs.attempted number event attempt
    obtain ⟨t, found, encoded⟩ := carries.encoded
    have within : k ≤ s.publications.length := by
      have := carries.lt
      have := valid.inTurn
      omega
    refine ⟨k, t, after, complete, rfl, found, carries.schema, ?_⟩
    rw [valid.logs.acknowledgedAt_eq within]
    exact encoded
  published k publication found := by
    obtain ⟨event, attempt, carries⟩ := valid.logs.published k publication found
    obtain ⟨t, read, encoded⟩ := carries.encoded
    refine ⟨t, event, read, attempt, ?_⟩
    rw [valid.logs.acknowledgedAt_eq (List.getElem?_eq_some_iff.mp found).1.le]
    exact encoded
  acknowledged := by
    rw [valid.logs.acknowledgedAt_eq (Nat.le_refl _)]
    exact valid.logs.acknowledged
  tiles := by
    rw [valid.logs.acknowledged]
    exact valid.logs.tiles.take _
  offsets := valid.logs.ordered

/-- Every event read has an encoding when pages are small. -/
theorem Valid.encodes (valid : Valid external lifetime start pageBytes s)
    (small : pageBytes ≤ 65536) {k : Nat} {t : Taken} (found : s.sources[k]? = some t)
    {allocate : Nat → Bool} {e : PublicationError}
    (failed : encode allocate (acknowledgedAt start s.publications k) t.event = .error e) :
    e = .capacity ∧ ∃ size, allocate size = false := by
  have within : k ≤ s.publications.length := by
    have := (List.getElem?_eq_some_iff.mp found).1
    have := valid.inTurn
    omega
  rw [valid.logs.acknowledgedAt_eq within] at failed
  have sound := valid.logs.sound t (List.mem_of_getElem? found)
  have publishes := publishes_of_sound sound small (valid.logs.tiles.piece found)
  obtain ⟨capacity, refused⟩ := encode_error publishes failed
  exact ⟨capacity, _, refused⟩

/-- A complete publisher has nothing pending and no call that waits. -/
theorem Valid.complete (valid : Valid external lifetime start pageBytes s)
    (complete : s.publisher.complete = true) : s.call = .idle ∧ s.publisher.pending = none := by
  obtain ⟨a, -, -, -, stage⟩ := valid.own
  generalize s.call = call at stage
  cases stage with
  | idle pending => exact ⟨rfl, pending⟩
  | reading pending level sequence running => rw [complete] at running; cases running
  | holding pending last one sequence running => rw [complete] at running; cases running
  | prepared pending one sequence carries running => rw [complete] at running; cases running

theorem new_valid {observed : Observed} (session : observed.Valid lifetime) {watcher : Nat}
    {a : Attachment} (attached : observed.attachments.get? watcher = some a) (free : a.hand = none)
    (stream : StreamKey) (identity : Nat) :
    Valid external lifetime a.cursor observed.context.pageBytes
      (Publishing.new observed watcher a.cursor stream identity : Publishing StreamKey EventId) where
  session := session
  page := rfl
  logs := {
    tiles := rfl
    sound := fun t member => by cases member
    acknowledged := rfl
    attempted := fun number event attempt => by cases attempt
    published := fun k publication found => by cases found
    ordered := .nil
    bounded := fun publication member => by cases member
    ended := fun publication member => by cases member }
  own := ⟨a, attached, rfl, (fun t held => by rw [free] at held; cases held), .idle rfl rfl rfl free⟩

end
end PtyRuntime.EventStream
