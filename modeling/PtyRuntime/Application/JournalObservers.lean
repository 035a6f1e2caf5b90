import PtyRuntime.Application.JournalLaws

/-! Runs of a journal with any number of observers. Each observer continues at
the boundary of the last event it received; whatever the other calls on the
journal, it walks the history of successful mutations from its own start. -/
namespace PtyRuntime.Journal

/-- An observer that reads on from each event it receives. `seen` is the history
when it was opened. -/
structure Follower where
  observer : TransferObserver
  seen : List Record
  cursor : TransferCursor
  received : List Record

/-- The journal, the successful mutations so far and the observers opened on it. -/
structure World where
  journal : Journal
  history : List Record
  followers : List Follower

/-- Everything that can happen to a journal. `follow` is a read by an opened
observer at its own cursor; `read` is any other, with any cursors. -/
inductive Step where
  | openObserver
  | follow (index : Nat) (waker : Option Waker)
  | read (id : Nat) (start cursor : TransferCursor) (waker : Option Waker)
  | cancelWait (id : Nat)
  | remove (id : Nat)
  | output (leases : Nat → Bool) (bytes : Bytes) (processed : ReplayCursor)
  | resized (leases : Nat → Bool) (size : TerminalSize) (generation : ControlGeneration)
  | finish (drain : Option DrainOutcome) (failure : Option ProjectionError)
  | close

namespace World

def new (lifetime : SessionLifetime) : World := ⟨.new lifetime, [], []⟩

/-- The follower after a read of its own: only an event moves it. -/
def advanceFollower (f : Follower) : Except TransferError TransferRead → Follower
  | .ok (.event record) =>
    { f with cursor := record.after.cursor, received := f.received ++ [record] }
  | _ => f

def step (w : World) : Step → World
  | .openObserver =>
    match w.journal.openObserver with
    | (.error _, journal) => { w with journal }
    | (.ok observer, journal) =>
      { w with
        journal
        followers := w.followers ++
          [{ observer, seen := w.history, cursor := observer.start.cursor, received := [] }] }
  | .follow index waker =>
    match w.followers[index]? with
    | none => w
    | some f =>
      let (result, journal) :=
        w.journal.read f.observer.id f.observer.start.cursor f.cursor waker
      { w with journal, followers := w.followers.set index (advanceFollower f result) }
  | .read id start cursor waker => { w with journal := (w.journal.read id start cursor waker).2 }
  | .cancelWait id => { w with journal := w.journal.cancelWait id }
  | .remove id => { w with journal := w.journal.remove id }
  | .output leases bytes processed =>
    { w with
      journal := (w.journal.output leases bytes processed).2
      history := w.history ++ w.journal.mutation (.output bytes) (some processed) }
  | .resized leases size generation =>
    { w with
      journal := (w.journal.resized leases size generation).2
      history := w.history ++ w.journal.mutation (.resize size generation) none }
  | .finish drain failure => { w with journal := (w.journal.finish drain failure).2 }
  | .close => { w with journal := w.journal.close.2 }

def run (w : World) (steps : List Step) : World := steps.foldl step w

/-- A follower has received the mutations that follow its boundary, up to its cursor. -/
structure Follows (lifetime : SessionLifetime) (history : List Record) (f : Follower) : Prop where
  start : f.observer.start.cursor = ⟨lifetime, f.seen.length⟩
  cursor : f.cursor = ⟨lifetime, (f.seen ++ f.received).length⟩
  received : f.seen ++ f.received <+: history

structure Valid (lifetime : SessionLifetime) (w : World) : Prop where
  tracks : w.journal.Tracks lifetime w.history
  follows : ∀ f ∈ w.followers, Follows lifetime w.history f

theorem new_valid (lifetime : SessionLifetime) : (new lifetime).Valid lifetime where
  tracks := new_tracks lifetime
  follows := by
    intro f member
    cases member

theorem Follows.extend {lifetime : SessionLifetime} {history : List Record} {f : Follower}
    (follows : Follows lifetime history f) (more : List Record) :
    Follows lifetime (history ++ more) f :=
  ⟨follows.start, follows.cursor, follows.received.trans (List.prefix_append history more)⟩

/-- The wakers a read takes and registers do not change what it returns. -/
theorem read_result (j : Journal) (id : Nat) (start cursor : TransferCursor)
    (waker : Option Waker) : (j.read id start cursor waker).1 = j.readResult id start cursor := by
  have same : (j.takeWaker id).readResult id start cursor = j.readResult id start cursor := by
    simp only [readResult, takeWaker, SortedMap.get?_mapValues, Option.isNone_map]
    rfl
  simp only [read, same]
  split
  · rename_i pending
    exact pending.symm
  · rfl

/-- What a read by a follower at its own cursor may return. -/
def Delivers (w : World) (f : Follower) : Except TransferError TransferRead → Prop
  | .ok (.event record) =>
    f.seen ++ f.received ++ [record] <+: w.history ∧
      record.after.cursor = { f.cursor with sequence := f.cursor.sequence + 1 }
  | .ok .pending => f.seen ++ f.received = w.history ∧ w.journal.order.sealed = none
  | .ok (.sealedEnd sealed) =>
    f.seen ++ f.received = w.history ∧ w.journal.order.sealed = some sealed ∧
      sealed.boundary.cursor = f.cursor
  | .error (.resyncRequired oldest) =>
    f.cursor.sequence < w.journal.order.oldest ∧
      oldest = { f.cursor with sequence := w.journal.order.oldest }
  | .error .closed =>
    w.journal.order.closed ∨ w.journal.observers.get? f.observer.id = none
  | .error .unavailable => w.journal.order.unavailable
  | .error .foreignLifetime => False
  | .error .futureCursor => False

theorem prefix_getElem? {first rest : List Record} {record : Record} (within : first <+: rest)
    (next : rest[first.length]? = some record) : first ++ [record] <+: rest := by
  obtain ⟨tail, rfl⟩ := within
  rw [List.getElem?_append_right (Nat.le_refl _), Nat.sub_self] at next
  cases tail with
  | nil => cases next
  | cons head tail =>
    obtain rfl := Option.some.inj next
    exact ⟨tail, by simp⟩

/-- The verdict of the order on a follower's cursor. -/
theorem validate_follower {lifetime : SessionLifetime} {w : World} {f : Follower}
    (tracks : w.journal.Tracks lifetime w.history) (follows : Follows lifetime w.history f)
    {e : TransferError} (refused : w.journal.order.validate f.cursor = .error e) :
    w.Delivers f (.error e) := by
  have known : w.journal.order.validateIdentity f.cursor = .ok () := by
    rw [TransferOrder.validateIdentity_ok, follows.cursor, tracks.boundary]
    exact ⟨rfl, follows.received.length_le⟩
  unfold TransferOrder.validate at refused
  split at refused
  · rename_i unreadable
    obtain rfl := Except.error.inj refused
    unfold TransferOrder.requireReadable at unreadable
    split at unreadable
    · rename_i closed
      obtain rfl := Except.error.inj unreadable
      exact .inl closed
    · split at unreadable
      · rename_i unavailable
        obtain rfl := Except.error.inj unreadable
        exact unavailable
      · cases unreadable
  · rw [known] at refused
    simp only at refused
    split at refused
    · rename_i behind
      obtain rfl := Except.error.inj refused
      refine ⟨behind, ?_⟩
      rw [tracks.boundary, follows.cursor]
    · cases refused

theorem readResult_delivers {lifetime : SessionLifetime} {w : World} {f : Follower}
    (tracks : w.journal.Tracks lifetime w.history) (follows : Follows lifetime w.history f) :
    w.Delivers f (w.journal.readResult f.observer.id f.observer.start.cursor f.cursor) := by
  unfold readResult
  split
  · rename_i gone
    exact .inr (Option.isNone_iff_eq_none.mp gone)
  · split
    · rename_i refused
      exact validate_follower tracks follows refused
    · rename_i valid
      obtain ⟨here, atBoundary⟩ := tracks.next valid
      have forward : ¬ f.cursor.sequence < f.observer.start.cursor.sequence := by
        rw [follows.cursor, follows.start, List.length_append]
        exact Nat.not_lt.mpr (Nat.le_add_right _ _)
      rw [if_neg forward]
      split
      · rename_i record found
        rw [found] at here
        refine ⟨prefix_getElem? follows.received ?_, ?_⟩
        · rw [here, follows.cursor]
        · rw [tracks.numbered _ _ here.symm, follows.cursor]
      · rename_i absent
        have reached := atBoundary absent
        have complete : f.seen ++ f.received = w.history := by
          apply follows.received.eq_of_length
          rw [follows.cursor, tracks.boundary] at reached
          exact (TransferCursor.mk.inj reached).2
        rw [if_pos reached]
        split
        · rename_i unsealed
          exact ⟨complete, unsealed⟩
        · rename_i sealed found
          exact ⟨complete, found, by rw [tracks.sealed sealed found, reached]⟩

theorem advanceFollower_follows {lifetime : SessionLifetime} {w : World} {f : Follower}
    (follows : Follows lifetime w.history f) {result : Except TransferError TransferRead}
    (delivers : w.Delivers f result) : Follows lifetime w.history (advanceFollower f result) := by
  unfold advanceFollower
  split
  · rename_i record
    obtain ⟨within, next⟩ := delivers
    refine ⟨follows.start, ?_, ?_⟩
    · rw [next, follows.cursor]
      simp [Nat.add_assoc]
    · simpa using within
  · exact follows

theorem step_valid {lifetime : SessionLifetime} {w : World} (valid : w.Valid lifetime)
    (event : Step) : (w.step event).Valid lifetime := by
  obtain ⟨tracks, follows⟩ := valid
  cases event with
  | openObserver =>
    have kept := openObserver_tracks tracks
    simp only [step]
    split
    · rename_i e journal refused
      rw [refused] at kept
      exact ⟨kept, follows⟩
    · rename_i observer journal opened
      rw [opened] at kept
      refine ⟨kept, ?_⟩
      intro f member
      rcases List.mem_append.mp member with before | added
      · exact follows f before
      · obtain rfl := List.mem_singleton.mp added
        have start : observer.start.cursor = ⟨lifetime, w.history.length⟩ := by
          rw [openObserver_start opened, tracks.boundary]
        exact ⟨start, by simpa using start, by simp⟩
  | follow index waker =>
    simp only [step]
    split
    · exact ⟨tracks, follows⟩
    · rename_i f found
      refine ⟨read_tracks tracks .., ?_⟩
      intro g member
      rcases List.mem_or_eq_of_mem_set member with other | rfl
      · exact follows g other
      · have mine := follows f (List.mem_of_getElem? found)
        rw [read_result]
        exact advanceFollower_follows mine (readResult_delivers tracks mine)
  | read id start cursor waker => exact ⟨read_tracks tracks .., follows⟩
  | cancelWait id => exact ⟨takeWaker_tracks tracks id, follows⟩
  | remove id => exact ⟨remove_tracks tracks id, follows⟩
  | output leases bytes processed =>
    exact ⟨append_tracks tracks .., fun f member => (follows f member).extend _⟩
  | resized leases size generation =>
    exact ⟨append_tracks tracks .., fun f member => (follows f member).extend _⟩
  | finish drain failure => exact ⟨finish_tracks tracks .., follows⟩
  | close => exact ⟨close_tracks tracks, follows⟩

theorem run_valid {lifetime : SessionLifetime} {w : World} (valid : w.Valid lifetime)
    (steps : List Step) : (w.run steps).Valid lifetime := by
  induction steps generalizing w with
  | nil => exact valid
  | cons event rest ih => exact ih (step_valid valid event)

/-- After any run of a journal: while it is readable its record keys are exactly
those from `oldest` to the boundary, each record leads to the next sequence
number, and nothing is retained without observers. Every observer has received
exactly the mutations that follow its own boundary, in order, and its next read
returns the next one, reports the end of the history, or fails explicitly. The
last branch of `read` is never taken. -/
theorem observers_follow_history (lifetime : SessionLifetime) (steps : List Step) :
    let w := (new lifetime).run steps
    (w.journal.order.Readable → ∀ k,
      ((w.journal.records.get? k).isSome ↔
        w.journal.order.oldest ≤ k ∧ k < w.journal.order.boundary.cursor.sequence) ∧
      ∀ record, w.journal.records.get? k = some record → record.after.cursor.sequence = k + 1) ∧
    (w.journal.observers.isEmpty → (∀ k, w.journal.records.get? k = none) ∧
      w.journal.order.oldest = w.journal.order.boundary.cursor.sequence) ∧
    (∀ f ∈ w.followers, f.seen ++ f.received <+: w.history ∧ ∀ waker,
      w.Delivers f
        (w.journal.read f.observer.id f.observer.start.cursor f.cursor waker).1) ∧
    ∀ cursor, w.journal.order.validate cursor = .ok () →
      w.journal.records.get? cursor.sequence = none → cursor = w.journal.order.boundary.cursor := by
  intro w
  obtain ⟨tracks, follows⟩ : w.Valid lifetime := run_valid (new_valid lifetime) steps
  refine ⟨?_, ?_, ?_, ?_⟩
  · intro readable k
    have held := tracks.holds readable k
    rw [held, tracks.boundary]
    by_cases above : w.journal.order.oldest ≤ k
    · rw [if_pos above]
      refine ⟨by simp [above], fun record found => ?_⟩
      rw [tracks.numbered k record found]
    · simp [above]
  · intro unobserved
    rw [tracks.boundary]
    exact tracks.unobserved unobserved
  · intro f member
    refine ⟨(follows f member).received, fun waker => ?_⟩
    rw [read_result]
    exact readResult_delivers tracks (follows f member)
  · exact fun cursor valid => (tracks.next valid).2

end World
end PtyRuntime.Journal
