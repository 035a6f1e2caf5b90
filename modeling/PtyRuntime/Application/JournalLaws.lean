import PtyRuntime.Application.Journal
import PtyRuntime.Domain.Projection.TransferLaws

/-! Observers of the journal never skip or repeat a mutation. The retained
records are a suffix of the history of successful mutations, keyed by position;
an observer that continues at each event's own boundary walks that history. -/
namespace PtyRuntime

namespace Journal

/-- The records are exactly the history from `oldest` on. -/
def Holds (records : SortedMap Nat Record) (oldest : Nat) (history : List Record) : Prop :=
  ∀ k, records.get? k = if oldest ≤ k then history[k]? else none

/-- Every mutation is numbered by its position in the history. -/
def Numbered (lifetime : SessionLifetime) (history : List Record) : Prop :=
  ∀ (k : Nat) (record : Record), history[k]? = some record → record.after.cursor = ⟨lifetime, k + 1⟩

/-- The journal after a history of successful mutations. -/
structure Tracks (lifetime : SessionLifetime) (j : Journal) (history : List Record) : Prop where
  boundary : j.order.boundary.cursor = ⟨lifetime, history.length⟩
  numbered : Numbered lifetime history
  oldest : j.order.oldest ≤ history.length
  holds : j.order.Readable → Holds j.records j.order.oldest history
  unobserved : j.observers.isEmpty →
    (∀ k, j.records.get? k = none) ∧ j.order.oldest = history.length
  sealed : ∀ sealed, j.order.sealed = some sealed → sealed.boundary = j.order.boundary

theorem new_tracks (lifetime : SessionLifetime) : (Journal.new lifetime).Tracks lifetime [] where
  boundary := rfl
  numbered := by intro k record found; cases found
  oldest := Nat.le_refl 0
  holds := by
    intro _ k
    simp [Journal.new]
  unobserved := fun _ => ⟨fun _ => rfl, rfl⟩
  sealed := by intro sealed found; cases found

theorem Numbered.snoc {lifetime : SessionLifetime} {history : List Record} {record : Record}
    (numbered : Numbered lifetime history)
    (next : record.after.cursor = ⟨lifetime, history.length + 1⟩) :
    Numbered lifetime (history ++ [record]) := by
  intro k entry found
  rcases Nat.lt_trichotomy k history.length with before | rfl | beyond
  · rw [List.getElem?_append_left before] at found
    exact numbered k entry found
  · rw [List.getElem?_concat_length] at found
    obtain rfl := Option.some.inj found
    exact next
  · rw [List.getElem?_eq_none (by rw [List.length_append, List.length_singleton]; omega)] at found
    cases found

/-- Losing the oldest record moves the floor past it. -/
theorem Holds.popFirst {records rest : SortedMap Nat Record} {oldest k : Nat}
    {history : List Record} {evicted : Record} (holds : Holds records oldest history)
    (popped : records.popFirst = some ((k, evicted), rest)) :
    k = oldest ∧ history[k]? = some evicted ∧ Holds rest (oldest + 1) history := by
  obtain ⟨found, least, others⟩ := SortedMap.popFirst_some popped
  have here := holds k
  rw [found] at here
  split at here
  · rename_i above
    have within : k < history.length := (List.getElem?_eq_some_iff.mp here.symm).1
    have floor : k ≤ oldest := by
      apply least
      rw [holds oldest, if_pos (Nat.le_refl _)]
      simp only [ne_eq, List.getElem?_eq_none_iff]
      omega
    obtain rfl : k = oldest := by omega
    refine ⟨rfl, here.symm, fun j => ?_⟩
    rw [others j, holds j]
    by_cases same : j = k
    · rw [if_pos same, if_neg (by omega)]
    · rw [if_neg same]
      by_cases later : k ≤ j
      · rw [if_pos later, if_pos (by omega)]
      · rw [if_neg later, if_neg (by omega)]
  · cases here

/-- Eviction keeps the records a suffix of the history: each evicted record is
the oldest, and its boundary becomes the new floor. -/
theorem acquire_holds {leases : Nat → Bool} {lifetime : SessionLifetime} {history : List Record}
    (numbered : Numbered lifetime history) {n : Nat} {order order' : TransferOrder}
    {records records' : SortedMap Nat Record} {granted : Bool}
    (acquired : acquire leases n order records = (granted, order', records'))
    (lifetimes : order.boundary.cursor.lifetime = lifetime)
    (ahead : history.length ≤ order.boundary.cursor.sequence)
    (oldest : order.oldest ≤ history.length) (holds : Holds records order.oldest history) :
    ∃ floor, order' = { order with oldest := floor } ∧ floor ≤ history.length ∧
      Holds records' floor history := by
  fun_induction acquire leases n order records with
  | case1 n order records free =>
    obtain ⟨-, rfl, rfl⟩ : _ ∧ order = order' ∧ records = records' := by simpa using acquired
    exact ⟨_, rfl, oldest, holds⟩
  | case2 n order records refused emptied =>
    obtain ⟨-, rfl, rfl⟩ : _ ∧ order = order' ∧ records = records' := by simpa using acquired
    exact ⟨_, rfl, oldest, holds⟩
  | case3 n order records refused k evicted rest popped ih =>
    obtain ⟨rfl, here, left⟩ := holds.popFirst popped
    have cursor := numbered _ _ here
    have within : order.oldest < history.length := (List.getElem?_eq_some_iff.mp here).1
    have discarded : (order.discardBefore evicted.after.cursor).2 =
        { order with oldest := order.oldest + 1 } := by
      rw [TransferOrder.discardBefore_known (by rw [cursor, lifetimes])
        (by rw [cursor]; exact Nat.le_trans within ahead), cursor]
      simp
    rw [discarded] at acquired ih
    obtain ⟨floor, same, bound, kept⟩ := ih acquired lifetimes ahead within left
    exact ⟨floor, same, bound, kept⟩

theorem Holds.snoc {records : SortedMap Nat Record} {oldest : Nat} {history : List Record}
    (holds : Holds records oldest history) (within : oldest ≤ history.length) (record : Record) :
    Holds (records.insert history.length record) oldest (history ++ [record]) := by
  intro k
  rw [SortedMap.get?_insert, holds k]
  rcases Nat.lt_trichotomy k history.length with before | rfl | beyond
  · rw [if_neg (by omega), List.getElem?_append_left before]
  · rw [if_pos rfl, if_pos within, List.getElem?_concat_length]
  · rw [if_neg (by omega), List.getElem?_eq_none (by omega), List.getElem?_eq_none
      (by rw [List.length_append, List.length_singleton]; omega)]

/-- With the floor at the end of the history nothing is retained. -/
theorem holds_empty (history : List Record) : Holds .empty history.length history := by
  intro k
  rw [SortedMap.get?_empty]
  split
  · rw [List.getElem?_eq_none (by omega)]
  · rfl

/-- A mutation the order accepted extends the history by one record, retained or not. -/
theorem retain_tracks {lifetime : SessionLifetime} {j : Journal} {history : List Record}
    {order : TransferOrder} {after : TransferBoundary} (tracks : j.Tracks lifetime history)
    (readable : j.order.Readable) (unsealed : j.order.sealed = none)
    (advanced : TransferOrder.Advanced j.order order after) (leases : Nat → Bool)
    (kind : RecordKind) :
    (({ j with order }).retain leases kind after).Tracks lifetime
      (history ++ [Record.mk after kind]) := by
  obtain ⟨rfl, cursor⟩ := advanced
  rw [tracks.boundary] at cursor
  have numbered : Numbered lifetime (history ++ [Record.mk after kind]) :=
    tracks.numbered.snoc cursor
  have length : (history ++ [Record.mk after kind]).length = history.length + 1 := by simp
  have ended {floor : Nat} (low : floor ≤ history.length) :
      (({ j.order with boundary := after, oldest := floor }).discardBefore after.cursor).2 =
        { j.order with boundary := after, oldest := history.length + 1 } := by
    rw [TransferOrder.discardBefore_known rfl (Nat.le_refl _), cursor]
    congr 1
    exact Nat.max_eq_right (Nat.le_succ_of_le low)
  unfold retain
  split
  · rename_i none
    rw [ended tracks.oldest]
    obtain ⟨noRecords, -⟩ := tracks.unobserved none
    exact {
      boundary := by rw [length]; exact cursor
      numbered
      oldest := by rw [length]
      holds := by
        intro _ k
        rw [noRecords k, ← length, ← SortedMap.get?_empty (α := Record) k]
        exact holds_empty _ k
      unobserved := fun _ => ⟨noRecords, by rw [length]⟩
      sealed := by simp [unsealed] }
  · rename_i observed
    have start := tracks.holds readable
    split
    · rename_i order records acquired
      obtain ⟨floor, rfl, low, kept⟩ := acquire_holds tracks.numbered acquired
        (by rw [cursor]) (by rw [cursor]; exact Nat.le_succ _) tracks.oldest start
      exact {
        boundary := by rw [length]; exact cursor
        numbered
        oldest := by rw [length]; exact Nat.le_succ_of_le low
        holds := by
          intro _
          rw [cursor]
          exact kept.snoc low _
        unobserved := fun none => absurd none observed
        sealed := by simp [unsealed] }
    · rename_i order records acquired
      obtain ⟨floor, rfl, low, kept⟩ := acquire_holds tracks.numbered acquired
        (by rw [cursor]) (by rw [cursor]; exact Nat.le_succ _) tracks.oldest start
      rw [ended low]
      exact {
        boundary := by rw [length]; exact cursor
        numbered
        oldest := by rw [length]
        holds := by
          intro _
          rw [← length]
          exact holds_empty _
        unobserved := fun none => absurd none observed
        sealed := by simp [unsealed] }

/-- Registered wakers are not part of what the journal tracks. -/
theorem Tracks.observers {lifetime : SessionLifetime} {j : Journal} {history : List Record}
    (tracks : j.Tracks lifetime history) {observers : SortedMap Nat (Option Waker)}
    (next : Nat) (fewer : observers.isEmpty → j.observers.isEmpty) :
    ({ j with observers, nextObserver := next } : Journal).Tracks lifetime history where
  boundary := tracks.boundary
  numbered := tracks.numbered
  oldest := tracks.oldest
  holds := tracks.holds
  unobserved := fun none => tracks.unobserved (fewer none)
  sealed := tracks.sealed

theorem isEmpty_mapValues {observers : SortedMap Nat (Option Waker)}
    {f : Nat → Option Waker → Option Waker} (none : (observers.mapValues f).isEmpty) :
    observers.isEmpty := by
  simpa [SortedMap.isEmpty, SortedMap.mapValues] using none

theorem takeWakers_tracks {lifetime : SessionLifetime} {j : Journal} {history : List Record}
    (tracks : j.Tracks lifetime history) : j.takeWakers.2.Tracks lifetime history :=
  tracks.observers j.nextObserver isEmpty_mapValues

theorem takeWaker_tracks {lifetime : SessionLifetime} {j : Journal} {history : List Record}
    (tracks : j.Tracks lifetime history) (id : Nat) : (j.takeWaker id).Tracks lifetime history :=
  tracks.observers j.nextObserver isEmpty_mapValues

theorem read_tracks {lifetime : SessionLifetime} {j : Journal} {history : List Record}
    (tracks : j.Tracks lifetime history) (id : Nat) (start cursor : TransferCursor)
    (waker : Option Waker) : (j.read id start cursor waker).2.Tracks lifetime history := by
  simp only [read]
  split
  · exact (takeWaker_tracks tracks id).observers j.nextObserver isEmpty_mapValues
  · exact takeWaker_tracks tracks id

theorem openObserver_tracks {lifetime : SessionLifetime} {j : Journal} {history : List Record}
    (tracks : j.Tracks lifetime history) : j.openObserver.2.Tracks lifetime history := by
  unfold openObserver
  split
  · exact tracks
  · exact tracks
  · split
    · exact tracks
    · refine tracks.observers _ fun none => ?_
      have absent := SortedMap.isEmpty_iff.mp none j.nextObserver
      rw [SortedMap.get?_insert, if_pos rfl] at absent
      cases absent

theorem openObserver_start {j j' : Journal} {observer : TransferObserver}
    (opened : j.openObserver = (.ok observer, j')) : observer.start = j.order.boundary := by
  unfold openObserver at opened
  split at opened
  · cases opened
  · cases opened
  · rename_i start available
    split at opened
    · cases opened
    · obtain rfl := Except.ok.inj (Prod.mk.inj opened).1
      unfold TransferOrder.openBoundary at available
      split at available
      · cases available
      · exact (Except.ok.inj available).symm

theorem remove_tracks {lifetime : SessionLifetime} {j : Journal} {history : List Record}
    (tracks : j.Tracks lifetime history) (id : Nat) : (j.remove id).Tracks lifetime history := by
  simp only [remove]
  split
  · rw [TransferOrder.discardBefore_known rfl (Nat.le_refl _), tracks.boundary]
    have floor : max j.order.oldest history.length = history.length :=
      Nat.max_eq_right tracks.oldest
    exact {
      boundary := tracks.boundary
      numbered := tracks.numbered
      oldest := by rw [floor]
      holds := by
        intro _
        rw [floor]
        exact holds_empty history
      unobserved := fun _ => ⟨fun _ => rfl, floor⟩
      sealed := tracks.sealed }
  · rename_i some
    exact tracks.observers j.nextObserver fun none => absurd none some

/-- Records may be dropped at once where reading ends for good. -/
theorem Tracks.shut {lifetime : SessionLifetime} {j : Journal} {history : List Record}
    (tracks : j.Tracks lifetime history) {order : TransferOrder}
    (boundary : order.boundary = j.order.boundary) (oldest : order.oldest = j.order.oldest)
    (sealed : order.sealed = j.order.sealed) (shut : ¬ order.Readable) :
    ({ j with order, records := .empty } : Journal).Tracks lifetime history where
  boundary := by rw [boundary, tracks.boundary]
  numbered := tracks.numbered
  oldest := by rw [oldest]; exact tracks.oldest
  holds := fun readable => absurd readable shut
  unobserved := by
    intro none
    rw [oldest]
    exact ⟨fun _ => rfl, (tracks.unobserved none).2⟩
  sealed := by
    rw [sealed, boundary]
    exact tracks.sealed

theorem advance_error {j : Journal} {kind : RecordKind} {processed : Option ReplayCursor}
    {e : TransferError} {order : TransferOrder}
    (refused : j.advance kind processed = (.error e, order)) : order = j.order := by
  unfold advance at refused
  split at refused
  · split at refused
    · exact (Prod.mk.inj refused).2.symm
    · exact TransferOrder.output_error refused
  · exact TransferOrder.resized_error refused

theorem advance_ok {j : Journal} {kind : RecordKind} {processed : Option ReplayCursor}
    {after : TransferBoundary} {order : TransferOrder}
    (advanced : j.advance kind processed = (.ok after, order)) :
    TransferOrder.Advanced j.order order after := by
  unfold advance at advanced
  split at advanced
  · split at advanced
    · cases advanced
    · exact TransferOrder.output_ok advanced
  · exact TransferOrder.resized_ok advanced

/-- The mutation an append adds to the history: none once the stream ended or the
order refuses it. -/
def mutation (j : Journal) (kind : RecordKind) (processed : Option ReplayCursor) : List Record :=
  if !j.order.acceptsEvents then []
  else
    match j.advance kind processed with
    | (.error _, _) => []
    | (.ok after, _) => [{ after, kind }]

theorem append_tracks {lifetime : SessionLifetime} {j : Journal} {history : List Record}
    (tracks : j.Tracks lifetime history) (leases : Nat → Bool) (kind : RecordKind)
    (processed : Option ReplayCursor) :
    (j.append leases kind processed).2.Tracks lifetime (history ++ j.mutation kind processed) := by
  unfold append mutation
  split
  · rw [List.append_nil]
    exact tracks
  · rename_i accepts
    obtain ⟨readable, unsealed⟩ :=
      TransferOrder.acceptsEvents_readable (by simpa using accepts)
    rcases advanced : j.advance kind processed with ⟨error | after, order⟩
    · obtain rfl := advance_error advanced
      rw [List.append_nil]
      refine takeWakers_tracks (tracks.shut rfl rfl rfl ?_)
      simp [TransferOrder.Readable, TransferOrder.invalidate]
    · exact takeWakers_tracks
        (retain_tracks tracks readable unsealed (advance_ok advanced) leases kind)

theorem finish_tracks {lifetime : SessionLifetime} {j : Journal} {history : List Record}
    (tracks : j.Tracks lifetime history) (drain : Option DrainOutcome)
    (failure : Option ProjectionError) : (j.finish drain failure).2.Tracks lifetime history := by
  refine takeWakers_tracks ?_
  rcases j.order.sealEnd_eq drain failure with same | sealed
  · rw [same]
    exact tracks
  · rw [sealed]
    exact {
      boundary := tracks.boundary
      numbered := tracks.numbered
      oldest := tracks.oldest
      holds := tracks.holds
      unobserved := tracks.unobserved
      sealed := by
        rintro _ ⟨⟩
        rfl }

theorem close_tracks {lifetime : SessionLifetime} {j : Journal} {history : List Record}
    (tracks : j.Tracks lifetime history) : j.close.2.Tracks lifetime history :=
  takeWakers_tracks (tracks.shut rfl rfl rfl (by simp [TransferOrder.Readable, TransferOrder.close]))

/-- Reading at a valid cursor: the next mutation of the history, or the boundary
itself when the history is exhausted. -/
theorem Tracks.next {lifetime : SessionLifetime} {j : Journal} {history : List Record}
    (tracks : j.Tracks lifetime history) {cursor : TransferCursor}
    (valid : j.order.validate cursor = .ok ()) :
    j.records.get? cursor.sequence = history[cursor.sequence]? ∧
      (j.records.get? cursor.sequence = none → cursor = j.order.boundary.cursor) := by
  obtain ⟨notClosed, available, lifetimes, above, within⟩ := TransferOrder.validate_ok_iff.mp valid
  have readable : j.order.Readable := ⟨notClosed, available⟩
  have held := tracks.holds readable cursor.sequence
  rw [if_pos above] at held
  refine ⟨held, fun absent => ?_⟩
  rw [held, List.getElem?_eq_none_iff] at absent
  rw [tracks.boundary] at lifetimes within ⊢
  obtain ⟨lifetime', sequence⟩ := cursor
  obtain rfl : lifetime' = lifetime := lifetimes
  obtain rfl : sequence = history.length := Nat.le_antisymm within absent
  rfl

theorem discardBefore_order (o : TransferOrder) (cursor : TransferCursor) :
    ∃ oldest, (o.discardBefore cursor).2 = { o with oldest } := by
  rcases o.discardBefore_cases cursor with ⟨e, refused⟩ | ⟨q, done, applied⟩
  · exact ⟨o.oldest, by rw [refused]⟩
  · rw [done]
    cases applied with
    | discardBefore same within => exact ⟨_, rfl⟩

/-- Eviction only moves the floor. -/
theorem acquire_order (leases : Nat → Bool) (n : Nat) (order : TransferOrder)
    (records : SortedMap Nat Record) :
    ∃ oldest, (acquire leases n order records).2.1 = { order with oldest } := by
  fun_induction acquire leases n order records with
  | case1 n order records free => exact ⟨order.oldest, rfl⟩
  | case2 n order records refused emptied => exact ⟨order.oldest, rfl⟩
  | case3 n order records refused k evicted rest popped ih =>
    obtain ⟨floor, discarded⟩ := discardBefore_order order evicted.after.cursor
    obtain ⟨oldest, same⟩ := ih
    exact ⟨oldest, by rw [same, discarded]⟩

theorem retain_order (j : Journal) (leases : Nat → Bool) (kind : RecordKind) (after : TransferBoundary) :
    ∃ oldest, (j.retain leases kind after).order = { j.order with oldest } := by
  unfold retain
  split
  · exact discardBefore_order j.order after.cursor
  · obtain ⟨floor, evicted⟩ := acquire_order leases 0 j.order j.records
    split
    · rename_i acquired
      rw [acquired] at evicted
      exact ⟨floor, evicted⟩
    · rename_i order records acquired
      rw [acquired] at evicted
      obtain rfl : order = { j.order with oldest := floor } := evicted
      exact discardBefore_order { j.order with oldest := floor } after.cursor

theorem remove_order (j : Journal) (id : Nat) : ∃ oldest, (j.remove id).order = { j.order with oldest } := by
  unfold remove
  dsimp only
  split
  · exact discardBefore_order j.order j.order.boundary.cursor
  · exact ⟨j.order.oldest, rfl⟩

theorem read_order (j : Journal) (id : Nat) (start cursor : TransferCursor) (waker : Option Waker) :
    (j.read id start cursor waker).2.order = j.order := by
  simp only [read]
  split <;> rfl

theorem openObserver_cases (j : Journal) :
    (∃ e, j.openObserver = (.error e, j)) ∨
      ∃ start, j.openObserver = (.ok { id := j.nextObserver, start }, { j with
        nextObserver := j.nextObserver + 1
        observers := j.observers.insert j.nextObserver none }) := by
  unfold openObserver
  split
  · exact .inl ⟨_, rfl⟩
  · exact .inl ⟨_, rfl⟩
  · rename_i start _
    cases next : checkedAdd j.nextObserver 1 with
    | none => exact .inl ⟨_, rfl⟩
    | some id =>
      obtain ⟨-, rfl⟩ := checkedAdd_eq_some.mp next
      exact .inr ⟨start, rfl⟩

theorem openObserver_order (j : Journal) : j.openObserver.2.order = j.order := by
  unfold openObserver
  split
  · rfl
  · rfl
  · split <;> rfl

/-- An append is refused by a stream that has ended, finds the order at odds with the
mutation, or moves the boundary. -/
theorem append_order (j : Journal) (leases : Nat → Bool) (kind : RecordKind)
    (processed : Option ReplayCursor) :
    (j.order.acceptsEvents = false ∧ (j.append leases kind processed).2.order = j.order) ∨
      (j.order.acceptsEvents = true ∧ ∃ error, (j.advance kind processed).1 = .error error) ∨
      (j.order.acceptsEvents = true ∧ ∃ after oldest, (j.advance kind processed).1 = .ok after ∧
        (j.append leases kind processed).2.order = { j.order with boundary := after, oldest }) := by
  unfold append
  split
  · rename_i refuses
    exact .inl ⟨by simpa using refuses, rfl⟩
  · rename_i accepts
    have accepts : j.order.acceptsEvents = true := by simpa using accepts
    rcases advanced : j.advance kind processed with ⟨error | after, order⟩
    · exact .inr (.inl ⟨accepts, error, rfl⟩)
    · obtain ⟨oldest, kept⟩ := retain_order { j with order } leases kind after
      refine .inr (.inr ⟨accepts, after, oldest, rfl, ?_⟩)
      have moved : order = { j.order with boundary := after } := (advance_ok advanced).order
      change (({ j with order }).retain leases kind after).order = _
      rw [kept, moved]

end Journal
end PtyRuntime
