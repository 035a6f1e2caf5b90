import PtyRuntime.Domain.Projection.Transfer

/-! What each call on the transfer order can do, and what every sequence of calls
keeps: positions count the accepted mutations, the retained range stays inside them,
and the first recorded end is final. -/

namespace PtyRuntime

namespace TransferOrder

/-- Observers may still read. -/
def Readable (o : TransferOrder) : Prop := o.closed = false ∧ o.unavailable = false

theorem requireReadable_ok {o : TransferOrder} : o.requireReadable = .ok () ↔ o.Readable := by
  unfold requireReadable Readable
  cases o.closed <;> cases o.unavailable <;> simp

theorem acceptsEvents_readable {o : TransferOrder} (accepts : o.acceptsEvents = true) :
    o.Readable ∧ o.sealed = none := by
  simpa [acceptsEvents, Readable, and_assoc] using accepts

theorem validateIdentity_ok {o : TransferOrder} {cursor : TransferCursor} :
    o.validateIdentity cursor = .ok () ↔ cursor.lifetime = o.boundary.cursor.lifetime ∧
      cursor.sequence ≤ o.boundary.cursor.sequence := by
  unfold validateIdentity
  split
  · simp_all
  · split
    · rename_i ahead
      simp only [reduceCtorEq, false_iff, not_and]
      omega
    · rename_i same within
      simp only [not_not] at same
      simp only [same, true_and, true_iff]
      omega

theorem discardBefore_known {o : TransferOrder} {cursor : TransferCursor}
    (lifetime : cursor.lifetime = o.boundary.cursor.lifetime)
    (within : cursor.sequence ≤ o.boundary.cursor.sequence) :
    (o.discardBefore cursor).2 = { o with oldest := max o.oldest cursor.sequence } := by
  simp [discardBefore, validateIdentity_ok.mpr ⟨lifetime, within⟩]

theorem requireAppend_ok {o : TransferOrder} :
    o.requireAppend = .ok () ↔ o.Readable ∧ o.sealed = none := by
  rw [← requireReadable_ok]
  unfold requireAppend
  cases o.requireReadable with
  | error e => simp
  | ok => cases o.sealed <;> simp

/-- The checks of `validate`, in the order in which they decide the error. -/
theorem validate_eq (o : TransferOrder) (cursor : TransferCursor) :
    o.validate cursor =
      if o.closed then .error .closed
      else if o.unavailable then .error .unavailable
      else if cursor.lifetime ≠ o.boundary.cursor.lifetime then .error .foreignLifetime
      else if o.boundary.cursor.sequence < cursor.sequence then .error .futureCursor
      else if cursor.sequence < o.oldest then
        .error (.resyncRequired ⟨o.boundary.cursor.lifetime, o.oldest⟩)
      else .ok () := by
  unfold validate requireReadable validateIdentity
  split_ifs <;> rfl

theorem validate_ok_iff {o : TransferOrder} {cursor : TransferCursor} :
    o.validate cursor = .ok () ↔ o.closed = false ∧ o.unavailable = false ∧
      cursor.lifetime = o.boundary.cursor.lifetime ∧ o.oldest ≤ cursor.sequence ∧
      cursor.sequence ≤ o.boundary.cursor.sequence := by
  rw [validate_eq]
  cases o.closed <;> cases o.unavailable <;> simp
  split_ifs <;> simp_all

/-- One call of the order's owner, the journal. -/
inductive Call where
  | output (processed : ReplayCursor)
  | resized (generation : ControlGeneration)
  | discardBefore (cursor : TransferCursor)
  | sealEnd (drain : Option DrainOutcome) (failure : Option ProjectionError)
  | close
  | invalidate
  deriving DecidableEq, Repr

/-- What a call that succeeds returns. -/
inductive Answer where
  | unit
  | boundary (after : TransferBoundary)
  deriving DecidableEq, Repr

def step (o : TransferOrder) : Call → Except TransferError Answer × TransferOrder
  | .output processed => ((o.output processed).1.map .boundary, (o.output processed).2)
  | .resized generation => ((o.resized generation).1.map .boundary, (o.resized generation).2)
  | .discardBefore cursor =>
    ((o.discardBefore cursor).1.map fun _ => .unit, (o.discardBefore cursor).2)
  | .sealEnd drain failure =>
    ((o.sealEnd drain failure).1.map fun _ => .unit, (o.sealEnd drain failure).2)
  | .close => (.ok .unit, o.close)
  | .invalidate => (.ok .unit, o.invalidate)

def run (o : TransferOrder) (calls : List Call) : TransferOrder :=
  calls.foldl (fun o call => (o.step call).2) o

/-- The calls of a sequence that succeed, in order. -/
def accepted (o : TransferOrder) : List Call → List Call
  | [] => []
  | call :: rest =>
    (match (o.step call).1 with
      | .ok _ => [call]
      | .error _ => []) ++ accepted (o.step call).2 rest

/-- The boundary of the next mutation, which moves the sequence only. -/
def nextBoundary (o : TransferOrder) : TransferBoundary :=
  { o.boundary with
    cursor := { o.boundary.cursor with sequence := o.boundary.cursor.sequence + 1 } }

/-- Everything a call that succeeds can have done. -/
inductive Applied (o : TransferOrder) : Call → Answer → TransferOrder → Prop where
  | output {processed : ReplayCursor} (live : o.Readable) (unsealed : o.sealed = none)
      (same : processed.lifetime = o.boundary.processed.lifetime)
      (ahead : o.boundary.processed.offset < processed.offset) :
      Applied o (.output processed) (.boundary { o.nextBoundary with processed })
        { o with boundary := { o.nextBoundary with processed } }
  | resized {generation : ControlGeneration} (live : o.Readable) (unsealed : o.sealed = none)
      (next : o.boundary.controlGeneration.next = some generation) :
      Applied o (.resized generation)
        (.boundary { o.nextBoundary with controlGeneration := generation })
        { o with boundary := { o.nextBoundary with controlGeneration := generation } }
  | discardBefore {cursor : TransferCursor}
      (same : cursor.lifetime = o.boundary.cursor.lifetime)
      (within : cursor.sequence ≤ o.boundary.cursor.sequence) :
      Applied o (.discardBefore cursor) .unit { o with oldest := max o.oldest cursor.sequence }
  | sealEnd {drain : Option DrainOutcome} {failure : Option ProjectionError} (live : o.Readable)
      (unsealed : o.sealed = none) :
      Applied o (.sealEnd drain failure) .unit
        { o with sealed := some ⟨o.boundary, drain, failure⟩ }
  | sealAgain {drain : Option DrainOutcome} {failure : Option ProjectionError} {sealed : TransferEnd}
      (already : o.sealed = some sealed) : Applied o (.sealEnd drain failure) .unit o
  | close : Applied o .close .unit { o with closed := true }
  | invalidate : Applied o .invalidate .unit { o with unavailable := true }

theorem output_cases (o : TransferOrder) (processed : ReplayCursor) :
    (∃ e, o.output processed = (.error e, o)) ∨
      ∃ after o', o.output processed = (.ok after, o') ∧
        Applied o (.output processed) (.boundary after) o' := by
  cases append : o.requireAppend with
  | error e => exact .inl ⟨e, by simp only [output, append]⟩
  | ok =>
    obtain ⟨live, unsealed⟩ := requireAppend_ok.mp append
    by_cases stale : processed.lifetime ≠ o.boundary.processed.lifetime ∨
      processed.offset ≤ o.boundary.processed.offset
    · exact .inl ⟨.unavailable, by simp only [output, append, if_pos stale]⟩
    · have fresh := not_or.mp stale
      cases room : checkedAdd o.boundary.cursor.sequence 1 with
      | none => exact .inl ⟨.unavailable, by simp only [output, append, if_neg stale, advance, room]⟩
      | some sequence =>
        obtain ⟨-, rfl⟩ := checkedAdd_eq_some.mp room
        refine .inr ⟨_, _, by simp only [output, append, if_neg stale, advance, room]; rfl, ?_⟩
        exact .output live unsealed (not_not.mp fresh.1) (Nat.lt_of_not_le fresh.2)

theorem resized_cases (o : TransferOrder) (generation : ControlGeneration) :
    (∃ e, o.resized generation = (.error e, o)) ∨
      ∃ after o', o.resized generation = (.ok after, o') ∧
        Applied o (.resized generation) (.boundary after) o' := by
  cases append : o.requireAppend with
  | error e => exact .inl ⟨e, by simp only [resized, append]⟩
  | ok =>
    obtain ⟨live, unsealed⟩ := requireAppend_ok.mp append
    by_cases skipped : o.boundary.controlGeneration.next ≠ some generation
    · exact .inl ⟨.unavailable, by simp only [resized, append, if_pos skipped]⟩
    · cases room : checkedAdd o.boundary.cursor.sequence 1 with
      | none =>
        exact .inl ⟨.unavailable, by simp only [resized, append, if_neg skipped, advance, room]⟩
      | some sequence =>
        obtain ⟨-, rfl⟩ := checkedAdd_eq_some.mp room
        refine .inr ⟨_, _, by simp only [resized, append, if_neg skipped, advance, room]; rfl, ?_⟩
        exact .resized live unsealed (not_not.mp skipped)

theorem discardBefore_cases (o : TransferOrder) (cursor : TransferCursor) :
    (∃ e, o.discardBefore cursor = (.error e, o)) ∨
      ∃ o', o.discardBefore cursor = (.ok (), o') ∧ Applied o (.discardBefore cursor) .unit o' := by
  cases known : o.validateIdentity cursor with
  | error e => exact .inl ⟨e, by simp only [discardBefore, known]⟩
  | ok =>
    obtain ⟨same, within⟩ := validateIdentity_ok.mp known
    exact .inr ⟨_, by simp only [discardBefore, known], .discardBefore same within⟩

theorem sealEnd_cases (o : TransferOrder) (drain : Option DrainOutcome)
    (failure : Option ProjectionError) :
    (∃ e, o.sealEnd drain failure = (.error e, o)) ∨
      ∃ o', o.sealEnd drain failure = (.ok (), o') ∧
        Applied o (.sealEnd drain failure) .unit o' := by
  cases readable : o.requireReadable with
  | error e => exact .inl ⟨e, by simp only [sealEnd, readable]⟩
  | ok =>
    cases ended : o.sealed with
    | some sealed => exact .inr ⟨o, by simp [sealEnd, readable, ended], .sealAgain ended⟩
    | none =>
      by_cases bare : drain.isNone = true ∧ failure.isNone = true
      · exact .inl ⟨.unavailable, by simp [sealEnd, readable, ended, bare]⟩
      · refine .inr ⟨_, ?_, .sealEnd (requireReadable_ok.mp readable) ended⟩
        simp only [sealEnd, readable, ended, Option.isNone_none, if_true, if_neg bare]

/-- What every accepted mutation does to the order. -/
structure Advanced (o o' : TransferOrder) (after : TransferBoundary) : Prop where
  order : o' = { o with boundary := after }
  cursor : after.cursor = { o.boundary.cursor with sequence := o.boundary.cursor.sequence + 1 }

theorem output_ok {o o' : TransferOrder} {processed : ReplayCursor} {after : TransferBoundary}
    (advanced : o.output processed = (.ok after, o')) : Advanced o o' after := by
  rcases output_cases o processed with ⟨e, refused⟩ | ⟨reached, q, done, applied⟩
  · rw [refused] at advanced
    cases advanced
  · rw [done] at advanced
    cases advanced
    cases applied with
    | output live unsealed same ahead => exact ⟨rfl, rfl⟩

theorem resized_ok {o o' : TransferOrder} {generation : ControlGeneration} {after : TransferBoundary}
    (advanced : o.resized generation = (.ok after, o')) : Advanced o o' after := by
  rcases resized_cases o generation with ⟨e, refused⟩ | ⟨reached, q, done, applied⟩
  · rw [refused] at advanced
    cases advanced
  · rw [done] at advanced
    cases advanced
    cases applied with
    | resized live unsealed next => exact ⟨rfl, rfl⟩

theorem output_error {o o' : TransferOrder} {processed : ReplayCursor} {e : TransferError}
    (refused : o.output processed = (.error e, o')) : o' = o := by
  rcases output_cases o processed with ⟨e', same⟩ | ⟨after, q, done, -⟩
  · exact (Prod.mk.inj (same.symm.trans refused)).2.symm
  · rw [done] at refused
    cases refused

theorem resized_error {o o' : TransferOrder} {generation : ControlGeneration} {e : TransferError}
    (refused : o.resized generation = (.error e, o')) : o' = o := by
  rcases resized_cases o generation with ⟨e', same⟩ | ⟨after, q, done, -⟩
  · exact (Prod.mk.inj (same.symm.trans refused)).2.symm
  · rw [done] at refused
    cases refused

/-- Output that is ahead of a live stream is taken up. -/
theorem output_accepted {o : TransferOrder} {processed : ReplayCursor} (live : o.Readable)
    (unsealed : o.sealed = none) (same : processed.lifetime = o.boundary.processed.lifetime)
    (ahead : o.boundary.processed.offset < processed.offset)
    (room : o.boundary.cursor.sequence + 1 ≤ u64Max) :
    (o.output processed).1 = .ok { o.nextBoundary with processed } := by
  have fresh : ¬(processed.lifetime ≠ o.boundary.processed.lifetime ∨
      processed.offset ≤ o.boundary.processed.offset) :=
    not_or.mpr ⟨not_not.mpr same, Nat.not_le.mpr ahead⟩
  simp only [output, requireAppend_ok.mpr ⟨live, unsealed⟩, if_neg fresh, advance,
    checkedAdd_eq_some.mpr ⟨room, rfl⟩]
  rfl

/-- The next generation of a live stream is taken up. -/
theorem resized_accepted {o : TransferOrder} {generation : ControlGeneration} (live : o.Readable)
    (unsealed : o.sealed = none) (next : o.boundary.controlGeneration.next = some generation)
    (room : o.boundary.cursor.sequence + 1 ≤ u64Max) :
    (o.resized generation).1 = .ok { o.nextBoundary with controlGeneration := generation } := by
  simp only [resized, requireAppend_ok.mpr ⟨live, unsealed⟩, if_neg (not_not.mpr next), advance,
    checkedAdd_eq_some.mpr ⟨room, rfl⟩]
  rfl

/-- Sealing only records an end at the current boundary. -/
theorem sealEnd_eq (o : TransferOrder) (drain : Option DrainOutcome)
    (failure : Option ProjectionError) :
    (o.sealEnd drain failure).2 = o ∨
      (o.sealEnd drain failure).2 = { o with sealed := some ⟨o.boundary, drain, failure⟩ } := by
  rcases sealEnd_cases o drain failure with ⟨e, refused⟩ | ⟨q, done, applied⟩
  · exact .inl (by rw [refused])
  · rw [done]
    cases applied with
    | sealEnd live unsealed => exact .inr rfl
    | sealAgain already => exact .inl rfl

/-- A call either fails and changes nothing or is one of the applied cases. -/
theorem step_cases (o : TransferOrder) (call : Call) :
    (∃ e, o.step call = (.error e, o)) ∨
      ∃ answer o', o.step call = (.ok answer, o') ∧ Applied o call answer o' := by
  cases call with
  | output processed =>
    rcases output_cases o processed with ⟨e, refused⟩ | ⟨after, o', done, applied⟩
    · exact .inl ⟨e, by simp only [step, refused, Except.map]⟩
    · exact .inr ⟨_, o', by simp only [step, done, Except.map], applied⟩
  | resized generation =>
    rcases resized_cases o generation with ⟨e, refused⟩ | ⟨after, o', done, applied⟩
    · exact .inl ⟨e, by simp only [step, refused, Except.map]⟩
    · exact .inr ⟨_, o', by simp only [step, done, Except.map], applied⟩
  | discardBefore cursor =>
    rcases discardBefore_cases o cursor with ⟨e, refused⟩ | ⟨o', done, applied⟩
    · exact .inl ⟨e, by simp only [step, refused, Except.map]⟩
    · exact .inr ⟨_, o', by simp only [step, done, Except.map], applied⟩
  | sealEnd drain failure =>
    rcases sealEnd_cases o drain failure with ⟨e, refused⟩ | ⟨o', done, applied⟩
    · exact .inl ⟨e, by simp only [step, refused, Except.map]⟩
    · exact .inr ⟨_, o', by simp only [step, done, Except.map], applied⟩
  | close => exact .inr ⟨.unit, _, rfl, .close⟩
  | invalidate => exact .inr ⟨.unit, _, rfl, .invalidate⟩

theorem step_error {o : TransferOrder} {call : Call} {e : TransferError}
    (refused : (o.step call).1 = .error e) : (o.step call).2 = o := by
  rcases step_cases o call with ⟨e', same⟩ | ⟨answer, o', done, -⟩
  · rw [same]
  · rw [done] at refused
    cases refused

theorem step_ok {o : TransferOrder} {call : Call} {answer : Answer}
    (ok : (o.step call).1 = .ok answer) : Applied o call answer (o.step call).2 := by
  rcases step_cases o call with ⟨e, refused⟩ | ⟨answer', o', done, applied⟩
  · rw [refused] at ok
    cases ok
  · rw [done] at ok ⊢
    obtain rfl := Except.ok.inj ok
    exact applied

/-- What no call undoes: the retained range only shrinks from below, a recorded end
keeps the boundary it was recorded at, and a stream that is shut stays as it is. -/
structure Evolves (o o' : TransferOrder) : Prop where
  oldest : o.oldest ≤ o'.oldest
  closed : o.closed = true → o'.closed = true
  unavailable : o.unavailable = true → o'.unavailable = true
  sealed : ∀ sealed, o.sealed = some sealed → o'.sealed = some sealed
  settled : o.sealed.isSome = true ∨ o.closed = true ∨ o.unavailable = true →
    o'.boundary = o.boundary
  shut : o.closed = true ∨ o.unavailable = true → o'.sealed = o.sealed

theorem Evolves.refl (o : TransferOrder) : Evolves o o :=
  ⟨Nat.le_refl _, id, id, fun _ => id, fun _ => rfl, fun _ => rfl⟩

theorem Evolves.trans {a b c : TransferOrder} (first : Evolves a b) (second : Evolves b c) :
    Evolves a c where
  oldest := Nat.le_trans first.oldest second.oldest
  closed := second.closed ∘ first.closed
  unavailable := second.unavailable ∘ first.unavailable
  sealed := fun sealed was => second.sealed sealed (first.sealed sealed was)
  settled := by
    intro ended
    refine (second.settled ?_).trans (first.settled ended)
    rcases ended with sealed | closed | unavailable
    · obtain ⟨sealed, was⟩ := Option.isSome_iff_exists.mp sealed
      exact .inl (by rw [first.sealed sealed was]; rfl)
    · exact .inr (.inl (first.closed closed))
    · exact .inr (.inr (first.unavailable unavailable))
  shut := fun down =>
    (second.shut (down.imp first.closed first.unavailable)).trans (first.shut down)

/-- A mutation needs an order that is neither ended nor shut. -/
theorem Evolves.of_open {o : TransferOrder} (live : o.Readable) (unsealed : o.sealed = none)
    (boundary : TransferBoundary) : Evolves o { o with boundary } where
  oldest := Nat.le_refl _
  closed := id
  unavailable := id
  sealed := fun _ => id
  settled := by
    obtain ⟨notClosed, notUnavailable⟩ := live
    simp [unsealed, notClosed, notUnavailable]
  shut := fun _ => rfl

theorem Applied.evolves {o o' : TransferOrder} {call : Call} {answer : Answer}
    (applied : Applied o call answer o') : Evolves o o' := by
  cases applied with
  | output live unsealed same ahead => exact .of_open live unsealed _
  | resized live unsealed next => exact .of_open live unsealed _
  | discardBefore same within =>
    exact ⟨Nat.le_max_left _ _, id, id, fun _ => id, fun _ => rfl, fun _ => rfl⟩
  | sealEnd live unsealed =>
    obtain ⟨notClosed, notUnavailable⟩ := live
    refine ⟨Nat.le_refl _, id, id, ?_, fun _ => rfl, ?_⟩
    · intro sealed was
      rw [unsealed] at was
      cases was
    · simp [notClosed, notUnavailable]
  | sealAgain already => exact .refl o
  | close => exact ⟨Nat.le_refl _, fun _ => rfl, id, fun _ => id, fun _ => rfl, fun _ => rfl⟩
  | invalidate => exact ⟨Nat.le_refl _, id, fun _ => rfl, fun _ => id, fun _ => rfl, fun _ => rfl⟩

theorem step_evolves (o : TransferOrder) (call : Call) : Evolves o (o.step call).2 := by
  rcases step_cases o call with ⟨e, refused⟩ | ⟨answer, o', done, applied⟩
  · rw [refused]
    exact .refl o
  · rw [done]
    exact applied.evolves

theorem run_evolves (o : TransferOrder) (calls : List Call) : Evolves o (o.run calls) := by
  induction calls generalizing o with
  | nil => exact .refl o
  | cons call rest ih => exact (step_evolves o call).trans (ih _)

/-- The call moved the model, and with it the sequence. -/
def Call.isMutation : Call → Bool
  | .output _ | .resized _ => true
  | _ => false

def Call.isResized : Call → Bool
  | .resized _ => true
  | _ => false

/-- The positions reached by the feeds among some calls. -/
def positions (calls : List Call) : List ReplayCursor :=
  calls.filterMap fun call =>
    match call with
    | .output processed => some processed
    | _ => none

/-- The order after the accepted calls `done`. -/
structure Counts (lifetime : SessionLifetime) (o : TransferOrder) (done : List Call) : Prop where
  identity : o.boundary.cursor.lifetime = lifetime
  sequence : o.boundary.cursor.sequence = done.countP Call.isMutation
  control : o.boundary.controlGeneration.value = done.countP Call.isResized
  processed : o.boundary.processed = (positions done).getLast?.getD ⟨lifetime, 0⟩
  rising : (positions done).Pairwise (fun earlier later => earlier.offset < later.offset)
  reached : ∀ position ∈ positions done, position.lifetime = lifetime ∧ 0 < position.offset ∧
    position.offset ≤ o.boundary.processed.offset
  oldest : o.oldest ≤ o.boundary.cursor.sequence
  sealed : ∀ sealed, o.sealed = some sealed → sealed.boundary = o.boundary

theorem new_counts (lifetime : SessionLifetime) : Counts lifetime (new lifetime) [] where
  identity := rfl
  sequence := rfl
  control := rfl
  processed := rfl
  rising := .nil
  reached := by simp [positions]
  oldest := Nat.le_refl _
  sealed := by simp [new]

theorem positions_snoc (done : List Call) (call : Call) :
    positions (done ++ [call]) = positions done ++ positions [call] := by
  simp [positions]

theorem Counts.processed_lifetime {lifetime : SessionLifetime} {o : TransferOrder}
    {done : List Call} (counts : Counts lifetime o done) :
    o.boundary.processed.lifetime = lifetime := by
  rw [counts.processed]
  cases last : (positions done).getLast? with
  | none => rfl
  | some position => exact (counts.reached position (List.mem_of_getLast? last)).1

/-- A call that is no mutation only has to keep the range and the end. -/
theorem Counts.of_same {lifetime : SessionLifetime} {o o' : TransferOrder} {done : List Call}
    {call : Call} (counts : Counts lifetime o done) (still : call.isMutation = false)
    (boundary : o'.boundary = o.boundary) (oldest : o'.oldest ≤ o.boundary.cursor.sequence)
    (sealed : ∀ sealed, o'.sealed = some sealed → sealed.boundary = o.boundary) :
    Counts lifetime o' (done ++ [call]) := by
  have none : positions [call] = [] ∧ call.isResized = false := by
    cases call with
    | output processed | resized generation => cases still
    | discardBefore | sealEnd | close | invalidate => exact ⟨rfl, rfl⟩
  have same : positions (done ++ [call]) = positions done := by
    rw [positions_snoc, none.1, List.append_nil]
  refine ⟨?_, ?_, ?_, ?_, ?_, ?_, ?_, ?_⟩
  · rw [boundary, counts.identity]
  · rw [boundary, counts.sequence]
    simp [still]
  · rw [boundary, counts.control]
    simp [none.2]
  · rw [boundary, same, counts.processed]
  · rw [same]
    exact counts.rising
  · rw [same, boundary]
    exact counts.reached
  · rw [boundary]
    exact oldest
  · rw [boundary]
    exact sealed

theorem Applied.counts {lifetime : SessionLifetime} {o o' : TransferOrder} {done : List Call}
    {call : Call} {answer : Answer} (counts : Counts lifetime o done)
    (applied : Applied o call answer o') : Counts lifetime o' (done ++ [call]) := by
  cases applied with
  | @output processed live unsealed same ahead =>
    have snoc : positions (done ++ [.output processed]) = positions done ++ [processed] :=
      positions_snoc done _
    have known : processed.lifetime = lifetime := same.trans counts.processed_lifetime
    refine ⟨counts.identity, ?_, ?_, ?_, ?_, ?_, ?_, ?_⟩
    · simp [nextBoundary, counts.sequence, Call.isMutation]
    · simp [nextBoundary, counts.control, Call.isResized]
    · rw [snoc]
      simp
    · rw [snoc, List.pairwise_append]
      refine ⟨counts.rising, List.pairwise_singleton _ _, fun earlier member later last => ?_⟩
      obtain rfl := List.mem_singleton.mp last
      exact Nat.lt_of_le_of_lt (counts.reached earlier member).2.2 ahead
    · rw [snoc]
      intro position member
      rcases List.mem_append.mp member with earlier | now
      · obtain ⟨mine, positive, below⟩ := counts.reached position earlier
        exact ⟨mine, positive, Nat.le_of_lt (Nat.lt_of_le_of_lt below ahead)⟩
      · obtain rfl := List.mem_singleton.mp now
        exact ⟨known, Nat.zero_lt_of_lt ahead, Nat.le_refl _⟩
    · exact Nat.le_succ_of_le counts.oldest
    · intro sealed was
      rw [unsealed] at was
      cases was
  | @resized generation live unsealed next =>
    have snoc : positions (done ++ [.resized generation]) = positions done := by
      rw [positions_snoc]
      exact List.append_nil _
    refine ⟨counts.identity, ?_, ?_, ?_, ?_, ?_, ?_, ?_⟩
    · simp [nextBoundary, counts.sequence, Call.isMutation]
    · rw [(ControlGeneration.next_eq_some.mp next).2, counts.control]
      simp [Call.isResized]
    · rw [snoc]
      exact counts.processed
    · rw [snoc]
      exact counts.rising
    · rw [snoc]
      exact counts.reached
    · exact Nat.le_succ_of_le counts.oldest
    · intro sealed was
      rw [unsealed] at was
      cases was
  | discardBefore same within =>
    exact counts.of_same rfl rfl (Nat.max_le.mpr ⟨counts.oldest, within⟩) counts.sealed
  | sealEnd live unsealed =>
    refine counts.of_same rfl rfl counts.oldest ?_
    intro sealed now
    obtain rfl := Option.some.inj now
    rfl
  | sealAgain already => exact counts.of_same rfl rfl counts.oldest counts.sealed
  | close | invalidate => exact counts.of_same rfl rfl counts.oldest counts.sealed

theorem run_counts {lifetime : SessionLifetime} {o : TransferOrder} {done : List Call}
    (counts : Counts lifetime o done) (calls : List Call) :
    Counts lifetime (o.run calls) (done ++ o.accepted calls) := by
  induction calls generalizing o done with
  | nil => simpa [run, accepted] using counts
  | cons call rest ih =>
    rcases step_cases o call with ⟨e, refused⟩ | ⟨answer, o', ok, applied⟩
    · have later := ih counts
      simpa only [run, List.foldl_cons, accepted, refused, List.nil_append] using later
    · have later := ih (applied.counts counts)
      simpa only [run, List.foldl_cons, accepted, ok, List.append_assoc] using later

theorem step_output {o : TransferOrder} {processed : ReplayCursor} {answer : Answer}
    (ok : (o.step (.output processed)).1 = .ok answer) :
    o.boundary.processed.offset < processed.offset ∧
      (o.step (.output processed)).2.boundary.processed = processed := by
  generalize after : (o.step (.output processed)).2 = q
  have applied := step_ok ok
  rw [after] at applied
  cases applied with
  | output live unsealed same ahead => exact ⟨ahead, rfl⟩

/-- The first successful seal records the end; a later one leaves it. -/
theorem step_sealEnd {o : TransferOrder} {drain : Option DrainOutcome}
    {failure : Option ProjectionError} {answer : Answer}
    (ok : (o.step (.sealEnd drain failure)).1 = .ok answer) :
    (o.step (.sealEnd drain failure)).2.sealed =
      some (o.sealed.getD ⟨o.boundary, drain, failure⟩) := by
  generalize after : (o.step (.sealEnd drain failure)).2 = q
  have applied := step_ok ok
  rw [after] at applied
  cases applied with
  | sealEnd live unsealed => rw [unsealed]; rfl
  | sealAgain already => rw [already]; rfl

/-- Only a seal that succeeds records an end. -/
theorem step_sealed {o : TransferOrder} {call : Call} {sealed : TransferEnd}
    (now : (o.step call).2.sealed = some sealed) (unsealed : o.sealed = none) :
    ∃ drain failure answer, call = .sealEnd drain failure ∧ (o.step call).1 = .ok answer := by
  rcases step_cases o call with ⟨e, refused⟩ | ⟨answer, o', done, applied⟩
  · rw [refused, unsealed] at now
    cases now
  · rw [done] at now ⊢
    cases applied with
    | sealEnd live unsealed => exact ⟨_, _, _, rfl, rfl⟩
    | sealAgain already => exact ⟨_, _, _, rfl, rfl⟩
    | output | resized | discardBefore | close | invalidate =>
      rw [unsealed] at now
      cases now

/-- Every law of the transfer order, from a fresh order over every sequence of calls. -/
theorem order_laws (lifetime : SessionLifetime) (calls : List Call) :
    let o := (new lifetime).run calls
    let done := (new lifetime).accepted calls
    o.boundary.cursor.sequence = done.countP Call.isMutation ∧
    o.boundary.controlGeneration.value =
      ControlGeneration.initial.value + done.countP Call.isResized ∧
    o.boundary.processed = (positions done).getLast?.getD ⟨lifetime, 0⟩ ∧
    (positions done).Pairwise (fun earlier later => earlier.offset < later.offset) ∧
    o.oldest ≤ o.boundary.cursor.sequence ∧
    (∀ call, let q := (o.step call).2
      o.oldest ≤ q.oldest ∧
      (∀ processed answer, call = .output processed → (o.step call).1 = .ok answer →
        o.boundary.processed.offset < processed.offset ∧ q.boundary.processed = processed) ∧
      (∀ drain failure answer, call = .sealEnd drain failure → (o.step call).1 = .ok answer →
        q.sealed = some (o.sealed.getD ⟨o.boundary, drain, failure⟩)) ∧
      (∀ sealed, q.sealed = some sealed → o.sealed = none →
        ∃ drain failure answer, call = .sealEnd drain failure ∧ (o.step call).1 = .ok answer) ∧
      (∀ e, (o.step call).1 = .error e → q = o)) ∧
    (∀ sealed, o.sealed = some sealed → sealed.boundary = o.boundary ∧
      ∀ later, (o.run later).sealed = some sealed ∧ (o.run later).boundary = sealed.boundary) ∧
    (o.closed = true → ∀ later, (o.run later).closed = true ∧
      (o.run later).boundary = o.boundary ∧ (o.run later).sealed = o.sealed) ∧
    (o.unavailable = true → ∀ later, (o.run later).unavailable = true ∧
      (o.run later).boundary = o.boundary ∧ (o.run later).sealed = o.sealed) ∧
    (∀ cursor,
      (o.validate cursor = .ok () ↔ o.closed = false ∧ o.unavailable = false ∧
        cursor.lifetime = lifetime ∧ o.oldest ≤ cursor.sequence ∧
        cursor.sequence ≤ o.boundary.cursor.sequence) ∧
      o.validate cursor =
        if o.closed then .error .closed
        else if o.unavailable then .error .unavailable
        else if cursor.lifetime ≠ lifetime then .error .foreignLifetime
        else if o.boundary.cursor.sequence < cursor.sequence then .error .futureCursor
        else if cursor.sequence < o.oldest then .error (.resyncRequired ⟨lifetime, o.oldest⟩)
        else .ok ()) := by
  intro o done
  have counts : Counts lifetime o done := run_counts (new_counts lifetime) calls
  refine ⟨counts.sequence, ?_, counts.processed, counts.rising, counts.oldest, ?_, ?_, ?_, ?_, ?_⟩
  · rw [counts.control]
    exact (Nat.zero_add _).symm
  · intro call q
    refine ⟨(step_evolves o call).oldest, ?_, ?_, ?_, fun e refused => step_error refused⟩
    · rintro processed answer rfl ok
      exact step_output ok
    · rintro drain failure answer rfl ok
      exact step_sealEnd ok
    · intro sealed now unsealed
      exact step_sealed now unsealed
  · intro sealed was
    refine ⟨counts.sealed sealed was, fun later => ?_⟩
    have evolved := run_evolves o later
    refine ⟨evolved.sealed sealed was, ?_⟩
    rw [evolved.settled (.inl (by rw [was]; rfl)), counts.sealed sealed was]
  · intro closed later
    have evolved := run_evolves o later
    exact ⟨evolved.closed closed, evolved.settled (.inr (.inl closed)), evolved.shut (.inl closed)⟩
  · intro unavailable later
    have evolved := run_evolves o later
    exact ⟨evolved.unavailable unavailable, evolved.settled (.inr (.inr unavailable)),
      evolved.shut (.inr unavailable)⟩
  · intro cursor
    rw [validate_ok_iff, validate_eq, counts.identity]
    exact ⟨Iff.rfl, rfl⟩

end TransferOrder

end PtyRuntime
