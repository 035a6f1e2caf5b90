import PtyRuntime.Domain.ProgramStatus.Store

/-! Chunk boundaries are invisible to program status scanning. The scan with its
two fast paths is the byte-at-a-time transducer of the same loop body, whose runs
compose, so every cut of an input commits the same records and answers the same
queries. -/
namespace PtyRuntime

def mutationsOf (outputs : List (Nat × Signal)) : List Mutation :=
  outputs.filterMap fun
    | (_, .mutation m) => some m
    | (_, .query) => none

def queriesOf (outputs : List (Nat × Signal)) : List Nat :=
  outputs.filterMap fun
    | (_, .mutation _) => none
    | (position, .query) => some position

@[simp] theorem mutationsOf_mutation (position : Nat) (m : Mutation) (rest : List (Nat × Signal)) :
    mutationsOf ((position, .mutation m) :: rest) = m :: mutationsOf rest := rfl

@[simp] theorem mutationsOf_query (position : Nat) (rest : List (Nat × Signal)) :
    mutationsOf ((position, .query) :: rest) = mutationsOf rest := rfl

@[simp] theorem queriesOf_mutation (position : Nat) (m : Mutation) (rest : List (Nat × Signal)) :
    queriesOf ((position, .mutation m) :: rest) = queriesOf rest := rfl

@[simp] theorem queriesOf_query (position : Nat) (rest : List (Nat × Signal)) :
    queriesOf ((position, .query) :: rest) = position :: queriesOf rest := rfl

theorem mutationsOf_append (first second : List (Nat × Signal)) :
    mutationsOf (first ++ second) = mutationsOf first ++ mutationsOf second :=
  List.filterMap_append

theorem queriesOf_append (first second : List (Nat × Signal)) :
    queriesOf (first ++ second) = queriesOf first ++ queriesOf second :=
  List.filterMap_append

theorem mutationsOf_shift (start : Nat) (outputs : List (Nat × Signal)) :
    mutationsOf (outputs.map (Prod.map (start + ·) id)) = mutationsOf outputs := by
  induction outputs with
  | nil => rfl
  | cons output outputs ih =>
    obtain ⟨position, _ | _⟩ := output <;> simp [ih]

theorem queriesOf_shift (start : Nat) (outputs : List (Nat × Signal)) :
    queriesOf (outputs.map (Prod.map (start + ·) id)) = (queriesOf outputs).map (start + ·) := by
  induction outputs with
  | nil => rfl
  | cons output outputs ih =>
    obtain ⟨position, _ | _⟩ := output <;> simp [ih]

namespace Scanner

/-- The scan one byte at a time, without the fast paths. -/
def machine : Transducer Scanner UInt8 Signal where
  step s byte := if s.mode = .ground ∧ byte ≠ esc then (s, none) else s.accept byte

/-- What a scan that starts with the given continuation reports. -/
def reported (run : Scanner × List (Nat × Signal)) : Scanner × List Mutation × List Nat :=
  (run.1, mutationsOf run.2, queriesOf run.2)

theorem ground_ignores {s : Scanner} (ground : s.mode = .ground) {text : Bytes}
    (plain : esc ∉ text) : ∀ byte ∈ text, machine.step s byte = (s, none) := by
  intro byte member
  have other : byte ≠ esc := fun same => plain (same ▸ member)
  simp [machine, ground, other]

theorem esc_not_mem_take (rest : Bytes) : esc ∉ rest.take (rest.findIdx (· == esc)) := by
  intro member
  obtain ⟨index, bound, same⟩ := List.mem_take_iff_getElem.mp member
  have early : index < rest.findIdx (· == esc) := by omega
  have other := List.not_of_lt_findIdx early
  simp [same] at other

/-- The loop skips ground text without missing a byte that matters. -/
theorem feed_skipped (s : Scanner) (offset : Nat) (rest : Bytes) :
    machine.feed s offset rest =
      machine.feed s (offset + s.skip rest) (rest.drop (s.skip rest)) := by
  by_cases ground : s.mode = .ground
  · have skipped := machine.feed_skip (ground_ignores ground (esc_not_mem_take rest)) offset
      (rest.drop (rest.findIdx (· == esc)))
    rw [List.take_append_drop, List.length_take, Nat.min_eq_left List.findIdx_le_length] at skipped
    simpa only [skip, ground, if_true] using skipped
  · simp [skip, ground]

/-- The byte the loop stops at is handled by its body. -/
theorem step_stopped {s : Scanner} {rest tail : Bytes} {byte : UInt8}
    (stopped : rest.drop (s.skip rest) = byte :: tail) : machine.step s byte = s.accept byte := by
  by_cases ground : s.mode = .ground
  · simp only [skip, ground, if_true] at stopped
    have found : rest.findIdx (· == esc) < rest.length := by
      have positive := congrArg List.length stopped
      simp only [List.length_drop, List.length_cons] at positive
      omega
    have isEsc := List.findIdx_getElem (w := found)
    rw [← List.getElem_cons_drop found] at stopped
    obtain ⟨same, -⟩ := List.cons.inj stopped
    rw [same] at isEsc
    simp_all [machine]
  · simp [machine, ground]

theorem scanLoop_stopped {s : Scanner} {rest tail : Bytes} {byte : UInt8}
    (stopped : rest.drop (s.skip rest) = byte :: tail) (offset : Nat) (mutations : List Mutation)
    (queries : List Nat) :
    s.scanLoop offset rest mutations queries =
      match s.accept byte with
      | (next, some (.mutation m)) =>
        next.scanLoop (offset + s.skip rest + 1) tail (mutations ++ [m]) queries
      | (next, some .query) =>
        next.scanLoop (offset + s.skip rest + 1) tail mutations
          (queries ++ [offset + s.skip rest + 1])
      | (next, none) => next.scanLoop (offset + s.skip rest + 1) tail mutations queries := by
  rw [scanLoop]
  split
  · rename_i ended
    rw [stopped] at ended
    cases ended
  · rename_i byte' tail' again
    obtain ⟨rfl, rfl⟩ := List.cons.inj (stopped.symm.trans again)
    rfl

theorem scanLoop_eq_feed (s : Scanner) (offset : Nat) (rest : Bytes) (mutations : List Mutation)
    (queries : List Nat) :
    s.scanLoop offset rest mutations queries =
      ((machine.feed s offset rest).1, mutations ++ mutationsOf (machine.feed s offset rest).2,
        queries ++ queriesOf (machine.feed s offset rest).2) := by
  -- Each case is one turn of the loop: skip, then hand one byte to the body.
  induction s, offset, rest, mutations, queries using scanLoop.induct with
  | case1 s offset rest mutations queries ended =>
    rw [feed_skipped, ended, scanLoop]
    split
    · simp [mutationsOf, queriesOf]
    · simp_all
  | case2 s offset rest mutations queries byte tail stopped next m accepted ih =>
    rw [feed_skipped, stopped, Transducer.feed, step_stopped stopped, scanLoop_stopped stopped,
      accepted]
    simp [ih]
  | case3 s offset rest mutations queries byte tail stopped next accepted ih =>
    rw [feed_skipped, stopped, Transducer.feed, step_stopped stopped, scanLoop_stopped stopped,
      accepted]
    simp [ih]
  | case4 s offset rest mutations queries byte tail stopped next accepted ih =>
    rw [feed_skipped, stopped, Transducer.feed, step_stopped stopped, scanLoop_stopped stopped,
      accepted]
    simp [ih]

/-- Both fast paths together agree with the byte-at-a-time transducer. -/
theorem scan_eq_feed (s : Scanner) (input : Bytes) :
    s.scan input = reported (machine.feed s 0 input) := by
  unfold scan
  split
  · rename_i plain
    simp only [plainChunk, Bool.and_eq_true, decide_eq_true_eq, Bool.not_eq_true',
      List.contains_eq_mem, decide_eq_false_iff_not] at plain
    have skipped := machine.feed_skip (ground_ignores plain.1 plain.2) 0 []
    rw [List.append_nil, Transducer.feed_nil] at skipped
    rw [skipped]
    rfl
  · rw [scanLoop_eq_feed, List.nil_append, List.nil_append]
    rfl

/-- Scan single-byte chunks one after the other, with positions counted from the
first of them. -/
def scanEach (s : Scanner) (start : Nat) : Bytes → Scanner × List Mutation × List Nat
  | [] => (s, [], [])
  | byte :: rest =>
    let first := s.scan [byte]
    let last := first.1.scanEach (start + 1) rest
    (last.1, first.2.1 ++ last.2.1, first.2.2.map (start + ·) ++ last.2.2)

theorem scanEach_eq_feed (s : Scanner) (start : Nat) (input : Bytes) :
    s.scanEach start input = reported (machine.feed s start input) := by
  induction input generalizing s start with
  | nil => rfl
  | cons byte rest ih =>
    have shifted := machine.feed_shift s start 0 [byte]
    have whole := machine.feed_append s start [byte] rest
    rw [Nat.add_zero] at shifted
    rw [List.singleton_append, shifted, List.length_singleton] at whole
    rw [scanEach, scan_eq_feed, ih, whole]
    simp only [reported, mutationsOf_append, queriesOf_append, mutationsOf_shift, queriesOf_shift]

theorem scan_eq_scanEach (s : Scanner) (input : Bytes) : s.scan input = s.scanEach 0 input := by
  rw [scan_eq_feed, scanEach_eq_feed]

end Scanner

namespace ProgramStatusStore

/-- Everything observable about a sequence of scanned and committed chunks. -/
structure Fed where
  mutations : List Mutation
  queries : List Nat
  store : ProgramStatusStore
  deriving DecidableEq, Repr

/-- Scan and commit chunk by chunk from stream position `start`; query positions
are absolute. -/
def feedChunks (s : ProgramStatusStore) (start : Nat) : List Bytes → Except ProgramStatusError Fed
  | [] => .ok { mutations := [], queries := [], store := s }
  | chunk :: rest =>
    match s.scan chunk with
    | .error e => .error e
    | .ok plan =>
      match s.commit plan with
      | (.error e, _) => .error e
      | (.ok (), next) =>
        match next.feedChunks (start + chunk.length) rest with
        | .error e => .error e
        | .ok last => .ok {
            mutations := plan.mutations ++ last.mutations
            queries := plan.queries.map (start + ·) ++ last.queries
            store := last.store }

/-- The commit of an input's mutations and continuation after `chunks` chunks. -/
def advanced (s : ProgramStatusStore) (run : Scanner × List (Nat × Signal)) (chunks : Nat) :
    ProgramStatusStore :=
  { (mutationsOf run.2).foldl apply s with
    scanner := run.1, generation := s.generation + chunks }

theorem apply_frame (s : ProgramStatusStore) (scanner : Scanner) (generation : Nat)
    (m : Mutation) :
    ({ s with scanner, generation }).apply m = { s.apply m with scanner, generation } := by
  cases m <;> rfl

theorem foldl_apply_frame (s : ProgramStatusStore) (scanner : Scanner) (generation : Nat)
    (mutations : List Mutation) :
    mutations.foldl apply { s with scanner, generation } =
      { mutations.foldl apply s with scanner, generation } := by
  induction mutations generalizing s with
  | nil => rfl
  | cons m rest ih => rw [List.foldl_cons, apply_frame, ih, List.foldl_cons]

theorem apply_identity (s : ProgramStatusStore) (m : Mutation) :
    (s.apply m).identity = s.identity ∧ (s.apply m).generation = s.generation ∧
      (s.apply m).limit = s.limit ∧ (s.apply m).revision ≤ s.revision + 1 := by
  have kept (keep : ProgramStatusRecord → Bool) : (s.retain keep).revision ≤ s.revision + 1 := by
    simp only [retain]
    split <;> omega
  cases m with
  | report record => exact ⟨rfl, rfl, rfl, Nat.le_refl _⟩
  | clear id => exact ⟨rfl, rfl, rfl, kept _⟩
  | exit => exact ⟨rfl, rfl, rfl, kept _⟩
  | reset => exact ⟨rfl, rfl, rfl, kept _⟩

theorem foldl_apply_bounds (s : ProgramStatusStore) (mutations : List Mutation) :
    (mutations.foldl apply s).identity = s.identity ∧
      (mutations.foldl apply s).generation = s.generation ∧
      (mutations.foldl apply s).revision ≤ s.revision + mutations.length := by
  induction mutations generalizing s with
  | nil => exact ⟨rfl, rfl, Nat.le_refl _⟩
  | cons m rest ih =>
    obtain ⟨identity, generation, -, revision⟩ := apply_identity s m
    obtain ⟨identity', generation', revision'⟩ := ih (s.apply m)
    rw [List.foldl_cons, List.length_cons]
    refine ⟨identity'.trans identity, generation'.trans generation, ?_⟩
    omega

theorem scan_ok {s : ProgramStatusStore} {chunk : Bytes} {plan : ProgramStatusPlan}
    (scanned : s.scan chunk = .ok plan) :
    plan.identity = s.identity ∧ plan.generation = s.generation ∧
      (plan.scanner, plan.mutations, plan.queries) = s.scanner.scan chunk := by
  unfold scan at scanned
  split at scanned
  · cases scanned
  · split at scanned
    · cases scanned
    · obtain rfl := Except.ok.inj scanned
      exact ⟨rfl, rfl, rfl⟩

theorem queriesOf_sublist (outputs : List (Nat × Signal)) :
    (queriesOf outputs).Sublist (outputs.map Prod.fst) := by
  induction outputs with
  | nil => exact .slnil
  | cons output outputs ih =>
    obtain ⟨position, _ | _⟩ := output
    · exact ih.cons position
    · exact ih.cons_cons position

/-- The queries of a plan end within the chunk, in strictly increasing order. -/
theorem scan_queries {s : ProgramStatusStore} {chunk : Bytes} {plan : ProgramStatusPlan}
    (scanned : s.scan chunk = .ok plan) :
    plan.queries.Pairwise (· < ·) ∧ ∀ stop ∈ plan.queries, 0 < stop ∧ stop ≤ chunk.length := by
  have reported := (scan_ok scanned).2.2
  rw [Scanner.scan_eq_feed] at reported
  obtain ⟨-, queries⟩ := Prod.mk.inj (Prod.mk.inj reported).2
  obtain ⟨sorted, bounds⟩ := Scanner.machine.feed_ascends s.scanner 0 chunk
  have sublist := queriesOf_sublist (Scanner.machine.feed s.scanner 0 chunk).2
  rw [queries]
  refine ⟨sorted.sublist sublist, fun stop member => ?_⟩
  simpa using bounds stop (sublist.subset member)

/-- Scan and commit of one chunk, in terms of the byte-at-a-time transducer. -/
theorem scan_commit {s : ProgramStatusStore} {chunk : Bytes} {plan : ProgramStatusPlan}
    (scanned : s.scan chunk = .ok plan) (start : Nat) :
    plan.mutations = mutationsOf (Scanner.machine.feed s.scanner start chunk).2 ∧
      plan.queries.map (start + ·) =
        queriesOf (Scanner.machine.feed s.scanner start chunk).2 ∧
      s.commit plan = (.ok (), s.advanced (Scanner.machine.feed s.scanner start chunk) 1) := by
  obtain ⟨identity, generation, planned⟩ := scan_ok scanned
  rw [Scanner.scan_eq_feed] at planned
  simp only [Scanner.reported, Prod.mk.injEq] at planned
  obtain ⟨scanner, mutations, queries⟩ := planned
  have shifted := Scanner.machine.feed_shift s.scanner start 0 chunk
  rw [Nat.add_zero] at shifted
  rw [shifted, mutationsOf_shift, queriesOf_shift]
  refine ⟨mutations, by rw [queries], ?_⟩
  obtain ⟨-, unchanged, -⟩ := foldl_apply_bounds s plan.mutations
  rw [mutations] at unchanged
  simp only [commit, identity, generation, ne_eq, not_true_eq_false, or_self, if_false, advanced,
    mutationsOf_shift, scanner, unchanged, mutations]

theorem feedChunks_ok {s : ProgramStatusStore} {start : Nat} {cut : List Bytes} {fed : Fed}
    (succeeded : s.feedChunks start cut = .ok fed) :
    fed = {
      mutations := mutationsOf (Scanner.machine.feed s.scanner start cut.flatten).2
      queries := queriesOf (Scanner.machine.feed s.scanner start cut.flatten).2
      store := s.advanced (Scanner.machine.feed s.scanner start cut.flatten) cut.length } := by
  induction cut generalizing s start fed with
  | nil =>
    obtain rfl := Except.ok.inj succeeded
    rfl
  | cons chunk rest ih =>
    rw [feedChunks] at succeeded
    cases scanned : s.scan chunk with
    | error e => simp [scanned] at succeeded
    | ok plan =>
      obtain ⟨mutations, queries, committed⟩ := scan_commit scanned start
      simp only [scanned, committed] at succeeded
      split at succeeded
      · cases succeeded
      · rename_i last continued
        obtain rfl := Except.ok.inj succeeded
        have tail := ih continued
        simp only [List.flatten_cons, Transducer.feed_append, List.length_cons]
        simp only [tail, mutations, queries, advanced, mutationsOf_append, queriesOf_append,
          List.foldl_append, foldl_apply_frame, Fed.mk.injEq, true_and]
        rw [Nat.add_assoc, Nat.add_comm 1]

theorem mutationsOf_length (outputs : List (Nat × Signal)) :
    (mutationsOf outputs).length ≤ outputs.length := List.length_filterMap_le _ _

/-- Chunks within the scan bound are accepted while the counters have room: one
generation a chunk, and at most one revision a byte. -/
theorem feedChunks_succeeds {s : ProgramStatusStore} {start : Nat} {cut : List Bytes}
    (bounded : ∀ chunk ∈ cut, chunk.length ≤ maxScanBytes)
    (generations : s.generation + cut.length ≤ u64Max)
    (revisions : s.revision + cut.flatten.length + 1 ≤ u64Max) :
    ∃ fed, s.feedChunks start cut = .ok fed := by
  induction cut generalizing s start with
  | nil => exact ⟨_, rfl⟩
  | cons chunk rest ih =>
    rw [List.length_cons] at generations
    rw [List.flatten_cons, List.length_append] at revisions
    have small := bounded chunk (List.mem_cons_self ..)
    obtain ⟨plan, scanned⟩ : ∃ plan, s.scan chunk = .ok plan := by
      have room : ¬ (s.generation = u64Max ∨ s.revision > u64Max - (chunk.length + 1)) := by omega
      rw [scan, if_neg (by omega), if_neg room]
      exact ⟨_, rfl⟩
    obtain ⟨-, -, committed⟩ := scan_commit scanned start
    -- The chunk's mutations moved the revision by at most its length.
    have applied := foldl_apply_bounds s
      (mutationsOf (Scanner.machine.feed s.scanner start chunk).2)
    have few := (mutationsOf_length _).trans
      (Scanner.machine.outputs_le_inputs s.scanner start chunk)
    obtain ⟨last, continued⟩ :
        ∃ fed, (s.advanced (Scanner.machine.feed s.scanner start chunk) 1).feedChunks
          (start + chunk.length) rest = .ok fed := by
      apply ih
      · exact fun other member => bounded other (List.mem_cons_of_mem _ member)
      · simp only [advanced]
        omega
      · simp only [advanced]
        omega
    rw [feedChunks]
    simp only [scanned, committed, continued]
    exact ⟨_, rfl⟩

/-- Cutting an input differently changes nothing but the number of commits: two
cuts that are both accepted report the same mutations and the same absolute query
positions and leave stores that differ in their generation only. A cut within the
scan bound is accepted while the counters have room, and scanning with the fast
paths is scanning byte by byte. -/
theorem chunk_split_invariance (s : ProgramStatusStore) (start : Nat) (cut other : List Bytes)
    (same : cut.flatten = other.flatten) :
    (∀ first second, s.feedChunks start cut = .ok first → s.feedChunks start other = .ok second →
      first.mutations = second.mutations ∧ first.queries = second.queries ∧
      first.store.records = second.store.records ∧
      first.store.revision = second.store.revision ∧
      first.store.scanner = second.store.scanner ∧
      first.store = { second.store with generation := s.generation + cut.length }) ∧
    ((∀ chunk ∈ cut, chunk.length ≤ maxScanBytes) → s.generation + cut.length ≤ u64Max →
      s.revision + cut.flatten.length + 1 ≤ u64Max → ∃ fed, s.feedChunks start cut = .ok fed) ∧
    s.scanner.scan cut.flatten = s.scanner.scanEach 0 cut.flatten := by
  refine ⟨?_, feedChunks_succeeds, Scanner.scan_eq_scanEach _ _⟩
  intro first second accepted accepted'
  obtain rfl := feedChunks_ok accepted
  obtain rfl := feedChunks_ok accepted'
  rw [same]
  exact ⟨rfl, rfl, rfl, rfl, rfl, rfl⟩

/-- A detection query whose terminator is cut in two. -/
theorem chunk_split_invariance_query :
    ∃ first second, feedChunks { identity := 0 } 5 [programStatusReply] = .ok first ∧
      feedChunks { identity := 0 } 5 [programStatusReply.take 9, [], programStatusReply.drop 9] =
        .ok second ∧ first.queries = second.queries ∧ first.store.scanner = second.store.scanner := by
  have law := chunk_split_invariance { identity := 0 } 5 [programStatusReply]
    [programStatusReply.take 9, [], programStatusReply.drop 9] (by decide)
  have law' := chunk_split_invariance { identity := 0 } 5
    [programStatusReply.take 9, [], programStatusReply.drop 9] [programStatusReply] (by decide)
  obtain ⟨first, accepted⟩ := law.2.1 (by decide) (by decide) (by decide)
  obtain ⟨second, accepted'⟩ := law'.2.1 (by decide) (by decide) (by decide)
  have agree := law.1 first second accepted accepted'
  exact ⟨first, second, accepted, accepted', agree.2.1, agree.2.2.2.2.1⟩

end ProgramStatusStore
end PtyRuntime
