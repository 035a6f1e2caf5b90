import PtyRuntime.Application.Projection.SliceLaws

/-! The replies to a whole output stream, and the coordinator's own feeding of a chunk as
the feeding with its engine made explicit. -/
namespace PtyRuntime
open Thread

namespace Engine

variable {σ : Type} {engine : Engine σ} {limit : Nat}

/-- What the surroundings answer to a feed, if the engine is this one. -/
def heard (engine : Engine σ) (t : σ) (bytes : Bytes) : Answer where
  fed := (engine.feed t bytes).map (·.map Prod.fst)

/-- The answers to one slice after the other, up to the first that fails. -/
def heardAll (engine : Engine σ) (t : σ) : List (Bytes × Bytes) → List Answer
  | [] => []
  | (slice, _) :: rest =>
    engine.heard t slice :: match engine.call t slice with
      | .error _ => []
      | .ok (_, t) => heardAll engine t rest

theorem feed_alone (t : σ) (bytes : Bytes) (c : Coordinator) :
    ∃ c', (Coordinator.feed bytes).alone c [engine.heard t bytes] = some ((engine.call t bytes).map Prod.fst, c') := by
  unfold call
  cases fed : engine.feed t bytes with
  | none =>
    obtain ⟨c', failed⟩ := Coordinator.fail_alone .worker
      { c with
        trace := { c.trace with fed := c.trace.fed ++ bytes }
        order := c.order.give (bytes.map .byte) }
    refine ⟨c', ?_⟩
    change ((Coordinator.nativeCall (·.fed) : Work (Except ProjectionError Bytes)).alone _ _) = _
    simp only [Coordinator.nativeCall, heard, fed]
    exact alone_bind failed
  | some result =>
    cases result with
    | error e => exact ⟨_, by simp only [heard, fed]; rfl⟩
    | ok replied => exact ⟨_, by simp only [heard, fed]; rfl⟩

theorem feedStatusSlice_alone (t : σ) (bytes aggregate : Bytes) (c : Coordinator) :
    ∃ c', (Coordinator.feedStatusSlice bytes aggregate limit).alone c [engine.heard t bytes] =
      some ((engine.feedStatusSlice t bytes aggregate limit).map Prod.fst, c') := by
  obtain ⟨c', fed⟩ := engine.feed_alone t bytes c
  refine ⟨c', ?_⟩
  rw [Coordinator.feedStatusSlice, feedStatusSlice, ← List.append_nil [engine.heard t bytes], alone_bind fed]
  cases engine.call t bytes with
  | error e => rfl
  | ok replied =>
    obtain ⟨effects, u⟩ := replied
    change (pure (Coordinator.appendReply aggregate effects limit) : Work _).alone c' [] = _
    rw [alone_pure]
    dsimp only
    cases Coordinator.appendReply aggregate effects limit <;> rfl

/-- A slice that was taken is followed by the answers to the slices after it. -/
theorem heardAll_cons {t u : σ} {slice answer effects : Bytes} {rest : List (Bytes × Bytes)}
    (called : engine.call t slice = .ok (effects, u)) :
    engine.heardAll t ((slice, answer) :: rest) = engine.heard t slice :: engine.heardAll u rest := by
  rw [heardAll, called]

theorem heard_prefix (t : σ) (slice answer : Bytes) (rest : List (Bytes × Bytes)) :
    [engine.heard t slice] <+: engine.heardAll t ((slice, answer) :: rest) := by
  rw [heardAll]
  exact ⟨_, rfl⟩

theorem feedStatusSlice_called {t u : σ} {slice aggregate reply : Bytes}
    (sliced : engine.feedStatusSlice t slice aggregate limit = .ok (reply, u)) :
    ∃ effects, engine.call t slice = .ok (effects, u) := by
  unfold feedStatusSlice at sliced
  cases called : engine.call t slice with
  | error e =>
    rw [called] at sliced
    cases sliced
  | ok fed =>
    obtain ⟨effects, w⟩ := fed
    rw [called] at sliced
    obtain ⟨appended, -, same⟩ := map_eq_ok.mp sliced
    obtain ⟨-, rfl⟩ := Prod.mk.inj same
    exact ⟨effects, rfl⟩

theorem feedQueries_alone (bytes : Bytes) (queries : List Nat) (t : σ) (start : Nat) (aggregate : Bytes)
    (c : Coordinator) :
    ∃ inputs c', inputs <+: engine.heardAll t (pieces bytes start queries) ∧
      (Coordinator.feedQueries bytes limit start aggregate queries).alone c inputs =
        some ((engine.feedQueries bytes limit t start aggregate queries).map Prod.fst, c') := by
  induction queries generalizing t start aggregate c with
  | nil =>
    unfold Coordinator.feedQueries feedQueries pieces
    split
    · obtain ⟨c', fed⟩ := engine.feedStatusSlice_alone t (bytes.drop start) aggregate c
      exact ⟨_, c', heard_prefix t _ _ _, fed⟩
    · exact ⟨[], c, List.nil_prefix, rfl⟩
  | cons stop rest ih =>
    rw [Coordinator.feedQueries, feedQueries, pieces]
    obtain ⟨c', fed⟩ := engine.feedStatusSlice_alone t ((bytes.take stop).drop start) aggregate c
    cases sliced : engine.feedStatusSlice t ((bytes.take stop).drop start) aggregate limit with
    | error e =>
      rw [sliced] at fed
      refine ⟨_, c', heard_prefix t _ _ _, ?_⟩
      rw [← List.append_nil [engine.heard t ((bytes.take stop).drop start)], alone_bind fed]
      rfl
    | ok taken =>
      obtain ⟨effects, u⟩ := taken
      rw [sliced] at fed
      cases joined : Coordinator.appendReply effects programStatusReply limit with
      | error e =>
        refine ⟨_, c', heard_prefix t _ _ _, ?_⟩
        rw [← List.append_nil [engine.heard t ((bytes.take stop).drop start)], alone_bind fed]
        simp only [Except.map, joined]
        rfl
      | ok answered =>
        obtain ⟨inputs, c'', heard, later⟩ := ih u stop answered c'
        refine ⟨engine.heard t ((bytes.take stop).drop start) :: inputs, c'', ?_, ?_⟩
        · obtain ⟨_, called⟩ := feedStatusSlice_called sliced
          rw [heardAll_cons called]
          exact List.cons_prefix_cons.mpr ⟨rfl, heard⟩
        · rw [← List.singleton_append, alone_bind fed]
          simp only [Except.map, joined]
          exact later

/-- The coordinator's feeding of a chunk, alone and with the engine's answers, replies as
the engine's own. -/
theorem feedStatusSlices_alone (bytes : Bytes) (queries : List Nat) (t : σ) (c : Coordinator) :
    ∃ inputs c', inputs <+: engine.heardAll t (slices bytes queries) ∧
      (Coordinator.feedStatusSlices bytes queries limit).alone c inputs =
        some ((engine.feedStatusSlices t bytes queries limit).map Prod.fst, c') := by
  unfold Coordinator.feedStatusSlices feedStatusSlices slices
  by_cases without : queries = []
  · obtain ⟨c', fed⟩ := engine.feed_alone t bytes c
    simp only [without, if_true]
    refine ⟨_, c', heard_prefix t bytes [] [], ?_⟩
    rw [← List.append_nil [engine.heard t bytes], alone_bind fed]
    cases engine.call t bytes with
    | error e => rfl
    | ok replied =>
      obtain ⟨effects, u⟩ := replied
      simp only [Except.map]
      split <;> rfl
  · simp only [without, if_false]
    exact feedQueries_alone bytes queries t 0 [] c

/-- A stream whose chunks are all scanned is taken if its whole reply fits. -/
theorem Action.feedStream_complete (action : engine.Action) {t t' : σ} {store : ProgramStatusStore} {start : Nat}
    {cut : List Bytes} {fed : ProgramStatusStore.Fed} {reply : Bytes} (scanned : store.feedChunks start cut = .ok fed)
    (replied : engine.replies t store.scanner cut.flatten = .ok (reply, t')) (fits : reply.length ≤ limit) :
    engine.feedStream limit t store cut = .ok (reply, t') := by
  induction cut generalizing t store start fed reply with
  | nil => exact replied
  | cons chunk rest ih =>
    rw [ProgramStatusStore.feedChunks] at scanned
    cases planned : store.scan chunk with
    | error e =>
      rw [planned] at scanned
      cases scanned
    | ok plan =>
      obtain ⟨-, -, committed⟩ := ProgramStatusStore.scan_commit planned 0
      rw [planned] at scanned
      simp only [committed] at scanned
      rw [List.flatten_cons, replies_append engine t store.scanner 0] at replied
      obtain ⟨early, u, late, first, next, rfl⟩ := chain_eq_ok.mp replied
      rw [List.length_append] at fits
      rw [← action.respond_slices t planned] at first
      rw [feedStream, planned]
      refine chain_eq_ok.mpr ⟨early, u, late, feedStatusSlices_ok.mpr ⟨first, by omega⟩, ?_, rfl⟩
      rw [committed]
      cases continued : (store.advanced (Scanner.machine.feed store.scanner 0 chunk) 1).feedChunks
          (start + chunk.length) rest with
      | error e =>
        rw [continued] at scanned
        cases scanned
      | ok last => exact ih continued next (by omega)

/-- A slice has the capability reply behind it if a query ends it, and nothing otherwise. -/
theorem pieces_last {bytes : Bytes} {start : Nat} {queries : List Nat} {index : Nat}
    (beyond : queries.length ≤ index) :
    ∀ piece, (pieces bytes start queries)[index]? = some piece → piece.2 = [] := by
  induction queries generalizing start index with
  | nil =>
    intro piece found
    unfold pieces at found
    split at found
    · obtain rfl := List.mem_singleton.mp (List.mem_of_getElem? found)
      rfl
    · cases found
  | cons stop rest ih =>
    cases index with
    | zero => simp at beyond
    | succ index => exact ih (Nat.le_of_succ_le_succ beyond)

theorem slices_placed {store : ProgramStatusStore} {chunk : Bytes} {plan : ProgramStatusPlan}
    (scanned : store.scan chunk = .ok plan) :
    ((slices chunk plan.queries).map Prod.fst).flatten = chunk ∧
      (∀ (index stop : Nat), plan.queries[index]? = some stop →
        (((slices chunk plan.queries).take (index + 1)).map Prod.fst).flatten = chunk.take stop ∧
          ((slices chunk plan.queries)[index]?).map Prod.snd = some programStatusReply) ∧
      ∀ (index : Nat) (piece : Bytes × Bytes), plan.queries.length ≤ index →
        (slices chunk plan.queries)[index]? = some piece → piece.2 = [] := by
  obtain ⟨sorted, bounds⟩ := ProgramStatusStore.scan_queries scanned
  have within : ∀ stop ∈ plan.queries, 0 ≤ stop ∧ stop ≤ chunk.length :=
    fun stop member => ⟨Nat.zero_le _, (bounds stop member).2⟩
  unfold slices
  split
  · rename_i without
    refine ⟨by simp, fun index stop found => ?_, fun index piece _ found => ?_⟩
    · rw [without] at found
      cases found
    · obtain rfl := List.mem_singleton.mp (List.mem_of_getElem? found)
      rfl
  · refine ⟨pieces_flatten sorted within, fun index stop found => ?_,
      fun index piece beyond found => pieces_last beyond piece found⟩
    obtain ⟨taken, answer⟩ := pieces_take sorted within found
    exact ⟨taken, answer⟩

/-- The query positions are the ends of the bytes on which the scanner, wherever an earlier
chunk left it, recognizes a query. -/
theorem query_ends {store : ProgramStatusStore} {chunk : Bytes} {plan : ProgramStatusPlan}
    (scanned : store.scan chunk = .ok plan) (stop : Nat) :
    stop ∈ plan.queries ↔ ∃ before byte after, chunk = before ++ byte :: after ∧ stop = before.length + 1 ∧
      (Scanner.machine.step (Scanner.machine.feed store.scanner 0 before).1 byte).2 = some .query := by
  have queries := (ProgramStatusStore.scan_commit scanned 0).2.1
  simp only [Nat.zero_add, List.map_id'] at queries
  have emitted : stop ∈ plan.queries ↔ (stop, Signal.query) ∈ (Scanner.machine.feed store.scanner 0 chunk).2 := by
    rw [queries]
    unfold queriesOf
    rw [List.mem_filterMap]
    constructor
    · rintro ⟨⟨position, signal⟩, member, same⟩
      cases signal with
      | mutation m => cases same
      | query =>
        obtain rfl := Option.some.inj same
        exact member
    · intro member
      exact ⟨_, member, rfl⟩
  rw [emitted, Transducer.mem_feed]
  simp only [Nat.zero_add]

/-- The query positions of a scanned chunk ascend within it and are exactly where the
scanner recognizes a query, so the slices are the chunk and each query is answered after
the effects of the bytes up to its end. Feeding them succeeds, with that reply, exactly if
each slice is taken and the reply is no longer than the limit; the coordinator, whatever
its state, gives the same result. When feeding one piece after another is feeding them
joined, any two divisions of a stream into chunks that are taken have one reply, and every
division whose chunks are scanned is taken if the reply fits. -/
theorem query_replies_placed (engine : Engine σ) (limit : Nat) :
    (∀ (store : ProgramStatusStore) (chunk : Bytes) (plan : ProgramStatusPlan), store.scan chunk = .ok plan →
      (plan.queries.Pairwise (· < ·) ∧ (∀ stop ∈ plan.queries, 1 ≤ stop ∧ stop ≤ chunk.length) ∧
        ∀ stop, stop ∈ plan.queries ↔ ∃ before byte after, chunk = before ++ byte :: after ∧
          stop = before.length + 1 ∧
          (Scanner.machine.step (Scanner.machine.feed store.scanner 0 before).1 byte).2 = some .query) ∧
      (((slices chunk plan.queries).map Prod.fst).flatten = chunk ∧
        (∀ (index stop : Nat), plan.queries[index]? = some stop →
          (((slices chunk plan.queries).take (index + 1)).map Prod.fst).flatten = chunk.take stop ∧
            ((slices chunk plan.queries)[index]?).map Prod.snd = some programStatusReply) ∧
        ∀ (index : Nat) (piece : Bytes × Bytes), plan.queries.length ≤ index →
          (slices chunk plan.queries)[index]? = some piece → piece.2 = []) ∧
      (∀ t reply t', engine.feedStatusSlices t chunk plan.queries limit = .ok (reply, t') ↔
        engine.respond t (slices chunk plan.queries) = .ok (reply, t') ∧ reply.length ≤ limit) ∧
      ∀ t c, ∃ inputs c', inputs <+: engine.heardAll t (slices chunk plan.queries) ∧
        (Coordinator.feedStatusSlices chunk plan.queries limit).alone c inputs =
          some ((engine.feedStatusSlices t chunk plan.queries limit).map Prod.fst, c')) ∧
    (engine.Action → ∀ (t : σ) (store : ProgramStatusStore) (cut : List Bytes),
      (∀ other taken taken', cut.flatten = other.flatten → engine.feedStream limit t store cut = .ok taken →
        engine.feedStream limit t store other = .ok taken' → taken = taken') ∧
      ∀ reply t', (∀ chunk ∈ cut, chunk.length ≤ maxScanBytes) → store.generation + cut.length ≤ u64Max →
        store.revision + cut.flatten.length + 1 ≤ u64Max →
        engine.replies t store.scanner cut.flatten = .ok (reply, t') → reply.length ≤ limit →
        engine.feedStream limit t store cut = .ok (reply, t')) := by
  refine ⟨fun store chunk plan scanned => ⟨?_, slices_placed scanned, fun t reply t' => feedStatusSlices_ok,
    fun t c => feedStatusSlices_alone chunk plan.queries t c⟩, fun action t store cut => ⟨?_, ?_⟩⟩
  · obtain ⟨sorted, bounds⟩ := ProgramStatusStore.scan_queries scanned
    exact ⟨sorted, bounds, query_ends scanned⟩
  · rintro other ⟨reply, u⟩ ⟨reply', u'⟩ same taken taken'
    have first := action.feedStream_ok taken
    have second := action.feedStream_ok taken'
    rw [same, second] at first
    exact (Except.ok.inj first).symm
  · intro reply t' bounded generations revisions replied fits
    obtain ⟨fed, scanned⟩ := @ProgramStatusStore.feedChunks_succeeds store 0 cut bounded generations revisions
    exact action.feedStream_complete scanned replied fits

/-- An engine that counts its bytes and answers each bell with one of its own. -/
def bell : Engine Nat where
  feed t bytes := some (.ok (bytes.filter (· == 7), t + bytes.length))

theorem bell_action : bell.Action where
  unit _ := rfl
  append t first second := by simp [call, bell, chain, Except.map, Nat.add_assoc]

/-- A query cut in two, between bells: the capability reply comes between theirs either way. -/
theorem query_replies_placed_bells :
    bell.feedStream 12 0 { identity := 0 } [7 :: programStatusReply.take 9, [], programStatusReply.drop 9 ++ [7]] =
        .ok (7 :: programStatusReply ++ [7], 12) ∧
      (∀ taken, bell.feedStream 12 0 { identity := 0 } [7 :: programStatusReply ++ [7]] = .ok taken →
        taken = (7 :: programStatusReply ++ [7], 12)) ∧
      (bell.feedStatusSlices 0 (programStatusReply ++ [7]) [10] 11 = .ok (programStatusReply ++ [7], 11) ↔
        bell.respond 0 (slices (programStatusReply ++ [7]) [10]) = .ok (programStatusReply ++ [7], 11) ∧
          (programStatusReply ++ [7]).length ≤ 11) := by
  have law := query_replies_placed bell 12
  have cut := law.2 bell_action 0 { identity := 0 } [7 :: programStatusReply.take 9, [], programStatusReply.drop 9 ++ [7]]
  have first := cut.2 (7 :: programStatusReply ++ [7]) 12 (by decide) (by decide) (by decide) (by decide) (by decide)
  refine ⟨first, fun taken whole => ?_, ?_⟩
  · exact (cut.1 [7 :: programStatusReply ++ [7]] _ _ (by decide) first whole).symm
  · cases planned : ({ identity := 0 } : ProgramStatusStore).scan (programStatusReply ++ [7]) with
    | error e => exact absurd planned (by cases e <;> decide)
    | ok plan =>
      have queries : plan.queries = [10] := by
        have stops := (ProgramStatusStore.scan_commit planned 0).2.1
        simpa using stops.trans (by decide : _ = [10])
      have fed := ((query_replies_placed bell 11).1 _ _ plan planned).2.2.1 0 (programStatusReply ++ [7]) 11
      rw [queries] at fed
      exact fed

end Engine
end PtyRuntime
