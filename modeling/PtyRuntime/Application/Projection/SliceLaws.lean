import PtyRuntime.Application.Projection.Slices

/-! Where the replies to a chunk land, and that they land there however the output stream
is divided into chunks. -/
namespace PtyRuntime

theorem appendReply_eq_ok {aggregate bytes appended : Bytes} {limit : Nat} (short : aggregate.length ≤ limit) :
    Coordinator.appendReply aggregate bytes limit = .ok appended ↔
      appended = aggregate ++ bytes ∧ appended.length ≤ limit := by
  unfold Coordinator.appendReply
  split
  · rename_i long
    refine iff_of_false (by simp) ?_
    rintro ⟨rfl, fits⟩
    rw [List.length_append] at fits
    omega
  · rename_i fits
    constructor
    · intro same
      obtain rfl := Except.ok.inj same
      refine ⟨rfl, ?_⟩
      rw [List.length_append]
      omega
    · rintro ⟨rfl, -⟩
      rfl

theorem map_eq_ok {ε α β : Type} {f : α → β} {x : Except ε α} {b : β} :
    x.map f = .ok b ↔ ∃ a, x = .ok a ∧ f a = b := by
  cases x with
  | error e => exact iff_of_false nofun (by rintro ⟨a, wrong, -⟩; cases wrong)
  | ok a =>
    constructor
    · intro same
      exact ⟨a, rfl, Except.ok.inj same⟩
    · rintro ⟨_, same, rfl⟩
      obtain rfl := Except.ok.inj same
      rfl

namespace Engine

variable {σ : Type} {engine : Engine σ} {limit : Nat} {t : σ}

theorem chain_eq_ok {first : Except ProjectionError (Bytes × σ)} {next : σ → Except ProjectionError (Bytes × σ)}
    {reply : Bytes} {t' : σ} :
    chain first next = .ok (reply, t') ↔
      ∃ early u late, first = .ok (early, u) ∧ next u = .ok (late, t') ∧ reply = early ++ late := by
  cases first with
  | error e => exact iff_of_false nofun (by rintro ⟨early, u, late, wrong, -⟩; cases wrong)
  | ok replied =>
    obtain ⟨early, u⟩ := replied
    rw [chain, map_eq_ok]
    constructor
    · rintro ⟨⟨late, w⟩, later, same⟩
      obtain ⟨rfl, rfl⟩ := Prod.mk.inj same
      exact ⟨early, u, late, rfl, later, rfl⟩
    · rintro ⟨_, _, late, same, later, rfl⟩
      obtain ⟨rfl, rfl⟩ := Prod.mk.inj (Except.ok.inj same)
      exact ⟨(late, t'), later, rfl⟩

theorem chain_assoc (first : Except ProjectionError (Bytes × σ)) (next last : σ → Except ProjectionError (Bytes × σ)) :
    chain (chain first next) last = chain first fun t => chain (next t) last := by
  cases first with
  | error e => rfl
  | ok replied =>
    obtain ⟨early, t⟩ := replied
    simp only [chain]
    cases next t with
    | error e => rfl
    | ok replied =>
      obtain ⟨late, u⟩ := replied
      simp only [Except.map]
      cases last u with
      | error e => rfl
      | ok replied => simp only [List.append_assoc]

@[simp] theorem chain_nil (t : σ) (next : σ → Except ProjectionError (Bytes × σ)) :
    chain (.ok ([], t)) next = next t := by
  rw [chain]
  cases next t <;> rfl

@[simp] theorem chain_done (first : Except ProjectionError (Bytes × σ)) :
    (chain first fun t => .ok ([], t)) = first := by
  cases first with
  | error e => rfl
  | ok replied => simp [chain, Except.map]

theorem feedStatusSlice_ok {bytes aggregate reply : Bytes} {t' : σ} (short : aggregate.length ≤ limit) :
    engine.feedStatusSlice t bytes aggregate limit = .ok (reply, t') ↔
      ∃ effects, engine.call t bytes = .ok (effects, t') ∧ reply = aggregate ++ effects ∧ reply.length ≤ limit := by
  unfold feedStatusSlice
  cases called : engine.call t bytes with
  | error e => exact iff_of_false nofun (by rintro ⟨effects, wrong, -⟩; cases wrong)
  | ok fed =>
    obtain ⟨effects, u⟩ := fed
    dsimp only
    rw [map_eq_ok]
    constructor
    · rintro ⟨appended, joined, same⟩
      obtain ⟨rfl, rfl⟩ := Prod.mk.inj same
      obtain ⟨rfl, fits⟩ := (appendReply_eq_ok short).mp joined
      exact ⟨effects, rfl, rfl, fits⟩
    · rintro ⟨_, same, rfl, fits⟩
      obtain ⟨rfl, rfl⟩ := Prod.mk.inj (Except.ok.inj same)
      exact ⟨_, (appendReply_eq_ok short).mpr ⟨rfl, fits⟩, rfl⟩

theorem respond_cons {slice answer reply : Bytes} {rest : List (Bytes × Bytes)} {t' : σ} :
    engine.respond t ((slice, answer) :: rest) = .ok (reply, t') ↔
      ∃ effects u more, engine.call t slice = .ok (effects, u) ∧ engine.respond u rest = .ok (more, t') ∧
        reply = effects ++ answer ++ more := by
  rw [respond, chain_eq_ok]
  constructor
  · rintro ⟨effects, u, late, called, later, rfl⟩
    obtain ⟨_, _, more, same, later, rfl⟩ := chain_eq_ok.mp later
    obtain ⟨rfl, rfl⟩ := Prod.mk.inj (Except.ok.inj same)
    exact ⟨effects, u, more, called, later, (List.append_assoc _ _ _).symm⟩
  · rintro ⟨effects, u, more, called, later, rfl⟩
    exact ⟨effects, u, answer ++ more, called, chain_eq_ok.mpr ⟨answer, u, more, rfl, later, rfl⟩,
      List.append_assoc _ _ _⟩

/-- The loop succeeds exactly if every feed does and the whole reply fits; what has been
answered already stays in front. -/
theorem feedQueries_ok {bytes aggregate reply : Bytes} {start : Nat} {queries : List Nat} {t' : σ}
    (short : aggregate.length ≤ limit) :
    engine.feedQueries bytes limit t start aggregate queries = .ok (reply, t') ↔
      ∃ more, engine.respond t (pieces bytes start queries) = .ok (more, t') ∧ reply = aggregate ++ more ∧
        reply.length ≤ limit := by
  induction queries generalizing t start aggregate with
  | nil =>
    unfold feedQueries pieces
    split
    · rw [feedStatusSlice_ok short]
      constructor
      · rintro ⟨effects, called, rfl, fits⟩
        exact ⟨effects, respond_cons.mpr ⟨effects, t', [], called, rfl, by simp⟩, rfl, fits⟩
      · rintro ⟨more, answered, rfl, fits⟩
        obtain ⟨effects, u, last, called, ended, rfl⟩ := respond_cons.mp answered
        obtain ⟨rfl, rfl⟩ := Prod.mk.inj (Except.ok.inj ended)
        exact ⟨effects, called, by simp, by simpa using fits⟩
    · constructor
      · intro same
        obtain ⟨rfl, rfl⟩ := Prod.mk.inj (Except.ok.inj same)
        exact ⟨[], rfl, (List.append_nil _).symm, short⟩
      · rintro ⟨more, ended, rfl, -⟩
        obtain ⟨rfl, rfl⟩ := Prod.mk.inj (Except.ok.inj ended)
        rw [List.append_nil]
  | cons stop rest ih =>
    rw [feedQueries, pieces]
    constructor
    · intro fed
      split at fed
      · cases fed
      rename_i sliced
      obtain ⟨effects, called, rfl, fits⟩ := (feedStatusSlice_ok short).mp sliced
      split at fed
      · cases fed
      rename_i joined
      obtain ⟨rfl, fits⟩ := (appendReply_eq_ok fits).mp joined
      obtain ⟨more, answered, rfl, whole⟩ := (ih fits).mp fed
      exact ⟨_, respond_cons.mpr ⟨effects, _, more, called, answered, rfl⟩, by simp, whole⟩
    · rintro ⟨more, answered, rfl, whole⟩
      obtain ⟨effects, u, later, called, after, rfl⟩ := respond_cons.mp answered
      -- the length of the whole reply bounds each of its prefixes
      have first : (aggregate ++ effects).length ≤ limit := by
        simp only [List.length_append] at whole ⊢
        omega
      have second : (aggregate ++ effects ++ programStatusReply).length ≤ limit := by
        simp only [List.length_append] at whole ⊢
        omega
      rw [(feedStatusSlice_ok short).mpr ⟨effects, called, rfl, first⟩]
      dsimp only
      rw [(appendReply_eq_ok first).mpr ⟨rfl, second⟩]
      exact (ih second).mpr ⟨later, after, by simp, by simpa using whole⟩

/-- Feeding a chunk succeeds exactly if every slice does and the whole reply fits. -/
theorem feedStatusSlices_ok {bytes reply : Bytes} {queries : List Nat} {t' : σ} :
    engine.feedStatusSlices t bytes queries limit = .ok (reply, t') ↔
      engine.respond t (slices bytes queries) = .ok (reply, t') ∧ reply.length ≤ limit := by
  unfold feedStatusSlices slices
  split
  · rw [respond_cons]
    constructor
    · intro fed
      split at fed
      · cases fed
      split at fed
      · cases fed
      rename_i called fits
      obtain ⟨rfl, rfl⟩ := Prod.mk.inj (Except.ok.inj fed)
      exact ⟨⟨_, _, [], called, rfl, by simp⟩, Nat.le_of_not_lt fits⟩
    · rintro ⟨⟨effects, u, more, called, ended, rfl⟩, fits⟩
      obtain ⟨rfl, rfl⟩ := Prod.mk.inj (Except.ok.inj ended)
      simp only [List.append_nil] at fits ⊢
      rw [called]
      exact if_neg (Nat.not_lt.mpr fits)
  · rw [feedQueries_ok (Nat.zero_le limit)]
    simp

theorem pieces_flatten {bytes : Bytes} {start : Nat} {queries : List Nat} (sorted : queries.Pairwise (· < ·))
    (bounds : ∀ stop ∈ queries, start ≤ stop ∧ stop ≤ bytes.length) :
    ((pieces bytes start queries).map Prod.fst).flatten = bytes.drop start := by
  induction queries generalizing start with
  | nil =>
    unfold pieces
    split
    · simp
    · rename_i ended
      rw [List.drop_eq_nil_of_le (Nat.le_of_not_lt ended)]
      rfl
  | cons stop rest ih =>
    obtain ⟨later, sorted⟩ := List.pairwise_cons.mp sorted
    obtain ⟨before, inside⟩ := bounds stop List.mem_cons_self
    rw [pieces, List.map_cons, List.flatten_cons,
      ih sorted fun next member => ⟨(later next member).le, (bounds next (List.mem_cons_of_mem _ member)).2⟩]
    have whole : bytes.take stop ++ bytes.drop stop = bytes := List.take_append_drop stop bytes
    conv_rhs => rw [← whole, List.drop_append_of_le_length (by rw [List.length_take]; omega)]

/-- The slice with a query's answer ends where the query does. -/
theorem pieces_take {bytes : Bytes} {start : Nat} {queries : List Nat} (sorted : queries.Pairwise (· < ·))
    (bounds : ∀ stop ∈ queries, start ≤ stop ∧ stop ≤ bytes.length) {index stop : Nat}
    (query : queries[index]? = some stop) :
    (((pieces bytes start queries).take (index + 1)).map Prod.fst).flatten = (bytes.take stop).drop start ∧
      ((pieces bytes start queries)[index]?).map Prod.snd = some programStatusReply := by
  induction queries generalizing start index with
  | nil => cases query
  | cons first rest ih =>
    obtain ⟨later, sorted⟩ := List.pairwise_cons.mp sorted
    obtain ⟨before, inside⟩ := bounds first List.mem_cons_self
    cases index with
    | zero =>
      obtain rfl := Option.some.inj query
      exact ⟨by simp [pieces], rfl⟩
    | succ index =>
      have query : rest[index]? = some stop := query
      have after : first < stop := later stop (List.mem_of_getElem? query)
      obtain ⟨taken, answer⟩ := ih sorted
        (fun next member => ⟨(later next member).le, (bounds next (List.mem_cons_of_mem _ member)).2⟩) query
      refine ⟨?_, answer⟩
      rw [pieces, List.take_succ_cons, List.map_cons, List.flatten_cons, taken]
      have split : bytes.take stop = bytes.take first ++ (bytes.take stop).drop first := by
        have joined := List.take_append_drop first (bytes.take stop)
        rw [List.take_take, Nat.min_eq_left after.le] at joined
        exact joined.symm
      conv_rhs => rw [split, List.drop_append_of_le_length (by rw [List.length_take]; omega)]

theorem replies_append (engine : Engine σ) (t : σ) (s : Scanner) (start : Nat) (first second : Bytes) :
    engine.replies t s (first ++ second) =
      chain (engine.replies t s first) fun t => engine.replies t (Scanner.machine.feed s start first).1 second := by
  induction first generalizing t s start with
  | nil => simp [replies]
  | cons byte rest ih =>
    simp only [List.cons_append, replies, Transducer.feed, chain_assoc]
    congr 1
    funext u
    congr 1
    funext w
    exact ih w _ (start + 1)

/-- Bytes that complete no query are answered as the engine answers them together. -/
theorem Action.quiet (action : engine.Action) (t : σ) (s : Scanner) (start : Nat) {bytes : Bytes}
    (silent : queriesOf (Scanner.machine.feed s start bytes).2 = []) :
    engine.replies t s bytes = engine.call t bytes := by
  induction bytes generalizing t s start with
  | nil => rw [replies, action.unit]
  | cons byte rest ih =>
    rw [Transducer.feed, queriesOf_append, List.append_eq_nil_iff] at silent
    obtain ⟨here, later⟩ := silent
    have other : (Scanner.machine.step s byte).2 ≠ some .query := by
      intro query
      rw [query] at here
      cases here
    have joined := action.append t [byte] rest
    rw [List.singleton_append] at joined
    rw [replies, joined]
    simp only [other, if_false, chain_nil]
    congr 1
    funext u
    exact ih u _ (start + 1) later

/-- Bytes whose last one completes the only query are answered together and then once more. -/
theorem Action.query (action : engine.Action) (t : σ) (s : Scanner) (start : Nat) {bytes : Bytes}
    (last : queriesOf (Scanner.machine.feed s start bytes).2 = [start + bytes.length]) :
    engine.replies t s bytes = chain (engine.call t bytes) fun t => .ok (programStatusReply, t) := by
  induction bytes generalizing t s start with
  | nil => cases last
  | cons byte rest ih =>
    rw [Transducer.feed, queriesOf_append] at last
    obtain ⟨-, bounds⟩ := Scanner.machine.feed_ascends (Scanner.machine.step s byte).1 (start + 1) rest
    by_cases query : (Scanner.machine.step s byte).2 = some .query
    · -- the first query ends with this byte, so it is the last byte
      rw [query] at last
      obtain ⟨same, none⟩ := List.cons.inj last
      obtain rfl : rest = [] := by
        simp only [List.length_cons] at same
        exact List.length_eq_zero_iff.mp (by omega)
      simp [replies, query]
    · have silent : queriesOf ((Scanner.machine.step s byte).2.map (start + 1, ·)).toList = [] := by
        cases output : (Scanner.machine.step s byte).2 with
        | none => rfl
        | some signal =>
          cases signal with
          | mutation m => rfl
          | query => exact absurd output query
      rw [silent, List.nil_append, List.length_cons, Nat.add_comm rest.length, ← Nat.add_assoc] at last
      have joined := action.append t [byte] rest
      rw [List.singleton_append] at joined
      rw [replies, joined, chain_assoc]
      simp only [query, if_false, chain_nil]
      congr 1
      funext u
      exact ih u _ (start + 1) last

/-- The first query of what is left cuts it in two: the bytes up to its end complete no
other, and the later queries are those of the rest. -/
theorem first_query {s : Scanner} {bytes : Bytes} {start stop : Nat} {rest : List Nat} (within : start ≤ bytes.length)
    (found : queriesOf (Scanner.machine.feed s start (bytes.drop start)).2 = stop :: rest) :
    start < stop ∧ stop ≤ bytes.length ∧ bytes.drop start = (bytes.take stop).drop start ++ bytes.drop stop ∧
      queriesOf (Scanner.machine.feed s start ((bytes.take stop).drop start)).2 = [stop] ∧
      queriesOf (Scanner.machine.feed (Scanner.machine.feed s start ((bytes.take stop).drop start)).1 stop
        (bytes.drop stop)).2 = rest := by
  obtain ⟨-, bounds⟩ := Scanner.machine.feed_ascends s start (bytes.drop start)
  have inside := bounds stop ((ProgramStatusStore.queriesOf_sublist _).subset (found ▸ List.mem_cons_self))
  rw [List.length_drop] at inside
  have size : ((bytes.take stop).drop start).length = stop - start := by
    rw [List.length_drop, List.length_take]
    omega
  have split : bytes.drop start = (bytes.take stop).drop start ++ bytes.drop stop := by
    have whole := List.take_append_drop stop bytes
    conv_lhs => rw [← whole, List.drop_append_of_le_length (by rw [List.length_take]; omega)]
  have position : start + ((bytes.take stop).drop start).length = stop := by omega
  rw [split, Transducer.feed_append, queriesOf_append, position] at found
  obtain ⟨ascending, early⟩ := Scanner.machine.feed_ascends s start ((bytes.take stop).drop start)
  obtain ⟨-, late⟩ := Scanner.machine.feed_ascends (Scanner.machine.feed s start ((bytes.take stop).drop start)).1 stop
    (bytes.drop stop)
  refine ⟨by omega, by omega, split, ?_⟩
  cases first : queriesOf (Scanner.machine.feed s start ((bytes.take stop).drop start)).2 with
  | nil =>
    rw [first, List.nil_append] at found
    have after := late stop ((ProgramStatusStore.queriesOf_sublist _).subset (found ▸ List.mem_cons_self))
    omega
  | cons head others =>
    rw [first, List.cons_append] at found
    obtain ⟨rfl, found⟩ := List.cons.inj found
    have sorted := ascending.sublist (ProgramStatusStore.queriesOf_sublist _)
    rw [first] at sorted
    cases others with
    | nil => exact ⟨rfl, found⟩
    | cons next others =>
      have above := (List.pairwise_cons.mp sorted).1 next List.mem_cons_self
      have below := early next ((ProgramStatusStore.queriesOf_sublist _).subset (first ▸ List.mem_cons_of_mem _ List.mem_cons_self))
      omega

theorem Action.respond_pieces (action : engine.Action) {bytes : Bytes} (queries : List Nat) (t : σ) (s : Scanner)
    {start : Nat} (within : start ≤ bytes.length)
    (found : queriesOf (Scanner.machine.feed s start (bytes.drop start)).2 = queries) :
    engine.respond t (pieces bytes start queries) = engine.replies t s (bytes.drop start) := by
  induction queries generalizing t s start with
  | nil =>
    rw [pieces, action.quiet t s start found]
    split
    · simp [respond]
    · rename_i ended
      rw [List.drop_eq_nil_of_le (Nat.le_of_not_lt ended), action.unit]
      rfl
  | cons stop rest ih =>
    obtain ⟨after, inside, split, one, others⟩ := first_query within found
    have position : start + ((bytes.take stop).drop start).length = stop := by
      rw [List.length_drop, List.length_take]
      omega
    rw [pieces, respond, split, replies_append engine t s start, action.query t s start (by rw [position]; exact one),
      chain_assoc]
    congr 1
    funext u
    congr 1
    funext w
    exact ih w _ inside others

/-- The slices of a scanned chunk are answered as its bytes are one by one. -/
theorem Action.respond_slices (action : engine.Action) (t : σ) {store : ProgramStatusStore} {chunk : Bytes}
    {plan : ProgramStatusPlan} (scanned : store.scan chunk = .ok plan) :
    engine.respond t (slices chunk plan.queries) = engine.replies t store.scanner chunk := by
  have found : queriesOf (Scanner.machine.feed store.scanner 0 chunk).2 = plan.queries := by
    have queries := (ProgramStatusStore.scan_commit scanned 0).2.1
    simpa using queries.symm
  unfold slices
  split
  · rename_i none
    rw [none] at found
    simp [respond, action.quiet t store.scanner 0 found]
  · exact action.respond_pieces plan.queries t store.scanner (Nat.zero_le _) found

/-- A stream that was taken has been answered byte by byte. -/
theorem Action.feedStream_ok (action : engine.Action) {store : ProgramStatusStore} {cut : List Bytes} {reply : Bytes}
    {t' : σ} (fed : engine.feedStream limit t store cut = .ok (reply, t')) :
    engine.replies t store.scanner cut.flatten = .ok (reply, t') := by
  induction cut generalizing t store reply with
  | nil => exact fed
  | cons chunk rest ih =>
    rw [feedStream] at fed
    cases scanned : store.scan chunk with
    | error e =>
      rw [scanned] at fed
      cases fed
    | ok plan =>
      obtain ⟨-, -, committed⟩ := ProgramStatusStore.scan_commit scanned 0
      rw [scanned] at fed
      obtain ⟨early, u, late, first, next, rfl⟩ := chain_eq_ok.mp fed
      rw [committed] at next
      obtain ⟨answered, -⟩ := feedStatusSlices_ok.mp first
      rw [action.respond_slices t scanned] at answered
      rw [List.flatten_cons, replies_append engine t store.scanner 0, answered]
      exact chain_eq_ok.mpr ⟨early, u, late, rfl, ih next, rfl⟩

end Engine
end PtyRuntime
