import Mathlib.Algebra.Order.BigOperators.Group.List
import PtyRuntime.Domain.ProgramStatus.OwnedLaws

/-! The memory reservations of the program status store cover what it allocates. What a scan
plans is paid for byte by byte: every byte of the chunk brings the reservation's rate, and
the body of a report under way holds what its earlier bytes have saved. -/
namespace PtyRuntime

def ProgramStatusRecord.textBytes (r : ProgramStatusRecord) : Nat :=
  r.id.length + ([r.app, r.resolvedApp, r.msg, r.title].map fun v => (v.map List.length).getD 0).sum

def Mutation.heapBytes : Mutation → Nat
  | .report record => recordBytes + record.textBytes
  | .clear id => id.length
  | .exit | .reset => 0

theorem exact_capacity {text : Option Text} (sized : ∀ t ∈ text, t.Exact) :
    (text.map (·.capacity)).getD 0 = ((text.map (·.items)).map List.length).getD 0 := by
  cases text with
  | none => rfl
  | some t => exact sized t rfl

theorem OwnedRecord.Exact.heapBytes {r : OwnedRecord} (sized : r.Exact) : r.heapBytes = r.forget.textBytes := by
  simp only [OwnedRecord.heapBytes, ProgramStatusRecord.textBytes, OwnedRecord.forget, List.map_cons, List.map_nil,
    exact_capacity sized.app, exact_capacity sized.resolvedApp, exact_capacity sized.msg, exact_capacity sized.title]
  rw [show r.id.capacity = r.id.items.length from sized.id]

theorem OwnedMutation.Exact.heapBytes {m : OwnedMutation} (sized : m.Exact) : m.heapBytes = m.forget.heapBytes := by
  cases m with
  | report record => exact congrArg (recordBytes + ·) (OwnedRecord.Exact.heapBytes sized)
  | clear id => exact sized
  | exit => rfl
  | reset => rfl

namespace Report

/-- What the fields read so far would own. -/
def Fields.size (fields : Fields) : Nat :=
  ([fields.id, fields.app, fields.msg, fields.title].map fun v => (v.map List.length).getD 0).sum

theorem decode_length_le {value text : Bytes} {limit : Nat} (decoded : decode value limit = some text) :
    text.length ≤ value.length := by
  have filled := OwnedReport.decode_fills decoded
  have shorter : (value.rdropWhile (· == '='.toUInt8)).length ≤ value.length := (List.rdropWhile_prefix _ _).length_le
  omega

theorem setField_size {fields next : Fields} {key value : Bytes} (set : setField fields key value = some next) :
    next.size ≤ fields.size + value.length := by
  unfold setField at set
  iterate 5
    split at set
    · obtain rfl := Option.some.inj set
      simp only [Fields.size, List.map_cons, List.map_nil, List.sum_cons, List.sum_nil, Option.map_some, Option.getD_some]
      omega
  split at set
  · obtain ⟨text, read, rfl⟩ := Option.map_eq_some_iff.mp set
    have short := decode_length_le read
    simp only [Fields.size, List.map_cons, List.map_nil, List.sum_cons, List.sum_nil, Option.map_some, Option.getD_some]
    omega
  split at set
  · obtain ⟨text, read, rfl⟩ := Option.map_eq_some_iff.mp set
    have short := decode_length_le read
    simp only [Fields.size, List.map_cons, List.map_nil, List.sum_cons, List.sum_nil, Option.map_some, Option.getD_some]
    omega
  · obtain rfl := Option.some.inj set
    omega

theorem trimAscii_length_le (bytes : Bytes) : (trimAscii bytes).length ≤ bytes.length :=
  Nat.le_trans (List.rdropWhile_prefix _ _).length_le (List.dropWhile_sublist _).length_le

theorem parsePair_size {fields next : Fields} {pair : Bytes} (parsed : parsePair fields pair = some next) :
    next.size ≤ fields.size + pair.length := by
  unfold parsePair at parsed
  split at parsed
  · rw [Option.some.inj parsed]
    omega
  · rename_i separator _
    have value : (trimAscii (pair.drop (separator + 1))).length ≤ pair.length := by
      have trimmed := trimAscii_length_le (pair.drop (separator + 1))
      rw [List.length_drop] at trimmed
      omega
    dsimp only at parsed
    repeat' split at parsed
    all_goals first
      | cases parsed; done
      | (obtain rfl := Option.some.inj parsed; omega)
      | (have grown := setField_size parsed; omega)

theorem fold_size {pairs : List Bytes} {fields next : Fields} (parsed : pairs.foldlM parsePair fields = some next) :
    next.size ≤ fields.size + (pairs.map List.length).sum := by
  induction pairs generalizing fields with
  | nil =>
    obtain rfl := Option.some.inj parsed
    exact Nat.le_add_right _ _
  | cons pair pairs ih =>
    rw [List.foldlM_cons] at parsed
    obtain ⟨middle, first, parsed⟩ := Option.bind_eq_some_iff.mp parsed
    have one := parsePair_size first
    have rest := ih parsed
    rw [List.map_cons, List.sum_cons]
    omega

theorem sum_le_intercalate (separator : UInt8) (pieces : List Bytes) :
    (pieces.map List.length).sum ≤ ([separator].intercalate pieces).length := by
  induction pieces with
  | nil => exact Nat.zero_le _
  | cons piece pieces ih =>
    cases pieces with
    | nil => simp [List.intercalate]
    | cons next pieces =>
      simp only [List.intercalate, List.intersperse, List.flatten_cons, List.length_append] at ih ⊢
      rw [List.map_cons, List.sum_cons]
      omega

theorem record_textBytes (fields : Fields) (state : ProgramState) : (record fields state).textBytes ≤ fields.size := by
  have app : (((fields.app.filter fun v => !v.isEmpty && v.all idByte).map List.length).getD 0) ≤
      (fields.app.map List.length).getD 0 := by
    cases fields.app with
    | none => exact Nat.le_refl _
    | some v => by_cases kept : (!v.isEmpty && v.all idByte) = true <;> simp [Option.filter, kept]
  have id : (fields.id.getD []).length = (fields.id.map List.length).getD 0 := by cases fields.id <;> rfl
  simp only [ProgramStatusRecord.textBytes, record, Fields.size, List.map_cons, List.map_nil, List.sum_cons,
    List.sum_nil, Option.map_none, Option.getD_none, id]
  omega

theorem conclude_heapBytes {fields : Fields} {m : Mutation} (concluded : conclude fields = some m) :
    m.heapBytes ≤ recordBytes + fields.size := by
  obtain ⟨state, -, concluded⟩ := Option.bind_eq_some_iff.mp concluded
  iterate 5
    split at concluded
    · obtain rfl := Option.some.inj concluded
      exact Nat.add_le_add_left (record_textBytes fields _) _
  split at concluded
  · obtain rfl := Option.some.inj concluded
    have id : (fields.id.getD []).length ≤ fields.size := by
      cases named : fields.id <;> simp [Fields.size, named]
    exact id.trans (Nat.le_add_left _ _)
  · cases concluded

/-- A report owns no more than its record and the bytes of its body. -/
theorem parse_heapBytes {body : Bytes} {m : Mutation} (parsed : parse body = some m) :
    m.heapBytes ≤ recordBytes + body.length := by
  rw [parse_eq] at parsed
  obtain ⟨fields, read, parsed⟩ := Option.bind_eq_some_iff.mp parsed
  have owned := conclude_heapBytes parsed
  have grown := fold_size read
  have pieces := sum_le_intercalate ':'.toUInt8 (body.splitOn ':'.toUInt8)
  rw [List.intercalate_splitOn] at pieces
  have start : Fields.size {} = 0 := rfl
  omega

end Report

/-- Twice the place of a mutation or a position, since the vectors double, and what it owns. -/
def Signal.cost : Signal → Nat
  | .mutation m => 2 * mutationBytes + m.heapBytes
  | .query => 2 * wordBytes

/-- The reservation's rate for each byte of a chunk. -/
def scanRate : Nat := 2 * mutationBytes + 2 * wordBytes + 4

namespace Scanner

/-- What the body of a report under way has saved. -/
def saved (s : Scanner) : Nat := if s.mode = .osc then 60 * min s.body.length 2 + s.body.length else 0

theorem stripStart_length {start bytes rest : Bytes} (stripped : stripStart start bytes = some rest) :
    start.length + rest.length = bytes.length := by
  unfold stripStart at stripped
  split at stripped
  · rename_i isPrefix
    obtain rfl := Option.some.inj stripped
    have shorter := (List.isPrefixOf_iff_prefix.mp isPrefix).length_le
    rw [List.length_drop]
    omega
  · cases stripped

theorem complete_cost {body : Bytes} {signal : Signal} (completed : complete body = some signal) :
    signal.cost ≤ 60 * min body.length 2 + body.length + scanRate := by
  have record : recordBytes = 128 := rfl
  have mutation : mutationBytes = 24 := rfl
  have word : wordBytes = 8 := rfl
  unfold complete at completed
  split at completed
  · rename_i report stripped
    have long := stripStart_length stripped
    have key : (ascii "7501;").length = 5 := rfl
    split at completed
    · obtain rfl := Option.some.inj completed
      simp only [Signal.cost, scanRate]
      omega
    · obtain ⟨m, parsed, rfl⟩ := Option.map_eq_some_iff.mp completed
      have owned := Report.parse_heapBytes parsed
      simp only [Signal.cost, scanRate]
      omega
  · split at completed
    · split at completed
      · obtain rfl := Option.some.inj completed
        simp only [Signal.cost, Mutation.heapBytes, scanRate]
        omega
      · cases completed
    · cases completed

theorem ended_pays (body : Bytes) (short : Prop) [Decidable short] :
    ((if short then complete body else none).map Signal.cost).getD 0 ≤
      60 * min body.length 2 + body.length + scanRate := by
  split
  · cases completed : complete body with
    | none => exact Nat.zero_le _
    | some signal => exact complete_cost completed
  · exact Nat.zero_le _

theorem accept_pays (s : Scanner) (byte : UInt8) :
    ((s.accept byte).2.map Signal.cost).getD 0 + (s.accept byte).1.saved ≤ s.saved + scanRate := by
  have mutation : mutationBytes = 24 := rfl
  have word : wordBytes = 8 := rfl
  unfold accept
  cases mode : s.mode with
  | ground => simp [saved]
  | escape =>
    dsimp only
    repeat' split
    all_goals
      simp only [saved, mode, Signal.cost, Mutation.heapBytes, scanRate, Option.map_some, Option.map_none,
        Option.getD_some, Option.getD_none, reduceCtorEq, if_true, if_false, List.length_nil]
      omega
  | osc =>
    have saves : s.saved = 60 * min s.body.length 2 + s.body.length := if_pos mode
    dsimp only
    split
    · simp [saved]
    · split
      · have paid := ended_pays (if s.escaped = true ∧ byte = '\\'.toUInt8 then s.body.dropLast else s.body)
          (Mode.osc = Mode.osc ∧ min (s.length + 1) u64Max ≤ 4096)
        have shorter : (if s.escaped = true ∧ byte = '\\'.toUInt8 then s.body.dropLast else s.body).length ≤
            s.body.length := by
          split
          · rw [List.length_dropLast]
            omega
          · exact Nat.le_refl _
        have ground : (Scanner.mk .ground [] (min (s.length + 1) u64Max) false).saved = 0 := rfl
        rw [ground]
        dsimp only
        omega
      · simp only [saved, mode, if_true, Option.map_none, Option.getD_none, scanRate]
        split
        · simp only [List.length_append, List.length_singleton]
          omega
        · omega
  | string =>
    simp only [reduceCtorEq, false_and, or_false, if_false]
    repeat' split
    all_goals simp [saved, mode]

theorem step_pays (s : Scanner) (byte : UInt8) :
    ((machine.step s byte).2.map Signal.cost).getD 0 + (machine.step s byte).1.saved ≤ s.saved + scanRate := by
  simp only [machine]
  split
  · simp
  · exact accept_pays s byte

/-- The outputs of a run cost what its mutations and positions do. -/
theorem cost_outputs (outputs : List (Nat × Signal)) :
    (outputs.map fun output => output.2.cost).sum =
      2 * mutationBytes * (mutationsOf outputs).length + ((mutationsOf outputs).map Mutation.heapBytes).sum +
        2 * wordBytes * (queriesOf outputs).length := by
  induction outputs with
  | nil => rfl
  | cons output outputs ih =>
    obtain ⟨position, m | _⟩ := output
    · have cost : (Signal.mutation m).cost = 2 * mutationBytes + m.heapBytes := rfl
      simp only [List.map_cons, List.sum_cons, ih, cost, mutationsOf_mutation, queriesOf_mutation,
        List.length_cons, Nat.mul_succ]
      omega
    · have cost : Signal.query.cost = 2 * wordBytes := rfl
      simp only [List.map_cons, List.sum_cons, ih, cost, mutationsOf_query, queriesOf_query,
        List.length_cons, Nat.mul_succ]
      omega

/-- All that a scan plans, with room for the doubling of its vectors. -/
theorem scan_cost (s : Scanner) (input : Bytes) :
    2 * mutationBytes * (s.scan input).2.1.length + ((s.scan input).2.1.map Mutation.heapBytes).sum +
      2 * wordBytes * (s.scan input).2.2.length ≤ s.saved + scanRate * input.length := by
  have paid := machine.feed_cost step_pays s 0 input
  rw [cost_outputs] at paid
  rw [scan_eq_feed]
  exact (Nat.le_add_right _ _).trans paid

end Scanner

/-- A plan is covered by the reservation for its chunk. -/
theorem OwnedScanner.Roomy.plan_covered {s : OwnedScanner} (roomy : s.Roomy) (identity generation : Nat) (chunk : Bytes) :
    (OwnedPlan.mk identity generation (s.scan chunk).1 (s.scan chunk).2.1 (s.scan chunk).2.2).retainedBytes ≤
      32768 + chunk.length * scanRate := by
  have kept := s.scan_kept chunk
  have room := (roomy.scan chunk).room
  have contents := s.scan_forget chunk
  have mutations : (s.scan chunk).2.1.items.map OwnedMutation.forget = (s.forget.scan chunk).2.1 :=
    congrArg (·.2.1) contents
  have queries : (s.scan chunk).2.2.items = (s.forget.scan chunk).2.2 := congrArg (·.2.2) contents
  have owned : ((s.scan chunk).2.1.items.map OwnedMutation.heapBytes).sum =
      ((s.forget.scan chunk).2.1.map Mutation.heapBytes).sum := by
    rw [← mutations, List.map_map]
    exact congrArg List.sum (List.map_congr_left fun m member => (kept.exact m member).heapBytes)
  have count : (s.scan chunk).2.1.items.length = (s.forget.scan chunk).2.1.length := by
    rw [← mutations, List.length_map]
  have cost := s.forget.scan_cost chunk
  have saved : s.forget.saved ≤ 120 + 4094 := by
    have stored : s.forget.body.length ≤ 4094 := roomy.stored
    simp only [Scanner.saved]
    split <;> omega
  have doubled := kept.mutations
  have answered := kept.queries
  have mutation : mutationBytes = 24 := rfl
  have word : wordBytes = 8 := rfl
  have least : leastItems = 4 := rfl
  rw [← count, ← owned, ← queries, Nat.mul_comm scanRate] at cost
  simp only [mutation, word] at cost
  simp only [Buffer.Doubled, least] at doubled answered
  simp only [OwnedPlan.retainedBytes, OwnedScanner.retainedBytes, mutation, word]
  omega

theorem length_getD_le {text : Option Bytes} {limit : Nat} (short : ∀ t, text = some t → t.length ≤ limit) :
    (text.map List.length).getD 0 ≤ limit := by
  cases text with
  | none => exact Nat.zero_le _
  | some t => exact short t rfl

theorem ProgramStatusRecord.Bounded.textBytes {r : ProgramStatusRecord} (bounded : r.Bounded) :
    r.textBytes ≤ 128 + 32 + 2048 + 192 := by
  have id : r.id.length ≤ 128 := by
    rcases bounded.id with empty | valid
    · simp [empty]
    · exact valid.2
  have app := length_getD_le fun t named => (bounded.app t named).2.1
  have msg := length_getD_le fun t named => (bounded.msg t named).1
  have title := length_getD_le fun t named => (bounded.title t named).1
  simp only [ProgramStatusRecord.textBytes, bounded.unresolved, List.map_cons, List.map_nil, List.sum_cons,
    List.sum_nil, Option.map_none, Option.getD_none]
  omega

theorem sum_map_le {α : Type} {items : List α} (weight : α → Nat) {most : Nat} (light : ∀ a ∈ items, weight a ≤ most) :
    (items.map weight).sum ≤ items.length * most := by
  have bound : ∀ n ∈ items.map weight, n ≤ most := by
    intro n member
    obtain ⟨a, inside, rfl⟩ := List.mem_map.mp member
    exact light a inside
  simpa using List.sum_le_card_nsmul (items.map weight) most bound

namespace OwnedStore

variable {limit : Nat} {s : OwnedStore}

/-- The room of the store's vectors, and of the texts of its records. -/
structure Roomy (limit : Nat) (s : OwnedStore) : Prop where
  capped : s.limit = limit
  scanner : s.scanner.Roomy
  few : s.records.items.length ≤ limit
  room : s.records.capacity ≤ 2 * limit
  exact : ∀ r ∈ s.records.items, r.Exact

theorem new_roomy {identity : Nat} {store : OwnedStore} (opened : OwnedStore.new identity limit = .ok store) :
    64 ≤ limit ∧ limit ≤ 256 ∧ store.Roomy limit := by
  unfold OwnedStore.new at opened
  split at opened
  · rename_i range
    obtain rfl := Except.ok.inj opened
    exact ⟨range.1, range.2, rfl, OwnedScanner.start_roomy, Nat.zero_le _, Nat.zero_le _, fun _ absent => (nomatch absent)⟩
  · cases opened

theorem Roomy.retain (roomy : s.Roomy limit) (keep : OwnedRecord → Bool) : (s.retain keep).Roomy limit where
  capped := roomy.capped
  scanner := roomy.scanner
  few := (List.length_filter_le _ _).trans roomy.few
  room := roomy.room
  exact r member := roomy.exact r (List.mem_filter.mp member).1

theorem Roomy.apply (positive : 4 ≤ limit) (roomy : s.Roomy limit) {m : OwnedMutation} (sized : m.Exact) :
    (s.apply m).Roomy limit := by
  cases m with
  | report record =>
    have few := roomy.few
    -- a place is free once the old record of that id, or the oldest one, is gone
    have place : ∃ records : Buffer OwnedRecord, (s.apply (.report record)).records = records.push leastItems record ∧
        records.items.length + 1 ≤ limit ∧ records.capacity = s.records.capacity ∧
        records.items ⊆ s.records.items := by
      cases found : s.records.items.findIdx? (·.id.items == record.id.items) with
      | some index =>
        have inside : index < s.records.items.length := by
          obtain ⟨bound, -⟩ := List.findIdx?_eq_some_iff_getElem.mp found
          exact bound
        refine ⟨s.records.eraseIdx index, by simp only [OwnedStore.apply, found], ?_, rfl, List.eraseIdx_subset⟩
        rw [Buffer.eraseIdx_items, List.length_eraseIdx_of_lt inside]
        omega
      | none =>
        by_cases full : s.records.items.length = s.limit
        · refine ⟨s.records.eraseIdx 0, by simp only [OwnedStore.apply, found, full, if_true], ?_, rfl,
            List.eraseIdx_subset⟩
          have capped := roomy.capped
          rw [Buffer.eraseIdx_items, List.length_eraseIdx_of_lt (by omega)]
          omega
        · have capped := roomy.capped
          exact ⟨s.records, by simp only [OwnedStore.apply, found, full, if_false], by omega, rfl, List.Subset.refl _⟩
    obtain ⟨records, pushed, free, same, old⟩ := place
    exact {
      capped := roomy.capped
      scanner := roomy.scanner
      few := by rw [pushed]; simpa using free
      room := by
        rw [pushed]
        have room := roomy.room
        have least : leastItems = 4 := rfl
        exact Buffer.push_capacity_le (by omega) (by omega) (by omega) (by omega) record
      exact := by
        rw [pushed]
        intro r member
        rcases List.mem_append.mp member with before | new
        · exact roomy.exact r (old before)
        · exact List.mem_singleton.mp new ▸ sized }
  | clear id => exact roomy.retain _
  | reset => exact roomy.retain _
  | exit => exact roomy.retain _

theorem Roomy.foldl_apply (positive : 4 ≤ limit) (roomy : s.Roomy limit) {mutations : List OwnedMutation}
    (sized : ∀ m ∈ mutations, m.Exact) : (mutations.foldl OwnedStore.apply s).Roomy limit := by
  induction mutations generalizing s with
  | nil => exact roomy
  | cons m mutations ih =>
    exact ih (roomy.apply positive (sized m (List.mem_cons_self ..))) fun m member => sized m (List.mem_cons_of_mem _ member)

/-- What a plan brings to the store that commits it. -/
structure Planned (plan : OwnedPlan) : Prop where
  scanner : plan.scanner.Roomy
  exact : ∀ m ∈ plan.mutations.items, m.Exact

theorem Roomy.commit (positive : 4 ≤ limit) (roomy : s.Roomy limit) {plan : OwnedPlan}
    (planned : plan.identity = s.identity → Planned plan) : (s.commit plan).2.Roomy limit := by
  unfold OwnedStore.commit
  split
  · exact roomy
  · rename_i current
    rw [not_or, not_not] at current
    have planned := planned current.1.symm
    have applied := roomy.foldl_apply positive planned.exact
    exact ⟨applied.capped, planned.scanner, applied.few, applied.room, applied.exact⟩

theorem Roomy.processExited (roomy : s.Roomy limit) : s.processExited.2.Roomy limit := by
  unfold OwnedStore.processExited
  split
  · exact roomy
  · have applied := roomy.retain fun r => r.state != .working && r.state != .blocked
    exact ⟨applied.capped, applied.scanner, applied.few, applied.room, applied.exact⟩

theorem Roomy.scan (roomy : s.Roomy limit) {chunk : Bytes} {plan : OwnedPlan} (scanned : s.scan chunk = .ok plan) :
    Planned plan := by
  simp only [OwnedStore.scan] at scanned
  split at scanned
  · cases scanned
  · split at scanned
    · cases scanned
    · obtain rfl := Except.ok.inj scanned
      exact ⟨roomy.scanner.clone.scan chunk, (s.scanner.clone.scan_kept chunk).exact⟩

/-- A scan's plan is within the reservation that was to be admitted for it. -/
theorem Roomy.scan_covered (roomy : s.Roomy limit) {chunk : Bytes} {plan : OwnedPlan} (scanned : s.scan chunk = .ok plan) :
    ∃ reservation, s.scanReservationFor chunk = .ok reservation ∧ plan.retainedBytes ≤ reservation := by
  simp only [OwnedStore.scan] at scanned
  split at scanned
  · cases scanned
  · rename_i short
    split at scanned
    · cases scanned
    · obtain rfl := Except.ok.inj scanned
      simp only [scanReservationFor, if_neg short]
      split
      · rename_i plain
        obtain ⟨unchanged, nothing⟩ := roomy.scanner.scan_plain plain
        refine ⟨0, rfl, ?_⟩
        rw [unchanged]
        simpa [OwnedPlan.retainedBytes, Buffer.new, Buffer.withCapacity] using nothing
      · refine ⟨_, by simp only [scanReservation, ProgramStatusStore.scanReservation, if_neg short]; rfl, ?_⟩
        exact roomy.scanner.clone.plan_covered s.identity s.generation chunk

end OwnedStore

namespace OwnedLife

open OwnedStore (Planned)

/-- The room of a store and of the plans scanned from it. -/
structure Roomy (limit : Nat) (life : OwnedLife) : Prop where
  store : life.store.Roomy limit
  plans : ∀ plan ∈ life.plans, Planned plan

theorem Roomy.step {limit : Nat} {life : OwnedLife} (positive : 4 ≤ limit) (roomy : life.Roomy limit) (event : Event) :
    (life.step event).Roomy limit := by
  obtain ⟨store, plans⟩ := roomy
  have erased (index : Nat) : ∀ plan ∈ life.plans.eraseIdx index, Planned plan :=
    fun plan member => plans plan (List.mem_of_mem_eraseIdx member)
  cases event with
  | scan chunk =>
    simp only [OwnedLife.step]
    cases scanned : life.store.scan chunk with
    | error => exact ⟨store, plans⟩
    | ok plan =>
      refine ⟨store, fun other member => ?_⟩
      rcases List.mem_append.mp member with old | new
      · exact plans other old
      · exact List.mem_singleton.mp new ▸ store.scan scanned
  | commit index =>
    simp only [OwnedLife.step]
    cases found : life.plans[index]? with
    | none => exact ⟨store, plans⟩
    | some plan => exact ⟨store.commit positive fun _ => plans plan (List.mem_of_getElem? found), erased index⟩
  | foreign plan =>
    simp only [OwnedLife.step]
    split
    · exact ⟨store, plans⟩
    · rename_i other
      exact ⟨store.commit positive fun own => absurd own other, plans⟩
  | drop index => exact ⟨store, erased index⟩
  | processExited => exact ⟨store.processExited, plans⟩

theorem Roomy.run {limit : Nat} {life : OwnedLife} (positive : 4 ≤ limit) (roomy : life.Roomy limit)
    (events : List Event) : (life.run events).Roomy limit := by
  induction events generalizing life with
  | nil => exact roomy
  | cons event events ih => exact ih (roomy.step positive event)

end OwnedLife
namespace OwnedStore

variable {limit : Nat} {s : OwnedStore}

/-- The texts of every record are within the protocol's limits. -/
def Texts (s : OwnedStore) : Prop := ∀ r ∈ s.records.items, r.forget.Bounded

theorem Roomy.heapBytes_le (roomy : s.Roomy limit) (texts : s.Texts) {r : OwnedRecord} (member : r ∈ s.records.items) :
    r.heapBytes ≤ 128 + 32 + 2048 + 192 := by
  rw [(roomy.exact r member).heapBytes]
  exact (texts r member).textBytes

theorem Roomy.reservation (roomy : s.Roomy limit) :
    s.recordReservation = 8192 + limit * (2 * recordBytes + 128 + 32 + 32 + 2048 + 192) := by
  obtain rfl := roomy.capped
  rfl

theorem Roomy.retained_covered (roomy : s.Roomy limit) (texts : s.Texts) : s.retainedBytes ≤ s.recordReservation := by
  have heap := sum_map_le OwnedRecord.heapBytes fun r member => roomy.heapBytes_le texts member
  have few := roomy.few
  have room := roomy.room
  have body : s.scanner.retainedBytes ≤ 8186 := roomy.scanner.room
  have size : recordBytes = 128 := rfl
  have reserved := roomy.reservation
  unfold retainedBytes
  rw [size] at reserved ⊢
  omega

theorem resolveApp_short {records : List OwnedRecord} (texts : ∀ r ∈ records, r.forget.Bounded) {id : Bytes} {app : Text}
    (resolved : resolveApp records id = some app) : app.capacity ≤ 32 := by
  induction id using resolveApp.induct records with
  | case1 id named found =>
    rw [resolveApp, found] at resolved
    obtain rfl := Option.some.inj resolved
    obtain ⟨r, first, app⟩ := Option.bind_eq_some_iff.mp found
    have named' : r.forget.app = some named.items := congrArg (Option.map Buffer.items) app
    have short := ((texts r (List.mem_of_find?_eq_some first)).app named.items named').2.1
    rwa [Buffer.copy_capacity]
  | case2 absent =>
    rw [resolveApp, absent] at resolved
    cases resolved
  | case3 id absent named ih =>
    rw [resolveApp, absent] at resolved
    exact ih (by simpa [named] using resolved)

theorem cloneText_le (text : Option Text) : ((cloneText text).map (·.capacity)).getD 0 ≤ (text.map (·.capacity)).getD 0 := by
  cases text with
  | none => exact Nat.le_refl _
  | some t => exact t.fits

theorem cloneRecord_heapBytes (texts : s.Texts) (r : OwnedRecord) :
    (cloneRecord s.records.items r).heapBytes ≤ r.heapBytes + 32 := by
  have id := r.id.fits
  have app := cloneText_le r.app
  have inherited : ((resolveApp s.records.items r.id.items).map (·.capacity)).getD 0 ≤ 32 := by
    cases found : resolveApp s.records.items r.id.items with
    | none => exact Nat.zero_le _
    | some app => exact resolveApp_short texts found
  have msg := cloneText_le r.msg
  have title := cloneText_le r.title
  simp only [OwnedRecord.heapBytes, cloneRecord, Buffer.copy_capacity, List.map_cons, List.map_nil, List.sum_cons,
    List.sum_nil]
  omega

theorem snapshot_covered (texts : s.Texts) : s.snapshot.retainedBytes ≤ s.snapshotReservation := by
  have clones (records : List OwnedRecord) :
      ((records.map (cloneRecord s.records.items)).map OwnedRecord.heapBytes).sum ≤
        records.length * 32 + (records.map OwnedRecord.heapBytes).sum := by
    induction records with
    | nil => exact Nat.zero_le _
    | cons r records ih =>
      have one := cloneRecord_heapBytes texts r
      simp only [List.map_cons, List.sum_cons, List.length_cons] at ih ⊢
      omega
  have heap := clones s.records.items
  simp only [OwnedSnapshot.retainedBytes, snapshot, snapshotReservation, Buffer.copy_capacity, Buffer.copy_items,
    List.length_map, Nat.mul_add]
  omega

/-- The records a store reaches are those of the store without allocations. -/
theorem reached_texts {identity : Nat} {store : OwnedStore} (opened : OwnedStore.new identity limit = .ok store)
    (events : List OwnedLife.Event) : (OwnedLife.run { store } events).store.Texts := by
  have created : ProgramStatusStore.new identity limit = .ok store.forget := by
    rw [← new_forget, opened]
    rfl
  have start : OwnedLife.Tracks { store } { store := store.forget } := ⟨rfl, rfl⟩
  have tracks := start.run events
  obtain ⟨positive, sound⟩ := ProgramStatusStore.Life.new_sound created
  have bounded := (ProgramStatusStore.Life.run_sound positive sound (events.map OwnedLife.Event.forget)).bounded
  intro r member
  refine bounded r.forget ?_
  rw [tracks.store]
  exact List.mem_map_of_mem member

end OwnedStore

/-- In every state a store reaches, the reservation for a chunk covers the plan scanned from
it, which needs nothing for plain text in ground state, the reservation for records covers what
the store retains and the one for a snapshot the snapshot; and no reservation overflows. -/
theorem reservations_cover {identity limit : Nat} {store : OwnedStore}
    (opened : OwnedStore.new identity limit = .ok store) (events : List OwnedLife.Event) :
    let s := (OwnedLife.run { store } events).store
    (∀ chunk plan, s.scan chunk = .ok plan →
      ∃ reservation, s.scanReservationFor chunk = .ok reservation ∧ plan.retainedBytes ≤ reservation) ∧
    (∀ chunk, chunk.length ≤ maxScanBytes →
      ∃ reservation, s.scanReservationFor chunk = .ok reservation ∧ reservation ≤ u64Max ∧
        (s.scanner.plainChunk chunk = true → reservation = 0)) ∧
    s.retainedBytes ≤ s.recordReservation ∧ s.recordReservation ≤ u64Max ∧
    s.snapshot.retainedBytes ≤ s.snapshotReservation ∧ s.snapshotReservation ≤ u64Max := by
  intro s
  obtain ⟨least, most, start⟩ := OwnedStore.new_roomy opened
  have roomy : s.Roomy limit :=
    (OwnedLife.Roomy.run (by omega) ⟨start, fun _ absent => (List.not_mem_nil absent).elim⟩ events).store
  have texts : s.Texts := OwnedStore.reached_texts opened events
  have few := roomy.few
  have size : recordBytes = 128 := rfl
  have word : u64Max = 18446744073709551615 := rfl
  refine ⟨fun chunk plan => roomy.scan_covered, ?_, roomy.retained_covered texts, ?_, OwnedStore.snapshot_covered texts, ?_⟩
  · intro chunk short
    have mutation : mutationBytes = 24 := rfl
    have scannable : maxScanBytes = 1048576 := rfl
    simp only [OwnedStore.scanReservationFor, OwnedStore.scanReservation, ProgramStatusStore.scanReservation,
      if_neg (Nat.not_lt.mpr short)]
    split
    · exact ⟨0, rfl, Nat.zero_le _, fun _ => rfl⟩
    · rename_i busy
      refine ⟨_, rfl, ?_, fun plain => absurd plain busy⟩
      rw [mutation]
      omega
  · have reserved := roomy.reservation
    rw [size] at reserved
    omega
  · have heap := sum_map_le OwnedRecord.heapBytes fun r member => roomy.heapBytes_le texts member
    rw [OwnedStore.snapshotReservation, size]
    omega

/-- A program whose report arrives in two chunks. -/
theorem reservations_cover_split :
    let first := Scanner.esc :: ascii "]7501;state=working:id=a"
    let s := (OwnedLife.run { store := { identity := 0, limit := 64 } }
      [.scan first, .commit 0, .scan (ascii ":app=vim" ++ [7]), .commit 0]).store
    s.retainedBytes ≤ s.recordReservation ∧ s.snapshot.retainedBytes ≤ s.snapshotReservation := by
  intro first s
  have opened : OwnedStore.new 0 64 = .ok { identity := 0, limit := 64 } := rfl
  have covered := reservations_cover opened [.scan first, .commit 0, .scan (ascii ":app=vim" ++ [7]), .commit 0]
  exact ⟨covered.2.2.1, covered.2.2.2.2.1⟩

end PtyRuntime
