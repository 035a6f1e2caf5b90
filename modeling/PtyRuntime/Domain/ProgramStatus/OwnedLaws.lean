import PtyRuntime.Domain.ProgramStatus.DecodeLaws
import PtyRuntime.Domain.ProgramStatus.Owned
import PtyRuntime.Domain.ProgramStatus.ParseLaws
import PtyRuntime.Domain.ProgramStatus.StoreRuns

/-! The store with its allocations does what the store does, and the texts of its records
are allocated at their exact size. -/
namespace PtyRuntime

def OwnedRecord.forget (r : OwnedRecord) : ProgramStatusRecord where
  id := r.id.items
  state := r.state
  app := r.app.map (·.items)
  resolvedApp := r.resolvedApp.map (·.items)
  kind := r.kind
  progress := r.progress
  msg := r.msg.map (·.items)
  title := r.title.map (·.items)

def OwnedMutation.forget : OwnedMutation → Mutation
  | .report record => .report record.forget
  | .clear id => .clear id.items
  | .exit => .exit
  | .reset => .reset

/-- All texts of the record are allocated at their exact size. -/
structure OwnedRecord.Exact (r : OwnedRecord) : Prop where
  id : r.id.Exact
  app : ∀ text ∈ r.app, text.Exact
  resolvedApp : ∀ text ∈ r.resolvedApp, text.Exact
  msg : ∀ text ∈ r.msg, text.Exact
  title : ∀ text ∈ r.title, text.Exact

def OwnedMutation.Exact : OwnedMutation → Prop
  | .report record => record.Exact
  | .clear id => id.Exact
  | .exit | .reset => True

namespace OwnedReport

/-- Digits write a byte for every eight bits. -/
theorem length_of_fold {data : Bytes} {start d : Report.Bits} (held : start.Held)
    (decoded : data.foldlM Report.Bits.push start = some d) :
    8 * d.out.length + d.count.toNat = 8 * start.out.length + start.count.toNat + 6 * data.length := by
  induction data generalizing start with
  | nil =>
    obtain rfl := Option.some.inj decoded
    rfl
  | cons b rest ih =>
    rw [List.foldlM_cons] at decoded
    obtain ⟨next, pushed, decoded⟩ := Option.bind_eq_some_iff.mp decoded
    have later := ih (held.push pushed) decoded
    obtain ⟨n, read, written⟩ := Option.bind_eq_some_iff.mp pushed
    have count : (start.count + 6).toNat = start.count.toNat + 6 := (held.accumulate read).2.2
    have step : 8 * next.out.length + next.count.toNat = 8 * start.out.length + start.count.toNat + 6 := by
      dsimp only at written
      split at written
      · rename_i byte
        obtain rfl := Option.some.inj written
        have eight : (8 : UInt32).toNat ≤ (start.count + 6).toNat := byte
        have less := UInt32.toNat_sub_of_le _ _ byte
        have same : (8 : UInt32).toNat = 8 := rfl
        simp only [List.length_append, List.length_singleton]
        omega
      · obtain rfl := Option.some.inj written
        dsimp only
        omega
    rw [List.length_cons]
    omega

/-- The room a decoded text is given in advance is filled. -/
theorem decode_fills {value text : Bytes} {limit : Nat} (decoded : Report.decode value limit = some text) :
    (value.rdropWhile (· == '='.toUInt8)).length * 3 / 4 = text.length := by
  simp only [Report.decode, bind] at decoded
  split at decoded
  · cases decoded
  obtain ⟨bits, read, decoded⟩ := Option.bind_eq_some_iff.mp decoded
  split at decoded
  · cases decoded
  obtain ⟨utf8, -, decoded⟩ := Option.bind_eq_some_iff.mp decoded
  split at decoded
  · cases decoded
  obtain rfl := Option.some.inj decoded
  have start : (Report.Bits.mk [] 0 0).Held := ⟨.inl rfl, by decide⟩
  have held := Report.held_of_fold start read
  have total := length_of_fold start read
  have few := held.count
  simp only [List.length_nil, UInt32.toNat_zero] at total
  omega

theorem decode_forget (value : Bytes) (limit : Nat) :
    (decode value limit).map (·.items) = Report.decode value limit := by
  simp only [decode, Option.map_map]
  cases Report.decode value limit with
  | none => rfl
  | some text => exact congrArg some (Buffer.extend_items _ _ _)

theorem decode_sized {value : Bytes} {limit : Nat} {text : Text} (decoded : decode value limit = some text) :
    text.Exact := by
  simp only [decode, Option.map_eq_some_iff] at decoded
  obtain ⟨bytes, read, rfl⟩ := decoded
  rw [decode_fills read]
  exact Buffer.extend_exact _ _

def Fields.forget (fields : Fields) : Report.Fields :=
  { fields with msg := fields.msg.map (·.items), title := fields.title.map (·.items) }

structure Fields.Exact (fields : Fields) : Prop where
  msg : ∀ text ∈ fields.msg, text.Exact
  title : ∀ text ∈ fields.title, text.Exact

theorem setField_forget (fields : Fields) (key value : Bytes) :
    (setField fields key value).map Fields.forget = Report.setField fields.forget key value := by
  unfold setField Report.setField
  repeat' split
  all_goals first
    | rfl
    | (rw [← decode_forget, Option.map_map, Option.map_map]
       rfl)

theorem setField_exact {fields next : Fields} {key value : Bytes} (sized : fields.Exact)
    (set : setField fields key value = some next) : next.Exact := by
  unfold setField at set
  iterate 5
    split at set
    · obtain rfl := Option.some.inj set
      exact ⟨sized.msg, sized.title⟩
  split at set
  · obtain ⟨text, read, rfl⟩ := Option.map_eq_some_iff.mp set
    exact ⟨fun other same => Option.some.inj same ▸ decode_sized read, sized.title⟩
  split at set
  · obtain ⟨text, read, rfl⟩ := Option.map_eq_some_iff.mp set
    exact ⟨sized.msg, fun other same => Option.some.inj same ▸ decode_sized read⟩
  · obtain rfl := Option.some.inj set
    exact sized

theorem parsePair_forget (fields : Fields) (pair : Bytes) :
    (parsePair fields pair).map Fields.forget = Report.parsePair fields.forget pair := by
  unfold parsePair Report.parsePair
  cases pair.findIdx? (· == '='.toUInt8) with
  | none => rfl
  | some separator =>
    simp only [apply_ite (Option.map Fields.forget), Option.map_some, Option.map_none, setField_forget]

theorem parsePair_exact {fields next : Fields} {pair : Bytes} (sized : fields.Exact)
    (parsed : parsePair fields pair = some next) : next.Exact := by
  unfold parsePair at parsed
  split at parsed
  · exact Option.some.inj parsed ▸ sized
  · dsimp only at parsed
    repeat' split at parsed
    all_goals first
      | exact Option.some.inj parsed ▸ sized
      | exact setField_exact sized parsed
      | cases parsed

theorem fold_forget (pairs : List Bytes) (fields : Fields) :
    (pairs.foldlM parsePair fields).map Fields.forget = pairs.foldlM Report.parsePair fields.forget := by
  induction pairs generalizing fields with
  | nil => rfl
  | cons pair pairs ih =>
    rw [List.foldlM_cons, List.foldlM_cons, ← parsePair_forget]
    cases parsePair fields pair with
    | none => rfl
    | some next => exact ih next

theorem fold_exact {pairs : List Bytes} {fields next : Fields} (sized : fields.Exact)
    (parsed : pairs.foldlM parsePair fields = some next) : next.Exact := by
  induction pairs generalizing fields with
  | nil => exact Option.some.inj parsed ▸ sized
  | cons pair pairs ih =>
    rw [List.foldlM_cons] at parsed
    obtain ⟨middle, first, parsed⟩ := Option.bind_eq_some_iff.mp parsed
    exact ih (parsePair_exact sized first) parsed

theorem record_forget (fields : Fields) (state : ProgramState) :
    (record fields state).forget = Report.record fields.forget state := by
  simp only [record, OwnedRecord.forget, Report.record, Fields.forget, Buffer.copy_items, Option.map_map,
    Option.map_none]
  congr 1
  exact Option.map_id' ..

theorem copied_exact {value : Option Bytes} {text : Text} (copied : text ∈ value.map Buffer.copy) : text.Exact := by
  obtain ⟨bytes, -, rfl⟩ := Option.map_eq_some_iff.mp copied
  exact Buffer.copy_exact bytes

theorem record_exact {fields : Fields} (sized : fields.Exact) (state : ProgramState) : (record fields state).Exact where
  id := Buffer.copy_exact _
  app _ copied := copied_exact copied
  resolvedApp _ absent := nomatch absent
  msg := sized.msg
  title := sized.title

/-- What the states of a report become. -/
def conclude (fields : Fields) : Option OwnedMutation := do
  let state ← fields.state
  if state == ascii "idle" then some (.report (record fields .idle))
  else if state == ascii "working" then some (.report (record fields .working))
  else if state == ascii "done" then some (.report (record fields .done))
  else if state == ascii "blocked" then some (.report (record fields .blocked))
  else if state == ascii "error" then some (.report (record fields .error))
  else if state == ascii "clear" then some (.clear (.copy (fields.id.getD [])))
  else none

theorem parse_eq (body : Bytes) :
    parse body = ((body.splitOn ':'.toUInt8).foldlM parsePair {}).bind conclude := rfl

theorem conclude_forget (fields : Fields) :
    (conclude fields).map OwnedMutation.forget = Report.conclude fields.forget := by
  unfold conclude Report.conclude
  cases state : fields.state with
  | none => simp only [Fields.forget, state, bind, Option.bind_none, Option.map_none]
  | some state' =>
    simp only [Fields.forget, state, bind, Option.bind_some, apply_ite (Option.map OwnedMutation.forget),
      Option.map_some, Option.map_none, OwnedMutation.forget, record_forget, Buffer.copy_items]

theorem conclude_exact {fields : Fields} (sized : fields.Exact) {m : OwnedMutation}
    (concluded : conclude fields = some m) : m.Exact := by
  obtain ⟨state, -, concluded⟩ := Option.bind_eq_some_iff.mp concluded
  iterate 5
    split at concluded
    · obtain rfl := Option.some.inj concluded
      exact record_exact sized _
  split at concluded
  · obtain rfl := Option.some.inj concluded
    exact Buffer.copy_exact _
  · cases concluded

theorem parse_forget (body : Bytes) : (parse body).map OwnedMutation.forget = Report.parse body := by
  rw [parse_eq, Report.parse_eq, ← show Fields.forget {} = {} from rfl, ← fold_forget]
  cases (body.splitOn ':'.toUInt8).foldlM parsePair {} with
  | none => rfl
  | some fields => exact conclude_forget fields

theorem parse_exact {body : Bytes} {m : OwnedMutation} (parsed : parse body = some m) : m.Exact := by
  rw [parse_eq] at parsed
  obtain ⟨fields, read, parsed⟩ := Option.bind_eq_some_iff.mp parsed
  have start : Fields.Exact {} := ⟨fun _ absent => (nomatch absent), fun _ absent => (nomatch absent)⟩
  exact conclude_exact (fold_exact start read) parsed

end OwnedReport

def OwnedScanner.forget (s : OwnedScanner) : Scanner :=
  { mode := s.mode, body := s.body.items, length := s.length, escaped := s.escaped }

def OwnedSignal.forget : OwnedSignal → Signal
  | .mutation m => .mutation m.forget
  | .query => .query

namespace OwnedScanner

/-- A scan leaves a continuation, mutations and query positions. -/
abbrev Scanned := OwnedScanner × Buffer OwnedMutation × Buffer Nat

def contents (scanned : Scanned) : Scanner × List Mutation × List Nat :=
  (scanned.1.forget, scanned.2.1.items.map OwnedMutation.forget, scanned.2.2.items)

theorem complete_forget (body : Bytes) : (complete body).map OwnedSignal.forget = Scanner.complete body := by
  unfold complete Scanner.complete
  cases stripStart (ascii "7501;") body with
  | some report =>
    simp only [apply_ite (Option.map OwnedSignal.forget), Option.map_map, ← OwnedReport.parse_forget]
    rfl
  | none =>
    cases stripStart (ascii "133;") body with
    | some mark =>
      simp only [apply_ite (Option.map OwnedSignal.forget)]
      rfl
    | none => rfl

theorem complete_exact {body : Bytes} {m : OwnedMutation} (completed : complete body = some (.mutation m)) : m.Exact := by
  unfold complete at completed
  split at completed
  · split at completed
    · cases completed
    · obtain ⟨parsed, read, same⟩ := Option.map_eq_some_iff.mp completed
      obtain rfl := OwnedSignal.mutation.inj same
      exact OwnedReport.parse_exact read
  · split at completed
    · split at completed
      · cases completed
        trivial
      · cases completed
    · cases completed

theorem accept_forget (s : OwnedScanner) (byte : UInt8) :
    ((s.accept byte).1.forget, (s.accept byte).2.map OwnedSignal.forget) = s.forget.accept byte := by
  unfold accept Scanner.accept
  cases mode : s.mode with
  | ground => simp only [forget, mode, Option.map_none]
  | escape =>
    simp only [forget, mode]
    repeat' split
    all_goals simp only [mode, Option.map_some, Option.map_none, Buffer.clear_items, OwnedSignal.forget, OwnedMutation.forget]
  | osc | string =>
    simp only [forget, mode]
    repeat' split
    all_goals first
      | rfl
      | simp_all [complete_forget]

theorem accept_exact {s next : OwnedScanner} {byte : UInt8} {m : OwnedMutation}
    (accepted : s.accept byte = (next, some (.mutation m))) : m.Exact := by
  unfold accept at accepted
  split at accepted
  · cases accepted
  · repeat' split at accepted
    all_goals first
      | cases accepted; trivial
      | cases accepted
  all_goals
    split at accepted
    · cases accepted
    · dsimp only at accepted
      split at accepted
      · have ended := (Prod.mk.inj accepted).2
        split at ended
        · exact complete_exact ended
        · cases ended
      · cases accepted

section Loop
variable {s : OwnedScanner} {offset : Nat} {mutations : Buffer OwnedMutation} {queries : Buffer Nat}

theorem scanLoop_forget (s : OwnedScanner) (offset : Nat) (mutations : Buffer OwnedMutation) (queries : Buffer Nat)
    (input : Bytes) :
    contents (s.scanLoop offset mutations queries input) =
      ((Scanner.machine.feed s.forget offset input).1,
        mutations.items.map OwnedMutation.forget ++ mutationsOf (Scanner.machine.feed s.forget offset input).2,
        queries.items ++ queriesOf (Scanner.machine.feed s.forget offset input).2) := by
  induction input generalizing s offset mutations queries with
  | nil => simp [scanLoop, contents, mutationsOf, queriesOf]
  | cons byte rest ih =>
    rw [scanLoop, Transducer.feed]
    by_cases skipped : s.mode = .ground ∧ byte ≠ Scanner.esc
    · have stays : Scanner.machine.step s.forget byte = (s.forget, none) := if_pos skipped
      rw [if_pos skipped, ih, stays]
      rfl
    · have accepts : Scanner.machine.step s.forget byte = s.forget.accept byte := if_neg skipped
      rw [if_neg skipped, accepts, ← accept_forget]
      rcases s.accept byte with ⟨next, _ | (m | _)⟩
      · exact ih ..
      · dsimp only
        rw [ih]
        simp [OwnedSignal.forget]
      · dsimp only
        rw [ih]
        simp [OwnedSignal.forget]

theorem scan_forget (s : OwnedScanner) (input : Bytes) : contents (s.scan input) = s.forget.scan input := by
  unfold scan
  split
  · rename_i plain
    have same : s.forget.plainChunk input = true := plain
    rw [Scanner.scan, if_pos same]
    rfl
  · rename_i busy
    rw [scanLoop_forget, Scanner.scan_eq_feed]
    rfl

/-- What a scan keeps of its two buffers. -/
structure Kept (scanned : Scanned) : Prop where
  mutations : scanned.2.1.Doubled leastItems
  queries : scanned.2.2.Doubled leastItems
  exact : ∀ m ∈ scanned.2.1.items, m.Exact

theorem scanLoop_kept (kept : Kept (s, mutations, queries)) (input : Bytes) :
    Kept (s.scanLoop offset mutations queries input) := by
  induction input generalizing s offset mutations queries with
  | nil => exact kept
  | cons byte rest ih =>
    rw [scanLoop]
    split
    · exact ih kept
    · cases accepted : s.accept byte with
      | mk next signal =>
        cases signal with
        | none => exact ih ⟨kept.mutations, kept.queries, kept.exact⟩
        | some signal =>
          cases signal with
          | mutation m =>
            refine ih ⟨kept.mutations.push m, kept.queries, fun other member => ?_⟩
            rcases List.mem_append.mp member with old | new
            · exact kept.exact other old
            · exact List.mem_singleton.mp new ▸ accept_exact accepted
          | query => exact ih ⟨kept.mutations, kept.queries.push _, kept.exact⟩

theorem scan_kept (s : OwnedScanner) (input : Bytes) : Kept (s.scan input) := by
  unfold scan
  have start (s : OwnedScanner) : Kept (s, .new, .new) :=
    ⟨Buffer.new_doubled _, Buffer.new_doubled _, fun _ absent => (nomatch absent)⟩
  split
  · exact start s
  · exact scanLoop_kept (start s) input

/-- The body fits a report, and holds something only while one is read. -/
structure Roomy (s : OwnedScanner) : Prop where
  idle : s.mode ≠ .osc → s.body.items = []
  counted : s.mode = .osc → s.body.items.length + 2 ≤ s.length
  stored : s.body.items.length ≤ 4094
  room : s.body.capacity ≤ 8186

theorem start_roomy : Roomy {} := ⟨fun _ => rfl, nofun, Nat.zero_le _, Nat.zero_le _⟩

theorem Roomy.clone (roomy : s.Roomy) : s.clone.Roomy where
  idle := roomy.idle
  counted := roomy.counted
  stored := roomy.stored
  room := by
    have stored := roomy.stored
    simp only [OwnedScanner.clone, Buffer.copy_capacity]
    omega

theorem Roomy.accept (roomy : s.Roomy) (byte : UInt8) : (s.accept byte).1.Roomy := by
  have stored := roomy.stored
  have room := roomy.room
  unfold OwnedScanner.accept
  cases mode : s.mode with
  | ground => exact ⟨fun _ => roomy.idle (by simp [mode]), nofun, stored, room⟩
  | escape =>
    have idle : s.body.items = [] := roomy.idle (by simp [mode])
    dsimp only
    repeat' split
    · exact ⟨fun other => absurd rfl other, fun _ => Nat.le_refl _, Nat.zero_le _, room⟩
    · exact ⟨fun _ => idle, nofun, stored, room⟩
    · exact ⟨fun _ => idle, nofun, stored, room⟩
    · exact roomy
    · exact ⟨fun _ => idle, nofun, stored, room⟩
  | osc =>
    have counted := roomy.counted mode
    have word : 4096 < u64Max := by decide
    dsimp only
    split
    · exact ⟨fun _ => rfl, nofun, Nat.zero_le _, room⟩
    · split
      · refine ⟨fun _ => rfl, nofun, Nat.zero_le _, ?_⟩
        split <;> exact room
      · split
        · rename_i short
          have few : s.body.items.length ≤ 4093 := by omega
          refine ⟨fun other => absurd rfl other, fun _ => ?_, ?_, ?_⟩
          · simp only [Buffer.push_items, List.length_append, List.length_singleton]
            omega
          · simp only [Buffer.push_items, List.length_append, List.length_singleton]
            omega
          · exact Buffer.push_capacity_le room (by decide) (by omega) (by decide) byte
        · exact ⟨fun other => absurd rfl other, fun _ => by dsimp only; omega, stored, room⟩
  | string =>
    have idle : s.body.items = [] := roomy.idle (by simp [mode])
    dsimp only
    split
    · exact ⟨fun _ => rfl, nofun, Nat.zero_le _, room⟩
    · split
      · refine ⟨fun _ => rfl, nofun, Nat.zero_le _, ?_⟩
        split <;> exact room
      · rw [if_neg (by simp)]
        exact ⟨fun _ => idle, nofun, stored, room⟩

theorem Roomy.scanLoop (roomy : s.Roomy) (input : Bytes) :
    (s.scanLoop offset mutations queries input).1.Roomy := by
  induction input generalizing s offset mutations queries with
  | nil => exact roomy
  | cons byte rest ih =>
    rw [OwnedScanner.scanLoop]
    split
    · exact ih roomy
    · have next := roomy.accept byte
      split <;> rename_i accepted <;> rw [accepted] at next <;> exact ih next

theorem Roomy.scan (roomy : s.Roomy) (input : Bytes) : (s.scan input).1.Roomy := by
  unfold OwnedScanner.scan
  split
  · exact roomy
  · exact roomy.scanLoop input

/-- Ground text needs nothing. -/
theorem Roomy.scan_plain (roomy : s.Roomy) {input : Bytes} (plain : s.plainChunk input = true) :
    s.clone.scan input = (s.clone, .new, .new) ∧ s.clone.retainedBytes = 0 := by
  have same : s.clone.plainChunk input = true := plain
  refine ⟨if_pos same, ?_⟩
  have ground : s.mode = .ground := by
    simp only [plainChunk, Bool.and_eq_true, decide_eq_true_eq] at plain
    exact plain.1
  simp [retainedBytes, OwnedScanner.clone, roomy.idle (by simp [ground])]

end Loop
end OwnedScanner

def OwnedPlan.forget (plan : OwnedPlan) : ProgramStatusPlan where
  identity := plan.identity
  generation := plan.generation
  scanner := plan.scanner.forget
  mutations := plan.mutations.items.map OwnedMutation.forget
  queries := plan.queries.items

def OwnedSnapshot.forget (snapshot : OwnedSnapshot) : ProgramStatusSnapshot where
  revision := snapshot.revision
  records := snapshot.records.items.map OwnedRecord.forget

namespace OwnedStore

def forget (s : OwnedStore) : ProgramStatusStore where
  identity := s.identity
  generation := s.generation
  scanner := s.scanner.forget
  records := s.records.items.map OwnedRecord.forget
  revision := s.revision
  limit := s.limit

theorem new_forget (identity limit : Nat) :
    (new identity limit).map forget = ProgramStatusStore.new identity limit := by
  unfold new ProgramStatusStore.new
  split <;> rfl

theorem scanReservationFor_forget (s : OwnedStore) (chunk : Bytes) :
    s.scanReservationFor chunk = s.forget.scanReservationFor mutationBytes chunk := rfl

theorem scan_forget (s : OwnedStore) (chunk : Bytes) : (s.scan chunk).map OwnedPlan.forget = s.forget.scan chunk := by
  have scanned : OwnedScanner.contents (s.scanner.clone.scan chunk) = s.scanner.forget.scan chunk :=
    OwnedScanner.scan_forget s.scanner.clone chunk
  simp only [scan, ProgramStatusStore.scan, forget, apply_ite (Except.map OwnedPlan.forget), ← scanned]
  rfl

theorem retain_forget (s : OwnedStore) {keep : OwnedRecord → Bool} {kept : ProgramStatusRecord → Bool}
    (same : ∀ r, keep r = kept r.forget) : (s.retain keep).forget = s.forget.retain kept := by
  have filtered : (s.records.items.filter keep).map OwnedRecord.forget =
      (s.records.items.map OwnedRecord.forget).filter kept := by
    rw [List.filter_map]
    exact congrArg _ (List.filter_congr fun r _ => same r)
  simp only [retain, forget, ProgramStatusStore.retain, Buffer.filter_items, ← filtered, List.length_map]
  rfl

theorem apply_forget (s : OwnedStore) (m : OwnedMutation) : (s.apply m).forget = s.forget.apply m.forget := by
  cases m with
  | report record =>
    have found : (s.records.items.map OwnedRecord.forget).findIdx? (·.id == record.forget.id) =
        s.records.items.findIdx? (·.id.items == record.id.items) := List.findIdx?_map
    simp only [OwnedStore.apply, OwnedMutation.forget, ProgramStatusStore.apply, forget, found, List.length_map]
    cases s.records.items.findIdx? (·.id.items == record.id.items) with
    | some index => simp [List.eraseIdx_map]
    | none =>
      dsimp only
      split <;> simp
  | clear id => exact s.retain_forget fun _ => rfl
  | reset => exact s.retain_forget fun _ => rfl
  | exit => exact s.retain_forget fun _ => rfl

theorem foldl_apply_forget (mutations : List OwnedMutation) (s : OwnedStore) :
    (mutations.foldl apply s).forget = (mutations.map OwnedMutation.forget).foldl ProgramStatusStore.apply s.forget := by
  induction mutations generalizing s with
  | nil => rfl
  | cons m mutations ih => rw [List.foldl_cons, ih, apply_forget, List.map_cons, List.foldl_cons]

theorem commit_forget (s : OwnedStore) (plan : OwnedPlan) :
    ((s.commit plan).1, (s.commit plan).2.forget) = s.forget.commit plan.forget := by
  by_cases stale : s.identity ≠ plan.identity ∨ s.generation ≠ plan.generation
  · have same : s.forget.identity ≠ plan.forget.identity ∨ s.forget.generation ≠ plan.forget.generation := stale
    rw [commit, if_pos stale, ProgramStatusStore.commit, if_pos same]
  · have same : ¬(s.forget.identity ≠ plan.forget.identity ∨ s.forget.generation ≠ plan.forget.generation) := stale
    have folded := foldl_apply_forget plan.mutations.items s
    rw [commit, if_neg stale, ProgramStatusStore.commit, if_neg same]
    simp only [OwnedPlan.forget, ← folded]
    rfl

theorem processExited_forget (s : OwnedStore) :
    (s.processExited.1, s.processExited.2.forget) = s.forget.processExited := by
  by_cases full : s.generation = u64Max ∨ s.revision = u64Max
  · have same : s.forget.generation = u64Max ∨ s.forget.revision = u64Max := full
    rw [processExited, if_pos full, ProgramStatusStore.processExited, if_pos same]
  · have same : ¬(s.forget.generation = u64Max ∨ s.forget.revision = u64Max) := full
    have applied : (s.apply .exit).forget = s.forget.apply .exit := s.apply_forget .exit
    rw [processExited, if_neg full, ProgramStatusStore.processExited, if_neg same, ← applied]
    rfl

theorem find_forget (records : List OwnedRecord) (id : Bytes) :
    ((records.map OwnedRecord.forget).find? (·.id == id)).bind (·.app) =
      ((records.find? (·.id.items == id)).bind (·.app)).map (·.items) := by
  have found : (records.map OwnedRecord.forget).find? (·.id == id) =
      (records.find? (·.id.items == id)).map OwnedRecord.forget := List.find?_map
  rw [found]
  cases records.find? (·.id.items == id) <;> rfl

theorem resolveApp_forget (records : List OwnedRecord) (ancestor : Bytes) :
    (resolveApp records ancestor).map (·.items) =
      ProgramStatusStore.resolveApp (records.map OwnedRecord.forget) ancestor := by
  induction ancestor using resolveApp.induct records with
  | case1 ancestor app found =>
    rw [resolveApp, ProgramStatusStore.resolveApp, find_forget, found]
    rfl
  | case2 absent =>
    rw [resolveApp, ProgramStatusStore.resolveApp, find_forget, absent]
    rfl
  | case3 ancestor absent named ih =>
    rw [resolveApp, ProgramStatusStore.resolveApp, find_forget, absent]
    simpa [named] using ih

theorem cloneRecord_forget (records : List OwnedRecord) (r : OwnedRecord) :
    (cloneRecord records r).forget =
      { r.forget with resolvedApp := ProgramStatusStore.resolveApp (records.map OwnedRecord.forget) r.forget.id } := by
  simp only [cloneRecord, OwnedRecord.forget, resolveApp_forget, Buffer.copy_items, cloneText, Option.map_map]
  rfl

/-- What the store with its memory shows is what the plain store shows. -/
theorem snapshot_forget (s : OwnedStore) : s.snapshot.forget = s.forget.snapshot := by
  simp only [snapshot, OwnedSnapshot.forget, ProgramStatusStore.snapshot, forget, Buffer.copy_items, List.map_map]
  congr 1
  exact List.map_congr_left fun r _ => cloneRecord_forget s.records.items r

end OwnedStore

namespace OwnedLife

open ProgramStatusStore (Life)

def Event.forget : Event → Life.Event
  | .scan chunk => .scan chunk
  | .commit index => .commit index
  | .foreign plan => .foreign plan.forget
  | .drop index => .drop index
  | .processExited => .processExited

/-- The two lives hold the same contents. -/
structure Tracks (life : OwnedLife) (l : Life) : Prop where
  store : l.store = life.store.forget
  plans : l.plans = life.plans.map OwnedPlan.forget

theorem commitPlan_tracks {s : OwnedStore} {l : Life} (store : l.store = s.forget) (plan : OwnedPlan) :
    (l.commitPlan plan.forget).store = (s.commit plan).2.forget ∧ (l.commitPlan plan.forget).plans = l.plans := by
  have committed := s.commit_forget plan
  unfold Life.commitPlan
  rw [store, ← committed]
  cases (s.commit plan).1 <;> exact ⟨rfl, rfl⟩

theorem Tracks.step {life : OwnedLife} {l : Life} (tracks : Tracks life l) (event : Event) :
    Tracks (life.step event) (l.step event.forget) := by
  obtain ⟨store, plans⟩ := tracks
  cases event with
  | scan chunk =>
    have scanned := life.store.scan_forget chunk
    simp only [OwnedLife.step, Life.step, Event.forget, store]
    rw [← scanned]
    cases life.store.scan chunk with
    | error => exact ⟨store, plans⟩
    | ok plan => exact ⟨rfl, by simp [Except.map, plans]⟩
  | commit index =>
    simp only [OwnedLife.step, Life.step, Event.forget, plans, List.getElem?_map]
    cases life.plans[index]? with
    | none => exact ⟨store, plans⟩
    | some plan =>
      have erased : (life.plans.map OwnedPlan.forget).eraseIdx index = (life.plans.eraseIdx index).map OwnedPlan.forget :=
        List.eraseIdx_map ..
      obtain ⟨committed, kept⟩ :=
        commitPlan_tracks (l := { l with plans := (life.plans.map OwnedPlan.forget).eraseIdx index }) store plan
      exact ⟨committed, kept.trans erased⟩
  | foreign plan =>
    by_cases own : plan.identity = life.store.identity
    · have same : plan.forget.identity = l.store.identity := by rw [store]; exact own
      simp only [OwnedLife.step, Life.step, Event.forget, if_pos own, if_pos same]
      exact ⟨store, plans⟩
    · have same : ¬ plan.forget.identity = l.store.identity := by rw [store]; exact own
      obtain ⟨committed, kept⟩ := commitPlan_tracks store plan
      simp only [OwnedLife.step, Life.step, Event.forget, if_neg own, if_neg same]
      exact ⟨committed, kept.trans plans⟩
  | drop index =>
    exact ⟨store, by simp only [OwnedLife.step, Life.step, Event.forget, plans, List.eraseIdx_map]⟩
  | processExited =>
    have exited := life.store.processExited_forget
    simp only [OwnedLife.step, Life.step, Event.forget, store, ← exited]
    cases life.store.processExited.1 <;> exact ⟨rfl, plans⟩

theorem Tracks.run {life : OwnedLife} {l : Life} (tracks : Tracks life l) (events : List Event) :
    Tracks (life.run events) (l.run (events.map Event.forget)) := by
  induction events generalizing life l with
  | nil => exact tracks
  | cons event events ih => exact ih (tracks.step event)

end OwnedLife
end PtyRuntime
