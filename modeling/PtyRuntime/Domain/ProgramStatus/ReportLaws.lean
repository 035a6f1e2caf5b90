import PtyRuntime.Domain.ProgramStatus.Splitting

/-! What the parser of reports lets through: every record it builds is within the
protocol's bounds, whatever bytes the program wrote. -/
namespace PtyRuntime

/-- UTF-8 without control characters, within a byte limit. -/
def PlainText (limit : Nat) (text : Bytes) : Prop :=
  text.length ≤ limit ∧ ∃ decoded, String.fromUTF8? ⟨text.toArray⟩ = some decoded ∧
    decoded.toList.any Report.isControl = false

/-- The bounds on a record's fields. -/
structure ProgramStatusRecord.Bounded (r : ProgramStatusRecord) : Prop where
  id : r.id = [] ∨ (Report.validId r.id = true ∧ r.id.length ≤ 128)
  app : ∀ app, r.app = some app → app ≠ [] ∧ app.length ≤ 32 ∧ app.all Report.idByte = true
  unresolved : r.resolvedApp = none
  kind : r.kind.isSome → r.state = .blocked
  progress : ∀ n, r.progress = some n → n ≤ 100 ∧ (r.state = .working ∨ r.state = .blocked)
  msg : ∀ text, r.msg = some text → PlainText 2048 text
  title : ∀ text, r.title = some text → PlainText 192 text

def Mutation.Bounded : Mutation → Prop
  | .report record => record.Bounded
  | .clear id => id = [] ∨ (Report.validId id = true ∧ id.length ≤ 128)
  | .exit | .reset => True

namespace Report

theorem decode_plain {value text : Bytes} {limit : Nat} (decoded : decode value limit = some text) :
    PlainText limit text := by
  simp only [decode, bind] at decoded
  split at decoded
  · cases decoded
  obtain ⟨bits, -, decoded⟩ := Option.bind_eq_some_iff.mp decoded
  split at decoded
  · cases decoded
  rename_i within
  obtain ⟨read, utf8, decoded⟩ := Option.bind_eq_some_iff.mp decoded
  split at decoded
  · cases decoded
  rename_i plain
  obtain rfl := Option.some.inj decoded
  exact ⟨by simp_all, read, utf8, by simpa using plain⟩

/-- The bounds on what the pairs read so far have set. -/
structure Fields.Bounded (fields : Fields) : Prop where
  id : ∀ id, fields.id = some id → validId id = true ∧ id.length ≤ 128
  app : ∀ app, fields.app = some app → app.length ≤ 32
  msg : ∀ text, fields.msg = some text → PlainText 2048 text
  title : ∀ text, fields.title = some text → PlainText 192 text

theorem setField_bounded {fields next : Fields} {key value : Bytes} (bounded : fields.Bounded)
    (size : oversize key value = false)
    (named : key = ascii "id" → validId value = true)
    (set : setField fields key value = some next) : next.Bounded := by
  simp only [oversize, Bool.or_eq_false_iff, Bool.and_eq_false_iff] at size
  simp only [setField] at set
  split at set
  · obtain rfl := Option.some.inj set
    exact ⟨bounded.id, bounded.app, bounded.msg, bounded.title⟩
  split at set
  · rename_i app
    obtain rfl := Option.some.inj set
    refine ⟨bounded.id, fun v same => ?_, bounded.msg, bounded.title⟩
    obtain rfl := Option.some.inj same
    simp_all
  split at set
  · rename_i id
    obtain rfl := Option.some.inj set
    refine ⟨fun v same => ?_, bounded.app, bounded.msg, bounded.title⟩
    obtain rfl := Option.some.inj same
    refine ⟨named (by simpa using id), ?_⟩
    simp_all
  split at set
  · obtain rfl := Option.some.inj set
    exact ⟨bounded.id, bounded.app, bounded.msg, bounded.title⟩
  split at set
  · obtain rfl := Option.some.inj set
    exact ⟨bounded.id, bounded.app, bounded.msg, bounded.title⟩
  split at set
  · obtain ⟨text, decoded, rfl⟩ := Option.map_eq_some_iff.mp set
    refine ⟨bounded.id, bounded.app, fun v same => ?_, bounded.title⟩
    obtain rfl := Option.some.inj same
    exact decode_plain decoded
  split at set
  · obtain ⟨text, decoded, rfl⟩ := Option.map_eq_some_iff.mp set
    refine ⟨bounded.id, bounded.app, bounded.msg, fun v same => ?_⟩
    obtain rfl := Option.some.inj same
    exact decode_plain decoded
  · obtain rfl := Option.some.inj set
    exact bounded

/-- A pair that does not reject the report leaves the fields within their bounds. -/
theorem parsePair_bounded {fields next : Fields} {pair : Bytes} (bounded : fields.Bounded)
    (parsed : parsePair fields pair = some next) : next.Bounded := by
  have skipped : some fields = some next → next.Bounded := by
    intro same
    obtain rfl := Option.some.inj same
    exact bounded
  simp only [parsePair] at parsed
  split at parsed
  · exact skipped parsed
  split at parsed
  · cases parsed
  split at parsed
  · exact skipped parsed
  split at parsed
  · exact skipped parsed
  split at parsed
  · cases parsed
  rename_i size
  split at parsed
  · split at parsed
    · cases parsed
    · exact skipped parsed
  split at parsed
  · cases parsed
  rename_i named
  split at parsed
  · exact skipped parsed
  · refine setField_bounded bounded (by simpa using size) (fun key => ?_) parsed
    simpa [key] using named

theorem fields_bounded {pairs : List Bytes} {fields next : Fields} (bounded : fields.Bounded)
    (parsed : pairs.foldlM parsePair fields = some next) : next.Bounded := by
  induction pairs generalizing fields with
  | nil =>
    obtain rfl := Option.some.inj parsed
    exact bounded
  | cons pair rest ih =>
    rw [List.foldlM_cons] at parsed
    obtain ⟨middle, first, later⟩ := Option.bind_eq_some_iff.mp parsed
    exact ih (parsePair_bounded bounded first) later

theorem parseProgress_le {progress : Option Bytes} {n : Nat} (parsed : parseProgress progress = some n) :
    n ≤ 100 := by
  simpa using (Option.filter_eq_some_iff.mp parsed).2

theorem id_bounded {fields : Fields} (bounded : fields.Bounded) :
    fields.id.getD [] = [] ∨
      (validId (fields.id.getD []) = true ∧ (fields.id.getD []).length ≤ 128) := by
  cases named : fields.id with
  | none => exact .inl rfl
  | some id => exact .inr (bounded.id id named)

theorem record_bounded {fields : Fields} (bounded : fields.Bounded) (state : ProgramState) :
    (record fields state).Bounded where
  id := id_bounded bounded
  app app named := by
    obtain ⟨given, accepted⟩ := Option.filter_eq_some_iff.mp named
    rw [Bool.and_eq_true] at accepted
    exact ⟨by simpa using accepted.1, bounded.app app given, accepted.2⟩
  unresolved := rfl
  kind some := by
    simp only [record] at some ⊢
    by_contra other
    rw [if_neg other] at some
    cases some
  progress n reached := by
    simp only [record] at reached ⊢
    split at reached
    · rename_i active
      exact ⟨parseProgress_le reached, active⟩
    · cases reached
  msg := bounded.msg
  title := bounded.title

theorem parse_bounded {body : Bytes} {m : Mutation} (parsed : parse body = some m) : m.Bounded := by
  simp only [parse, bind] at parsed
  obtain ⟨fields, pairs, parsed⟩ := Option.bind_eq_some_iff.mp parsed
  have bounded : fields.Bounded := by
    refine fields_bounded ⟨?_, ?_, ?_, ?_⟩ pairs <;> intro _ none <;> cases none
  obtain ⟨state, -, parsed⟩ := Option.bind_eq_some_iff.mp parsed
  repeat' split at parsed
  · obtain rfl := Option.some.inj parsed
    exact record_bounded bounded _
  · obtain rfl := Option.some.inj parsed
    exact record_bounded bounded _
  · obtain rfl := Option.some.inj parsed
    exact record_bounded bounded _
  · obtain rfl := Option.some.inj parsed
    exact record_bounded bounded _
  · obtain rfl := Option.some.inj parsed
    exact record_bounded bounded _
  · obtain rfl := Option.some.inj parsed
    exact id_bounded bounded
  · cases parsed

end Report

namespace Scanner

theorem complete_bounded {body : Bytes} {m : Mutation} (completed : complete body = some (.mutation m)) :
    m.Bounded := by
  simp only [complete] at completed
  split at completed
  · split at completed
    · cases completed
    · obtain ⟨parsed, read, same⟩ := Option.map_eq_some_iff.mp completed
      obtain rfl := Signal.mutation.inj same
      exact Report.parse_bounded read
  split at completed
  · split at completed
    · obtain rfl := Signal.mutation.inj (Option.some.inj completed)
      trivial
    · cases completed
  · cases completed

theorem accept_bounded {s next : Scanner} {byte : UInt8} {m : Mutation}
    (accepted : s.accept byte = (next, some (.mutation m))) : m.Bounded := by
  unfold accept at accepted
  split at accepted
  · cases accepted
  · repeat' split at accepted
    all_goals first
      | cases accepted; trivial
      | cases accepted
  all_goals
    split at accepted
    · cases accepted
    · dsimp only at accepted
      split at accepted
      · have ended := (Prod.mk.inj accepted).2
        split at ended
        · exact complete_bounded ended
        · cases ended
      · cases accepted

/-- Every mutation a scan plans is within the protocol's bounds. -/
theorem scan_bounded (s : Scanner) (input : Bytes) : ∀ m ∈ (s.scan input).2.1, m.Bounded := by
  rw [scan_eq_feed]
  have outputs : ∀ (start : Nat) (s : Scanner),
      ∀ m ∈ mutationsOf (machine.feed s start input).2, m.Bounded := by
    induction input with
    | nil => exact fun _ _ _ member => by cases member
    | cons byte rest ih =>
      intro start s m member
      simp only [Transducer.feed, mutationsOf_append, List.mem_append] at member
      rcases member with here | later
      · cases stepped : machine.step s byte with
        | mk next signal =>
          rw [stepped] at here
          rcases signal with _ | (m' | _)
          · cases here
          · obtain rfl := List.mem_singleton.mp here
            simp only [machine] at stepped
            split at stepped
            · cases stepped
            · exact accept_bounded stepped
          · cases here
      · exact ih _ _ m later
  exact outputs 0 s

end Scanner
end PtyRuntime
