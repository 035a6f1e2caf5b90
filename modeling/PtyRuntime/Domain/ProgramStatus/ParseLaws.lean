import PtyRuntime.Domain.ProgramStatus.DecodeLaws
import Mathlib.Data.Nat.Digits.Defs

/-! What a report says, stated on its pairs: which of them refuse it, and which value each
field takes. The parser's single pass agrees. -/
namespace PtyRuntime

def ProgramState.name : ProgramState → Bytes
  | .idle => ascii "idle"
  | .working => ascii "working"
  | .done => ascii "done"
  | .blocked => ascii "blocked"
  | .error => ascii "error"

def ProgramStatusKind.name : ProgramStatusKind → Bytes
  | .permission => ascii "permission"
  | .question => ascii "question"
  | .auth => ascii "auth"

namespace Report

/-- A pair's key and value, apart at its first equals sign. -/
def occurrence (pair : Bytes) : Option (Bytes × Bytes) :=
  if '='.toUInt8 ∈ pair then
    some (trimAscii (pair.takeWhile (· != '='.toUInt8)),
      trimAscii ((pair.dropWhile (· != '='.toUInt8)).drop 1))
  else none

def occurrences (body : Bytes) : List (Bytes × Bytes) :=
  (body.splitOn ':'.toUInt8).filterMap occurrence

/-- The bytes of a value that is not skipped. -/
def valueByte (b : UInt8) : Bool := isAsciiAlphanumeric b || (ascii "_.,+/=-").contains b

/-- The last value over the alphabet that a key was given. -/
def lastOf (given : List (Bytes × Bytes)) (key : Bytes) : Option Bytes :=
  (given.filter fun o => o.1 = key ∧ o.2.all valueByte).getLast?.map Prod.snd

/-- One to eight segments of one to 32 bytes over the alphabet of identifiers. -/
def ValidId (id : Bytes) : Prop :=
  ∃ segments : List Bytes, segments ≠ [] ∧ segments.length ≤ 8 ∧
    (∀ s ∈ segments, s ≠ [] ∧ s.length ≤ 32 ∧ ∀ b ∈ s, idByte b = true) ∧
    id = ['/'.toUInt8].intercalate segments

/-- An occurrence that refuses the whole report, wherever it stands. -/
inductive Refused : Bytes → Bytes → Prop where
  | key {key : Bytes} (value : Bytes) (long : 16 < key.length) : Refused key value
  | msg {value : Bytes} (long : 2732 < value.length) : Refused (ascii "msg") value
  | title {value : Bytes} (long : 256 < value.length) : Refused (ascii "title") value
  | app {value : Bytes} (long : 32 < value.length) : Refused (ascii "app") value
  | id {value : Bytes} (long : 128 < value.length) : Refused (ascii "id") value
  | invalid {value : Bytes} (malformed : ¬ValidId value) : Refused (ascii "id") value
  | msgText {value : Bytes} (plain : value.all valueByte = true) (malformed : decode value 2048 = none) :
    Refused (ascii "msg") value
  | titleText {value : Bytes} (plain : value.all valueByte = true) (malformed : decode value 192 = none) :
    Refused (ascii "title") value

/-- The number that decimal digits write. -/
def decimal (digits : Bytes) : Nat := Nat.ofDigits 10 (digits.reverse.map fun b => b.toNat - 48)

/-- The record that the given pairs report. -/
structure Describes (given : List (Bytes × Bytes)) (r : ProgramStatusRecord) : Prop where
  state : lastOf given (ascii "state") = some r.state.name
  id : r.id = (lastOf given (ascii "id")).getD []
  app : ∀ app, r.app = some app ↔
    lastOf given (ascii "app") = some app ∧ app ≠ [] ∧ ∀ b ∈ app, idByte b = true
  unresolved : r.resolvedApp = none
  kind : ∀ kind, r.kind = some kind ↔
    r.state = .blocked ∧ lastOf given (ascii "kind") = some kind.name
  progress : ∀ n, r.progress = some n ↔ (r.state = .working ∨ r.state = .blocked) ∧
    ∃ digits, lastOf given (ascii "progress") = some digits ∧ digits ≠ [] ∧
      (∀ b ∈ digits, isAsciiDigit b = true) ∧ decimal digits = n ∧ n ≤ 100
  msg : r.msg = (lastOf given (ascii "msg")).bind (decode · 2048)
  title : r.title = (lastOf given (ascii "title")).bind (decode · 192)

/-- What the given pairs report when none of them refuses the report. -/
def Says (given : List (Bytes × Bytes)) : Mutation → Prop
  | .report r => Describes given r
  | .clear id => lastOf given (ascii "state") = some (ascii "clear") ∧
      id = (lastOf given (ascii "id")).getD []
  | .exit | .reset => False

theorem validId_iff (id : Bytes) : validId id = true ↔ ValidId id := by
  simp only [validId, Bool.and_eq_true, Bool.not_eq_true', List.isEmpty_eq_false_iff,
    decide_eq_true_eq, List.all_eq_true]
  constructor
  · rintro ⟨⟨-, few⟩, each⟩
    exact ⟨id.splitOn '/'.toUInt8, List.splitOn_ne_nil _ _, few,
      fun s member => ⟨(each s member).1.1, (each s member).1.2, (each s member).2⟩,
      (List.intercalate_splitOn _).symm⟩
  · rintro ⟨segments, some, few, each, rfl⟩
    have whole : ∀ s ∈ segments, '/'.toUInt8 ∉ s := fun s member slash =>
      absurd ((each s member).2.2 _ slash) (by decide)
    have split := List.splitOn_intercalate '/'.toUInt8 whole some
    refine ⟨⟨fun empty => ?_, by rwa [split]⟩, fun s member => ?_⟩
    · rw [empty, List.splitOn_nil] at split
      exact (each [] (split ▸ List.mem_singleton_self _)).1 rfl
    · rw [split] at member
      exact ⟨⟨(each s member).1, (each s member).2.1⟩, (each s member).2.2⟩

instance (id : Bytes) : Decidable (ValidId id) := decidable_of_iff _ (validId_iff id)

/-- Bytes below 128 are UTF-8. -/
theorem isUtf8_of_ascii {bytes : Bytes} (small : ∀ b ∈ bytes, b < 128) : isUtf8 bytes = true := by
  induction bytes using List.reverseRecOn with
  | nil => rfl
  | append_singleton bytes b ih =>
    have before := ih fun c member => small c (List.mem_append_left _ member)
    have last : b.toNat < 128 := UInt8.lt_iff_toNat_lt.mp (small b List.mem_concat_self)
    have narrow : (Char.ofUInt8 b).utf8Size = 1 := by
      rw [Char.utf8Size_eq_one_iff, UInt32.le_iff_toNat_le]
      exact (UInt8.toNat_toUInt32 b).trans_le (Nat.le_of_lt_succ last)
    have byte : (Char.ofUInt8 b).toUInt8 = b := UInt8.toUInt8_toUInt32 b
    have valid := ByteArray.IsValidUTF8.push (ByteArray.validateUTF8_eq_true_iff.mp before) narrow
    rw [byte] at valid
    rw [isUtf8, ByteArray.validateUTF8_eq_true_iff, ← List.push_toArray]
    exact valid

theorem byte_table : ∀ b : Fin 256,
    (valueByte (.ofFin b) = true → UInt8.ofFin b < 128) ∧
      (isAsciiLowercase (.ofFin b) = true → UInt8.ofFin b < 128) ∧
      (idByte (.ofFin b) = true → valueByte (.ofFin b) = true) := by
  decide +kernel

theorem isUtf8_of_value {value : Bytes} (plain : value.all valueByte = true) : isUtf8 value = true :=
  isUtf8_of_ascii fun b member => (byte_table b.toFin).1 (List.all_eq_true.mp plain b member)

theorem isUtf8_of_lowercase {key : Bytes} (lower : key.all isAsciiLowercase = true) :
    isUtf8 key = true :=
  isUtf8_of_ascii fun b member => (byte_table b.toFin).2.1 (List.all_eq_true.mp lower b member)

/-- An identifier is over the alphabet of values. -/
theorem ValidId.plain {id : Bytes} (valid : ValidId id) : id.all valueByte = true := by
  obtain ⟨segments, -, -, each, rfl⟩ := valid
  have plain (s : Bytes) (member : s ∈ segments) : s.all valueByte = true :=
    List.all_eq_true.mpr fun b inside => (byte_table b.toFin).2.2 ((each s member).2.2 b inside)
  clear each
  induction segments with
  | nil => rfl
  | cons s rest ih =>
    rw [List.forall_mem_cons] at plain
    cases rest with
    | nil => simpa using plain.1
    | cons next rest =>
      rw [List.intercalate_cons_cons, List.all_append, List.all_append, plain.1, ih plain.2]
      rfl

theorem lastOf_snoc (given : List (Bytes × Bytes)) (key value name : Bytes) :
    lastOf (given ++ [(key, value)]) name =
      if key = name ∧ value.all valueByte then some value else lastOf given name := by
  rw [lastOf, List.filter_append]
  by_cases named : key = name ∧ value.all valueByte = true
  · rw [List.filter_cons_of_pos (by simpa using named), List.filter_nil, List.getLast?_concat,
      if_pos named]
    rfl
  · rw [List.filter_cons_of_neg (by simpa using named), List.filter_nil, List.append_nil,
      if_neg named]
    rfl

/-- The values of the recognised keys after some pairs. -/
def fieldsOf (given : List (Bytes × Bytes)) : Fields where
  state := lastOf given (ascii "state")
  id := lastOf given (ascii "id")
  app := lastOf given (ascii "app")
  kind := lastOf given (ascii "kind")
  progress := lastOf given (ascii "progress")
  msg := (lastOf given (ascii "msg")).bind (decode · 2048)
  title := (lastOf given (ascii "title")).bind (decode · 192)

/-- The keys a report has a meaning for. -/
def keys : List Bytes :=
  [ascii "state", ascii "id", ascii "app", ascii "kind", ascii "progress", ascii "msg",
    ascii "title"]

/-- Fields are the same when the last value of every key is. -/
theorem fieldsOf_congr {given other : List (Bytes × Bytes)}
    (same : ∀ key ∈ keys, lastOf given key = lastOf other key) : fieldsOf given = fieldsOf other := by
  simp only [keys, List.forall_mem_cons] at same
  simp only [fieldsOf, same]

/-- A pair of another key, or of a value that is not over the alphabet, sets no field. -/
theorem fieldsOf_skipped {given : List (Bytes × Bytes)} {key value : Bytes}
    (skipped : key ∉ keys ∨ ¬value.all valueByte = true) :
    fieldsOf (given ++ [(key, value)]) = fieldsOf given := by
  refine fieldsOf_congr fun name known => ?_
  rw [lastOf_snoc, if_neg]
  rintro ⟨rfl, plain⟩
  exact skipped.elim (fun unknown => unknown known) fun bad => bad plain

theorem setField_fieldsOf {given : List (Bytes × Bytes)} {key value : Bytes}
    (plain : value.all valueByte = true) (kept : ¬Refused key value) :
    setField (fieldsOf given) key value = some (fieldsOf (given ++ [(key, value)])) := by
  by_cases known : key ∈ keys
  · simp only [keys, List.mem_cons, List.not_mem_nil, or_false] at known
    rcases known with rfl | rfl | rfl | rfl | rfl | rfl | rfl
    · simp +decide only [setField, fieldsOf, lastOf_snoc, plain, and_true, if_true, if_false]
    · simp +decide only [setField, fieldsOf, lastOf_snoc, plain, and_true, if_true, if_false]
    · simp +decide only [setField, fieldsOf, lastOf_snoc, plain, and_true, if_true, if_false]
    · simp +decide only [setField, fieldsOf, lastOf_snoc, plain, and_true, if_true, if_false]
    · simp +decide only [setField, fieldsOf, lastOf_snoc, plain, and_true, if_true, if_false]
    · obtain ⟨text, decoded⟩ := Option.ne_none_iff_exists'.mp fun malformed =>
        kept (.msgText plain malformed)
      simp +decide only [setField, fieldsOf, lastOf_snoc, plain, and_true, if_true, if_false,
        decoded, Option.map_some, Option.bind_some]
    · obtain ⟨text, decoded⟩ := Option.ne_none_iff_exists'.mp fun malformed =>
        kept (.titleText plain malformed)
      simp +decide only [setField, fieldsOf, lastOf_snoc, plain, and_true, if_true, if_false,
        decoded, Option.map_some, Option.bind_some]
  · rw [fieldsOf_skipped (.inl known)]
    simp only [keys, List.mem_cons, List.not_mem_nil, or_false, not_or] at known
    simp only [setField, beq_iff_eq, known, if_false]

theorem oversize_iff (key value : Bytes) : oversize key value = true ↔
    (key = ascii "msg" ∧ 2732 < value.length) ∨ (key = ascii "title" ∧ 256 < value.length) ∨
      (key = ascii "app" ∧ 32 < value.length) ∨ (key = ascii "id" ∧ 128 < value.length) := by
  simp only [oversize, Bool.or_eq_true, Bool.and_eq_true, beq_iff_eq, decide_eq_true_eq, or_assoc,
    gt_iff_lt]

/-- What refuses an occurrence, read by its key. -/
theorem refused_iff (key value : Bytes) : Refused key value ↔
    16 < key.length ∨ oversize key value = true ∨ (key = ascii "id" ∧ ¬ValidId value) ∨
      (value.all valueByte = true ∧ ((key = ascii "msg" ∧ decode value 2048 = none) ∨
        (key = ascii "title" ∧ decode value 192 = none))) := by
  rw [oversize_iff]
  constructor
  · rintro (⟨_, long⟩ | long | long | long | long | malformed | ⟨plain, malformed⟩ | ⟨plain, malformed⟩)
    · exact .inl long
    · exact .inr (.inl (.inl ⟨rfl, long⟩))
    · exact .inr (.inl (.inr (.inl ⟨rfl, long⟩)))
    · exact .inr (.inl (.inr (.inr (.inl ⟨rfl, long⟩))))
    · exact .inr (.inl (.inr (.inr (.inr ⟨rfl, long⟩))))
    · exact .inr (.inr (.inl ⟨rfl, malformed⟩))
    · exact .inr (.inr (.inr ⟨plain, .inl ⟨rfl, malformed⟩⟩))
    · exact .inr (.inr (.inr ⟨plain, .inr ⟨rfl, malformed⟩⟩))
  · rintro (long | (⟨rfl, long⟩ | ⟨rfl, long⟩ | ⟨rfl, long⟩ | ⟨rfl, long⟩) | ⟨rfl, malformed⟩ |
      ⟨plain, ⟨rfl, malformed⟩ | ⟨rfl, malformed⟩⟩)
    · exact .key value long
    · exact .msg long
    · exact .title long
    · exact .app long
    · exact .id long
    · exact .invalid malformed
    · exact .msgText plain malformed
    · exact .titleText plain malformed

theorem key_of_mem {key : Bytes} (known : key ∈ keys) :
    key ≠ [] ∧ key.all isAsciiLowercase = true ∧ key.length ≤ 16 := by
  revert key
  decide

/-- What `parsePair` does with a key and a value. -/
def parseGiven (fields : Fields) (key value : Bytes) : Option Fields :=
  if key.length > 16 then none
  else if !isUtf8 key then some fields
  else if key.isEmpty || !key.all isAsciiLowercase then some fields
  else if oversize key value then none
  else if !isUtf8 value then if key == ascii "id" then none else some fields
  else if key == ascii "id" && !validId value then none
  else if !value.all valueByte then some fields
  else setField fields key value

/-- The parser finds the pair's occurrence. -/
theorem parsePair_eq (fields : Fields) (pair : Bytes) :
    parsePair fields pair =
      match occurrence pair with
      | none => some fields
      | some (key, value) => parseGiven fields key value := by
  have same : (fun b => !(b != '='.toUInt8)) = fun b : UInt8 => b == '='.toUInt8 := by
    funext b
    exact Bool.not_not _
  cases found : pair.findIdx? (· == '='.toUInt8) with
  | none =>
    have absent : '='.toUInt8 ∉ pair := fun member => by
      simpa using List.findIdx?_eq_none_iff.mp found _ member
    simp only [parsePair, found, occurrence, if_neg absent]
  | some i =>
    obtain ⟨inside, rfl⟩ := List.findIdx?_eq_some_iff_findIdx_eq.mp found
    have present : '='.toUInt8 ∈ pair := by
      have separator := List.findIdx_getElem (w := inside)
      rw [← eq_of_beq separator]
      exact List.getElem_mem inside
    simp only [parsePair, found, occurrence, if_pos present, List.takeWhile_eq_take_findIdx_not,
      List.dropWhile_eq_drop_findIdx_not, same, List.drop_drop]
    rfl

theorem Refused.named {key value : Bytes} (refused : Refused key value) (short : key.length ≤ 16) :
    key ∈ keys := by
  cases refused with
  | key _ long => exact absurd short (Nat.not_le.mpr long)
  | msg | title | app | id | invalid | msgText | titleText => decide

/-- Text that does not decode refuses the report where it stands. -/
theorem setField_refused {fields : Fields} {key value : Bytes}
    (malformed : (key = ascii "msg" ∧ decode value 2048 = none) ∨
      (key = ascii "title" ∧ decode value 192 = none)) : setField fields key value = none := by
  rcases malformed with ⟨rfl, undecoded⟩ | ⟨rfl, undecoded⟩ <;>
    simp +decide only [setField, undecoded, if_true, if_false, Option.map_none]

/-- The parser's checks on a key of lowercase letters. -/
theorem parseGiven_lower {key : Bytes} (value : Bytes) (short : ¬16 < key.length) (named : key ≠ [])
    (lower : key.all isAsciiLowercase = true) (fields : Fields) :
    parseGiven fields key value =
      if oversize key value = true then none
      else if ¬isUtf8 value = true then if key = ascii "id" then none else some fields
      else if key = ascii "id" ∧ ¬ValidId value then none
      else if ¬value.all valueByte = true then some fields
      else setField fields key value := by
  have nonempty : key.isEmpty = false := List.isEmpty_eq_false_iff.mpr named
  simp only [parseGiven, gt_iff_lt, short, if_false, isUtf8_of_lowercase lower, lower, nonempty,
    Bool.not_true, Bool.or_self, Bool.false_eq_true, Bool.and_eq_true, Bool.not_eq_true',
    beq_iff_eq, Bool.not_eq_true, ← validId_iff]

/-- A key and a value refuse the report, or leave the fields that the pairs so far and
they have set. -/
theorem parseGiven_cases (given : List (Bytes × Bytes)) (key value : Bytes) :
    (Refused key value ∧ ∀ fields, parseGiven fields key value = none) ∨
      (¬Refused key value ∧
        parseGiven (fieldsOf given) key value = some (fieldsOf (given ++ [(key, value)]))) := by
  by_cases long : 16 < key.length
  · exact .inl ⟨.key value long, fun fields => by rw [parseGiven, if_pos long]⟩
  by_cases lower : key ≠ [] ∧ key.all isAsciiLowercase = true
  · have checks := parseGiven_lower value long lower.1 lower.2
    by_cases size : oversize key value = true
    · exact .inl ⟨(refused_iff key value).mpr (.inr (.inl size)),
        fun fields => by rw [checks, if_pos size]⟩
    by_cases plain : value.all valueByte = true
    · have utf8 := isUtf8_of_value plain
      by_cases invalid : key = ascii "id" ∧ ¬ValidId value
      · exact .inl ⟨(refused_iff key value).mpr (.inr (.inr (.inl invalid))), fun fields => by
          rw [checks, if_neg size, if_neg (not_not.mpr utf8), if_pos invalid]⟩
      have set (fields : Fields) : parseGiven fields key value = setField fields key value := by
        rw [checks, if_neg size, if_neg (not_not.mpr utf8), if_neg invalid, if_neg (not_not.mpr plain)]
      by_cases malformed : (key = ascii "msg" ∧ decode value 2048 = none) ∨
          (key = ascii "title" ∧ decode value 192 = none)
      · exact .inl ⟨(refused_iff key value).mpr (.inr (.inr (.inr ⟨plain, malformed⟩))),
          fun fields => by rw [set, setField_refused malformed]⟩
      · have kept : ¬Refused key value := by
          rw [refused_iff, not_or, not_or, not_or]
          exact ⟨long, size, invalid, fun refused => malformed refused.2⟩
        exact .inr ⟨kept, by rw [set, setField_fieldsOf plain kept]⟩
    · by_cases id : key = ascii "id"
      · have invalid : ¬ValidId value := fun valid => plain valid.plain
        have refusal : key = ascii "id" ∧ ¬ValidId value := ⟨id, invalid⟩
        refine .inl ⟨(refused_iff key value).mpr (.inr (.inr (.inl refusal))), fun fields => ?_⟩
        rw [checks, if_neg size, if_pos id, if_pos refusal, ite_self]
      · have valid : ¬(key = ascii "id" ∧ ¬ValidId value) := fun refusal => id refusal.1
        have kept : ¬Refused key value := by
          rw [refused_iff, not_or, not_or, not_or]
          exact ⟨long, size, valid, fun refused => plain refused.1⟩
        refine .inr ⟨kept, ?_⟩
        rw [checks, if_neg size, if_neg id, if_neg valid, if_pos plain, ite_self,
          fieldsOf_skipped (.inr plain)]
  · have unknown : key ∉ keys := fun known => lower ⟨(key_of_mem known).1, (key_of_mem known).2.1⟩
    refine .inr ⟨fun refused => unknown (refused.named (Nat.not_lt.mp long)), ?_⟩
    have skipped : (key.isEmpty || !key.all isAsciiLowercase) = true := by
      rw [Bool.or_eq_true, List.isEmpty_iff, Bool.not_eq_true', ← Bool.not_eq_true]
      by_contra both
      rw [not_or, not_not] at both
      exact lower both
    rw [fieldsOf_skipped (.inl unknown), parseGiven, if_neg long, if_pos skipped, ite_self]

/-- One pair refuses the report, or leaves the fields that the pairs so far have set. -/
theorem parsePair_cases (given : List (Bytes × Bytes)) (pair : Bytes) :
    (∃ o, occurrence pair = some o ∧ Refused o.1 o.2 ∧ ∀ fields, parsePair fields pair = none) ∨
      ((∀ o, occurrence pair = some o → ¬Refused o.1 o.2) ∧
        parsePair (fieldsOf given) pair = some (fieldsOf (given ++ (occurrence pair).toList))) := by
  simp only [parsePair_eq]
  cases found : occurrence pair with
  | none => exact .inr ⟨nofun, by rw [Option.toList_none, List.append_nil]⟩
  | some o =>
    rcases parseGiven_cases given o.1 o.2 with ⟨refused, none⟩ | ⟨kept, next⟩
    · exact .inl ⟨o, rfl, refused, none⟩
    · refine .inr ⟨fun o' same => ?_, next⟩
      obtain rfl := Option.some.inj same
      exact kept

/-- The pass over the pairs: it fails when one of them refuses the report, and sets the
fields that all of them give. -/
theorem foldlM_parsePair (given : List (Bytes × Bytes)) (pairs : List Bytes) :
    ((∃ o ∈ pairs.filterMap occurrence, Refused o.1 o.2) ∧
        pairs.foldlM parsePair (fieldsOf given) = none) ∨
      ((∀ o ∈ pairs.filterMap occurrence, ¬Refused o.1 o.2) ∧
        pairs.foldlM parsePair (fieldsOf given) =
          some (fieldsOf (given ++ pairs.filterMap occurrence))) := by
  induction pairs generalizing given with
  | nil => exact .inr ⟨fun o member => absurd member List.not_mem_nil, by rw [List.filterMap_nil, List.append_nil]; rfl⟩
  | cons pair rest ih =>
    rw [List.foldlM_cons]
    have members (o : Bytes × Bytes) : o ∈ (pair :: rest).filterMap occurrence ↔
        occurrence pair = some o ∨ o ∈ rest.filterMap occurrence := by
      simp [List.mem_filterMap]
    rcases parsePair_cases given pair with ⟨o, found, refused, none⟩ | ⟨kept, next⟩
    · exact .inl ⟨⟨o, (members o).mpr (.inl found), refused⟩, by rw [none]; rfl⟩
    · rw [next, Option.bind_eq_bind, Option.bind_some]
      have whole : given ++ (pair :: rest).filterMap occurrence =
          given ++ (occurrence pair).toList ++ rest.filterMap occurrence := by
        rw [List.append_assoc, List.filterMap_cons]
        cases occurrence pair <;> rfl
      rw [whole]
      rcases ih (given ++ (occurrence pair).toList) with ⟨⟨o, member, refused⟩, none⟩ | ⟨others, last⟩
      · exact .inl ⟨⟨o, (members o).mpr (.inr member), refused⟩, none⟩
      · exact .inr ⟨fun o member => ((members o).mp member).elim (kept o) (others o), last⟩

theorem parseKind_eq_some {value : Option Bytes} {kind : ProgramStatusKind} :
    parseKind value = some kind ↔ value = some kind.name := by
  constructor
  · intro parsed
    unfold parseKind at parsed
    split at parsed
    · obtain rfl := Option.some.inj parsed
      assumption
    split at parsed
    · obtain rfl := Option.some.inj parsed
      assumption
    split at parsed
    · obtain rfl := Option.some.inj parsed
      assumption
    · cases parsed
  · rintro rfl
    cases kind <;> decide

theorem digit_value : ∀ b : Fin 256, isAsciiDigit (.ofFin b) = true →
    (UInt8.ofFin b - '0'.toUInt8).toNat = (UInt8.ofFin b).toNat - 48 := by
  decide +kernel

/-- The parser's accumulation is the number written. -/
theorem foldl_decimal {digits : Bytes} (all : ∀ b ∈ digits, isAsciiDigit b = true) :
    digits.foldl (fun n b => n * 10 + (b - '0'.toUInt8).toNat) 0 = decimal digits := by
  induction digits using List.reverseRecOn with
  | nil => rfl
  | append_singleton digits b ih =>
    have before := ih fun c member => all c (List.mem_append_left _ member)
    have last : (b - '0'.toUInt8).toNat = b.toNat - 48 := digit_value b.toFin (all b List.mem_concat_self)
    have more : decimal (digits ++ [b]) = (b.toNat - 48) + 10 * decimal digits := by
      rw [decimal, List.reverse_append, List.reverse_singleton, List.singleton_append, List.map_cons,
        Nat.ofDigits_cons]
      rfl
    rw [List.foldl_append, List.foldl_cons, List.foldl_nil, before, last, more]
    omega

theorem parseProgress_eq_some {value : Option Bytes} {n : Nat} :
    parseProgress value = some n ↔ ∃ digits, value = some digits ∧ digits ≠ [] ∧
      (∀ b ∈ digits, isAsciiDigit b = true) ∧ decimal digits = n ∧ n ≤ 100 := by
  simp only [parseProgress, Option.filter_eq_some_iff, Option.bind_eq_some_iff, parseU8,
    Bool.and_eq_true, Bool.not_eq_true', List.isEmpty_eq_false_iff, List.all_eq_true,
    decide_eq_true_eq]
  constructor
  · rintro ⟨⟨digits, ⟨given, named, all⟩, parsed⟩, small⟩
    rw [foldl_decimal all] at parsed
    split at parsed
    · obtain rfl := Option.some.inj parsed
      exact ⟨digits, given, named, all, rfl, small⟩
    · cases parsed
  · rintro ⟨digits, given, named, all, rfl, small⟩
    refine ⟨⟨digits, ⟨given, named, all⟩, ?_⟩, small⟩
    rw [foldl_decimal all, if_pos (by omega)]

/-- The parser's record is the one the pairs describe. -/
theorem describes_iff (given : List (Bytes × Bytes)) (r : ProgramStatusRecord) :
    Describes given r ↔ lastOf given (ascii "state") = some r.state.name ∧
      r = record (fieldsOf given) r.state := by
  have app (app : Bytes) : (fieldsOf given).app.filter (fun v => !v.isEmpty && v.all idByte) = some app ↔
      lastOf given (ascii "app") = some app ∧ app ≠ [] ∧ ∀ b ∈ app, idByte b = true := by
    simp only [Option.filter_eq_some_iff, fieldsOf, Bool.and_eq_true, Bool.not_eq_true',
      List.isEmpty_eq_false_iff, List.all_eq_true]
  have kind (kind : ProgramStatusKind) :
      (if r.state = .blocked then parseKind (fieldsOf given).kind else none) = some kind ↔
        r.state = .blocked ∧ lastOf given (ascii "kind") = some kind.name := by
    split
    · rename_i blocked
      simp only [blocked, true_and, parseKind_eq_some, fieldsOf]
    · rename_i other
      simp only [other, false_and, reduceCtorEq]
  have progress (n : Nat) :
      (if r.state = .working ∨ r.state = .blocked then parseProgress (fieldsOf given).progress
        else none) = some n ↔ (r.state = .working ∨ r.state = .blocked) ∧
          ∃ digits, lastOf given (ascii "progress") = some digits ∧ digits ≠ [] ∧
            (∀ b ∈ digits, isAsciiDigit b = true) ∧ decimal digits = n ∧ n ≤ 100 := by
    split
    · rename_i active
      simp only [active, true_and, parseProgress_eq_some, fieldsOf]
    · rename_i other
      simp only [other, false_and, reduceCtorEq]
  constructor
  · intro describes
    refine ⟨describes.state, ?_⟩
    obtain ⟨id, state, app', resolved, kind', progress', msg, title⟩ := r
    simp only [record, ProgramStatusRecord.mk.injEq, true_and]
    exact ⟨describes.id, Option.ext fun v => (describes.app v).trans (app v).symm,
      describes.unresolved, Option.ext fun v => (describes.kind v).trans (kind v).symm,
      Option.ext fun v => (describes.progress v).trans (progress v).symm, describes.msg,
      describes.title⟩
  · rintro ⟨state, same⟩
    refine ⟨state, by rw [same]; rfl, fun v => ?_, by rw [same]; rfl, fun v => ?_, fun v => ?_,
      by rw [same]; rfl, by rw [same]; rfl⟩
    · rw [← app, same]
      rfl
    · rw [← kind]
      exact iff_of_eq (congrArg (· = some v) (congrArg (·.kind) same))
    · rw [← progress]
      exact iff_of_eq (congrArg (· = some v) (congrArg (·.progress) same))

/-- What the parser makes of the fields once every pair was read. -/
def conclude (fields : Fields) : Option Mutation := do
  let state ← fields.state
  if state == ascii "idle" then some (.report (record fields .idle))
  else if state == ascii "working" then some (.report (record fields .working))
  else if state == ascii "done" then some (.report (record fields .done))
  else if state == ascii "blocked" then some (.report (record fields .blocked))
  else if state == ascii "error" then some (.report (record fields .error))
  else if state == ascii "clear" then some (.clear (fields.id.getD []))
  else none

theorem parse_eq (body : Bytes) :
    parse body = ((body.splitOn ':'.toUInt8).foldlM parsePair {}).bind conclude := rfl

theorem conclude_state {fields : Fields} {state : ProgramState}
    (named : fields.state = some state.name) : conclude fields = some (.report (record fields state)) := by
  cases state <;>
    simp +decide only [conclude, named, ProgramState.name, bind, Option.bind_some, if_true, if_false]

theorem conclude_clear {fields : Fields} (named : fields.state = some (ascii "clear")) :
    conclude fields = some (.clear (fields.id.getD [])) := by
  simp +decide only [conclude, named, bind, Option.bind_some, if_true, if_false]

theorem conclude_unknown {fields : Fields}
    (unknown : ∀ state : ProgramState, fields.state ≠ some state.name)
    (other : fields.state ≠ some (ascii "clear")) : conclude fields = none := by
  cases named : fields.state with
  | none => rw [conclude, named]; rfl
  | some name =>
    have apart (state : ProgramState) : name ≠ state.name := fun same => unknown state (same ▸ named)
    have cleared : name ≠ ascii "clear" := fun same => other (same ▸ named)
    simp only [conclude, named, bind, Option.bind_some, beq_iff_eq, cleared, if_false,
      show name ≠ ascii "idle" from apart .idle, show name ≠ ascii "working" from apart .working,
      show name ≠ ascii "done" from apart .done, show name ≠ ascii "blocked" from apart .blocked,
      show name ≠ ascii "error" from apart .error]

/-- The known states of a report. -/
def KnownState (name : Bytes) : Prop := name = ascii "clear" ∨ ∃ state : ProgramState, name = state.name

theorem ProgramState.name_inj {first second : ProgramState} (same : first.name = second.name) :
    first = second := by
  revert same
  cases first <;> cases second <;> decide

theorem ProgramState.name_ne_clear (state : ProgramState) : state.name ≠ ascii "clear" := by
  cases state <;> decide

/-- Concluding says what the pairs say, and nothing when their state is missing or unknown. -/
theorem conclude_cases (given : List (Bytes × Bytes)) :
    ((∀ name, lastOf given (ascii "state") = some name → ¬KnownState name) ∧
        conclude (fieldsOf given) = none ∧ ∀ m, ¬Says given m) ∨
      ((∃ name, lastOf given (ascii "state") = some name ∧ KnownState name) ∧
        ∃ m, conclude (fieldsOf given) = some m ∧ ∀ m', Says given m' ↔ m' = m) := by
  by_cases known : ∃ state : ProgramState, lastOf given (ascii "state") = some state.name
  · obtain ⟨state, named⟩ := known
    refine .inr ⟨⟨_, named, .inr ⟨state, rfl⟩⟩, _, conclude_state named, fun m => ?_⟩
    cases m with
    | report r =>
      rw [Mutation.report.injEq, Says, describes_iff, named, Option.some_inj]
      constructor
      · rintro ⟨same, describes⟩
        rwa [← ProgramState.name_inj same] at describes
      · rintro rfl
        exact ⟨rfl, rfl⟩
    | clear id =>
      refine iff_of_false (fun told => ?_) nofun
      exact ProgramState.name_ne_clear state (Option.some.inj (named.symm.trans told.1))
    | exit => exact iff_of_false id nofun
    | reset => exact iff_of_false id nofun
  by_cases cleared : lastOf given (ascii "state") = some (ascii "clear")
  · refine .inr ⟨⟨_, cleared, .inl rfl⟩, _, conclude_clear cleared, fun m => ?_⟩
    cases m with
    | report r => exact iff_of_false (fun told => known ⟨_, told.state⟩) nofun
    | clear id =>
      rw [Mutation.clear.injEq]
      exact and_iff_right cleared
    | exit => exact iff_of_false id nofun
    | reset => exact iff_of_false id nofun
  · refine .inl ⟨?_, conclude_unknown (not_exists.mp known) cleared, fun m => ?_⟩
    · rintro name named (rfl | ⟨state, rfl⟩)
      · exact cleared named
      · exact known ⟨state, named⟩
    · cases m with
      | report r => exact fun told => known ⟨_, told.state⟩
      | clear id => exact fun told => cleared told.1
      | exit => exact id
      | reset => exact id

/-- A report that no pair refuses is what its pairs say; any other is dropped. -/
theorem parse_cases (body : Bytes) :
    ((∃ o ∈ occurrences body, Refused o.1 o.2) ∧ parse body = none) ∨
      ((∀ o ∈ occurrences body, ¬Refused o.1 o.2) ∧
        parse body = conclude (fieldsOf (occurrences body))) := by
  rw [parse_eq]
  rcases foldlM_parsePair [] (body.splitOn ':'.toUInt8) with ⟨refused, none⟩ | ⟨kept, fields⟩
  · exact .inl ⟨refused, by rw [show ({} : Fields) = fieldsOf [] from rfl, none]; rfl⟩
  · exact .inr ⟨kept, by rw [show ({} : Fields) = fieldsOf [] from rfl, fields]; rfl⟩

/-- Which pairs refuse a report and the last values of its keys decide what it says. -/
theorem parse_congr {body other : Bytes}
    (refused : (∃ o ∈ occurrences other, Refused o.1 o.2) ↔ ∃ o ∈ occurrences body, Refused o.1 o.2)
    (values : ∀ key ∈ keys, lastOf (occurrences other) key = lastOf (occurrences body) key) :
    parse other = parse body := by
  rcases parse_cases body with ⟨some, none⟩ | ⟨kept, told⟩
  · rcases parse_cases other with ⟨-, none'⟩ | ⟨kept', -⟩
    · rw [none, none']
    · obtain ⟨o, member, bad⟩ := refused.mpr some
      exact absurd bad (kept' o member)
  · rcases parse_cases other with ⟨some', -⟩ | ⟨-, told'⟩
    · obtain ⟨o, member, bad⟩ := refused.mp some'
      exact absurd bad (kept o member)
    · rw [told, told', fieldsOf_congr values]

/-- Each key is given the same values in the same order, whatever stands between. -/
def Rearranged (given other : List (Bytes × Bytes)) : Prop :=
  ∀ key, other.filter (·.1 = key) = given.filter (·.1 = key)

theorem Rearranged.lastOf {given other : List (Bytes × Bytes)} (same : Rearranged given other)
    (key : Bytes) : lastOf other key = lastOf given key := by
  have split (list : List (Bytes × Bytes)) : Report.lastOf list key =
      ((list.filter (·.1 = key)).filter fun o => o.2.all valueByte).getLast?.map Prod.snd := by
    rw [List.filter_filter, Report.lastOf]
    congr 2
    refine List.filter_congr fun o _ => ?_
    rw [Bool.decide_and, Bool.and_comm, Bool.decide_eq_true]
  rw [split, split, same key]

theorem Rearranged.mem {given other : List (Bytes × Bytes)} (same : Rearranged given other)
    (o : Bytes × Bytes) : o ∈ other ↔ o ∈ given := by
  have among (list : List (Bytes × Bytes)) : o ∈ list ↔ o ∈ list.filter (·.1 = o.1) := by
    simp [List.mem_filter]
  rw [among other, same o.1, ← among given]

/-- A pair without an equals sign, or one that neither refuses the report nor gives a
known key a value over the alphabet. -/
def Skipped (pair : Bytes) : Prop :=
  ∀ o, occurrence pair = some o → ¬Refused o.1 o.2 ∧ (o.1 ∉ keys ∨ ¬o.2.all valueByte = true)

theorem lastOf_skipped {pair key : Bytes} (skipped : Skipped pair) (known : key ∈ keys) :
    (occurrence pair).toList.filter (fun o => o.1 = key ∧ o.2.all valueByte) = [] := by
  refine List.filter_eq_nil_iff.mpr fun o member => ?_
  rw [Option.mem_toList] at member
  rw [decide_eq_true_eq]
  rintro ⟨rfl, plain⟩
  exact (skipped o member).2.elim (fun unknown => unknown known) fun bad => bad plain

/-- Parsing is the reading of the pairs: the report is dropped exactly when one of them
refuses it or no known state is the last one given; otherwise each field has the last
value over the alphabet. The order of pairs of different keys does not matter, nor do
skipped pairs, and what is accepted is within the protocol's bounds. -/
theorem parse_reads_pairs (body : Bytes) :
    (parse body = none ↔ (∃ o ∈ occurrences body, Refused o.1 o.2) ∨
      ∀ name, lastOf (occurrences body) (ascii "state") = some name → ¬KnownState name) ∧
    (∀ m, parse body = some m ↔
      (∀ o ∈ occurrences body, ¬Refused o.1 o.2) ∧ Says (occurrences body) m) ∧
    (∀ other, Rearranged (occurrences body) (occurrences other) → parse other = parse body) ∧
    (∀ other before pair after, body.splitOn ':'.toUInt8 = before ++ after →
      other.splitOn ':'.toUInt8 = before ++ pair :: after → Skipped pair →
        parse other = parse body) ∧
    ∀ m, parse body = some m → m.Bounded := by
  refine ⟨?_, ?_, ?_, ?_, fun m => parse_bounded⟩
  · rcases parse_cases body with ⟨refused, none⟩ | ⟨kept, told⟩
    · exact iff_of_true none (.inl refused)
    · rw [told]
      rcases conclude_cases (occurrences body) with ⟨unknown, none, -⟩ | ⟨⟨name, named, known⟩, m, some, -⟩
      · exact iff_of_true none (.inr unknown)
      · refine iff_of_false (by rw [some]; exact nofun) ?_
        rintro (⟨o, member, refused⟩ | unknown)
        · exact kept o member refused
        · exact unknown name named known
  · intro m
    rcases parse_cases body with ⟨⟨o, member, refused⟩, none⟩ | ⟨kept, told⟩
    · exact iff_of_false (by rw [none]; exact nofun) fun told => told.1 o member refused
    · rw [told, and_iff_right kept]
      rcases conclude_cases (occurrences body) with ⟨-, none, nothing⟩ | ⟨-, m', some, told⟩
      · exact iff_of_false (by rw [none]; exact nofun) (nothing m)
      · rw [some, told, Option.some_inj, eq_comm]
  · intro other same
    refine parse_congr ?_ fun key _ => same.lastOf key
    simp only [same.mem]
  · intro other before pair after first second skipped
    have shorter : occurrences body = before.filterMap occurrence ++ after.filterMap occurrence := by
      rw [occurrences, first, List.filterMap_append]
    have longer : occurrences other = before.filterMap occurrence ++
        ((occurrence pair).toList ++ after.filterMap occurrence) := by
      rw [occurrences, second, List.filterMap_append, List.filterMap_cons]
      cases occurrence pair <;> rfl
    refine parse_congr ?_ fun key known => ?_
    · rw [longer, shorter]
      constructor
      · rintro ⟨o, member, refused⟩
        refine ⟨o, ?_, refused⟩
        simp only [List.mem_append, Option.mem_toList] at member ⊢
        rcases member with here | inserted | there
        · exact .inl here
        · exact absurd refused (skipped o inserted).1
        · exact .inr there
      · rintro ⟨o, member, refused⟩
        refine ⟨o, ?_, refused⟩
        simp only [List.mem_append] at member ⊢
        exact member.imp_right .inr
    · rw [longer, shorter, lastOf, lastOf, List.filter_append, List.filter_append,
        List.filter_append, lastOf_skipped skipped known, List.nil_append]

end Report
end PtyRuntime
