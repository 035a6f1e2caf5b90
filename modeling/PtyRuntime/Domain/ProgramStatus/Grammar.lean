import PtyRuntime.Domain.ProgramStatus.Splitting

/-! The grammar of control strings in a program's output, and that the scanner recognises
exactly it: every stream has one reading, which the scanner reports byte by byte. -/
namespace PtyRuntime.StatusGrammar

open Scanner (Mode esc machine)

/-- An OSC string can report; the other control strings are skipped whole. -/
inductive Kind where
  | osc
  | string
  deriving DecidableEq, Repr

def Kind.mode : Kind → Mode
  | .osc => .osc
  | .string => .string

/-- The byte after ESC that opens a string. -/
def Kind.Opens : Kind → UInt8 → Prop
  | .osc, byte => byte = ']'.toUInt8
  | .string, byte => byte ∈ ascii "PX^_"

/-- CAN and SUB. -/
def Cancels (byte : UInt8) : Prop := byte = 0x18 ∨ byte = 0x1a

instance (byte : UInt8) : Decidable (Cancels byte) := inferInstanceAs (Decidable (_ ∨ _))

/-- ST ends every string, BEL an OSC string only. -/
inductive Terminator : Kind → Bytes → Prop where
  | st (kind : Kind) : Terminator kind [esc, '\\'.toUInt8]
  | bell : Terminator .osc [7]

/-- A string's body as long as nothing in it ends or abandons the string. -/
structure Open (kind : Kind) (body : Bytes) : Prop where
  uncancelled : ∀ byte ∈ body, ¬Cancels byte
  silent : kind = .osc → 7 ∉ body
  unterminated : ¬[esc, '\\'.toUInt8] <:+: body

/-- What the body of an OSC string says. -/
def meaning (body : Bytes) : Option Signal :=
  if body = ascii "7501;?" then some .query
  else if ascii "7501;" <+: body then
    (Report.parse (body.drop (ascii "7501;").length)).map .mutation
  else if body = ascii "133;A" ∨ ascii "133;A;" <+: body then some (.mutation .exit)
  else none

/-- What a string says as a whole, the ESC that opens it and its terminator included. -/
def report (kind : Kind) (body terminator : Bytes) : Option Signal :=
  if kind = .osc ∧ 2 + body.length + terminator.length ≤ 4096 then meaning body else none

/-- The reading of a stream that starts at a position, outside strings or just after an
ESC: what it reports, each with the position after it, and where it ends. -/
inductive Reads : Mode → Nat → Bytes → List (Nat × Signal) → Mode → Prop where
  | text {start : Nat} {text : Bytes} (plain : esc ∉ text) : Reads .ground start text [] .ground
  | escape {start : Nat} {text input : Bytes} {outputs : List (Nat × Signal)} {mode : Mode}
    (plain : esc ∉ text)
    (rest : Reads .escape (start + text.length + 1) input outputs mode) :
    Reads .ground start (text ++ esc :: input) outputs mode
  | ended {start : Nat} : Reads .escape start [] [] .escape
  | again {start : Nat} {input : Bytes} {outputs : List (Nat × Signal)} {mode : Mode}
    (rest : Reads .escape (start + 1) input outputs mode) :
    Reads .escape start (esc :: input) outputs mode
  | reset {start : Nat} {input : Bytes} {outputs : List (Nat × Signal)} {mode : Mode}
    (rest : Reads .ground (start + 1) input outputs mode) :
    Reads .escape start ('c'.toUInt8 :: input) ((start + 1, .mutation .reset) :: outputs) mode
  | other {start : Nat} {byte : UInt8} {input : Bytes} {outputs : List (Nat × Signal)} {mode : Mode}
    (escapes : byte ≠ esc) (resets : byte ≠ 'c'.toUInt8) (opens : ∀ kind : Kind, ¬kind.Opens byte)
    (rest : Reads .ground (start + 1) input outputs mode) :
    Reads .escape start (byte :: input) outputs mode
  | unterminated {start : Nat} {kind : Kind} {byte : UInt8} {body : Bytes} (opens : kind.Opens byte)
    (inside : Open kind body) : Reads .escape start (byte :: body) [] kind.mode
  | cancelled {start : Nat} {kind : Kind} {byte cancel : UInt8} {body input : Bytes}
    {outputs : List (Nat × Signal)} {mode : Mode} (opens : kind.Opens byte)
    (inside : Open kind body) (cancels : Cancels cancel)
    (rest : Reads .ground (start + 1 + body.length + 1) input outputs mode) :
    Reads .escape start (byte :: (body ++ cancel :: input)) outputs mode
  | terminated {start : Nat} {kind : Kind} {byte : UInt8} {body terminator input : Bytes}
    {outputs : List (Nat × Signal)} {mode : Mode} (opens : kind.Opens byte)
    (inside : Open kind body) (ends : Terminator kind terminator)
    (rest : Reads .ground (start + 1 + body.length + terminator.length) input outputs mode) :
    Reads .escape start (byte :: (body ++ terminator ++ input))
      (((report kind body terminator).map
        (start + 1 + body.length + terminator.length, ·)).toList ++ outputs) mode

theorem infix_snoc {l : Bytes} {a b c : UInt8} :
    [a, b] <:+: l ++ [c] ↔ [a, b] <:+: l ∨ (l.getLast? = some a ∧ b = c) := by
  rw [List.infix_concat_iff, or_comm]
  refine or_congr_right ?_
  constructor
  · rintro ⟨before, same⟩
    have split : before ++ [a] ++ [b] = l ++ [c] := by simpa using same
    obtain ⟨rfl, last⟩ := List.append_inj' split rfl
    exact ⟨List.getLast?_concat, List.head_eq_of_cons_eq last⟩
  · rintro ⟨last, rfl⟩
    obtain ⟨before, rfl⟩ := List.getLast?_eq_some_iff.mp last
    exact ⟨before, by simp⟩

theorem Open.nil (kind : Kind) : Open kind [] where
  uncancelled byte member := absurd member List.not_mem_nil
  silent _ := List.not_mem_nil
  unterminated found := by simp at found

/-- One more byte that neither ends nor abandons the string. -/
theorem open_snoc {kind : Kind} {body : Bytes} {byte : UInt8} :
    Open kind (body ++ [byte]) ↔ Open kind body ∧ ¬Cancels byte ∧ ¬(kind = .osc ∧ byte = 7) ∧
      ¬(body.getLast? = some esc ∧ byte = '\\'.toUInt8) := by
  constructor
  · intro inside
    have unterminated := inside.unterminated
    rw [infix_snoc, not_or] at unterminated
    refine ⟨⟨fun other member => inside.uncancelled other (List.mem_append_left _ member),
      fun osc member => inside.silent osc (List.mem_append_left _ member), unterminated.1⟩,
      inside.uncancelled byte List.mem_concat_self, ?_,
      fun ends => unterminated.2 ⟨ends.1, ends.2.symm⟩⟩
    rintro ⟨osc, rfl⟩
    exact inside.silent osc List.mem_concat_self
  · rintro ⟨inside, uncancelled, silent, unterminated⟩
    refine ⟨fun other member => ?_, fun osc member => ?_, ?_⟩
    · rcases List.mem_append.mp member with before | last
      · exact inside.uncancelled other before
      · rw [List.mem_singleton.mp last]
        exact uncancelled
    · rcases List.mem_append.mp member with before | last
      · exact inside.silent osc before
      · exact silent ⟨osc, (List.mem_singleton.mp last).symm⟩
    · rw [infix_snoc, not_or]
      exact ⟨inside.unterminated, fun ends => unterminated ⟨ends.1, ends.2.symm⟩⟩

/-- After a string is opened it stays open, is abandoned, or ends. -/
theorem string_cases (kind : Kind) (bytes : Bytes) :
    Open kind bytes ∨
      (∃ body cancel input, bytes = body ++ cancel :: input ∧ Open kind body ∧ Cancels cancel) ∨
      ∃ body terminator input, bytes = body ++ terminator ++ input ∧ Open kind body ∧
        Terminator kind terminator := by
  induction bytes using List.reverseRecOn with
  | nil => exact .inl (Open.nil kind)
  | append_singleton bytes byte ih =>
    rcases ih with inside | ⟨body, cancel, input, rfl, inside, cancels⟩ |
      ⟨body, terminator, input, rfl, inside, ends⟩
    · by_cases cancels : Cancels byte
      · exact .inr (.inl ⟨bytes, byte, [], rfl, inside, cancels⟩)
      by_cases bell : kind = .osc ∧ byte = 7
      · obtain ⟨rfl, rfl⟩ := bell
        exact .inr (.inr ⟨bytes, [7], [], (List.append_nil _).symm, inside, .bell⟩)
      by_cases st : bytes.getLast? = some esc ∧ byte = '\\'.toUInt8
      · obtain ⟨last, rfl⟩ := st
        obtain ⟨body, rfl⟩ := List.getLast?_eq_some_iff.mp last
        exact .inr (.inr ⟨body, _, [], by simp, (open_snoc.mp inside).1, .st kind⟩)
      · exact .inl (open_snoc.mpr ⟨inside, cancels, bell, st⟩)
    · exact .inr (.inl ⟨body, cancel, input ++ [byte], by simp, inside, cancels⟩)
    · exact .inr (.inr ⟨body, terminator, input ++ [byte], by simp, inside, ends⟩)

theorem reads_total (n : Nat) : ∀ input : Bytes, input.length ≤ n → ∀ start,
    (∃ outputs mode, Reads .ground start input outputs mode) ∧
      ∃ outputs mode, Reads .escape start input outputs mode := by
  induction n with
  | zero =>
    intro input empty start
    obtain rfl := List.length_eq_zero_iff.mp (Nat.le_zero.mp empty)
    exact ⟨⟨[], .ground, .text List.not_mem_nil⟩, ⟨[], .escape, .ended⟩⟩
  | succ n ih =>
    intro input short start
    constructor
    · by_cases found : esc ∈ input
      · obtain ⟨text, rest, rfl, plain⟩ := List.eq_append_cons_of_mem found
        rw [List.length_append, List.length_cons] at short
        obtain ⟨-, outputs, mode, reads⟩ := ih rest (by omega) (start + text.length + 1)
        exact ⟨outputs, mode, .escape plain reads⟩
      · exact ⟨[], .ground, .text found⟩
    · cases input with
      | nil => exact ⟨[], .escape, .ended⟩
      | cons byte rest =>
        rw [List.length_cons] at short
        obtain ⟨⟨outputs, mode, ground⟩, outputs', mode', escape⟩ := ih rest (by omega) (start + 1)
        by_cases escapes : byte = esc
        · rw [escapes]
          exact ⟨outputs', mode', .again escape⟩
        by_cases resets : byte = 'c'.toUInt8
        · rw [resets]
          exact ⟨_, mode, .reset ground⟩
        by_cases opens : ∃ kind : Kind, kind.Opens byte
        · obtain ⟨kind, opens⟩ := opens
          rcases string_cases kind rest with inside |
            ⟨body, cancel, input, rfl, inside, cancels⟩ | ⟨body, terminator, input, rfl, inside, ends⟩
          · exact ⟨[], kind.mode, .unterminated opens inside⟩
          · have shorter : input.length ≤ n := by
              rw [List.length_append, List.length_cons] at short
              omega
            obtain ⟨⟨outputs, mode, reads⟩, -⟩ := ih input shorter (start + 1 + body.length + 1)
            exact ⟨outputs, mode, .cancelled opens inside cancels reads⟩
          · have shorter : input.length ≤ n := by
              rw [List.length_append, List.length_append] at short
              omega
            obtain ⟨⟨outputs, mode, reads⟩, -⟩ :=
              ih input shorter (start + 1 + body.length + terminator.length)
            exact ⟨_, mode, .terminated opens inside ends reads⟩
        · exact ⟨outputs, mode, .other escapes resets (not_exists.mp opens) ground⟩

theorem splitOn_head (separator : UInt8) (l : Bytes) :
    (l.splitOn separator).head? = some (l.takeWhile (· != separator)) := by
  induction l with
  | nil => rfl
  | cons byte rest ih =>
    rw [List.splitOn, List.splitOnP_cons_eq_if_modifyHead]
    by_cases here : byte = separator
    · simp [here]
    · rw [if_neg (by simpa using here), List.head?_modifyHead]
      rw [List.splitOn] at ih
      rw [ih, List.takeWhile_cons_of_pos (by simpa using here)]
      rfl

theorem first_field_iff (mark : Bytes) :
    (mark.splitOn ';'.toUInt8).head? = some (ascii "A") ↔
      mark = ascii "A" ∨ ascii "A;" <+: mark := by
  rw [splitOn_head, Option.some_inj]
  constructor
  · intro first
    have split := List.takeWhile_append_dropWhile (p := (· != ';'.toUInt8)) (l := mark)
    have stops := List.head?_dropWhile_not (· != ';'.toUInt8) mark
    rw [first] at split
    cases rest : mark.dropWhile (· != ';'.toUInt8) with
    | nil =>
      rw [rest, List.append_nil] at split
      exact .inl split.symm
    | cons byte tail =>
      rw [rest] at split stops
      have separator : byte = ';'.toUInt8 := by simpa using stops
      exact .inr ⟨tail, by rw [← split, separator]; rfl⟩
  · rintro (rfl | ⟨rest, rfl⟩) <;> rfl

theorem stripStart_append (start rest : Bytes) : stripStart start (start ++ rest) = some rest := by
  rw [stripStart, if_pos (List.isPrefixOf_iff_prefix.mpr (List.prefix_append _ _)), List.drop_left]

theorem stripStart_eq_none {start bytes : Bytes} (other : ¬start <+: bytes) :
    stripStart start bytes = none :=
  if_neg fun leads => other (List.isPrefixOf_iff_prefix.mp leads)

/-- The scanner completes a body as the grammar means it. -/
theorem complete_eq_meaning (body : Bytes) : Scanner.complete body = meaning body := by
  unfold Scanner.complete meaning
  by_cases status : ascii "7501;" <+: body
  · obtain ⟨rest, rfl⟩ := status
    have query : ascii "7501;" ++ rest = ascii "7501;?" ↔ rest = ascii "?" :=
      List.append_right_inj (ascii "7501;")
    simp only [stripStart_append, query, List.prefix_append, if_true, List.drop_left]
  · have query : body ≠ ascii "7501;?" := by
      rintro rfl
      exact status (by decide)
    rw [stripStart_eq_none status, if_neg query, if_neg status]
    dsimp only
    by_cases prompt : ascii "133;" <+: body
    · obtain ⟨mark, rfl⟩ := prompt
      have whole : ascii "133;" ++ mark = ascii "133;A" ↔ mark = ascii "A" :=
        List.append_right_inj (ascii "133;")
      have more : ascii "133;A;" <+: ascii "133;" ++ mark ↔ ascii "A;" <+: mark :=
        List.prefix_append_right_inj (ascii "133;")
      simp only [stripStart_append, first_field_iff, whole, more]
    · rw [stripStart_eq_none prompt, if_neg]
      rintro (rfl | ⟨rest, rfl⟩)
      · exact prompt (by decide)
      · exact prompt ⟨ascii "A;" ++ rest, rfl⟩

/-- The scanner after the bytes of an open string. -/
structure Within (kind : Kind) (body : Bytes) (s : Scanner) : Prop where
  mode : s.mode = kind.mode
  escaped : s.escaped = true ↔ body.getLast? = some esc
  length : kind = .osc → s.length = min (2 + body.length) u64Max
  stored : kind = .osc → s.body = body.take 4094

/-- One byte inside a string, whichever its kind. -/
theorem step_string {s : Scanner} {kind : Kind} (mode : s.mode = kind.mode) (byte : UInt8) :
    machine.step s byte =
      if Cancels byte then ({ s with mode := .ground, body := [] }, none)
      else if (s.escaped = true ∧ byte = '\\'.toUInt8) ∨ (kind = .osc ∧ byte = 7) then
        ({ mode := .ground, body := [], length := min (s.length + 1) u64Max, escaped := false },
          if kind = .osc ∧ min (s.length + 1) u64Max ≤ 4096 then
            Scanner.complete (if s.escaped = true ∧ byte = '\\'.toUInt8 then s.body.dropLast else s.body)
          else none)
      else
        ({ s with
          length := min (s.length + 1) u64Max
          body := if kind = .osc ∧ min (s.length + 1) u64Max ≤ 4096 then s.body ++ [byte] else s.body
          escaped := byte = esc }, none) := by
  cases kind <;> simp [machine, Scanner.accept, mode, Kind.mode, Cancels]

theorem Within.next {kind : Kind} {body : Bytes} {s : Scanner} (within : Within kind body s)
    {byte : UInt8} (inside : Open kind (body ++ [byte])) :
    (machine.step s byte).2 = none ∧ Within kind (body ++ [byte]) (machine.step s byte).1 := by
  obtain ⟨-, uncancelled, silent, unterminated⟩ := open_snoc.mp inside
  have continues : ¬((s.escaped = true ∧ byte = '\\'.toUInt8) ∨ (kind = .osc ∧ byte = 7)) := by
    rw [not_or, within.escaped]
    exact ⟨unterminated, silent⟩
  rw [step_string within.mode, if_neg uncancelled, if_neg continues]
  refine ⟨rfl, within.mode, ?_, fun osc => ?_, fun osc => ?_⟩
  · simp [eq_comm]
  · have long := within.length osc
    dsimp only
    rw [long, List.length_append, List.length_singleton]
    omega
  · dsimp only
    have limit : u64Max = 18446744073709551615 := rfl
    rw [within.length osc, within.stored osc]
    by_cases room : body.length ≤ 4093
    · rw [if_pos ⟨osc, by omega⟩, List.take_of_length_le (by omega),
        List.take_of_length_le (by rw [List.length_append, List.length_singleton]; omega)]
    · rw [if_neg (by omega), List.take_append_of_le_length (by omega)]

theorem within_fed {kind : Kind} {body : Bytes} (inside : Open kind body) {s : Scanner}
    (opened : Within kind [] s) (start : Nat) :
    (machine.feed s start body).2 = [] ∧ Within kind body (machine.feed s start body).1 := by
  induction body using List.reverseRecOn with
  | nil => exact ⟨rfl, opened⟩
  | append_singleton body byte ih =>
    obtain ⟨quiet, within⟩ := ih (open_snoc.mp inside).1
    obtain ⟨silent, next⟩ := within.next inside
    rw [machine.feed_append, quiet]
    simp only [Transducer.feed, silent]
    exact ⟨rfl, next⟩

/-- One byte just after an ESC. -/
theorem step_escape {s : Scanner} (escape : s.mode = .escape) (byte : UInt8) :
    machine.step s byte =
      if byte = ']'.toUInt8 then
        ({ mode := .osc, length := 2, body := [], escaped := false }, none)
      else if byte ∈ ascii "PX^_" then ({ s with mode := .string, escaped := false }, none)
      else if byte = 'c'.toUInt8 then ({ s with mode := .ground }, some (.mutation .reset))
      else if byte = esc then (s, none)
      else ({ s with mode := .ground }, none) := by
  simp only [machine, Scanner.accept, escape, reduceCtorEq, false_and, if_false]

/-- The byte that opens a string. -/
theorem step_opens {s : Scanner} (escape : s.mode = .escape) {kind : Kind} {byte : UInt8}
    (opens : kind.Opens byte) :
    (machine.step s byte).2 = none ∧ Within kind [] (machine.step s byte).1 := by
  rw [step_escape escape]
  cases kind with
  | osc =>
    rw [if_pos (show byte = ']'.toUInt8 from opens)]
    exact ⟨rfl, rfl, by simp, fun _ => rfl, fun _ => rfl⟩
  | string =>
    have member : byte ∈ ascii "PX^_" := opens
    have other : byte ≠ ']'.toUInt8 := by
      rintro rfl
      exact absurd member (by decide)
    rw [if_neg other, if_pos member]
    exact ⟨rfl, rfl, by simp, nofun, nofun⟩

/-- A byte that abandons a string. -/
theorem step_cancels {kind : Kind} {body : Bytes} {s : Scanner} (within : Within kind body s)
    {byte : UInt8} (cancels : Cancels byte) :
    (machine.step s byte).2 = none ∧ (machine.step s byte).1.mode = .ground := by
  rw [step_string within.mode, if_pos cancels]
  exact ⟨rfl, rfl⟩

/-- The scanner's length and stored body decide as the whole string does. -/
theorem completed_eq_report {kind : Kind} (body terminator : Bytes) {stored : Bytes} {length : Nat}
    (counted : kind = .osc → length = min (2 + body.length + terminator.length) u64Max)
    (kept : kind = .osc → 2 + body.length + terminator.length ≤ 4096 → stored = body) :
    (if kind = .osc ∧ length ≤ 4096 then Scanner.complete stored else none) =
      report kind body terminator := by
  have limit : u64Max = 18446744073709551615 := rfl
  unfold report
  by_cases short : kind = .osc ∧ 2 + body.length + terminator.length ≤ 4096
  · have count := counted short.1
    rw [if_pos short, if_pos ⟨short.1, by omega⟩, kept short.1 short.2, complete_eq_meaning]
  · rw [if_neg short, if_neg]
    rintro ⟨osc, few⟩
    have count := counted osc
    exact short ⟨osc, by omega⟩

/-- A terminator makes the scanner report what the whole string says. -/
theorem terminator_fed {kind : Kind} {body terminator : Bytes} (inside : Open kind body)
    {s : Scanner} (within : Within kind body s) (ends : Terminator kind terminator) (start : Nat) :
    (machine.feed s start terminator).2 =
        ((report kind body terminator).map (start + terminator.length, ·)).toList ∧
      (machine.feed s start terminator).1.mode = .ground := by
  have limit : u64Max = 18446744073709551615 := rfl
  cases ends with
  | st kind =>
    have longer : Open kind (body ++ [esc]) :=
      open_snoc.mpr ⟨inside, by decide, fun bell => absurd bell.2 (by decide),
        fun ends => absurd ends.2 (by decide)⟩
    obtain ⟨quiet, escaped⟩ := within.next longer
    have ended : (machine.step s esc).1.escaped = true := escaped.escaped.mpr List.getLast?_concat
    have closed : (machine.step s esc).1.escaped = true ∧ '\\'.toUInt8 = '\\'.toUInt8 := ⟨ended, rfl⟩
    have step := step_string escaped.mode '\\'.toUInt8
    rw [if_neg (by decide), if_pos (.inl closed), if_pos closed,
      completed_eq_report body [esc, '\\'.toUInt8]] at step
    · simp only [Transducer.feed, quiet, step, List.append_nil]
      exact ⟨rfl, trivial⟩
    · intro osc
      rw [escaped.length osc, List.length_append]
      simp only [List.length_cons, List.length_nil]
      omega
    · intro osc few
      simp only [List.length_cons, List.length_nil] at few
      rw [escaped.stored osc, List.take_of_length_le, List.dropLast_concat]
      rw [List.length_append, List.length_singleton]
      omega
  | bell =>
    have still : ¬(s.escaped = true ∧ (7 : UInt8) = '\\'.toUInt8) := fun closed =>
      absurd closed.2 (by decide)
    have step := step_string within.mode 7
    rw [if_neg (by decide), if_pos (.inr ⟨rfl, rfl⟩), if_neg still,
      completed_eq_report body [7]] at step
    · simp only [Transducer.feed, step, List.append_nil]
      exact ⟨rfl, trivial⟩
    · intro osc
      rw [within.length osc, List.length_singleton]
      omega
    · intro osc few
      rw [List.length_singleton] at few
      rw [within.stored osc, List.take_of_length_le (by omega)]

/-- The scanner reports every reading from where it starts. -/
theorem fed_of_reads {mode last : Mode} {start : Nat} {input : Bytes}
    {outputs : List (Nat × Signal)} (reads : Reads mode start input outputs last) {s : Scanner}
    (stands : s.mode = mode) :
    (machine.feed s start input).2 = outputs ∧ (machine.feed s start input).1.mode = last := by
  induction reads generalizing s with
  | @text start text plain =>
    have skipped := machine.feed_skip (Scanner.ground_ignores stands plain) start []
    rw [List.append_nil, Transducer.feed_nil] at skipped
    rw [skipped]
    exact ⟨rfl, stands⟩
  | @escape start text input outputs last plain rest ih =>
    rw [machine.feed_skip (Scanner.ground_ignores stands plain)]
    have opened : machine.step s esc = ({ s with mode := .escape }, none) := by
      simp [machine, Scanner.accept, stands]
    simp only [Transducer.feed, opened]
    exact ih rfl
  | ended => exact ⟨rfl, stands⟩
  | again rest ih =>
    simp only [Transducer.feed]
    rw [step_escape stands, if_neg (by decide), if_neg (by decide), if_neg (by decide), if_pos rfl]
    exact ih stands
  | reset rest ih =>
    simp only [Transducer.feed]
    rw [step_escape stands, if_neg (by decide), if_neg (by decide), if_pos rfl]
    obtain ⟨later, ended⟩ := ih (s := { s with mode := .ground }) rfl
    exact ⟨congrArg _ later, ended⟩
  | other escapes resets opens rest ih =>
    simp only [Transducer.feed]
    rw [step_escape stands, if_neg (show ¬_ = ']'.toUInt8 from opens .osc),
      if_neg (show ¬_ ∈ ascii "PX^_" from opens .string), if_neg resets, if_neg escapes]
    exact ih rfl
  | @unterminated start kind byte body opens inside =>
    obtain ⟨quiet, opened⟩ := step_opens stands opens
    obtain ⟨silent, within⟩ := within_fed inside opened (start + 1)
    simp only [Transducer.feed, quiet, silent]
    exact ⟨rfl, within.mode⟩
  | @cancelled start kind byte cancel body input outputs last opens inside cancels rest ih =>
    obtain ⟨quiet, opened⟩ := step_opens stands opens
    obtain ⟨silent, within⟩ := within_fed inside opened (start + 1)
    obtain ⟨still, ground⟩ := step_cancels within cancels
    obtain ⟨later, ends⟩ := ih ground
    simp only [Transducer.feed, quiet, machine.feed_append, silent, still, Option.map_none,
      Option.toList_none, List.nil_append]
    exact ⟨later, ends⟩
  | @terminated start kind byte body terminator input outputs last opens inside ends rest ih =>
    obtain ⟨quiet, opened⟩ := step_opens stands opens
    obtain ⟨silent, within⟩ := within_fed inside opened (start + 1)
    obtain ⟨reported, ground⟩ :=
      terminator_fed inside within ends (start + 1 + body.length)
    obtain ⟨later, ended⟩ := ih ground
    simp only [Transducer.feed, quiet, List.append_assoc, machine.feed_append, silent, reported,
      Option.map_none, Option.toList_none, List.nil_append]
    exact ⟨by rw [later], ended⟩

/-- From outside strings every stream has exactly one reading. The scan of the stream
reports it, queries with the positions after their terminators, and ends where it ends;
so do the scans of any chunks that the stream is cut into. -/
theorem scanner_recognises {s : Scanner} (ground : s.mode = .ground) (input : Bytes) :
    ∃ outputs mode, Reads .ground 0 input outputs mode ∧
      (∀ outputs' mode', Reads .ground 0 input outputs' mode' → outputs' = outputs ∧ mode' = mode) ∧
      (s.scan input).2 = (mutationsOf outputs, queriesOf outputs) ∧ (s.scan input).1.mode = mode ∧
      ∀ (store : ProgramStatusStore) (cut : List Bytes) (fed : ProgramStatusStore.Fed),
        store.scanner = s → cut.flatten = input → store.feedChunks 0 cut = .ok fed →
          fed.mutations = mutationsOf outputs ∧ fed.queries = queriesOf outputs ∧
            fed.store.scanner.mode = mode := by
  obtain ⟨⟨outputs, mode, reads⟩, -⟩ := reads_total input.length input (Nat.le_refl _) 0
  obtain ⟨reported, last⟩ := fed_of_reads reads ground
  refine ⟨outputs, mode, reads, fun outputs' mode' other => ?_, ?_, ?_, ?_⟩
  · obtain ⟨reported', last'⟩ := fed_of_reads other ground
    exact ⟨reported'.symm.trans reported, last'.symm.trans last⟩
  · rw [Scanner.scan_eq_feed, Scanner.reported, reported]
  · rw [Scanner.scan_eq_feed, Scanner.reported, last]
  · rintro store cut fed rfl rfl succeeded
    obtain rfl := ProgramStatusStore.feedChunks_ok succeeded
    exact ⟨by rw [reported], by rw [reported], last⟩

/-- A report that BEL ends, from a new scanner. -/
theorem scanner_recognises_report :
    ∃ outputs mode, Reads .ground 0 (0x1b :: ascii "]7501;state=idle" ++ [7]) outputs mode ∧
      (({} : Scanner).scan (0x1b :: ascii "]7501;state=idle" ++ [7])).2 =
        (mutationsOf outputs, queriesOf outputs) := by
  obtain ⟨outputs, mode, reads, -, scanned, -⟩ :=
    scanner_recognises (s := {}) rfl (0x1b :: ascii "]7501;state=idle" ++ [7])
  exact ⟨outputs, mode, reads, scanned⟩

end PtyRuntime.StatusGrammar
