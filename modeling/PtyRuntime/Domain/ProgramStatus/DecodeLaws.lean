import PtyRuntime.Domain.ProgramStatus.ReportLaws
import PtyRuntime.Base64

/-! Decoding a report's text is exact: it accepts the canonical base64 of every
admissible text, padded in full or not at all, and nothing else. -/
namespace PtyRuntime.Report

theorem sextet_digit : ∀ n < 64, sextet (Base64.digit n) = some (.ofNat n) := by decide

theorem sextet_table : ∀ b : Fin 256, (sextet (.ofFin b)).all (fun v =>
    decide (v.toNat < 64 ∧ Base64.digit v.toNat = .ofFin b)) = true := by decide +kernel

/-- A byte with six bits is their digit. -/
theorem sextet_eq_some {b : UInt8} {v : UInt32} (read : sextet b = some v) :
    ∃ n < 64, v = .ofNat n ∧ b = Base64.digit n := by
  have entry := sextet_table b.toFin
  rw [show UInt8.ofFin b.toFin = b from rfl, read, Option.all_some, decide_eq_true_eq] at entry
  exact ⟨v.toNat, entry.1, (UInt32.ofNat_toNat).symm, entry.2.symm⟩

theorem toNat_word {n : Nat} (small : n < 4096) : (UInt32.ofNat n).toNat = n := by
  have size : UInt32.size = 4294967296 := rfl
  exact UInt32.toNat_ofNat_of_lt' (by omega)

/-- Six more bits never reach past the accumulator's width. -/
theorem accumulate {m n : Nat} (held : m < 64) (next : n < 64) :
    ((UInt32.ofNat m <<< 6) ||| UInt32.ofNat n).toNat = m * 64 + n := by
  rw [UInt32.toNat_or, UInt32.toNat_shiftLeft, toNat_word (by omega), toNat_word (by omega)]
  have shifted : m <<< (UInt32.toNat 6 % 32) % 2 ^ 32 = m <<< 6 := by
    rw [show UInt32.toNat 6 % 32 = 6 from rfl, Nat.shiftLeft_eq]
    omega
  rw [shifted, ← Nat.shiftLeft_add_eq_or_of_lt (by omega), Nat.shiftLeft_eq]

/-- The first digit of a group is only held. -/
theorem push_first (out : Bytes) {n : Nat} (next : n < 64) :
    Bits.push { out } (Base64.digit n) = some { out, bits := .ofNat n, count := 6 } := by
  have sum := accumulate (m := 0) (by decide) next
  have whole : ((0 : UInt32) <<< 6) ||| UInt32.ofNat n = .ofNat n := by
    apply UInt32.toNat_inj.mp
    rw [show (0 : UInt32) = .ofNat 0 from rfl, sum, toNat_word (by omega), Nat.zero_mul,
      Nat.zero_add]
  simp only [Bits.push, sextet_digit n next, bind, Option.bind_some, whole]
  rfl

/-- Every later digit completes a byte and leaves `k` bits. -/
theorem push_later (out : Bytes) {k m n : Nat} (left : k = 0 ∨ k = 2 ∨ k = 4)
    (held : m < 4 * 2 ^ k) (next : n < 64) :
    Bits.push { out, bits := .ofNat m, count := .ofNat (k + 2) } (Base64.digit n) =
      some { out := out ++ [.ofNat ((m * 64 + n) / 2 ^ k)], bits := .ofNat ((m * 64 + n) % 2 ^ k),
             count := .ofNat k } := by
  have small : m < 64 := by rcases left with rfl | rfl | rfl <;> omega
  have sum := accumulate small next
  generalize whole : (UInt32.ofNat m <<< 6) ||| UInt32.ofNat n = v at sum
  have byte : (v >>> UInt32.ofNat k).toUInt8 = .ofNat ((m * 64 + n) / 2 ^ k) := by
    apply UInt8.toNat_inj.mp
    rw [UInt32.toNat_toUInt8, UInt32.toNat_shiftRight, sum, UInt8.toNat_ofNat', Nat.shiftRight_eq_div_pow]
    rcases left with rfl | rfl | rfl <;> rfl
  have rest : v &&& ((1 <<< UInt32.ofNat k) - 1) = .ofNat ((m * 64 + n) % 2 ^ k) := by
    apply UInt32.toNat_inj.mp
    rw [UInt32.toNat_and, sum, toNat_word]
    · rw [← Nat.and_two_pow_sub_one_eq_mod]
      rcases left with rfl | rfl | rfl <;> rfl
    · rcases left with rfl | rfl | rfl <;> omega
  simp only [Bits.push, sextet_digit n next, bind, Option.bind_some, whole]
  have counted : UInt32.ofNat (k + 2) + 6 - 8 = .ofNat k := by
    rcases left with rfl | rfl | rfl <;> rfl
  have full : 8 ≤ UInt32.ofNat (k + 2) + 6 := by
    rcases left with rfl | rfl | rfl <;> decide
  rw [if_pos full, counted, byte, rest]

/-- Four digits are three bytes, whatever the digits. -/
theorem fold_group (out rest : Bytes) {i j k l : Nat} (first : i < 64) (second : j < 64)
    (third : k < 64) (fourth : l < 64) :
    (Base64.digit i :: Base64.digit j :: Base64.digit k :: Base64.digit l :: rest).foldlM Bits.push
        { out } =
      rest.foldlM Bits.push { out := out ++ [.ofNat (i * 4 + j / 16), .ofNat (j % 16 * 16 + k / 4),
        .ofNat (k % 4 * 64 + l)] } := by
  have one := push_later out (k := 4) (m := i) (.inr (.inr rfl)) (by omega) second
  have two := push_later (out ++ [.ofNat ((i * 64 + j) / 2 ^ 4)]) (k := 2)
    (m := (i * 64 + j) % 2 ^ 4) (.inr (.inl rfl)) (by omega) third
  have three := push_later
    (out ++ [.ofNat ((i * 64 + j) / 2 ^ 4)] ++ [.ofNat (((i * 64 + j) % 2 ^ 4 * 64 + k) / 2 ^ 2)])
    (k := 0) (m := ((i * 64 + j) % 2 ^ 4 * 64 + k) % 2 ^ 2) (.inl rfl) (by omega) fourth
  rw [List.foldlM_cons, push_first out first, Option.bind_eq_bind, Option.bind_some,
    List.foldlM_cons, show (6 : UInt32) = .ofNat (4 + 2) from rfl, one, Option.bind_eq_bind,
    Option.bind_some, List.foldlM_cons, two, Option.bind_eq_bind, Option.bind_some,
    List.foldlM_cons, three, Option.bind_eq_bind, Option.bind_some]
  have bytes : (i * 64 + j) / 2 ^ 4 = i * 4 + j / 16 ∧
      ((i * 64 + j) % 2 ^ 4 * 64 + k) / 2 ^ 2 = j % 16 * 16 + k / 4 ∧
      (((i * 64 + j) % 2 ^ 4 * 64 + k) % 2 ^ 2 * 64 + l) / 2 ^ 0 = k % 4 * 64 + l := by
    omega
  rw [bytes.1, bytes.2.1, bytes.2.2, Nat.pow_zero, Nat.mod_one]
  simp only [List.append_assoc, List.singleton_append]
  rfl

/-- Two digits are a byte and the bits of the second that no byte took. -/
theorem fold_pair (out : Bytes) {i j : Nat} (first : i < 64) (second : j < 64) :
    [Base64.digit i, Base64.digit j].foldlM Bits.push { out } = some {
      out := out ++ [.ofNat (i * 4 + j / 16)], bits := .ofNat (j % 16), count := 4 } := by
  have one := push_later out (k := 4) (m := i) (.inr (.inr rfl)) (by omega) second
  rw [List.foldlM_cons, push_first out first, Option.bind_eq_bind, Option.bind_some,
    List.foldlM_cons, show (6 : UInt32) = .ofNat (4 + 2) from rfl, one, Option.bind_eq_bind,
    Option.bind_some, List.foldlM_nil]
  have bytes : (i * 64 + j) / 2 ^ 4 = i * 4 + j / 16 ∧ (i * 64 + j) % 2 ^ 4 = j % 16 := by omega
  rw [bytes.1, bytes.2]
  rfl

theorem fold_triple (out : Bytes) {i j k : Nat} (first : i < 64) (second : j < 64) (third : k < 64) :
    [Base64.digit i, Base64.digit j, Base64.digit k].foldlM Bits.push { out } = some {
      out := out ++ [.ofNat (i * 4 + j / 16), .ofNat (j % 16 * 16 + k / 4)]
      bits := .ofNat (k % 4), count := 2 } := by
  have one := push_later out (k := 4) (m := i) (.inr (.inr rfl)) (by omega) second
  have two := push_later (out ++ [.ofNat ((i * 64 + j) / 2 ^ 4)]) (k := 2)
    (m := (i * 64 + j) % 2 ^ 4) (.inr (.inl rfl)) (by omega) third
  rw [List.foldlM_cons, push_first out first, Option.bind_eq_bind, Option.bind_some,
    List.foldlM_cons, show (6 : UInt32) = .ofNat (4 + 2) from rfl, one, Option.bind_eq_bind,
    Option.bind_some, List.foldlM_cons, two, Option.bind_eq_bind, Option.bind_some,
    List.foldlM_nil]
  have bytes : (i * 64 + j) / 2 ^ 4 = i * 4 + j / 16 ∧
      ((i * 64 + j) % 2 ^ 4 * 64 + k) / 2 ^ 2 = j % 16 * 16 + k / 4 ∧
      ((i * 64 + j) % 2 ^ 4 * 64 + k) % 2 ^ 2 = k % 4 := by
    omega
  rw [bytes.1, bytes.2.1, bytes.2.2]
  simp only [List.append_assoc, List.singleton_append]
  rfl

theorem word_eq_zero {n : Nat} (small : n < 4096) (empty : UInt32.ofNat n = 0) : n = 0 := by
  rw [← toNat_word small, empty]
  rfl

/-- An encoding decodes to what it encodes, with no bits left. -/
theorem fold_encode (out bytes : Bytes) : ∃ count,
    (Base64.encode bytes).foldlM Bits.push { out } = some { out := out ++ bytes, count } := by
  have small (x : UInt8) : x.toNat < 256 := x.toNat_lt
  have read {n : Nat} {x : UInt8} (same : n = x.toNat) : UInt8.ofNat n = x := by
    rw [same, UInt8.ofNat_toNat]
  induction bytes using Base64.encode.induct generalizing out with
  | case1 => exact ⟨0, by simp [Base64.encode]⟩
  | case2 a =>
    have := small a
    refine ⟨4, ?_⟩
    rw [Base64.encode, fold_pair out (by omega) (by omega),
      read (x := a) (by omega), show a.toNat % 4 * 16 % 16 = 0 by omega]
    rfl
  | case3 a b =>
    have := small a
    have := small b
    refine ⟨2, ?_⟩
    rw [Base64.encode, fold_triple out (by omega) (by omega) (by omega),
      read (x := a) (by omega), read (x := b) (by omega), show b.toNat % 16 * 4 % 4 = 0 by omega]
    rfl
  | case4 a b c rest ih =>
    have := small a
    have := small b
    have := small c
    rw [Base64.encode, fold_group out _ (by omega) (by omega) (by omega) (by omega),
      read (x := a) (by omega), read (x := b) (by omega), read (x := c) (by omega)]
    obtain ⟨count, decoded⟩ := ih (out ++ [a, b, c])
    exact ⟨count, by rw [decoded, List.append_assoc]; rfl⟩

/-- Only digits decode. -/
theorem digits_of_fold {data : Bytes} {start d : Bits} (decoded : data.foldlM Bits.push start = some d) :
    ∀ b ∈ data, ∃ n < 64, b = Base64.digit n := by
  induction data generalizing start with
  | nil => exact fun _ member => absurd member List.not_mem_nil
  | cons b rest ih =>
    rw [List.foldlM_cons] at decoded
    obtain ⟨next, pushed, decoded⟩ := Option.bind_eq_some_iff.mp decoded
    obtain ⟨v, read, -⟩ := Option.bind_eq_some_iff.mp pushed
    obtain ⟨n, small, -, same⟩ := sextet_eq_some read
    rintro c (_ | ⟨_, later⟩)
    · exact ⟨n, small, same⟩
    · exact ih decoded c later

/-- What decodes with no bits left, in whole groups but for the last, is an encoding. -/
theorem encode_of_fold (data out : Bytes) {d : Bits} (decoded : data.foldlM Bits.push { out } = some d)
    (rest : d.bits = 0) (whole : data.length % 4 ≠ 1) :
    ∃ bytes, d.out = out ++ bytes ∧ data = Base64.encode bytes := by
  have digits := digits_of_fold decoded
  have read {n : Nat} (small : n < 256) : (UInt8.ofNat n).toNat = n := UInt8.toNat_ofNat_of_lt' small
  match data with
  | [] =>
    obtain rfl := Option.some.inj decoded
    exact ⟨[], (List.append_nil out).symm, rfl⟩
  | [a] => exact absurd rfl whole
  | [a, b] =>
    obtain ⟨i, first, rfl⟩ := digits a (by simp)
    obtain ⟨j, second, rfl⟩ := digits b (by simp)
    rw [fold_pair out first second] at decoded
    obtain rfl := Option.some.inj decoded
    have empty := word_eq_zero (by omega) rest
    refine ⟨[.ofNat (i * 4 + j / 16)], rfl, ?_⟩
    rw [Base64.encode, read (by omega), show (i * 4 + j / 16) / 4 = i by omega,
      show (i * 4 + j / 16) % 4 * 16 = j by omega]
  | [a, b, c] =>
    obtain ⟨i, first, rfl⟩ := digits a (by simp)
    obtain ⟨j, second, rfl⟩ := digits b (by simp)
    obtain ⟨k, third, rfl⟩ := digits c (by simp)
    rw [fold_triple out first second third] at decoded
    obtain rfl := Option.some.inj decoded
    have empty := word_eq_zero (by omega) rest
    refine ⟨[.ofNat (i * 4 + j / 16), .ofNat (j % 16 * 16 + k / 4)], rfl, ?_⟩
    rw [Base64.encode, read (by omega), read (by omega),
      show (i * 4 + j / 16) / 4 = i by omega,
      show (i * 4 + j / 16) % 4 * 16 + (j % 16 * 16 + k / 4) / 16 = j by omega,
      show (j % 16 * 16 + k / 4) % 16 * 4 = k by omega]
  | a :: b :: c :: e :: tail =>
    obtain ⟨i, first, rfl⟩ := digits a (by simp)
    obtain ⟨j, second, rfl⟩ := digits b (by simp)
    obtain ⟨k, third, rfl⟩ := digits c (by simp)
    obtain ⟨l, fourth, rfl⟩ := digits e (by simp)
    rw [fold_group out tail first second third fourth] at decoded
    have shorter : tail.length % 4 ≠ 1 := by
      simp only [List.length_cons] at whole
      omega
    obtain ⟨bytes, written, same⟩ := encode_of_fold tail _ decoded rest shorter
    refine ⟨.ofNat (i * 4 + j / 16) :: .ofNat (j % 16 * 16 + k / 4) :: .ofNat (k % 4 * 64 + l) ::
      bytes, by rw [written, List.append_assoc]; rfl, ?_⟩
    rw [Base64.encode, read (by omega), read (by omega), read (by omega), ← same,
      show (i * 4 + j / 16) / 4 = i by omega,
      show (i * 4 + j / 16) % 4 * 16 + (j % 16 * 16 + k / 4) / 16 = j by omega,
      show (j % 16 * 16 + k / 4) % 16 * 4 + (k % 4 * 64 + l) / 64 = k by omega,
      show (k % 4 * 64 + l) % 64 = l by omega]
termination_by data.length

/-- A value is its data and the padding that follows it. -/
theorem data_append_padding (value : Bytes) :
    value = value.rdropWhile (· == '='.toUInt8) ++ List.replicate
      (value.length - (value.rdropWhile (· == '='.toUInt8)).length) Base64.pad := by
  have split := List.rdropWhile_append_rtakeWhile (p := (· == '='.toUInt8)) (l := value)
  have pads : value.rtakeWhile (· == '='.toUInt8) = List.replicate
      (value.rtakeWhile (· == '='.toUInt8)).length Base64.pad :=
    List.eq_replicate_iff.mpr ⟨rfl, fun b member =>
      eq_of_beq (List.mem_rtakeWhile_imp (p := (· == '='.toUInt8)) member)⟩
  have length := congrArg List.length split
  rw [List.length_append] at length
  rw [← length, Nat.add_sub_cancel_left, ← pads, split]

/-- Dropping the padding leaves the digits. -/
theorem data_of_encode (bytes : Bytes) (n : Nat) :
    (Base64.encode bytes ++ List.replicate n Base64.pad).rdropWhile (· == '='.toUInt8) =
      Base64.encode bytes := by
  induction n with
  | zero =>
    rw [List.replicate_zero, List.append_nil, List.rdropWhile_eq_self_iff]
    intro nonempty last
    have last : (Base64.encode bytes).getLast nonempty = Base64.pad := eq_of_beq last
    exact Base64.pad_not_mem_encode bytes (last ▸ List.getLast_mem nonempty)
  | succ n ih =>
    rw [List.replicate_succ', ← List.append_assoc, List.rdropWhile_concat_pos _ _ _ rfl, ih]

/-- `decode` on data and padding taken apart. -/
theorem decode_eq_some {value text : Bytes} {limit : Nat} :
    decode value limit = some text ↔
      ∃ data padding, data = value.rdropWhile (· == '='.toUInt8) ∧
        padding = value.length - data.length ∧ padding ≤ 2 ∧ data.length % 4 ≠ 1 ∧
        (0 < padding → value.length % 4 = 0 ∧ padding = (4 - data.length % 4) % 4) ∧
        ∃ d, data.foldlM Bits.push {} = some d ∧ d.bits = 0 ∧ d.out = text ∧
          PlainText limit text := by
  constructor
  · intro decoded
    have plain := decode_plain decoded
    simp only [decode, bind] at decoded
    split at decoded
    · cases decoded
    rename_i shape
    obtain ⟨d, read, decoded⟩ := Option.bind_eq_some_iff.mp decoded
    split at decoded
    · cases decoded
    rename_i rest
    obtain ⟨_, -, decoded⟩ := Option.bind_eq_some_iff.mp decoded
    split at decoded
    · cases decoded
    obtain rfl := Option.some.inj decoded
    simp only [Bool.or_eq_true, Bool.and_eq_true, decide_eq_true_eq, beq_iff_eq, bne_iff_ne,
      not_or, not_and, ne_eq, not_not] at shape rest
    exact ⟨_, _, rfl, rfl, by omega, shape.1.2, fun padded => by simpa using shape.2 padded, d,
      read, rest.1, rfl, plain⟩
  · rintro ⟨data, padding, rfl, rfl, few, whole, padded, d, read, rest, rfl, short, utf8⟩
    obtain ⟨text, utf8, plain⟩ := utf8
    simp only [decode, bind]
    rw [if_neg, read, Option.bind_some, if_neg, utf8, Option.bind_some, if_neg]
    · simpa using plain
    · simpa [rest] using short
    · simp only [Bool.or_eq_true, Bool.and_eq_true, decide_eq_true_eq, beq_iff_eq, bne_iff_ne,
        not_or, not_and, ne_eq, not_not]
      exact ⟨⟨by omega, whole⟩, fun some => by simpa using padded some⟩

/-- What `decode` accepts is one of the two encodings of its text. -/
theorem decode_eq_some_iff {value text : Bytes} {limit : Nat} :
    decode value limit = some text ↔
      (value = Base64.encode text ∨ value = Base64.encodePadded text) ∧ PlainText limit text := by
  rw [decode_eq_some]
  constructor
  · rintro ⟨data, padding, rfl, rfl, -, whole, padded, d, decoded, rest, rfl, plain⟩
    refine ⟨?_, plain⟩
    obtain ⟨bytes, written, same⟩ := encode_of_fold _ [] decoded rest whole
    obtain rfl : d.out = bytes := written
    have value_eq := data_append_padding value
    rcases Nat.eq_zero_or_pos
      (value.length - (value.rdropWhile (· == '='.toUInt8)).length) with bare | some
    · rw [bare, List.replicate_zero, List.append_nil, same] at value_eq
      exact .inl value_eq
    · right
      rw [(padded some).2, same, ← (Base64.length_encode d.out).2] at value_eq
      exact value_eq
  · rintro ⟨shape, plain⟩
    obtain ⟨count, decoded⟩ := fold_encode [] text
    have lengths := Base64.length_encode text
    obtain ⟨n, rfl, amount⟩ : ∃ n, value = Base64.encode text ++ List.replicate n Base64.pad ∧
        (0 < n → n = (4 - (Base64.encode text).length % 4) % 4) := by
      rcases shape with rfl | rfl
      · exact ⟨0, (List.append_nil _).symm, fun some => absurd some (Nat.lt_irrefl 0)⟩
      · exact ⟨_, rfl, fun _ => lengths.2⟩
    refine ⟨_, n, (data_of_encode text n).symm, ?_, ?_, lengths.1, fun some => ⟨?_, amount some⟩,
      _, decoded, rfl, rfl, plain⟩
    · rw [List.length_append, List.length_replicate, Nat.add_sub_cancel_left]
    · rcases Nat.eq_zero_or_pos n with bare | some
      · omega
      · have := amount some
        omega
    · have := amount some
      rw [List.length_append, List.length_replicate]
      omega

/-- Fewer than a byte of bits are held, and nothing above them. -/
structure Bits.Held (d : Bits) : Prop where
  count : d.count.toNat = 0 ∨ d.count.toNat = 2 ∨ d.count.toNat = 4 ∨ d.count.toNat = 6
  bits : d.bits.toNat < 2 ^ d.count.toNat

/-- Taking six more bits in shifts nothing out. -/
theorem Bits.Held.accumulate {d : Bits} (held : d.Held) {b : UInt8} {n : UInt32}
    (read : sextet b = some n) :
    ((d.bits <<< 6) ||| n).toNat = d.bits.toNat * 64 + n.toNat ∧ n.toNat < 64 ∧
      (d.count + 6).toNat = d.count.toNat + 6 := by
  obtain ⟨v, small, rfl, -⟩ := sextet_eq_some read
  have few : d.bits.toNat < 64 := by
    have := held.bits
    rcases held.count with same | same | same | same <;> rw [same] at this <;> omega
  have sum := Report.accumulate few small
  rw [UInt32.ofNat_toNat] at sum
  refine ⟨by rw [sum, toNat_word (by omega)], by rwa [toNat_word (by omega)], ?_⟩
  have six : UInt32.toNat 6 = 6 := rfl
  rw [UInt32.toNat_add, six]
  have few := held.count
  omega

theorem Bits.Held.push {d next : Bits} (held : d.Held) {b : UInt8} (pushed : d.push b = some next) :
    next.Held := by
  obtain ⟨v, read, -⟩ := Option.bind_eq_some_iff.mp pushed
  obtain ⟨n, small, -, rfl⟩ := sextet_eq_some read
  obtain ⟨out, bits, count⟩ := d
  have below := held.bits
  have later {k : Nat} (left : k = 0 ∨ k = 2 ∨ k = 4) (counted : count.toNat = k + 2) :
      next.Held := by
    rw [counted, show 2 ^ (k + 2) = 4 * 2 ^ k by rw [Nat.pow_add, Nat.mul_comm]] at below
    rw [← UInt32.ofNat_toNat (x := bits), ← UInt32.ofNat_toNat (x := count), counted,
      push_later out left below small] at pushed
    obtain rfl := Option.some.inj pushed
    have width : (UInt32.ofNat k).toNat = k := toNat_word (by omega)
    have rest : (bits.toNat * 64 + n) % 2 ^ k < 2 ^ k := Nat.mod_lt _ (Nat.two_pow_pos k)
    have narrow : 2 ^ k ≤ 2 ^ 4 := Nat.pow_le_pow_right (by decide) (by omega)
    exact ⟨by rw [width]; omega, by rw [width, toNat_word (by omega)]; exact rest⟩
  rcases held.count with empty | counted | counted | counted
  · rw [empty] at below
    have noBits : bits = 0 := UInt32.toNat_inj.mp (Nat.lt_one_iff.mp below)
    have noCount : count = 0 := UInt32.toNat_inj.mp empty
    rw [noBits, noCount, push_first out small] at pushed
    obtain rfl := Option.some.inj pushed
    exact ⟨.inr (.inr (.inr rfl)), by rw [toNat_word (by omega)]; exact small⟩
  · exact later (.inl rfl) counted
  · exact later (.inr (.inl rfl)) counted
  · exact later (.inr (.inr rfl)) counted

theorem held_of_fold {data : Bytes} {start d : Bits} (held : start.Held)
    (decoded : data.foldlM Bits.push start = some d) : d.Held := by
  induction data generalizing start with
  | nil =>
    obtain rfl := Option.some.inj decoded
    exact held
  | cons b rest ih =>
    rw [List.foldlM_cons] at decoded
    obtain ⟨next, pushed, decoded⟩ := Option.bind_eq_some_iff.mp decoded
    exact ih (held.push pushed) decoded

/-- Decoding accepts exactly the canonical encodings, padded in full or not at all, of
plain text within the limit; it undoes both, unpadded values name different texts, and
after any digits the next one fits the accumulator. -/
theorem decode_exact :
    (∀ value text limit, decode value limit = some text ↔
      (value = Base64.encode text ∨ value = Base64.encodePadded text) ∧ PlainText limit text) ∧
    (∀ text limit, PlainText limit text →
      decode (Base64.encode text) limit = some text ∧
        decode (Base64.encodePadded text) limit = some text) ∧
    (∀ value other text limit bound, decode value limit = some text →
      decode other bound = some text → Base64.pad ∉ value → Base64.pad ∉ other → value = other) ∧
    ∀ (data : Bytes) (d : Bits), data.foldlM Bits.push {} = some d →
      ∀ b n, sextet b = some n →
        ((d.bits <<< 6) ||| n).toNat = d.bits.toNat * 64 + n.toNat ∧
          d.bits.toNat * 64 + n.toNat < 2 ^ 12 ∧ (d.count + 6).toNat = d.count.toNat + 6 := by
  refine ⟨fun value text limit => decode_eq_some_iff, fun text limit plain =>
    ⟨decode_eq_some_iff.mpr ⟨.inl rfl, plain⟩, decode_eq_some_iff.mpr ⟨.inr rfl, plain⟩⟩, ?_, ?_⟩
  · intro value other text limit bound first second bare bare'
    have unpadded {value : Bytes} {limit : Nat} (decoded : decode value limit = some text)
        (bare : Base64.pad ∉ value) : value = Base64.encode text := by
      rcases (decode_eq_some_iff.mp decoded).1 with same | same
      · exact same
      · rw [same, Base64.encodePadded, List.mem_append, not_or, List.mem_replicate] at bare
        rw [same, Base64.encodePadded, show Base64.padding text = 0 by simpa using bare.2,
          List.replicate_zero, List.append_nil]
    rw [unpadded first bare, unpadded second bare']
  · intro data d decoded b n read
    have held : d.Held := held_of_fold ⟨.inl rfl, by decide⟩ decoded
    obtain ⟨sum, small, counted⟩ := held.accumulate read
    have := held.bits
    refine ⟨sum, ?_, counted⟩
    rcases held.count with same | same | same | same <;> rw [same] at this <;> omega

end PtyRuntime.Report
