import PtyRuntime.LittleEndian

/-! Reading values off a byte slice, and readers that accept exactly what a writer
produces. A reader takes the front of the slice and leaves the rest; `none` is a
panic, which a correct reader never runs into. -/

def ByteReader (ε α : Type) := List UInt8 → Option (Except ε (α × List UInt8))

namespace ByteReader

variable {ε α β : Type}

protected def pure (value : α) : ByteReader ε α := fun input => some (.ok (value, input))

def fail (error : ε) : ByteReader ε α := fun _ => some (.error error)

protected def bind (first : ByteReader ε α) (next : α → ByteReader ε β) : ByteReader ε β := fun input =>
  match first input with
  | none => none
  | some (.error error) => some (.error error)
  | some (.ok (value, rest)) => next value rest

instance : Monad (ByteReader ε) where
  pure := ByteReader.pure
  bind := ByteReader.bind

/-- The rest of the slice, without taking any of it. -/
def remaining : ByteReader ε (List UInt8) := fun input => some (.ok (input, input))

def ofExcept : Except ε α → ByteReader ε α
  | .ok value => ByteReader.pure value
  | .error error => fail error

theorem bind_apply (first : ByteReader ε α) (next : α → ByteReader ε β) (input : List UInt8) :
    (first >>= next) input =
      match first input with
      | none => none
      | some (.error error) => some (.error error)
      | some (.ok (value, rest)) => next value rest := rfl

/-- The reader answers a value exactly when the slice starts with its bytes. -/
structure Exact (read : ByteReader ε α) (encode : α → List UInt8) (valid : α → Prop) : Prop where
  safe : ∀ input, read input ≠ none
  exact : ∀ input value rest,
    read input = some (.ok (value, rest)) ↔ input = encode value ++ rest ∧ valid value

/-- The reader answers a value and leaves nothing exactly when the slice is its bytes. -/
structure Whole (read : ByteReader ε α) (encode : α → List UInt8) (valid : α → Prop) : Prop where
  safe : ∀ input, read input ≠ none
  exact : ∀ input value, read input = some (.ok (value, [])) ↔ input = encode value ∧ valid value

variable {read : ByteReader ε α} {encode : α → List UInt8} {valid : α → Prop}

theorem Exact.whole (exact : Exact read encode valid) : Whole read encode valid where
  safe := exact.safe
  exact input value := by rw [exact.exact, List.append_nil]

theorem Exact.congr {encode' : α → List UInt8} {valid' : α → Prop} (exact : Exact read encode valid)
    (same : ∀ value, valid value ↔ valid' value)
    (bytes : ∀ value, valid value → encode value = encode' value) : Exact read encode' valid' where
  safe := exact.safe
  exact input value rest := by
    rw [exact.exact, ← same]
    constructor
    · rintro ⟨rfl, holds⟩
      exact ⟨by rw [bytes value holds], holds⟩
    · rintro ⟨rfl, holds⟩
      exact ⟨by rw [bytes value holds], holds⟩

theorem Whole.congr {encode' : α → List UInt8} {valid' : α → Prop} (whole : Whole read encode valid)
    (same : ∀ value, valid value ↔ valid' value)
    (bytes : ∀ value, valid value → encode value = encode' value) : Whole read encode' valid' where
  safe := whole.safe
  exact input value := by
    rw [whole.exact, ← same]
    constructor
    · rintro ⟨rfl, holds⟩
      exact ⟨bytes value holds, holds⟩
    · rintro ⟨rfl, holds⟩
      exact ⟨(bytes value holds).symm, holds⟩

theorem exact_pure (value : α) :
    Exact (Pure.pure value : ByteReader ε α) (fun _ => []) (· = value) where
  safe _ none := by cases none
  exact input other rest := by
    change some (Except.ok (value, input)) = _ ↔ _
    simp only [Option.some.injEq, Except.ok.injEq, Prod.mk.injEq, List.nil_append]
    constructor
    · rintro ⟨rfl, rfl⟩
      exact ⟨rfl, rfl⟩
    · rintro ⟨rfl, rfl⟩
      exact ⟨rfl, rfl⟩

theorem exact_fail (error : ε) (encode : α → List UInt8) :
    Exact (fail error : ByteReader ε α) encode fun _ => False where
  safe _ none := by cases none
  exact input value rest := by
    simp only [fail, Option.some.injEq, reduceCtorEq, and_false]

theorem exact_ofExcept (result : Except ε α) :
    Exact (ofExcept result) (fun _ => []) fun value => result = .ok value := by
  cases result with
  | ok value => exact (exact_pure value).congr (fun other => by simp [eq_comm]) fun _ _ => rfl
  | error error =>
    exact (exact_fail error fun _ => []).congr (fun other => by simp) fun _ _ => rfl

/-- A check of what was read so far. -/
theorem Exact.guard {p : Prop} [Decidable p] (error : ε) (exact : ¬p → Exact read encode valid) :
    Exact (if p then fail error else read) encode fun value => ¬p ∧ valid value := by
  by_cases wrong : p
  · rw [if_pos wrong]
    exact (exact_fail error encode).congr (fun value => by simp [wrong]) fun _ => False.elim
  · rw [if_neg wrong]
    exact (exact wrong).congr (fun value => by simp [wrong]) fun _ _ => rfl

/-- One reader after another, where the final value tells what the first one read. -/
theorem Exact.bind {next : α → ByteReader ε β} {encode' : α → β → List UInt8}
    {valid' : α → β → Prop} (head : Exact read encode valid) (known : β → α)
    (tail : ∀ value, valid value → Exact (next value) (encode' value) (valid' value))
    (knows : ∀ value b, valid' value b → known b = value) :
    Exact (read >>= next) (fun b => encode (known b) ++ encode' (known b) b)
      fun b => valid (known b) ∧ valid' (known b) b where
  safe input := by
    rw [bind_apply]
    split
    · exact absurd ‹_› (head.safe input)
    · exact nofun
    · rename_i value rest first
      obtain ⟨-, holds⟩ := (head.exact _ _ _).mp first
      exact (tail value holds).safe rest
  exact input b rest := by
    rw [bind_apply]
    constructor
    · intro answered
      split at answered
      · cases answered
      · cases answered
      · rename_i value middle first
        obtain ⟨rfl, holds⟩ := (head.exact _ _ _).mp first
        obtain ⟨rfl, holds'⟩ := ((tail value holds).exact _ _ _).mp answered
        obtain rfl := knows value b holds'
        exact ⟨(List.append_assoc _ _ _).symm, holds, holds'⟩
    · rintro ⟨rfl, holds, holds'⟩
      rw [List.append_assoc, (head.exact _ _ _).mpr ⟨rfl, holds⟩]
      exact ((tail _ holds).exact _ _ _).mpr ⟨rfl, holds'⟩

theorem Whole.bind {next : α → ByteReader ε β} {encode' : α → β → List UInt8}
    {valid' : α → β → Prop} (head : Exact read encode valid) (known : β → α)
    (tail : ∀ value, valid value → Whole (next value) (encode' value) (valid' value))
    (knows : ∀ value b, valid' value b → known b = value) :
    Whole (read >>= next) (fun b => encode (known b) ++ encode' (known b) b)
      fun b => valid (known b) ∧ valid' (known b) b where
  safe input := by
    rw [bind_apply]
    split
    · exact absurd ‹_› (head.safe input)
    · exact nofun
    · rename_i value rest first
      obtain ⟨-, holds⟩ := (head.exact _ _ _).mp first
      exact (tail value holds).safe rest
  exact input b := by
    rw [bind_apply]
    constructor
    · intro answered
      split at answered
      · cases answered
      · cases answered
      · rename_i value middle first
        obtain ⟨rfl, holds⟩ := (head.exact _ _ _).mp first
        obtain ⟨rfl, holds'⟩ := ((tail value holds).exact _ _).mp answered
        obtain rfl := knows value b holds'
        exact ⟨rfl, holds, holds'⟩
    · rintro ⟨rfl, holds, holds'⟩
      rw [(head.exact _ _ _).mpr ⟨rfl, holds⟩]
      exact ((tail _ holds).exact _ _).mpr ⟨rfl, holds'⟩

/-- The last step of a reader that wraps what it read. -/
theorem Whole.map (whole : Whole read encode valid) (f : α → β) (g : β → α) (left : ∀ a, g (f a) = a) :
    Whole (read >>= fun a => Pure.pure (f a)) (fun b => encode (g b))
      fun b => valid (g b) ∧ f (g b) = b where
  safe input := by
    rw [bind_apply]
    split
    · exact absurd ‹_› (whole.safe input)
    · exact nofun
    · exact nofun
  exact input b := by
    rw [bind_apply]
    constructor
    · intro answered
      split at answered
      · cases answered
      · cases answered
      · rename_i a rest first
        obtain ⟨rfl, rfl⟩ := Prod.mk.inj (Except.ok.inj (Option.some.inj answered))
        rw [left]
        obtain ⟨bytes, holds⟩ := (whole.exact _ _).mp first
        exact ⟨bytes, holds, rfl⟩
    · rintro ⟨rfl, holds, same⟩
      rw [(whole.exact _ _).mpr ⟨rfl, holds⟩]
      exact congrArg (fun b => some (Except.ok (b, []))) same

end ByteReader
