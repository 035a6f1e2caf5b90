import PtyRuntime.Infrastructure.EventStream.Codec

/-! The decoder accepts exactly what the encoder writes. Each reader is matched with
its writer, field by field; the envelope is put together from these. -/
namespace PtyRuntime

/-- The values of the source's fixed-width types. -/
def ReplayCursor.Representable (c : ReplayCursor) : Prop :=
  c.lifetime.owner ≤ u64Max ∧ c.lifetime.sequence ≤ u64Max ∧ c.offset ≤ u64Max

def ExitStatus.Representable : ExitStatus → Prop
  | .code value | .signal value => LittleEndian.Signed 4 value

def OutputEvent.Representable : OutputEvent → Prop
  | .replay (.bytes start next _) => start.Representable ∧ next.Representable
  | .replay (.gap start stop) => start.Representable ∧ stop.Representable
  | .replay .pending => True
  | .complete completion => ∀ exit ∈ completion.status.exit, exit.Representable

namespace EventStream

open ByteReader

theorem exact_take (count : Nat) : (Input.take count).Exact id (·.length = count) where
  safe input := by
    unfold Input.take Input.splitAt
    split
    · exact nofun
    · rw [if_pos (by omega)]
      exact nofun
  exact input value rest := by
    unfold Input.take Input.splitAt
    constructor
    · intro answered
      split at answered
      · cases answered
      · rw [if_pos (by omega)] at answered
        obtain ⟨rfl, rfl⟩ := Prod.mk.inj (Except.ok.inj (Option.some.inj answered))
        exact ⟨(List.take_append_drop _ _).symm, List.length_take_of_le (by omega)⟩
    · rintro ⟨rfl, rfl⟩
      rw [if_neg (by simp), if_pos (by simp)]
      simp

theorem exact_head {bytes : Bytes} (one : bytes.length = 1) :
    (Input.head bytes).Exact (fun _ => []) fun byte => [byte] = bytes := by
  obtain ⟨byte, rfl⟩ := List.length_eq_one_iff.mp one
  have exact : (Input.head [byte]).Exact (fun _ => []) (· = byte) := exact_pure byte
  exact exact.congr (by simp) fun _ _ => rfl

theorem exact_byte : Input.byte.Exact (fun byte => [byte]) fun _ => True := by
  have chain := (exact_take 1).bind (fun byte : UInt8 => [byte]) (fun _ => exact_head)
    fun _ _ same => same
  exact chain.congr (by simp) fun _ _ => rfl

theorem exact_number (width : Nat) :
    (Input.number width).Exact (LittleEndian.bytesOf width) (· < 256 ^ width) := by
  have tail : ∀ bytes : Bytes, bytes.length = width →
      (if bytes.length = width then Pure.pure (LittleEndian.natOf bytes)
        else fail .invalidRecord : Input Nat).Exact (fun _ => [])
        fun n => n < 256 ^ width ∧ LittleEndian.bytesOf width n = bytes := by
    rintro bytes rfl
    rw [if_pos rfl]
    apply (exact_pure _).congr _ fun _ _ => rfl
    intro n
    constructor
    · rintro rfl
      exact ⟨LittleEndian.natOf_lt bytes, LittleEndian.bytesOf_natOf bytes⟩
    · rintro ⟨fits, same⟩
      exact (LittleEndian.natOf_bytesOf fits).symm.trans (congrArg LittleEndian.natOf same)
  have chain := (exact_take width).bind (LittleEndian.bytesOf width) tail fun _ _ valid => valid.2
  exact chain.congr (by simp) fun _ _ => List.append_nil _

theorem exact_i32 : Input.i32.Exact (LittleEndian.bytesOfInt 4) (LittleEndian.Signed 4) := by
  have tail : ∀ bytes : Bytes, bytes.length = 4 →
      (if bytes.length = 4 then Pure.pure (LittleEndian.intOf bytes)
        else fail .invalidRecord : Input Int).Exact (fun _ => [])
        fun value => LittleEndian.Signed 4 value ∧ LittleEndian.bytesOfInt 4 value = bytes := by
    intro bytes four
    rw [if_pos four]
    apply (exact_pure _).congr _ fun _ _ => rfl
    intro value
    constructor
    · rintro rfl
      rw [← four]
      exact ⟨LittleEndian.intOf_signed (by rintro rfl; cases four),
        LittleEndian.bytesOfInt_intOf bytes⟩
    · rintro ⟨fits, rfl⟩
      exact (LittleEndian.intOf_bytesOfInt fits).symm
  have chain := (exact_take 4).bind (LittleEndian.bytesOfInt 4) tail fun _ _ valid => valid.2
  exact chain.congr (by simp) fun _ _ => List.append_nil _

/-- Tag and code of an exit fact. -/
def exitFields : Option ExitStatus → UInt8 × Int
  | none => (0, 0)
  | some (.code code) => (1, code)
  | some (.signal code) => (2, code)

theorem encodeExit_eq (exit : Option ExitStatus) :
    encodeExit exit = [(exitFields exit).1] ++ LittleEndian.bytesOfInt 4 (exitFields exit).2 := by
  cases exit with
  | none => rfl
  | some status => cases status <;> rfl

theorem exitFields_signed (exit : Option ExitStatus) :
    LittleEndian.Signed 4 (exitFields exit).2 ↔ ∀ status ∈ exit, status.Representable := by
  cases exit with
  | none => simp [exitFields, LittleEndian.Signed]
  | some status => cases status <;> simp [exitFields, ExitStatus.Representable]

theorem exact_exitFields (tag : UInt8) (code : Int) :
    (if tag = 0 ∧ code = 0 then Pure.pure none
      else if tag = 1 then Pure.pure (some (.code code))
      else if tag = 2 then Pure.pure (some (.signal code))
      else fail .invalidRecord : Input (Option ExitStatus)).Exact (fun _ => [])
      fun exit => exitFields exit = (tag, code) := by
  split
  · rename_i absent
    obtain ⟨rfl, rfl⟩ := absent
    apply (exact_pure _).congr _ fun _ _ => rfl
    intro exit
    rcases exit with _ | _ | _ <;> simp [exitFields]
  · split
    · subst tag
      apply (exact_pure _).congr _ fun _ _ => rfl
      intro exit
      rcases exit with _ | _ | _ <;> simp [exitFields]
    · split
      · subst tag
        apply (exact_pure _).congr _ fun _ _ => rfl
        intro exit
        rcases exit with _ | _ | _ <;> simp [exitFields]
      · apply (exact_fail _ fun _ => []).congr _ fun _ _ => rfl
        intro exit
        rcases exit with _ | _ | _ <;> simp [exitFields] <;> tauto

theorem exact_exit : decodeExit.Exact encodeExit fun exit => ∀ status ∈ exit, status.Representable := by
  have code (tag : UInt8) := exact_i32.bind (fun exit => (exitFields exit).2)
    (fun code _ => exact_exitFields tag code) fun _ _ same => congrArg Prod.snd same
  have chain := exact_byte.bind (fun exit => (exitFields exit).1) (fun tag _ => code tag)
    fun _ _ valid => congrArg Prod.fst valid.2
  apply chain.congr
  · intro exit
    rw [← exitFields_signed]
    simp
  · intro exit _
    rw [encodeExit_eq, List.append_nil]

/-- Tag and code of a drain fact. -/
def drainFields : Option DrainOutcome → UInt8 × Nat
  | none => (0, 0)
  | some .eof => (1, 0)
  | some .truncated => (2, 0)
  | some (.failed error) => (3, processCode error)

theorem encodeDrain_eq (drain : Option DrainOutcome) :
    encodeDrain drain = [(drainFields drain).1] ++ LittleEndian.bytesOf 2 (drainFields drain).2 := by
  cases drain with
  | none => rfl
  | some outcome => cases outcome <;> rfl

theorem drainFields_lt (drain : Option DrainOutcome) : (drainFields drain).2 < 256 ^ 2 := by
  rcases drain with _ | _ | _ | error
  · decide
  · decide
  · decide
  · have bounds := processCode_bounds error
    simp only [drainFields]
    omega

theorem exact_drainFields (tag : UInt8) (code : Nat) :
    (if tag = 0 ∧ code = 0 then Pure.pure none
      else if tag = 1 ∧ code = 0 then Pure.pure (some .eof)
      else if tag = 2 ∧ code = 0 then Pure.pure (some .truncated)
      else if tag = 3 then ofExcept ((processFrom code).map fun error => some (.failed error))
      else fail .invalidRecord : Input (Option DrainOutcome)).Exact (fun _ => [])
      fun drain => drainFields drain = (tag, code) := by
  split
  · rename_i absent
    obtain ⟨rfl, rfl⟩ := absent
    apply (exact_pure _).congr _ fun _ _ => rfl
    intro drain
    rcases drain with _ | _ | _ | _ <;> simp [drainFields]
  · split
    · rename_i eof
      obtain ⟨rfl, rfl⟩ := eof
      apply (exact_pure _).congr _ fun _ _ => rfl
      intro drain
      rcases drain with _ | _ | _ | _ <;> simp [drainFields]
    · split
      · rename_i truncated
        obtain ⟨rfl, rfl⟩ := truncated
        apply (exact_pure _).congr _ fun _ _ => rfl
        intro drain
        rcases drain with _ | _ | _ | _ <;> simp [drainFields]
      · split
        · subst tag
          apply (exact_ofExcept _).congr _ fun _ _ => rfl
          intro drain
          rw [map_eq_ok]
          constructor
          · rintro ⟨error, read, rfl⟩
            exact congrArg (Prod.mk 3) (processFrom_eq.mp read)
          · intro same
            rcases drain with _ | _ | _ | error
            · cases congrArg Prod.fst same
            · cases congrArg Prod.fst same
            · cases congrArg Prod.fst same
            · exact ⟨error, processFrom_eq.mpr (congrArg Prod.snd same), rfl⟩
        · apply (exact_fail _ fun _ => []).congr _ fun _ _ => rfl
          intro drain
          rcases drain with _ | _ | _ | _ <;> simp [drainFields] <;> tauto

theorem exact_drain : decodeDrain.Exact encodeDrain fun _ => True := by
  have code (tag : UInt8) := (exact_number 2).bind (fun drain => (drainFields drain).2)
    (fun code _ => exact_drainFields tag code) fun _ _ same => congrArg Prod.snd same
  have chain := exact_byte.bind (fun drain => (drainFields drain).1) (fun tag _ => code tag)
    fun _ _ valid => congrArg Prod.fst valid.2
  apply chain.congr
  · intro drain
    simp only [drainFields_lt, true_and]
  · intro drain _
    rw [encodeDrain_eq, List.append_nil]

theorem exact_flag :
    decodeFlag.Exact (fun flag => [if flag then 1 else 0]) fun _ => True := by
  have tail (byte : UInt8) :
      (if byte = 0 then Pure.pure false else if byte = 1 then Pure.pure true
        else fail .invalidRecord : Input Bool).Exact (fun _ => [])
        fun flag => (if flag then 1 else 0) = byte := by
    split
    · subst byte
      exact (exact_pure _).congr (by decide) fun _ _ => rfl
    · split
      · subst byte
        exact (exact_pure _).congr (by decide) fun _ _ => rfl
      · apply (exact_fail _ fun _ => []).congr _ fun _ _ => rfl
        intro flag
        cases flag <;> simp <;> tauto
  have chain := exact_byte.bind (fun flag : Bool => if flag then (1 : UInt8) else 0)
    (fun byte _ => tail byte) fun _ _ same => same
  exact chain.congr (by simp) fun _ _ => rfl

theorem optional_eq {α : Type} {decode : Nat → Except PublicationError α} {encode : α → Nat}
    (exact : ∀ {code value}, decode code = .ok value ↔ encode value = code)
    (nonzero : ∀ value, 1 ≤ encode value) {code : Nat} {value : Option α} :
    optional decode code = .ok value ↔ (value.map encode).getD 0 = code := by
  unfold optional
  split
  · subst code
    cases value with
    | none => simp
    | some value =>
      have positive := nonzero value
      simp only [Except.ok.injEq, reduceCtorEq, Option.map_some, Option.getD_some, false_iff]
      omega
  · rename_i present
    rw [map_eq_ok]
    cases value with
    | none => simpa [eq_comm] using present
    | some value => simp [exact]

/-- Whether both sides of completion are known, with an exit that the wire can hold. -/
def Finished (completion : Completion) : Prop :=
  completion.status.completion = some completion ∧
    ∀ exit ∈ completion.status.exit, exit.Representable

theorem exact_finish (status : SessionStatus) :
    (match status.completion with
      | some completion => Pure.pure completion
      | none => fail .invalidRecord : Input Completion).Exact (fun _ => [])
      fun completion => completion.status.completion = some completion ∧ completion.status = status := by
  cases finished : status.completion with
  | some completion =>
    obtain ⟨_, _, rfl⟩ := SessionStatus.completion_eq_some.mp finished
    apply (exact_pure _).congr _ fun _ _ => rfl
    rintro ⟨other⟩
    constructor
    · intro same
      obtain rfl := Completion.mk.inj same
      exact ⟨finished, rfl⟩
    · rintro ⟨-, rfl⟩
      rfl
  | none =>
    apply (exact_fail _ fun _ => []).congr _ fun _ _ => rfl
    intro completion
    simp only [false_iff, not_and]
    rintro known rfl
    cases known.symm.trans finished

def supervisionCode (completion : Completion) : Nat :=
  (completion.status.supervisionError.map processCode).getD 0

def admissionCode (completion : Completion) : Nat :=
  (completion.status.admissionError.map runtimeCode).getD 0

theorem supervisionCode_lt (completion : Completion) : supervisionCode completion < 256 ^ 2 := by
  unfold supervisionCode
  cases completion.status.supervisionError with
  | none => decide
  | some error =>
    have bounds := processCode_bounds error
    simp only [Option.map_some, Option.getD_some]
    omega

theorem admissionCode_lt (completion : Completion) : admissionCode completion < 256 ^ 2 := by
  unfold admissionCode
  cases completion.status.admissionError with
  | none => decide
  | some error =>
    have bounds := runtimeCode_bounds error
    simp only [Option.map_some, Option.getD_some]
    omega

theorem exact_completion : decodeCompletion.Exact encodeCompletion Finished := by
  -- From the last field back to the first.
  have admission exit drain admission flag supervisionError :=
    (exact_ofExcept (optional runtimeFrom admission)).bind
      (fun c : Completion => c.status.admissionError)
      (fun admissionError _ => exact_finish
        ⟨exit, drain, supervisionError, admissionError, flag⟩)
      fun _ _ valid => by rw [valid.2]
  have supervision exit drain supervision admissionCode flag :=
    (exact_ofExcept (optional processFrom supervision)).bind
      (fun c : Completion => c.status.supervisionError)
      (fun supervisionError _ => admission exit drain admissionCode flag supervisionError)
      fun _ _ valid => by rw [valid.2.2]
  have flag exit drain supervisionCode admissionCode :=
    exact_flag.bind (fun c : Completion => c.status.cancellationRequested)
      (fun flag _ => supervision exit drain supervisionCode admissionCode flag)
      fun _ _ valid => by rw [valid.2.2.2]
  have codes exit drain supervision :=
    (exact_number 2).bind admissionCode
      (fun admission _ => flag exit drain supervision admission)
      fun _ _ valid => (optional_eq runtimeFrom_eq fun e => (runtimeCode_bounds e).1).mp valid.2.2.1
  have facts exit drain :=
    (exact_number 2).bind supervisionCode
      (fun supervision _ => codes exit drain supervision)
      fun _ _ valid => (optional_eq processFrom_eq fun e => (processCode_bounds e).1).mp valid.2.2.1
  have drained exit :=
    exact_drain.bind (fun c : Completion => c.status.drain) (fun drain _ => facts exit drain)
      fun _ _ valid => by rw [valid.2.2.2.2.2.2]
  have whole :=
    exact_exit.bind (fun c : Completion => c.status.exit) (fun exit _ => drained exit)
      fun _ _ valid => by rw [valid.2.2.2.2.2.2.2]
  apply whole.congr
  · intro c
    have supervised : optional processFrom (supervisionCode c) = .ok c.status.supervisionError :=
      (optional_eq processFrom_eq fun e => (processCode_bounds e).1).mpr rfl
    have admitted : optional runtimeFrom (admissionCode c) = .ok c.status.admissionError :=
      (optional_eq runtimeFrom_eq fun e => (runtimeCode_bounds e).1).mpr rfl
    simp only [supervisionCode_lt, admissionCode_lt, supervised, admitted, true_and,
      Finished, and_comm]
  · intro c _
    simp only [List.append_nil, encodeCompletion, supervisionCode, admissionCode]

/-- What may be published at a cursor, and the cursor after it. -/
inductive Publishes (start : ReplayCursor) : OutputEvent → ReplayCursor → Prop
  | page {next : ReplayCursor} {bytes : Bytes} (lifetime : next.lifetime = start.lifetime)
      (low : 1 ≤ bytes.length) (high : bytes.length ≤ 65536)
      (length : next.offset = start.offset + bytes.length) :
      Publishes start (.replay (.bytes start next bytes)) next
  | gap {stop : ReplayCursor} (lifetime : stop.lifetime = start.lifetime)
      (forward : start.offset < stop.offset) : Publishes start (.replay (.gap start stop)) stop
  | completion {completion : Completion}
      (finished : completion.status.completion = some completion) :
      Publishes start (.complete completion) start

def outputTag : OutputEvent → UInt8
  | .replay (.bytes _ _ _) => 1
  | .replay (.gap _ _) => 2
  | .complete _ => 3
  | .replay .pending => 0

/-- The body bytes that the encoder reserves. -/
def bodySize : OutputEvent → Nat
  | .replay (.bytes _ _ bytes) => bytes.length
  | .complete _ => 16
  | _ => 0

theorem layout_eq {start : ReplayCursor} {event : OutputEvent} {tag : UInt8} {next : ReplayCursor}
    {body : Nat} : layout start event = .ok (tag, next, body) ↔
      Publishes start event next ∧ tag = outputTag event ∧ body = bodySize event := by
  constructor
  · intro laid
    unfold layout at laid
    split at laid
    · split at laid
      · rename_i first stop bytes accepted
        obtain ⟨rfl, lifetime, some, within, length⟩ := accepted
        obtain ⟨forward, size⟩ := checkedSub_eq_some.mp length
        have positive := List.length_pos_of_ne_nil some
        cases laid
        exact ⟨.page lifetime positive within (by omega), rfl, rfl⟩
      · cases laid
    · split at laid
      · rename_i first stop accepted
        obtain ⟨rfl, lifetime, forward⟩ := accepted
        cases laid
        exact ⟨.gap lifetime forward, rfl, rfl⟩
      · cases laid
    · split at laid
      · rename_i completion accepted
        cases laid
        exact ⟨.completion (SessionStatus.completion_isSome.mp accepted), rfl, rfl⟩
      · cases laid
    · cases laid
  · rintro ⟨publishes, rfl, rfl⟩
    cases publishes with
    | page lifetime low high length =>
      have some := List.ne_nil_of_length_pos low
      have size := checkedSub_eq_some.mpr ⟨by omega, (Nat.eq_sub_of_add_eq' length.symm)⟩
      exact if_pos ⟨rfl, lifetime, some, high, size⟩
    | gap lifetime forward => exact if_pos ⟨rfl, lifetime, forward⟩
    | completion finished =>
      exact if_pos (SessionStatus.completion_isSome.mpr finished)

/-- What the encoder answers when the allocator grants its reservation. -/
theorem encode_eq_ok {allocate : Nat → Bool} {start : ReplayCursor} {event : OutputEvent}
    {payload : Bytes} {next : ReplayCursor} {complete : Bool} :
    encode allocate start event = .ok (payload, next, complete) ↔
      (Publishes start event next ∧ allocate (37 + bodySize event) = true) ∧
        payload = encodeHeader (outputTag event) start next ++ encodeBody event ∧
        complete = decide (outputTag event = 3) := by
  unfold encode
  constructor
  · intro encoded
    split at encoded
    · cases encoded
    · rename_i tag stop body laid
      obtain ⟨publishes, rfl, rfl⟩ := layout_eq.mp laid
      split at encoded
      · rename_i granted
        cases encoded
        exact ⟨⟨publishes, granted⟩, rfl, rfl⟩
      · cases encoded
  · rintro ⟨⟨publishes, granted⟩, rfl, rfl⟩
    rw [layout_eq.mpr ⟨publishes, rfl, rfl⟩]
    exact if_pos granted

theorem representable_iff {c : ReplayCursor} : c.Representable ↔
    c.lifetime.owner < 256 ^ 8 ∧ c.lifetime.sequence < 256 ^ 8 ∧ c.offset < 256 ^ 8 := by
  have width : 256 ^ 8 = u64Max + 1 := by decide
  rw [ReplayCursor.Representable, width, Nat.lt_succ_iff, Nat.lt_succ_iff, Nat.lt_succ_iff]

/-- The wire holds one lifetime for both positions. -/
structure Header.Valid (header : Header) : Prop where
  lifetime : header.next.lifetime = header.start.lifetime
  start : header.start.Representable
  next : header.next.Representable

theorem exact_header :
    decodeHeader.Exact (fun header => encodeHeader header.tag header.start header.next)
      Header.Valid := by
  -- From the end position back to the magic.
  have next tag owner sequence start :=
    (exact_number 8).bind (fun header : Header => header.next.offset)
      (fun next _ => exact_pure
        (⟨tag, ⟨⟨owner, sequence⟩, start⟩, ⟨⟨owner, sequence⟩, next⟩⟩ : Header))
      fun _ _ same => by rw [same]
  have start tag owner sequence :=
    (exact_number 8).bind (fun header : Header => header.start.offset)
      (fun start _ => next tag owner sequence start) fun _ _ valid => by rw [valid.2]
  have sequence tag owner :=
    (exact_number 8).bind (fun header : Header => header.start.lifetime.sequence)
      (fun sequence _ => start tag owner sequence) fun _ _ valid => by rw [valid.2.2]
  have owner tag :=
    (exact_number 8).bind (fun header : Header => header.start.lifetime.owner)
      (fun owner _ => sequence tag owner) fun _ _ valid => by rw [valid.2.2.2]
  have tagged :=
    exact_byte.bind Header.tag (fun tag _ => owner tag) fun _ _ valid => by rw [valid.2.2.2.2]
  have whole := (exact_take 4).bind (fun _ : Header => MAGIC)
    (fun magic _ => Exact.guard (p := magic ≠ MAGIC) .invalidRecord fun _ => tagged)
    fun _ _ valid => (not_not.mp valid.1).symm
  apply whole.congr
  · rintro ⟨tag, ⟨⟨owner, sequence⟩, start⟩, ⟨⟨owner', sequence'⟩, next⟩⟩
    constructor
    · rintro ⟨-, -, -, first, second, third, fourth, same⟩
      simp only [Header.mk.injEq, ReplayCursor.mk.injEq, SessionLifetime.mk.injEq] at same
      obtain ⟨-, -, ⟨rfl, rfl⟩, -⟩ := same
      exact ⟨rfl, representable_iff.mpr ⟨first, second, third⟩,
        representable_iff.mpr ⟨first, second, fourth⟩⟩
    · rintro ⟨lifetime, begin, stop⟩
      cases lifetime
      obtain ⟨first, second, third⟩ := representable_iff.mp begin
      obtain ⟨-, -, fourth⟩ := representable_iff.mp stop
      exact ⟨rfl, fun wrong => wrong rfl, trivial, first, second, third, fourth, rfl⟩
  · intro header _
    simp only [List.append_nil, id, encodeHeader, List.cons_append, List.nil_append]

/-- The bodies that fit a header. -/
def Fits (header : Header) (output : OutputEvent) : Prop :=
  Publishes header.start output header.next ∧ outputTag output = header.tag ∧
    ∀ completion, output = .complete completion → Finished completion

theorem decodePage_eq (start next : ReplayCursor) (input : Bytes) :
    decodePage start next input =
      if input = [] ∨ MAX_PAGE < input.length ∨
          checkedSub next.offset start.offset ≠ some input.length then
        some (.error .invalidRecord)
      else some (.ok (.replay (.bytes start next input), [])) := by
  unfold decodePage
  rw [bind_apply]
  simp only [remaining]
  split
  · rfl
  · have taken : Input.take input.length input = some (.ok (input, [])) :=
      ((exact_take input.length).exact _ _ _).mpr ⟨(List.append_nil input).symm, rfl⟩
    rw [bind_apply, taken]
    rfl

theorem whole_page {start next : ReplayCursor} (lifetime : next.lifetime = start.lifetime) :
    (decodePage start next).Whole encodeBody (Fits ⟨1, start, next⟩) where
  safe input := by
    rw [decodePage_eq]
    split <;> exact nofun
  exact input output := by
    rw [decodePage_eq]
    constructor
    · intro answered
      split at answered
      · cases answered
      · rename_i accepted
        obtain ⟨some, accepted⟩ := not_or.mp accepted
        obtain ⟨within, length⟩ := not_or.mp accepted
        obtain ⟨forward, size⟩ := checkedSub_eq_some.mp (not_not.mp length)
        have positive := List.length_pos_of_ne_nil some
        cases answered
        have ends : next.offset = start.offset + input.length := by omega
        exact ⟨rfl, .page lifetime positive (Nat.le_of_not_lt within) ends, rfl,
          fun _ wrong => nomatch wrong⟩
    · rintro ⟨rfl, publishes, tagged, -⟩
      cases publishes with
      | @page _ bytes _ low high length =>
        rw [if_neg]
        · rfl
        · dsimp only at length
          have size : checkedSub next.offset start.offset = some bytes.length :=
            checkedSub_eq_some.mpr ⟨by omega, (Nat.eq_sub_of_add_eq' length.symm)⟩
          rintro (none | above | wrong)
          · exact List.ne_nil_of_length_pos low none
          · exact absurd high (Nat.not_le.mpr above)
          · exact wrong size
      | gap _ _ => simp [outputTag] at tagged
      | completion _ => simp [outputTag] at tagged

theorem whole_body {header : Header} (lifetime : header.next.lifetime = header.start.lifetime) :
    (decodeBody header).Whole encodeBody (Fits header) := by
  obtain ⟨tag, start, next⟩ := header
  unfold decodeBody
  dsimp only at lifetime ⊢
  split
  · rename_i page
    obtain rfl : tag = 1 := page
    exact whole_page lifetime
  · rename_i other
    split
    · rename_i gap
      obtain ⟨rfl, forward⟩ := gap
      apply (exact_pure _).whole.congr
      · intro output
        constructor
        · rintro rfl
          exact ⟨.gap lifetime forward, rfl, fun _ wrong => nomatch wrong⟩
        · rintro ⟨publishes, tagged, -⟩
          cases publishes with
          | page _ _ _ _ => simp [outputTag] at tagged
          | gap _ _ => rfl
          | completion _ => simp [outputTag] at tagged
      · rintro _ rfl
        rfl
    · split
      · rename_i done
        obtain ⟨rfl, rfl⟩ := done
        have wrapped := exact_completion.whole.map OutputEvent.complete
          (fun output => match output with
            | .complete completion => completion
            | .replay _ => ⟨{}⟩) fun _ => rfl
        apply wrapped.congr
        · intro output
          constructor
          · rintro ⟨finished, same⟩
            rw [← same]
            constructor
            · exact .completion finished.1
            · constructor
              · rfl
              · rintro _ ⟨⟩
                exact finished
          · rintro ⟨publishes, tagged, finished⟩
            cases publishes with
            | page _ _ _ _ => simp [outputTag] at tagged
            | gap _ _ => simp [outputTag] at tagged
            | completion _ => exact ⟨finished _ rfl, rfl⟩
        · rintro output ⟨-, same⟩
          rw [← same]
          rfl
      · rename_i forward still
        apply (exact_fail _ encodeBody).whole.congr _ fun _ => False.elim
        intro output
        rw [false_iff]
        rintro ⟨publishes, tagged, -⟩
        dsimp only at publishes tagged
        cases publishes with
        | page _ _ _ _ => exact other tagged.symm
        | gap _ less => exact forward ⟨tagged.symm, less⟩
        | completion _ => exact still ⟨tagged.symm, rfl⟩

namespace DecodedOutput

/-- The cursor the event was published at. -/
def start (decoded : DecodedOutput) : ReplayCursor :=
  match decoded.output with
  | .replay (.bytes start _ _) | .replay (.gap start _) => start
  | _ => decoded.byteCursor

def header (decoded : DecodedOutput) : Header :=
  { tag := outputTag decoded.output, start := decoded.start, next := decoded.byteCursor }

/-- What the wire can hold. -/
structure Valid (decoded : DecodedOutput) : Prop where
  publishes : Publishes decoded.start decoded.output decoded.byteCursor
  finished : ∀ completion, decoded.output = .complete completion → Finished completion
  header : decoded.header.Valid

end DecodedOutput

theorem Publishes.start_eq {start next : ReplayCursor} {event : OutputEvent}
    (publishes : Publishes start event next) : (DecodedOutput.mk next event).start = start := by
  cases publishes <;> rfl

theorem whole_output :
    decodeOutput.Whole (fun decoded =>
      encodeHeader (outputTag decoded.output) decoded.start decoded.byteCursor ++
        encodeBody decoded.output) DecodedOutput.Valid := by
  have body (header : Header) (valid : header.Valid) :
      (decodeBody header >>= fun output =>
        Pure.pure { byteCursor := header.next, output } : Input DecodedOutput).Whole
        (fun decoded => encodeBody decoded.output)
        fun decoded => Fits header decoded.output ∧ DecodedOutput.mk header.next decoded.output = decoded :=
    (whole_body valid.lifetime).map (DecodedOutput.mk header.next) DecodedOutput.output fun _ => rfl
  have whole := Whole.bind exact_header DecodedOutput.header body (by
    rintro ⟨tag, start, next⟩ ⟨byteCursor, output⟩ ⟨⟨publishes, tagged, -⟩, same⟩
    obtain rfl := (DecodedOutput.mk.inj same).1
    rw [DecodedOutput.header, publishes.start_eq, tagged])
  apply whole.congr
  · intro decoded
    constructor
    · rintro ⟨valid, ⟨publishes, -, finished⟩, -⟩
      exact ⟨publishes, finished, valid⟩
    · rintro ⟨publishes, finished, valid⟩
      exact ⟨valid, ⟨publishes, rfl, finished⟩, rfl⟩
  · intro decoded _
    rfl

theorem length_encodeHeader (tag : UInt8) (start next : ReplayCursor) :
    (encodeHeader tag start next).length = 37 := by
  simp [encodeHeader, MAGIC]

theorem length_encodeCompletion (completion : Completion) :
    (encodeCompletion completion).length = 13 := by
  simp [encodeCompletion, encodeExit_eq, encodeDrain_eq]

theorem Publishes.length_le {start next : ReplayCursor} {event : OutputEvent}
    (publishes : Publishes start event next) : (encodeBody event).length ≤ MAX_PAGE := by
  cases publishes with
  | page _ _ high _ => exact high
  | gap _ _ => exact Nat.zero_le _
  | completion _ =>
    simp only [encodeBody, length_encodeCompletion]
    decide

/-- What every record of this schema satisfies. -/
structure Record.Envelope {StreamKey EventId : Type} (cursorVersion : Nat)
    (record : Record StreamKey EventId) : Prop where
  schema : record.event.schema = ⟨SCHEMA, VERSION⟩
  version : record.cursor.version = cursorVersion
  offset : record.cursor.offset ≠ 0

section
variable {StreamKey EventId : Type} {cursorVersion : Nat} {record : Record StreamKey EventId}

theorem decodeRecord_safe : decodeRecord cursorVersion record ≠ none := by
  unfold decodeRecord
  split
  · exact nofun
  · split
    · exact nofun
    · have safe := whole_output.safe record.event.payload
      cases answer : decodeOutput record.event.payload with
      | none => exact absurd answer safe
      | some result =>
        cases result with
        | error error => exact nofun
        | ok value =>
          dsimp only
          split <;> exact nofun

theorem decodeRecord_eq_ok {decoded : DecodedOutput} :
    decodeRecord cursorVersion record = some (.ok decoded) ↔
      record.Envelope cursorVersion ∧ decoded.Valid ∧ record.event.payload =
        encodeHeader (outputTag decoded.output) decoded.start decoded.byteCursor ++
          encodeBody decoded.output := by
  unfold decodeRecord
  constructor
  · intro answered
    split at answered
    · cases answered
    · rename_i envelope
      simp only [not_or, not_not] at envelope
      obtain ⟨id, version, cursor, offset⟩ := envelope
      split at answered
      · cases answered
      · split at answered
        · cases answered
        · cases answered
        · rename_i output rest decode
          split at answered
          · cases answered
          · rename_i trailing
            obtain rfl := not_not.mp trailing
            cases answered
            obtain ⟨bytes, valid⟩ := (whole_output.exact _ _).mp decode
            exact ⟨⟨SchemaRef.ext id version, cursor, offset⟩, valid, bytes⟩
  · rintro ⟨⟨schema, cursor, offset⟩, valid, bytes⟩
    have decode := (whole_output.exact _ _).mpr ⟨bytes, valid⟩
    have within : record.event.payload.length ≤ MAX_ENCODED := by
      have body := valid.publishes.length_le
      rw [bytes, List.length_append, length_encodeHeader, MAX_ENCODED]
      omega
    rw [if_neg, if_neg (Nat.not_lt.mpr within), decode]
    · rfl
    · rw [schema]
      simp [cursor, offset]

end

/-- A publishable event of representable values is one the wire can hold. -/
theorem Publishes.valid {start next : ReplayCursor} {event : OutputEvent}
    (publishes : Publishes start event next) (position : start.Representable)
    (event_ok : event.Representable) : (DecodedOutput.mk next event).Valid where
  publishes := by rw [publishes.start_eq]; exact publishes
  finished := by
    rintro completion rfl
    cases publishes with
    | completion finished => exact ⟨finished, event_ok⟩
  header := by
    rw [DecodedOutput.header, publishes.start_eq]
    cases publishes with
    | page lifetime _ _ _ => exact ⟨lifetime, position, event_ok.2⟩
    | gap lifetime _ => exact ⟨lifetime, position, event_ok.2⟩
    | completion _ => exact ⟨rfl, position, position⟩

/-- Encoding and decoding are inverse to each other, and the decoder never panics:
an accepted event is one page of 1 to 65536 bytes, a gap or a finished completion;
its payload decodes to exactly that event and the reported cursor; and a payload
that decodes is the only encoding of the event it decodes to. -/
theorem encode_decode_exact {StreamKey EventId : Type} (cursorVersion : Nat) :
    (∀ allocate start event, (∃ result, encode allocate start event = .ok result) ↔
      (∃ next, Publishes start event next) ∧ allocate (37 + bodySize event) = true) ∧
    (∀ (record : Record StreamKey EventId) allocate start event next complete,
      record.Envelope cursorVersion → start.Representable → event.Representable →
      encode allocate start event = .ok (record.event.payload, next, complete) →
      decodeRecord cursorVersion record = some (.ok ⟨next, event⟩)) ∧
    (∀ (record : Record StreamKey EventId) allocate decoded,
      decodeRecord cursorVersion record = some (.ok decoded) →
      allocate (37 + bodySize decoded.output) = true →
      encode allocate decoded.start decoded.output =
        .ok (record.event.payload, decoded.byteCursor, decide (outputTag decoded.output = 3))) ∧
    ∀ record : Record StreamKey EventId, decodeRecord cursorVersion record ≠ none := by
  refine ⟨?_, ?_, ?_, fun record => decodeRecord_safe⟩
  · intro allocate start event
    constructor
    · rintro ⟨⟨payload, next, complete⟩, encoded⟩
      obtain ⟨⟨publishes, granted⟩, -, -⟩ := encode_eq_ok.mp encoded
      exact ⟨⟨next, publishes⟩, granted⟩
    · rintro ⟨⟨next, publishes⟩, granted⟩
      exact ⟨_, encode_eq_ok.mpr ⟨⟨publishes, granted⟩, rfl, rfl⟩⟩
  · intro record allocate start event next complete envelope position event_ok encoded
    obtain ⟨⟨publishes, -⟩, bytes, -⟩ := encode_eq_ok.mp encoded
    apply decodeRecord_eq_ok.mpr
    rw [publishes.start_eq]
    exact ⟨envelope, publishes.valid position event_ok, bytes⟩
  · intro record allocate decoded answered granted
    obtain ⟨-, valid, bytes⟩ := decodeRecord_eq_ok.mp answered
    exact encode_eq_ok.mpr ⟨⟨valid.publishes, granted⟩, bytes, rfl⟩

/-- The page `hi` at the start of a stream, and its record. -/
def samplePage : OutputEvent := .replay (.bytes ⟨⟨1, 1⟩, 0⟩ ⟨⟨1, 1⟩, 2⟩ [104, 105])

def sampleRecord : Record Unit Unit where
  cursor := ⟨(), 1, 5⟩
  event := ⟨(), ⟨SCHEMA, VERSION⟩, encodeHeader 1 ⟨⟨1, 1⟩, 0⟩ ⟨⟨1, 1⟩, 2⟩ ++ [104, 105]⟩

theorem encode_decode_exact_page :
    decodeRecord 1 sampleRecord = some (.ok ⟨⟨⟨1, 1⟩, 2⟩, samplePage⟩) ∧
      encode (fun _ => true) ⟨⟨1, 1⟩, 0⟩ samplePage = .ok (sampleRecord.event.payload, ⟨⟨1, 1⟩, 2⟩, false) := by
  obtain ⟨-, decodes, encodes, -⟩ := @encode_decode_exact Unit Unit 1
  have envelope : sampleRecord.Envelope 1 := ⟨rfl, rfl, by decide⟩
  have low : 1 ≤ u64Max := by decide
  have start : ReplayCursor.Representable ⟨⟨1, 1⟩, 0⟩ := ⟨low, low, Nat.zero_le _⟩
  have next : ReplayCursor.Representable ⟨⟨1, 1⟩, 2⟩ := ⟨low, low, by decide⟩
  have page : samplePage.Representable := ⟨start, next⟩
  have encoded : encode (fun _ => true) ⟨⟨1, 1⟩, 0⟩ samplePage =
      .ok (sampleRecord.event.payload, ⟨⟨1, 1⟩, 2⟩, false) := by decide
  have decoded := decodes sampleRecord _ _ _ _ _ envelope start page encoded
  exact ⟨decoded, encodes sampleRecord _ _ decoded rfl⟩

end EventStream
end PtyRuntime
