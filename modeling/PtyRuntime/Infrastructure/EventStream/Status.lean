import PtyRuntime.Domain.Session
import PtyRuntime.CodeTable

/-! Explicit stable wire codes of the portable failures. -/
namespace PtyRuntime.EventStream

/-- Redacted sink failure category. -/
inductive SinkFailure where
  | capacity
  | commitUnknown
  | idempotencyConflict
  | unavailable
  | other
  deriving DecidableEq, Repr

inductive PublicationError where
  | source (error : RuntimeError)
  | capacity
  | invalidRecord
  | sink (failure : SinkFailure)
  deriving DecidableEq, Repr

/-- A code that no value has is an invalid record. -/
def decodeIn {α : Type} [DecidableEq α] (codes : CodeTable α) (code : Nat) :
    Except PublicationError α :=
  match codes.decode code with
  | some value => .ok value
  | none => .error .invalidRecord

theorem decodeIn_eq {α : Type} [DecidableEq α] {codes : CodeTable α} {code : Nat} {value : α} :
    decodeIn codes code = .ok value ↔ codes.encode value = code := by
  rw [← codes.decode_eq]
  unfold decodeIn
  cases codes.decode code <;> simp

def processCodes : CodeTable ProcessError where
  entries := [(1, .invalidCommand), (2, .outsideRoots), (3, .capacity), (4, .closed),
    (5, .permissionDenied), (6, .notFound), (7, .timeout), (8, .unsupported), (9, .io),
    (10, .internal)]
  complete value := by cases value <;> decide
  codes_nodup := by decide
  values_nodup := by decide

def terminalCodes : CodeTable TerminalError where
  entries := [(1, .invalidConfiguration), (2, .budgetExceeded), (3, .engineFailure),
    (4, .corruptCheckpoint), (5, .incompatibleCheckpoint), (6, .staleControl),
    (7, .historyIncomplete), (8, .unsupported)]
  complete value := by cases value <;> decide
  codes_nodup := by decide
  values_nodup := by decide

def checkpointCodes : CodeTable CheckpointError where
  entries := [(1, .invalidConfiguration), (2, .capacityExceeded), (3, .alreadyExists),
    (4, .notFound), (5, .unavailable), (6, .authenticationFailed), (7, .entropyUnavailable),
    (8, .cancelled)]
  complete value := by cases value <;> decide
  codes_nodup := by decide
  values_nodup := by decide

def processCode (value : ProcessError) : Nat := processCodes.encode value

def processFrom (code : Nat) : Except PublicationError ProcessError := decodeIn processCodes code

def terminalCode (value : TerminalError) : Nat := terminalCodes.encode value

def terminalFrom (code : Nat) : Except PublicationError TerminalError := decodeIn terminalCodes code

def checkpointCode (value : CheckpointError) : Nat := checkpointCodes.encode value

def checkpointFrom (code : Nat) : Except PublicationError CheckpointError :=
  decodeIn checkpointCodes code

def runtimeCode : RuntimeError → Nat
  | .existingSession => 1
  | .missingSession => 2
  | .capacity => 3
  | .closed => 4
  | .notFinished => 5
  | .invalidCursor => 6
  | .internal => 7
  | .process error => 100 + processCode error
  | .projection error =>
    match error with
    | .capacity => 201
    | .invalidConfiguration => 202
    | .closed => 203
    | .worker => 204
    | .terminal error => 300 + terminalCode error
    | .storage error => 400 + checkpointCode error
    | .process error => 500 + processCode error

def runtimeFrom : Nat → Except PublicationError RuntimeError
  | 1 => .ok .existingSession
  | 2 => .ok .missingSession
  | 3 => .ok .capacity
  | 4 => .ok .closed
  | 5 => .ok .notFinished
  | 6 => .ok .invalidCursor
  | 7 => .ok .internal
  | 201 => .ok (.projection .capacity)
  | 202 => .ok (.projection .invalidConfiguration)
  | 203 => .ok (.projection .closed)
  | 204 => .ok (.projection .worker)
  | code =>
    if 101 ≤ code ∧ code ≤ 110 then (processFrom (code - 100)).map .process
    else if 301 ≤ code ∧ code ≤ 308 then
      (terminalFrom (code - 300)).map fun error => .projection (.terminal error)
    else if 401 ≤ code ∧ code ≤ 408 then
      (checkpointFrom (code - 400)).map fun error => .projection (.storage error)
    else if 501 ≤ code ∧ code ≤ 510 then
      (processFrom (code - 500)).map fun error => .projection (.process error)
    else .error .invalidRecord

theorem processFrom_eq {code : Nat} {error : ProcessError} :
    processFrom code = .ok error ↔ processCode error = code := decodeIn_eq

theorem terminalFrom_eq {code : Nat} {error : TerminalError} :
    terminalFrom code = .ok error ↔ terminalCode error = code := decodeIn_eq

theorem checkpointFrom_eq {code : Nat} {error : CheckpointError} :
    checkpointFrom code = .ok error ↔ checkpointCode error = code := decodeIn_eq

/-- No error is written as the zero that stands for its absence. -/
theorem processCode_bounds (error : ProcessError) : 1 ≤ processCode error ∧ processCode error ≤ 10 := by
  cases error <;> decide

theorem terminalCode_bounds (error : TerminalError) :
    1 ≤ terminalCode error ∧ terminalCode error ≤ 8 := by
  cases error <;> decide

theorem checkpointCode_bounds (error : CheckpointError) :
    1 ≤ checkpointCode error ∧ checkpointCode error ≤ 8 := by
  cases error <;> decide

theorem runtimeCode_bounds (error : RuntimeError) : 1 ≤ runtimeCode error ∧ runtimeCode error ≤ 510 := by
  cases error with
  | process error =>
    have bounds := processCode_bounds error
    simp only [runtimeCode]
    omega
  | projection error =>
    cases error with
    | terminal error =>
      have bounds := terminalCode_bounds error
      simp only [runtimeCode]
      omega
    | storage error =>
      have bounds := checkpointCode_bounds error
      simp only [runtimeCode]
      omega
    | process error =>
      have bounds := processCode_bounds error
      simp only [runtimeCode]
      omega
    | _ => decide
  | _ => decide

theorem map_eq_ok {ε α β : Type} {f : α → β} {result : Except ε α} {b : β} :
    result.map f = .ok b ↔ ∃ a, result = .ok a ∧ f a = b := by
  cases result with
  | error e => simp [Except.map]
  | ok a => simp [Except.map]

/-- The nested ranges are read back as they were written. -/
theorem runtimeFrom_eq {code : Nat} {error : RuntimeError} :
    runtimeFrom code = .ok error ↔ runtimeCode error = code := by
  constructor
  · intro decoded
    unfold runtimeFrom at decoded
    split at decoded
    case h_12 =>
      split at decoded
      · obtain ⟨inner, read, rfl⟩ := map_eq_ok.mp decoded
        have same := processFrom_eq.mp read
        simp only [runtimeCode]
        omega
      · split at decoded
        · obtain ⟨inner, read, rfl⟩ := map_eq_ok.mp decoded
          have same := terminalFrom_eq.mp read
          simp only [runtimeCode]
          omega
        · split at decoded
          · obtain ⟨inner, read, rfl⟩ := map_eq_ok.mp decoded
            have same := checkpointFrom_eq.mp read
            simp only [runtimeCode]
            omega
          · split at decoded
            · obtain ⟨inner, read, rfl⟩ := map_eq_ok.mp decoded
              have same := processFrom_eq.mp read
              simp only [runtimeCode]
              omega
            · cases decoded
    all_goals
      obtain rfl := Except.ok.inj decoded
      rfl
  · rintro rfl
    cases error with
    | process error => cases error <;> rfl
    | projection error =>
      cases error with
      | terminal error => cases error <;> rfl
      | storage error => cases error <;> rfl
      | process error => cases error <;> rfl
      | _ => rfl
    | _ => rfl

end PtyRuntime.EventStream
