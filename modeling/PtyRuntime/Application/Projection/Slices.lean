import PtyRuntime.Application.Projection.Native
import PtyRuntime.Domain.ProgramStatus.Splitting

/-! Feeding a chunk to the native model in slices, with the engine given as a function of
its state. What it answers in the middle of a chunk is what the capability reply has to be
placed among. -/
namespace PtyRuntime

/-- An engine answers a feed with its effects and the next state, fails, or panics. -/
structure Engine (σ : Type) where
  feed : σ → Bytes → Option (Except TerminalError (Bytes × σ))

namespace Engine

variable {σ : Type} (engine : Engine σ)

/-- `native_call` around one feed. -/
def call (t : σ) (bytes : Bytes) : Except ProjectionError (Bytes × σ) :=
  match engine.feed t bytes with
  | some (.ok fed) => .ok fed
  | some (.error e) => .error (.terminal e)
  | none => .error .worker

def feedStatusSlice (t : σ) (bytes aggregate : Bytes) (limit : Nat) : Except ProjectionError (Bytes × σ) :=
  match engine.call t bytes with
  | .error e => .error e
  | .ok (effects, t) => (Coordinator.appendReply aggregate effects limit).map (·, t)

/-- The loop of `feed_status_slices` over the queries, and the slice after the last of them. -/
def feedQueries (bytes : Bytes) (limit : Nat) (t : σ) (start : Nat) (aggregate : Bytes) :
    List Nat → Except ProjectionError (Bytes × σ)
  | [] =>
    if start < bytes.length then engine.feedStatusSlice t (bytes.drop start) aggregate limit
    else .ok (aggregate, t)
  | stop :: rest =>
    match engine.feedStatusSlice t ((bytes.take stop).drop start) aggregate limit with
    | .error e => .error e
    | .ok (aggregate, t) =>
      match Coordinator.appendReply aggregate programStatusReply limit with
      | .error e => .error e
      | .ok aggregate => feedQueries bytes limit t stop aggregate rest

def feedStatusSlices (t : σ) (bytes : Bytes) (queries : List Nat) (limit : Nat) :
    Except ProjectionError (Bytes × σ) :=
  if queries = [] then
    match engine.call t bytes with
    | .error e => .error e
    | .ok (effects, t) => if effects.length > limit then .error .capacity else .ok (effects, t)
  else engine.feedQueries bytes limit t 0 [] queries

/-- What is replied first, then what the state it leaves goes on to reply. -/
def chain (first : Except ProjectionError (Bytes × σ)) (next : σ → Except ProjectionError (Bytes × σ)) :
    Except ProjectionError (Bytes × σ) :=
  match first with
  | .error e => .error e
  | .ok (reply, t) => (next t).map fun (more, t) => (reply ++ more, t)

/-- Scan, feed and commit a session's chunks one after the other, as long as nothing fails;
the replies in the order they are made. -/
def feedStream (limit : Nat) (t : σ) (store : ProgramStatusStore) : List Bytes → Except ProjectionError (Bytes × σ)
  | [] => .ok ([], t)
  | chunk :: rest =>
    match store.scan chunk with
    | .error _ => .error .capacity
    | .ok plan =>
      chain (engine.feedStatusSlices t chunk plan.queries limit) fun t =>
        match store.commit plan with
        | (.error _, _) => .error .worker
        | (.ok (), store) => feedStream limit t store rest

/-- The slices from `start` on, each with what is answered after its effects. -/
def pieces (bytes : Bytes) (start : Nat) : List Nat → List (Bytes × Bytes)
  | [] => if start < bytes.length then [(bytes.drop start, [])] else []
  | stop :: rest => ((bytes.take stop).drop start, programStatusReply) :: pieces bytes stop rest

/-- A chunk without a query is one slice, even an empty one. -/
def slices (bytes : Bytes) (queries : List Nat) : List (Bytes × Bytes) :=
  if queries = [] then [(bytes, [])] else pieces bytes 0 queries

/-- The effects of each slice followed by its answer, whatever their length. -/
def respond (t : σ) : List (Bytes × Bytes) → Except ProjectionError (Bytes × σ)
  | [] => .ok ([], t)
  | (slice, answer) :: rest => chain (engine.call t slice) fun t => chain (.ok (answer, t)) fun t => respond t rest

/-- The reply to a stream read byte by byte: after the effects of a byte that completes a
query comes the capability reply. -/
def replies (t : σ) (s : Scanner) : Bytes → Except ProjectionError (Bytes × σ)
  | [] => .ok ([], t)
  | byte :: rest =>
    let answer := if (Scanner.machine.step s byte).2 = some .query then programStatusReply else []
    chain (engine.call t [byte]) fun t =>
      chain (.ok (answer, t)) fun t => replies t (Scanner.machine.step s byte).1 rest

/-- Feeding nothing does nothing, and feeding two pieces is feeding them joined. -/
structure Action : Prop where
  unit : ∀ t, engine.call t [] = .ok ([], t)
  append : ∀ t first second,
    engine.call t (first ++ second) = chain (engine.call t first) fun t => engine.call t second

end Engine
end PtyRuntime
