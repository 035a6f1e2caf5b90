import PtyRuntime.Infrastructure.Process.ProtocolLaws

/-! One end of a helper's link. Each status kind has one slot in front of the channel's
bounded queue, so that a full channel delays a status but does not drop it. What the
system answers is an argument. -/
namespace PtyRuntime

namespace Guardian.Kind

/-- The slots of an endpoint are indexed by `kind as usize`. -/
def slot (kind : Kind) : Fin 19 := ⟨kind.code, by cases kind <;> decide⟩

/-- Every kind but the two that can carry a new handoff is sent once. -/
def OneShot (kind : Kind) : Prop := kind ≠ .successor ∧ kind ≠ .finish

instance : DecidablePred OneShot := fun kind => inferInstanceAs (Decidable (kind ≠ _ ∧ kind ≠ _))

end Guardian.Kind

namespace Helper

open Guardian

/-- The bytes that the system has taken are kept beside the state. -/
structure Endpoint where
  channel : Channel
  healthy : Bool
  writable : Bool
  sent : Fin 19 → Option (Vector Int32 4)
  pending : Fin 19 → Option Frame
  written : Bytes

namespace Endpoint

def new (generation : UInt64) : Endpoint :=
  { channel := .new generation, healthy := true, writable := true, sent := fun _ => none,
    pending := fun _ => none, written := [] }

def send (e : Endpoint) (frame : Frame) : Endpoint :=
  let index := frame.kind.slot
  if !e.healthy ∨ !e.writable ∨ e.sent index = some frame.values then e
  else if (e.sent index).isSome ∧ frame.kind.OneShot then e
  else
    { e with
      pending := Function.update e.pending index (some frame)
      sent := Function.update e.sent index (some frame.values) }

/-- The receive loop; no further answer stands for a read that would block. -/
def messages : Nat → List ReadAnswer → Endpoint → List Frame × Endpoint
  | 0, _, e => ([], e)
  | _ + 1, [], e => ([], e)
  | left + 1, read :: reads, e =>
    let (result, channel) := e.channel.receive read
    let e := { e with channel }
    match result with
    | .ok (some frame) =>
      let (frames, e) := messages left reads e
      (frame :: frames, e)
    | .ok none => ([], e)
    | .error _ => ([], { e with healthy := false })

def receive (e : Endpoint) (reads : List ReadAnswer) : List Frame × Endpoint :=
  if !e.healthy then ([], e)
  else
    let (frames, e) := messages 8 reads e
    (frames, if e.channel.eof then { e with healthy := false } else e)

/-- The loop of `flush`, slot by slot, with the frames it handed to the channel. -/
def handOver : List (Fin 19) → Endpoint → List Frame × Endpoint
  | [], e => ([], e)
  | index :: rest, e =>
    match e.pending index with
    | none => handOver rest e
    | some frame =>
      match e.channel.enqueue frame with
      | (.error _, channel) => ([], { e with channel })
      | (.ok (), channel) =>
        let (frames, e) :=
          handOver rest { e with channel, pending := Function.update e.pending index none }
        (frame :: frames, e)

/-- The end of `flush`: a peer that is gone may still be read. -/
def drain (e : Endpoint) (answers : List WriteAnswer) : Endpoint :=
  let (result, channel, taken) := e.channel.flush answers
  { e with channel, written := e.written ++ taken, writable := e.writable && result.toOption.isSome }

def flush (e : Endpoint) (answers : List WriteAnswer) : Endpoint :=
  if !e.healthy ∨ !e.writable then e
  else (handOver (List.finRange 19) e).2.drain answers

inductive Call where
  | send (frame : Frame)
  | receive (reads : List ReadAnswer)
  | flush (answers : List WriteAnswer)

def call (e : Endpoint) : Call → Endpoint
  | .send frame => e.send frame
  | .receive reads => (e.receive reads).2
  | .flush answers => e.flush answers

def run (e : Endpoint) (calls : List Call) : Endpoint := calls.foldl call e

end Endpoint
end Helper
end PtyRuntime
