import PtyRuntime.CodeTable
import PtyRuntime.Domain.Identity
import PtyRuntime.LittleEndian

/-! The fixed, versioned records that a helper and its host exchange. Each channel has
eight bounded outgoing records and one partial incoming record; what a system call
answers is an argument of the function that makes it. -/
namespace PtyRuntime.Guardian

def FRAME_BYTES : Nat := 32

def QUEUE_RECORDS : Nat := 8

def VERSION : Nat := 1

/-- `PTGR`. -/
def MAGIC : Bytes := [80, 84, 71, 82]

/-- `io::Error` by its kind. -/
inductive IoError where
  | invalidData
  | wouldBlock
  | writeZero
  | other
  deriving DecidableEq, Repr

inductive Kind where
  | hello
  | started
  | admitted
  | workloadExit
  | startFailed
  | fault
  | retiring
  | terminate
  | kill
  | release
  | finish
  | abort
  | successor
  | execute
  | signalApplied
  | escalated
  deriving DecidableEq, Repr

namespace Kind

def codes : CodeTable Kind where
  entries := [(1, .hello), (2, .started), (3, .admitted), (4, .workloadExit), (5, .startFailed),
    (6, .fault), (7, .retiring), (10, .terminate), (11, .kill), (12, .release), (13, .finish),
    (14, .abort), (15, .successor), (16, .execute), (17, .signalApplied), (18, .escalated)]
  complete kind := by cases kind <;> decide
  codes_nodup := by decide
  values_nodup := by decide

/-- `kind as u16`. -/
def code (kind : Kind) : Nat := codes.encode kind

def decode (value : Nat) : Except IoError Kind :=
  match codes.decode value with
  | some kind => .ok kind
  | none => .error .invalidData

end Kind

abbrev Values := Vector Int32 4

namespace Values

/-- `values[0]`. -/
def first (v : Values) : Int32 := v[0]

/-- `values[1]`. -/
def second (v : Values) : Int32 := v[1]

/-- `values[2]`. -/
def third (v : Values) : Int32 := v[2]

/-- `values[3]`. -/
def fourth (v : Values) : Int32 := v[3]

end Values

structure Frame where
  kind : Kind
  generation : UInt64
  values : Values
  deriving DecidableEq, Repr

def slice (start stop : Nat) (bytes : Bytes) : Bytes := (bytes.drop start).take (stop - start)

namespace Frame

def encode (f : Frame) : Bytes :=
  MAGIC ++ (LittleEndian.bytesOf 2 VERSION ++ (LittleEndian.bytesOf 2 f.kind.code ++
    (LittleEndian.bytesOf 8 f.generation.toNat ++
      f.values.toList.flatMap fun value => LittleEndian.bytesOfInt 4 value.toInt)))

def decode (bytes : Bytes) (generation : UInt64) : Except IoError Frame :=
  if slice 0 4 bytes ≠ MAGIC ∨ slice 4 6 bytes ≠ LittleEndian.bytesOf 2 VERSION ∨
      slice 8 16 bytes ≠ LittleEndian.bytesOf 8 generation.toNat then .error .invalidData
  else
    match Kind.decode (LittleEndian.natOf (slice 6 8 bytes)) with
    | .error error => .error error
    | .ok kind =>
      .ok {
        kind, generation
        values := Vector.ofFn fun index =>
          Int32.ofInt (LittleEndian.intOf (slice (16 + index * 4) (20 + index * 4) bytes)) }

end Frame

/-- What a write of a nonempty slice answers. -/
inductive WriteAnswer where
  | accepted (count : Nat)
  | interrupted
  | wouldBlock
  | failed
  deriving DecidableEq, Repr

/-- What a read into the free part of the record answers; no bytes is end of stream. -/
inductive ReadAnswer where
  | data (bytes : Bytes)
  | connectionReset
  | interrupted
  | wouldBlock
  | failed
  deriving DecidableEq, Repr

structure Channel where
  generation : UInt64
  incoming : Bytes
  received : Nat
  outgoing : List Bytes
  sent : Nat
  eof : Bool
  deriving DecidableEq, Repr

namespace Channel

def new (generation : UInt64) : Channel :=
  { generation, incoming := List.replicate FRAME_BYTES 0, received := 0, outgoing := [], sent := 0,
    eof := false }

def enqueue (c : Channel) (frame : Frame) : Except IoError Unit × Channel :=
  if frame.generation ≠ c.generation then (.error .invalidData, c)
  else
    let bytes := frame.encode
    if bytes ∈ c.outgoing then (.ok (), c)
    else if c.outgoing.length = QUEUE_RECORDS then (.error .wouldBlock, c)
    else (.ok (), { c with outgoing := c.outgoing ++ [bytes] })

/-- The loop of `flush`, with the attempts that are left and the bytes the system took.
It stops early where no further answer is given: the other end may then act before
the next call goes on. -/
def flushLoop : Nat → List WriteAnswer → Channel → Bytes → Except IoError Unit × Channel × Bytes
  | 0, _, c, taken => (.ok (), c, taken)
  | _ + 1, [], c, taken => (.ok (), c, taken)
  | attempts + 1, answer :: answers, c, taken =>
    match c.outgoing with
    | [] => (.ok (), c, taken)
    | front :: rest =>
      match answer with
      | .accepted offered =>
        let count := min offered (front.length - c.sent)
        if count = 0 then (.error .writeZero, c, taken)
        else
          let taken := taken ++ (front.drop c.sent).take count
          if c.sent + count = FRAME_BYTES then
            flushLoop attempts answers { c with outgoing := rest, sent := 0 } taken
          else flushLoop attempts answers { c with sent := c.sent + count } taken
      | .interrupted => flushLoop attempts answers c taken
      | .wouldBlock => (.ok (), c, taken)
      | .failed => (.error .other, c, taken)

def flush (c : Channel) (answers : List WriteAnswer) : Except IoError Unit × Channel × Bytes :=
  flushLoop QUEUE_RECORDS answers c []

def finishReceive (c : Channel) : Except IoError (Option Frame) × Channel :=
  let c := { c with eof := true }
  if c.received = 0 then (.ok none, c) else (.error .invalidData, c)

/-- Bytes read into the record at the position already filled. -/
def fill (c : Channel) (bytes : Bytes) : Bytes :=
  c.incoming.take c.received ++ bytes ++ c.incoming.drop (c.received + bytes.length)

def receive (c : Channel) (answer : ReadAnswer) : Except IoError (Option Frame) × Channel :=
  if c.eof then (.ok none, c)
  else
    match answer with
    | .data [] => c.finishReceive
    | .data bytes =>
      let c := { c with incoming := c.fill bytes, received := c.received + bytes.length }
      if c.received = FRAME_BYTES then
        let c := { c with received := 0 }
        ((Frame.decode c.incoming c.generation).map some, c)
      else (.ok none, c)
    | .connectionReset => c.finishReceive
    | .interrupted | .wouldBlock => (.ok none, c)
    | .failed => (.error .other, c)

end Channel
end PtyRuntime.Guardian
