import HubDevice.Compress.Gzip
import HubDevice.Compress.Zstd
import HubDevice.Config.Payload
import HubDevice.Data.Cbor
import HubDevice.Data.MessagePack
import HubDevice.Error
import HubDevice.Json.Parser
import HubDevice.Message

/-!
# Writing and reading payloads

A payload is written in the configured format and compressed when it is large enough; the message says
both in its content type and content encoding. Reading goes by these two fields, so that a device can
read what a differently configured one wrote. What compresses comes from outside (`Compressors`).
-/

namespace HubDevice

namespace Format

mutual

/-- The JSON value of a datum; a map is an object only if all its keys are texts. -/
def jsonOf? : Datum → Option Json
  | .null | .unit | .undefined | .foreign => some .null
  | .bool b => some (.bool b)
  | .int n => some (.int n)
  | .float x => some (.float x)
  | .text s => some (.str s)
  | .bytes bs | .numbers bs => some (.arr (bs.map fun b => .int b.toNat))
  | .seq items | .list items => (jsonItems? items).map .arr
  | .map entries => (jsonMembers? entries).map .obj
  | .record fields => (jsonFields? fields).map .obj

def jsonItems? : List Datum → Option (List Json)
  | [] => some []
  | d :: rest => do return (← jsonOf? d) :: (← jsonItems? rest)

def jsonMembers? : List (Datum × Datum) → Option (List (String × Json))
  | [] => some []
  | (.text k, d) :: rest => do return (k, ← jsonOf? d) :: (← jsonMembers? rest)
  | _ :: _ => none

def jsonFields? : List (String × Datum) → Option (List (String × Json))
  | [] => some []
  | (k, d) :: rest => do return (k, ← jsonOf? d) :: (← jsonFields? rest)

end

/-- Writes a datum. Only JSON refuses some: maps whose keys are not texts. -/
def serialize (f : Format) (d : Datum) : Except ClientError Octets :=
  match f with
  | .json =>
    match jsonOf? d with
    | some v => .ok (Octets.ofText v.compact)
    | none => .error (.serialization "key must be a string")
  | .messagePack => .ok (MessagePack.write d)
  | .cbor => .ok (Cbor.write d)

/-- Reads a datum. -/
def read? (f : Format) (bs : Octets) : Option Datum :=
  match f with
  | .json => Json.document? bs
  | .messagePack => MessagePack.decode? bs
  | .cbor => Cbor.decode? bs

/-- Reads a value of a type. -/
def deserialize {α : Type} (f : Format) (read : Datum → Option α) (bs : Octets) :
    Except ClientError α :=
  match (f.read? bs).bind read with
  | some a => .ok a
  | none => .error (.deserialization "malformed payload")

/-- Reads a JSON value. -/
def deserializeValue (f : Format) (bs : Octets) : Except ClientError Json := f.deserialize Datum.value? bs

end Format

/-- The compressors that a program is linked with: what each makes of octets, or why it fails. -/
class Compressors where
  gzip : Octets → Except String Octets
  zstd : Octets → Except String Octets

/-- Expands octets that are one compressed stream and nothing else. -/
def Compression.decompress (c : Compression) (bs : Octets) : Except ClientError Octets :=
  let stream (out : Option Octets) : Except ClientError Octets :=
    match out with
    | some out => .ok out
    | Option.none => .error (.io "malformed stream")
  match c with
  | .none => .ok bs
  | .gzip => stream (Gzip.decompress? bs)
  | .zstd => stream (Zstd.decompress? bs)

namespace Codec

def compress [Compressors] (c : Compression) (bs : Octets) : Except ClientError Octets :=
  match c with
  | .none => .ok bs
  | .gzip => (Compressors.gzip bs).mapError .io
  | .zstd => (Compressors.zstd bs).mapError .io

/-- The message that carries a written payload. -/
def wrap [Compressors] (p : Config.Payload) (body : Octets) : Except ClientError Message :=
  if p.shouldCompress body.length then do
    return {
      payload := ← compress p.compression body
      contentType := some p.format.contentType
      contentEncoding := p.compression.contentEncoding? }
  else
    return {
      payload := body
      contentType := some p.format.contentType
      contentEncoding := if p.format = .json then some "utf-8" else none }

/-- The message that carries a datum. -/
def encode [Compressors] (p : Config.Payload) (d : Datum) : Except ClientError Message := do
  wrap p (← p.format.serialize d)

/-- The format and the compression that a message says it has. -/
def described (p : Config.Payload) (m : Message) : Except ClientError (Format × Compression) :=
  let compression := (m.contentEncoding.bind Compression.ofContentEncoding?).getD .none
  match m.contentType with
  | none => .ok (p.format, compression)
  | some ct =>
    match Format.ofContentType? ct with
    | some f => .ok (f, compression)
    | none => .error (.deserialization ("unsupported content type " ++ ct))

/-- The written payload of a message and its format. -/
def unwrap (p : Config.Payload) (m : Message) : Except ClientError (Format × Octets) := do
  let (format, compression) ← described p m
  return (format, ← compression.decompress m.payload)

/-- The value of a type that a message carries. -/
def decode {α : Type} (p : Config.Payload) (read : Datum → Option α) (m : Message) :
    Except ClientError α := do
  let (format, body) ← unwrap p m
  format.deserialize read body

/-- The JSON value that a message carries. -/
def decodeValue (p : Config.Payload) (m : Message) : Except ClientError Json := do
  let (format, body) ← unwrap p m
  format.deserializeValue body

end Codec

end HubDevice
