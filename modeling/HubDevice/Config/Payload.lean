import HubDevice.Config.Failure
import HubDevice.Data.Datum

/-!
# Payload settings

The format in which telemetry is written, and whether and from which size on it is compressed.
-/

namespace HubDevice

/-- How a payload is written. -/
inductive Format where
  | json
  | messagePack
  | cbor
  deriving DecidableEq, Repr

namespace Format

def all : List Format := [.json, .messagePack, .cbor]

/-- The name in settings. -/
def name : Format → String
  | .json => "json"
  | .messagePack => "msgpack"
  | .cbor => "cbor"

def display : Format → String
  | .json => "JSON"
  | .messagePack => "MessagePack"
  | .cbor => "CBOR"

/-- The content type of a message in this format. -/
def contentType : Format → String
  | .json => "application/json"
  | .messagePack => "application/msgpack"
  | .cbor => "application/cbor"

def ofName? (s : String) : Option Format := all.find? fun f => f.name = s

def ofContentType? (s : String) : Option Format :=
  if s = "application/x-msgpack" then some .messagePack else all.find? fun f => f.contentType = s

end Format

/-- How a written payload is compressed. -/
inductive Compression where
  | none
  | gzip
  | zstd
  deriving DecidableEq, Repr

namespace Compression

def all : List Compression := [.none, .gzip, .zstd]

/-- The name in settings. -/
def name : Compression → String
  | .none => "none"
  | .gzip => "gzip"
  | .zstd => "zstd"

def display : Compression → String
  | .none => "None"
  | .gzip => "Gzip"
  | .zstd => "Zstd"

/-- The content encoding of a compressed message. -/
def contentEncoding? : Compression → Option String
  | .none => Option.none
  | .gzip => some "gzip"
  | .zstd => some "zstd"

def ofName? (s : String) : Option Compression := all.find? fun c => c.name = s

def ofContentEncoding? (s : String) : Option Compression :=
  all.find? fun c => c.contentEncoding? = some s

end Compression

/-- A choice by name: the name, or a map from the name to nothing. -/
def Datum.choice? {α : Type} (ofName? : String → Option α) : Datum → Option α
  | .text s => ofName? s
  | .map [(.text s, .null)] | .map [(.text s, .record [])] => ofName? s
  | _ => none

namespace Config

/-- How telemetry payloads are written. -/
structure Payload where
  format : Format := .json
  compression : Compression := .none
  /-- Payloads of fewer octets are not compressed. -/
  threshold : Nat := 1024
  deriving DecidableEq, Repr, Inhabited

namespace Payload

/-- Whether a payload of this size is compressed. -/
def shouldCompress (p : Payload) (size : Nat) : Bool := p.compression ≠ .none && p.threshold ≤ size

def ofDatum? (d : Datum) : Option Payload := do
  let fs ← d.fields? ["format", "compression", "compression_threshold"]
  return {
    format := ← fs.defaulted "format" .json (Datum.choice? Format.ofName?)
    compression := ← fs.defaulted "compression" .none (Datum.choice? Compression.ofName?)
    threshold := ← fs.defaulted "compression_threshold" 1024 (Datum.natBelow? (2 ^ 32)) }

def toJson (p : Payload) : Json :=
  .obj [("compression", .str p.compression.name), ("compression_threshold", .int p.threshold),
    ("format", .str p.format.name)]

def failures (p : Payload) : List Failure :=
  checkRange p.threshold 1 262144 "compression_threshold"
    "Compression threshold must be between 1B and 256KiB"

end Payload

end Config

end HubDevice
