import Nyanpasu.Naming
import Mathlib.Tactic.Common

/-! # Documents, hashes and the configuration pipeline

The orchestrator treats a configuration as a parsed YAML mapping together with
the bytes it serialises to.  The rules that name YAML keys (controller
rewriting, classification, overlap detection) are collected in
`ConfigPipeline`; what the orchestrator itself relies on is spelled out here:
the effective hash is always the hash of exactly the bytes that are staged.
-/

namespace Nyanpasu

open Naming

abbrev Bytes := List UInt8

inductive Number where
  | posInt (value : UInt64)
  | negInt (value : Int64)
  | float (bits : UInt64)
  deriving Repr, DecidableEq

/-- `serde_yaml_ng::Value`; a mapping keeps its entries in insertion order. -/
inductive Value where
  | null
  | bool (value : Bool)
  | number (value : Number)
  | string (value : String)
  | sequence (items : List Value)
  | mapping (entries : List (Value × Value))
  | tagged (tag : String) (value : Value)
  deriving Repr

abbrev Mapping := List (Value × Value)

namespace Value

def asStr : Value → Option String
  | .string value => some value
  | _ => none

end Value

/-- Lookup by a string key; a key of any other kind never matches. -/
def Mapping.get (doc : Mapping) (key : String) : Option Value :=
  (doc.find? fun entry => entry.1.asStr == some key).map (·.2)

/-! ## The change identity of a document -/

/-- FNV-1a over 64 bits. -/
def fnv1a (bytes : Bytes) : UInt64 :=
  bytes.foldl (fun hash byte => (hash ^^^ byte.toUInt64) * 0x00000100000001b3)
    0xcbf29ce484222325

/-- The low `digits` hexadecimal digits of a number, most significant first. -/
def hexDigits : Nat → Nat → List Char
  | 0, _ => []
  | digits + 1, n => hexDigits digits (n / 16) ++ [Nat.digitChar (n % 16)]

def semanticHash (bytes : Bytes) : String := String.ofList (hexDigits 16 (fnv1a bytes).toNat)

/-! ## Controllers and change classes -/

inductive Host where
  | namedPipe (path : String)
  | unixSocket (path : String)
  | http (url : String)
  deriving Repr, DecidableEq

structure ResolvedController where
  host : Host
  secret : Option String
  deriving Repr, DecidableEq

inductive OverlapBlock where
  | dnsListen
  | inboundSurface
  deriving Repr, DecidableEq

/-- What separates two configurations.  A patch carries the fields to send and
    the projection a later read must show. -/
inductive ConfigChange where
  | noop
  | patch (patch projection : Mapping)
  | reload
  | switch
  deriving Repr

/-- The parsed source configuration of one operation. -/
structure ConfigSnapshot where
  sourcePath : FileName
  document : Mapping
  sourceHash : String
  deriving Repr

structure PreparedConfig where
  bytes : Bytes
  document : Mapping
  controller : ResolvedController
  rewroteController : Bool
  sourceHash : String
  effectiveHash : String
  deriving Repr

end Nyanpasu
