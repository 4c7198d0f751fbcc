import Nyanpasu.Logging.Index

/-! # Log files

`nyanpasu-logging/src/files.rs`: where the bytes of a log come from.  Every call of the
operating system is answered at an instant of its own, so a file may grow between two
calls of one read, and any call may fail.
-/

namespace Nyanpasu

namespace Logging

open Naming (decimal)

inductive LogError where
  | unavailable
  | unsupported
  | sessionExpired
  | cursorReset
  | fileGone
  | limit
  | invalidRequest
  deriving Repr, DecidableEq

structure LogFileInfo where
  id : String
  name : String
  bytes : String
  deriving DecidableEq

structure FileRead where
  identity : String
  name : String
  len : Nat
  /-- The first 256 bytes of the file. -/
  leading : Bytes
  bytes : Bytes

structure LogFiles where
  catalog : Except LogError (List LogFileInfo)
  read : String → Nat → Nat → Except LogError FileRead

/-! ## The directory -/

/-- One entry of a directory; a missing answer is a call that failed. -/
structure DirEntry where
  /-- Names that are not UTF-8 are `none` inside. -/
  name : Option String
  regular : Option Bool
  bytes : Option Nat

inductive Listing where
  | missing
  | failed
  | entries (list : List (Option DirEntry))

structure Node where
  regular : Bool
  id : String

/-- The answers of the operating system at one instant. -/
structure Instant where
  fault : Bool
  listing : Listing
  node : String → Option Node
  /-- What a file holds, by its identity. -/
  data : String → Bytes

structure FsLogFiles where
  stem : String

namespace FsLogFiles

def valid (fs : FsLogFiles) (name : String) : Bool :=
  decide ((fs.stem ++ ".").toList <+: name.toList) &&
  decide (".app.log".toList <:+ name.toList) &&
  decide (name.utf8ByteSize ≤ 255) &&
  !(name.toList.any fun c => c == '/' || c == '\\' || c == ':') &&
  !decide ("..".toList <:+: name.toList)

/-- The files of a listing, up to the first call that failed. -/
def listed (fs : FsLogFiles) : List (Option DirEntry) → Except LogError (List LogFileInfo)
  | [] => .ok []
  | none :: _ => .error .unavailable
  | some entry :: rest =>
      match entry.name with
      | none => fs.listed rest
      | some name =>
          if !fs.valid name then fs.listed rest
          else match entry.regular with
            | none => .error .unavailable
            | some false => fs.listed rest
            | some true =>
                match entry.bytes with
                | none => .error .fileGone
                | some bytes => do
                    let files ← fs.listed rest
                    return ⟨name, name, .ofList (decimal bytes)⟩ :: files

def catalog (fs : FsLogFiles) (now : Instant) : Except LogError (List LogFileInfo) :=
  match now.listing with
  | .missing => .ok []
  | .failed => .error .unavailable
  | .entries list => do
      let files ← fs.listed (list.take 4096)
      return (files.mergeSort fun a b => decide (b.name ≤ a.name)).take 128

/-- The node of a path. -/
def lookup (now : Instant) (file : String) : Except LogError Node :=
  if now.fault then .error .fileGone
  else match now.node file with
    | none => .error .fileGone
    | some node => .ok node

def orFail (now : Instant) (error : LogError) : Except LogError Unit :=
  if now.fault then .error error else .ok ()

/-- One read makes eight calls.  The handle keeps the file it was opened on. -/
def read (fs : FsLogFiles) (at_ : Fin 8 → Instant) (file : String) (offset length : Nat) :
    Except LogError FileRead := do
  if !fs.valid file || decide (maxBatch < length) then throw .invalidRequest
  let metadata ← lookup (at_ 0) file
  if !metadata.regular then throw .invalidRequest
  let identity ← lookup (at_ 1) file
  let handle ← lookup (at_ 2) file
  orFail (at_ 3) .fileGone
  let len := ((at_ 3).data handle.id).length
  orFail (at_ 4) .unavailable
  let leading := ((at_ 4).data handle.id).take 256
  orFail (at_ 5) .unavailable
  orFail (at_ 6) .unavailable
  let bytes := (((at_ 6).data handle.id).drop offset).take length
  let again ← lookup (at_ 7) file
  if again.id ≠ identity.id then throw .cursorReset
  return ⟨identity.id, file, len, leading, bytes⟩

/-- The files as one call to them sees them. -/
def files (fs : FsLogFiles) (at_ : Fin 8 → Instant) : LogFiles where
  catalog := fs.catalog (at_ 0)
  read := fs.read at_

theorem lookup_eq_ok {now : Instant} {file : String} {node : Node}
    (found : lookup now file = .ok node) : now.node file = some node := by
  unfold lookup at found
  split at found
  · cases found
  · split at found
    · cases found
    · next held =>
        cases found
        exact held

theorem bind_eq_ok {α β : Type} {x : Except LogError α} {f : α → Except LogError β} {b : β}
    (runs : (x >>= f) = .ok b) : ∃ a, x = .ok a ∧ f a = .ok b := by
  cases x with
  | error e => cases runs
  | ok a => exact ⟨a, rfl, runs⟩

/-- What a read that succeeds has found, and through which nodes. -/
theorem read_eq_ok {fs : FsLogFiles} {at_ : Fin 8 → Instant} {file : String}
    {offset length : Nat} {found : FileRead} (reads : fs.read at_ file offset length = .ok found) :
    ∃ identity handle, (at_ 1).node file = some identity ∧ (at_ 2).node file = some handle ∧
      found = ⟨identity.id, file, ((at_ 3).data handle.id).length,
        ((at_ 4).data handle.id).take 256, (((at_ 6).data handle.id).drop offset).take length⟩ := by
  unfold FsLogFiles.read at reads
  split at reads
  · cases reads
  · obtain ⟨_, _, reads⟩ := bind_eq_ok reads
    split at reads
    · cases reads
    · obtain ⟨identity, first, reads⟩ := bind_eq_ok reads
      obtain ⟨handle, second, reads⟩ := bind_eq_ok reads
      obtain ⟨_, _, reads⟩ := bind_eq_ok reads
      obtain ⟨_, _, reads⟩ := bind_eq_ok reads
      obtain ⟨_, _, reads⟩ := bind_eq_ok reads
      obtain ⟨_, _, reads⟩ := bind_eq_ok reads
      obtain ⟨_, _, reads⟩ := bind_eq_ok reads
      split at reads
      · cases reads
      · cases reads
        exact ⟨identity, handle, lookup_eq_ok first, lookup_eq_ok second, rfl⟩

end FsLogFiles

end Logging

end Nyanpasu
