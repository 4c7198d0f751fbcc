import Nyanpasu.World
import Mathlib.Data.List.Sort
import Mathlib.Data.List.Dedup

/-! # The runtime configuration store

`config/runtime_store.rs` call by call.  Each file operation is one atomic step
that either does what it says or fails and changes nothing; which calls fail is
the environment's choice.  A staged file that is dropped without being consumed
is removed, as the source's `Drop` does.
-/

namespace Nyanpasu

open Naming

/-! ## File operations -/

def fileOp {α : Type} (f : Dir → Except Error (α × Dir)) : Manager (Except Error α) :=
  atomic fun env k w =>
    match env.fault k with
    | some failure => (.error failure.error, w)
    | none =>
        match f w.dir with
        | .ok (a, dir) => (.ok a, { w with dir := dir })
        | .error error => (.error error, w)

def unsafeArtifact (path : FileName) : Error := .unsafeRuntimeArtifact (String.ofList path)

def validateAbsentRegularTarget (path : FileName) : Manager (Except Error Unit) :=
  fileOp fun dir => if (dir.get path).isSome then .error (unsafeArtifact path) else .ok ((), dir)

def validateExistingRegularTarget (path : FileName) : Manager (Except Error Unit) :=
  fileOp fun dir =>
    if (dir.get path).isSome then .ok ((), dir) else .error (.io "entity not found")

def createNew (path : FileName) : Manager (Except Error Unit) :=
  fileOp fun dir =>
    if (dir.get path).isSome then .error (.io "file exists") else .ok ((), dir.write path [])

def setPermissions (_path : FileName) : Manager (Except Error Unit) :=
  fileOp fun dir => .ok ((), dir)

def writeAll (path : FileName) (contents : Bytes) : Manager (Except Error Unit) :=
  fileOp fun dir => .ok ((), dir.write path contents)

def readFile (path : FileName) : Manager (Except Error Bytes) :=
  fileOp fun dir =>
    match dir.get path with
    | some contents => .ok (contents, dir)
    | none => .error (.io "entity not found")

def tryExists (path : FileName) : Manager (Except Error Bool) :=
  fileOp fun dir => .ok ((dir.get path).isSome, dir)

def syncDir : Manager (Except Error Unit) := fileOp fun dir => .ok ((), dir)

def atomicMoveNew (source target : FileName) : Manager (Except Error Unit) :=
  fileOp fun dir =>
    match dir.get source with
    | none => .error (.io "entity not found")
    | some contents =>
        if (dir.get target).isSome then .error (.io "file exists")
        else .ok ((), (dir.erase source).write target contents)

def atomicReplace (replacement destination : FileName) : Manager (Except Error Unit) :=
  fileOp fun dir =>
    match dir.get replacement with
    | none => .error (.io "entity not found")
    | some contents => .ok ((), (dir.erase replacement).write destination contents)

/-- Removing a file that is not there succeeds. -/
def removeRegularFile (path : FileName) : Manager (Except Error Unit) :=
  atomic fun env k w =>
    match env.removeFault k with
    | some failure => (.error failure.error, w)
    | none => (.ok (), { w with dir := w.dir.erase path })

/-! ## Staging and committing -/

structure StagedRuntimeConfig where
  path : FileName

structure RuntimeConfigBackup where
  path : FileName
  epoch : Epoch

/-- The warning of a commit that is installed but perhaps not durable. -/
abbrev DurabilityWarning := Option String

namespace Store

def runtimePath (epoch : Epoch) : FileName := (Artifact.config epoch.get).name

def pidPath (epoch : Epoch) : FileName := (Artifact.pid epoch.get).name

/-- `Drop for StagedRuntimeConfig` on an unconsumed file. -/
def dropStaged (staged : StagedRuntimeConfig) : Manager Unit := do
  let _ ← removeRegularFile staged.path

def stage (epoch : Epoch) (contents : Bytes) : Manager (Except Error StagedRuntimeConfig) := do
  let (process, counter) ← ask fun env k => (env.processId, env.tempCounter k)
  let path := (Artifact.staged epoch.get process counter).name
  match ← validateAbsentRegularTarget path with
  | .error error => return .error error
  | .ok () =>
  match ← createNew path with
  | .error error => return .error error
  | .ok () =>
  match ← setPermissions path with
  | .error error => return .error error  -- the created file stays
  | .ok () =>
  match ← writeAll path contents with
  | .error error =>
      let _ ← removeRegularFile path
      return .error error
  | .ok () => return .ok ⟨path⟩

def validateStaged (staged : StagedRuntimeConfig) (epoch : Epoch) :
    Manager (Except Error Unit) := do
  if (stagedPrefix epoch.get).isPrefixOf staged.path then
    validateExistingRegularTarget staged.path
  else return .error (unsafeArtifact staged.path)

def commitNew (staged : StagedRuntimeConfig) (epoch : Epoch) :
    Manager (Except Error FileName) := do
  match ← validateStaged staged epoch with
  | .error error =>
      dropStaged staged
      return .error error
  | .ok () =>
  match ← validateAbsentRegularTarget (runtimePath epoch) with
  | .error error =>
      dropStaged staged
      return .error error
  | .ok () =>
  match ← atomicMoveNew staged.path (runtimePath epoch) with
  | .error error =>
      dropStaged staged
      return .error error
  | .ok () =>
  match ← syncDir with
  | .error error => return .error error  -- renamed already: the target stays
  | .ok () => return .ok (runtimePath epoch)

def installedCommit (parentSync : Except Error Unit) : DurabilityWarning :=
  match parentSync with
  | .ok () => none
  | .error error =>
      some ("runtime config was atomically installed, but parent-directory synchronization " ++
        "failed: " ++ error.display)

def commitReplace (staged : StagedRuntimeConfig) (epoch : Epoch) :
    Manager (Except Error DurabilityWarning) := do
  match ← validateStaged staged epoch with
  | .error error =>
      dropStaged staged
      return .error error
  | .ok () =>
  match ← validateExistingRegularTarget (runtimePath epoch) with
  | .error error =>
      dropStaged staged
      return .error error
  | .ok () =>
  match ← atomicReplace staged.path (runtimePath epoch) with
  | .error error =>
      dropStaged staged
      return .error error
  | .ok () =>
  let parentSync ← syncDir
  return .ok (installedCommit parentSync)

def replace (epoch : Epoch) (contents : Bytes) : Manager (Except Error DurabilityWarning) := do
  match ← stage epoch contents with
  | .error error => return .error error
  | .ok staged => commitReplace staged epoch

def backupPath (epoch : Epoch) (generation : Nat) : FileName :=
  (Artifact.backup epoch.get generation).name

def backup (epoch : Epoch) (generation : Nat) : Manager (Except Error RuntimeConfigBackup) := do
  match ← validateExistingRegularTarget (runtimePath epoch) with
  | .error error => return .error error
  | .ok () =>
  match ← readFile (runtimePath epoch) with
  | .error error => return .error error
  | .ok contents =>
  match ← stage epoch contents with
  | .error error => return .error error
  | .ok staged =>
  match ← validateAbsentRegularTarget (backupPath epoch generation) with
  | .error error =>
      dropStaged staged
      return .error error
  | .ok () =>
  match ← atomicMoveNew staged.path (backupPath epoch generation) with
  | .error error =>
      dropStaged staged
      return .error error
  | .ok () =>
  match ← syncDir with
  | .error error =>
      mark .unsyncedBackup fun _ => true
      return .error error  -- renamed already: the backup stays
  | .ok () => return .ok ⟨backupPath epoch generation, epoch⟩

def restore (backup : RuntimeConfigBackup) : Manager (Except Error DurabilityWarning) := do
  match ← validateExistingRegularTarget backup.path with
  | .error error => return .error error
  | .ok () =>
  match ← readFile backup.path with
  | .error error => return .error error
  | .ok contents => replace backup.epoch contents

def removeBackup (backup : RuntimeConfigBackup) : Manager (Except Error Unit) :=
  removeRegularFile backup.path

/-! ## Cleanup and discovery -/

/-- The entries the listing loop of `cleanup_artifacts` removes. -/
def cleanupSelects (discovered : Nat) (name : FileName) : Bool :=
  (backupPrefix discovered).isPrefixOf name || (stagedPrefix discovered).isPrefixOf name ||
    (pidTempPrefix discovered).isPrefixOf name

/-- The listing loop as one step: it ends early when the listing or a removal
    fails, and the entries it did not reach stay. -/
def removeEntries (discovered : Nat) : Manager (Except Error Unit) :=
  atomic fun env k w =>
    match env.listFault k, env.entryFault k with
    | some (failure, missed), _ | none, some (failure, missed) =>
        (.error failure.error,
          { w with dir := w.dir.sweep fun name => cleanupSelects discovered name && !missed name })
    | none, none => (.ok (), { w with dir := w.dir.sweep (cleanupSelects discovered) })

/-- Cleanup stops here with files left, and no quarantine entry keeps the epoch. -/
def markCutShort (discovered : Nat) : Manager Unit :=
  mark (.abandoned .cleanupCutShort) fun w =>
    w.ctrl.quarantine.all fun entry => entry.epoch.get ≠ discovered

def removeSocketArtifact (discovered : Nat) : Manager (Except Error Unit) := do
  let path := (Artifact.socket discovered).name
  match ← tryExists path with
  | .error error =>
      markCutShort discovered
      return .error error
  | .ok false => return .ok ()
  | .ok true => removeRegularFile path

def cleanupArtifacts (discovered : Nat) : Manager (Except Error Unit) := do
  match ← removeRegularFile (Artifact.config discovered).name with
  | .error error => return .error error
  | .ok () =>
  match ← removeRegularFile (Artifact.pid discovered).name with
  | .error error => return .error error
  | .ok () =>
  match ← removeSocketArtifact discovered with
  | .error error => return .error error
  | .ok () =>
  match ← removeEntries discovered with
  | .error error =>
      markCutShort discovered
      return .error error
  | .ok () => syncDir

/-- The numbers of the artifacts in the directory, in order and once each. -/
def artifactEpochs : Manager (Except Error (List Nat)) :=
  fileOp fun dir =>
    .ok (((dir.filterMap fun file => artifactEpoch file.1).insertionSort (· ≤ ·)).dedup, dir)

end Store

end Nyanpasu
