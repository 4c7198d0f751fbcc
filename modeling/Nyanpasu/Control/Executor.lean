import Nyanpasu.Control.Command
import Nyanpasu.Manager.Operations

/-! # Executing a command

`control/executor.rs` below the queue: a command becomes an operation of the
manager.  Below the control plane a configuration is a path, so the bytes of a
reconcile request go to a file before the manager sees the request.  The manager
reads the file, and reads it again whenever it restarts the spec it has retained.
-/

namespace Nyanpasu

open Naming

/-! ## Errors on the wire -/

def CoreErrorKind.defaultRetryable : CoreErrorKind → Bool
  | queueFull | backendUnavailable => true
  | _ => false

def Error.kind : Error → Option CoreErrorKind
  | alreadyRunning => some .alreadyRunning
  | notStarted => some .notStarted
  | configNotFound _ => some .configNotFound
  | binaryNotFound _ => some .binaryNotFound
  | controllerMissing => some .controllerMissing
  | configCheckFailed _ => some .configCheckFailed
  | invalidConfig _ | yaml _ => some .invalidConfig
  | stopUnconfirmed _ => some .stopUnconfirmed
  | managerQuarantined _ _ => some .quarantined
  | revisionConflict _ _ => some .revisionConflict
  | applyFailed _ => some .applyFailed
  | applyRollbackFailed _ _ => some .applyRollbackFailed
  | durabilityUncertain source _ => source.kind
  | coreVersionProbeFailed _ _ | requiredLocalIpcUnsupported _ _ | invalidManagerOptions _
  | invalidHealthPolicy _ | unsafeRuntimeArtifact _ | runtimeDirectoryOwned _
  | startupTimeout _ | startupFailed _ | process _ | api _ | io _ => none

def CoreError.fromDomain (error : Error) (operationId : Option OperationId) : CoreError where
  kind := error.kind
  message := error.display
  retryable := error.kind.any CoreErrorKind.defaultRetryable
  operationId := operationId

/-! ## Requests -/

structure ExecutorContext where
  sourceDir : FileName
  workingDir : FileName

/-- The declared digest, if it is not the digest of the bytes. -/
def ConfigInput.mismatch (config : ConfigInput) : Option String :=
  config.expectedDigest.filter (· ≠ payloadDigest config.bytes)

def ReconcileRequest.spec (request : ReconcileRequest) (context : ExecutorContext)
    (configPath : FileName) : InstanceSpec where
  core := request.core
  configPath := configPath
  workingDir := context.workingDir
  pidFile := none
  options := request.options

namespace Control

/-! ## The files of the sources -/

/-- How `tokio::fs::write` ends.  It truncates the file before it fills it, so a
    failure leaves the file as it was, or a beginning of the bytes. -/
inductive Writing where
  | done
  | refused (text : String)
  | torn (length : Nat) (text : String)
  deriving Repr, DecidableEq

/-- The answers of the file system by the time of the call, and the parser. -/
structure Disk where
  createDir : Nat → Option String
  write : Nat → Writing
  readFault : FileName → Nat → Option String
  notFound : String
  parse : Bytes → Except ExternalError Mapping

/-- What is read at a path, unless the read itself fails. -/
def Disk.contents (disk : Disk) (files : Dir) (path : FileName) : Except ExternalError Mapping :=
  match files.get path with
  | none => .error ⟨.io disk.notFound, rfl⟩
  | some bytes => disk.parse bytes

def Disk.load (disk : Disk) (files : Dir) (path : FileName) (k : Nat) :
    Except ExternalError Mapping :=
  match disk.readFault path k with
  | some text => .error ⟨.io text, rfl⟩
  | none => disk.contents files path

/-- The source files beside the world of the manager. -/
structure Site where
  files : Dir
  world : World

structure Surroundings where
  env : Env
  disk : Disk

/-- The manager's environment while the source files are as given. -/
def Surroundings.reading (around : Surroundings) (files : Dir) : Env :=
  { around.env with document := around.disk.load files }

/-! ## The executor -/

abbrev Execution := Program Surroundings Site Panic

/-- A program of the manager.  The source files do not change under it. -/
def manage {α : Type} (program : Manager α) : Execution α := fun around site =>
  match program (around.reading site.files) site.world with
  | .error panic => .error panic
  | .ok (a, world) => .ok (a, { site with world := world })

/-- A call on the source files; the rest of the world moves meanwhile. -/
def fileCall {α : Type} (call : Disk → Nat → Dir → α × Dir) : Execution α :=
  Program.act fun around site =>
    let answer := call around.disk site.world.clock site.files
    (answer.1, ⟨answer.2, site.world.tick around.env⟩)

def createDirAll (_path : FileName) : Execution (Except Error Unit) :=
  fileCall fun disk k files =>
    match disk.createDir k with
    | some text => (.error (.io text), files)
    | none => (.ok (), files)

def writeFile (path : FileName) (bytes : Bytes) : Execution (Except Error Unit) :=
  fileCall fun disk k files =>
    match disk.write k with
    | .done => (.ok (), files.write path bytes)
    | .refused text => (.error (.io text), files)
    | .torn length text => (.error (.io text), files.write path (bytes.take length))

def joinPath (dir name : FileName) : FileName :=
  if dir = [] ∨ dir.getLast? = some '/' then dir ++ name else dir ++ '/' :: name

def materialize (sourceDir fileName : FileName) (config : ConfigInput) (id : OperationId) :
    Execution (Except CoreError FileName) := do
  match config.mismatch with
  | some declared =>
      return .error ((CoreError.new .invalidConfig ("config digest mismatch: declared " ++ declared ++
        ", computed " ++ payloadDigest config.bytes) false).withOperation id)
  | none =>
  match ← createDirAll sourceDir with
  | .error error => return .error (.fromDomain error (some id))
  | .ok () =>
  let path := joinPath sourceDir fileName
  match ← writeFile path config.bytes with
  | .error error => return .error (.fromDomain error (some id))
  | .ok () => return .ok path

/-- One name for every request, since mutating operations are serialised. -/
def reconcileSource : FileName := "reconcile-source.yaml".toList

def reconcile (context : ExecutorContext) (id : OperationId) (request : ReconcileRequest) :
    Execution (Except CoreError ApplyOutcome) := do
  match ← materialize context.sourceDir reconcileSource request.config id with
  | .error error => return .error error
  | .ok configPath =>
  let result ← manage (Nyanpasu.reconcile (request.spec context configPath) request.expectedApplied)
  return result.mapError (.fromDomain · (some id))

def execute (context : ExecutorContext) (id : OperationId) :
    CoreCommand → Execution (Except CoreError OperationOutput)
  | .reconcile request => return (← reconcile context id request).map .reconciled
  | .stop => return answered .stopped (← manage stop)
  | .recover => return answered .recovered (← manage recoverQuarantine)
  | .shutdown => return answered .shutDown (← manage shutdown)
where
  answered (output : OperationOutput) (result : Except Error Unit) :
      Except CoreError OperationOutput :=
    (result.map fun () => output).mapError (.fromDomain · (some id))

end Control

end Nyanpasu
