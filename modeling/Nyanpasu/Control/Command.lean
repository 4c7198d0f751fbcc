import Nyanpasu.Manager.Apply

/-! # Commands of the control plane

`control/mod.rs`: the identity of an operation, the commands with the digest the
registry compares, and what becomes of a command.
-/

namespace Nyanpasu

structure OperationId where
  nanos : UInt64
  pid : UInt32
  counter : UInt32
  deriving Repr, DecidableEq

def OperationId.display (id : OperationId) : String :=
  String.ofList (hexDigits 16 id.nanos.toNat ++ '-' :: hexDigits 8 id.pid.toNat ++
    '-' :: hexDigits 8 id.counter.toNat)

/-! ## Commands -/

/-- `ConfigInput::Inline`, the only form there is. -/
structure ConfigInput where
  bytes : Bytes
  expectedDigest : Option String
  deriving DecidableEq

structure ReconcileRequest where
  core : CoreSpec
  config : ConfigInput
  options : InstanceOptions
  expectedApplied : Option RevisionId
  deriving DecidableEq

inductive CoreCommand where
  | reconcile (request : ReconcileRequest)
  | stop
  | recover
  | shutdown
  deriving DecidableEq

def CoreCommand.isShutdown : CoreCommand → Bool
  | shutdown => true
  | _ => false

structure CoreCommandEnvelope where
  operationId : OperationId
  command : CoreCommand
  deriving DecidableEq

/-- `get_or_insert` of the host's controller settings. -/
def ReconcileRequest.resolve (settings : LocalIpcSettings) (request : ReconcileRequest) :
    ReconcileRequest :=
  { request with options := { request.options with
    localIpc := some (request.options.localIpc.getD settings) } }

def CoreCommand.resolve (settings : LocalIpcSettings) : CoreCommand → CoreCommand
  | reconcile request => reconcile (request.resolve settings)
  | command => command

/-! ## The digest of a command -/

def utf8 (text : String) : Bytes := text.toList.flatMap String.utf8EncodeChar

/-- `payload_digest` of raw bytes. -/
def payloadDigest (bytes : Bytes) : String := String.ofList (hexDigits 16 (fnv1a bytes).toNat)

def CoreKind.display : CoreKind → String
  | mihomo => "mihomo"
  | clashRust => "clash-rs"
  | clashPremium => "clash"
  | meow => "meow"

/-- `{:?}` of the controller settings. -/
def debugLocalIpc : Option LocalIpcSettings → String
  | none => "None"
  | some settings =>
      "Some(LocalIpcSettings \x7b policy: " ++ debugPolicy settings.policy ++
        ", keep_http_controller: " ++ toString settings.keepHttpController ++ " \x7d)"
where
  debugPolicy : LocalIpcPolicy → String
    | .force => "Force"
    | .prefer => "Prefer"
    | .disable => "Disable"

/-- The text in front of the configuration bytes. -/
def ReconcileRequest.identity (request : ReconcileRequest) : String :=
  "reconcile\x00" ++ request.core.kind.display ++ "\x00" ++
    String.ofList request.core.binaryPath ++ "\x00" ++ request.core.version.getD "" ++ "\x00" ++
    String.join (request.core.features.map (· ++ "\x00")) ++
    (request.expectedApplied.map RevisionId.display).getD "" ++
    "\x00controller:" ++ debugLocalIpc request.options.localIpc ++ "\x00"

def CoreCommand.payloadDigest : CoreCommand → String
  | reconcile request =>
      Nyanpasu.payloadDigest (utf8 request.identity ++ request.config.bytes ++
        utf8 "\x00digest:" ++ utf8 (request.config.expectedDigest.getD ""))
  | stop => Nyanpasu.payloadDigest (utf8 "stop")
  | recover => Nyanpasu.payloadDigest (utf8 "recover")
  | shutdown => Nyanpasu.payloadDigest (utf8 "shutdown")

/-! ## What becomes of a command -/

inductive OperationOutput where
  | reconciled (outcome : ApplyOutcome)
  | stopped
  | recovered
  | shutDown
  deriving DecidableEq

/-- The output `execute` gives to a successful command. -/
def CoreCommand.yields : CoreCommand → OperationOutput → Bool
  | reconcile _, .reconciled _ => true
  | stop, .stopped => true
  | recover, .recovered => true
  | shutdown, .shutDown => true
  | _, _ => false

inductive CoreErrorKind where
  | notStarted
  | alreadyRunning
  | revisionConflict
  | quarantined
  | configCheckFailed
  | configNotFound
  | binaryNotFound
  | invalidConfig
  | controllerMissing
  | applyFailed
  | applyRollbackFailed
  | stopUnconfirmed
  | shuttingDown
  | queueFull
  | operationConflict
  | backendUnavailable
  | internal
  deriving Repr, DecidableEq

structure CoreError where
  kind : Option CoreErrorKind
  message : String
  retryable : Bool
  operationId : Option OperationId
  deriving Repr, DecidableEq

namespace CoreError

def new (kind : CoreErrorKind) (message : String) (retryable : Bool) : CoreError :=
  ⟨some kind, message, retryable, none⟩

def withOperation (error : CoreError) (id : OperationId) : CoreError :=
  { error with operationId := some id }

end CoreError

inductive OperationState where
  | queued
  | running
  | succeeded (output : OperationOutput)
  | failed (error : CoreError)
  deriving DecidableEq

def OperationState.isTerminal : OperationState → Bool
  | succeeded _ | failed _ => true
  | _ => false

end Nyanpasu
