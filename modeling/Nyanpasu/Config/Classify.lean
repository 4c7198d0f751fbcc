import Nyanpasu.Config.Mihomo
import Nyanpasu.State

/-! # Which change separates two planned epochs

`classify` of `config/mihomo.rs` with the controller vocabulary of `config/clash.rs`: the
process specification first, then the source documents, then the effective ones.
-/

namespace Nyanpasu

namespace Clash

def externalController : String := "external-controller"
def externalControllerPipe : String := "external-controller-pipe"
def externalControllerUnix : String := "external-controller-unix"
def externalControllerTls : String := "external-controller-tls"
def secret : String := "secret"

/-- The keys that decide how the manager reaches the core. -/
def controllerFields : List String :=
  [externalController, externalControllerTls, externalControllerPipe, externalControllerUnix,
    secret]

end Clash

namespace Mihomo

/-- One side of a classification. -/
structure ConfigClassificationView where
  source : Document
  effective : Document
  spec : InstanceSpec

def processSpecChanged (current desired : InstanceSpec) : Bool :=
  current.core.kind ≠ desired.core.kind ||
    current.core.binaryPath ≠ desired.core.binaryPath ||
    current.core.version ≠ desired.core.version ||
    current.core.features ≠ desired.core.features ||
    current.workingDir ≠ desired.workingDir ||
    current.options.startupTimeout ≠ desired.options.startupTimeout ||
    current.options.health ≠ desired.options.health ||
    current.options.restartPolicy ≠ desired.options.restartPolicy ||
    current.options.backoff ≠ desired.options.backoff

def touchesController (entry : DiffEntry) : Bool :=
  entry.path.head?.any Clash.controllerFields.contains || isDnsListen entry.path

def classify (ip : AddressText) (current desired : ConfigClassificationView) :
    Except ConfigError (ConfigChange ip) :=
  if processSpecChanged current.spec desired.spec then .ok .switch
  else
    let sourceDiff := diff current.source desired.source
    if desired.spec.core.kind ≠ .mihomo then
      -- other kinds are never patched, and an unchanged source may still derive differently
      if sourceDiff.isEmpty && (diff current.effective desired.effective).isEmpty then .ok .noop
      else .ok .switch
    else if sourceDiff.any touchesController then .ok .switch
    else classifyDocuments ip current.effective desired.effective

/-! ## Inversions -/

variable {ip : AddressText} {current desired : ConfigClassificationView} {change : ConfigChange ip}

/-- What is classified without a switch has an unchanged process specification. -/
theorem classify_cases (classified : classify ip current desired = .ok change) :
    change = .switch ∨ processSpecChanged current.spec desired.spec = false ∧
      (desired.spec.core.kind ≠ .mihomo ∧ change = .noop ∧
          diff current.effective desired.effective = [] ∨
        desired.spec.core.kind = .mihomo ∧
          (∀ entry ∈ diff current.source desired.source, touchesController entry = false) ∧
          classifyDocuments ip current.effective desired.effective = .ok change) := by
  simp only [classify] at classified
  split at classified
  case isTrue =>
    cases classified
    exact .inl rfl
  case isFalse process =>
    have process := eq_false_of_ne_true process
    split at classified
    case isTrue other =>
      split at classified
      case isTrue unchanged =>
        cases classified
        simp only [Bool.and_eq_true, List.isEmpty_iff] at unchanged
        exact .inr ⟨process, .inl ⟨other, rfl, unchanged.2⟩⟩
      case isFalse =>
        cases classified
        exact .inl rfl
    case isFalse mihomo =>
      split at classified
      case isTrue =>
        cases classified
        exact .inl rfl
      case isFalse clear =>
        right
        refine ⟨process, .inr ⟨not_ne_iff.mp mihomo, ?_, classified⟩⟩
        simpa using clear

theorem buildPatch_cases {desired : Document} {changes : List DiffEntry}
    (built : buildPatch ip desired changes = .ok change) :
    change = .switch ∨ ∃ patch projection, change = .patch patch projection := by
  cases change with
  | switch => exact .inl rfl
  | patch patch projection => exact .inr ⟨patch, projection, rfl⟩
  | noop | reload =>
      unfold buildPatch at built
      cases gathered : patchDocument desired (keySet (changes.filterMap (·.path.head?))) .nil with
      | error error => simp [gathered, bind, Except.bind] at built
      | ok found =>
          simp only [gathered, bind, Except.bind, pure, Except.pure] at built
          split at built
          · cases built
          · split at built
            · cases built
            · split at built <;> cases built

/-- What is classified without a switch leaves the DNS listener alone. -/
theorem classifyDocuments_cases {current desired : Document}
    (classified : classifyDocuments ip current desired = .ok change) :
    change = .switch ∨ same (dnsListen current) (dnsListen desired) = true ∧
      (change = .noop ∧ diff current desired = [] ∨
        (∃ patch projection, change = .patch patch projection) ∧
          (∀ entry ∈ diff current desired, patchable entry = true) ∨
        change = .reload ∧ ∀ entry ∈ diff current desired, reloadable entry = true) := by
  simp only [classifyDocuments] at classified
  split at classified
  case isTrue =>
    cases classified
    exact .inl rfl
  case isFalse listens =>
    have listens : same (dnsListen current) (dnsListen desired) = true := by simpa using listens
    split at classified
    case isTrue empty =>
      cases classified
      exact .inr ⟨listens, .inl ⟨rfl, List.isEmpty_iff.mp empty⟩⟩
    case isFalse =>
      split at classified
      case isTrue all =>
        rcases buildPatch_cases classified with switch | patch
        · exact .inl switch
        · exact .inr ⟨listens, .inr (.inl ⟨patch, List.all_eq_true.mp all⟩)⟩
      case isFalse =>
        split at classified
        case isTrue all =>
          cases classified
          exact .inr ⟨listens, .inr (.inr ⟨rfl, List.all_eq_true.mp all⟩)⟩
        case isFalse =>
          cases classified
          exact .inl rfl

end Mihomo

end Nyanpasu
