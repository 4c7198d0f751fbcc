import Nyanpasu.Control.Coherence
import Nyanpasu.Text

/-! # What tells two requests apart

The digest of a reconcile request is taken over its fields, separated by zero bytes.  The
fields can be read back as long as they hold no separator themselves.
-/

namespace Nyanpasu

open Naming

/-! ## Separated fields -/

section

variable {α : Type} {sep : α} {a a' x y : List α}

theorem append_sep_inj (absent : sep ∉ a) (absent' : sep ∉ a')
    (same : a ++ sep :: x = a' ++ sep :: y) : a = a' ∧ x = y := by
  induction a generalizing a' with
  | nil =>
      cases a' with
      | nil => exact ⟨rfl, List.tail_eq_of_cons_eq same⟩
      | cons c a' => simp [List.head_eq_of_cons_eq same] at absent'
  | cons c a ih =>
      cases a' with
      | nil => simp [List.head_eq_of_cons_eq same] at absent
      | cons c' a' =>
          obtain ⟨rfl, rest⟩ := List.cons.inj same
          rw [List.mem_cons, not_or] at absent absent'
          obtain ⟨rfl, rfl⟩ := ih absent.2 absent'.2 rest
          exact ⟨rfl, rfl⟩

/-- The last separator can be found from the back. -/
theorem append_sep_inj_right (absent : sep ∉ x) (absent' : sep ∉ y)
    (same : a ++ sep :: x = a' ++ sep :: y) : a = a' ∧ x = y := by
  have reversed := congrArg List.reverse same
  simp only [List.reverse_append, List.reverse_cons, List.append_assoc, List.singleton_append]
    at reversed
  obtain ⟨last, first⟩ := append_sep_inj (by simpa using absent) (by simpa using absent') reversed
  exact ⟨List.reverse_injective first, List.reverse_injective last⟩

/-- Fields up to a marker that none of them begins with. -/
theorem fields_inj {marker : List α} (unmarked : sep ∉ marker) {fields fields' : List (List α)}
    (plain : ∀ field ∈ fields, sep ∉ field ∧ ¬ marker <+: field)
    (plain' : ∀ field ∈ fields', sep ∉ field ∧ ¬ marker <+: field)
    (same : fields.flatMap (· ++ [sep]) ++ (marker ++ x) =
      fields'.flatMap (· ++ [sep]) ++ (marker ++ y)) : fields = fields' ∧ x = y := by
  -- a field and its separator are no part of the marker, nor the marker of the field
  have apart {field x z : List α} (plain : sep ∉ field ∧ ¬ marker <+: field) :
      marker ++ x ≠ field ++ sep :: z := by
    intro same
    rcases List.append_eq_append_iff.mp same with ⟨more, begins, -⟩ | ⟨more, begins, rest⟩
    · exact plain.2 ⟨more, begins.symm⟩
    · cases more with
      | nil => exact plain.2 ⟨[], by rw [begins, List.append_nil, List.append_nil]⟩
      | cons c more =>
          rw [← List.head_eq_of_cons_eq rest] at begins
          exact unmarked (begins ▸ by simp)
  induction fields generalizing fields' with
  | nil =>
      cases fields' with
      | nil => exact ⟨rfl, List.append_cancel_left same⟩
      | cons field fields' =>
          exact absurd (by simpa using same) (apart (plain' field List.mem_cons_self))
  | cons field fields ih =>
      cases fields' with
      | nil => exact absurd (by simpa using same.symm) (apart (plain field List.mem_cons_self))
      | cons field' fields' =>
          rw [List.forall_mem_cons] at plain plain'
          simp only [List.flatMap_cons, List.append_assoc, List.singleton_append] at same
          obtain ⟨rfl, rest⟩ := append_sep_inj plain.1.1 plain'.1.1 same
          obtain ⟨rfl, rfl⟩ := ih plain.2 plain'.2 rest
          exact ⟨rfl, rfl⟩

end

/-! ## Texts of the fields -/

theorem utf8_append (a b : String) : utf8 (a ++ b) = utf8 a ++ utf8 b := by
  simp [utf8]

theorem utf8_injective {a b : String} (same : utf8 a = utf8 b) : a = b :=
  String.toList_inj.mp (Text.bytes_injective same)

theorem RevisionId.display_injective {id id' : RevisionId} (same : id.display = id'.display) :
    id = id' := by
  obtain ⟨epoch, generation, hash⟩ := id
  obtain ⟨epoch', generation', hash'⟩ := id'
  have texts := congrArg String.toList same
  simp only [display, Epoch.display, String.toList_append, String.toList_ofList] at texts
  obtain ⟨rfl, rfl, hashes⟩ : epoch = epoch' ∧ generation = generation' ∧
      hash.toList = hash'.toList := by
    simpa [decimal_append_inj, delimited_cons] using texts
  rw [String.toList_inj.mp hashes]

theorem CoreKind.display_injective {kind kind' : CoreKind} (same : kind.display = kind'.display) :
    kind = kind' := by
  cases kind <;> cases kind' <;> first | rfl | exact absurd same (by decide)

theorem debugLocalIpc_injective {settings settings' : Option LocalIpcSettings}
    (same : debugLocalIpc settings = debugLocalIpc settings') : settings = settings' := by
  rcases settings with _ | ⟨_ | _ | _, _ | _⟩ <;> rcases settings' with _ | ⟨_ | _ | _, _ | _⟩ <;>
    first | rfl | exact absurd same (by decide +kernel)

/-! ## Requests -/

namespace ReconcileRequest

variable {request request' : ReconcileRequest}

/-- The bytes the digest is taken over. -/
def payload (request : ReconcileRequest) : Bytes :=
  utf8 request.identity ++ request.config.bytes ++ utf8 "\x00digest:" ++
    utf8 (request.config.expectedDigest.getD "")

/-- The text of the expected revision. -/
def expected (request : ReconcileRequest) : String :=
  (request.expectedApplied.map RevisionId.display).getD ""

/-- What makes a request the same work as another one. -/
def work (request : ReconcileRequest) : CoreKind × FileName × String × List String ×
    Option RevisionId × Option LocalIpcSettings × Bytes × String :=
  (request.core.kind, request.core.binaryPath, request.core.version.getD "",
    request.core.features, request.expectedApplied, request.options.localIpc,
    request.config.bytes, request.config.expectedDigest.getD "")

/-- No text holds a separator, and no feature looks like the controller settings. -/
structure Separable (request : ReconcileRequest) : Prop where
  path : 0 ∉ utf8 (String.ofList request.core.binaryPath)
  version : 0 ∉ utf8 (request.core.version.getD "")
  features : ∀ feature ∈ request.core.features,
    0 ∉ utf8 feature ∧ ¬ utf8 "controller:" <+: utf8 feature
  expected : 0 ∉ utf8 request.expected
  digest : 0 ∉ utf8 (request.config.expectedDigest.getD "")

theorem payload_eq (request : ReconcileRequest) :
    request.payload = utf8 "reconcile" ++ 0 :: (utf8 request.core.kind.display ++
      0 :: (utf8 (String.ofList request.core.binaryPath) ++
      0 :: (utf8 (request.core.version.getD "") ++
      0 :: ((request.core.features.map utf8 ++ [utf8 request.expected]).flatMap (· ++ [0]) ++
        (utf8 "controller:" ++ (utf8 (debugLocalIpc request.options.localIpc) ++
      0 :: (request.config.bytes ++
      0 :: (utf8 "digest:" ++ utf8 (request.config.expectedDigest.getD ""))))))))) := by
  have zero : String.utf8EncodeChar '\x00' = [0] := by decide
  have joined : utf8 (String.join (request.core.features.map (· ++ "\x00"))) =
      (request.core.features.map utf8).flatMap (· ++ [0]) := by
    simp [utf8, List.flatMap_assoc, List.flatMap_map, zero]
  have opens : utf8 "reconcile\x00" = utf8 "reconcile" ++ [0] := by decide
  have controls : utf8 "\x00controller:" = 0 :: utf8 "controller:" := by decide
  have closes : utf8 "\x00digest:" = 0 :: utf8 "digest:" := by decide
  have ends : utf8 "\x00" = [0] := by decide
  unfold payload identity expected
  simp only [utf8_append, joined, opens, controls, closes, ends,
    List.flatMap_append, List.flatMap_singleton, List.append_assoc, List.cons_append,
    List.nil_append]

theorem expected_injective (same : request.expected = request'.expected) :
    request.expectedApplied = request'.expectedApplied := by
  have nonempty (id : RevisionId) : id.display ≠ "" := by
    intro empty
    have texts := congrArg String.toList empty
    unfold RevisionId.display at texts
    simp at texts
  unfold expected at same
  match expects : request.expectedApplied, expects' : request'.expectedApplied with
  | none, none => rfl
  | none, some id => exact absurd (by simpa [expects, expects'] using same.symm) (nonempty id)
  | some id, none => exact absurd (by simpa [expects, expects'] using same) (nonempty id)
  | some id, some id' =>
      rw [expects, expects'] at same
      rw [RevisionId.display_injective same]

theorem Separable.fields (separable : request.Separable) :
    ∀ field ∈ request.core.features.map utf8 ++ [utf8 request.expected],
      0 ∉ field ∧ ¬ utf8 "controller:" <+: field := by
  intro field member
  rcases List.mem_append.mp member with member | member
  · obtain ⟨feature, among, rfl⟩ := List.mem_map.mp member
    exact separable.features feature among
  · rw [List.mem_singleton.mp member]
    refine ⟨separable.expected, ?_⟩
    unfold ReconcileRequest.expected
    cases request.expectedApplied with
    | none => decide
    | some id =>
        have marker : utf8 "controller:" = 0x63 :: utf8 "ontroller:" := by decide
        have epoch : utf8 "epoch " = 0x65 :: utf8 "poch " := by decide
        rintro ⟨more, begins⟩
        unfold RevisionId.display at begins
        simp [utf8_append, marker, epoch] at begins

theorem settings_plain (settings : Option LocalIpcSettings) : 0 ∉ utf8 (debugLocalIpc settings) := by
  rcases settings with _ | ⟨_ | _ | _, _ | _⟩ <;> decide +kernel

theorem kind_plain (kind : CoreKind) : 0 ∉ utf8 kind.display := by
  cases kind <;> decide

/-- Separable requests with the same payload are the same work. -/
theorem work_of_payload (separable : request.Separable) (separable' : request'.Separable)
    (same : request.payload = request'.payload) : request.work = request'.work := by
  rw [payload_eq, payload_eq] at same
  have rest := List.tail_eq_of_cons_eq (List.append_cancel_left same)
  obtain ⟨kinds, rest⟩ := append_sep_inj (kind_plain _) (kind_plain _) rest
  obtain ⟨paths, rest⟩ := append_sep_inj separable.path separable'.path rest
  obtain ⟨versions, rest⟩ := append_sep_inj separable.version separable'.version rest
  obtain ⟨fields, rest⟩ := fields_inj (by decide) separable.fields separable'.fields rest
  obtain ⟨settings, rest⟩ := append_sep_inj (settings_plain _) (settings_plain _) rest
  obtain ⟨bytes, digests⟩ := append_sep_inj_right (by simpa using ⟨by decide, separable.digest⟩)
    (by simpa using ⟨by decide, separable'.digest⟩) rest
  obtain ⟨features, expects⟩ := List.append_inj' fields rfl
  have sameFeatures := List.map_injective_iff.mpr (fun _ _ => utf8_injective) features
  have sameExpected := expected_injective (utf8_injective (List.head_eq_of_cons_eq expects))
  have samePath := String.ofList_injective (utf8_injective paths)
  simp only [work, CoreKind.display_injective (utf8_injective kinds), samePath,
    utf8_injective versions, sameFeatures, sameExpected,
    debugLocalIpc_injective (utf8_injective settings), bytes,
    utf8_injective (List.append_cancel_left digests)]

/-- The digests of the two requests do not collide. -/
def Distinguished (request request' : ReconcileRequest) : Prop :=
  payloadDigest request.payload = payloadDigest request'.payload → request.payload = request'.payload

theorem digest_ne (separable : request.Separable) (separable' : request'.Separable)
    (differ : request.work ≠ request'.work) (distinguished : Distinguished request request')
    {digest : String} (first : digest = (CoreCommand.reconcile request).payloadDigest) :
    digest ≠ (CoreCommand.reconcile request').payloadDigest := by
  rw [first]
  exact fun same => differ (work_of_payload separable separable' (distinguished same))

/-- Different work is fed to the digest as different bytes, as long as both requests are
    separable; and unless the digests collide, the second request cannot attach to the
    operation of the first.  A submission compares the requests after the host's controller
    settings have been put where a request has none. -/
theorem different_work_conflicts (separable : request.Separable)
    (separable' : request'.Separable) (differ : request.work ≠ request'.work) :
    request.payload ≠ request'.payload ∧
    (Distinguished request request' →
      ∀ (registry : Registry) (id : OperationId) (existing : RegisteredOperation)
        (enqueue : Nat → Except TrySendError Unit), registry.get id = some existing →
        existing.digest = (CoreCommand.reconcile request).payloadDigest →
        registry.admitOperation id (CoreCommand.reconcile request').payloadDigest enqueue =
          (.rejected (Registry.conflict id), registry)) ∧
    ∀ (s : ControlPlane) (id : OperationId) (existing : RegisteredOperation),
      (request.resolve s.settings).work ≠ (request'.resolve s.settings).work →
      Distinguished (request.resolve s.settings) (request'.resolve s.settings) →
      s.closing = false → s.registry.get id = some existing →
      existing.digest = ((CoreCommand.reconcile request).resolve s.settings).payloadDigest →
      s.submit ⟨id, .reconcile request'⟩ = (.rejected (Registry.conflict id), s) := by
  refine ⟨fun same => differ (work_of_payload separable separable' same), ?_, ?_⟩
  · intro distinguished registry id existing enqueue present first
    have digests := digest_ne separable separable' differ distinguished first
    simp only [Registry.admitOperation, present, if_neg digests]
  · intro s id existing differ' distinguished opened present first
    have resolved : (request.resolve s.settings).Separable := { separable with }
    have resolved' : (request'.resolve s.settings).Separable := { separable' with }
    have digests := digest_ne resolved resolved' differ' distinguished first
    have admits : s.submit ⟨id, .reconcile request'⟩ = s.admitSubmit ⟨id, .reconcile request'⟩ := by
      simp [ControlPlane.submit, ControlPlane.checkSubmit, opened]
    rw [admits, ControlPlane.admitSubmit_registered present]
    exact congrArg (·, s) (if_neg digests)

/-- A request with the given features and configuration. -/
def sample (features : List String) (bytes : Bytes) : ReconcileRequest :=
  ⟨⟨.mihomo, ['m'], none, features⟩, ⟨bytes, none⟩, .default, none⟩

theorem different_work_conflicts_bytes :
    (sample ["a"] []).payload ≠ (sample ["a"] [0]).payload := by
  refine (different_work_conflicts ⟨?_, ?_, ?_, ?_, ?_⟩ ⟨?_, ?_, ?_, ?_, ?_⟩ ?_).1
  case refine_11 => simp [work, sample]
  all_goals decide

/-- A separator inside a feature makes it two. -/
theorem joined_features_collide :
    (sample ["a\x00b"] []).work ≠ (sample ["a", "b"] []).work ∧
      (sample ["a\x00b"] []).payload = (sample ["a", "b"] []).payload ∧
      (CoreCommand.reconcile (sample ["a\x00b"] [])).payloadDigest =
        (CoreCommand.reconcile (sample ["a", "b"] [])).payloadDigest := by
  have same : (sample ["a\x00b"] []).payload = (sample ["a", "b"] []).payload := by
    rw [payload_eq, payload_eq]
    decide +kernel
  exact ⟨by simp [work, sample], same, congrArg payloadDigest same⟩

end ReconcileRequest

end Nyanpasu
