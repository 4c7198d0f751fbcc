import Nyanpasu.Config.Classify
import Nyanpasu.Guarantees.Difference

/-! # Classification denies by default

A change is patched or reloaded into a running core only where nothing that the process
or its controller rests on differs, and every changed root key is known to the tables.
-/

namespace Nyanpasu

namespace Mihomo

variable {ip : AddressText}

/-- A mapping, or nothing. -/
def Section (value : Option Node) : Prop :=
  value = none ∨ ∃ entries, value = some (.mapping entries)

/-- Everything that must agree before a running core is changed in place. -/
structure Compatible (current desired : ConfigClassificationView) : Prop where
  kind : current.spec.core.kind = desired.spec.core.kind
  binaryPath : current.spec.core.binaryPath = desired.spec.core.binaryPath
  version : current.spec.core.version = desired.spec.core.version
  features : current.spec.core.features = desired.spec.core.features
  workingDir : current.spec.workingDir = desired.spec.workingDir
  startupTimeout : current.spec.options.startupTimeout = desired.spec.options.startupTimeout
  health : current.spec.options.health = desired.spec.options.health
  restartPolicy : current.spec.options.restartPolicy = desired.spec.options.restartPolicy
  backoff : current.spec.options.backoff = desired.spec.options.backoff
  sourceController : ∀ field ∈ Clash.controllerFields,
    SameTree (current.source.get field) (desired.source.get field)
  effectiveController : ∀ field ∈ Clash.controllerFields,
    SameTree (current.effective.get field) (desired.effective.get field)
  dnsListen : SameTree (dnsListen current.effective) (dnsListen desired.effective)
  /-- A section that turns into something else shows in the effective documents. -/
  sourceDnsListen : Section (current.source.get "dns") → Section (desired.source.get "dns") →
    SameTree (Mihomo.dnsListen current.source) (Mihomo.dnsListen desired.source)
  roots : ∀ key, ¬ SameTree (current.effective.get key) (desired.effective.get key) →
    key ∈ patchFields ∨ key ∈ reloadFields

/-! ## From a root key to an entry -/

theorem exists_entry_of_root {current desired : Document} {key : String}
    (differ : ¬ SameTree (current.get key) (desired.get key)) :
    ∃ entry ∈ diff current desired, entry.path.head? = some key := by
  have unequal : same (below (some (.mapping current)) [key])
      (below (some (.mapping desired)) [key]) = false :=
    eq_false_of_ne_true (mt same_iff.mp differ)
  obtain ⟨entry, member, tail, at_, near⟩ := covers_diff current desired [key] unequal
  refine ⟨entry, member, ?_⟩
  rw [List.nil_append] at at_
  cases tail with
  | nil => exact absurd at_ (path_ne_nil_of_mem_diff member)
  | cons first rest =>
      have first_eq : first = key := by
        rcases near with ⟨_, equal⟩ | ⟨_, equal⟩
        · exact (List.cons.inj equal).1
        · exact (List.cons.inj equal).1.symm
      rw [at_, first_eq]
      rfl

theorem descends_sections {value value' : Option Node} (section_ : Section value)
    (section' : Section value') (differ : same value value' = false) :
    descends value value' = true := by
  rcases section_ with rfl | ⟨entries, rfl⟩ <;> rcases section' with rfl | ⟨entries', rfl⟩
  · cases differ
  all_goals rfl

/-- A DNS listener that differs between two sections is an entry of its own. -/
theorem exists_entry_of_dnsListen {current desired : Document}
    (section_ : Section (current.get "dns")) (section' : Section (desired.get "dns"))
    (differ : ¬ SameTree (dnsListen current) (dnsListen desired)) :
    ∃ entry ∈ diff current desired, isDnsListen entry.path = true := by
  have childDiffers : same (child (current.get "dns") "listen")
      (child (desired.get "dns") "listen") = false :=
    eq_false_of_ne_true (mt same_iff.mp differ)
  obtain ⟨entry, member, tail, at_, near⟩ :=
    covers_diff current desired ["dns", "listen"] childDiffers
  refine ⟨entry, member, ?_⟩
  rw [List.nil_append] at at_
  match tail, at_, near with
  | [], at_, _ => exact absurd at_ (path_ne_nil_of_mem_diff member)
  | [key], at_, near =>
      -- the difference does not stop at the section itself
      have key_eq : key = "dns" := by
        rcases near with ⟨_, equal⟩ | ⟨_, equal⟩
        · exact (List.cons.inj equal).1
        · exact (List.cons.inj equal).1.symm
      subst key_eq
      obtain ⟨_, _, stops⟩ := diff_sound member
      have gets : ∀ doc : Document, (Node.mapping doc).valueAt ["dns"] = doc.get "dns" := by
        intro doc
        simp [Node.valueAt, Node.asMapping]
      have listed := mem_childKeys_of_differ childDiffers
      rw [at_, gets, gets, goesOn, descends_sections section_ section'
        (not_same_of_child childDiffers), Bool.true_and, Bool.not_eq_false',
        List.isEmpty_iff] at stops
      rw [stops] at listed
      cases listed
  | key :: key' :: rest, at_, near =>
      have keys_eq : key = "dns" ∧ key' = "listen" := by
        rcases near with ⟨_, equal⟩ | ⟨_, equal⟩
        · simp only [List.cons_append, List.cons.injEq] at equal
          exact ⟨equal.1, equal.2.1⟩
        · simp only [List.cons_append, List.cons.injEq] at equal
          exact ⟨equal.1.symm, equal.2.1.symm⟩
      rw [at_, keys_eq.1, keys_eq.2]
      rfl

theorem root_of_patchable {entry : DiffEntry} {key : String} (patches : patchable entry = true)
    (root : entry.path.head? = some key) : key ∈ patchFields := by
  simp only [patchable, root, Option.any_some, Bool.and_eq_true, List.contains_iff_mem] at patches
  exact patches.2.1

theorem root_of_reloadable {entry : DiffEntry} {key : String} (reloads : reloadable entry = true)
    (root : entry.path.head? = some key) : key ∈ reloadFields := by
  simp only [reloadable, root, Option.any_some, Bool.and_eq_true, List.contains_iff_mem] at reloads
  exact reloads.1.1

/-- No controller field is patched or reloaded. -/
theorem controller_not_known :
    ∀ field ∈ Clash.controllerFields, field ∉ patchFields ∧ field ∉ reloadFields := by
  decide

variable {current desired : ConfigClassificationView} {change : ConfigChange ip}

theorem compatible_of_mihomo
    (process : processSpecChanged current.spec desired.spec = false)
    (clear : ∀ entry ∈ diff current.source desired.source, touchesController entry = false)
    (listens : same (Mihomo.dnsListen current.effective)
      (Mihomo.dnsListen desired.effective) = true)
    (known : ∀ entry ∈ diff current.effective desired.effective, ∀ key,
      entry.path.head? = some key → key ∈ patchFields ∨ key ∈ reloadFields) :
    Compatible current desired := by
  have roots : ∀ key, ¬ SameTree (current.effective.get key) (desired.effective.get key) →
      key ∈ patchFields ∨ key ∈ reloadFields := by
    intro key differ
    obtain ⟨entry, member, root⟩ := exists_entry_of_root differ
    exact known entry member key root
  simp only [processSpecChanged, Bool.or_eq_false_iff, decide_eq_false_iff_not, not_ne_iff]
    at process
  obtain ⟨⟨⟨⟨⟨⟨⟨⟨kind, binary⟩, version⟩, features⟩, dir⟩, timeout⟩, health⟩, policy⟩, backoff⟩ :=
    process
  refine ⟨kind, binary, version, features, dir, timeout, health, policy, backoff, ?_, ?_,
    same_iff.mp listens, ?_, roots⟩
  · intro field controller
    by_contra differ
    obtain ⟨entry, member, root⟩ := exists_entry_of_root differ
    have touches := clear entry member
    simp [touchesController, root, controller] at touches
  · intro field controller
    by_contra differ
    obtain ⟨noPatch, noReload⟩ := controller_not_known field controller
    exact (roots field differ).elim noPatch noReload
  · intro section_ section'
    by_contra differ
    obtain ⟨entry, member, listen⟩ := exists_entry_of_dnsListen section_ section' differ
    have touches := clear entry member
    simp [touchesController, listen] at touches

/-- A core is patched or reloaded only between compatible views, and only a Mihomo. -/
theorem compatible_of_classify (classified : classify ip current desired = .ok change) :
    change = .switch ∨ change = .noop ∨
      Compatible current desired ∧ desired.spec.core.kind = .mihomo ∧
        ((∃ patch projection, change = .patch patch projection) →
          ∀ entry ∈ diff current.effective desired.effective, entry.new.isSome = true) := by
  rcases classify_cases classified with switch | ⟨process, ⟨_, noop, _⟩ | ⟨kind, clear, documents⟩⟩
  · exact .inl switch
  · exact .inr (.inl noop)
  · rcases classifyDocuments_cases documents with
      switch | ⟨listens, ⟨noop, _⟩ | ⟨_, all⟩ | ⟨reload, all⟩⟩
    · exact .inl switch
    · exact .inr (.inl noop)
    · refine .inr (.inr ⟨compatible_of_mihomo process clear listens ?_, kind, fun _ => ?_⟩)
      · exact fun entry member key root => .inl (root_of_patchable (all entry member) root)
      · intro entry member
        have patches := all entry member
        simp only [patchable, Bool.and_eq_true] at patches
        exact patches.1
    · refine .inr (.inr ⟨compatible_of_mihomo process clear listens ?_, kind, ?_⟩)
      · exact fun entry member key root => .inr (root_of_reloadable (all entry member) root)
      · rintro ⟨_, _, patch⟩
        rw [reload] at patch
        cases patch

theorem sameTree_of_noop (classified : classify ip current desired = .ok .noop) :
    SameTree (some (.mapping current.effective)) (some (.mapping desired.effective)) := by
  rw [← diff_eq_nil_iff]
  rcases classify_cases classified with switch | ⟨_, ⟨_, _, empty⟩ | ⟨_, _, documents⟩⟩
  · cases switch
  · exact empty
  · rcases classifyDocuments_cases documents with
      switch | ⟨_, ⟨_, empty⟩ | ⟨⟨_, _, patch⟩, _⟩ | ⟨reload, _⟩⟩
    · cases switch
    · exact empty
    · cases patch
    · cases reload

/-- Nothing to do means equal effective documents; a patch or a reload means compatible
    views; a removal is never patched; and a core of another kind is neither patched nor
    reloaded. -/
theorem classify_denies_by_default (ip : AddressText) (current desired : ConfigClassificationView) :
    (classify ip current desired = .ok .noop →
      SameTree (some (.mapping current.effective)) (some (.mapping desired.effective))) ∧
    (∀ patch projection, classify ip current desired = .ok (.patch patch projection) →
      Compatible current desired) ∧
    (classify ip current desired = .ok .reload → Compatible current desired) ∧
    ((∃ entry ∈ diff current.effective desired.effective, entry.new = none) →
      ∀ patch projection, classify ip current desired ≠ .ok (.patch patch projection)) ∧
    (desired.spec.core.kind ≠ .mihomo →
      (∀ patch projection, classify ip current desired ≠ .ok (.patch patch projection)) ∧
        classify ip current desired ≠ .ok .reload) := by
  have patched : ∀ patch projection, classify ip current desired = .ok (.patch patch projection) →
      Compatible current desired ∧ desired.spec.core.kind = .mihomo ∧
        ∀ entry ∈ diff current.effective desired.effective, entry.new.isSome = true := by
    intro patch projection classified
    rcases compatible_of_classify classified with switch | noop | ⟨compatible, kind, kept⟩
    · cases switch
    · cases noop
    · exact ⟨compatible, kind, kept ⟨patch, projection, rfl⟩⟩
  have reloaded : classify ip current desired = .ok .reload →
      Compatible current desired ∧ desired.spec.core.kind = .mihomo := by
    intro classified
    rcases compatible_of_classify classified with switch | noop | ⟨compatible, kind, _⟩
    · cases switch
    · cases noop
    · exact ⟨compatible, kind⟩
  refine ⟨sameTree_of_noop, fun patch projection classified => (patched _ _ classified).1,
    fun classified => (reloaded classified).1, ?_, fun other => ⟨?_, ?_⟩⟩
  · rintro ⟨entry, member, removed⟩ patch projection classified
    have kept := (patched _ _ classified).2.2 entry member
    rw [removed] at kept
    cases kept
  · exact fun _ _ classified => other (patched _ _ classified).2.1
  · exact fun classified => other (reloaded classified).2

end Mihomo

end Nyanpasu
