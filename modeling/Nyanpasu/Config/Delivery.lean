import Nyanpasu.Config.Mihomo

/-! # From a changed path to the field that carries it

A difference that is classified as a patch is rebuilt from its root keys, so every
changed path lies at or below one typed field of the body, and that field is sent from
the desired document's value.
-/

namespace Nyanpasu

namespace Mihomo

variable {ip : AddressText} {current desired document : Document} {changes : List DiffEntry}
  {patch : ConfigPatch ip} {projection : RuntimeProjection}

/-! ## Inversions -/

theorem classifyDocuments_eq_patch
    (classified : classifyDocuments ip current desired = .ok (.patch patch projection)) :
    (∀ entry ∈ diff current desired, patchable entry = true) ∧
      buildPatch ip desired (diff current desired) = .ok (.patch patch projection) := by
  simp only [classifyDocuments] at classified
  split at classified
  · cases classified
  · split at classified
    · cases classified
    · split at classified
      case isTrue all => exact ⟨List.all_eq_true.mp all, classified⟩
      case isFalse => split at classified <;> cases classified

theorem buildPatch_eq_patch
    (built : buildPatch ip desired changes = .ok (.patch patch projection)) :
    ∃ document,
      patchDocument desired (keySet (changes.filterMap (·.path.head?))) .nil =
        .ok (some document) ∧
      (∀ key ∈ ["tun", "tuic-server"], enableMissing document key = false) ∧
      ConfigPatch.decode ip document = some patch ∧
      projection.expected = (Node.mapping patch.encode).collectLeaves [] := by
  unfold buildPatch at built
  cases gathered : patchDocument desired (keySet (changes.filterMap (·.path.head?))) .nil with
  | error error => simp [gathered, bind, Except.bind] at built
  | ok found =>
      cases found with
      | none => simp [gathered, bind, Except.bind, pure, Except.pure] at built
      | some document =>
          simp only [gathered, bind, Except.bind, pure, Except.pure] at built
          split at built
          case isTrue => cases built
          case isFalse flags =>
            split at built
            case h_1 => cases built
            case h_2 decoded =>
              cases built
              refine ⟨document, rfl, ?_, decoded, rfl⟩
              simpa only [List.any_eq_true, not_exists, not_and, Bool.not_eq_true] using flags

theorem patchDocument_get {roots : List String} {start : Document}
    (gathered : patchDocument desired roots start = .ok (some document)) :
    (∀ root ∈ roots, ∃ value shown, desired.get root = some value ∧
      patchValue root value = .ok shown ∧ document.get root = some shown) ∧
      ∀ key ∉ roots, document.get key = start.get key := by
  induction roots generalizing start with
  | nil =>
      cases gathered
      exact ⟨nofun, fun _ _ => rfl⟩
  | cons root roots ih =>
      unfold patchDocument at gathered
      cases present : desired.get root with
      | none => simp [present] at gathered
      | some value =>
          simp only [present] at gathered
          cases shows : patchValue root value with
          | error error => simp [shows, bind, Except.bind] at gathered
          | ok shown =>
              simp only [shows, bind, Except.bind] at gathered
              obtain ⟨listed, kept⟩ := ih gathered
              constructor
              · intro wanted member
                by_cases later : wanted ∈ roots
                · exact listed wanted later
                · obtain rfl := (List.mem_cons.mp member).resolve_right later
                  exact ⟨value, shown, present, shows, (kept wanted later).trans
                    (Document.get_insert_self _ _ _)⟩
              · intro key absent
                rw [List.mem_cons, not_or] at absent
                exact (kept key absent.2).trans (Document.get_insert_ne absent.1 _)

theorem get_filterEntries (allowed : List String) (doc : Document) (key : String) :
    (filterEntries allowed doc).get key = if key ∈ allowed then doc.get key else none := by
  induction doc with
  | nil => simp [filterEntries, Document.get]
  | cons first value rest ih =>
      by_cases same : first = key
      · subst same
        by_cases kept : first ∈ allowed
        · simp [filterEntries, Document.get, kept]
        · simp [filterEntries, kept, ih]
      · by_cases kept : first ∈ allowed <;> simp [filterEntries, Document.get, kept, same, ih]

variable {allowed : List String}

theorem filterMapping_eq_ok {value shown : Node}
    (filtered : filterMapping value allowed = .ok shown) :
    ∃ inner, value = .mapping inner ∧ shown = .mapping (filterEntries allowed inner) := by
  cases value with
  | mapping inner =>
      cases filtered
      exact ⟨inner, rfl, rfl⟩
  | null | bool | int | float | string | sequence => cases filtered

/-! ## The field of a path -/

/-- The type of the field at a path of the body. -/
def typeAt : List String → Option FieldType
  | [root] => scalarSchema.lookup root
  | [root, field] =>
      if root = "tun" then (("enable", .bool) :: tunPatchSchema).lookup field
      else if root = "tuic-server" then (("enable", .bool) :: tuicServerPatchSchema).lookup field
      else none
  | _ => none

variable {schema : Schema}

/-- A field of a struct inside the body is sent from the desired struct. -/
theorem sends_struct {inner : Document} {nested : NestedPatch ip} {field : String}
    {type : FieldType}
    (decoded : NestedPatch.decode ip schema (.mapping (filterEntries allowed inner)) = some nested)
    (names : allowed = "enable" :: schema.map (·.1)) (distinct : allowed.Nodup)
    (flag : (((filterEntries allowed inner).get "enable").bind Node.asBool).isNone = false)
    (typed : (("enable", .bool) :: schema).lookup field = some type) :
    Sends ip type (inner.get field) (nested.encode.valueAt [field]) := by
  obtain ⟨_, same, enable, fields⟩ := nested_eq_some decoded
  cases same
  have member := Schema.mem_of_lookup typed
  have listed : field ∈ allowed := by
    rw [names]
    simpa using List.mem_map_of_mem (f := Prod.fst) member
  have seen : (filterEntries allowed inner).get field = inner.get field := by
    rw [get_filterEntries, if_pos listed]
  rcases List.mem_cons.mp member with mine | other
  · -- the flag, which is never left out
    cases mine
    rcases enable with ⟨absent, _⟩ | present
    · simp [absent] at flag
    · have read : Field.decode ip .bool (.bool nested.enable) = some (.bool nested.enable) := rfl
      have filled : Node.bool nested.enable ≠ .null := by simp
      rw [get_nested_enable, ← seen, present]
      exact .sends filled read
  · rw [← seen]
    exact sends_nested fields (names ▸ distinct) other

/-- The struct under a root key that is one. -/
theorem sends_root {key field : String} {value shown : Node} {sent : Option (NestedPatch ip)}
    {type : FieldType} (filtered : filterMapping value allowed = .ok shown)
    (present : document.get key = some shown)
    (decoded : decodeNested ip schema document key = some sent)
    (names : allowed = "enable" :: schema.map (·.1)) (distinct : allowed.Nodup)
    (flag : enableMissing document key = false)
    (typed : (("enable", .bool) :: schema).lookup field = some type) :
    Sends ip type (value.valueAt [field])
      ((sent.map NestedPatch.encode).bind fun body => body.valueAt [field]) := by
  obtain ⟨inner, rfl, rfl⟩ := filterMapping_eq_ok filtered
  simp only [decodeNested, present, Option.map_eq_some_iff] at decoded
  obtain ⟨nested, decoded, rfl⟩ := decoded
  simp only [enableMissing, present, Option.isSome_some, Bool.true_and, Option.bind_some,
    Node.asMapping] at flag
  have sends := sends_struct decoded names distinct flag typed
  simpa [Node.valueAt, Node.asMapping] using sends

theorem patchable_path {entry : DiffEntry} (holds : patchable entry = true) :
    ∃ root rest, entry.path = root :: rest ∧ root ∈ patchFields ∧
      patchNestedPathIsSupported (root :: rest) = true := by
  simp only [patchable, Bool.and_eq_true] at holds
  cases path : entry.path with
  | nil => simp [path] at holds
  | cons root rest =>
      simp only [path, List.head?_cons, Option.any_some, Bool.and_eq_true,
        List.contains_iff_mem] at holds
      exact ⟨root, rest, rfl, holds.2⟩

theorem supported_struct {rest : List String} (names : allowed = "enable" :: schema.map (·.1))
    (supported : rest.head?.any allowed.contains = true) :
    ∃ field more type, rest = field :: more ∧
      (("enable", FieldType.bool) :: schema).lookup field = some type := by
  cases rest with
  | nil => cases supported
  | cons field more =>
      simp only [List.head?_cons, Option.any_some, List.contains_iff_mem] at supported
      have known : field ∈ (("enable", FieldType.bool) :: schema).map Prod.fst := by
        rw [names] at supported
        exact supported
      cases found : (("enable", FieldType.bool) :: schema).lookup field with
      | some type => exact ⟨field, more, type, rfl, found⟩
      | none =>
          obtain ⟨pair, member, rfl⟩ := List.mem_map.mp known
          have differs := List.lookup_eq_none_iff.mp found pair member
          simp at differs

theorem valueAt_root (doc : Document) (root : String) (path : List String) :
    (Node.mapping doc).valueAt (root :: path) = (doc.get root).bind fun value =>
      value.valueAt path := rfl

/-- Every changed path of a patch lies at or below a field that is sent from the desired
    value there. -/
theorem carried (classified : classifyDocuments ip current desired = .ok (.patch patch projection))
    {entry : DiffEntry} (member : entry ∈ diff current desired) :
    ∃ front rest type, entry.path = front ++ rest ∧ typeAt front = some type ∧
      Sends ip type ((Node.mapping desired).valueAt front)
        ((Node.mapping patch.encode).valueAt front) := by
  obtain ⟨all, built⟩ := classifyDocuments_eq_patch classified
  obtain ⟨document, gathered, flags, decoded, -⟩ := buildPatch_eq_patch built
  obtain ⟨root, rest, path, known, supported⟩ := patchable_path (all entry member)
  have changed : root ∈ keySet ((diff current desired).filterMap (·.path.head?)) := by
    rw [mem_keySet, List.mem_filterMap]
    exact ⟨entry, member, by rw [path]; rfl⟩
  obtain ⟨value, shown, present, shows, gets⟩ := (patchDocument_get gathered).1 root changed
  obtain ⟨-, tun, tuic, -⟩ := decode_eq_some decoded
  by_cases isTun : root = "tun"
  · subst isTun
    have names : tunPatchFields = "enable" :: tunPatchSchema.map (·.1) := rfl
    obtain ⟨field, more, type, rfl, typed⟩ := supported_struct names supported
    refine ⟨["tun", field], more, type, path, typed, ?_⟩
    rw [valueAt_root, valueAt_root, present, get_encode_tun decoded]
    exact sends_root shows gets tun names (by decide) (flags "tun" (by simp)) typed
  · by_cases isTuic : root = "tuic-server"
    · subst isTuic
      have names : tuicServerPatchFields = "enable" :: tuicServerPatchSchema.map (·.1) := rfl
      obtain ⟨field, more, type, rfl, typed⟩ :=
        supported_struct names supported
      refine ⟨["tuic-server", field], more, type, path, typed, ?_⟩
      rw [valueAt_root, valueAt_root, present, get_encode_tuicServer decoded]
      exact sends_root shows gets tuic names (by decide) (flags "tuic-server" (by simp)) typed
    · have scalar : ∀ root ∈ patchFields, root ≠ "tun" → root ≠ "tuic-server" →
          (scalarSchema.lookup root).isSome = true := by decide
      obtain ⟨type, typed⟩ := Option.isSome_iff_exists.mp (scalar root known isTun isTuic)
      have whole : rest = [] := by
        simpa [patchNestedPathIsSupported, isTun, isTuic] using supported
      subst whole
      have plain : shown = value := by
        simp only [patchValue, isTun, isTuic, if_false, Except.ok.injEq] at shows
        exact shows.symm
      have sends := sends_scalar decoded (Schema.mem_of_lookup typed)
      rw [gets, plain] at sends
      refine ⟨[root], [], type, path, typed, ?_⟩
      rw [valueAt_root, valueAt_root, present]
      cases got : patch.encode.get root <;> simpa [got, Node.valueAt] using sends

/-! ## Small documents -/

/-- Addresses that are their texts. -/
def addressTexts : AddressText where
  Net := String
  Addr := String
  parseNet := some
  printNet := id
  parseAddr := some
  printAddr := id
  parse_printNet _ := rfl
  parse_printAddr _ := rfl

/-- An enabled TUN device with one more field. -/
def tunDocument (field : String) (value : Node) : Document :=
  .cons "tun" (.mapping (.cons "enable" (.bool true) (.cons field value .nil))) .nil

end Mihomo

end Nyanpasu
