import Nyanpasu.Config.Restoration

/-! # The bootstrap document is restored

Ports always come back.  The TUN struct is sent as a whole once its flag was lowered, so
it comes back exactly where each of its fields survives the typed body.
-/

namespace Nyanpasu

namespace Mihomo

variable {ip : AddressText} {full document : Document} {key : String} {patch : ConfigPatch ip}

/-- An enabled TUN struct whose patchable fields are read and written back unchanged. -/
def Restorable (ip : AddressText) (full : Document) : Prop :=
  ∀ tun, full.get "tun" = some (.mapping tun) → tun.get "enable" = some (.bool true) →
    ∀ entry ∈ tunPatchSchema, ∀ value, tun.get entry.1 = some value → value ≠ .null →
      ∃ field, Field.decode ip entry.2 value = some field ∧ field.encode = value

/-- The restoration goes through and overlays the bootstrap document to the full one. -/
def Restores (ip : AddressText) (bootstrap full : Document) : Prop :=
  restorationPatch ip bootstrap full = .ok none ∧ bootstrap = full ∨
    ∃ patch projection, restorationPatch ip bootstrap full = .ok (some (patch, projection)) ∧
      bootstrap.overlay patch.encode = full

/-! ## The document of the patch -/

/-- The lowered keys with the part of their full values that is patched, and nothing else. -/
structure Gathers (full document : Document) : Prop where
  port : ∀ {key number}, key ∈ inboundPortFields → Lowered full key →
    full.get key = some (.int number) → document.get key = some (.int number)
  tun : ∀ {tun}, Lowered full "tun" → full.get "tun" = some (.mapping tun) →
    document.get "tun" = some (.mapping (filterEntries tunPatchFields tun))
  other : ∀ {key}, ¬ Lowered full key → document.get key = none

theorem patchValue_port (port : key ∈ inboundPortFields) (value : Node) :
    patchValue key value = .ok value := by
  have plain : ∀ key ∈ inboundPortFields, key ≠ "tun" ∧ key ≠ "tuic-server" := by decide
  obtain ⟨noTun, noTuic⟩ := plain key port
  simp [patchValue, noTun, noTuic]

theorem patchDocument_ok {desired : Document} {roots : List String} (start : Document)
    (shows : ∀ root ∈ roots, ∃ value shown, desired.get root = some value ∧
      patchValue root value = .ok shown) :
    ∃ document, patchDocument desired roots start = .ok (some document) := by
  induction roots generalizing start with
  | nil => exact ⟨start, rfl⟩
  | cons root roots ih =>
      obtain ⟨value, shown, present, shown_eq⟩ := shows root List.mem_cons_self
      obtain ⟨document, built⟩ := ih (start.insert root shown) fun other member =>
        shows other (List.mem_cons_of_mem _ member)
      refine ⟨document, ?_⟩
      simp only [patchDocument, present, shown_eq, bind, Except.bind]
      exact built

theorem gathers_of_patchDocument
    (built : patchDocument full (keySet ((diff (zeroInbounds full) full).filterMap (·.path.head?)))
      .nil = .ok (some document)) : Gathers full document := by
  obtain ⟨listed, kept⟩ := patchDocument_get built
  refine ⟨?_, ?_, ?_⟩
  · intro key number port lowered present
    obtain ⟨value, shown, found, shows, gets⟩ := listed key (mem_roots.mpr lowered)
    rw [present] at found
    cases found
    rw [patchValue_port port] at shows
    cases shows
    exact gets
  · intro tun lowered present
    obtain ⟨value, shown, found, shows, gets⟩ := listed "tun" (mem_roots.mpr lowered)
    rw [present] at found
    cases found
    cases shows
    exact gets
  · intro key not_
    exact kept key fun member => not_ (mem_roots.mp member)

theorem gathered (full : Document) : ∃ document,
    patchDocument full (keySet ((diff (zeroInbounds full) full).filterMap (·.path.head?))) .nil =
      .ok (some document) := by
  apply patchDocument_ok
  intro root member
  cases mem_roots.mp member with
  | port port present => exact ⟨_, _, present, patchValue_port port _⟩
  | tun present => exact ⟨_, _, present, rfl⟩

theorem not_lowered_of_other (port : key ∉ inboundPortFields) (tun : key ≠ "tun") :
    ¬ Lowered full key := by
  intro lowered
  cases lowered with
  | port member => exact port member
  | tun => exact tun rfl

theorem Lowered.number (lowered : Lowered full key) (port : key ∈ inboundPortFields) :
    ∃ number, full.get key = some (.int number) ∧ (Node.int number).asI64 = some number := by
  cases lowered with
  | port _ present number => exact ⟨_, present, number⟩
  | tun => exact absurd port (by decide)

theorem Lowered.struct (lowered : Lowered full "tun") :
    ∃ tun, full.get "tun" = some (.mapping tun) ∧ tun.get "enable" = some (.bool true) ∧
      (zeroInbounds full).get "tun" = some (.mapping (tun.insert "enable" (.bool false))) := by
  cases lowered with
  | port port => exact absurd port (by decide)
  | tun present enabled off => exact ⟨_, present, enabled, off⟩

theorem Gathers.flags (gathers : Gathers full document) :
    ["tun", "tuic-server"].any (enableMissing document) = false := by
  have unlowered : ¬ Lowered full "tuic-server" := not_lowered_of_other (by decide) (by decide)
  have tuic : enableMissing document "tuic-server" = false := by
    simp [enableMissing, gathers.other unlowered]
  have tun : enableMissing document "tun" = false := by
    by_cases lowered : Lowered full "tun"
    · obtain ⟨tun, present, enabled, _⟩ := lowered.struct
      have gets := gathers.tun lowered present
      simp [enableMissing, gets, Node.asMapping, get_filterEntries, tunPatchFields, enabled,
        Node.asBool]
    · simp [enableMissing, gathers.other lowered]
  simp [tun, tuic]

/-! ## Decoding it -/

theorem Gathers.decode_scalars (ip : AddressText) (gathers : Gathers full document) :
    (decodeFields ip document portSchema).isSome = true ∧
      (decodeFields ip document generalSchema).isSome = true := by
  have ports : ∀ entry ∈ portSchema, entry.1 ∈ inboundPortFields ∧ entry.2 = .i64 := by decide
  have generals : ∀ entry ∈ generalSchema, entry.1 ∉ inboundPortFields ∧ entry.1 ≠ "tun" := by
    decide
  constructor
  · apply decodeFields_isSome
    intro entry member value present _
    obtain ⟨port, typed⟩ := ports entry member
    by_cases lowered : Lowered full entry.1
    · obtain ⟨number, found, inside⟩ := lowered.number port
      rw [gathers.port port lowered found] at present
      cases present
      rw [typed]
      simp [Field.decode, inside]
    · rw [gathers.other lowered] at present
      cases present
  · apply decodeFields_isSome
    intro entry member value present _
    obtain ⟨port, tun⟩ := generals entry member
    rw [gathers.other (not_lowered_of_other port tun)] at present
    cases present

variable {tun : Document}

theorem get_tunPatchFields {name : String} {type : FieldType}
    (member : (name, type) ∈ tunPatchSchema) :
    (filterEntries tunPatchFields tun).get name = tun.get name := by
  have names : ∀ entry ∈ tunPatchSchema, entry.1 ∈ tunPatchFields := by decide
  rw [get_filterEntries, if_pos (names _ member)]

/-- Where every field of the struct can be read, so can the whole document. -/
theorem Gathers.decodes (gathers : Gathers full document) (restorable : Restorable ip full) :
    ∃ patch, ConfigPatch.decode ip document = some patch := by
  obtain ⟨ports, general⟩ := gathers.decode_scalars ip
  obtain ⟨ports, portsRead⟩ := Option.isSome_iff_exists.mp ports
  obtain ⟨general, generalRead⟩ := Option.isSome_iff_exists.mp general
  have unlowered : ¬ Lowered full "tuic-server" := not_lowered_of_other (by decide) (by decide)
  have tuicRead : decodeNested ip tuicServerPatchSchema document "tuic-server" = some none := by
    simp [decodeNested, gathers.other unlowered]
  have tunRead : ∃ sent, decodeNested ip tunPatchSchema document "tun" = some sent := by
    by_cases lowered : Lowered full "tun"
    · obtain ⟨tun, present, enabled, _⟩ := lowered.struct
      have fields : (decodeFields ip (filterEntries tunPatchFields tun) tunPatchSchema).isSome =
          true := by
        apply decodeFields_isSome
        intro entry member value found filled
        rw [get_tunPatchFields member] at found
        obtain ⟨field, read, _⟩ := restorable tun present enabled entry member value found filled
        rw [read]
        rfl
      obtain ⟨fields, fieldsRead⟩ := Option.isSome_iff_exists.mp fields
      have flag : decodeEnable (filterEntries tunPatchFields tun) = some true := by
        simp [decodeEnable, get_filterEntries, tunPatchFields, enabled, Node.asBool]
      refine ⟨some ⟨true, fields⟩, ?_⟩
      simp [decodeNested, gathers.tun lowered present, NestedPatch.decode, flag, fieldsRead]
    · exact ⟨none, by simp [decodeNested, gathers.other lowered]⟩
  obtain ⟨sent, tunRead⟩ := tunRead
  exact ⟨⟨ports, sent, none, general⟩, by
    simp [ConfigPatch.decode, portsRead, tunRead, tuicRead, generalRead]⟩

/-! ## What the body holds -/

theorem distinct_encode {doc : Document} (decoded : ConfigPatch.decode ip doc = some patch) :
    patch.encode.keys.Nodup := by
  have distinct : (portSchema.map (·.1) ++ ["tun"] ++ ["tuic-server"] ++
      generalSchema.map (·.1)).Nodup := by decide
  exact distinct.sublist (keys_encode decoded)

section

variable (gathers : Gathers full document) (decoded : ConfigPatch.decode ip document = some patch)

include gathers decoded

/-- A key that is not lowered is not in the body. -/
theorem Gathers.get_encode_other (unlowered : ¬ Lowered full key) :
    patch.encode.get key = none := by
  have absent := gathers.other unlowered
  by_contra sent
  have listed : key ∈ patch.encode.keys := by
    rw [Document.mem_keys]
    exact Option.isSome_iff_ne_none.mpr sent
  have known := (keys_encode decoded).subset listed
  obtain ⟨_, tun, tuic, _⟩ := decode_eq_some decoded
  by_cases isTun : key = "tun"
  · subst isTun
    simp only [decodeNested, absent, Option.some.injEq] at tun
    rw [get_encode_tun decoded, ← tun] at sent
    exact sent rfl
  · by_cases isTuic : key = "tuic-server"
    · subst isTuic
      simp only [decodeNested, absent, Option.some.injEq] at tuic
      rw [get_encode_tuicServer decoded, ← tuic] at sent
      exact sent rfl
    · have scalar : key ∈ scalarSchema.map (·.1) := by
        simpa [scalarSchema, isTun, isTuic] using known
      obtain ⟨⟨name, type⟩, member, rfl⟩ := List.mem_map.mp scalar
      have sends := sends_scalar decoded member
      rw [absent] at sends
      generalize patch.encode.get name = body at sends sent
      cases sends
      exact sent rfl

theorem Gathers.get_encode_port (port : key ∈ inboundPortFields) (lowered : Lowered full key)
    : patch.encode.get key = full.get key := by
  obtain ⟨number, present, _⟩ := lowered.number port
  have typed : ∀ key ∈ inboundPortFields, (key, FieldType.i64) ∈ scalarSchema := by decide
  have sends := sends_scalar decoded (typed key port)
  rw [gathers.port port lowered present] at sends
  rw [present]
  generalize patch.encode.get key = body at sends
  cases sends with
  | sends _ read => rw [Field.encode_eq rfl read]

/-- The struct of the body: the flag that was lowered and the fields as they are sent. -/
structure Body (ip : AddressText) (tun body : Document) : Prop where
  distinct : body.keys.Nodup
  enable : body.get "enable" = some (.bool true)
  sends : ∀ {name type}, (name, type) ∈ tunPatchSchema →
    Sends ip type (tun.get name) (body.get name)
  known : ∀ key ∈ body.keys, key ∈ "enable" :: tunPatchSchema.map (·.1)

theorem Gathers.body (lowered : Lowered full "tun") (present : full.get "tun" = some (.mapping tun))
    (enabled : tun.get "enable" = some (.bool true)) :
    ∃ body, patch.encode.get "tun" = some (.mapping body) ∧ Body ip tun body := by
  obtain ⟨_, read, _, _⟩ := decode_eq_some decoded
  simp only [decodeNested, gathers.tun lowered present, Option.map_eq_some_iff] at read
  obtain ⟨nested, read, sent⟩ := read
  obtain ⟨_, same, flag, fields⟩ := nested_eq_some read
  cases same
  have names : ("enable" :: (encodeFields nested.fields).map (·.1)).Sublist tunPatchFields :=
    (names_decodeFields fields).cons_cons "enable"
  have keys : (Document.ofList (("enable", .bool nested.enable) ::
      encodeFields nested.fields)).keys = "enable" :: (encodeFields nested.fields).map (·.1) :=
    Document.keys_ofList _
  have distinct : tunPatchFields.Nodup := by decide
  refine ⟨_, (get_encode_tun decoded).trans (by rw [← sent]; rfl), ?_, ?_, ?_, ?_⟩
  · rw [keys]
    exact distinct.sublist names
  · have seen : (filterEntries tunPatchFields tun).get "enable" = some (.bool true) := by
      rw [get_filterEntries, if_pos (by decide), enabled]
    rw [seen] at flag
    rcases flag with ⟨absent, _⟩ | same
    · cases absent
    · rw [Document.ofList, Document.get, if_pos rfl]
      exact same.symm
  · intro name type member
    have sends := sends_nested fields distinct member
    rw [get_tunPatchFields member] at sends
    simpa [NestedPatch.encode, Node.valueAt, Node.asMapping] using sends
  · intro key member
    rw [keys] at member
    exact names.subset member

end

/-- A field that is no map replaces what it is laid over. -/
theorem overlayOn_encode {type : FieldType} {value : Node} {field : Field ip}
    (flat : type ≠ .stringMap) (read : Field.decode ip type value = some field)
    (target : Option Node) : field.encode.overlayOn target = field.encode := by
  cases field with
  | stringMap =>
      cases type
      case stringMap => exact absurd rfl flat
      all_goals
        obtain ⟨_, _, same⟩ := Option.map_eq_some_iff.mp read
        cases same
  | int | bool | string | strings | ints | nets | addrs | tunnelMode | logLevel | findProcessMode
  | tunStack => simp [Field.encode, Node.items, Node.overlayOn]

theorem flat_tunPatchSchema : ∀ entry ∈ tunPatchSchema, entry.2 ≠ .stringMap ∧
    entry.1 ≠ "enable" := by decide

/-- The lowered struct is restored exactly where each field that is sent is unchanged. -/
theorem Body.overlay_eq {body : Document} (holds : Body ip tun body)
    (enabled : tun.get "enable" = some (.bool true)) :
    (tun.insert "enable" (.bool false)).overlay body = tun ↔
      ∀ entry ∈ tunPatchSchema, ∀ value, tun.get entry.1 = some value → value ≠ .null →
        ∃ field, Field.decode ip entry.2 value = some field ∧ field.encode = value := by
  have gets := Document.get_overlay holds.distinct (tun.insert "enable" (.bool false))
  constructor
  · intro restored entry member value present filled
    obtain ⟨flat, noFlag⟩ := flat_tunPatchSchema entry member
    have sends := holds.sends member
    have result := gets entry.1
    rw [restored, present] at result
    rw [present] at sends
    generalize body.get entry.1 = sent at sends result
    cases sends with
    | null => exact absurd rfl filled
    | @sends _ field _ read =>
        simp only [overlayOn_encode flat read, Option.some.injEq] at result
        exact ⟨field, read, result.symm⟩
  · intro unchanged
    have aligned : Document.Aligned [] tun (tun.insert "enable" (.bool false)) :=
      (Document.aligned_refl [] tun).insert List.not_mem_nil (by simp [enabled]) _
    symm
    apply (aligned.overlay ?_).eq
    · intro key _
      rw [gets key]
      by_cases flag : key = "enable"
      · subst flag
        rw [holds.enable, enabled]
        simp [Node.overlayOn]
      · rw [Document.get_insert_ne flag]
        by_cases known : key ∈ tunPatchSchema.map (·.1)
        · obtain ⟨entry, member, rfl⟩ := List.mem_map.mp known
          obtain ⟨flat, _⟩ := flat_tunPatchSchema entry member
          have sends := holds.sends member
          cases present : tun.get entry.1 with
          | none =>
              rw [present] at sends
              generalize body.get entry.1 = sent at sends
              cases sends
              rfl
          | some value =>
              rw [present] at sends
              generalize body.get entry.1 = sent at sends
              cases sends with
              | null => rfl
              | @sends _ field filled read =>
                  obtain ⟨field', read', same⟩ := unchanged entry member value present filled
                  rw [read] at read'
                  cases read'
                  exact congrArg some ((overlayOn_encode flat read _).trans same).symm
        · have absent : body.get key = none := by
            by_contra sent
            have listed := holds.known key (Document.mem_keys.mpr
              (Option.isSome_iff_ne_none.mpr sent))
            exact (List.mem_cons.mp listed).elim flag known
          simp only [absent]
    · intro key member
      by_cases flag : key = "enable"
      · subst flag
        simp
      · rw [Document.get_insert_ne flag]
        have known := (List.mem_cons.mp (holds.known key member)).resolve_left flag
        obtain ⟨entry, listed, rfl⟩ := List.mem_map.mp known
        have sends := holds.sends listed
        have sent := Document.mem_keys.mp member
        cases present : tun.get entry.1 with
        | some value => rfl
        | none =>
            rw [present] at sends
            generalize body.get entry.1 = shown at sends sent
            cases sends
            cases sent

/-! ## The whole document -/

theorem lowered_of_enabled (present : full.get "tun" = some (.mapping tun))
    (enabled : tun.get "enable" = some (.bool true)) : Lowered full "tun" := by
  refine .tun present enabled ?_
  rw [get_zeroInbounds_tun, present]
  simp [disabled, Node.asMapping, enabled, Node.asBool]

theorem Lowered.present (lowered : Lowered full key) :
    ((zeroInbounds full).get key).isSome = true := by
  cases lowered with
  | port _ _ _ _ zero => rw [zero]; rfl
  | tun _ _ off => rw [off]; rfl

theorem Gathers.overlay_eq (gathers : Gathers full document)
    (decoded : ConfigPatch.decode ip document = some patch) :
    (zeroInbounds full).overlay patch.encode = full ↔ Restorable ip full := by
  have gets := Document.get_overlay (distinct_encode decoded) (zeroInbounds full)
  constructor
  · intro restored tun present enabled
    have lowered := lowered_of_enabled present enabled
    obtain ⟨body, sent, holds⟩ := gathers.body decoded lowered present enabled
    obtain ⟨_, again, _, off⟩ := lowered.struct
    rw [present] at again
    cases again
    have result := gets "tun"
    rw [restored, present, sent, off] at result
    simp only [Node.overlayOn, Option.bind_some, Node.asMapping, Option.some.injEq,
      Node.mapping.injEq] at result
    exact (holds.overlay_eq enabled).mp result.symm
  · intro restorable
    symm
    apply ((aligned_zeroInbounds full).overlay ?_).eq
    · intro key _
      rw [gets key]
      by_cases lowered : Lowered full key
      · by_cases port : key ∈ inboundPortFields
        · obtain ⟨number, present, _⟩ := lowered.number port
          rw [gathers.get_encode_port decoded port lowered, present]
          simp [Node.overlayOn]
        · obtain rfl : key = "tun" := by
            by_contra other
            exact not_lowered_of_other port other lowered
          obtain ⟨tun, present, enabled, off⟩ := lowered.struct
          obtain ⟨body, sent, holds⟩ := gathers.body decoded lowered present enabled
          have inner := (holds.overlay_eq enabled).mpr (restorable tun present enabled)
          rw [sent, present, off]
          simp [Node.overlayOn, Node.asMapping, inner]
      · rw [gathers.get_encode_other decoded lowered]
        rw [lowered_iff, not_not] at lowered
        exact lowered.symm
    · intro key member
      apply Lowered.present
      by_contra unlowered
      have absent := gathers.get_encode_other decoded unlowered
      rw [Document.mem_keys, absent] at member
      cases member

theorem classifyDocuments_bootstrap (ip : AddressText) (full : Document) :
    classifyDocuments ip (zeroInbounds full) full =
      if (diff (zeroInbounds full) full).isEmpty then .ok .noop
      else buildPatch ip full (diff (zeroInbounds full) full) := by
  have all : (diff (zeroInbounds full) full).all patchable = true := by
    rw [List.all_eq_true]
    intro entry member
    obtain ⟨_, _, _, holds⟩ := lowered_of_mem_diff member
    exact holds
  simp only [classifyDocuments, dnsListen_zeroInbounds, same_refl, Bool.not_true,
    Bool.false_eq_true, if_false, all, if_true]

/-- A document without a lowered key is its own bootstrap. -/
theorem zeroInbounds_eq_self (empty : diff (zeroInbounds full) full = []) :
    zeroInbounds full = full := by
  symm
  apply (aligned_zeroInbounds full).eq
  intro key _
  by_contra differ
  obtain ⟨entry, member, _⟩ := mem_diff_of_lowered (lowered_iff.mpr (Ne.symm differ))
  rw [empty] at member
  cases member

/-- The bootstrap of a document is restored to it if and only if an enabled TUN struct
    survives the typed body. -/
theorem bootstrap_restored (ip : AddressText) (full : Document) :
    Restores ip (zeroInbounds full) full ↔ Restorable ip full := by
  have classified := classifyDocuments_bootstrap ip full
  by_cases empty : diff (zeroInbounds full) full = []
  · have same := zeroInbounds_eq_self empty
    simp only [empty, List.isEmpty_nil, if_true] at classified
    refine iff_of_true (.inl ⟨?_, same⟩) ?_
    · simp only [restorationPatch, classified]
      rfl
    · intro tun present enabled
      obtain ⟨entry, member, _⟩ := mem_diff_of_lowered (lowered_of_enabled present enabled)
      rw [empty] at member
      cases member
  · obtain ⟨document, built⟩ := gathered full
    have gathers := gathers_of_patchDocument built
    rw [if_neg (by simpa using empty)] at classified
    simp only [buildPatch, built, gathers.flags, bind, Except.bind] at classified
    cases decoded : ConfigPatch.decode ip document with
    | none =>
        simp only [decoded] at classified
        refine iff_of_false ?_ ?_
        · rintro (⟨result, _⟩ | ⟨_, _, result, _⟩) <;>
            simp [restorationPatch, classified, bind, Except.bind, pure, Except.pure] at result
        · intro restorable
          obtain ⟨patch, read⟩ := gathers.decodes restorable
          rw [decoded] at read
          cases read
    | some patch =>
        simp only [decoded] at classified
        have result : restorationPatch ip (zeroInbounds full) full =
            .ok (some (patch, ⟨(Node.mapping patch.encode).collectLeaves []⟩)) := by
          simp only [restorationPatch, classified]
          rfl
        rw [← gathers.overlay_eq decoded, Restores, result]
        constructor
        · rintro (⟨none_, _⟩ | ⟨_, _, same, restored⟩)
          · cases none_
          · cases same
            exact restored
        · intro restored
          exact .inr ⟨patch, _, rfl, restored⟩

/-- Two documents that the scan lets through: an MTU that is no number ends the switch with
    an error, and a stack of another name comes back under the name `Unknown`. -/
theorem bootstrap_not_restored :
    (overlapBlock (tunDocument "mtu" (.string "auto")) = none ∧
      restorationPatch addressTexts (zeroInbounds (tunDocument "mtu" (.string "auto")))
        (tunDocument "mtu" (.string "auto")) = .error (.invalidConfig
          "graceful bootstrap cannot be restored losslessly with ConfigPatch") ∧
      ¬ Restores addressTexts (zeroInbounds (tunDocument "mtu" (.string "auto")))
        (tunDocument "mtu" (.string "auto"))) ∧
    overlapBlock (tunDocument "stack" (.string "lwip")) = none ∧
      ¬ Restores addressTexts (zeroInbounds (tunDocument "stack" (.string "lwip")))
        (tunDocument "stack" (.string "lwip")) := by
  constructor
  · have fails : restorationPatch addressTexts (zeroInbounds (tunDocument "mtu" (.string "auto")))
        (tunDocument "mtu" (.string "auto")) = .error (.invalidConfig
          "graceful bootstrap cannot be restored losslessly with ConfigPatch") := rfl
    refine ⟨by decide, fails, ?_⟩
    rintro (⟨result, _⟩ | ⟨_, _, result, _⟩) <;>
    · rw [fails] at result
      cases result
  · have sends : restorationPatch addressTexts (zeroInbounds (tunDocument "stack" (.string "lwip")))
        (tunDocument "stack" (.string "lwip")) =
          .ok (some (⟨[], some ⟨true, [("stack", .tunStack .unknown)]⟩, none, []⟩,
            ⟨[(["tun", "enable"], .bool true), (["tun", "stack"], .string "Unknown")]⟩)) := rfl
    refine ⟨by decide, ?_⟩
    rintro (⟨result, _⟩ | ⟨patch, projection, result, restored⟩)
    · rw [sends] at result
      cases result
    · rw [sends] at result
      cases result
      exact absurd restored (by decide +kernel)

end Mihomo

end Nyanpasu
