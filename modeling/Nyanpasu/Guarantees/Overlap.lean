import Nyanpasu.Config.Mihomo

/-! # A bootstrap document without inbounds

What the scan of `overlap_block` and the zeroing pass give together.  Every check of the
scan pays for one clause of `Quiet`; a DNS listener that is null or empty ends the scan
before any of them.
-/

namespace Nyanpasu

namespace Mihomo

variable {doc : Document} {key : String}

/-- No inbound of the document is active.  A value of a shape that the scan does not
    know counts as active. -/
structure Quiet (doc : Document) : Prop where
  ports : ∀ key ∈ inboundPortFields, doc.get key = none ∨ doc.get key = some (.int 0)
  tun : doc.get "tun" = none ∨ ∃ tun, doc.get "tun" = some (.mapping tun) ∧
    (tun.get "enable" = none ∨ tun.get "enable" = some (.bool false))
  tuic : doc.get "tuic-server" = none ∨ ∃ tuic, doc.get "tuic-server" = some (.mapping tuic) ∧
    (tuic = .nil ∨ tuic.get "enable" = some (.bool false))
  configs : ∀ key ∈ ["ss-config", "vmess-config", "tcptun-config", "udptun-config"],
    doc.get key = none ∨ doc.get key = some (.string "")
  collections : ∀ key ∈ ["listeners", "tunnels"],
    doc.get key = none ∨ doc.get key = some .null ∨ doc.get key = some (.string "") ∨
      doc.get key = some (.sequence .nil) ∨ doc.get key = some (.mapping .nil)
  names : ∀ key ∈ doc.keys, unknownInbound key = false
  dns : dnsListen doc = none ∨ dnsListen doc = some .null ∨ dnsListen doc = some (.string "")

/-! ## One clause for each check -/

theorem zeroed_eq_zero {value : Node} : zeroed value = .int 0 ↔ value.asI64.isNone = false := by
  cases number : value.asI64 with
  | none =>
      have other : value ≠ .int 0 := by
        rintro rfl
        exact absurd number (by decide)
      simp [zeroed, number, other]
  | some shown =>
      by_cases zero : shown = 0
      · have same : value = .int 0 := by rw [eq_of_asI64 number, zero]
        simp [same, zeroed, Node.asI64]
      · simp [zeroed, number, zero]

theorem port_quiet (port : key ∈ inboundPortFields) :
    ((zeroInbounds doc).get key = none ∨ (zeroInbounds doc).get key = some (.int 0)) ↔
      portBlocks doc key = false := by
  rw [get_zeroInbounds_port port, portBlocks]
  cases doc.get key with
  | none => simp
  | some value => simpa using zeroed_eq_zero

theorem disabled_mapping (tun : Document) :
    disabled (.mapping tun) =
      if (tun.get "enable").bind Node.asBool = some true then
        .mapping (tun.insert "enable" (.bool false))
      else .mapping tun := rfl

theorem tun_quiet :
    ((zeroInbounds doc).get "tun" = none ∨
      ∃ tun, (zeroInbounds doc).get "tun" = some (.mapping tun) ∧
        (tun.get "enable" = none ∨ tun.get "enable" = some (.bool false))) ↔
      tunBlocks doc = false := by
  rw [get_zeroInbounds_tun, tunBlocks]
  cases doc.get "tun" with
  | none => simp
  | some value =>
      cases value with
      | mapping tun =>
          rw [Option.map_some, disabled_mapping]
          cases enable : tun.get "enable" with
          | none => simp [Node.asMapping, enable]
          | some flag =>
              cases flag with
              | bool on => cases on <;> simp [Node.asMapping, Node.asBool, enable]
              | null | int | float | string | sequence | mapping =>
                  simp [Node.asMapping, Node.asBool, enable]
      | null | bool | int | float | string | sequence => simp [disabled, Node.asMapping]

theorem tuic_quiet :
    ((zeroInbounds doc).get "tuic-server" = none ∨
      ∃ tuic, (zeroInbounds doc).get "tuic-server" = some (.mapping tuic) ∧
        (tuic = .nil ∨ tuic.get "enable" = some (.bool false))) ↔ tuicBlocks doc = false := by
  rw [get_zeroInbounds_other (by decide) (by decide), tuicBlocks]
  cases doc.get "tuic-server" with
  | none => simp
  | some value =>
      cases value with
      | mapping tuic =>
          cases enable : tuic.get "enable" with
          | none =>
              cases tuic with
              | nil => simp [Node.asMapping, Document.get, Document.isEmpty]
              | cons key value rest => simp [Node.asMapping, enable, Document.isEmpty]
          | some flag =>
              have filled : tuic ≠ .nil := by
                rintro rfl
                cases enable
              cases flag <;> simp [Node.asMapping, Node.asBool, enable, filled]
      | null | bool | int | float | string | sequence => simp [Node.asMapping]

theorem get_zeroInbounds_outside (outside : key ∉ "tun" :: inboundPortFields) :
    (zeroInbounds doc).get key = doc.get key := by
  rw [List.mem_cons, not_or] at outside
  exact get_zeroInbounds_other outside.2 outside.1 doc

theorem config_quiet (outside : key ∉ "tun" :: inboundPortFields) :
    ((zeroInbounds doc).get key = none ∨ (zeroInbounds doc).get key = some (.string "")) ↔
      configBlocks doc key = false := by
  rw [get_zeroInbounds_outside outside, configBlocks]
  cases doc.get key with
  | none => simp
  | some value => cases value <;> simp [Node.asStr]

theorem collection_quiet (outside : key ∉ "tun" :: inboundPortFields) :
    ((zeroInbounds doc).get key = none ∨ (zeroInbounds doc).get key = some .null ∨
      (zeroInbounds doc).get key = some (.string "") ∨
      (zeroInbounds doc).get key = some (.sequence .nil) ∨
      (zeroInbounds doc).get key = some (.mapping .nil)) ↔ collectionBlocks doc key = false := by
  rw [get_zeroInbounds_outside outside, collectionBlocks]
  cases doc.get key with
  | none => simp
  | some value =>
      cases value with
      | sequence items => cases items <;> simp [nonemptyCollection, Nodes.toList]
      | mapping entries => cases entries <;> simp [nonemptyCollection, Document.isEmpty]
      | null | bool | int | float | string => simp [nonemptyCollection]

theorem surfaceBlocks_eq_false : surfaceBlocks doc = false ↔
    (∀ key ∈ inboundPortFields, portBlocks doc key = false) ∧ tunBlocks doc = false ∧
      tuicBlocks doc = false ∧
      (∀ key ∈ ["ss-config", "vmess-config", "tcptun-config", "udptun-config"],
        configBlocks doc key = false) ∧
      (∀ key ∈ ["listeners", "tunnels"], collectionBlocks doc key = false) ∧
      ∀ key ∈ doc.keys, unknownInbound key = false := by
  simp only [surfaceBlocks, Bool.or_eq_false_iff, List.any_eq_false, Bool.not_eq_true, and_assoc]

/-- The zeroing pass makes a document quiet exactly where every check passes. -/
theorem quiet_zeroInbounds (doc : Document) :
    Quiet (zeroInbounds doc) ↔ surfaceBlocks doc = false ∧
      (dnsListen doc = none ∨ dnsListen doc = some .null ∨ dnsListen doc = some (.string "")) := by
  have configs : ∀ key ∈ ["ss-config", "vmess-config", "tcptun-config", "udptun-config"],
      key ∉ "tun" :: inboundPortFields := by decide
  have collections : ∀ key ∈ ["listeners", "tunnels"], key ∉ "tun" :: inboundPortFields := by
    decide
  rw [surfaceBlocks_eq_false, ← dnsListen_zeroInbounds doc, ← keys_zeroInbounds doc]
  constructor
  · intro quiet
    refine ⟨⟨?_, tun_quiet.mp quiet.tun, tuic_quiet.mp quiet.tuic, ?_, ?_, quiet.names⟩, quiet.dns⟩
    · intro key port
      exact (port_quiet port).mp (quiet.ports key port)
    · intro key member
      exact (config_quiet (configs key member)).mp (quiet.configs key member)
    · intro key member
      exact (collection_quiet (collections key member)).mp (quiet.collections key member)
  · rintro ⟨⟨portsPass, tunPasses, tuicPasses, configsPass, collectionsPass, names⟩, dns⟩
    refine ⟨?_, tun_quiet.mpr tunPasses, tuic_quiet.mpr tuicPasses, ?_, ?_, names, dns⟩
    · intro key port
      exact (port_quiet port).mpr (portsPass key port)
    · intro key member
      exact (config_quiet (configs key member)).mpr (configsPass key member)
    · intro key member
      exact (collection_quiet (collections key member)).mpr (collectionsPass key member)

/-! ## The scan -/

/-- A scan that finds nothing saw a silent DNS listener, or none and passed every check. -/
theorem overlapBlock_eq_none (eligible : overlapBlock doc = none) :
    dnsListen doc = none ∧ surfaceBlocks doc = false ∨ dnsListen doc = some .null ∨
      dnsListen doc = some (.string "") := by
  unfold overlapBlock at eligible
  cases listen : dnsListen doc with
  | none => simpa [listen] using eligible
  | some value => cases value <;> simp_all [Node.asStr, Node.isNull]

/-- Where the scan lets a document through, its bootstrap is quiet if and only if no DNS
    listener cut the scan short, or the checks it skipped would have passed. -/
theorem overlap_sound (doc : Document) (eligible : overlapBlock doc = none) :
    Quiet (zeroInbounds doc) ↔ dnsListen doc = none ∨ surfaceBlocks doc = false := by
  rw [quiet_zeroInbounds]
  rcases overlapBlock_eq_none eligible with ⟨absent, passes⟩ | null | empty
  · simp [absent, passes]
  · simp [null]
  · simp [empty]

theorem overlap_sound_ports :
    Quiet (zeroInbounds (.cons "mixed-port" (.int 7890)
      (.cons "tun" (.mapping (.cons "enable" (.bool true) .nil)) .nil))) :=
  (overlap_sound _ (by decide)).mpr (.inl (by decide))

/-- An empty DNS listener lets a document with a listener of its own through. -/
theorem overlap_unsound :
    ∃ doc, overlapBlock doc = none ∧ ¬ Quiet (zeroInbounds doc) := by
  refine ⟨.cons "dns" (.mapping (.cons "listen" (.string "") .nil))
    (.cons "listeners" (.sequence (.cons (.mapping (.cons "name" (.string "inbound") .nil)) .nil))
      .nil), by decide, ?_⟩
  intro quiet
  rcases quiet.collections "listeners" (by decide) with clause | clause | clause | clause | clause
  all_goals exact absurd clause (by decide)

end Mihomo

end Nyanpasu
