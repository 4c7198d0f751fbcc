import Nyanpasu.Config.Delivery

/-! # From the bootstrap document back to the full one

The zeroing pass lowers some ports and the flag of the TUN device.  The difference to
the full document names exactly those keys, each of them patchable, so whether the
restoration goes through depends on the TUN struct alone.
-/

namespace Nyanpasu

namespace Mihomo

variable {ip : AddressText} {full document : Document} {key : String} {entry : DiffEntry}

/-- A root key that the zeroing pass changes, with its two values. -/
inductive Lowered (full : Document) : String → Prop where
  | port {key : String} {number : Int} : key ∈ inboundPortFields →
      full.get key = some (.int number) → (Node.int number).asI64 = some number → number ≠ 0 →
      (zeroInbounds full).get key = some (.int 0) → Lowered full key
  | tun {tun : Document} : full.get "tun" = some (.mapping tun) →
      tun.get "enable" = some (.bool true) →
      (zeroInbounds full).get "tun" = some (.mapping (tun.insert "enable" (.bool false))) →
      Lowered full "tun"

theorem lowered_port (port : key ∈ inboundPortFields)
    (differ : (zeroInbounds full).get key ≠ full.get key) : Lowered full key := by
  have zeroes := get_zeroInbounds_port port full
  cases present : full.get key with
  | none => simp [zeroes, present] at differ
  | some value =>
      rw [present, Option.map_some] at zeroes
      rw [zeroes, present, ne_eq, Option.some.injEq] at differ
      cases number : value.asI64 with
      | none => simp [zeroed, number] at differ
      | some shown =>
          obtain rfl := eq_of_asI64 number
          by_cases zero : shown = 0
          · simp [zeroed, zero] at differ
          · refine .port port present number zero (zeroes.trans ?_)
            simp [zeroed, number, zero]

theorem lowered_tun (differ : (zeroInbounds full).get "tun" ≠ full.get "tun") :
    Lowered full "tun" := by
  have disables := get_zeroInbounds_tun full
  cases present : full.get "tun" with
  | none => simp [disables, present] at differ
  | some value =>
      rw [present, Option.map_some] at disables
      rw [disables, present, ne_eq, Option.some.injEq] at differ
      cases value with
      | mapping tun =>
          by_cases on_ : (tun.get "enable").bind Node.asBool = some true
          · obtain ⟨flag, found, isTrue⟩ := Option.bind_eq_some_iff.mp on_
            obtain rfl := eq_of_asBool isTrue
            refine .tun present found (disables.trans ?_)
            simp [disabled, Node.asMapping, on_]
          · simp [disabled, Node.asMapping, on_] at differ
      | null | bool | int | float | string | sequence =>
          simp [disabled, Node.asMapping] at differ

theorem lowered_iff : Lowered full key ↔ (zeroInbounds full).get key ≠ full.get key := by
  constructor
  · intro lowered
    cases lowered with
    | port _ present _ nonzero zero =>
        rw [present, zero]
        simp [Ne.symm nonzero]
    | @tun tun present enabled off =>
        rw [present, off]
        intro same
        simp only [Option.some.injEq, Node.mapping.injEq] at same
        have flag := Document.get_insert_self tun "enable" (.bool false)
        rw [same, enabled] at flag
        cases flag
  · intro differ
    by_cases port : key ∈ inboundPortFields
    · exact lowered_port port differ
    · by_cases isTun : key = "tun"
      · subst isTun
        exact lowered_tun differ
      · exact absurd (get_zeroInbounds_other port isTun full) differ

/-! ## The difference -/

/-- A lowered port differs as a whole. -/
theorem patchable_port {number : Int} {rest : List String} (port : key ∈ inboundPortFields)
    (path : entry.path = key :: rest)
    (differ : (Node.int 0).valueAt rest ≠ (Node.int number).valueAt rest)
    (new : entry.new = (Node.int number).valueAt rest) : patchable entry = true := by
  have plain : ∀ key ∈ inboundPortFields, key ∈ patchFields ∧ key ≠ "tun" ∧
      key ≠ "tuic-server" := by decide
  obtain ⟨known, noTun, noTuic⟩ := plain key port
  cases rest with
  | nil =>
      have sent : entry.new = some (.int number) := new
      simp [patchable, sent, path, known, patchNestedPathIsSupported, noTun, noTuic]
  | cons _ _ => exact absurd rfl differ

/-- Of a lowered TUN struct only the flag differs. -/
theorem patchable_tun {tun : Document} {rest : List String} (path : entry.path = "tun" :: rest)
    (enabled : tun.get "enable" = some (.bool true))
    (differ : (Node.mapping (tun.insert "enable" (.bool false))).valueAt rest ≠
      (Node.mapping tun).valueAt rest)
    (stops : goesOn ((Node.mapping (tun.insert "enable" (.bool false))).valueAt rest)
      ((Node.mapping tun).valueAt rest) = false)
    (new : entry.new = (Node.mapping tun).valueAt rest) : patchable entry = true := by
  cases rest with
  | nil =>
      -- the difference does not stop at a struct that has the flag
      have listed : "enable" ∈ childKeys (some (.mapping (tun.insert "enable" (.bool false))))
          (some (.mapping tun)) := by
        rw [mem_childKeys]
        exact .inr (by simp [child, Node.asMapping, enabled])
      have empty : childKeys (some (.mapping (tun.insert "enable" (.bool false))))
          (some (.mapping tun)) = [] := by
        simpa [Node.valueAt, goesOn, descends, Node.asMapping] using stops
      rw [empty] at listed
      cases listed
  | cons field more =>
      rw [valueAt_root, valueAt_root] at differ
      rw [valueAt_root] at new
      by_cases flag : field = "enable"
      · subst flag
        rw [Document.get_insert_self, enabled] at differ
        rw [enabled] at new
        cases more with
        | nil =>
            have sent : entry.new = some (.bool true) := new
            simp [patchable, sent, path, patchNestedPathIsSupported, patchFields, tunPatchFields]
        | cons _ _ => exact absurd rfl differ
      · rw [Document.get_insert_ne flag] at differ
        exact absurd rfl differ

/-- Every entry lies under a lowered key, and can be patched. -/
theorem lowered_of_mem_diff (member : entry ∈ diff (zeroInbounds full) full) :
    ∃ key, Lowered full key ∧ entry.path.head? = some key ∧ patchable entry = true := by
  obtain ⟨new, unequal, stops⟩ := diff_sound member
  have differ := ne_of_not_same unequal
  cases path : entry.path with
  | nil => exact absurd path (path_ne_nil_of_mem_diff member)
  | cons key rest =>
      rw [path, valueAt_root, valueAt_root] at differ stops
      rw [path, valueAt_root] at new
      have changed : (zeroInbounds full).get key ≠ full.get key := by
        intro same
        rw [same] at differ
        exact differ rfl
      have lowered := lowered_iff.mpr changed
      refine ⟨key, lowered, rfl, ?_⟩
      cases lowered with
      | port port present _ _ zero =>
          rw [zero, present] at differ
          rw [present] at new
          exact patchable_port port path differ new
      | tun present enabled off =>
          rw [off, present] at differ stops
          rw [present] at new
          exact patchable_tun path enabled differ stops new

/-- Every lowered key is found. -/
theorem mem_diff_of_lowered (lowered : Lowered full key) :
    ∃ entry ∈ diff (zeroInbounds full) full, entry.path.head? = some key := by
  have both : descends (some (.mapping (zeroInbounds full))) (some (.mapping full)) = true := rfl
  have gets : ∀ doc : Document, child (some (.mapping doc)) key = doc.get key := fun _ => rfl
  cases lowered with
  | @port key number _ present _ nonzero zero =>
      have differ : same (some (.int 0)) (some (.int number)) = false := by
        simp [same, Node.eqv, Ne.symm nonzero]
      refine ⟨⟨[key], some (.int number)⟩, mem_diffValue_child key both ?_ ?_, rfl⟩
      · rw [gets, gets, zero, present]
        exact differ
      · rw [gets, gets, zero, present]
        exact mem_diffValue_stops differ rfl
  | @tun tun present enabled off =>
      have deep := Document.depth_get present
      have fuel : max (zeroInbounds full).depth full.depth =
          max (zeroInbounds full).depth full.depth - 1 + 1 := by
        simp only [Node.depth] at deep
        omega
      have flags : child (some (.mapping (tun.insert "enable" (.bool false)))) "enable" =
          some (.bool false) := Document.get_insert_self _ _ _
      have flags' : child (some (.mapping tun)) "enable" = some (.bool true) := enabled
      have differ : same (child (some (.mapping (tun.insert "enable" (.bool false)))) "enable")
          (child (some (.mapping tun)) "enable") = false := by
        rw [flags, flags']
        rfl
      refine ⟨⟨["tun", "enable"], some (.bool true)⟩, mem_diffValue_child "tun" both ?_ ?_, rfl⟩
      · rw [gets, gets, off, present]
        exact not_same_of_child differ
      · rw [gets, gets, off, present, fuel]
        apply mem_diffValue_child "enable" rfl differ
        rw [flags, flags']
        exact mem_diffValue_stops rfl rfl

theorem mem_roots : key ∈ keySet ((diff (zeroInbounds full) full).filterMap (·.path.head?)) ↔
    Lowered full key := by
  rw [mem_keySet, List.mem_filterMap]
  constructor
  · rintro ⟨entry, member, head⟩
    obtain ⟨_, lowered, same, _⟩ := lowered_of_mem_diff member
    rw [head, Option.some.injEq] at same
    rwa [same]
  · exact mem_diff_of_lowered

end Mihomo

end Nyanpasu
