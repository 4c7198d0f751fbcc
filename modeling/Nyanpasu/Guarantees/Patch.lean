import Nyanpasu.Config.Delivery

/-! # What a patch delivers

A changed value reaches the core unless its field drops it (a null) or renames it (a
TUN stack of a name the enumeration does not have).
-/

namespace Nyanpasu

namespace Mihomo

variable {ip : AddressText} {current desired : Document} {patch : ConfigPatch ip}
  {projection : RuntimeProjection}

/-- A value that is sent stands for a desired one: it is that value, or both are read as
    the same list of prefixes or addresses. -/
def Denotes (ip : AddressText) (path : List String) (sent wanted : Node) : Prop :=
  sent = wanted ∨ ∃ type, typeAt path = some type ∧ (type = .nets ∨ type = .addrs) ∧
    ∃ field, Field.decode ip type sent = some field ∧ Field.decode ip type wanted = some field

/-- A change arrives: the body has its path with the desired value, and the projection
    demands every leaf of that value. -/
def Delivered (patch : ConfigPatch ip) (projection : RuntimeProjection) (entry : DiffEntry) :
    Prop :=
  ∃ wanted, entry.new = some wanted ∧
    (∃ sent, (Node.mapping patch.encode).valueAt entry.path = some sent ∧
      Denotes ip entry.path sent wanted) ∧
    ∀ leaf ∈ wanted.collectLeaves entry.path,
      ∃ shown, (leaf.1, shown) ∈ projection.expected ∧ Denotes ip leaf.1 shown leaf.2

def knownStack : Node → Bool
  | .string text => ["gVisor", "system", "mixed", "Unknown"].contains text
  | _ => false

/-- A change that its field loses. -/
def lossy (entry : DiffEntry) : Bool :=
  entry.new = some .null || entry.path = ["tun", "stack"] && !entry.new.any knownStack

variable {key : String} {path : List String}

/-! ## Values below a field -/

theorem mapping_of_valueAt {node value : Node} (found : node.valueAt (key :: path) = some value)
    : ∃ entries, node = .mapping entries := by
  cases node with
  | mapping entries => exact ⟨entries, rfl⟩
  | null | bool | int | float | string | sequence => cases found

variable {type : FieldType}

/-- The only fields that take a mapping are those that take a map of texts. -/
theorem stringMap_of_mapping {entries : Document} {field : Field ip}
    (decoded : Field.decode ip type (.mapping entries) = some field) : type = .stringMap := by
  cases type <;> simp_all [Field.decode, Node.asI64, Node.asU32, Node.asBool, Node.asStr,
    Node.asItems]

theorem stack_path (typed : typeAt path = some .tunStack) : path = ["tun", "stack"] := by
  have scalars : ∀ entry ∈ scalarSchema, entry.2 ≠ .tunStack := by decide
  have tuns : ∀ entry ∈ ("enable", FieldType.bool) :: tunPatchSchema,
      entry.2 = .tunStack → entry.1 = "stack" := by decide
  have tuics : ∀ entry ∈ ("enable", FieldType.bool) :: tuicServerPatchSchema,
      entry.2 ≠ .tunStack := by decide
  match path with
  | [] => cases typed
  | [root] => exact absurd rfl (scalars _ (Schema.mem_of_lookup typed))
  | [root, field] =>
      simp only [typeAt] at typed
      split at typed
      case isTrue isTun =>
        have isStack : field = "stack" := tuns _ (Schema.mem_of_lookup typed) rfl
        rw [isTun, isStack]
      case isFalse =>
        split at typed
        case isTrue => exact absurd rfl (tuics _ (Schema.mem_of_lookup typed))
        case isFalse => cases typed
  | _ :: _ :: _ :: _ => cases typed

/-- A stack is sent under the name it has exactly where the name is known. -/
theorem stack_name (text : String) :
    (TunStack.ofName text).name = text ↔ text ∈ ["gVisor", "system", "mixed", "Unknown"] := by
  constructor
  · intro same
    rw [← same]
    cases TunStack.ofName text <;> decide
  · intro known
    simp only [List.mem_cons, List.not_mem_nil, or_false] at known
    rcases known with rfl | rfl | rfl | rfl <;> decide

/-- Below a map of texts there are only texts. -/
theorem text_below_stringMap {entries : List (String × String)} {value : Node}
    (found : (Node.mapping (.ofList (entries.map fun entry => (entry.1, .string entry.2)))).valueAt (key :: path) = some value)
    : value ≠ .null := by
  obtain ⟨child, present, found⟩ := Option.bind_eq_some_iff.mp found
  simp only [Node.asMapping, Option.bind_some, Document.get_ofList] at present
  obtain ⟨before, after, split, _⟩ := List.lookup_eq_some_iff.mp present
  have member : (key, child) ∈ entries.map fun entry => (entry.1, Node.string entry.2) := by
    simp [split]
  obtain ⟨entry, _, same⟩ := List.mem_map.mp member
  cases same
  cases path with
  | nil =>
      cases found
      simp
  | cons _ _ => cases found

/-! ## One change -/

variable {entry : DiffEntry} {sent wanted : Node}

/-- A value sent as it is wanted is demanded leaf by leaf. -/
theorem delivered_of_same
    (expected : projection.expected = (Node.mapping patch.encode).collectLeaves [])
    (new : entry.new = some wanted)
    (sends : (Node.mapping patch.encode).valueAt entry.path = some wanted) :
    Delivered patch projection entry := by
  refine ⟨wanted, new, ⟨wanted, sends, .inl rfl⟩, ?_⟩
  intro leaf member
  refine ⟨leaf.2, ?_, .inl rfl⟩
  rw [expected]
  exact Node.collectLeaves_valueAt sends [] member

/-- A list of addresses is one leaf, in whatever text. -/
theorem delivered_of_addresses {field : Field ip}
    (expected : projection.expected = (Node.mapping patch.encode).collectLeaves [])
    (new : entry.new = some wanted) (typed : typeAt entry.path = some type)
    (address : type = .nets ∨ type = .addrs) (decoded : Field.decode ip type wanted = some field)
    (sends : (Node.mapping patch.encode).valueAt entry.path = some field.encode) :
    Delivered patch projection entry := by
  have denotes : Denotes ip entry.path field.encode wanted :=
    .inr ⟨type, typed, address, field, Field.decode_encode address decoded, decoded⟩
  have flat : ∀ value, Field.decode ip type value = some field →
      value.collectLeaves entry.path = [(entry.path, value)] := by
    intro value read
    rcases address with rfl | rfl <;> cases value <;>
      simp_all [Field.decode, Node.asItems, Node.collectLeaves]
  refine ⟨wanted, new, ⟨field.encode, sends, denotes⟩, ?_⟩
  intro leaf member
  rw [flat wanted decoded, List.mem_singleton] at member
  subst member
  refine ⟨field.encode, ?_, denotes⟩
  rw [expected]
  apply Node.collectLeaves_valueAt sends []
  rw [List.nil_append, flat _ (Field.decode_encode address decoded)]
  exact List.mem_singleton_self _

theorem lossy_of_other (new : entry.new = some wanted) (filled : wanted ≠ .null)
    (elsewhere : entry.path ≠ ["tun", "stack"]) : lossy entry = false := by
  simp [lossy, new, filled, elsewhere]

section

variable (expected : projection.expected = (Node.mapping patch.encode).collectLeaves [])
  (new : entry.new = some wanted)

include expected new

/-- The change is at a field: it arrives unless the field drops or renames it. -/
theorem delivered_at_field (typed : typeAt entry.path = some type)
    (sends : Sends ip type (some wanted) ((Node.mapping patch.encode).valueAt entry.path)) :
    Delivered patch projection entry ↔ lossy entry = false := by
  generalize gets : (Node.mapping patch.encode).valueAt entry.path = body at sends
  cases sends with
  | null =>
      have lost : lossy entry = true := by simp [lossy, new]
      rw [lost]
      constructor
      · rintro ⟨_, _, ⟨sent, found, _⟩, _⟩
        rw [gets] at found
        cases found
      · intro absurd
        cases absurd
  | @sends _ field filled decoded =>
      by_cases isStack : type = .tunStack
      · subst isStack
        obtain ⟨text, rfl, encoded⟩ := Field.encode_stack decoded
        have lost : lossy entry = false ↔ (TunStack.ofName text).name = text := by
          have named : lossy entry = !knownStack (.string text) := by
            simp [lossy, new, stack_path typed]
          rw [stack_name, named, Bool.not_eq_false', knownStack, List.contains_iff_mem]
        rw [lost]
        constructor
        · rintro ⟨wanted, same, ⟨sent, found, denotes⟩, _⟩
          rw [gets, encoded] at found
          rw [new] at same
          cases found
          cases same
          rcases denotes with equal | ⟨other, again, address, _⟩
          · exact Node.string.inj equal
          · -- a stack is no list of addresses
            rw [typed] at again
            cases again
            simp at address
        · intro known
          rw [encoded, known] at gets
          exact delivered_of_same expected new gets
      · have elsewhere : entry.path ≠ ["tun", "stack"] := by
          intro here
          rw [here] at typed
          exact isStack (Option.some.inj typed).symm
        rw [lossy_of_other new filled elsewhere]
        refine iff_of_true ?_ rfl
        by_cases address : type = .nets ∨ type = .addrs
        · exact delivered_of_addresses expected new typed address decoded gets
        · have verbatim : type.verbatim = true := by
            cases type <;> simp_all [FieldType.verbatim]
          rw [Field.encode_eq verbatim decoded] at gets
          exact delivered_of_same expected new gets

/-- The change is below a field, which is then a map of texts and sent as it is. -/
theorem delivered_below_field {front rest : List String} (path : entry.path = front ++ key :: rest)
    (typed : typeAt front = some type)
    (found : (Node.mapping desired).valueAt entry.path = some wanted)
    (sends : Sends ip type ((Node.mapping desired).valueAt front) ((Node.mapping patch.encode).valueAt front)) :
    Delivered patch projection entry ↔ lossy entry = false := by
  rw [path, Node.valueAt_append] at found
  obtain ⟨value, here, found⟩ := Option.bind_eq_some_iff.mp found
  obtain ⟨entries, rfl⟩ := mapping_of_valueAt found
  rw [here] at sends
  generalize gets : (Node.mapping patch.encode).valueAt front = body at sends
  cases sends with
  | @sends _ field _ decoded =>
      obtain rfl := stringMap_of_mapping decoded
      rw [Field.encode_eq rfl decoded] at gets
      have arrives : (Node.mapping patch.encode).valueAt entry.path = some wanted := by
        rw [path, Node.valueAt_append, gets]
        exact found
      have filled : wanted ≠ .null := by
        obtain ⟨texts, read, _⟩ := Option.map_eq_some_iff.mp decoded
        rw [eq_of_asStringMap read] at found
        exact text_below_stringMap found
      have elsewhere : entry.path ≠ ["tun", "stack"] := by
        rw [path]
        intro same
        match front, typed with
        | [root], typed =>
            obtain rfl : root = "tun" := (List.cons.inj same).1
            cases typed
        | [_, _], _ => simp at same
      rw [lossy_of_other new filled elsewhere]
      exact iff_of_true (delivered_of_same expected new arrives) rfl

end

theorem delivered_iff
    (classified : classifyDocuments ip current desired = .ok (.patch patch projection))
    (member : entry ∈ diff current desired) :
    Delivered patch projection entry ↔ lossy entry = false := by
  obtain ⟨all, built⟩ := classifyDocuments_eq_patch classified
  obtain ⟨_, _, _, _, expected⟩ := buildPatch_eq_patch built
  obtain ⟨same, _, _⟩ := diff_sound member
  have present : entry.new.isSome = true := by
    have holds := all entry member
    simp only [patchable, Bool.and_eq_true] at holds
    exact holds.1
  obtain ⟨wanted, new⟩ := Option.isSome_iff_exists.mp present
  have found := same.symm.trans new
  obtain ⟨front, rest, type, path, typed, sends⟩ := carried classified member
  cases rest with
  | nil =>
      rw [List.append_nil] at path
      rw [← path] at typed sends
      rw [found] at sends
      exact delivered_at_field expected new typed sends
  | cons key rest => exact delivered_below_field expected new path typed found sends

/-! ## Every change -/

/-- A patch delivers every change of the desired document if and only if none of them is
    a null or an unknown TUN stack. -/
theorem patch_delivers (ip : AddressText) (current desired : Document) (patch : ConfigPatch ip)
    (projection : RuntimeProjection)
    (classified : classifyDocuments ip current desired = .ok (.patch patch projection)) :
    (∀ entry ∈ diff current desired, Delivered patch projection entry) ↔
      ∀ entry ∈ diff current desired, lossy entry = false :=
  forall₂_congr fun _ member => delivered_iff classified member

theorem patch_delivers_mtu :
    ∃ patch projection, classifyDocuments addressTexts (tunDocument "mtu" (.int 1400))
        (tunDocument "mtu" (.int 1500)) = .ok (.patch patch projection) ∧
      ∀ entry ∈ diff (tunDocument "mtu" (.int 1400)) (tunDocument "mtu" (.int 1500)),
        Delivered patch projection entry :=
  ⟨⟨[], some ⟨true, [("mtu", .int 1500)]⟩, none, []⟩,
    ⟨[(["tun", "enable"], .bool true), (["tun", "mtu"], .int 1500)]⟩, rfl,
    (patch_delivers addressTexts _ _ _ _ rfl).mpr (by decide +kernel)⟩

/-- An MTU that is taken back, and a stack of another name, are classified as patches
    that do not deliver them. -/
theorem patch_loses :
    (∃ patch projection, classifyDocuments addressTexts (tunDocument "mtu" (.int 1400))
        (tunDocument "mtu" .null) = .ok (.patch patch projection) ∧
      ∃ entry ∈ diff (tunDocument "mtu" (.int 1400)) (tunDocument "mtu" .null),
        ¬ Delivered patch projection entry) ∧
    ∃ patch projection, classifyDocuments addressTexts (tunDocument "stack" (.string "system"))
        (tunDocument "stack" (.string "lwip")) = .ok (.patch patch projection) ∧
      ∃ entry ∈ diff (tunDocument "stack" (.string "system"))
        (tunDocument "stack" (.string "lwip")), ¬ Delivered patch projection entry := by
  have loses : ∀ {current desired : Document} {patch : ConfigPatch addressTexts}
      {projection : RuntimeProjection} {entry : DiffEntry},
      classifyDocuments addressTexts current desired = .ok (.patch patch projection) →
      entry ∈ diff current desired → lossy entry = true → ¬ Delivered patch projection entry := by
    intro current desired patch projection entry classified member lost delivered
    rw [(delivered_iff classified member).mp delivered] at lost
    cases lost
  constructor
  · have classified : classifyDocuments addressTexts (tunDocument "mtu" (.int 1400))
        (tunDocument "mtu" .null) = .ok (.patch ⟨[], some ⟨true, []⟩, none, []⟩
          ⟨[(["tun", "enable"], .bool true)]⟩) := rfl
    have member : ⟨["tun", "mtu"], some .null⟩ ∈
        diff (tunDocument "mtu" (.int 1400)) (tunDocument "mtu" .null) := by decide +kernel
    exact ⟨_, _, classified, _, member, loses classified member (by decide)⟩
  · have classified : classifyDocuments addressTexts (tunDocument "stack" (.string "system"))
        (tunDocument "stack" (.string "lwip")) =
          .ok (.patch ⟨[], some ⟨true, [("stack", .tunStack .unknown)]⟩, none, []⟩
            ⟨[(["tun", "enable"], .bool true), (["tun", "stack"], .string "Unknown")]⟩) := rfl
    have member : ⟨["tun", "stack"], some (.string "lwip")⟩ ∈
        diff (tunDocument "stack" (.string "system")) (tunDocument "stack" (.string "lwip")) := by
      decide +kernel
    exact ⟨_, _, classified, _, member, loses classified member (by decide)⟩

end Mihomo

end Nyanpasu
