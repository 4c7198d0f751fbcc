import Nyanpasu.Config.Canonical

/-! # Canonicalisation is a normal form

Two accepted values have one result exactly where they are the same tree, whatever the
order of their keys, so the hashed bytes identify documents up to that order.
-/

namespace Nyanpasu

/-- A value of the library. -/
structure Yaml where
  value : Value
  distinct : value.Distinct

/-! ## What is refused -/

/-- Something that occurs in a value, itself included. -/
inductive Part : Value → Value → Prop where
  | self (value : Value) : Part value value
  | item {items : List Value} {item part : Value} : item ∈ items → Part item part →
      Part (.sequence items) part
  | key {entries : List (Value × Value)} {entry : Value × Value} {part : Value} :
      entry ∈ entries → Part entry.1 part → Part (.mapping entries) part
  | value {entries : List (Value × Value)} {entry : Value × Value} {part : Value} :
      entry ∈ entries → Part entry.2 part → Part (.mapping entries) part
  | inner {tag : String} {value part : Value} : Part value part → Part (.tagged tag value) part

def HasOtherKey (value : Value) : Prop :=
  ∃ entries entry, Part value (.mapping entries) ∧ entry ∈ entries ∧
    ∀ key : String, entry.1 ≠ .string key

def HasTag (value : Value) : Prop := ∃ tag inner, Part value (.tagged tag inner)

/-- String keys and no tags, all the way down. -/
inductive Acceptable : Value → Prop where
  | null : Acceptable .null
  | bool (value : Bool) : Acceptable (.bool value)
  | number (value : Number) : Acceptable (.number value)
  | string (value : String) : Acceptable (.string value)
  | sequence {items : List Value} : (∀ item ∈ items, Acceptable item) → Acceptable (.sequence items)
  | mapping {entries : List (Value × Value)} : (∀ entry ∈ entries, ∃ key, entry.1 = .string key) →
      (∀ entry ∈ entries, Acceptable entry.2) → Acceptable (.mapping entries)

theorem acceptable_sequence_iff {items : List Value} :
    Acceptable (.sequence items) ↔ ∀ item ∈ items, Acceptable item :=
  ⟨fun | .sequence all => all, .sequence⟩

variable {entries : List (Value × Value)}

theorem acceptable_mapping_iff :
    Acceptable (.mapping entries) ↔
      ∀ entry ∈ entries, (∃ key, entry.1 = .string key) ∧ Acceptable entry.2 := by
  constructor
  · rintro ⟨⟩ entry member
    rename_i keys all
    exact ⟨keys entry member, all entry member⟩
  · intro all
    exact .mapping (fun entry member => (all entry member).1)
      fun entry member => (all entry member).2

theorem Acceptable.part {value part : Value} (acceptable : Acceptable value)
    (isPart : Part value part) : Acceptable part := by
  induction isPart with
  | self => exact acceptable
  | item member _ ih =>
      cases acceptable with
      | sequence all => exact ih (all _ member)
  | key member _ ih =>
      cases acceptable with
      | mapping keys _ =>
          obtain ⟨key, isKey⟩ := keys _ member
          exact ih (isKey ▸ .string key)
  | value member _ ih =>
      cases acceptable with
      | mapping _ all => exact ih (all _ member)
  | inner => cases acceptable

theorem acceptable_iff {value : Value} (distinct : value.Distinct) :
    Acceptable value ↔ ¬ HasOtherKey value ∧ ¬ HasTag value := by
  constructor
  · refine fun acceptable => ⟨?_, ?_⟩
    · rintro ⟨entries, entry, isPart, member, other⟩
      cases acceptable.part isPart with
      | mapping keys _ =>
          obtain ⟨key, isKey⟩ := keys entry member
          exact other key isKey
    · rintro ⟨tag, inner, isPart⟩
      cases acceptable.part isPart
  · rintro ⟨noKey, noTag⟩
    induction distinct with
    | null => exact .null
    | bool => exact .bool _
    | number => exact .number _
    | string => exact .string _
    | tagged => exact absurd ⟨_, _, .self _⟩ noTag
    | sequence _ ih =>
        refine .sequence fun item member => ih item member ?_ ?_
        · exact fun ⟨entries, entry, isPart, rest⟩ =>
            noKey ⟨entries, entry, .item member isPart, rest⟩
        · exact fun ⟨tag, inner, isPart⟩ => noTag ⟨tag, inner, .item member isPart⟩
    | @mapping entries _ _ ih =>
        refine .mapping (fun entry member => ?_) fun entry member => ih entry member ?_ ?_
        · by_contra other
          exact noKey ⟨entries, entry, .self _, member, fun key isKey => other ⟨key, isKey⟩⟩
        · exact fun ⟨entries, entry, isPart, rest⟩ =>
            noKey ⟨entries, entry, .value member isPart, rest⟩
        · exact fun ⟨tag, inner, isPart⟩ => noTag ⟨tag, inner, .value member isPart⟩

theorem exists_forall₂ {α β : Type} {R : α → β → Prop} {l : List α} (all : ∀ a ∈ l, ∃ b, R a b) :
    ∃ l', List.Forall₂ R l l' := by
  induction l with
  | nil => exact ⟨[], .nil⟩
  | cons a rest ih =>
      obtain ⟨b, first⟩ := all a List.mem_cons_self
      obtain ⟨l', others⟩ := ih fun a member => all a (List.mem_cons_of_mem _ member)
      exact ⟨b :: l', .cons first others⟩

theorem accepted_iff {value : Value} (distinct : value.Distinct) :
    (∃ result, canonicalize value = .ok result) ↔ Acceptable value := by
  induction distinct with
  | null => exact ⟨fun _ => .null, fun _ => ⟨_, rfl⟩⟩
  | bool => exact ⟨fun _ => .bool _, fun _ => ⟨_, rfl⟩⟩
  | number => exact ⟨fun _ => .number _, fun _ => ⟨_, rfl⟩⟩
  | string => exact ⟨fun _ => .string _, fun _ => ⟨_, rfl⟩⟩
  | tagged =>
      constructor
      · rintro ⟨_, done⟩
        cases done
      · rintro ⟨⟩
  | @sequence items _ ih =>
      constructor
      · rintro ⟨result, done⟩
        simp only [canonicalize, bind_eq_ok, canonicalizeItems_eq_ok] at done
        obtain ⟨results, related, _⟩ := done
        refine .sequence fun item member => (ih item member).mp ?_
        obtain ⟨result, _, done⟩ := mem_of_forall₂_left related member
        exact ⟨result, done⟩
      · intro acceptable
        cases acceptable with
        | sequence all =>
        obtain ⟨results, related⟩ := exists_forall₂ fun item member =>
          (ih item member).mpr (all item member)
        refine ⟨.sequence results, ?_⟩
        rw [canonicalize, canonicalizeItems_eq_ok.mpr related]
        rfl
  | @mapping entries keys _ ih =>
      simp only [canonicalize_mapping keys]
      constructor
      · rintro ⟨_, results, keeps, _⟩
        refine .mapping (fun entry member => ?_) fun entry member => (ih entry member).mp ?_
        · obtain ⟨result, _, keep⟩ := mem_of_forall₂_left keeps member
          exact ⟨_, keep.1⟩
        · obtain ⟨result, _, keep⟩ := mem_of_forall₂_left keeps member
          exact ⟨_, keep.2⟩
      · intro acceptable
        cases acceptable with
        | mapping keys all =>
        have kept : ∀ entry ∈ entries, ∃ result, Becomes entry result := by
          intro entry member
          obtain ⟨key, isKey⟩ := keys entry member
          obtain ⟨value, done⟩ := (ih entry member).mpr (all entry member)
          exact ⟨(key, value), isKey, done⟩
        obtain ⟨results, keeps⟩ := exists_forall₂ kept
        exact ⟨_, results, keeps, rfl⟩

/-! ## Reordering -/

/-- The entries of mappings put in another order, at any depth. -/
inductive Reordered : Value → Value → Prop where
  | refl (value : Value) : Reordered value value
  | trans {value value' value'' : Value} : Reordered value value' → Reordered value' value'' →
      Reordered value value''
  | entries {entries entries' : List (Value × Value)} : entries.Perm entries' →
      Reordered (.mapping entries) (.mapping entries')
  | value {value value' : Value} (front back : List (Value × Value)) (key : Value) :
      Reordered value value' →
      Reordered (.mapping (front ++ (key, value) :: back))
        (.mapping (front ++ (key, value') :: back))
  | item {item item' : Value} (front back : List Value) : Reordered item item' →
      Reordered (.sequence (front ++ item :: back)) (.sequence (front ++ item' :: back))
  | tagged {value value' : Value} (tag : String) : Reordered value value' →
      Reordered (.tagged tag value) (.tagged tag value')

theorem distinct_sequence_iff {items : List Value} :
    Value.Distinct (.sequence items) ↔ ∀ item ∈ items, item.Distinct :=
  ⟨fun | .sequence all => all, .sequence⟩

theorem distinct_mapping_iff :
    Value.Distinct (.mapping entries) ↔
      (entries.map (·.1)).Nodup ∧ ∀ entry ∈ entries, entry.2.Distinct :=
  ⟨fun | .mapping keys all => ⟨keys, all⟩, fun both => .mapping both.1 both.2⟩

theorem entriesTree_perm {entries' : List (Value × Value)} (perm : entries.Perm entries')
    (distinct : (entries.map (·.1)).Nodup) : entriesTree entries = entriesTree entries' := by
  have distinct' : (entries'.map (·.1)).Nodup := (perm.map _).nodup_iff.mp distinct
  funext key
  apply Option.ext
  intro t
  rw [entriesTree_eq_some distinct, entriesTree_eq_some distinct']
  simp only [perm.mem_iff]

variable {value' : Value}

theorem entriesTree_value {value : Value} (same_ : value.tree = value'.tree)
    (front back : List (Value × Value)) (key : Value) :
    entriesTree (front ++ (key, value) :: back) = entriesTree (front ++ (key, value') :: back) := by
  funext wanted
  induction front with
  | nil => simp only [List.nil_append, entriesTree, same_]
  | cons entry rest ih => simp only [List.cons_append, entriesTree, ih]

theorem treesOf_item {item item' : Value} (same_ : item.tree = item'.tree)
    (front back : List Value) :
    treesOf (front ++ item :: back) = treesOf (front ++ item' :: back) := by
  induction front with
  | nil => simp only [List.nil_append, treesOf, same_]
  | cons first rest ih => simp only [List.cons_append, treesOf, ih]

/-- Another order is taken just as well, and stands for the same tree. -/
structure Alike (value value' : Value) : Prop where
  distinct : value'.Distinct
  acceptable : Acceptable value ↔ Acceptable value'
  tree : Acceptable value → value.tree = value'.tree

theorem Alike.value {value : Value} {front back : List (Value × Value)} {key : Value}
    (distinct : Value.Distinct (.mapping (front ++ (key, value) :: back)))
    (alike : value.Distinct → Alike value value') :
    Alike (.mapping (front ++ (key, value) :: back))
      (.mapping (front ++ (key, value') :: back)) := by
  rw [distinct_mapping_iff, List.forall_mem_append, List.forall_mem_cons] at distinct
  obtain ⟨keys, front_, here, back_⟩ := distinct
  have alike := alike here
  refine ⟨?_, ?_, fun acceptable => congrArg Tree.map
    (entriesTree_value (alike.tree ?_) front back key)⟩
  · rw [distinct_mapping_iff, List.forall_mem_append, List.forall_mem_cons]
    exact ⟨by simpa using keys, front_, alike.distinct, back_⟩
  · simp only [acceptable_mapping_iff, List.forall_mem_append, List.forall_mem_cons,
      alike.acceptable]
  · simp only [acceptable_mapping_iff, List.forall_mem_append, List.forall_mem_cons] at acceptable
    exact acceptable.2.1.2

theorem Alike.item {item item' : Value} {front back : List Value}
    (distinct : Value.Distinct (.sequence (front ++ item :: back)))
    (alike : item.Distinct → Alike item item') :
    Alike (.sequence (front ++ item :: back)) (.sequence (front ++ item' :: back)) := by
  rw [distinct_sequence_iff, List.forall_mem_append, List.forall_mem_cons] at distinct
  obtain ⟨front_, here, back_⟩ := distinct
  have alike := alike here
  refine ⟨?_, ?_, fun acceptable => congrArg Tree.list (treesOf_item (alike.tree ?_) front back)⟩
  · rw [distinct_sequence_iff, List.forall_mem_append, List.forall_mem_cons]
    exact ⟨front_, alike.distinct, back_⟩
  · simp only [acceptable_sequence_iff, List.forall_mem_append, List.forall_mem_cons,
      alike.acceptable]
  · simp only [acceptable_sequence_iff, List.forall_mem_append, List.forall_mem_cons] at acceptable
    exact acceptable.2.1

theorem Reordered.alike {value : Value} (reordered : Reordered value value')
    (distinct : value.Distinct) : Alike value value' := by
  induction reordered with
  | refl => exact ⟨distinct, Iff.rfl, fun _ => rfl⟩
  | trans _ _ ih ih' =>
      have first := ih distinct
      have second := ih' first.distinct
      exact ⟨second.distinct, first.acceptable.trans second.acceptable,
        fun acceptable => (first.tree acceptable).trans
          (second.tree (first.acceptable.mp acceptable))⟩
  | entries perm =>
      rw [distinct_mapping_iff] at distinct
      refine ⟨?_, ?_, fun _ => congrArg Tree.map (entriesTree_perm perm distinct.1)⟩
      · rw [distinct_mapping_iff, ← (perm.map _).nodup_iff]
        exact ⟨distinct.1, fun entry member => distinct.2 entry (perm.mem_iff.mpr member)⟩
      · simp only [acceptable_mapping_iff, perm.mem_iff]
  | value front back key _ ih => exact Alike.value distinct ih
  | item front back _ ih => exact Alike.item distinct ih
  | tagged tag _ ih =>
      cases distinct with
      | tagged inner =>
          have refused : ∀ inner, ¬ Acceptable (.tagged tag inner) :=
            fun _ acceptable => nomatch acceptable
          exact ⟨.tagged (ih inner).distinct, iff_of_false (refused _) (refused _),
            fun acceptable => absurd acceptable (refused _)⟩

/-! ## The normal form -/

theorem canonicalize_eq_iff {value result result' : Value} (distinct : value.Distinct)
    (distinct' : value'.Distinct) (done : canonicalize value = .ok result)
    (done' : canonicalize value' = .ok result') : result = result' ↔ value.tree = value'.tree := by
  obtain ⟨canonical, tree_eq⟩ := canonicalize_sound distinct done
  obtain ⟨canonical', tree_eq'⟩ := canonicalize_sound distinct' done'
  rw [← tree_eq, ← tree_eq']
  exact ⟨congrArg Value.tree, canonical.determined result' canonical'⟩

theorem canonicalize_reordered {value : Value} (distinct : value.Distinct)
    (reordered : Reordered value value') :
    (canonicalize value).toOption = (canonicalize value').toOption := by
  have alike := reordered.alike distinct
  have accepted := accepted_iff distinct
  have accepted' := accepted_iff alike.distinct
  cases done : canonicalize value with
  | ok result =>
      have acceptable := accepted.mp ⟨result, done⟩
      obtain ⟨result', done'⟩ := accepted'.mpr (alike.acceptable.mp acceptable)
      have same_ := alike.tree acceptable
      rw [done', (canonicalize_eq_iff distinct alike.distinct done done').mpr same_]
  | error error =>
      cases done' : canonicalize value' with
      | error _ => rfl
      | ok result' =>
          have acceptable := alike.acceptable.mpr (accepted'.mp ⟨result', done'⟩)
          obtain ⟨result, done''⟩ := accepted.mpr acceptable
          rw [done] at done''
          cases done''

/-- The documents that are serialised never share their bytes. -/
def InjectiveOnCanonical (serialize : Mapping → Except Error Bytes) : Prop :=
  ∀ doc doc' bytes, Value.Canonical (.mapping doc) → Value.Canonical (.mapping doc') →
    serialize doc = .ok bytes → serialize doc' = .ok bytes → doc = doc'

variable {serialize : Mapping → Except Error Bytes}

theorem canonicalBytes_eq_ok {value : Value} {doc : Mapping} {bytes : Bytes}
    (done : canonicalBytes serialize value = .ok (doc, bytes)) :
    canonicalize value = .ok (.mapping doc) ∧ serialize doc = .ok bytes := by
  rw [canonicalBytes, bind_eq_ok] at done
  obtain ⟨result, canonical, done⟩ := done
  cases result with
  | mapping document =>
      obtain ⟨found, serialized, done⟩ := bind_eq_ok.mp done
      cases done
      exact ⟨canonical, serialized⟩
  | null | bool | number | string | sequence | tagged => cases done

theorem canonicalBytes_eq_iff (injective : InjectiveOnCanonical serialize) {value : Value}
    (distinct : value.Distinct) (distinct' : value'.Distinct) {doc doc' : Mapping}
    {bytes bytes' : Bytes} (done : canonicalBytes serialize value = .ok (doc, bytes))
    (done' : canonicalBytes serialize value' = .ok (doc', bytes')) :
    bytes = bytes' ↔ value.tree = value'.tree := by
  obtain ⟨canonical, serialized⟩ := canonicalBytes_eq_ok done
  obtain ⟨canonical', serialized'⟩ := canonicalBytes_eq_ok done'
  rw [← canonicalize_eq_iff distinct distinct' canonical canonical', Value.mapping.injEq]
  constructor
  · rintro rfl
    exact injective _ _ _ (canonicalize_sound distinct canonical).1
      (canonicalize_sound distinct' canonical').1 serialized serialized'
  · rintro rfl
    rw [serialized] at serialized'
    exact Except.ok.inj serialized'

/-- Canonicalisation is idempotent, does not see the order of keys, tells values apart
    exactly where they differ as unordered trees, and refuses exactly the values with a
    key that is no string or with a tag; so the hashed bytes tell documents apart exactly
    where they differ as unordered trees. -/
theorem canonicalize_is_normal_form (yaml : Yaml) :
    (∀ result, canonicalize yaml.value = .ok result → canonicalize result = .ok result) ∧
    (∀ value', Reordered yaml.value value' →
      (canonicalize yaml.value).toOption = (canonicalize value').toOption) ∧
    (∀ (yaml' : Yaml) (result result' : Value), canonicalize yaml.value = .ok result →
      canonicalize yaml'.value = .ok result' →
      (result = result' ↔ yaml.value.tree = yaml'.value.tree)) ∧
    ((∃ error, canonicalize yaml.value = .error error) ↔
      HasOtherKey yaml.value ∨ HasTag yaml.value) ∧
    (∀ serialize, InjectiveOnCanonical serialize →
      ∀ (yaml' : Yaml) (doc doc' : Mapping) (bytes bytes' : Bytes),
      canonicalBytes serialize yaml.value = .ok (doc, bytes) →
      canonicalBytes serialize yaml'.value = .ok (doc', bytes') →
      (bytes = bytes' ↔ yaml.value.tree = yaml'.value.tree)) := by
  refine ⟨?_, fun value' => canonicalize_reordered yaml.distinct, ?_, ?_, ?_⟩
  · intro result done
    exact canonicalize_canonical (canonicalize_sound yaml.distinct done).1
  · exact fun yaml' result result' => canonicalize_eq_iff yaml.distinct yaml'.distinct
  · have accepted := accepted_iff yaml.distinct
    rw [acceptable_iff yaml.distinct] at accepted
    cases done : canonicalize yaml.value with
    | ok result =>
        have clear := accepted.mp ⟨result, done⟩
        simp [clear.1, clear.2]
    | error error =>
        refine iff_of_true ⟨error, rfl⟩ ?_
        by_contra clear
        obtain ⟨result, done'⟩ := accepted.mpr (not_or.mp clear)
        rw [done] at done'
        cases done'
  · exact fun serialize injective yaml' doc doc' bytes bytes' =>
      canonicalBytes_eq_iff injective yaml.distinct yaml'.distinct

/-- A serialiser of documents with two flags. -/
def serializeFlags : Mapping → Except Error Bytes
  | [(.string "a", .bool a), (.string "b", .bool b)] => .ok [a.toUInt8, b.toUInt8]
  | _ => .error (.yaml "")

theorem serializeFlags_injective : InjectiveOnCanonical serializeFlags := by
  rintro doc doc' bytes - - done done'
  have injective : Function.Injective Bool.toUInt8 := by rintro (_ | _) (_ | _) <;> decide
  unfold serializeFlags at done done'
  split at done <;> split at done' <;> cases done <;> try cases done'
  next =>
    simp only [Except.ok.injEq, List.cons.injEq, injective.eq_iff, and_true] at done'
    rw [done'.1, done'.2]

def flags (first second : String × Bool) (apart : first.1 ≠ second.1) : Yaml where
  value := .mapping [(.string first.1, .bool first.2), (.string second.1, .bool second.2)]
  distinct := .mapping (by simp [apart]) (by simp [Value.Distinct.bool])

/-- The same two flags in either order. -/
theorem canonicalize_is_normal_form_flags : ∃ yaml yaml' doc,
    yaml = flags ("b", true) ("a", false) (by decide) ∧
    yaml' = flags ("a", false) ("b", true) (by decide) ∧
    canonicalBytes serializeFlags yaml.value = .ok (doc, [0, 1]) ∧
    canonicalBytes serializeFlags yaml'.value = .ok (doc, [0, 1]) ∧
    yaml.value.tree = yaml'.value.tree :=
  ⟨_, _, _, rfl, rfl, rfl, rfl, ((canonicalize_is_normal_form _).2.2.2.2 _
    serializeFlags_injective _ _ _ _ _ rfl rfl).mp rfl⟩

end Nyanpasu
