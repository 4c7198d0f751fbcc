import Nyanpasu.Config.Canonical
import Nyanpasu.Config.Classify

/-! # Preparing an effective document

`ConfigSnapshot::prepare` of `config/mod.rs` with the controller rewrite of
`config/clash.rs`, over documents with string keys and no tags, which is what a snapshot
holds.
-/

namespace Nyanpasu

/-! ## Canonical form -/

def Document.ofSorted (entries : List (String × Node)) : Document :=
  entries.foldl (fun doc e => doc.insert e.1 e.2) .nil

mutual

/-- `canonicalize` where nothing is refused. -/
def Node.canonicalized : Node → Node
  | .sequence items => .sequence items.canonicalized
  | .mapping entries => .mapping (Document.ofSorted (sortByKey entries.canonicalEntries))
  | scalar => scalar

def Nodes.canonicalized : Nodes → Nodes
  | .nil => .nil
  | .cons head tail => .cons head.canonicalized tail.canonicalized

def Document.canonicalEntries : Document → List (String × Node)
  | .nil => []
  | .cons key value rest => (key, value.canonicalized) :: rest.canonicalEntries

end

def Document.canonicalized (doc : Document) : Document :=
  Document.ofSorted (sortByKey doc.canonicalEntries)

mutual

/-- A node as a value of the library. -/
def Node.toValue : Node → Value
  | .null => .null
  | .bool value => .bool value
  | .int value =>
      .number (if 0 ≤ value then .posInt (UInt64.ofNat value.toNat) else .negInt (Int64.ofInt value))
  | .float bits => .number (.float bits)
  | .string value => .string value
  | .sequence items => .sequence items.toValues
  | .mapping entries => .mapping entries.toMapping

def Nodes.toValues : Nodes → List Value
  | .nil => []
  | .cons head tail => head.toValue :: tail.toValues

def Document.toMapping : Document → List (Value × Value)
  | .nil => []
  | .cons key value rest => (.string key, value.toValue) :: rest.toMapping

end

namespace Document

theorem toMapping_insert (doc : Document) (key : String) (value : Node) :
    (doc.insert key value).toMapping = Mapping.insert doc.toMapping key value.toValue := by
  induction doc with
  | nil => rfl
  | cons first inner rest ih =>
      by_cases same_ : first = key
      · simp [insert, toMapping, Mapping.insert, Value.asStr, same_]
      · simp [insert, toMapping, Mapping.insert, Value.asStr, same_, ih]

theorem toMapping_ofSorted (entries : List (String × Node)) :
    (ofSorted entries).toMapping =
      (entries.map fun e => (e.1, e.2.toValue)).foldl (fun doc e => Mapping.insert doc e.1 e.2) [] := by
  rw [List.foldl_map]
  exact (List.foldl_hom toMapping fun doc e => (toMapping_insert doc e.1 e.2).symm).symm

end Document

variable {α : Type}

theorem sortByKey_map {β : Type} (f : α → β) (entries : List (String × α)) :
    sortByKey (entries.map fun e => (e.1, f e.2)) = (sortByKey entries).map fun e => (e.1, f e.2) := by
  symm
  exact List.map_insertionSort _ _ _ _ fun _ _ _ _ => Iff.rfl

mutual

/-- On such values the pass of the library is this one. -/
theorem canonicalize_toValue : ∀ node : Node,
    canonicalize node.toValue = .ok node.canonicalized.toValue
  | .null | .bool _ | .int _ | .float _ | .string _ => rfl
  | .sequence items => by
      rw [Node.toValue, canonicalize, canonicalizeItems_toValues items]
      rfl
  | .mapping entries => by
      rw [Node.toValue, canonicalize, canonicalizeEntries_toMapping entries, Node.canonicalized,
        Node.toValue, Document.toMapping_ofSorted, ← sortByKey_map]
      rfl

theorem canonicalizeItems_toValues : ∀ items : Nodes,
    canonicalizeItems items.toValues = .ok items.canonicalized.toValues
  | .nil => rfl
  | .cons head tail => by
      rw [Nodes.toValues, canonicalizeItems, canonicalize_toValue head,
        canonicalizeItems_toValues tail]
      rfl

theorem canonicalizeEntries_toMapping : ∀ doc : Document,
    canonicalizeEntries doc.toMapping =
      .ok (doc.canonicalEntries.map fun e => (e.1, e.2.toValue))
  | .nil => rfl
  | .cons key value rest => by
      rw [Document.toMapping, canonicalizeEntries, canonicalize_toValue value,
        canonicalizeEntries_toMapping rest]
      rfl

end

variable {entries : List (String × α)}

/-! ## Lookups in canonical documents -/

theorem lookup_eq_some_iff_mem {key : String} {value : α} (distinct : (entries.map (·.1)).Nodup) :
    entries.lookup key = some value ↔ (key, value) ∈ entries := by
  induction entries with
  | nil => simp
  | cons entry rest ih =>
      obtain ⟨first, inner⟩ := entry
      rw [List.map_cons, List.nodup_cons] at distinct
      by_cases here : key = first
      · subst here
        have later : (key, value) ∉ rest := fun member =>
          distinct.1 (List.mem_map_of_mem (f := (·.1)) member)
        simp [later, eq_comm]
      · have other : (key == first) = false := by simpa using here
        simp [List.lookup_cons, other, here, ih distinct.2]

theorem lookup_sortByKey (distinct : (entries.map (·.1)).Nodup) (key : String) :
    (sortByKey entries).lookup key = entries.lookup key := by
  have distinct' : ((sortByKey entries).map (·.1)).Nodup :=
    ((perm_sortByKey entries).map _).nodup_iff.mpr distinct
  apply Option.ext
  intro value
  rw [lookup_eq_some_iff_mem distinct', lookup_eq_some_iff_mem distinct,
    (perm_sortByKey entries).mem_iff]

namespace Document

variable {doc : Document} {key other : String}

/-- `Mapping::remove`; what order it leaves is not seen after the canonical form. -/
def remove : Document → String → Document
  | nil, _ => nil
  | cons key value rest, removed =>
      if key = removed then rest.remove removed else cons key value (rest.remove removed)

@[simp] theorem get_remove (doc : Document) (removed key : String) :
    (doc.remove removed).get key = if key = removed then none else doc.get key := by
  induction doc with
  | nil => simp [remove, get]
  | cons first value rest ih =>
      by_cases gone : first = removed
      · rw [remove, if_pos gone, ih]
        by_cases here : key = removed
        · simp [here]
        · simp [here, get, gone, Ne.symm here]
      · by_cases here : first = key
        · subst here
          simp [remove, gone, get]
        · simp [remove, gone, get, here, ih]

theorem keys_remove_sublist (doc : Document) (removed : String) :
    (doc.remove removed).keys.Sublist doc.keys := by
  induction doc with
  | nil => exact List.Sublist.refl _
  | cons first value rest ih =>
      by_cases gone : first = removed
      · simpa [remove, gone, keys] using ih.cons removed
      · simpa [remove, gone, keys] using ih

theorem nodup_keys_insert (distinct : doc.keys.Nodup) (key : String) (value : Node) :
    (doc.insert key value).keys.Nodup := by
  induction doc with
  | nil => simp [insert, keys]
  | cons first inner rest ih =>
      obtain ⟨once, distinct⟩ := List.nodup_cons.mp distinct
      by_cases here : first = key
      · simpa [insert, here, keys, distinct] using here ▸ once
      · rw [insert, if_neg here, keys, List.nodup_cons]
        refine ⟨fun again => once ?_, ih distinct⟩
        rw [mem_keys] at again ⊢
        rwa [get_insert_ne here] at again

theorem nodup_keys_ofSorted (entries : List (String × Node)) : (ofSorted entries).keys.Nodup := by
  have from_ : ∀ doc : Document, doc.keys.Nodup →
      (entries.foldl (fun doc e => doc.insert e.1 e.2) doc).keys.Nodup := by
    induction entries with
    | nil => exact fun _ distinct => distinct
    | cons entry rest ih => exact fun doc distinct => ih _ (nodup_keys_insert distinct _ _)
  exact from_ .nil List.nodup_nil

theorem get_ofSorted {entries : List (String × Node)} (distinct : (entries.map (·.1)).Nodup)
    (key : String) : (ofSorted entries).get key = entries.lookup key := by
  have from_ : ∀ doc : Document, (entries.foldl (fun doc e => doc.insert e.1 e.2) doc).get key =
      (entries.lookup key).or (doc.get key) := by
    induction entries with
    | nil => exact fun _ => rfl
    | cons entry rest ih =>
        intro doc
        obtain ⟨first, value⟩ := entry
        rw [List.map_cons, List.nodup_cons] at distinct
        rw [List.foldl_cons, ih distinct.2]
        by_cases here : key = first
        · have later : rest.lookup key = none := by
            rw [Option.eq_none_iff_forall_ne_some]
            intro value found
            rw [lookup_eq_some_iff_mem distinct.2] at found
            exact distinct.1 (here ▸ List.mem_map_of_mem (f := (·.1)) found)
          rw [later]
          simp [here]
        · have different : (key == first) = false := by simpa using here
          simp [List.lookup_cons, different, get_insert_ne here]
  rw [ofSorted, from_]
  simp [get]

theorem keys_canonicalEntries (doc : Document) : doc.canonicalEntries.map (·.1) = doc.keys := by
  induction doc with
  | nil => rfl
  | cons key value rest ih => simp [canonicalEntries, keys, ih]

theorem lookup_canonicalEntries (doc : Document) (key : String) :
    doc.canonicalEntries.lookup key = (doc.get key).map Node.canonicalized := by
  induction doc with
  | nil => rfl
  | cons first value rest ih =>
      by_cases here : key = first
      · simp [canonicalEntries, get, here]
      · have different : (key == first) = false := by simpa using here
        simp [canonicalEntries, List.lookup_cons, different, get, Ne.symm here, ih]

theorem get_canonicalized (distinct : doc.keys.Nodup) (key : String) :
    doc.canonicalized.get key = (doc.get key).map Node.canonicalized := by
  have distinct' : (doc.canonicalEntries.map (·.1)).Nodup := by
    rwa [keys_canonicalEntries]
  have sorted := nodup_of_sorted (sorted_sortByKey distinct')
  rw [canonicalized, get_ofSorted sorted, lookup_sortByKey distinct', lookup_canonicalEntries]

/-- A document in canonical form. -/
def Canonical (doc : Document) : Prop := doc.canonicalized = doc

theorem Canonical.nodup (canonical : doc.Canonical) : doc.keys.Nodup := by
  rw [← canonical]
  exact nodup_keys_ofSorted _

theorem Canonical.get (canonical : doc.Canonical) (key : String) :
    (doc.get key).map Node.canonicalized = doc.get key := by
  rw [← get_canonicalized canonical.nodup, canonical]

end Document

/-! ## The controller vocabulary -/

inductive RawController where
  | pipe (path : String)
  | unix (path : String)
  | http (address : String)
  deriving DecidableEq

structure ConfigInfo where
  controller : Option RawController
  secret : Option String

/-- Where the manager runs: the platform it was built for, and what the system and the
    API client answer there. -/
structure Platform where
  windows : Bool
  controllerDir : String
  controllerTemplate : Option String
  payloadDigest : String → String
  /-- `managed_unix_endpoint`: the directory of the socket resolved in the file system. -/
  managedUnixEndpoint : String → Except Error String
  validateSocketPath : String → Except Error Unit
  /-- `clash_api::Host::http` -/
  httpHost : String → Except Error Host
  serialize : Document → Except Error Bytes

namespace Clash

def strValue (doc : Document) (key : String) : Option String :=
  ((doc.get key).bind Node.asStr).filter (· ≠ "")

/-- The key of the local transport. -/
def localField (windows : Bool) : String :=
  if windows then externalControllerPipe else externalControllerUnix

/-- Local transports win over HTTP. -/
def inspect (windows : Bool) (doc : Document) : ConfigInfo where
  controller :=
    ((strValue doc (localField windows)).map (if windows then .pipe else .unix)).or
      ((strValue doc externalController).map .http)
  secret := strValue doc secret

def inspectHttp (doc : Document) : ConfigInfo where
  controller := (strValue doc externalController).map .http
  secret := strValue doc secret

def rewriteManagedController (windows : Bool) (doc : Document) (endpoint : String)
    (keepHttp : Bool) : Document :=
  let fields := [externalController, externalControllerTls, externalControllerPipe,
    externalControllerUnix]
  let doc := fields.foldl (fun doc field =>
    if !([externalController, externalControllerTls].contains field) || !keepHttp then
      doc.remove field
    else doc) doc
  doc.insert (localField windows) (.string endpoint)

end Clash

/-! ## Endpoints and addresses -/

/-- `template.replace("{epoch}", ..)`, from left to right. -/
def replaceEpoch (rendering : List Char) : List Char → Nat → List Char
  | text, 0 => text
  | [], _ => []
  | first :: rest, fuel + 1 =>
      if "\x7bepoch\x7d".toList.isPrefixOf (first :: rest) then
        rendering ++ replaceEpoch rendering ((first :: rest).drop 7) fuel
      else first :: replaceEpoch rendering rest fuel

def joinPath (dir name : String) : String :=
  if dir = "" ∨ dir.toList.getLast? = some '/' then dir ++ name else dir ++ "/" ++ name

def validateControllerTemplate : Option String → Except Error Unit
  | some template =>
      if Mihomo.contains template "\x7bepoch\x7d" then .ok ()
      else .error (.invalidManagerOptions "managed controller_template must contain `\x7bepoch\x7d`")
  | none => .ok ()

def managedEndpointPath (platform : Platform) (epoch : Epoch) : Except Error String := do
  validateControllerTemplate platform.controllerTemplate
  match platform.controllerTemplate with
  | some template =>
      let endpoint := String.ofList
        (replaceEpoch epoch.display.toList template.toList template.toList.length)
      if platform.windows then return endpoint else platform.managedUnixEndpoint endpoint
  | none =>
      if platform.windows then
        return "\\\\.\\pipe\\nyanpasu-" ++ platform.payloadDigest platform.controllerDir ++ "-core-" ++
          epoch.display
      else return joinPath platform.controllerDir ("core-" ++ epoch.display ++ ".sock")

/-- What follows the last colon, and what precedes it. -/
def rsplitColon (address : List Char) : Option (List Char × List Char) :=
  match address.reverse.span (· ≠ ':') with
  | (_, []) => none
  | (after, _ :: before) => some (before.reverse, after.reverse)

def probeAddress (address : String) : String :=
  match rsplitColon address.toList with
  | some (host, port) =>
      if ["0.0.0.0", "::", "[::]", ""].contains (String.ofList host) then
        "127.0.0.1:" ++ String.ofList port
      else address
  | none => address

def resolveController (platform : Platform) (info : ConfigInfo) :
    Except Error ResolvedController := do
  match info.controller with
  | none => .error .controllerMissing
  | some raw =>
      let host ← match raw with
        | .pipe path => .ok (.namedPipe path)
        | .unix path => .ok (.unixSocket path)
        | .http address => platform.httpHost (probeAddress address)
      return ⟨host, info.secret⟩

/-! ## Preparation -/

/-- A parsed source configuration. -/
structure Snapshot where
  document : Document
  sourceHash : String
  canonical : document.Canonical

structure Prepared where
  bytes : Bytes
  document : Document
  controller : ResolvedController
  rewroteController : Bool
  sourceHash : String
  effectiveHash : String

/-- The document with the controller fields as the manager wants them. -/
def managedDocument (platform : Platform) (epoch : Epoch) (runtime : List RuntimeFeature)
    (settings : Option LocalIpcSettings) (doc : Document) : Except Error Document := do
  if runtime.contains .localIpc then
    let endpoint ← managedEndpointPath platform epoch
    if !platform.windows then platform.validateSocketPath endpoint
    return Clash.rewriteManagedController platform.windows doc endpoint
      (settings.any (·.keepHttpController))
  else if settings.isSome then
    return (doc.remove Clash.externalControllerPipe).remove Clash.externalControllerUnix
  else return doc

def Snapshot.prepare (snapshot : Snapshot) (platform : Platform) (epoch : Epoch)
    (runtime : List RuntimeFeature) (settings : Option LocalIpcSettings) (zeroInbounds : Bool) :
    Except Error Prepared := do
  let document := if zeroInbounds then Mihomo.zeroInbounds snapshot.document else snapshot.document
  let rewroteController := runtime.contains .localIpc
  let document ← managedDocument platform epoch runtime settings document
  let document := document.canonicalized
  let info := if rewroteController then Clash.inspect platform.windows document
    else Clash.inspectHttp document
  let controller ← resolveController platform info
  let bytes ← platform.serialize document
  return ⟨bytes, document, controller, rewroteController, snapshot.sourceHash, semanticHash bytes⟩

def Snapshot.prepareFull (snapshot : Snapshot) (platform : Platform) (epoch : Epoch)
    (runtime : List RuntimeFeature) (settings : Option LocalIpcSettings) : Except Error Prepared :=
  snapshot.prepare platform epoch runtime settings false

def Snapshot.prepareBootstrap (snapshot : Snapshot) (platform : Platform) (epoch : Epoch)
    (runtime : List RuntimeFeature) (settings : Option LocalIpcSettings) : Except Error Prepared :=
  snapshot.prepare platform epoch runtime settings true

/-- The two documents of a graceful switch, as far as the comparison of their controllers
    (`prepare_graceful`). -/
def Snapshot.prepareGraceful (snapshot : Snapshot) (platform : Platform) (epoch : Epoch)
    (runtime : List RuntimeFeature) (settings : Option LocalIpcSettings) :
    Except Error (Prepared × Prepared) := do
  let full ← snapshot.prepareFull platform epoch runtime settings
  let bootstrap ← snapshot.prepareBootstrap platform epoch runtime settings
  if full.controller.host ≠ bootstrap.controller.host ∨
      full.controller.secret ≠ bootstrap.controller.secret then
    .error (.invalidConfig "full and bootstrap configs resolved different controllers")
  else return (full, bootstrap)

end Nyanpasu
