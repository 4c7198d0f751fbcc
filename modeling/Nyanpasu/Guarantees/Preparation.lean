import Nyanpasu.Config.Prepare

/-! # Preparation changes only what it owns

The controller fields are the manager's, the inbounds of a bootstrap are zeroed, and every
other key reaches the core as the source has it.  The controller is read from keys that
zeroing leaves alone, so both documents of a graceful switch resolve to the same one.
-/

namespace Nyanpasu

open Clash

variable {platform : Platform} {epoch : Epoch} {runtime : List RuntimeFeature}
  {settings : Option LocalIpcSettings} {snapshot : Snapshot} {doc doc' managed managed' : Document}
  {key : String}

/-- The keys of the controller that are rewritten. -/
def managedFields : List String :=
  [externalController, externalControllerTls, externalControllerPipe, externalControllerUnix]

def httpFields : List String := [externalController, externalControllerTls]

def keepHttp (settings : Option LocalIpcSettings) : Bool := settings.any (·.keepHttpController)

/-! ## The managed document -/

/-- Dropping keys one after the other. -/
theorem get_foldl_remove (keys : List String) (drop : String → Bool) (doc : Document)
    (key : String) :
    (keys.foldl (fun doc field => if drop field then doc.remove field else doc) doc).get key =
      if key ∈ keys.filter drop then none else doc.get key := by
  induction keys generalizing doc with
  | nil => simp
  | cons field rest ih =>
      rw [List.foldl_cons, ih, List.filter_cons]
      by_cases drops : drop field = true
      · by_cases here : key = field
        · simp [drops, here]
        · simp [drops, here]
      · simp [drops]

theorem nodup_foldl_remove (keys : List String) (drop : String → Bool)
    (distinct : doc.keys.Nodup) :
    (keys.foldl (fun doc field => if drop field then doc.remove field else doc) doc).keys.Nodup := by
  induction keys generalizing doc with
  | nil => exact distinct
  | cons field rest ih =>
      rw [List.foldl_cons]
      apply ih
      by_cases drops : drop field = true
      · rw [if_pos drops]
        exact (Document.keys_remove_sublist doc field).nodup distinct
      · rwa [if_neg drops]

/-- The keys that are dropped before the local one is set. -/
def dropped (keep : Bool) : List String :=
  if keep then [externalControllerPipe, externalControllerUnix] else managedFields

theorem get_rewrite (windows : Bool) (doc : Document) (endpoint : String) (keep : Bool)
    (key : String) :
    (rewriteManagedController windows doc endpoint keep).get key =
      if key = localField windows then some (.string endpoint)
      else if key ∈ dropped keep then none else doc.get key := by
  by_cases here : key = localField windows
  · simp [rewriteManagedController, here]
  · have filtered : [externalController, externalControllerTls, externalControllerPipe,
        externalControllerUnix].filter (fun field =>
          !([externalController, externalControllerTls].contains field) || !keep) =
        dropped keep := by
      cases keep <;> decide
    rw [rewriteManagedController, Document.get_insert_ne here, if_neg here, get_foldl_remove,
      filtered]

/-- How a lookup in the managed document depends on the document before. -/
def managedLookup (platform : Platform) (epoch : Epoch) (runtime : List RuntimeFeature)
    (settings : Option LocalIpcSettings) (key : String) (old : Option Node) : Option Node :=
  if runtime.contains .localIpc then
    if key = localField platform.windows then
      (managedEndpointPath platform epoch).toOption.map .string
    else if key ∈ dropped (keepHttp settings) then none else old
  else if settings.isSome ∧ key ∈ [externalControllerPipe, externalControllerUnix] then none
  else old

theorem managedDocument_spec
    (done : managedDocument platform epoch runtime settings doc = .ok managed) :
    (∀ key, managed.get key = managedLookup platform epoch runtime settings key (doc.get key)) ∧
      (doc.keys.Nodup → managed.keys.Nodup) ∧
      (runtime.contains .localIpc = true →
        ∃ endpoint, managedEndpointPath platform epoch = .ok endpoint) := by
  unfold managedDocument at done
  split at done
  case isTrue ipc =>
    obtain ⟨endpoint, rendered, done⟩ := bind_eq_ok.mp done
    have managed_eq : managed = rewriteManagedController platform.windows doc endpoint
        (keepHttp settings) := by
      split at done
      · obtain ⟨_, _, done⟩ := bind_eq_ok.mp done
        exact (Except.ok.inj done).symm
      · exact (Except.ok.inj done).symm
    subst managed_eq
    refine ⟨fun key => ?_, fun distinct => ?_, fun _ => ⟨endpoint, rendered⟩⟩
    · rw [get_rewrite, managedLookup, if_pos ipc, rendered]
      rfl
    · exact Document.nodup_keys_insert (nodup_foldl_remove _ _ distinct) _ _
  case isFalse noIpc =>
    refine ⟨fun key => ?_, fun distinct => ?_, fun ipc => absurd ipc noIpc⟩
    · rw [managedLookup, if_neg noIpc]
      split at done
      case isTrue present =>
        cases done
        by_cases unix : key = externalControllerUnix <;> by_cases pipe : key = externalControllerPipe
          <;> simp [unix, pipe, present]
      case isFalse absent =>
        cases done
        simp [absent]
    · split at done
      · cases done
        exact ((Document.keys_remove_sublist _ _).trans (Document.keys_remove_sublist _ _)).nodup
          distinct
      · cases done
        exact distinct

theorem managedLookup_other (other : key ∉ managedFields) (old : Option Node) :
    managedLookup platform epoch runtime settings key old = old := by
  have apart : key ≠ localField platform.windows := by
    rintro rfl
    cases windows : platform.windows <;> simp [windows, localField, managedFields] at other
  have kept : ∀ keep, key ∉ dropped keep := by
    intro keep
    cases keep
    · exact other
    · intro member
      exact other (List.mem_cons_of_mem _ (List.mem_cons_of_mem _ member))
  have plain : key ∉ [externalControllerPipe, externalControllerUnix] := kept true
  simp [managedLookup, apart, kept, plain]

theorem managedLookup_http (noIpc : ¬ runtime.contains .localIpc = true) (http : key ∈ httpFields)
    (old : Option Node) : managedLookup platform epoch runtime settings key old = old := by
  have other : key ∉ [externalControllerPipe, externalControllerUnix] := by
    have all : ∀ key ∈ httpFields, key ∉ [externalControllerPipe, externalControllerUnix] := by decide
    exact all key http
  rw [managedLookup, if_neg noIpc, if_neg fun both => other both.2]

theorem http_ne_local (http : key ∈ httpFields) (windows : Bool) : key ≠ localField windows := by
  rintro rfl
  cases windows <;> simp [localField, httpFields, externalController, externalControllerTls,
    externalControllerPipe, externalControllerUnix] at http

/-! ## The prepared document -/

theorem canonical_mapping {tun : Document}
    (canonical : (Node.mapping tun).canonicalized = .mapping tun) : tun.Canonical :=
  Node.mapping.inj canonical

theorem inspect_congr (windows : Bool)
    (same_ : ∀ key, key ∉ Mihomo.inboundPortFields → key ≠ "tun" → doc.get key = doc'.get key) :
    inspect windows doc = inspect windows doc' ∧ inspectHttp doc = inspectHttp doc' := by
  have http : strValue doc externalController = strValue doc' externalController := by
    rw [strValue, strValue, same_ _ (by decide) (by decide)]
  have secret_ : strValue doc secret = strValue doc' secret := by
    rw [strValue, strValue, same_ _ (by decide) (by decide)]
  have local_ : strValue doc (localField windows) = strValue doc' (localField windows) := by
    cases windows <;> rw [strValue, strValue, same_ _ (by decide) (by decide)]
  constructor
  · rw [inspect, inspect, http, secret_, local_]
  · rw [inspectHttp, inspectHttp, http, secret_]

section

variable {zero : Bool} {prepared : Prepared}
  (done : snapshot.prepare platform epoch runtime settings zero = .ok prepared)

include done

theorem prepare_spec :
    ∃ managed, managedDocument platform epoch runtime settings
        (if zero then Mihomo.zeroInbounds snapshot.document else snapshot.document) = .ok managed ∧
      prepared.document = managed.canonicalized ∧
      resolveController platform (if runtime.contains .localIpc
        then inspect platform.windows prepared.document else inspectHttp prepared.document) =
          .ok prepared.controller := by
  obtain ⟨managed, isManaged, done⟩ := bind_eq_ok.mp done
  obtain ⟨controller, resolved, done⟩ := bind_eq_ok.mp done
  obtain ⟨bytes, _, done⟩ := bind_eq_ok.mp done
  cases done
  exact ⟨managed, isManaged, rfl, resolved⟩

/-- What is found in a prepared document, for any canonical source or its bootstrap. -/
theorem get_prepared (key : String) :
    prepared.document.get key =
      (managedLookup platform epoch runtime settings key
        ((if zero then Mihomo.zeroInbounds snapshot.document else snapshot.document).get
          key)).map Node.canonicalized := by
  obtain ⟨managed, isManaged, document, _⟩ := prepare_spec done
  obtain ⟨gets, distinct, _⟩ := managedDocument_spec isManaged
  have source : (if zero then Mihomo.zeroInbounds snapshot.document
      else snapshot.document).keys.Nodup := by
    cases zero
    · exact snapshot.canonical.nodup
    · exact (Mihomo.keys_zeroInbounds snapshot.document).symm ▸ snapshot.canonical.nodup
  rw [document, Document.get_canonicalized (distinct source), gets]

end

section

variable {full bootstrap : Prepared}
  (done : snapshot.prepareFull platform epoch runtime settings = .ok full)

include done

/-- A key of the full document besides the controller's is that of the source. -/
theorem get_full (key : String) :
    full.document.get key = (managedLookup platform epoch runtime settings key
      (snapshot.document.get key)).map Node.canonicalized :=
  get_prepared done key

theorem get_full_of_kept
    (kept : ∀ old, managedLookup platform epoch runtime settings key old = old) :
    full.document.get key = snapshot.document.get key := by
  rw [get_full done, kept, snapshot.canonical.get]

/-- With local IPC the HTTP keys stay exactly where the settings keep them. -/
theorem get_full_http (ipc : runtime.contains .localIpc = true) (http : key ∈ httpFields) :
    full.document.get key = if keepHttp settings then snapshot.document.get key else none := by
  have apart := http_ne_local http platform.windows
  cases keep : keepHttp settings with
  | true =>
      apply get_full_of_kept done
      intro old
      have notDropped : key ∉ dropped true := by
        intro member
        have clash : ∀ key ∈ dropped true, key ∉ httpFields := by decide
        exact clash key member http
      rw [managedLookup, if_pos ipc, if_neg apart, keep, if_neg notDropped]
  | false =>
      have isDropped : key ∈ dropped false := by
        have all : ∀ key ∈ httpFields, key ∈ dropped false := by decide
        exact all key http
      rw [get_full done, managedLookup, if_pos ipc, if_neg apart, keep, if_pos isDropped]
      rfl

theorem get_full_local (ipc : runtime.contains .localIpc = true) :
    ∃ endpoint, managedEndpointPath platform epoch = .ok endpoint ∧
      full.document.get (localField platform.windows) = some (.string endpoint) := by
  obtain ⟨managed, isManaged, _, _⟩ := prepare_spec done
  obtain ⟨endpoint, rendered⟩ := (managedDocument_spec isManaged).2.2 ipc
  refine ⟨endpoint, rendered, ?_⟩
  rw [get_full done, managedLookup, if_pos ipc, if_pos rfl, rendered]
  rfl

/-! ## The bootstrap document -/

/-- Two documents that differ at most in the inbound ports and the flag of the TUN device. -/
structure DifferInInbounds (bootstrap full : Document) : Prop where
  others : ∀ key, key ∉ Mihomo.inboundPortFields → key ≠ "tun" →
    bootstrap.get key = full.get key
  tun : bootstrap.get "tun" = full.get "tun" ∨
    ∃ tun tun', full.get "tun" = some (.mapping tun) ∧ bootstrap.get "tun" = some (.mapping tun') ∧
      ∀ field, field ≠ "enable" → tun'.get field = tun.get field

variable (done' : snapshot.prepareBootstrap platform epoch runtime settings = .ok bootstrap)

include done'

/-- The two lookups go through the same pass, one over the zeroed document. -/
theorem get_bootstrap
    (same_ : (Mihomo.zeroInbounds snapshot.document).get key = snapshot.document.get key) :
    bootstrap.document.get key = full.document.get key := by
  rw [get_prepared done', get_full done, if_pos rfl, same_]

theorem differInInbounds : DifferInInbounds bootstrap.document full.document := by
  refine ⟨fun key port tun =>
    get_bootstrap done done' (Mihomo.get_zeroInbounds_other port tun _), ?_⟩
  have other : "tun" ∉ managedFields := by decide
  have zeroed := Mihomo.get_zeroInbounds_tun snapshot.document
  cases present : snapshot.document.get "tun" with
  | none => exact .inl (get_bootstrap done done' (by rw [zeroed, present]; rfl))
  | some value =>
      rw [present, Option.map_some] at zeroed
      by_cases changed : Mihomo.disabled value = value
      · exact .inl (get_bootstrap done done' (by rw [zeroed, present, changed]))
      · right
        have canonical : value.canonicalized = value := by
          have fixed := snapshot.canonical.get "tun"
          rw [present, Option.map_some] at fixed
          exact Option.some.inj fixed
        cases value with
        | mapping tun =>
            have distinct := (canonical_mapping canonical).nodup
            have lowered : Mihomo.disabled (.mapping tun) =
                .mapping (tun.insert "enable" (.bool false)) := by
              by_contra unchanged
              apply changed
              unfold Mihomo.disabled at unchanged ⊢
              simp only [Node.asMapping] at unchanged ⊢
              split at unchanged
              · exact absurd rfl unchanged
              · rename_i off
                rw [if_neg off]
            refine ⟨tun, (tun.insert "enable" (.bool false)).canonicalized, ?_, ?_, ?_⟩
            · rw [get_full_of_kept done (managedLookup_other other), present]
            · rw [get_prepared done', if_pos rfl, managedLookup_other other, zeroed, lowered]
              rfl
            · intro field different
              rw [Document.get_canonicalized (Document.nodup_keys_insert distinct _ _),
                Document.get_insert_ne different]
              exact (canonical_mapping canonical).get field
        | null | bool | int | float | string | sequence =>
            exact absurd rfl changed

theorem controllers_agree : full.controller = bootstrap.controller := by
  obtain ⟨_, _, _, resolved⟩ := prepare_spec done
  obtain ⟨_, _, _, resolved'⟩ := prepare_spec done'
  obtain ⟨local_, http⟩ := inspect_congr platform.windows
    (differInInbounds done done').others
  rw [local_, http] at resolved'
  exact Except.ok.inj (resolved.symm.trans resolved')

end

/-- The full document is the source besides the controller's keys, of which the HTTP ones
    stay unless local IPC replaces them; the bootstrap differs from it in the inbounds
    alone; both resolve to one controller, so the comparison of a graceful switch never
    fails. -/
theorem preparation_changes_its_own (snapshot : Snapshot) (platform : Platform) (epoch : Epoch)
    (runtime : List RuntimeFeature) (settings : Option LocalIpcSettings) :
    (∀ full, snapshot.prepareFull platform epoch runtime settings = .ok full →
      (∀ key, key ∉ managedFields → full.document.get key = snapshot.document.get key) ∧
      (runtime.contains .localIpc = true →
        (∀ key ∈ httpFields, full.document.get key =
          if keepHttp settings then snapshot.document.get key else none) ∧
        ∃ endpoint, managedEndpointPath platform epoch = .ok endpoint ∧
          full.document.get (localField platform.windows) = some (.string endpoint)) ∧
      (¬ runtime.contains .localIpc = true →
        ∀ key ∈ httpFields, full.document.get key = snapshot.document.get key)) ∧
    (∀ full bootstrap, snapshot.prepareFull platform epoch runtime settings = .ok full →
      snapshot.prepareBootstrap platform epoch runtime settings = .ok bootstrap →
      DifferInInbounds bootstrap.document full.document ∧
        full.controller.host = bootstrap.controller.host ∧
        full.controller.secret = bootstrap.controller.secret) ∧
    snapshot.prepareGraceful platform epoch runtime settings = (do
      let full ← snapshot.prepareFull platform epoch runtime settings
      let bootstrap ← snapshot.prepareBootstrap platform epoch runtime settings
      return (full, bootstrap)) := by
  refine ⟨fun full done => ⟨fun key other => ?_, fun ipc => ⟨fun key => ?_, ?_⟩,
    fun noIpc key http => ?_⟩, fun full bootstrap done done' => ⟨?_, ?_⟩, ?_⟩
  · exact get_full_of_kept done (managedLookup_other other)
  · exact get_full_http done ipc
  · exact get_full_local done ipc
  · exact get_full_of_kept done (managedLookup_http noIpc http)
  · exact differInInbounds done done'
  · rw [controllers_agree done done']
    exact ⟨rfl, rfl⟩
  · unfold Snapshot.prepareGraceful
    cases done : snapshot.prepareFull platform epoch runtime settings with
    | error error => rfl
    | ok full =>
        cases done' : snapshot.prepareBootstrap platform epoch runtime settings with
        | error error => rfl
        | ok bootstrap =>
            have agree := controllers_agree done done'
            simp [bind, Except.bind, agree]

def unixPlatform : Platform where
  windows := false
  controllerDir := "/run"
  controllerTemplate := none
  payloadDigest := id
  managedUnixEndpoint := .ok
  validateSocketPath _ := .ok ()
  httpHost text := .ok (.http text)
  serialize _ := .ok []

/-- A configuration with one inbound port. -/
def ported : Snapshot := ⟨.cons "mixed-port" (.int 7890) .nil, "", rfl⟩

theorem preparation_changes_its_own_port : ∃ epoch full bootstrap,
    ported.prepareFull unixPlatform epoch [.localIpc] none = .ok full ∧
    ported.prepareBootstrap unixPlatform epoch [.localIpc] none = .ok bootstrap ∧
    full.document.get "mixed-port" = some (.int 7890) ∧
    bootstrap.document.get "mixed-port" = some (.int 0) ∧
    DifferInInbounds bootstrap.document full.document := by
  have kept := preparation_changes_its_own ported unixPlatform
    ⟨1, Nat.one_pos, Epoch.one_bounded⟩ [.localIpc] none
  refine ⟨⟨1, Nat.one_pos, Epoch.one_bounded⟩, _, _, rfl, rfl, ?_, ?_, (kept.2.1 _ _ rfl rfl).1⟩
  · decide
  · decide

end Nyanpasu
