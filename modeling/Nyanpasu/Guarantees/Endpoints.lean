import Nyanpasu.Api.Client

/-! # Endpoints of the controller

Where a request goes when its endpoint is resolved, and which resource a list of dynamic
segments addresses.
-/

namespace Nyanpasu

namespace Api

variable {η φ : Type}

/-! ## The origin of a request -/

/-- An endpoint that cannot lead to another origin: the guard refuses it, or, once the join
    has dropped its leading slashes and cleaned it, it refers to the base's own authority. -/
def Stays (s : Setting η φ) (base : Url.Web η) (endpoint : String) : Prop :=
  (∃ url, Url.parse s.toOthers endpoint.toList = .ok url) ∨
    (Url.refer base.scheme (Url.clean (endpoint.toList.dropWhile (· == '/')))).AtHome s.toOthers base

variable {s : Setting η φ} {endpoint : String}

theorem endpoint_of_parse {url : Url η φ} (client : Client η φ)
    (absolute : Url.parse s.toOthers endpoint.toList = .ok url) :
    client.endpoint s endpoint = .error (.absoluteEndpoint endpoint) := by
  rw [Client.endpoint, absolute]

theorem endpoint_eq_ok_iff {error : Url.ParseError} (client : Client η φ) (url : Url η φ)
    (relative : Url.parse s.toOthers endpoint.toList = .error error) :
    client.endpoint s endpoint = .ok url ↔
      Url.join s.toOthers client.baseUrl.url (endpoint.toList.dropWhile (· == '/')) = .ok url := by
  rw [Client.endpoint, relative]
  cases joined : Url.join s.toOthers client.baseUrl.url (endpoint.toList.dropWhile (· == '/')) with
  | error source => simp [Except.mapError]
  | ok url => simp [Except.mapError]

theorem endpoint_stays_iff (s : Setting η φ) (client : Client η φ) (endpoint : String) :
    (∀ url, client.endpoint s endpoint = .ok url → url.SameOrigin client.baseUrl.url) ↔
      Stays s client.baseUrl.url endpoint := by
  cases parsed : Url.parse s.toOthers endpoint.toList with
  | ok absolute =>
      refine ⟨fun _ => .inl ⟨absolute, parsed⟩, fun _ url resolved => ?_⟩
      exact absurd ((endpoint_of_parse client parsed).symm.trans resolved) (by simp)
  | error error =>
      have home : Stays s client.baseUrl.url endpoint ↔
          (Url.refer client.baseUrl.url.scheme
            (Url.clean (endpoint.toList.dropWhile (· == '/')))).AtHome s.toOthers
              client.baseUrl.url := by
        rw [Stays, parsed]
        simp
      rw [home, ← Url.follow_stays_iff]
      exact forall_congr' fun url => imp_congr (endpoint_eq_ok_iff client url parsed) Iff.rfl

variable {client : Client η φ}

theorem request_eq_ok {method : Method} {request : Request η φ}
    (made : client.request s method endpoint = .ok request) :
    client.endpoint s endpoint = .ok request.url ∧ request.authorization = client.authorization := by
  rw [Client.request] at made
  cases resolved : client.endpoint s endpoint with
  | error error =>
      rw [resolved] at made
      exact absurd made (by simp [Except.map])
  | ok url =>
      rw [resolved] at made
      cases made
      exact ⟨rfl, rfl⟩

/-- An endpoint resolves to the controller's origin alone exactly when it stays there, and then
    the secret goes nowhere else. -/
theorem requests_stay_at_origin_iff (s : Setting η φ) (client : Client η φ) (endpoint : String) :
    ((∀ url, client.endpoint s endpoint = .ok url → url.SameOrigin client.baseUrl.url) ↔
      Stays s client.baseUrl.url endpoint) ∧
    (Stays s client.baseUrl.url endpoint → ∀ method request,
      client.request s method endpoint = .ok request →
        request.url.SameOrigin client.baseUrl.url ∧
        request.authorization = client.authorization) := by
  refine ⟨endpoint_stays_iff s client endpoint, fun stays method request made => ?_⟩
  obtain ⟨resolved, authorization⟩ := request_eq_ok made
  exact ⟨(endpoint_stays_iff s client endpoint).mpr stays request.url resolved, authorization⟩

/-- Two backslashes are no scheme to the guard and an authority to the join. -/
theorem backslashes_leave_origin :
    ∃ host client request, Host.ofHttp unixSetting "127.0.0.1:9090" = .ok host ∧
      build unixSetting host (some "secret") = .ok client ∧
      client.request unixSetting .get "\\\\evil.example/x" = .ok request ∧
      request.authorization = some "Bearer secret" ∧
      ¬ request.url.SameOrigin client.baseUrl.url := by
  let base : Url.Web (List Char) :=
    { scheme := .http, username := [], password := [], host := "127.0.0.1".toList,
      port := some 9090, path := [[]], query := none, fragment := none }
  let away : Url.Web (List Char) :=
    { base with host := "evil.example".toList, port := none, path := [Text.bytes ['x']] }
  refine ⟨.http (.web base), ⟨.http (.web base), ⟨base, rfl, rfl, rfl⟩, some "Bearer secret"⟩,
    ⟨.get, .web away, some "Bearer secret"⟩, by decide +kernel, by decide +kernel,
    by decide +kernel, rfl, ?_⟩
  intro same
  exact absurd (congrArg (fun origin => origin.2.2) same) (by decide)

/-! ## Dynamic segments -/

/-- The URL's path is the collection's, followed by one segment for each name, and each
    segment reads back as its name. -/
def Addresses (s : Setting η φ) (client : Client η φ) (collection : Collection)
    (names : List String) : Prop :=
  ∃ url added, client.endpoint s collection.path = .ok (.web url) ∧
    client.endpointWithSegments s collection.path names =
      .ok (.web { url with path := url.path ++ added }) ∧
    added.map Url.decode = names.map fun name => Text.bytes name.toList

def AllPlain (names : List String) : Prop := ∀ name ∈ names, Url.Plain name.toList

theorem allPlain_iff (names : List String) :
    AllPlain names ↔ ∀ segment ∈ names.map String.toList, Url.Plain segment := by
  simp [AllPlain]

/-- The URL of a collection, and the path that segments are pushed onto. -/
theorem endpointWithSegments_collection (s : Setting η φ) (client : Client η φ)
    (collection : Collection) :
    ∃ url : Url.Web η, url.path ≠ [] ∧ url.path ≠ [[]] ∧
      client.endpoint s collection.path = .ok (.web url) ∧
      ∀ names, client.endpointWithSegments s collection.path names =
        .ok (.web { url with path := Url.pushAll url.path (names.map String.toList) }) := by
  have resolved := client.endpoint_collection s collection
  refine ⟨_, ?_, ?_, resolved, fun names => ?_⟩
  · cases collection <;> simp [Collection.segments]
  · intro single
    have last := congrArg List.getLast? single
    revert last
    cases collection <;> simp [Collection.segments]
  · rw [Client.endpointWithSegments, resolved]
    rfl

theorem addresses_iff (s : Setting η φ) (client : Client η φ) (collection : Collection)
    (names : List String) : Addresses s client collection names ↔ AllPlain names := by
  obtain ⟨url, nonempty, started, resolved, pushed⟩ :=
    endpointWithSegments_collection s client collection
  rw [allPlain_iff, ← Url.pushAll_reads_iff nonempty started, List.map_map]
  constructor
  · rintro ⟨url', added, resolved', extended, reads⟩
    cases resolved.symm.trans resolved'
    rw [pushed, Except.ok.injEq, Url.web.injEq] at extended
    exact ⟨added, congrArg Url.Web.path extended, reads⟩
  · rintro ⟨added, path, reads⟩
    refine ⟨url, added, resolved, ?_, reads⟩
    rw [pushed, path]

theorem endpointWithSegments_injective {collection : Collection} {names names' : List String}
    (plain : AllPlain names) (plain' : AllPlain names')
    (same : client.endpointWithSegments s collection.path names = client.endpointWithSegments s collection.path names')
    : names = names' := by
  obtain ⟨url, nonempty, started, _, pushed⟩ := endpointWithSegments_collection s client collection
  rw [pushed, pushed, Except.ok.injEq, Url.web.injEq] at same
  have texts := Url.pushAll_injective nonempty started ((allPlain_iff names).mp plain)
    ((allPlain_iff names').mp plain') (congrArg Url.Web.path same)
  exact List.map_injective_iff.mpr (fun _ _ => String.toList_inj.mp) texts

/-- A list of names addresses a resource of its own exactly when every name is plain, and
    different lists of plain names address different resources. -/
theorem segments_address_one_resource_iff (s : Setting η φ) (client : Client η φ)
    (collection : Collection) :
    (∀ names, Addresses s client collection names ↔ AllPlain names) ∧
    ∀ names names', AllPlain names → AllPlain names' →
      client.endpointWithSegments s collection.path names =
        client.endpointWithSegments s collection.path names' → names = names' :=
  ⟨addresses_iff s client collection, fun _ _ => endpointWithSegments_injective⟩

/-- The storage keys `.` and `..` both address the whole storage, and a key with a tab is the
    key without it. -/
theorem storage_keys_collide :
    ∃ host client, Host.ofHttp unixSetting "127.0.0.1:9090" = .ok host ∧
      build unixSetting host none = .ok client ∧
      ¬ Addresses unixSetting client .storage ["."] ∧
      client.endpointWithSegments unixSetting "/storage" ["."] =
        client.endpointWithSegments unixSetting "/storage" [".."] ∧
      client.endpointWithSegments unixSetting "/storage" ["."] =
        client.endpoint unixSetting "/storage" ∧
      client.endpointWithSegments unixSetting "/storage" ["a\tb"] =
        client.endpointWithSegments unixSetting "/storage" ["ab"] := by
  let base : Url.Web (List Char) :=
    { scheme := .http, username := [], password := [], host := "127.0.0.1".toList,
      port := some 9090, path := [[]], query := none, fragment := none }
  refine ⟨.http (.web base), ⟨.http (.web base), ⟨base, rfl, rfl, rfl⟩, none⟩, by decide +kernel,
    by decide +kernel, ?_, by decide +kernel, by decide +kernel, by decide +kernel⟩
  rw [addresses_iff]
  exact fun plain => (plain "." List.mem_cons_self).1 rfl

end Api

end Nyanpasu
