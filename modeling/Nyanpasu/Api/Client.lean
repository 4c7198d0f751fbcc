import Nyanpasu.Url

/-! # The controller client

`clash-api/src/client.rs`: which base URLs a client accepts, how an endpoint is resolved
against one, and the request that carries the controller's secret there.
-/

namespace Nyanpasu

namespace Api

variable {η φ : Type}

inductive Error (η φ : Type) where
  | invalidBaseUrl (value : String) (source : Url.ParseError)
  | unsupportedUrlScheme (scheme : List Char)
  | baseUrlHasQueryOrFragment (url : Url η φ)
  | absoluteEndpoint (endpoint : String)
  | invalidEndpoint (endpoint : String) (source : Url.ParseError)
  | cannotAppendPathSegment (url : Url η φ)
  | unsupportedTransport (transport platform : String)
  | invalidSecret
  | buildClient
  deriving Repr, DecidableEq

/-- What the client takes from the platform and its libraries. -/
structure Setting (η φ : Type) extends Url.Others η φ where
  unix : Bool
  windows : Bool
  os : String
  /-- `HeaderValue::from_str` accepts the text. -/
  headerValue : String → Bool
  /-- The HTTP client can be built. -/
  builds : Bool
  localhost : η
  local_ : host "localhost".toList = .ok localhost

/-- A Unix platform whose hosts are their own texts. -/
def unixSetting : Setting (List Char) Empty where
  host text := .ok text
  foreign _ _ := .error (.other "unknown scheme")
  extend := nofun
  unix := true
  windows := false
  os := "linux"
  headerValue _ := true
  builds := true
  localhost := "localhost".toList
  local_ := rfl

/-! ## Base URLs -/

/-- A base URL that the client has accepted. -/
structure BaseUrl (η : Type) where
  url : Url.Web η
  query : url.query = none
  fragment : url.fragment = none
  /-- The path ends with a slash. -/
  slash : url.path.getLast? = some []
  deriving Repr, DecidableEq

/-- A URL of a web scheme can always be a base, so that check of the source has nothing left
    to refuse. -/
def normalizeBaseUrl : Url η φ → Except (Error η φ) (BaseUrl η)
  | .foreign scheme _ => .error (.unsupportedUrlScheme scheme.text)
  | .web url =>
      if bare : url.query = none ∧ url.fragment = none then
        if slash : url.path.getLast? = some [] then .ok ⟨url, bare.1, bare.2, slash⟩
        else .ok ⟨{ url with path := url.path ++ [[]] }, bare.1, bare.2, List.getLast?_concat⟩
      else .error (.baseUrlHasQueryOrFragment (.web url))

inductive Host (η φ : Type) where
  | namedPipe (path : String)
  | unixSocket (path : String)
  | http (url : Url η φ)
  deriving Repr, DecidableEq

def parseCompleteUrl (s : Setting η φ) (value : String) : Except (Error η φ) (Host η φ) :=
  match Url.parse s.toOthers value.toList with
  | .error source => .error (.invalidBaseUrl value source)
  | .ok url => (normalizeBaseUrl url).map fun base => .http (.web base.url)

def parseControllerUrl (s : Setting η φ) (value defaultScheme : String) :
    Except (Error η φ) (Host η φ) :=
  if (Text.splitOnce "://".toList value.toList).isSome then parseCompleteUrl s value
  else parseCompleteUrl s (defaultScheme ++ "://" ++ value)

/-- `Host::http`: either `host:port` or a complete URL. -/
def Host.ofHttp (s : Setting η φ) (value : String) : Except (Error η φ) (Host η φ) :=
  parseControllerUrl s value "http"

def Host.ofHttps (s : Setting η φ) (value : String) : Except (Error η φ) (Host η φ) :=
  parseControllerUrl s value "https"

def localTransportBaseUrlText : String := "http://localhost/"

/-- The parsed `LOCAL_TRANSPORT_BASE_URL`. -/
def localTransportBaseUrl (s : Setting η φ) : BaseUrl η where
  url :=
    { scheme := .http, username := [], password := [], host := s.localhost, port := none,
      path := [[]], query := none, fragment := none }
  query := rfl
  fragment := rfl
  slash := rfl

/-- The `expect` on the local base URL holds. -/
theorem parse_localTransportBaseUrl (s : Setting η φ) :
    Url.parse s.toOthers localTransportBaseUrlText.toList =
      .ok (.web (localTransportBaseUrl s).url) := by
  have scheme : Url.scheme? (Url.clean localTransportBaseUrlText.toList) =
      some (['h', 't', 't', 'p'], "//localhost/".toList) := by decide
  have text : ("//localhost/".toList.dropWhile Url.isSlash).takeWhile (!Url.endsAuthority ·) =
      "localhost".toList := by decide
  have alone : Url.credentials "localhost".toList = (none, "localhost".toList) := by decide
  have bare : Url.splitHost false "localhost".toList = ("localhost".toList, none) := by decide
  rw [Url.parse, scheme]
  show Except.map _ (Url.readWeb s.toOthers .http ("//localhost/".toList.dropWhile Url.isSlash)) = _
  rw [Url.readWeb, text, Url.readAuthority, alone]
  simp only [bare, s.local_]
  rfl

/-! ## The client -/

structure Client (η φ : Type) where
  host : Host η φ
  baseUrl : BaseUrl η
  authorization : Option String
  deriving Repr, DecidableEq

/-- The base URL of a host on this platform. -/
def resolveHost (s : Setting η φ) : Host η φ → Except (Error η φ) (Host η φ × BaseUrl η)
  | .http url => (normalizeBaseUrl url).map fun base => (.http (.web base.url), base)
  | .namedPipe path =>
      if s.windows then .ok (.namedPipe path, localTransportBaseUrl s)
      else .error (.unsupportedTransport "Windows named pipe" s.os)
  | .unixSocket path =>
      if s.unix then .ok (.unixSocket path, localTransportBaseUrl s)
      else .error (.unsupportedTransport "Unix domain socket" s.os)

/-- A secret goes to HTTP controllers only. -/
def authorize (s : Setting η φ) (host : Host η φ) (secret : Option String) :
    Except (Error η φ) (Option String) :=
  match host, secret.filter (!·.isEmpty) with
  | .http _, some secret =>
      if s.headerValue ("Bearer " ++ secret) then .ok (some ("Bearer " ++ secret))
      else .error .invalidSecret
  | _, _ => .ok none

/-- `ClientBuilder::build`. -/
def build (s : Setting η φ) (host : Host η φ) (secret : Option String) :
    Except (Error η φ) (Client η φ) := do
  let (host, baseUrl) ← resolveHost s host
  let authorization ← authorize s host secret
  if s.builds then return ⟨host, baseUrl, authorization⟩ else throw .buildClient

namespace Client

/-- Resolves a relative endpoint.  The guard reads the endpoint as it stands, the join reads
    it without its leading slashes. -/
def endpoint (s : Setting η φ) (client : Client η φ) (endpoint : String) :
    Except (Error η φ) (Url η φ) :=
  match Url.parse s.toOthers endpoint.toList with
  | .ok _ => .error (.absoluteEndpoint endpoint)
  | .error _ =>
      (Url.join s.toOthers client.baseUrl.url (endpoint.toList.dropWhile (· == '/'))).mapError
        (.invalidEndpoint endpoint)

def endpointWithSegments (s : Setting η φ) (client : Client η φ) (endpoint : String)
    (segments : List String) : Except (Error η φ) (Url η φ) := do
  match ← client.endpoint s endpoint with
  | .web url => return .web { url with path := Url.pushAll url.path (segments.map String.toList) }
  | .foreign scheme rest =>
      match s.extend rest (segments.map String.toList) with
      | some rest => return .foreign scheme rest
      | none => throw (.cannotAppendPathSegment (.foreign scheme rest))

end Client

/-! ## Requests -/

inductive Method where
  | get
  | post
  | put
  | patch
  | delete
  deriving Repr, DecidableEq

structure Request (η φ : Type) where
  method : Method
  url : Url η φ
  authorization : Option String
  deriving Repr, DecidableEq

namespace Client

/-- What `reqwest` is handed: the client's secret goes with every request.  A userinfo of the
    URL stays here; `reqwest` makes a `Basic` header of it. -/
def requestUrl (client : Client η φ) (method : Method) (url : Url η φ) : Request η φ :=
  ⟨method, url, client.authorization⟩

def request (s : Setting η φ) (client : Client η φ) (method : Method) (endpoint : String) :
    Except (Error η φ) (Request η φ) :=
  (client.endpoint s endpoint).map (client.requestUrl method)

end Client

/-! ## The resources of the API -/

/-- The endpoints that take dynamic segments. -/
inductive Collection where
  | proxies
  | group
  | proxyProviders
  | ruleProviders
  | connections
  | storage
  deriving Repr, DecidableEq

def Collection.path : Collection → String
  | proxies => "/proxies"
  | group => "/group"
  | proxyProviders => "/providers/proxies"
  | ruleProviders => "/providers/rules"
  | connections => "/connections"
  | storage => "/storage"

def Collection.segments : Collection → List String
  | proxies => ["proxies"]
  | group => ["group"]
  | proxyProviders => ["providers", "proxies"]
  | ruleProviders => ["providers", "rules"]
  | connections => ["connections"]
  | storage => ["storage"]

/-- A collection is below the base URL. -/
theorem Client.endpoint_collection (s : Setting η φ) (client : Client η φ)
    (collection : Collection) :
    client.endpoint s collection.path = .ok (.web { client.baseUrl.url with
      path := client.baseUrl.url.path.dropLast ++
        collection.segments.map fun segment => Text.bytes segment.toList }) := by
  have relative : Url.scheme? (Url.clean collection.path.toList) = none := by
    cases collection <;> decide
  have relative' : Url.scheme?
      (Url.clean (collection.path.toList.dropWhile (· == '/'))) = none := by
    cases collection <;> decide
  have own : Url.slashes (Url.clean (collection.path.toList.dropWhile (· == '/'))) < 2 := by
    cases collection <;> decide
  rw [Client.endpoint, Url.parse_relative s.toOthers relative,
    Url.join_relative s.toOthers client.baseUrl.url relative' own]
  have noDots : ∀ segment ∈ collection.segments.map fun segment => Text.bytes segment.toList,
      Url.isDot segment = false ∧ Url.isDoubleDot segment = false := by
    cases collection <;> decide
  have path := Url.readSegments_of_no_dots client.baseUrl.url.path.dropLast noDots
  have placed : Url.joinOwn client.baseUrl.url
      (Url.clean (collection.path.toList.dropWhile (· == '/'))) =
        { client.baseUrl.url with
          path := Url.readSegments client.baseUrl.url.path.dropLast
            (collection.segments.map fun segment => Text.bytes segment.toList)
          query := none
          fragment := none } := by
    cases collection <;> rfl
  rw [placed, path]
  simp only [Except.mapError, client.baseUrl.query, client.baseUrl.fragment]

end Api

end Nyanpasu
