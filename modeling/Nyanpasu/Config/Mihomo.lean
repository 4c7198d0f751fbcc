import Nyanpasu.Config
import Nyanpasu.Config.Diff
import Nyanpasu.Config.Patch

/-! # Changes of a Mihomo configuration

`config/mihomo.rs`: which inbounds keep two cores from running side by side, how a
document is stripped of its inbounds, and how a difference of two documents becomes a
patch that a running core takes.
-/

namespace Nyanpasu

namespace Mihomo

/-! ## The tables -/

def inboundPortFields : List String :=
  ["port", "socks-port", "redir-port", "tproxy-port", "mixed-port"]

def patchFields : List String :=
  ["port", "socks-port", "redir-port", "tproxy-port", "mixed-port", "tun", "tuic-server",
    "ss-config", "vmess-config", "tcptun-config", "udptun-config", "allow-lan",
    "skip-auth-prefixes", "lan-allowed-ips", "lan-disallowed-ips", "bind-address", "mode",
    "log-level", "ipv6", "sniffing", "tcp-concurrent", "find-process-mode", "interface-name"]

def tunPatchFields : List String :=
  ["enable", "device", "stack", "dns-hijack", "auto-route", "auto-detect-interface", "mtu", "gso",
    "gso-max-size", "inet6-address", "iproute2-table-index", "iproute2-rule-index",
    "auto-redirect", "auto-redirect-input-mark", "auto-redirect-output-mark",
    "auto-redirect-iproute2-fallback-rule-index", "loopback-address", "strict-route",
    "route-address", "route-address-set", "route-exclude-address", "route-exclude-address-set",
    "include-interface", "exclude-interface", "include-uid", "include-uid-range", "exclude-uid",
    "exclude-uid-range", "include-android-user", "include-package", "exclude-package",
    "include-mac-address", "exclude-mac-address", "endpoint-independent-nat", "udp-timeout",
    "icmp-timeout", "file-descriptor", "inet4-route-address", "inet6-route-address",
    "inet4-route-exclude-address", "inet6-route-exclude-address", "recvmsgx", "sendmsgx"]

def tuicServerPatchFields : List String :=
  ["enable", "listen", "token", "users", "certificate", "private-key", "congestion-controller",
    "max-idle-time", "authentication-timeout", "alpn", "max-udp-relay-packet-size", "cwnd",
    "bbr-profile"]

def reloadFields : List String :=
  ["proxies", "proxy-groups", "proxy-providers", "rule-providers", "providers", "rules", "hosts",
    "dns"]

/-! ## The bootstrap document -/

def zeroListener (doc : Document) (key : String) : Document :=
  if (((doc.get key).bind Node.asI64).filter (· ≠ 0)).isSome then doc.insert key (.int 0) else doc

def zeroTun (doc : Document) : Document :=
  match (doc.get "tun").bind Node.asMapping with
  | some tun =>
      if (tun.get "enable").bind Node.asBool = some true then
        doc.insert "tun" (.mapping (tun.insert "enable" (.bool false)))
      else doc
  | none => doc

def zeroInbounds (doc : Document) : Document :=
  zeroTun (inboundPortFields.foldl zeroListener doc)

/-- What `zeroListener` leaves of a value. -/
def zeroed (value : Node) : Node :=
  if (value.asI64.filter (· ≠ 0)).isSome then .int 0 else value

/-- What `zeroTun` leaves of a value. -/
def disabled (value : Node) : Node :=
  match value.asMapping with
  | some tun =>
      if (tun.get "enable").bind Node.asBool = some true then
        .mapping (tun.insert "enable" (.bool false))
      else value
  | none => value

theorem zeroed_zeroed (value : Node) : zeroed (zeroed value) = zeroed value := by
  by_cases active : (value.asI64.filter (· ≠ 0)).isSome = true
  · have zero : zeroed value = .int 0 := by simp only [zeroed, active, if_true]
    rw [zero]
    rfl
  · have same : zeroed value = value := by simp only [zeroed, active]; rfl
    rw [same, same]

theorem zeroListener_eq (doc : Document) (key : String) :
    zeroListener doc key = match doc.get key with
      | some value => doc.insert key (zeroed value)
      | none => doc := by
  unfold zeroListener
  cases present : doc.get key with
  | none => rfl
  | some value =>
      by_cases active : (value.asI64.filter (· ≠ 0)).isSome = true
      · simp only [Option.bind_some, active, if_true, zeroed]
      · simp only [Option.bind_some, active, zeroed]
        exact (Document.insert_get present).symm

theorem zeroTun_eq (doc : Document) :
    zeroTun doc = match doc.get "tun" with
      | some value => doc.insert "tun" (disabled value)
      | none => doc := by
  unfold zeroTun
  cases present : doc.get "tun" with
  | none => rfl
  | some value =>
      cases inner : value.asMapping with
      | none => simp only [Option.bind_some, inner, disabled, Document.insert_get present]
      | some tun =>
          by_cases enabled : (tun.get "enable").bind Node.asBool = some true
          · simp only [Option.bind_some, inner, disabled, enabled, if_true]
          · simp only [Option.bind_some, inner, disabled, enabled, if_false,
              Document.insert_get present]

theorem get_zeroListener (doc : Document) (key other : String) :
    (zeroListener doc key).get other =
      if other = key then (doc.get other).map zeroed else doc.get other := by
  rw [zeroListener_eq]
  by_cases same : other = key
  · subst same
    cases present : doc.get other <;> simp [present]
  · cases present : doc.get key <;> simp [same]

theorem keys_zeroListener (doc : Document) (key : String) :
    (zeroListener doc key).keys = doc.keys := by
  rw [zeroListener_eq]
  cases present : doc.get key with
  | none => rfl
  | some value => exact Document.keys_insert (by simp [present]) _

theorem get_zeroListeners (fields : List String) (doc : Document) (key : String) :
    (fields.foldl zeroListener doc).get key =
      if key ∈ fields then (doc.get key).map zeroed else doc.get key := by
  induction fields generalizing doc with
  | nil => simp
  | cons field fields ih =>
      rw [List.foldl_cons, ih, get_zeroListener]
      by_cases here : key = field
      · subst here
        -- a port named twice would be zeroed twice
        have twice : zeroed ∘ zeroed = zeroed := funext zeroed_zeroed
        simp [Option.map_map, twice]
      · simp [here]

theorem keys_zeroListeners (fields : List String) (doc : Document) :
    (fields.foldl zeroListener doc).keys = doc.keys := by
  induction fields generalizing doc with
  | nil => rfl
  | cons field fields ih => rw [List.foldl_cons, ih, keys_zeroListener]

theorem get_zeroInbounds_port {key : String} (port : key ∈ inboundPortFields) (doc : Document) :
    (zeroInbounds doc).get key = (doc.get key).map zeroed := by
  have other : key ≠ "tun" := by
    rintro rfl
    exact absurd port (by decide)
  have zeroes := get_zeroListeners inboundPortFields doc key
  rw [if_pos port] at zeroes
  rw [zeroInbounds, zeroTun_eq]
  cases present : (inboundPortFields.foldl zeroListener doc).get "tun" with
  | none => exact zeroes
  | some value => exact (Document.get_insert_ne other _).trans zeroes

theorem get_zeroInbounds_tun (doc : Document) :
    (zeroInbounds doc).get "tun" = (doc.get "tun").map disabled := by
  have kept := get_zeroListeners inboundPortFields doc "tun"
  rw [if_neg (by decide)] at kept
  rw [zeroInbounds, zeroTun_eq]
  cases present : doc.get "tun" with
  | none => simp [kept, present]
  | some value => simp [kept, present]

theorem get_zeroInbounds_other {key : String} (port : key ∉ inboundPortFields)
    (tun : key ≠ "tun") (doc : Document) : (zeroInbounds doc).get key = doc.get key := by
  have kept := get_zeroListeners inboundPortFields doc key
  rw [if_neg port] at kept
  rw [zeroInbounds, zeroTun_eq]
  cases present : (inboundPortFields.foldl zeroListener doc).get "tun" with
  | none => exact kept
  | some value => exact (Document.get_insert_ne tun _).trans kept

theorem keys_zeroInbounds (doc : Document) : (zeroInbounds doc).keys = doc.keys := by
  rw [← keys_zeroListeners inboundPortFields doc, zeroInbounds, zeroTun_eq]
  cases present : (inboundPortFields.foldl zeroListener doc).get "tun" with
  | none => rfl
  | some value => exact Document.keys_insert (by simp [present]) _

/-- The pass only writes over what is there. -/
theorem aligned_zeroInbounds (doc : Document) : Document.Aligned [] doc (zeroInbounds doc) := by
  have ports : ∀ (fields : List String) (doc' : Document), Document.Aligned [] doc doc' →
      Document.Aligned [] doc (fields.foldl zeroListener doc') := by
    intro fields
    induction fields with
    | nil => exact fun _ aligned => aligned
    | cons field fields ih =>
        intro doc' aligned
        apply ih
        rw [zeroListener_eq]
        cases present : doc'.get field with
        | none => exact aligned
        | some value => exact aligned.insert List.not_mem_nil (by simp [present]) _
  rw [zeroInbounds, zeroTun_eq]
  cases present : (inboundPortFields.foldl zeroListener doc).get "tun" with
  | none => exact ports _ _ (Document.aligned_refl [] doc)
  | some value =>
      exact (ports _ _ (Document.aligned_refl [] doc)).insert List.not_mem_nil (by simp [present]) _

/-! ## Inbounds that block an overlap -/

def dnsListen (doc : Document) : Option Node :=
  ((doc.get "dns").bind Node.asMapping).bind (·.get "listen")

theorem dnsListen_zeroInbounds (doc : Document) : dnsListen (zeroInbounds doc) = dnsListen doc := by
  rw [dnsListen, get_zeroInbounds_other (by decide) (by decide), dnsListen]

def nonemptyCollection : Node → Bool
  | .null => false
  | .string value => value ≠ ""
  | .sequence items => !items.toList.isEmpty
  | .mapping entries => !entries.isEmpty
  | .bool _ | .int _ | .float _ => true

def portBlocks (doc : Document) (key : String) : Bool :=
  (doc.get key).any fun value => value.asI64.isNone

def tunBlocks (doc : Document) : Bool :=
  (doc.get "tun").any fun value =>
    match value.asMapping with
    | none => true
    | some tun => (tun.get "enable").any fun enable => enable.asBool.isNone

def tuicBlocks (doc : Document) : Bool :=
  (doc.get "tuic-server").any fun value =>
    match value.asMapping with
    | none => true
    | some tuic =>
        match tuic.get "enable" with
        | some enable => enable.asBool ≠ some false
        | none => !tuic.isEmpty

def configBlocks (doc : Document) (key : String) : Bool :=
  (doc.get key).any fun value => value.asStr ≠ some ""

def collectionBlocks (doc : Document) (key : String) : Bool := (doc.get key).any nonemptyCollection

def contains (text part : String) : Bool :=
  text.toList.tails.any (part.toList.isPrefixOf ·)

/-- A root key that looks like an inbound and is none of those known. -/
def unknownInbound (key : String) : Bool :=
  let inboundLike := "-port".toList.isSuffixOf key.toList || contains key "listener" ||
    contains key "inbound" || contains key "tunnel"
  inboundLike && !patchFields.contains key && !(["listeners", "tunnels"].contains key)

/-- The checks after that of the DNS listener, in their order. -/
def surfaceBlocks (doc : Document) : Bool :=
  inboundPortFields.any (portBlocks doc) || tunBlocks doc || tuicBlocks doc ||
    ["ss-config", "vmess-config", "tcptun-config", "udptun-config"].any (configBlocks doc) ||
    ["listeners", "tunnels"].any (collectionBlocks doc) || doc.keys.any unknownInbound

/-- A DNS listener that is there decides alone. -/
def overlapBlock (doc : Document) : Option OverlapBlock :=
  match dnsListen doc with
  | some listen =>
      match listen.asStr with
      | some text => if text = "" then none else some .dnsListen
      | none => if listen.isNull then none else some .inboundSurface
  | none => if surfaceBlocks doc then some .inboundSurface else none

/-! ## Classification -/

inductive ConfigError where
  | invalidConfig (message : String)
  deriving DecidableEq

/-- What a later read of the configuration must show. -/
structure RuntimeProjection where
  expected : List (List String × Node)

def RuntimeProjection.verify (projection : RuntimeProjection) (actual : Node) : Bool :=
  projection.expected.all fun leaf => (actual.valueAt leaf.1).any fun value => value.eqv leaf.2

inductive ConfigChange (ip : AddressText) where
  | noop
  | patch (patch : ConfigPatch ip) (projection : RuntimeProjection)
  | reload
  | switch

def isDnsListen (path : List String) : Bool :=
  path.head? = some "dns" && path.tail.head? = some "listen"

def patchNestedPathIsSupported : List String → Bool
  | [] => false
  | root :: rest =>
      if root = "tun" then rest.head?.any tunPatchFields.contains
      else if root = "tuic-server" then rest.head?.any tuicServerPatchFields.contains
      else rest.isEmpty

def patchable (entry : DiffEntry) : Bool :=
  entry.new.isSome &&
    entry.path.head?.any fun root =>
      patchFields.contains root && patchNestedPathIsSupported entry.path

def reloadable (entry : DiffEntry) : Bool :=
  entry.path.head?.any fun root =>
    reloadFields.contains root && !isDnsListen entry.path &&
      !(root = "dns" && entry.path.length = 1)

def filterEntries (allowed : List String) : Document → Document
  | .nil => .nil
  | .cons key value rest =>
      if allowed.contains key then .cons key value (filterEntries allowed rest)
      else filterEntries allowed rest

def filterMapping (value : Node) (allowed : List String) : Except ConfigError Node :=
  match value.asMapping with
  | some entries => .ok (.mapping (filterEntries allowed entries))
  | none => .error (.invalidConfig "patchable nested config must be a mapping")

/-- The part of a root value that goes into a patch. -/
def patchValue (root : String) (value : Node) : Except ConfigError Node :=
  if root = "tun" then filterMapping value tunPatchFields
  else if root = "tuic-server" then filterMapping value tuicServerPatchFields
  else .ok value

/-- The changed roots with their desired values; `none` where one of them is gone. -/
def patchDocument (desired : Document) :
    List String → Document → Except ConfigError (Option Document)
  | [], document => .ok (some document)
  | root :: roots, document =>
      match desired.get root with
      | none => .ok none
      | some value => do
          let value ← patchValue root value
          patchDocument desired roots (document.insert root value)

def enableMissing (document : Document) (key : String) : Bool :=
  (document.get key).isSome &&
    ((((document.get key).bind Node.asMapping).bind (·.get "enable")).bind Node.asBool).isNone

def buildPatch (ip : AddressText) (desired : Document) (changes : List DiffEntry) :
    Except ConfigError (ConfigChange ip) := do
  match ← patchDocument desired (keySet (changes.filterMap (·.path.head?))) .nil with
  | none => return .switch
  | some document =>
      if ["tun", "tuic-server"].any (enableMissing document) then return .switch
      else
        match ConfigPatch.decode ip document with
        | none => return .switch
        | some patch =>
            return .patch patch ⟨(Node.mapping patch.encode).collectLeaves []⟩

def classifyDocuments (ip : AddressText) (current desired : Document) :
    Except ConfigError (ConfigChange ip) :=
  if !same (dnsListen current) (dnsListen desired) then .ok .switch
  else
    let changes := diff current desired
    if changes.isEmpty then .ok .noop
    else if changes.all patchable then buildPatch ip desired changes
    else if changes.all reloadable then .ok .reload
    else .ok .switch

def restorationPatch (ip : AddressText) (bootstrap desired : Document) :
    Except ConfigError (Option (ConfigPatch ip × RuntimeProjection)) := do
  match ← classifyDocuments ip bootstrap desired with
  | .noop => return none
  | .patch patch projection => return some (patch, projection)
  | .reload | .switch =>
      .error (.invalidConfig "graceful bootstrap cannot be restored losslessly with ConfigPatch")

end Mihomo

end Nyanpasu
