import Nyanpasu.Config.Document

/-! # The body of `PATCH /configs`

`ConfigPatch`, `TunPatch` and `TuicServerPatch` of `clash-api`, as tables of their
fields with the types of those fields, and the way a value takes through a typed
field: `serde` deserialises it or refuses it, and serialises what it got.  A field
that is absent or null is `None` and is left out of the body.
-/

namespace Nyanpasu

/-- Network prefixes and addresses (`ipnet::IpNet`, `std::net::IpAddr`) with their text
    forms.  What is printed is read back. -/
structure AddressText where
  Net : Type
  Addr : Type
  parseNet : String → Option Net
  printNet : Net → String
  parseAddr : String → Option Addr
  printAddr : Addr → String
  parse_printNet : ∀ net, parseNet (printNet net) = some net
  parse_printAddr : ∀ addr, parseAddr (printAddr addr) = some addr

/-! ## Enumerations -/

inductive TunnelMode where
  | global
  | rule
  | direct
  deriving DecidableEq

inductive LogLevel where
  | debug
  | info
  | warning
  | error
  | silent
  deriving DecidableEq

inductive FindProcessMode where
  | strict
  | always
  | off
  deriving DecidableEq

/-- The last variant stands for every other name (`#[serde(other)]`). -/
inductive TunStack where
  | gvisor
  | system
  | mixed
  | unknown
  deriving DecidableEq

def TunnelMode.name : TunnelMode → String
  | global => "global"
  | rule => "rule"
  | direct => "direct"

def LogLevel.name : LogLevel → String
  | debug => "debug"
  | info => "info"
  | warning => "warning"
  | error => "error"
  | silent => "silent"

def FindProcessMode.name : FindProcessMode → String
  | strict => "strict"
  | always => "always"
  | off => "off"

def TunStack.name : TunStack → String
  | gvisor => "gVisor"
  | system => "system"
  | mixed => "mixed"
  | unknown => "Unknown"

/-- A closed enumeration takes only the names of its variants. -/
def ofName {α : Type} (variants : List α) (name : α → String) (text : String) : Option α :=
  variants.find? (name · = text)

def TunnelMode.ofName : String → Option TunnelMode :=
  Nyanpasu.ofName [global, rule, direct] name

def LogLevel.ofName : String → Option LogLevel :=
  Nyanpasu.ofName [debug, info, warning, error, silent] name

def FindProcessMode.ofName : String → Option FindProcessMode :=
  Nyanpasu.ofName [strict, always, off] name

def TunStack.ofName (text : String) : TunStack :=
  (Nyanpasu.ofName [gvisor, system, mixed] name text).getD unknown

theorem name_of_ofName {α : Type} {variants : List α} {name : α → String} {text : String}
    {variant : α} (found : ofName variants name text = some variant) : name variant = text := by
  simpa using List.find?_some found

/-! ## Typed fields -/

inductive FieldType where
  | i64
  | u32
  | bool
  | string
  | strings
  | u32s
  | i64s
  | nets
  | addrs
  | stringMap
  | tunnelMode
  | logLevel
  | findProcessMode
  | tunStack
  deriving DecidableEq

inductive Field (ip : AddressText) where
  | int (value : Int)
  | bool (value : Bool)
  | string (value : String)
  | strings (values : List String)
  | ints (values : List Int)
  | nets (values : List ip.Net)
  | addrs (values : List ip.Addr)
  | stringMap (entries : List (String × String))
  | tunnelMode (value : TunnelMode)
  | logLevel (value : LogLevel)
  | findProcessMode (value : FindProcessMode)
  | tunStack (value : TunStack)

def Node.asU32 : Node → Option Int
  | int value => if 0 ≤ value ∧ value < 2 ^ 32 then some value else none
  | _ => none

/-- A list field takes a sequence all of whose items have the item type. -/
def Node.asItems {α : Type} (item : Node → Option α) : Node → Option (List α)
  | sequence items => items.toList.mapM item
  | _ => none

def Node.asStringMap : Node → Option (List (String × String))
  | mapping entries => entries.toList.mapM fun entry => entry.2.asStr.map ((entry.1, ·))
  | _ => none

def Field.decode (ip : AddressText) : FieldType → Node → Option (Field ip)
  | .i64, value => value.asI64.map .int
  | .u32, value => value.asU32.map .int
  | .bool, value => value.asBool.map .bool
  | .string, value => value.asStr.map .string
  | .strings, value => (value.asItems Node.asStr).map .strings
  | .u32s, value => (value.asItems Node.asU32).map .ints
  | .i64s, value => (value.asItems Node.asI64).map .ints
  | .nets, value => (value.asItems fun item => item.asStr.bind ip.parseNet).map .nets
  | .addrs, value => (value.asItems fun item => item.asStr.bind ip.parseAddr).map .addrs
  | .stringMap, value => value.asStringMap.map .stringMap
  | .tunnelMode, value => (value.asStr.bind TunnelMode.ofName).map .tunnelMode
  | .logLevel, value => (value.asStr.bind LogLevel.ofName).map .logLevel
  | .findProcessMode, value => (value.asStr.bind FindProcessMode.ofName).map .findProcessMode
  | .tunStack, value => (value.asStr.map TunStack.ofName).map .tunStack

def Node.items (values : List Node) : Node := .sequence (.ofList values)

def Field.encode {ip : AddressText} : Field ip → Node
  | .int value => .int value
  | .bool value => .bool value
  | .string value => .string value
  | .strings values => .items (values.map .string)
  | .ints values => .items (values.map .int)
  | .nets values => .items (values.map fun net => .string (ip.printNet net))
  | .addrs values => .items (values.map fun addr => .string (ip.printAddr addr))
  | .stringMap entries => .mapping (.ofList (entries.map fun entry => (entry.1, .string entry.2)))
  | .tunnelMode value => .string value.name
  | .logLevel value => .string value.name
  | .findProcessMode value => .string value.name
  | .tunStack value => .string value.name

/-! ## The tables of fields -/

abbrev Schema := List (String × FieldType)

theorem Schema.mem_of_lookup {schema : Schema} {name : String} {type : FieldType}
    (found : schema.lookup name = some type) : (name, type) ∈ schema := by
  obtain ⟨before, after, split, _⟩ := List.lookup_eq_some_iff.mp found
  simp [split]

/-- `TunPatch`, without `enable`, which is not optional. -/
def tunPatchSchema : Schema :=
  [("device", .string), ("stack", .tunStack), ("dns-hijack", .strings), ("auto-route", .bool),
    ("auto-detect-interface", .bool), ("mtu", .u32), ("gso", .bool), ("gso-max-size", .u32),
    ("inet6-address", .nets), ("iproute2-table-index", .i64), ("iproute2-rule-index", .i64),
    ("auto-redirect", .bool), ("auto-redirect-input-mark", .u32),
    ("auto-redirect-output-mark", .u32), ("auto-redirect-iproute2-fallback-rule-index", .i64),
    ("loopback-address", .addrs), ("strict-route", .bool), ("route-address", .nets),
    ("route-address-set", .strings), ("route-exclude-address", .nets),
    ("route-exclude-address-set", .strings), ("include-interface", .strings),
    ("exclude-interface", .strings), ("include-uid", .u32s), ("include-uid-range", .strings),
    ("exclude-uid", .u32s), ("exclude-uid-range", .strings), ("include-android-user", .i64s),
    ("include-package", .strings), ("exclude-package", .strings),
    ("include-mac-address", .strings), ("exclude-mac-address", .strings),
    ("endpoint-independent-nat", .bool), ("udp-timeout", .i64), ("icmp-timeout", .i64),
    ("file-descriptor", .i64), ("inet4-route-address", .nets), ("inet6-route-address", .nets),
    ("inet4-route-exclude-address", .nets), ("inet6-route-exclude-address", .nets),
    ("recvmsgx", .bool), ("sendmsgx", .bool)]

/-- `TuicServerPatch`, without `enable`. -/
def tuicServerPatchSchema : Schema :=
  [("listen", .string), ("token", .strings), ("users", .stringMap), ("certificate", .string),
    ("private-key", .string), ("congestion-controller", .string), ("max-idle-time", .i64),
    ("authentication-timeout", .i64), ("alpn", .strings), ("max-udp-relay-packet-size", .i64),
    ("cwnd", .i64), ("bbr-profile", .string)]

/-- The fields of `ConfigPatch` before `tun` and `tuic-server`. -/
def portSchema : Schema :=
  [("port", .i64), ("socks-port", .i64), ("redir-port", .i64), ("tproxy-port", .i64),
    ("mixed-port", .i64)]

/-- The fields of `ConfigPatch` after them. -/
def generalSchema : Schema :=
  [("ss-config", .string), ("vmess-config", .string), ("tcptun-config", .string),
    ("udptun-config", .string), ("allow-lan", .bool), ("skip-auth-prefixes", .nets),
    ("lan-allowed-ips", .nets), ("lan-disallowed-ips", .nets), ("bind-address", .string),
    ("mode", .tunnelMode), ("log-level", .logLevel), ("ipv6", .bool), ("sniffing", .bool),
    ("tcp-concurrent", .bool), ("find-process-mode", .findProcessMode),
    ("interface-name", .string)]

/-! ## The structs -/

/-- The optional fields of a struct that are there. -/
def decodeFields (ip : AddressText) (doc : Document) :
    Schema → Option (List (String × Field ip))
  | [] => some []
  | (name, type) :: schema =>
      match doc.get name with
      | none | some .null => decodeFields ip doc schema
      | some value => do
          let field ← Field.decode ip type value
          let fields ← decodeFields ip doc schema
          return (name, field) :: fields

def encodeFields {ip : AddressText} (fields : List (String × Field ip)) : List (String × Node) :=
  fields.map fun field => (field.1, field.2.encode)

/-- `TunPatch` and `TuicServerPatch`. -/
structure NestedPatch (ip : AddressText) where
  enable : Bool
  fields : List (String × Field ip)

/-- The flag is not optional, and false where it is absent. -/
def decodeEnable (doc : Document) : Option Bool :=
  match doc.get "enable" with
  | none => some false
  | some value => value.asBool

def NestedPatch.decode (ip : AddressText) (schema : Schema) : Node → Option (NestedPatch ip)
  | .mapping doc => do
      let enable ← decodeEnable doc
      let fields ← decodeFields ip doc schema
      return ⟨enable, fields⟩
  | _ => none

def NestedPatch.encode {ip : AddressText} (patch : NestedPatch ip) : Node :=
  .mapping (.ofList (("enable", .bool patch.enable) :: encodeFields patch.fields))

structure ConfigPatch (ip : AddressText) where
  ports : List (String × Field ip)
  tun : Option (NestedPatch ip)
  tuicServer : Option (NestedPatch ip)
  general : List (String × Field ip)

def decodeNested (ip : AddressText) (schema : Schema) (doc : Document) (key : String) :
    Option (Option (NestedPatch ip)) :=
  match doc.get key with
  | none | some .null => some none
  | some value => (NestedPatch.decode ip schema value).map some

/-- `serde_yaml_ng::from_value::<ConfigPatch>`. -/
def ConfigPatch.decode (ip : AddressText) (doc : Document) : Option (ConfigPatch ip) := do
  let ports ← decodeFields ip doc portSchema
  let tun ← decodeNested ip tunPatchSchema doc "tun"
  let tuicServer ← decodeNested ip tuicServerPatchSchema doc "tuic-server"
  let general ← decodeFields ip doc generalSchema
  return ⟨ports, tun, tuicServer, general⟩

def encodeNested {ip : AddressText} (key : String) (patch : Option (NestedPatch ip)) :
    List (String × Node) :=
  (patch.map fun patch => (key, patch.encode)).toList

/-- `serde_yaml_ng::to_value`. -/
def ConfigPatch.encode {ip : AddressText} (patch : ConfigPatch ip) : Document :=
  .ofList (encodeFields patch.ports ++ encodeNested "tun" patch.tun ++
    encodeNested "tuic-server" patch.tuicServer ++ encodeFields patch.general)

/-! ## A value through a field -/

section

variable {ip : AddressText}

/-- What a list field read item by item came from the items. -/
theorem eq_map_of_mapM {α : Type} {item : Node → Option α} {back : α → Node} {nodes : List Node}
    {values : List α} (inverse : ∀ node value, item node = some value → node = back value)
    (read : nodes.mapM item = some values) : nodes = values.map back := by
  induction nodes generalizing values with
  | nil =>
      cases read
      rfl
  | cons node rest ih =>
      simp only [List.mapM_cons, Option.bind_eq_bind, Option.bind_eq_some_iff, Option.pure_def,
        Option.some.injEq] at read
      obtain ⟨value, first, others, more, rfl⟩ := read
      rw [List.map_cons, ← ih more, ← inverse node value first]

theorem mapM_map {α : Type} {item : Node → Option α} {back : α → Node} (values : List α)
    (inverse : ∀ value, item (back value) = some value) :
    (values.map back).mapM item = some values := by
  induction values with
  | nil => rfl
  | cons value rest ih => simp [inverse, ih]

variable {value : Node}

theorem asItems_eq_some {α : Type} {item : Node → Option α} {values : List α}
    (read : value.asItems item = some values) :
    ∃ items, value = .sequence items ∧ items.toList.mapM item = some values := by
  cases value with
  | sequence items => exact ⟨items, rfl, read⟩
  | null | bool | int | float | string | mapping => cases read

theorem items_of_asItems {α : Type} {item : Node → Option α} {back : α → Node} {values : List α}
    (inverse : ∀ node value, item node = some value → node = back value)
    (read : value.asItems item = some values) : value = .items (values.map back) := by
  obtain ⟨items, rfl, read⟩ := asItems_eq_some read
  rw [Node.items, ← eq_map_of_mapM inverse read, Nodes.ofList_toList]

variable {node : Node}

theorem eq_of_asStr {text : String} (read : node.asStr = some text) : node = .string text := by
  cases node <;> simp_all [Node.asStr]

theorem eq_of_asBool {value : Bool} (read : node.asBool = some value) : node = .bool value := by
  cases node <;> simp_all [Node.asBool]

theorem eq_of_asI64 {value : Int} (read : node.asI64 = some value) : node = .int value := by
  cases node with
  | int number =>
      simp only [Node.asI64] at read
      split at read <;> simp_all
  | null | bool | float | string | sequence | mapping => cases read

theorem eq_of_asU32 {value : Int} (read : node.asU32 = some value) : node = .int value := by
  cases node with
  | int number =>
      simp only [Node.asU32] at read
      split at read <;> simp_all
  | null | bool | float | string | sequence | mapping => cases read

theorem eq_of_asStringMap {entries : List (String × String)}
    (read : node.asStringMap = some entries) :
    node = .mapping (.ofList (entries.map fun entry => (entry.1, .string entry.2))) := by
  cases node with
  | mapping doc =>
      simp only [Node.asStringMap] at read
      rw [← Document.ofList_toList doc]
      congr 2
      generalize doc.toList = nodes at read
      induction nodes generalizing entries with
      | nil =>
          cases read
          rfl
      | cons entry rest ih =>
          simp only [List.mapM_cons, Option.bind_eq_bind, Option.bind_eq_some_iff, Option.pure_def,
            Option.some.injEq, Option.map_eq_some_iff] at read
          obtain ⟨_, ⟨text, isText, rfl⟩, others, more, rfl⟩ := read
          rw [List.map_cons, ← ih more, ← eq_of_asStr isText]
  | null | bool | int | float | string | sequence => cases read

theorem eq_of_ofName {α : Type} {variants : List α} {name : α → String} {variant : α}
    (read : node.asStr.bind (ofName variants name) = some variant) :
    node = .string (name variant) := by
  obtain ⟨text, isText, found⟩ := Option.bind_eq_some_iff.mp read
  rw [name_of_ofName found]
  exact eq_of_asStr isText

/-- Whether a value leaves its field as it came, once it was accepted. -/
def FieldType.verbatim : FieldType → Bool
  | nets | addrs | tunStack => false
  | _ => true

variable {field : Field ip}

/-- Most fields send exactly the value they accepted. -/
theorem Field.encode_eq {type : FieldType} (verbatim : type.verbatim = true)
    (decoded : Field.decode ip type value = some field) : field.encode = value := by
  cases type with
  | nets | addrs | tunStack => cases verbatim
  | i64 =>
      obtain ⟨number, read, rfl⟩ := Option.map_eq_some_iff.mp decoded
      exact (eq_of_asI64 read).symm
  | u32 =>
      obtain ⟨number, read, rfl⟩ := Option.map_eq_some_iff.mp decoded
      exact (eq_of_asU32 read).symm
  | bool =>
      obtain ⟨flag, read, rfl⟩ := Option.map_eq_some_iff.mp decoded
      exact (eq_of_asBool read).symm
  | string =>
      obtain ⟨text, read, rfl⟩ := Option.map_eq_some_iff.mp decoded
      exact (eq_of_asStr read).symm
  | strings =>
      obtain ⟨texts, read, rfl⟩ := Option.map_eq_some_iff.mp decoded
      exact (items_of_asItems (fun _ _ => eq_of_asStr) read).symm
  | u32s =>
      obtain ⟨numbers, read, rfl⟩ := Option.map_eq_some_iff.mp decoded
      exact (items_of_asItems (fun _ _ => eq_of_asU32) read).symm
  | i64s =>
      obtain ⟨numbers, read, rfl⟩ := Option.map_eq_some_iff.mp decoded
      exact (items_of_asItems (fun _ _ => eq_of_asI64) read).symm
  | stringMap =>
      obtain ⟨entries, read, rfl⟩ := Option.map_eq_some_iff.mp decoded
      exact (eq_of_asStringMap read).symm
  | tunnelMode | logLevel | findProcessMode =>
      obtain ⟨variant, read, rfl⟩ := Option.map_eq_some_iff.mp decoded
      exact (eq_of_ofName read).symm

/-- Prefixes and addresses are sent in their printed form, which is read as the same. -/
theorem Field.decode_encode {type : FieldType} (address : type = .nets ∨ type = .addrs)
    (decoded : Field.decode ip type value = some field) :
    Field.decode ip type field.encode = some field := by
  rcases address with rfl | rfl
  · obtain ⟨nets, _, rfl⟩ := Option.map_eq_some_iff.mp decoded
    simp only [Field.decode, Field.encode, Node.items, Node.asItems, Nodes.toList_ofList]
    rw [mapM_map nets fun net => ip.parse_printNet net]
    rfl
  · obtain ⟨addrs, _, rfl⟩ := Option.map_eq_some_iff.mp decoded
    simp only [Field.decode, Field.encode, Node.items, Node.asItems, Nodes.toList_ofList]
    rw [mapM_map addrs fun addr => ip.parse_printAddr addr]
    rfl

/-- A stack is sent under the name of its variant. -/
theorem Field.encode_stack (decoded : Field.decode ip .tunStack value = some field) :
    ∃ text, value = .string text ∧ field.encode = .string (TunStack.ofName text).name := by
  obtain ⟨stack, read, rfl⟩ := Option.map_eq_some_iff.mp decoded
  obtain ⟨text, isText, rfl⟩ := Option.map_eq_some_iff.mp read
  exact ⟨text, eq_of_asStr isText, rfl⟩

/-! ## A field in its struct -/

variable {doc : Document} {schema : Schema} {fields : List (String × Field ip)} {name : String}
  {type : FieldType}

/-- What is sent for the value of a field. -/
inductive Sends (ip : AddressText) (type : FieldType) : Option Node → Option Node → Prop where
  | absent : Sends ip type none none
  | null : Sends ip type (some .null) none
  | sends {value : Node} {field : Field ip} : value ≠ .null →
      Field.decode ip type value = some field → Sends ip type (some value) (some field.encode)

theorem lookup_decodeFields_absent (decoded : decodeFields ip doc schema = some fields)
    (absent : name ∉ schema.map (·.1)) : (encodeFields fields).lookup name = none := by
  induction schema generalizing fields with
  | nil =>
      cases decoded
      rfl
  | cons entry schema ih =>
      obtain ⟨first, kind⟩ := entry
      simp only [List.map_cons, List.mem_cons, not_or] at absent
      simp only [decodeFields] at decoded
      split at decoded
      case h_1 | h_2 => exact ih decoded absent.2
      case h_3 =>
        simp only [Option.bind_eq_bind, Option.bind_eq_some_iff, Option.pure_def,
          Option.some.injEq] at decoded
        obtain ⟨field, _, rest, more, rfl⟩ := decoded
        have other : (name == first) = false := by simpa using absent.1
        simp only [encodeFields, List.map_cons, List.lookup_cons, other]
        exact ih more absent.2

theorem sends_of_decodeFields (decoded : decodeFields ip doc schema = some fields)
    (distinct : (schema.map (·.1)).Nodup) (member : (name, type) ∈ schema) :
    Sends ip type (doc.get name) ((encodeFields fields).lookup name) := by
  induction schema generalizing fields with
  | nil => cases member
  | cons entry schema ih =>
      obtain ⟨first, kind⟩ := entry
      simp only [List.map_cons, List.nodup_cons] at distinct
      simp only [decodeFields] at decoded
      rcases List.mem_cons.mp member with mine | later
      · cases mine
        split at decoded
        case h_1 absent =>
          rw [lookup_decodeFields_absent decoded distinct.1, absent]
          exact .absent
        case h_2 null =>
          rw [lookup_decodeFields_absent decoded distinct.1, null]
          exact .null
        case h_3 value some_ present =>
          simp only [Option.bind_eq_bind, Option.bind_eq_some_iff, Option.pure_def,
            Option.some.injEq] at decoded
          obtain ⟨field, read, rest, _, rfl⟩ := decoded
          simp only [encodeFields, List.map_cons, List.lookup_cons, beq_self_eq_true, present]
          refine .sends ?_ read
          rintro rfl
          exact some_ rfl
      · have different : name ≠ first := by
          rintro rfl
          exact distinct.1 (List.mem_map_of_mem (f := Prod.fst) later)
        split at decoded
        case h_1 | h_2 => exact ih decoded distinct.2 later
        case h_3 =>
          simp only [Option.bind_eq_bind, Option.bind_eq_some_iff, Option.pure_def,
            Option.some.injEq] at decoded
          obtain ⟨field, _, rest, more, rfl⟩ := decoded
          have other : (name == first) = false := by simpa using different
          simp only [encodeFields, List.map_cons, List.lookup_cons, other]
          exact ih more distinct.2 later

theorem decode_eq_some {patch : ConfigPatch ip} (decoded : ConfigPatch.decode ip doc = some patch) :
    decodeFields ip doc portSchema = some patch.ports ∧
      decodeNested ip tunPatchSchema doc "tun" = some patch.tun ∧
      decodeNested ip tuicServerPatchSchema doc "tuic-server" = some patch.tuicServer ∧
      decodeFields ip doc generalSchema = some patch.general := by
  simp only [ConfigPatch.decode, Option.bind_eq_bind, Option.bind_eq_some_iff, Option.pure_def,
    Option.some.injEq] at decoded
  obtain ⟨ports, first, tun, second, tuic, third, general, fourth, rfl⟩ := decoded
  exact ⟨first, second, third, fourth⟩

theorem get_encode (patch : ConfigPatch ip) (key : String) :
    patch.encode.get key = ((((encodeFields patch.ports).lookup key).or
      ((encodeNested "tun" patch.tun).lookup key)).or
        ((encodeNested "tuic-server" patch.tuicServer).lookup key)).or
          ((encodeFields patch.general).lookup key) := by
  simp only [ConfigPatch.encode, Document.get_ofList, List.lookup_append]

theorem lookup_encodeNested (patch : Option (NestedPatch ip)) (key : String) :
    (encodeNested key patch).lookup key = patch.map NestedPatch.encode := by
  cases patch <;> simp [encodeNested]

theorem lookup_encodeNested_ne (patch : Option (NestedPatch ip)) {key other : String}
    (different : (other == key) = false) : (encodeNested key patch).lookup other = none := by
  cases patch <;> simp [encodeNested, List.lookup_cons, different]

/-- The fields of the body that are no structs themselves. -/
def scalarSchema : Schema := portSchema ++ generalSchema

section

variable {patch : ConfigPatch ip} (decoded : ConfigPatch.decode ip doc = some patch)

include decoded

theorem sends_scalar (member : (name, type) ∈ scalarSchema) :
    Sends ip type (doc.get name) (patch.encode.get name) := by
  obtain ⟨ports, _, _, general⟩ := decode_eq_some decoded
  have distinct : (scalarSchema.map (·.1)).Nodup := by decide
  have plain : ∀ entry ∈ scalarSchema, (entry.1 == "tun") = false ∧
      (entry.1 == "tuic-server") = false := by decide
  obtain ⟨noTun, noTuic⟩ := plain _ member
  rw [scalarSchema, List.map_append, List.nodup_append] at distinct
  obtain ⟨distinctPorts, distinctGeneral, apart⟩ := distinct
  rw [get_encode, lookup_encodeNested_ne _ noTun, lookup_encodeNested_ne _ noTuic]
  rcases List.mem_append.mp member with port | other
  · have absent : name ∉ generalSchema.map (·.1) := fun again =>
      apart name (List.mem_map_of_mem (f := Prod.fst) port) name again rfl
    rw [lookup_decodeFields_absent general absent]
    simpa using sends_of_decodeFields ports distinctPorts port
  · have absent : name ∉ portSchema.map (·.1) := fun again =>
      apart name again name (List.mem_map_of_mem (f := Prod.fst) other) rfl
    rw [lookup_decodeFields_absent ports absent]
    simpa using sends_of_decodeFields general distinctGeneral other

theorem get_encode_tun : patch.encode.get "tun" = patch.tun.map NestedPatch.encode := by
  obtain ⟨ports, _, _, general⟩ := decode_eq_some decoded
  rw [get_encode, lookup_decodeFields_absent ports (by decide), lookup_encodeNested,
    lookup_encodeNested_ne _ (by decide), lookup_decodeFields_absent general (by decide)]
  simp

theorem get_encode_tuicServer :
    patch.encode.get "tuic-server" = patch.tuicServer.map NestedPatch.encode := by
  obtain ⟨ports, _, _, general⟩ := decode_eq_some decoded
  rw [get_encode, lookup_decodeFields_absent ports (by decide),
    lookup_encodeNested_ne _ (by decide), lookup_encodeNested,
    lookup_decodeFields_absent general (by decide)]
  simp

end

/-- A struct inside the body: the flag is always sent, its other fields as they are. -/
theorem nested_eq_some {patch : NestedPatch ip}
    (decoded : NestedPatch.decode ip schema value = some patch) :
    ∃ inner, value = .mapping inner ∧
      (inner.get "enable" = none ∧ patch.enable = false ∨
        inner.get "enable" = some (.bool patch.enable)) ∧
      decodeFields ip inner schema = some patch.fields := by
  cases value with
  | mapping inner =>
      simp only [NestedPatch.decode, Option.bind_eq_bind, Option.bind_eq_some_iff, Option.pure_def,
        Option.some.injEq] at decoded
      obtain ⟨enable, flag, fields, rest, rfl⟩ := decoded
      refine ⟨inner, rfl, ?_, rest⟩
      cases present : inner.get "enable" with
      | none =>
          simp only [decodeEnable, present, Option.some.injEq] at flag
          exact .inl ⟨rfl, flag.symm⟩
      | some value =>
          simp only [decodeEnable, present] at flag
          exact .inr (congrArg some (eq_of_asBool flag))
  | null | bool | int | float | string | sequence => cases decoded

/-! ## The keys of a body -/

theorem names_decodeFields (decoded : decodeFields ip doc schema = some fields) :
    ((encodeFields fields).map (·.1)).Sublist (schema.map (·.1)) := by
  induction schema generalizing fields with
  | nil =>
      cases decoded
      exact .slnil
  | cons entry schema ih =>
      obtain ⟨first, kind⟩ := entry
      simp only [decodeFields] at decoded
      split at decoded
      case h_1 | h_2 => exact (ih decoded).cons first
      case h_3 =>
        simp only [Option.bind_eq_bind, Option.bind_eq_some_iff, Option.pure_def,
          Option.some.injEq] at decoded
        obtain ⟨field, _, rest, more, rfl⟩ := decoded
        exact (ih more).cons_cons first

theorem names_encodeNested (key : String) (patch : Option (NestedPatch ip)) :
    ((encodeNested key patch).map (·.1)).Sublist [key] := by
  cases patch <;> simp [encodeNested]

theorem keys_encode {patch : ConfigPatch ip} (decoded : ConfigPatch.decode ip doc = some patch) :
    patch.encode.keys.Sublist (portSchema.map (·.1) ++ ["tun"] ++ ["tuic-server"] ++
      generalSchema.map (·.1)) := by
  obtain ⟨ports, _, _, general⟩ := decode_eq_some decoded
  rw [ConfigPatch.encode, Document.keys_ofList]
  simp only [List.map_append]
  exact (((names_decodeFields ports).append (names_encodeNested "tun" patch.tun)).append
    (names_encodeNested "tuic-server" patch.tuicServer)).append (names_decodeFields general)

/-- Fields that can all be read are read together. -/
theorem decodeFields_isSome
    (readable : ∀ entry ∈ schema, ∀ value, doc.get entry.1 = some value → value ≠ .null →
      (Field.decode ip entry.2 value).isSome = true) :
    (decodeFields ip doc schema).isSome = true := by
  induction schema with
  | nil => rfl
  | cons entry schema ih =>
      obtain ⟨first, kind⟩ := entry
      have rest := ih fun entry member => readable entry (List.mem_cons_of_mem _ member)
      simp only [decodeFields]
      split
      case h_1 | h_2 => exact rest
      case h_3 value filled present =>
        have read := readable _ List.mem_cons_self value present (by
          rintro rfl
          exact filled rfl)
        obtain ⟨field, read⟩ := Option.isSome_iff_exists.mp read
        obtain ⟨fields, rest⟩ := Option.isSome_iff_exists.mp rest
        simp [read, rest]

theorem get_nested_enable (patch : NestedPatch ip) :
    patch.encode.valueAt ["enable"] = some (.bool patch.enable) := by
  simp [NestedPatch.encode, Node.valueAt, Node.asMapping, Document.ofList, Document.get]

theorem sends_nested {patch : NestedPatch ip} {inner : Document}
    (decoded : decodeFields ip inner schema = some patch.fields)
    (distinct : ("enable" :: schema.map (·.1)).Nodup) (member : (name, type) ∈ schema) :
    Sends ip type (inner.get name) (patch.encode.valueAt [name]) := by
  obtain ⟨noFlag, distinct⟩ := List.nodup_cons.mp distinct
  have different : "enable" ≠ name := by
    rintro rfl
    exact noFlag (List.mem_map_of_mem (f := Prod.fst) member)
  have same : patch.encode.valueAt [name] = (encodeFields patch.fields).lookup name := by
    simp [NestedPatch.encode, Node.valueAt, Node.asMapping, Document.ofList, Document.get,
      different, Document.get_ofList]
  rw [same]
  exact sends_of_decodeFields decoded distinct member

end

end Nyanpasu
