import Mathlib.Data.List.DropRight
import Nyanpasu.Text

/-! # URLs of the web

The URL Standard for the schemes `http` and `https`: how an input is cleaned, how it refers
to its base, how an authority and a path are read, and how a segment is pushed onto a path.
Hosts and URLs of other schemes are left to the parameters in `Url.Others`.
-/

namespace Nyanpasu

namespace Url

/-! ## Percent-encoding -/

def controlSet (b : UInt8) : Bool := b < 0x20 || 0x7E < b

def fragmentSet (b : UInt8) : Bool := controlSet b || [0x20, 0x22, 0x3C, 0x3E, 0x60].contains b

def querySet (b : UInt8) : Bool := controlSet b || [0x20, 0x22, 0x23, 0x27, 0x3C, 0x3E].contains b

def pathSet (b : UInt8) : Bool :=
  controlSet b || [0x20, 0x22, 0x23, 0x3C, 0x3E, 0x3F, 0x60, 0x7B, 0x7D].contains b

def userinfoSet (b : UInt8) : Bool :=
  pathSet b || [0x2F, 0x3A, 0x3B, 0x3D, 0x40, 0x5B, 0x5C, 0x5D, 0x5E, 0x7C].contains b

/-- A segment of its own also escapes the separators and the escape itself. -/
def segmentSet (b : UInt8) : Bool := pathSet b || [0x2F, 0x25, 0x5C].contains b

def hexDigit (n : Nat) : UInt8 := .ofNat (if n < 10 then 0x30 + n else 0x37 + n)

def hexValue? (b : UInt8) : Option Nat :=
  let n := b.toNat
  if 0x30 ≤ n ∧ n ≤ 0x39 then some (n - 0x30)
  else if 0x41 ≤ n ∧ n ≤ 0x46 then some (n - 0x37)
  else if 0x61 ≤ n ∧ n ≤ 0x66 then some (n - 0x57)
  else none

def encodeByte (set : UInt8 → Bool) (b : UInt8) : List UInt8 :=
  if set b then [0x25, hexDigit (b.toNat / 16), hexDigit (b.toNat % 16)] else [b]

def encode (set : UInt8 → Bool) (bs : List UInt8) : List UInt8 := bs.flatMap (encodeByte set)

def decode : List UInt8 → List UInt8
  | 0x25 :: a :: b :: rest =>
      match hexValue? a, hexValue? b with
      | some x, some y => .ofNat (16 * x + y) :: decode rest
      | _, _ => 0x25 :: decode (a :: b :: rest)
  | c :: rest => c :: decode rest
  | [] => []

theorem encode_cons (set : UInt8 → Bool) (b : UInt8) (bs : List UInt8) :
    encode set (b :: bs) = encodeByte set b ++ encode set bs := rfl

theorem hexValue?_hexDigit (n : Fin 16) : hexValue? (hexDigit n) = some n.val := by
  revert n
  decide

theorem decode_escape (b : UInt8) (rest : List UInt8) :
    decode ([0x25, hexDigit (b.toNat / 16), hexDigit (b.toNat % 16)] ++ rest) =
      b :: decode rest := by
  have bound : b.toNat < 256 := b.toNat_lt
  have high := hexValue?_hexDigit ⟨b.toNat / 16, by omega⟩
  have low := hexValue?_hexDigit ⟨b.toNat % 16, by omega⟩
  have value : 16 * (b.toNat / 16) + b.toNat % 16 = b.toNat := Nat.div_add_mod b.toNat 16
  simp only [List.cons_append, List.nil_append, decode, high, low, value, UInt8.ofNat_toNat]

theorem decode_cons_of_ne {b : UInt8} (plain : b ≠ 0x25) (rest : List UInt8) :
    decode (b :: rest) = b :: decode rest := by
  rw [decode.eq_def]
  split
  · next taken => exact absurd (List.cons.inj taken).1 plain
  · next taken => rw [(List.cons.inj taken).1, (List.cons.inj taken).2]
  · next taken => exact absurd taken (by simp)

/-- What escapes the escape reads back. -/
theorem decode_encode (set : UInt8 → Bool) (percent : set 0x25 = true) (bs : List UInt8) :
    decode (encode set bs) = bs := by
  induction bs with
  | nil => rfl
  | cons b bs ih =>
      rw [encode_cons, encodeByte]
      split
      · rw [decode_escape, ih]
      · next kept =>
          have plain : b ≠ 0x25 := fun escape => kept (escape ▸ percent)
          rw [List.singleton_append, decode_cons_of_ne plain, ih]

theorem encode_segment_injective {bs bs' : List UInt8}
    (same : encode segmentSet bs = encode segmentSet bs') : bs = bs' := by
  rw [← decode_encode segmentSet rfl bs, same, decode_encode segmentSet rfl]

/-! ## Cleaning -/

def isControlOrSpace (c : Char) : Bool := decide (c.toNat ≤ 0x20)

def isTabOrNewline (c : Char) : Bool := c == '\t' || c == '\n' || c == '\r'

/-- What the input loses before it is read: controls and spaces at its ends, tabs and
    newlines everywhere. -/
def clean (input : List Char) : List Char :=
  ((input.dropWhile isControlOrSpace).rdropWhile isControlOrSpace).filter (!isTabOrNewline ·)

/-- A backslash acts as a slash. -/
def isSlash (c : Char) : Bool := c == '/' || c == '\\'

def slashes (input : List Char) : Nat := (input.takeWhile isSlash).length

/-! ## Schemes -/

inductive WebScheme where
  | http
  | https
  deriving Repr, DecidableEq

def WebScheme.text : WebScheme → List Char
  | http => ['h', 't', 't', 'p']
  | https => ['h', 't', 't', 'p', 's']

def WebScheme.ofText? (text : List Char) : Option WebScheme :=
  if text = http.text then some http else if text = https.text then some https else none

def WebScheme.defaultPort : WebScheme → Nat
  | http => 80
  | https => 443

/-- A scheme that is neither `http` nor `https`. -/
structure ForeignScheme where
  text : List Char
  other : WebScheme.ofText? text = none
  deriving Repr, DecidableEq

/-- The rest of a scheme, up to its colon. -/
def schemeTail : List Char → Option (List Char × List Char)
  | [] => none
  | c :: rest =>
      if c = ':' then some ([], rest)
      else if c.isAlphanum || c == '+' || c == '-' || c == '.' then
        (schemeTail rest).map fun (scheme, rest) => (c.toLower :: scheme, rest)
      else none

def scheme? : List Char → Option (List Char × List Char)
  | [] => none
  | c :: rest =>
      if c.isAlpha then (schemeTail rest).map fun (scheme, rest) => (c.toLower :: scheme, rest)
      else none

/-! ## References -/

/-- How a cleaned input refers to a base of a web scheme. -/
inductive Reference where
  /-- Path, query or fragment at the base's own authority. -/
  | own (rest : List Char)
  /-- An authority of its own. -/
  | authority (scheme : WebScheme) (rest : List Char)
  | foreign (scheme : ForeignScheme) (rest : List Char)

def refer (base : WebScheme) (input : List Char) : Reference :=
  match scheme? input with
  | some (text, rest) =>
      match web : WebScheme.ofText? text with
      | some scheme =>
          if scheme = base ∧ slashes rest < 2 then .own rest
          else .authority scheme (rest.dropWhile isSlash)
      | none => .foreign ⟨text, web⟩ rest
  | none =>
      if 2 ≤ slashes input then .authority base (input.dropWhile isSlash) else .own input

/-! ## URLs -/

inductive ParseError where
  | relativeUrlWithoutBase
  | emptyHost
  | invalidPort
  | other (message : String)
  deriving Repr, DecidableEq

/-- A URL of a web scheme.  Its texts are percent-encoded. -/
@[ext] structure Web (η : Type) where
  scheme : WebScheme
  username : List UInt8
  password : List UInt8
  host : η
  port : Option Nat
  path : List (List UInt8)
  query : Option (List UInt8)
  fragment : Option (List UInt8)
  deriving Repr, DecidableEq

/-- What is read of hosts and of URLs of other schemes. -/
structure Others (η φ : Type) where
  host : List Char → Except ParseError η
  foreign : ForeignScheme → List Char → Except ParseError φ
  /-- Pushes segments onto the path, where there is one. -/
  extend : φ → List (List Char) → Option φ

end Url

inductive Url (η φ : Type) where
  | web (url : Url.Web η)
  | foreign (scheme : Url.ForeignScheme) (rest : φ)
  deriving Repr, DecidableEq

namespace Url

open Text (bytes bytes_injective)

variable {η φ : Type}

/-! ## Authorities -/

structure Authority (η : Type) where
  username : List UInt8
  password : List UInt8
  host : η
  port : Option Nat

/-- Splits at the first character that a test finds; the character goes. -/
def splitFirst (p : Char → Bool) (text : List Char) : List Char × Option (List Char) :=
  (text.takeWhile (!p ·), (text.dropWhile (!p ·)).tail?)

/-- The credentials end at the last at sign. -/
def credentials (text : List Char) : Option (List Char) × List Char :=
  let host := text.rtakeWhile (· != '@')
  if host.length = text.length then (none, host)
  else (some (text.take (text.length - host.length - 1)), host)

/-- A host ends at the first colon outside brackets. -/
def splitHost : Bool → List Char → List Char × Option (List Char)
  | _, [] => ([], none)
  | inside, c :: rest =>
      if c = ':' ∧ inside = false then ([], some rest)
      else
        let (host, port) :=
          splitHost (if c = '[' then true else if c = ']' then false else inside) rest
        (c :: host, port)

def decimal (digits : List Char) : Nat := digits.foldl (fun n c => 10 * n + (c.toNat - 48)) 0

/-- A scheme's own port is not written. -/
def readPort (scheme : WebScheme) (digits : List Char) : Except ParseError (Option Nat) :=
  if digits.all Char.isDigit then
    if digits.isEmpty then .ok none
    else if 65535 < decimal digits then .error .invalidPort
    else .ok (if decimal digits = scheme.defaultPort then none else some (decimal digits))
  else .error .invalidPort

def readAuthority (others : Others η φ) (scheme : WebScheme) (text : List Char) :
    Except ParseError (Authority η) := do
  let (userinfo, rest) := credentials text
  let (hostText, portText) := splitHost false rest
  if hostText.isEmpty then throw .emptyHost
  let host ← others.host hostText
  let port ← readPort scheme (portText.getD [])
  let (username, password) := splitFirst (· == ':') (userinfo.getD [])
  return ⟨encode userinfoSet (bytes username), encode userinfoSet (bytes (password.getD [])),
    host, port⟩

/-! ## Paths -/

def isDot (segment : List UInt8) : Bool :=
  [[0x2E], [0x25, 0x32, 0x65], [0x25, 0x32, 0x45]].contains segment

def isDoubleDot (segment : List UInt8) : Bool :=
  [[0x2E, 0x2E], [0x2E, 0x25, 0x32, 0x65], [0x2E, 0x25, 0x32, 0x45], [0x25, 0x32, 0x65, 0x2E],
    [0x25, 0x32, 0x45, 0x2E], [0x25, 0x32, 0x65, 0x25, 0x32, 0x65],
    [0x25, 0x32, 0x65, 0x25, 0x32, 0x45], [0x25, 0x32, 0x45, 0x25, 0x32, 0x65],
    [0x25, 0x32, 0x45, 0x25, 0x32, 0x45]].contains segment

/-- A segment that a slash follows. -/
def enter (path : List (List UInt8)) (segment : List UInt8) : List (List UInt8) :=
  if isDoubleDot segment then path.dropLast
  else if isDot segment then path
  else path ++ [segment]

/-- The last segment: dots leave an empty one in their place. -/
def finish (path : List (List UInt8)) (segment : List UInt8) : List (List UInt8) :=
  if isDoubleDot segment then path.dropLast ++ [[]]
  else if isDot segment then path ++ [[]]
  else path ++ [segment]

def readSegments (path : List (List UInt8)) : List (List UInt8) → List (List UInt8)
  | [] => path
  | [last] => finish path last
  | segment :: rest => readSegments (enter path segment) rest

/-- Segments that are no dots are appended. -/
theorem readSegments_of_no_dots {segments : List (List UInt8)} (path : List (List UInt8))
    (noDots : ∀ segment ∈ segments, isDot segment = false ∧ isDoubleDot segment = false) :
    readSegments path segments = path ++ segments := by
  induction segments generalizing path with
  | nil => exact (List.append_nil path).symm
  | cons segment rest ih =>
      obtain ⟨dot, dots⟩ := noDots segment List.mem_cons_self
      cases rest with
      | nil => simp [readSegments, finish, dot, dots]
      | cons next rest =>
          rw [readSegments, ih _ fun other member => noDots other (List.mem_cons_of_mem _ member)]
          · simp [enter, dot, dots]
          · simp

def endsPath (c : Char) : Bool := c == '?' || c == '#'

def readPath (path : List (List UInt8)) (text : List Char) : List (List UInt8) :=
  readSegments path ((text.splitOnP isSlash).map fun segment => encode pathSet (bytes segment))

/-- A query starts at a question mark and ends at the fragment. -/
def query? (text : List Char) : Option (List UInt8) :=
  match text.takeWhile (· != '#') with
  | '?' :: query => some (encode querySet (bytes query))
  | _ => none

def fragment? (text : List Char) : Option (List UInt8) :=
  (text.dropWhile (· != '#')).tail?.map fun fragment => encode fragmentSet (bytes fragment)

/-- The path, the query and the fragment of a URL. -/
def place (url : Web η) (path : List (List UInt8)) (text : List Char) : Web η :=
  let rest := text.dropWhile (!endsPath ·)
  { url with
    path := readPath path (text.takeWhile (!endsPath ·))
    query := query? rest
    fragment := fragment? rest }

/-! ## Parsing and joining -/

def endsAuthority (c : Char) : Bool := isSlash c || endsPath c

/-- What follows the slashes of an authority. -/
def readWeb (others : Others η φ) (scheme : WebScheme) (text : List Char) :
    Except ParseError (Web η) := do
  let authority ← readAuthority others scheme (text.takeWhile (!endsAuthority ·))
  let rest := text.dropWhile (!endsAuthority ·)
  let url : Web η :=
    { scheme, username := authority.username, password := authority.password,
      host := authority.host, port := authority.port, path := [], query := none,
      fragment := none }
  match rest with
  | c :: more => return place url [] (if isSlash c then more else rest)
  | [] => return place url [] []

/-- A path, query or fragment at the authority of the base. -/
def joinOwn (base : Web η) : List Char → Web η
  | [] => { base with fragment := none }
  | c :: rest =>
      if c = '#' then { base with fragment := fragment? (c :: rest) }
      else if c = '?' then
        { base with query := query? (c :: rest), fragment := fragment? (c :: rest) }
      else if isSlash c then place base [] rest
      else place base base.path.dropLast (c :: rest)

def follow (others : Others η φ) (base : Web η) : Reference → Except ParseError (Url η φ)
  | .own rest => .ok (.web (joinOwn base rest))
  | .authority scheme rest => (readWeb others scheme rest).map .web
  | .foreign scheme rest => (others.foreign scheme rest).map (.foreign scheme)

def join (others : Others η φ) (base : Web η) (input : List Char) :
    Except ParseError (Url η φ) :=
  follow others base (refer base.scheme (clean input))

/-- Where a URL's requests go. -/
def Web.origin (url : Web η) : WebScheme × η × Option Nat := (url.scheme, url.host, url.port)

/-- A URL of another scheme has another origin. -/
def SameOrigin (base : Web η) : Url η φ → Prop
  | .web url => url.origin = base.origin
  | .foreign _ _ => False

/-- The references that lead nowhere else: those to the base's own authority, and those
    that name it again or cannot be read. -/
def Reference.AtHome (others : Others η φ) (base : Web η) : Reference → Prop
  | .own _ => True
  | .authority scheme rest =>
      ∀ authority, readAuthority others scheme (rest.takeWhile (!endsAuthority ·)) = .ok authority →
        (scheme, authority.host, authority.port) = base.origin
  | .foreign scheme rest => ∀ url, others.foreign scheme rest ≠ .ok url

@[simp] theorem origin_joinOwn (base : Web η) (rest : List Char) :
    (joinOwn base rest).origin = base.origin := by
  unfold joinOwn
  split
  · rfl
  · split
    · rfl
    · split
      · rfl
      · split <;> rfl

variable {scheme : WebScheme}

variable {others : Others η φ}

theorem readWeb_of_authority {authority : Authority η}
    (read : readAuthority others scheme (text.takeWhile (!endsAuthority ·)) = .ok authority) :
    ∃ url, readWeb others scheme text = .ok url ∧
      url.origin = (scheme, authority.host, authority.port) := by
  simp only [readWeb, read, Except.bind, bind]
  split <;> exact ⟨_, rfl, rfl⟩

theorem readWeb_of_error {error : ParseError}
    (read : readAuthority others scheme (text.takeWhile (!endsAuthority ·)) = .error error) :
    readWeb others scheme text = .error error := by
  simp only [readWeb, read, Except.bind, bind]

/-- Following a reference stays at the base's origin exactly when the reference is at home. -/
theorem follow_stays_iff (others : Others η φ) (base : Web η) (reference : Reference) :
    (∀ url, follow others base reference = .ok url → SameOrigin base url) ↔
      reference.AtHome others base := by
  cases reference with
  | own rest =>
      refine ⟨fun _ => trivial, fun _ url followed => ?_⟩
      cases followed
      exact origin_joinOwn base rest
  | authority scheme rest =>
      cases read : readAuthority others scheme (rest.takeWhile (!endsAuthority ·)) with
      | error error =>
          have failed : follow others base (.authority scheme rest) = .error error := by
            rw [follow, readWeb_of_error read, Except.map]
          refine ⟨fun _ authority found => ?_, fun _ url followed => ?_⟩
          · exact absurd (read.symm.trans found) (by simp)
          · exact absurd (failed.symm.trans followed) (by simp)
      | ok authority =>
          obtain ⟨url, made, origin⟩ := readWeb_of_authority read
          have followed : follow others base (.authority scheme rest) = .ok (.web url) := by
            rw [follow, made, Except.map]
          constructor
          · intro stays found same
            cases read.symm.trans same
            exact origin.symm.trans (stays _ followed)
          · intro home url' followed'
            cases followed.symm.trans followed'
            exact origin.trans (home authority read)
  | foreign scheme rest =>
      cases read : others.foreign scheme rest with
      | error error =>
          have failed : follow others base (.foreign scheme rest) = .error error := by
            rw [follow, read, Except.map]
          refine ⟨fun _ url found => ?_, fun _ url followed => ?_⟩
          · exact absurd (read.symm.trans found) (by simp)
          · exact absurd (failed.symm.trans followed) (by simp)
      | ok url =>
          have followed : follow others base (.foreign scheme rest) = .ok (.foreign scheme url) := by
            rw [follow, read, Except.map]
          exact ⟨fun stays => (stays _ followed).elim, fun home => absurd read (home url)⟩

/-- Without a base only an input with a scheme is a URL. -/
def parse (others : Others η φ) (input : List Char) : Except ParseError (Url η φ) :=
  match scheme? (clean input) with
  | none => .error .relativeUrlWithoutBase
  | some (text, rest) =>
      match web : WebScheme.ofText? text with
      | some scheme => (readWeb others scheme (rest.dropWhile isSlash)).map .web
      | none => (others.foreign ⟨text, web⟩ rest).map (.foreign ⟨text, web⟩)

variable {input : List Char}

theorem parse_relative (others : Others η φ) (relative : scheme? (clean input) = none) :
    parse others input = .error .relativeUrlWithoutBase := by
  rw [parse, relative]

theorem join_relative (others : Others η φ) (base : Web η) (relative : scheme? (clean input) = none)
    (own : slashes (clean input) < 2) :
    join others base input = .ok (.web (joinOwn base (clean input))) := by
  rw [join, refer, relative]
  simp only [Nat.not_le.mpr own, if_false, follow]

/-! ## Pushing segments -/

/-- Pushes one segment.  The path `/` has one empty segment, which the first push fills. -/
def push (path : List (List UInt8)) (segment : List Char) : List (List UInt8) :=
  if segment = ['.'] ∨ segment = ['.', '.'] then path
  else
    finish (if path = [[]] then [] else path)
      (encode segmentSet (bytes (segment.filter (!isTabOrNewline ·))))

/-- A segment that a push keeps as it is. -/
def Plain (segment : List Char) : Prop :=
  segment ≠ ['.'] ∧ segment ≠ ['.', '.'] ∧ ∀ c ∈ segment, isTabOrNewline c = false

instance (segment : List Char) : Decidable (Plain segment) :=
  inferInstanceAs (Decidable (_ ∧ _ ∧ _))

def pushAll (path : List (List UInt8)) (segments : List (List Char)) : List (List UInt8) :=
  segments.foldl push path

theorem decode_of_isDot {segment : List UInt8} (dot : isDot segment = true) :
    decode segment = bytes ['.'] := by
  simp only [isDot, List.contains_iff_mem, List.mem_cons, List.not_mem_nil, or_false] at dot
  rcases dot with rfl | rfl | rfl <;> decide

theorem decode_of_isDoubleDot {segment : List UInt8} (dots : isDoubleDot segment = true) :
    decode segment = bytes ['.', '.'] := by
  simp only [isDoubleDot, List.contains_iff_mem, List.mem_cons, List.not_mem_nil, or_false] at dots
  rcases dots with rfl | rfl | rfl | rfl | rfl | rfl | rfl | rfl | rfl <;> decide

theorem eq_of_decode_encode {text' : List Char}
    (same : decode (encode segmentSet (bytes text)) = bytes text') : text = text' := by
  rw [decode_encode segmentSet rfl] at same
  exact bytes_injective same

variable {segment : List Char}

theorem filter_of_plain (kept : ∀ c ∈ segment, isTabOrNewline c = false) :
    segment.filter (!isTabOrNewline ·) = segment :=
  List.filter_eq_self.mpr fun c member => by rw [kept c member, Bool.not_false]

theorem push_of_plain {path : List (List UInt8)} (started : path ≠ [[]]) (plain : Plain segment)
    : push path segment = path ++ [encode segmentSet (bytes segment)] := by
  obtain ⟨dot, dots, kept⟩ := plain
  rw [push, if_neg (not_or.mpr ⟨dot, dots⟩), if_neg started, filter_of_plain kept, finish, if_neg,
    if_neg]
  · exact fun isDot => dot (eq_of_decode_encode (decode_of_isDot isDot))
  · exact fun isDots => dots (eq_of_decode_encode (decode_of_isDoubleDot isDots))

theorem length_finish_le (path : List (List UInt8)) (segment : List UInt8) :
    (finish path segment).length ≤ path.length + 1 := by
  unfold finish
  split
  · simp
  · split <;> simp

theorem length_push_le (path : List (List UInt8)) (segment : List Char) :
    (push path segment).length ≤ path.length + 1 := by
  unfold push
  split
  · exact Nat.le_succ _
  · refine (length_finish_le _ _).trans (Nat.succ_le_succ ?_)
    split
    · exact Nat.zero_le _
    · exact le_refl _

theorem length_pushAll_le (segments : List (List Char)) (path : List (List UInt8)) :
    (pushAll path segments).length ≤ path.length + segments.length := by
  induction segments generalizing path with
  | nil => exact le_refl _
  | cons segment segments ih =>
      have first := length_push_le path segment
      have rest := ih (push path segment)
      simp only [pushAll, List.foldl_cons, List.length_cons] at rest ⊢
      omega

section

variable {path : List (List UInt8)} (nonempty : path ≠ [])

include nonempty

/-- A push that makes a path longer appends to it; what it appends reads back as the segment
    only if the segment was plain. -/
theorem push_longer (longer : (push path segment).length = path.length + 1) :
    ∃ added, push path segment = path ++ [added] ∧ (decode added = bytes segment → Plain segment) := by
  unfold push at longer ⊢
  split at longer
  · omega
  next named =>
    rw [if_neg named]
    obtain ⟨dot, dots⟩ := not_or.mp named
    have started : path ≠ [[]] := by
      rintro rfl
      have short := length_finish_le [] (encode segmentSet (bytes (segment.filter (!isTabOrNewline ·))))
      rw [if_pos rfl] at longer
      simp only [List.length_nil, List.length_singleton] at short longer
      omega
    rw [if_neg started] at longer ⊢
    unfold finish at longer ⊢
    split at longer
    · -- two dots replace the last segment, so the path is no longer
      have positive := List.length_pos_of_ne_nil nonempty
      simp only [List.length_append, List.length_dropLast, List.length_singleton] at longer
      omega
    next single =>
      rw [if_neg single]
      split
      · next isDot =>
          refine ⟨[], rfl, fun read => ?_⟩
          have empty : segment = [] := (@bytes_injective [] segment read).symm
          rw [empty] at isDot
          exact absurd isDot (by decide)
      · refine ⟨_, rfl, fun read => ⟨dot, dots, ?_⟩⟩
        have kept := List.filter_eq_self.mp (eq_of_decode_encode read)
        intro c member
        simpa using kept c member

theorem append_singleton_started (added : List UInt8) : path ++ [added] ≠ [[]] := by
  intro same
  have lengths := congrArg List.length same
  have positive := List.length_pos_of_ne_nil nonempty
  simp only [List.length_append, List.length_singleton] at lengths
  omega

variable {segments : List (List Char)}

theorem pushAll_of_plain (started : path ≠ [[]]) (plain : ∀ segment ∈ segments, Plain segment) :
    pushAll path segments = path ++ segments.map fun segment => encode segmentSet (bytes segment) := by
  induction segments generalizing path with
  | nil => exact (List.append_nil path).symm
  | cons segment segments ih =>
      have first := push_of_plain started (plain segment List.mem_cons_self)
      rw [pushAll, List.foldl_cons, first, ← pushAll,
        ih (by simp) (append_singleton_started nonempty _)
          fun other member => plain other (List.mem_cons_of_mem _ member)]
      simp

/-- Pushes that make a path as long as they can all append to it. -/
theorem pushAll_longest (longest : (pushAll path segments).length = path.length + segments.length) :
    ∃ added, pushAll path segments = path ++ added ∧
      (added.map decode = segments.map bytes → ∀ segment ∈ segments, Plain segment) := by
  induction segments generalizing path with
  | nil => exact ⟨[], (List.append_nil path).symm, fun _ _ member => absurd member List.not_mem_nil⟩
  | cons segment segments ih =>
      have rest := length_pushAll_le segments (push path segment)
      have one := length_push_le path segment
      rw [pushAll, List.foldl_cons, ← pushAll, List.length_cons] at longest
      obtain ⟨first, appended, plain⟩ := @push_longer segment path nonempty (by omega)
      have length : (path ++ [first]).length = path.length + 1 := by simp
      rw [appended] at longest
      obtain ⟨added, later, plainRest⟩ := @ih (path ++ [first]) (by simp) (by omega)
      refine ⟨first :: added, ?_, fun reads other member => ?_⟩
      · rw [pushAll, List.foldl_cons, ← pushAll, appended, later, List.append_assoc,
          List.singleton_append]
      · rw [List.map_cons, List.map_cons] at reads
        obtain ⟨readsFirst, readsRest⟩ := List.cons.inj reads
        rcases List.mem_cons.mp member with rfl | inRest
        · exact plain readsFirst
        · exact plainRest readsRest other inRest

/-- The path grows by one segment for each push, each reading back as what was pushed, exactly
    when every segment is plain. -/
theorem pushAll_reads_iff (started : path ≠ [[]]) :
    (∃ added, pushAll path segments = path ++ added ∧ added.map decode = segments.map bytes) ↔
      ∀ segment ∈ segments, Plain segment := by
  constructor
  · rintro ⟨added, pushed, reads⟩
    have count : added.length = segments.length := by
      simpa using congrArg List.length reads
    obtain ⟨added', pushed', plain⟩ := @pushAll_longest path nonempty segments (by
      rw [pushed, List.length_append, count])
    have same : added' = added := List.append_cancel_left (pushed'.symm.trans pushed)
    exact plain (same ▸ reads)
  · intro plain
    refine ⟨_, pushAll_of_plain nonempty started plain, ?_⟩
    rw [List.map_map]
    exact List.map_congr_left fun segment _ => decode_encode segmentSet rfl _

/-- Plain segments are told apart by the path they make. -/
theorem pushAll_injective {segments' : List (List Char)} (started : path ≠ [[]])
    (plain : ∀ segment ∈ segments, Plain segment) (plain' : ∀ segment ∈ segments', Plain segment)
    (same : pushAll path segments = pushAll path segments') : segments = segments' := by
  rw [pushAll_of_plain nonempty started plain, pushAll_of_plain nonempty started plain'] at same
  refine List.map_injective_iff.mpr ?_ (List.append_cancel_left same)
  exact fun text text' encoded => bytes_injective (encode_segment_injective encoded)

end

end Url

end Nyanpasu
