import Mathlib.Algebra.Group.Nat.Defs
import Mathlib.Data.List.Basic
import Mathlib.Data.List.Infix
import Mathlib.Tactic.Common

/-! # Names of the files in the runtime directory

The runtime store names every file of an epoch by formatting its number, and
reads numbers back from whatever names a directory carries.  A name is the list
of its characters.  Writing and reading use different code in the source, so
the two are related here once: every name the store forms is read back as its
own epoch, and no two artifacts share a name.
-/

namespace Nyanpasu.Naming

abbrev FileName := List Char

/-- A number as the source's `{}` formatting prints it. -/
def decimal (n : Nat) : List Char := Nat.toDigits 10 n

/-! ## The fixed texts of the names -/

def configStem : List Char := ['c', 'o', 'n', 'f', 'i', 'g', '-']

def coreStem : List Char := ['c', 'o', 'r', 'e', '-']

def stagedStem : List Char := ['.', 'c', 'o', 'n', 'f', 'i', 'g', '-']

def yamlSuffix : List Char := ['.', 'y', 'a', 'm', 'l']

def pidSuffix : List Char := ['.', 'p', 'i', 'd']

def sockSuffix : List Char := ['.', 's', 'o', 'c', 'k']

def backupInfix : List Char := ['.', 'y', 'a', 'm', 'l', '.', 'b', 'a', 'c', 'k', 'u', 'p', '-']

def stagedInfix : List Char := ['.', 'y', 'a', 'm', 'l', '.', 't', 'm', 'p', '-']

def pidTempInfix : List Char := ['.', 'p', 'i', 'd', '.', 't', 'm', 'p', '-']

/-- The files a manager creates for an epoch, by what they hold. -/
inductive Artifact where
  | config (epoch : Nat)
  | pid (epoch : Nat)
  | socket (epoch : Nat)
  | backup (epoch generation : Nat)
  | staged (epoch process counter : Nat)
  deriving Repr, DecidableEq

namespace Artifact

def epoch : Artifact → Nat
  | .config n | .pid n | .socket n | .backup n _ | .staged n _ _ => n

/-- Files that only the manager writes; a core writes its PID record and socket. -/
def managed : Artifact → Bool
  | .pid _ | .socket _ => false
  | _ => true

end Artifact

def backupPrefix (n : Nat) : FileName :=
  configStem ++ (decimal n ++ backupInfix)

def stagedPrefix (n : Nat) : FileName :=
  stagedStem ++ (decimal n ++ stagedInfix)

def pidTempPrefix (n : Nat) : FileName :=
  coreStem ++ (decimal n ++ pidTempInfix)

namespace Artifact

/-- `artifact_runtime_path`, `artifact_pid_path`, `artifact_socket_path` and the
    two names built inside `backup` and `stage`. -/
def name : Artifact → FileName
  | .config n => configStem ++ (decimal n ++ yamlSuffix)
  | .pid n => coreStem ++ (decimal n ++ pidSuffix)
  | .socket n => coreStem ++ (decimal n ++ sockSuffix)
  | .backup n generation => backupPrefix n ++ decimal generation
  | .staged n process counter =>
      stagedPrefix n ++ (decimal process ++ '-' :: decimal counter)

end Artifact

/-! ## Reading a number back -/

def stripPrefix (pre s : List Char) : Option (List Char) :=
  if pre.isPrefixOf s then some (s.drop pre.length) else none

def stripSuffix (suf s : List Char) : Option (List Char) :=
  if suf.isSuffixOf s then some (s.take (s.length - suf.length)) else none

/-- `str::split_once`: the parts around the first occurrence of `sep`. -/
def splitOnce (sep : List Char) : List Char → Option (List Char × List Char)
  | [] => if sep.isPrefixOf [] then some ([], []) else none
  | c :: cs =>
      if sep.isPrefixOf (c :: cs) then some ([], (c :: cs).drop sep.length)
      else (splitOnce sep cs).map fun parts => (c :: parts.1, parts.2)

/-- `str::parse::<u64>`: one optional `+`, then decimal digits only, in range. -/
def parseU64 (s : List Char) : Option Nat :=
  let digits := match s with
    | '+' :: rest => rest
    | _ => s
  if digits.isEmpty || !digits.all Char.isDigit then none
  else
    let n := Nat.ofDigitChars 10 digits 0
    if n < 2 ^ 64 then some n else none

def artifactEpoch (name : FileName) : Option Nat :=
  let rest :=
    ((stripPrefix coreStem name).bind (stripSuffix pidSuffix)).or
    (((stripPrefix coreStem name).bind (stripSuffix sockSuffix)).or
    (((stripPrefix configStem name).bind fun value =>
        (stripSuffix yamlSuffix value).or
          ((splitOnce backupInfix value).map (·.1))).or
    (((stripPrefix stagedStem name).bind fun value =>
        (splitOnce stagedInfix value).map (·.1)).or
    ((stripPrefix coreStem name).bind fun value =>
        (splitOnce pidTempInfix value).map (·.1)))))
  rest.bind parseU64

/-! ## Digits delimit themselves

Every name is a fixed prefix, a number, and a remainder that starts with a
character which is not a digit.  Two such names agree only part by part.
-/

/-- The remainder of a name after its number. -/
def Delimited (s : List Char) : Prop := ∀ c ∈ s.head?, c.isDigit = false

instance (s : List Char) : Decidable (Delimited s) :=
  inferInstanceAs (Decidable (∀ c ∈ s.head?, c.isDigit = false))

variable {n : Nat} {c : Char}

theorem isDigit_of_mem_decimal (member : c ∈ decimal n) : c.isDigit = true :=
  Nat.isDigit_of_mem_toDigits (by decide) (by decide) member

theorem decimal_ne_nil (n : Nat) : decimal n ≠ [] := Nat.toDigits_ne_nil

theorem ofDigitChars_decimal (n : Nat) : Nat.ofDigitChars 10 (decimal n) 0 = n :=
  Nat.ofDigitChars_ten_toDigits

theorem decimal_injective : Function.Injective decimal := by
  intro n m same
  rw [← ofDigitChars_decimal n, same, ofDigitChars_decimal]

@[simp] theorem decimal_inj {m : Nat} : decimal n = decimal m ↔ n = m :=
  decimal_injective.eq_iff

variable {x y : List Char}

/-- Digits followed by a delimited remainder can be read off from the front. -/
theorem digits_append_inj {ds es : List Char} (digits : ∀ c ∈ ds, c.isDigit = true)
    (others : ∀ c ∈ es, c.isDigit = true) (left : Delimited x) (right : Delimited y)
    (same : ds ++ x = es ++ y) : ds = es ∧ x = y := by
  induction ds generalizing es with
  | nil =>
      cases es with
      | nil => exact ⟨rfl, same⟩
      | cons e es =>
          have head : x.head? = some e := by simp_all
          have digit := others e (by simp)
          simp [left e (by simp [head])] at digit
  | cons d ds ih =>
      cases es with
      | nil =>
          have head : y.head? = some d := by rw [List.nil_append] at same; simp [← same]
          have digit := digits d (by simp)
          simp [right d (by simp [head])] at digit
      | cons e es =>
          simp only [List.cons_append, List.cons.injEq] at same
          obtain ⟨rfl, same⟩ := same
          obtain ⟨rfl, rfl⟩ := ih (fun c member => digits c (by simp [member]))
            (fun c member => others c (by simp [member])) same
          exact ⟨rfl, rfl⟩

theorem decimal_append_inj {m : Nat} (left : Delimited x) (right : Delimited y) :
    decimal n ++ x = decimal m ++ y ↔ n = m ∧ x = y := by
  constructor
  · intro same
    obtain ⟨digits, rest⟩ := digits_append_inj
      (fun _ => isDigit_of_mem_decimal) (fun _ => isDigit_of_mem_decimal) left right same
    exact ⟨decimal_injective digits, rest⟩
  · rintro ⟨rfl, rfl⟩
    rfl

variable {s : List Char}

theorem delimited_cons (other : c.isDigit = false) : Delimited (c :: s) := by
  intro d member
  simp only [List.head?_cons, Option.mem_some_iff] at member
  exact member ▸ other

/-- The fixed texts before and after the epoch's number. -/
def Artifact.stem : Artifact → List Char
  | .config _ | .backup _ _ => configStem
  | .pid _ | .socket _ => coreStem
  | .staged _ _ _ => stagedStem

def Artifact.tail : Artifact → List Char
  | .config _ => yamlSuffix
  | .pid _ => pidSuffix
  | .socket _ => sockSuffix
  | .backup _ generation => backupInfix ++ decimal generation
  | .staged _ process counter =>
      stagedInfix ++ (decimal process ++ '-' :: decimal counter)

theorem Artifact.name_eq (a : Artifact) : a.name = a.stem ++ (decimal a.epoch ++ a.tail) := by
  cases a <;> simp [name, stem, tail, Artifact.epoch, backupPrefix, stagedPrefix]

theorem Artifact.tail_delimited (a : Artifact) : Delimited a.tail := by
  cases a <;> exact delimited_cons (by decide)

variable {a b : Artifact}

/-- No fixed prefix continues another one. -/
theorem Artifact.stem_eq (same : a.stem ++ x = b.stem ++ y) : a.stem = b.stem := by
  cases a <;> cases b <;> simp_all [stem, configStem, coreStem, stagedStem]

theorem Artifact.name_injective : Function.Injective Artifact.name := by
  intro a b same
  rw [a.name_eq, b.name_eq] at same
  have stems := stem_eq same
  rw [stems, List.append_cancel_left_eq] at same
  obtain ⟨epochs, tails⟩ := (decimal_append_inj a.tail_delimited b.tail_delimited).mp same
  cases a <;> cases b <;>
    simp_all [stem, configStem, coreStem, stagedStem, Artifact.epoch, tail, yamlSuffix, pidSuffix,
      sockSuffix, backupInfix, stagedInfix, decimal_append_inj, delimited_cons]

@[simp] theorem Artifact.name_inj : a.name = b.name ↔ a = b :=
  name_injective.eq_iff

/-! ## What the cleanup prefixes select -/

private theorem stem_decimal_begins {stem : List Char} {middle : List Char} (fixed : a.stem = stem)
    (delimited : Delimited middle) (nonempty : middle ≠ []) :
    stem ++ (decimal n ++ middle) <+: a.name ↔ a.epoch = n ∧ middle <+: a.tail := by
  subst fixed
  rw [a.name_eq, List.prefix_append_right_inj]
  constructor
  · rintro ⟨rest, same⟩
    rw [List.append_assoc] at same
    have delimited' : Delimited (middle ++ rest) := by
      cases middle with
      | nil => exact absurd rfl nonempty
      | cons c cs => simpa [Delimited] using delimited
    obtain ⟨epochs, tails⟩ := (decimal_append_inj delimited' a.tail_delimited).mp same
    exact ⟨epochs.symm, rest, tails⟩
  · rintro ⟨rfl, rest, tails⟩
    exact ⟨rest, by rw [List.append_assoc, tails]⟩

private theorem stem_prefix_eq (begins : b.stem ++ s <+: a.name) : a.stem = b.stem := by
  obtain ⟨rest, same⟩ := begins
  rw [a.name_eq, List.append_assoc] at same
  exact (Artifact.stem_eq same).symm

/-- The backup prefix of an epoch selects that epoch's backups. -/
theorem backupPrefix_isPrefix :
    backupPrefix n <+: a.name ↔ ∃ generation, a = .backup n generation := by
  constructor
  · intro begins
    have stems : a.stem = configStem := stem_prefix_eq (b := .config n) begins
    have delimited : Delimited backupInfix := delimited_cons (by decide)
    rw [backupPrefix, stem_decimal_begins stems delimited (List.cons_ne_nil _ _)] at begins
    obtain ⟨rfl, tails⟩ := begins
    cases a <;>
      simp_all [Artifact.stem, Artifact.tail, Artifact.epoch, configStem, coreStem, stagedStem,
        backupInfix, yamlSuffix]
  · rintro ⟨generation, rfl⟩
    exact List.prefix_append _ _

theorem stagedPrefix_isPrefix :
    stagedPrefix n <+: a.name ↔ ∃ process counter, a = .staged n process counter := by
  constructor
  · intro begins
    have stems : a.stem = stagedStem := stem_prefix_eq (b := .staged n 0 0) begins
    have delimited : Delimited stagedInfix := delimited_cons (by decide)
    rw [stagedPrefix, stem_decimal_begins stems delimited (List.cons_ne_nil _ _)] at begins
    obtain ⟨rfl, tails⟩ := begins
    cases a <;> simp_all [Artifact.stem, Artifact.epoch, configStem, coreStem, stagedStem]
  · rintro ⟨process, counter, rfl⟩
    exact List.prefix_append _ _

/-- The PID writer's own temporary files are none of the manager's artifacts. -/
theorem pidTempPrefix_not_isPrefix : ¬ pidTempPrefix n <+: a.name := by
  intro begins
  have stems : a.stem = coreStem := stem_prefix_eq (b := .pid n) begins
  have delimited : Delimited pidTempInfix := delimited_cons (by decide)
  rw [pidTempPrefix, stem_decimal_begins stems delimited (List.cons_ne_nil _ _)] at begins
  obtain ⟨rfl, tails⟩ := begins
  cases a <;>
    simp_all [Artifact.stem, Artifact.tail, configStem, coreStem, stagedStem, pidSuffix,
      sockSuffix, pidTempInfix]

/-! ## Every formed name is read back -/

theorem stripPrefix_append (pre s : List Char) : stripPrefix pre (pre ++ s) = some s := by
  simp [stripPrefix]

theorem stripSuffix_append (s suf : List Char) : stripSuffix suf (s ++ suf) = some s := by
  simp [stripSuffix]

theorem stripSuffix_eq_none {suf : List Char} (ends : s.getLast? = some c)
    (other : suf.getLast? ≠ some c) (nonempty : suf ≠ []) : stripSuffix suf s = none := by
  rw [stripSuffix, if_neg]
  rw [List.isSuffixOf_iff_suffix]
  rintro ⟨rest, rfl⟩
  rw [List.getLast?_append_of_ne_nil _ nonempty] at ends
  exact other ends

theorem splitOnce_append {sep ds rest : List Char} (absent : c ∉ ds) :
    splitOnce (c :: sep) (ds ++ (c :: sep ++ rest)) = some (ds, rest) := by
  induction ds with
  | nil => simp [splitOnce]
  | cons d ds ih =>
      rw [List.mem_cons, not_or] at absent
      have later := ih absent.2
      rw [List.cons_append] at later
      simp [splitOnce, absent.1, later]

theorem dot_notMem_decimal (n : Nat) : '.' ∉ decimal n := fun member =>
  absurd (isDigit_of_mem_decimal member) (by decide)

theorem parseU64_decimal (bounded : n < 2 ^ 64) : parseU64 (decimal n) = some n := by
  have digits : (decimal n).all Char.isDigit = true :=
    List.all_eq_true.mpr fun _ => isDigit_of_mem_decimal
  cases split : decimal n with
  | nil => exact absurd split (decimal_ne_nil n)
  | cons c cs =>
      have plain : c ≠ '+' := by
        rintro rfl
        simp [split] at digits
      have same : Nat.ofDigitChars 10 (c :: cs) 0 = n := split ▸ ofDigitChars_decimal n
      rw [split] at digits
      have unsigned : (match c :: cs with | '+' :: rest => rest | _ => c :: cs) = c :: cs := by
        split
        · simp_all
        · rfl
      simp only [parseU64, unsigned, digits, same, bounded]
      simp

private theorem getLast?_append_decimal (s : List Char) (n : Nat) :
    ∃ c, c.isDigit = true ∧ (s ++ decimal n).getLast? = some c := by
  rw [List.getLast?_append_of_ne_nil _ (decimal_ne_nil n)]
  cases ends : (decimal n).getLast? with
  | none => exact absurd (List.getLast?_eq_none_iff.mp ends) (decimal_ne_nil n)
  | some c => exact ⟨c, isDigit_of_mem_decimal (List.mem_of_getLast? ends), rfl⟩

theorem stripPrefix_other_stem (s : List Char) :
    stripPrefix coreStem (configStem ++ s) = none ∧
      stripPrefix coreStem (stagedStem ++ s) = none ∧
      stripPrefix configStem (stagedStem ++ s) = none := by
  simp [stripPrefix, coreStem, configStem, stagedStem]

/-- Sweeping a directory recognises each artifact as belonging to its epoch. -/
theorem artifactEpoch_name (bounded : a.epoch < 2 ^ 64) : artifactEpoch a.name = some a.epoch := by
  rw [a.name_eq]
  cases a with
  | config n =>
      simp only [Artifact.stem, Artifact.tail, artifactEpoch, stripPrefix_other_stem,
        stripPrefix_append, stripSuffix_append, Option.bind_some, Option.bind_none, Option.none_or,
        Option.some_or, parseU64_decimal bounded]
  | pid n =>
      simp only [Artifact.stem, Artifact.tail, artifactEpoch, stripPrefix_append,
        stripSuffix_append, Option.bind_some, Option.some_or, parseU64_decimal bounded]
  | socket n =>
      have other : stripSuffix pidSuffix (decimal n ++ sockSuffix) = none :=
        stripSuffix_eq_none (c := 'k') (by simp [sockSuffix]) (by decide) (by decide)
      simp only [Artifact.stem, Artifact.tail, Artifact.epoch, artifactEpoch, stripPrefix_append,
        stripSuffix_append, other, Option.bind_some, Option.none_or, Option.some_or]
      exact parseU64_decimal bounded
  | backup n generation =>
      obtain ⟨c, digit, ends⟩ := getLast?_append_decimal (decimal n ++ backupInfix) generation
      have other : stripSuffix yamlSuffix (decimal n ++ (backupInfix ++ decimal generation)) = none := by
        refine stripSuffix_eq_none (c := c) (by rw [← List.append_assoc, ends]) ?_ (by decide)
        rintro same
        cases same
        exact absurd digit (by decide)
      have parts : splitOnce backupInfix (decimal n ++ (backupInfix ++ decimal generation)) =
          some (decimal n, decimal generation) := splitOnce_append (dot_notMem_decimal n)
      simp only [Artifact.stem, Artifact.tail, Artifact.epoch, artifactEpoch,
        stripPrefix_other_stem, stripPrefix_append, other, parts, Option.bind_some,
        Option.bind_none, Option.none_or, Option.some_or, Option.map_some]
      exact parseU64_decimal bounded
  | staged n process counter =>
      have parts : splitOnce stagedInfix
          (decimal n ++ (stagedInfix ++ (decimal process ++ '-' :: decimal counter))) =
          some (decimal n, decimal process ++ '-' :: decimal counter) :=
        splitOnce_append (dot_notMem_decimal n)
      simp only [Artifact.stem, Artifact.tail, Artifact.epoch, artifactEpoch,
        stripPrefix_other_stem, stripPrefix_append, parts, Option.bind_some, Option.bind_none,
        Option.none_or, Option.some_or, Option.map_some]
      exact parseU64_decimal bounded

/-- Reading is more permissive than writing: a sign or leading zeros are accepted. -/
example : artifactEpoch (configStem ++ ['+', '0', '7'] ++ yamlSuffix) = some 7 := by decide

end Nyanpasu.Naming
