import Nyanpasu.Digits
import Nyanpasu.Guarantees.CompareAndSet

/-! # What the orphan sweep removes

The sweep reads numbers from file names and then removes the names it forms from
each number.  The two agree on a name exactly when the number in it is written the
way formatting writes it.
-/

namespace Nyanpasu

variable {name : FileName}

namespace Naming

/-! ## The number in a name -/

/-- The part of a name that `artifact_epoch` parses. -/
def numberText (name : FileName) : Option (List Char) :=
  ((stripPrefix coreStem name).bind (stripSuffix pidSuffix)).or
  (((stripPrefix coreStem name).bind (stripSuffix sockSuffix)).or
  (((stripPrefix configStem name).bind fun value =>
      (stripSuffix yamlSuffix value).or
        ((splitOnce backupInfix value).map (·.1))).or
  (((stripPrefix stagedStem name).bind fun value =>
      (splitOnce stagedInfix value).map (·.1)).or
  ((stripPrefix coreStem name).bind fun value =>
      (splitOnce pidTempInfix value).map (·.1)))))

theorem artifactEpoch_eq (name : FileName) : artifactEpoch name = (numberText name).bind parseU64 :=
  rfl

variable {s rest : List Char}

theorem stripPrefix_eq_some {pre : List Char} :
    stripPrefix pre s = some rest ↔ s = pre ++ rest := by
  unfold stripPrefix
  split
  case isTrue begins =>
    obtain ⟨tail, rfl⟩ := List.isPrefixOf_iff_prefix.mp begins
    simp [eq_comm]
  case isFalse differs =>
    simp only [reduceCtorEq, false_iff]
    rintro rfl
    exact differs (List.isPrefixOf_iff_prefix.mpr (List.prefix_append _ _))

theorem stripSuffix_eq_some {suf : List Char} :
    stripSuffix suf s = some rest ↔ s = rest ++ suf := by
  unfold stripSuffix
  split
  case isTrue ends =>
    obtain ⟨front, rfl⟩ := List.isSuffixOf_iff_suffix.mp ends
    simp [eq_comm]
  case isFalse differs =>
    simp only [reduceCtorEq, false_iff]
    rintro rfl
    exact differs (List.isSuffixOf_iff_suffix.mpr (List.suffix_append _ _))

theorem eq_of_splitOnce {sep : List Char} {parts : List Char × List Char}
    (split : splitOnce sep s = some parts) : s = parts.1 ++ (sep ++ parts.2) := by
  induction s generalizing parts with
  | nil =>
      unfold splitOnce at split
      split at split
      case isTrue empty =>
        cases split
        simpa using empty
      case isFalse => cases split
  | cons c cs ih =>
      unfold splitOnce at split
      split at split
      case isTrue begins =>
        cases split
        obtain ⟨tail, same⟩ := List.isPrefixOf_iff_prefix.mp begins
        simp [← same]
      case isFalse =>
        obtain ⟨later, found, rfl⟩ := Option.map_eq_some_iff.mp split
        rw [ih found, List.cons_append]

variable {text : List Char}

/-- The six kinds of names in which a number is read. -/
theorem numberText_cases (reads : numberText name = some text) :
    name = coreStem ++ (text ++ pidSuffix) ∨ name = coreStem ++ (text ++ sockSuffix) ∨
      name = configStem ++ (text ++ yamlSuffix) ∨
      (∃ rest, name = configStem ++ (text ++ (backupInfix ++ rest))) ∨
      (∃ rest, name = stagedStem ++ (text ++ (stagedInfix ++ rest))) ∨
      ∃ rest, name = coreStem ++ (text ++ (pidTempInfix ++ rest)) := by
  simp only [numberText, Option.or_eq_some_iff, Option.bind_eq_some_iff, Option.map_eq_some_iff,
    stripPrefix_eq_some, stripSuffix_eq_some] at reads
  rcases reads with ⟨_, rfl, rfl⟩ | ⟨-, ⟨_, rfl, rfl⟩ | ⟨-, ⟨_, rfl, rfl | ⟨-, parts, split, rfl⟩⟩ |
    ⟨-, ⟨_, rfl, parts, split, rfl⟩ | ⟨-, _, rfl, parts, split, rfl⟩⟩⟩⟩
  · exact .inl rfl
  · exact .inr (.inl rfl)
  · exact .inr (.inr (.inl rfl))
  · exact .inr (.inr (.inr (.inl ⟨parts.2, by rw [← eq_of_splitOnce split]⟩)))
  · exact .inr (.inr (.inr (.inr (.inl ⟨parts.2, by rw [← eq_of_splitOnce split]⟩))))
  · exact .inr (.inr (.inr (.inr (.inr ⟨parts.2, by rw [← eq_of_splitOnce split]⟩))))

/-- A text with a dot in it is no number. -/
theorem parseU64_of_dot (dotted : '.' ∈ text) : parseU64 text = none := by
  have other : ∀ digits : List Char, '.' ∈ digits → digits.all Char.isDigit = false := by
    intro digits member
    rw [List.all_eq_false]
    exact ⟨'.', member, by decide⟩
  unfold parseU64
  split
  case h_1 rest =>
    have member : '.' ∈ rest := by simpa using dotted
    simp [other rest member]
  case h_2 => simp [other text dotted]

theorem eq_of_parseU64_decimal {n m : Nat} (parses : parseU64 (decimal n) = some m) : n = m := by
  have digits : (decimal n).all Char.isDigit = true :=
    List.all_eq_true.mpr fun _ => isDigit_of_mem_decimal
  unfold parseU64 at parses
  split at parses
  case h_1 rest same =>
    have sign := isDigit_of_mem_decimal (n := n) (c := '+') (by simp [same])
    exact absurd sign (by decide)
  case h_2 =>
    simp [digits, decimal_ne_nil, ofDigitChars_decimal] at parses
    exact parses.2

/-! ## The names formed from a number -/

/-- The names that `cleanup_artifacts` removes for a number. -/
def removedFor (n : Nat) (name : FileName) : Bool :=
  name == (Artifact.config n).name || name == (Artifact.pid n).name ||
    name == (Artifact.socket n).name || Store.cleanupSelects n name

/-- A text that begins with a number and a dot, less a short end, still has the dot. -/
theorem dot_mem_of_append {n : Nat} {middle suf : List Char}
    (same : decimal n ++ ('.' :: middle ++ rest) = text ++ suf) (short : suf.length ≤ middle.length)
    : '.' ∈ text := by
  rcases List.append_eq_append_iff.mp same with ⟨inner, rfl, tail⟩ | ⟨inner, digits, tail⟩
  · cases inner with
    | nil =>
        have lengths := congrArg List.length tail
        simp only [List.cons_append, List.length_cons, List.length_append, List.nil_append] at lengths
        omega
    | cons c cs =>
        simp only [List.cons_append, List.cons.injEq] at tail
        simp [← tail.1]
  · have lengths := congrArg List.length tail
    simp only [List.cons_append, List.length_cons, List.length_append] at lengths
    omega

/-- A backup's name may also end like a runtime config. -/
theorem numberText_backup (n : Nat) (rest : List Char) :
    ∃ text, numberText (backupPrefix n ++ rest) = some text ∧ (text = decimal n ∨ '.' ∈ text) := by
  have name : backupPrefix n ++ rest = configStem ++ (decimal n ++ (backupInfix ++ rest)) := by
    simp [backupPrefix]
  have parts : splitOnce backupInfix (decimal n ++ (backupInfix ++ rest)) = some (decimal n, rest) :=
    splitOnce_append (dot_notMem_decimal n)
  rw [name]
  cases yaml : stripSuffix yamlSuffix (decimal n ++ (backupInfix ++ rest)) with
  | none =>
      refine ⟨decimal n, ?_, .inl rfl⟩
      simp [numberText, stripPrefix_other_stem, stripPrefix_append, yaml, parts]
  | some text =>
      refine ⟨text, ?_, .inr (dot_mem_of_append (stripSuffix_eq_some.mp yaml) (by decide))⟩
      simp [numberText, stripPrefix_other_stem, stripPrefix_append, yaml]

/-- A temporary PID file's name may also end like a PID file or a socket. -/
theorem numberText_pidTemp (n : Nat) (rest : List Char) :
    ∃ text, numberText (pidTempPrefix n ++ rest) = some text ∧ (text = decimal n ∨ '.' ∈ text) := by
  have name : pidTempPrefix n ++ rest = coreStem ++ (decimal n ++ (pidTempInfix ++ rest)) := by
    simp [pidTempPrefix]
  have parts : splitOnce pidTempInfix (decimal n ++ (pidTempInfix ++ rest)) =
      some (decimal n, rest) := splitOnce_append (dot_notMem_decimal n)
  have other (s : List Char) : stripPrefix configStem (coreStem ++ s) = none ∧
      stripPrefix stagedStem (coreStem ++ s) = none := by
    simp [stripPrefix, coreStem, configStem, stagedStem]
  rw [name]
  cases pid : stripSuffix pidSuffix (decimal n ++ (pidTempInfix ++ rest)) with
  | some text =>
      refine ⟨text, ?_, .inr (dot_mem_of_append (stripSuffix_eq_some.mp pid) (by decide))⟩
      simp [numberText, stripPrefix_append, pid]
  | none =>
  cases sock : stripSuffix sockSuffix (decimal n ++ (pidTempInfix ++ rest)) with
  | some text =>
      refine ⟨text, ?_, .inr (dot_mem_of_append (stripSuffix_eq_some.mp sock) (by decide))⟩
      simp [numberText, stripPrefix_append, pid, sock]
  | none =>
      refine ⟨decimal n, ?_, .inl rfl⟩
      simp [numberText, stripPrefix_append, other, pid, sock, parts]

/-- In a name that is removed for a number, that number is read or none at all. -/
theorem numberText_of_removedFor {n : Nat} (removed : removedFor n name = true) :
    ∃ text, numberText name = some text ∧ (text = decimal n ∨ '.' ∈ text) := by
  simp only [removedFor, Store.cleanupSelects, Bool.or_eq_true, beq_iff_eq,
    List.isPrefixOf_iff_prefix] at removed
  rcases removed with ((rfl | rfl) | rfl) | (⟨rest, rfl⟩ | ⟨rest, rfl⟩) | ⟨rest, rfl⟩
  · refine ⟨decimal n, ?_, .inl rfl⟩
    simp [Artifact.name, numberText, stripPrefix_other_stem, stripPrefix_append, stripSuffix_append]
  · refine ⟨decimal n, ?_, .inl rfl⟩
    simp [Artifact.name, numberText, stripPrefix_append, stripSuffix_append]
  · refine ⟨decimal n, ?_, .inl rfl⟩
    have other : stripSuffix pidSuffix (decimal n ++ sockSuffix) = none :=
      stripSuffix_eq_none (c := 'k') (by simp [sockSuffix]) (by decide) (by decide)
    simp [Artifact.name, numberText, stripPrefix_append, stripSuffix_append, other]
  · exact numberText_backup n rest
  · refine ⟨decimal n, ?_, .inl rfl⟩
    have parts : splitOnce stagedInfix (decimal n ++ (stagedInfix ++ rest)) =
        some (decimal n, rest) := splitOnce_append (dot_notMem_decimal n)
    simp [stagedPrefix, numberText, stripPrefix_other_stem, stripPrefix_append, parts]
  · exact numberText_pidTemp n rest

/-- Cleanup is precise: no name of another number is removed. -/
theorem artifactEpoch_of_removedFor {n m : Nat} (removed : removedFor n name = true)
    (reads : artifactEpoch name = some m) : n = m := by
  obtain ⟨text, isText, rfl | dotted⟩ := numberText_of_removedFor removed
  · rw [artifactEpoch_eq, isText, Option.bind_some] at reads
    exact eq_of_parseU64_decimal reads
  · rw [artifactEpoch_eq, isText, Option.bind_some, parseU64_of_dot dotted] at reads
    cases reads

/-- A text without a sign and without a zero to spare. -/
def Unadorned (text : List Char) : Prop :=
  text.head? ≠ some '+' ∧ (text.head? = some '0' → text = ['0'])

instance (text : List Char) : Decidable (Unadorned text) :=
  inferInstanceAs (Decidable (_ ∧ _))

/-- Among the spellings of a number, formatting produces the unadorned one. -/
theorem eq_decimal_iff {n : Nat} (parses : parseU64 text = some n) :
    text = decimal n ↔ Unadorned text := by
  constructor
  · rintro rfl
    have digits : ∀ c ∈ decimal n, c.isDigit = true := fun _ => isDigit_of_mem_decimal
    refine ⟨fun sign => ?_, (Digits.toDigits_value_iff (decimal_ne_nil n) digits).mp ?_⟩
    · exact absurd (digits '+' (List.mem_of_head? sign)) (by decide)
    · exact congrArg decimal (Digits.value_toDigits n).symm
  · rintro ⟨unsigned, spare⟩
    unfold parseU64 at parses
    split at parses
    case h_1 rest => exact absurd rfl unsigned
    case h_2 =>
      simp only [Bool.or_eq_true, List.isEmpty_iff, Bool.not_eq_true', Option.ite_none_left_eq_some,
        Option.ite_none_right_eq_some, Option.some.injEq, not_or, Bool.not_eq_false,
        List.all_eq_true] at parses
      obtain ⟨⟨nonempty, digits⟩, -, rfl⟩ := parses
      exact (Digits.toDigits_value_iff nonempty digits).mpr spare

/-- A number that can be read in the name is written without sign and leading zeros. -/
def Plainly (name : FileName) : Prop :=
  ∀ text ∈ numberText name, (parseU64 text).isSome → Unadorned text

theorem removedFor_iff_decimal {n : Nat} (reads : artifactEpoch name = some n) :
    removedFor n name = true ↔ numberText name = some (decimal n) := by
  constructor
  · intro removed
    obtain ⟨text, isText, rfl | dotted⟩ := numberText_of_removedFor removed
    · exact isText
    · rw [artifactEpoch_eq, isText, Option.bind_some, parseU64_of_dot dotted] at reads
      cases reads
  · intro isText
    simp only [removedFor, Store.cleanupSelects, Bool.or_eq_true, beq_iff_eq,
      List.isPrefixOf_iff_prefix]
    rcases numberText_cases isText with rfl | rfl | rfl | ⟨rest, rfl⟩ | ⟨rest, rfl⟩ | ⟨rest, rfl⟩
    · exact .inl (.inl (.inr rfl))
    · exact .inl (.inr rfl)
    · exact .inl (.inl (.inl rfl))
    · exact .inr (.inl (.inl ⟨rest, by simp [backupPrefix]⟩))
    · exact .inr (.inl (.inr ⟨rest, by simp [stagedPrefix]⟩))
    · exact .inr (.inr ⟨rest, by simp [pidTempPrefix]⟩)

/-- Cleanup removes the names in which its number is spelled plainly. -/
theorem removedFor_iff {n : Nat} (reads : artifactEpoch name = some n) :
    removedFor n name = true ↔ Plainly name := by
  obtain ⟨text, isText, parses⟩ := Option.bind_eq_some_iff.mp (artifactEpoch_eq name ▸ reads)
  have plainly : Plainly name ↔ Unadorned text := by simp [Plainly, isText, parses]
  rw [removedFor_iff_decimal reads, plainly, ← eq_decimal_iff parses, isText, Option.some.injEq]

end Naming

open Naming Store Program

/-! ## The environment beside a cleanup -/

namespace World

section

variable {keeps : FileName → Prop} {marks : List Mark}

theorem observeProc_dir (u : World) (p : Nat) : (u.observeProc p).dir = u.dir := by
  unfold observeProc
  split
  · split <;> rfl
  · rfl

theorem deliver_dir (u : World) (p : Nat) (now : Int) : (u.deliver p now).dir = u.dir := by
  unfold deliver
  split
  · dsimp only
    split <;> rfl
  · rfl

theorem writeOwn_dir {u : World} {dir : Dir}
    (same : ∀ name, keeps name → dir.get name = u.dir.get name)
    (p : Nat) (path : FileName) (contents : Option Bytes) :
    ∃ dir', { u with dir := dir, marks := marks }.writeOwn p path contents =
        { u.writeOwn p path contents with dir := dir', marks := marks } ∧
      ∀ name, keeps name → dir'.get name = (u.writeOwn p path contents).dir.get name := by
  by_cases alive : p < u.procCount ∧ (u.procs p).provenDead = false
  · cases contents with
    | some contents =>
        refine ⟨dir.write path contents, by simp [writeOwn, alive], fun name kept => ?_⟩
        simp only [writeOwn, alive, and_self, if_true, Dir.get_write, same name kept]
    | none =>
        refine ⟨dir.erase path, by simp [writeOwn, alive], fun name kept => ?_⟩
        simp only [writeOwn, alive, and_self, if_true, Dir.get_erase, same name kept]
  · exact ⟨dir, by simp [writeOwn, alive], by simpa [writeOwn, alive] using same⟩

/-- The environment writes over two directories alike. -/
theorem interfere_dir {u : World} {dir : Dir}
    (same : ∀ name, keeps name → dir.get name = u.dir.get name) (move : Interference) :
    ∃ dir', { u with dir := dir, marks := marks }.interfere move =
        { u.interfere move with dir := dir', marks := marks } ∧
      ∀ name, keeps name → dir'.get name = (u.interfere move).dir.get name := by
  cases move with
  | monitor p event => exact ⟨dir, rfl, same⟩
  | observe p =>
      refine ⟨dir, ?_, fun name kept => (same name kept).trans (by rw [interfere, observeProc_dir])⟩
      simp only [interfere, observeProc]
      split
      case h_1 seen _ =>
        by_cases seenAll : seen = (u.procs p).version
        · simp [seenAll]
        · simp [seenAll, updateProc]
      case h_2 => rfl
  | deliver p now =>
      refine ⟨dir, ?_, fun name kept => (same name kept).trans (by rw [interfere, deliver_dir])⟩
      simp only [interfere, deliver]
      split
      · simp only [updateProc]
        split <;> rfl
      · rfl
  | pidFile p contents => exact writeOwn_dir same p _ contents
  | socket p contents => exact writeOwn_dir same p _ contents

theorem tick_dir_of_same {u : World} {dir : Dir} (env : Env)
    (same : ∀ name, keeps name → dir.get name = u.dir.get name) :
    ∃ dir', { u with dir := dir, marks := marks }.tick env =
        { u.tick env with dir := dir', marks := marks } ∧
      ∀ name, keeps name → dir'.get name = (u.tick env).dir.get name := by
  have moves : ∀ (list : List Interference) (v : World) (dir : Dir),
      (∀ name, keeps name → dir.get name = v.dir.get name) →
      ∃ dir', list.foldl interfere { v with dir := dir, marks := marks } =
          { list.foldl interfere v with dir := dir', marks := marks } ∧
        ∀ name, keeps name → dir'.get name = (list.foldl interfere v).dir.get name := by
    intro list
    induction list with
    | nil => exact fun v dir same => ⟨dir, rfl, same⟩
    | cons move rest ih =>
        intro v dir same
        obtain ⟨next, moved, agree⟩ := @interfere_dir keeps marks v dir same move
        rw [List.foldl_cons, moved, List.foldl_cons]
        exact ih _ next agree
  obtain ⟨dir', moved, agree⟩ := moves (env.interference u.clock) u dir same
  exact ⟨dir', congrArg (fun v : World => { v with clock := u.clock + 1 }) moved, agree⟩

end

end World

/-! ## One cleanup is precise -/

/-- Since `w` the environment has moved, and of the files only those removed for `n` went. -/
def Spared (env : Env) (n : Nat) (w v : World) : Prop :=
  ∃ k dir marks, v = { w.after env k with dir := dir, marks := marks } ∧
    ∀ name, removedFor n name = false → dir.get name = (w.after env k).dir.get name

section

variable {env : Env} {n : Nat} {w v v' : World}

theorem Spared.tick (spared : Spared env n w v) : Spared env n w (v.tick env) := by
  obtain ⟨k, dir, marks, rfl, same⟩ := spared
  obtain ⟨dir', ticked, agree⟩ := @World.tick_dir_of_same (removedFor n · = false) marks _ _ env
    same
  refine ⟨k + 1, dir', marks, ?_, ?_⟩
  · rw [ticked, World.after_succ]
  · rw [World.after_succ]
    exact agree

theorem Spared.shrink (spared : Spared env n w v) {dir : Dir}
    (others : ∀ name, removedFor n name = false → dir.get name = v.dir.get name) :
    Spared env n w { v with dir := dir } := by
  obtain ⟨k, before, marks, rfl, same⟩ := spared
  exact ⟨k, dir, marks, rfl, fun name kept => (others name kept).trans (same name kept)⟩

theorem Spared.markIf (spared : Spared env n w v) (place : Mark) (holds : Bool) :
    Spared env n w (v.markIf place holds) := by
  obtain ⟨k, dir, marks, rfl, same⟩ := spared
  cases holds with
  | false => exact ⟨k, dir, marks, rfl, same⟩
  | true => exact ⟨k, dir, place :: marks, rfl, same⟩

/-- Every way a step of the cleanup ends leaves the other names alone. -/
abbrev Spares (env : Env) (n : Nat) (w : World) {α : Type} (program : Manager α) (v : World) :
    Prop :=
  Ensures (fun _ => True) env program v fun _ v' => Spared env n w v'

theorem spares_atomic {α : Type} {f : Env → Nat → World → α × World}
    (holds : Spared env n w (f env v.clock (v.tick env)).2) : Spares env n w (atomic f) v :=
  holds

section

variable (spared : Spared env n w v)

include spared

theorem Spared.remove {path : FileName} (own : removedFor n path = true)
    : Spares env n w (removeRegularFile path) v := by
  refine spares_atomic ?_
  cases env.removeFault v.clock with
  | some failure => exact spared.tick
  | none =>
      refine spared.tick.shrink fun name kept => ?_
      rw [Dir.get_erase, if_neg]
      rintro rfl
      simp [own] at kept

theorem Spared.look {α : Type} {f : Dir → Except Error (α × Dir)}
    (looks : ∀ dir, ∃ a, f dir = .ok (a, dir)) : Spares env n w (fileOp f) v := by
  refine spares_atomic ?_
  cases env.fault v.clock with
  | some failure => exact spared.tick
  | none =>
      obtain ⟨a, done⟩ := looks (v.tick env).dir
      simp only [done]
      exact spared.tick

theorem Spared.cutShort : Spares env n w (markCutShort n) v :=
  ensures_act (spared.markIf _ _)

theorem Spared.sweep {selected : FileName → Bool}
    (own : ∀ name, selected name = true → removedFor n name = true) :
    Spared env n w { v with dir := v.dir.sweep selected } := by
  refine spared.shrink fun name kept => ?_
  rw [Dir.get_sweep, if_neg]
  intro chosen
  simp [own name chosen] at kept

end

theorem removedFor_of_selects (selects : cleanupSelects n name = true) :
    removedFor n name = true := by
  simp [removedFor, selects]

theorem Spared.removeEntries (spared : Spared env n w v) :
    Spares env n w (Store.removeEntries n) v := by
  have partly (missed : FileName → Bool) : Spared env n w { v.tick env with
      dir := (v.tick env).dir.sweep fun name => cleanupSelects n name && !missed name } :=
    spared.tick.sweep fun name chosen => removedFor_of_selects (Bool.and_eq_true_iff.mp chosen).1
  refine spares_atomic ?_
  cases env.listFault v.clock with
  | some failure => exact partly _
  | none =>
      cases env.entryFault v.clock with
      | some failure => exact partly _
      | none => exact spared.tick.sweep fun name => removedFor_of_selects

theorem Spared.removeSocket (spared : Spared env n w v) :
    Spares env n w (removeSocketArtifact n) v := by
  refine (spared.look fun dir => ⟨_, rfl⟩).bind fun found v₁ spared₁ => ?_
  match found with
  | .error error => exact spared₁.cutShort.bind fun _ _ spared₂ => spared₂
  | .ok false => exact spared₁
  | .ok true => exact spared₁.remove (by simp [removedFor])

theorem cleanupArtifacts_spares (env : Env) (n : Nat) (w : World) :
    Spares env n w (cleanupArtifacts n) w := by
  have spared : Spared env n w w := ⟨0, w.dir, w.marks, rfl, fun _ _ => rfl⟩
  refine (spared.remove (by simp [removedFor])).bind fun removed w₁ spared₁ => ?_
  cases removed with
  | error error => exact spared₁
  | ok _ =>
  refine (spared₁.remove (by simp [removedFor])).bind fun removed w₂ spared₂ => ?_
  cases removed with
  | error error => exact spared₂
  | ok _ =>
  refine spared₂.removeSocket.bind fun removed w₃ spared₃ => ?_
  cases removed with
  | error error => exact spared₃
  | ok _ =>
  refine spared₃.removeEntries.bind fun removed w₄ spared₄ => ?_
  cases removed with
  | error error => exact spared₄.cutShort.bind fun _ _ spared₅ => spared₅
  | ok _ => exact spared₄.look fun dir => ⟨_, rfl⟩

end

/-! ## A whole sweep

Before a manager is built no core of its own runs, so the directory changes by the
sweep alone and its outcome can be told name by name.
-/

/-- Of the files of `before`, exactly those in `gone` have been removed. -/
structure Purged (before : Dir) (gone : FileName → Bool) (w : World) : Prop where
  alone : w.procCount = 0
  left : ∀ name, w.dir.get name = if gone name then none else before.get name

section

variable {env : Env} {before : Dir} {gone gone' : FileName → Bool} {n : Nat} {w : World}

theorem Purged.tick (purged : Purged before gone w) : Purged before gone (w.tick env) where
  alone := (World.moved_tick env w).procCount.trans purged.alone
  left := fun name => by
    rw [@World.tick_dir ⟨env, 0⟩ w purged.alone]
    exact purged.left name

theorem Purged.shrink (purged : Purged before gone w) {dir : Dir} {selected : FileName → Bool}
    (left : ∀ name, dir.get name = if selected name then none else w.dir.get name) :
    Purged before (fun name => gone name || selected name) { w with dir := dir } where
  alone := purged.alone
  left := fun name => by
    rw [left, purged.left]
    cases gone name <;> cases selected name <;> rfl

/-- What a fallible step removes when it succeeds. -/
abbrev Purges (env : Env) (before : Dir) (gone : FileName → Bool) {α : Type}
    (program : Manager (Except Error α)) (w : World) : Prop :=
  Ensures (fun _ => True) env program w (Either (fun _ _ => True) fun _ w' =>
    Purged before gone w')

theorem purges_atomic {α : Type} {f : Env → Nat → World → Except Error α × World}
    {done : α → World → Prop}
    (holds : Either (fun _ _ => True) done (f env w.clock (w.tick env)).1
      (f env w.clock (w.tick env)).2) :
    Ensures (fun _ => True) env (atomic f) w (Either (fun _ _ => True) done) :=
  holds

section

variable (purged : Purged before gone w)

include purged

theorem Purged.remove (path : FileName) :
    Purges env before (fun name => gone name || name == path) (removeRegularFile path) w := by
  refine purges_atomic ?_
  cases env.removeFault w.clock with
  | some failure => trivial
  | none =>
      refine purged.tick.shrink fun name => ?_
      simp only [Dir.get_erase, beq_iff_eq]

theorem Purged.congr (same : ∀ name, gone name = gone' name) : Purged before gone' w where
  alone := purged.alone
  left := fun name => by rw [purged.left, same]

theorem Purged.look {α : Type} {f : Dir → Except Error (α × Dir)}
    (looks : ∀ dir, ∃ a, f dir = .ok (a, dir)) :
    Ensures (fun _ => True) env (fileOp f) w (Either (fun _ _ => True) fun a w' =>
      Purged before gone w' ∧ f w'.dir = .ok (a, w'.dir)) := by
  have moved : Purged before gone (w.tick env) := purged.tick
  refine purges_atomic ?_
  cases env.fault w.clock with
  | some failure => trivial
  | none =>
      obtain ⟨a, done⟩ := looks (w.tick env).dir
      simp only [done]
      exact ⟨moved, done⟩

theorem Purged.removeSocket (n : Nat) :
    Purges env before (fun name => gone name || name == (Artifact.socket n).name)
      (removeSocketArtifact n) w := by
  refine (purged.look fun dir => ⟨_, rfl⟩).bind_either (fun error w₁ _ => ?_)
    fun present w₁ ⟨purged₁, found⟩ => ?_
  · exact (ensures_act trivial : Ensures _ env (markCutShort n) w₁ fun _ _ => True).bind
      fun _ _ _ => trivial
  cases present with
  | true => exact purged₁.remove _
  | false =>
      -- a socket that is not there needs no removal
      have absent : w₁.dir.get (Artifact.socket n).name = none := by simpa using found
      refine purged₁.shrink fun name => ?_
      split
      case isTrue same => rw [beq_iff_eq.mp same, absent]
      case isFalse => rfl

theorem Purged.removeEntries (n : Nat) :
    Purges env before (fun name => gone name || cleanupSelects n name) (Store.removeEntries n) w := by
  refine purges_atomic ?_
  cases env.listFault w.clock with
  | some failure => trivial
  | none =>
      cases env.entryFault w.clock with
      | some failure => trivial
      | none => exact purged.tick.shrink fun name => Dir.get_sweep _ _ name

theorem Purged.cleanupArtifacts (n : Nat) :
    Purges env before (fun name => gone name || removedFor n name)
      (Store.cleanupArtifacts n) w := by
  refine (purged.remove _).bind_either (fun _ _ _ => trivial) fun _ w₁ purged₁ => ?_
  refine (purged₁.remove _).bind_either (fun _ _ _ => trivial) fun _ w₂ purged₂ => ?_
  refine (purged₂.removeSocket n).bind_either (fun _ _ _ => trivial) fun _ w₃ purged₃ => ?_
  refine (purged₃.removeEntries n).bind_either (fun error w₄ _ => ?_) fun _ w₄ purged₄ => ?_
  · exact (ensures_act trivial : Ensures _ env (markCutShort n) w₄ fun _ _ => True).bind
      fun _ _ _ => trivial
  refine (purged₄.look fun dir => ⟨_, rfl⟩).mono_either (fun _ _ _ => trivial)
    fun _ _ ⟨purged₅, _⟩ => purged₅.congr fun name => ?_
  simp only [removedFor, Bool.or_assoc]

theorem Purged.cleanupOwnController (n : Nat) :
    Purges env before gone (sweepArtifact.cleanupOwnController n) w := by
  unfold sweepArtifact.cleanupOwnController
  cases Epoch.new n with
  | none => exact purged
  | some epoch =>
      refine (show Ensures (fun _ => True) env (ask fun env _ => env.controllerDir) w
        fun _ w' => Purged before gone w' from purged.tick).bind fun separate w₁ purged₁ => ?_
      cases separate with
      | false => exact purged₁
      | true =>
          refine (purged₁.look fun dir => ⟨_, rfl⟩).bind_either (fun error w₂ _ => ?_)
            fun _ w₂ ⟨purged₂, _⟩ => purged₂
          exact (ensures_act trivial : Ensures _ env (markCutShort epoch.get) w₂
            fun _ _ => True).bind fun _ _ _ => trivial

theorem Purged.sweepArtifact (n : Nat) :
    Purges env before (fun name => gone name || removedFor n name) (Nyanpasu.sweepArtifact n) w := by
  refine (purged.look fun dir => ⟨_, rfl⟩).bind_either (fun _ _ _ => trivial)
    fun present w₁ ⟨purged₁, _⟩ => ?_
  refine (show Ensures (fun _ => True) env (sweepArtifact.reapOrphan present) w₁
    fun _ w' => Purged before gone w' from purged₁.tick).bind fun reaped w₂ purged₂ => ?_
  cases reaped with
  | error error => trivial
  | ok _ =>
  refine (purged₂.cleanupOwnController n).bind_either (fun _ _ _ => trivial) fun _ w₃ purged₃ => ?_
  exact purged₃.cleanupArtifacts n

theorem Purged.sweepArtifacts (numbers : List Nat) :
    Purges env before (fun name => gone name || numbers.any (removedFor · name))
      (Nyanpasu.sweepArtifacts numbers) w := by
  induction numbers generalizing gone w with
  | nil => exact purged.congr fun name => by simp
  | cons n rest ih =>
      refine (purged.sweepArtifact n).bind_either (fun _ _ _ => trivial) fun _ w₁ purged₁ => ?_
      refine (ih purged₁).mono_either (fun _ _ _ => trivial) fun _ _ purged₂ =>
        purged₂.congr fun name => ?_
      rw [List.any_cons, Bool.or_assoc]

end

/-- A successful sweep removes what is named for a number found, and nothing else. -/
theorem sweepOrphans_purges (env : Env) (dir : Dir) (dnsFile : RecordFile) :
    Purges env dir (fun name => (foundIn dir).any (removedFor · name)) sweepOrphans
      (World.boot dir dnsFile) := by
  have purged : Purged dir (fun _ => false) (World.boot dir dnsFile) := ⟨rfl, fun _ => rfl⟩
  have same : ((World.boot dir dnsFile).tick env).dir = dir := @World.tick_dir ⟨env, 0⟩ _ rfl
  have listed : Ensures (fun _ => True) env artifactEpochs (World.boot dir dnsFile)
      (Either (fun _ _ => True) fun numbers w' => numbers = foundIn dir ∧
        Purged dir (fun _ => false) w') := by
    unfold artifactEpochs fileOp
    refine purges_atomic ?_
    cases env.fault (World.boot dir dnsFile).clock with
    | some failure => trivial
    | none =>
        refine ⟨?_, purged.tick⟩
        simp only [same]
        rfl
  refine listed.bind_either (fun _ _ _ => trivial) fun numbers w₁ ⟨isFound, purged₁⟩ => ?_
  subst isFound
  refine (purged₁.sweepArtifacts _).bind_either (fun _ _ _ => trivial) fun _ w₂ purged₂ => ?_
  exact purged₂.congr fun name => by simp

end

theorem mem_foundIn_of_reads {dir : Dir} {n : Nat} (present : (dir.get name).isSome)
    (reads : artifactEpoch name = some n) : n ∈ foundIn dir := by
  obtain ⟨contents, found⟩ := Option.isSome_iff_exists.mp present
  rw [foundIn, List.mem_dedup, List.mem_insertionSort, List.mem_filterMap]
  exact ⟨_, Dir.mem_of_get found, reads⟩

/-- A name with a number in it survives the sweep just when the number is adorned. -/
theorem Purged.survives_iff {dir : Dir} {w : World} {n : Nat}
    (purged : Purged dir (fun name => (foundIn dir).any (removedFor · name)) w)
    (present : (dir.get name).isSome) (reads : artifactEpoch name = some n) :
    (w.dir.get name).isSome ↔ ¬ Plainly name := by
  have chosen : (foundIn dir).any (removedFor · name) = true ↔ Plainly name := by
    rw [← removedFor_iff reads, List.any_eq_true]
    constructor
    · rintro ⟨m, -, removed⟩
      rwa [← artifactEpoch_of_removedFor removed reads]
    · exact fun removed => ⟨n, mem_foundIn_of_reads present reads, removed⟩
  rw [purged.left, ← chosen]
  split <;> simp_all

/-- Whatever the directory holds, a successful sweep leaves no name with a number in it
    if and only if all of them were spelled plainly; and a cleanup, however it ends and
    from whatever state it starts, leaves the files of the other numbers to the
    environment. -/
theorem sweep_complete_iff_plain (env : Env) (dir : Dir)
    (dnsFile : RecordFile) :
    (∀ maxSeen w', sweepOrphans env (World.boot dir dnsFile) = .ok (.ok maxSeen, w') →
      ((∀ name n, (w'.dir.get name).isSome → artifactEpoch name ≠ some n) ↔
        ∀ name, (dir.get name).isSome → Plainly name)) ∧
    ∀ n w reply w', cleanupArtifacts n env w = .ok (reply, w') →
      ∃ k, ∀ name m, artifactEpoch name = some m → m ≠ n →
        w'.dir.get name = (w.after env k).dir.get name := by
  constructor
  · intro maxSeen w' run
    have purged : Purged dir _ w' := (sweepOrphans_purges env dir dnsFile).of_run run
    constructor
    · intro complete name present
      by_contra adorned
      -- a name without a number in it is plain
      obtain ⟨n, reads⟩ : ∃ n, artifactEpoch name = some n := by
        simp only [Plainly, not_forall] at adorned
        obtain ⟨text, isText, parses, -⟩ := adorned
        obtain ⟨n, isNumber⟩ := Option.isSome_iff_exists.mp parses
        exact ⟨n, by rw [artifactEpoch_eq, isText, Option.bind_some, isNumber]⟩
      exact complete name n ((purged.survives_iff present reads).mpr adorned) reads
    · intro plain name n survives reads
      have present : (dir.get name).isSome := by
        rw [purged.left] at survives
        split at survives
        · cases survives
        · exact survives
      exact (purged.survives_iff present reads).mp survives (plain name present)
  · intro n w reply w' run
    obtain ⟨k, left, marks, rfl, same⟩ := (cleanupArtifacts_spares env n w).of_run run
    refine ⟨k, fun name m reads other => same name ?_⟩
    by_contra removed
    rw [Bool.not_eq_false] at removed
    exact other (artifactEpoch_of_removedFor removed reads).symm

/-- A runtime config whose number is padded, as another program may write it. -/
def paddedName : FileName := configStem ++ (['0', '0', '7'] ++ yamlSuffix)

/-- The sweep finds the seven, removes `config-7.yaml`, and reports success. -/
theorem padded_number_survives :
    ∃ w', sweepOrphans calmEnv (World.boot [(paddedName, [])] none) = .ok (.ok 7, w') ∧
      (w'.dir.get paddedName).isSome ∧ artifactEpoch paddedName = some 7 := by
  have ran : ((sweepOrphans calmEnv (World.boot [(paddedName, [])] none)).toOption.any fun r =>
      r.1.toOption == some 7 && (r.2.dir.get paddedName).isSome) = true := by decide +kernel
  generalize sweepOrphans calmEnv _ = result at ran ⊢
  rcases result with _ | ⟨_ | maxSeen, w'⟩
  · simp [Except.toOption] at ran
  · simp [Except.toOption] at ran
  · simp only [Except.toOption, Option.any_some, Bool.and_eq_true, beq_iff_eq,
      Option.some.injEq] at ran
    obtain ⟨rfl, left⟩ := ran
    exact ⟨w', rfl, left, by decide⟩

end Nyanpasu
