import Nyanpasu.Logging.Index
import Nyanpasu.Spans
import Mathlib.Algebra.BigOperators.Group.Finset.Basic
import Mathlib.Algebra.GroupWithZero.Nat
import Mathlib.Algebra.Order.BigOperators.Group.Finset

/-! # What an index is an index of

A transcript is the sequential reading of a log, byte by byte, that drops nothing:
every complete line of admissible length, as the index understands it.  It knows no
batches, no keys and no lists of starts.  What an index retains is the window of its
transcript.
-/

namespace Nyanpasu

namespace Logging

open Index (fits newline)

/-- A complete line as the index keeps it. -/
structure Line where
  start : Nat
  stop : Nat
  timestamp : Option Int
  level : Level
  target : String
  unparsed : Bool
  truncated : Bool
  deriving DecidableEq

structure Transcript where
  lines : List Line
  pending : Bytes
  lineStart : Nat
  nextRead : Nat
  committed : Nat
  skipping : Bool
  malformed : Nat
  truncated : Nat
  /-- It starts inside the log, or a line was too long. -/
  cut : Bool

def fitting (nextRead : Nat) (lines : List Line) : Bool := fits nextRead (lines.map (·.start))

def targetsOf (lines : List Line) : Finset String := (lines.map (·.target)).toFinset

def weight (targets : Finset String) : Nat := ∑ target ∈ targets, target.utf8ByteSize

namespace Transcript

def new (start : Nat) : Transcript where
  lines := []
  pending := []
  lineStart := start
  nextRead := start
  committed := start
  skipping := start ≠ 0
  malformed := 0
  truncated := 0
  cut := start ≠ 0

/-- The newest lines, as many as an index may hold. -/
def window (t : Transcript) : List Line := trimFront (fitting t.nextRead) t.lines

/-- A target that is not in the window and would take its targets over their room. -/
def givesUp (t : Transcript) (target : String) : Bool :=
  decide (target ∉ targetsOf t.window) &&
    decide (maxTargetBytes < weight (targetsOf t.window) + target.utf8ByteSize)

/-- How a line is kept. -/
def line (parsers : Parsers) (t : Transcript) (bytes : Bytes) : Line :=
  let reading := parsers.read bytes
  let lost := t.givesUp reading.target
  { start := t.lineStart
    stop := t.nextRead
    timestamp := reading.timestamp
    level := reading.level
    target := if lost then "" else reading.target
    unparsed := reading.unparsed
    truncated := reading.truncated || lost }

def insert (parsers : Parsers) (t : Transcript) (bytes : Bytes) : Transcript :=
  { t with
    lines := t.lines ++ [t.line parsers bytes]
    malformed := t.malformed + (t.line parsers bytes).unparsed.toNat
    truncated := t.truncated + (t.line parsers bytes).truncated.toNat }

def endLine (parsers : Parsers) (t : Transcript) : Transcript :=
  let t := if t.skipping then t else t.insert parsers t.pending
  { t with
    pending := []
    skipping := false
    committed := t.nextRead
    lineStart := t.nextRead }

def feed (parsers : Parsers) (t : Transcript) (byte : UInt8) : Transcript :=
  let t := { t with nextRead := t.nextRead + 1 }
  if byte = newline then t.endLine parsers
  else if t.skipping then t
  else if t.pending.length = maxLine then
    { t with
      pending := []
      skipping := true
      truncated := t.truncated + 1
      cut := true }
  else { t with pending := t.pending ++ [byte] }

def of (parsers : Parsers) (start : Nat) (bytes : Bytes) : Transcript :=
  bytes.foldl (feed parsers) (new start)

end Transcript

/-! ## Windows -/

theorem fits_of_later {n m : Nat} {starts : List Nat} (later : n ≤ m)
    (accepted : fits m starts = true) : fits n starts = true := by
  simp only [fits, Bool.and_eq_true, decide_eq_true_eq, Option.all_eq_true] at accepted ⊢
  refine ⟨accepted.1, fun start head => ?_⟩
  have bound := accepted.2 start head
  omega

theorem fits_of_append {n : Nat} {starts others : List Nat}
    (accepted : fits n (starts ++ others) = true) : fits n starts = true := by
  simp only [fits, Bool.and_eq_true, decide_eq_true_eq, Option.all_eq_true,
    List.length_append] at accepted ⊢
  refine ⟨by omega, fun start head => accepted.2 start ?_⟩
  cases starts with
  | nil => cases head
  | cons first rest => exact head

/-! ## Targets -/

theorem weight_mono {small large : Finset String} (subset : small ⊆ large) :
    weight small ≤ weight large :=
  Finset.sum_le_sum_of_subset subset

/-- A target that only the larger set has accounts for its own length. -/
theorem weight_add_le {small large : Finset String} {target : String} (subset : small ⊆ large)
    (absent : target ∉ small) (present : target ∈ large) :
    weight small + target.utf8ByteSize ≤ weight large := by
  have grown : weight (insert target small) = target.utf8ByteSize + weight small :=
    Finset.sum_insert absent
  have bound := weight_mono (Finset.insert_subset present subset)
  omega

theorem weight_toFinset {targets : List String} (nodup : targets.Nodup) :
    weight targets.toFinset = (targets.map String.utf8ByteSize).sum :=
  List.sum_toFinset _ nodup

theorem targetsOf_mono {some_ all : List Line} (subset : some_ ⊆ all) :
    targetsOf some_ ⊆ targetsOf all := by
  intro target member
  simp only [targetsOf, List.mem_toFinset, List.mem_map] at member ⊢
  obtain ⟨line, inside, equal⟩ := member
  exact ⟨line, subset inside, equal⟩

/-! ## Positions -/

namespace Transcript

variable {t : Transcript}

/-- Lines lie one after the other, up to the start of the line that is being read. -/
structure Placed (t : Transcript) : Prop where
  spans : OrderedSpans Line.start Line.stop t.lines
  ended : ∀ line ∈ t.lines, line.stop ≤ t.committed
  lineStart : t.lineStart = t.committed
  reached : t.committed ≤ t.nextRead
  pending : t.pending.length ≤ maxLine

theorem placed_new (start : Nat) : (new start).Placed where
  spans := ⟨.nil, by simp [new]⟩
  ended := by simp [new]
  lineStart := rfl
  reached := le_rfl
  pending := Nat.zero_le _

/-- Between two bytes the transcript stands behind its last line. -/
theorem Placed.insert (placed : t.Placed) (read : t.committed < t.nextRead) (parsers : Parsers)
    (bytes : Bytes) :
    OrderedSpans Line.start Line.stop (t.insert parsers bytes).lines ∧
      ∀ line ∈ (t.insert parsers bytes).lines, line.stop ≤ t.nextRead := by
  have start : (t.line parsers bytes).start = t.committed := placed.lineStart
  have stop : (t.line parsers bytes).stop = t.nextRead := rfl
  refine ⟨⟨?_, ?_⟩, ?_⟩
  · change (t.lines ++ [t.line parsers bytes]).Pairwise _
    rw [List.pairwise_append]
    refine ⟨placed.spans.ordered, List.pairwise_singleton _ _, ?_⟩
    intro line member other same
    rw [List.mem_singleton.mp same, start]
    exact placed.ended line member
  · intro line member
    rcases List.mem_append.mp member with old | new
    · exact placed.spans.proper line old
    · rw [List.mem_singleton.mp new, start, stop]
      exact read
  · intro line member
    rcases List.mem_append.mp member with old | new
    · exact (placed.ended line old).trans placed.reached
    · rw [List.mem_singleton.mp new, stop]

theorem Placed.feed (placed : t.Placed) (parsers : Parsers) (byte : UInt8) : (t.feed parsers byte).Placed := by
  have reached := placed.reached
  have next : ({ t with nextRead := t.nextRead + 1 } : Transcript).Placed :=
    { placed with reached := by simp only; omega }
  unfold Transcript.feed
  dsimp only
  split
  · unfold endLine
    cases t.skipping with
    | true =>
        exact ⟨next.spans, fun line member => (next.ended line member).trans next.reached, rfl,
          le_rfl, Nat.zero_le _⟩
    | false =>
        have added := next.insert (by simp only; omega) parsers t.pending
        exact ⟨added.1, added.2, rfl, le_rfl, Nat.zero_le _⟩
  · split
    · exact next
    · split
      · exact { next with pending := Nat.zero_le _ }
      · next short =>
          refine { next with pending := ?_ }
          have bound := placed.pending
          simp only [List.length_append, List.length_singleton]
          omega

theorem Placed.feedAll (placed : t.Placed) (parsers : Parsers) (bytes : Bytes) :
    (bytes.foldl (Transcript.feed parsers) t).Placed := by
  induction bytes generalizing t with
  | nil => exact placed
  | cons byte bytes ih => exact ih (placed.feed parsers byte)

/-- A window holds few enough lines, none of them too old. -/
theorem Placed.fitting_window (placed : t.Placed) :
    t.window.length ≤ maxEntries ∧
      ∀ line ∈ t.window, t.nextRead - maxWindow ≤ line.start := by
  rcases trimFront_accepted (fitting t.nextRead) t.lines with empty | accepted
  · rw [Transcript.window, empty]
    simp
  · change fitting t.nextRead t.window = true at accepted
    simp only [fitting, fits, Bool.and_eq_true, decide_eq_true_eq, Option.all_eq_true,
      List.length_map] at accepted
    refine ⟨accepted.1, fun line member => ?_⟩
    have starts := (placed.spans.sublist
      (trimFront_suffix (fitting t.nextRead) t.lines).sublist).starts
    change t.window.Pairwise _ at starts
    revert member starts accepted
    cases t.window with
    | nil => simp
    | cons first rest =>
        intro accepted member starts
        have oldest := accepted.2 first.start rfl
        rcases List.mem_cons.mp member with rfl | later
        · exact oldest
        · have after := (List.pairwise_cons.mp starts).1 line later
          omega

end Transcript

end Logging

end Nyanpasu
