import Nyanpasu.Logging.Transcript

/-! # The records of a file

A file is cut into records at its newlines, which knows nothing of windows, batches or
indexes.  A transcript that starts at any byte of the file has the records behind it
that are short enough.
-/

namespace Nyanpasu

namespace Logging

open Index (newline)

/-- A complete line; `stop` lies behind its newline. -/
structure Record where
  start : Nat
  stop : Nat
  deriving DecidableEq

def Record.short (r : Record) : Bool := decide (r.stop - r.start - 1 ≤ maxLine)

/-- Records that a transcript from `origin` on has: one that begins there may be a fragment. -/
def Record.seenFrom (origin : Nat) (r : Record) : Bool :=
  r.short && (decide (origin = 0) || decide (origin < r.start))

def slice (content : Bytes) (start stop : Nat) : Bytes := (content.drop start).take (stop - start)

/-- The bytes of a record without its newline. -/
def Record.text (r : Record) (content : Bytes) : Bytes := slice content r.start (r.stop - 1)

structure Cut where
  records : List Record
  /-- Where the record starts that is not complete. -/
  start : Nat
  position : Nat

def Cut.feed (c : Cut) (byte : UInt8) : Cut :=
  if byte = newline then ⟨c.records ++ [⟨c.start, c.position + 1⟩], c.position + 1, c.position + 1⟩
  else { c with position := c.position + 1 }

def cut (content : Bytes) : Cut := content.foldl Cut.feed ⟨[], 0, 0⟩

def records (content : Bytes) : List Record := (cut content).records

def Line.record (line : Line) : Record := ⟨line.start, line.stop⟩

variable {parsers : Parsers} {content more : Bytes} {t : Transcript} {line : Line} {r : Record}
  {origin : Nat}

/-! ## Cutting -/

theorem cut_concat (content : Bytes) (byte : UInt8) :
    cut (content ++ [byte]) = (cut content).feed byte := by
  rw [cut, List.foldl_append]
  rfl

structure Cut.Placed (c : Cut) : Prop where
  spans : OrderedSpans Record.start Record.stop c.records
  ended : ∀ r ∈ c.records, r.stop ≤ c.start
  reached : c.start ≤ c.position

theorem Cut.Placed.feed {c : Cut} (placed : c.Placed) (byte : UInt8) : (c.feed byte).Placed := by
  have reached := placed.reached
  unfold Cut.feed
  split
  · refine ⟨⟨?_, ?_⟩, ?_, le_rfl⟩
    · rw [List.pairwise_append]
      refine ⟨placed.spans.ordered, List.pairwise_singleton _ _, ?_⟩
      intro r member new same
      rw [List.mem_singleton.mp same]
      exact placed.ended r member
    · intro r member
      rcases List.mem_append.mp member with old | new
      · exact placed.spans.proper r old
      · rw [List.mem_singleton.mp new]
        exact Nat.lt_succ_of_le reached
    · intro r member
      rcases List.mem_append.mp member with old | new
      · have bound := placed.ended r old
        simp only
        omega
      · rw [List.mem_singleton.mp new]
  · exact ⟨placed.spans, placed.ended, Nat.le_succ_of_le reached⟩

theorem cut_placed (content : Bytes) : (cut content).Placed ∧
    (cut content).position = content.length := by
  induction content using List.reverseRecOn with
  | nil => exact ⟨⟨⟨.nil, by simp [cut]⟩, by simp [cut], le_rfl⟩, rfl⟩
  | append_singleton content byte ih =>
      rw [cut_concat]
      refine ⟨ih.1.feed byte, ?_⟩
      unfold Cut.feed
      split <;> simp [ih.2]

theorem cut_start_le (content : Bytes) : (cut content).start ≤ content.length := by
  have placed := cut_placed content
  exact placed.2 ▸ placed.1.reached

theorem record_stop_le (member : r ∈ records content) : r.stop ≤ content.length :=
  ((cut_placed content).1.ended r member).trans (cut_start_le content)

/-- What follows adds records that start no earlier than the open one, and end later. -/
theorem records_append (content more : Bytes) :
    ∃ later, records (content ++ more) = records content ++ later ∧
      (cut content).start ≤ (cut (content ++ more)).start ∧
      ∀ r ∈ later, (cut content).start ≤ r.start ∧ content.length < r.stop := by
  induction more using List.reverseRecOn with
  | nil => exact ⟨[], by simp, by simp, by simp⟩
  | append_singleton more byte ih =>
      obtain ⟨later, split, start, behind⟩ := ih
      have reached := (cut_placed (content ++ more)).1.reached
      have position := (cut_placed (content ++ more)).2
      rw [List.length_append] at position
      rw [← List.append_assoc, records, cut_concat]
      unfold Cut.feed
      split
      · refine ⟨later ++ [⟨(cut (content ++ more)).start, (cut (content ++ more)).position + 1⟩],
          ?_, ?_, ?_⟩
        · rw [← List.append_assoc, ← split]
          rfl
        · simp only
          omega
        · intro r member
          rcases List.mem_append.mp member with old | new
          · exact behind r old
          · rw [List.mem_singleton.mp new]
            exact ⟨start, by simp only; omega⟩
      · exact ⟨later, split, start, behind⟩

/-! ## What is kept of a record -/

theorem slice_append {start stop : Nat} (inside : stop ≤ content.length) :
    slice (content ++ more) start stop = slice content start stop := by
  unfold slice
  by_cases order : start ≤ stop
  · rw [List.drop_append_of_le_length (order.trans inside),
      List.take_append_of_le_length (by rw [List.length_drop]; omega)]
  · have none_ : stop - start = 0 := by omega
    simp [none_]

/-- The targets of the records in the window before a line leave no room for its own. -/
def CrowdedOut (parsers : Parsers) (content : Bytes) (line : Line) : Prop :=
  ∃ others : Finset String,
    (parsers.read (line.record.text content)).target ∉ others ∧
    maxTargetBytes < weight others + (parsers.read (line.record.text content)).target.utf8ByteSize ∧
    ∀ other ∈ others, ∃ r ∈ records content, r.stop ≤ line.start ∧ line.stop ≤ r.start + maxWindow ∧
      (other = (parsers.read (r.text content)).target ∨ other = "")

/-- A line says what its record says, except that a target may have been given up. -/
structure Kept (parsers : Parsers) (content : Bytes) (line : Line) : Prop where
  timestamp : line.timestamp = (parsers.read (line.record.text content)).timestamp
  level : line.level = (parsers.read (line.record.text content)).level
  unparsed : line.unparsed = (parsers.read (line.record.text content)).unparsed
  target : line.target = (parsers.read (line.record.text content)).target ∧
      line.truncated = (parsers.read (line.record.text content)).truncated ∨
    line.target = "" ∧ line.truncated = true ∧ CrowdedOut parsers content line

theorem text_append (inside : r.stop ≤ content.length) :
    r.text (content ++ more) = r.text content :=
  slice_append ((Nat.sub_le _ _).trans inside)

theorem CrowdedOut.append (crowded : CrowdedOut parsers content line)
    (inside : line.stop ≤ content.length) : CrowdedOut parsers (content ++ more) line := by
  obtain ⟨others, absent, heavy, all⟩ := crowded
  have same : line.record.text (content ++ more) = line.record.text content := text_append inside
  refine ⟨others, same ▸ absent, same ▸ heavy, fun other member => ?_⟩
  obtain ⟨r, recorded, before, near, said⟩ := all other member
  obtain ⟨later, split, _⟩ := records_append content more
  refine ⟨r, split ▸ List.mem_append_left later recorded, before, near, ?_⟩
  rw [text_append (record_stop_le recorded)]
  exact said

theorem Kept.append (kept : Kept parsers content line) (inside : line.stop ≤ content.length) :
    Kept parsers (content ++ more) line := by
  have same : line.record.text (content ++ more) = line.record.text content := text_append inside
  refine ⟨same ▸ kept.timestamp, same ▸ kept.level, same ▸ kept.unparsed, ?_⟩
  rw [same]
  rcases kept.target with said | ⟨empty, marked, crowded⟩
  · exact .inl said
  · exact .inr ⟨empty, marked, crowded.append inside⟩

/-! ## Transcripts of a file -/

/-- A transcript from `origin` on has read the content to its end. -/
structure Reads (parsers : Parsers) (content : Bytes) (origin : Nat) (t : Transcript) : Prop where
  placed : t.Placed
  nextRead : t.nextRead = content.length
  begun : origin ≤ content.length
  committed : t.committed = max origin (cut content).start
  lines : t.lines.map Line.record = (records content).filter (Record.seenFrom origin)
  kept : ∀ line ∈ t.lines, Kept parsers content line
  skipping : t.skipping = true →
    origin ≠ 0 ∧ (cut content).start ≤ origin ∨ (cut content).start + maxLine < content.length
  reading : t.skipping = false → t.pending = content.drop (cut content).start ∧
    (origin = 0 ∨ origin < (cut content).start)

theorem reads_new (parsers : Parsers) (content : Bytes) :
    Reads parsers content content.length (.new content.length) where
  placed := Transcript.placed_new _
  nextRead := rfl
  begun := le_rfl
  committed := (max_eq_left (cut_start_le content)).symm
  lines := by
    symm
    rw [Transcript.new, List.map_nil, List.filter_eq_nil_iff]
    intro r member
    have proper := (cut_placed content).1.spans.proper r member
    have inside := record_stop_le member
    simp only [Record.seenFrom, Bool.and_eq_true, Bool.or_eq_true, decide_eq_true_eq]
    omega
  kept := by simp [Transcript.new]
  skipping := by
    intro skips
    exact .inl ⟨by simpa [Transcript.new] using skips, cut_start_le content⟩
  reading := by
    intro reads
    have empty : content = [] := by simpa [Transcript.new] using reads
    subst empty
    exact ⟨rfl, .inl rfl⟩

namespace Reads

section

variable (reads : Reads parsers content origin t)

include reads

/-- Where the open line starts. -/
theorem lineStart (open_ : t.skipping = false) : t.lineStart = (cut content).start := by
  rw [reads.placed.lineStart, reads.committed]
  rcases (reads.reading open_).2 with zero | behind
  · simp [zero]
  · exact max_eq_right behind.le

/-- The line that ends with the next byte, if that is a newline. -/
theorem line_kept (open_ : t.skipping = false) :
    Kept parsers (content ++ [newline])
      (Transcript.line parsers { t with nextRead := t.nextRead + 1 } t.pending) := by
  have start := reads.lineStart open_
  have text : (Transcript.line parsers { t with nextRead := t.nextRead + 1 } t.pending).record.text
      (content ++ [newline]) = t.pending := by
    rw [(reads.reading open_).1]
    simp only [Record.text, Line.record, Transcript.line, start, reads.nextRead,
      Nat.add_sub_cancel, slice_append le_rfl]
    unfold slice
    rw [List.take_of_length_le]
    simp
  refine ⟨by rw [text]; rfl, by rw [text]; rfl, by rw [text]; rfl, ?_⟩
  cases lost : Transcript.givesUp { t with nextRead := t.nextRead + 1 }
      (parsers.read t.pending).target with
  | false =>
      refine .inl ?_
      rw [text]
      simp [Transcript.line, lost]
  | true =>
      refine .inr ⟨by simp [Transcript.line, lost], by simp [Transcript.line, lost], ?_⟩
      simp only [Transcript.givesUp, Bool.and_eq_true, decide_eq_true_eq] at lost
      refine ⟨_, text ▸ lost.1, text ▸ lost.2, ?_⟩
      intro other member
      -- The targets in the window are those of earlier records.
      have placed : ({ t with nextRead := t.nextRead + 1 } : Transcript).Placed :=
        { reads.placed with reached := reads.placed.reached.trans (Nat.le_succ _) }
      simp only [targetsOf, List.mem_toFinset, List.mem_map] at member
      obtain ⟨old, inside, rfl⟩ := member
      have recent := placed.fitting_window.2 old inside
      have member : old ∈ t.lines := (trimFront_suffix _ _).subset inside
      have recorded : old.record ∈ records content := by
        have listed := List.mem_map_of_mem (f := Line.record) member
        rw [reads.lines] at listed
        exact List.mem_of_mem_filter listed
      obtain ⟨later, split, _⟩ := records_append content [newline]
      have before := reads.placed.ended old member
      refine ⟨old.record, split ▸ List.mem_append_left later recorded, ?_, ?_, ?_⟩
      · change old.stop ≤ t.lineStart
        rw [reads.placed.lineStart]
        exact before
      · change t.nextRead + 1 ≤ old.start + maxWindow
        simp only at recent
        omega
      · rw [text_append (record_stop_le recorded)]
        rcases (reads.kept old member).target with said | lost'
        · exact .inl said.1
        · exact .inr lost'.1

theorem keeps (more : Bytes) : ∀ line ∈ t.lines, Kept parsers (content ++ more) line := by
  intro line member
  have ended := reads.placed.ended line member
  have reached := reads.placed.reached
  have read := reads.nextRead
  exact (reads.kept line member).append (by omega)

end

theorem records_newline (content : Bytes) : records (content ++ [newline]) =
    records content ++ [⟨(cut content).start, content.length + 1⟩] := by
  rw [records, cut_concat, Cut.feed, if_pos rfl, (cut_placed content).2]
  rfl

theorem start_newline (content : Bytes) : (cut (content ++ [newline])).start = content.length + 1 := by
  rw [cut_concat, Cut.feed, if_pos rfl, (cut_placed content).2]

section

variable (reads : Reads parsers content origin t)

include reads

theorem endLine : Reads parsers (content ++ [newline]) origin (t.feed parsers newline) := by
  have placed := reads.placed.feed parsers newline
  have begun := reads.begun
  have after : max origin (content.length + 1) = content.length + 1 := max_eq_right (by omega)
  have ready : ([] : Bytes) = (content ++ [newline]).drop (content.length + 1) ∧
      (origin = 0 ∨ origin < content.length + 1) := ⟨by simp, by omega⟩
  cases skips : t.skipping with
  | true =>
      -- The record was begun before the transcript, or it is too long.
      have rejected : ¬ (⟨(cut content).start, content.length + 1⟩ : Record).seenFrom origin := by
        rw [Bool.not_eq_true]
        simp only [Record.seenFrom, Record.short, Bool.and_eq_false_iff, Bool.or_eq_false_iff,
          decide_eq_false_iff_not]
        rcases reads.skipping skips with ⟨cut_, early⟩ | long
        · exact .inr ⟨cut_, by omega⟩
        · exact .inl (by omega)
      have fed : t.feed parsers newline =
          { t with
            nextRead := t.nextRead + 1
            pending := []
            skipping := false
            committed := t.nextRead + 1
            lineStart := t.nextRead + 1 } := by
        simp [Transcript.feed, Transcript.endLine, skips]
      rw [fed] at placed ⊢
      refine ⟨placed, ?_, ?_, ?_, ?_, reads.keeps _, ?_, ?_⟩
      · simp [reads.nextRead]
      · simp only [List.length_append]
        omega
      · simp only [start_newline, after, reads.nextRead]
      · rw [records_newline, List.filter_append, List.filter_cons_of_neg rejected]
        simpa using reads.lines
      · intro absurd_
        cases absurd_
      · intro _
        rw [start_newline]
        exact ready
  | false =>
      have start := reads.lineStart skips
      have pending := reads.placed.pending
      rw [(reads.reading skips).1, List.length_drop] at pending
      have accepted : (⟨(cut content).start, content.length + 1⟩ : Record).seenFrom origin := by
        simp only [Record.seenFrom, Record.short, Bool.and_eq_true, Bool.or_eq_true, decide_eq_true_eq]
        exact ⟨by omega, (reads.reading skips).2⟩
      have fed : t.feed parsers newline =
          { Transcript.insert parsers { t with nextRead := t.nextRead + 1 } t.pending with
            pending := []
            skipping := false
            committed := t.nextRead + 1
            lineStart := t.nextRead + 1 } := by
        simp [Transcript.feed, Transcript.endLine, skips, Transcript.insert]
      rw [fed] at placed ⊢
      refine ⟨placed, ?_, ?_, ?_, ?_, ?_, ?_, ?_⟩
      · simp [Transcript.insert, reads.nextRead]
      · simp only [List.length_append]
        omega
      · simp only [start_newline, after, reads.nextRead]
      · rw [records_newline, List.filter_append, List.filter_cons_of_pos accepted]
        simp [Transcript.insert, reads.lines, Line.record, Transcript.line, start, reads.nextRead]
      · intro line member
        rcases List.mem_append.mp member with old | new
        · exact reads.keeps _ line old
        · rw [List.mem_singleton.mp new]
          exact reads.line_kept skips
      · intro absurd_
        cases absurd_
      · intro _
        rw [start_newline]
        exact ready

/-- A byte inside a record changes how the record is read, and nothing else. -/
theorem advance {byte : UInt8} (inside : byte ≠ newline) {later : Transcript}
    (placed : later.Placed) (lines : later.lines = t.lines)
    (committed : later.committed = t.committed) (nextRead : later.nextRead = t.nextRead + 1)
    (skipping : later.skipping = true → origin ≠ 0 ∧ (cut content).start ≤ origin ∨ (cut content).start + maxLine < content.length + 1)
    (reading : later.skipping = false → later.pending = content.drop (cut content).start ++ [byte] ∧ (origin = 0 ∨ origin < (cut content).start)) :
    Reads parsers (content ++ [byte]) origin later := by
  have same : records (content ++ [byte]) = records content ∧
      (cut (content ++ [byte])).start = (cut content).start := by
    rw [records, cut_concat, Cut.feed, if_neg inside]
    exact ⟨rfl, rfl⟩
  refine ⟨placed, ?_, ?_, ?_, ?_, ?_, ?_, ?_⟩
  · rw [nextRead, reads.nextRead, List.length_append, List.length_singleton]
  · rw [List.length_append]
    exact reads.begun.trans (Nat.le_add_right _ _)
  · rw [committed, same.2]
    exact reads.committed
  · rw [lines, same.1]
    exact reads.lines
  · rw [lines]
    exact reads.keeps [byte]
  · rw [same.2, List.length_append, List.length_singleton]
    exact skipping
  · rw [same.2, List.drop_append_of_le_length (cut_start_le content)]
    exact reading

theorem feed (byte : UInt8) : Reads parsers (content ++ [byte]) origin (t.feed parsers byte) := by
  by_cases ends : byte = newline
  · rw [ends]
    exact reads.endLine
  · have placed := reads.placed.feed parsers byte
    unfold Transcript.feed at placed ⊢
    dsimp only at placed ⊢
    rw [if_neg ends] at placed ⊢
    split at placed
    · next skips =>
        rw [if_pos skips]
        refine reads.advance ends placed rfl rfl rfl ?_ ?_
        · intro _
          exact (reads.skipping skips).imp_right Nat.lt_succ_of_lt
        · intro open_
          rw [skips] at open_
          cases open_
    · next open_ =>
        have open_' : t.skipping = false := by simpa using open_
        have pending := (reads.reading open_').1
        rw [if_neg open_]
        split at placed
        · next full =>
            rw [if_pos full]
            refine reads.advance ends placed rfl rfl rfl ?_ ?_
            · intro _
              have length := congrArg List.length pending
              have bound := cut_start_le content
              rw [full, List.length_drop] at length
              exact .inr (by omega)
            · intro absurd_
              cases absurd_
        · next room =>
            rw [if_neg room]
            refine reads.advance ends placed rfl rfl rfl ?_ ?_
            · intro absurd_
              rw [open_'] at absurd_
              cases absurd_
            · intro _
              exact ⟨congrArg (· ++ [byte]) pending, (reads.reading open_').2⟩

theorem feedAll (bytes : Bytes) :
    Reads parsers (content ++ bytes) origin (bytes.foldl (Transcript.feed parsers) t) := by
  induction bytes generalizing content t with
  | nil => simpa using reads
  | cons byte bytes ih =>
      have fed := ih (reads.feed byte)
      rwa [List.append_assoc, List.singleton_append] at fed

end

end Reads

end Logging

end Nyanpasu
