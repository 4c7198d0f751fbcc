import Nyanpasu.Logging.Answer

/-! # The records that a page covers

Between two offsets inside its window an index has every short record of the file, so a
page covers the records from the offset it was asked for to the one it returns.
-/

namespace Nyanpasu

namespace Logging

variable {outside : Outside} {parsers : Parsers} {now later : Bytes} {origin stop c d e : Nat}
  {index : Index} {work : Work} {filter : Filter} {generation : String}

/-! ## Records behind an index -/

/-- The short records that start between two offsets. -/
def recordsFrom (content : Bytes) (c d : Nat) : List Record :=
  between Record.start c d ((records content).filter Record.short)

theorem short_spans (content : Bytes) :
    OrderedSpans Record.start Record.stop ((records content).filter Record.short) :=
  (cut_placed content).1.spans.sublist List.filter_sublist

/-- What is appended adds no record there if those that start there had ended. -/
theorem recordsFrom_append (content more : Bytes) (ended : ∀ r ∈ records (content ++ more),
      r.short = true → c ≤ r.start → r.start < d → r.stop ≤ content.length) :
    recordsFrom (content ++ more) c d = recordsFrom content c d := by
  obtain ⟨later, split, _, behind⟩ := records_append content more
  have none_ : between Record.start c d (later.filter Record.short) = [] := by
    rw [List.eq_nil_iff_forall_not_mem]
    intro r member
    obtain ⟨inside, first, last⟩ := mem_between.mp member
    obtain ⟨new, short⟩ := List.mem_filter.mp inside
    have early := ended r (split ▸ List.mem_append_right _ new) short first last
    have late := (behind r new).2
    omega
  rw [recordsFrom, split, List.filter_append]
  unfold between at none_ ⊢
  rw [List.filter_append, none_, List.append_nil]
  rfl

/-- A record that starts before the open one has ended. -/
theorem record_ended {content more : Bytes} {r : Record} (member : r ∈ records (content ++ more))
    (before : r.start < (cut content).start) : r.stop ≤ content.length := by
  obtain ⟨later, split, _, behind⟩ := records_append content more
  rw [split] at member
  rcases List.mem_append.mp member with old | new
  · exact record_stop_le old
  · have after := (behind r new).1
    omega

theorem cut_start_mono (grown : now <+: later) : (cut now).start ≤ (cut later).start := by
  obtain ⟨more, rfl⟩ := grown
  obtain ⟨_, _, order, _⟩ := records_append now more
  exact order

namespace Indexes

section

variable (indexes : Indexes parsers now origin stop index)

include indexes

/-- An index that has entries starts behind the fragment that it skipped. -/
theorem nonempty (some_ : index.start < index.committed) :
    (origin = 0 ∨ origin < index.start) ∧ index.committed = (cut (now.take stop)).start := by
  have committed := indexes.committed
  cases entries : index.entries with
  | nil => simp [Index.start, entries] at some_
  | cons first rest =>
      have start : index.start = first.start := by simp [Index.start, entries]
      have member : first ∈ index.entries := by simp [entries]
      have listed := List.mem_map_of_mem (f := Line.record) (indexes.mem_lines member)
      rw [indexes.reads.lines, List.mem_filter] at listed
      have seen : origin = 0 ∨ origin < first.start := by
        have seen := listed.2
        simp only [Record.seenFrom, Bool.and_eq_true, Bool.or_eq_true, decide_eq_true_eq] at seen
        exact seen.2
      rw [start] at some_ ⊢
      exact ⟨seen, by omega⟩

/-- The lines that were given up start before the index does. -/
theorem dropped : ∃ old,
    (transcript parsers now origin stop).lines = old ++ index.lines ∧
      ∀ line ∈ old, line.start < index.start := by
  obtain ⟨old, split⟩ := indexes.shows.tail
  refine ⟨old, split.symm, ?_⟩
  intro line member
  have placed := indexes.reads.placed
  have spans := placed.spans
  rw [← split] at spans
  have proper := spans.proper line (List.mem_append_left _ member)
  unfold Index.start
  cases entries : index.entries with
  | nil =>
      have ended := placed.ended line (split ▸ List.mem_append_left _ member)
      rw [← indexes.shows.committed] at ended
      simp only [List.head?_nil, Option.map_none, Option.getD_none]
      omega
  | cons first rest =>
      have apart := (List.pairwise_append.mp spans.ordered).2.2 line member (index.line first)
        (List.mem_map_of_mem (by simp [entries]))
      exact proper.trans_le apart

theorem between_lines (inside : index.start ≤ c) :
    between Line.start c d (transcript parsers now origin stop).lines =
      between Line.start c d index.lines := by
  obtain ⟨old, split, before⟩ := indexes.dropped
  rw [split, between, List.filter_append]
  have none_ : old.filter (fun line => decide (c ≤ line.start) && decide (line.start < d)) = [] := by
    rw [List.eq_nil_iff_forall_not_mem]
    intro line member
    simp only [List.mem_filter, Bool.and_eq_true, decide_eq_true_eq] at member
    have early := before line member.1
    omega
  rw [none_, List.nil_append]
  rfl

end

theorem fits_single {nextRead start : Nat} (near : nextRead - maxWindow ≤ start) :
    Index.fits nextRead [start] = true := by
  have one : 1 ≤ maxEntries := by decide
  simp only [Index.fits, Bool.and_eq_true, decide_eq_true_eq, Option.all_eq_true]
  refine ⟨one, fun first head => ?_⟩
  have same : start = first := Option.some.inj head
  omega

section

variable (indexes : Indexes parsers now origin stop index)

include indexes

/-- An index of a short stretch has the last line of it. -/
theorem keeps_last (narrow : stop ≤ origin + maxWindow)
    (some_ : (transcript parsers now origin stop).lines ≠ []) : index.entries ≠ [] := by
  obtain ⟨before, last, split⟩ : ∃ before last,
      (transcript parsers now origin stop).lines = before ++ [last] :=
    ⟨_, _, (List.dropLast_append_getLast some_).symm⟩
  have reads := indexes.reads
  have member : last ∈ (transcript parsers now origin stop).lines := by simp [split]
  have listed := List.mem_map_of_mem (f := Line.record) member
  rw [reads.lines, List.mem_filter] at listed
  have begun : origin ≤ last.start := by
    have seen := listed.2
    simp only [Record.seenFrom, Bool.and_eq_true, Bool.or_eq_true, decide_eq_true_eq] at seen
    rcases seen.2 with zero | behind
    · exact zero ▸ Nat.zero_le _
    · exact behind.le
  have read : (transcript parsers now origin stop).nextRead = stop :=
    reads.nextRead.trans (List.length_take_of_le indexes.inside)
  have lines : index.lines ≠ [] := by
    rw [indexes.window, Transcript.window, split]
    refine trimFront_ne_nil ?_ before
    have near : stop - maxWindow ≤ last.start := by omega
    rw [read]
    exact fits_single near
  intro empty
  exact lines (by simp [Index.lines, empty])

/-- Inside its window an index has the short records of the file. -/
theorem covers (first : index.start ≤ c)
    (last : ∀ r ∈ records now, r.short = true → c ≤ r.start → r.start < d → r.stop ≤ stop) :
    (between Line.start c d index.lines).map Line.record = recordsFrom now c d := by
  have length : (now.take stop).length = stop := List.length_take_of_le indexes.inside
  have read : recordsFrom now c d = recordsFrom (now.take stop) c d := by
    have append := recordsFrom_append (now.take stop) (now.drop stop) (c := c) (d := d)
    rw [List.take_append_drop, length] at append
    exact append last
  have lines := congrArg (between Record.start c d) indexes.reads.lines
  rw [between_map] at lines
  rw [← indexes.between_lines first, read]
  refine lines.trans ?_
  simp only [recordsFrom, between, List.filter_filter]
  apply List.filter_congr
  intro r member
  -- The records in question start behind the fragment that was skipped.
  have behind : c ≤ r.start → origin = 0 ∨ origin < r.start := by
    intro after
    have bounds := indexes.start_le
    have proper := (cut_placed _).1.spans.proper r member
    have ended := (cut_placed _).1.ended r member
    have committed := indexes.committed
    have seen := indexes.nonempty (by omega)
    omega
  cases short : r.short with
  | false => simp [Record.seenFrom, short]
  | true =>
      simp only [Record.seenFrom, short, Bool.true_and, Bool.and_true]
      rw [← Bool.decide_or, ← Bool.decide_and, ← Bool.decide_and, decide_eq_decide]
      omega

theorem keeps : ∀ line ∈ index.lines, Kept parsers now line := by
  intro line member
  have kept := indexes.reads.keeps (now.drop stop) line (indexes.shows.tail.subset member)
  rwa [List.take_append_drop] at kept

/-- Up to the end of its last line an index has what has ended. -/
theorem ended (first : index.start ≤ c) (last : d ≤ index.committed) :
    ∀ r ∈ records now, r.short = true → c ≤ r.start → r.start < d → r.stop ≤ stop := by
  intro r member _ after before
  have committed := (indexes.nonempty (by omega)).2
  have length : (now.take stop).length = stop := List.length_take_of_le indexes.inside
  rw [← List.take_append_drop stop now] at member
  exact (record_ended member (by omega)).trans length.le

end

end Indexes

/-! ## Deliveries -/

theorem row_grow (parsers : Parsers) (generation : String) (filter : Filter) (grown : now <+: later)
    {line : Line} (inside : line.stop ≤ now.length) :
    line.row parsers generation later = line.row parsers generation now ∧
      filter.admits parsers later line = filter.admits parsers now line := by
  obtain ⟨more, rfl⟩ := grown
  have raw : line.raw (now ++ more) = line.raw now := by
    rw [Line.raw, Line.raw, slice_append inside]
  have message : line.message parsers (now ++ more) = line.message parsers now := by
    rw [Line.message, Line.message, raw]
  constructor
  · rw [Line.row, Line.row, message, raw]
  · rw [Filter.admits, Filter.admits, Filter.finds, Filter.finds, message]

/-- The rows are those of the short records between two offsets that match, in order and
    each once; a record matches by what is kept of it. -/
structure Delivers (parsers : Parsers) (generation : String) (now : Bytes) (filter : Filter)
    (c d : Nat) (lines : List Line) (rows : List LogRow) : Prop where
  order : c ≤ d
  records : lines.map Line.record = recordsFrom now c d
  kept : ∀ line ∈ lines, Kept parsers now line
  rows : rows = (lines.filter (filter.admits parsers now)).map (Line.row parsers generation now)

namespace Delivers

variable {lines lines' : List Line} {rows rows' : List LogRow}

theorem nothing (parsers : Parsers) (generation : String) (now : Bytes) (filter : Filter) (c : Nat) :
    Delivers parsers generation now filter c c [] [] :=
  ⟨le_rfl, (between_nil le_rfl).symm, by simp, rfl⟩

theorem stop_le (delivers : Delivers parsers generation now filter c d lines rows) :
    ∀ line ∈ lines, line.stop ≤ now.length := by
  intro line member
  have listed := List.mem_map_of_mem (f := Line.record) member
  rw [delivers.records] at listed
  exact record_stop_le (List.mem_of_mem_filter (mem_between.mp listed).1)

theorem append (first : Delivers parsers generation now filter c d lines rows)
    (second : Delivers parsers generation now filter d e lines' rows') :
    Delivers parsers generation now filter c e (lines ++ lines') (rows ++ rows') where
  order := first.order.trans second.order
  records := by
    rw [List.map_append, first.records, second.records]
    exact ((short_spans now).between_append first.order second.order).symm
  kept := by
    intro line member
    rcases List.mem_append.mp member with old | new
    · exact first.kept line old
    · exact second.kept line new
  rows := by rw [first.rows, second.rows, List.filter_append, List.map_append]

/-- A delivery stands when the file grows behind it. -/
theorem grow (delivers : Delivers parsers generation now filter c d lines rows)
    (grown : now <+: later) (settled : c = d ∨ d ≤ (cut now).start) :
    Delivers parsers generation later filter c d lines rows where
  order := delivers.order
  records := by
    obtain ⟨more, rfl⟩ := grown
    rw [delivers.records]
    rcases settled with rfl | settled
    · rw [recordsFrom, recordsFrom, between_nil le_rfl, between_nil le_rfl]
    · refine (recordsFrom_append now more ?_).symm
      intro r member _ _ before
      exact record_ended member (before.trans_le settled)
  kept := by
    intro line member
    have inside := delivers.stop_le line member
    obtain ⟨more, rfl⟩ := grown
    exact (delivers.kept line member).append inside
  rows := by
    have same : lines.filter (filter.admits parsers later) = lines.filter (filter.admits parsers now) :=
      List.filter_congr fun line member =>
        (row_grow parsers generation filter grown (delivers.stop_le line member)).2
    rw [delivers.rows, same]
    apply List.map_congr_left
    intro line member
    have inside := delivers.stop_le line (List.mem_of_mem_filter member)
    exact (row_grow parsers generation filter grown inside).1.symm

end Delivers

namespace Refresh

variable {reverse : Bool} {oldest near far : Nat} {taken : List Entry} {page : LogPage}

/-- A page walks the matching entries between its two offsets. -/
theorem Answered.taken_eq (orderly : index.Orderly)
    (answered : Answered outside work now index filter reverse oldest near far taken page)
    (order : if reverse then far ≤ near else near ≤ far) :
    taken = Index.nearest reverse (between Entry.start (if reverse then far else near)
      (if reverse then near else far) (index.entries.filter fun entry =>
        filter.selects (index.line entry))) := by
  have found := answered.found
  have spans := orderly.spans.sublist
    (List.filter_sublist (p := fun entry => filter.selects (index.line entry)))
  unfold Index.matching at found
  cases reverse with
  | false =>
      simp only [Bool.false_eq_true, if_false] at order ⊢
      rw [(spans.side_between order).1] at found
      exact (List.append_cancel_right found).symm
  | true =>
      simp only [if_true] at order ⊢
      rw [(spans.side_between order).2] at found
      exact (List.append_cancel_right found).symm

theorem Answered.delivers {c d : Nat} (indexes : Indexes outside.parsers now origin stop index)
    (answered : Answered outside work now index filter reverse oldest near far taken page)
    (lower : c = if reverse then far else near) (upper : d = if reverse then near else far)
    (order : c ≤ d) (first : index.start ≤ c)
    (last : ∀ r ∈ records now, r.short = true → c ≤ r.start → r.start < d → r.stop ≤ stop) :
    Delivers outside.parsers work.generation now filter c d
      (between Line.start c d index.lines) page.rows where
  order := order
  records := indexes.covers first last
  kept := fun line member => indexes.keeps line (mem_between.mp member).1
  rows := by
    have taken_ := answered.taken_eq indexes.orderly (by cases reverse <;> simp_all)
    rw [← lower, ← upper, between_filter] at taken_
    have lines : between Line.start c d index.lines =
        (between Entry.start c d index.entries).map index.line := between_map index.line _
    rw [answered.rows, taken_, lines, List.filter_map, List.map_map]
    have admits : (between Entry.start c d index.entries).filter
          (filter.admits outside.parsers now ∘ index.line) =
        ((between Entry.start c d index.entries).filter fun entry =>
          filter.selects (index.line entry)).filter fun entry =>
            filter.finds outside.parsers now (index.line entry) := by
      rw [List.filter_filter]
      apply List.filter_congr
      intro entry _
      exact Bool.and_comm _ _
    rw [admits]
    cases reverse with
    | false => rfl
    | true => simp [Index.nearest, List.filter_reverse, Function.comp_def]

end Refresh

end Logging

end Nyanpasu
