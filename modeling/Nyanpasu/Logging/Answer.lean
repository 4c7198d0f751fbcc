import Nyanpasu.Logging.Pages

/-! # The rows of a page

Between the offset a page was asked for and the offset it returns, the page has exactly
the records that match, whichever budget ended it.
-/

namespace Nyanpasu

namespace Logging

open Fallible

/-! ## Lines as rows -/

/-- An entry that a line may come from; a row does not show its key. -/
def Line.entry (line : Line) : Entry :=
  ⟨line.start, line.stop, line.timestamp, line.level, 0, line.unparsed, line.truncated⟩

def Line.raw (now : Bytes) (line : Line) : String := rawText (slice now line.start line.stop)

def Line.message (parsers : Parsers) (now : Bytes) (line : Line) : String :=
  (parsers.message (line.raw now)).getD (line.raw now)

def Line.row (parsers : Parsers) (generation : String) (now : Bytes) (line : Line) : LogRow :=
  .of generation line.entry line.target (line.message parsers now) (line.raw now)

/-- The part of a filter that looks at the text of a line. -/
def Filter.finds (parsers : Parsers) (now : Bytes) (filter : Filter) (line : Line) : Bool :=
  Refresh.passes parsers (filter.text.map parsers.lowercase) (line.message parsers now) line.target

def Filter.admits (parsers : Parsers) (now : Bytes) (filter : Filter) (line : Line) : Bool :=
  filter.selects line && filter.finds parsers now line

/-- What is relied on about identifiers and timestamps. -/
structure Sane (outside : Outside) : Prop where
  short : ∀ m, (outside.uuid m).utf8ByteSize ≤ 36
  timestamps : ∀ text t, outside.parsers.rfc3339 text = some t → t.natAbs < 2 ^ 64

variable {outside : Outside} {p : Progress} {key : String} {parsers : Parsers} {now : Bytes}
  {origin : Nat} {t : Transcript} {line : Line} {work : Work} {index : Index}
  {identity : String → String} {content : Nat → String → Bytes}

theorem read_target_le (parsers : Parsers) (bytes : Bytes) :
    (parsers.read bytes).target.utf8ByteSize ≤ 4096 := by
  simp only [Parsers.read]
  split
  · decide
  · next short => simpa using short

theorem read_timestamp (sane : Sane outside) {bytes : Bytes} {time : Int}
    (read : (outside.parsers.read bytes).timestamp = some time) : time.natAbs < 2 ^ 64 := by
  simp only [Parsers.read] at read
  obtain ⟨text, _, parsed⟩ := Option.bind_eq_some_iff.mp read
  exact sane.timestamps text time parsed

/-- A line can be read back, and its row fits a page. -/
structure Fits (now : Bytes) (line : Line) : Prop where
  inside : line.stop ≤ now.length
  proper : line.start < line.stop
  short : line.stop - line.start ≤ maxLine + 1
  timestamp : ∀ time, line.timestamp = some time → time.natAbs < 2 ^ 64
  target : line.target.utf8ByteSize ≤ 4096

theorem Reads.fits (sane : Sane outside) (reads : Reads outside.parsers now origin t)
    (member : line ∈ t.lines) : Fits now line := by
  have listed := List.mem_map_of_mem (f := Line.record) member
  rw [reads.lines, List.mem_filter] at listed
  have kept := reads.kept line member
  have short : line.stop - line.start - 1 ≤ maxLine :=
    of_decide_eq_true (Bool.and_eq_true_iff.mp listed.2).1
  refine ⟨record_stop_le listed.1, reads.placed.spans.proper line member, by omega, ?_, ?_⟩
  · intro time stamped
    exact read_timestamp sane (kept.timestamp ▸ stamped)
  · rcases kept.target with ⟨said, _⟩ | ⟨empty, _⟩
    · rw [said]
      exact read_target_le _ _
    · rw [empty]
      decide

theorem Fits.row (fits : Fits now line) (bounded : now.length < 2 ^ 64) {generation : String}
    (short : generation.utf8ByteSize ≤ 36) (parsers : Parsers) :
    4096 + ((line.row parsers generation now).json.utf8ByteSize + 1) ≤ maxBatch :=
  LogRow.fits short ((fits.proper.le.trans fits.inside).trans_lt bounded) fits.timestamp fits.target

variable {name : String} {entry : Entry}

/-! ## Reading rows back -/

namespace Refresh

theorem ends_readBack (truthful : Truthful outside key identity content)
    (named : Named outside key name) (same : work.identity = identity name)
    (held : now <+: heldAt content p.moment name) {start stop : Nat} (inside : stop ≤ now.length)
    (short : stop - start ≤ maxBatch) :
    Ends (readBack outside work name start stop) p fun r p' => p' = ⟨p.work, p.moment + 1⟩ ∧
      (∀ bytes, r = .ok bytes → bytes = slice now start stop) ∧
      ∀ error, r = .error error → Fault outside key error := by
  refine ends_bind (ends_read (Q := fun r p' =>
    r = (outside.files p.moment).read name start (stop - start) ∧ p' = ⟨p.work, p.moment + 1⟩)
    ⟨rfl, rfl⟩) ?_ ?_
  · rintro found p' ⟨reads, rfl⟩
    obtain ⟨same', len, _, bytes⟩ := truthful.read _ _ _ _ _ named reads.symm
    have unchanged : ¬ (found.identity ≠ work.identity ∨ found.len < stop) := by
      rw [same', same, len, not_or]
      refine ⟨by simp, ?_⟩
      have longer := held.length_le
      unfold heldAt at longer
      omega
    rw [if_neg unchanged]
    refine ends_pure ⟨rfl, ?_, by simp⟩
    rintro bytes' equal
    cases equal
    obtain ⟨more, grown⟩ := held.trans (truthful.content_le name
      (show 3 * p.moment ≤ 3 * p.moment + 2 by omega))
    rw [bytes, ← grown, ← slice_append inside]
    rfl
  · rintro error p' ⟨fails, rfl⟩
    refine ⟨rfl, by simp, ?_⟩
    rintro error' equal
    cases equal
    exact .read named short fails.symm

/-- The entries before `rest` were consumed. -/
structure Consumed (render : Entry → LogRow) (finds : Entry → Bool) (reverse : Bool)
    (entries : List Entry) (rows rows' : Rows) (taken rest : List Entry) : Prop where
  split : entries = taken ++ rest
  shown : rows'.rows = rows.rows ++ (taken.filter finds).map render
  stopped : rows'.stopped = !rest.isEmpty
  reached : rows'.reached =
    ((taken.getLast?).map (edge Entry.start Entry.stop reverse)).getD rows.reached

variable {reverse : Bool}

theorem consumed_nothing {render : Entry → LogRow} {finds : Entry → Bool} {entries : List Entry}
    {rows rows' : Rows} (same : rows'.rows = rows.rows) (stops : rows'.stopped = true)
    (stays : rows'.reached = rows.reached) :
    Consumed render finds reverse (entry :: entries) rows rows' [] (entry :: entries) where
  split := rfl
  shown := by simp [same]
  stopped := by simp [stops]
  reached := by simp [stays]

/-- One entry is shown, passed beyond, or left for the next page. -/
theorem take_cases (outside : Outside) (work : Work) (index : Index) (now : Bytes) (filter : Filter)
    (reverse : Bool) (entry : Entry) (rows : Rows) (running : rows.stopped = false) :
    let rows' := rows.take outside work (filter.text.map outside.parsers.lowercase) reverse entry
      (index.target entry) (slice now entry.start entry.stop)
    (rows'.stopped = true ∧ rows'.rows = rows.rows ∧ rows'.reached = rows.reached ∧
        maxBatch < rows.responseBytes +
          (((index.line entry).row outside.parsers work.generation now).json.utf8ByteSize + 1)) ∨
      rows'.stopped = false ∧ rows'.reached = edge Entry.start Entry.stop reverse entry ∧
        rows'.rows = rows.rows ++ if filter.finds outside.parsers now (index.line entry) then
          [(index.line entry).row outside.parsers work.generation now] else [] := by
  intro rows'
  have finds : passes outside.parsers (filter.text.map outside.parsers.lowercase)
      ((outside.parsers.message (rawText (slice now entry.start entry.stop))).getD
        (rawText (slice now entry.start entry.stop))) (index.target entry) =
      filter.finds outside.parsers now (index.line entry) := rfl
  simp only [rows', Rows.take, finds]
  cases found : filter.finds outside.parsers now (index.line entry) with
  | false => exact .inr ⟨running, rfl, by simp⟩
  | true =>
      simp only [Bool.not_true, Bool.false_eq_true, if_false, if_true]
      split
      · next beyond =>
          exact .inl ⟨rfl, rfl, rfl, beyond⟩
      · exact .inr ⟨running, rfl, rfl⟩

section

variable (truthful : Truthful outside key identity content) (named : Named outside key name)
  (same : work.identity = identity name)

include truthful named same

theorem ends_readRows {filter : Filter} {entries : List Entry} {rows : Rows}
    (running : rows.stopped = false) (held : now <+: heldAt content p.moment name)
    (fits : ∀ entry ∈ entries, Fits now (index.line entry)) :
    Ends (readRows outside work name index (filter.text.map outside.parsers.lowercase) reverse
        entries rows) p fun r p' => p'.work = p.work ∧ p.moment ≤ p'.moment ∧
      (∀ error, r = .error error → Fault outside key error) ∧
      ∀ rows', r = .ok rows' → ∃ taken rest, Consumed
        (fun entry => (index.line entry).row outside.parsers work.generation now)
        (fun entry => filter.finds outside.parsers now (index.line entry)) reverse entries rows rows'
        taken rest ∧
        (rows.bytes = 0 → rows.responseBytes = 4096 → entries ≠ [] → taken = [] →
          ∃ entry ∈ entries, maxBatch < 4096 +
            (((index.line entry).row outside.parsers work.generation now).json.utf8ByteSize + 1)) := by
  induction entries generalizing rows p with
  | nil =>
      refine ends_pure ⟨rfl, le_rfl, by simp, ?_⟩
      rintro rows' equal
      cases equal
      exact ⟨[], [], ⟨rfl, by simp, by simp [running], rfl⟩, fun _ _ some_ => absurd rfl some_⟩
  | cons entry entries ih =>
      have fit := fits entry List.mem_cons_self
      have width : entry.stop - entry.start ≤ maxBatch :=
        fit.short.trans (by decide)
      unfold readRows
      split
      · next beyond =>
          refine ends_pure ⟨rfl, le_rfl, by simp, ?_⟩
          rintro rows' equal
          cases equal
          refine ⟨[], entry :: entries, consumed_nothing rfl rfl rfl, ?_⟩
          intro fresh
          omega
      · refine ends_bind (ends_readBack truthful named same held fit.inside width) ?_ ?_
        · rintro bytes p₁ ⟨rfl, read, _⟩
          have bytes_ : bytes = slice now entry.start entry.stop := read bytes rfl
          subst bytes_
          rcases take_cases outside work index now filter reverse entry rows running with ⟨stops, unshown, unmoved, beyond⟩ | ⟨goes, moved, shown⟩
          · simp only [stops, if_true]
            refine ends_pure ⟨rfl, Nat.le_succ _, by simp, ?_⟩
            rintro rows' equal
            cases equal
            refine ⟨[], entry :: entries, consumed_nothing unshown stops unmoved, ?_⟩
            intro _ fresh _ _
            exact ⟨entry, List.mem_cons_self, fresh ▸ beyond⟩
          · simp only [goes, Bool.false_eq_true, if_false]
            refine (ih goes (held.trans (truthful.heldAt_le name (Nat.le_succ _)))
              fun other member => fits other (List.mem_cons_of_mem entry member)).mono ?_
            rintro r p' ⟨work', order, fails, succeeds⟩
            refine ⟨work', (Nat.le_succ _).trans order, fails, ?_⟩
            rintro rows' equal
            obtain ⟨taken, rest, consumed, _⟩ := succeeds rows' equal
            refine ⟨entry :: taken, rest, ⟨?_, ?_, consumed.stopped, ?_⟩, by simp⟩
            · rw [consumed.split, List.cons_append]
            · rw [consumed.shown, shown, List.append_assoc]
              congr 1
              cases found : filter.finds outside.parsers now (index.line entry) <;> simp [found]
            · rw [consumed.reached, moved, Index.getLast_cons]
        · rintro error p₁ ⟨rfl, _, fails⟩
          refine ⟨rfl, Nat.le_succ _, ?_, by simp⟩
          rintro error' equal
          cases equal
          exact fails error rfl

/-! ## A page and the entries it covers -/

/-- From the offset `near` to the offset `far` the page has the matching entries, which
    are those of `taken`. -/
structure Answered (outside : Outside) (work : Work) (now : Bytes) (index : Index) (filter : Filter)
    (reverse : Bool) (oldest near far : Nat) (taken : List Entry) (page : LogPage) : Prop where
  rows : page.rows = (fun rows => if reverse then rows.reverse else rows)
    ((taken.filter fun entry => filter.finds outside.parsers now (index.line entry)).map
      fun entry => (index.line entry).row outside.parsers work.generation now)
  cursor : page.cursor = cursor work far
  found : index.matching filter reverse near = taken ++ index.matching filter reverse far
  ends : page.more = (reverse && decide (0 < oldest)) ∧
        far = (if reverse then oldest else index.committed) ∨
      page.more = true ∧ side Entry.start reverse far index.entries ≠ [] ∧
        ∃ entry ∈ side Entry.start reverse near index.entries,
          far = edge Entry.start Entry.stop reverse entry

theorem ends_answerFrom (short : work.generation.utf8ByteSize ≤ 36) (bounded : now.length < 2 ^ 64)
    (held : now <+: heldAt content p.moment name) (orderly : index.Orderly)
    (fits : ∀ entry ∈ index.entries, Fits now (index.line entry)) (query : QueryLogs)
    (blank : LogPage) (offset : Option Nat) (oldest : Nat)
    (past : index.matching query.filter (decide (query.direction ≠ .after)) (if decide (query.direction ≠ .after) then oldest else index.committed) = []) :
    Ends (answerFrom outside work name query blank offset index oldest) p fun r p' =>
      p'.work = p.work ∧ p.moment ≤ p'.moment ∧
      (∀ error, r = .error error → Fault outside key error) ∧
      ∀ page, r = .ok page → page.building = blank.building ∧ page.file = blank.file ∧ ∃ far taken,
        Answered outside work now index query.filter (decide (query.direction ≠ .after)) oldest
          (offset.getD (index.farEnd !decide (query.direction ≠ .after))) far taken page := by
  obtain ⟨scan, scanned, from_⟩ := Index.scan_spec orderly query.filter query.direction offset
    query.limit
  unfold answerFrom
  rw [scanned]
  refine ends_bind_ok rfl ?_
  generalize decide (query.direction ≠ .after) = reverse at *
  generalize offset.getD (index.farEnd !reverse) = near at from_ ⊢
  have inside : ∀ entry ∈ Index.nearest reverse scan.entries, entry ∈ index.entries := by
    intro entry member
    apply mem_side
    apply Index.mem_matching
    rw [← from_.found]
    exact List.mem_append_left _ member
  refine ends_bind (ends_readRows truthful named same rfl held
    (fun entry member => fits entry (inside entry member))) ?_ ?_
  · rintro rows p' ⟨work', order, _, succeeds⟩
    obtain ⟨taken, rest, consumed, first⟩ := succeeds rows rfl
    refine ends_pure ⟨work', order, by simp, ?_⟩
    rintro page equal
    cases equal
    refine ⟨rfl, rfl, ?_⟩
    have shown := consumed.shown
    rw [List.nil_append] at shown
    have split : Index.nearest reverse scan.entries = taken ++ rest := consumed.split
    cases rest with
    | nil =>
        have finished : rows.stopped = false := consumed.stopped
        rw [List.append_nil] at split
        cases more : scan.more with
        | true =>
            refine ⟨scan.boundary, taken, ⟨?_, ?_, ?_, .inr ⟨?_, from_.left more, from_.edge more⟩⟩⟩
            · simp only [shown]
            · simp [finished]
            · have found := from_.found
              rw [more, if_pos rfl, split] at found
              exact found.symm
            · simp
        | false =>
            have found := from_.found
            rw [more, split] at found
            refine ⟨if reverse then oldest else index.committed, taken,
              ⟨?_, ?_, ?_, .inl ⟨?_, rfl⟩⟩⟩
            · simp only [shown]
            · have ends := from_.ends more
              cases reverse with
              | false => simp [finished, ends, Index.farEnd]
              | true => simp [finished]
            · rw [past]
              simpa using found.symm
            · simp [finished]
    | cons next rest =>
        have stopped : rows.stopped = true := consumed.stopped
        have nonempty : taken ≠ [] := by
          intro empty
          obtain ⟨entry, member, beyond⟩ := first rfl rfl
            (by
              change Index.nearest reverse scan.entries ≠ []
              rw [split]
              simp) empty
          have room := (fits entry (inside entry member)).row bounded short outside.parsers
          omega
        obtain ⟨before, last, ending⟩ : ∃ before last, taken = before ++ [last] :=
          ⟨taken.dropLast, taken.getLast nonempty, (List.dropLast_append_getLast nonempty).symm⟩
        have found := from_.found
        rw [split, ending, List.append_assoc, List.append_assoc, List.singleton_append] at found
        -- Behind the last entry met are the ones that have not been.
        have left : index.matching query.filter reverse (edge Entry.start Entry.stop reverse last) = _ :=
          (orderly.spans.sublist List.filter_sublist).side_edge found.symm
        refine ⟨edge Entry.start Entry.stop reverse last, taken, ⟨?_, ?_, ?_, .inr ⟨?_, ?_, last, ?_, rfl⟩⟩⟩
        · simp only [shown]
        · have reached := consumed.reached
          rw [ending, List.getLast?_concat] at reached
          simp only [stopped, if_true]
          rw [reached]
          rfl
        · rw [left, ← found, ending]
          simp
        · simp [stopped]
        · have member : next ∈ index.matching query.filter reverse
              (edge Entry.start Entry.stop reverse last) := by
            rw [left]
            simp
          exact List.ne_nil_of_mem (Index.mem_matching member)
        · apply Index.mem_matching
          rw [← found]
          simp
  · rintro error p' ⟨work', order, fails, _⟩
    refine ⟨work', order, ?_, by simp⟩
    rintro error' equal
    cases equal
    exact fails error rfl

end

end Refresh

/-! ## The index behind a page -/

theorem Index.start_le_of_mem (spans : OrderedSpans Entry.start Entry.stop index.entries)
    (member : entry ∈ index.entries) : index.start ≤ entry.start := by
  have starts := spans.starts
  unfold Index.start
  cases entries : index.entries with
  | nil =>
      rw [entries] at member
      cases member
  | cons first rest =>
      rw [entries] at member starts
      rcases List.mem_cons.mp member with rfl | later
      · exact le_rfl
      · exact ((List.pairwise_cons.mp starts).1 entry later).le

/-- An index of a stretch of a file. -/
structure Indexes (parsers : Parsers) (now : Bytes) (origin stop : Nat) (index : Index) : Prop where
  order : origin ≤ stop
  inside : stop ≤ now.length
  shows : index.Shows (transcript parsers now origin stop)
  window : index.lines = (transcript parsers now origin stop).window

namespace Indexes

variable {stop : Nat}

section

variable (indexes : Indexes parsers now origin stop index)

include indexes

theorem reads : Reads parsers (now.take stop) origin (transcript parsers now origin stop) :=
  reads_transcript parsers indexes.order indexes.inside

theorem orderly : index.Orderly := by
  have spans := indexes.reads.placed.spans.sublist indexes.shows.tail.sublist
  exact ⟨indexes.shows.coherent, ⟨List.pairwise_map.mp spans.ordered,
    fun entry member => spans.proper (index.line entry) (List.mem_map_of_mem member)⟩⟩

theorem mem_lines (member : entry ∈ index.entries) :
    index.line entry ∈ (transcript parsers now origin stop).lines :=
  indexes.shows.tail.subset (List.mem_map_of_mem member)

end

theorem fits (sane : Sane outside) (indexes : Indexes outside.parsers now origin stop index) :
    ∀ entry ∈ index.entries, Fits now (index.line entry) := by
  intro entry member
  have fits := indexes.reads.fits sane (indexes.mem_lines member)
  have shorter : (now.take stop).length ≤ now.length := List.length_take_le' _ _
  exact { fits with inside := fits.inside.trans shorter }

section

variable (indexes : Indexes parsers now origin stop index)

include indexes

theorem committed : index.committed = max origin (cut (now.take stop)).start :=
  indexes.shows.committed.trans indexes.reads.committed

theorem stop_le_committed (member : entry ∈ index.entries) : entry.stop ≤ index.committed := by
  rw [indexes.shows.committed]
  exact indexes.reads.placed.ended _ (indexes.mem_lines member)

theorem nothing_behind (filter : Filter) : index.matching filter false index.committed = [] := by
  rw [List.eq_nil_iff_forall_not_mem]
  intro entry member
  have inside := Index.mem_matching member
  simp only [side, Bool.false_eq_true, if_false, List.mem_filter, decide_eq_true_eq] at inside
  have ended := indexes.stop_le_committed inside.1
  have proper := indexes.orderly.spans.proper entry inside.1
  omega

theorem nothing_before (filter : Filter) {oldest : Nat}
    (bound : oldest ≤ index.start ∨ index.entries = []) :
    index.matching filter true oldest = [] := by
  rw [List.eq_nil_iff_forall_not_mem]
  intro entry member
  have inside := Index.mem_matching member
  simp only [side, if_true, List.mem_reverse, List.mem_filter, decide_eq_true_eq] at inside
  rcases bound with bound | empty
  · have first := Index.start_le_of_mem indexes.orderly.spans inside.1
    omega
  · rw [empty] at inside
    cases inside.1

end

end Indexes

theorem Tracks.indexes (tracks : Tracks parsers now origin work) :
    Indexes parsers now origin work.index.nextRead work.index :=
  ⟨tracks.begun, tracks.reached, tracks.shows, tracks.window⟩

theorem Indexes.start_le {stop : Nat} (indexes : Indexes parsers now origin stop index) :
    index.start ≤ index.committed ∧ index.committed ≤ stop := by
  have reads := indexes.reads
  have read : (now.take stop).length = stop := List.length_take_of_le indexes.inside
  constructor
  · unfold Index.start
    cases entries : index.entries with
    | nil => exact le_rfl
    | cons first rest =>
        have member : first ∈ index.entries := by simp [entries]
        exact (indexes.orderly.spans.proper first member).le.trans
          (indexes.stop_le_committed member)
  · rw [indexes.shows.committed]
    exact reads.placed.reached.trans (reads.nextRead.trans read).le

namespace Refresh

/-- Where a page comes from: the live index, or an index of the bytes before the offset. -/
inductive Sourced (parsers : Parsers) (work : Work) (now : Bytes) (query : QueryLogs)
    (offset : Option Nat) : Index → Nat → Prop where
  | live (recent : pastEnd work query offset = none) :
      Sourced parsers work now query offset work.index work.index.start
  | past {stop : Nat} {index : Index} (old : pastEnd work query offset = some stop)
      (indexes : Indexes parsers now (stop - maxBatch) stop index) :
      Sourced parsers work now query offset index
        (if index.entries.isEmpty then stop - maxBatch else index.start)

theorem append_new (parsers : Parsers) (origin : Nat) {bytes : Bytes}
    (short : bytes.length ≤ maxBatch) : ∃ index,
      (Index.new origin).append parsers origin bytes = .ok index ∧
      index.Shows (.of parsers origin bytes) ∧
      index.lines = (Transcript.of parsers origin bytes).window := by
  have appends := Index.append_ok parsers (.new origin) short
  exact ⟨_, appends, append_shows (new_shows origin) appends⟩

theorem ends_readPast (truthful : Truthful outside key identity content)
    (named : Named outside key name) (same : work.identity = identity name)
    (held : now <+: heldAt content p.moment name) {stop : Nat} (inside : stop ≤ now.length) :
    Ends (readPast outside work name stop) p fun r p' => p'.work = p.work ∧ p.moment ≤ p'.moment ∧
      (∀ error, r = .error error → Fault outside key error) ∧
      ∀ index, r = .ok index → Indexes outside.parsers now (stop - maxBatch) stop index := by
  refine ends_bind (ends_readBack truthful named same held inside (by omega)) ?_ ?_
  · rintro bytes p₁ ⟨rfl, read, _⟩
    have bytes_ : bytes = slice now (stop - maxBatch) stop := read bytes rfl
    have short : bytes.length ≤ maxBatch := by
      rw [bytes_, slice, List.length_take]
      omega
    obtain ⟨index, appends, shows, window⟩ := append_new outside.parsers (stop - maxBatch) short
    rw [bytes_] at shows window
    rw [appends]
    refine ends_pure ⟨rfl, Nat.le_succ _, by simp, ?_⟩
    rintro index' equal
    cases equal
    exact ⟨Nat.sub_le _ _, inside, shows, window⟩
  · rintro error p₁ ⟨rfl, _, fails⟩
    refine ⟨rfl, Nat.le_succ _, ?_, by simp⟩
    rintro error' equal
    cases equal
    exact fails error rfl

theorem pastEnd_le {query : QueryLogs} {offset : Option Nat} {stop : Nat}
    (old : pastEnd work query offset = some stop) :
    query.direction = .before ∧ offset = some stop ∧ 0 < stop ∧ stop ≤ work.index.start := by
  unfold pastEnd at old
  split at old
  · cases old
  · split at old
    · next holds =>
        cases old
        exact ⟨holds.1, rfl, holds.2⟩
    · cases old

theorem ends_source (truthful : Truthful outside key identity content)
    (named : Named outside key name) (same : work.identity = identity name)
    (tracks : Tracks outside.parsers now origin work) (held : now <+: heldAt content p.moment name)
    (query : QueryLogs) (offset : Option Nat) :
    Ends (source outside work name query offset) p fun r p' =>
      p'.work = p.work ∧ p.moment ≤ p'.moment ∧
      (∀ error, r = .error error → Fault outside key error) ∧
      ∀ index oldest, r = .ok (index, oldest) →
        Sourced outside.parsers work now query offset index oldest := by
  unfold source
  split
  · next recent =>
      refine ends_pure ⟨rfl, le_rfl, by simp, ?_⟩
      rintro index oldest equal
      cases equal
      exact .live recent
  · next stop old =>
      have bounds := tracks.indexes.start_le
      have inside : stop ≤ now.length :=
        (pastEnd_le old).2.2.2.trans (bounds.1.trans (bounds.2.trans tracks.reached))
      refine ends_bind (ends_readPast truthful named same held inside) ?_ ?_
      · rintro index p₁ ⟨work₁, order, _, indexes⟩
        refine ends_pure ⟨work₁, order, by simp, ?_⟩
        rintro index' oldest equal
        cases equal
        exact .past old (indexes index rfl)
      · rintro error p₁ ⟨work₁, order, fails, _⟩
        refine ⟨work₁, order, ?_, by simp⟩
        rintro error' equal
        cases equal
        exact fails error rfl

theorem Sourced.indexes {query : QueryLogs} {offset : Option Nat} {oldest : Nat}
    (sourced : Sourced parsers work now query offset index oldest)
    (tracks : Tracks parsers now origin work) : ∃ begin_ stop,
      Indexes parsers now begin_ stop index ∧ (oldest ≤ index.start ∨ index.entries = []) := by
  cases sourced with
  | live => exact ⟨origin, _, tracks.indexes, .inl le_rfl⟩
  | past old indexes =>
      refine ⟨_, _, indexes, ?_⟩
      cases empty : index.entries with
      | nil => exact .inr rfl
      | cons first rest => exact .inl le_rfl

/-- What a page answers, given where the index stands. -/
def Page (outside : Outside) (work : Work) (now : Bytes) (query : QueryLogs) (offset : Option Nat)
    (page : LogPage) : Prop :=
  ∃ index oldest far taken, Sourced outside.parsers work now query offset index oldest ∧
    Answered outside work now index query.filter (decide (query.direction ≠ .after)) oldest
      (offset.getD (index.farEnd !decide (query.direction ≠ .after))) far taken page

theorem ends_answer (truthful : Truthful outside key identity content) (sane : Sane outside)
    (named : Named outside key name) (same : work.identity = identity name)
    (short : work.generation.utf8ByteSize ≤ 36)
    (tracks : Tracks outside.parsers (heldAt content p.moment name) origin work) (query : QueryLogs)
    (blank : LogPage) (offset : Option Nat) :
    Ends (answer outside work name query blank offset) p fun r p' =>
      p'.work = p.work ∧ p.moment ≤ p'.moment ∧
      (∀ error, r = .error error → Fault outside key error) ∧
      ∀ page, r = .ok page → page.building = blank.building ∧ page.file = blank.file ∧
        Page outside work (heldAt content p.moment name) query offset page := by
  refine ends_bind (ends_source truthful named same tracks List.prefix_rfl query offset) ?_ ?_
  · rintro ⟨index, oldest⟩ p₁ ⟨work₁, order, _, sourced⟩
    have sourced := sourced index oldest rfl
    obtain ⟨begin_, stop, indexes, bound⟩ := sourced.indexes tracks
    have past : index.matching query.filter (decide (query.direction ≠ .after))
        (if decide (query.direction ≠ .after) then oldest else index.committed) = [] := by
      cases decide (query.direction ≠ .after) with
      | false => exact indexes.nothing_behind query.filter
      | true => exact indexes.nothing_before query.filter bound
    refine (ends_answerFrom truthful named same short (truthful.fits _ _)
      (truthful.heldAt_le name order) indexes.orderly (indexes.fits sane) query blank offset oldest
      past).mono ?_
    rintro r p₂ ⟨work₂, order₂, fails, succeeds⟩
    refine ⟨work₂.trans work₁, order.trans order₂, fails, ?_⟩
    intro page equal
    obtain ⟨building, file, far, taken, answered⟩ := succeeds page equal
    exact ⟨building, file, index, oldest, far, taken, sourced, answered⟩
  · rintro error p₁ ⟨work₁, order, fails, _⟩
    refine ⟨work₁, order, ?_, by simp⟩
    rintro error' equal
    cases equal
    exact fails error rfl

/-! ## Refreshes -/

/-- What a refresh leaves behind and answers. -/
structure Refreshed (outside : Outside) (key : String) (identity : String → String)
    (content : Nat → String → Bytes) (p : Progress) (origin : Nat) (query : QueryLogs)
    (r : Except LogError LogPage) (p' : Progress) (origin' : Nat) : Prop where
  order : p.moment ≤ p'.moment
  tracks : Tracks outside.parsers (heldAt content p'.moment p'.work.name) origin' p'.work
  continues : Continues outside key identity p p' origin origin' 0
  fails : ∀ error, r = .error error → Fault outside key error ∨
    locate p'.work query = .error error ∧ Named outside key p'.work.name ∧
      (heldAt content p.moment p'.work.name).length ≤ p'.work.index.nextRead
  answers : ∀ page, r = .ok page → page.file = p'.work.name ∧
    p'.work.identity = identity p'.work.name ∧ Named outside key p'.work.name
  builds : ∀ page, r = .ok page → page.building = true →
    Continues outside key identity p p' origin origin' maxBatch
  shows : ∀ page, r = .ok page → page.building = false →
    (heldAt content p.moment p'.work.name).length ≤ p'.work.index.nextRead ∧
    ∃ m offset, p.moment ≤ m ∧ m ≤ p'.moment ∧ locate p'.work query = .ok offset ∧
      Tracks outside.parsers (heldAt content m p'.work.name) origin' p'.work ∧
      Page outside p'.work (heldAt content m p'.work.name) query offset page

theorem ends_refreshPage (truthful : Truthful outside key identity content) (sane : Sane outside)
    (tracks : Tracks outside.parsers (heldAt content p.moment p.work.name) origin p.work)
    (short : p.work.generation.utf8ByteSize ≤ 36) (query : QueryLogs) :
    Ends (refreshPage outside key query) p fun r p' =>
      ∃ origin', Refreshed outside key identity content p origin query r p' origin' := by
  refine ends_bind (ends_catchUp truthful tracks) ?_ ?_
  · rintro ⟨name, len⟩ p₁ ⟨origin', caught⟩
    obtain ⟨named, named₁, same⟩ := caught.named name len rfl
    have lengths := caught.len name len rfl
    refine ends_bind_ok rfl ?_
    split
    · next building =>
        refine ends_pure ⟨origin', caught.order, caught.tracks, caught.continues, by simp, ?_, ?_, ?_⟩
        · rintro page equal
          cases equal
          exact ⟨named₁.symm, named₁ ▸ same, named₁ ▸ named⟩
        · rintro page equal _
          exact caught.gains name len rfl (by simpa [blank] using building)
        · rintro page equal built
          cases equal
          rw [building] at built
          cases built
    · next built =>
        have reached : len ≤ p₁.work.index.nextRead := by
          simpa [blank] using built
        cases located : locate p₁.work query with
        | error error =>
            refine ends_bind (ends_lift (Q := fun r p' => r = .error error ∧ p' = p₁) ⟨rfl, rfl⟩)
              ?_ ?_
            · rintro offset p' ⟨absurd_, _⟩
              cases absurd_
            · rintro error' p' ⟨same', rfl⟩
              cases same'
              refine ⟨origin', caught.order, caught.tracks, caught.continues, ?_, by simp, by simp,
                by simp⟩
              rintro error' equal
              cases equal
              rw [named₁]
              exact .inr ⟨located, named, lengths.1.trans reached⟩
        | ok offset =>
            refine ends_bind_ok rfl ?_
            have short₁ : p₁.work.generation.utf8ByteSize ≤ 36 := by
              rcases caught.continues with stays | ⟨_, restarts⟩
              · rw [stays.generation]
                exact short
              · obtain ⟨m, _, _, fresh⟩ := restarts.generation
                rw [fresh]
                exact sane.short m
            have tracks₁ := caught.tracks
            rw [named₁] at tracks₁
            refine (ends_answer truthful sane named same short₁ tracks₁ query _ offset).mono ?_
            rintro r p₂ ⟨work₂, order₂, fails, succeeds⟩
            refine ⟨origin', caught.order.trans order₂, ?_, ?_, ?_, ?_, ?_, ?_⟩
            · rw [work₂]
              exact caught.tracks.grow (truthful.heldAt_le _ order₂)
            · have unmoved : p₁.work.index.nextRead + 0 ≤ p₂.work.index.nextRead := by rw [work₂]; rfl
              exact caught.continues.reads (by rw [work₂]) (by rw [work₂]) (by rw [work₂]) order₂
                unmoved
            · intro error equal
              exact .inl (fails error equal)
            · intro page equal
              obtain ⟨_, file, _⟩ := succeeds page equal
              rw [work₂, named₁]
              exact ⟨file, same, named⟩
            · intro page equal building
              rw [(succeeds page equal).1] at building
              exact absurd building built
            · intro page equal _
              obtain ⟨_, _, answered⟩ := succeeds page equal
              rw [work₂, named₁]
              exact ⟨lengths.1.trans reached, p₁.moment, offset, caught.order, order₂, located,
                tracks₁, answered⟩
  · rintro error p' ⟨origin', caught⟩
    refine ⟨origin', caught.order, caught.tracks, caught.continues, ?_, by simp, by simp, by simp⟩
    rintro error' equal
    cases equal
    exact .inl (caught.fails error rfl)

end Refresh

end Logging

end Nyanpasu
