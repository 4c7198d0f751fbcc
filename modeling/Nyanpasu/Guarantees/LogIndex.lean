import Nyanpasu.Logging.Scanning

/-! # The log index over all sequences of batches

What holds of an index after any number of batches: its parts agree with one another,
what it retains does not depend on how the stream was split, and scanning page by page
returns the matching entries.
-/

namespace Nyanpasu

namespace Logging

/-- The parsers over a log in which no line is a JSON object. -/
def Parsers.none : Parsers := ⟨fun _ => .none, fun _ => .none, fun _ => .none, String.toLower⟩

/-- Every line is its own target. -/
def Parsers.verbatim : Parsers where
  object text := some ⟨.none, .none, some (.ofList (text.map fun byte => .ofNat byte.toNat))⟩
  rfc3339 _ := .none
  message _ := .none
  lowercase := id

def Filter.onlyX : Filter := { Filter.default with target := some "x" }

namespace Index

variable {parsers : Parsers} {index : Index}

inductive Reachable (parsers : Parsers) : Index → Prop where
  | new (start : Nat) : Reachable parsers (.new start)
  | append (offset : Nat) (bytes : Bytes) {index later : Index} : Reachable parsers index →
      index.append parsers offset bytes = .ok later → Reachable parsers later

/-- After a batch an index shows a transcript and holds exactly its window. -/
theorem Reachable.shows (reachable : Reachable parsers index) :
    ∃ t : Transcript, index.Shows t ∧ index.lines = t.window ∧ t.Placed := by
  induction reachable with
  | new start => exact ⟨.new start, new_shows start, rfl, Transcript.placed_new start⟩
  | append offset bytes _ appends ih =>
      obtain ⟨t, shows, _, placed⟩ := ih
      obtain ⟨shows', window⟩ := append_shows shows appends
      exact ⟨_, shows', window, placed.feedAll parsers bytes⟩

theorem spans_of_lines (spans : OrderedSpans Line.start Line.stop index.lines) :
    OrderedSpans Entry.start Entry.stop index.entries where
  ordered := List.pairwise_map.mp spans.ordered
  proper := fun entry member => spans.proper (index.line entry) (List.mem_map_of_mem member)

theorem Reachable.orderly (reachable : Reachable parsers index) : index.Orderly := by
  obtain ⟨t, shows, _, placed⟩ := reachable.shows
  exact ⟨shows.coherent, spans_of_lines (placed.spans.sublist shows.tail.sublist)⟩

/-! ## The representation -/

structure Sound (index : Index) : Prop where
  ordered : index.entries.Pairwise fun a b => a.start < b.start
  disjoint : index.entries.Pairwise fun a b => a.stop ≤ b.start
  byTarget : ∀ entry ∈ index.entries, index.postings.lookup entry.target =
    some (startsOf index.entries fun other => index.target other = index.target entry)
  noOtherTarget : ∀ key starts, index.postings.lookup key = some starts →
    ∃ entry ∈ index.entries, entry.target = key
  byLevel : ∀ level, index.levels level = startsOf index.entries fun entry => entry.level = level
  scans : ∀ filter direction boundary limit, (index.scan filter direction boundary limit).isSome
  accounted : index.targetBytes = weight (targetsOf index.lines)
  room : index.targetBytes ≤ maxTargetBytes
  count : index.entries.length ≤ maxEntries
  inWindow : ∀ entry ∈ index.entries, index.nextRead - maxWindow ≤ entry.start
  pending : index.pending.length ≤ maxLine

/-- Entries have one key exactly when they have one target. -/
theorem key_eq_iff (coherent : index.Coherent) {entry other : Entry}
    (inside : entry ∈ index.entries) (inside' : other ∈ index.entries) :
    other.target = entry.target ↔ index.target other = index.target entry := by
  obtain ⟨name, found⟩ := coherent.resolved entry inside
  obtain ⟨name', found'⟩ := coherent.resolved other inside'
  rw [target_eq found, target_eq found']
  constructor
  · intro same
    rw [same] at found'
    exact Option.some.inj (found'.symm.trans found)
  · rintro rfl
    exact Pool.resolve_injective found' found

theorem index_sound (parsers : Parsers) (index : Index) (reachable : Reachable parsers index) :
    index.Sound := by
  obtain ⟨t, shows, window, placed⟩ := reachable.shows
  have orderly := reachable.orderly
  have coherent := orderly.coherent
  obtain ⟨few, recent⟩ := placed.fitting_window
  refine {
    ordered := orderly.spans.starts
    disjoint := orderly.spans.ordered
    byTarget := ?_
    noOtherTarget := ?_
    byLevel := coherent.levels
    scans := ?_
    accounted := coherent.weight
    room := shows.bounded
    count := ?_
    inWindow := ?_
    pending := shows.pending ▸ placed.pending }
  · intro entry inside
    obtain ⟨name, found⟩ := coherent.resolved entry inside
    rw [coherent.postings, if_pos (resolve_lt found)]
    congr 1
    refine congrArg (List.map _) (List.filter_congr ?_)
    intro other inside'
    rw [decide_eq_decide]
    exact key_eq_iff coherent inside inside'
  · intro key starts listed
    rw [coherent.postings] at listed
    split at listed
    · next below =>
        obtain ⟨entry, inside, found⟩ := coherent.used _ (List.getElem_mem below)
        have named : index.targets.resolve key = some (index.targets.values[key]) :=
          List.getElem?_eq_getElem below
        exact ⟨entry, inside, Pool.resolve_injective found named⟩
    · cases listed
  · intro filter direction boundary limit
    obtain ⟨page, scanned, _⟩ := scan_spec orderly filter direction boundary limit
    simp [scanned]
  · rw [← window, lines, List.length_map] at few
    exact few
  · intro entry inside
    rw [shows.nextRead]
    exact recent (index.line entry) (window ▸ List.mem_map_of_mem inside)

/-- Three lines in two batches. -/
theorem index_sound_lines : ∃ index later, (new 0).append .verbatim 0 [120, 10, 121] = .ok index ∧
    index.append .verbatim 3 [10, 120, 10] = .ok later ∧
    later.entries.map (fun entry => (entry.start, entry.stop)) = [(0, 2), (2, 4), (4, 6)] ∧
    later.Sound :=
  ⟨_, _, rfl, rfl, rfl, index_sound .verbatim _
    (.append 3 [10, 120, 10] (.append 0 [120, 10, 121] (.new 0) rfl) rfl)⟩

/-! ## Splitting the stream -/

/-- What is seen of an index without its keys. -/
structure Appearance where
  lines : List Line
  pending : Bytes
  skipping : Bool
  nextRead : Nat
  committed : Nat
  malformed : Nat
  truncated : Nat
  isPartial : Bool
  deriving DecidableEq

def appearance (index : Index) : Appearance where
  lines := index.lines
  pending := index.pending
  skipping := index.skipping
  nextRead := index.nextRead
  committed := index.committed
  malformed := index.malformed
  truncated := index.truncated
  isPartial := index.isPartial

/-- An index that holds the window of its transcript appears as that transcript. -/
def expected (t : Transcript) : Appearance where
  lines := t.window
  pending := t.pending
  skipping := t.skipping
  nextRead := t.nextRead
  committed := t.committed
  malformed := t.malformed
  truncated := t.truncated
  isPartial := t.cut || decide (t.window.length < t.lines.length)

theorem Shows.appearance {t : Transcript} (shows : index.Shows t) (window : index.lines = t.window) :
    index.appearance = expected t := by
  simp only [Index.appearance, expected, ← window, shows.pending, shows.skipping, shows.nextRead,
    shows.committed, shows.malformed, shows.truncated, shows.isPartial]

def appendAll (parsers : Parsers) : Index → List Bytes → Except String Index
  | index, [] => .ok index
  | index, batch :: batches => do
      let later ← index.append parsers index.nextRead batch
      later.appendAll parsers batches

/-- Only the bytes matter, not where one batch ends and the next begins. -/
theorem appendAll_shows {t : Transcript} {batches : List Bytes} (shows : index.Shows t)
    (window : index.lines = t.window) (short : ∀ batch ∈ batches, batch.length ≤ maxBatch) :
    ∃ last, index.appendAll parsers batches = .ok last ∧
      last.Shows (batches.flatten.foldl (Transcript.feed parsers) t) ∧
      last.lines = (batches.flatten.foldl (Transcript.feed parsers) t).window := by
  induction batches generalizing index t with
  | nil => exact ⟨index, rfl, shows, window⟩
  | cons batch batches ih =>
      have appends := append_ok parsers index (short batch List.mem_cons_self)
      obtain ⟨shows', window'⟩ := append_shows shows appends
      obtain ⟨last, rest, result⟩ := ih shows' window'
        fun other member => short other (List.mem_cons_of_mem batch member)
      rw [List.flatten_cons, List.foldl_append]
      refine ⟨last, ?_, result⟩
      rw [appendAll, appends]
      exact rest

theorem chunking_invariant (parsers : Parsers) (start : Nat) (first second : List Bytes)
    (same : first.flatten = second.flatten)
    (short : ∀ batch ∈ first, batch.length ≤ maxBatch)
    (short' : ∀ batch ∈ second, batch.length ≤ maxBatch) :
    ∃ one other, (new start).appendAll parsers first = .ok one ∧
      (new start).appendAll parsers second = .ok other ∧ one.appearance = other.appearance := by
  obtain ⟨one, runs, shows, window⟩ := appendAll_shows (new_shows start) rfl short
  obtain ⟨other, runs', shows', window'⟩ := appendAll_shows (new_shows start) rfl short'
  refine ⟨one, other, runs, runs', ?_⟩
  rw [shows.appearance window, shows'.appearance window', same]

theorem chunking_invariant_split : ∃ one other,
    (new 0).appendAll .none [[120], [10, 120], [10]] = .ok one ∧
      (new 0).appendAll .none [[120, 10, 120, 10]] = .ok other ∧
      one.appearance = other.appearance :=
  chunking_invariant .none 0 [[120], [10, 120], [10]] [[120, 10, 120, 10]] rfl (by decide)
    (by decide)

/-! ## Scanning page by page -/

/-- Scan again from the returned boundary while there is more. -/
def scanPages (index : Index) (filter : Filter) (direction : Direction) (limit : Nat) :
    Nat → Option Nat → Option (List Scan)
  | 0, _ => none
  | fuel + 1, boundary => do
      let page ← index.scan filter direction boundary limit
      if page.more then
        let later ← index.scanPages filter direction limit fuel (some page.boundary)
        return page :: later
      else return [page]

/-- The entries of consecutive pages in file order. -/
def assembled (direction : Direction) (pages : List Scan) : List Entry :=
  ((if direction = .after then pages else pages.reverse).map (·.entries)).flatten

/-- The retained entries that a scan from this boundary may meet. -/
def ahead (index : Index) (direction : Direction) (boundary : Nat) : List Entry :=
  index.entries.filter fun entry =>
    if direction = .after then boundary ≤ entry.start else entry.start < boundary

structure Refines (index : Index) (filter : Filter) (direction : Direction) (boundary : Nat)
    (pages : List Scan) : Prop where
  complete : assembled direction pages =
    (index.ahead direction boundary).filter fun entry => filter.selects (index.line entry)
  advancing : List.IsChain (Beyond (decide (direction ≠ .after)))
    (boundary :: (pages.filter (·.more)).map (·.boundary))
  ending : ∃ last, pages.getLast? = some last ∧ last.more = false

theorem nearest_matching (filter : Filter) (direction : Direction) (boundary : Nat) :
    nearest (decide (direction ≠ .after))
      ((index.ahead direction boundary).filter fun entry => filter.selects (index.line entry)) =
        index.matching filter (decide (direction ≠ .after)) boundary := by
  cases direction <;>
    simp [nearest, ahead, matching, side, List.filter_filter, Bool.and_comm]

theorem nearest_assembled (direction : Direction) (page : Scan) (pages : List Scan) :
    nearest (decide (direction ≠ .after)) (assembled direction (page :: pages)) =
      nearest (decide (direction ≠ .after)) page.entries ++
        nearest (decide (direction ≠ .after)) (assembled direction pages) := by
  cases direction <;> simp [nearest, assembled]

theorem nearest_injective (reverse : Bool) : Function.Injective (nearest reverse) := by
  intro first second same
  cases reverse with
  | false => exact same
  | true => exact List.reverse_injective same

/-- Induction is on the entries ahead, of which each page with more behind it meets one. -/
theorem scanPages_spec (orderly : index.Orderly) (filter : Filter) (direction : Direction)
    (limit fuel : Nat) (boundary : Option Nat)
    (enough : (side Entry.start (decide (direction ≠ .after))
      (boundary.getD (index.farEnd !decide (direction ≠ .after))) index.entries).length < fuel) :
    ∃ pages, index.scanPages filter direction limit fuel boundary = some pages ∧
      index.Refines filter direction
        (boundary.getD (index.farEnd !decide (direction ≠ .after))) pages := by
  induction fuel generalizing boundary with
  | zero => exact absurd enough (Nat.not_lt_zero _)
  | succ fuel ih =>
      obtain ⟨page, scanned, from_⟩ := scan_spec orderly filter direction boundary limit
      have found := from_.found
      cases more : page.more with
      | false =>
          refine ⟨[page], by simp [scanPages, scanned, more], ⟨?_, ?_, page, rfl, more⟩⟩
          · apply nearest_injective (decide (direction ≠ .after))
            rw [nearest_assembled, nearest_matching, ← found, more]
            cases direction <;> rfl
          · simp [more]
      | true =>
          obtain ⟨further, shorter⟩ := from_.advances orderly more
          obtain ⟨pages, rest, refines⟩ := ih (some page.boundary) (by
            simp only [Option.getD_some]
            omega)
          obtain ⟨last, ends, final⟩ := refines.ending
          refine ⟨page :: pages, by simp [scanPages, scanned, more, rest], ⟨?_, ?_, last, ?_, final⟩⟩
          · apply nearest_injective (decide (direction ≠ .after))
            rw [nearest_assembled, refines.complete, nearest_matching, nearest_matching, ← found, more]
            rfl
          · rw [List.filter_cons_of_pos more, List.map_cons, List.isChain_cons_cons]
            exact ⟨further, refines.advancing⟩
          · rw [List.getLast?_cons, ends]
            rfl

theorem scan_refines_filter (parsers : Parsers) (index : Index)
    (reachable : Reachable parsers index) (filter : Filter) (direction : Direction)
    (boundary : Option Nat) (limit fuel : Nat) (enough : index.entries.length < fuel) :
    ∃ pages, index.scanPages filter direction limit fuel boundary = some pages ∧
      index.Refines filter direction
        (boundary.getD (if direction = .after then index.start else index.committed)) pages := by
  have near : index.farEnd (!decide (direction ≠ .after)) =
      if direction = .after then index.start else index.committed := by
    cases direction <;> rfl
  rw [← near]
  exact scanPages_spec reachable.orderly filter direction limit fuel boundary
    ((length_side_le index.entries).trans_lt enough)

/-- The line between the two that match is on no page. -/
theorem scan_refines_filter_pages : ∃ index pages,
    (new 0).append .verbatim 0 [120, 10, 121, 10, 120, 10] = .ok index ∧
      index.scanPages .onlyX .latest 1 4 none = some pages ∧
      pages.map (·.entries.map (·.start)) = [[4], [0]] ∧
      index.Refines .onlyX .latest index.committed pages := by
  obtain ⟨pages, scans, refines⟩ := scan_refines_filter .verbatim _
    (.append 0 [120, 10, 121, 10, 120, 10] (.new 0) rfl) .onlyX .latest none 1 4 (by decide)
  refine ⟨_, pages, rfl, scans, ?_, refines⟩
  cases scans
  rfl

end Index

end Logging

end Nyanpasu
