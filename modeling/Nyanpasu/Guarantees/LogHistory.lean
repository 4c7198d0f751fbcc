import Nyanpasu.Guarantees.LogFollowing

/-! # Paging back through a log

A client asks for the latest page of a file that does not change, and then for what
comes before it until there is no more.  The pages cross from the window of the index
into stretches of history that are indexed for one page only.
-/

namespace Nyanpasu

namespace Logging

open Fallible
open Naming (parseU64)
open Index (newline)
open Refresh (refreshPage locate)

/-- The file stays as it is, and every call is answered. -/
structure Static (outside : Outside) (key name : String) (identity : String → String)
    (file : Bytes) : Prop where
  truthful : Truthful outside key identity fun _ _ => file
  only : ∀ other, Named outside key other → other = name
  listed : key = "" → ∀ m, ∃ newest rest, (outside.files m).catalog = .ok (newest :: rest)
  answers : ∀ m offset length, length ≤ maxBatch →
    ∃ found, (outside.files m).read name offset length = .ok found

/-- No short record reaches across the offset. -/
def Clean (file : Bytes) (c : Nat) : Prop :=
  ∀ r ∈ records file, r.short = true → r.start < c → r.stop ≤ c

/-- Before an index that has read the file, a stretch as long as a history page that ends
    between short records and begins inside one holds another one. -/
def Populated (parsers : Parsers) (file : Bytes) : Prop :=
  ∀ origin work, Tracks parsers file origin work → file.length ≤ work.index.nextRead →
    ∀ w, 0 < w → w + maxBatch ≤ work.index.start → Clean file (w + maxBatch) →
      (∃ r ∈ records file, r.short = true ∧ r.start ≤ w ∧ w < r.stop) →
      ∃ s ∈ records file, s.short = true ∧ w < s.start ∧ s.stop ≤ w + maxBatch

/-! ## The client -/

def backQuery (filter : Filter) (session : String) (limit : Nat) (cursor : Option LogCursor) :
    QueryLogs :=
  ⟨session, filter, if cursor.isNone then .latest else .before, cursor, limit⟩

/-- The pages up to the one that has no more before it, newest first. -/
def pageBack (outside : Outside) (key : String) (filter : Filter) (session : String) (limit : Nat) :
    Nat → Option LogCursor → Progress → Option (List LogPage)
  | 0, _, _ => none
  | fuel + 1, cursor, p =>
      match Fallible.run (refreshPage outside key (backQuery filter session limit cursor)) p with
      | some (.ok page, p') =>
          if page.building then pageBack outside key filter session limit fuel cursor p'
          else if page.more then
            (pageBack outside key filter session limit fuel (some page.cursor) p').map (page :: ·)
          else some [page]
      | _ => none

variable {outside : Outside} {key name : String} {identity : String → String} {file : Bytes}
  {filter : Filter} {session generation : String} {limit c : Nat} {p p' : Progress}
  {origin origin' : Nat} {page : LogPage} {query : QueryLogs} {work : Work}

theorem Static.no_fault (static : Static outside key name identity file) (error : LogError) :
    ¬ Fault outside key error := by
  rintro (⟨newest, fails⟩ | ⟨newest, none_⟩ | ⟨named, short, fails⟩)
  · obtain ⟨first, rest, listed⟩ := static.listed newest _
    rw [listed] at fails
    cases fails
  · obtain ⟨first, rest, listed⟩ := static.listed newest _
    rw [listed] at none_
    cases none_
  · obtain ⟨found, reads⟩ := static.answers _ _ _ short
    rw [static.only _ named, reads] at fails
    cases fails

/-! ## Offsets between records -/

theorem clean_record {r : Record} (member : r ∈ records file) : Clean file r.start :=
  fun _ other _ before => (cut_placed file).1.spans.apart other member before

theorem clean_of_cut (behind : (cut file).start ≤ c) : Clean file c := by
  intro r member _ _
  exact ((cut_placed file).1.ended r member).trans behind

variable {stop : Nat}

theorem mem_records_take {r : Record} (member : r ∈ records file) (inside : r.stop ≤ stop)
    : r ∈ records (file.take stop) := by
  by_cases short : stop ≤ file.length
  · obtain ⟨later, split, _, behind⟩ := records_append (file.take stop) (file.drop stop)
    rw [List.take_append_drop] at split
    rw [split] at member
    rcases List.mem_append.mp member with old | new
    · exact old
    · have late := (behind r new).2
      rw [List.length_take_of_le short] at late
      omega
  · rwa [List.take_of_length_le (by omega)]

variable {parsers : Parsers}

/-! ## Pages that go back -/

/-- An index that has no entry saw no short record. -/
theorem Indexes.unseen {origin : Nat} {index : Index}
    (indexes : Indexes parsers file origin stop index) (narrow : stop ≤ origin + maxWindow)
    (empty : index.entries = []) {r : Record} (member : r ∈ records file) (short : r.short = true)
    (inside : r.stop ≤ stop) : origin ≠ 0 ∧ r.start ≤ origin := by
  by_contra seen
  have listed : r ∈ (records (file.take stop)).filter (Record.seenFrom origin) := by
    refine List.mem_filter.mpr ⟨mem_records_take member inside, ?_⟩
    simp only [Record.seenFrom, short, Bool.true_and, Bool.or_eq_true, decide_eq_true_eq]
    omega
  rw [← indexes.reads.lines] at listed
  obtain ⟨line, some_, _⟩ := List.mem_map.mp listed
  exact indexes.keeps_last narrow (List.ne_nil_of_mem some_) empty

/-- Where an empty stretch of history begins, no short record was cut. -/
theorem Populated.empty (populated : Populated parsers file)
    (tracks : Tracks parsers file origin work) (reached : file.length ≤ work.index.nextRead)
    (before : stop ≤ work.index.start) {w : Nat} (begins : w = stop - maxBatch)
    {index : Index} (indexes : Indexes parsers file w stop index) (empty : index.entries = [])
    (clean : Clean file stop) : Clean file w ∧ recordsFrom file w stop = [] := by
  have narrow : stop ≤ w + maxWindow := by
    have batch : maxBatch ≤ maxWindow := by decide
    omega
  have unseen : ∀ r ∈ records file, r.short = true → r.stop ≤ stop → w ≠ 0 ∧ r.start ≤ w :=
    fun r member short inside => indexes.unseen narrow empty member short inside
  -- A record that the stretch begins inside of would have another one behind it.
  have apart : ∀ r ∈ records file, r.short = true → r.start ≤ w → w ≠ 0 → r.stop ≤ w := by
    intro r member short begun nonzero
    by_contra across
    have whole : w + maxBatch = stop := by omega
    rw [← whole] at before clean unseen
    obtain ⟨s, member', short', after, ended⟩ := populated _ _ tracks reached w
      (Nat.pos_of_ne_zero nonzero) before clean ⟨r, member, short, begun, by omega⟩
    have early := unseen s member' short' ended
    omega
  constructor
  · intro r member short before
    exact apart r member short before.le (by omega)
  · rw [List.eq_nil_iff_forall_not_mem]
    intro r member
    obtain ⟨listed, begun, before⟩ := mem_between.mp member
    obtain ⟨member, short⟩ := List.mem_filter.mp listed
    have proper := (cut_placed file).1.spans.proper r member
    have seen := unseen r member short (clean r member short before)
    have ended := apart r member short seen.2 seen.1
    omega

/-- A page that goes back, from the offset `near` to the offset `far`. -/
structure Backward (outside : Outside) (file : Bytes) (work : Work) (filter : Filter)
    (page : LogPage) (near far : Nat) (lines : List Line) : Prop where
  cursor : page.cursor = Refresh.cursor work far
  clean : Clean file far
  delivers : Delivers outside.parsers work.generation file filter far near lines page.rows
  more : page.more = true → 0 < far
  ends : page.more = false → far = 0

variable {offset : Option Nat} {index : Index} {oldest near far : Nat} {taken : List Entry}

/-- An entry of an index is a record of the file. -/
theorem Indexes.clean_entry {origin : Nat} (indexes : Indexes parsers file origin stop index)
    {entry : Entry} (member : entry ∈ index.entries) : Clean file entry.start := by
  have listed := List.mem_map_of_mem (f := Line.record) (indexes.mem_lines member)
  rw [indexes.reads.lines] at listed
  have recorded := List.mem_of_mem_filter listed
  obtain ⟨later, split, _⟩ := records_append (file.take stop) (file.drop stop)
  rw [List.take_append_drop] at split
  exact clean_record (split ▸ List.mem_append_left later recorded)

namespace Refresh

theorem Answered.backward {origin : Nat} (indexes : Indexes outside.parsers file origin stop index)
    (answered : Answered outside work file index filter true index.start near far taken page)
    (first : index.start ≤ near)
    (last : ∀ r ∈ records file, r.short = true → r.start < near → r.stop ≤ stop)
    (clean : Clean file index.start) :
    Backward outside file work filter page near far (between Line.start far near index.lines) ∧
      far ≤ near ∧ (index.start < near → far < near) := by
  have bound : index.start ≤ far ∧ far ≤ near ∧ (index.start < near → far < near) ∧
      Clean file far ∧ (page.more = true → 0 < far) ∧ (page.more = false → far = 0) := by
    rcases answered.ends with ⟨more, far_⟩ | ⟨more, left, entry, member, far_⟩
    · simp only [Bool.true_and] at more
      simp only [if_true] at far_
      subst far_
      refine ⟨le_rfl, first, id, clean, ?_, ?_⟩
      · intro some_
        rw [more, decide_eq_true_iff] at some_
        exact some_
      · intro none_
        rw [more, decide_eq_false_iff_not] at none_
        omega
    · have inside := mem_side member
      have beyond := indexes.orderly.spans.beyond_edge member
      simp only [Beyond, edge, if_true] at beyond far_
      have begun := Index.start_le_of_mem indexes.orderly.spans inside
      obtain ⟨other, before⟩ := List.exists_mem_of_ne_nil _ left
      simp only [side, if_true, List.mem_reverse, List.mem_filter, decide_eq_true_eq] at before
      subst far_
      exact ⟨begun, beyond.le, fun _ => beyond, indexes.clean_entry inside, fun _ => by omega,
        by simp [more]⟩
  obtain ⟨begun, order, closer, clean', more, ends⟩ := bound
  have delivers := answered.delivers indexes rfl rfl order begun
    (fun r member short _ before => last r member short before)
  exact ⟨⟨answered.cursor, clean', delivers, more, ends⟩, order, closer⟩

/-- A stretch of history without a short record is passed over. -/
theorem Answered.backward_empty {w : Nat} (empty : index.entries = [])
    (answered : Answered outside work file index filter true w near far taken page)
    (clean : Clean file w) (order : w ≤ near) (none_ : recordsFrom file w near = []) :
    Backward outside file work filter page near far [] ∧ far = w := by
  rcases answered.ends with ⟨more, far_⟩ | ⟨_, _, entry, member, _⟩
  · simp only [Bool.true_and] at more
    simp only [if_true] at far_
    subst far_
    have nothing : taken = [] := by
      have found := answered.found
      simp only [Index.matching, empty, List.filter_nil, side, List.reverse_nil, if_true] at found
      exact (List.append_eq_nil_iff.mp found.symm).1
    have rows : page.rows = [] := by
      rw [answered.rows, nothing]
      rfl
    refine ⟨⟨answered.cursor, clean, ⟨order, none_.symm, by simp, by rw [rows]; rfl⟩, ?_, ?_⟩, rfl⟩
    · intro some_
      rw [more, decide_eq_true_iff] at some_
      exact some_
    · intro done
      rw [more, decide_eq_false_iff_not] at done
      omega
  · have inside := mem_side member
    rw [empty] at inside
    cases inside

end Refresh

/-! ## An index that has read the file -/

structure Caught (outside : Outside) (key : String) (identity : String → String) (file : Bytes)
    (generation : String) (origin : Nat) (p : Progress) : Prop where
  tracks : Tracks outside.parsers file origin p.work
  settled : Refresh.Settled outside key identity p.work
  issued : p.work.generation = generation
  made : ∃ m, generation = outside.uuid m
  reached : file.length ≤ p.work.index.nextRead

namespace Caught

variable (caught : Caught outside key identity file generation origin p)

include caught

theorem standing : Standing outside (fun _ _ => file) p := by
  obtain ⟨m, made⟩ := caught.made
  exact ⟨⟨origin, caught.tracks⟩, m, caught.issued.trans made⟩

theorem nextRead : p.work.index.nextRead = file.length :=
  Nat.le_antisymm caught.tracks.reached caught.reached

theorem committed : p.work.index.committed = max origin (cut file).start := by
  rw [caught.tracks.indexes.committed, List.take_of_length_le caught.reached]

/-- Every record lies before the committed offset. -/
theorem cut_le : (cut file).start ≤ p.work.index.committed := by
  rw [caught.committed]
  exact le_max_right _ _

theorem clean_start : Clean file p.work.index.start := by
  cases entries : p.work.index.entries with
  | nil =>
      apply clean_of_cut
      simpa [Index.start, entries] using caught.cut_le
  | cons first rest =>
      have clean := caught.tracks.indexes.clean_entry
        (show first ∈ p.work.index.entries by simp [entries])
      simpa [Index.start, entries] using clean

/-- A page that the index answers for itself or from the history before it. -/
theorem backward (populated : Populated outside.parsers file) (back : query.direction ≠ .after)
    (page_ : Refresh.Page outside p.work file query offset page)
    (near_ : near = offset.getD p.work.index.committed)
    (given : ∀ c, offset = some c → query.direction = .before ∧ 0 < c ∧ Clean file c) :
    ∃ far lines, Backward outside file p.work query.filter page near far lines ∧ far ≤ near ∧
      (offset.isSome → far < near) := by
  obtain ⟨index, oldest, far, taken, sourced, answered⟩ := page_
  simp only [back, ne_eq, not_false_eq_true, decide_true, Bool.not_true] at answered
  cases sourced with
  | live recent =>
      have near' : offset.getD (p.work.index.farEnd false) = near := near_.symm
      rw [near'] at answered
      have first : p.work.index.start ≤ near ∧ (offset.isSome → p.work.index.start < near) := by
        cases offset with
        | none =>
            rw [near_]
            exact ⟨caught.tracks.indexes.start_le.1, by simp⟩
        | some c =>
            obtain ⟨before, positive, _⟩ := given c rfl
            simp only [Refresh.pastEnd, before, true_and] at recent
            split at recent
            · cases recent
            · rw [near_, Option.getD_some]
              exact ⟨by omega, fun _ => by omega⟩
      obtain ⟨backward, order, closer⟩ := answered.backward caught.tracks.indexes first.1
        (fun r member _ _ => (record_stop_le member).trans caught.nextRead.ge) caught.clean_start
      exact ⟨far, _, backward, order, fun some_ => closer (first.2 some_)⟩
  | @past stop _ old indexes =>
      obtain ⟨_, rfl, positive, before⟩ := Refresh.pastEnd_le old
      obtain ⟨_, _, clean⟩ := given stop rfl
      rw [Option.getD_some] at near_ answered
      subst near_
      cases empty : index.entries with
      | nil =>
          simp only [empty, List.isEmpty_nil, if_true] at answered
          obtain ⟨clean', none_⟩ := populated.empty caught.tracks caught.reached before rfl indexes
            empty clean
          obtain ⟨backward, far_⟩ := answered.backward_empty empty clean' (Nat.sub_le _ _) none_
          have batch : 0 < maxBatch := by decide
          exact ⟨far, [], backward, by omega, fun _ => by omega⟩
      | cons first rest =>
          simp only [empty, List.isEmpty_cons, Bool.false_eq_true, if_false] at answered
          have member : first ∈ index.entries := by simp [empty]
          have start : index.start = first.start := by simp [Index.start, empty]
          have inside := (indexes.stop_le_committed member).trans indexes.start_le.2
          have proper := indexes.orderly.spans.proper first member
          obtain ⟨backward, order, closer⟩ := answered.backward indexes (by omega)
            (fun r member short before => clean r member short before)
            (start ▸ indexes.clean_entry member)
          exact ⟨far, _, backward, order, fun _ => closer (by omega)⟩

end Caught

/-- A refresh goes on with an index that has read the file. -/
theorem Caught.next (caught : Caught outside key identity file generation origin p)
    {r : Except LogError LogPage}
    (refreshed : Refresh.Refreshed outside key identity (fun _ _ => file) p origin query r p' origin') :
    Caught outside key identity file generation origin p' ∧
      ∀ page, r = .ok page → page.building = false := by
  have stays := refreshed.continues.resolve_right fun restarts => restarts.1 caught.settled
  have tracks : Tracks outside.parsers file origin p'.work := stays.origin ▸ refreshed.tracks
  refine ⟨⟨tracks, ?_, stays.generation.trans caught.issued, caught.made, ?_⟩, ?_⟩
  · rw [Refresh.Settled, stays.identity, stays.name]
    exact caught.settled
  · exact caught.reached.trans ((Nat.le_add_right _ _).trans stays.reached)
  · intro page same
    by_contra building
    have gains := (refreshed.builds page same (by simpa using building)).resolve_right
      fun restarts => restarts.1 caught.settled
    have more := gains.reached
    have inside := tracks.reached
    have reached := caught.reached
    have batch : 0 < maxBatch := by decide
    omega

/-! ## The whole history -/

/-- An offset inside the file is one that a cursor can carry. -/
theorem Static.fits (static : Static outside key name identity file)
    (caught : Caught outside key identity file generation origin p)
    (inside : c ≤ p.work.index.committed) : c < 2 ^ 64 := by
  have bound := caught.tracks.indexes.start_le.2
  rw [caught.nextRead] at bound
  exact (inside.trans bound).trans_lt (static.truthful.fits 0 name)

namespace Static

variable (static : Static outside key name identity file) (sane : Sane outside)
  (populated : Populated outside.parsers file)

include static sane populated

/-- A page of an index that has read the file. -/
theorem page_before (filter : Filter) (session : String) (limit : Nat)
    (caught : Caught outside key identity file generation origin p) (positive : 0 < c)
    (inside : c ≤ p.work.index.committed) (clean : Clean file c) :
    ∃ page p' far lines, Fallible.run (refreshPage outside key
        (backQuery filter session limit (some (Refresh.cursor p.work c)))) p = some (.ok page, p') ∧
      page.building = false ∧ Caught outside key identity file generation origin p' ∧
      Backward outside file p'.work filter page c far lines ∧ far < c := by
  obtain ⟨m, made⟩ := caught.standing.made
  obtain ⟨r, p', runs, origin', refreshed⟩ := Refresh.ends_refreshPage static.truthful sane
    caught.tracks (made ▸ sane.short m)
    (backQuery filter session limit (some (Refresh.cursor p.work c)))
  obtain ⟨caught', built⟩ := caught.next refreshed
  have parses := Refresh.parse_cursor p.work (static.fits caught inside)
  have inside' : c ≤ p'.work.index.committed := by
    rw [caught'.committed, ← caught.committed]
    exact inside
  have located : locate p'.work (backQuery filter session limit (some (Refresh.cursor p.work c))) =
      .ok (some c) := by
    refine Refresh.locate_accepts _ rfl parses (caught.issued.trans caught'.issued.symm) ?_ inside'
    intro after
    cases after
  cases r with
  | error error =>
      rcases refreshed.fails error rfl with fault | ⟨refused, _⟩
      · exact absurd fault (static.no_fault error)
      · rw [located] at refused
        cases refused
  | ok page =>
      obtain ⟨_, m, offset, _, _, located', _, page_⟩ := refreshed.shows page rfl (built page rfl)
      rw [located] at located'
      cases located'
      obtain ⟨far, lines, backward, _, closer⟩ := caught'.backward populated (by simp [backQuery])
        page_ rfl (by
          rintro d same
          cases same
          exact ⟨rfl, positive, clean⟩)
      exact ⟨page, p', far, lines, runs, built page rfl, caught', backward, closer rfl⟩

/-- The first page, as soon as the index has read the file. -/
theorem page_latest (filter : Filter) (session : String) (limit : Nat)
    (standing : Standing outside (fun _ _ => file) p) :
    ∃ page p', Fallible.run (refreshPage outside key (backQuery filter session limit none)) p =
        some (.ok page, p') ∧ Standing outside (fun _ _ => file) p' ∧
      Refresh.Settled outside key identity p'.work ∧
      (page.building = true → (Refresh.Settled outside key identity p.work →
          p.work.index.nextRead + maxBatch ≤ p'.work.index.nextRead)) ∧
      (page.building = false → ∃ generation origin far lines,
        Caught outside key identity file generation origin p' ∧
        Backward outside file p'.work filter page p'.work.index.committed far lines ∧
        far ≤ p'.work.index.committed) := by
  obtain ⟨r, p', origin, origin', runs, refreshed, standing'⟩ :=
    Refresh.refreshes static.truthful sane standing (backQuery filter session limit none)
  cases r with
  | error error =>
      rcases refreshed.fails error rfl with fault | ⟨refused, _⟩
      · exact absurd fault (static.no_fault error)
      · cases refused
  | ok page =>
      obtain ⟨_, same, named⟩ := refreshed.answers page rfl
      have settled : Refresh.Settled outside key identity p'.work :=
        ⟨same, fun other asked => (static.only other asked).trans (static.only _ named).symm⟩
      refine ⟨page, p', runs, standing', settled, ?_, ?_⟩
      · intro building settled₀
        exact ((refreshed.builds page rfl building).resolve_right
          fun restarts => restarts.1 settled₀).reached
      · intro built
        obtain ⟨reached, m, offset, _, _, located, _, page_⟩ := refreshed.shows page rfl built
        cases located
        have caught : Caught outside key identity file p'.work.generation origin' p' :=
          ⟨refreshed.tracks, settled, rfl, standing'.made, reached⟩
        obtain ⟨far, lines, backward, order, _⟩ := caught.backward populated
          (by simp [backQuery]) page_ rfl (by simp)
        exact ⟨_, _, far, lines, caught, backward, order⟩

end Static

/-- The pages of a walk back from the offset `upto`. -/
structure History (outside : Outside) (file : Bytes) (filter : Filter) (generation : String)
    (upto : Nat) (pages : List LogPage) (lines : List Line) (offsets : List Nat) : Prop where
  delivers : Delivers outside.parsers generation file filter 0 upto lines
    (pages.reverse.flatMap LogPage.rows)
  cursors : pages.map (fun page => parseU64 page.cursor.offset.toList) = offsets.map some
  decreasing : offsets.Pairwise fun a b => b < a

variable {pages : List LogPage} {lines lines' : List Line} {offsets : List Nat} {upto : Nat}

theorem Backward.last (backward : Backward outside file work filter page upto far lines)
    (fits : far < 2 ^ 64) (done : page.more = false) :
    History outside file filter work.generation upto [page] lines [far] where
  delivers := by
    have delivers := backward.delivers
    rw [backward.ends done] at delivers
    simpa using delivers
  cursors := by
    simp [backward.cursor, Refresh.parse_cursor work fits]
  decreasing := List.pairwise_singleton _ _

theorem Backward.before (backward : Backward outside file work filter page upto far lines)
    (fits : far < 2 ^ 64) (history : History outside file filter work.generation far pages lines' offsets)
    (further : ∀ o ∈ offsets, o < far) :
    History outside file filter work.generation upto (page :: pages) (lines' ++ lines)
      (far :: offsets) where
  delivers := by
    rw [List.reverse_cons, List.flatMap_append]
    exact history.delivers.append (by simpa using backward.delivers)
  cursors := by
    rw [List.map_cons, List.map_cons, history.cursors, backward.cursor,
      Refresh.parse_cursor work fits]
  decreasing := List.pairwise_cons.mpr ⟨further, history.decreasing⟩

namespace Static

variable (static : Static outside key name identity file) (sane : Sane outside)
  (populated : Populated outside.parsers file)

include static sane populated

theorem pages_before (filter : Filter) (session : String) (limit : Nat)
    (caught : Caught outside key identity file generation origin p) (positive : 0 < c)
    (inside : c ≤ p.work.index.committed) (clean : Clean file c) :
    ∃ pages lines offsets, (∀ fuel, c < fuel → pageBack outside key filter session limit fuel
        (some (Refresh.cursor p.work c)) p = some pages) ∧
      History outside file filter generation c pages lines offsets ∧ ∀ o ∈ offsets, o < c := by
  induction c using Nat.strong_induction_on generalizing p with
  | _ c ih =>
      obtain ⟨page, p', far, lines, runs, built, caught', backward, closer⟩ :=
        static.page_before sane populated filter session limit caught positive inside clean
      have same : p'.work.index.committed = p.work.index.committed :=
        caught'.committed.trans caught.committed.symm
      have fits := static.fits caught (closer.le.trans inside)
      cases more : page.more with
      | false =>
          have history := backward.last fits more
          rw [caught'.issued] at history
          refine ⟨[page], lines, [far], ?_, history, by simpa using closer⟩
          intro fuel enough
          obtain ⟨fuel, rfl⟩ := Nat.exists_eq_succ_of_ne_zero (by omega : fuel ≠ 0)
          simp [pageBack, runs, built, more]
      | true =>
          obtain ⟨pages, lines', offsets, rest, history, further⟩ := ih far closer caught'
            (backward.more more) (by omega) backward.clean
          rw [← caught'.issued] at history
          have history' := backward.before fits history further
          rw [caught'.issued] at history'
          refine ⟨page :: pages, lines' ++ lines, far :: offsets, ?_, history', ?_⟩
          · intro fuel enough
            obtain ⟨fuel, rfl⟩ := Nat.exists_eq_succ_of_ne_zero (by omega : fuel ≠ 0)
            simp [pageBack, runs, built, more, backward.cursor, rest fuel (by omega)]
          · intro o member
            rcases List.mem_cons.mp member with rfl | later
            · exact closer
            · exact (further o later).trans closer

/-- The first page that is not building and all pages before it. -/
theorem pages_built (caught : Caught outside key identity file generation origin p)
    (backward : Backward outside file p.work filter page p.work.index.committed far lines)
    (order : far ≤ p.work.index.committed) (session : String) (limit : Nat) :
    ∃ pages lines offsets, (∀ fuel, far < fuel → (if page.more then
          (pageBack outside key filter session limit fuel (some page.cursor) p).map (page :: ·)
        else some [page]) = some pages) ∧
      History outside file filter generation p.work.index.committed pages lines offsets := by
  have fits := static.fits caught order
  cases more : page.more with
  | false =>
      have history := backward.last fits more
      rw [caught.issued] at history
      exact ⟨[page], lines, [far], by simp, history⟩
  | true =>
      obtain ⟨pages, lines', offsets, rest, history, further⟩ := static.pages_before sane populated
        filter session limit caught (backward.more more) order backward.clean
      rw [← caught.issued] at history
      have history' := backward.before fits history further
      rw [caught.issued] at history'
      refine ⟨page :: pages, lines' ++ lines, far :: offsets, ?_, history'⟩
      intro fuel enough
      simp [backward.cursor, rest fuel enough]

/-- With enough asking the walk ends, and has everything. -/
def WalksBack (outside : Outside) (key : String) (file : Bytes) (filter : Filter) (session : String)
    (limit : Nat) (p : Progress) : Prop :=
  ∃ bound generation upto pages lines offsets, (∀ fuel, bound ≤ fuel →
      pageBack outside key filter session limit fuel none p = some pages) ∧
    (cut file).start ≤ upto ∧ History outside file filter generation upto pages lines offsets

/-- One answer starts the walk, or moves the index on by a batch. -/
theorem walk_step (filter : Filter) (session : String) (limit : Nat)
    (standing : Standing outside (fun _ _ => file) p) :
    WalksBack outside key file filter session limit p ∨
      ∃ p', Standing outside (fun _ _ => file) p' ∧ Refresh.Settled outside key identity p'.work ∧
        (Refresh.Settled outside key identity p.work →
          p.work.index.nextRead + maxBatch ≤ p'.work.index.nextRead) ∧
        (WalksBack outside key file filter session limit p' →
          WalksBack outside key file filter session limit p) := by
  obtain ⟨page, p', runs, standing', settled, gains, shows⟩ :=
    static.page_latest sane populated filter session limit standing
  cases built : page.building with
  | false =>
      obtain ⟨generation, origin, far, lines, caught, backward, order⟩ := shows built
      obtain ⟨pages, lines', offsets, rest, history⟩ :=
        static.pages_built sane populated caught backward order session limit
      refine .inl ⟨far + 2, generation, _, pages, lines', offsets, ?_, caught.cut_le, history⟩
      intro fuel enough
      obtain ⟨fuel, rfl⟩ := Nat.exists_eq_succ_of_ne_zero (by omega : fuel ≠ 0)
      simpa [pageBack, runs, built] using rest fuel (by omega)
  | true =>
      refine .inr ⟨p', standing', settled, gains built, ?_⟩
      rintro ⟨bound, generation, upto, pages, lines, offsets, rest, all, history⟩
      refine ⟨bound + 1, generation, upto, pages, lines, offsets, ?_, all, history⟩
      intro fuel enough
      obtain ⟨fuel, rfl⟩ := Nat.exists_eq_succ_of_ne_zero (by omega : fuel ≠ 0)
      simpa [pageBack, runs, built] using rest fuel (by omega)

theorem walk_settled (filter : Filter) (session : String) (limit : Nat)
    (standing : Standing outside (fun _ _ => file) p)
    (settled : Refresh.Settled outside key identity p.work) :
    WalksBack outside key file filter session limit p := by
  -- The bytes that the index has not read decrease.
  induction left : file.length - p.work.index.nextRead using Nat.strong_induction_on
    generalizing p with
  | _ n ih =>
      rcases static.walk_step sane populated filter session limit standing with
        walks | ⟨p', standing', settled', gains, retry⟩
      · exact walks
      · obtain ⟨origin, tracks⟩ := standing'.tracks
        have inside : p'.work.index.nextRead ≤ file.length := tracks.reached
        have more := gains settled
        have batch : 0 < maxBatch := by decide
        exact retry (ih _ (by omega) standing' settled' rfl)

theorem walks_back (filter : Filter) (session : String) (limit : Nat)
    (standing : Standing outside (fun _ _ => file) p) :
    WalksBack outside key file filter session limit p := by
  rcases static.walk_step sane populated filter session limit standing with
    walks | ⟨p', standing', settled', _, retry⟩
  · exact walks
  · exact retry (static.walk_settled sane populated filter session limit standing' settled')

end Static

/-- Behind the last complete record there is no other. -/
theorem recordsFrom_all (all : (cut file).start ≤ upto) :
    recordsFrom file 0 upto = (records file).filter Record.short := by
  rw [recordsFrom, between, List.filter_eq_self]
  intro r member
  have listed := List.mem_of_mem_filter member
  have ended := (cut_placed file).1.ended r listed
  have proper := (cut_placed file).1.spans.proper r listed
  simp only [Nat.zero_le, decide_true, Bool.true_and, decide_eq_true_eq]
  omega

/-- Paging back from the latest page ends, and the pages together have the rows of the
    short records that match, in the order of the file and each once. -/
theorem paging_back_complete (static : Static outside key name identity file) (sane : Sane outside)
    (populated : Populated outside.parsers file) (reached : Reached outside key p) (filter : Filter)
    (session : String) (limit : Nat) :
    ∃ (bound : Nat) (generation : String) (pages : List LogPage) (lines : List Line)
      (offsets : List Nat), (∀ fuel, bound ≤ fuel →
        pageBack outside key filter session limit fuel none p = some pages) ∧
      lines.map Line.record = (records file).filter Record.short ∧
      (∀ line ∈ lines, Kept outside.parsers file line) ∧
      pages.reverse.flatMap LogPage.rows =
        (lines.filter (filter.admits outside.parsers file)).map
          (Line.row outside.parsers generation file) ∧
      pages.map (fun page => parseU64 page.cursor.offset.toList) = offsets.map some ∧
      offsets.Pairwise fun a b => b < a := by
  obtain ⟨bound, generation, upto, pages, lines, offsets, walks, all, history⟩ :=
    static.walks_back sane populated filter session limit (reached.standing static.truthful sane)
  have delivers := history.delivers
  exact ⟨bound, generation, pages, lines, offsets, walks,
    delivers.records.trans (recordsFrom_all all), delivers.kept, delivers.rows, history.cursors,
    history.decreasing⟩

/-! ## A file that is longer than the window -/

theorem shelved_static (fits : file.length < 2 ^ 64) :
    Static (shelved parsers file file) logName logName (fun _ => "7") file where
  truthful := by
    have content : (fun _ _ => file) = shelfContent file file := by
      funext m name
      simp [shelfContent, diskContent, shelfAt, shelf]
    rw [content]
    exact shelved_truthful logName (List.prefix_refl file) fits
  only := fun _ named => shelved_named.mp named
  listed := fun newest => absurd newest (by decide)
  answers := fun m offset _ short => shelved_reads m offset short

/-- Lines of two letters. -/
def pairs : Nat → Bytes
  | 0 => []
  | n + 1 => pairs n ++ [97] ++ [97] ++ [newline]

theorem cut_pairs (n : Nat) : cut (pairs n) =
    ⟨(List.range n).map fun k => ⟨3 * k, 3 * k + 3⟩, 3 * n, 3 * n⟩ := by
  induction n with
  | zero => rfl
  | succ n ih =>
      have letter : (97 : UInt8) ≠ newline := by decide
      rw [pairs, cut_concat, cut_concat, cut_concat, ih]
      simp [Cut.feed, letter, List.range_succ, Nat.mul_add]

theorem length_pairs (n : Nat) : (pairs n).length = 3 * n := by
  rw [← (cut_placed (pairs n)).2, cut_pairs]

/-- The history pages begin inside lines, and hold others. -/
theorem populated_pairs (parsers : Parsers) (n : Nat) : Populated parsers (pairs n) := by
  intro origin work tracks _ w _ before _ _
  have inside : work.index.start ≤ 3 * n := by
    rw [← length_pairs n]
    exact (tracks.indexes.start_le.1.trans tracks.indexes.start_le.2).trans tracks.reached
  have batch : 6 ≤ maxBatch := by decide
  refine ⟨⟨3 * (w / 3 + 1), 3 * (w / 3 + 1) + 3⟩, ?_, ?_, by dsimp only; omega, by dsimp only; omega⟩
  · rw [records, cut_pairs]
    exact List.mem_map.mpr ⟨w / 3 + 1, List.mem_range.mpr (by omega), rfl⟩
  · simp [Record.short, maxLine]

/-- The window of the index and one history page do not reach back to the beginning. -/
theorem paging_back_complete_history : maxWindow + maxBatch < (pairs 12000000).length ∧
    ∃ (bound : Nat) (generation : String) (pages : List LogPage) (lines : List Line)
      (offsets : List Nat), (∀ fuel, bound ≤ fuel →
        pageBack (shelved longParsers (pairs 12000000) (pairs 12000000)) logName .default "s" 200
          fuel none ⟨.new "h", 1⟩ = some pages) ∧
      lines.map Line.record = (records (pairs 12000000)).filter Record.short ∧
      (∀ line ∈ lines, Kept longParsers (pairs 12000000) line) ∧
      pages.reverse.flatMap LogPage.rows =
        (lines.filter (Filter.default.admits longParsers (pairs 12000000))).map
          (Line.row longParsers generation (pairs 12000000)) ∧
      pages.map (fun page => parseU64 page.cursor.offset.toList) = offsets.map some ∧
      offsets.Pairwise fun a b => b < a := by
  have fits : (pairs 12000000).length < 2 ^ 64 := by
    rw [length_pairs]
    decide
  refine ⟨?_, paging_back_complete (shelved_static fits) (shelved_sane fun _ => rfl)
    (populated_pairs _ _) (.new 0) .default "s" 200⟩
  rw [length_pairs]
  decide

/-! ## A file with one line -/

theorem longShelf_static : Static (longShelf (longLine ++ [newline])) logName logName (fun _ => "7")
    (longLine ++ [newline]) := by
  apply shelved_static
  rw [length_longFile]
  decide

theorem longFile_populated : Populated longParsers (longLine ++ [newline]) := by
  intro origin work tracks _ w _ before
  have inside := (tracks.indexes.start_le.1.trans tracks.indexes.start_le.2).trans tracks.reached
  rw [length_longFile] at inside
  exact absurd (((Nat.le_add_left _ _).trans before).trans inside) (by decide)

/-- The only line has the text that is looked for in its target, and no page shows it. -/
theorem paging_back_misses_long_target :
    (∃ bound pages, (∀ fuel, bound ≤ fuel →
        pageBack (longShelf (longLine ++ [newline])) logName longFilter "s" 1 fuel none
          ⟨.new "h", 1⟩ = some pages) ∧ pages.reverse.flatMap LogPage.rows = []) ∧
    records (longLine ++ [newline]) = [⟨0, 4136⟩] ∧ (⟨0, 4136⟩ : Record).short = true ∧
    longParsers.object longLine = some ⟨none, none, some longTarget⟩ ∧
    contains longTarget "aa" = true := by
  refine ⟨?_, records_longFile, by decide, rfl, contains_replicate 4095⟩
  have reached : Reached (longShelf (longLine ++ [newline])) logName ⟨.new "h", 1⟩ := .new 0
  obtain ⟨bound, _, _, pages, _, _, walks, _, history⟩ := longShelf_static.walks_back
    (longShelf_sane _) longFile_populated longFilter "s" 1
    (reached.standing longShelf_static.truthful (longShelf_sane _))
  exact ⟨bound, pages, walks, history.delivers.none_long⟩

end Logging

end Nyanpasu
