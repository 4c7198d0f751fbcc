import Nyanpasu.Guarantees.LogIndex
import Nyanpasu.Logging.Coverage

/-! # Following a log forward

A client asks again and again for what comes after its cursor, while the file grows,
other clients move the index on and the index evicts or is built anew.  What the client
has received is what the file has between its first cursor and its last one.
-/

namespace Nyanpasu

namespace Logging

open Fallible
open Naming (parseU64)
open Index (newline)
open Refresh (refreshPage locate)

/-! ## Reachable work -/

/-- Work that a slot may hold: new, or as a refresh has left it. -/
inductive Reached (outside : Outside) (key : String) : Progress → Prop where
  | new (m : Nat) : Reached outside key ⟨.new (outside.uuid m), m + 1⟩
  | refresh {p p' : Progress} {query : QueryLogs} {r : Except LogError LogPage}
      (reached : Reached outside key p)
      (runs : Fallible.run (refreshPage outside key query) p = some (r, p')) :
      Reached outside key p'

structure Standing (outside : Outside) (content : Nat → String → Bytes) (p : Progress) : Prop where
  tracks : ∃ origin, Tracks outside.parsers (heldAt content p.moment p.work.name) origin p.work
  made : ∃ m, p.work.generation = outside.uuid m

variable {outside : Outside} {p p' : Progress} {key : String} {identity : String → String}
  {content : Nat → String → Bytes} {query : QueryLogs} {r : Except LogError LogPage}
  {page : LogPage} {origin origin' c d e : Nat} {filter : Filter} {generation : String}

theorem standing_new (outside : Outside) (content : Nat → String → Bytes) (m : Nat) :
    Standing outside content ⟨.new (outside.uuid m), m + 1⟩ :=
  ⟨⟨0, tracks_new outside.parsers (Nat.zero_le _) (.inl rfl) "" "" _⟩, m, rfl⟩

namespace Refresh

theorem Refreshed.made (refreshed : Refreshed outside key identity content p origin query r p' origin')
    (made : ∃ m, p.work.generation = outside.uuid m) :
    ∃ m, p'.work.generation = outside.uuid m := by
  rcases refreshed.continues with stays | ⟨_, restarts⟩
  · rw [stays.generation]
    exact made
  · obtain ⟨m, _, _, fresh⟩ := restarts.generation
    exact ⟨m, fresh⟩

/-- A refresh of reachable work ends without a panic. -/
theorem refreshes (truthful : Truthful outside key identity content) (sane : Sane outside)
    (standing : Standing outside content p) (query : QueryLogs) : ∃ r p' origin origin',
      Fallible.run (refreshPage outside key query) p = some (r, p') ∧
      Refreshed outside key identity content p origin query r p' origin' ∧
      Standing outside content p' := by
  obtain ⟨origin, tracks⟩ := standing.tracks
  obtain ⟨m, made⟩ := standing.made
  obtain ⟨r, p', runs, origin', refreshed⟩ :=
    ends_refreshPage truthful sane tracks (made ▸ sane.short m) query
  exact ⟨r, p', origin, origin', runs, refreshed, ⟨origin', refreshed.tracks⟩,
    refreshed.made standing.made⟩

end Refresh

theorem Reached.standing (truthful : Truthful outside key identity content) (sane : Sane outside)
    (reached : Reached outside key p) : Standing outside content p := by
  induction reached with
  | new m => exact standing_new outside content m
  | refresh _ runs ih =>
      obtain ⟨r, p', _, _, runs', _, standing⟩ := Refresh.refreshes truthful sane ih _
      rw [runs] at runs'
      cases runs'
      exact standing

variable {work : Work}

/-! ## Pages that go forward -/

namespace Refresh

theorem locate_ok {cursor : LogCursor} {offset : Option Nat}
    (located : locate work query = .ok offset) (given : query.cursor = some cursor)
    (parses : parseU64 cursor.offset.toList = some d) :
    offset = some d ∧ cursor.generation = work.generation ∧
      (query.direction = .after → work.index.start ≤ d) ∧ d ≤ work.index.committed := by
  simp only [locate, given, parses] at located
  split at located
  · cases located
  · next accepted =>
      cases located
      simp only [not_or, not_and, not_lt, not_not] at accepted
      exact ⟨rfl, accepted.1, accepted.2.1, accepted.2.2⟩

theorem locate_accepts {cursor : LogCursor} (query : QueryLogs) (given : query.cursor = some cursor)
    (parses : parseU64 cursor.offset.toList = some d) (same : cursor.generation = work.generation)
    (first : query.direction = .after → work.index.start ≤ d) (last : d ≤ work.index.committed) :
    locate work query = .ok (some d) := by
  simp only [locate, given, parses]
  rw [if_neg]
  simp only [not_or, not_and, not_lt, not_not]
  exact ⟨same, first, last⟩

theorem locate_error {cursor : LogCursor} {error : LogError}
    (located : locate work query = .error error) (given : query.cursor = some cursor)
    (parses : parseU64 cursor.offset.toList = some d) : error = .cursorReset := by
  simp only [locate, given, parses] at located
  split at located
  · cases located
    rfl
  · cases located

theorem parse_cursor (work : Work) {offset : Nat} (fits : offset < 2 ^ 64) :
    parseU64 (cursor work offset).offset.toList = some offset := by
  rw [cursor, decimalText, String.toList_ofList]
  exact Naming.parseU64_decimal fits

/-- A page that goes forward, from the offset `d` to the offset `e`. -/
structure Forward (outside : Outside) (content : Nat → String → Bytes) (p p' : Progress)
    (filter : Filter) (page : LogPage) (d e : Nat) (lines : List Line) : Prop where
  cursor : page.cursor = cursor p'.work e
  fits : e < 2 ^ 64
  settled : d = e ∨ e ≤ (cut (heldAt content p'.moment p'.work.name)).start
  delivers : Delivers outside.parsers p'.work.generation (heldAt content p'.moment p'.work.name)
    filter d e lines page.rows
  advances : page.more = true → d < e
  caughtUp : page.more = false → ∀ r ∈ records (heldAt content p.moment p'.work.name), r.stop ≤ e

theorem forward_page (truthful : Truthful outside key identity content)
    (refreshed : Refreshed outside key identity content p origin query (.ok page) p' origin')
    (after : query.direction = .after) {cursor : LogCursor} (given : query.cursor = some cursor)
    (parses : parseU64 cursor.offset.toList = some d) (built : page.building = false) :
    cursor.generation = p'.work.generation ∧
      ∃ e lines, Forward outside content p p' query.filter page d e lines := by
  obtain ⟨reached, m, offset, early, late, located, tracks, page_⟩ := refreshed.shows page rfl built
  obtain ⟨rfl, same, first, last⟩ := locate_ok located given parses
  obtain ⟨index, oldest, far, taken, sourced, answered⟩ := page_
  have grown := truthful.heldAt_le p'.work.name late
  have indexes := tracks.indexes
  cases sourced with
  | past old _ =>
      have backward := (pastEnd_le old).1
      rw [after] at backward
      cases backward
  | live =>
      simp only [after, ne_eq, not_true_eq_false, decide_false, Option.getD_some] at answered
      have bound : d ≤ far ∧ far ≤ p'.work.index.committed ∧ (page.more = true → d < far) ∧
          (page.more = false → far = p'.work.index.committed) := by
        rcases answered.ends with ⟨more, far_⟩ | ⟨more, _, entry, member, far_⟩
        · simp only [Bool.false_and] at more
          simp only [Bool.false_eq_true, if_false] at far_
          exact ⟨far_ ▸ last, far_.le, by simp [more], fun _ => far_⟩
        · have beyond := indexes.orderly.spans.beyond_edge member
          have inside := indexes.stop_le_committed (mem_side member)
          simp only [Beyond, edge, Bool.false_eq_true, if_false] at beyond far_
          rw [← far_] at beyond inside
          exact ⟨beyond.le, inside, fun _ => beyond, by simp [more]⟩
      obtain ⟨order, committed, advances, caughtUp⟩ := bound
      have delivers := answered.delivers indexes rfl rfl order (first after)
        (indexes.ended (first after) committed)
      have settled : d = far ∨ far ≤ (cut (heldAt content m p'.work.name)).start := by
        by_cases still : d = far
        · exact .inl still
        · have begun := first after
          have read := (indexes.nonempty (by omega)).2
          exact .inr ((committed.trans read.le).trans (cut_start_mono (List.take_prefix _ _)))
      refine ⟨same, far, _, answered.cursor, ?_, ?_, delivers.grow grown settled, advances, ?_⟩
      · have inside := (committed.trans indexes.start_le.2).trans tracks.reached
        exact inside.trans_lt (truthful.fits _ _)
      · exact settled.imp_right fun read => read.trans (cut_start_mono grown)
      · intro ends r member
        have held : heldAt content p.moment p'.work.name <+:
            (heldAt content m p'.work.name).take p'.work.index.nextRead :=
          List.prefix_take_iff.mpr ⟨truthful.heldAt_le _ early, reached⟩
        calc r.stop ≤ (cut (heldAt content p.moment p'.work.name)).start :=
              (cut_placed _).1.ended r member
          _ ≤ (cut ((heldAt content m p'.work.name).take p'.work.index.nextRead)).start :=
              cut_start_mono held
          _ ≤ p'.work.index.committed := by
              rw [indexes.committed]
              exact le_max_right _ _
          _ = far := (caughtUp ends).symm

end Refresh

/-! ## The client -/

/-- A client next to the work that it asks. -/
structure Follower where
  progress : Progress
  cursor : LogCursor
  /-- The pages that were not building, oldest first. -/
  pages : List LogPage
  reset : Bool

inductive Move where
  /-- Another client asks. -/
  | other (query : QueryLogs)
  /-- The slot is given up and made anew. -/
  | restart
  | ask (session : String) (limit : Nat)

namespace Follower

def asks (f : Follower) (filter : Filter) (session : String) (limit : Nat) : QueryLogs :=
  ⟨session, filter, .after, some f.cursor, limit⟩

def hear (f : Follower) : Except LogError LogPage → Follower
  | .ok page =>
      if page.building then f
      else { f with pages := f.pages ++ [page], cursor := page.cursor }
  | .error .cursorReset => { f with reset := true }
  | .error _ => f

def step (outside : Outside) (key : String) (filter : Filter) (f : Follower) :
    Move → Option Follower
  | .other query => do
      let (_, p) ← Fallible.run (refreshPage outside key query) f.progress
      return { f with progress := p }
  | .restart =>
      let m := f.progress.moment
      some { f with progress := ⟨.new (outside.uuid m), m + 1⟩ }
  | .ask session limit => do
      let (r, p) ← Fallible.run (refreshPage outside key (f.asks filter session limit)) f.progress
      return { f with progress := p }.hear r

def follow (outside : Outside) (key : String) (filter : Filter) (f : Follower)
    (moves : List Move) : Option Follower :=
  moves.foldlM (step outside key filter) f

end Follower

/-- What a client has received from its first offset `c` on. -/
structure Received (outside : Outside) (content : Nat → String → Bytes) (filter : Filter)
    (generation : String) (c : Nat) (f : Follower) (d : Nat) (name : String) (lines : List Line) :
    Prop where
  issued : f.cursor.generation = generation
  parses : parseU64 f.cursor.offset.toList = some d
  files : ∀ page ∈ f.pages, page.file = name
  delivers : Delivers outside.parsers generation (heldAt content f.progress.moment name) filter c d
    lines (f.pages.flatMap LogPage.rows)
  settled : c = d ∨ d ≤ (cut (heldAt content f.progress.moment name)).start
  nothing : f.pages = [] → d = c
  named : f.pages ≠ [] → f.progress.work.generation = generation → f.progress.work.name = name

structure Following (outside : Outside) (content : Nat → String → Bytes) (filter : Filter)
    (generation : String) (c : Nat) (f : Follower) : Prop where
  standing : Standing outside content f.progress
  fresh : ∀ m, f.progress.moment ≤ m → outside.uuid m ≠ generation
  received : ∃ d name lines, Received outside content filter generation c f d name lines

variable {f : Follower}

/-- A page goes on where the ones before it ended. -/
theorem Received.accept {name : String} {lines lines' : List Line} {before : Progress}
    (received : Received outside content filter generation c f d name lines)
    (current : f.progress.work.generation = generation)
    (forward : Refresh.Forward outside content before f.progress filter page d e lines')
    (file : page.file = f.progress.work.name) : ∃ name lines,
      Received outside content filter generation c
        { f with pages := f.pages ++ [page], cursor := page.cursor } e name lines := by
  have parses := Refresh.parse_cursor f.progress.work forward.fits
  rw [← forward.cursor] at parses
  have issued : page.cursor.generation = generation := by
    rw [forward.cursor]
    exact current
  have delivers := forward.delivers
  have settled := forward.settled
  rw [current] at delivers
  cases pages : f.pages with
  | nil =>
      have same := received.nothing pages
      subst same
      refine ⟨f.progress.work.name, lines', issued, parses, ?_, ?_, settled, by simp, by simp⟩
      · simp [file]
      · simpa using delivers
  | cons first rest =>
      have name_ := received.named (by simp [pages]) current
      rw [name_] at delivers settled
      refine ⟨name, lines ++ lines', issued, parses, ?_, ?_, ?_, by simp, fun _ _ => name_⟩
      · intro page' member
        rcases List.mem_append.mp member with old | new
        · exact received.files page' (pages ▸ old)
        · rw [List.mem_singleton.mp new, file, name_]
      · have all := received.delivers.append delivers
        rw [pages] at all
        simpa using all
      · rcases settled with rfl | read
        · exact received.settled
        · exact .inr read

namespace Following

section

variable (truthful : Truthful outside key identity content)

include truthful

section

variable (following : Following outside content filter generation c f)

include following

/-- What was received stands while the work moves on. -/
theorem moves (order : f.progress.moment ≤ p.moment) (standing : Standing outside content p)
    (stays : p.work.generation = generation → f.progress.work.generation = generation ∧ p.work.name = f.progress.work.name) :
    Following outside content filter generation c { f with progress := p } := by
  obtain ⟨d, name, lines, received⟩ := following.received
  have grown := truthful.heldAt_le name order
  refine ⟨standing, fun m late => following.fresh m (order.trans late), d, name, lines,
    received.issued, received.parses, received.files,
    received.delivers.grow grown received.settled, ?_, received.nothing, ?_⟩
  · exact received.settled.imp_right fun read => read.trans (cut_start_mono grown)
  · intro some_ current
    obtain ⟨same, unmoved⟩ := stays current
    exact unmoved.trans (received.named some_ same)

theorem refreshed
    (refreshed : Refresh.Refreshed outside key identity content f.progress origin query r p origin')
    (standing : Standing outside content p) :
    Following outside content filter generation c { f with progress := p } := by
  refine following.moves truthful refreshed.order standing ?_
  intro current
  rcases refreshed.continues with stays | ⟨_, restarts⟩
  · exact ⟨stays.generation ▸ current, stays.name⟩
  · obtain ⟨m, late, _, fresh⟩ := restarts.generation
    exact absurd (fresh.symm.trans current) (following.fresh m late)

theorem hear {session : String} {limit : Nat}
    (refreshed : Refresh.Refreshed outside key identity content f.progress origin (f.asks filter session limit) r p origin')
    (standing : Standing outside content p) :
    Following outside content filter generation c ({ f with progress := p }.hear r) := by
  have moved := following.refreshed truthful refreshed standing
  cases r with
  | error error =>
      obtain ⟨d, name, lines, received⟩ := moved.received
      cases error <;> exact ⟨moved.standing, moved.fresh, d, name, lines, received.issued,
        received.parses, received.files, received.delivers, received.settled, received.nothing,
        received.named⟩
  | ok page =>
      cases built : page.building with
      | true => simpa [Follower.hear, built] using moved
      | false =>
          obtain ⟨d, name, lines, received⟩ := moved.received
          obtain ⟨current, e, lines', forward⟩ :=
            Refresh.forward_page truthful refreshed rfl rfl received.parses built
          obtain ⟨name', lines'', received'⟩ := received.accept
            (current.symm.trans received.issued) forward (refreshed.answers page rfl).1
          refine ⟨?_, ?_, e, name', lines'', ?_⟩
          · simpa [Follower.hear, built] using moved.standing
          · simpa [Follower.hear, built] using moved.fresh
          · simpa [Follower.hear, built] using received'

end

theorem step (sane : Sane outside) (following : Following outside content filter generation c f)
    (move : Move) :
    ∃ f', f.step outside key filter move = some f' ∧
      Following outside content filter generation c f' := by
  cases move with
  | other query =>
      obtain ⟨r, p, _, _, runs, refreshed, standing⟩ :=
        Refresh.refreshes truthful sane following.standing query
      refine ⟨{ f with progress := p }, ?_, following.refreshed truthful refreshed standing⟩
      simp [Follower.step, runs]
  | restart =>
      refine ⟨_, rfl, following.moves truthful (Nat.le_succ _) (standing_new outside content _) ?_⟩
      intro current
      exact absurd current (following.fresh _ le_rfl)
  | ask session limit =>
      obtain ⟨r, p, _, _, runs, refreshed, standing⟩ :=
        Refresh.refreshes truthful sane following.standing (f.asks filter session limit)
      refine ⟨{ f with progress := p }.hear r, ?_, following.hear truthful refreshed standing⟩
      simp [Follower.step, runs]

theorem follow (sane : Sane outside) (following : Following outside content filter generation c f)
    (moves : List Move) :
    ∃ f', f.follow outside key filter moves = some f' ∧
      Following outside content filter generation c f' := by
  induction moves generalizing f with
  | nil => exact ⟨f, rfl, following⟩
  | cons move moves ih =>
      obtain ⟨f₁, steps, following₁⟩ := following.step truthful sane move
      obtain ⟨f₂, follows, following₂⟩ := ih following₁
      refine ⟨f₂, ?_, following₂⟩
      rw [Follower.follow, List.foldlM_cons, steps]
      exact follows

end

end Following

/-- What the client hears when it asks from the offset `d` on. -/
def Heard (outside : Outside) (key : String) (content : Nat → String → Bytes) (p : Progress)
    (d : Nat) : Except LogError LogPage → Prop
  | .error error => error = .cursorReset ∨ Fault outside key error
  | .ok page => page.building = true ∨ ∃ e, parseU64 page.cursor.offset.toList = some e ∧
      (page.more = true → d < e) ∧
      (page.more = false → ∀ r ∈ records (heldAt content p.moment page.file), r.stop ≤ e)

theorem Following.heard (truthful : Truthful outside key identity content)
    (parses : parseU64 f.cursor.offset.toList = some d) {session : String} {limit : Nat}
    (refreshed : Refresh.Refreshed outside key identity content f.progress origin
      (f.asks filter session limit) r p origin') : Heard outside key content f.progress d r := by
  cases r with
  | error error =>
      rcases refreshed.fails error rfl with fault | ⟨located, _⟩
      · exact .inr fault
      · exact .inl (Refresh.locate_error located rfl parses)
  | ok page =>
      cases built : page.building with
      | true => exact .inl built
      | false =>
          obtain ⟨_, e, _, forward⟩ := Refresh.forward_page truthful refreshed rfl rfl parses built
          refine .inr ⟨e, ?_, forward.advances, ?_⟩
          · rw [forward.cursor]
            exact Refresh.parse_cursor _ forward.fits
          · rw [(refreshed.answers page rfl).1]
            exact forward.caughtUp

/-- A client that follows has the rows of the matching records from its first offset to
    its cursor, in order and each once, whatever else moves the index; and when it asks it
    is told of a reset, gets further, or has everything that was there. -/
theorem following_loses_nothing (truthful : Truthful outside key identity content)
    (sane : Sane outside) (reached : Reached outside key f.progress) (unheard : f.pages = [])
    (offset : parseU64 f.cursor.offset.toList = some c)
    (fresh : ∀ m, f.progress.moment ≤ m → outside.uuid m ≠ f.cursor.generation)
    (filter : Filter) (moves : List Move) :
    ∃ f' d name lines, f.follow outside key filter moves = some f' ∧
      parseU64 f'.cursor.offset.toList = some d ∧ (∀ page ∈ f'.pages, page.file = name) ∧
      Delivers outside.parsers f.cursor.generation (heldAt content f'.progress.moment name) filter
        c d lines (f'.pages.flatMap LogPage.rows) ∧
      ∀ session limit, ∃ r p, Fallible.run
          (refreshPage outside key (f'.asks filter session limit)) f'.progress = some (r, p) ∧
        Heard outside key content f'.progress d r := by
  have start : Following outside content filter f.cursor.generation c f := by
    refine ⟨reached.standing truthful sane, fresh, c, "", [], rfl, offset, ?_, ?_, .inl rfl,
      fun _ => rfl, fun some_ => absurd unheard some_⟩
    · simp [unheard]
    · rw [unheard]
      exact Delivers.nothing _ _ _ _ _
  obtain ⟨f', follows, following⟩ := start.follow truthful sane moves
  obtain ⟨d, name, lines, received⟩ := following.received
  refine ⟨f', d, name, lines, follows, received.parses, received.files, received.delivers, ?_⟩
  intro session limit
  obtain ⟨r, p, _, _, runs, refreshed, _⟩ :=
    Refresh.refreshes truthful sane following.standing (f'.asks filter session limit)
  exact ⟨r, p, runs, Following.heard truthful received.parses refreshed⟩

/-! ## A directory with one file -/

def logName : String := "x.1.app.log"

def shelf (file : Bytes) : Instant where
  fault := false
  listing := .entries [some ⟨some logName, some true, some file.length⟩]
  node := fun name => if name = logName then some ⟨true, "7"⟩ else none
  data := fun _ => file

/-- What the file holds at an instant: `file` from the fifth call on. -/
def shelfAt (before file : Bytes) (t : Nat) : Instant := shelf (if t < 32 then before else file)

def shelved (parsers : Parsers) (before file : Bytes) : Outside where
  files := fun m => FsLogFiles.files ⟨"x"⟩ fun i => shelfAt before file (8 * m + i)
  uuid := fun m => if m = 2 then "g" else "h"
  parsers := parsers

def shelfContent (before file : Bytes) : Nat → String → Bytes :=
  diskContent (shelfAt before file) fun _ => "7"

variable {parsers : Parsers} {before file : Bytes}

theorem shelved_truthful (key : String) (grown : before <+: file) (fits : file.length < 2 ^ 64) :
    Truthful (shelved parsers before file) key (fun _ => "7") (shelfContent before file) := by
  refine FsLogFiles.truthful ⟨"x"⟩ (fun m => rfl) ?_ ?_ ?_
  · intro t name node found
    simp only [shelfAt, shelf] at found
    split at found
    · cases found
      rfl
    · cases found
  · intro t id
    simp only [shelfAt, shelf]
    split <;> split
    · exact List.prefix_rfl
    · exact grown
    · omega
    · exact List.prefix_rfl
  · intro t id
    simp only [shelfAt, shelf]
    split
    · exact grown.length_le.trans_lt fits
    · exact fits

theorem heldAt_shelf {m : Nat} (late : 4 ≤ m) (name : String) :
    heldAt (shelfContent before file) m name = file := by
  have index : 3 * m / 3 = m ∧ 3 * m % 3 = 0 := by omega
  have bound : ¬ 8 * m + 3 < 32 := by omega
  simp [heldAt, shelfContent, diskContent, shelfAt, shelf, index, bound]

theorem shelved_reads (m offset : Nat) {length : Nat} (short : length ≤ maxBatch) :
    ∃ found, ((shelved parsers before file).files m).read logName offset length = .ok found := by
  have allowed : ¬ maxBatch < length := by omega
  have valid : (⟨"x"⟩ : FsLogFiles).valid logName = true := by decide
  have go : (!(⟨"x"⟩ : FsLogFiles).valid logName || decide (maxBatch < length)) = false := by
    simp [valid, allowed]
  simp only [shelved, FsLogFiles.files, FsLogFiles.read, go, Bool.false_eq_true, if_false]
  exact ⟨_, rfl⟩

theorem shelved_named {outside : Outside} {name : String} :
    Named outside logName name ↔ name = logName := by
  rw [Named, if_neg (by decide)]

theorem shelved_no_fault (error : LogError) : ¬ Fault (shelved parsers before file) logName error := by
  rintro (⟨newest, _⟩ | ⟨newest, _⟩ | ⟨named, short, fails⟩)
  · exact absurd newest (by decide)
  · exact absurd newest (by decide)
  · obtain ⟨found, reads⟩ := shelved_reads _ _ short
    rw [shelved_named.mp named, reads] at fails
    cases fails

/-- The index has seen the empty file. -/
def opened : Progress := ⟨⟨.new 0, "7", logName, [], "g"⟩, 4⟩

theorem shelved_reached (parsers : Parsers) (file : Bytes) :
    Reached (shelved parsers [] file) logName opened := by
  have named : Fallible.run (Refresh.fileName (shelved parsers [] file) logName) ⟨.new "h", 1⟩ =
      some (.ok logName, ⟨.new "h", 1⟩) := rfl
  have held : Fallible.run Refresh.getWork ⟨.new "h", 1⟩ = some (.ok (.new "h"), ⟨.new "h", 1⟩) := rfl
  have read : Fallible.run (Refresh.read (shelved parsers [] file) logName 0 maxBatch)
      ⟨.new "h", 1⟩ = some (.ok ⟨"7", logName, 0, [], []⟩, ⟨.new "h", 2⟩) := rfl
  have restarted : Fallible.run (Refresh.continue_ (shelved parsers [] file) (.new "h") logName
      ⟨"7", logName, 0, [], []⟩) ⟨.new "h", 2⟩ = some (.ok ⟨"7", logName, 0, [], []⟩, opened) := rfl
  have absorbed : Fallible.run (Refresh.absorb (shelved parsers [] file) ⟨"7", logName, 0, [], []⟩)
      opened = some (.ok (), opened) := rfl
  have caught : Fallible.run (Refresh.catchUp (shelved parsers [] file) logName) ⟨.new "h", 1⟩ =
      some (.ok (logName, 0), opened) := by
    refine (run_bind_ok named).trans ?_
    refine (run_bind_ok held).trans ?_
    refine (run_bind_ok read).trans ?_
    refine (run_bind_ok restarted).trans ?_
    exact run_bind_ok absorbed
  -- The query has no offset, so that it is refused once the index has caught up.
  have runs : Fallible.run (refreshPage (shelved parsers [] file) logName
      ⟨"", .default, .latest, some ⟨"", ""⟩, 1⟩) ⟨.new "h", 1⟩ =
      some (.error .invalidRequest, opened) :=
    (run_bind_ok caught).trans rfl
  exact .refresh (.new 0) runs

theorem shelved_sane (silent : ∀ text, parsers.rfc3339 text = none) :
    Sane (shelved parsers before file) where
  short := by
    intro m
    simp only [shelved]
    split <;> decide
  timestamps := by
    intro text t parsed
    rw [shelved, silent] at parsed
    cases parsed

theorem shelved_fresh (m : Nat) (late : opened.moment ≤ m) :
    (shelved parsers before file).uuid m ≠ "g" := by
  have other : m ≠ 2 := by
    rintro rfl
    exact absurd late (by decide)
  simp [shelved, other]

/-- A client at the beginning of the file. -/
def newcomer : Follower := ⟨opened, ⟨"g", "0"⟩, [], false⟩

/-- The lines `x`, `y` and `x`. -/
def mixed : Bytes := [120, 10, 121, 10, 120, 10]

/-- The line between the two that match is on no page. -/
theorem following_loses_nothing_pages :
    ∃ f' d name lines, newcomer.follow (shelved .verbatim [] mixed) logName .onlyX
        [.ask "s" 1, .ask "s" 1] = some f' ∧
      f'.pages.map (·.rows.map (·.raw)) = [["x"], ["x"]] ∧
      parseU64 f'.cursor.offset.toList = some d ∧ (∀ page ∈ f'.pages, page.file = name) ∧
      Delivers .verbatim "g" (heldAt (shelfContent [] mixed) f'.progress.moment name) .onlyX 0 d
        lines (f'.pages.flatMap LogPage.rows) ∧
      ∀ session limit, ∃ r p, Fallible.run (refreshPage (shelved .verbatim [] mixed) logName
          (f'.asks .onlyX session limit)) f'.progress = some (r, p) ∧
        Heard (shelved .verbatim [] mixed) logName (shelfContent [] mixed) f'.progress d r := by
  have reached := shelved_reached .verbatim mixed
  obtain ⟨f', d, name, lines, follows, delivered⟩ := following_loses_nothing (f := newcomer) (c := 0)
    (shelved_truthful logName List.nil_prefix (by decide)) (shelved_sane fun _ => rfl) reached rfl
    (by decide) shelved_fresh .onlyX [.ask "s" 1, .ask "s" 1]
  have shows : (newcomer.follow (shelved .verbatim [] mixed) logName .onlyX
      [.ask "s" 1, .ask "s" 1]).map (·.pages.map (·.rows.map (·.raw))) = some [["x"], ["x"]] := by
    decide +kernel
  rw [follows] at shows
  exact ⟨f', d, name, lines, follows, Option.some.inj shows, delivered⟩

/-! ### Lines with a long target -/

def ascii (text : String) : Bytes := text.toList.map fun c => .ofNat c.toNat

def longTarget : String := .ofList (List.replicate 4097 'a')

/-- A JSON object with a target of 4097 bytes and the message `m`. -/
def longLine : Bytes :=
  ascii "\x7b\"target\":\"" ++ List.replicate 4097 97 ++
    ascii "\",\"fields\":\x7b\"message\":\"m\"\x7d\x7d"

/-- Parsers as they are on that line. -/
def longParsers : Parsers where
  object := fun _ => some ⟨none, none, some longTarget⟩
  rfc3339 := fun _ => none
  message := fun _ => some "m"
  lowercase := id

def longFilter : Filter := { Filter.default with text := some "aa" }

theorem length_longLine : longLine.length = 4135 := by
  rw [longLine, List.length_append, List.length_append, List.length_replicate]
  decide

theorem length_longFile : (longLine ++ [newline]).length = 4136 := by
  rw [List.length_append, length_longLine]
  rfl

theorem utf8ByteSize_replicate (n : Nat) :
    (String.ofList (List.replicate n 'a')).utf8ByteSize = n := by
  induction n with
  | zero => rfl
  | succ n ih =>
      rw [List.replicate_succ, utf8ByteSize_ofList_cons, ih, Nat.add_comm]
      rfl

theorem contains_replicate (n : Nat) :
    contains (.ofList (List.replicate (n + 2) 'a')) "aa" = true := by
  refine decide_eq_true ⟨[], List.replicate n 'a', ?_⟩
  rw [String.toList_ofList, String.toList_ofList]
  rfl

theorem cut_plain {content : Bytes} (plain : newline ∉ content) :
    cut content = ⟨[], 0, content.length⟩ := by
  induction content using List.reverseRecOn with
  | nil => rfl
  | append_singleton content byte ih =>
      simp only [List.mem_append, List.mem_singleton, not_or] at plain
      rw [cut_concat, ih plain.1, Cut.feed, if_neg (Ne.symm plain.2), List.length_append]
      rfl

theorem records_longFile : records (longLine ++ [newline]) = [⟨0, 4136⟩] := by
  have plain : newline ∉ longLine := by
    simp only [longLine, List.mem_append, List.mem_replicate, not_or]
    exact ⟨⟨by decide, by decide⟩, by decide⟩
  rw [Reads.records_newline, records, cut_plain plain, length_longLine]
  rfl

theorem size_longTarget : 4096 < longTarget.utf8ByteSize := by
  have size : longTarget.utf8ByteSize = 4097 := utf8ByteSize_replicate 4097
  omega

/-- A long target is not kept. -/
theorem read_longParsers (bytes : Bytes) : (longParsers.read bytes).target = "" := by
  have object : longParsers.object bytes = some ⟨none, none, some longTarget⟩ := rfl
  simp [Parsers.read, object, size_longTarget]

theorem not_admitted {content : Bytes} {line : Line} (kept : Kept longParsers content line)
    (now : Bytes) : longFilter.admits longParsers now line = false := by
  have empty : line.target = "" := by
    rcases kept.target with ⟨said, _⟩ | ⟨empty, _⟩
    · rw [said, read_longParsers]
    · exact empty
  have unfound : longFilter.finds longParsers now line = false := by
    simp only [Filter.finds, Line.message, empty]
    change Refresh.passes longParsers (some "aa") "m" "" = false
    decide
  rw [Filter.admits, unfound, Bool.and_false]

theorem Delivers.none_long {content : Bytes} {generation : String} {c d : Nat} {lines : List Line}
    {rows : List LogRow}
    (delivers : Delivers longParsers generation content longFilter c d lines rows) : rows = [] := by
  rw [delivers.rows, List.map_eq_nil_iff, List.filter_eq_nil_iff]
  intro line member
  rw [not_admitted (delivers.kept line member)]
  exact Bool.false_ne_true

/-- An index that has read the file has its record. -/
theorem start_longFile {origin : Nat}
    (tracks : Tracks longParsers (longLine ++ [newline]) origin work)
    (reached : (longLine ++ [newline]).length ≤ work.index.nextRead) : work.index.start = 0 := by
  have length := length_longFile
  have wide : origin = 0 := by
    rcases tracks.wide with zero | wide
    · exact zero
    · rw [length] at wide
      exact absurd ((Nat.le_add_left _ _).trans wide) (by decide)
  subst wide
  have indexes := tracks.indexes
  have all : (longLine ++ [newline]).take work.index.nextRead = longLine ++ [newline] :=
    List.take_of_length_le reached
  have lines := indexes.reads.lines
  rw [all, records_longFile] at lines
  have seen : [(⟨0, 4136⟩ : Record)].filter (Record.seenFrom 0) = [⟨0, 4136⟩] := by decide
  rw [seen] at lines
  have some_ : work.index.entries ≠ [] := by
    refine indexes.keeps_last ?_ ?_
    · have bound := tracks.reached
      rw [length] at bound
      exact bound.trans (by decide)
    · intro empty
      rw [empty] at lines
      cases lines
  cases entries : work.index.entries with
  | nil => exact absurd entries some_
  | cons first rest =>
      have member := indexes.mem_lines (show first ∈ work.index.entries by simp [entries])
      have listed := List.mem_map_of_mem (f := Line.record) member
      rw [lines, List.mem_singleton] at listed
      have start : first.start = 0 := congrArg Record.start listed
      simp [Index.start, entries, start]

/-- The directory with that line. -/
def longShelf (before : Bytes) : Outside := shelved longParsers before (longLine ++ [newline])

theorem longShelf_truthful {before : Bytes} (grown : before <+: longLine ++ [newline]) :
    Truthful (longShelf before) logName (fun _ => "7")
      (shelfContent before (longLine ++ [newline])) := by
  refine shelved_truthful logName grown ?_
  rw [length_longFile]
  decide

theorem longShelf_sane (before : Bytes) : Sane (longShelf before) := shelved_sane fun _ => rfl

theorem newcomer_following : Following (longShelf []) (shelfContent [] (longLine ++ [newline]))
    longFilter "g" 0 newcomer := by
  refine ⟨(shelved_reached _ _).standing (longShelf_truthful List.nil_prefix) (longShelf_sane []),
    shelved_fresh, 0, "", [], rfl, by decide, by simp [newcomer], Delivers.nothing _ _ _ _ _,
    .inl rfl, fun _ => rfl, fun some_ => absurd rfl some_⟩

/-- The client gets past the line and is not told of a reset. -/
theorem newcomer_passes : ∃ f' e,
    newcomer.follow (longShelf []) logName longFilter [.ask "s" 1] = some f' ∧ f'.reset = false ∧
      parseU64 f'.cursor.offset.toList = some e ∧ 0 < e := by
  have truthful := longShelf_truthful List.nil_prefix
  obtain ⟨r, p, origin, origin', runs, refreshed, standing⟩ := Refresh.refreshes truthful
    (longShelf_sane []) newcomer_following.standing (newcomer.asks longFilter "s" 1)
  have late : 4 ≤ p.moment := refreshed.order
  have tracks := refreshed.tracks
  rw [heldAt_shelf late] at tracks
  have settled : Refresh.Settled (longShelf []) logName (fun _ => "7") newcomer.progress.work :=
    ⟨rfl, fun name named => shelved_named.mp named⟩
  have parses : parseU64 newcomer.cursor.offset.toList = some 0 := by decide
  cases r with
  | error error =>
      rcases refreshed.fails error rfl with fault | ⟨located, _, reached⟩
      · exact absurd fault (shelved_no_fault error)
      · rw [heldAt_shelf (show 4 ≤ newcomer.progress.moment from le_rfl)] at reached
        have start := start_longFile tracks reached
        have stays := refreshed.continues.resolve_right fun restarts => restarts.1 settled
        have accepted := Refresh.locate_accepts (newcomer.asks longFilter "s" 1) rfl parses
          stays.generation.symm (fun _ => start.le) (Nat.zero_le _)
        rw [accepted] at located
        cases located
  | ok page =>
      cases built : page.building with
      | true =>
          have gains := refreshed.builds page rfl built
          have stays := gains.resolve_right fun restarts => restarts.1 settled
          have bound := tracks.reached
          have reached := (Nat.le_add_left _ _).trans (stays.reached.trans bound)
          rw [length_longFile] at reached
          exact absurd reached (by decide)
      | false =>
          obtain ⟨_, e, lines, forward⟩ := Refresh.forward_page truthful refreshed rfl rfl parses built
          refine ⟨{ newcomer with progress := p }.hear (.ok page), e, ?_, ?_, ?_, ?_⟩
          · simp [Follower.follow, Follower.step, runs]
          · simp [Follower.hear, built, newcomer]
          · have parses' := Refresh.parse_cursor p.work forward.fits
            rw [← forward.cursor] at parses'
            simpa [Follower.hear, built] using parses'
          · cases more : page.more with
            | true => exact forward.advances more
            | false =>
                have passed := forward.caughtUp more ⟨0, 4136⟩ (by
                  rw [heldAt_shelf (show 4 ≤ newcomer.progress.moment from le_rfl), records_longFile]
                  exact List.mem_singleton_self _)
                exact (show 0 < 4136 by decide).trans_le passed

/-- A line whose target has the text that is looked for is passed over and never shown:
    its target is longer than an index keeps. -/
theorem following_misses_long_target :
    (∀ moves f', newcomer.follow (longShelf []) logName longFilter moves = some f' →
      f'.pages.flatMap LogPage.rows = []) ∧
    (∃ f' e, newcomer.follow (longShelf []) logName longFilter [.ask "s" 1] = some f' ∧
      f'.reset = false ∧ parseU64 f'.cursor.offset.toList = some e ∧ 0 < e) ∧
    records (longLine ++ [newline]) = [⟨0, 4136⟩] ∧ (⟨0, 4136⟩ : Record).short = true ∧
    longParsers.object longLine = some ⟨none, none, some longTarget⟩ ∧
    contains longTarget "aa" = true := by
  refine ⟨?_, newcomer_passes, records_longFile, by decide, rfl, contains_replicate 4095⟩
  intro moves f' follows
  obtain ⟨f'', follows', following⟩ := newcomer_following.follow
    (longShelf_truthful List.nil_prefix) (longShelf_sane []) moves
  rw [follows] at follows'
  cases follows'
  obtain ⟨d, name, lines, received⟩ := following.received
  exact received.delivers.none_long

end Logging

end Nyanpasu
