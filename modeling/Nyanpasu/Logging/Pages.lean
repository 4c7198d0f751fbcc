import Nyanpasu.Logging.Refresh
import Nyanpasu.Logging.Records
import Nyanpasu.Logging.Scanning

/-! # What a page holds

A refresh against files that answer truthfully: where the index stands afterwards, and
which records a page has between the offset it was asked for and the one it returns.
-/

namespace Nyanpasu

namespace Logging

open Fallible

variable {outside : Outside} {p : Progress} {key : String}

namespace Refresh

/-! ## Calls -/

theorem ends_read {Q : Except LogError FileRead → Progress → Prop} {file : String}
    {offset length : Nat}
    (holds : Q ((outside.files p.moment).read file offset length) ⟨p.work, p.moment + 1⟩) :
    Ends (read outside file offset length) p Q :=
  ends_bind_ok rfl (ends_lift holds)

theorem ends_catalog {Q : Except LogError (List LogFileInfo) → Progress → Prop}
    (holds : Q (outside.files p.moment).catalog ⟨p.work, p.moment + 1⟩) :
    Ends (catalog outside) p Q :=
  ends_bind_ok rfl (ends_lift holds)

end Refresh

/-! ## Files that only grow -/

/-- The files that a session on a key reads. -/
def Named (outside : Outside) (key name : String) : Prop :=
  if key = "" then ∃ m newest rest, (outside.files m).catalog = .ok (newest :: rest) ∧ newest.id = name
  else name = key

/-- Every call that is answered is answered with what the file holds, which only grows:
    its length, its beginning and the bytes asked for are read one after the other. -/
structure Truthful (outside : Outside) (key : String) (identity : String → String)
    (content : Nat → String → Bytes) : Prop where
  grows : ∀ m name, content m name <+: content (m + 1) name
  fits : ∀ m name, (content m name).length < 2 ^ 64
  read : ∀ m name offset length found, Named outside key name →
    (outside.files m).read name offset length = .ok found →
    found.identity = identity name ∧ found.len = (content (3 * m) name).length ∧
    found.leading = (content (3 * m + 1) name).take 256 ∧
    found.bytes = ((content (3 * m + 2) name).drop offset).take length

/-- A call that a session on a key makes is not answered. -/
inductive Fault (outside : Outside) (key : String) : LogError → Prop where
  | catalog {m : Nat} {error : LogError} (newest : key = "")
      (fails : (outside.files m).catalog = .error error) : Fault outside key error
  | empty {m : Nat} (newest : key = "") (none_ : (outside.files m).catalog = .ok []) :
      Fault outside key .fileGone
  | read {m : Nat} {name : String} {offset length : Nat} {error : LogError}
      (named : Named outside key name) (short : length ≤ maxBatch)
      (fails : (outside.files m).read name offset length = .error error) : Fault outside key error

/-- What a file holds when the calls up to a moment have been answered. -/
def heldAt (content : Nat → String → Bytes) (m : Nat) (name : String) : Bytes :=
  content (3 * m) name

namespace Truthful

variable {identity : String → String} {content : Nat → String → Bytes}

theorem content_le (truthful : Truthful outside key identity content) (name : String) {m n : Nat}
    (order : m ≤ n) : content m name <+: content n name := by
  induction order with
  | refl => exact List.prefix_rfl
  | step _ ih => exact ih.trans (truthful.grows _ name)

theorem heldAt_le (truthful : Truthful outside key identity content) (name : String) {m n : Nat}
    (order : m ≤ n) : heldAt content m name <+: heldAt content n name :=
  truthful.content_le name (Nat.mul_le_mul_left 3 order)

end Truthful

/-- What a file holds when a read looks at its length, its beginning and its bytes. -/
def diskContent (at_ : Nat → Instant) (identity : String → String) (n : Nat) (name : String) : Bytes :=
  (at_ (8 * (n / 3) + if n % 3 = 0 then 3 else if n % 3 = 1 then 4 else 6)).data (identity name)

/-- The files of a directory are truthful if no file takes another's place and none is
    rewritten. -/
theorem FsLogFiles.truthful (fs : FsLogFiles) {at_ : Nat → Instant} {identity : String → String}
    (files : ∀ m, outside.files m = fs.files fun i => at_ (8 * m + i))
    (nodes : ∀ t name node, (at_ t).node name = some node → node.id = identity name)
    (grows : ∀ t id, (at_ t).data id <+: (at_ (t + 1)).data id)
    (fits : ∀ t id, ((at_ t).data id).length < 2 ^ 64) :
    Truthful outside key identity (diskContent at_ identity) where
  grows := by
    intro m name
    have later : ∀ {a b : Nat}, a ≤ b → (at_ a).data (identity name) <+: (at_ b).data (identity name) := by
      intro a b order
      induction order with
      | refl => exact List.prefix_rfl
      | step _ ih => exact ih.trans (grows _ _)
    apply later
    split <;> split <;> (try split) <;> (try split) <;> omega
  fits := fun m name => fits _ _
  read := by
    intro m name offset length found _ reads
    rw [files] at reads
    simp only [FsLogFiles.files] at reads
    obtain ⟨node, handle, first, second, rfl⟩ := FsLogFiles.read_eq_ok reads
    have node_ := nodes _ _ _ first
    have handle_ := nodes _ _ _ second
    have third : ∀ k, k < 3 → (3 * m + k) / 3 = m ∧ (3 * m + k) % 3 = k := by omega
    simp [diskContent, node_, handle_, third]

/-! ## An index that follows a file -/

/-- The transcript of a stretch of a file. -/
def transcript (parsers : Parsers) (now : Bytes) (origin stop : Nat) : Transcript :=
  .of parsers origin (slice now origin stop)

structure Tracks (parsers : Parsers) (now : Bytes) (origin : Nat) (work : Work) : Prop where
  begun : origin ≤ work.index.nextRead
  reached : work.index.nextRead ≤ now.length
  shows : work.index.Shows (transcript parsers now origin work.index.nextRead)
  window : work.index.lines = (transcript parsers now origin work.index.nextRead).window
  leading : work.leading <+: now
  wide : origin = 0 ∨ origin + maxWindow ≤ now.length

variable {parsers : Parsers} {now later : Bytes} {origin stop : Nat} {work : Work}

theorem slice_take {content : Bytes} {start stop : Nat} (order : start ≤ stop)
    (inside : stop ≤ content.length) : content.take start ++ slice content start stop = content.take stop := by
  obtain ⟨width, rfl⟩ := Nat.exists_eq_add_of_le order
  rw [slice, Nat.add_sub_cancel_left, List.take_add]

theorem reads_transcript (parsers : Parsers) (order : origin ≤ stop) (inside : stop ≤ now.length) :
    Reads parsers (now.take stop) origin (transcript parsers now origin stop) := by
  have fed := (reads_new parsers (now.take origin)).feedAll (slice now origin stop)
  have length : (now.take origin).length = origin := by
    rw [List.length_take]
    omega
  rw [slice_take order inside, length] at fed
  exact fed

theorem transcript_grow (parsers : Parsers) (grown : now <+: later) (inside : stop ≤ now.length) :
    transcript parsers later origin stop = transcript parsers now origin stop := by
  obtain ⟨more, rfl⟩ := grown
  rw [transcript, transcript, slice_append inside]

theorem slice_split {content : Bytes} {a b c : Nat} (first : a ≤ b) (second : b ≤ c) :
    slice content a c = slice content a b ++ slice content b c := by
  obtain ⟨m, rfl⟩ := Nat.exists_eq_add_of_le first
  obtain ⟨n, rfl⟩ := Nat.exists_eq_add_of_le second
  have whole : a + m + n - a = m + n := by omega
  simp only [slice, whole, Nat.add_sub_cancel_left]
  rw [List.take_add, List.drop_drop]

/-- Reading on feeds the bytes that follow. -/
theorem transcript_feed (parsers : Parsers) {next : Nat} (order : origin ≤ stop)
    (further : stop ≤ next) : transcript parsers now origin next =
      (slice now stop next).foldl (Transcript.feed parsers) (transcript parsers now origin stop) := by
  rw [transcript, Transcript.of, slice_split order further, List.foldl_append]
  rfl

theorem Tracks.grow (tracks : Tracks parsers now origin work) (grown : now <+: later) :
    Tracks parsers later origin work where
  begun := tracks.begun
  reached := tracks.reached.trans grown.length_le
  shows := by
    rw [transcript_grow parsers grown tracks.reached]
    exact tracks.shows
  window := by
    rw [transcript_grow parsers grown tracks.reached]
    exact tracks.window
  leading := tracks.leading.trans grown
  wide := tracks.wide.imp_right fun bound => bound.trans grown.length_le

theorem tracks_new (parsers : Parsers) {now : Bytes} {origin : Nat} (inside : origin ≤ now.length)
    (wide : origin = 0 ∨ origin + maxWindow ≤ now.length) (identity name generation : String) :
    Tracks parsers now origin ⟨.new origin, identity, name, [], generation⟩ := by
  have empty : transcript parsers now origin origin = .new origin := by
    simp [transcript, slice, Transcript.of]
  refine ⟨le_rfl, inside, ?_, ?_, List.nil_prefix, wide⟩
  · exact empty ▸ new_shows origin
  · exact empty ▸ rfl

/-! ## Catching up -/

namespace Refresh

theorem append_tracks (tracks : Tracks parsers now origin work) (grown : now <+: later)
    {bytes : Bytes} (read : bytes = (later.drop work.index.nextRead).take maxBatch)
    {leading : Bytes} (begins : leading <+: later) :
    ∃ index, work.index.append parsers work.index.nextRead bytes = .ok index ∧
      index.nextRead = work.index.nextRead + bytes.length ∧
      Tracks parsers later origin { work with leading := leading, index := index } := by
  have short : bytes.length ≤ maxBatch := by
    rw [read, List.length_take]
    omega
  have reached := tracks.reached.trans grown.length_le
  have further : work.index.nextRead + bytes.length ≤ later.length := by
    rw [read, List.length_take, List.length_drop]
    omega
  have follows : bytes = slice later work.index.nextRead (work.index.nextRead + bytes.length) := by
    rw [slice, Nat.add_sub_cancel_left, read, List.length_take, List.take_eq_take_iff]
    omega
  have tracks' := tracks.grow grown
  have appends := Index.append_ok parsers work.index short
  obtain ⟨shows, window⟩ := append_shows tracks'.shows appends
  have fed : transcript parsers later origin (work.index.nextRead + bytes.length) =
      bytes.foldl (Transcript.feed parsers)
        (transcript parsers later origin work.index.nextRead) := by
    rw [transcript_feed parsers tracks.begun (Nat.le_add_right _ _), ← follows]
  have next : (bytes.foldl (Index.feed parsers) work.index).evict.nextRead =
      work.index.nextRead + bytes.length := by
    have reads := reads_transcript parsers (tracks.begun.trans (Nat.le_add_right _ bytes.length))
      further
    rw [shows.nextRead, ← fed, reads.nextRead, List.length_take, min_eq_left further]
  rw [← fed] at shows window
  refine ⟨_, appends, next, ?_, ?_, ?_, ?_, begins, tracks'.wide⟩
  · exact next ▸ tracks.begun.trans (Nat.le_add_right _ _)
  · exact next ▸ further
  · simpa only [next] using shows
  · simpa only [next] using window

variable {found : FileRead}

/-- A batch moves the index on by what was read. -/
theorem ends_absorb (tracks : Tracks outside.parsers now origin p.work) (grown : now <+: later)
    (leading : found.leading <+: later)
    (read : found.bytes = (later.drop p.work.index.nextRead).take maxBatch) :
    Ends (absorb outside found) p fun r p' => r = .ok () ∧ p'.moment = p.moment ∧
      p'.work.identity = p.work.identity ∧ p'.work.name = p.work.name ∧
      p'.work.generation = p.work.generation ∧
      p'.work.index.nextRead = p.work.index.nextRead + found.bytes.length ∧
      Tracks outside.parsers later origin p'.work := by
  obtain ⟨index, appends, next, tracks'⟩ := append_tracks tracks grown read leading
  unfold absorb
  refine ends_bind_ok rfl (ends_bind_ok rfl ?_)
  simp only [appends]
  exact ⟨.ok (), _, rfl, rfl, rfl, rfl, rfl, rfl, next, tracks'⟩

variable {identity : String → String} {content : Nat → String → Bytes}

/-- The index is that of the only file in question. -/
def Settled (outside : Outside) (key : String) (identity : String → String) (work : Work) : Prop :=
  work.identity = identity work.name ∧ ∀ name, Named outside key name → name = work.name

/-- The index goes on where it was, and reads so much. -/
structure Stays (p p' : Progress) (origin origin' gain : Nat) : Prop where
  generation : p'.work.generation = p.work.generation
  name : p'.work.name = p.work.name
  identity : p'.work.identity = p.work.identity
  origin : origin' = origin
  reached : p.work.index.nextRead + gain ≤ p'.work.index.nextRead

/-- The index starts over under a new generation, and reads so much. -/
structure Restarts (outside : Outside) (p p' : Progress) (origin' gain : Nat) : Prop where
  generation : ∃ m, p.moment ≤ m ∧ m < p'.moment ∧ p'.work.generation = outside.uuid m
  reached : origin' + gain ≤ p'.work.index.nextRead

def Continues (outside : Outside) (key : String) (identity : String → String) (p p' : Progress)
    (origin origin' gain : Nat) : Prop :=
  Stays p p' origin origin' gain ∨
    ¬ Settled outside key identity p.work ∧ Restarts outside p p' origin' gain

variable {p' : Progress}

/-- Going on with a work that has read more. -/
theorem Continues.reads {p p'' : Progress} {origin origin' gain more : Nat}
    (goes : Continues outside key identity p p' origin origin' gain)
    (generation : p''.work.generation = p'.work.generation) (name : p''.work.name = p'.work.name)
    (same : p''.work.identity = p'.work.identity) (order : p'.moment ≤ p''.moment)
    (reached : p'.work.index.nextRead + more ≤ p''.work.index.nextRead) :
    Continues outside key identity p p'' origin origin' (gain + more) := by
  rcases goes with stays | ⟨unsettled, restarts⟩
  · refine .inl ⟨generation.trans stays.generation, name.trans stays.name,
      same.trans stays.identity, stays.origin, ?_⟩
    have before := stays.reached
    omega
  · obtain ⟨m, early, late, fresh⟩ := restarts.generation
    refine .inr ⟨unsettled, ⟨m, early, late.trans_le order, generation.trans fresh⟩, ?_⟩
    have before := restarts.reached
    omega

theorem Continues.weaken {p : Progress} {origin origin' gain less : Nat}
    (goes : Continues outside key identity p p' origin origin' gain) (bound : less ≤ gain) :
    Continues outside key identity p p' origin origin' less := by
  rcases goes with stays | ⟨unsettled, restarts⟩
  · have reached := stays.reached
    exact .inl { stays with reached := by omega }
  · have reached := restarts.reached
    exact .inr ⟨unsettled, restarts.generation, by omega⟩

theorem continues_refl (outside : Outside) (key : String) (identity : String → String)
    {p : Progress} (origin : Nat) (same : p'.work = p.work) :
    Continues outside key identity p p' origin origin 0 :=
  .inl ⟨by rw [same], by rw [same], by rw [same], rfl, by rw [same]; exact le_rfl⟩

/-- The bytes behind the index, as they are found at a moment. -/
structure Found (identity : String → String) (content : Nat → String → Bytes) (m : Nat)
    (name : String) (offset : Nat) (found : FileRead) : Prop where
  identity : found.identity = identity name
  len : found.len = (heldAt content m name).length
  leading : found.leading <+: content (3 * m + 2) name
  bytes : found.bytes = ((content (3 * m + 2) name).drop offset).take maxBatch

variable {name : String}

theorem found_of_read (truthful : Truthful outside key identity content) {m : Nat} {offset : Nat}
    (named : Named outside key name)
    (reads : (outside.files m).read name offset maxBatch = .ok found) :
    Found identity content m name offset found := by
  obtain ⟨same, len, leading, bytes⟩ := truthful.read m name offset maxBatch found named reads
  exact ⟨same, len, leading ▸ (List.take_prefix _ _).trans (truthful.grows _ name), bytes⟩

theorem ends_fileName (outside : Outside) (p : Progress) (key : String) :
    Ends (fileName outside key) p fun r p' => p'.work = p.work ∧ p.moment ≤ p'.moment ∧
      (∀ name, r = .ok name → Named outside key name) ∧
      ∀ error, r = .error error → Fault outside key error := by
  unfold fileName
  split
  · next newest =>
      refine ends_bind (Q := fun r p' => p'.work = p.work ∧ p.moment ≤ p'.moment ∧
        r = (outside.files p.moment).catalog) (ends_catalog ⟨rfl, Nat.le_succ _, rfl⟩) ?_ ?_
      · rintro files p' ⟨work', order, listed⟩
        cases files with
        | nil =>
            refine ends_throw ⟨work', order, by simp, ?_⟩
            rintro error same
            cases same
            exact .empty newest listed.symm
        | cons first rest =>
            refine ends_pure ⟨work', order, ?_, by simp⟩
            rintro name same
            cases same
            rw [Named, if_pos newest]
            exact ⟨p.moment, first, rest, listed.symm, rfl⟩
      · rintro error p' ⟨work', order, fails⟩
        refine ⟨work', order, by simp, ?_⟩
        rintro error' same
        cases same
        exact .catalog newest fails.symm
  · next given =>
      refine ends_pure ⟨rfl, le_rfl, ?_, by simp⟩
      rintro name same
      cases same
      rw [Named, if_neg given]

theorem ends_restart (truthful : Truthful outside key identity content)
    (named : Named outside key name) (len : found.len ≤ (heldAt content p.moment name).length)
    (same : found.identity = identity name) :
    Ends (restart outside name found) p fun r p' => p'.moment = p.moment + 2 ∧
      p'.work.name = name ∧ p'.work.identity = identity name ∧
      p'.work.generation = outside.uuid p.moment ∧
      (∃ origin, Tracks outside.parsers (heldAt content (p.moment + 1) name) origin p'.work) ∧
      (∀ again, r = .ok again →
        Found identity content (p.moment + 1) name p'.work.index.nextRead again) ∧
      ∀ error, r = .error error → Fault outside key error := by
  have grown := (truthful.heldAt_le name (Nat.le_add_right p.moment 1)).length_le
  have tracks : Tracks outside.parsers (heldAt content (p.moment + 1) name)
      (found.len - maxWindow)
      ⟨.new (found.len - maxWindow), found.identity, name, [], outside.uuid p.moment⟩ :=
    tracks_new outside.parsers (by omega) (by omega) _ _ _
  refine ends_bind_ok rfl (ends_bind_ok rfl ?_)
  exact ends_read ⟨rfl, rfl, same, rfl, ⟨_, tracks⟩, fun again reads => found_of_read truthful named reads,
    fun error fails => .read named le_rfl fails⟩

/-- The file has been read where the index stands. -/
def Located (outside : Outside) (key : String) (identity : String → String) (content : Nat → String → Bytes)
    (p : Progress) (origin : Nat) (name : String) (r : Except LogError FileRead) (p' : Progress) :
    Prop :=
  p.moment ≤ p'.moment ∧ ∃ origin',
    Tracks outside.parsers (heldAt content p'.moment p'.work.name) origin' p'.work ∧
    Continues outside key identity p p' origin origin' 0 ∧
    (∀ found, r = .ok found → ∃ m, p.moment ≤ m ∧ p'.moment = m + 1 ∧ p'.work.name = name ∧
      p'.work.identity = identity name ∧
      Tracks outside.parsers (heldAt content m name) origin' p'.work ∧
      Found identity content m name p'.work.index.nextRead found) ∧
    ∀ error, r = .error error → Fault outside key error

theorem not_replaced (kept : replaced work name found = false) :
    work.identity = found.identity ∧ work.name = name := by
  simp only [replaced, Bool.or_eq_false_iff, decide_eq_false_iff_not, not_not] at kept
  exact ⟨kept.1.1.1, kept.1.1.2⟩

theorem take_of_prefixes {a b whole : Bytes} (first : a <+: whole) (second : b <+: whole) :
    a.take (min a.length b.length) = b.take (min a.length b.length) := by
  rw [List.prefix_iff_eq_take.mp first, List.prefix_iff_eq_take.mp second, List.take_take,
    List.take_take]
  congr 1
  simp only [List.length_take]
  omega

/-- The file that is followed is never taken for another one. -/
theorem not_replaced_of {whole : Bytes} (same : work.identity = found.identity)
    (named : work.name = name) (len : work.index.nextRead ≤ found.len)
    (leading : work.leading <+: whole) (again : found.leading <+: whole)
    : replaced work name found = false := by
  have agree := take_of_prefixes leading again
  simp only [replaced, Bool.or_eq_false_iff, decide_eq_false_iff_not, not_not, not_lt]
  exact ⟨⟨⟨same, named⟩, len⟩, agree⟩

section

variable (truthful : Truthful outside key identity content)
  (tracks : Tracks outside.parsers (heldAt content p.moment p.work.name) origin p.work)

include truthful tracks

theorem ends_continue {p₁ : Progress} (work₁ : p₁.work = p.work) (order : p.moment ≤ p₁.moment)
    (named : Named outside key name)
    (read : Found identity content p₁.moment name p.work.index.nextRead found) :
    Ends (continue_ outside p₁.work name found) ⟨p₁.work, p₁.moment + 1⟩
      (Located outside key identity content p origin name) := by
  have start := tracks.grow (truthful.heldAt_le p.work.name order)
  unfold continue_
  split
  · next changed =>
    have unsettled : ¬ Settled outside key identity p.work := by
      rintro ⟨same, only⟩
      have sameName := only name named
      subst sameName
      have kept := not_replaced_of (same.trans read.identity.symm) rfl (read.len ▸ start.reached)
        (start.leading.trans (truthful.content_le p.work.name (by omega))) read.leading
      rw [work₁, kept] at changed
      cases changed
    have grown := (truthful.heldAt_le name (Nat.le_add_right p₁.moment 1)).length_le
    refine (ends_restart truthful named (read.len ▸ grown) read.identity).mono ?_
    rintro r p₂ ⟨moment, named', same, generation, ⟨origin', tracks'⟩, found', fails⟩
    simp only at moment generation tracks' found'
    refine ⟨by omega, origin', ?_,
      .inr ⟨unsettled, ⟨p₁.moment + 1, by omega, by omega, generation⟩, tracks'.begun⟩, ?_, fails⟩
    · rw [named']
      exact tracks'.grow (truthful.heldAt_le name (by omega))
    · intro again reads
      exact ⟨p₁.moment + 2, by omega, by omega, named', same, tracks', found' again reads⟩
  · next kept =>
      obtain ⟨same, named'⟩ := not_replaced (by simpa using kept)
      have goes : Continues outside key identity p ⟨p₁.work, p₁.moment + 1⟩ origin origin 0 :=
        continues_refl outside key identity origin work₁
      refine ends_pure ⟨by simp only; omega, origin, ?_, goes, ?_, by simp⟩
      · simp only [work₁]
        exact start.grow (truthful.heldAt_le _ (by omega))
      · rintro again reads
        cases reads
        refine ⟨p₁.moment, order, rfl, named', same.trans read.identity, ?_, ?_⟩
        · rw [← named']
          simp only [work₁]
          exact start
        · simp only [work₁]
          exact read

/-- What catching up leaves behind. -/
structure CaughtUp (outside : Outside) (key : String) (identity : String → String)
    (content : Nat → String → Bytes) (p : Progress) (origin : Nat)
    (r : Except LogError (String × Nat)) (p' : Progress) (origin' : Nat) : Prop where
  order : p.moment ≤ p'.moment
  tracks : Tracks outside.parsers (heldAt content p'.moment p'.work.name) origin' p'.work
  continues : Continues outside key identity p p' origin origin' 0
  /-- Short of the end, a whole batch was read. -/
  gains : ∀ name len, r = .ok (name, len) → p'.work.index.nextRead < len →
    Continues outside key identity p p' origin origin' maxBatch
  fails : ∀ error, r = .error error → Fault outside key error
  named : ∀ name len, r = .ok (name, len) → Named outside key name ∧ p'.work.name = name ∧
    p'.work.identity = identity name
  len : ∀ name len, r = .ok (name, len) → (heldAt content p.moment name).length ≤ len ∧
    len ≤ (heldAt content p'.moment name).length

theorem ends_catchUp :
    Ends (catchUp outside key) p fun r p' =>
      ∃ origin', CaughtUp outside key identity content p origin r p' origin' := by
  have stays : ∀ {p' : Progress} {error : LogError}, p'.work = p.work → p.moment ≤ p'.moment →
      Fault outside key error →
      CaughtUp outside key identity content p origin (.error error) p' origin := by
    intro p' error work' order fails
    refine ⟨order, ?_, continues_refl outside key identity origin work', by simp, ?_, by simp,
      by simp⟩
    · rw [work']
      exact tracks.grow (truthful.heldAt_le _ order)
    · rintro error' same
      cases same
      exact fails
  refine ends_bind (ends_fileName outside p key) ?_ ?_
  · rintro name p₁ ⟨work₁, order, named, _⟩
    have named := named name rfl
    refine ends_bind_ok rfl (ends_bind (ends_read (Q := fun r p₂ =>
      r = (outside.files p₁.moment).read name p₁.work.index.nextRead maxBatch ∧
        p₂ = ⟨p₁.work, p₁.moment + 1⟩) ⟨rfl, rfl⟩) ?_ ?_)
    · rintro found p₂ ⟨reads, rfl⟩
      have read := found_of_read truthful named reads.symm
      rw [work₁] at read
      refine ends_bind (ends_continue truthful tracks work₁ order named read) ?_ ?_
      · rintro again p₂ ⟨_, origin', _, goes, located, _⟩
        obtain ⟨m, order', moment, named', same, tracks', again'⟩ := located again rfl
        have grown : heldAt content m name <+: content (3 * m + 2) name :=
          truthful.content_le name (by omega)
        refine ends_bind (ends_absorb tracks' grown again'.leading again'.bytes) ?_ ?_
        · rintro _ p₃ ⟨_, moment', same', named'', generation, further, tracks''⟩
          have goes' := goes.reads generation named'' same' moment'.ge further.ge
          rw [Nat.zero_add] at goes'
          refine ends_pure ⟨origin', by omega, ?_, ?_, ?_, by simp, ?_, ?_⟩
          · rw [named'', named', moment', moment]
            exact tracks''.grow (truthful.content_le name (by omega))
          · exact goes'.weaken (Nat.zero_le _)
          · rintro name' len equal short
            cases equal
            have batch : again.bytes.length = maxBatch := by
              have longer := grown.length_le
              have bytes := congrArg List.length again'.bytes
              rw [List.length_take, List.length_drop] at bytes
              rw [again'.len] at short
              omega
            exact batch ▸ goes'
          · rintro name' len equal
            cases equal
            exact ⟨named, named''.trans named', same'.trans same⟩
          · rintro name' len equal
            cases equal
            rw [again'.len, moment', moment]
            exact ⟨(truthful.heldAt_le name order').length_le,
              (truthful.heldAt_le name (Nat.le_succ m)).length_le⟩
        · rintro error p₃ ⟨absurd_, _⟩
          cases absurd_
      · rintro error p₂ ⟨order', origin', tracks', goes, _, fails⟩
        refine ⟨origin', order', tracks', goes, by simp, ?_, by simp, by simp⟩
        rintro error' same
        cases same
        exact fails error rfl
    · rintro error p₂ ⟨fails, rfl⟩
      exact ⟨origin, stays work₁ (order.trans (Nat.le_succ _)) (.read named le_rfl fails.symm)⟩
  · rintro error p' ⟨work', order, _, fails⟩
    exact ⟨origin, stays work' order (fails error rfl)⟩

end

end Refresh

end Logging

end Nyanpasu
