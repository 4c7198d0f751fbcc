import Nyanpasu.Logging.Transcript

/-! # An index holds the window of its transcript

`Coherent` ties the parts of an index to its entries: the pool, the lists of starts and
the accounted bytes.  `Shows` ties the entries to a transcript.  Between evictions an
index may hold more than the window, never less; after one it holds exactly the window.
-/

namespace Nyanpasu

namespace Logging

namespace Index

variable {index : Index} {target : String} {entry : Nat → Entry} {key : Nat}

/-- An entry with its target spelled out. -/
def line (index : Index) (entry : Entry) : Line :=
  ⟨entry.start, entry.stop, entry.timestamp, entry.level, index.target entry, entry.unparsed,
    entry.truncated⟩

def lines (index : Index) : List Line := index.entries.map index.line

def startsOf (entries : List Entry) (selected : Entry → Bool) : List Nat :=
  (entries.filter selected).map (·.start)

structure Coherent (index : Index) : Prop where
  resolved : ∀ entry ∈ index.entries, ∃ target, index.targets.resolve entry.target = some target
  used : ∀ target ∈ index.targets.values,
    ∃ entry ∈ index.entries, index.targets.resolve entry.target = some target
  postings : ∀ key, index.postings.lookup key =
    if key < index.targets.values.length then
      some (startsOf index.entries fun entry => entry.target = key)
    else none
  levels : ∀ level, index.levels level =
    startsOf index.entries fun entry => entry.level = level
  bytes : index.targetBytes = (index.targets.values.map String.utf8ByteSize).sum

theorem resolve_lt (found : index.targets.resolve key = some target) :
    key < index.targets.values.length :=
  (List.getElem?_eq_some_iff.mp found).1

theorem target_eq {entry : Entry} (found : index.targets.resolve entry.target = some target) :
    index.target entry = target := by
  simp [Index.target, found]

/-- The pool holds the targets of the lines and nothing else. -/
theorem Coherent.targets (coherent : index.Coherent) :
    index.targets.values.toFinset = targetsOf index.lines := by
  ext target
  simp only [targetsOf, lines, List.mem_toFinset, List.mem_map]
  constructor
  · intro member
    obtain ⟨entry, inside, found⟩ := coherent.used target member
    exact ⟨index.line entry, ⟨entry, inside, rfl⟩, target_eq found⟩
  · rintro ⟨_, ⟨entry, inside, rfl⟩, rfl⟩
    obtain ⟨target, found⟩ := coherent.resolved entry inside
    rw [line, target_eq found]
    exact List.mem_of_getElem? found

theorem Coherent.weight (coherent : index.Coherent) :
    index.targetBytes = weight (targetsOf index.lines) := by
  rw [coherent.bytes, ← coherent.targets, weight_toFinset index.targets.nodup]

theorem Coherent.startsOf_new (coherent : index.Coherent)
    (new : index.targets.values.length ≤ key) :
    startsOf index.entries (fun entry => entry.target = key) = [] := by
  simp only [startsOf, List.map_eq_nil_iff, List.filter_eq_nil_iff, decide_eq_true_eq]
  rintro entry member rfl
  obtain ⟨target, found⟩ := coherent.resolved entry member
  exact absurd (resolve_lt found) (Nat.not_lt.mpr new)

/-! ## Putting an entry at the back -/

theorem startsOf_concat (entries : List Entry) (entry : Entry) (selected : Entry → Bool) :
    startsOf (entries ++ [entry]) selected =
      startsOf entries selected ++ if selected entry then [entry.start] else [] := by
  rw [startsOf, List.filter_append, List.map_append]
  congr 1
  by_cases holds : selected entry <;> simp [holds]

theorem intern_fst_lt (pool : Pool String) (target : String) :
    (pool.intern target).1 < (pool.intern target).2.values.length :=
  (List.getElem?_eq_some_iff.mp (pool.resolve_intern_self target)).1

theorem length_intern_le (pool : Pool String) (target : String) :
    pool.values.length ≤ (pool.intern target).2.values.length := by
  rw [pool.values_intern]
  split <;> simp

/-- A key is either an old one or the one just given out. -/
theorem lt_length_intern {pool : Pool String} :
    key < (pool.intern target).2.values.length ↔
      key < pool.values.length ∨ key = (pool.intern target).1 := by
  have bound := intern_fst_lt pool target
  have grown := length_intern_le pool target
  constructor
  · intro below
    unfold Pool.intern at below ⊢
    split at below <;> rename_i present
    · exact .inl below
    · simp only [present, dite_false]
      simp only [List.length_append, List.length_singleton] at below
      omega
  · rintro (old | rfl)
    · omega
    · exact bound

section Record

variable (coherent : index.Coherent) (keyed : ∀ key, (entry key).target = key)

theorem record_resolve_old {old : Entry}
    (found : index.targets.resolve old.target = some target) (other : String) :
    (index.record other entry).targets.resolve old.target = some target :=
  Pool.resolve_intern found other

include keyed in
theorem record_resolve_new (index : Index) (target : String) :
    (index.record target entry).targets.resolve (entry (index.targets.intern target).1).target =
      some target := by
  rw [keyed]
  exact index.targets.resolve_intern_self target

include coherent keyed in
theorem Coherent.record (target : String) : (index.record target entry).Coherent where
  resolved := by
    intro other member
    rcases List.mem_append.mp member with old | new
    · obtain ⟨name, found⟩ := coherent.resolved other old
      exact ⟨name, record_resolve_old found target⟩
    · cases List.mem_singleton.mp new
      exact ⟨target, record_resolve_new keyed index target⟩
  used := by
    intro name member
    have values := index.targets.values_intern target
    change name ∈ (index.targets.intern target).2.values at member
    have cases : name ∈ index.targets.values ∨ name = target := by
      rw [values] at member
      split at member
      · exact .inl member
      · simpa using member
    rcases cases with old | rfl
    · obtain ⟨other, inside, found⟩ := coherent.used name old
      exact ⟨other, List.mem_append_left _ inside, record_resolve_old found target⟩
    · exact ⟨_, List.mem_append_right _ (List.mem_singleton_self _),
        record_resolve_new keyed index name⟩
  postings := by
    intro key
    change (push index.postings _ _).lookup key =
      if key < (index.targets.intern target).2.values.length then
        some (startsOf (index.entries ++ [entry (index.targets.intern target).1]) _) else none
    rw [startsOf_concat, keyed, push]
    by_cases same : key = (index.targets.intern target).1
    · subst same
      rw [AList.lookup_insert, if_pos (intern_fst_lt _ _), coherent.postings]
      split
      · simp
      · next new => simp [coherent.startsOf_new (Nat.not_lt.mp new)]
    · have differs : ¬ (index.targets.intern target).1 = key := fun equal => same equal.symm
      rw [AList.lookup_insert_ne same, coherent.postings]
      simp [lt_length_intern, same, differs]
  levels := by
    intro level
    change pushLevel index.levels _ _ level =
      startsOf (index.entries ++ [entry (index.targets.intern target).1]) _
    rw [startsOf_concat, pushLevel, ← coherent.levels level]
    by_cases same : level = (entry (index.targets.intern target).1).level
    · simp [same]
    · simp [Function.update_of_ne same, Ne.symm same]
  bytes := by
    change index.targetBytes + _ = ((index.targets.intern target).2.values.map _).sum
    rw [index.targets.values_intern target, coherent.bytes]
    split <;> simp

include coherent keyed in
theorem lines_record (target : String) :
    (index.record target entry).lines = index.lines ++
      [{ (index.record target entry).line (entry (index.targets.intern target).1) with
          target := target }] := by
  change (index.entries ++ [entry (index.targets.intern target).1]).map
    (index.record target entry).line = _
  rw [List.map_append, List.map_singleton]
  congr 1
  · apply List.map_congr_left
    intro old member
    obtain ⟨name, found⟩ := coherent.resolved old member
    simp only [line, target_eq found, target_eq (record_resolve_old found target)]
  · simp only [line, target_eq (record_resolve_new keyed index target)]

end Record

/-! ## Eviction -/

/-- The two indexes stand at the same place of the stream. -/
structure SamePlace (index other : Index) : Prop where
  pending : other.pending = index.pending
  lineStart : other.lineStart = index.lineStart
  nextRead : other.nextRead = index.nextRead
  committed : other.committed = index.committed
  skipping : other.skipping = index.skipping
  malformed : other.malformed = index.malformed
  truncated : other.truncated = index.truncated

theorem SamePlace.refl (index : Index) : SamePlace index index :=
  ⟨rfl, rfl, rfl, rfl, rfl, rfl, rfl⟩

theorem rebuild_fold (index : Index) (kept : List Entry) (built : Index)
    (coherent : built.Coherent) (place : SamePlace index built) :
    let result := kept.foldl (fun built entry =>
      built.record (index.target entry) fun key => { entry with target := key }) built
    result.Coherent ∧ SamePlace index result ∧ result.lines = built.lines ++ kept.map index.line := by
  induction kept generalizing built with
  | nil => exact ⟨coherent, place, (List.append_nil _).symm⟩
  | cons entry kept ih =>
      have keyed : ∀ key, ({ entry with target := key } : Entry).target = key := fun _ => rfl
      have step := coherent.record keyed (index.target entry)
      obtain ⟨coherent', place', lines⟩ := ih _ step
        { place with }
      refine ⟨coherent', place', ?_⟩
      rw [List.foldl_cons, lines, lines_record coherent keyed, List.append_assoc]
      rfl

theorem new_coherent (start : Nat) : (new start).Coherent where
  resolved := by simp [new]
  used := by simp [new, Pool.empty]
  postings := by simp [new, Pool.empty]
  levels := fun _ => rfl
  bytes := rfl

theorem rebuild_spec (index : Index) (kept : List Entry) :
    (index.rebuild kept).Coherent ∧ SamePlace index (index.rebuild kept) ∧
      (index.rebuild kept).lines = kept.map index.line := by
  obtain ⟨coherent, place, lines⟩ := rebuild_fold index kept
    { index with
      entries := []
      targets := .empty
      postings := ∅
      levels := fun _ => []
      targetBytes := 0 }
    ⟨(new_coherent 0).resolved, (new_coherent 0).used, (new_coherent 0).postings,
      (new_coherent 0).levels, rfl⟩
    ⟨rfl, rfl, rfl, rfl, rfl, rfl, rfl⟩
  exact ⟨coherent, place, lines⟩

theorem lines_trimmed (index : Index) :
    (trimFront (fun entries => fits index.nextRead (entries.map (·.start))) index.entries).map
      index.line = trimFront (fitting index.nextRead) index.lines := by
  rw [lines, ← trimFront_map]
  congr 2
  funext entries
  rw [fitting, List.map_map]
  rfl

theorem evict_spec (coherent : index.Coherent) :
    index.evict.Coherent ∧ SamePlace index index.evict ∧
      index.evict.lines = trimFront (fitting index.nextRead) index.lines := by
  have trimmed := lines_trimmed index
  unfold evict
  dsimp only
  split
  · obtain ⟨rebuilt, place, lines⟩ := rebuild_spec index
      (trimFront (fun entries => fits index.nextRead (entries.map (·.start))) index.entries)
    exact ⟨{ rebuilt with },
      { place with }, lines.trans trimmed⟩
  · next whole =>
      refine ⟨coherent, .refl index, ?_⟩
      have all := (trimFront_suffix (fun entries => fits index.nextRead (entries.map (·.start)))
        index.entries).eq_of_length_le (Nat.not_lt.mp whole)
      rw [← trimmed, all, lines]

theorem evict_isPartial (index : Index) :
    index.evict.isPartial = (index.isPartial ||
      decide ((trimFront (fitting index.nextRead) index.lines).length < index.lines.length)) := by
  have trimmed := congrArg List.length (lines_trimmed index)
  rw [List.length_map] at trimmed
  rw [← trimmed, lines, List.length_map, evict]
  dsimp only
  split <;> simp_all

end Index

/-! ## Showing a transcript -/

open Index

variable {index : Index} {t : Transcript} {parsers : Parsers}

structure Index.Shows (index : Index) (t : Transcript) : Prop where
  coherent : index.Coherent
  bounded : index.targetBytes ≤ maxTargetBytes
  tail : index.lines <:+ t.lines
  window : t.window <:+ index.lines
  pending : index.pending = t.pending
  lineStart : index.lineStart = t.lineStart
  nextRead : index.nextRead = t.nextRead
  committed : index.committed = t.committed
  skipping : index.skipping = t.skipping
  malformed : index.malformed = t.malformed
  truncated : index.truncated = t.truncated
  isPartial : index.isPartial = (t.cut || decide (index.lines.length < t.lines.length))

theorem new_shows (start : Nat) : (Index.new start).Shows (.new start) where
  coherent := new_coherent start
  bounded := Nat.zero_le _
  tail := List.suffix_rfl
  window := List.suffix_rfl
  pending := rfl
  lineStart := rfl
  nextRead := rfl
  committed := rfl
  skipping := rfl
  malformed := rfl
  truncated := rfl
  isPartial := by simp [Index.new, Transcript.new, Index.lines]

namespace Index.Shows

variable (shows : index.Shows t)

include shows

/-- Eviction leaves the window. -/
theorem evict_lines : index.evict.lines = t.window := by
  rw [(evict_spec shows.coherent).2.2, shows.nextRead]
  exact trimFront_of_suffix shows.tail shows.window

theorem evict : index.evict.Shows t := by
  obtain ⟨coherent, place, lines⟩ := evict_spec shows.coherent
  have shorter : targetsOf index.evict.lines ⊆ targetsOf index.lines :=
    targetsOf_mono (shows.evict_lines ▸ shows.window.subset)
  refine {
    coherent
    bounded := ?_
    tail := shows.evict_lines ▸ trimFront_suffix _ _
    window := shows.evict_lines ▸ List.suffix_rfl
    pending := place.pending.trans shows.pending
    lineStart := place.lineStart.trans shows.lineStart
    nextRead := place.nextRead.trans shows.nextRead
    committed := place.committed.trans shows.committed
    skipping := place.skipping.trans shows.skipping
    malformed := place.malformed.trans shows.malformed
    truncated := place.truncated.trans shows.truncated
    isPartial := ?_ }
  · have bound := shows.bounded
    rw [shows.coherent.weight] at bound
    rw [coherent.weight]
    exact (weight_mono shorter).trans bound
  · have kept := shows.window.length_le
    have all := shows.tail.length_le
    rw [evict_isPartial, ← lines, shows.evict_lines, shows.isPartial, Bool.or_assoc]
    congr 1
    rw [← Bool.decide_or, decide_eq_decide]
    omega

theorem advance :
    ({ index with nextRead := index.nextRead + 1 } : Index).Shows
      { t with nextRead := t.nextRead + 1 } where
  __ := shows
  coherent := { shows.coherent with }
  window := by
    refine .trans ?_ shows.window
    exact trimFront_suffix_of_stricter (fun _ accepted => fits_of_later (Nat.le_succ _) accepted) _
  nextRead := congrArg (· + 1) shows.nextRead

/-! ## One line -/

theorem mem_values {target : String} :
    target ∈ index.targets.values ↔ target ∈ targetsOf index.lines := by
  rw [← shows.coherent.targets, List.mem_toFinset]

theorem window_targets : targetsOf t.window ⊆ targetsOf index.lines :=
  targetsOf_mono shows.window.subset

/-- The decision on a target does not depend on what of the past is still held. -/
theorem makeRoom (target : String) (truncated : Bool) :
    (index.makeRoom target truncated).1.Shows t ∧
    (index.makeRoom target truncated).2.1 = (if t.givesUp target then "" else target) ∧
    (index.makeRoom target truncated).2.2 = (truncated || t.givesUp target) ∧
    ((index.makeRoom target truncated).2.1 ∈ (index.makeRoom target truncated).1.targets.values ∨
      (index.makeRoom target truncated).1.targetBytes +
        (index.makeRoom target truncated).2.1.utf8ByteSize ≤ maxTargetBytes) := by
  have bound := shows.bounded
  have smaller := weight_mono shows.window_targets
  rw [← shows.coherent.weight] at smaller
  unfold Index.makeRoom
  by_cases known : target ∈ index.targets.values
  · -- A target of an entry that is about to go needs no room: it has its own.
    have kept : t.givesUp target = false := by
      simp only [Transcript.givesUp, Bool.and_eq_false_iff, decide_eq_false_iff_not, not_not]
      by_cases inside : target ∈ targetsOf t.window
      · exact .inl inside
      · have room := weight_add_le shows.window_targets inside (shows.mem_values.mp known)
        rw [← shows.coherent.weight] at room
        exact .inr (by omega)
    have found : (index.targets.get target).isNone = false := by simp [Pool.get, known]
    simp only [found, Bool.false_and, Bool.false_eq_true, if_false, kept, Bool.or_false]
    exact ⟨shows, trivial, trivial, .inl known⟩
  · have missing : (index.targets.get target).isNone = true := by simp [Pool.get, known]
    have outside : target ∉ targetsOf t.window :=
      fun inside => known (shows.mem_values.mpr (shows.window_targets inside))
    have decision : t.givesUp target =
        decide (maxTargetBytes < weight (targetsOf t.window) + target.utf8ByteSize) := by
      simp [Transcript.givesUp, outside]
    by_cases full : index.overflows target = true
    · have evicted := shows.evict
      have bytes : index.evict.overflows target = t.givesUp target := by
        rw [decision, overflows, evicted.coherent.weight, shows.evict_lines]
      simp only [missing, full, Bool.and_self, if_true, bytes]
      cases lost : t.givesUp target with
      | true =>
          refine ⟨evicted, rfl, (Bool.or_true _).symm, .inr ?_⟩
          exact evicted.bounded
      | false =>
          refine ⟨evicted, rfl, (Bool.or_false _).symm, .inr ?_⟩
          rw [lost] at bytes
          simpa [overflows] using bytes
    · have room : index.targetBytes + target.utf8ByteSize ≤ maxTargetBytes := by
        simpa [overflows] using full
      have kept : t.givesUp target = false := by
        rw [decision, decide_eq_false_iff_not]
        omega
      simp only [full, Bool.and_false, Bool.false_eq_true, if_false, kept, Bool.or_false]
      exact ⟨shows, trivial, trivial, .inr room⟩

/-- An entry whose target was decided as the transcript decides it, and has room. -/
theorem enter {target : String} {truncated : Bool} {bytes : Bytes}
    (name : target = if t.givesUp (parsers.read bytes).target then "" else (parsers.read bytes).target)
    (mark : truncated = ((parsers.read bytes).truncated || t.givesUp (parsers.read bytes).target))
    (room : target ∈ index.targets.values ∨ index.targetBytes + target.utf8ByteSize ≤ maxTargetBytes) :
    (index.enter (parsers.read bytes) target truncated).Shows (t.insert parsers bytes) := by
  let counted : Index := { index with
    malformed := index.malformed + (parsers.read bytes).unparsed.toNat
    truncated := index.truncated + truncated.toNat }
  let entry := (parsers.read bytes).entry index.lineStart index.nextRead truncated
  have keyed : ∀ key, (entry key).target = key := fun _ => rfl
  have coherent : counted.Coherent := { shows.coherent with }
  have added : { (counted.record target entry).line (entry (counted.targets.intern target).1) with
      target := target } = t.line parsers bytes := by
    simp only [Index.line, Transcript.line, entry, Reading.entry, shows.lineStart, shows.nextRead,
      name, mark]
  have lines : (index.enter (parsers.read bytes) target truncated).lines =
      index.lines ++ [t.line parsers bytes] := by
    rw [← added]
    exact lines_record coherent keyed target
  have grown : (t.insert parsers bytes).lines = t.lines ++ [t.line parsers bytes] := rfl
  refine { shows with
    coherent := coherent.record keyed target
    bounded := ?_
    tail := ?_
    window := ?_
    malformed := congrArg (· + (parsers.read bytes).unparsed.toNat) shows.malformed
    truncated := ?_
    isPartial := ?_ }
  · change index.targetBytes + (if target ∈ index.targets.values then 0 else _) ≤ maxTargetBytes
    rcases room with known | fits
    · simpa [known] using shows.bounded
    · split
      · exact shows.bounded
      · exact fits
  · obtain ⟨older, split⟩ := shows.tail
    refine ⟨older, ?_⟩
    rw [lines, grown, ← split, List.append_assoc]
  · -- The line enters at the back; what it pushes out at the front was not in the window.
    have closed : ∀ l, fitting t.nextRead (l ++ [t.line parsers bytes]) = true →
        fitting t.nextRead l = true := by
      intro l accepted
      rw [fitting, List.map_append] at accepted
      exact fits_of_append accepted
    change trimFront (fitting t.nextRead) (t.lines ++ [t.line parsers bytes]) <:+ _
    rw [← trimFront_append closed, lines]
    refine (trimFront_suffix _ _).trans ?_
    obtain ⟨older, split⟩ := shows.window
    refine ⟨older, ?_⟩
    rw [← List.append_assoc]
    exact congrArg (· ++ [t.line parsers bytes]) split
  · change index.truncated + truncated.toNat = _
    rw [shows.truncated, mark]
    rfl
  · have lengths : ∀ a b : Nat, decide (a < b) = decide (a + 1 < b + 1) := by simp
    rw [lines, grown, List.length_append, List.length_append]
    exact shows.isPartial.trans (congrArg (t.cut || ·) (lengths _ _))

theorem insert (parsers : Parsers) (bytes : Bytes) :
    (index.insert parsers bytes).Shows (t.insert parsers bytes) := by
  obtain ⟨shown, name, mark, room⟩ :=
    shows.makeRoom (parsers.read bytes).target (parsers.read bytes).truncated
  exact shown.enter name mark room

/-- The start of a new line. -/
theorem newline :
    ({ index with
      pending := []
      skipping := false
      committed := index.nextRead
      lineStart := index.nextRead } : Index).Shows
    { t with
      pending := []
      skipping := false
      committed := t.nextRead
      lineStart := t.nextRead } where
  __ := shows
  coherent := { shows.coherent with }
  pending := rfl
  lineStart := shows.nextRead
  committed := shows.nextRead
  skipping := rfl

theorem endLine (parsers : Parsers) : (index.endLine parsers).Shows (t.endLine parsers) := by
  unfold Index.endLine Transcript.endLine
  rw [← shows.skipping, ← shows.pending]
  split
  · exact shows.newline
  · exact (shows.insert parsers index.pending).newline

theorem feed (parsers : Parsers) (byte : UInt8) :
    (index.feed parsers byte).Shows (t.feed parsers byte) := by
  have next := shows.advance
  unfold Index.feed Transcript.feed
  generalize ({ index with nextRead := index.nextRead + 1 } : Index) = index at next ⊢
  generalize ({ t with nextRead := t.nextRead + 1 } : Transcript) = t at next ⊢
  dsimp only
  split
  · exact next.endLine parsers
  · by_cases skipping : index.skipping = true
    · rw [if_pos skipping, if_pos (next.skipping ▸ skipping)]
      exact next
    · have reading : ¬ t.skipping = true := next.skipping ▸ skipping
      rw [if_neg skipping, if_neg reading, ← next.pending]
      split
      · exact { next with
          coherent := { next.coherent with }
          pending := rfl
          skipping := rfl
          truncated := congrArg (· + 1) next.truncated
          isPartial := (Bool.true_or _).symm }
      · exact { next with
          coherent := { next.coherent with }
          pending := rfl }

theorem feedAll (parsers : Parsers) (bytes : Bytes) :
    (bytes.foldl (Index.feed parsers) index).Shows (bytes.foldl (Transcript.feed parsers) t) := by
  induction bytes generalizing index t with
  | nil => exact shows
  | cons byte bytes ih => exact ih (shows.feed parsers byte)

end Index.Shows

/-! ## Batches -/

theorem Index.append_ok (parsers : Parsers) (index : Index) {batch : Bytes} (short : batch.length ≤ maxBatch) :
    index.append parsers index.nextRead batch = .ok (batch.foldl (Index.feed parsers) index).evict := by
  have accepted : ¬ (index.nextRead ≠ index.nextRead ∨ maxBatch < batch.length) := by
    rw [not_or]
    exact ⟨not_not_intro rfl, Nat.not_lt.mpr short⟩
  rw [Index.append, if_neg accepted]

/-- A successful batch leaves the index with exactly the window. -/
theorem append_shows {offset : Nat} {bytes : Bytes} {later : Index} (shows : index.Shows t)
    (appends : index.append parsers offset bytes = .ok later) :
    later.Shows (bytes.foldl (Transcript.feed parsers) t) ∧
      later.lines = (bytes.foldl (Transcript.feed parsers) t).window := by
  unfold Index.append at appends
  split at appends
  · cases appends
  · cases appends
    have fed := shows.feedAll parsers bytes
    exact ⟨fed.evict, fed.evict_lines⟩

end Logging

end Nyanpasu
