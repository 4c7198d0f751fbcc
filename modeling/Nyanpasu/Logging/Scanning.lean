import Nyanpasu.Logging.Representation

/-! # A scan walks the matching entries

Whichever list of starts a scan picks, it meets the entries that match the filter in
their order away from the boundary, and the boundary it returns has exactly the entries
on its side that it has not met.
-/

namespace Nyanpasu

namespace Logging

/-- What a filter asks of a line, apart from its text. -/
def Filter.selects (filter : Filter) (line : Line) : Bool :=
  (filter.levels.isEmpty || filter.levels.contains line.level) &&
  filter.target.all (fun target => target == line.target) &&
  filter.fromMs.all (fun since => line.timestamp.any fun t => decide (since ≤ t)) &&
  filter.toMs.all (fun until_ => line.timestamp.any fun t => decide (t < until_))

namespace Index

variable {index : Index} {filter : Filter} {reverse : Bool} {boundary limit : Nat}
  {targetKey : Option Nat} {entry : Entry}

/-- Everything a scan relies on. -/
structure Orderly (index : Index) : Prop where
  coherent : index.Coherent
  spans : OrderedSpans Entry.start Entry.stop index.entries

/-- The matching entries on one side of the boundary, nearest first. -/
def matching (index : Index) (filter : Filter) (reverse : Bool) (boundary : Nat) : List Entry :=
  side Entry.start reverse boundary
    (index.entries.filter fun entry => filter.selects (index.line entry))

/-- A page in file order, as a scan in this direction meets it. -/
def nearest (reverse : Bool) (entries : List Entry) : List Entry :=
  if reverse then entries.reverse else entries

theorem mem_matching (member : entry ∈ index.matching filter reverse boundary) :
    entry ∈ side Entry.start reverse boundary index.entries := by
  rw [matching, side_filter] at member
  exact List.mem_of_mem_filter member

/-! ## Candidates -/

theorem find_start {entries : List Entry} (spans : OrderedSpans Entry.start Entry.stop entries)
    (member : entry ∈ entries) : entries.find? (·.start = entry.start) = some entry := by
  have starts := spans.starts
  induction entries with
  | nil => cases member
  | cons first entries ih =>
      rw [List.pairwise_cons] at starts
      rcases List.mem_cons.mp member with rfl | later
      · simp
      · have apart := starts.1 entry later
        have differs : ¬ first.start = entry.start := by omega
        rw [List.find?_cons_of_neg (by simpa using differs)]
        exact ih (spans.sublist (List.sublist_cons_self first entries)) later starts.2

/-- Comparing keys is comparing targets. -/
theorem accepts_eq (coherent : index.Coherent)
    (known : ∀ target, filter.target = some target → (index.targets.get target).isSome)
    (member : entry ∈ index.entries) :
    accepts filter (filter.target.bind index.targets.get) entry =
      filter.selects (index.line entry) := by
  have same : (filter.target.bind index.targets.get).all (fun key => key == entry.target) =
      filter.target.all (fun target => target == (index.line entry).target) := by
    cases wanted : filter.target with
    | none => rfl
    | some target =>
        obtain ⟨name, found⟩ := coherent.resolved entry member
        obtain ⟨key, get⟩ := Option.isSome_iff_exists.mp (known target wanted)
        have resolves := Pool.get_eq_some.mp get
        simp only [Option.bind_some, get, Option.all_some, line, target_eq found]
        rw [Bool.eq_iff_iff, beq_iff_eq, beq_iff_eq]
        constructor
        · rintro rfl
          exact Option.some.inj (resolves.symm.trans found)
        · rintro rfl
          exact Pool.resolve_injective resolves found
  simp only [accepts, Filter.selects, same]
  rfl

theorem selected_level {level : Level} (single : filter.levels = [level])
    (accepted : accepts filter targetKey entry = true) : entry.level = level := by
  simp only [accepts, single, Bool.and_eq_true] at accepted
  simpa using accepted.1.1.1

theorem selected_target {key : Nat} (wanted : targetKey = some key)
    (accepted : accepts filter targetKey entry = true) : entry.target = key := by
  simp only [accepts, wanted, Bool.and_eq_true, Option.all_some, beq_iff_eq] at accepted
  exact accepted.1.1.2.symm

/-- The picked list holds the starts of all entries of some kind, matching ones included. -/
theorem posting_spec (coherent : index.Coherent) {starts : List Nat}
    (picked : index.posting filter targetKey = some starts) :
    ∃ selected : Entry → Bool, starts = startsOf index.entries selected ∧
      ∀ entry, accepts filter targetKey entry = true → selected entry = true := by
  have byTarget : ∀ list, targetKey.bind index.postings.lookup = some list →
      ∃ selected : Entry → Bool, list = startsOf index.entries selected ∧
        ∀ entry, accepts filter targetKey entry = true → selected entry = true := by
    intro list found
    obtain ⟨key, wanted, lookup⟩ := Option.bind_eq_some_iff.mp found
    rw [coherent.postings] at lookup
    split at lookup
    · cases lookup
      exact ⟨_, rfl, fun entry accepted => by simpa using selected_target wanted accepted⟩
    · cases lookup
  have byLevel : ∀ level, filter.levels = [level] →
      ∃ selected : Entry → Bool, index.levels level = startsOf index.entries selected ∧
        ∀ entry, accepts filter targetKey entry = true → selected entry = true := by
    intro level single
    exact ⟨_, coherent.levels level,
      fun entry accepted => by simpa using selected_level single accepted⟩
  unfold posting at picked
  dsimp only at picked
  split at picked
  · next a b first second =>
      cases picked
      split
      · exact byTarget a first
      · split at second
        · next level single =>
            cases second
            exact byLevel level single
        · cases second
  · rcases Option.or_eq_some_iff.mp picked with first | ⟨_, second⟩
    · exact byTarget starts first
    · split at second
      · next level single =>
          cases second
          exact byLevel level single
      · cases second

theorem candidates_spec (orderly : index.Orderly) (filter : Filter) (targetKey : Option Nat) :
    ∃ selected : Entry → Bool,
      (∀ entry, accepts filter targetKey entry = true → selected entry = true) ∧
      ∀ reverse boundary, index.candidates (index.posting filter targetKey) reverse boundary =
        (side Entry.start reverse boundary (index.entries.filter selected)).map some := by
  cases picked : index.posting filter targetKey with
  | none =>
      refine ⟨fun _ => true, fun _ _ => rfl, fun reverse boundary => ?_⟩
      simp only [candidates, List.filter_true, orderly.spans.takeWhile_eq,
        orderly.spans.dropWhile_eq]
      rfl
  | some starts =>
      obtain ⟨selected, listed, complete⟩ := posting_spec orderly.coherent picked
      refine ⟨selected, complete, fun reverse boundary => ?_⟩
      have part : OrderedSpans Entry.start Entry.stop (index.entries.filter selected) :=
        orderly.spans.sublist List.filter_sublist
      have ids : (if reverse then (starts.takeWhile (· < boundary)).reverse
          else starts.dropWhile (· < boundary)) =
          (side Entry.start reverse boundary (index.entries.filter selected)).map (·.start) := by
        have before := part.takeWhile_eq boundary
        have behind := part.dropWhile_eq boundary
        rw [listed, startsOf, List.takeWhile_map, List.dropWhile_map]
        cases reverse with
        | false => simpa [side, Function.comp_def] using congrArg (List.map (·.start)) behind
        | true =>
            simpa [side, Function.comp_def, List.map_reverse] using
              congrArg (List.map (·.start)) before
      simp only [candidates]
      rw [ids, List.map_map]
      apply List.map_congr_left
      intro entry member
      have inside : entry ∈ index.entries := by
        cases reverse <;> simp only [side, Bool.false_eq_true, if_false, if_true,
          List.mem_reverse, List.mem_filter] at member <;> exact member.1.1
      exact find_start orderly.spans inside

/-! ## The loop -/

theorem getLast_cons (entry : Entry) (taken : List Entry) (near : Nat) :
    (((entry :: taken).getLast?).map (edge Entry.start Entry.stop reverse)).getD near =
      ((taken.getLast?).map (edge Entry.start Entry.stop reverse)).getD
        (edge Entry.start Entry.stop reverse entry) := by
  cases taken with
  | nil => rfl
  | cons next taken => simp [List.getLast?_cons]

/-- The loop takes candidates from the front: all of them, or enough to stop for. -/
theorem scanLoop_spec (accepted : Entry → Bool) (reverse : Bool) (limit : Nat)
    (found : List Entry) (scanned : Nat) (result : Scan) (fresh : result.more = false) :
    ∃ taken rest, found = taken ++ rest ∧
      scanLoop accepted reverse limit (found.map some) scanned result = some
        { entries := result.entries ++ taken.filter accepted
          boundary := ((taken.getLast?).map (edge Entry.start Entry.stop reverse)).getD result.boundary
          more := !rest.isEmpty } ∧
      (rest ≠ [] → taken = [] → maxScan ≤ scanned ∨ limit ≤ result.entries.length) := by
  induction found generalizing scanned result with
  | nil =>
      refine ⟨[], [], rfl, ?_, fun absurd_ => absurd rfl absurd_⟩
      cases result
      simp_all [scanLoop]
  | cons entry found ih =>
      simp only [List.map_cons, scanLoop]
      split
      · next full =>
          refine ⟨[], entry :: found, rfl, ?_, fun _ _ => full⟩
          simp
      · obtain ⟨taken, rest, split, runs, _⟩ := ih (scanned + 1)
          (if accepted entry then
            { result with
              boundary := if reverse then entry.start else entry.stop
              entries := result.entries ++ [entry] }
            else { result with boundary := if reverse then entry.start else entry.stop })
          (by split <;> exact fresh)
        refine ⟨entry :: taken, rest, by rw [split, List.cons_append], ?_, by simp⟩
        rw [runs]
        congr 1
        by_cases holds : accepted entry = true
        · simp [holds, getLast_cons, edge]
        · simp [holds, getLast_cons, edge]

/-! ## Pages -/

structure PageFrom (index : Index) (filter : Filter) (reverse : Bool) (boundary : Nat)
    (page : Scan) : Prop where
  found : nearest reverse page.entries ++
    (if page.more then index.matching filter reverse page.boundary else []) =
      index.matching filter reverse boundary
  edge : page.more = true → ∃ entry ∈ side Entry.start reverse boundary index.entries,
    page.boundary = edge Entry.start Entry.stop reverse entry
  left : page.more = true → side Entry.start reverse page.boundary index.entries ≠ []
  ends : page.more = false → page.boundary = index.farEnd reverse

/-- Every scan of an orderly index returns, and returns a page. -/
theorem scan_spec (orderly : index.Orderly) (filter : Filter) (direction : Direction)
    (boundary : Option Nat) (limit : Nat) :
    ∃ page, index.scan filter direction boundary limit = some page ∧
      index.PageFrom filter (decide (direction ≠ .after))
        (boundary.getD (index.farEnd !decide (direction ≠ .after))) page := by
  unfold scan
  generalize decide (direction ≠ .after) = reverse
  dsimp only
  generalize boundary.getD (index.farEnd !reverse) = boundary
  split
  · -- No entry has the wanted target, which is not in the pool.
    next missing =>
      refine ⟨_, rfl, ⟨?_, by simp, by simp, fun _ => rfl⟩⟩
      simp only [Bool.and_eq_true, Option.isSome_iff_exists] at missing
      obtain ⟨⟨target, wanted⟩, absent⟩ := missing
      have unknown : target ∉ index.targets.values := by
        rw [wanted] at absent
        exact Pool.get_eq_none.mp (by simpa using absent)
      have none_ : (index.entries.filter fun entry => filter.selects (index.line entry)) = [] := by
        rw [List.filter_eq_nil_iff]
        intro entry member selected
        obtain ⟨name, found⟩ := orderly.coherent.resolved entry member
        simp only [Filter.selects, wanted, Option.all_some, line, target_eq found,
          Bool.and_eq_true, beq_iff_eq] at selected
        exact unknown (selected.1.1.2 ▸ List.mem_of_getElem? found)
      cases reverse <;> simp [matching, none_, side, nearest]
  · next present =>
      obtain ⟨selected, complete, candidates⟩ := candidates_spec orderly filter
        (filter.target.bind index.targets.get)
      have known : ∀ target, filter.target = some target → (index.targets.get target).isSome := by
        intro target wanted
        simpa [wanted, Option.isSome_iff_ne_none] using present
      have matched : ∀ boundary, index.matching filter reverse boundary =
          (side Entry.start reverse boundary (index.entries.filter selected)).filter
            (accepts filter (filter.target.bind index.targets.get)) := by
        intro boundary
        rw [matching, ← side_filter, List.filter_filter]
        congr 1
        apply List.filter_congr
        intro entry member
        rw [← accepts_eq orderly.coherent known member]
        by_cases accepted : accepts filter (filter.target.bind index.targets.get) entry = true
        · simp [accepted, complete entry accepted]
        · simp [accepted]
      obtain ⟨taken, rest, walked, runs, started⟩ := scanLoop_spec
        (accepts filter (filter.target.bind index.targets.get)) reverse (max 1 (min limit maxPage))
        (side Entry.start reverse boundary (index.entries.filter selected)) 0 ⟨[], boundary, false⟩
        rfl
      have part : OrderedSpans Entry.start Entry.stop (index.entries.filter selected) :=
        orderly.spans.sublist List.filter_sublist
      rw [candidates, runs]
      refine ⟨_, rfl, ?_⟩
      cases rest with
      | nil =>
          refine ⟨?_, fun more => ?_, fun more => ?_, fun _ => rfl⟩
          · rw [matched boundary, walked]
            cases reverse <;> simp [nearest, conclude]
          · cases more
          · cases more
      | cons next rest =>
          -- The last candidate taken marks where the next page starts.
          have nonempty : taken ≠ [] := by
            intro empty
            rcases started (by simp) empty with impossible | impossible
            · exact absurd impossible (by decide)
            · simp at impossible
          obtain ⟨before, last, ending⟩ : ∃ before last, taken = before ++ [last] :=
            ⟨taken.dropLast, taken.getLast nonempty, (List.dropLast_append_getLast nonempty).symm⟩
          have walked' : side Entry.start reverse boundary (index.entries.filter selected) =
              before ++ last :: (next :: rest) := by
            rw [walked, ending, List.append_assoc, List.singleton_append]
          have remaining := part.side_edge walked'
          have inside : last ∈ side Entry.start reverse boundary index.entries := by
            have member : last ∈ side Entry.start reverse boundary
                (index.entries.filter selected) := by
              rw [walked']
              exact List.mem_append_right _ List.mem_cons_self
            rw [side_filter] at member
            exact List.mem_of_mem_filter member
          have edge_ : ((taken.getLast?).map (Nyanpasu.edge Entry.start Entry.stop reverse)).getD
              boundary = Nyanpasu.edge Entry.start Entry.stop reverse last := by
            rw [ending, List.getLast?_concat]
            rfl
          have further : next ∈ side Entry.start reverse
              (Nyanpasu.edge Entry.start Entry.stop reverse last) index.entries := by
            have member : next ∈ side Entry.start reverse
                (Nyanpasu.edge Entry.start Entry.stop reverse last)
                (index.entries.filter selected) := by
              rw [remaining]
              exact List.mem_cons_self
            rw [side_filter] at member
            exact List.mem_of_mem_filter member
          refine ⟨?_, fun _ => ⟨last, inside, edge_⟩, fun _ => ?_, fun more => ?_⟩
          · have later := matched (Nyanpasu.edge Entry.start Entry.stop reverse last)
            rw [remaining] at later
            rw [matched boundary, walked, List.filter_append]
            cases reverse <;> simp [nearest, conclude, edge_, later]
          · simp only [conclude, List.isEmpty_cons, Bool.not_false, if_true, edge_]
            exact List.ne_nil_of_mem further
          · cases more

theorem PageFrom.advances {page : Scan} (orderly : index.Orderly)
    (from_ : index.PageFrom filter reverse boundary page) (more : page.more = true) :
    Beyond reverse boundary page.boundary ∧
      (side Entry.start reverse page.boundary index.entries).length <
        (side Entry.start reverse boundary index.entries).length := by
  obtain ⟨entry, member, edge_⟩ := from_.edge more
  rw [edge_]
  exact ⟨orderly.spans.beyond_edge member, orderly.spans.length_side_edge member⟩

end Index

end Logging

end Nyanpasu
