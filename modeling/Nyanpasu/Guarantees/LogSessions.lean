import Nyanpasu.Logging.Sessions

/-! # The log sessions over all sequences of messages

Every live session has a slot to work with, slots and sessions stay within their limits,
each slot's work is in one place, and owners do not reach each other's sessions.
-/

namespace Nyanpasu

namespace Logging

namespace Actor

variable {a after : Actor} {now : UInt64} {file : String} {due : Option (String × Nat)}

/-- Whether a slot has its work, and the task that has it otherwise. -/
def view (a : Actor) (file : String) : Option (Bool × Option Nat) :=
  (a.slots.lookup file).map fun slot => (slot.work.isSome, slot.task)

theorem view_isSome : (a.view file).isSome = (a.slots.lookup file).isSome := by
  simp [view]

/-! ## What the actor keeps -/

/-- `due` is the task whose result is being handled. -/
structure Invariant (due : Option (String × Nat)) (a : Actor) : Prop where
  hosted : ∀ id session, a.sessions.lookup id = some session → (a.view session.file).isSome
  fewSessions : a.sessions.size ≤ 16
  fewSlots : a.slots.size ≤ 4
  exclusive : ∀ file work task, a.view file = some (work, task) → work = task.isNone
  unique : ∀ id id' session session', a.sessions.lookup id = some session →
    a.sessions.lookup id' = some session' → session.owner = session'.owner →
      session.request = session'.request → id = id'
  running : ∀ file handle, (∃ work, a.view file = some (work, some handle)) ↔
    (∃ task ∈ a.tasks, task.file = file ∧ task.handle = handle) ∨ due = some (file, handle)
  numbered : ∀ task ∈ a.tasks, task.handle < a.spawned
  distinct : ∀ task ∈ a.tasks, ∀ other ∈ a.tasks, task.handle = other.handle → task = other
  undue : ∀ file handle, due = some (file, handle) → ∀ task ∈ a.tasks, task.handle ≠ handle

theorem preStart_invariant : Invariant none preStart where
  hosted := by intro id session found; cases found
  fewSessions := Nat.zero_le _
  fewSlots := Nat.zero_le _
  exclusive := by intro file work task found; cases found
  unique := by intro id id' session session' found; cases found
  running := by
    intro file handle
    constructor
    · rintro ⟨work, found⟩
      cases found
    · rintro (⟨task, member, _⟩ | absurd_)
      · cases member
      · cases absurd_
  numbered := by intro task member; cases member
  distinct := by intro task member; cases member
  undue := by intro file handle absurd_; cases absurd_

/-! ## Leases -/

theorem lookup_reap_sessions (a : Actor) (now : UInt64) (id : String) :
    (a.reap now).sessions.lookup id =
      (a.sessions.lookup id).filter fun session => !decide (session.expires ≤ now) :=
  Table.lookup_retain _ _ id

theorem hosts_iff {sessions : Table String Session} :
    hosts sessions file = true ↔ ∃ id session, sessions.lookup id = some session ∧
      session.file = file := by
  simp only [hosts, List.any_eq_true, Table.mem_values, decide_eq_true_eq]
  constructor
  · rintro ⟨session, ⟨id, found⟩, same⟩
    exact ⟨id, session, found, same⟩
  · rintro ⟨id, session, found, same⟩
    exact ⟨session, ⟨id, found⟩, same⟩

/-- Reaping drops only slots that no session and no task needs. -/
theorem view_reap (a : Actor) (now : UInt64) (file : String) :
    (a.reap now).view file = a.view file ∨
      (a.reap now).view file = none ∧ hosts (a.reap now).sessions file = false ∧
        ∀ work task, a.view file = some (work, task) → task = none := by
  have looked : (a.reap now).slots.lookup file =
      ((a.slots.lookup file).map (a.settle now (a.reap now).sessions file)).filter fun slot =>
        slot.task.isSome || slot.idle.all fun since => decide (now < since + grace) := by
    rw [← Table.lookup_update]
    exact Table.lookup_retain _ _ file
  unfold view
  rw [looked]
  cases a.slots.lookup file with
  | none => exact .inl rfl
  | some slot =>
      rw [Option.map_some, Option.filter_some]
      split
      · exact .inl rfl
      · next dropped =>
          refine .inr ⟨rfl, ?_, ?_⟩
          · cases hosting : hosts (a.reap now).sessions file with
            | false => rfl
            | true => simp [settle, hosting] at dropped
          · intro work task found
            cases found
            cases running : slot.task with
            | none => rfl
            | some handle => simp [settle, running] at dropped

theorem view_reap_some {v : Bool × Option Nat} (found : (a.reap now).view file = some v) :
    a.view file = some v := by
  rcases view_reap a now file with same | ⟨gone, _⟩
  · exact same ▸ found
  · rw [gone] at found
    cases found

variable {handle : Nat}

theorem view_reap_running {work : Bool} (found : a.view file = some (work, some handle)) :
    (a.reap now).view file = some (work, some handle) := by
  rcases view_reap a now file with same | ⟨_, _, idle⟩
  · rw [same, found]
  · cases idle _ _ found

section

variable (inv : Invariant due a)

include inv

theorem Invariant.reap (now : UInt64) : Invariant due (a.reap now) where
  __ := inv
  hosted := by
    intro id session found
    have before := found
    rw [lookup_reap_sessions, Option.filter_eq_some_iff] at before
    rcases view_reap a now session.file with same | ⟨_, deserted, _⟩
    · rw [same]
      exact inv.hosted id session before.1
    · rw [hosts_iff.mpr ⟨id, session, found, rfl⟩] at deserted
      cases deserted
  fewSessions := (Table.size_retain_le _ _).trans inv.fewSessions
  fewSlots := by
    refine (Table.size_retain_le _ _).trans ?_
    rw [Table.size_update]
    exact inv.fewSlots
  exclusive := fun file work task found => inv.exclusive file work task (view_reap_some found)
  unique := by
    intro id id' session session' found found'
    rw [lookup_reap_sessions, Option.filter_eq_some_iff] at found found'
    exact inv.unique id id' session session' found.1 found'.1
  running := by
    intro file handle
    refine Iff.trans ?_ (inv.running file handle)
    constructor
    · rintro ⟨work, found⟩
      exact ⟨work, view_reap_some found⟩
    · rintro ⟨work, found⟩
      exact ⟨work, view_reap_running found⟩

/-! ## Operations on the parts -/

/-- Timers and replies are no part of the invariant. -/
theorem Invariant.of_parts (sessions : after.sessions = a.sessions) (slots : after.slots = a.slots)
    (tasks : after.tasks = a.tasks) (spawned : after.spawned = a.spawned)
    : Invariant due after := by
  obtain ⟨sessions', slots', timer', tasks', spawned', replies'⟩ := after
  cases sessions
  cases slots
  cases tasks
  cases spawned
  exact { inv with }

theorem Invariant.answer (port : Port) (reply : Reply) : Invariant due (a.answer port reply) :=
  inv.of_parts rfl rfl rfl rfl

theorem Invariant.answerIf (port : Option Port) (reply : Reply) :
    Invariant due (a.answerIf port reply) := by
  cases port with
  | none => exact inv
  | some port => exact inv.answer port reply

theorem Invariant.schedule (now : UInt64) : Invariant due (a.schedule now) :=
  inv.of_parts rfl rfl rfl rfl

end

theorem view_modify (a : Actor) (file : String) (f : Slot → Slot) (other : String) :
    ({ a with slots := a.slots.modify file f } : Actor).view other =
      if other = file then (a.slots.lookup file).map fun slot => ((f slot).work.isSome, (f slot).task)
      else a.view other := by
  unfold view
  split
  · next same =>
      rw [same, Table.lookup_modify, Option.map_map]
      rfl
  · next different => rw [Table.lookup_modify_ne different]

theorem view_spawn (present : (a.view file).isSome) (work : Work) (query : QueryLogs)
    (reply : Option Port) (other : String) :
    (a.spawn file work query reply).view other =
      if other = file then some (false, some a.spawned) else a.view other := by
  rw [view_isSome, Option.isSome_iff_exists] at present
  obtain ⟨slot, found⟩ := present
  have changed := view_modify a file
    (fun slot => { slot with work := none, task := some a.spawned }) other
  rw [found] at changed
  exact changed

theorem Invariant.spawn (inv : Invariant none a) (idle : a.view file = some (true, none))
    (work : Work) (query : QueryLogs) (reply : Option Port) :
    Invariant none (a.spawn file work query reply) := by
  have present : (a.view file).isSome := by
    rw [idle]
    rfl
  have viewed := view_spawn present work query reply
  have untasked : ∀ task ∈ a.tasks, task.file ≠ file := by
    intro task member same
    obtain ⟨_, busy⟩ := (inv.running file task.handle).mpr (.inl ⟨task, member, same, rfl⟩)
    rw [idle] at busy
    cases busy
  have tasks : ∀ {task}, task ∈ (a.spawn file work query reply).tasks ↔
      task ∈ a.tasks ∨ task = ⟨a.spawned, file, work, query, reply⟩ := by
    simp [Actor.spawn]
  constructor
  case hosted =>
    intro id session live
    rw [viewed]
    split
    · rfl
    · exact inv.hosted id session live
  case fewSessions => exact inv.fewSessions
  case fewSlots => simpa [Actor.spawn] using inv.fewSlots
  case exclusive =>
    intro other held task
    rw [viewed]
    split
    · intro same
      cases same
      rfl
    · exact inv.exclusive other held task
  case unique => exact inv.unique
  case running =>
    intro other handle
    rw [viewed]
    split
    · next same =>
        constructor
        · rintro ⟨held, same'⟩
          cases same'
          exact .inl ⟨_, tasks.mpr (.inr rfl), same.symm, rfl⟩
        · rintro (⟨task, member, named, numbered⟩ | absurd_)
          · rcases tasks.mp member with old | rfl
            · exact absurd (named.trans same) (untasked task old)
            · exact ⟨false, by rw [← numbered]⟩
          · cases absurd_
    · next different =>
        refine (inv.running other handle).trans ?_
        constructor
        · rintro (⟨task, member, named⟩ | absurd_)
          · exact .inl ⟨task, tasks.mpr (.inl member), named⟩
          · cases absurd_
        · rintro (⟨task, member, named, numbered⟩ | absurd_)
          · rcases tasks.mp member with old | rfl
            · exact .inl ⟨task, old, named, numbered⟩
            · exact absurd named.symm different
          · cases absurd_
  case numbered =>
    intro task member
    rcases tasks.mp member with old | rfl
    · exact (inv.numbered task old).trans (Nat.lt_succ_self _)
    · exact Nat.lt_succ_self _
  case distinct =>
    intro task member other member' same
    rcases tasks.mp member with old | rfl <;> rcases tasks.mp member' with old' | rfl
    · exact inv.distinct task old other old' same
    · exact absurd same (Nat.ne_of_lt (inv.numbered task old))
    · exact absurd same.symm (Nat.ne_of_lt (inv.numbered other old'))
    · rfl
  case undue =>
    intro file handle absurd_
    cases absurd_

/-- A slot with work has no task. -/
theorem Invariant.idle (inv : Invariant due a) {slot : Slot} {work : Work}
    (found : a.slots.lookup file = some slot) (held : slot.work = some work) :
    a.view file = some (true, none) := by
  have shown : a.view file = some (true, slot.task) := by
    rw [view, found, Option.map_some, held]
    rfl
  have alone := inv.exclusive file _ _ shown
  cases task : slot.task with
  | none => rw [shown, task]
  | some handle => simp [task] at alone

theorem Invariant.launch (inv : Invariant none a) (present : (a.view file).isSome)
    (query : QueryLogs) (reply : Option Port) :
    ∃ later, a.launch file query reply = some later ∧ Invariant none later ∧
      later.sessions = a.sessions ∧ ∀ task ∈ a.tasks, task ∈ later.tasks := by
  rw [view_isSome, Option.isSome_iff_exists] at present
  obtain ⟨slot, found⟩ := present
  simp only [Actor.launch, found]
  cases held : slot.work with
  | none =>
      refine ⟨_, rfl, inv.answerIf reply _, ?_⟩
      cases reply with
      | none => exact ⟨rfl, fun _ member => member⟩
      | some port => exact ⟨rfl, fun _ member => member⟩
  | some work =>
      exact ⟨_, rfl, inv.spawn (inv.idle found held) work query reply, rfl,
        fun task member => List.mem_append_left _ member⟩

/-- The result of a task ends it. -/
theorem Invariant.restore (inv : Invariant (some (file, handle)) a) (work : Work)
    (page : Option LogPage) : Invariant none (a.restore file work page) := by
  obtain ⟨_, busy⟩ := (inv.running file handle).mpr (.inr rfl)
  have viewed : ∀ other, (a.restore file work page).view other =
      if other = file then some (true, none) else a.view other := by
    intro other
    have changed := view_modify a file
      (fun slot => { slot with task := none, work := some work, page := page.getD slot.page }) other
    cases found : a.slots.lookup file with
    | none =>
        rw [view, found] at busy
        cases busy
    | some slot =>
        rw [found] at changed
        exact changed
  constructor
  case hosted =>
    intro id session live
    rw [viewed]
    split
    · rfl
    · exact inv.hosted id session live
  case fewSessions => exact inv.fewSessions
  case fewSlots => simpa [Actor.restore] using inv.fewSlots
  case exclusive =>
    intro other held task
    rw [viewed]
    split
    · intro same
      cases same
      rfl
    · exact inv.exclusive other held task
  case unique => exact inv.unique
  case running =>
    intro other number
    rw [viewed]
    split
    · next same =>
        constructor
        · rintro ⟨held, absurd_⟩
          cases absurd_
        · rintro (⟨task, member, named, rfl⟩ | absurd_)
          · -- The only task of this file is the one that has just ended.
            obtain ⟨_, busy'⟩ := (inv.running file task.handle).mpr
              (.inl ⟨task, member, named.trans same, rfl⟩)
            rw [busy] at busy'
            cases busy'
            exact absurd rfl (inv.undue file task.handle rfl task member)
          · cases absurd_
    · next different =>
        refine (inv.running other number).trans ?_
        constructor
        · rintro (running | elsewhere)
          · exact .inl running
          · cases elsewhere
            exact absurd rfl different
        · rintro (running | absurd_)
          · exact .inl running
          · cases absurd_
  case numbered => exact inv.numbered
  case distinct => exact inv.distinct
  case undue =>
    intro file handle absurd_
    cases absurd_

/-- A task that has ended is due until its result is handled. -/
theorem Invariant.remove (inv : Invariant none a) {task : Task} (member : task ∈ a.tasks) :
    Invariant (some (task.file, task.handle))
      { a with tasks := a.tasks.filter (·.handle ≠ task.handle) } where
  __ := inv
  running := by
    intro file handle
    refine (inv.running file handle).trans ?_
    simp only [List.mem_filter, decide_eq_true_eq, Option.some.injEq, Prod.mk.injEq]
    constructor
    · rintro (⟨other, inside, named, numbered⟩ | absurd_)
      · by_cases same : other.handle = task.handle
        · cases inv.distinct other inside task member same
          exact .inr ⟨named, numbered⟩
        · exact .inl ⟨other, ⟨inside, same⟩, named, numbered⟩
      · cases absurd_
    · rintro (⟨other, ⟨inside, _⟩, named, numbered⟩ | ⟨named, numbered⟩)
      · exact .inl ⟨other, inside, named, numbered⟩
      · exact .inl ⟨task, member, named, numbered⟩
  numbered := fun other inside => inv.numbered other (List.mem_of_mem_filter inside)
  distinct := fun other inside other' inside' =>
    inv.distinct other (List.mem_of_mem_filter inside) other' (List.mem_of_mem_filter inside')
  undue := by
    intro file handle same other inside
    cases same
    simpa using (List.mem_filter.mp inside).2

/-! ## Sessions -/

/-- Sessions of other owners stay as they are until their lease runs out. -/
def Untouched (who : Option String) (clock : List UInt64) (before after : Table String Session) :
    Prop :=
  ∀ id session, some session.owner ≠ who →
    (after.lookup id = some session → before.lookup id = some session) ∧
      (before.lookup id = some session →
        after.lookup id = some session ∨ ∃ now ∈ clock, session.expires ≤ now)

variable {who : Option String} {clock : List UInt64} {before middle later : Table String Session}

theorem Untouched.refl (who : Option String) (clock : List UInt64) (sessions : Table String Session) :
    Untouched who clock sessions sessions :=
  fun _ _ _ => ⟨id, .inl⟩

theorem Untouched.trans (first : Untouched who clock before middle)
    (second : Untouched who clock middle later) : Untouched who clock before later := by
  intro id session other
  refine ⟨fun found => (first id session other).1 ((second id session other).1 found), ?_⟩
  intro found
  rcases (first id session other).2 found with kept | expired
  · exact (second id session other).2 kept
  · exact .inr expired

theorem untouched_reap (who : Option String) (a : Actor) (member : now ∈ clock) :
    Untouched who clock a.sessions (a.reap now).sessions := by
  intro id session _
  rw [lookup_reap_sessions]
  refine ⟨fun found => (Option.filter_eq_some_iff.mp found).1, fun found => ?_⟩
  by_cases expired : session.expires ≤ now
  · exact .inr ⟨now, member, expired⟩
  · exact .inl (Option.filter_eq_some_iff.mpr ⟨found, by simpa using expired⟩)

variable {owner : String}

/-- Changing the sessions of one owner leaves the others alone. -/
theorem untouched_of_lookup
    (same : ∀ id session, session.owner ≠ owner → (later.lookup id = some session ↔ before.lookup id = some session)) :
    Untouched (some owner) clock before later := by
  intro id session other
  have equivalent := same id session fun equal => other (congrArg some equal)
  exact ⟨equivalent.mp, fun found => .inl (equivalent.mpr found)⟩

theorem lookup_renew (a : Actor) (id other : String) : (a.renew now id).sessions.lookup other =
    if other = id then (a.sessions.lookup id).map fun session => { session with expires := now + lease }
    else a.sessions.lookup other := by
  unfold renew
  split
  · next same => rw [same, Table.lookup_modify]
  · next different => rw [Table.lookup_modify_ne different]

/-- A renewed lease is the session's in everything but its end. -/
theorem lookup_renew_some {id other : String} {session : Session}
    (found : (a.renew now id).sessions.lookup other = some session) :
    ∃ old, a.sessions.lookup other = some old ∧ session.owner = old.owner ∧
      session.request = old.request ∧ session.file = old.file := by
  rw [lookup_renew] at found
  split at found
  · next same =>
      obtain ⟨old, lookup, renewed⟩ := Option.map_eq_some_iff.mp found
      rw [same]
      exact ⟨old, lookup, by rw [← renewed], by rw [← renewed], by rw [← renewed]⟩
  · exact ⟨session, found, rfl, rfl, rfl⟩

theorem Invariant.renew (inv : Invariant due a) (now : UInt64) (id : String) :
    Invariant due (a.renew now id) where
  __ := inv
  hosted := by
    intro other session found
    obtain ⟨old, lookup, _, _, file⟩ := lookup_renew_some found
    rw [file]
    exact inv.hosted other old lookup
  fewSessions := by
    simpa [Actor.renew] using inv.fewSessions
  unique := by
    intro one other session session' found found' owner request
    obtain ⟨old, lookup, owner₁, request₁, _⟩ := lookup_renew_some found
    obtain ⟨old', lookup', owner₂, request₂, _⟩ := lookup_renew_some found'
    refine inv.unique one other old old' lookup lookup' ?_ ?_
    · rw [← owner₁, ← owner₂, owner]
    · rw [← request₁, ← request₂, request]

theorem untouched_renew {id : String} {session : Session}
    (found : a.sessions.lookup id = some session) (own : session.owner = owner) :
    Untouched (some owner) clock a.sessions (a.renew now id).sessions := by
  apply untouched_of_lookup
  intro other session' foreign
  rw [lookup_renew]
  split
  · next same =>
      rw [same, found]
      constructor
      · intro renewed
        rw [Option.map_some, Option.some.injEq] at renewed
        exact absurd (by rw [← renewed, ← own]) foreign
      · intro equal
        rw [Option.some.injEq] at equal
        exact absurd (by rw [← equal, own]) foreign
  · exact Iff.rfl

/-! ## Opening -/

theorem view_ensureSlot (a : Actor) (generation file other : String) :
    (a.ensureSlot generation file).view other =
      if other = file then some ((a.view file).getD (true, none)) else a.view other := by
  unfold ensureSlot
  cases found : a.slots.lookup file with
  | some slot =>
      have changed := view_modify a file (fun slot => { slot with idle := none }) other
      have shown : a.view file = some (slot.work.isSome, slot.task) := by
        rw [view, found]
        rfl
      rw [found] at changed
      rw [shown]
      exact changed
  | none =>
      have shown : a.view file = none := by
        rw [view, found]
        rfl
      rw [shown]
      unfold view
      dsimp only
      split
      · next same =>
          rw [same, AList.lookup_insert]
          rfl
      · next different => rw [AList.lookup_insert_ne different]

theorem size_ensureSlot {generation : String}
    (room : (a.slots.lookup file).isSome ∨ a.slots.size < 4) (few : a.slots.size ≤ 4) :
    (a.ensureSlot generation file).slots.size ≤ 4 := by
  unfold ensureSlot
  cases found : a.slots.lookup file with
  | some slot => simpa using few
  | none =>
      rw [found] at room
      have left : a.slots.size < 4 := room.resolve_left (by simp)
      have grown := Table.size_insert found ⟨some (.new generation), none, emptyPage, none⟩
      simp only
      omega

@[simp] theorem sessions_ensureSlot (a : Actor) (generation file : String) :
    (a.ensureSlot generation file).sessions = a.sessions := by
  unfold ensureSlot
  split <;> rfl

@[simp] theorem tasks_ensureSlot (a : Actor) (generation file : String) :
    (a.ensureSlot generation file).tasks = a.tasks := by
  unfold ensureSlot
  split <;> rfl

@[simp] theorem spawned_ensureSlot (a : Actor) (generation file : String) :
    (a.ensureSlot generation file).spawned = a.spawned := by
  unfold ensureSlot
  split <;> rfl

theorem lookup_enroll (r : Readings) (owner request file id : String) :
    (a.enroll r owner request file).sessions.lookup id =
      if id = r.sessionId then some ⟨owner, request, file, r.now + lease⟩
      else a.sessions.lookup id := by
  simp only [enroll, sessions_ensureSlot]
  split
  · next same => rw [same, AList.lookup_insert]
  · next different => rw [AList.lookup_insert_ne different]

theorem view_enroll (r : Readings) (owner request file other : String) :
    (a.enroll r owner request file).view other =
      if other = file then some ((a.view file).getD (true, none)) else a.view other :=
  view_ensureSlot _ _ _ _

theorem Invariant.enroll (inv : Invariant none a) {r : Readings} {request : String}
    (fresh : a.sessions.lookup r.sessionId = none) (room : a.full file = false)
    (unmatched : ∀ id session, a.sessions.lookup id = some session → ¬ (session.owner = owner ∧ session.request = request)) :
    Invariant none (a.enroll r owner request file) := by
  simp only [full, Bool.or_eq_false_iff, decide_eq_false_iff_not, Bool.and_eq_false_iff,
    Option.isNone_eq_false_iff, Nat.not_le] at room
  constructor
  case hosted =>
    intro id session found
    rw [lookup_enroll] at found
    rw [view_enroll]
    split
    · rfl
    · next different =>
        split at found
        · cases found
          exact absurd rfl different
        · exact inv.hosted id session found
  case fewSessions =>
    have grown := Table.size_insert fresh ⟨owner, request, file, r.now + lease⟩
    have few := room.1
    simp only [Actor.enroll, sessions_ensureSlot]
    omega
  case fewSlots => exact size_ensureSlot room.2 inv.fewSlots
  case exclusive =>
    intro other held task found
    rw [view_enroll] at found
    split at found
    · cases before : a.view file with
      | none =>
          rw [before] at found
          cases found
          rfl
      | some shown =>
          rw [before] at found
          cases found
          exact inv.exclusive file _ _ before
    · exact inv.exclusive other held task found
  case unique =>
    intro id id' session session' found found' owners requests
    rw [lookup_enroll] at found found'
    split at found
    · next same =>
        cases found
        split at found'
        · next same' => rw [same, same']
        · exact absurd ⟨owners.symm, requests.symm⟩ (unmatched id' session' found')
    · split at found'
      · cases found'
        exact absurd ⟨owners, requests⟩ (unmatched id session found)
      · exact inv.unique id id' session session' found found' owners requests
  case running =>
    intro other handle
    refine Iff.trans ?_ ((inv.running other handle).trans ?_)
    · rw [view_enroll]
      split
      · next same =>
          rw [same]
          cases a.view file with
          | none => simp
          | some shown => exact Iff.rfl
      · exact Iff.rfl
    · simp [Actor.enroll]
  case numbered =>
    intro task member
    simp only [Actor.enroll, tasks_ensureSlot, spawned_ensureSlot] at member ⊢
    exact inv.numbered task member
  case distinct =>
    intro task member other member'
    simp only [Actor.enroll, tasks_ensureSlot] at member member'
    exact inv.distinct task member other member'
  case undue =>
    intro file handle absurd_
    cases absurd_

/-! ## Messages -/

/-- What handling a message does, apart from replies and the timer. -/
structure Handles (who : Option String) (clock : List UInt64) (a after : Actor) : Prop where
  invariant : Invariant none after
  others : Untouched who clock a.sessions after.sessions
  tasks : ∀ task ∈ a.tasks, task ∈ after.tasks

namespace Handles

variable {b : Actor}

/-- Only replies, timers and slots have changed. -/
theorem of_same (inv : Invariant none b) (sessions : b.sessions = a.sessions)
    (tasks : b.tasks = a.tasks) : Handles who clock a b where
  invariant := inv
  others := sessions ▸ .refl who clock a.sessions
  tasks := fun _ member => tasks ▸ member

theorem reap (handles : Handles who clock a b) (reading : now ∈ clock) :
    Handles who clock a (b.reap now) where
  invariant := handles.invariant.reap now
  others := handles.others.trans (untouched_reap who b reading)
  tasks := handles.tasks

theorem answer (handles : Handles who clock a b) (port : Port) (reply : Reply) :
    Handles who clock a (b.answer port reply) :=
  ⟨handles.invariant.answer port reply, handles.others, handles.tasks⟩

theorem launch (handles : Handles who clock a b) (present : (b.view file).isSome)
    (query : QueryLogs) (reply : Option Port) :
    ∃ later, b.launch file query reply = some later ∧ Handles who clock a later := by
  obtain ⟨later, runs, inv, sessions, tasks⟩ := handles.invariant.launch present query reply
  exact ⟨later, runs, inv, sessions ▸ handles.others,
    fun task member => tasks task (handles.tasks task member)⟩

end Handles

theorem handleOpen_handles (inv : Invariant none a) {r : Readings}
    (fresh : a.sessions.lookup r.sessionId = none) (owner : String) (request : OpenLogs)
    (reply : Port) :
    ∃ after, a.handleOpen r owner request reply = some after ∧
      Handles (some owner) r.clock a after := by
  have same : Handles (some owner) r.clock a a := .of_same inv rfl rfl
  unfold handleOpen
  dsimp only
  split
  · next id session found =>
      have matched := List.find?_some found
      have live := Table.mem_entries.mp (List.mem_of_find?_eq_some found)
      simp only [Bool.and_eq_true, decide_eq_true_eq] at matched
      split
      · exact ⟨_, rfl, same.answer _ _⟩
      · have renewed : Handles (some owner) r.clock a (a.renew r.now id) :=
          ⟨inv.renew r.now id, untouched_renew live matched.1, fun _ member => member⟩
        exact ⟨_, rfl, renewed.answer _ _⟩
  · next unfound =>
      split
      · exact ⟨_, rfl, same.answer _ _⟩
      · next room =>
          have unmatched : ∀ id session, a.sessions.lookup id = some session →
              ¬ (session.owner = owner ∧ session.request = request.requestId) := by
            intro id session found both
            have missed := List.find?_eq_none.mp unfound _ (Table.mem_entries.mpr found)
            simp [both] at missed
          have others : Untouched (some owner) r.clock a.sessions
              (a.enroll r owner request.requestId (request.file.getD "")).sessions := by
            apply untouched_of_lookup
            intro id session foreign
            rw [lookup_enroll]
            split
            · next same =>
                rw [same, fresh]
                constructor
                · intro equal
                  cases equal
                  exact absurd rfl foreign
                · intro absurd_
                  cases absurd_
            · exact Iff.rfl
          have enrolled : Handles (some owner) r.clock a
              (a.enroll r owner request.requestId (request.file.getD "")) :=
            ⟨inv.enroll fresh (Bool.eq_false_iff.mpr room) unmatched, others,
              by simp [Actor.enroll]⟩
          unfold admitSession
          dsimp only
          split
          · next idle =>
              refine (enrolled.answer reply _).launch ?_ _ none
              rw [view_isSome]
              exact Option.isSome_of_any idle
          · exact ⟨_, rfl, enrolled.answer reply _⟩

theorem handleQuery_handles (inv : Invariant none a) (r : Readings) (owner : String)
    (request : QueryLogs) (reply : Port) :
    ∃ after, a.handleQuery r owner request reply = some after ∧
      Handles (some owner) r.clock a after := by
  unfold handleQuery
  split
  · next session found =>
      obtain ⟨live, own⟩ := Option.filter_eq_some_iff.mp found
      have renewed : Handles (some owner) r.clock a (a.renew r.now request.session) :=
        ⟨inv.renew r.now request.session, untouched_renew live (by simpa using own),
          fun _ member => member⟩
      exact renewed.launch (inv.hosted request.session session live) request (some reply)
  · have same : Handles (some owner) r.clock a a := .of_same inv rfl rfl
    exact ⟨_, rfl, same.answer _ _⟩

theorem Invariant.erase (inv : Invariant due a) (id : String) :
    Invariant due { a with sessions := a.sessions.erase id } := by
  have kept : ∀ {other session},
      (AList.erase id a.sessions).lookup other = some session → a.sessions.lookup other = some session := by
    intro other session found
    by_cases same : other = id
    · rw [same, AList.lookup_erase] at found
      cases found
    · rwa [AList.lookup_erase_ne same] at found
  exact { inv with
    hosted := fun other session found => inv.hosted other session (kept found)
    fewSessions := (Table.size_erase_le _ _).trans inv.fewSessions
    unique := fun one other session session' found found' =>
      inv.unique one other session session' (kept found) (kept found') }

theorem handleClose_handles (inv : Invariant none a) (r : Readings) (owner id : String)
    (reply : Port) : Handles (some owner) r.clock a (a.handleClose r owner id reply) := by
  unfold handleClose
  split
  · have same : Handles (some owner) r.clock a a := .of_same inv rfl rfl
    exact same.answer _ _
  · next own =>
      have others : Untouched (some owner) r.clock a.sessions (a.sessions.erase id) := by
        apply untouched_of_lookup
        intro other session foreign
        by_cases same : other = id
        · rw [same, AList.lookup_erase]
          constructor
          · intro absurd_
            cases absurd_
          · intro live
            rw [live] at own
            exact absurd (by simpa using foreign) own
        · rw [AList.lookup_erase_ne same]
      have erased : Handles (some owner) r.clock a { a with sessions := a.sessions.erase id } :=
        ⟨inv.erase id, others, fun _ member => member⟩
      exact (erased.reap (by simp [Readings.clock])).answer _ _

theorem handleDone_handles (inv : Invariant (some (file, handle)) a) (r : Readings)
    (result : Outcome) (reply : Option Port) :
    ∃ after, a.handleDone r file result reply = some after ∧ Handles none r.clock a after := by
  obtain ⟨_, busy⟩ := (inv.running file handle).mpr (.inr rfl)
  have present : ¬ (a.slots.lookup file).isNone := by
    intro absent
    rw [view, Option.isNone_iff_eq_none.mp absent] at busy
    cases busy
  have reading : r.again ∈ r.clock := by simp [Readings.clock]
  have restored : ∀ work page answer, Handles none r.clock a
      ((a.restore file work page).answerIf reply answer) := by
    intro work page answer
    refine .of_same ((inv.restore work page).answerIf reply answer) ?_ ?_ <;> cases reply <;> rfl
  unfold handleDone
  rw [if_neg present]
  split
  · exact ⟨_, rfl, (restored _ _ _).reap reading⟩
  · exact ⟨_, rfl, restored _ _ _⟩
  · next work page =>
      dsimp only
      split
      · next again =>
          -- The file has sessions, so it has a slot.
          simp only [Bool.and_eq_true] at again
          obtain ⟨id, session, live, same⟩ := hosts_iff.mp again.2
          obtain ⟨later, runs, handles⟩ := (restored work (some { page with rows := [] })
            (.page (.ok page))).launch (same ▸ (restored _ _ _).invariant.hosted id session live)
              (latestQuery "") none
          exact ⟨_, congrArg _ runs, handles.reap reading⟩
      · exact ⟨_, rfl, (restored _ _ _).reap reading⟩

/-! ## Runs -/

/-- One message, whatever it is, is handled without a panic. -/
theorem step_handles (inv : Invariant none a) (event : Event) (possible : event.Possible a) :
    ∃ after, a.step event = some after ∧ Invariant none after ∧
      Untouched event.handled.owner event.readings.clock a.sessions after.sessions ∧
      ∀ task ∈ a.tasks, event.ends ≠ some task.handle → task ∈ after.tasks := by
  obtain ⟨fresh, what⟩ := possible
  have reading : event.readings.reap ∈ event.readings.clock := by simp [Readings.clock]
  have reaped := untouched_reap event.handled.owner a reading
  have fresh' : (a.reap event.readings.reap).sessions.lookup event.readings.sessionId = none := by
    rw [lookup_reap_sessions, fresh]
    rfl
  cases event with
  | message r m =>
      have inv' := inv.reap r.reap
      have handled : ∃ after, (a.reap r.reap).dispatch r m = some after ∧
          Handles m.owner r.clock (a.reap r.reap) after := by
        cases m with
        | openLogs owner request reply => exact handleOpen_handles inv' fresh' owner request reply
        | query owner request reply => exact handleQuery_handles inv' r owner request reply
        | close owner id reply => exact ⟨_, rfl, handleClose_handles inv' r owner id reply⟩
        | done file result reply =>
            rcases what with absurd_ | absurd_
            · cases absurd_
            · cases absurd_
        | tick => exact ⟨_, rfl, .of_same inv' rfl rfl⟩
      obtain ⟨after, runs, handles⟩ := handled
      exact ⟨after.schedule r.schedule, by simp [step, handle, runs],
        handles.invariant.schedule _, reaped.trans handles.others,
        fun task member _ => handles.tasks task member⟩
  | finished r task result =>
      have inv' := (inv.remove what).reap r.reap
      obtain ⟨after, runs, handles⟩ := handleDone_handles inv' r result task.reply
      refine ⟨after.schedule r.schedule, ?_, handles.invariant.schedule _,
        reaped.trans handles.others, ?_⟩
      · simp only [step, handle, dispatch, runs, Option.map_some]
      · intro other member running
        refine handles.tasks other (List.mem_filter.mpr ⟨member, ?_⟩)
        have different : other.handle ≠ task.handle := by
          intro same
          exact running (congrArg some same.symm)
        simpa using different

theorem Reachable.invariant (reachable : a.Reachable) : Invariant none a := by
  induction reachable with
  | start => exact preStart_invariant
  | step event _ possible steps ih =>
      obtain ⟨after, steps', inv, _⟩ := step_handles ih event possible
      rw [steps'] at steps
      cases steps
      exact inv

/-- What holds between two messages. -/
structure Sound (a : Actor) : Prop where
  hosted : ∀ id session, a.sessions.lookup id = some session →
    (a.slots.lookup session.file).isSome
  fewSessions : a.sessions.size ≤ 16
  fewSlots : a.slots.size ≤ 4
  exclusive : ∀ file slot, a.slots.lookup file = some slot →
    slot.work.isSome ∧ slot.task = none ∨ slot.work = none ∧
      ∃ task ∈ a.tasks, slot.task = some task.handle ∧ ∀ other ∈ a.tasks, other.file = file → other = task
  unique : ∀ id id' session session', a.sessions.lookup id = some session →
    a.sessions.lookup id' = some session' → session.owner = session'.owner →
      session.request = session'.request → id = id'

/-- What one message does. -/
structure Respects (event : Event) (a after : Actor) : Prop where
  kept : ∀ file slot handle, a.slots.lookup file = some slot → slot.task = some handle →
    event.ends ≠ some handle →
      ∃ slot', after.slots.lookup file = some slot' ∧ slot'.task = some handle
  others : Untouched event.handled.owner event.readings.clock a.sessions after.sessions
  refused : ∀ owner request reply, event.handled = .query owner request reply →
    (∀ session, a.sessions.lookup request.session = some session → session.owner ≠ owner) →
      after.tasks = a.tasks ∧
        after.replies = a.replies ++ [(reply, .page (.error .sessionExpired))]

theorem view_eq_some {v : Bool × Option Nat} : a.view file = some v ↔
    ∃ slot, a.slots.lookup file = some slot ∧ (slot.work.isSome, slot.task) = v :=
  Option.map_eq_some_iff

theorem Invariant.sound (inv : Invariant none a) : a.Sound where
  __ := inv
  hosted := fun id session live => view_isSome ▸ inv.hosted id session live
  exclusive := by
    intro file slot found
    have alone := inv.exclusive file _ _ (view_eq_some.mpr ⟨slot, found, rfl⟩)
    cases running : slot.task with
    | none =>
        rw [running] at alone
        exact .inl ⟨alone, rfl⟩
    | some handle =>
        rw [running] at alone
        have busy : a.view file = some (slot.work.isSome, some handle) :=
          view_eq_some.mpr ⟨slot, found, by rw [running]⟩
        rcases (inv.running file handle).mp ⟨_, busy⟩ with ⟨task, member, _, numbered⟩ | absurd_
        · refine .inr ⟨by simpa using alone, task, member, by rw [numbered], ?_⟩
          intro other member' named
          obtain ⟨_, busy'⟩ := (inv.running file other.handle).mpr (.inl ⟨other, member', named, rfl⟩)
          rw [busy] at busy'
          cases busy'
          exact inv.distinct other member' task member numbered.symm
        · cases absurd_

/-- Asking for a session of another owner is answered as if it had expired. -/
theorem refused_query {event : Event} {request : QueryLogs} {reply : Port}
    (asks : event.handled = .query owner request reply)
    (foreign : ∀ session, a.sessions.lookup request.session = some session → session.owner ≠ owner)
    (steps : a.step event = some after) :
    after.tasks = a.tasks ∧
      after.replies = a.replies ++ [(reply, .page (.error .sessionExpired))] := by
  cases event with
  | finished r task result => cases asks
  | message r m =>
      cases asks
      have none_ : ((a.reap r.reap).sessions.lookup request.session).filter
          (fun session => session.owner = owner) = none := by
        rw [lookup_reap_sessions, Option.filter_filter, Option.filter_eq_none_iff]
        intro session live
        simp [foreign session live]
      simp only [step, handle, dispatch, handleQuery, none_, Option.map_some, Option.some.injEq]
        at steps
      rw [← steps]
      exact ⟨rfl, rfl⟩

theorem session_actor_sound (a : Actor) (reachable : a.Reachable) :
    a.Sound ∧ ∀ event, event.Possible a →
      ∃ after, a.step event = some after ∧ after.Sound ∧ Respects event a after := by
  have inv := reachable.invariant
  refine ⟨inv.sound, fun event possible => ?_⟩
  obtain ⟨after, steps, inv', others, tasks⟩ := step_handles inv event possible
  refine ⟨after, steps, inv'.sound, ⟨?_, others, ?_⟩⟩
  · intro file slot handle found running unfinished
    have busy : a.view file = some (slot.work.isSome, some handle) :=
      view_eq_some.mpr ⟨slot, found, by rw [running]⟩
    rcases (inv.running file handle).mp ⟨_, busy⟩ with ⟨task, member, named, rfl⟩ | absurd_
    · obtain ⟨_, busy'⟩ := (inv'.running file task.handle).mpr
        (.inl ⟨task, tasks task member unfinished, named, rfl⟩)
      obtain ⟨slot', found', shown⟩ := view_eq_some.mp busy'
      exact ⟨slot', found', congrArg Prod.snd shown⟩
    · cases absurd_
  · intro owner request reply asks foreign
    exact refused_query asks foreign steps

/-- A session is opened, and a second owner asks for its page. -/
theorem session_actor_sound_opened : ∃ opened after,
    preStart.step (.message ⟨0, 0, 0, 0, "s", "g"⟩ (.openLogs "window" ⟨"a", none⟩ 0)) = some opened ∧
      opened.step (.message ⟨1, 1, 1, 1, "t", "h"⟩ (.query "other" (latestQuery "s") 1)) = some after ∧
      opened.Sound ∧ after.Sound := by
  have first : Event.Possible (.message ⟨0, 0, 0, 0, "s", "g"⟩ (.openLogs "window" ⟨"a", none⟩ 0))
      preStart := ⟨rfl, .inl rfl⟩
  obtain ⟨opened, steps, _, _⟩ := (session_actor_sound preStart .start).2 _ first
  have reached : opened.Reachable := .step _ .start first steps
  have second : Event.Possible (.message ⟨1, 1, 1, 1, "t", "h"⟩ (.query "other" (latestQuery "s") 1))
      opened := by
    refine ⟨?_, .inl rfl⟩
    cases steps
    rfl
  obtain ⟨sound, keeps⟩ := session_actor_sound opened reached
  obtain ⟨after, steps', sound', _⟩ := keeps _ second
  exact ⟨opened, after, steps, steps', sound, sound'⟩

end Actor

end Logging

end Nyanpasu
