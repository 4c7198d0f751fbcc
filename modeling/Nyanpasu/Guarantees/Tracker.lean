import Nyanpasu.Instance

/-! # The health tracker in closed form

The tracker keeps two counts and a state.  What they stand for is read off the sequence
of observations: the state is what the last decisive event made it.  Observations are
listed newest first.  A first observation that fails has the end of the grace period
computed, which panics if no instant is that late.
-/

namespace Nyanpasu

namespace HealthTracker

abbrev Observation := Nat × ProbeResult

/-- The tracker after the observations, unless one of them panicked. -/
def after (policy : HealthPolicy) (startedAt : Nat) : List Observation → Option HealthTracker
  | [] => some (.new policy startedAt)
  | (now, result) :: earlier => do
      let t ← after policy startedAt earlier
      let (_, next) ← t.observe now result
      return next

/-- The grace period ends at an instant, or its end is never asked for. -/
def lasts (policy : HealthPolicy) (startedAt : Nat) (seen : List Observation) : Bool :=
  decide (startedAt + policy.startPeriod < instantLimit) || seen.getLast?.all (·.2.isHealthy)

/-- The tracker after the observations, with instants of any size. -/
def tracked (policy : HealthPolicy) (startedAt : Nat) : List Observation → HealthTracker
  | [] => .new policy startedAt
  | (now, result) :: earlier => (tracked policy startedAt earlier).advance now result

/-- The healthy observations in a row at the end. -/
def row : List Observation → Nat
  | (_, .healthy) :: earlier => row earlier + 1
  | _ => 0

/-- A failure counts after a healthy observation or after the grace period. -/
def counts (policy : HealthPolicy) (startedAt : Nat) (earlier : List Observation) (now : Nat) :
    Bool :=
  earlier.any (·.2.isHealthy) || decide (startedAt + policy.startPeriod ≤ now)

/-- The counted failures since the last healthy observation. -/
def failures (policy : HealthPolicy) (startedAt : Nat) : List Observation → Nat
  | (now, .unhealthy _) :: earlier =>
      failures policy startedAt earlier + if counts policy startedAt earlier now then 1 else 0
  | _ => 0

/-- The decisive event that the last observation completes. -/
def decides (policy : HealthPolicy) (startedAt : Nat) : List Observation → Option HealthState
  | [] => none
  | (now, .healthy) :: earlier =>
      if policy.successThreshold ≤ row ((now, .healthy) :: earlier) then some .healthy else none
  | (now, .unhealthy detail) :: earlier =>
      if counts policy startedAt earlier now ∧ policy.failureThreshold ≤
          failures policy startedAt ((now, .unhealthy detail) :: earlier) then some .unhealthy
      else none

/-- What the fields of the tracker stand for.  The success count is the row only while
    there is something to reach. -/
structure Stands (policy : HealthPolicy) (startedAt : Nat) (seen : List Observation)
    (t : HealthTracker) : Prop where
  samePolicy : t.policy = policy
  sameStart : t.startedAt = startedAt
  ended : t.graceEnded = seen.any (·.2.isHealthy)
  failed : t.consecutiveFailures = min (failures policy startedAt seen) (2 ^ 32 - 1)
  succeeded : t.state ≠ .healthy →
    t.consecutiveSuccesses = row seen ∧ row seen < policy.successThreshold

variable {policy : HealthPolicy} {startedAt : Nat} {t : HealthTracker} {seen : List Observation}

theorem Stands.observeHealthy (stands : Stands policy startedAt seen t)
    (small : policy.successThreshold < 2 ^ 32) (now : Nat) :
    Stands policy startedAt ((now, .healthy) :: seen) t.observeHealthy ∧
      t.observeHealthy.state =
        (decides policy startedAt ((now, .healthy) :: seen)).getD t.state := by
  obtain ⟨rfl, rfl, -, -, succeeded⟩ := stands
  by_cases healthy : t.state = .healthy
  · simp only [HealthTracker.observeHealthy, healthy, if_true, decides]
    refine ⟨⟨rfl, rfl, by simp [ProbeResult.isHealthy], by simp [failures], by simp⟩, ?_⟩
    split <;> rfl
  · obtain ⟨count, below⟩ := succeeded healthy
    have next : saturatingSucc t.consecutiveSuccesses = row seen + 1 := by
      rw [count, saturatingSucc, if_pos (by omega)]
    by_cases reached : t.policy.successThreshold ≤ row seen + 1
    · simp only [HealthTracker.observeHealthy, healthy, if_false, next, decides, row, reached,
        if_true]
      exact ⟨⟨rfl, rfl, by simp [ProbeResult.isHealthy], by simp [failures], by simp⟩, rfl⟩
    · simp only [HealthTracker.observeHealthy, healthy, if_false, next, decides, row, reached]
      exact ⟨⟨rfl, rfl, by simp [ProbeResult.isHealthy], by simp [failures],
        fun _ => ⟨rfl, Nat.lt_of_not_le reached⟩⟩, rfl⟩

theorem Stands.observeUnhealthy (stands : Stands policy startedAt seen t)
    (fits : policy.failureThreshold < 2 ^ 32) (now : Nat) (detail : Option String) :
    Stands policy startedAt ((now, .unhealthy detail) :: seen) (t.observeUnhealthy now detail) ∧
      (t.observeUnhealthy now detail).state =
        (decides policy startedAt ((now, .unhealthy detail) :: seen)).getD t.state := by
  obtain ⟨rfl, rfl, ended, failed, -⟩ := stands
  have broken : row ((now, .unhealthy detail) :: seen) < t.policy.successThreshold :=
    t.policy.successPositive
  have before : ((now, ProbeResult.unhealthy detail) :: seen).any (·.2.isHealthy) =
      seen.any (·.2.isHealthy) := by simp [ProbeResult.isHealthy]
  by_cases early : (!t.graceEnded && decide (now < t.startedAt + t.policy.startPeriod)) = true
  · have uncounted : counts t.policy t.startedAt seen now = false := by
      simpa [counts, ← ended] using early
    simp only [HealthTracker.observeUnhealthy, early, if_true, decides, uncounted,
      Bool.false_eq_true, false_and, if_false, Option.getD_none, and_true]
    exact ⟨rfl, rfl, ended.trans before.symm, by simp [failures, uncounted, failed],
      fun _ => ⟨rfl, broken⟩⟩
  · have counted : counts t.policy t.startedAt seen now = true := by
      by_cases past : t.graceEnded = true
      · simp [counts, ← ended, past]
      · simpa [counts, ← ended, past] using early
    have isFailures : failures t.policy t.startedAt ((now, .unhealthy detail) :: seen) =
        failures t.policy t.startedAt seen + 1 := by simp [failures, counted]
    have next : saturatingSucc t.consecutiveFailures =
        min (failures t.policy t.startedAt seen + 1) (2 ^ 32 - 1) := by
      rw [failed, saturatingSucc]
      split <;> omega
    have stands' (u : HealthTracker) (policy_ : u.policy = t.policy)
        (start : u.startedAt = t.startedAt) (grace : u.graceEnded = t.graceEnded)
        (fails_ : u.consecutiveFailures = saturatingSucc t.consecutiveFailures)
        (none : u.consecutiveSuccesses = 0) :
        Stands t.policy t.startedAt ((now, .unhealthy detail) :: seen) u :=
      ⟨policy_, start, grace.trans (ended.trans before.symm),
        by rw [fails_, next, isFailures], fun _ => ⟨none, broken⟩⟩
    unfold HealthTracker.observeUnhealthy
    dsimp only
    rw [if_neg early]
    simp only [decides, counted, true_and, isFailures]
    by_cases reached : t.policy.failureThreshold ≤ failures t.policy t.startedAt seen + 1
    · have reaches : t.policy.failureThreshold ≤ saturatingSucc t.consecutiveFailures := by omega
      simp only [reaches, reached, and_true, if_true, Option.getD_some]
      split
      · exact ⟨stands' _ rfl rfl rfl rfl rfl, rfl⟩
      · exact ⟨stands' _ rfl rfl rfl rfl rfl, by simp_all⟩
    · have below : ¬ t.policy.failureThreshold ≤ saturatingSucc t.consecutiveFailures := by omega
      simp only [below, reached, and_false, if_false, Option.getD_none, and_true]
      exact stands' _ rfl rfl rfl rfl rfl

/-- The most recent decisive event was one of this kind. -/
def LastDecides (policy : HealthPolicy) (startedAt : Nat) (seen : List Observation)
    (state : HealthState) : Prop :=
  ∃ upTo, upTo <:+ seen ∧ decides policy startedAt upTo = some state ∧
    ∀ later, later <:+ seen → upTo.length < later.length → decides policy startedAt later = none

theorem LastDecides.unique {state other : HealthState}
    (last : LastDecides policy startedAt seen state)
    (last' : LastDecides policy startedAt seen other) : state = other := by
  obtain ⟨upTo, ends, decided, quiet⟩ := last
  obtain ⟨upTo', ends', decided', quiet'⟩ := last'
  rcases Nat.lt_trichotomy upTo.length upTo'.length with longer | same | longer
  · simp [quiet upTo' ends' longer] at decided'
  · rw [(List.suffix_of_suffix_length_le ends ends' same.le).eq_of_length same, decided'] at decided
    exact (Option.some.inj decided).symm
  · simp [quiet' upTo ends longer] at decided

section

variable (small : policy.successThreshold < 2 ^ 32) (fits : policy.failureThreshold < 2 ^ 32)

include small fits

theorem Stands.advance (stands : Stands policy startedAt seen t) (now : Nat)
    (result : ProbeResult) : Stands policy startedAt ((now, result) :: seen) (t.advance now result) ∧
      (t.advance now result).state =
        (decides policy startedAt ((now, result) :: seen)).getD t.state := by
  cases result with
  | healthy => exact stands.observeHealthy small now
  | unhealthy detail => exact stands.observeUnhealthy fits now detail

theorem stands_tracked (seen : List Observation) :
    Stands policy startedAt seen (tracked policy startedAt seen) := by
  induction seen with
  | nil => exact ⟨rfl, rfl, rfl, rfl, fun _ => ⟨rfl, policy.successPositive⟩⟩
  | cons observation earlier ih => exact (ih.advance small fits _ _).1

/-- The end of the grace period is asked for by the first observation, or never. -/
theorem lasts_cons (now : Nat) (result : ProbeResult) (earlier : List Observation) :
    lasts policy startedAt ((now, result) :: earlier) =
      (lasts policy startedAt earlier && !(tracked policy startedAt earlier).overflows result) := by
  have stands : Stands policy startedAt earlier (tracked policy startedAt earlier) :=
    stands_tracked small fits earlier
  rw [overflows, stands.ended, stands.samePolicy, stands.sameStart, lasts, lasts]
  by_cases ends : startedAt + policy.startPeriod < instantLimit
  · simp [ends, Nat.not_le_of_lt ends]
  · rw [decide_eq_false ends, decide_eq_true (Nat.le_of_not_lt ends)]
    cases earlier using List.reverseRecOn with
    | nil => simp
    | append_singleton rest oldest =>
        rw [← List.cons_append, List.getLast?_concat, List.getLast?_concat]
        cases healthy : oldest.2.isHealthy <;> simp [healthy]

theorem after_eq (seen : List Observation) : after policy startedAt seen =
    if lasts policy startedAt seen then some (tracked policy startedAt seen) else none := by
  induction seen with
  | nil => simp [after, lasts, tracked]
  | cons observation earlier ih =>
      rw [after, ih, lasts_cons small fits]
      cases lasts policy startedAt earlier with
      | false => rfl
      | true =>
          cases late : (tracked policy startedAt earlier).overflows observation.2 <;>
            simp [observe, late, tracked]

theorem state_tracked_cases (seen : List Observation) :
    (tracked policy startedAt seen).state ≠ .starting ∧
        LastDecides policy startedAt seen (tracked policy startedAt seen).state ∨
      (tracked policy startedAt seen).state = .starting ∧
        ∀ upTo, upTo <:+ seen → decides policy startedAt upTo = none := by
  induction seen with
  | nil =>
      refine .inr ⟨rfl, fun upTo ends => ?_⟩
      rw [List.suffix_nil.mp ends]
      rfl
  | cons observation earlier ih =>
      rw [tracked, ((stands_tracked small fits earlier).advance small fits _ _).2]
      cases decided : decides policy startedAt (observation :: earlier) with
      | some state =>
          refine .inl ⟨?_, observation :: earlier, List.suffix_rfl, decided,
            fun later ends longer => absurd ends.length_le (Nat.not_le_of_lt longer)⟩
          obtain ⟨now, _ | detail⟩ := observation <;>
            simp only [decides, Option.ite_none_right_eq_some, Option.some.injEq] at decided <;>
            simp [← decided.2]
      | none =>
          rcases ih with ⟨left, upTo, ends, event, quiet⟩ | ⟨starting, quiet⟩
          · refine .inl ⟨left, upTo, ends.trans (List.suffix_cons _ _), event, fun later ends' => ?_⟩
            rcases List.suffix_cons_iff.mp ends' with rfl | within
            · exact fun _ => decided
            · exact quiet later within
          · refine .inr ⟨starting, fun upTo ends => ?_⟩
            rcases List.suffix_cons_iff.mp ends with rfl | within
            · exact decided
            · exact quiet upTo within

theorem state_tracked_iff (seen : List Observation) :
    ((tracked policy startedAt seen).state = .healthy ↔
        LastDecides policy startedAt seen .healthy) ∧
      ((tracked policy startedAt seen).state = .unhealthy ↔
        LastDecides policy startedAt seen .unhealthy) ∧
      ((tracked policy startedAt seen).state = .starting ↔
        ∀ upTo, upTo <:+ seen → decides policy startedAt upTo = none) := by
  rcases @state_tracked_cases policy startedAt small fits seen with
    ⟨left, last⟩ | ⟨starting, quiet⟩
  · have same (state : HealthState) : (tracked policy startedAt seen).state = state ↔
        LastDecides policy startedAt seen state :=
      ⟨fun is => is ▸ last, last.unique⟩
    refine ⟨same _, same _, fun starting => absurd starting left, fun quiet => ?_⟩
    obtain ⟨upTo, ends, decided, -⟩ := last
    simp [quiet upTo ends] at decided
  · have never (state : HealthState) : ¬ LastDecides policy startedAt seen state := by
      rintro ⟨upTo, ends, decided, -⟩
      simp [quiet upTo ends] at decided
    simpa [starting, never] using quiet

end

/-- After any sequence of timed observations that lasts there is a state, in terms of the
    last decisive event; any other sequence panics.  Both thresholds fit their `u32`. -/
theorem tracker_closed_form (policy : HealthPolicy) (startedAt : Nat) (seen : List Observation)
    (small : policy.successThreshold < 2 ^ 32) (fits : policy.failureThreshold < 2 ^ 32) :
    (lasts policy startedAt seen = true → ∃ t, after policy startedAt seen = some t ∧
      (t.state = .healthy ↔ LastDecides policy startedAt seen .healthy) ∧
      (t.state = .unhealthy ↔ LastDecides policy startedAt seen .unhealthy) ∧
      (t.state = .starting ↔ ∀ upTo, upTo <:+ seen → decides policy startedAt upTo = none)) ∧
    (lasts policy startedAt seen = false → after policy startedAt seen = none) := by
  rw [after_eq small fits]
  refine ⟨fun lasting => ⟨_, if_pos lasting, state_tracked_iff small fits seen⟩, fun panics => ?_⟩
  rw [panics]
  rfl

/-- One failure decides nothing, the success after it does. -/
theorem tracker_closed_form_default : ∃ t,
    after .default 5 [(9, .healthy), (6, .unhealthy none)] = some t ∧ t.state = .healthy ∧
      LastDecides .default 5 [(9, .healthy), (6, .unhealthy none)] .healthy := by
  have lasting : lasts .default 5 [(9, .healthy), (6, .unhealthy none)] = true := by
    simp [lasts, instantLimit, HealthPolicy.default]
  obtain ⟨t, run, healthy, -⟩ :=
    (tracker_closed_form .default 5 _ (by decide) (by decide)).1 lasting
  have decided : LastDecides .default 5 [(9, .healthy), (6, .unhealthy none)] .healthy :=
    ⟨_, List.suffix_rfl, rfl, fun later ends longer =>
      absurd ends.length_le (Nat.not_le_of_lt longer)⟩
  exact ⟨t, run, healthy.mpr decided, decided⟩

/-- The default policy with the start period `Duration::MAX`. -/
def endless : HealthPolicy := { HealthPolicy.default with startPeriod := 18446744073709551615999 }

/-- The policy is accepted, and its first failure panics. -/
theorem tracker_panics : HealthPolicy.new endless = .ok endless ∧
    ∀ startedAt now detail, after endless startedAt [(now, .unhealthy detail)] = none := by
  refine ⟨rfl, fun startedAt now detail => ?_⟩
  have late : ¬ startedAt + endless.startPeriod < instantLimit := by
    simp only [instantLimit, endless]
    omega
  rw [after_eq (by decide) (by decide), lasts, decide_eq_false late]
  rfl

end HealthTracker

end Nyanpasu
