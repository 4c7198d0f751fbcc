import Nyanpasu.Console.Bounds

/-! # Guarantees of the console parser

Which lines the parser can be given without a panic, and what the frames it emits keep of
the lines that went in.
-/

namespace Nyanpasu

namespace Console

variable {Instant Date Time : Type}

/-! ## One line -/

theorem parseHeader_returns_iff (cal : Calendar Instant Date Time) (parser : LogParser Date Time)
    (line : Text) (observedAt : Instant) :
    (∃ r, parser.parseHeader cal line observedAt = .ok r) ↔
      ¬ (parser.kind = .clashRust ∧ SplitsLine line) := by
  unfold LogParser.parseHeader
  cases kind : parser.kind with
  | mihomo => simp
  | clashPremium => simp
  | meow =>
      obtain ⟨r, run⟩ := returns_parseMeow cal line
      simp [run, Except.map]
  | clashRust =>
      simp only [true_and]
      rw [← returns_parseClashRs cal line observedAt]
      unfold Scan.Returns
      cases (parseClashRs cal line observedAt).run with
      | error panic => simp [Except.map]
      | ok r => simp [Except.map]

/-- What pushing a line does once its header has been read: it opens a record of its own, or it
    continues the one that its stream holds. -/
inductive Pushes (parser : LogParser Date Time) (stream : LogStream) (line : Text)
    (header : Option ParsedLine) : ParsedFrames → LogParser Date Time → Prop where
  | root {frame frame' : LogFrame} {hold : Bool} : frame.raw = line → frame.stream = stream →
      Bounded frame frame' →
      Pushes parser stream line header (parser.emit stream frame' hold).1
        (parser.emit stream frame' hold).2
  | continuation {pending pending' : Pending} : header = none →
      LogParser.isErrorRoot line = false → LogParser.isWarningRoot line = false →
      parser.pending stream = some pending → pending.append line = .ok pending' →
      Pushes parser stream line header (none, none) (parser.setPending stream (some pending'))

theorem root_pushes (cal : Calendar Instant Date Time) (parser : LogParser Date Time)
    (stream : LogStream) (line : Text) (observedAt : Instant) (header : Option ParsedLine)
    (parsed : ParsedLine) (hold : Bool) :
    ∃ frames parser', parser.root cal stream line observedAt parsed hold = .ok (frames, parser') ∧
      Pushes parser stream line header frames parser' := by
  obtain ⟨frame', bounded, spec⟩ :=
    boundFrame_bounded (parser.frameOf cal stream line observedAt parsed)
  refine ⟨(parser.emit stream frame' hold).1, (parser.emit stream frame' hold).2, ?_,
    .root rfl rfl spec⟩
  rw [LogParser.root, bounded]
  rfl

variable {parser : LogParser Date Time} {line : Text} {header : Option ParsedLine}

variable {observedAt : Instant}

theorem pushAt_pushes (cal : Calendar Instant Date Time) (stream : LogStream)
    {clock : Option (Date × Time)}
    (read : parser.parseHeader cal (stripped line) observedAt = .ok (header, clock)) :
    ∃ frames parser', parser.pushAt cal stream line observedAt = .ok (frames, parser') ∧
      Pushes { parser with premiumClock := clock } stream (stripped line) header frames parser' := by
  simp only [LogParser.pushAt, stripAnsi_eq, read, bind, Except.bind]
  cases header with
  | some parsed => exact root_pushes cal _ stream _ observedAt _ parsed _
  | none =>
      simp only
      split
      · next pending rooted held =>
          obtain ⟨pending', appended, -⟩ := append_cases pending (stripped line)
          rw [appended]
          rw [Bool.or_eq_false_iff] at rooted
          exact ⟨_, _, rfl, .continuation rfl rooted.1 rooted.2 held appended⟩
      · exact root_pushes cal _ stream _ observedAt _ _ _

theorem push_returns (cal : Calendar Instant Date Time) (parser : LogParser Date Time)
    (stream : LogStream) (line : Text) (observedAt : Instant) :
    (∃ r, parser.pushAt cal stream line observedAt = .ok r) ↔
      ¬ (parser.kind = .clashRust ∧ SplitsLine (stripped line)) := by
  rw [← parseHeader_returns_iff cal parser (stripped line) observedAt]
  constructor
  · rintro ⟨r, pushed⟩
    cases read : parser.parseHeader cal (stripped line) observedAt with
    | ok r => exact ⟨r, rfl⟩
    | error panic =>
        simp [LogParser.pushAt, stripAnsi_eq, read, bind, Except.bind] at pushed
  · rintro ⟨⟨header, clock⟩, read⟩
    obtain ⟨frames, parser', pushed, -⟩ := pushAt_pushes cal stream read
    exact ⟨_, pushed⟩

variable {parser' : LogParser Date Time} {stream : LogStream}

/-! ## Panics -/

theorem Pushes.kind {frames : ParsedFrames}
    (pushes : Pushes parser stream line header frames parser') : parser'.kind = parser.kind := by
  cases pushes with
  | @root _ _ hold _ _ _ => cases hold <;> rfl
  | continuation => rfl

variable {cal : Calendar Instant Date Time}

theorem pushAt_kind {frames : ParsedFrames}
    (pushed : parser.pushAt cal stream line observedAt = .ok (frames, parser')) :
    parser'.kind = parser.kind := by
  have returned := (push_returns cal parser stream line observedAt).mp ⟨_, pushed⟩
  obtain ⟨⟨header, clock⟩, read⟩ :=
    (parseHeader_returns_iff cal parser (stripped line) observedAt).mpr returned
  obtain ⟨frames', parser'', pushed', pushes⟩ := pushAt_pushes cal stream read
  cases pushed.symm.trans pushed'
  exact pushes.kind

/-- The line makes a parser of its kind panic. -/
def Breaks (kind : CoreKind) (line : Line Instant) : Prop :=
  kind = .clashRust ∧ SplitsLine (stripped line.text)

theorem feed_returns (cal : Calendar Instant Date Time) (parser : LogParser Date Time)
    (lines : List (Line Instant)) :
    (∃ r, parser.feed cal lines = .ok r) ↔ ∀ line ∈ lines, ¬ Breaks parser.kind line := by
  induction lines generalizing parser with
  | nil => simp [LogParser.feed]
  | cons line lines ih =>
      rw [List.forall_mem_cons, LogParser.feed]
      cases pushed : parser.pushAt cal line.stream line.text line.observedAt with
      | error panic =>
          have broken : ¬ ∃ r, parser.pushAt cal line.stream line.text line.observedAt = .ok r := by
            simp [pushed]
          rw [push_returns, not_not] at broken
          refine ⟨fun returned => ?_, fun fine => absurd broken fine.1⟩
          simp [bind, Except.bind] at returned
      | ok r =>
          obtain ⟨frames, parser'⟩ := r
          have fine := (push_returns cal parser line.stream line.text line.observedAt).mp ⟨_, pushed⟩
          rw [← pushAt_kind pushed, ← ih parser']
          simp only [bind, Except.bind]
          cases parser'.feed cal lines with
          | error panic => simp
          | ok r =>
              refine ⟨fun _ => ⟨?_, r, rfl⟩, fun _ => ⟨_, rfl⟩⟩
              rwa [Breaks, pushAt_kind pushed]

/-- Pushing a line returns in every state of the parser, and so does a whole run, exactly when no
    line splits a character. -/
theorem parser_returns_iff (cal : Calendar Instant Date Time) :
    (∀ (parser : LogParser Date Time) (line : Line Instant),
      (∃ r, parser.pushAt cal line.stream line.text line.observedAt = .ok r) ↔
        ¬ Breaks parser.kind line) ∧
    ∀ (kind : CoreKind) (epoch : Nat) (lines : List (Line Instant)),
      (∃ frames, output cal kind epoch lines = .ok frames) ↔ ∀ line ∈ lines, ¬ Breaks kind line := by
  refine ⟨fun parser line => push_returns cal parser line.stream line.text line.observedAt,
    fun kind epoch lines => ?_⟩
  refine Iff.trans ?_ (feed_returns cal (LogParser.new kind epoch) lines)
  rw [output]
  cases (LogParser.new kind epoch : LogParser Date Time).feed cal lines with
  | error panic => simp [bind, Except.bind]
  | ok r => exact ⟨fun _ => ⟨r, rfl⟩, fun _ => ⟨_, rfl⟩⟩

/-- A calendar of days and nanoseconds of a day that reads no printed times. -/
def utcCalendar : Calendar Int Int Int where
  timestampMillis t := t
  dateNaive t := t / 86400000
  time t := t % 86400000 * 1000000
  rfc3339 _ := none
  parseTime _ := none
  fromYmd _ _ _ := none
  fromHmsNano _ _ _ _ := none
  succ day := some (day + 1)
  pred day := some (day - 1)
  signedDurationSince a b := a - b
  localUnixMs _ day time := some (day * 86400000 + time / 1000000)

/-- An ideographic space before the source file: the target starts inside it. -/
theorem wide_space_panics :
    output utcCalendar .clashRust 1
      [⟨.stdout, "26-07-29 00:17:26:1 INFO a\u3000file.rs:12: msg".toList, 0⟩] =
        .error .slice := by
  decide +kernel

/-! ## Conservation -/

def joinLines (lines : List Text) : Text := ['\n'].intercalate lines

/-- The lines of a stream, without their control sequences. -/
def linesOf (stream : LogStream) (lines : List (Line Instant)) : List Text :=
  (lines.filter (·.stream = stream)).map (stripped ·.text)

def framesOf (stream : LogStream) (frames : List LogFrame) : List LogFrame :=
  frames.filter (·.stream = stream)

/-- What a frame keeps of the lines it was made of: a beginning, and all of them unless it says
    otherwise. -/
structure Conserves (frame : LogFrame) (run : List Text) : Prop where
  raw_prefix : frame.raw <+: joinLines run
  whole : frame.truncated = false → frame.raw = joinLines run

/-- The lines are cut into runs, one for each frame. -/
def Partitioned (frames : List LogFrame) (lines : List Text) : Prop :=
  ∃ runs : List (List Text), runs.flatten = lines ∧ (∀ run ∈ runs, run ≠ []) ∧
    List.Forall₂ Conserves frames runs

/-- A line that would be appended behind a gap: it is the first continuation of a root that was
    longer than the cap, and its beginning still fits behind what the cut has left. -/
def Gap (cal : Calendar Instant Date Time) (parser : LogParser Date Time)
    (previous : LogStream → Text) (line : Line Instant) : Prop :=
  ∃ pending clock, parser.pending line.stream = some pending ∧ pending.continuations = 0 ∧
    maxLogTextBytes < Text.size (previous line.stream) ∧
    parser.parseHeader cal (stripped line.text) line.observedAt = .ok (none, clock) ∧
    LogParser.isErrorRoot (stripped line.text) = false ∧
    LogParser.isWarningRoot (stripped line.text) = false ∧
    HasRoom (Text.size pending.frame.raw) (stripped line.text)

/-- The last line of each stream. -/
def remember (previous : LogStream → Text) (line : Line Instant) : LogStream → Text :=
  fun stream => if stream = line.stream then stripped line.text else previous stream

/-- No line breaks the parser or leaves a gap. -/
def Smooth (cal : Calendar Instant Date Time) :
    LogParser Date Time → (LogStream → Text) → List (Line Instant) → Prop
  | _, _, [] => True
  | parser, previous, line :: lines =>
      ¬ Breaks parser.kind line ∧ ¬ Gap cal parser previous line ∧
      ∀ frames parser',
        parser.pushAt cal line.stream line.text line.observedAt = .ok (frames, parser') →
          Smooth cal parser' (remember previous line) lines

variable {run : List Text}

theorem joinLines_concat (nonempty : run ≠ []) (line : Text) :
    joinLines (run ++ [line]) = joinLines run ++ '\n' :: line := by
  induction run with
  | nil => exact absurd rfl nonempty
  | cons first run ih =>
      cases run with
      | nil => simp [joinLines, List.intercalate]
      | cons second run =>
          have rest := ih (by simp)
          simp only [joinLines, List.cons_append, List.intercalate_cons_cons] at rest ⊢
          rw [rest, List.append_assoc, List.append_assoc, List.append_assoc]

theorem joinLines_singleton (line : Text) : joinLines [line] = line := by
  simp [joinLines, List.intercalate]

/-- What a held record has of its lines: all of them; a beginning, and then it takes no more; or
    a beginning of its root alone. -/
inductive Holds (pending : Pending) (run : List Text) : Prop where
  | whole : pending.frame.raw = joinLines run → Holds pending run
  | closed : pending.frame.raw <+: joinLines run → pending.frame.truncated = true →
      pending.continuations = maxContinuationLines → Holds pending run
  | cutRoot {root : Text} : run = [root] → pending.frame.raw <+: root →
      pending.frame.truncated = true → pending.continuations = 0 →
      maxLogTextBytes < Text.size root → Holds pending run

variable {pending : Pending}

theorem Holds.conserves (holds : Holds pending run) : Conserves pending.frame run := by
  cases holds with
  | whole same => exact ⟨same ▸ List.prefix_refl _, fun _ => same⟩
  | closed beginning truncated _ =>
      exact ⟨beginning, fun whole => absurd (truncated.symm.trans whole) (by decide)⟩
  | cutRoot single beginning truncated _ _ =>
      refine ⟨?_, fun whole => absurd (truncated.symm.trans whole) (by decide)⟩
      rwa [single, joinLines_singleton]

variable {frame : LogFrame}

/-- A root that is held. -/
theorem holds_root {frame' : LogFrame} (bounded : Bounded frame frame') :
    Holds ⟨frame', 0⟩ [frame.raw] := by
  obtain ⟨cut, capped, truncated⟩ := bounded.raw
  cases cut with
  | false =>
      refine .whole ?_
      rw [joinLines_singleton]
      exact capped.whole
  | true =>
      refine .cutRoot rfl capped.kept_prefix (truncated rfl) rfl ?_
      obtain ⟨left, same⟩ := capped.kept_prefix
      cases left with
      | nil => exact absurd (by rw [← same, List.append_nil]) (capped.cut_iff.mp rfl)
      | cons c more =>
          have full := capped.full c more same.symm
          rw [← same, Text.size_append, Text.size_cons]
          omega

theorem holds_append {pending' : Pending} (nonempty : run ≠ []) (holds : Holds pending run)
    (appended : pending.append line = .ok pending')
    (noGap : pending.continuations = 0 → (∃ root, run = [root] ∧ maxLogTextBytes < Text.size root) → ¬ HasRoom (Text.size pending.frame.raw) line) :
    Holds pending' (run ++ [line]) ∧ pending'.frame.stream = pending.frame.stream := by
  obtain ⟨result, appended', outcome⟩ := append_cases pending line
  cases appended.symm.trans appended'
  have longer := joinLines_concat nonempty line
  have extends_ : joinLines run <+: joinLines (run ++ [line]) := ⟨_, longer.symm⟩
  rcases outcome with ⟨closed, rfl⟩ | ⟨notClosed, raw, cutRaw, message, cutMessage, spec, -, rfl⟩
  · refine ⟨.closed (holds.conserves.raw_prefix.trans extends_) rfl closed, rfl⟩
  · have stream : ∀ cut : Bool, (if cut then
        (⟨{ pending.frame with raw, message, truncated := true }, maxContinuationLines⟩ : Pending)
      else ⟨{ pending.frame with raw, message }, pending.continuations + 1⟩).frame.stream =
        pending.frame.stream := by
      intro cut
      cases cut <;> rfl
    refine ⟨?_, stream _⟩
    cases holds with
    | closed _ _ closed => exact absurd closed notClosed
    | whole same =>
        cases cut : cutRaw || cutMessage with
        | true =>
            refine .closed ?_ rfl rfl
            rw [longer, ← same]
            exact spec.kept_prefix
        | false =>
            refine .whole ?_
            rw [longer, ← same]
            exact not_not.mp (spec.cut_iff.not.mp (by simp [(Bool.or_eq_false_iff.mp cut).1]))
    | cutRoot single beginning truncated fresh long =>
        have unchanged := spec.none (noGap fresh ⟨_, single, long⟩)
        have cut : cutRaw = true := spec.cut_iff.mpr (by simp [unchanged])
        rw [cut, Bool.true_or, if_pos rfl]
        refine .closed ?_ rfl rfl
        rw [unchanged]
        refine beginning.trans (.trans ?_ extends_)
        rw [single, joinLines_singleton]

/-- The record that a stream holds, with its lines. -/
def IsOpen (stream : LogStream) (previous : Text) : Option Pending → List Text → Prop
  | none, held => held = []
  | some pending, held =>
      pending.frame.stream = stream ∧ Holds pending held ∧ held.getLast? = some previous

/-- The frames of a stream so far, and the record that it holds, conserve its lines. -/
def Conserving (stream : LogStream) (pending : Option Pending) (previous : Text)
    (lines : List Text) (frames : List LogFrame) : Prop :=
  ∃ before held, lines = before ++ held ∧ Partitioned frames before ∧
    IsOpen stream previous pending held

variable {frames : List LogFrame} {lines : List Text}

theorem Partitioned.concat (partitioned : Partitioned frames lines) (nonempty : run ≠ [])
    (conserves : Conserves frame run) : Partitioned (frames ++ [frame]) (lines ++ run) := by
  obtain ⟨runs, rfl, each, all⟩ := partitioned
  refine ⟨runs ++ [run], by simp, ?_, ?_⟩
  · intro other member
    rcases List.mem_append.mp member with member | member
    · exact each other member
    · rwa [List.mem_singleton.mp member]
  · exact List.rel_append all (.cons conserves .nil)

/-- Releasing what a stream holds. -/
theorem Conserving.flush {pending : Option Pending} {previous : Text}
    (conserving : Conserving stream pending previous lines frames) :
    Partitioned (frames ++ (pending.map Pending.frame).toList) lines ∧
      ∀ frame ∈ (pending.map Pending.frame).toList, frame.stream = stream := by
  obtain ⟨before, held, rfl, partitioned, isOpen⟩ := conserving
  cases pending with
  | none =>
      obtain rfl : held = [] := isOpen
      simpa using partitioned
  | some pending =>
      obtain ⟨same, holds, last⟩ := isOpen
      have nonempty : held ≠ [] := by
        rintro rfl
        exact absurd last (by simp)
      exact ⟨partitioned.concat nonempty holds.conserves, by simpa using same⟩

theorem framesOf_append (stream : LogStream) (frames more : List LogFrame) :
    framesOf stream (frames ++ more) = framesOf stream frames ++ framesOf stream more :=
  List.filter_append ..

theorem framesOf_own (own : ∀ frame ∈ frames, frame.stream = stream)
    : framesOf stream frames = frames :=
  List.filter_eq_self.mpr fun frame member => decide_eq_true (own frame member)

theorem framesOf_other {other : LogStream} (own : ∀ frame ∈ frames, frame.stream = stream)
    (different : other ≠ stream) : framesOf other frames = [] :=
  List.filter_eq_nil_iff.mpr fun frame member same =>
    different ((of_decide_eq_true same).symm.trans (own frame member))

/-- A push on a stream: its frames, and the record that it then holds. -/
theorem Conserving.push {previous : Text} {out : ParsedFrames}
    (conserving : Conserving stream (parser.pending stream) previous lines frames)
    (pushes : Pushes parser stream line header out parser')
    (noGap : ∀ pending, parser.pending stream = some pending → header = none → LogParser.isErrorRoot line = false → LogParser.isWarningRoot line = false → pending.continuations = 0 → maxLogTextBytes < Text.size previous → ¬ HasRoom (Text.size pending.frame.raw) line) :
    Conserving stream (parser'.pending stream) line (lines ++ [line]) (frames ++ out.list) ∧
      (∀ frame ∈ out.list, frame.stream = stream) ∧
      ∀ other, other ≠ stream → parser'.pending other = parser.pending other := by
  cases pushes with
  | @root frame frame' hold raw own bounded =>
      obtain ⟨flushed, streams⟩ := conserving.flush
      have holds := holds_root bounded
      have own' : frame'.stream = stream := bounded.stream.trans own
      rw [raw] at holds
      cases hold with
      | true =>
          refine ⟨⟨lines, [line], rfl, ?_, ?_⟩, ?_, fun other different => if_neg different⟩
          · simpa [LogParser.emit, ParsedFrames.list] using flushed
          · simpa [LogParser.emit, LogParser.setPending, IsOpen] using ⟨own', holds⟩
          · simpa [LogParser.emit, ParsedFrames.list] using streams
      | false =>
          refine ⟨⟨lines ++ [line], [], (List.append_nil _).symm, ?_, ?_⟩, ?_,
            fun other different => if_neg different⟩
          · have more := flushed.concat (List.cons_ne_nil line []) holds.conserves
            rwa [List.append_assoc] at more
          · simp [LogParser.emit, LogParser.setPending, IsOpen]
          · intro emitted member
            rcases List.mem_append.mp member with member | member
            · exact streams emitted member
            · rwa [List.mem_singleton.mp member]
  | @continuation pending pending' noHeader noError noWarning found appended =>
      obtain ⟨before, held, rfl, partitioned, isOpen⟩ := conserving
      rw [found] at isOpen
      obtain ⟨own, holds, last⟩ := isOpen
      have nonempty : held ≠ [] := by
        rintro rfl
        exact absurd last (by simp)
      obtain ⟨holds', own'⟩ := holds_append nonempty holds appended (by
        rintro fresh ⟨root, rfl, long⟩
        cases last
        exact noGap pending found noHeader noError noWarning fresh long)
      refine ⟨⟨before, held ++ [line], by simp, ?_, ?_⟩, ?_, fun other different => if_neg different⟩
      · simpa [ParsedFrames.list] using partitioned
      · simpa [LogParser.setPending, IsOpen] using ⟨own'.trans own, holds'⟩
      · simp [ParsedFrames.list]

/-- Both streams are conserved, with what has been read and emitted of them. -/
def Conserved (parser : LogParser Date Time) (previous : LogStream → Text)
    (read : List (Line Instant)) (emitted : List LogFrame) : Prop :=
  ∀ stream, Conserving stream (parser.pending stream) (previous stream) (linesOf stream read)
    (framesOf stream emitted)

variable {previous : LogStream → Text}

variable {read : List (Line Instant)} {emitted : List LogFrame}

theorem Conserved.push {line : Line Instant} (conserved : Conserved parser previous read emitted)
    (fine : ¬ Breaks parser.kind line) (noGap : ¬ Gap cal parser previous line) :
    ∃ frames parser',
      parser.pushAt cal line.stream line.text line.observedAt = .ok (frames, parser') ∧
      Conserved parser' (remember previous line) (read ++ [line]) (emitted ++ frames.list) := by
  obtain ⟨⟨header, clock⟩, header_read⟩ :=
    (parseHeader_returns_iff cal parser (stripped line.text) line.observedAt).mpr fine
  obtain ⟨frames, parser', pushed, pushes⟩ := pushAt_pushes cal line.stream header_read
  have own : Conserving line.stream
      (({ parser with premiumClock := clock } : LogParser Date Time).pending line.stream)
      (previous line.stream) (linesOf line.stream read) (framesOf line.stream emitted) :=
    conserved line.stream
  obtain ⟨conserving, streams, others⟩ := own.push pushes (by
    rintro pending found rfl noError noWarning fresh long room
    exact noGap ⟨pending, clock, found, fresh, long, header_read, noError, noWarning, room⟩)
  refine ⟨frames, parser', pushed, fun stream => ?_⟩
  rw [framesOf_append, linesOf, List.filter_append, List.map_append, ← linesOf]
  by_cases same : stream = line.stream
  · subst same
    rw [framesOf_own streams]
    simpa [remember] using conserving
  · rw [framesOf_other streams same, others stream same, List.append_nil]
    have skipped : ([line].filter (·.stream = stream)) = [] := by simp [Ne.symm same]
    rw [skipped, List.map_nil, List.append_nil]
    simpa [remember, same] using conserved stream

theorem feed_conserved {lines : List (Line Instant)}
    (conserved : Conserved parser previous read emitted) (smooth : Smooth cal parser previous lines) :
    ∃ frames parser' previous', parser.feed cal lines = .ok (frames, parser') ∧
      Conserved parser' previous' (read ++ lines) (emitted ++ frames) := by
  induction lines generalizing parser previous read emitted with
  | nil => exact ⟨[], parser, previous, rfl, by simpa using conserved⟩
  | cons line lines ih =>
      obtain ⟨fine, noGap, later⟩ := smooth
      obtain ⟨frames, parser', pushed, next⟩ := conserved.push fine noGap
      obtain ⟨more, parser'', previous', fed, rest⟩ := ih next (later frames parser' pushed)
      refine ⟨frames.list ++ more, parser'', previous', ?_, by simpa using rest⟩
      simp only [LogParser.feed, pushed, fed, bind, Except.bind]
      rfl

/-- What `finish` releases of a stream is what the stream holds. -/
theorem framesOf_finish
    (own : ∀ stream, ∀ frame ∈ ((parser.pending stream).map Pending.frame).toList, frame.stream = stream)
    (stream : LogStream) :
    framesOf stream parser.finish.1.list =
      ((parser.pending stream).map Pending.frame).toList := by
  have both : parser.finish.1.list =
        ((parser.pending .stderr).map Pending.frame).toList ++
          ((parser.pending .stdout).map Pending.frame).toList ∨
      parser.finish.1.list =
        ((parser.pending .stdout).map Pending.frame).toList ++
          ((parser.pending .stderr).map Pending.frame).toList := by
    unfold LogParser.finish
    split
    · exact .inl rfl
    · exact .inr rfl
  have none {a b : LogStream} (different : a ≠ b) :=
    framesOf_other (own b) different
  cases stream with
  | stdout =>
      rcases both with list | list <;>
        rw [list, framesOf_append, framesOf_own (own .stdout), none (by decide)] <;> simp
  | stderr =>
      rcases both with list | list <;>
        rw [list, framesOf_append, framesOf_own (own .stderr), none (by decide)] <;> simp

/-- The frames of a run are made of consecutive runs of their stream's lines: each keeps a
    beginning of its run, and all of it unless it is marked as truncated. -/
theorem output_conserves_lines (cal : Calendar Instant Date Time) (kind : CoreKind) (epoch : Nat)
    (lines : List (Line Instant))
    (smooth : Smooth cal (LogParser.new kind epoch) (fun _ => []) lines) :
    ∃ frames, output cal kind epoch lines = .ok frames ∧
      ∀ stream, Partitioned (framesOf stream frames) (linesOf stream lines) := by
  have start : Conserved (LogParser.new kind epoch : LogParser Date Time) (fun _ => [])
      ([] : List (Line Instant)) [] :=
    fun stream => ⟨[], [], rfl, ⟨[], rfl, by simp, .nil⟩, rfl⟩
  obtain ⟨frames, parser, previous, fed, conserved⟩ := feed_conserved start smooth
  refine ⟨frames ++ parser.finish.1.list, ?_, fun stream => ?_⟩
  · rw [output, fed]
    rfl
  · rw [framesOf_append, framesOf_finish fun other => (conserved other).flush.2]
    exact (conserved stream).flush.1

/-- Lines within the cap leave no gap. -/
theorem smooth_of_short {lines : List (Line Instant)} (kind : parser.kind ≠ .clashRust)
    (short : ∀ stream, Text.size (previous stream) ≤ maxLogTextBytes)
    (all : ∀ line ∈ lines, Text.size (stripped line.text) ≤ maxLogTextBytes) :
    Smooth cal parser previous lines := by
  induction lines generalizing parser previous with
  | nil => trivial
  | cons line lines ih =>
      refine ⟨fun breaks => kind breaks.1, ?_, fun frames parser' pushed => ?_⟩
      · rintro ⟨_, _, -, -, long, -⟩
        exact absurd long (Nat.not_lt.mpr (short line.stream))
      · refine ih ?_ (fun stream => ?_) fun other member => all other (List.mem_cons_of_mem _ member)
        · rwa [pushAt_kind pushed]
        · unfold remember
          split
          · exact all line List.mem_cons_self
          · exact short stream

theorem output_conserves_short_lines :
    ∃ frames, output utcCalendar .clashPremium 1
        [⟨.stderr, "Error: bad config".toList, 0⟩, ⟨.stdout, "done".toList, 1⟩,
          ⟨.stderr, " at line 3".toList, 2⟩] = .ok frames ∧
      ∀ stream, Partitioned (framesOf stream frames)
        (linesOf stream [⟨.stderr, "Error: bad config".toList, (0 : Int)⟩,
          ⟨.stdout, "done".toList, 1⟩, ⟨.stderr, " at line 3".toList, 2⟩]) :=
  output_conserves_lines utcCalendar .clashPremium 1 _
    (smooth_of_short (by decide) (fun _ => Nat.zero_le _) (by decide +kernel))

theorem Capped.eq {kept kept' more : Text} {c : Char} {maxBytes : Nat} {cut : Bool}
    (capped : Capped (kept ++ c :: more) maxBytes kept' cut) (fits : Text.size kept ≤ maxBytes)
    (full : maxBytes < Text.size kept + c.utf8Size) : kept' = kept := by
  obtain ⟨left, same⟩ := capped.kept_prefix
  rcases List.append_eq_append_iff.mp same with ⟨rest, rfl, tail⟩ | ⟨rest, rfl, tail⟩
  · cases rest with
    | nil => exact (List.append_nil _).symm
    | cons d rest =>
        have beyond := capped.full d (rest ++ c :: more) (by simp)
        rw [Text.size_append, Text.size_cons] at fits
        omega
  · cases rest with
    | nil => exact List.append_nil _
    | cons d rest =>
        have inside := capped.fits
        rw [List.cons_append] at tail
        rw [← (List.cons.inj tail).1] at inside
        rw [Text.size_append, Text.size_cons] at inside
        omega

theorem size_replicate (n : Nat) : Text.size (List.replicate n 'a') = n := by
  induction n with
  | zero => rfl
  | succ n ih =>
      rw [List.replicate_succ, Text.size_cons, ih]
      exact Nat.add_comm 1 n

/-- The held frame of a root that was cut. -/
def crossFrame (kept : Text) : LogFrame :=
  { observedAt := 0, epoch := 1, kind := .clashPremium, stream := .stderr, level := .error,
    timestamp := none, target := none, message := kept, fields := [], raw := kept,
    truncated := true }

theorem premiumHeader_utcCalendar (line : Text) : premiumHeader utcCalendar line = none := by
  simp [premiumHeader, utcCalendar]

theorem parseHeader_premium {parser : LogParser Int Int} (kind : parser.kind = .clashPremium)
    (line : Text) (observedAt : Int) :
    parser.parseHeader utcCalendar line observedAt = .ok (none, parser.premiumClock) := by
  simp only [LogParser.parseHeader, kind, parsePremium, premiumHeader_utcCalendar]

section

/-! A root whose last character crosses the cap, and a continuation of one character. -/

variable {kept : Text} (size_kept : Text.size kept = 16382)

include size_kept

theorem truncateText_cross :
    truncateText (kept ++ ['界']) maxLogTextBytes = .ok (kept, true) := by
  obtain ⟨kept', cut, run, capped⟩ := truncateText_capped (kept ++ ['界']) maxLogTextBytes
  have same : kept' = kept := capped.eq (by rw [size_kept]; decide) (by rw [size_kept]; decide)
  have isCut : cut = true := capped.cut_iff.mpr (by simp [same])
  rw [run, same, isCut]

theorem appendBounded_cross :
    appendBounded kept ['x'] maxLogTextBytes = .ok (kept ++ ['\n', 'x'], false) := by
  have room : ¬ maxLogTextBytes ≤ Text.size kept := by
    rw [size_kept]
    decide
  have stop : Text.floorBoundary ['x']
      (min (maxLogTextBytes - Text.size kept - 1) (Text.size ['x'])) = 1 := by
    rw [size_kept]
    decide
  rw [appendBounded, if_neg room]
  simp only [stop]
  rfl

theorem boundFrame_cross :
    boundFrame { crossFrame (kept ++ ['界']) with truncated := false } = .ok (crossFrame kept) := by
  simp only [boundFrame, crossFrame, truncateText_cross size_kept, truncateOption, bind, Except.bind]
  rfl

theorem append_cross :
    Pending.append ⟨crossFrame kept, 0⟩ ['x'] =
      .ok ⟨{ crossFrame kept with raw := kept ++ ['\n', 'x'], message := kept ++ ['\n', 'x'] }, 1⟩ := by
  simp only [Pending.append, crossFrame, appendBounded_cross size_kept, bind, Except.bind]
  rfl

theorem output_cross (plain : stripped (kept ++ ['界']) = kept ++ ['界'])
    (isRoot : LogParser.isErrorRoot (kept ++ ['界']) = true) :
    output utcCalendar .clashPremium 1 [⟨.stderr, kept ++ ['界'], 0⟩, ⟨.stderr, ['x'], 0⟩] =
      .ok [{ crossFrame kept with raw := kept ++ ['\n', 'x'], message := kept ++ ['\n', 'x'] }] := by
  have first : (LogParser.new .clashPremium 1).pushAt utcCalendar .stderr (kept ++ ['界']) 0 =
      .ok ((LogParser.new .clashPremium 1).emit .stderr (crossFrame kept) true) := by
    have header := @parseHeader_premium (LogParser.new .clashPremium 1) rfl (kept ++ ['界']) 0
    have level : LogParser.plainLevel (kept ++ ['界']) .stderr = .error := by
      rw [LogParser.plainLevel, if_pos isRoot]
    simp only [LogParser.pushAt, stripAnsi_eq, plain, header, bind, Except.bind, isRoot,
      Bool.true_or, LogParser.root, LogParser.frameOf, LogParser.plainLine, level]
    exact congrArg (Except.map _) (boundFrame_cross size_kept)
  have second : ((LogParser.new .clashPremium 1).emit .stderr (crossFrame kept) true).2.pushAt
      utcCalendar .stderr ['x'] 0 =
        .ok ((none, none), ((LogParser.new .clashPremium 1).emit .stderr (crossFrame kept)
          true).2.setPending .stderr (some ⟨{ crossFrame kept with
            raw := kept ++ ['\n', 'x'], message := kept ++ ['\n', 'x'] }, 1⟩)) := by
    have header := @parseHeader_premium
      ((LogParser.new .clashPremium 1).emit .stderr (crossFrame kept) true).2 rfl ['x'] 0
    have single : stripped ['x'] = ['x'] := by decide
    have rooted : (LogParser.isErrorRoot ['x'] || LogParser.isWarningRoot ['x']) = false := by decide
    have held : ((LogParser.new .clashPremium 1 : LogParser Int Int).emit .stderr (crossFrame kept)
        true).2.pending .stderr = some ⟨crossFrame kept, 0⟩ := rfl
    simp only [LogParser.pushAt, stripAnsi_eq, single, header, bind, Except.bind, rooted, held,
      append_cross size_kept]
    rfl
  simp only [output, LogParser.feed, first, second, bind, Except.bind]
  rfl

omit size_kept in
/-- The character that was cut is missing before the line break. -/
theorem not_partitioned_cross (raw : frame.raw = kept ++ ['\n', 'x']) :
    ¬ Partitioned [frame] [kept ++ ['界'], ['x']] := by
  rintro ⟨runs, flat, -, all⟩
  cases all with
  | @cons _ run _ runs conserves none =>
      cases none
      rw [List.flatten_cons, List.flatten_nil, List.append_nil] at flat
      have beginning := conserves.raw_prefix
      rw [flat, raw, joinLines] at beginning
      simp only [List.intercalate_cons_cons, List.intercalate_singleton, List.append_assoc,
        List.prefix_append_right_inj, List.cons_append, List.cons_prefix_cons] at beginning
      exact absurd beginning.1 (by decide)

theorem output_cross_not_partitioned (plain : stripped (kept ++ ['界']) = kept ++ ['界'])
    (isRoot : LogParser.isErrorRoot (kept ++ ['界']) = true) :
    ¬ ∃ frames, output utcCalendar .clashPremium 1
        [⟨.stderr, kept ++ ['界'], 0⟩, ⟨.stderr, ['x'], 0⟩] = .ok frames ∧
      ∀ stream, Partitioned (framesOf stream frames)
        (linesOf stream [⟨.stderr, kept ++ ['界'], (0 : Int)⟩, ⟨.stderr, ['x'], 0⟩]) := by
  rintro ⟨frames, run, partitioned⟩
  cases (output_cross size_kept plain isRoot).symm.trans run
  have lines : linesOf .stderr [⟨.stderr, kept ++ ['界'], (0 : Int)⟩, ⟨.stderr, ['x'], 0⟩] =
      [stripped (kept ++ ['界']), stripped ['x']] := rfl
  have stderr := partitioned .stderr
  rw [lines, plain] at stderr
  exact not_partitioned_cross rfl stderr

end

/-- A root of 16385 bytes is cut to 16382, and the next line is appended behind the gap. -/
theorem continuation_behind_gap :
    ¬ ∃ frames, output utcCalendar .clashPremium 1
        [⟨.stderr, ("Error:".toList ++ List.replicate 16376 'a') ++ ['界'], 0⟩,
          ⟨.stderr, ['x'], 0⟩] = .ok frames ∧
      ∀ stream, Partitioned (framesOf stream frames)
        (linesOf stream
          [⟨.stderr, ("Error:".toList ++ List.replicate 16376 'a') ++ ['界'], (0 : Int)⟩,
            ⟨.stderr, ['x'], 0⟩]) := by
  have size_kept : Text.size ("Error:".toList ++ List.replicate 16376 'a') = 16382 := by
    rw [Text.size_append, size_replicate]
    rfl
  have noEscape : ∀ c ∈ ("Error:".toList ++ List.replicate 16376 'a') ++ ['界'],
      c.toNat ≠ 0x1B := by
    have word : ("Error:".toList.all fun c => decide (c.toNat ≠ 0x1B)) = true := by decide
    rw [List.forall_mem_append, List.forall_mem_append, List.forall_mem_singleton]
    refine ⟨⟨fun c member => ?_, fun c member => ?_⟩, by decide⟩
    · exact of_decide_eq_true (List.all_eq_true.mp word c member)
    · rw [List.eq_of_mem_replicate member]
      decide
  have isRoot : LogParser.isErrorRoot (("Error:".toList ++ List.replicate 16376 'a') ++ ['界']) =
      true := by
    rw [LogParser.isErrorRoot, List.append_assoc, List.isPrefixOf_iff_prefix]
    exact List.prefix_append _ _
  exact output_cross_not_partitioned size_kept (stripChars_of_no_escape noEscape) isRoot

end Console

end Nyanpasu
