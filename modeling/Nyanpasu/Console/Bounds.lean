import Nyanpasu.Console.Safety

/-! # Caps of console frames

What is left of a text that is cut to its cap, and of a record that a continuation line is
appended to.  No cut panics.
-/

namespace Nyanpasu

namespace Console

/-- What is left of a text under a cap: all of it, or the longest beginning that fits. -/
structure Capped (text : Text) (maxBytes : Nat) (kept : Text) (cut : Bool) : Prop where
  kept_prefix : kept <+: text
  fits : Text.size kept ≤ maxBytes
  cut_iff : cut = true ↔ kept ≠ text
  full : ∀ c more, text = kept ++ c :: more → maxBytes < Text.size kept + c.utf8Size

theorem Capped.whole {text kept : Text} {maxBytes : Nat} (capped : Capped text maxBytes kept false) :
    kept = text :=
  not_not.mp (capped.cut_iff.not.mp (by simp))

theorem truncateText_capped (text : Text) (maxBytes : Nat) :
    ∃ kept cut, truncateText text maxBytes = .ok (kept, cut) ∧ Capped text maxBytes kept cut := by
  unfold truncateText
  split
  · next short =>
      refine ⟨text, false, rfl, List.prefix_refl _, short, by simp, fun c more same => ?_⟩
      exact absurd (congrArg List.length same) (by simp)
  · next long =>
      obtain ⟨a, b, split, fits, full⟩ := Text.split_floorBoundary text maxBytes
      obtain ⟨same, -⟩ := Text.split_eq_some.mp split
      have shorter : a ≠ text := by
        rintro rfl
        exact long fits
      refine ⟨a, true, ?_, ⟨b, same.symm⟩, fits, by simpa using shorter, fun c more same' => ?_⟩
      · rw [sliceTo, split]
        rfl
      · exact full c more (List.append_cancel_left (same.symm.trans same'))

/-- Something of the line can still follow a text of a size. -/
def HasRoom (size : Nat) (line : Text) : Prop :=
  size < maxLogTextBytes ∧ ∀ c ∈ line.head?, size + 1 + c.utf8Size ≤ maxLogTextBytes

/-- What is left of a text and a continuation line under the cap. -/
structure Appended (text line text' : Text) (cut : Bool) : Prop where
  kept_prefix : text' <+: text ++ '\n' :: line
  grows : text <+: text'
  cut_iff : cut = true ↔ text' ≠ text ++ '\n' :: line
  none : ¬ HasRoom (Text.size text) line → text' = text

theorem appendBounded_appended (text line : Text) :
    ∃ text' cut, appendBounded text line maxLogTextBytes = .ok (text', cut) ∧
      Appended text line text' cut := by
  unfold appendBounded
  split
  · exact ⟨text, true, rfl, List.prefix_append _ _, List.prefix_refl _, by simp, fun _ => rfl⟩
  next room =>
    split
    · next empty =>
        obtain rfl : line = [] := List.isEmpty_iff.mp empty
        refine ⟨text ++ ['\n'], false, rfl, List.prefix_refl _, List.prefix_append _ _, by simp,
          fun full => absurd ⟨by omega, by simp⟩ full⟩
    next nonempty =>
      obtain ⟨kept, left, split, fits, -⟩ := Text.split_floorBoundary line
        (min (maxLogTextBytes - Text.size text - 1) (Text.size line))
      obtain ⟨same, measured⟩ := Text.split_eq_some.mp split
      simp only
      split
      · exact ⟨text, true, rfl, List.prefix_append _ _, List.prefix_refl _, by simp, fun _ => rfl⟩
      next some =>
        refine ⟨text ++ '\n' :: kept, decide _, by rw [sliceTo, split]; rfl, ⟨left, by simp [same]⟩,
          List.prefix_append _ _, ?_, fun full => absurd ?_ full⟩
        · rw [decide_eq_true_iff, ← measured, same, Text.size_append]
          have whole : text ++ '\n' :: kept = text ++ '\n' :: (kept ++ left) ↔ Text.size left = 0 := by
            rw [Text.size_eq_zero]
            simp
          rw [Ne, whole]
          omega
        · -- the first character was kept, so there was room for it
          refine ⟨by omega, fun c first => ?_⟩
          cases kept with
          | nil => exact absurd measured.symm some
          | cons d kept =>
              rw [same] at first
              cases first
              rw [Text.size_cons] at fits
              omega

/-- What appending a continuation line does: nothing but say so once the record is closed, else
    both texts take what fits of it, and a cut closes the record. -/
theorem append_cases (pending : Pending) (line : Text) :
    ∃ pending', pending.append line = .ok pending' ∧
      ((pending.continuations = maxContinuationLines ∧
          pending' = { pending with frame := { pending.frame with truncated := true } }) ∨
        (pending.continuations ≠ maxContinuationLines ∧ ∃ raw cutRaw message cutMessage,
          Appended pending.frame.raw line raw cutRaw ∧
          Appended pending.frame.message line message cutMessage ∧
          pending' = if cutRaw || cutMessage then
              ⟨{ pending.frame with raw, message, truncated := true }, maxContinuationLines⟩
            else ⟨{ pending.frame with raw, message }, pending.continuations + 1⟩)) := by
  unfold Pending.append
  by_cases closed : pending.continuations = maxContinuationLines
  · rw [if_pos closed]
    exact ⟨_, rfl, .inl ⟨closed, rfl⟩⟩
  · obtain ⟨raw, cutRaw, appendedRaw, rawSpec⟩ := appendBounded_appended pending.frame.raw line
    obtain ⟨message, cutMessage, appendedMessage, messageSpec⟩ :=
      appendBounded_appended pending.frame.message line
    refine ⟨_, ?_, .inr ⟨closed, raw, cutRaw, message, cutMessage, rawSpec, messageSpec, rfl⟩⟩
    simp only [if_neg closed, appendedRaw, appendedMessage, bind, Except.bind]
    cases cutRaw || cutMessage <;> rfl

theorem truncateOption_returns {α : Type} {cutOne : α → Except Panic (α × Bool)}
    (returns : ∀ a, ∃ r, cutOne a = .ok r) (found : Option α) :
    ∃ r, truncateOption cutOne found = .ok r := by
  cases found with
  | none => exact ⟨_, rfl⟩
  | some a =>
      obtain ⟨r, run⟩ := returns a
      exact ⟨_, by rw [truncateOption, run]; rfl⟩

theorem truncateText_returns (text : Text) (maxBytes : Nat) :
    ∃ r, truncateText text maxBytes = .ok r := by
  obtain ⟨kept, cut, run, -⟩ := truncateText_capped text maxBytes
  exact ⟨_, run⟩

theorem truncateTimestamp_returns (timestamp : LogTimestamp) :
    ∃ r, truncateTimestamp timestamp = .ok r := by
  obtain ⟨r, run⟩ := truncateText_returns timestamp.raw maxLogTimestampRawBytes
  exact ⟨_, by rw [truncateTimestamp, run]; rfl⟩

theorem truncateField_returns (field : LogField) : ∃ r, truncateField field = .ok r := by
  obtain ⟨r, run⟩ := truncateText_returns field.key maxLogFieldTextBytes
  obtain ⟨r', run'⟩ := truncateText_returns field.value maxLogFieldTextBytes
  simp only [truncateField, run, run', bind, Except.bind]
  exact ⟨_, rfl⟩

theorem truncateFields_returns (fields : List LogField) : ∃ r, truncateFields fields = .ok r := by
  induction fields with
  | nil => exact ⟨_, rfl⟩
  | cons field fields ih =>
      obtain ⟨r, run⟩ := truncateField_returns field
      obtain ⟨r', run'⟩ := ih
      simp only [truncateFields, run, run', bind, Except.bind]
      exact ⟨_, rfl⟩

/-- A bounded frame keeps the stream and what fits of the raw line, and says when that is not
    all of it. -/
structure Bounded (frame frame' : LogFrame) : Prop where
  stream : frame'.stream = frame.stream
  raw : ∃ cut, Capped frame.raw maxLogTextBytes frame'.raw cut ∧
    (cut = true → frame'.truncated = true)

theorem boundFrame_bounded (frame : LogFrame) :
    ∃ frame', boundFrame frame = .ok frame' ∧ Bounded frame frame' := by
  obtain ⟨message, cutMessage, runMessage, -⟩ := truncateText_capped frame.message maxLogTextBytes
  obtain ⟨raw, cutRaw, runRaw, capped⟩ := truncateText_capped frame.raw maxLogTextBytes
  obtain ⟨target, runTarget⟩ := truncateOption_returns
    (fun text => truncateText_returns text maxLogTargetBytes) frame.target
  obtain ⟨timestamp, runTimestamp⟩ := truncateOption_returns truncateTimestamp_returns
    frame.timestamp
  obtain ⟨fields, runFields⟩ := truncateFields_returns (frame.fields.take maxLogFields)
  simp only [boundFrame, runMessage, runRaw, runTarget, runTimestamp, runFields, bind, Except.bind]
  exact ⟨_, rfl, rfl, cutRaw, capped, fun cut => by simp [cut]⟩

end Console

end Nyanpasu
