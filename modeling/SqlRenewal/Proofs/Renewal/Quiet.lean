import SqlRenewal.Proofs.Renewal.Pass
import SqlRenewal.Renewal.Report

/-!
# Quiet texts

A text is quiet if every occurrence of the keyword in it stays. The statement pass
always produces a quiet text: what it writes holds no keyword, and an occurrence
that stays was judged by things that later replacements do not touch. The pass
changes nothing in a quiet text, so the statement pass alone is idempotent.
-/
namespace SqlRenewal

/-- Every occurrence of the keyword stays. -/
inductive Quiet : Option Char → Text → Prop where
  | absent {before : Option Char} {text : Text} (lacking : Lacks raiseWord before text []) :
      Quiet before text
  | left {before : Option Char} {kept rest : Text} (leaves : Leaves before kept rest)
      (later : Quiet (lastOf before kept) rest) : Quiet before (kept ++ rest)

/-- A part without the keyword may be put in front of a quiet text, since it only makes the part
before the first occurrence longer. -/
theorem Quiet.prepend {before : Option Char} {front rest : Text}
    (lacking : Lacks raiseWord before front rest) (quiet : Quiet (lastOf before front) rest) :
    Quiet before (front ++ rest) := by
  cases quiet with
  | absent absent =>
    refine .absent (lacks_append.mpr ⟨?_, absent⟩)
    simpa using lacking
  | @left _ kept rest leaves later =>
    rw [← List.append_assoc]
    refine .left (leaves.prepend lacking) ?_
    rwa [lastOf_append]

/-- The pass produces a quiet text: what it left alone is left again, although the text behind has
changed, and what it has written lacks the keyword. The induction is on the pass. -/
theorem Pass.quiet {before : Option Char} {text text' : Text} (pass : Pass before text text') :
    Quiet before text' := by
  induction pass with
  | absent lacking => exact .absent lacking
  | left leaves later inductionHypothesis => exact .left (leaves.change later) inductionHypothesis
  | @replaced before layout arguments front statement rest rest' reading lacking opened stated later
      inductionHypothesis =>
    have written : Lacks raiseWord before (front ++ reading.render) rest' := by
      rw [lacks_append]
      exact ⟨lacks_change_rest raiseWord_known lacking opened _,
        Reading.lacks_render stated.message_lacks _ _⟩
    refine .prepend written ?_
    rwa [lastOf_append, lastOf_of_ne_nil (by simp [Reading.render]) _ before]

/-- The edit left an occurrence alone. -/
def Edit.Skips (edit : Edit) : Prop :=
  ∃ skip, edit = .skipped skip

/-- The pass changes nothing in a quiet text, and all of its edits are skips. The induction goes
from one occurrence to the next. -/
theorem Quiet.unchanged {before : Option Char} {text : Text} (quiet : Quiet before text)
    (position : Nat) :
    (reviseFrom before position text).text = text ∧
      ∀ edit ∈ (reviseFrom before position text).edits, edit.Skips := by
  induction quiet generalizing position with
  | absent lacking =>
    rw [reviseFrom_done lacking]
    simp
  | @left before kept rest leaves later inductionHypothesis =>
    obtain ⟨skip, same⟩ := reviseFrom_left leaves position
    obtain ⟨unchanged, skips⟩ := inductionHypothesis (position + kept.length)
    rw [same]
    refine ⟨congrArg (kept ++ ·) unchanged, ?_⟩
    intro edit member
    rcases List.mem_cons.mp member with rfl | later
    · exact ⟨skip, rfl⟩
    · exact skips edit later

/-- The next occurrence in a quiet text is not replaced: either there is none, or it is one that
is left alone. -/
theorem Quiet.settle_ne {before : Option Char} {text : Text} (quiet : Quiet before text) (span : Span)
    (reading : Reading) : settle (sight before text) ≠ .replace span reading := by
  intro decided
  cases quiet with
  | absent lacking =>
    rw [sight_of_lacks lacking] at decided
    cases decided
  | left leaves later =>
    obtain ⟨skip, front, trailer, left, _⟩ := leaves.settled
    rw [left] at decided
    cases decided

/-- A text that the pass does not change is quiet. One direction is what quiet says of the pass,
and the other holds because every result of a pass is quiet. -/
theorem quiet_iff {text : Text} : Quiet none text ↔ (revise text).text = text := by
  constructor
  · intro quiet
    exact (quiet.unchanged 0).1
  · intro unchanged
    have quiet := (reviseFrom_pass none 0 text).quiet
    rwa [← revise, unchanged] at quiet

/-- A revised text is quiet from its start: every statement that is left in it would be left
again. -/
theorem revise_quiet (text : Text) : Quiet none (revise text).text :=
  (reviseFrom_pass none 0 text).quiet

/-- The statement pass is idempotent. -/
theorem revise_revise (text : Text) : (revise (revise text).text).text = (revise text).text :=
  quiet_iff.mp (revise_quiet text)

end SqlRenewal
