import SqlRenewal.Renewal.Edit
import SqlRenewal.Substitution.Deprecated

/-!
# Renewing a text

Legacy statements come first, then the substitution rules, which learn whether
the statement pass changed anything. The report holds all that was done.
-/
namespace SqlRenewal

/-- A text before and after its renewal, with the edits of the statement pass and
the hits of the rules. -/
structure Report where
  before : Text
  text : Text
  edits : List Edit
  tally : Tally
deriving DecidableEq, Repr

/-- Renews a text with the given rules. -/
def renew (rules : List Rule) (text : Text) : Report :=
  let revision := revise text
  let progress := applyRules rules (revision.text ≠ text) revision.text
  ⟨text, progress.text, revision.edits, progress.tally⟩

/-- The renewal of a text comes to a rule that cannot be applied. -/
def renewalOverflows (rules : List Rule) (text : Text) : Bool :=
  !rules.all Rule.isApplicable &&
    let revision := revise text
    meetsOverflow rules (revision.text ≠ text) revision.text

/-- Rules that can all be applied renew every text. -/
theorem renewalOverflows_eq_false {rules : List Rule} (text : Text)
    (applicable : rules.all Rule.isApplicable = true) : renewalOverflows rules text = false := by
  simp [renewalOverflows, applicable]

/-- Renews a text, unless one of the rules cannot be applied. -/
def renewChecked (rules : List Rule) (text : Text) : Except WordOverflow Report :=
  if renewalOverflows rules text then .error ⟨⟩ else .ok (renew rules text)

namespace Report

/-- The renewal altered the text. -/
def changed (report : Report) : Bool :=
  report.text ≠ report.before

/-- The statements that were replaced. -/
def replacements (report : Report) : List Replacement :=
  report.edits.filterMap fun
    | .replaced replacement => some replacement
    | .skipped _ => none

/-- The statements that were left alone. -/
def skips (report : Report) : List Skip :=
  report.edits.filterMap fun
    | .replaced _ => none
    | .skipped skip => some skip

/-- The flags of all edits, in their order. -/
def flags (report : Report) : List Flag :=
  report.edits.flatMap Edit.flags

/-- A person should look at the result. -/
def needsReview (report : Report) : Bool :=
  !report.flags.isEmpty

end Report

end SqlRenewal
