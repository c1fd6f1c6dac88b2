import SqlRenewal.Substitution.Pattern
import SqlRenewal.Text.Integer

/-!
# Substitution rules

A rule replaces the matches of one pattern. Rules without a condition are
repeated, in their order, until a whole pass changes nothing, because a
replacement can expose a match of an earlier rule. The number of passes is
bounded. Rules that only follow a change run once after that, if anything
changed at all.

A match replaced by the very text it had is no hit.

A rule whose allowance fits into no word cannot be applied, which matters only
where the rules come to it.
-/
namespace SqlRenewal

/-- A named substitution. -/
structure Rule where
  name : Text
  pattern : Pattern
  /-- How many matches one application replaces: all of them when absent, and none
  when negative. -/
  allowance : Option Int := none
  /-- The rule runs only after another change. -/
  afterChange : Bool := false

/-- The largest number of matches that one application replaces, if there is one. -/
def Rule.limit? (rule : Rule) : Option Nat :=
  rule.allowance.map Int.toNat

/-- The rule can be applied: its allowance fits into a word. -/
def Rule.isApplicable (rule : Rule) : Bool :=
  rule.allowance.all fitsWord

/-- The matches that an application of the rule replaces. -/
def Rule.replaced (rule : Rule) (text : Text) : List Hit :=
  let hits := rule.pattern.hits text
  match rule.limit? with
  | none => hits
  | some n => hits.take n

/-- The text after one application of the rule. -/
def Rule.apply (rule : Rule) (text : Text) : Text :=
  replaceHits rule.limit? (rule.pattern.scan none text)

/-- The number of replaced matches whose text changed. -/
def Rule.changes (rule : Rule) (text : Text) : Nat :=
  (rule.replaced text).countP fun hit => hit.put ≠ hit.taken

/-- The number of matches, whatever the allowance. -/
def Rule.count (rule : Rule) (text : Text) : Nat :=
  (rule.pattern.hits text).length

/-- Counts of hits by rule name, in the order in which the names first occurred. -/
abbrev Tally := List (Text × Nat)

/-- Adds hits to a name; no hits leave no trace. -/
def Tally.add (name : Text) (hits : Nat) (tally : Tally) : Tally :=
  if hits = 0 then tally
  else if tally.any (·.1 == name) then
    tally.map fun (key, count) => if key = name then (key, count + hits) else (key, count)
  else tally ++ [(name, hits)]

/-- A text on its way through the rules, with the hits so far. -/
structure Progress where
  text : Text
  tally : Tally
deriving DecidableEq, Repr

/-- Applies one rule. -/
def Progress.apply (progress : Progress) (rule : Rule) : Progress :=
  ⟨rule.apply progress.text, progress.tally.add rule.name (rule.changes progress.text)⟩

/-- Applies rules one after the other. -/
def Progress.applyAll (progress : Progress) (rules : List Rule) : Progress :=
  rules.foldl Progress.apply progress

/-- Repeats the rules until a pass changes nothing, at most the given number of
times. -/
def Progress.settle (rules : List Rule) : Nat → Progress → Progress
  | 0, progress => progress
  | passes + 1, progress =>
    let next := progress.applyAll rules
    if next.tally = progress.tally then next else Progress.settle rules passes next

/-- The largest number of passes. -/
def passLimit : Nat := 8

/-- A text after the rules without a condition. -/
def settleRules (rules : List Rule) (text : Text) : Progress :=
  Progress.settle (rules.filter (!·.afterChange)) passLimit ⟨text, []⟩

/-- Applies a list of rules to a text; `changed` says whether something else has
already changed it. -/
def applyRules (rules : List Rule) (changed : Bool) (text : Text) : Progress :=
  let settled := settleRules rules text
  if changed || settled.text ≠ text then settled.applyAll (rules.filter (·.afterChange))
  else settled

/-- A list of rules comes to one that cannot be applied. Rules without a condition
always have their turn. -/
def meetsOverflow (rules : List Rule) (changed : Bool) (text : Text) : Bool :=
  let unfit := rules.filter (!·.isApplicable)
  unfit.any (!·.afterChange) ||
    (!unfit.isEmpty && (changed || (settleRules rules text).text ≠ text))

/-- The text after one application of the rule, if it can be applied. -/
def Rule.applyChecked (rule : Rule) (text : Text) : Except WordOverflow Text :=
  if rule.isApplicable then .ok (rule.apply text) else .error ⟨⟩

/-- Applies a list of rules to a text, unless one of them cannot be applied. -/
def applyRulesChecked (rules : List Rule) (changed : Bool) (text : Text) :
    Except WordOverflow Progress :=
  if meetsOverflow rules changed text then .error ⟨⟩ else .ok (applyRules rules changed text)

end SqlRenewal
