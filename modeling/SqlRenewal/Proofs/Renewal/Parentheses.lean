import Mathlib
import SqlRenewal.Renewal.Report
import SqlRenewal.Proofs.Renewal.Pass
import SqlRenewal.Proofs.Substitution.Settled

/-!
# Parentheses of a renewed text

A renewal takes whole arguments out of a text, moves others and puts calls with
parentheses of their own in the place of words. Still the text opens as many more
parentheses than it closes as before, and if nothing in it was closed that had not
been opened, nothing is afterwards.

The statement pass and the rules are followed apart. A statement gives way to its
message, which is one of its balanced arguments or the bare rest of its line; a swap
gives one balanced part for another.
-/
namespace SqlRenewal

/-- Nothing is closed too early exactly if no prefix closes more than it opens: the depth behind a
prefix is the difference between its two counts. -/
theorem staysAbove_zero_iff_count {text : Text} :
    StaysAbove 0 text ↔ ∀ front, front <+: text → front.count ')' ≤ front.count '(' := by
  constructor
  · intro above front begins
    have bound := above front begins
    rw [balance_eq_count] at bound
    omega
  · intro counted front begins
    have bound := counted front begins
    rw [balance_eq_count]
    omega

/-- The statement pass leaves the balance as it is, by induction over the pass: text that is
kept adds the same on both sides, and a statement that is put has the balance of the one it
replaces. -/
theorem Pass.balance_eq {before : Option Char} {text text' : Text} (pass : Pass before text text') :
    balance text' = balance text := by
  induction pass with
  | absent => rfl
  | left leaves later inductionHypothesis =>
    rw [balance_append, balance_append, inductionHypothesis]
  | replaced lacking opened stated later inductionHypothesis =>
    obtain ⟨level, _⟩ := stated.parentheses
    rw [balance_append, balance_append, balance_append, balance_append, level, inductionHypothesis]

/-- The text keeps the parentheses of another one: it has the same balance and stays
above every depth that the other stays above. -/
structure KeepsParentheses (text text' : Text) : Prop where
  level : balance text' = balance text
  above : ∀ depth, StaysAbove depth text → StaysAbove depth text'

/-- A text keeps its own parentheses. -/
theorem KeepsParentheses.refl (text : Text) : KeepsParentheses text text :=
  ⟨rfl, fun _ above => above⟩

/-- Parentheses that are kept twice are kept on the whole: differences add up, and a text that
stays above zero does so twice. -/
theorem KeepsParentheses.trans {first second third : Text} (keeps : KeepsParentheses first second)
    (later : KeepsParentheses second third) : KeepsParentheses first third :=
  ⟨later.level.trans keeps.level, fun depth above => later.above depth (keeps.above depth above)⟩

/-- A pass over statements keeps parentheses: what it leaves is the same, and what it puts has the
balance of what it takes. The induction is on the pass. -/
theorem Pass.keepsParentheses {before : Option Char} {text text' : Text}
    (pass : Pass before text text') : KeepsParentheses text text' :=
  ⟨pass.balance_eq, fun _ above => pass.staysAbove above⟩

/-- Rules with built-in patterns keep the parentheses, however many passes they take. -/
theorem applyRules_keepsParentheses {rules : List Rule}
    (builtin : ∀ rule ∈ rules, BuiltinPattern true rule.pattern) (changed : Bool) (text : Text) :
    KeepsParentheses text (applyRules rules changed text).text := by
  apply applyRules_induct _ changed (KeepsParentheses.refl text)
  intro rule member middle keeps
  have renewed := Rule.apply_renewed (builtin rule member) middle
  exact keeps.trans ⟨renewed.balance_eq Swap.mono, fun _ above => renewed.staysAbove Swap.mono above⟩

/-- A renewal with the built-in rules keeps the difference between opening and closing
parentheses; and where no prefix of the text closes more than it opens, no prefix of the renewed
text does. A statement and its rendering are balanced, and so is every swap. -/
theorem renew_keeps_parentheses (text : Text) :
    let renewed := (renew builtinRules text).text
    (renewed.count '(' : Int) - renewed.count ')' = (text.count '(' : Int) - text.count ')' ∧
      ((∀ front, front <+: text → front.count ')' ≤ front.count '(') →
        ∀ front, front <+: renewed → front.count ')' ≤ front.count '(') := by
  intro renewed
  have revised : KeepsParentheses text (revise text).text :=
    (reviseFrom_pass none 0 text).keepsParentheses
  have keeps : KeepsParentheses text renewed :=
    revised.trans (applyRules_keepsParentheses builtinRules_pattern _ _)
  constructor
  · rw [← balance_eq_count, ← balance_eq_count]
    exact keeps.level
  · intro counted
    exact staysAbove_zero_iff_count.mp (keeps.above 0 (staysAbove_zero_iff_count.mpr counted))

/-- The second argument is dropped with its parentheses, and the type brings others. -/
theorem renew_keeps_parentheses_dropped :
    (∀ front, front <+: "RAISERROR(f(),g()) TEXT ".toList → front.count ')' ≤ front.count '(') ∧
      (renew builtinRules "RAISERROR(f(),g()) TEXT ".toList).text =
        ";THROW 50000, f(), 1 NVARCHAR(MAX) ".toList ∧
      ∀ front, front <+: (renew builtinRules "RAISERROR(f(),g()) TEXT ".toList).text →
        front.count ')' ≤ front.count '(' := by
  have counted : ∀ front, front <+: "RAISERROR(f(),g()) TEXT ".toList →
      front.count ')' ≤ front.count '(' :=
    staysAbove_zero_iff_count.mp (closeAt?_one_eq_none_iff.mp (by decide))
  exact ⟨counted, by cbv, (renew_keeps_parentheses _).2 counted⟩

end SqlRenewal
