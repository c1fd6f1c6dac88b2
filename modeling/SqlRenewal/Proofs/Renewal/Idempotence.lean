import Mathlib
import SqlRenewal.Proofs.Renewal.Stability
import SqlRenewal.Proofs.Substitution.Settled

/-!
# Renewing a renewed text

A second renewal has nothing to do exactly if the statement pass has nothing to do
and no operator of an outer join is left; every other rule is settled by the first
renewal. The statement pass has nothing to do whenever the rules lost neither a
line break nor a keyword of the text that the first statement pass produced.

Both conditions can fail. A call of `GETDATE` may take the break between two lines
with it, so that an occurrence bounded by its line covers other keywords than
before. An operator next to a keyword is written out in letters, and the keyword
is lost in the word that this makes. And passes are bounded, so operators in a row
may be left.
-/
namespace SqlRenewal

/-! ### From one text to another -/

/-- The rules may have made the second text of the first: they brought neither line
breaks nor keywords into it, and if they lost none they kept it quiet. -/
structure Tame (old new : Text) : Prop where
  lines : new.countP isLineBreak ≤ old.countP isLineBreak
  words : countRaises none new ≤ countRaises none old
  quiet : new.countP isLineBreak = old.countP isLineBreak →
    countRaises none new = countRaises none old → Quiet none old → Quiet none new

/-- A text is tame to itself. -/
theorem Tame.refl (text : Text) : Tame text text :=
  ⟨Nat.le_refl _, Nat.le_refl _, fun _ _ quiet => quiet⟩

/-- Tameness is kept over two changes. The counts never grow, so if they are the same in the end
they were the same in between, and quiet is handed on from one text to the next. -/
theorem Tame.trans {first second third : Text} (tame : Tame first second) (later : Tame second third) :
    Tame first third := by
  have lines := tame.lines
  have words := tame.words
  have laterLines := later.lines
  have laterWords := later.words
  refine ⟨by omega, by omega, ?_⟩
  intro sameLines sameWords quiet
  have middle := tame.quiet (by omega) (by omega) quiet
  exact later.quiet (by omega) (by omega) middle

/-- One application of a rule is tame. -/
theorem Tame.of_renewed {joins : Bool} {old new : Text} (renewed : Renewed joins none none old new) :
    Tame old new := by
  refine ⟨renewed.countP_le Swap.mono putForms_isLineBreak, Renewed.countRaises_le renewed, ?_⟩
  intro lines words quiet
  exact (Firm.of_renewed renewed lines words).quiet quiet

/-- The rules that come with the program are tame in any list, since each of their passes is. -/
theorem applyRules_tame {rules : List Rule}
    (builtin : ∀ rule ∈ rules, BuiltinPattern true rule.pattern) (changed : Bool) (text : Text) :
    Tame text (applyRules rules changed text).text := by
  apply applyRules_induct _ changed (Tame.refl text)
  intro rule member middle tame
  exact tame.trans (.of_renewed (Rule.apply_renewed (builtin rule member) middle))

/-- Rules without joins keep every keyword. One rule keeps their number, and by induction over the
passes so do all of them. -/
theorem applyRules_countRaises {rules : List Rule}
    (builtin : ∀ rule ∈ rules, BuiltinPattern false rule.pattern) (changed : Bool) (text : Text) :
    countRaises none (applyRules rules changed text).text = countRaises none text := by
  have step : ∀ rule ∈ rules, ∀ middle, countRaises none middle = countRaises none text →
      countRaises none (rule.apply middle) = countRaises none text := by
    intro rule member middle same
    rw [Renewed.countRaises_eq (Rule.apply_renewed (builtin rule member) middle), same]
  exact applyRules_induct step changed rfl

/-! ### The second renewal -/

/-- A report in which every edit skips replaces nothing. -/
theorem Report.replacements_eq_nil {report : Report} (skips : ∀ edit ∈ report.edits, edit.Skips) :
    report.replacements = [] := by
  rw [Report.replacements, List.filterMap_eq_nil_iff]
  intro edit member
  obtain ⟨skip, rfl⟩ := skips edit member
  rfl

/-- A text that the statement pass leaves and that is clear of the rules stays. -/
theorem renew_of_quiet {rules : List Rule} {text : Text} (unchanged : (revise text).text = text)
    (clear : ∀ rule ∈ rules, rule.afterChange = false → rule.IsClear text) :
    (renew rules text).text = text ∧ (renew rules text).replacements = [] ∧
      (renew rules text).tally = [] := by
  have skips := ((quiet_iff.mpr unchanged).unchanged 0).2
  have still := applyRules_of_clear clear
  refine ⟨?_, Report.replacements_eq_nil skips, ?_⟩
  · simp [renew, unchanged, still]
  · simp [renew, unchanged, still]

/-- A renewal that leaves the text leaves it in the statement pass already: the pass
takes a keyword away with every statement, and the rules bring none back. -/
theorem revise_of_renew {rules : List Rule}
    (builtin : ∀ rule ∈ rules, BuiltinPattern true rule.pattern) {text : Text}
    (same : (renew rules text).text = text) : (revise text).text = text := by
  obtain ⟨fewer, unchanged⟩ := (reviseFrom_pass none 0 text).countRaises_le
  have rulesFewer := (applyRules_tame builtin (decide ((revise text).text ≠ text)) (revise text).text).words
  have back : countRaises none (renew rules text).text = countRaises none text := by rw [same]
  apply unchanged
  change countRaises none (applyRules rules _ (revise text).text).text = _ at back
  change countRaises none (revise text).text ≤ _ at fewer
  change countRaises none (revise text).text = _
  omega

/-- The rules, other than joins, that need no earlier change find nothing in a text
that was renewed with them. -/
theorem renew_isClear {rules : List Rule} (builtin : ∀ rule ∈ rules, rule ∈ builtinRules)
    {rule : Rule} (member : rule ∈ rules) (notLeft : rule ≠ leftOuterJoin)
    (notRight : rule ≠ rightOuterJoin) (unconditional : rule.afterChange = false) (text : Text) :
    rule.IsClear (renew rules text).text := by
  have lasts := builtinRules_lasts rule (builtin rule member) notLeft notRight unconditional
  have patterns : ∀ other ∈ rules, BuiltinPattern true other.pattern :=
    fun other listed => builtinRules_pattern other (builtin other listed)
  exact lasts.isClear_applyRules patterns member unconditional _ _

/-- Without joins, the second renewal rewrites no statement, hits with no rule and
returns the text exactly if the statement pass leaves the renewed text. It does so
whenever the rules took no line break out of the text that the first statement pass
produced; with no rules at all, always. -/
theorem renew_twice_without_joins {rules : List Rule}
    (listed : ∀ rule ∈ rules, rule ∈ builtinRules ∧ rule ≠ leftOuterJoin ∧ rule ≠ rightOuterJoin)
    (text : Text) :
    let report := renew rules text
    let again := renew rules report.text
    ((again.text = report.text ∧ again.replacements = [] ∧ again.tally = []) ↔
        (revise report.text).text = report.text) ∧
      (report.text.countP isLineBreak = (revise text).text.countP isLineBreak →
        again.text = report.text ∧ again.replacements = [] ∧ again.tally = []) := by
  intro report again
  have builtin : ∀ rule ∈ rules, BuiltinPattern true rule.pattern :=
    fun rule member => builtinRules_pattern rule (listed rule member).1
  have joinless : ∀ rule ∈ rules, BuiltinPattern false rule.pattern := by
    intro rule member
    obtain ⟨known, notLeft, notRight⟩ := listed rule member
    exact builtinRules_pattern_of_ne rule known notLeft notRight
  have clear : ∀ rule ∈ rules, rule.afterChange = false → rule.IsClear report.text := by
    intro rule member unconditional
    obtain ⟨_, notLeft, notRight⟩ := listed rule member
    exact renew_isClear (fun other found => (listed other found).1) member notLeft notRight
      unconditional text
  constructor
  · constructor
    · rintro ⟨same, _, _⟩
      exact revise_of_renew builtin same
    · intro unchanged
      exact renew_of_quiet unchanged clear
  · intro lines
    have tame := applyRules_tame builtin (decide ((revise text).text ≠ text)) (revise text).text
    have words := applyRules_countRaises joinless (decide ((revise text).text ≠ text)) (revise text).text
    exact renew_of_quiet (quiet_iff.mp (tame.quiet lines words (revise_quiet text))) clear

/-- Two rules on one text: a name of a function is changed and the definition opened, and a second
renewal finds nothing left. -/
theorem renew_twice_getdate :
    let report := renew [getdateFunction, createToAlter] "CREATE\nPROC p AS GETDATE( )".toList
    let again := renew [getdateFunction, createToAlter] report.text
    report.text = "ALTER PROC p AS SYSDATETIME()".toList ∧
      again.text = report.text ∧ again.replacements = [] ∧ again.tally = [] := by
  have listed : ∀ rule ∈ [getdateFunction, createToAlter],
      rule ∈ builtinRules ∧ rule ≠ leftOuterJoin ∧ rule ≠ rightOuterJoin :=
    fun rule member => joinless_of_call_or_head (by simpa using member)
  have settled := (renew_twice_without_joins listed "CREATE\nPROC p AS GETDATE( )".toList).1
  exact ⟨by cbv, settled.mpr (by cbv)⟩

/-- The break that a call takes with it bounded an occurrence: without it the
occurrence covers the next keyword too, and the one behind that one becomes readable. -/
theorem renew_twice_lost_line :
    let report := renew [getdateFunction] "RAISERROR 1,GETDATE(\n)RAISERROR(\nRAISERROR(1))".toList
    (renew [getdateFunction] report.text).text ≠ report.text := by
  have once : (renew [getdateFunction]
      "RAISERROR 1,GETDATE(\n)RAISERROR(\nRAISERROR(1))".toList).text =
      "RAISERROR 1,SYSDATETIME()RAISERROR(\nRAISERROR(1))".toList := by cbv
  have pass : (revise "RAISERROR 1,SYSDATETIME()RAISERROR(\nRAISERROR(1))".toList).text =
      "RAISERROR 1,SYSDATETIME()RAISERROR(\n;THROW 50000, 'An error occurred', 1)".toList := by cbv
  dsimp only
  rw [once]
  intro same
  have unchanged := revise_of_renew (List.forall_mem_singleton.mpr .currentDate) same
  rw [pass] at unchanged
  exact absurd unchanged (by decide)

/-! ### Joins -/

/-- Every operator that is written out takes an asterisk away: it has one, and the words for it
have none. The induction goes from match to match. -/
theorem outerJoin_countP (side : JoinSide) (before : Option Char) (text : Text) :
    (replaceHits none ((Pattern.outerJoin side).scan before text)).countP (· == '*') +
        (hitsOf ((Pattern.outerJoin side).scan before text)).length ≤ text.countP (· == '*') := by
  induction before, text using (outerJoin_takesSome side).scan_induct with
  | nil before =>
    rw [(outerJoin_takesSome side).scan_nil]
    exact Nat.le_refl _
  | plain before c rest absent inductionHypothesis =>
    rw [Pattern.scan_plain absent, replaceHits, hitsOf_plain, List.countP_cons, List.countP_cons]
    omega
  | hit before hit rest found some inductionHypothesis =>
    obtain ⟨_, _, join⟩ := outerJoinHit?_eq_some found
    have counts : ∀ {taken put : Text}, JoinSwap taken put →
        taken.countP (· == '*') = 1 ∧ put.countP (· == '*') = 0 := by
      intro taken put swap
      cases swap <;> decide
    obtain ⟨one, none⟩ := counts join
    rw [Pattern.scan_hit found some, List.countP_append, one, replaceHits, List.countP_append, none,
      hitsOf_hit, List.length_cons]
    omega

/-- A rule that writes out operators of joins. -/
def Rule.IsJoin (rule : Rule) : Prop :=
  (∃ side, rule.pattern = .outerJoin side) ∧ rule.allowance = none

/-- A join with a hit takes at least one star away, because every operator has one and what is put
has none. -/
theorem Rule.IsJoin.countP_lt {rule : Rule} (join : rule.IsJoin) {text : Text}
    (some : ¬rule.IsClear text) : (rule.apply text).countP (· == '*') < text.countP (· == '*') := by
  obtain ⟨⟨side, pattern⟩, unlimited⟩ := join
  have fewer := outerJoin_countP side none text
  rw [← pattern] at fewer
  have hits : (rule.pattern.hits text).length ≠ 0 := fun none => some (Rule.count_eq_zero_iff.mp none)
  simp only [Rule.apply, Rule.limit?, unlimited, Option.map_none]
  simp only [Pattern.hits] at hits
  omega

/-- No rule adds stars: none of what is put has one. -/
theorem Rule.countP_le {rule : Rule} (builtin : BuiltinPattern true rule.pattern) (text : Text) :
    (rule.apply text).countP (· == '*') ≤ text.countP (· == '*') :=
  (Rule.apply_renewed builtin text).countP_le Swap.mono (by decide)

/-- In a list of rules, the first one that finds something decides: those before it leave the text
alone, it takes an asterisk away, and those behind it add none. -/
theorem Progress.applyAll_countP_lt {rules : List Rule}
    (builtin : ∀ rule ∈ rules, BuiltinPattern true rule.pattern) {progress : Progress}
    (clear : ∀ rule ∈ rules, rule.IsClear progress.text ∨ rule.IsJoin)
    (some : ∃ rule ∈ rules, ¬rule.IsClear progress.text) :
    (progress.applyAll rules).text.countP (· == '*') < progress.text.countP (· == '*') := by
  induction rules with
  | nil => simp at some
  | cons rule rules inductionHypothesis =>
    have later : ∀ other ∈ rules, BuiltinPattern true other.pattern :=
      fun other member => builtin other (List.mem_cons_of_mem _ member)
    by_cases found : rule.IsClear progress.text
    · have first : progress.apply rule = progress := found.apply_eq
      rw [Progress.applyAll, List.foldl_cons, first]
      apply inductionHypothesis later fun other member => clear other (List.mem_cons_of_mem _ member)
      obtain ⟨other, member, unclear⟩ := some
      rcases List.mem_cons.mp member with rfl | member
      · exact absurd found unclear
      · exact ⟨other, member, unclear⟩
    · have drops : (rule.apply progress.text).countP (· == '*') < progress.text.countP (· == '*') := by
        rcases clear rule List.mem_cons_self with found' | join
        · exact absurd found' found
        · exact join.countP_lt found
      have rest : (((progress.apply rule).applyAll rules).text).countP (· == '*') ≤
          (rule.apply progress.text).countP (· == '*') := by
        have step : ∀ other ∈ rules, ∀ text,
            text.countP (· == '*') ≤ (rule.apply progress.text).countP (· == '*') →
              (other.apply text).countP (· == '*') ≤
                (rule.apply progress.text).countP (· == '*') := by
          intro other member text bound
          exact Nat.le_trans (Rule.countP_le (later other member) text) bound
        exact Progress.applyAll_induct step (progress.apply rule) (Nat.le_refl _)
      exact Nat.lt_of_le_of_lt rest drops

/-- Rules of which only joins find something take an asterisk away, in their first pass already;
later passes add none. -/
theorem applyRules_countP_lt {rules : List Rule}
    (builtin : ∀ rule ∈ rules, BuiltinPattern true rule.pattern) {text : Text}
    (clear : ∀ rule ∈ rules, rule.afterChange = false → rule.IsClear text ∨ rule.IsJoin)
    (some : ∃ rule ∈ rules, rule.afterChange = false ∧ ¬rule.IsClear text) (changed : Bool) :
    (applyRules rules changed text).text.countP (· == '*') < text.countP (· == '*') := by
  have kept (condition : Rule → Bool) : ∀ rule ∈ rules.filter condition, ∀ middle,
      middle.countP (· == '*') < text.countP (· == '*') →
        (rule.apply middle).countP (· == '*') < text.countP (· == '*') := by
    intro rule member middle bound
    exact Nat.lt_of_le_of_lt (Rule.countP_le (builtin rule (List.mem_filter.mp member).1) middle) bound
  have first : ((⟨text, []⟩ : Progress).applyAll (rules.filter (!·.afterChange))).text.countP
      (· == '*') < text.countP (· == '*') := by
    have patterns : ∀ rule ∈ rules.filter (!·.afterChange), BuiltinPattern true rule.pattern :=
      fun rule member => builtin rule (List.mem_filter.mp member).1
    apply Progress.applyAll_countP_lt patterns
    · intro rule member
      obtain ⟨listed, unconditional⟩ := List.mem_filter.mp member
      exact clear rule listed (by simpa using unconditional)
    · obtain ⟨rule, listed, unconditional, unclear⟩ := some
      exact ⟨rule, List.mem_filter.mpr ⟨listed, by simp [unconditional]⟩, unclear⟩
  have settled : (settleRules rules text).text.countP (· == '*') < text.countP (· == '*') := by
    rw [settleRules, passLimit, Progress.settle]
    split
    · exact first
    · exact Progress.settle_induct (kept _) _ _ first
  rw [applyRules]
  split
  · exact Progress.applyAll_induct (kept _) _ settled
  · exact settled

/-- With all built-in rules, the second renewal returns the text exactly if the
statement pass leaves the renewed text and no operator of a join is left in it. The
statement pass does so whenever the rules lost neither a line break nor a keyword. -/
theorem renew_twice_builtin (text : Text) :
    let report := renew builtinRules text
    let again := renew builtinRules report.text
    (again.text = report.text ↔ (revise report.text).text = report.text ∧
        leftOuterJoin.count report.text = 0 ∧ rightOuterJoin.count report.text = 0) ∧
      (report.text.countP isLineBreak = (revise text).text.countP isLineBreak →
        countRaises none report.text = countRaises none (revise text).text →
        (again.text = report.text ↔
          leftOuterJoin.count report.text = 0 ∧ rightOuterJoin.count report.text = 0)) := by
  intro report again
  have joins : leftOuterJoin.IsJoin ∧ rightOuterJoin.IsJoin :=
    ⟨⟨⟨_, rfl⟩, rfl⟩, ⟨⟨_, rfl⟩, rfl⟩⟩
  have others : ∀ rule ∈ builtinRules, rule.afterChange = false →
      rule.IsClear report.text ∨ rule.IsJoin := by
    intro rule member unconditional
    by_cases isLeft : rule = leftOuterJoin
    · exact .inr (isLeft ▸ joins.1)
    · by_cases isRight : rule = rightOuterJoin
      · exact .inr (isRight ▸ joins.2)
      · exact .inl (renew_isClear (fun _ => id) member isLeft isRight unconditional text)
  have exactly : again.text = report.text ↔ (revise report.text).text = report.text ∧
      leftOuterJoin.count report.text = 0 ∧ rightOuterJoin.count report.text = 0 := by
    constructor
    · intro same
      have unchanged := revise_of_renew builtinRules_pattern same
      have applied : (applyRules builtinRules false report.text).text = report.text := by
        have both : again.text = (applyRules builtinRules (decide ((revise report.text).text ≠
            report.text)) (revise report.text).text).text := rfl
        simpa [unchanged, same] using both.symm
      have none {rule : Rule} (member : rule ∈ builtinRules) (unconditional : rule.afterChange = false) :
          rule.count report.text = 0 := by
        apply Rule.count_eq_zero_iff.mpr
        apply Classical.byContradiction
        intro unclear
        have fewer := applyRules_countP_lt builtinRules_pattern others
          ⟨rule, member, unconditional, unclear⟩ false
        rw [applied] at fewer
        omega
      exact ⟨unchanged, none (by simp [builtinRules]) rfl, none (by simp [builtinRules]) rfl⟩
    · rintro ⟨unchanged, noLeft, noRight⟩
      have clear : ∀ rule ∈ builtinRules, rule.afterChange = false → rule.IsClear report.text := by
        intro rule member unconditional
        by_cases isLeft : rule = leftOuterJoin
        · exact isLeft ▸ Rule.count_eq_zero_iff.mp noLeft
        · by_cases isRight : rule = rightOuterJoin
          · exact isRight ▸ Rule.count_eq_zero_iff.mp noRight
          · exact renew_isClear (fun _ => id) member isLeft isRight unconditional text
      exact (renew_of_quiet unchanged clear).1
  refine ⟨exactly, ?_⟩
  intro lines words
  have tame := applyRules_tame builtinRules_pattern (decide ((revise text).text ≠ text))
    (revise text).text
  have unchanged := quiet_iff.mp (tame.quiet lines words (revise_quiet text))
  rw [exactly]
  exact ⟨And.right, fun none => ⟨unchanged, none⟩⟩

/-- The operator is written out next to a keyword, which is lost; the keyword around
it is no longer nested. -/
theorem renew_twice_lost_keyword :
    let report := renew builtinRules "RAISERROR(RAISERROR*=)".toList
    (renew builtinRules report.text).text ≠ report.text := by
  have once : (renew builtinRules "RAISERROR(RAISERROR*=)".toList).text =
      "RAISERROR(RAISERRORLEFT JOIN)".toList := by cbv
  have decided : settle (sight none "RAISERROR(RAISERRORLEFT JOIN)".toList) =
      .replace ⟨0, 29, "RAISERRORLEFT JOIN".toList, .parenthesized, by decide⟩
        ⟨.reference "RAISERRORLEFT JOIN".toList, "RAISERRORLEFT JOIN".toList, 1,
          ⟨"RAISERRORLEFT JOIN".toList, "RAISERRORLEFT JOIN".toList, none, none, none⟩, none, []⟩ := by
    cbv
  dsimp only
  rw [once]
  intro same
  have unchanged := revise_of_renew builtinRules_pattern same
  exact (quiet_iff.mpr unchanged).settle_ne _ _ decided

end SqlRenewal
