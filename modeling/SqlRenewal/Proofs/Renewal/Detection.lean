import Mathlib
import SqlRenewal.Findings
import SqlRenewal.Proofs.Renewal.Idempotence

/-!
# Findings and renewals

Findings look once at a text, with patterns of their own. A renewal edits the text in
several passes. The two agree: a text without findings stays as it is, and in a text
without the legacy keyword findings, hits and a change of the text go together.

No pass undoes another one. A lasting rule that has a match in the text has none in the
renewed one, and where only operators of joins match, an asterisk is lost. A pass without
hits is no pass at all, so there is no change without a hit either.

Every statement that is replaced has a shape that the findings name. It stands in the text
before the pass as it stands behind what the pass has written: a keyword that follows a
replacement directly is joined to it and never found.
-/
namespace SqlRenewal

/-! ### Findings -/

/-- The findings look for what the rules without a condition replace. -/
theorem deprecations_rule : deprecations.map Deprecation.rule = builtinRules.filter (!·.afterChange) :=
  rfl

/-- A deprecation is found exactly if one of the rules that go without a change finds a hit: each
deprecation counts the hits of its own rule. -/
theorem any_deprecations_iff (text : Text) :
    (deprecations.any fun deprecation => decide (deprecation.rule.count text ≠ 0)) = true ↔
      ∃ rule ∈ builtinRules, rule.afterChange = false ∧ ¬rule.IsClear text := by
  have rules : (deprecations.any fun deprecation => decide (deprecation.rule.count text ≠ 0)) =
      (builtinRules.filter (!·.afterChange)).any fun rule => decide (rule.count text ≠ 0) := by
    rw [← deprecations_rule, List.any_map]
    rfl
  rw [rules]
  simp only [List.any_eq_true, List.mem_filter, decide_eq_true_eq, ne_eq, Rule.count_eq_zero_iff,
    Bool.not_eq_eq_eq_not, Bool.not_true]
  constructor
  · rintro ⟨rule, ⟨listed, unconditional⟩, unclear⟩
    exact ⟨rule, listed, unconditional, unclear⟩
  · rintro ⟨rule, listed, unconditional, unclear⟩
    exact ⟨rule, ⟨listed, unconditional⟩, unclear⟩

/-- Legacy is what the keyword or a match of a rule without a condition makes so. -/
theorem isLegacy_iff (text : Text) : isLegacy text = true ↔ countRaises none text ≠ 0 ∨
    ∃ rule ∈ builtinRules, rule.afterChange = false ∧ ¬rule.IsClear text := by
  rw [isLegacy, Bool.or_eq_true, any_deprecations_iff, decide_eq_true_eq]

/-- Something occurs for the first time exactly if something occurs: the first member is always
added, and nothing is taken out later. -/
theorem firstOccurrences_ne_nil {α : Type} [DecidableEq α] (members : List α) :
    firstOccurrences members ≠ [] ↔ members ≠ [] := by
  have grows : ∀ (rest seen : List α), seen ≠ [] →
      rest.foldl (fun seen member => if member ∈ seen then seen else seen ++ [member]) seen ≠ [] := by
    intro rest
    induction rest with
    | nil => exact fun _ some => some
    | cons member rest inductionHypothesis =>
      intro seen some
      rw [List.foldl_cons]
      apply inductionHypothesis
      split
      · exact some
      · simp
  cases members with
  | nil => rfl
  | cons member rest =>
    have some : firstOccurrences (member :: rest) ≠ [] := by
      rw [firstOccurrences, List.foldl_cons]
      exact grows rest _ (by simp)
    simp [some]

/-- A text is legacy exactly if a category is found in it. Leaving out repetitions empties no
list, so the two ask whether the same list of findings is empty. -/
theorem foundCategories_ne_nil (text : Text) : isLegacy text = true ↔ foundCategories text ≠ [] := by
  rw [foundCategories, firstOccurrences_ne_nil, ne_eq, List.map_eq_nil_iff, findings,
    List.filter_eq_nil_iff, List.forall_mem_cons, List.forall_mem_map, not_and_or, isLegacy]
  simp only [decide_eq_true_eq, Bool.or_eq_true, List.any_eq_true, not_not, ne_eq, not_forall,
    exists_prop]
  rfl

/-! ### A text without findings, or without the keyword -/

/-- The pass has nothing to do with a text that lacks the keyword. -/
theorem revise_of_lacking {text : Text} (none : countRaises none text = 0) :
    revise text = ⟨text, []⟩ :=
  reviseFrom_done (countRaises_eq_zero_iff.mp none) 0

/-- What a renewal finds in a text without the keyword is left to the rules. -/
theorem renew_of_lacking {rules : List Rule} {text : Text} (none : countRaises none text = 0) :
    renew rules text =
      ⟨text, (applyRules rules false text).text, [], (applyRules rules false text).tally⟩ := by
  simp [renew, revise_of_lacking none]

/-- A text without deprecated syntax is renewed to itself: no statement is found, no rule fires,
and the rule that needs a change is not asked. -/
theorem renew_of_not_isLegacy {text : Text} (clean : isLegacy text = false) :
    renew builtinRules text = ⟨text, text, [], []⟩ := by
  have nothing : ¬isLegacy text = true := by simp [clean]
  rw [isLegacy_iff, not_or, not_not, not_exists] at nothing
  obtain ⟨lacking, unmatched⟩ := nothing
  have clear : ∀ rule ∈ builtinRules, rule.afterChange = false → rule.IsClear text := by
    intro rule listed unconditional
    by_contra unclear
    exact unmatched rule ⟨listed, unconditional, unclear⟩
  rw [renew_of_lacking lacking, applyRules_of_clear clear]

/-- A match of a rule without a condition makes the rules change the text. If the text stayed the
same, only joins could have a match, and each of those takes an asterisk away. -/
theorem applyRules_ne {text : Text}
    (some : ∃ rule ∈ builtinRules, rule.afterChange = false ∧ ¬rule.IsClear text) (changed : Bool) :
    (applyRules builtinRules changed text).text ≠ text := by
  intro same
  -- A lasting rule would have cleared the text, so only joins can have a match.
  have others : ∀ rule ∈ builtinRules, rule.afterChange = false → rule.IsClear text ∨ rule.IsJoin := by
    intro rule listed unconditional
    by_cases isLeft : rule = leftOuterJoin
    · exact .inr (isLeft ▸ ⟨⟨_, rfl⟩, rfl⟩)
    · by_cases isRight : rule = rightOuterJoin
      · exact .inr (isRight ▸ ⟨⟨_, rfl⟩, rfl⟩)
      · have lasts := builtinRules_lasts rule listed isLeft isRight unconditional
        have cleared := lasts.isClear_applyRules builtinRules_pattern listed unconditional changed text
        rw [same] at cleared
        exact .inl cleared
  have fewer := applyRules_countP_lt builtinRules_pattern others some changed
  rw [same] at fewer
  exact Nat.lt_irrefl _ fewer

/-! ### Shapes of statements -/

/-- The test by which a shape is found. -/
def Form.starts : Form → Option Char → Text → Bool
  | .bare => startsBare
  | .parenthesized => startsParenthesized

/-- A form is found in a text exactly if it starts somewhere in it. -/
theorem mem_foundForms {form : Form} {text : Text} :
    form ∈ foundForms text ↔ holdsSomewhere form.starts none text = true := by
  cases form <;> simp [foundForms, Form.starts]

/-- What a form starts with is in the text alone, so a weaker demand on the character before it is
enough. -/
theorem Form.starts_mono {form : Form} {before other : Option Char}
    (opens : endsWord before = true → endsWord other = true) {text : Text}
    (starts : form.starts before text = true) : form.starts other text = true := by
  cases form <;> simp only [Form.starts, startsBare, startsParenthesized, Bool.and_eq_true] at starts ⊢
  · exact ⟨opens starts.1, starts.2⟩
  · exact ⟨opens starts.1, starts.2⟩

/-- A form that starts somewhere does so too where the text may begin a word in more cases. The
induction follows the search. -/
theorem holdsSomewhere_mono {form : Form} {before other : Option Char}
    (opens : endsWord before = true → endsWord other = true) {text : Text}
    (holds : holdsSomewhere form.starts before text = true) :
    holdsSomewhere form.starts other text = true := by
  cases text with
  | nil => cases holds
  | cons c rest =>
    simp only [holdsSomewhere, Bool.or_eq_true] at holds ⊢
    exact holds.imp_left (Form.starts_mono opens)

/-- What holds in the rest of a text holds in the whole of it, with the same characters before
it. -/
theorem holdsSomewhere_append {test : Option Char → Text → Bool} {before : Option Char}
    (front : Text) {rest : Text} (holds : holdsSomewhere test (lastOf before front) rest = true) :
    holdsSomewhere test before (front ++ rest) = true := by
  induction front generalizing before with
  | nil => simpa using holds
  | cons c front inductionHypothesis =>
    rw [lastOf_cons] at holds
    rw [List.cons_append, holdsSomewhere, inductionHypothesis holds, Bool.or_true]

/-- What holds at the start of a text holds somewhere in it. -/
theorem holdsSomewhere_of_starts {test : Option Char → Text → Bool} {before : Option Char}
    {text : Text} (some : text ≠ []) (starts : test before text = true) :
    holdsSomewhere test before text = true := by
  cases text with
  | nil => exact absurd rfl some
  | cons c rest => rw [holdsSomewhere, starts, Bool.true_or]

/-- What follows a keyword has the shape under which the statement is found. The tests of a shape
are those of the sighting, in the same order. -/
theorem sightAt_form {position : Nat} {before : Option Char} {word after : Text} {span : Span}
    (opened : endsWord before = true) (spelled : Spells raiseWord word)
    (found : sightAt position after = .found span) :
    span.layout.form.starts before (word ++ after) = true := by
  have dropped : dropKeyword? raiseWord (word ++ after) = some after :=
    dropKeyword?_eq_some_iff.mpr ⟨word, rfl, spelled⟩
  rcases after_cases after with ⟨blanks, inside, rfl, blank⟩ |
    ⟨margin, region, rfl, some, inline, digit⟩ | unread
  · rw [sightAt_parenthesized position blank inside, sightParenthesized] at found
    split at found
    · cases found
    · split at found
      · cases found
      · cases found
        have closed : ∀ c ∈ ('(' :: inside).head?, isBlank c = false := by
          intro c first
          cases first
          decide
        simp only [Layout.form, Form.starts, startsParenthesized, opened, dropped,
          dropWhile_append_stop blank closed]
        rfl
  · rw [sightAt_bare position some inline digit, sightBare] at found
    repeat' split at found
    all_goals cases found
    cases region with
    | nil => simp at digit
    | cons d region =>
      have isDigit : isDigit d = true := by simpa using digit
      have solid : ∀ c ∈ (d :: region).head?, isInlineBlank c = false := by
        intro c first
        cases first
        cases blank : isInlineBlank d with
        | false => rfl
        | true =>
          have impossible := isBlank_of_isDigit isDigit
          rw [isBlank_of_isInlineBlank blank] at impossible
          cases impossible
      have margined : (margin ++ d :: region).head?.any isInlineBlank = true := by
        cases margin with
        | nil => exact absurd rfl some
        | cons c margin => simpa using inline c (by simp)
      simp only [Layout.form, Form.starts, startsBare, opened, dropped, margined,
        dropWhile_append_stop inline solid]
      simpa using isDigit
  · rw [sightAt_unrecognized position unread] at found
    cases found

/-- A statement that is about to be replaced has a shape that the text shows, where its keyword
stands. -/
theorem holdsSomewhere_of_settle {before : Option Char} {text : Text} {span : Span}
    {reading : Reading} (decided : settle (sight before text) = .replace span reading) :
    holdsSomewhere span.layout.form.starts before text = true := by
  rcases lacks_or_occurs before text with lacking | ⟨front, word, after, rfl, occurs⟩
  · rw [sight_of_lacks lacking] at decided
    cases decided
  · rw [occurs.sight_eq] at decided
    cases seen : sightAt front.length after with
    | absent => simp [seen, settle] at decided
    | skipped skip => simp [seen, settle] at decided
    | found other =>
      have same : other = span := by
        simp only [seen, settle] at decided
        split at decided
        · cases decided
        · exact (Decision.replace.inj decided).1
      rw [same] at seen
      rw [List.append_assoc]
      refine holdsSomewhere_append front (holdsSomewhere_of_starts ?_ ?_)
      · simp [occurs.spelled.ne_nil (by decide)]
      · exact sightAt_form occurs.opened occurs.spelled seen

/-- Every statement that the pass replaces has a shape that the text before the pass shows. The
induction follows the pass; the shape of a statement in the rest is shown by the whole, because it
stands at its end. -/
theorem reviseFrom_form {before : Option Char} {position : Nat} {text : Text}
    {replacement : Replacement}
    (member : .replaced replacement ∈ (reviseFrom before position text).edits) :
    holdsSomewhere replacement.form.starts before text = true := by
  induction size : text.length using Nat.strongRecOn generalizing before position text with
  | ind n inductionHypothesis =>
    rcases settle_cases before text with lacking | ⟨kept, rest, rfl, leaves⟩ |
      ⟨span, reading, front, statement, rest, decided, rfl, replaces⟩
    · rw [reviseFrom_done lacking] at member
      simp at member
    · obtain ⟨skip, same⟩ := reviseFrom_left leaves position
      have shorter : rest.length < n := by
        have := List.length_pos_iff.mpr leaves.ne_nil
        simp only [List.length_append] at size
        omega
      simp only [same, Revision.precede, List.mem_cons, reduceCtorEq, false_or] at member
      exact holdsSomewhere_append kept (inductionHypothesis _ shorter member rfl)
    · have shown := holdsSomewhere_of_settle decided
      have shorter : rest.length < n := by
        have := List.length_pos_iff.mpr replaces.stated.ne_nil
        simp only [List.length_append] at size
        omega
      simp only [reviseFrom_replaced decided replaces, Revision.precede, List.mem_cons] at member
      rcases member with first | later
      · cases first
        exact shown
      · -- Behind a replacement no keyword opens a word, so nothing depends on the
        -- character that the replacement took the place of.
        have joined : endsWord (lastOf before reading.render) = true →
            endsWord (lastOf before (front ++ statement)) = true := by
          intro opens
          rw [reading.endsWord_render before] at opens
          cases opens
        exact holdsSomewhere_append (front ++ statement)
          (holdsSomewhere_mono joined (inductionHypothesis _ shorter later rfl))

/-- A text without findings is returned as it is, with an empty report. In a text without
the keyword, findings, a change of the text and hits of the rules go together. There are
findings exactly if there are categories, and the shapes of all replaced statements are
found. -/
theorem findings_agree_with_renewal (text : Text) :
    let report := renew builtinRules text
    (isLegacy text = false → report.text = text ∧ report.replacements = [] ∧ report.skips = [] ∧
        report.tally = [] ∧ report.flags = []) ∧
      (countRaises none text = 0 → (report.text ≠ text ↔ isLegacy text = true) ∧
        (report.text ≠ text ↔ report.tally ≠ [])) ∧
      (isLegacy text = true ↔ foundCategories text ≠ []) ∧
      ∀ statement ∈ report.replacements, statement.form.label ∈ (foundForms text).map Form.label := by
  intro report
  refine ⟨?_, ?_, foundCategories_ne_nil text, ?_⟩
  · intro clean
    simp [report, renew_of_not_isLegacy clean, Report.replacements, Report.skips, Report.flags]
  · intro lacking
    have changes : report.text ≠ text ↔ isLegacy text = true := by
      constructor
      · intro altered
        by_contra clean
        exact altered (by simp [report, renew_of_not_isLegacy (Bool.not_eq_true _ ▸ clean)])
      · intro legacy
        rw [isLegacy_iff] at legacy
        simp only [report, renew_of_lacking lacking]
        exact applyRules_ne (legacy.resolve_left (not_not.mpr lacking)) false
    refine ⟨changes, ?_⟩
    constructor
    · intro altered none
      refine altered ?_
      simp only [report, renew_of_lacking lacking] at none ⊢
      exact applyRules_of_tally builtinRules_pattern none
    · intro hits
      rw [changes]
      by_contra clean
      exact hits (by simp [report, renew_of_not_isLegacy (Bool.not_eq_true _ ▸ clean)])
  · intro statement member
    obtain ⟨edit, listed, replaced⟩ := List.mem_filterMap.mp member
    cases edit with
    | skipped skip => cases replaced
    | replaced other =>
      cases replaced
      exact List.mem_map_of_mem (mem_foundForms.mpr (reviseFrom_form listed))

end SqlRenewal
