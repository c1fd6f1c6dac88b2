import SqlRenewal.Proofs.Renewal.Rounds
import SqlRenewal.Proofs.Routine.FirstDefinition
import SqlRenewal.Proofs.Substitution.Settled
import SqlRenewal.Proofs.Work.Holding

/-!
# Rules keep the kind of a routine

Rules change words in front of the first definition of a text, behind it and in the definition
itself. They keep the kind that it declares all the same, apart from the rules for outer joins,
which write words right beside others.

At each match the text is cut in two, before and after the change. What the rules for words
take, and what they put, is passed over on the way to the first definition. The rule for
definitions changes one verb into another, and the kind stays behind it.
-/
namespace SqlRenewal

/-! ### Rules for words -/

/-- What a rule takes and what it puts have no part in a definition, and words may begin
behind the one exactly where they may behind the other. -/
structure Neutral (before : Option Char) (taken put rest : Text) : Prop where
  opened : endsWord before = true
  takenInert : Inert taken
  putInert : Inert put
  alike : isBlankBeside rest.head? = true ∨
    endsWord (lastOf before taken) = endsWord (lastOf before put)

/-- The first definition of a text is the same after a neutral change if it is so behind it. -/
theorem Neutral.firstPlainKind?_eq {before : Option Char} {front taken put rest new : Text}
    (neutral : Neutral (lastOf before front) taken put rest)
    (later : firstPlainKind? (lastOf (lastOf before front) taken) new =
      firstPlainKind? (lastOf (lastOf before front) taken) rest)
    (blank : isBlankBeside rest.head? = true → isBlankBeside new.head? = true) :
    firstPlainKind? before (front ++ (put ++ new)) =
      firstPlainKind? before (front ++ (taken ++ rest)) := by
  have alike := firstPlainKind?_congr (neutral.alike.imp_left blank)
  rw [neutral.putInert.firstPlainKind?_eq neutral.opened,
    neutral.takenInert.firstPlainKind?_eq neutral.opened, ← alike, later]

/-- No name of a type begins as a verb or as a kind does, so no type can be taken for one of
them. -/
theorem typeNames_apart : ∀ entry ∈ typeNames, ∀ other ∈ definitionVerbs ++ definitionWords,
    clash entry.1 other = true := by decide

/-- The names that are put for types are inert: none of them is a verb or a kind. -/
theorem typeNames_put_inert : ∀ entry ∈ typeNames, Inert entry.2 := by
  have looked : ∀ entry ∈ typeNames, entry.2 ≠ [] ∧ isBlankBeside entry.2.head? = false ∧
      (∀ kind ∈ definitionWords, blocks kind entry.2 = true) ∧
      ∀ verb ∈ definitionVerbs, resists verb false entry.2 = true := by decide
  intro entry listed
  obtain ⟨some, solid, unread, resisting⟩ := looked entry listed
  exact inert_of_resists some solid unread resisting

/-- A match of a lasting pattern is a neutral change behind words that stay: it puts neither a
verb nor a kind in the place of one, and takes none away. -/
theorem Lasting.neutral {opening : List Char} {pattern : Pattern} (lasting : Lasting opening pattern)
    {before : Option Char} {text : Text} {hit : Hit} (found : pattern.hit? before text = some hit) :
    ∃ lead taken put rest, hit = ⟨lead ++ taken, lead ++ put⟩ ∧ taken ≠ [] ∧
      text = lead ++ (taken ++ rest) ∧ Neutral (lastOf before lead) taken put rest := by
  cases lasting with
  | typeName listed =>
    obtain ⟨blank, word, rest, rfl, spelled, closed, rfl⟩ := typeNameHit?_eq_some_iff.mp found
    have taken := spelled.inert (typeNames_known _ listed) (typeNames_apart _ listed)
    have nonempty := soughtWords_ne_nil _ (typeNames_sought _ listed)
    exact ⟨[], word, _, rest, rfl, spelled.ne_nil nonempty, rfl,
      endsWord_of_isBlankBeside blank, taken, typeNames_put_inert _ listed, .inl closed⟩
  | currentDate =>
    obtain ⟨opened, word, blanks, inside, rest, rfl, spelled, blank, inner, rfl⟩ :=
      currentDateHit?_eq_some_iff.mp found
    have marks : ∀ c ∈ blanks ++ '(' :: (inside ++ [')']), c ∉ letterForms := by
      intro c member
      simp only [List.mem_append, List.mem_cons, List.not_mem_nil, or_false] at member
      rcases member with inBlanks | rfl | inInside | rfl
      · exact not_letter_of_isBlank (blank c inBlanks)
      · decide
      · exact not_letter_of_isBlank (inner c inInside)
      · decide
    have taken := (spelled.inert (by decide) (by decide)).append marks
    have put : Inert "SYSDATETIME()".toList :=
      inert_of_resists (by decide) (by decide) (by decide) (by decide)
    have takenLast : lastOf before (word ++ (blanks ++ '(' :: (inside ++ [')']))) = some ')' := by
      simp [lastOf_append]
    have putLast : lastOf before "SYSDATETIME()".toList = some ')' := rfl
    refine ⟨[], word ++ (blanks ++ '(' :: (inside ++ [')'])), "SYSDATETIME()".toList, rest, rfl,
      by simp, by simp, opened, taken, put, .inr ?_⟩
    rw [lastOf_nil, takenLast, putLast]
  | optionOff listed =>
    obtain ⟨opened, set, gap, name, space, off, rest, rfl, option, spelled, closed, rfl⟩ :=
      (optionOffHit?_eq_some_iff listed).mp found
    have taken := spelled.inert (by decide) (by decide)
    have put : Inert ['O', 'N'] :=
      inert_of_resists (by decide) (by decide) (by decide) (by decide)
    refine ⟨set ++ (gap ++ (name ++ space)), off, _, rest, rfl, spelled.ne_nil (by decide), by simp,
      ?_, taken, put, .inr ?_⟩
    · rw [lastOf_append, lastOf_append, lastOf_append]
      exact endsWord_lastOf_blanks option.spaceSome option.spaceBlank _
    · rw [endsWord_spelled spelled (by decide) (by decide)]
      rfl

/-- A blank at the beginning of a text stays there, because every match of a lasting pattern
begins with a word. -/
theorem Lasting.replaceHits_head {opening : List Char} {pattern : Pattern}
    (lasting : Lasting opening pattern) {before : Option Char} {text : Text}
    (blank : isBlankBeside text.head? = true) :
    isBlankBeside (replaceHits none (pattern.scan before text)).head? = true := by
  cases text with
  | nil => cases blank
  | cons c rest =>
    have absent : pattern.hit? before (c :: rest) = none := by
      cases found : pattern.hit? before (c :: rest) with
      | none => rfl
      | some hit =>
        obtain ⟨_, word, behind, same, spelled, _⟩ := startsWord_iff.mp (lasting.startsWord found)
        rw [same, isBlankBeside_spelled spelled (soughtWords_known _ lasting.sought)
          (soughtWords_ne_nil _ lasting.sought)] at blank
        cases blank
    rw [Pattern.scan_plain absent]
    exact blank

/-- A rule for words keeps the first definition: the induction goes from match to match, and cuts
the text in front of the word that changes. -/
theorem Lasting.firstPlainKind?_replaceHits {opening : List Char} {pattern : Pattern}
    (lasting : Lasting opening pattern) (before : Option Char) (text : Text) :
    firstPlainKind? before (replaceHits none (pattern.scan before text)) =
      firstPlainKind? before text := by
  induction length : text.length using Nat.strong_induction_on generalizing before text with
  | h length inductionHypothesis =>
    subst length
    rcases clear_or_hit pattern before text with clear | ⟨front, behind, hit, rfl, clear, found⟩
    · rw [clear.replaceHits_eq]
    · -- The cut is in front of the word that changes: a match may begin with words that stay.
      obtain ⟨lead, taken, put, rest, rfl, some, rfl, neutral⟩ := lasting.neutral found
      have whole : lead ++ (taken ++ rest) = (lead ++ taken) ++ rest := by simp
      have shorter : rest.length < (front ++ (lead ++ (taken ++ rest))).length := by
        have positive := List.length_pos_of_ne_nil some
        simp only [List.length_append]
        omega
      rw [clear.replaceHits_eq, replaceHits_hit found whole (by simp [some]), List.append_assoc lead,
        ← List.append_assoc front, ← List.append_assoc front]
      apply Neutral.firstPlainKind?_eq
      · rwa [lastOf_append]
      · rw [lastOf_append before, ← lastOf_append _ lead]
        exact inductionHypothesis _ shorter _ _ rfl
      · exact lasting.replaceHits_head

/-! ### The rule for definitions -/

/-- A keyword in capital letters is one of its own writings. -/
theorem Spells.refl (capitals : List Char) : Spells capitals capitals := by
  induction capitals with
  | nil => exact .nil
  | cons capital capitals inductionHypothesis => exact .cons (by simp [writes]) inductionHypothesis

/-- Replacing the first match only. -/
theorem BuiltinPattern.replaceHits_once {joins : Bool} {pattern : Pattern}
    (builtin : BuiltinPattern joins pattern) {before : Option Char} {text rest : Text} {hit : Hit}
    (found : pattern.hit? before text = some hit) (whole : text = hit.taken ++ rest)
    (some : hit.taken ≠ []) :
    replaceHits (Option.some 1) (pattern.scan before text) = hit.put ++ rest := by
  subst whole
  rw [Pattern.scan_hit found some, replaceHits,
    builtin.replaceHits_eq (Option.some 0) (by simp [coveredHits])]

/-- The rule for definitions changes a verb, and the kind stays behind it; both verbs lead to the
same kinds. -/
theorem firstPlainKind?_definition (before : Option Char) (text : Text) :
    firstPlainKind? before (replaceHits (some 1) (Pattern.definition.scan before text)) =
      firstPlainKind? before text := by
  have builtin : BuiltinPattern false .definition := .definition
  rcases clear_or_hit .definition before text with clear | ⟨front, behind, hit, rfl, clear, found⟩
  · rw [clear.replaceHits_eq]
  · obtain ⟨opened, word, blanks, capitals, kind, rest, rfl, spelled, blanksSome, blank, listed, named,
      readKind, rfl⟩ := definitionHit?_eq_some found
    have solid := isBlankBeside_spelled named (definitionWords_known _ listed)
      (definitionWords_ne_nil _ listed) rest
    have written : kindWord? (kind ++ rest) = some kind := by
      rw [kindWord?_eq, readKind, Option.map_some, takenBefore_append]
    have whole : word ++ (blanks ++ (kind ++ rest)) = (word ++ (blanks ++ kind)) ++ rest := by simp
    have put : "ALTER ".toList ++ kind ++ rest = ['A', 'L', 'T', 'E', 'R'] ++ ([' '] ++ (kind ++ rest)) :=
      by simp
    have read {gap : Text} (gapSome : gap ≠ []) (gapBlank : ∀ c ∈ gap, isBlank c = true) :
        (dropBlanks? (gap ++ (kind ++ rest))).bind kindWord? = some kind := by
      rw [dropBlanks?_eq_some_iff.mpr ⟨gap, rfl, gapSome, gapBlank, solid⟩, Option.bind_some, written]
    rw [clear.replaceHits_eq, builtin.replaceHits_once found whole (by simp [blanksSome]), put,
      firstPlainKind?_at_verb (by decide) (Spells.refl _) opened (read (by decide) (by decide)),
      firstPlainKind?_at_verb (by decide) spelled opened (read blanksSome blank)]

/-! ### All rules -/

/-- The kind of a routine is that of its first definition, and depends on nothing else. -/
theorem kindOf_congr {first second : Text}
    (same : firstPlainKind? none first = firstPlainKind? none second) : kindOf first = kindOf second := by
  rw [kindOf, kindOf, firstKind?_eq, firstKind?_eq, same]

/-- The only rule that waits for a change is the one that opens definitions. -/
theorem builtinRules_afterChange : ∀ rule ∈ builtinRules, rule.afterChange = true →
    rule = createToAlter := by
  intro rule listed follows
  simp only [builtinRules, List.mem_cons, List.not_mem_nil, or_false] at listed
  rcases listed with rfl | rfl | rfl | rfl | rfl | rfl | rfl | rfl | last
  on_goal 9 => exact last
  all_goals cases follows

/-- No rule but those for joins changes the kind that a text declares: the rule for definitions
keeps it, and all others are lasting and have no limit. -/
theorem Rule.apply_kindOf {rule : Rule} (listed : rule ∈ builtinRules) (left : rule ≠ leftOuterJoin)
    (right : rule ≠ rightOuterJoin) (text : Text) : kindOf (rule.apply text) = kindOf text := by
  apply kindOf_congr
  cases follows : rule.afterChange with
  | true =>
    rw [builtinRules_afterChange rule listed follows]
    exact firstPlainKind?_definition none text
  | false =>
    obtain ⟨⟨opening, lasting⟩, unlimited⟩ := builtinRules_lasts rule listed left right follows
    rw [Rule.apply, Rule.limit?, unlimited]
    exact lasting.firstPlainKind?_replaceHits none text

/-- The kind recorded for a routine is the one that its text declares. -/
def Routine.Declared (routine : Routine) : Prop :=
  routine.kind = kindOf routine.text

/-- Apart from those for joins, the rules keep the kind of a routine, whichever of them apply
and in whatever order. So a routine whose recorded kind was the declared one may be given
the new text, and its recorded kind is the declared one again. -/
theorem applyRules_kindOf {rules : List Rule}
    (listed : ∀ rule ∈ rules, rule ∈ builtinRules ∧ rule ≠ leftOuterJoin ∧ rule ≠ rightOuterJoin)
    (changed : Bool) (text : Text) :
    ∃ progress, applyRulesChecked rules changed text = .ok progress ∧
      kindOf progress.text = kindOf text ∧
      ∀ {catalog : Catalog} {identity : Identity} {routine : Routine},
        catalog.routine? identity = some routine → routine.text = text → routine.Declared →
        ∃ kept, (catalog.setText identity progress.text).routine? identity = some kept ∧
          kept.text = progress.text ∧ kept.kind = routine.kind ∧ kept.Declared := by
  have applicable : rules.all Rule.isApplicable = true := by
    rw [List.all_eq_true]
    intro rule member
    exact List.all_eq_true.mp builtinRules_applicable rule (listed rule member).1
  have ran : applyRulesChecked rules changed text = .ok (applyRules rules changed text) := by
    rw [applyRulesChecked, meetsOverflow_eq_false applicable]
    rfl
  have step (rule : Rule) (member : rule ∈ rules) (current : Text) (kept : kindOf current = kindOf text) :
      kindOf (rule.apply current) = kindOf text := by
    obtain ⟨builtin, left, right⟩ := listed rule member
    rw [Rule.apply_kindOf builtin left right, kept]
  have same : kindOf (applyRules rules changed text).text = kindOf text :=
    applyRules_induct step changed rfl
  refine ⟨_, ran, same, ?_⟩
  rintro catalog identity routine found rfl declared
  have stored := Catalog.routine?_setText catalog identity identity
    (applyRules rules changed routine.text).text
  rw [found, Option.map_some, if_pos rfl] at stored
  exact ⟨_, stored, rfl, rfl, declared.trans same.symm⟩

/-- Put behind `CREATE OR`, the new verb becomes part of a longer one, which has the same kind. -/
theorem applyRules_kindOf_create_or_create :
    let rules := [createToAlter, getdateFunction]
    let text := "CREATE OR CREATE FUNCTION f() RETURN GETDATE()".toList
    let identity : Identity := ⟨"dbo".toList, "f".toList, by decide, by decide⟩
    let routine : Routine := ⟨identity, "FUNCTION".toList, text⟩
    (∀ rule ∈ rules, rule ∈ builtinRules ∧ rule ≠ leftOuterJoin ∧ rule ≠ rightOuterJoin) ∧
      routine.Declared ∧ ∃ progress, applyRulesChecked rules false text = .ok progress ∧
        progress.text = "CREATE OR ALTER FUNCTION f() RETURN SYSDATETIME()".toList ∧
        kindOf progress.text = "FUNCTION".toList ∧
        ∃ kept, (Catalog.setText [routine] identity progress.text).routine? identity = some kept ∧
          kept.text = progress.text ∧ kept.kind = "FUNCTION".toList ∧ kept.Declared := by
  have run : applyRulesChecked [createToAlter, getdateFunction] false
        "CREATE OR CREATE FUNCTION f() RETURN GETDATE()".toList =
      .ok ⟨"CREATE OR ALTER FUNCTION f() RETURN SYSDATETIME()".toList,
        [("getdate_function".toList, 1), ("create_to_alter".toList, 1)]⟩ := by cbv
  have declared : kindOf "CREATE OR CREATE FUNCTION f() RETURN GETDATE()".toList =
      "FUNCTION".toList := by cbv
  intro rules text identity routine
  have listed : ∀ rule ∈ rules,
      rule ∈ builtinRules ∧ rule ≠ leftOuterJoin ∧ rule ≠ rightOuterJoin :=
    fun rule member => joinless_of_call_or_head (Or.symm (by simpa [rules] using member))
  have stored : Catalog.routine? [routine] identity = some routine := by
    simp [Catalog.routine?, routine]
  obtain ⟨progress, ran, same, keeps⟩ := applyRules_kindOf listed false text
  obtain ⟨kept, found, written, kind, again⟩ := keeps stored rfl declared.symm
  refine ⟨listed, declared.symm, progress, ran, ?_, same.trans declared, kept, found, written, kind,
    again⟩
  rw [run] at ran
  cases ran
  rfl

end SqlRenewal
