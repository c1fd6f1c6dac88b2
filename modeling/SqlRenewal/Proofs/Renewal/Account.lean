import Mathlib
import SqlRenewal.Substitution.Deprecated
import SqlRenewal.Proofs.Renewal.EditScript

/-!
# What becomes of every keyword

A report accounts for the keywords of a text: each replacement stands for the keyword
of its statement, and each skip for those in the part that was left alone. The count
is off by the keywords that stand directly behind an argument list that was replaced.
The replacement ends with a digit, which joins such a keyword, and a keyword that is
joined to a word is none.
-/
namespace SqlRenewal

/-! ### Counting -/

/-- Only the class of the character before a text matters. -/
theorem countRaises_congr_before {before other : Option Char} (same : endsWord before = endsWord other)
    (text : Text) : countRaises before text = countRaises other text := by
  apply Nat.le_antisymm
  · exact countRaises_mono (fun opened => same ▸ opened) text
  · exact countRaises_mono (fun opened => same ▸ opened) text

/-- What lacks the keyword alone lacks it behind any character. -/
theorem Lacks.behind {text : Text} (lacking : Lacks raiseWord none text []) (before : Option Char) :
    Lacks raiseWord before text [] := by
  have fewer : countRaises before text ≤ countRaises none text := countRaises_mono (fun _ => rfl) text
  rw [countRaises_eq_zero_iff.mpr lacking] at fewer
  exact countRaises_eq_zero_iff.mp (Nat.le_zero.mp fewer)

/-- A keyword with nothing but its own letters in front counts once: it counts where it begins,
and none begins inside of it. -/
theorem Spells.countRaises_append {before : Option Char} {word tail : Text}
    (spelled : Spells raiseWord word) (opened : endsWord before = true)
    (closed : endsWord tail.head? = true) (lacking : ∀ other, Lacks raiseWord other tail []) :
    countRaises before (word ++ tail) = 1 := by
  have starts : startsRaise before (word ++ tail) = true :=
    startsWord_iff.mpr ⟨opened, word, tail, rfl, spelled, closed⟩
  have letters := spelled.letters raiseWord_known
  cases word with
  | nil => exact absurd rfl (spelled.ne_nil (by decide))
  | cons c word =>
    have joined : endsWord (some c) = false := by
      simp [endsWord, letterForms_isWordChar c (letters c (by simp))]
    have inside : Lacks raiseWord (some c) word tail := by
      apply lacks_of_inside joined
      intro d member
      exact letterForms_isWordChar d (letters d (by simp [member]))
    rw [List.cons_append] at starts ⊢
    rw [countRaises, if_pos starts, countRaises_append_of_lacks inside,
      countRaises_eq_zero_iff.mpr (lacking _)]

/-- No form of a letter is a digit. The forms are finitely many. -/
theorem letterForms_isDigit : ∀ c ∈ letterForms, isDigit c = false := by decide

/-- A number has no part that could begin the keyword, because a letter is neither a blank nor a
sign nor a digit. -/
theorem writes_of_isNumeric {c : Char} (numeric : isNumeric c = true) : writes 'R' c = false := by
  cases written : writes 'R' c with
  | false => rfl
  | true =>
    have letter : c ∈ letterForms := mem_letterForms (by decide) written
    simp only [isNumeric, Bool.or_eq_true, beq_iff_eq] at numeric
    rcases numeric with ((blank | rfl) | rfl) | digit
    · rw [writes_of_isBlank (by decide) blank] at written
      cases written
    · exact absurd written (by decide)
    · exact absurd written (by decide)
    · rw [letterForms_isDigit c letter] at digit
      cases digit

/-- Behind its keyword, a statement that is replaced has no other one: a list or a message with a
keyword in it is never replaced, and the other parts are no words. -/
theorem Statement.lacks_behind {layout : Layout} {arguments word behind : Text} {reading : Reading}
    (stated : Statement layout arguments (word ++ behind) reading) (spelled : Spells raiseWord word)
    (before : Option Char) : Lacks raiseWord before behind [] := by
  generalize whole : word ++ behind = statement at stated
  have behindWord {other tail : Text} (same : word ++ behind = other ++ tail)
      (alsoSpelled : Spells raiseWord other) : behind = tail :=
    (List.append_inj same (spelled.length_eq.trans alsoSpelled.length_eq.symm)).2
  cases stated with
  | @parenthesized other blanks arguments _ alsoSpelled blank balanced read =>
    have mark (c : Char) (notOpening : writes 'R' c = false) (b : Option Char) (rest : Text) :
        Lacks raiseWord b [c] rest :=
      lacks_of_no_opening (by simpa using notOpening) b rest
    have list : Lacks raiseWord (some '(') arguments [')'] :=
      (lacks_iff_alone raiseWord_known (.inr rfl)).mpr
        ((hasRaise_eq_false_iff.mp read.1).behind _)
    have same : behind = blanks ++ (['('] ++ (arguments ++ [')'])) :=
      behindWord (by simpa using whole) alsoSpelled
    rw [same, lacks_append, lacks_append, lacks_append, lastOf_cons, lastOf_nil]
    refine ⟨lacks_of_blanks (by decide) blank _ _, mark '(' (by decide) _ _, ?_, mark ')' (by decide) _ _⟩
    simpa using list
  | @bare other margin code gap message _ alsoSpelled some inline blank lacking read =>
    obtain ⟨_, value, literal⟩ := readBare_eq_ok read
    have same : behind = (margin ++ code ++ gap) ++ message :=
      behindWord (by simpa using whole) alsoSpelled
    have noOpening : ∀ c ∈ margin ++ code ++ gap, writes 'R' c = false := by
      intro c member
      simp only [List.mem_append] at member
      rcases member with (inMargin | inCode) | inGap
      · exact writes_of_isBlank (by decide) (isBlank_of_isInlineBlank (inline c inMargin))
      · exact writes_of_isNumeric (readLiteral_isNumeric literal c inCode)
      · exact writes_of_isBlank (by decide) (blank c inGap)
    rw [same, lacks_append]
    exact ⟨lacks_of_no_opening noOpening _ _, (hasRaise_eq_false_iff.mp lacking).behind _⟩

/-- A statement that is replaced holds one keyword, its own. -/
theorem Statement.countRaises_eq {layout : Layout} {arguments statement : Text} {reading : Reading}
    (stated : Statement layout arguments statement reading) {before : Option Char}
    (opened : endsWord before = true) : countRaises before statement = 1 := by
  obtain ⟨word, c, behind, rfl, spelled, closed⟩ := stated.keyword
  exact spelled.countRaises_append opened closed (stated.lacks_behind spelled)

/-- Behind a word character, a keyword at the beginning of a text is none, and all others count as
before. -/
theorem countRaises_joined {before joined : Option Char} {text : Text}
    (apart : endsWord before = true ∨ endsWord text.head? = true) (inside : endsWord joined = false) :
    countRaises before text =
      (if (dropWord? raiseWord text).isSome then 1 else 0) + countRaises joined text := by
  have opens {c : Char} {rest : Text} (starts : (dropWord? raiseWord (c :: rest)).isSome = true) :
      isWordChar c = true := by
    obtain ⟨behind, dropped⟩ := Option.isSome_iff_exists.mp starts
    obtain ⟨⟨word, same, spelled⟩, _⟩ := dropWord?_eq_some_iff.mp dropped
    cases word with
    | nil => exact absurd rfl (spelled.ne_nil (by decide))
    | cons d word =>
      obtain ⟨rfl, _⟩ := List.cons.inj same
      exact letterForms_isWordChar c (spelled.letters raiseWord_known c (by simp))
  cases text with
  | nil => rfl
  | cons c rest =>
    simp only [countRaises, startsRaise, inside, Bool.false_and, Bool.false_eq_true, if_false,
      Nat.zero_add]
    by_cases starts : (dropWord? raiseWord (c :: rest)).isSome = true
    · have opened : endsWord before = true := by
        refine apart.resolve_right ?_
        simp [endsWord, opens starts]
      simp [opened, starts]
    · simp [starts]

/-! ### The account of a script -/

/-- The number of keywords that an edit accounts for: the one of a statement, or those
in a part of the text that stays. -/
def Edit.accounts (text : Text) : Edit → Nat
  | .replaced _ => 1
  | .skipped skip => countRaises none ((text.drop skip.position).take (skip.resume - skip.position))

/-- A keyword stands directly behind the replacement. -/
def Replacement.joins (text : Text) (replacement : Replacement) : Bool :=
  (dropWord? raiseWord (text.drop (replacement.position + replacement.after.length))).isSome

/-- A keyword stands directly behind the replacement of an edit. -/
def Edit.joins (text : Text) : Edit → Bool
  | .replaced replacement => replacement.joins text
  | .skipped _ => false

variable {before : Option Char} {position : Nat} {text text' : Text} {edits : List Edit}

/-- Behind a word character, the pass leaves a keyword at the beginning where it is: the first
edit begins where a word can, so the keyword would have to end in front of it. -/
theorem EditScript.dropWord?_isSome (script : EditScript before position text text' edits)
    (inside : endsWord before = false) :
    (dropWord? raiseWord text').isSome = (dropWord? raiseWord text).isSome := by
  have firstPart {front : Text} (opened : endsWord (lastOf before front) = true) (rest : Text) :
      (dropWord? raiseWord (front ++ rest)).isSome = (dropWord? raiseWord front).isSome := by
    have some : front ≠ [] := by
      rintro rfl
      rw [lastOf_nil, inside] at opened
      cases opened
    rw [lastOf_of_ne_nil some _ none] at opened
    exact dropWord?_append_isSome_of_last raiseWord_known some opened rest
  cases script with
  | done => rfl
  | skipped lacking opened =>
    rw [List.append_assoc, List.append_assoc, firstPart opened, firstPart opened]
  | replaced lacking opened =>
    rw [List.append_assoc, List.append_assoc, firstPart opened, firstPart opened]

/-- The edits account for all keywords but those that a replacement joins. The induction goes
along the script: what is between edits has none, a skip counts its own, and a replacement takes
one away and may join the next. -/
theorem EditScript.countRaises_eq (script : EditScript before position text text' edits) (done : Text)
    (length : done.length = position) :
    countRaises before text =
      (edits.map (Edit.accounts (done ++ text'))).sum + edits.countP (Edit.joins (done ++ text')) := by
  induction script generalizing done with
  | done lacking => simp [countRaises_eq_zero_iff.mpr lacking]
  | @skipped before _ front occurrence rest rest' skip _ lacking opened seam starts stops later
      inductionHypothesis =>
    have part : ((done ++ (front ++ occurrence ++ rest')).drop skip.position).take
        (skip.resume - skip.position) = occurrence := by
      have size : skip.resume - skip.position = occurrence.length := by
        rw [stops, starts, List.length_append]
        omega
      have placed : done ++ (front ++ occurrence ++ rest') =
          (done ++ front) ++ (occurrence ++ rest') := by simp
      rw [size, placed, starts, ← length, ← List.length_append, List.drop_left, List.take_left]
    have apart : Seam (lastOf before front) occurrence rest := by
      rwa [Seam, ← lastOf_append]
    have further := inductionHypothesis (done ++ (front ++ occurrence)) (by simp [length])
    calc countRaises before (front ++ occurrence ++ rest)
        = countRaises (lastOf before front) occurrence +
            countRaises (lastOf before (front ++ occurrence)) rest := by
          rw [List.append_assoc, countRaises_append_of_lacks lacking, countRaises_append apart,
            lastOf_append]
      _ = countRaises none occurrence + countRaises (lastOf before (front ++ occurrence)) rest := by
          rw [countRaises_congr_before (show endsWord (lastOf before front) = endsWord none from opened)]
      _ = _ := by
          rw [further, List.map_cons, List.sum_cons, Edit.accounts, part]
          simp [Edit.joins, Nat.add_assoc]
  | @replaced before _ _ _ front rest rest' reading replacement _ lacking opened stated seam written
      starts later inductionHypothesis =>
    have inside : endsWord (lastOf before replacement.after) = false := by
      rw [written]
      exact reading.endsWord_render before
    have apart : Seam (lastOf before front) replacement.before rest := by
      rwa [Seam, ← lastOf_append]
    have behind : (done ++ (front ++ replacement.after ++ rest')).drop
        (replacement.position + replacement.after.length) = rest' := by
      have placed : done ++ (front ++ replacement.after ++ rest') =
          (done ++ front ++ replacement.after) ++ rest' := by simp
      rw [placed, starts, ← length, ← List.length_append, ← List.length_append, List.drop_left]
    have further := inductionHypothesis (done ++ (front ++ replacement.after)) (by simp [length])
    calc countRaises before (front ++ replacement.before ++ rest)
        = 1 + countRaises (lastOf (lastOf before front) replacement.before) rest := by
          rw [List.append_assoc, countRaises_append_of_lacks lacking, countRaises_append apart,
            stated.countRaises_eq opened]
      _ = 1 + ((if replacement.joins (done ++ (front ++ replacement.after ++ rest')) then 1 else 0) +
            countRaises (lastOf before replacement.after) rest) := by
          rw [countRaises_joined apart inside, Replacement.joins, behind, later.dropWord?_isSome inside]
      _ = _ := by
          rw [further, List.map_cons, List.sum_cons, Edit.accounts, List.countP_cons, Edit.joins]
          simp only [List.append_assoc]
          omega

/-! ### The account of a report -/

/-- The keywords of a text that a report accounts for: one for each replacement, and
those in the parts of the revised text that were skipped. -/
def Report.accounted (report : Report) (revised : Text) : Nat :=
  report.replacements.length + (report.skips.map fun skip =>
    countRaises none ((revised.drop skip.position).take (skip.resume - skip.position))).sum

/-- The accounts of all edits add up to that of the report, and as many edits as replacements join
a keyword: only replacements count for either, and they are in the same order. -/
theorem Report.sum_accounts (report : Report) (revised : Text) :
    (report.edits.map (Edit.accounts revised)).sum = report.accounted revised ∧
      report.edits.countP (Edit.joins revised) =
        report.replacements.countP (Replacement.joins revised) := by
  unfold Report.accounted Report.replacements Report.skips
  generalize report.edits = edits
  induction edits with
  | nil => simp
  | cons edit edits inductionHypothesis =>
    obtain ⟨sum, joined⟩ := inductionHypothesis
    cases edit with
    | replaced replacement =>
      constructor
      · simp only [List.map_cons, List.sum_cons, sum, Edit.accounts, List.filterMap_cons,
          List.length_cons]
        omega
      · rw [List.countP_cons, joined]
        exact List.countP_cons.symm
    | skipped skip =>
      constructor
      · simp only [List.map_cons, List.sum_cons, sum, Edit.accounts, List.filterMap_cons]
        omega
      · simpa [Edit.joins] using joined

/-- A report accounts for all keywords of the text but those directly behind a
replacement, which joins them. So none is lost exactly if no replacement is followed
by a keyword at once. -/
theorem renew_accounts (rules : List Rule) (text : Text) :
    let report := renew rules text
    let revised := (revise text).text
    countRaises none text =
        report.accounted revised + report.replacements.countP (Replacement.joins revised) ∧
      (countRaises none text = report.accounted revised ↔
        ∀ replacement ∈ report.replacements, replacement.joins revised = false) := by
  intro report revised
  have script : EditScript none 0 text revised report.edits := reviseFrom_script none 0 text
  have total := script.countRaises_eq [] rfl
  obtain ⟨sum, joined⟩ := report.sum_accounts revised
  rw [List.nil_append, sum, joined] at total
  refine ⟨total, ?_⟩
  rw [total, Nat.add_eq_left, List.countP_eq_zero]
  simp

/-- The second statement stands directly behind the first one. It is neither replaced
nor skipped, and nothing is said about it. -/
theorem renew_loses_adjacent_statement :
    countRaises none "RAISERROR(1)RAISERROR(2)".toList = 2 ∧
      (renew builtinRules "RAISERROR(1)RAISERROR(2)".toList).accounted
        (revise "RAISERROR(1)RAISERROR(2)".toList).text = 1 ∧
      (renew builtinRules "RAISERROR(1)RAISERROR(2)".toList).flags = [] ∧
      (revise "RAISERROR(1)RAISERROR(2)".toList).text =
        ";THROW 50000, 'An error occurred', 1RAISERROR(2)".toList := by
  have pass : revise "RAISERROR(1)RAISERROR(2)".toList =
      ⟨";THROW 50000, 'An error occurred', 1RAISERROR(2)".toList,
        [.replaced ⟨0, .parenthesized, "RAISERROR(1)".toList,
          ";THROW 50000, 'An error occurred', 1".toList, 50000, none, []⟩]⟩ := by cbv
  have edits : (renew builtinRules "RAISERROR(1)RAISERROR(2)".toList).edits =
      (revise "RAISERROR(1)RAISERROR(2)".toList).edits := rfl
  rw [pass] at edits
  simp only [Report.accounted, Report.replacements, Report.skips, Report.flags, edits, pass]
  exact ⟨by cbv, rfl, rfl, trivial⟩

end SqlRenewal
