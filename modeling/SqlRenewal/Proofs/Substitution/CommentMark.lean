import SqlRenewal.Proofs.Substitution.Settled

/-!
# Rules and comment marks

The operators of outer joins are written with characters that comment marks need too.
No rule takes a mark for an operator, tears one apart or brings two halves together:
the marks of a text are the same before and after the rules, and in the same order.

Words have no characters of marks. Of an operator only the asterisk could belong to a
mark, and a slash beside it keeps the operator from being one.
-/
namespace SqlRenewal

/-- The two marks around a comment. -/
inductive CommentMark where
  | opening
  | closing
deriving DecidableEq, Repr

/-- The mark that a character makes with the one before it. -/
def commentMark? : Option Char → Char → Option CommentMark
  | some '/', '*' => some .opening
  | some '*', '/' => some .closing
  | _, _ => none

/-- The marks of a text that follows the given character, from left to right. Two of them
may share a character. -/
def commentMarks : Option Char → Text → List CommentMark
  | _, [] => []
  | before, c :: rest => (commentMark? before c).toList ++ commentMarks (some c) rest

/-- Two marks that share an asterisk are both found. -/
example : commentMarks none "/*/ x */".toList = [.opening, .closing, .closing] := by decide

/-- No comment mark ends where the character before is none of a mark. Both marks have two
characters, and the first of them is looked for there. -/
theorem commentMark?_of_before {before : Option Char} (free : isNoneOf markForms before = true)
    (c : Char) : commentMark? before c = none := by
  unfold commentMark?
  split
  · cases free
  · cases free
  · rfl

/-- A character that no mark has ends none, whatever stands before it. -/
theorem commentMark?_of_not_mem {c : Char} (unmarked : c ∉ markForms) (before : Option Char) :
    commentMark? before c = none := by
  unfold commentMark?
  split
  · exact absurd (by decide) unmarked
  · exact absurd (by decide) unmarked
  · rfl

/-- The marks of two texts are those of the first, and those of the second with what stands before
it. -/
theorem commentMarks_append (before : Option Char) (first second : Text) :
    commentMarks before (first ++ second) =
      commentMarks before first ++ commentMarks (lastOf before first) second := by
  induction first generalizing before with
  | nil => simp [commentMarks]
  | cons c first inductionHypothesis =>
    rw [List.cons_append, commentMarks, commentMarks, inductionHypothesis, lastOf_cons,
      List.append_assoc]

/-- A text without characters of marks has none, whatever stands before it. The induction is for
any character in front. -/
theorem commentMarks_of_unmarked {text : Text} (unmarked : ∀ c ∈ text, c ∉ markForms)
    (before : Option Char) : commentMarks before text = [] := by
  induction text generalizing before with
  | nil => rfl
  | cons c text inductionHypothesis =>
    rw [commentMarks, commentMark?_of_not_mem (unmarked c (by simp)),
      inductionHypothesis fun d member => unmarked d (by simp [member])]
    rfl

/-! ### Words -/

/-- A rule that swaps words keeps the marks. What it takes and puts has no mark in it and no
character at its end with which one could begin; the induction goes along the alignment. -/
theorem Renewed.commentMarks_eq {before before' : Option Char} {old new : Text}
    (renewed : Renewed false before before' old new)
    (same : ∀ c, commentMark? before' c = commentMark? before c) :
    commentMarks before' new = commentMarks before old := by
  induction renewed with
  | nil => rfl
  | @keep before before' c old new follows later inductionHypothesis =>
    rw [commentMarks, commentMarks, same, inductionHypothesis fun _ => rfl]
  | @swap before before' taken put old new swap later inductionHypothesis =>
    obtain ⟨takenFree, putFree⟩ := swap.word.unmarked
    obtain ⟨takenLast, putLast⟩ := swap.word.unmarked_last before before'
    rw [commentMarks_append, commentMarks_append, commentMarks_of_unmarked takenFree,
      commentMarks_of_unmarked putFree]
    congr 1
    apply inductionHypothesis
    intro c
    rw [commentMark?_of_before takenLast, commentMark?_of_before putLast]

/-! ### Operators -/

/-- An operator does not end a mark: the characters with which a mark could begin are barred in
front of it. -/
theorem JoinSide.commentMarks_operator {side : JoinSide} {before : Option Char}
    (free : isNoneOf side.barredBefore before = true) : commentMarks before side.operator = [] := by
  cases side with
  | left =>
    have apart : commentMark? before '*' = none := by
      unfold commentMark?
      split
      · cases free
      · rename_i impossible
        cases impossible
      · rfl
    simp only [operator, commentMarks, apart]
    rfl
  | right =>
    have apart : commentMark? before '=' = none := by simp [commentMark?]
    simp only [operator, commentMarks, apart]
    rfl

/-- An operator does not begin a mark: an equals sign is no part of one, and behind an asterisk
the character that would make it one is barred. -/
theorem JoinSide.commentMark?_behind {side : JoinSide} {rest : Text}
    (free : isNoneOf side.barredBehind rest.head? = true) (before : Option Char) :
    ∀ c ∈ rest.head?, commentMark? (lastOf before side.operator) c = none := by
  intro c first
  rw [Option.mem_def.mp first] at free
  cases side with
  | left => simp [operator, commentMark?]
  | right =>
    have differs : c ≠ '/' := by
      rintro rfl
      cases free
    simp [operator, commentMark?, differs]

/-- A rule that writes out operators keeps the marks. An operator is barred beside the characters
of marks, and the words for it have none. The induction goes from match to match. -/
theorem outerJoin_commentMarks (side : JoinSide) {before before' : Option Char} {text : Text}
    (same : ∀ c ∈ text.head?, commentMark? before' c = commentMark? before c) :
    commentMarks before' (replaceHits none ((Pattern.outerJoin side).scan before text)) =
      commentMarks before text := by
  induction before, text using (outerJoin_takesSome side).scan_induct generalizing before' with
  | nil before => rw [(outerJoin_takesSome side).scan_nil, replaceHits, commentMarks, commentMarks]
  | plain before c rest absent inductionHypothesis =>
    rw [Pattern.scan_plain absent, replaceHits, commentMarks, commentMarks, same c rfl,
      inductionHypothesis fun _ _ => rfl]
  | hit before hit rest found some inductionHypothesis =>
    rw [Pattern.scan_hit found some, replaceHits]
    obtain ⟨later, whole, free, behind, rfl⟩ := outerJoinHit?_eq_some_iff.mp found
    obtain rfl := List.append_cancel_left whole
    obtain ⟨writtenSome, unmarked⟩ := side.written_unmarked
    -- Neither the operator nor what is written for it makes a mark with what follows.
    have alike : ∀ d ∈ rest.head?, commentMark? (lastOf before' side.written) d =
        commentMark? (lastOf before side.operator) d := by
      intro d first
      rw [JoinSide.commentMark?_behind behind before d first,
        commentMark?_of_before (isNoneOf_lastOf writtenSome unmarked before')]
    rw [commentMarks_append, commentMarks_append,
      commentMarks_of_unmarked unmarked, JoinSide.commentMarks_operator free]
    congr 1
    exact inductionHypothesis alike

/-! ### All rules -/

/-- A rule keeps the comment marks: no hit contains a part of one, and neither does what is put
for it. -/
theorem Rule.apply_commentMarks {rule : Rule} (listed : rule ∈ builtinRules) (text : Text) :
    commentMarks none (rule.apply text) = commentMarks none text := by
  by_cases left : rule = leftOuterJoin
  · subst left
    exact outerJoin_commentMarks .left fun _ _ => rfl
  by_cases right : rule = rightOuterJoin
  · subst right
    exact outerJoin_commentMarks .right fun _ _ => rfl
  · have renewed := Rule.apply_renewed (builtinRules_pattern_of_ne rule listed left right) text
    exact renewed.commentMarks_eq fun _ => rfl

/-- The built-in rules keep the comment marks of every text, in their order. Words hold no
characters of marks, and an operator is passed over beside one; so each rule keeps them, and by
induction over the passes all of them do. -/
theorem applyRules_commentMarks (changed : Bool) (text : Text) :
    commentMarks none (applyRules builtinRules changed text).text = commentMarks none text := by
  have step (rule : Rule) (listed : rule ∈ builtinRules) (current : Text)
      (kept : commentMarks none current = commentMarks none text) :
      commentMarks none (rule.apply current) = commentMarks none text :=
    (Rule.apply_commentMarks listed current).trans kept
  exact applyRules_induct step changed rfl

end SqlRenewal
