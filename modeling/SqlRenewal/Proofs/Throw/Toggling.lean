import SqlRenewal.Proofs.Throw.LiteralReading

/-!
# Reading with a toggle

A reader with a single flag tells literals from the rest of an argument list: every
apostrophe enters a literal or leaves it, and inside of one nothing else is looked at. A
doubled apostrophe makes it leave the literal and enter it again, so that it finds the same
arguments as the reader that takes two apostrophes for one character.

Where all literals of a list end, the list is flagged exactly if a delimiter stands inside
one of them. Without a flag, cutting at commas finds the arguments of the toggling reader.
-/
namespace SqlRenewal

/-! ### The reader -/

/-- A reader in the middle of an argument list: whether it is inside a literal, how many
parentheses are open, the pieces behind it and the piece that it is in. -/
structure TogglingReader where
  inside : Bool
  depth : Nat
  finished : List Text
  current : Text
deriving DecidableEq, Repr

namespace TogglingReader

/-- The reader at the beginning of a list. -/
def start : TogglingReader := ⟨false, 0, [], []⟩

/-- The character belongs to the piece that the reader is in. -/
def keep (reader : TogglingReader) (c : Char) : TogglingReader :=
  { reader with current := reader.current ++ [c] }

/-- The reader goes over one character. -/
def step (reader : TogglingReader) (c : Char) : TogglingReader :=
  if c = '\'' then { reader.keep c with inside := !reader.inside }
  else if reader.inside then reader.keep c
  else if c = '(' then { reader.keep c with depth := reader.depth + 1 }
  else if c = ')' then { reader.keep c with depth := reader.depth - 1 }
  else if c = ',' ∧ reader.depth = 0 then
    { reader with finished := reader.finished ++ [reader.current], current := [] }
  else reader.keep c

/-- The pieces of a list that ends where the reader is. -/
def pieces (reader : TogglingReader) : List Text :=
  reader.finished ++ [reader.current]

end TogglingReader

/-- The arguments that the toggling reader finds, without the blanks around them. -/
def togglingArguments (text : Text) : List Text :=
  (text.foldl TogglingReader.step .start).pieces.map Text.trim

/-! ### Doubled apostrophes -/

namespace TogglingReader

/-- The pieces of a list whose remaining text is read with doubled apostrophes. -/
def continued (reader : TogglingReader) (rest : Text) : List Text :=
  let (first, later) := literalCutArguments reader.inside reader.depth rest
  reader.finished ++ (reader.current ++ first) :: later

/-- From which character on the doubled apostrophes are read makes no difference. A step of the
toggling reader does with its character what the other reader does with it. -/
theorem continued_step (reader : TogglingReader) (c : Char) (rest : Text) :
    (reader.step c).continued rest = reader.continued (c :: rest) := by
  obtain ⟨inside, depth, finished, current⟩ := reader
  by_cases quote : c = '\''
  · subst quote
    simp [step, keep, continued, literalCutArguments_quote]
  · cases inside with
    | true => simp [step, keep, continued, quote, literalCutArguments_literal quote]
    | false =>
      have outside : (c == '\'') = false := by simp [quote]
      simp only [step, keep, continued, quote, literalCutArguments, outside, depthAfter]
      by_cases opens : c = '('
      · simp [opens]
      · by_cases closes : c = ')'
        · simp [closes]
        · by_cases cut : c = ',' ∧ depth = 0 <;> simp [opens, closes, cut]

/-- The pieces after a run of the reader are those that it had, continued by the text. The
induction is along the text, for any state of the reader. -/
theorem pieces_foldl (reader : TogglingReader) (text : Text) :
    (text.foldl step reader).pieces = reader.continued text := by
  induction text generalizing reader with
  | nil => cases inside : reader.inside <;> simp [pieces, continued, literalCutArguments]
  | cons c rest inductionHypothesis =>
    rw [List.foldl_cons, inductionHypothesis, continued_step]

end TogglingReader

/-- Toggling finds the arguments of the reader of doubled apostrophes. -/
theorem togglingArguments_eq (text : Text) :
    togglingArguments text = literalSplitArguments text := by
  rw [togglingArguments, TogglingReader.pieces_foldl]
  rfl

/-! ### Flagged lists -/

/-- What a literal holds is inside of it, and the text after it begins outside. The induction
follows the search for the end of the literal. -/
theorem undelimited_of_closeLiteral? {text content after : Text}
    (closed : closeLiteral? text = some (content, after)) (undelimited : Undelimited true text) :
    (∀ c ∈ content, isDelimiter c = false) ∧ Undelimited false after := by
  fun_induction closeLiteral? text generalizing content after with
  | case1 => cases closed
  | case2 rest inner later found inductionHypothesis =>
    cases closed
    have further : Undelimited true rest := by simpa [Undelimited, isDelimiter] using undelimited
    obtain ⟨plain, outside⟩ := inductionHypothesis found further
    exact ⟨by simpa [isDelimiter] using plain, outside⟩
  | case3 rest _ _ =>
    cases closed
    exact ⟨by simp, by simpa [Undelimited, isDelimiter] using undelimited⟩
  | case4 rest _ =>
    cases closed
    exact ⟨by simp, by simpa [Undelimited, isDelimiter] using undelimited⟩
  | case5 c rest _ quote inductionHypothesis =>
    obtain ⟨⟨inner, later⟩, found, same⟩ := Option.map_eq_some_iff.mp closed
    cases same
    obtain ⟨free, further⟩ := undelimited
    rw [if_neg quote] at further
    obtain ⟨plain, outside⟩ := inductionHypothesis found further
    exact ⟨by simpa [free rfl] using plain, outside⟩

/-- An apostrophe that opens nothing is the last one, so there is no literal in which a delimiter
could stand. The induction follows the search for its end. -/
theorem undelimited_of_unclosed {text : Text} (unclosed : closeLiteral? text = none) :
    Undelimited false text := by
  fun_induction closeLiteral? text with
  | case1 => trivial
  | case2 => cases unclosed
  | case3 => cases unclosed
  | case4 => cases unclosed
  | case5 c rest _ quote inductionHypothesis =>
    have later := inductionHypothesis (Option.map_eq_none_iff.mp unclosed)
    simpa [Undelimited, quote] using later

/-- A list is flagged only for a delimiter inside a literal. The induction follows the search for
literals, each of which has its content inside and goes on outside. -/
theorem hasDelimitedLiteral_of_undelimited {text : Text} (undelimited : Undelimited false text) :
    hasDelimitedLiteral text = false := by
  rw [hasDelimitedLiteral]
  fun_induction literalContents text with
  | case1 => rfl
  | case2 rest content after found shorter inductionHypothesis =>
    have opened : Undelimited true rest := by simpa [Undelimited] using undelimited
    obtain ⟨plain, outside⟩ := undelimited_of_closeLiteral? found opened
    rw [List.any_cons, inductionHypothesis outside, Bool.or_false]
    simpa using plain
  | case3 rest unclosed inductionHypothesis =>
    exact inductionHypothesis (undelimited_of_unclosed unclosed)
  | case4 c rest quote inductionHypothesis =>
    exact inductionHypothesis (by simpa [Undelimited, quote] using undelimited)

/-- Where all literals end, a list is flagged exactly for a delimiter inside one of them. -/
theorem hasDelimitedLiteral_eq_false_iff {text : Text} (ends : EndsOutside false text) :
    hasDelimitedLiteral text = false ↔ Undelimited false text :=
  ⟨undelimited_of_not_hasDelimitedLiteral ends, hasDelimitedLiteral_of_undelimited⟩

/-- A list whose apostrophes pair up and that is not flagged is split into the arguments that the
toggling reader finds. Without the flag no literal holds a delimiter, so what the splitter counts
inside of literals is nothing. -/
theorem splitArguments_eq_togglingArguments {text : Text} (paired : text.count '\'' % 2 = 0)
    (unflagged : hasDelimitedLiteral text = false) : splitArguments text = togglingArguments text := by
  have undelimited := (hasDelimitedLiteral_eq_false_iff paired).mp unflagged
  rw [togglingArguments_eq, literalSplitArguments, literalCutArguments_eq undelimited]
  rfl

/-- Runs of one to four apostrophes, with commas and parentheses beside them. -/
theorem splitArguments_eq_togglingArguments_runs :
    let text := "'it''s' + f('', 'b'), '''', 'c''', 1".toList
    text.count '\'' % 2 = 0 ∧ hasDelimitedLiteral text = false ∧
      togglingArguments text =
        ["'it''s' + f('', 'b')".toList, "''''".toList, "'c'''".toList, ['1']] ∧
      splitArguments text = togglingArguments text := by
  intro text
  have paired : text.count '\'' % 2 = 0 := by decide
  have unflagged : hasDelimitedLiteral text = false :=
    hasDelimitedLiteral_of_undelimited (by simp [text, Undelimited, isDelimiter])
  exact ⟨paired, unflagged, by decide, splitArguments_eq_togglingArguments paired unflagged⟩

end SqlRenewal
