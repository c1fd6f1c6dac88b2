import SqlRenewal.Text.Blank

/-!
# String literals

A string literal stands between apostrophes, and two apostrophes inside it are
one of its characters. When no closing apostrophe follows, the literal ends at
the last doubled apostrophe instead, whose second half may open another.

The reading serves one question: whether a comma or a parenthesis inside a
literal may have misled the splitting of an argument list, which does not know
about literals.
-/
namespace SqlRenewal

/-- The rest of a literal after its opening apostrophe: what it holds, and the
text after its closing apostrophe. -/
def closeLiteral? : Text → Option (Text × Text)
  | [] => none
  | '\'' :: '\'' :: rest =>
    match closeLiteral? rest with
    | some (content, after) => some ('\'' :: '\'' :: content, after)
    | none => some ([], '\'' :: rest)
  | c :: rest =>
    if c = '\'' then some ([], rest)
    else (closeLiteral? rest).map fun (content, after) => (c :: content, after)

/-- The text after a literal is shorter than the text after its opening. -/
theorem closeLiteral?_lt {text content after : Text}
    (closed : closeLiteral? text = some (content, after)) : after.length < text.length := by
  fun_induction closeLiteral? text generalizing content after with
  | case1 => simp at closed
  | case2 rest inner later found inductionHypothesis =>
    cases closed
    have shorter := inductionHypothesis found
    simp only [List.length_cons]
    omega
  | case3 rest unclosed _ =>
    cases closed
    simp
  | case4 rest _ =>
    cases closed
    simp
  | case5 c rest _ _ inductionHypothesis =>
    obtain ⟨⟨inner, later⟩, found, same⟩ := Option.map_eq_some_iff.mp closed
    cases same
    have shorter := inductionHypothesis found
    simp only [List.length_cons]
    omega

/-- What the literals of a text hold, from left to right. -/
def literalContents : Text → List Text
  | [] => []
  | c :: rest =>
    if c = '\'' then
      match found : closeLiteral? rest with
      | some (content, after) =>
        have := closeLiteral?_lt found
        content :: literalContents after
      | none => literalContents rest
    else literalContents rest
termination_by text => text.length
decreasing_by all_goals simp only [List.length_cons]; omega

/-- A character that the splitting of an argument list acts on. -/
def isDelimiter (c : Char) : Bool :=
  c == ',' || c == '(' || c == ')'

/-- A literal of the text holds a delimiter. -/
def hasDelimitedLiteral (text : Text) : Bool :=
  (literalContents text).any fun content => content.any isDelimiter

end SqlRenewal
