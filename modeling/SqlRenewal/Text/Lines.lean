import SqlRenewal.Text.Blank

/-!
# Lines

Reading a file turns every line break of another system into a line feed. Lines
of a settings file are separated more widely: by carriage return and line feed,
alone or together, by vertical tab and form feed, by U+001C to U+001E, U+0085,
and the line and paragraph separators. A break at the end of the file opens no
further line.
-/
namespace SqlRenewal

/-- Carriage returns, with or without a line feed after them, become line feeds. -/
def unifyLineBreaks : Text → Text
  | [] => []
  | '\r' :: '\n' :: rest => '\n' :: unifyLineBreaks rest
  | c :: rest => (if c = '\r' then '\n' else c) :: unifyLineBreaks rest

/-- A character that ends a line. -/
def endsLine (c : Char) : Bool :=
  (decide (0x0A ≤ c.toNat) && decide (c.toNat ≤ 0x0D)) ||
    (decide (0x1C ≤ c.toNat) && decide (c.toNat ≤ 0x1E)) ||
    c.toNat == 0x85 || c.toNat == 0x2028 || c.toNat == 0x2029

/-- The first line of a text that is not empty, and the text after its break. -/
def nextLine : Text → Text × Text
  | [] => ([], [])
  | '\r' :: '\n' :: rest => ([], rest)
  | c :: rest =>
    if endsLine c then ([], rest)
    else
      let (line, remainder) := nextLine rest
      (c :: line, remainder)

/-- Reading one line leaves no more text than there was. -/
theorem nextLine_le (text : Text) : (nextLine text).2.length ≤ text.length := by
  fun_induction nextLine text with
  | case1 => simp
  | case2 rest => simp; omega
  | case3 c rest _ ends => simp
  | case4 c rest _ ends line remainder read inductionHypothesis =>
    rw [read] at inductionHypothesis
    simp only [List.length_cons] at inductionHypothesis ⊢
    omega

/-- Reading one line of a text that is not empty uses some of it. -/
theorem nextLine_lt (c : Char) (rest : Text) :
    (nextLine (c :: rest)).2.length < (c :: rest).length := by
  unfold nextLine
  split
  · contradiction
  · rename_i same
    cases same
    simp only [List.length_cons]
    omega
  · rename_i same
    cases same
    split
    · simp
    · have bound := nextLine_le rest
      simp only [List.length_cons]
      omega

/-- The lines of a text, without their breaks. -/
def splitLines : Text → List Text
  | [] => []
  | c :: rest => (nextLine (c :: rest)).1 :: splitLines (nextLine (c :: rest)).2
termination_by text => text.length
decreasing_by exact nextLine_lt c rest

end SqlRenewal
