import SqlRenewal.Renewal.Literal
import SqlRenewal.Raise.Parenthesis
import SqlRenewal.Throw.Arguments

/-!
# Reading with string literals

A reader that knows string literals counts no parenthesis and cuts at no comma
between apostrophes; two apostrophes inside a literal leave it open. The plain
reader knows nothing of literals and is kept in check by `hasDelimitedLiteral`.

Where the apostrophes of an argument list pair up and no literal holds a
delimiter, both readers agree. Where they do not pair up, the list ends inside a
literal, and the reader that knows literals cannot close it there.
-/
namespace SqlRenewal

/-! ### The reader -/

/-- The offset of the closing parenthesis that brings the depth to zero, where the
flag says whether reading begins inside a literal. -/
def literalCloseAt? : Bool → Int → Text → Option Nat
  | _, _, [] => none
  | true, depth, '\'' :: '\'' :: rest => (literalCloseAt? true depth rest).map (· + 2)
  | true, depth, c :: rest => (literalCloseAt? (c != '\'') depth rest).map (· + 1)
  | false, depth, c :: rest =>
    if c = '\'' then (literalCloseAt? true depth rest).map (· + 1)
    else if c = '(' then (literalCloseAt? false (depth + 1) rest).map (· + 1)
    else if c = ')' then
      if depth = 1 then some 0 else (literalCloseAt? false (depth - 1) rest).map (· + 1)
    else (literalCloseAt? false depth rest).map (· + 1)

/-- The first piece of an argument list read at the given depth, and the pieces
after it, where commas and parentheses inside literals are plain text. -/
def literalCutArguments : Bool → Nat → Text → Text × List Text
  | _, _, [] => ([], [])
  | true, depth, '\'' :: '\'' :: rest =>
    let (piece, pieces) := literalCutArguments true depth rest
    ('\'' :: '\'' :: piece, pieces)
  | true, depth, c :: rest =>
    let (piece, pieces) := literalCutArguments (c != '\'') depth rest
    (c :: piece, pieces)
  | false, depth, c :: rest =>
    let (piece, pieces) := literalCutArguments (c == '\'') (depthAfter depth c) rest
    if c = ',' ∧ depth = 0 then ([], piece :: pieces) else (c :: piece, pieces)

/-- The arguments of a list, cut outside its literals, without the blanks around
them. -/
def literalSplitArguments (text : Text) : List Text :=
  ((literalCutArguments false 0 text).1 :: (literalCutArguments false 0 text).2).map Text.trim

/-- What a reader that knows literals finds behind an opening parenthesis: the
offset of the closing one, and the arguments before it. -/
def literalReading? (inside : Text) : Option (Nat × List Text) :=
  (literalCloseAt? false 1 inside).map fun offset =>
    (offset, literalSplitArguments (inside.take offset))

/-! ### One character at a time

An apostrophe enters or leaves a literal. Two of them inside a literal leave it
and enter it again, so the flag alone carries the reading. -/

/-- A quote begins or ends a literal, and the search goes on behind it. Two quotes inside a
literal end it and begin the next one at once, which comes to the same. -/
theorem literalCloseAt?_quote (inside : Bool) (depth : Int) (rest : Text) :
    literalCloseAt? inside depth ('\'' :: rest) =
      (literalCloseAt? (!inside) depth rest).map (· + 1) := by
  cases inside with
  | false => simp [literalCloseAt?]
  | true =>
    cases rest with
    | nil => simp [literalCloseAt?]
    | cons c rest =>
      by_cases quote : c = '\''
      · subst quote
        simp [literalCloseAt?, Function.comp_def]
      · simp [literalCloseAt?, quote]

/-- Inside a literal the search passes over everything but quotes. -/
theorem literalCloseAt?_literal {c : Char} (other : c ≠ '\'') (depth : Int) (rest : Text) :
    literalCloseAt? true depth (c :: rest) = (literalCloseAt? true depth rest).map (· + 1) := by
  have stays : (c != '\'') = true := by simp [other]
  simp [literalCloseAt?, other, stays]

/-- A quote stays in its argument, and begins or ends a literal. A doubled one may be read as an
end and a beginning, since nothing stands between the two. -/
theorem literalCutArguments_quote (inside : Bool) (depth : Nat) (rest : Text) :
    literalCutArguments inside depth ('\'' :: rest) =
      ('\'' :: (literalCutArguments (!inside) depth rest).1,
        (literalCutArguments (!inside) depth rest).2) := by
  cases inside with
  | false => simp [literalCutArguments, depthAfter]
  | true =>
    cases rest with
    | nil => simp [literalCutArguments]
    | cons c rest =>
      by_cases quote : c = '\''
      · subst quote
        simp [literalCutArguments, depthAfter]
      · simp [literalCutArguments, quote]

/-- Inside a literal every character but a quote stays in its argument. -/
theorem literalCutArguments_literal {c : Char} (other : c ≠ '\'') (depth : Nat) (rest : Text) :
    literalCutArguments true depth (c :: rest) =
      (c :: (literalCutArguments true depth rest).1, (literalCutArguments true depth rest).2) := by
  have stays : (c != '\'') = true := by simp [other]
  simp [literalCutArguments, other, stays]

/-! ### Literals without delimiters -/

/-- No character inside a literal is a delimiter, where the flag says whether the
text begins inside one. -/
def Undelimited : Bool → Text → Prop
  | _, [] => True
  | inside, c :: rest =>
    (inside = true → isDelimiter c = false) ∧ Undelimited (if c = '\'' then !inside else inside) rest

/-- The apostrophes of the text end every literal, also the one that it begins in. -/
def EndsOutside (inside : Bool) (text : Text) : Prop :=
  text.count '\'' % 2 = if inside then 1 else 0

/-- An empty text ends where it began. -/
@[simp] theorem endsOutside_nil {inside : Bool} : EndsOutside inside [] ↔ inside = false := by
  cases inside <;> simp [EndsOutside]

/-- A quote changes sides, and any other character does not. Which side the text ends on is the
parity of its quotes. -/
theorem endsOutside_cons {inside : Bool} {c : Char} {rest : Text} :
    EndsOutside inside (c :: rest) ↔ EndsOutside (if c = '\'' then !inside else inside) rest := by
  by_cases quote : c = '\''
  · subst quote
    rw [EndsOutside, EndsOutside, List.count_cons_self, if_pos rfl]
    cases inside <;> simp <;> omega
  · rw [EndsOutside, EndsOutside, List.count_cons_of_ne quote, if_neg quote]

/-- What is no delimiter is neither a comma nor a parenthesis. -/
theorem ne_of_not_isDelimiter {c : Char} (plain : isDelimiter c = false) :
    c ≠ ',' ∧ c ≠ '(' ∧ c ≠ ')' := by
  simpa [isDelimiter, and_assoc] using plain

/-- An apostrophe in front of a text whose literals end makes a literal that closes,
and nothing of it is given back: every literal after it ends, too. -/
theorem closeLiteral?_of_endsOutside {text : Text} (ends : EndsOutside true text) :
    ∃ content after, closeLiteral? text = some (content, after) ∧ EndsOutside false after ∧
      ((∀ c ∈ content, isDelimiter c = false) → Undelimited false after → Undelimited true text) := by
  fun_induction closeLiteral? text with
  | case1 => simp at ends
  | case2 rest content after found inductionHypothesis =>
    have later : EndsOutside true rest := by simpa [endsOutside_cons] using ends
    obtain ⟨content', after', found', ends', undelimited⟩ := inductionHypothesis later
    rw [found] at found'
    cases found'
    refine ⟨_, _, rfl, ends', ?_⟩
    intro plain free
    have inner := undelimited (fun c member => plain c (by simp [member])) free
    simpa [Undelimited, isDelimiter] using inner
  | case3 rest unclosed inductionHypothesis =>
    have later : EndsOutside true rest := by simpa [endsOutside_cons] using ends
    obtain ⟨content, after, found, _⟩ := inductionHypothesis later
    rw [unclosed] at found
    cases found
  | case4 rest _ =>
    refine ⟨_, _, rfl, by simpa [endsOutside_cons] using ends, ?_⟩
    intro _ free
    simpa [Undelimited, isDelimiter] using free
  | case5 c rest _ quote inductionHypothesis =>
    have later : EndsOutside true rest := by simpa [endsOutside_cons, quote] using ends
    obtain ⟨content, after, found, ends', undelimited⟩ := inductionHypothesis later
    refine ⟨c :: content, after, by simp [found], ends', ?_⟩
    intro plain free
    have inner := undelimited (fun d member => plain d (by simp [member])) free
    simpa [Undelimited, quote, plain c (by simp)] using inner

/-- Where all literals end, the literals that are searched for delimiters are the true ones. The
induction follows this search, which then never meets a quote that opens nothing. -/
theorem undelimited_of_not_hasDelimitedLiteral {text : Text} (ends : EndsOutside false text)
    (unflagged : hasDelimitedLiteral text = false) : Undelimited false text := by
  rw [hasDelimitedLiteral] at unflagged
  fun_induction literalContents text with
  | case1 => trivial
  | case2 rest content after found shorter inductionHypothesis =>
    have opened : EndsOutside true rest := by simpa [endsOutside_cons] using ends
    obtain ⟨content', after', found', ends', undelimited⟩ := closeLiteral?_of_endsOutside opened
    rw [found] at found'
    cases found'
    rw [List.any_cons, Bool.or_eq_false_iff] at unflagged
    have plain : ∀ c ∈ content, isDelimiter c = false := by simpa using unflagged.1
    simpa [Undelimited] using undelimited plain (inductionHypothesis ends' unflagged.2)
  | case3 rest unclosed inductionHypothesis =>
    have opened : EndsOutside true rest := by simpa [endsOutside_cons] using ends
    obtain ⟨content, after, found, _⟩ := closeLiteral?_of_endsOutside opened
    rw [unclosed] at found
    cases found
  | case4 c rest quote inductionHypothesis =>
    have inner := inductionHypothesis (by simpa [endsOutside_cons, quote] using ends) unflagged
    simpa [Undelimited, quote] using inner

/-! ### Where the readers agree -/

/-- Delimiters outside literals alone: both readers close at the same place. Inside a literal
the one that does not know literals meets nothing that it counts; the induction goes along the
list. -/
theorem literalCloseAt?_eq {inside : Bool} {depth : Int} {arguments rest : Text}
    (undelimited : Undelimited inside arguments) (ends : EndsOutside inside arguments)
    (closes : closeAt? depth (arguments ++ ')' :: rest) = some arguments.length) :
    literalCloseAt? inside depth (arguments ++ ')' :: rest) = some arguments.length := by
  induction arguments generalizing inside depth with
  | nil =>
    rw [endsOutside_nil] at ends
    subst ends
    by_cases one : depth = 1
    · simp [literalCloseAt?, one]
    · simp [closeAt?, one] at closes
  | cons c arguments inductionHypothesis =>
    obtain ⟨plain, undelimited⟩ := undelimited
    rw [endsOutside_cons] at ends
    rw [List.cons_append, List.length_cons] at closes ⊢
    by_cases quote : c = '\''
    · subst quote
      rw [if_pos rfl] at undelimited ends
      have inner : closeAt? depth (arguments ++ ')' :: rest) = some arguments.length := by
        simpa [closeAt?] using closes
      rw [literalCloseAt?_quote, inductionHypothesis undelimited ends inner, Option.map_some]
    · rw [if_neg quote] at undelimited ends
      cases inside with
      | true =>
        obtain ⟨_, opens, shuts⟩ := ne_of_not_isDelimiter (plain rfl)
        have inner : closeAt? depth (arguments ++ ')' :: rest) = some arguments.length := by
          simpa [closeAt?, opens, shuts] using closes
        rw [literalCloseAt?_literal quote, inductionHypothesis undelimited ends inner,
          Option.map_some]
      | false =>
        -- Outside a literal both readers take the same branch.
        rw [literalCloseAt?, if_neg quote]
        rw [closeAt?] at closes
        by_cases opens : c = '('
        · rw [if_pos opens] at closes ⊢
          rw [inductionHypothesis undelimited ends (by simpa using closes), Option.map_some]
        · rw [if_neg opens] at closes ⊢
          by_cases shuts : c = ')'
          · rw [if_pos shuts] at closes ⊢
            by_cases one : depth = 1
            · simp [one] at closes
            · rw [if_neg one] at closes ⊢
              rw [inductionHypothesis undelimited ends (by simpa using closes), Option.map_some]
          · rw [if_neg shuts] at closes ⊢
            rw [inductionHypothesis undelimited ends (by simpa using closes), Option.map_some]

/-- A reader that knows literals closes a list only outside of them, because inside it counts
nothing. The induction goes along the list. -/
theorem endsOutside_of_literalCloseAt? {inside : Bool} {depth : Int} {arguments rest : Text}
    (closes : literalCloseAt? inside depth (arguments ++ ')' :: rest) = some arguments.length) :
    EndsOutside inside arguments := by
  induction arguments generalizing inside depth with
  | nil =>
    rw [endsOutside_nil]
    cases inside with
    | false => rfl
    | true => simp [literalCloseAt?_literal] at closes
  | cons c arguments inductionHypothesis =>
    rw [endsOutside_cons]
    rw [List.cons_append, List.length_cons] at closes
    by_cases quote : c = '\''
    · subst quote
      rw [literalCloseAt?_quote] at closes
      rw [if_pos rfl]
      exact inductionHypothesis (by simpa using closes)
    · rw [if_neg quote]
      cases inside with
      | true =>
        rw [literalCloseAt?_literal quote] at closes
        exact inductionHypothesis (by simpa using closes)
      | false =>
        rw [literalCloseAt?, if_neg quote] at closes
        split at closes
        · exact inductionHypothesis (by simpa using closes)
        · split at closes
          · split at closes
            · simp at closes
            · exact inductionHypothesis (by simpa using closes)
          · exact inductionHypothesis (by simpa using closes)

/-- Delimiters outside literals alone: both readers cut the same pieces. Inside a literal there is
nothing that one of them would count and the other not; the induction goes along the text. -/
theorem literalCutArguments_eq {inside : Bool} {text : Text} (undelimited : Undelimited inside text)
    (depth : Nat) : literalCutArguments inside depth text = cutArguments depth text := by
  induction text generalizing inside depth with
  | nil => cases inside <;> rfl
  | cons c text inductionHypothesis =>
    obtain ⟨plain, undelimited⟩ := undelimited
    by_cases quote : c = '\''
    · subst quote
      rw [if_pos rfl] at undelimited
      rw [literalCutArguments_quote, inductionHypothesis undelimited, cutArguments]
      simp [depthAfter]
    · rw [if_neg quote] at undelimited
      cases inside with
      | true =>
        obtain ⟨comma, opens, shuts⟩ := ne_of_not_isDelimiter (plain rfl)
        rw [literalCutArguments_literal quote, inductionHypothesis undelimited, cutArguments]
        simp [depthAfter, comma, opens, shuts]
      | false =>
        have outside : (c == '\'') = false := by simp [quote]
        rw [literalCutArguments, outside, inductionHypothesis undelimited, cutArguments]

/-- A list that the plain reader closes, and of whose literals none is flagged, is
read alike by both readers exactly if its apostrophes pair up. -/
theorem literalReading?_eq_iff {arguments rest : Text}
    (closes : closeAt? 1 (arguments ++ ')' :: rest) = some arguments.length)
    (unflagged : hasDelimitedLiteral arguments = false) :
    literalReading? (arguments ++ ')' :: rest) =
        some (arguments.length, splitArguments arguments) ↔
      arguments.count '\'' % 2 = 0 := by
  constructor
  · intro read
    obtain ⟨offset, found, same⟩ := Option.map_eq_some_iff.mp read
    obtain ⟨rfl, _⟩ := Prod.mk.inj same
    exact endsOutside_of_literalCloseAt? found
  · intro paired
    have ends : EndsOutside false arguments := paired
    have undelimited := undelimited_of_not_hasDelimitedLiteral ends unflagged
    rw [literalReading?, literalCloseAt?_eq undelimited ends closes, Option.map_some,
      List.take_left, literalSplitArguments, literalCutArguments_eq undelimited]
    rfl

end SqlRenewal
