import SqlRenewal.Raise.Locate
import SqlRenewal.Substitution.Deprecated

/-!
# Findings

What a text still has of deprecated syntax: counted by construct, grouped into
categories, and with the shapes of legacy statements named. Findings decide which
routines a run looks at, and explain to a person why.
-/
namespace SqlRenewal

/-- The kinds of deprecated syntax. -/
inductive Category where
  | errorHandling
  | dataTypes
  | functions
  | joins
  | settings
deriving DecidableEq, Repr

/-- The name of a category. -/
def Category.name : Category → String
  | .errorHandling => "Error Handling"
  | .dataTypes => "Data Types"
  | .functions => "Functions"
  | .joins => "JOIN Syntax"
  | .settings => "Settings"

/-- What a preview says about a routine with findings of a category. -/
def Category.label : Category → String
  | .errorHandling => "RAISERROR syntax found"
  | .dataTypes => "Deprecated data types found"
  | .functions => "Deprecated functions found"
  | .joins => "Old JOIN syntax found"
  | .settings => "Deprecated settings found"

/-- A construct that should no longer be used, with the rule that replaces it. -/
structure Deprecation where
  category : Category
  description : String
  rule : Rule

/-- The deprecated constructs that rules replace, in the order of the rules. -/
def deprecations : List Deprecation :=
  [⟨.dataTypes, "TEXT data type usage", textType⟩,
    ⟨.dataTypes, "NTEXT data type usage", ntextType⟩,
    ⟨.dataTypes, "IMAGE data type usage", imageType⟩,
    ⟨.functions, "GETDATE() function usage", getdateFunction⟩,
    ⟨.joins, "Old-style JOIN syntax (*=)", leftOuterJoin⟩,
    ⟨.joins, "Old-style JOIN syntax (=*)", rightOuterJoin⟩,
    ⟨.settings, "ANSI_NULLS OFF setting", ansiNullsOff⟩,
    ⟨.settings, "QUOTED_IDENTIFIER OFF setting", quotedIdentifierOff⟩]

/-- One kind of deprecated syntax in a text, and how often it occurs. -/
structure Finding where
  category : Category
  description : String
  count : Nat
deriving DecidableEq, Repr

/-- The legacy statements of a text, as a finding that may have a count of zero. -/
def raiseFinding (text : Text) : Finding :=
  ⟨.errorHandling, "RAISERROR usage detected", countRaises none text⟩

/-- The uses of a deprecated construct, as a finding that may have a count of
zero. -/
def Deprecation.finding (deprecation : Deprecation) (text : Text) : Finding :=
  ⟨deprecation.category, deprecation.description, deprecation.rule.count text⟩

/-- The findings of a text that occur at all. -/
def findings (text : Text) : List Finding :=
  (raiseFinding text :: deprecations.map fun deprecation => deprecation.finding text).filter
    fun finding => finding.count ≠ 0

/-- The members of a list without repetitions, each where it first occurs. -/
def firstOccurrences {α : Type} [DecidableEq α] (members : List α) : List α :=
  members.foldl (fun seen member => if member ∈ seen then seen else seen ++ [member]) []

/-- The categories of the findings, each once. -/
def foundCategories (text : Text) : List Category :=
  firstOccurrences ((findings text).map Finding.category)

/-- The text has a legacy statement or a deprecated construct. -/
def isLegacy (text : Text) : Bool :=
  decide (countRaises none text ≠ 0) ||
    deprecations.any fun deprecation => decide (deprecation.rule.count text ≠ 0)

/-- A test holds at some place of a text; it sees the text from there on and the
character before it. -/
def holdsSomewhere (test : Option Char → Text → Bool) : Option Char → Text → Bool
  | _, [] => false
  | before, c :: rest => test before (c :: rest) || holdsSomewhere test (some c) rest

/-- The keyword with spaces or tabs and a digit after it. -/
def startsBare (before : Option Char) (text : Text) : Bool :=
  endsWord before &&
    match dropKeyword? raiseWord text with
    | some rest =>
      rest.head?.any isInlineBlank && (rest.dropWhile isInlineBlank).head?.any isDigit
    | none => false

/-- The keyword with an opening parenthesis after it, blanks between allowed. -/
def startsParenthesized (before : Option Char) (text : Text) : Bool :=
  endsWord before &&
    match dropKeyword? raiseWord text with
    | some rest => (rest.dropWhile isBlank).head? == some '('
    | none => false

/-- What a preview says about the shape of a legacy statement. -/
def Form.label : Form → String
  | .bare => "RAISERROR with error number and variable"
  | .parenthesized => "RAISERROR with parentheses syntax"

/-- The shapes of legacy statements in a text. -/
def foundForms (text : Text) : List Form :=
  (if holdsSomewhere startsBare none text then [.bare] else []) ++
    (if holdsSomewhere startsParenthesized none text then [.parenthesized] else [])

end SqlRenewal
