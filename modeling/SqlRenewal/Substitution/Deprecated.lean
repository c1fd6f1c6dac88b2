import SqlRenewal.Substitution.Rule

/-!
# The built-in rules

Eight rules replace deprecated syntax. The ninth turns the first words of a
definition from `CREATE` into `ALTER`, so that a changed text can be deployed
over the existing routine; it follows another change and fires at most once.
-/
namespace SqlRenewal

/-- The `TEXT` type. -/
def textType : Rule :=
  { name := "text_type".toList
    pattern := .typeName ['T', 'E', 'X', 'T'] "NVARCHAR(MAX)".toList }

/-- The `NTEXT` type. -/
def ntextType : Rule :=
  { name := "ntext_type".toList
    pattern := .typeName ['N', 'T', 'E', 'X', 'T'] "NVARCHAR(MAX)".toList }

/-- The `IMAGE` type. -/
def imageType : Rule :=
  { name := "image_type".toList
    pattern := .typeName ['I', 'M', 'A', 'G', 'E'] "VARBINARY(MAX)".toList }

/-- The `GETDATE()` function. -/
def getdateFunction : Rule :=
  { name := "getdate_function".toList, pattern := .currentDate }

/-- The operator of a left outer join. -/
def leftOuterJoin : Rule :=
  { name := "left_outer_join".toList, pattern := .outerJoin .left }

/-- The operator of a right outer join. -/
def rightOuterJoin : Rule :=
  { name := "right_outer_join".toList, pattern := .outerJoin .right }

/-- `ANSI_NULLS` turned off. -/
def ansiNullsOff : Rule :=
  { name := "ansi_nulls_off".toList
    pattern := .optionOff ['A', 'N', 'S', 'I', '_', 'N', 'U', 'L', 'L', 'S'] }

/-- `QUOTED_IDENTIFIER` turned off. -/
def quotedIdentifierOff : Rule :=
  { name := "quoted_identifier_off".toList
    pattern := .optionOff
      ['Q', 'U', 'O', 'T', 'E', 'D', '_', 'I', 'D', 'E', 'N', 'T', 'I', 'F', 'I', 'E', 'R'] }

/-- The first words of a definition. -/
def createToAlter : Rule :=
  { name := "create_to_alter".toList
    pattern := .definition
    allowance := some 1
    afterChange := true }

/-- The rules that apply unless others are given, in their order. -/
def builtinRules : List Rule :=
  [textType, ntextType, imageType, getdateFunction, leftOuterJoin, rightOuterJoin, ansiNullsOff,
    quotedIdentifierOff, createToAlter]

/-- All built-in rules can be applied. -/
theorem builtinRules_applicable : builtinRules.all Rule.isApplicable = true := by
  decide

/-- The built-in rule of that name. -/
def builtinRule? (name : Text) : Option Rule :=
  builtinRules.find? (·.name == name)

end SqlRenewal
