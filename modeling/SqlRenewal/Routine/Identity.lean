import SqlRenewal.Text.Blank

/-!
# Routines and their names

A routine is known by its schema and its name, neither of which is empty. Names
are compared character by character, and ordered by schema first.
-/
namespace SqlRenewal

/-- The name of a routine within its schema. -/
structure Identity where
  schema : Text
  name : Text
  schema_ne_nil : schema ≠ []
  name_ne_nil : name ≠ []
deriving DecidableEq, Repr

/-- Why two texts do not name a routine. -/
inductive IdentityFault where
  | emptySchema
  | emptyName
deriving DecidableEq, Repr

/-- The wording of a refused name. -/
def IdentityFault.message : IdentityFault → String
  | .emptySchema => "schema_name cannot be empty"
  | .emptyName => "name cannot be empty"

/-- The schema of a routine that is named without one. -/
def defaultSchema : Text := "dbo".toList

namespace Identity

/-- The routine of that schema and name. -/
def make (schema name : Text) : Except IdentityFault Identity :=
  if someSchema : schema = [] then .error .emptySchema
  else if someName : name = [] then .error .emptyName
  else .ok ⟨schema, name, someSchema, someName⟩

/-- Schema and name with a point between them. -/
def qualified (identity : Identity) : Text :=
  identity.schema ++ '.' :: identity.name

/-- A bracket or a space around a part of a name. -/
def isBracketing (c : Char) : Bool :=
  c == '[' || c == ']' || c == ' '

/-- Reads a qualified name, or a plain one under the given schema. Blanks around
the whole and brackets around each part do not count. -/
def parse (schema text : Text) : Except IdentityFault Identity :=
  let raw := Text.trim text
  let (first, second) := (Text.breakAt? '.' raw).getD (schema, raw)
  make (Text.trimWhile isBracketing first) (Text.trimWhile isBracketing second)

/-- The order of routines: by schema, then by name. -/
def ble (first second : Identity) : Bool :=
  if first.schema = second.schema then Text.ble first.name second.name
  else Text.ble first.schema second.schema

end Identity

/-- A choice of routines: by schema, by name, by both, or all of them. -/
structure Scope where
  schema : Option Text := none
  name : Option Text := none
deriving DecidableEq, Repr

/-- The routine belongs to the choice. -/
def Scope.admits (scope : Scope) (identity : Identity) : Bool :=
  scope.schema.all (· == identity.schema) && scope.name.all (· == identity.name)

end SqlRenewal
