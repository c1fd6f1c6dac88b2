import SqlRenewal.Routine.Identity
import SqlRenewal.Routine.Kind

/-!
# The table of definitions

A catalog holds at most one definition for a routine. Writing a definition anew
replaces the old one with its kind; changing the text of a routine keeps the kind
that was recorded.
-/
namespace SqlRenewal

/-- A routine with its text and the kind recorded for it. -/
structure Routine where
  identity : Identity
  kind : Text
  text : Text
deriving DecidableEq, Repr

/-- The stored routines. -/
abbrev Catalog := List Routine

/-- Routines in the order of their names, those of one name in the order given. -/
def sortRoutines (routines : List Routine) : List Routine :=
  routines.mergeSort fun first second => Identity.ble first.identity second.identity

namespace Catalog

/-- The routine of that name. -/
def routine? (catalog : Catalog) (identity : Identity) : Option Routine :=
  List.find? (fun routine => routine.identity == identity) catalog

/-- Puts a definition in the place of the one of the same routine, or adds it. -/
def put (catalog : Catalog) (routine : Routine) : Catalog :=
  if (catalog.routine? routine.identity).isSome then
    catalog.map fun other => if other.identity = routine.identity then routine else other
  else catalog ++ [routine]

/-- The definition that a text makes; without a kind, the text decides. -/
def define (identity : Identity) (text : Text) (kind : Option Text) : Routine :=
  ⟨identity, (kind.filter (· ≠ [])).getD (kindOf text), text⟩

/-- Changes the text of a routine. -/
def setText (catalog : Catalog) (identity : Identity) (text : Text) : Catalog :=
  catalog.map fun routine => if routine.identity = identity then { routine with text } else routine

end Catalog

end SqlRenewal
