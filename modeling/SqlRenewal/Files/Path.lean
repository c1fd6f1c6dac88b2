import SqlRenewal.Text.Blank

/-!
# Paths

A path is an anchor and the names below it. Its spelling is normal: repeated
slashes, a slash at the end and names that are a single point disappear, while a
pair of points stays. Two slashes at the beginning are an anchor of their own;
three or more are the same as one.
-/
namespace SqlRenewal

/-- Where a path starts. -/
inductive Anchor where
  | here
  | root
  | doubleRoot
deriving DecidableEq, Repr

/-- The spelling of an anchor. -/
def Anchor.spelling : Anchor → Text
  | .here => []
  | .root => ['/']
  | .doubleRoot => ['/', '/']

/-- A path, without the parts of its spelling that do not matter. -/
structure Path where
  anchor : Anchor
  parts : List Text
deriving DecidableEq, Repr

namespace Path

/-- A slash. -/
def isSlash (c : Char) : Bool :=
  c == '/'

/-- The anchor that a number of slashes at the beginning denotes. -/
def anchorOf : Nat → Anchor
  | 0 => .here
  | 2 => .doubleRoot
  | _ => .root

/-- The path that a text spells. -/
def ofText (text : Text) : Path :=
  { anchor := anchorOf (text.takeWhile isSlash).length
    parts := (Text.splitAt '/' text).filter fun part => part ≠ [] ∧ part ≠ ['.'] }

/-- The path that a string spells. -/
def ofString (text : String) : Path :=
  ofText text.toList

/-- The normal spelling of a path; a path without any part is a point. -/
def spelling (path : Path) : Text :=
  let text := path.anchor.spelling ++ Text.join ['/'] path.parts
  if text = [] then ['.'] else text

/-- A path seen from a directory. An anchored path stays as it is. -/
def below (directory path : Path) : Path :=
  if path.anchor = .here then { directory with parts := directory.parts ++ path.parts } else path

/-- The last name of a path, or nothing. -/
def name (path : Path) : Text :=
  path.parts.getLast?.getD []

/-- The directory of a path; that of a bare anchor is the anchor itself. -/
def directory (path : Path) : Path :=
  { path with parts := path.parts.dropLast }

/-- The name without its last suffix. A point at the beginning or at the end of
the name opens no suffix. -/
def stem (path : Path) : Text :=
  match Text.breakAt? '.' path.name.reverse with
  | some (suffix, before) =>
    if suffix ≠ [] ∧ before ≠ [] then before.reverse else path.name
  | none => path.name

/-- One step along a path, where the steps so far are in reverse order: a pair of
points leads back, unless there is nothing to lead back from. -/
def step (anchor : Anchor) (back : List Text) (part : Text) : List Text :=
  if part ≠ ['.', '.'] then part :: back
  else match back with
    | [] => if anchor = .here then [part] else []
    | last :: before => if last = ['.', '.'] then part :: back else before

/-- The path without detours: it names the same place. -/
def collapse (path : Path) : Path :=
  { path with parts := (path.parts.foldl (step path.anchor) []).reverse }

end Path

end SqlRenewal
