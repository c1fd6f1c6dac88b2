import SqlRenewal.Proofs.Routine.Naming

/-!
# Qualified names

A routine is read from its qualified form exactly if its schema and its name can be told
apart there and have nothing at their ends that reading takes away. Reading never makes a
part longer: so where it returns the parts that were written, it has taken nothing, neither
from the whole nor from a part, and the point that it found is the one that was written.
-/
namespace SqlRenewal

namespace Text

/-- Trimming that takes nothing away leaves the text. The margins on both sides have no length, so
they are empty. -/
theorem trimWhile_eq_of_length_le {drop : Char → Bool} {text : Text}
    (kept : text.length ≤ (trimWhile drop text).length) : trimWhile drop text = text := by
  obtain ⟨left, right, same, _, _⟩ := trimWhile_append drop text
  have lengths : text.length = left.length + (trimWhile drop text).length + right.length := by
    rw [← List.length_append, ← List.length_append, ← same]
  obtain rfl : left = [] := List.eq_nil_of_length_eq_zero (by omega)
  obtain rfl : right = [] := List.eq_nil_of_length_eq_zero (by omega)
  rw [List.nil_append, List.append_nil] at same
  exact same.symm

/-- Trimming makes no text longer. -/
theorem length_trimWhile_le (drop : Char → Bool) (text : Text) :
    (trimWhile drop text).length ≤ text.length := by
  obtain ⟨left, right, same, _, _⟩ := trimWhile_append drop text
  have lengths : text.length = left.length + (trimWhile drop text).length + right.length := by
    rw [← List.length_append, ← List.length_append, ← same]
  omega

/-- A text is trimmed already exactly if neither of its ends belongs to the class. -/
theorem trimWhile_eq_self_iff {drop : Char → Bool} {text : Text} :
    trimWhile drop text = text ↔
      ∀ c, text.head? = some c ∨ text.getLast? = some c → drop c = false := by
  constructor
  · intro trimmed c atEnd
    rw [← trimmed] at atEnd
    exact trimWhile_ends atEnd
  · exact trimWhile_eq_self

/-- A text is broken at its first separator, so what is before it has none. -/
theorem not_mem_of_breakAt? {separator : Char} {text before after : Text}
    (broken : breakAt? separator text = some (before, after)) : separator ∉ before := by
  induction text generalizing before with
  | nil => cases broken
  | cons c rest inductionHypothesis =>
    rw [breakAt?] at broken
    split at broken
    · cases broken
      exact List.not_mem_nil
    · rename_i elsewhere
      obtain ⟨⟨front, back⟩, found, same⟩ := Option.map_eq_some_iff.mp broken
      cases same
      rw [List.mem_cons, not_or]
      exact ⟨Ne.symm elsewhere, inductionHypothesis found⟩

/-- A text with a separator can be broken at one. -/
theorem exists_breakAt? {separator : Char} {text : Text} (member : separator ∈ text) :
    ∃ before after, breakAt? separator text = some (before, after) := by
  obtain ⟨before, after, rfl, absent⟩ := List.eq_append_cons_of_mem member
  exact ⟨before, after, Folder.breakAt?_append absent after⟩

/-- A character outside the class is not trimmed away: the margins on both sides consist of the
class alone. -/
theorem mem_trimWhile {drop : Char → Bool} {text : Text} {c : Char} (kept : drop c = false)
    (member : c ∈ text) : c ∈ trimWhile drop text := by
  obtain ⟨left, right, same, leftDropped, rightDropped⟩ := trimWhile_append drop text
  rw [same, List.mem_append, List.mem_append] at member
  rcases member with (inLeft | inside) | inRight
  · rw [leftDropped c inLeft] at kept
    cases kept
  · exact inside
  · rw [rightDropped c inRight] at kept
    cases kept

end Text

namespace Identity

/-- Schema and name can be told apart in the qualified form, and reading leaves both as
they are: there is no point in the schema, no blank at either end of the whole, and no
bracket and no space at the ends of a part. -/
structure Separable (identity : Identity) : Prop where
  point : '.' ∉ identity.schema
  schemaStart : ∀ c, identity.schema.head? = some c → isBlank c = false
  nameEnd : ∀ c, identity.name.getLast? = some c → isBlank c = false
  schemaEnds : ∀ c, identity.schema.head? = some c ∨ identity.schema.getLast? = some c →
    isBracketing c = false
  nameEnds : ∀ c, identity.name.head? = some c ∨ identity.name.getLast? = some c →
    isBracketing c = false

variable {identity : Identity}

/-- The whole is trimmed already exactly if neither the schema begins nor the name ends with
a blank. -/
theorem trim_qualified_iff : Text.trim identity.qualified = identity.qualified ↔
    (∀ c, identity.schema.head? = some c → isBlank c = false) ∧
      ∀ c, identity.name.getLast? = some c → isBlank c = false := by
  rw [Text.trim, Text.trimWhile_eq_self_iff, head?_qualified, getLast?_qualified]
  constructor
  · exact fun ends => ⟨fun c first => ends c (.inl first), fun c last => ends c (.inr last)⟩
  · rintro ⟨first, last⟩ c atEnd
    exact atEnd.elim (first c) (last c)

/-- A separable identity is parsed back from its qualified name: it is broken at its own dot, and
nothing is trimmed from the parts. -/
theorem Separable.parse (separable : identity.Separable) (default : Text) :
    Identity.parse default identity.qualified = .ok identity := by
  have raw := trim_qualified_iff.mpr ⟨separable.schemaStart, separable.nameEnd⟩
  have broken : Text.breakAt? '.' identity.qualified = some (identity.schema, identity.name) :=
    Folder.breakAt?_append separable.point identity.name
  rw [Identity.parse, raw, broken]
  refine make_eq_ok_iff.mpr ⟨?_, ?_⟩
  · exact (Text.trimWhile_eq_self separable.schemaEnds).symm
  · exact (Text.trimWhile_eq_self separable.nameEnds).symm

/-- An identity that is parsed back is separable. Trimming only shortens, so if the parts together
are as long as before, nothing was trimmed from either. -/
theorem Separable.of_parse {default : Text}
    (parsed : Identity.parse default identity.qualified = .ok identity) : identity.Separable := by
  have pointed : '.' ∈ Text.trim identity.qualified :=
    Text.mem_trimWhile (by decide) (by simp [qualified])
  obtain ⟨first, second, broken⟩ := Text.exists_breakAt? pointed
  rw [Identity.parse, broken] at parsed
  obtain ⟨schema, name⟩ := make_eq_ok_iff.mp parsed
  -- Each of the three trimmings could only make something shorter, and in the end nothing is.
  have whole : (Text.trim identity.qualified).length = first.length + 1 + second.length := by
    rw [Text.eq_of_breakAt? broken, List.length_append, List.length_cons]
    omega
  have written : identity.qualified.length = identity.schema.length + 1 + identity.name.length := by
    rw [qualified, List.length_append, List.length_cons]
    omega
  have wholeLength := Text.length_trimWhile_le isBlank identity.qualified
  have schemaLength := Text.length_trimWhile_le isBracketing first
  have nameLength := Text.length_trimWhile_le isBracketing second
  rw [← schema] at schemaLength
  rw [← name] at nameLength
  rw [Text.trim] at whole
  have raw : Text.trim identity.qualified = identity.qualified :=
    Text.trimWhile_eq_of_length_le (by omega)
  have firstKept : Text.trimWhile isBracketing first = first :=
    Text.trimWhile_eq_of_length_le (by rw [← schema]; omega)
  have secondKept : Text.trimWhile isBracketing second = second :=
    Text.trimWhile_eq_of_length_le (by rw [← name]; omega)
  obtain ⟨schemaStart, nameEnd⟩ := trim_qualified_iff.mp raw
  rw [firstKept] at schema
  rw [secondKept] at name
  subst schema name
  exact
    { point := Text.not_mem_of_breakAt? broken
      schemaStart := schemaStart
      nameEnd := nameEnd
      schemaEnds := Text.trimWhile_eq_self_iff.mp firstKept
      nameEnds := Text.trimWhile_eq_self_iff.mp secondKept }

/-- A routine is read from its qualified form exactly if its parts can be told apart there,
whatever schema stands in for a missing one. So no two such routines have the same
qualified form. -/
theorem parse_qualified_iff :
    (∀ (default : Text) (identity : Identity),
        Identity.parse default identity.qualified = .ok identity ↔ identity.Separable) ∧
      ∀ first second : Identity, first.Separable → second.Separable →
        first.qualified = second.qualified → first = second := by
  constructor
  · exact fun default identity => ⟨Separable.of_parse, fun separable => separable.parse default⟩
  · exact fun first second separable separable' =>
      Folder.eq_of_qualified separable.point separable'.point

/-- Points, brackets and blanks may stand inside a name, and a tab at the end of a schema. -/
theorem parse_qualified_iff_tab :
    let identity : Identity := ⟨"a b\t".toList, "\tc.[d] e.f".toList, by decide, by decide⟩
    identity.Separable ∧ Identity.parse defaultSchema identity.qualified = .ok identity ∧
      ∀ other : Identity, other.Separable → other.qualified = "a b\t.\tc.[d] e.f".toList →
        other = identity := by
  intro identity
  have parsed : Identity.parse defaultSchema identity.qualified = .ok identity := by decide
  have separable := (parse_qualified_iff.1 defaultSchema identity).mp parsed
  refine ⟨separable, parsed, ?_⟩
  intro other separable' same
  exact parse_qualified_iff.2 other identity separable' separable same

end Identity

end SqlRenewal
