import SqlRenewal.Proofs.Store.Folder
import SqlRenewal.Proofs.Throw.Tokens

/-!
# The names of routines

The order of routines is linear. A name that is read from a text is made of its
characters, and a name whose parts can be told apart is read from its qualified form.
-/
namespace SqlRenewal

/-! ### The order of routines -/

namespace Text

/-- Of two texts one is not behind the other: characters are compared, one after the other, and a
shorter text comes first. -/
theorem ble_total (first second : Text) : (ble first second || ble second first) = true := by
  induction first generalizing second with
  | nil => rfl
  | cons c rest inductionHypothesis =>
    cases second with
    | nil => rfl
    | cons d other =>
      simp only [ble, Bool.or_eq_true, Bool.and_eq_true, decide_eq_true_eq, beq_iff_eq]
      have later := inductionHypothesis other
      rw [Bool.or_eq_true] at later
      rcases Nat.lt_trichotomy c.toNat d.toNat with less | same | greater
      · exact .inl (.inl less)
      · have equal : c = d := Char.toNat_inj.mp same
        exact later.imp (fun below => .inr ⟨equal, below⟩) fun below => .inr ⟨equal.symm, below⟩
      · exact .inr (.inl greater)

/-- The order of texts is transitive: where two of the three first differ decides, and the third
one goes with it. The induction goes along the three of them. -/
theorem ble_trans {first second third : Text} (lower : ble first second = true)
    (upper : ble second third = true) : ble first third = true := by
  induction first generalizing second third with
  | nil => rfl
  | cons c rest inductionHypothesis =>
    cases second with
    | nil => cases lower
    | cons d other =>
      cases third with
      | nil => cases upper
      | cons e last =>
        simp only [ble, Bool.or_eq_true, Bool.and_eq_true, decide_eq_true_eq, beq_iff_eq]
          at lower upper ⊢
        rcases lower with less | ⟨rfl, below⟩
        · rcases upper with more | ⟨rfl, _⟩
          · exact .inl (Nat.lt_trans less more)
          · exact .inl less
        · rcases upper with more | ⟨rfl, above⟩
          · exact .inl more
          · exact .inr ⟨rfl, inductionHypothesis below above⟩

/-- Texts that are not behind each other are equal, because neither can have the smaller character
where they first differ. The induction goes along both. -/
theorem ble_antisymm {first second : Text} (lower : ble first second = true)
    (upper : ble second first = true) : first = second := by
  induction first generalizing second with
  | nil =>
    cases second with
    | nil => rfl
    | cons d other => cases upper
  | cons c rest inductionHypothesis =>
    cases second with
    | nil => cases lower
    | cons d other =>
      simp only [ble, Bool.or_eq_true, Bool.and_eq_true, decide_eq_true_eq, beq_iff_eq]
        at lower upper
      rcases lower with less | ⟨rfl, below⟩
      · rcases upper with more | ⟨rfl, _⟩
        · exact absurd less (Nat.lt_asymm more)
        · exact absurd less (Nat.lt_irrefl _)
      · rcases upper with more | ⟨_, above⟩
        · exact absurd more (Nat.lt_irrefl _)
        · rw [inductionHypothesis below above]

end Text

namespace Identity

/-- Of two identities one is not behind the other: the schemas are compared first, and then the
names. -/
theorem ble_total (first second : Identity) : (ble first second || ble second first) = true := by
  simp only [ble]
  by_cases same : first.schema = second.schema
  · rw [if_pos same, if_pos same.symm]
    exact Text.ble_total _ _
  · rw [if_neg same, if_neg (Ne.symm same)]
    exact Text.ble_total _ _

/-- The order of identities is transitive: schemas are compared first, and names only where the
schemas are equal. -/
theorem ble_trans (first second third : Identity) (lower : ble first second = true)
    (upper : ble second third = true) : ble first third = true := by
  simp only [ble] at lower upper ⊢
  by_cases left : first.schema = second.schema
  · rw [if_pos left] at lower
    by_cases right : second.schema = third.schema
    · rw [if_pos right] at upper
      rw [if_pos (left.trans right)]
      exact Text.ble_trans lower upper
    · rw [if_neg right] at upper
      rw [left, if_neg right]
      exact upper
  · rw [if_neg left] at lower
    by_cases right : second.schema = third.schema
    · rw [← right, if_neg left]
      exact lower
    · rw [if_neg right] at upper
      rw [if_neg]
      · exact Text.ble_trans lower upper
      · intro around
        rw [← around] at upper
        exact left (Text.ble_antisymm lower upper)

/-- Identities that are not behind each other are equal: their schemas are, and then their
names. -/
theorem ble_antisymm {first second : Identity} (lower : ble first second = true)
    (upper : ble second first = true) : first = second := by
  simp only [ble] at lower upper
  by_cases same : first.schema = second.schema
  · rw [if_pos same] at lower
    rw [if_pos same.symm] at upper
    have names := Text.ble_antisymm lower upper
    cases first
    cases second
    simp_all
  · rw [if_neg same] at lower
    rw [if_neg (Ne.symm same)] at upper
    exact absurd (Text.ble_antisymm lower upper) same

end Identity

/-! ### Reading a name -/

namespace Text

/-- Trimming adds no characters. -/
theorem mem_of_mem_trimWhile {drop : Char → Bool} {text : Text} {c : Char}
    (member : c ∈ trimWhile drop text) : c ∈ text := by
  obtain ⟨left, right, same, _, _⟩ := trimWhile_append drop text
  rw [same]
  simp [member]

/-- A text that was broken at a separator is put together again with it, by induction on what
stands in front of the separator. -/
theorem eq_of_breakAt? {separator : Char} {text before after : Text}
    (broken : breakAt? separator text = some (before, after)) :
    text = before ++ separator :: after := by
  induction text generalizing before after with
  | nil => cases broken
  | cons c rest inductionHypothesis =>
    rw [breakAt?] at broken
    split at broken
    · rename_i here
      cases broken
      rw [here, List.nil_append]
    · obtain ⟨⟨front, back⟩, found, same⟩ := Option.map_eq_some_iff.mp broken
      cases same
      rw [inductionHypothesis found, List.cons_append]

/-- Neither end of the text is a blank or a bracket. -/
def Flush (text : Text) : Prop :=
  ∀ c, text.head? = some c ∨ text.getLast? = some c → isBlank c = false ∧ c ≠ '[' ∧ c ≠ ']'

/-- A text without brackets at its ends keeps them when brackets are trimmed. The blank, which is
trimmed with them, is not at an end either. -/
theorem Flush.trim_brackets {text : Text} (flush : text.Flush) :
    trimWhile Identity.isBracketing text = text := by
  refine trimWhile_eq_self ?_
  intro c atEnd
  obtain ⟨solid, opening, closing⟩ := flush c atEnd
  have space : c ≠ ' ' := by
    rintro rfl
    exact absurd solid (by decide)
  simp [Identity.isBracketing, opening, closing, space]

end Text

namespace Identity

variable {schema text : Text} {identity : Identity}

/-- An identity is made of two texts exactly if it has them as its schema and its name, which are
never empty. -/
theorem make_eq_ok_iff {schema name : Text} :
    make schema name = .ok identity ↔ identity.schema = schema ∧ identity.name = name := by
  rw [make]
  constructor
  · intro made
    split at made
    · cases made
    · split at made
      · cases made
      · cases made
        exact ⟨rfl, rfl⟩
  · rintro ⟨rfl, rfl⟩
    rw [dif_neg identity.schema_ne_nil, dif_neg identity.name_ne_nil]

/-- A name is made of the characters of its text; only the schema can be the default one. Breaking
and trimming take characters away and add none. -/
theorem mem_of_parse (parsed : parse schema text = .ok identity) {c : Char} :
    (c ∈ identity.schema → c ∈ schema ∨ c ∈ text) ∧ (c ∈ identity.name → c ∈ text) := by
  obtain ⟨first, second⟩ := make_eq_ok_iff.mp parsed
  rw [first, second]
  cases broken : Text.breakAt? '.' (Text.trim text) with
  | none =>
    constructor
    · exact fun member => .inl (Text.mem_of_mem_trimWhile member)
    · exact fun member => Text.mem_of_mem_trimWhile (Text.mem_of_mem_trimWhile member)
  | some halves =>
    have whole := Text.eq_of_breakAt? broken
    have inText (inside : c ∈ halves.1 ∨ c ∈ halves.2) : c ∈ text := by
      refine Text.mem_of_mem_trimWhile (?_ : c ∈ Text.trim text)
      rw [whole]
      rcases inside with member | member
      · exact List.mem_append_left _ member
      · exact List.mem_append_right _ (List.mem_cons_of_mem _ member)
    constructor
    · exact fun member => .inr (inText (.inl (Text.mem_of_mem_trimWhile member)))
    · exact fun member => inText (.inr (Text.mem_of_mem_trimWhile member))

/-- The parts of the name can be told apart in its qualified form, which is one name of a
file. -/
structure Portable (identity : Identity) : Prop where
  point : '.' ∉ identity.schema
  slash : '/' ∉ identity.qualified
  schema : identity.schema.Flush
  name : identity.name.Flush

/-- A qualified name begins as its schema does. -/
theorem head?_qualified (identity : Identity) :
    identity.qualified.head? = identity.schema.head? := by
  rw [qualified, List.head?_append, List.head?_eq_some_head identity.schema_ne_nil, Option.some_or]

/-- A qualified name ends as its name does. -/
theorem getLast?_qualified (identity : Identity) :
    identity.qualified.getLast? = identity.name.getLast? := by
  rw [qualified, List.append_cons, List.getLast?_append,
    List.getLast?_eq_some_getLast identity.name_ne_nil, Option.some_or]

/-- A portable name is read from its qualified form: neither blanks nor brackets stand at the ends
of its parts, and the schema has no point in it. -/
theorem Portable.parse_qualified (portable : identity.Portable) (default : Text) :
    parse default identity.qualified = .ok identity := by
  have raw : Text.trim identity.qualified = identity.qualified := by
    refine Text.trimWhile_eq_self ?_
    intro c atEnd
    rw [head?_qualified, getLast?_qualified] at atEnd
    rcases atEnd with first | last
    · exact (portable.schema c (.inl first)).1
    · exact (portable.name c (.inr last)).1
  have broken : Text.breakAt? '.' identity.qualified = some (identity.schema, identity.name) :=
    Folder.breakAt?_append portable.point _
  rw [parse, raw, broken]
  refine make_eq_ok_iff.mpr ⟨?_, ?_⟩
  · exact portable.schema.trim_brackets.symm
  · exact portable.name.trim_brackets.symm

end Identity

end SqlRenewal
