import SqlRenewal.Routine.Kind
import SqlRenewal.Proofs.Substitution.Clear

/-!
# Where the first definition stands

The kind of a routine is read off the first definition of its text. A definition that says
`CREATE OR ALTER` is as well one that says `ALTER`, a little further on, so definitions with a
single verb are enough to look at (`firstKind?_eq`).

A text is cut in two at every place where a word begins that is no kind: the first definition
of the whole is that of the front or else that of the rest, because no definition goes over
such a place (`firstPlainKind?_append`).
-/
namespace SqlRenewal

/-! ### Definitions with a single verb -/

/-- The verbs of definitions. -/
def definitionVerbs : List (List Char) :=
  [['C', 'R', 'E', 'A', 'T', 'E'], ['A', 'L', 'T', 'E', 'R']]

/-- The kind at the beginning of a text, as written. -/
def kindWord? (text : Text) : Option Text :=
  definitionWords.findSome? fun capitals => (dropWord? capitals text).map (takenBefore text)

/-- The kind behind a verb at the beginning of a text. -/
def kindAfter? (verb : List Char) (text : Text) : Option Text :=
  ((dropKeyword? verb text).bind dropBlanks?).bind kindWord?

/-- The kind as written by a definition with a single verb that starts here. -/
def plainKind? (before : Option Char) (text : Text) : Option Text :=
  if endsWord before then definitionVerbs.findSome? (kindAfter? · text) else none

/-- The kind as written by the first definition of a text that has a single verb. -/
def firstPlainKind? : Option Char → Text → Option Text
  | _, [] => none
  | before, c :: rest => (plainKind? before (c :: rest)).or (firstPlainKind? (some c) rest)

/-- The verbs of a definition are two, and the first that leads to a kind is taken. -/
theorem kindOfVerbs_eq (text : Text) : definitionVerbs.findSome? (kindAfter? · text) =
    (kindAfter? ['C', 'R', 'E', 'A', 'T', 'E'] text).or
      (kindAfter? ['A', 'L', 'T', 'E', 'R'] text) := by
  simp only [definitionVerbs, List.findSome?_cons, List.findSome?_nil]
  cases kindAfter? ['C', 'R', 'E', 'A', 'T', 'E'] text with
  | none => cases kindAfter? ['A', 'L', 'T', 'E', 'R'] text <;> rfl
  | some kind => rfl

/-- The verbs are spelled with letters whose forms are known. -/
theorem definitionVerbs_known : ∀ verb ∈ definitionVerbs, verb ⊆ capitalLetters := by decide

/-- No verb is empty. -/
theorem definitionVerbs_ne_nil : ∀ verb ∈ definitionVerbs, verb ≠ [] := by decide

/-- A kind is the word of the definition that stands first in a text. -/
theorem kindWord?_eq (text : Text) : kindWord? text =
    (dropOneWord? definitionWords text).map fun found => takenBefore text found.2 := by
  simp only [kindWord?, dropOneWord?, List.map_findSome?, Function.comp_def, Option.map_map]

/-- A written kind stands behind a verb and blanks, where a word may begin. -/
theorem writtenKind?_eq (before : Option Char) (text : Text) : writtenKind? before text =
    if endsWord before then ((dropVerb? text).bind dropBlanks?).bind kindWord? else none := by
  rw [writtenKind?]
  split
  · cases (dropVerb? text).bind dropBlanks? with
    | none => rfl
    | some kind => exact (kindWord?_eq kind).symm
  · rfl

/-- A definition begins with its verb. The kind is read behind blanks, which end the verb as a
word. -/
theorem startsWord_of_kindAfter? {verb : List Char} {before : Option Char} {text kind : Text}
    (opened : endsWord before = true) (found : kindAfter? verb text = some kind) :
    startsWord verb before text = true := by
  obtain ⟨behind, readBlanks, _⟩ := Option.bind_eq_some_iff.mp found
  obtain ⟨rest, readVerb, dropped⟩ := Option.bind_eq_some_iff.mp readBlanks
  obtain ⟨word, rfl, spelled⟩ := dropKeyword?_eq_some_iff.mp readVerb
  obtain ⟨blanks, rfl, some, blank, _⟩ := dropBlanks?_eq_some_iff.mp dropped
  exact startsWord_iff.mpr ⟨opened, word, _, rfl, spelled, endsWord_head_of_blanks some blank _⟩

/-- No verb of a definition begins in the part, where `rest` follows. -/
def Verbless (before : Option Char) (part rest : Text) : Prop :=
  ∀ verb ∈ definitionVerbs, Lacks verb before part rest

/-- Where no verb starts there is no kind, because a kind is only read behind a verb. -/
theorem plainKind?_eq_none {before : Option Char} {text : Text}
    (absent : ∀ verb ∈ definitionVerbs, startsWord verb before text = false) :
    plainKind? before text = none := by
  rw [plainKind?]
  split
  · rename_i opened
    rw [List.findSome?_eq_none_iff]
    intro verb listed
    cases found : kindAfter? verb text with
    | none => rfl
    | some kind =>
      have starts := startsWord_of_kindAfter? opened found
      rw [absent verb listed] at starts
      cases starts
  · rfl

/-- A part without verbs is passed over: no definition begins at any of its characters. The
induction goes along the part. -/
theorem Verbless.firstPlainKind?_append {before : Option Char} {part rest : Text}
    (verbless : Verbless before part rest) :
    firstPlainKind? before (part ++ rest) = firstPlainKind? (lastOf before part) rest := by
  induction part generalizing before with
  | nil => simp
  | cons c part inductionHypothesis =>
    have here : plainKind? before (c :: (part ++ rest)) = none :=
      plainKind?_eq_none fun verb listed => (verbless verb listed).1
    have later : Verbless (some c) part rest := fun verb listed => (verbless verb listed).2
    rw [List.cons_append, firstPlainKind?, here, Option.none_or, inductionHypothesis later,
      lastOf_cons]

/-- A text without verbs is made of two parts without them, each with what is before and behind it
in view. -/
theorem verbless_append {before : Option Char} {first second rest : Text}
    (left : Verbless before first (second ++ rest))
    (right : Verbless (lastOf before first) second rest) :
    Verbless before (first ++ second) rest :=
  fun verb listed => lacks_append.mpr ⟨left verb listed, right verb listed⟩

/-- Without letters there is no verb, since the first letter of one would be among them. -/
theorem verbless_of_not_letters {part : Text} (never : ∀ c ∈ part, c ∉ letterForms)
    (before : Option Char) (rest : Text) : Verbless before part rest := by
  intro verb listed
  have known := definitionVerbs_known verb listed
  cases verb with
  | nil => exact absurd rfl (definitionVerbs_ne_nil _ listed)
  | cons capital capitals =>
    apply lacks_of_no_opening
    intro c member
    cases written : writes capital c with
    | false => rfl
    | true => exact absurd (mem_letterForms (known (by simp)) written) (never c member)

/-- Blanks contain no verb, because they contain no letters. -/
theorem verbless_of_blanks {blanks : Text} (blank : ∀ c ∈ blanks, isBlank c = true)
    (before : Option Char) (rest : Text) : Verbless before blanks rest :=
  verbless_of_not_letters (fun c member => not_letter_of_isBlank (blank c member)) before rest

/-- A spelled word that is neither of the verbs. -/
theorem Spells.verbless {capitals : List Char} {word : Text} (spelled : Spells capitals word)
    (known : capitals ⊆ capitalLetters)
    (clashing : ∀ verb ∈ definitionVerbs, clash capitals verb = true)
    (before : Option Char) (rest : Text) : Verbless before word rest :=
  fun verb listed =>
    spelled.lacks known (definitionVerbs_known verb listed) (clashing verb listed) before rest

/-- A spelled word that is none of the kinds. -/
theorem Spells.kindWord?_eq_none {capitals : List Char} {word : Text}
    (spelled : Spells capitals word) (known : capitals ⊆ capitalLetters)
    (clashing : ∀ kind ∈ definitionWords, clash capitals kind = true) (rest : Text) :
    kindWord? (word ++ rest) = none := by
  rw [kindWord?, List.findSome?_eq_none_iff]
  intro kind listed
  rw [spelled.dropWord?_eq_none known (definitionWords_known kind listed) (clashing kind listed)]
  rfl

/-- A keyword is not read where another one is spelled. One letter is never written for two
capitals, so the first letters already differ. -/
theorem Spells.dropKeyword?_eq_none {capital other : Char} {capitals others : List Char}
    {word : Text} (spelled : Spells (capital :: capitals) word)
    (known : capital ∈ capitalLetters ∧ other ∈ capitalLetters) (differ : capital ≠ other)
    (rest : Text) : dropKeyword? (other :: others) (word ++ rest) = none := by
  cases spelled with
  | @cons _ c _ word written spelled =>
    have unwritten : ¬ writes other c = true := fun also =>
      differ (writes_unique known.1 known.2 written also)
    rw [List.cons_append, dropKeyword?, if_neg unwritten]

/-- Where a verb begins, what follows it decides. The other verb is spelled with other letters, so
only one of the two searches gets past its word. -/
theorem plainKind?_of_verb {verb : List Char} (listed : verb ∈ definitionVerbs) {word : Text}
    (spelled : Spells verb word) {before : Option Char} (opened : endsWord before = true)
    (tail : Text) : plainKind? before (word ++ tail) = (dropBlanks? tail).bind kindWord? := by
  rw [plainKind?, if_pos opened, kindOfVerbs_eq, kindAfter?, kindAfter?]
  simp only [definitionVerbs, List.mem_cons, List.not_mem_nil, or_false] at listed
  rcases listed with rfl | rfl
  · have unread : dropKeyword? ['A', 'L', 'T', 'E', 'R'] (word ++ tail) = none :=
      spelled.dropKeyword?_eq_none (by decide) (by decide) tail
    rw [dropKeyword?_spelled spelled, unread, Option.bind_none, Option.bind_none, Option.or_none]
    rfl
  · have unread : dropKeyword? ['C', 'R', 'E', 'A', 'T', 'E'] (word ++ tail) = none :=
      spelled.dropKeyword?_eq_none (by decide) (by decide) tail
    rw [dropKeyword?_spelled spelled, unread, Option.bind_none, Option.bind_none, Option.none_or]
    rfl

/-! ### Definitions that say `OR ALTER` -/

/-- The words `OR ALTER` behind blanks. -/
structure OrAlter (gap either space alter : Text) : Prop where
  gapSome : gap ≠ []
  gapBlank : ∀ c ∈ gap, isBlank c = true
  eitherSpelled : Spells ['O', 'R'] either
  spaceSome : space ≠ []
  spaceBlank : ∀ c ∈ space, isBlank c = true
  alterSpelled : Spells ['A', 'L', 'T', 'E', 'R'] alter

/-- An `OR ALTER` that was read stands in the text: two gaps of blanks, and a spelling of each of
the two words. -/
theorem orAlter_of_read {behind tail : Text}
    (read : (((dropBlanks? behind).bind (dropKeyword? ['O', 'R'])).bind fun rest =>
      (dropBlanks? rest).bind (dropKeyword? ['A', 'L', 'T', 'E', 'R'])) = some tail) :
    ∃ gap either space alter, behind = gap ++ (either ++ (space ++ (alter ++ tail))) ∧
      OrAlter gap either space alter := by
  obtain ⟨rest, readOr, readAlter⟩ := Option.bind_eq_some_iff.mp read
  obtain ⟨word, dropGap, dropOr⟩ := Option.bind_eq_some_iff.mp readOr
  obtain ⟨verb, dropSpace, dropAlter⟩ := Option.bind_eq_some_iff.mp readAlter
  obtain ⟨gap, rfl, gapSome, gapBlank, _⟩ := dropBlanks?_eq_some_iff.mp dropGap
  obtain ⟨either, rfl, eitherSpelled⟩ := dropKeyword?_eq_some_iff.mp dropOr
  obtain ⟨space, rfl, spaceSome, spaceBlank, _⟩ := dropBlanks?_eq_some_iff.mp dropSpace
  obtain ⟨alter, rfl, alterSpelled⟩ := dropKeyword?_eq_some_iff.mp dropAlter
  exact ⟨gap, either, space, alter, rfl, gapSome, gapBlank, eitherSpelled, spaceSome, spaceBlank,
    alterSpelled⟩

/-- In front of the last verb there is none but the first: the rest of the first verb is inside a
word, and between the two stand blanks and a word that is no verb. -/
theorem OrAlter.verbless {gap either space alter : Text} (orAlter : OrAlter gap either space alter)
    {first : Char} {others : Text}
    (created : Spells ['C', 'R', 'E', 'A', 'T', 'E'] (first :: others)) (rest : Text) :
    Verbless (some first) (others ++ (gap ++ (either ++ space))) rest := by
  have letters := created.letters (by decide)
  have inside : endsWord (some first) = false := by
    simp [endsWord, letterForms_isWordChar first (letters first (by simp))]
  have within (behind : Text) : Verbless (some first) others behind := by
    intro verb listed
    apply lacks_of_inside inside
    intro c member
    exact letterForms_isWordChar c (letters c (by simp [member]))
  refine verbless_append (within _) (verbless_append (verbless_of_blanks orAlter.gapBlank _ _) ?_)
  exact verbless_append (orAlter.eitherSpelled.verbless (by decide) (by decide) _ _)
    (verbless_of_blanks orAlter.spaceBlank _ _)

/-- No kind stands behind the first verb. The next word there is the conjunction, and it is none
of the kinds. -/
theorem OrAlter.no_kind {gap either space alter : Text} (orAlter : OrAlter gap either space alter)
    (tail : Text) :
    (dropBlanks? (gap ++ (either ++ (space ++ (alter ++ tail))))).bind kindWord? = none := by
  have solid := isBlankBeside_spelled orAlter.eitherSpelled (by decide) (by decide)
    (space ++ (alter ++ tail))
  rw [dropBlanks?_eq_some_iff.mpr ⟨gap, rfl, orAlter.gapSome, orAlter.gapBlank, solid⟩,
    Option.bind_some]
  exact orAlter.eitherSpelled.kindWord?_eq_none (by decide) (by decide) _

/-- The first definition is the one of the last verb, or else one behind it, because no verb
begins in front of it. -/
theorem OrAlter.firstPlainKind?_eq {gap either space alter : Text}
    (orAlter : OrAlter gap either space alter) {first : Char} {others : Text}
    (created : Spells ['C', 'R', 'E', 'A', 'T', 'E'] (first :: others)) (tail : Text) :
    ∃ behind, firstPlainKind? (some first)
        (others ++ (gap ++ (either ++ (space ++ (alter ++ tail))))) =
      ((dropBlanks? tail).bind kindWord?).or behind := by
  obtain ⟨c, word, rfl, letter⟩ := orAlter.alterSpelled.cons_of_known (by decide) (by decide)
  have opened : endsWord (lastOf (some first) (others ++ (gap ++ (either ++ space)))) = true := by
    rw [lastOf_append, lastOf_append, lastOf_append]
    exact endsWord_lastOf_blanks orAlter.spaceSome orAlter.spaceBlank _
  have shape : others ++ (gap ++ (either ++ (space ++ (c :: word ++ tail)))) =
      (others ++ (gap ++ (either ++ space))) ++ c :: (word ++ tail) := by simp
  have read := plainKind?_of_verb (by decide) orAlter.alterSpelled opened tail
  refine ⟨firstPlainKind? (some c) (word ++ tail), ?_⟩
  rw [shape, (orAlter.verbless created _).firstPlainKind?_append, firstPlainKind?, ← read]
  rfl

/-- `CREATE OR ALTER` may be passed over up to its last word, which does for the kind: what stands
between the two verbs is no verb, and the kind behind the last one is the same. -/
theorem writtenKind?_or_firstPlainKind? (before : Option Char) (c : Char) (rest : Text) :
    (writtenKind? before (c :: rest)).or (firstPlainKind? (some c) rest) =
      firstPlainKind? before (c :: rest) := by
  rw [firstPlainKind?, writtenKind?_eq]
  cases opened : endsWord before with
  | false => simp [plainKind?, opened]
  | true =>
    rw [if_pos rfl]
    cases readCreate : dropKeyword? ['C', 'R', 'E', 'A', 'T', 'E'] (c :: rest) with
    | none =>
      rw [plainKind?, if_pos opened, kindOfVerbs_eq]
      simp only [dropVerb?, kindAfter?, readCreate, Option.bind_none, Option.none_or]
    | some behind =>
      obtain ⟨create, same, created⟩ := dropKeyword?_eq_some_iff.mp readCreate
      have plain : plainKind? before (c :: rest) = (dropBlanks? behind).bind kindWord? := by
        rw [same]
        exact plainKind?_of_verb (by decide) created opened behind
      rw [plain]
      simp only [dropVerb?, readCreate]
      cases readOr : ((dropBlanks? behind).bind (dropKeyword? ['O', 'R'])).bind fun rest =>
        (dropBlanks? rest).bind (dropKeyword? ['A', 'L', 'T', 'E', 'R']) with
      | none => rfl
      | some tail =>
        -- The kind behind the last verb is found once at the first verb and once at the last.
        obtain ⟨gap, either, space, alter, rfl, orAlter⟩ := orAlter_of_read readOr
        obtain ⟨d, others, rfl, _⟩ := created.cons_of_known (by decide) (by decide)
        rw [List.cons_append] at same
        obtain ⟨rfl, rfl⟩ := List.cons.inj same
        obtain ⟨later, first⟩ := orAlter.firstPlainKind?_eq created tail
        rw [orAlter.no_kind, first, Option.none_or]
        change ((dropBlanks? tail).bind kindWord?).or (((dropBlanks? tail).bind kindWord?).or later) =
          ((dropBlanks? tail).bind kindWord?).or later
        rw [← Option.or_assoc, Option.or_self]

/-- Definitions with a single verb are enough. -/
theorem firstKind?_eq (before : Option Char) (text : Text) :
    firstKind? before text = firstPlainKind? before text := by
  induction text generalizing before with
  | nil => rfl
  | cons c rest inductionHypothesis =>
    rw [firstKind?, inductionHypothesis, writtenKind?_or_firstPlainKind?]

/-! ### Cutting a text in two -/

/-- What is taken before a rest is the same if more follows the rest. -/
theorem takenBefore_append_append (text behind rest : Text) :
    takenBefore (text ++ rest) (behind ++ rest) = takenBefore text behind := by
  rw [takenBefore, takenBefore, List.length_append, List.length_append, Nat.add_sub_add_right,
    List.take_append_of_le_length (Nat.sub_le _ _)]

/-- Two searches agree where they agree on every entry. -/
theorem findSome?_congr {α β : Type} {f g : α → Option β} {entries : List α}
    (same : ∀ entry ∈ entries, f entry = g entry) : entries.findSome? f = entries.findSome? g := by
  have mapped : entries.map f = entries.map g := List.map_congr_left same
  have found := congrArg (List.findSome? id) mapped
  rwa [List.findSome?_map, List.findSome?_map] at found

/-- Where a text ends between words, what follows has no part in the kind that its first word
gives. -/
theorem EndsBetweenWords.kindWord?_append {text : Text} (ends : EndsBetweenWords text) (rest : Text) :
    kindWord? (text ++ rest) = kindWord? text := by
  apply findSome?_congr
  intro capitals listed
  rw [ends.dropWord?_append (definitionWords_known _ listed), Option.map_map]
  congr 1
  funext behind
  exact takenBefore_append_append text behind rest

/-- Behind blanks, the text does not begin with a kind. -/
def Kindless (text : Text) : Prop :=
  kindWord? (text.dropWhile isBlank) = none

/-- The kind of a definition does not stand behind a place where none begins, so the text in front
of that place gives the kind alone. -/
theorem EndsBetweenWords.kindAfter?_append {text rest : Text} (ends : EndsBetweenWords text)
    (kindless : Kindless rest) {verb : List Char} (known : verb ⊆ capitalLetters) :
    kindAfter? verb (text ++ rest) = kindAfter? verb text := by
  rw [kindAfter?, kindAfter?, ends.dropKeyword?_append known]
  cases read : dropKeyword? verb text with
  | none => rfl
  | some behind =>
    obtain ⟨more, outside⟩ := ends.behind_keyword known read
    obtain ⟨c, behind, rfl⟩ := List.exists_cons_of_ne_nil more
    simp only [Option.map_some, Option.bind_some, List.cons_append, dropBlanks?]
    by_cases blank : isBlank c = true
    · -- Blanks are left of the text, and no kind follows them, or the kind is read inside it.
      rw [if_pos blank, if_pos blank, Option.bind_some, Option.bind_some, List.dropWhile_append]
      split
      · rename_i empty
        rw [List.isEmpty_iff.mp empty]
        exact kindless
      · rename_i solid
        have some : behind.dropWhile isBlank ≠ [] := fun empty => solid (List.isEmpty_iff.mpr empty)
        have whole := List.takeWhile_append_dropWhile (p := isBlank) (l := behind)
        have last : EndsBetweenWords (behind.dropWhile isBlank) := by
          rw [← whole, ← List.cons_append, lastOf_append, lastOf_of_ne_nil some _ none] at outside
          exact ⟨some, outside⟩
        exact last.kindWord?_append rest
    · rw [if_neg blank, if_neg blank]

/-- Where a text ends between words, and no kind stands in what follows, a verb at its start gives
the same kind with and without it. -/
theorem EndsBetweenWords.plainKind?_append {before : Option Char} {text rest : Text}
    (ends : EndsBetweenWords text) (kindless : Kindless rest) :
    plainKind? before (text ++ rest) = plainKind? before text := by
  have same : definitionVerbs.findSome? (kindAfter? · (text ++ rest)) =
      definitionVerbs.findSome? (kindAfter? · text) :=
    findSome?_congr fun verb listed =>
      ends.kindAfter?_append kindless (definitionVerbs_known verb listed)
  rw [plainKind?, plainKind?, same]

/-- No definition goes over the end of a text where no kind begins, so the first one is the first
of the front or else that of the rest. The induction goes along the front. -/
theorem firstPlainKind?_append {before : Option Char} {front rest : Text}
    (closed : endsWord (lastOf before front) = true) (kindless : Kindless rest) :
    firstPlainKind? before (front ++ rest) =
      (firstPlainKind? before front).or (firstPlainKind? (lastOf before front) rest) := by
  induction front generalizing before with
  | nil => simp [firstPlainKind?]
  | cons c front inductionHypothesis =>
    have ends : EndsBetweenWords (c :: front) := ⟨List.cons_ne_nil _ _, by simpa using closed⟩
    have here : plainKind? before (c :: (front ++ rest)) = plainKind? before (c :: front) :=
      ends.plainKind?_append kindless
    rw [lastOf_cons] at closed ⊢
    rw [List.cons_append, firstPlainKind?, firstPlainKind?, here, inductionHypothesis closed,
      Option.or_assoc]

/-! ### Words that have no part in a definition -/

/-- The part begins no definition and is no kind, whatever follows it. -/
structure Inert (part : Text) : Prop where
  kindless : ∀ rest, Kindless (part ++ rest)
  verbless : ∀ before rest, Verbless before part rest

/-- An inert part behind a character outside words is passed over. -/
theorem Inert.firstPlainKind?_eq {part : Text} (inert : Inert part) {before : Option Char}
    {front : Text} (closed : endsWord (lastOf before front) = true) (rest : Text) :
    firstPlainKind? before (front ++ (part ++ rest)) = (firstPlainKind? before front).or
      (firstPlainKind? (lastOf (lastOf before front) part) rest) := by
  rw [firstPlainKind?_append closed (inert.kindless rest),
    (inert.verbless _ rest).firstPlainKind?_append]

/-- Where no blank stands first, none is dropped, neither from the empty text nor before another
character. -/
theorem dropWhile_solid {text : Text} (solid : isBlankBeside text.head? = false) :
    text.dropWhile isBlank = text := by
  cases text with
  | nil => rfl
  | cons c text =>
    have unblank : isBlank c = false := by simpa [isBlankBeside] using solid
    rw [List.dropWhile_cons_of_neg (by simp [unblank])]

/-- A spelled word other than the verbs and the kinds is inert: no verb begins in it, and it is
not read as a kind. -/
theorem Spells.inert {capitals : List Char} {word : Text} (spelled : Spells capitals word)
    (known : capitals ⊆ capitalLetters)
    (apart : ∀ other ∈ definitionVerbs ++ definitionWords, clash capitals other = true) :
    Inert word := by
  have some : capitals ≠ [] := by
    rintro rfl
    exact absurd (apart _ (by decide : ['V', 'I', 'E', 'W'] ∈ _)) (by decide)
  refine ⟨fun rest => ?_, spelled.verbless known fun verb listed =>
    apart verb (List.mem_append_left _ listed)⟩
  rw [Kindless, dropWhile_solid (isBlankBeside_spelled spelled known some rest)]
  exact spelled.kindWord?_eq_none known
    (fun kind listed => apart kind (List.mem_append_right _ listed)) rest

/-- Whether a given text is inert is decided by looking at it: that it blocks every kind and
resists every verb is computed, and this says that any text may follow. -/
theorem inert_of_resists {text : Text} (some : text ≠ []) (solid : isBlankBeside text.head? = false)
    (unread : ∀ kind ∈ definitionWords, blocks kind text = true)
    (resisting : ∀ verb ∈ definitionVerbs, resists verb false text = true) : Inert text := by
  refine ⟨fun rest => ?_, fun before rest verb listed => ?_⟩
  · obtain ⟨c, more, rfl⟩ := List.exists_cons_of_ne_nil some
    rw [Kindless, dropWhile_solid (by exact solid), kindWord?, List.findSome?_eq_none_iff]
    intro kind listed
    rw [dropWord?_of_blocks (unread kind listed)]
    rfl
  · exact lacks_of_resists (resisting verb listed) (by simp) rest

/-- A word that is inert stays so with marks behind it that are no letters. -/
theorem Inert.append {word marks : Text} (inert : Inert word)
    (never : ∀ c ∈ marks, c ∉ letterForms) : Inert (word ++ marks) := by
  refine ⟨fun rest => ?_, fun before rest => ?_⟩
  · rw [List.append_assoc]
    exact inert.kindless _
  · exact verbless_append (inert.verbless _ _) (verbless_of_not_letters never _ _)

/-- A verb is no kind, so nothing that begins with one is. For every verb and every kind a letter
is known where the two clash. -/
theorem Kindless.of_verb {verb : List Char} (listed : verb ∈ definitionVerbs) {word : Text}
    (spelled : Spells verb word) (tail : Text) : Kindless (word ++ tail) := by
  have apart : ∀ verb ∈ definitionVerbs, ∀ kind ∈ definitionWords, clash verb kind = true := by
    decide
  have known := definitionVerbs_known _ listed
  rw [Kindless, dropWhile_solid
    (isBlankBeside_spelled spelled known (definitionVerbs_ne_nil _ listed) tail)]
  exact spelled.kindWord?_eq_none known (apart _ listed) tail

/-- A definition is the first one, unless there is one in front of it. The text is cut in front of
its verb, where no kind begins. -/
theorem firstPlainKind?_at_verb {verb : List Char} (listed : verb ∈ definitionVerbs) {word : Text}
    (spelled : Spells verb word) {before : Option Char} {front tail kind : Text}
    (closed : endsWord (lastOf before front) = true)
    (read : (dropBlanks? tail).bind kindWord? = some kind) :
    firstPlainKind? before (front ++ (word ++ tail)) =
      (firstPlainKind? before front).or (some kind) := by
  have here := plainKind?_of_verb listed spelled closed tail
  rw [read] at here
  rw [firstPlainKind?_append closed (.of_verb listed spelled tail)]
  congr 1
  obtain ⟨c, more, rfl⟩ := List.exists_cons_of_ne_nil
    (spelled.ne_nil (definitionVerbs_ne_nil _ listed))
  rw [List.cons_append] at here ⊢
  rw [firstPlainKind?, here, Option.some_or]

/-- The character before a text matters only where the text begins with a word, and then only in
whether it ends one. No verb begins with a blank. -/
theorem firstPlainKind?_congr {before other : Option Char} {text : Text}
    (alike : isBlankBeside text.head? = true ∨ endsWord before = endsWord other) :
    firstPlainKind? before text = firstPlainKind? other text := by
  cases text with
  | nil => rfl
  | cons c rest =>
    have here : plainKind? before (c :: rest) = plainKind? other (c :: rest) := by
      rcases alike with blank | same
      · have isBlank : isBlank c = true := by simpa [isBlankBeside] using blank
        have none (before : Option Char) : plainKind? before (c :: rest) = none :=
          plainKind?_eq_none fun verb listed =>
            (verbless_of_blanks (by simpa using isBlank : ∀ d ∈ [c], _) before rest verb listed).1
        rw [none before, none other]
      · rw [plainKind?, plainKind?, same]
    rw [firstPlainKind?, firstPlainKind?, here]

end SqlRenewal
