import SqlRenewal.Proofs.Substitution.Reflection

/-!
# The matches of the built-in patterns

Each pattern in terms of the parts of the text that it matches. From these shapes
follows that one application of a rule only makes swaps: scanning goes from match
to match, keeps what is between them and replaces what they took.
-/
namespace SqlRenewal

/-! ### Shapes -/

/-- What stands before a rest is taken. -/
theorem takenBefore_append (taken rest : Text) : takenBefore (taken ++ rest) rest = taken := by
  simp [takenBefore]

/-- A word is dropped from before a rest. -/
theorem dropKeyword?_spelled {capitals : List Char} {word : Text} (spelled : Spells capitals word)
    (rest : Text) : dropKeyword? capitals (word ++ rest) = some rest :=
  dropKeyword?_eq_some_iff.mpr ⟨word, rfl, spelled⟩

/-- A text goes on behind its blanks with something else: all blanks are dropped, and there is at
least one. -/
theorem dropBlanks?_eq_some_iff {text rest : Text} :
    dropBlanks? text = some rest ↔ ∃ blanks, text = blanks ++ rest ∧ blanks ≠ [] ∧
      (∀ c ∈ blanks, isBlank c = true) ∧ isBlankBeside rest.head? = false := by
  constructor
  · intro dropped
    cases text with
    | nil => cases dropped
    | cons c text =>
      by_cases blank : isBlank c = true
      · rw [dropBlanks?, if_pos blank] at dropped
        cases dropped
        refine ⟨c :: text.takeWhile isBlank, ?_, by simp, ?_, ?_⟩
        · rw [List.cons_append, List.takeWhile_append_dropWhile]
        · intro d member
          rcases List.mem_cons.mp member with rfl | later
          · exact blank
          · exact List.all_eq_true.mp List.all_takeWhile d later
        · have stopped := List.head?_dropWhile_not isBlank text
          cases found : (text.dropWhile isBlank).head? with
          | none => rfl
          | some d =>
            rw [found] at stopped
            simpa [isBlankBeside] using stopped
      · rw [dropBlanks?, if_neg blank] at dropped
        cases dropped
  · rintro ⟨blanks, rfl, some, blank, stops⟩
    cases blanks with
    | nil => exact absurd rfl some
    | cons c blanks =>
      rw [List.cons_append, dropBlanks?, if_pos (blank c (by simp)),
        dropWhile_append_stop (fun d member => blank d (by simp [member]))]
      intro d first
      rw [Option.mem_def] at first
      simpa [isBlankBeside, first] using stops

/-- The name of a type is hit where it stands between blanks, or between a blank and an end. -/
theorem typeNameHit?_eq_some_iff {capitals : List Char} {put : Text} {before : Option Char}
    {text : Text} {hit : Hit} :
    typeNameHit? capitals put before text = some hit ↔ isBlankBeside before = true ∧
      ∃ word rest, text = word ++ rest ∧ Spells capitals word ∧
        isBlankBeside rest.head? = true ∧ hit = ⟨word, put⟩ := by
  constructor
  · intro found
    unfold typeNameHit? at found
    split at found
    · rename_i blank
      split at found
      · rename_i rest dropped
        split at found
        · rename_i closed
          obtain ⟨word, rfl, spelled⟩ := dropKeyword?_eq_some_iff.mp dropped
          rw [takenBefore_append] at found
          exact ⟨blank, word, rest, rfl, spelled, closed, (Option.some.inj found).symm⟩
        · cases found
      · cases found
    · cases found
  · rintro ⟨blank, word, rest, rfl, spelled, closed, rfl⟩
    simp [typeNameHit?, blank, dropKeyword?_spelled spelled, closed, takenBefore_append]

/-- The function is hit where it is called without arguments; everything from its name to the
parenthesis is taken. -/
theorem currentDateHit?_eq_some_iff {before : Option Char} {text : Text} {hit : Hit} :
    currentDateHit? before text = some hit ↔ endsWord before = true ∧
      ∃ word blanks inside rest, text = word ++ (blanks ++ '(' :: (inside ++ ')' :: rest)) ∧
        Spells ['G', 'E', 'T', 'D', 'A', 'T', 'E'] word ∧ (∀ c ∈ blanks, isBlank c = true) ∧
        (∀ c ∈ inside, isBlank c = true) ∧
        hit = ⟨word ++ (blanks ++ '(' :: (inside ++ [')'])), "SYSDATETIME()".toList⟩ := by
  constructor
  · intro found
    unfold currentDateHit? at found
    split at found
    · rename_i opened
      split at found
      · rename_i behind dropped
        split at found
        · rename_i inner outside
          split at found
          · rename_i rest within
            obtain ⟨word, rfl, spelled⟩ := dropKeyword?_eq_some_iff.mp dropped
            have first := List.takeWhile_append_dropWhile (p := isBlank) (l := behind)
            have second := List.takeWhile_append_dropWhile (p := isBlank) (l := inner)
            rw [outside] at first
            rw [within] at second
            have whole : word ++ behind = (word ++ (behind.takeWhile isBlank ++
                '(' :: (inner.takeWhile isBlank ++ [')']))) ++ rest := by
              simp only [List.append_assoc, List.cons_append, List.nil_append, second, first]
            rw [whole, takenBefore_append] at found
            refine ⟨opened, word, behind.takeWhile isBlank, inner.takeWhile isBlank, rest, ?_, spelled,
              List.all_eq_true.mp List.all_takeWhile, List.all_eq_true.mp List.all_takeWhile,
              (Option.some.inj found).symm⟩
            rw [second, first]
          · cases found
        · cases found
      · cases found
    · cases found
  · rintro ⟨opened, word, blanks, inside, rest, rfl, spelled, blank, inner, rfl⟩
    have outside : (blanks ++ '(' :: (inside ++ ')' :: rest)).dropWhile isBlank =
        '(' :: (inside ++ ')' :: rest) := by
      apply dropWhile_append_stop blank
      intro c first
      cases first
      decide
    have within : (inside ++ ')' :: rest).dropWhile isBlank = ')' :: rest := by
      apply dropWhile_append_stop inner
      intro c first
      cases first
      decide
    have whole : word ++ (blanks ++ '(' :: (inside ++ ')' :: rest)) =
        (word ++ (blanks ++ '(' :: (inside ++ [')']))) ++ rest := by simp
    simp only [currentDateHit?, opened, if_true, dropKeyword?_spelled spelled, outside, within]
    rw [whole, takenBefore_append]

/-- An option that is turned off: `lead` is everything in front of the last word. -/
structure OptionOff (capitals : List Char) (set gap name space : Text) : Prop where
  spelled : Spells ['S', 'E', 'T'] set
  gapSome : gap ≠ []
  gapBlank : ∀ c ∈ gap, isBlank c = true
  named : Spells capitals name
  spaceSome : space ≠ []
  spaceBlank : ∀ c ∈ space, isBlank c = true

/-- The options that the built-in rules look for. -/
def optionNames : List (List Char) :=
  [['A', 'N', 'S', 'I', '_', 'N', 'U', 'L', 'L', 'S'],
    ['Q', 'U', 'O', 'T', 'E', 'D', '_', 'I', 'D', 'E', 'N', 'T', 'I', 'F', 'I', 'E', 'R']]

/-- The names of options are among the words that rules look for. -/
theorem optionNames_sought : ∀ capitals ∈ optionNames, capitals ∈ soughtWords := by decide

/-- The names of options are spelled with letters whose forms are known. -/
theorem optionNames_known : ∀ capitals ∈ optionNames, capitals ⊆ capitalLetters := by decide

/-- No name of an option is empty. -/
theorem optionNames_ne_nil : ∀ capitals ∈ optionNames, capitals ≠ [] := by decide

/-- Behind the first words of an option its value decides, since words and blanks can be told
apart in one way only. -/
theorem OptionOff.hit?_eq {capitals : List Char} {set gap name space : Text}
    (option : OptionOff capitals set gap name space) (listed : capitals ∈ optionNames)
    {before : Option Char} (opened : endsWord before = true) {value : Text}
    (solid : isBlankBeside value.head? = false) :
    optionOffHit? capitals before (set ++ (gap ++ (name ++ (space ++ value)))) =
      (dropWord? ['O', 'F', 'F'] value).map fun rest =>
        ⟨takenBefore (set ++ (gap ++ (name ++ (space ++ value)))) rest,
          set ++ (gap ++ (name ++ space)) ++ ['O', 'N']⟩ := by
  have afterSet : dropBlanks? (gap ++ (name ++ (space ++ value))) = some (name ++ (space ++ value)) :=
    dropBlanks?_eq_some_iff.mpr ⟨gap, rfl, option.gapSome, option.gapBlank,
      isBlankBeside_spelled option.named (optionNames_known _ listed) (optionNames_ne_nil _ listed) _⟩
  have afterName : dropBlanks? (space ++ value) = some value :=
    dropBlanks?_eq_some_iff.mpr ⟨space, rfl, option.spaceSome, option.spaceBlank, solid⟩
  have lead : takenBefore (set ++ (gap ++ (name ++ (space ++ value)))) value =
      set ++ (gap ++ (name ++ space)) := by
    have whole : set ++ (gap ++ (name ++ (space ++ value))) =
        (set ++ (gap ++ (name ++ space))) ++ value := by simp
    rw [whole, takenBefore_append]
  simp only [optionOffHit?, opened, if_true, dropKeyword?_spelled option.spelled, Option.bind_some,
    afterSet, dropKeyword?_spelled option.named, afterName, lead]
  cases dropWord? ['O', 'F', 'F'] value <;> rfl

/-- A switched off option is hit as a whole: its three words with the blanks between them. -/
theorem optionOffHit?_eq_some_iff {capitals : List Char} (listed : capitals ∈ optionNames)
    {before : Option Char} {text : Text} {hit : Hit} :
    optionOffHit? capitals before text = some hit ↔ endsWord before = true ∧
      ∃ set gap name space off rest,
        text = set ++ (gap ++ (name ++ (space ++ (off ++ rest)))) ∧
        OptionOff capitals set gap name space ∧ Spells ['O', 'F', 'F'] off ∧
        endsWord rest.head? = true ∧
        hit = ⟨set ++ (gap ++ (name ++ space)) ++ off, set ++ (gap ++ (name ++ space)) ++ ['O', 'N']⟩ := by
  constructor
  · intro found
    have original := found
    unfold optionOffHit? at found
    split at found
    · rename_i opened
      split at found
      · rename_i named readSet
        split at found
        · rename_i value readName
          obtain ⟨behind, dropped, blanks⟩ := Option.bind_eq_some_iff.mp readSet
          obtain ⟨set, rfl, spelled⟩ := dropKeyword?_eq_some_iff.mp dropped
          obtain ⟨gap, rfl, gapSome, gapBlank, _⟩ := dropBlanks?_eq_some_iff.mp blanks
          obtain ⟨behind', dropped', blanks'⟩ := Option.bind_eq_some_iff.mp readName
          obtain ⟨name, rfl, nameSpelled⟩ := dropKeyword?_eq_some_iff.mp dropped'
          obtain ⟨space, rfl, spaceSome, spaceBlank, solid⟩ := dropBlanks?_eq_some_iff.mp blanks'
          have option : OptionOff capitals set gap name space :=
            ⟨spelled, gapSome, gapBlank, nameSpelled, spaceSome, spaceBlank⟩
          rw [option.hit?_eq listed opened solid] at original
          obtain ⟨rest, readOff, same⟩ := Option.map_eq_some_iff.mp original
          obtain ⟨⟨off, rfl, offSpelled⟩, closed⟩ := dropWord?_eq_some_iff.mp readOff
          refine ⟨opened, set, gap, name, space, off, rest, rfl, option, offSpelled, closed, ?_⟩
          have whole : set ++ (gap ++ (name ++ (space ++ (off ++ rest)))) =
              (set ++ (gap ++ (name ++ space)) ++ off) ++ rest := by simp
          rw [whole, takenBefore_append] at same
          exact same.symm
        · cases found
      · cases found
    · cases found
  · rintro ⟨opened, set, gap, name, space, off, rest, rfl, option, spelled, closed, rfl⟩
    have solid := isBlankBeside_spelled spelled (by decide) (by decide) rest
    have read := dropWord?_eq_some_iff.mpr ⟨⟨off, rfl, spelled⟩, closed⟩
    have whole : set ++ (gap ++ (name ++ (space ++ (off ++ rest)))) =
        (set ++ (gap ++ (name ++ space)) ++ off) ++ rest := by simp
    rw [option.hit?_eq listed opened solid, read, Option.map_some, whole, takenBefore_append]

/-- The opening of a definition is hit where its verb is followed by blanks and a kind; only the
verb is changed. -/
theorem definitionHit?_eq_some {before : Option Char} {text : Text} {hit : Hit}
    (found : definitionHit? before text = some hit) : endsWord before = true ∧
      ∃ word blanks capitals kind rest, text = word ++ (blanks ++ (kind ++ rest)) ∧
        Spells ['C', 'R', 'E', 'A', 'T', 'E'] word ∧ blanks ≠ [] ∧ (∀ c ∈ blanks, isBlank c = true) ∧
        capitals ∈ definitionWords ∧ Spells capitals kind ∧
        dropOneWord? definitionWords (kind ++ rest) = some (capitals, rest) ∧
        hit = ⟨word ++ (blanks ++ kind), "ALTER ".toList ++ kind⟩ := by
  unfold definitionHit? at found
  split at found
  · rename_i opened
    split at found
    · rename_i named readWord
      split at found
      · rename_i capitals rest readKind
        obtain ⟨behind, dropped, blanks⟩ := Option.bind_eq_some_iff.mp readWord
        obtain ⟨word, rfl, spelled⟩ := dropKeyword?_eq_some_iff.mp dropped
        obtain ⟨gap, rfl, some, blank, _⟩ := dropBlanks?_eq_some_iff.mp blanks
        obtain ⟨other, listed, read⟩ := List.exists_of_findSome?_eq_some readKind
        obtain ⟨behind', dropped', same⟩ := Option.map_eq_some_iff.mp read
        cases same
        obtain ⟨⟨kind, rfl, named⟩, _⟩ := dropWord?_eq_some_iff.mp dropped'
        refine ⟨opened, word, gap, capitals, kind, rest, rfl, spelled, some, blank, listed, named,
          readKind, ?_⟩
        have whole : word ++ (gap ++ (kind ++ rest)) = (word ++ (gap ++ kind)) ++ rest := by simp
        rw [takenBefore_append, whole, takenBefore_append] at found
        exact (Option.some.inj found).symm
      · cases found
    · cases found
  · cases found

/-- The operator of an outer join. -/
def JoinSide.operator : JoinSide → Text
  | .left => ['*', '=']
  | .right => ['=', '*']

/-- What is written for the operator. -/
def JoinSide.written : JoinSide → Text
  | .left => "LEFT JOIN".toList
  | .right => "RIGHT JOIN".toList

/-- Behind these characters the operator is something else. -/
def JoinSide.barredBefore : JoinSide → List Char
  | .left => ['/', '*']
  | .right => ['=', '*', '<', '>', '!']

/-- In front of these characters the operator is something else. -/
def JoinSide.barredBehind : JoinSide → List Char
  | .left => ['*', '=']
  | .right => ['*', '/']

/-- An operator is not empty. -/
theorem JoinSide.operator_ne_nil (side : JoinSide) : side.operator ≠ [] := by
  cases side with
  | left => decide
  | right => decide

/-- What is written for an operator is not empty, and has no characters of marks. -/
theorem JoinSide.written_unmarked (side : JoinSide) :
    side.written ≠ [] ∧ ∀ c ∈ side.written, c ∉ markForms := by
  cases side with
  | left => decide
  | right => decide

/-- An operator is hit where it stands between characters that may be beside it. The cases are the
two operators, of which the text begins with one at most. -/
theorem outerJoinHit?_eq_some_iff {side : JoinSide} {before : Option Char} {text : Text} {hit : Hit} :
    outerJoinHit? side before text = some hit ↔
      ∃ rest, text = side.operator ++ rest ∧ isNoneOf side.barredBefore before = true ∧
        isNoneOf side.barredBehind rest.head? = true ∧ hit = ⟨side.operator, side.written⟩ := by
  constructor
  · intro found
    unfold outerJoinHit? at found
    split at found
    · rename_i rest
      split at found
      · rename_i free
        rw [Bool.and_eq_true] at free
        exact ⟨rest, rfl, free.1, free.2, (Option.some.inj found).symm⟩
      · cases found
    · rename_i rest
      split at found
      · rename_i free
        rw [Bool.and_eq_true] at free
        exact ⟨rest, rfl, free.1, free.2, (Option.some.inj found).symm⟩
      · cases found
    · cases found
  · rintro ⟨rest, rfl, before, behind, rfl⟩
    cases side with
    | left => exact if_pos (Bool.and_eq_true_iff.mpr ⟨before, behind⟩)
    | right => exact if_pos (Bool.and_eq_true_iff.mpr ⟨before, behind⟩)

/-- A join is swapped for words. -/
theorem JoinSide.swap (side : JoinSide) : JoinSwap side.operator side.written := by
  cases side with
  | left => exact .left
  | right => exact .right

/-- A hit of a join swaps an operator for words. -/
theorem outerJoinHit?_eq_some {side : JoinSide} {before : Option Char} {text : Text} {hit : Hit}
    (found : outerJoinHit? side before text = some hit) :
    ∃ rest, text = hit.taken ++ rest ∧ JoinSwap hit.taken hit.put := by
  obtain ⟨rest, same, _, _, rfl⟩ := outerJoinHit?_eq_some_iff.mp found
  exact ⟨rest, same, side.swap⟩

end SqlRenewal
