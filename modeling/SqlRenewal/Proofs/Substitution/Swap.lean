import SqlRenewal.Substitution.Deprecated
import SqlRenewal.Proofs.Raise.BareLine
import SqlRenewal.Proofs.Raise.Keyword

/-!
# What a rule takes and what it puts

A swap is the smallest change that a rule makes: a part of the text and what takes
its place. Swaps of words stand behind a character outside words; swaps of join
operators may stand anywhere, and they join what they put to the words beside it.

The words that rules and the statement pass look for are few. None of them begins
inside what a swap puts, and none of them goes on into what a join puts. Both are
decided by looking at each word and each replacement once.
-/
namespace SqlRenewal

/-! ### Words that cannot be read into a text -/

/-- Read at the beginning of the text, the keyword differs from it or is continued
by it, before the text ends. -/
def blocks : List Char → Text → Bool
  | [], c :: _ => isWordChar c
  | _, [] => false
  | capital :: capitals, c :: text => !writes capital c || blocks capitals text

/-- A word is not dropped from where another one stands in its way: a letter differs, or a word
character stands where the word would have to end. The induction is over its letters. -/
theorem dropWord?_of_blocks {capitals : List Char} {text : Text}
    (blocked : blocks capitals text = true) (rest : Text) :
    dropWord? capitals (text ++ rest) = none := by
  induction capitals generalizing text with
  | nil =>
    cases text with
    | nil => simp [blocks] at blocked
    | cons c text =>
      have word : isWordChar c = true := by simpa [blocks] using blocked
      simp [dropWord?, dropKeyword?, Option.filter, endsWord, word]
  | cons capital capitals inductionHypothesis =>
    cases text with
    | nil => simp [blocks] at blocked
    | cons c text =>
      by_cases written : writes capital c = true
      · have later : blocks capitals text = true := by simpa [blocks, written] using blocked
        have none := inductionHypothesis later
        simpa [dropWord?, dropKeyword?, written] using none
      · simp [dropWord?, dropKeyword?, written]

/-- The keyword begins nowhere in the text, whatever follows; `inside` says that a
word character stands before it. -/
def resists (capitals : List Char) : Bool → Text → Bool
  | _, [] => true
  | inside, c :: text =>
    (inside || blocks capitals (c :: text)) && resists capitals (isWordChar c) text

/-- A word is missing from a text that resists it at every place, whatever comes behind. -/
theorem lacks_of_resists {capitals : List Char} {inside : Bool} {text : Text}
    (resisting : resists capitals inside text = true) {before : Option Char}
    (joined : inside = true → endsWord before = false) (rest : Text) :
    Lacks capitals before text rest := by
  induction text generalizing before inside with
  | nil => trivial
  | cons c text inductionHypothesis =>
    simp only [resists, Bool.and_eq_true, Bool.or_eq_true] at resisting
    refine ⟨?_, inductionHypothesis resisting.2 (by simp [endsWord])⟩
    rcases resisting.1 with within | blocked
    · simp [startsWord, joined within]
    · have none := dropWord?_of_blocks blocked rest
      rw [List.cons_append] at none
      simp [startsWord, none]

/-- The keywords differ before the shorter one ends. -/
def clash : List Char → List Char → Bool
  | capital :: capitals, other :: others => capital != other || clash capitals others
  | _, _ => false

/-- A spelled word is not read as a keyword that differs from it, since a letter is known from its
writing. The induction goes along the spelling up to the first difference. -/
theorem Spells.dropWord?_eq_none {capitals others : List Char} {word : Text}
    (spelled : Spells capitals word) (known : capitals ⊆ capitalLetters)
    (otherKnown : others ⊆ capitalLetters) (clashing : clash capitals others = true) (rest : Text) :
    dropWord? others (word ++ rest) = none := by
  induction spelled generalizing others with
  | nil => simp [clash] at clashing
  | @cons capital c capitals word written spelled inductionHypothesis =>
    cases others with
    | nil => simp [clash] at clashing
    | cons other others =>
      by_cases same : writes other c = true
      · have equal : other = capital :=
          writes_unique (otherKnown (by simp)) (known (by simp)) same written
        have later : clash capitals others = true := by simpa [clash, equal] using clashing
        have none := inductionHypothesis (List.Subset.trans (List.subset_cons_self _ _) known)
          (List.Subset.trans (List.subset_cons_self _ _) otherKnown) later
        simpa [dropWord?, dropKeyword?, same] using none
      · simp [dropWord?, dropKeyword?, same]

/-- A spelled word lacks every keyword that differs from it: it is not read at the first letter,
and no keyword begins inside a word. -/
theorem Spells.lacks {capitals others : List Char} {word : Text}
    (spelled : Spells capitals word) (known : capitals ⊆ capitalLetters)
    (otherKnown : others ⊆ capitalLetters) (clashing : clash capitals others = true)
    (before : Option Char) (rest : Text) : Lacks others before word rest := by
  have none := spelled.dropWord?_eq_none known otherKnown clashing rest
  have letters := spelled.letters known
  cases word with
  | nil => trivial
  | cons c word =>
    have first := letterForms_isWordChar c (letters c (by simp))
    rw [List.cons_append] at none
    refine ⟨by simp [startsWord, none], lacks_of_inside (by simp [endsWord, first]) ?_ rest⟩
    intro d member
    exact letterForms_isWordChar d (letters d (by simp [member]))

/-! ### Swaps -/

/-- The deprecated types with what replaces them. -/
def typeNames : List (List Char × Text) :=
  [(['T', 'E', 'X', 'T'], "NVARCHAR(MAX)".toList), (['N', 'T', 'E', 'X', 'T'], "NVARCHAR(MAX)".toList),
    (['I', 'M', 'A', 'G', 'E'], "VARBINARY(MAX)".toList)]

/-- A word, or several, behind a character outside words. -/
inductive WordSwap (before : Option Char) : Text → Text → Prop where
  | typeName {capitals : List Char} {word put : Text} (listed : (capitals, put) ∈ typeNames)
      (spelled : Spells capitals word) (blank : isBlankBeside before = true) :
      WordSwap before word put
  | currentDate {word blanks inside : Text}
      (spelled : Spells ['G', 'E', 'T', 'D', 'A', 'T', 'E'] word)
      (blank : ∀ c ∈ blanks, isBlank c = true) (inner : ∀ c ∈ inside, isBlank c = true)
      (opened : endsWord before = true) :
      WordSwap before (word ++ (blanks ++ '(' :: (inside ++ [')']))) "SYSDATETIME()".toList
  | off {word : Text} (spelled : Spells ['O', 'F', 'F'] word)
      (blank : isBlankBeside before = true) : WordSwap before word ['O', 'N']
  | definition {word blanks kind : Text} {capitals : List Char}
      (spelled : Spells ['C', 'R', 'E', 'A', 'T', 'E'] word)
      (blank : ∀ c ∈ blanks, isBlank c = true) (listed : capitals ∈ definitionWords)
      (named : Spells capitals kind) (opened : endsWord before = true) :
      WordSwap before (word ++ (blanks ++ kind)) ("ALTER ".toList ++ kind)

/-- An operator of an outer join. -/
inductive JoinSwap : Text → Text → Prop where
  | left : JoinSwap ['*', '='] "LEFT JOIN".toList
  | right : JoinSwap ['=', '*'] "RIGHT JOIN".toList

/-- A change that a built-in rule makes; `joins` says whether join operators may be
among them. -/
def Swap (joins : Bool) (before : Option Char) (taken put : Text) : Prop :=
  WordSwap before taken put ∨ (joins = true ∧ JoinSwap taken put)

/-- Beside a blank no word goes on, and neither does one at the beginning of the text. -/
theorem endsWord_of_isBlankBeside {before : Option Char} (blank : isBlankBeside before = true) :
    endsWord before = true := by
  cases before with
  | none => rfl
  | some c =>
    have isBlank : isBlank c = true := by simpa [isBlankBeside] using blank
    simp [endsWord, isWordChar_of_isBlank isBlank]

/-- A swap that joins no words is a swap. -/
theorem Swap.mono {joins : Bool} {before : Option Char} {taken put : Text}
    (swap : Swap joins before taken put) : Swap true before taken put := by
  rcases swap with word | ⟨_, join⟩
  · exact .inl word
  · exact .inr ⟨rfl, join⟩

/-- Without joins only words are swapped. -/
theorem Swap.word {before : Option Char} {taken put : Text} (swap : Swap false before taken put) :
    WordSwap before taken put :=
  swap.resolve_right fun ⟨impossible, _⟩ => by cases impossible

/-- Words are swapped behind a character outside words only. Some patterns ask for a blank there,
the others for the end of a word. -/
theorem WordSwap.opened {before : Option Char} {taken put : Text}
    (swap : WordSwap before taken put) : endsWord before = true := by
  cases swap with
  | typeName listed spelled blank => exact endsWord_of_isBlankBeside blank
  | currentDate spelled blank inner opened => exact opened
  | off spelled blank => exact endsWord_of_isBlankBeside blank
  | definition spelled blank listed named opened => exact opened

/-- The names of types are spelled with letters whose forms are known. -/
theorem typeNames_known : ∀ entry ∈ typeNames, entry.1 ⊆ capitalLetters := by decide

/-- The words of definitions are spelled with letters whose forms are known. -/
theorem definitionWords_known : ∀ capitals ∈ definitionWords, capitals ⊆ capitalLetters := by decide

/-! ### Characters of a swap -/

/-- The characters that a swap puts. -/
def putForms : List Char := letterForms ++ ['(', ')', ' ']

/-- Nothing that is put contains a line break. -/
theorem putForms_isLineBreak : ∀ c ∈ putForms, isLineBreak c = false := by decide

/-- Everything that is put is made of listed characters. The cases are those of a swap, and only
the kind of a definition is not the same every time. -/
theorem Swap.put_mem {joins : Bool} {before : Option Char} {taken put : Text}
    (swap : Swap joins before taken put) : ∀ c ∈ put, c ∈ putForms := by
  rcases swap with word | ⟨_, join⟩
  · cases word with
    | typeName listed spelled blank =>
      have fixed : ∀ entry ∈ typeNames, ∀ c ∈ entry.2, c ∈ putForms := by decide
      exact fixed _ listed
    | currentDate => decide
    | off => decide
    | @definition word blanks kind capitals spelled blank listed named opened =>
      intro c member
      rcases List.mem_append.mp member with inAlter | inKind
      · have fixed : ∀ c ∈ "ALTER ".toList, c ∈ putForms := by decide
        exact fixed c inAlter
      · exact List.mem_append_left _ (named.letters (definitionWords_known _ listed) c inKind)
  · cases join <;> decide

/-- What a swap of words takes has no other characters, except blanks. The kinds of swaps are gone
through one by one. -/
theorem WordSwap.taken_mem {before : Option Char} {taken put : Text}
    (swap : WordSwap before taken put) : ∀ c ∈ taken, isBlank c = true ∨ c ∈ putForms := by
  have letters {capitals : List Char} {word : Text} (spelled : Spells capitals word)
      (known : capitals ⊆ capitalLetters) : ∀ c ∈ word, c ∈ putForms :=
    fun c member => List.mem_append_left _ (spelled.letters known c member)
  intro c member
  cases swap with
  | typeName listed spelled blank => exact .inr (letters spelled (typeNames_known _ listed) c member)
  | currentDate spelled blank inner opened =>
    simp only [List.mem_append, List.mem_cons, List.not_mem_nil, or_false] at member
    rcases member with inWord | inBlanks | rfl | inInside | rfl
    · exact .inr (letters spelled (by decide) c inWord)
    · exact .inl (blank c inBlanks)
    · exact .inr (by decide)
    · exact .inl (inner c inInside)
    · exact .inr (by decide)
  | off spelled blank => exact .inr (letters spelled (by decide) c member)
  | definition spelled blank listed named opened =>
    simp only [List.mem_append] at member
    rcases member with inWord | inBlanks | inKind
    · exact .inr (letters spelled (by decide) c inWord)
    · exact .inl (blank c inBlanks)
    · exact .inr (letters named (definitionWords_known _ listed) c inKind)

/-- The characters, blanks apart, that a swap takes. -/
def takenForms : List Char := letterForms ++ ['(', ')', '*', '=']

/-- Everything that is taken is made of blanks and listed characters. The forms of a word are
among them, and the operators of a join are checked. -/
theorem Swap.taken_mem {joins : Bool} {before : Option Char} {taken put : Text}
    (swap : Swap joins before taken put) : ∀ c ∈ taken, isBlank c = true ∨ c ∈ takenForms := by
  rcases swap with word | ⟨_, join⟩
  · have forms : ∀ c ∈ putForms, isBlank c = true ∨ c ∈ takenForms := by decide
    intro c member
    exact (word.taken_mem c member).elim .inl (forms c)
  · cases join <;> decide

/-- The characters of operators and of comment marks, and those with which they form
other operators. -/
def markForms : List Char := ['*', '=', '/', '<', '>', '!']

/-- Swaps of words keep clear of operators and comment marks: they take blanks and letters or
parentheses, and what they put is listed. -/
theorem WordSwap.unmarked {before : Option Char} {taken put : Text} (swap : WordSwap before taken put) :
    (∀ c ∈ taken, c ∉ markForms) ∧ ∀ c ∈ put, c ∉ markForms := by
  have apart : ∀ c ∈ putForms, c ∉ markForms := by decide
  have solid : ∀ c ∈ markForms, isBlank c = false := by decide
  constructor
  · intro c member marked
    rcases swap.taken_mem c member with blank | form
    · rw [solid c marked] at blank
      cases blank
    · exact apart c form marked
  · intro c member
    have listed : Swap false before taken put := .inl swap
    exact apart c (listed.put_mem c member)

/-- Behind a text without the excluded characters stands none of them. -/
theorem isNoneOf_lastOf {excluded : List Char} {text : Text} (some : text ≠ [])
    (free : ∀ c ∈ text, c ∉ excluded) (before : Option Char) :
    isNoneOf excluded (lastOf before text) = true := by
  obtain ⟨c, member, last⟩ := lastOf_mem some before
  simp [last, isNoneOf, free c member]

/-- Neither side of a swap has a comma. It is no blank and in neither list of characters, and this
keeps argument lists cut as they were. -/
theorem Swap.no_comma {joins : Bool} {before : Option Char} {taken put : Text}
    (swap : Swap joins before taken put) : (∀ c ∈ taken, c ≠ ',') ∧ ∀ c ∈ put, c ≠ ',' := by
  constructor
  · rintro c member rfl
    rcases swap.taken_mem _ member with blank | form
    · exact absurd blank (by decide)
    · exact absurd form (by decide)
  · rintro c member rfl
    exact absurd (swap.put_mem _ member) (by decide)

/-- A word begins with a letter. -/
theorem Spells.cons_of_known {capitals : List Char} {word : Text} (spelled : Spells capitals word)
    (known : capitals ⊆ capitalLetters) (some : capitals ≠ []) :
    ∃ c rest, word = c :: rest ∧ c ∈ letterForms := by
  cases word with
  | nil => exact absurd rfl (spelled.ne_nil some)
  | cons c rest => exact ⟨c, rest, rfl, spelled.letters known c (by simp)⟩

/-- A swap puts a letter first, by the cases of a swap: each of them puts a word, or begins with
one. -/
theorem Swap.put_head {joins : Bool} {before : Option Char} {taken put : Text}
    (swap : Swap joins before taken put) : ∃ c rest, put = c :: rest ∧ c ∈ letterForms := by
  rcases swap with word | ⟨_, join⟩
  · cases word with
    | typeName listed spelled blank =>
      have fixed : ∀ entry ∈ typeNames, entry.2.head?.any (letterForms.contains ·) = true := by decide
      have first := fixed _ listed
      cases put with
      | nil => simp at first
      | cons c rest => exact ⟨c, rest, rfl, by simpa using first⟩
    | currentDate => exact ⟨'S', _, rfl, by decide⟩
    | off => exact ⟨'O', _, rfl, by decide⟩
    | definition => exact ⟨'A', _, rfl, by decide⟩
  · cases join
    · exact ⟨'L', _, rfl, by decide⟩
    · exact ⟨'R', _, rfl, by decide⟩

/-- What a swap of words takes begins with a letter, because each of its kinds takes a spelled
word first. -/
theorem WordSwap.taken_head {before : Option Char} {taken put : Text}
    (swap : WordSwap before taken put) : ∃ c rest, taken = c :: rest ∧ c ∈ letterForms := by
  have first {capitals : List Char} {word : Text} (spelled : Spells capitals word)
      (known : capitals ⊆ capitalLetters) (some : capitals ≠ []) (more : Text) :
      ∃ c rest, word ++ more = c :: rest ∧ c ∈ letterForms := by
    obtain ⟨c, rest, rfl, letter⟩ := spelled.cons_of_known known some
    exact ⟨c, rest ++ more, rfl, letter⟩
  cases swap with
  | typeName listed spelled blank =>
    have nonempty : ∀ entry ∈ typeNames, entry.1 ≠ [] := by decide
    simpa using first spelled (typeNames_known _ listed) (nonempty _ listed) []
  | currentDate spelled => exact first spelled (by decide) (by decide) _
  | off spelled => simpa using first spelled (by decide) (by decide) []
  | definition spelled => exact first spelled (by decide) (by decide) _

/-- The last characters of a swap of words form no operator and no comment mark with what
follows. -/
theorem WordSwap.unmarked_last {before : Option Char} {taken put : Text}
    (swap : WordSwap before taken put) (other other' : Option Char) :
    isNoneOf markForms (lastOf other taken) = true ∧ isNoneOf markForms (lastOf other' put) = true := by
  obtain ⟨takenFree, putFree⟩ := swap.unmarked
  have listed : Swap false before taken put := .inl swap
  obtain ⟨c, more, rfl, _⟩ := swap.taken_head
  obtain ⟨d, others, rfl, _⟩ := listed.put_head
  exact ⟨isNoneOf_lastOf (List.cons_ne_nil c more) takenFree other,
    isNoneOf_lastOf (List.cons_ne_nil d others) putFree other'⟩

/-- The characters with which a swap takes up its text: letters, and those of the
operators. -/
def openingForms : List Char := letterForms ++ ['*', '=']

/-- Nothing that is taken begins with a blank. -/
theorem openingForms_isBlank : ∀ c ∈ openingForms, isBlank c = false := by decide

/-- What a swap takes begins with a letter or with an operator. These openings are where a scan
can stop at all. -/
theorem Swap.taken_head {joins : Bool} {before : Option Char} {taken put : Text}
    (swap : Swap joins before taken put) :
    ∃ c rest, taken = c :: rest ∧ c ∈ openingForms := by
  rcases swap with word | ⟨_, join⟩
  · obtain ⟨c, rest, same, letter⟩ := word.taken_head
    exact ⟨c, rest, same, List.mem_append_left _ letter⟩
  · cases join
    · exact ⟨'*', _, rfl, by decide⟩
    · exact ⟨'=', _, rfl, by decide⟩

/-- Behind a word stands its last letter. -/
theorem lastOf_spelled {capitals : List Char} {word : Text} (spelled : Spells capitals word)
    (known : capitals ⊆ capitalLetters) (some : capitals ≠ []) (before : Option Char) :
    ∃ c ∈ letterForms, lastOf before word = Option.some c := by
  obtain ⟨c, member, last⟩ := lastOf_mem (spelled.ne_nil some) before
  exact ⟨c, spelled.letters known c member, last⟩

/-- No word of a definition is empty. -/
theorem definitionWords_ne_nil : ∀ capitals ∈ definitionWords, capitals ≠ [] := by decide

/-- A swap puts no blank last: it ends in a parenthesis or in the letter of a word. -/
theorem Swap.put_last {joins : Bool} {before : Option Char} {taken put : Text}
    (swap : Swap joins before taken put) (other : Option Char) :
    isBlankBeside (lastOf other put) = false := by
  rcases swap with word | ⟨_, join⟩
  · cases word with
    | typeName listed spelled blank =>
      have fixed : ∀ entry ∈ typeNames, lastOf none entry.2 = some ')' ∧ entry.2 ≠ [] := by decide
      obtain ⟨last, nonempty⟩ := fixed _ listed
      rw [lastOf_of_ne_nil nonempty _ none, last]
      decide
    | currentDate => rfl
    | off => rfl
    | @definition word blanks kind capitals spelled blank listed named opened =>
      obtain ⟨c, letter, last⟩ := lastOf_spelled named (definitionWords_known _ listed)
        (definitionWords_ne_nil _ listed) (lastOf other "ALTER ".toList)
      rw [lastOf_append, last]
      simpa [isBlankBeside] using letterForms_isBlank c letter
  · cases join <;> rfl

/-- A join puts a letter last. -/
theorem JoinSwap.put_joined {taken put : Text} (swap : JoinSwap taken put) (other : Option Char) :
    endsWord (lastOf other put) = false := by
  cases swap <;> rfl

/-! ### Parentheses of a swap -/

/-- A balanced text is balanced in parentheses as well. -/
theorem Balanced.enclose {text : Text} (balanced : Balanced text) :
    Balanced ('(' :: (text ++ [')'])) := by
  refine ⟨?_, by simp [balanced.2, weight]⟩
  have above : StaysAbove (0 + weight '(') text := balanced.1.mono (by decide)
  rw [staysAbove_cons, staysAbove_append, balanced.2]
  exact ⟨by decide, above, by simp [weight]⟩

/-- A word is balanced, because it contains no parentheses. -/
theorem Spells.balanced {capitals : List Char} {word : Text} (spelled : Spells capitals word)
    (known : capitals ⊆ capitalLetters) : Balanced word := by
  have weightless : ∀ c ∈ letterForms, weight c = 0 := by decide
  exact balanced_of_weightless fun c member => weightless c (spelled.letters known c member)

/-- Everything that is taken is balanced. By the cases of a swap it has no parentheses, or the two
of a call without arguments. -/
theorem Swap.taken_balanced {joins : Bool} {before : Option Char} {taken put : Text}
    (swap : Swap joins before taken put) : Balanced taken := by
  rcases swap with word | ⟨_, join⟩
  · cases word with
    | typeName listed spelled blank => exact spelled.balanced (typeNames_known _ listed)
    | currentDate spelled blank inner opened =>
      refine (spelled.balanced (by decide)).append ((balanced_of_blank blank).append ?_)
      exact (balanced_of_blank inner).enclose
    | off spelled blank => exact spelled.balanced (by decide)
    | definition spelled blank listed named opened =>
      refine (spelled.balanced (by decide)).append ((balanced_of_blank blank).append ?_)
      exact named.balanced (definitionWords_known _ listed)
  · cases join <;> exact balanced_iff_closeAt?.mpr (by decide)

/-- Everything that is put is balanced. By the cases of a swap it is a fixed text, or a verb with
a kind behind it. -/
theorem Swap.put_balanced {joins : Bool} {before : Option Char} {taken put : Text}
    (swap : Swap joins before taken put) : Balanced put := by
  rcases swap with word | ⟨_, join⟩
  · cases word with
    | typeName listed spelled blank =>
      have fixed : ∀ entry ∈ typeNames, closeAt? 1 entry.2 = none ∧ balance entry.2 = 0 := by decide
      exact balanced_iff_closeAt?.mpr (fixed _ listed)
    | currentDate => exact balanced_iff_closeAt?.mpr (by decide)
    | off => exact balanced_iff_closeAt?.mpr (by decide)
    | definition spelled blank listed named opened =>
      have alter : Balanced "ALTER ".toList := balanced_iff_closeAt?.mpr (by decide)
      exact alter.append (named.balanced (definitionWords_known _ listed))
  · cases join <;> exact balanced_iff_closeAt?.mpr (by decide)

/-! ### Words around a swap -/

/-- The words that the statement pass and the rules look for, apart from those of a
definition. -/
def soughtWords : List (List Char) :=
  [raiseWord, ['T', 'E', 'X', 'T'], ['N', 'T', 'E', 'X', 'T'], ['I', 'M', 'A', 'G', 'E'],
    ['G', 'E', 'T', 'D', 'A', 'T', 'E'], ['S', 'E', 'T'],
    ['A', 'N', 'S', 'I', '_', 'N', 'U', 'L', 'L', 'S'],
    ['Q', 'U', 'O', 'T', 'E', 'D', '_', 'I', 'D', 'E', 'N', 'T', 'I', 'F', 'I', 'E', 'R'],
    ['O', 'F', 'F']]

/-- All words that rules look for are spelled with letters whose forms are known. -/
theorem soughtWords_known : ∀ capitals ∈ soughtWords, capitals ⊆ capitalLetters := by decide

/-- No sought word begins inside what a swap puts, by the kinds of swaps: what is put is fixed,
but for the kind of a definition, which is kept and is no sought word. -/
theorem Swap.put_lacks {joins : Bool} {before : Option Char} {taken put : Text}
    (swap : Swap joins before taken put) {capitals : List Char} (sought : capitals ∈ soughtWords)
    (other : Option Char) (rest : Text) : Lacks capitals other put rest := by
  have fixed {text : Text} (resisting : ∀ capitals ∈ soughtWords, resists capitals false text = true)
      (more : Text) : Lacks capitals other text more :=
    lacks_of_resists (resisting capitals sought) (by simp) more
  rcases swap with word | ⟨_, join⟩
  · cases word with
    | typeName listed spelled blank =>
      have each : ∀ entry ∈ typeNames, ∀ capitals ∈ soughtWords,
          resists capitals false entry.2 = true := by decide
      exact fixed (each _ listed) rest
    | currentDate => exact fixed (by decide) rest
    | off => exact fixed (by decide) rest
    | @definition word blanks kind kindCapitals spelled blank listed named opened =>
      have clashing : ∀ kind ∈ definitionWords, ∀ capitals ∈ soughtWords,
          clash kind capitals = true := by decide
      rw [lacks_append]
      refine ⟨fixed (by decide) _, ?_⟩
      exact named.lacks (definitionWords_known _ listed) (soughtWords_known _ sought)
        (clashing _ listed _ sought) _ rest
  · cases join
    · exact fixed (by decide) rest
    · exact fixed (by decide) rest

/-- Inside a sought word, what a join puts leads nowhere. There are two texts to put and finitely
many words, and every rest of each is checked. -/
theorem JoinSwap.blocks_drop {taken put : Text} (swap : JoinSwap taken put)
    {capitals : List Char} (sought : capitals ∈ soughtWords) {n : Nat} (inside : 0 < n)
    (before : n < capitals.length) : blocks (capitals.drop n) put = true := by
  have left : ∀ capitals ∈ soughtWords, ∀ n < capitals.length, 0 < n →
      blocks (capitals.drop n) "LEFT JOIN".toList = true := by decide
  have right : ∀ capitals ∈ soughtWords, ∀ n < capitals.length, 0 < n →
      blocks (capitals.drop n) "RIGHT JOIN".toList = true := by decide
  cases swap with
  | left => exact left capitals sought n before inside
  | right => exact right capitals sought n before inside

/-- The legacy keyword does not begin inside what a swap takes, because the words that are taken
are others. -/
theorem Swap.taken_lacks {joins : Bool} {before : Option Char} {taken put : Text}
    (swap : Swap joins before taken put) (other : Option Char) (rest : Text) :
    Lacks raiseWord other taken rest := by
  rcases swap with word | ⟨_, join⟩
  · cases word with
    | typeName listed spelled blank =>
      have clashing : ∀ entry ∈ typeNames, clash entry.1 raiseWord = true := by decide
      exact spelled.lacks (typeNames_known _ listed) raiseWord_known (clashing _ listed) other rest
    | currentDate spelled blank inner opened =>
      rw [lacks_append, lacks_append]
      refine ⟨spelled.lacks (by decide) raiseWord_known (by decide) _ _,
        lacks_of_blanks (by decide) blank _ _, ?_⟩
      rw [← List.singleton_append, lacks_append, lacks_append]
      exact ⟨lacks_of_no_opening (by decide) _ _, lacks_of_blanks (by decide) inner _ _,
        lacks_of_no_opening (by decide) _ _⟩
    | off spelled blank => exact spelled.lacks (by decide) raiseWord_known (by decide) other rest
    | definition spelled blank listed named opened =>
      have clashing : ∀ kind ∈ definitionWords, clash kind raiseWord = true := by decide
      rw [lacks_append, lacks_append]
      exact ⟨spelled.lacks (by decide) raiseWord_known (by decide) _ _,
        lacks_of_blanks (by decide) blank _ _,
        named.lacks (definitionWords_known _ listed) raiseWord_known (clashing _ listed) _ rest⟩
  · cases join <;> exact lacks_of_no_opening (by decide) _ _

end SqlRenewal
