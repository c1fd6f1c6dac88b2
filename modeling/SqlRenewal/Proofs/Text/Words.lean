import SqlRenewal.Renewal.Edit
import SqlRenewal.Proofs.Text.Letters

/-!
# Words and where they begin

`Spells` relates a keyword to its writings, and both readers of keywords are
characterised by it. `Lacks` says that a keyword begins nowhere inside a part of
a text. Whether it begins close to the end of that part depends on what follows,
so the text behind the part is an argument too. That argument may change where no
word goes over the place between the two (`Seam`).
-/
namespace SqlRenewal

/-! ### The character before a place -/

/-- Behind an empty text stands what stood before it. -/
@[simp]
theorem lastOf_nil (before : Option Char) : lastOf before [] = before := by
  simp [lastOf]

/-- Behind a text with a first character, only its own characters count. -/
@[simp]
theorem lastOf_cons (before : Option Char) (c : Char) (text : Text) :
    lastOf before (c :: text) = lastOf (some c) text := by
  simp only [lastOf, List.getLast?_cons]
  cases text.getLast? <;> simp

/-- The last character of two texts is that of the second, which begins behind the first. -/
theorem lastOf_append (before : Option Char) (first second : Text) :
    lastOf before (first ++ second) = lastOf (lastOf before first) second := by
  induction first generalizing before with
  | nil => simp
  | cons c rest inductionHypothesis => simp [inductionHypothesis]

/-- Behind a text that is not empty, its last character decides. -/
theorem lastOf_of_ne_nil {text : Text} (some : text ≠ []) (before other : Option Char) :
    lastOf before text = lastOf other text := by
  cases text with
  | nil => exact absurd rfl some
  | cons c rest => simp

/-- Behind a text that is not empty stands one of its own characters. -/
theorem lastOf_mem {text : Text} (some : text ≠ []) (before : Option Char) :
    ∃ c ∈ text, lastOf before text = Option.some c := by
  refine ⟨text.getLast some, List.getLast_mem some, ?_⟩
  simp [lastOf, List.getLast?_eq_some_getLast some]

/-! ### Spelled words -/

/-- The word is the keyword in some writing. -/
inductive Spells : List Char → Text → Prop where
  | nil : Spells [] []
  | cons {capital c : Char} {capitals : List Char} {word : Text}
      (written : writes capital c = true) (spelled : Spells capitals word) :
      Spells (capital :: capitals) (c :: word)

/-- A keyword stands at the beginning of a text exactly if the text begins with a
writing of it. -/
theorem dropKeyword?_eq_some_iff {capitals : List Char} {text rest : Text} :
    dropKeyword? capitals text = some rest ↔ ∃ word, text = word ++ rest ∧ Spells capitals word := by
  induction capitals generalizing text with
  | nil =>
    constructor
    · intro dropped
      exact ⟨[], Option.some.inj dropped, .nil⟩
    · rintro ⟨word, rfl, spelled⟩
      cases spelled
      rfl
  | cons capital capitals inductionHypothesis =>
    constructor
    · intro dropped
      cases text with
      | nil => simp [dropKeyword?] at dropped
      | cons c tail =>
        simp only [dropKeyword?] at dropped
        split at dropped
        · rename_i written
          obtain ⟨word, rfl, spelled⟩ := inductionHypothesis.mp dropped
          exact ⟨c :: word, rfl, .cons written spelled⟩
        · cases dropped
    · rintro ⟨word, rfl, spelled⟩
      cases spelled with
      | cons written spelled =>
        simp only [dropKeyword?, List.cons_append, written, if_true]
        exact inductionHypothesis.mpr ⟨_, rfl, spelled⟩

/-- A word is dropped if the text begins with a spelling of it and the word ends there. -/
theorem dropWord?_eq_some_iff {capitals : List Char} {text rest : Text} :
    dropWord? capitals text = some rest ↔
      (∃ word, text = word ++ rest ∧ Spells capitals word) ∧ endsWord rest.head? = true := by
  rw [dropWord?, Option.filter_eq_some_iff, dropKeyword?_eq_some_iff]

/-- Every character of a spelled word is a letter, being one of the forms of a capital. -/
theorem Spells.letters {capitals : List Char} {word : Text} (spelled : Spells capitals word)
    (known : capitals ⊆ capitalLetters) : ∀ c ∈ word, c ∈ letterForms := by
  induction spelled with
  | nil => simp
  | cons written _ inductionHypothesis =>
    intro c member
    rcases List.mem_cons.mp member with rfl | later
    · exact mem_letterForms (known (by simp)) written
    · exact inductionHypothesis (List.Subset.trans (List.subset_cons_self _ _) known) c later

/-- The spelling of a word is not empty. -/
theorem Spells.ne_nil {capitals : List Char} {word : Text} (spelled : Spells capitals word)
    (some : capitals ≠ []) : word ≠ [] := by
  cases spelled with
  | nil => exact absurd rfl some
  | cons => simp

/-! ### Beginnings of words -/

/-- The keyword stands at the beginning of the text as a word of its own. -/
def startsWord (capitals : List Char) (before : Option Char) (text : Text) : Bool :=
  endsWord before && (dropWord? capitals text).isSome

/-- The start of the keyword is the start of a word like any other. -/
theorem startsRaise_eq (before : Option Char) (text : Text) :
    startsRaise before text = startsWord raiseWord before text := rfl

/-- A word starts where none goes on before, and where a spelling of it stands that ends there. -/
theorem startsWord_iff {capitals : List Char} {before : Option Char} {text : Text} :
    startsWord capitals before text = true ↔ endsWord before = true ∧
      ∃ word rest, text = word ++ rest ∧ Spells capitals word ∧ endsWord rest.head? = true := by
  simp only [startsWord, Bool.and_eq_true, Option.isSome_iff_exists, dropWord?_eq_some_iff]
  constructor
  · rintro ⟨opened, rest, ⟨word, same, spelled⟩, closed⟩
    exact ⟨opened, word, rest, same, spelled, closed⟩
  · rintro ⟨opened, word, rest, same, spelled, closed⟩
    exact ⟨opened, rest, ⟨word, same, spelled⟩, closed⟩

/-- The keyword begins nowhere in `front`, where `rest` follows. -/
def Lacks (capitals : List Char) : Option Char → Text → Text → Prop
  | _, [], _ => True
  | before, c :: front, rest =>
    startsWord capitals before (c :: (front ++ rest)) = false ∧ Lacks capitals (some c) front rest

/-- A text lacks a word if each of two parts does, with what is before and behind it in view. -/
theorem lacks_append {capitals : List Char} {before : Option Char} {first second rest : Text} :
    Lacks capitals before (first ++ second) rest ↔
      Lacks capitals before first (second ++ rest) ∧
        Lacks capitals (lastOf before first) second rest := by
  induction first generalizing before with
  | nil => simp [Lacks]
  | cons c first inductionHypothesis => simp [Lacks, inductionHypothesis, and_assoc]

/-- A part without the keyword lies in front of every place where it begins. The induction goes
along the part: at none of its characters does the keyword begin. -/
theorem Lacks.before_start {capitals : List Char} {before : Option Char} {part behind front rest : Text}
    (lacking : Lacks capitals before part behind) (same : part ++ behind = front ++ rest)
    (starts : startsWord capitals (lastOf before front) rest = true) :
    ∃ more, front = part ++ more ∧ behind = more ++ rest := by
  induction part generalizing before front with
  | nil => exact ⟨front, rfl, same⟩
  | cons c part inductionHypothesis =>
    cases front with
    | nil =>
      rw [List.cons_append, List.nil_append] at same
      rw [lastOf_nil, ← same, lacking.1] at starts
      cases starts
    | cons d front =>
      obtain ⟨rfl, tails⟩ := List.cons.inj same
      obtain ⟨more, rfl, rest⟩ := inductionHypothesis lacking.2 tails (by simpa using starts)
      exact ⟨more, rfl, rest⟩

/-- Only the class of the character before a part matters. -/
theorem lacks_congr_before {capitals : List Char} {before other : Option Char} {front rest : Text}
    (same : endsWord before = endsWord other) :
    Lacks capitals before front rest ↔ Lacks capitals other front rest := by
  cases front with
  | nil => simp [Lacks]
  | cons c front => simp [Lacks, startsWord, same]

/-- A part without the first letter of a keyword lacks the keyword, whatever stands beside the
part. -/
theorem lacks_of_no_opening {capital : Char} {capitals : List Char} {front : Text}
    (never : ∀ c ∈ front, writes capital c = false) (before : Option Char) (rest : Text) :
    Lacks (capital :: capitals) before front rest := by
  induction front generalizing before with
  | nil => trivial
  | cons c front inductionHypothesis =>
    refine ⟨?_, inductionHypothesis (fun d member => never d (by simp [member])) _⟩
    simp [startsWord, dropWord?, dropKeyword?, never c (by simp)]

/-- Blanks lack every word. -/
theorem lacks_of_blanks {capital : Char} {capitals : List Char} {blanks : Text}
    (known : capital ∈ capitalLetters) (blank : ∀ c ∈ blanks, isBlank c = true)
    (before : Option Char) (rest : Text) : Lacks (capital :: capitals) before blanks rest := by
  apply lacks_of_no_opening
  intro c member
  exact writes_of_isBlank known (blank c member)

/-- No word begins inside another one. The character before is a word character at first, and each
character of the part is one for the next. -/
theorem lacks_of_inside {capitals : List Char} {before : Option Char} {front : Text}
    (inside : endsWord before = false) (word : ∀ c ∈ front, isWordChar c = true) (rest : Text) :
    Lacks capitals before front rest := by
  induction front generalizing before with
  | nil => trivial
  | cons c front inductionHypothesis =>
    refine ⟨by simp [startsWord, inside], ?_⟩
    exact inductionHypothesis (by simp [endsWord, word c (by simp)])
      (fun d member => word d (by simp [member]))

/-- What follows behind a character outside words has no part in the word before it: a word is
compared letter by letter, and ends at that character at the latest. -/
theorem dropWord?_append_isSome {capitals : List Char} (known : capitals ⊆ capitalLetters)
    (text : Text) {rest : Text} (outside : endsWord rest.head? = true) :
    (dropWord? capitals (text ++ rest)).isSome = (dropWord? capitals text).isSome := by
  induction capitals generalizing text with
  | nil =>
    cases text with
    | nil =>
      have atEnd : endsWord none = true := rfl
      simp [dropWord?, dropKeyword?, outside, atEnd]
    | cons c text => simp [dropWord?, dropKeyword?]
  | cons capital capitals inductionHypothesis =>
    cases text with
    | nil =>
      cases rest with
      | nil => rfl
      | cons c rest =>
        have unwritten : writes capital c = false := by
          cases written : writes capital c with
          | false => rfl
          | true =>
            have word := letterForms_isWordChar c (mem_letterForms (known (by simp)) written)
            simp [endsWord, word] at outside
        simp [dropWord?, dropKeyword?, unwritten]
    | cons c text =>
      have later : (dropWord? capitals (text ++ rest)).isSome = (dropWord? capitals text).isSome :=
        inductionHypothesis (List.Subset.trans (List.subset_cons_self _ _) known) text
      simp only [dropWord?, dropKeyword?, List.cons_append] at later ⊢
      split
      · exact later
      · rfl

/-- The text ends with a character outside words. -/
def EndsBetweenWords (text : Text) : Prop :=
  text ≠ [] ∧ endsWord (lastOf none text) = true

/-- What a keyword leaves of a text ends as the text does. It is not empty, because the text would
end inside the keyword. -/
theorem EndsBetweenWords.behind_keyword {capitals : List Char} (known : capitals ⊆ capitalLetters)
    {text behind : Text} (ends : EndsBetweenWords text)
    (read : dropKeyword? capitals text = some behind) :
    EndsBetweenWords behind := by
  obtain ⟨word, rfl, spelled⟩ := dropKeyword?_eq_some_iff.mp read
  obtain ⟨some, outside⟩ := ends
  have more : behind ≠ [] := by
    rintro rfl
    rw [List.append_nil] at some outside
    obtain ⟨c, member, last⟩ := lastOf_mem some none
    have word := letterForms_isWordChar c (spelled.letters known c member)
    simp [last, endsWord, word] at outside
  rw [lastOf_append, lastOf_of_ne_nil more _ none] at outside
  exact ⟨more, outside⟩

/-- A keyword is read in front of the end of the text, whatever follows: the text ends with a
character outside words, and the keyword is decided there at the latest. The induction is over the
letters. -/
theorem EndsBetweenWords.dropKeyword?_append {capitals : List Char}
    (known : capitals ⊆ capitalLetters) {text : Text} (ends : EndsBetweenWords text) (rest : Text) :
    dropKeyword? capitals (text ++ rest) = (dropKeyword? capitals text).map (· ++ rest) := by
  induction capitals generalizing text with
  | nil => rfl
  | cons capital capitals inductionHypothesis =>
    cases text with
    | nil => exact absurd rfl ends.1
    | cons c text =>
      simp only [dropKeyword?, List.cons_append]
      split
      · rename_i written
        have first : dropKeyword? [capital] (c :: text) = some text := by
          simp [dropKeyword?, written]
        have later : EndsBetweenWords text :=
          ends.behind_keyword (by simpa using known (by simp)) first
        exact inductionHypothesis (List.Subset.trans (List.subset_cons_self _ _) known) later
      · rfl

/-- Where a text ends between words, what follows it has no part in dropping a word from it. -/
theorem EndsBetweenWords.dropWord?_append {capitals : List Char} (known : capitals ⊆ capitalLetters)
    {text : Text} (ends : EndsBetweenWords text) (rest : Text) :
    dropWord? capitals (text ++ rest) = (dropWord? capitals text).map (· ++ rest) := by
  rw [dropWord?, dropWord?, ends.dropKeyword?_append known]
  cases read : dropKeyword? capitals text with
  | none => rfl
  | some behind =>
    obtain ⟨more, _⟩ := ends.behind_keyword known read
    obtain ⟨c, behind, rfl⟩ := List.exists_cons_of_ne_nil more
    rw [Option.map_some, Option.filter_some, Option.filter_some]
    change (if endsWord (some c) = true then some (c :: (behind ++ rest)) else none) =
      Option.map (· ++ rest) (if endsWord (some c) = true then some (c :: behind) else none)
    split <;> rfl

/-- What follows behind a character outside words has no part in the words up to it. -/
theorem dropWord?_append_isSome_of_last {capitals : List Char} (known : capitals ⊆ capitalLetters)
    {text : Text} (some : text ≠ []) (outside : endsWord (lastOf none text) = true) (rest : Text) :
    (dropWord? capitals (text ++ rest)).isSome = (dropWord? capitals text).isSome := by
  have ends : EndsBetweenWords text := ⟨some, outside⟩
  rw [ends.dropWord?_append known, Option.isSome_map]

/-- No word goes over the place between two texts: a character outside words stands
on one side of it. -/
def Seam (before : Option Char) (first second : Text) : Prop :=
  endsWord (lastOf before first) = true ∨ endsWord second.head? = true

/-- A seam behind a text is one behind the rest of it. -/
theorem Seam.of_cons {before : Option Char} {c : Char} {first second : Text}
    (seam : Seam before (c :: first) second) : Seam (some c) first second := by
  rw [Seam, lastOf_cons] at seam
  exact seam

/-- A word in front of a seam does not depend on what follows the seam. -/
theorem startsWord_append {capitals : List Char} (known : capitals ⊆ capitalLetters)
    {before : Option Char} {c : Char} {first second : Text}
    (seam : Seam before (c :: first) second) :
    startsWord capitals before (c :: (first ++ second)) =
      startsWord capitals before (c :: first) := by
  rw [← List.cons_append, startsWord, startsWord]
  rcases seam with closed | opened
  · rw [lastOf_of_ne_nil (List.cons_ne_nil c first) _ none] at closed
    rw [dropWord?_append_isSome_of_last known (List.cons_ne_nil c first) closed]
  · rw [dropWord?_append_isSome known (c :: first) opened]

/-- In front of a seam, a part lacks a keyword as it does alone. -/
theorem lacks_iff_alone {capitals : List Char} (known : capitals ⊆ capitalLetters)
    {before : Option Char} {front rest : Text} (seam : Seam before front rest) :
    Lacks capitals before front rest ↔ Lacks capitals before front [] := by
  induction front generalizing before with
  | nil => simp [Lacks]
  | cons c front inductionHypothesis =>
    rw [Lacks, Lacks, List.append_nil, startsWord_append known seam,
      inductionHypothesis seam.of_cons]

/-- Behind a character outside words, anything may follow. -/
theorem lacks_change_rest {capitals : List Char} (known : capitals ⊆ capitalLetters)
    {before : Option Char} {front rest : Text} (lacking : Lacks capitals before front rest)
    (outside : endsWord (lastOf before front) = true) (other : Text) :
    Lacks capitals before front other :=
  (lacks_iff_alone known (.inl outside)).mpr ((lacks_iff_alone known (.inl outside)).mp lacking)

/-- A part between characters outside words lacks a keyword as it does alone. -/
theorem Lacks.middle {capitals : List Char} (known : capitals ⊆ capitalLetters)
    {before : Option Char} {first middle last rest : Text}
    (lacking : Lacks capitals before (first ++ middle ++ last) rest)
    (opened : endsWord (lastOf before first) = true) (closed : endsWord (last ++ rest).head? = true) :
    Lacks capitals none middle [] := by
  rw [List.append_assoc, lacks_append, lacks_append] at lacking
  have alone := (lacks_iff_alone known (.inr closed)).mp lacking.2.1
  have sameClass : endsWord (lastOf before first) = endsWord none := opened
  exact (lacks_congr_before sameClass).mp alone

end SqlRenewal
