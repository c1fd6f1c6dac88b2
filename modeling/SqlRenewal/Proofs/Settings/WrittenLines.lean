import SqlRenewal.CommandLine.Invocation
import SqlRenewal.Proofs.Routine.Naming
import SqlRenewal.Proofs.Settings.Assignments
import SqlRenewal.Proofs.Work.Restoration

/-!
# Settings files that are read back

A settings file is written line by line. A line may be blank, a comment, or without an
equals sign; otherwise it assigns a value, which may stand in quotes, to a key. What is
read from the file are the assigned keys, in the order of their first assignments, each
with the last value that was assigned to it.

A line is read by itself: cutting the file at its line breaks gives back the lines, up to
an empty one at the end. In an assignment the first equals sign is the one that was
written, since a key has none, and all that trimming takes are the blanks and the quotes
that were put around key and value.
-/
namespace SqlRenewal

/-! ### Trimming -/

namespace Text

/-- Trimming takes margins away and stops at the ends of what is between them, where no character
is one of a margin. -/
theorem trimWhile_margins {drop : Char → Bool} {left middle right : Text}
    (leftDropped : ∀ c ∈ left, drop c = true) (rightDropped : ∀ c ∈ right, drop c = true)
    (ends : ∀ c, middle.head? = some c ∨ middle.getLast? = some c → drop c = false) :
    trimWhile drop (left ++ (middle ++ right)) = middle := by
  cases middle with
  | nil =>
    have all : ∀ c ∈ left ++ ([] ++ right), drop c = true := by
      intro c member
      rw [List.nil_append, List.mem_append] at member
      exact member.elim (leftDropped c) (rightDropped c)
    rw [trimWhile, List.dropWhile_eq_nil_iff.mpr all]
    rfl
  | cons first rest =>
    have front : (left ++ (first :: rest ++ right)).dropWhile drop = first :: rest ++ right := by
      apply dropWhile_append_stop leftDropped
      intro c head
      exact ends c (.inl head)
    have behind : (right.reverse ++ (first :: rest).reverse).dropWhile drop =
        (first :: rest).reverse := by
      apply dropWhile_append_stop
      · exact fun c member => rightDropped c (List.mem_reverse.mp member)
      · intro c head
        rw [Option.mem_def, List.head?_reverse] at head
        exact ends c (.inr head)
    rw [trimWhile, front, trimRightWhile, List.reverse_append, behind, List.reverse_reverse]

/-- The first and the last character of a text. -/
def ends (text : Text) : List Char :=
  text.head?.toList ++ text.getLast?.toList

/-- What holds of both ends of a text holds of its first and of its last character. -/
theorem forall_ends {claim : Char → Prop} {text : Text} (both : ∀ c ∈ text.ends, claim c) :
    ∀ c, text.head? = some c ∨ text.getLast? = some c → claim c := by
  rintro c (first | last)
  · exact both c (List.mem_append_left _ (Option.mem_toList.mpr first))
  · exact both c (List.mem_append_right _ (Option.mem_toList.mpr last))

/-- A text without a separator is not broken. Halves would be the text again with the separator
between them. -/
theorem breakAt?_of_not_mem {separator : Char} {text : Text} (absent : separator ∉ text) :
    breakAt? separator text = none := by
  cases broken : breakAt? separator text with
  | none => rfl
  | some halves =>
    rw [eq_of_breakAt? broken] at absent
    simp at absent

end Text

/-! ### Lines of a text -/

/-- What has no line break in it belongs to the next line. The induction goes along these
characters, none of which is a carriage return that could begin a pair. -/
theorem nextLine_append {line : Text} (unbroken : ∀ c ∈ line, endsLine c = false) (rest : Text) :
    nextLine (line ++ rest) = (line ++ (nextLine rest).1, (nextLine rest).2) := by
  induction line with
  | nil => rfl
  | cons c line inductionHypothesis =>
    have inside := unbroken c (by simp)
    have notReturn : c ≠ '\r' := by
      rintro rfl
      cases inside
    have later := inductionHypothesis fun d member => unbroken d (by simp [member])
    rw [List.cons_append, nextLine]
    · simp [inside, later]
    · rintro _ impossible
      exact absurd impossible notReturn

/-- A line without breaks before a line break is the first of the lines. -/
theorem splitLines_unbroken {line : Text} (unbroken : ∀ c ∈ line, endsLine c = false) (rest : Text) :
    splitLines (line ++ '\n' :: rest) = line :: splitLines rest := by
  have broken : nextLine ('\n' :: rest) = ([], rest) := rfl
  have read := nextLine_append unbroken ('\n' :: rest)
  rw [broken, List.append_nil] at read
  cases line with
  | nil => rw [List.nil_append, splitLines, ← List.nil_append ('\n' :: rest), read]
  | cons c line => rw [List.cons_append, splitLines, ← List.cons_append, read]

/-- Behind the last line break stands one line more, unless nothing does. It runs to the end of
the text, and behind it nothing is left to split. -/
theorem splitLines_last {line : Text} (unbroken : ∀ c ∈ line, endsLine c = false) :
    splitLines line = if line = [] then [] else [line] := by
  have atEnd : nextLine [] = ([], []) := rfl
  have read := nextLine_append unbroken []
  rw [atEnd, List.append_nil] at read
  cases line with
  | nil => rw [splitLines, if_pos rfl]
  | cons c line => rw [splitLines, read, splitLines, if_neg (List.cons_ne_nil c line)]

namespace Dotenv

/-! ### What a line says -/

/-- A line that assigns nothing. -/
inductive Silent : Text → Prop where
  | blank {line : Text} (blank : ∀ c ∈ line, isBlank c = true) : Silent line
  | comment {indent remark : Text} (blank : ∀ c ∈ indent, isBlank c = true) :
      Silent (indent ++ '#' :: remark)
  | unassigned {line : Text} (absent : '=' ∉ line) : Silent line

/-- The parts of a line that assigns a value to a key. -/
structure Assignment (key gap space quote value : Text) : Prop where
  keySome : key ≠ []
  keyUndivided : '=' ∉ key
  keyEnds : ∀ c, key.head? = some c ∨ key.getLast? = some c → isBlank c = false
  keyStart : key.head? ≠ some '#'
  gapBlank : ∀ c ∈ gap, isBlank c = true
  spaceBlank : ∀ c ∈ space, isBlank c = true
  quoted : quote = [] ∨ quote = ['\''] ∨ quote = ['"']
  valueEnds : ∀ c, value.head? = some c ∨ value.getLast? = some c →
    isBlank c = false ∧ isQuote c = false

/-- Lines of a settings file with the assignments that they make. -/
inductive Written : List Text → List (Text × Text) → Prop where
  | nil : Written [] []
  | silent {line : Text} {lines : List Text} {pairs : List (Text × Text)} (silent : Silent line)
      (later : Written lines pairs) : Written (line :: lines) pairs
  | assignment {key gap space quote value : Text} {lines : List Text} {pairs : List (Text × Text)}
      (assignment : Assignment key gap space quote value) (later : Written lines pairs) :
      Written ((key ++ gap ++ '=' :: (space ++ (quote ++ value ++ quote))) :: lines)
        ((key, value) :: pairs)

/-- A silent line assigns nothing: it is blank, or a comment, or has no equals sign. -/
theorem assignment?_of_silent {line : Text} (silent : Silent line) : assignment? line = none := by
  have unassigned {line : Text} (absent : '=' ∉ line) : assignment? line = none := by
    have absent' : '=' ∉ Text.trim line := fun member => absent (Text.mem_of_mem_trimWhile member)
    rw [assignment?, Text.breakAt?_of_not_mem absent']
    simp
  cases silent with
  | blank blank =>
    apply unassigned
    intro member
    exact absurd (blank '=' member) (by decide)
  | @comment indent remark blank =>
    have front : (indent ++ '#' :: remark).dropWhile isBlank = '#' :: remark := by
      apply dropWhile_append_stop blank
      intro c head
      cases head
      decide
    obtain ⟨more, trimmed⟩ := Text.trimRight_cons (c := '#') (by decide) remark
    have content : Text.trim (indent ++ '#' :: remark) = '#' :: more := by
      rw [Text.trim, Text.trimWhile, front]
      exact trimmed
    rw [assignment?, content]
    rfl
  | unassigned absent => exact unassigned absent

namespace Assignment

variable {key gap space quote value : Text} (assignment : Assignment key gap space quote value)

include assignment

/-- Quotes stand at the ends of the value, or else the value itself has solid ends. -/
theorem solid_ends {c : Char} (atEnd : (quote ++ value ++ quote).head? = some c ∨
    (quote ++ value ++ quote).getLast? = some c) : isBlank c = false := by
  have quotes (q : Char) (solid : isBlank q = false) (same : quote = [q]) : isBlank c = false := by
    rw [same] at atEnd
    have only : c = q := by
      rcases atEnd with first | last
      · exact (Option.some.inj first).symm
      · rw [List.getLast?_concat] at last
        exact (Option.some.inj last).symm
    rw [only]
    exact solid
  rcases assignment.quoted with none | single | double
  · rw [none, List.nil_append, List.append_nil] at atEnd
    exact (assignment.valueEnds c atEnd).1
  · exact quotes '\'' (by decide) single
  · exact quotes '"' (by decide) double

/-- Nothing of a line is trimmed away in front of its equals sign, and behind it blanks at
most. -/
theorem trim_line : ∃ tail, Text.trim (key ++ gap ++ '=' :: (space ++ (quote ++ value ++ quote))) =
      key ++ gap ++ '=' :: tail ∧ Text.trim tail = quote ++ value ++ quote := by
  have first (behind : Text) : (key ++ gap ++ behind).head? = key.head? := by
    rw [List.append_assoc, List.head?_append, List.head?_eq_some_head assignment.keySome]
    rfl
  have solid (middle : Text) (last : ∀ c, middle.getLast? = some c → isBlank c = false)
      (some : middle ≠ []) : ∀ c, (key ++ gap ++ middle).head? = .some c ∨
        (key ++ gap ++ middle).getLast? = .some c → isBlank c = false := by
    intro c atEnd
    rw [first, List.getLast?_append, List.getLast?_eq_some_getLast some] at atEnd
    rcases atEnd with atStart | atEnd
    · exact assignment.keyEnds c (.inl atStart)
    · exact last c (by rw [List.getLast?_eq_some_getLast some]; exact atEnd)
  by_cases empty : quote ++ value ++ quote = []
  · -- Without quotes and without a value, the equals sign ends the line.
    refine ⟨[], ?_, by rw [empty]; rfl⟩
    have equals : ∀ c, (['='] : Text).getLast? = some c → isBlank c = false := by
      rintro c ⟨⟩
      decide
    have trimmed := Text.trimWhile_margins (List.forall_mem_nil _) assignment.spaceBlank
      (solid ['='] equals (by simp))
    rw [empty, List.append_nil]
    simpa [Text.trim] using trimmed
  · refine ⟨space ++ (quote ++ value ++ quote), ?_, ?_⟩
    · refine Text.trimWhile_eq_self (solid _ ?_ (by simp))
      intro c last
      rw [← List.singleton_append, ← List.append_assoc, List.getLast?_append,
        List.getLast?_eq_some_getLast empty] at last
      exact assignment.solid_ends (.inr (by rw [List.getLast?_eq_some_getLast empty]; exact last))
    · have trimmed := Text.trimWhile_margins assignment.spaceBlank (List.forall_mem_nil _)
        fun c => assignment.solid_ends
      rwa [List.append_nil] at trimmed

/-- A line is read as the assignment that was written: its margins are trimmed, it is broken at
its first equals sign, and the quotes around the value are taken off. -/
theorem assignment?_eq :
    assignment? (key ++ gap ++ '=' :: (space ++ (quote ++ value ++ quote))) = some (key, value) := by
  obtain ⟨tail, content, trimmed⟩ := assignment.trim_line
  have uncommented : (key ++ gap ++ '=' :: tail).head? ≠ some '#' := by
    rw [List.append_assoc, List.head?_append, List.head?_eq_some_head assignment.keySome]
    simpa [List.head?_eq_some_head assignment.keySome] using assignment.keyStart
  have undivided : '=' ∉ key ++ gap := by
    rw [List.mem_append, not_or]
    refine ⟨assignment.keyUndivided, ?_⟩
    intro member
    exact absurd (assignment.gapBlank '=' member) (by decide)
  have keyRead : Text.trim (key ++ gap) = key := by
    have margins := Text.trimWhile_margins (List.forall_mem_nil _) assignment.gapBlank
      assignment.keyEnds
    simpa [Text.trim] using margins
  have quotes : ∀ c ∈ quote, isQuote c = true := by
    rcases assignment.quoted with rfl | rfl | rfl
    · simp
    · simp [isQuote]
    · simp [isQuote]
  have valueRead : Text.trimWhile isQuote (Text.trim tail) = value := by
    rw [trimmed, List.append_assoc]
    exact Text.trimWhile_margins quotes quotes fun c atEnd => (assignment.valueEnds c atEnd).2
  simp only [assignment?, content, if_neg uncommented, Folder.breakAt?_append undivided, keyRead,
    valueRead, if_neg assignment.keySome]

end Assignment

/-! ### The file -/

/-- Written lines give the pairs that they were written for, line by line: a silent line gives
none, and an assignment its own. -/
theorem Written.filterMap_eq {lines : List Text} {pairs : List (Text × Text)}
    (written : Written lines pairs) : lines.filterMap assignment? = pairs := by
  induction written with
  | nil => rfl
  | silent silent later inductionHypothesis =>
    rw [List.filterMap_cons_none (assignment?_of_silent silent), inductionHypothesis]
  | assignment assignment later inductionHypothesis =>
    rw [List.filterMap_cons_some assignment.assignment?_eq, inductionHypothesis]

/-- The lines of a file say what the written lines say. Only an empty line at the end is lost. -/
theorem filterMap_splitLines {lines : List Text}
    (unbroken : ∀ line ∈ lines, ∀ c ∈ line, endsLine c = false) :
    (splitLines (Text.join ['\n'] lines)).filterMap assignment? = lines.filterMap assignment? := by
  fun_induction Text.join ['\n'] lines with
  | case1 => simp [splitLines]
  | case2 last =>
    rw [splitLines_last (unbroken last (by simp))]
    split
    · rename_i empty
      rw [empty]
      rfl
    · rfl
  | case3 first second rest inductionHypothesis =>
    rw [List.append_assoc, List.singleton_append, splitLines_unbroken (unbroken first (by simp)),
      List.filterMap_cons, List.filterMap_cons,
      inductionHypothesis fun line member => unbroken line (List.mem_cons_of_mem first member)]

/-- A file of written lines is read as the assignments of their pairs: it is cut into the lines of
which it was joined, and each of them is read on its own. -/
theorem Written.read_eq {lines : List Text} {pairs : List (Text × Text)}
    (written : Written lines pairs) (unbroken : ∀ line ∈ lines, ∀ c ∈ line, endsLine c = false) :
    read (Text.join ['\n'] lines) = assignAll pairs [] := by
  rw [read, addLines_eq, filterMap_splitLines unbroken, written.filterMap_eq]

/-- Assigned from nothing, a value stands beside a key exactly if the last pair that names the
key gives it this value. -/
theorem mem_assignAll_iff {pairs : List (Text × Text)} {key value : Text} :
    (key, value) ∈ assignAll pairs [] ↔
      (pairs.filter fun pair => pair.1 = key).getLast? = some (key, value) := by
  have distinct : ((assignAll pairs []).map Prod.fst).Nodup := nodup_assignAll pairs (by simp)
  rw [← valueOf?_eq_some_iff distinct, valueOf?_assignAll]
  cases last : (pairs.filter fun pair => pair.1 = key).getLast? with
  | none => simp [valueOf?]
  | some pair =>
    obtain ⟨_, named⟩ := List.mem_filter.mp (List.mem_of_getLast? last)
    have same : pair.1 = key := by simpa using named
    rw [Option.map_some, Option.some_or, Option.some.injEq, Option.some.injEq, Prod.ext_iff]
    exact ⟨fun value => ⟨same, value⟩, And.right⟩

/-- Lines without breaks that are joined have no carriage return: none is in a line, and what
joins them is a line feed. -/
theorem no_return_join {lines : List Text}
    (unbroken : ∀ line ∈ lines, ∀ c ∈ line, endsLine c = false) : '\r' ∉ Text.join ['\n'] lines := by
  have inside {line : Text} (listed : line ∈ lines) : '\r' ∉ line := by
    intro member
    exact absurd (unbroken line listed '\r' member) (by decide)
  fun_induction Text.join ['\n'] lines with
  | case1 => simp
  | case2 last => exact inside (by simp)
  | case3 first second rest inductionHypothesis =>
    have later := inductionHypothesis
      (fun line member => unbroken line (List.mem_cons_of_mem first member))
      fun member => inside (List.mem_cons_of_mem first member)
    simp [inside List.mem_cons_self, later]

/-- A settings file of lines without line breaks is read: its keys are the assigned ones, in
the order of their first assignments, and beside each stands its last value. -/
theorem readSettingsFile_written {lines : List Text} {pairs : List (Text × Text)}
    (written : Written lines pairs) (unbroken : ∀ line ∈ lines, ∀ c ∈ line, endsLine c = false)
    {files : Tree} {path : Text} (named : path ≠ [])
    (stands : files.look (Path.ofText path) =
      .ok (.file (Utf8.encode (Text.join ['\n'] lines)))) :
    ∃ values, readSettingsFile files (some path) = .ok values ∧
      values.map Prod.fst = (pairs.map Prod.fst).eraseDups ∧
      ∀ key value, (key, value) ∈ values ↔
        (pairs.filter fun pair => pair.1 = key).getLast? = some (key, value) := by
  have there : files.holds (Path.ofText path) = .ok true := by rw [Tree.holds, stands]
  have content : files.readText (Path.ofText path) = .ok (Text.join ['\n'] lines) := by
    rw [Tree.readText_of_characters? (Tree.characters?_of_look stands),
      unifyLineBreaks_of_no_return (no_return_join unbroken)]
  refine ⟨assignAll pairs [], ?_, ?_, fun key value => mem_assignAll_iff⟩
  · have given : (some path).filter (· ≠ []) = some path := by simp [named]
    rw [readSettingsFile, given]
    simp only [there, content, Except.map, written.read_eq unbroken]
  · rw [map_fst_assignAll]
    simp

/-- A comment and a value with an equals sign, a value without characters, a line that assigns
nothing, and a key that is assigned twice. -/
theorem readSettingsFile_written_twice :
    let lines := ["# A=0".toList, "B = 'x = #1'".toList, "é\u00a0=\t".toList, "none".toList,
      "B=2".toList]
    let pairs := [("B".toList, "x = #1".toList), ("é".toList, []), ("B".toList, "2".toList)]
    let files : Tree := ⟨[(.ofString ".env", .file (Utf8.encode (Text.join ['\n'] lines)))]⟩
    Written lines pairs ∧ (∀ line ∈ lines, ∀ c ∈ line, endsLine c = false) ∧
      files.look (Path.ofText ".env".toList) = .ok (.file (Utf8.encode (Text.join ['\n'] lines))) ∧
      ∃ values, readSettingsFile files (some ".env".toList) = .ok values ∧
        values.map Prod.fst = ["B".toList, "é".toList] ∧
        ("B".toList, "2".toList) ∈ values ∧ ("B".toList, "x = #1".toList) ∉ values := by
  intro lines pairs files
  have quoted : Assignment ['B'] [' '] [' '] ['\''] "x = #1".toList :=
    { keySome := by decide
      keyUndivided := by decide
      keyEnds := Text.forall_ends (by decide)
      keyStart := by decide
      gapBlank := by decide
      spaceBlank := by decide
      quoted := by decide
      valueEnds := Text.forall_ends (by decide) }
  have empty : Assignment ['é'] ['\u00a0'] ['\t'] [] [] :=
    { keySome := by decide
      keyUndivided := by decide
      keyEnds := Text.forall_ends (by decide)
      keyStart := by decide
      gapBlank := by decide
      spaceBlank := by decide
      quoted := by decide
      valueEnds := Text.forall_ends (by decide) }
  have bare : Assignment ['B'] [] [] [] ['2'] :=
    { keySome := by decide
      keyUndivided := by decide
      keyEnds := Text.forall_ends (by decide)
      keyStart := by decide
      gapBlank := by decide
      spaceBlank := by decide
      quoted := by decide
      valueEnds := Text.forall_ends (by decide) }
  have written : Written lines pairs :=
    .silent (.comment (List.forall_mem_nil _)) (.assignment quoted (.assignment empty
      (.silent (.unassigned (by decide)) (.assignment bare .nil))))
  have unbroken : ∀ line ∈ lines, ∀ c ∈ line, endsLine c = false := by decide
  have stands : files.look (Path.ofText ".env".toList) =
      .ok (.file (Utf8.encode (Text.join ['\n'] lines))) := by decide +kernel
  obtain ⟨values, read, keys, lasting⟩ :=
    readSettingsFile_written written unbroken (by decide) stands
  refine ⟨written, unbroken, stands, values, read, by rw [keys]; decide, ?_, ?_⟩
  · rw [lasting]
    decide
  · rw [lasting]
    decide

end Dotenv

end SqlRenewal
