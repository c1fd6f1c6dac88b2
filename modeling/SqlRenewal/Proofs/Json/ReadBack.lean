import SqlRenewal.Json.Printer
import SqlRenewal.Json.Reader

/-!
# Reading what was written

A value written on one line is read back as it is, whatever stands behind it, as long
as an integer at its end is not continued by more digits. No line break occurs in what
is written, since strings are written with their control characters escaped.

The reader is bounded. Each step that it takes is paid for by a character of the text, so
twice the length of the text is enough.
-/
namespace SqlRenewal.Json

/-! ### Strings -/

/-- The digits of a control character denote its code point. There are only 32 of them, so their
four digits are checked one by one; none is half of a pair. -/
theorem readText_control : ∀ n < 0x20, ∀ rest : Text,
    readText ('\\' :: 'u' :: Quoted.hex 4 n ++ rest) =
      (readText rest).map fun (content, after) => (Char.ofNat n :: content, after) := by
  have digits : ∀ n < 0x20, ∃ a b c d, Quoted.hex 4 n = [a, b, c, d] ∧
      codeUnit? a b c d = some n := by
    intro n small
    refine ⟨_, _, _, _, rfl, ?_⟩
    revert n
    decide
  intro n small rest
  obtain ⟨a, b, c, d, written, unit⟩ := digits n small
  rw [written]
  simp only [List.cons_append, List.nil_append, readText, unit]
  have low : ¬ (0xD800 ≤ n ∧ n < 0xDC00) := by omega
  have high : ¬ (0xDC00 ≤ n ∧ n < 0xE000) := by omega
  simp only [Option.bind_eq_bind, Option.bind_some, if_neg low, if_neg high]
  cases readText rest <;> rfl

/-- A character that stands for itself. -/
theorem readText_plain {c : Char} (quote : c ≠ '"') (escape : c ≠ '\\') (printed : ¬ c.toNat < 0x20)
    (rest : Text) :
    readText (c :: rest) = (readText rest).map fun (content, after) => (c :: content, after) := by
  rw [readText]
  · simp only [if_neg printed]
    cases readText rest <;> rfl
  all_goals simp_all

/-- A written character is read as itself, by the cases of the writer: the escapes with a letter,
the control characters, and all the others. -/
theorem readText_escapeChar (c : Char) (rest : Text) :
    readText (escapeChar c ++ rest) =
      (readText rest).map fun (content, after) => (c :: content, after) := by
  -- An escape of one letter, whichever it is.
  have short {letter : Char} (escaped : escaped? letter = some c) (other : letter ≠ 'u') :
      readText ('\\' :: letter :: rest) =
        (readText rest).map fun (content, after) => (c :: content, after) := by
    rw [readText]
    · simp only [escaped, Option.bind_eq_bind, Option.bind_some]
      cases readText rest <;> rfl
    · simp_all
  by_cases quote : c = '"'
  · subst quote
    exact short rfl (by decide)
  by_cases escape : c = '\\'
  · subst escape
    exact short rfl (by decide)
  by_cases feed : c = '\n'
  · subst feed
    exact short rfl (by decide)
  by_cases carriage : c = '\r'
  · subst carriage
    exact short rfl (by decide)
  by_cases tab : c = '\t'
  · subst tab
    exact short rfl (by decide)
  by_cases back : c.toNat = 0x08
  · obtain rfl : c = Char.ofNat 0x08 := by rw [← back, Char.ofNat_toNat]
    exact short rfl (by decide)
  by_cases page : c.toNat = 0x0C
  · obtain rfl : c = Char.ofNat 0x0C := by rw [← page, Char.ofNat_toNat]
    exact short rfl (by decide)
  by_cases control : c.toNat < 0x20
  · simp only [escapeChar, quote, escape, feed, carriage, tab, back, page, control, if_false, if_true]
    rw [readText_control c.toNat control rest, Char.ofNat_toNat]
  · simp only [escapeChar, quote, escape, feed, carriage, tab, back, page, control, if_false]
    exact readText_plain quote escape control rest

/-- A string is read up to its closing quotation mark. An escaped character never begins with one,
so the induction takes a character at a time. -/
theorem readText_written (text rest : Text) :
    readText (text.flatMap escapeChar ++ '"' :: rest) = some (text, rest) := by
  induction text with
  | nil => rfl
  | cons c text inductionHypothesis =>
    rw [List.flatMap_cons, List.append_assoc, readText_escapeChar, inductionHypothesis]
    rfl

/-! ### Integers -/

/-- The text does not begin with a digit. -/
def Stops (text : Text) : Prop :=
  ∀ c ∈ text.head?, isNumberDigit c = false

/-- A text that begins with no digit stops a numeral before it. -/
theorem stops_cons {c : Char} (other : isNumberDigit c = false) (rest : Text) : Stops (c :: rest) := by
  intro first same
  cases same
  exact other

/-- The ten digits are read as digits. -/
theorem isNumberDigit_ofNat : ∀ digit < 10, isNumberDigit (Char.ofNat (0x30 + digit)) = true := by
  decide

/-- A digit has the value from which it was written. -/
theorem toNat_ofNat_digit : ∀ digit < 10, (Char.ofNat (0x30 + digit)).toNat - 0x30 = digit := by
  decide

/-- Every number has a digit, zero included. -/
theorem natDigits_ne_nil (n : Nat) : natDigits n ≠ [] := by
  rw [natDigits]
  split <;> simp

/-- A numeral is written with digits only, by induction along the digits of the number. -/
theorem isNumberDigit_of_mem {n : Nat} : ∀ c ∈ natDigits n, isNumberDigit c = true := by
  induction n using natDigits.induct with
  | case1 n small =>
    rw [natDigits, if_pos small]
    simpa using isNumberDigit_ofNat n small
  | case2 n large inductionHypothesis =>
    rw [natDigits, if_neg large, List.forall_mem_append]
    exact ⟨inductionHypothesis, by simpa using isNumberDigit_ofNat (n % 10) (by omega)⟩

/-- The digits of a number are read as that number. The last digit is the remainder by ten, and
those before it are the digits of the quotient. -/
theorem decimal_natDigits (n : Nat) : decimal (natDigits n) = n := by
  induction n using natDigits.induct with
  | case1 n small =>
    rw [natDigits, if_pos small]
    simp [decimal, toNat_ofNat_digit n small]
  | case2 n large inductionHypothesis =>
    rw [natDigits, if_neg large, decimal, List.foldl_append]
    rw [decimal] at inductionHypothesis
    rw [inductionHypothesis]
    simp only [List.foldl_cons, List.foldl_nil, toNat_ofNat_digit (n % 10) (by omega)]
    omega

/-- The digits of a written number are exactly those in front of what follows it: all of them are
digits, and what follows begins with none. -/
theorem span_natDigits (n : Nat) {rest : Text} (stops : Stops rest) :
    (natDigits n ++ rest).takeWhile isNumberDigit = natDigits n ∧
      (natDigits n ++ rest).dropWhile isNumberDigit = rest := by
  have none : rest.takeWhile isNumberDigit = [] ∧ rest.dropWhile isNumberDigit = rest := by
    cases rest with
    | nil => exact ⟨rfl, rfl⟩
    | cons c rest =>
      have other := stops c rfl
      rw [List.takeWhile_cons_of_neg (by simp [other]), List.dropWhile_cons_of_neg (by simp [other])]
      exact ⟨rfl, rfl⟩
  rw [List.takeWhile_append_of_pos isNumberDigit_of_mem, none.1, List.append_nil,
    List.dropWhile_append_of_pos isNumberDigit_of_mem, none.2]
  exact ⟨rfl, rfl⟩

/-- A numeral begins with a digit, so a reader knows it by its first character. -/
theorem natDigits_eq_cons (n : Nat) :
    ∃ c digits, natDigits n = c :: digits ∧ isNumberDigit c = true := by
  cases same : natDigits n with
  | nil => exact absurd same (natDigits_ne_nil n)
  | cons c digits =>
    exact ⟨c, digits, rfl, isNumberDigit_of_mem (n := n) c (by rw [same]; exact List.mem_cons_self)⟩

/-- An integer begins with a minus sign or with a digit. This is what the reader looks at to
choose a number. -/
theorem intText_eq_cons (n : Int) :
    ∃ c digits, intText n = c :: digits ∧ (c = '-' ∨ isNumberDigit c = true) := by
  cases n with
  | ofNat n =>
    obtain ⟨c, digits, same, digit⟩ := natDigits_eq_cons n
    exact ⟨c, digits, same, .inr digit⟩
  | negSucc n => exact ⟨'-', natDigits (n + 1), rfl, .inl rfl⟩

/-- Without a sign, the digits alone tell the integer, and the reader goes on behind the last of
them. -/
theorem readInt_unsigned {text : Text} (unsigned : ∀ behind, text ≠ '-' :: behind)
    (digits : text.takeWhile isNumberDigit ≠ []) :
    readInt text =
      some ((decimal (text.takeWhile isNumberDigit) : Int), text.dropWhile isNumberDigit) := by
  unfold readInt
  split
  rename_i negative rest same
  split at same
  · rename_i behind
    exact absurd rfl (unsigned behind)
  · cases same
    simp only [digits, if_false]
    rfl

/-- An integer is read back up to where its numeral stops: the sign first, and then the digits. -/
theorem readInt_intText (n : Int) {rest : Text} (stops : Stops rest) :
    readInt (intText n ++ rest) = some (n, rest) := by
  cases n with
  | ofNat n =>
    obtain ⟨digits, after⟩ := span_natDigits n stops
    obtain ⟨c, tail, same, digit⟩ := natDigits_eq_cons n
    have unsigned : ∀ behind, natDigits n ++ rest ≠ '-' :: behind := by
      intro behind signed
      rw [same, List.cons_append] at signed
      rw [(List.cons.inj signed).1] at digit
      cases digit
    rw [intText, readInt_unsigned unsigned (by rw [digits]; exact natDigits_ne_nil n), digits, after,
      decimal_natDigits]
    rfl
  | negSucc n =>
    obtain ⟨digits, after⟩ := span_natDigits (n + 1) stops
    simp only [intText, List.cons_append, readInt, digits, after, natDigits_ne_nil, if_false,
      decimal_natDigits, if_true]
    rfl

/-! ### How values begin -/

/-- A character that is no filler is not skipped. -/
theorem skipFiller_cons {c : Char} (solid : isFiller c = false) (rest : Text) :
    skipFiller (c :: rest) = c :: rest :=
  List.dropWhile_cons_of_neg (by simp [solid])

/-- Nothing that begins a number is filler: the four kinds of blanks are neither a sign nor
digits. -/
theorem isFiller_number {c : Char} (number : c = '-' ∨ isNumberDigit c = true) :
    isFiller c = false := by
  rcases number with rfl | digit
  · rfl
  · refine Bool.eq_false_iff.mpr fun filler => ?_
    simp only [isFiller, Bool.or_eq_true, beq_iff_eq] at filler
    rcases filler with ((rfl | rfl) | rfl) | rfl <;> cases digit

/-- No value begins with a blank, or as the end of a list: each kind of values has its own first
characters, and those of integers are digits and the sign. -/
theorem compact_eq_cons (value : Json) :
    ∃ c rest, compact value = c :: rest ∧ isFiller c = false ∧ c ≠ ']' := by
  cases value with
  | null => exact ⟨'n', _, rfl, rfl, by decide⟩
  | bool value =>
    cases value with
    | true => exact ⟨'t', _, rfl, rfl, by decide⟩
    | false => exact ⟨'f', _, rfl, rfl, by decide⟩
  | int value =>
    obtain ⟨c, digits, same, number⟩ := intText_eq_cons value
    refine ⟨c, digits, same, isFiller_number number, ?_⟩
    rintro rfl
    exact absurd number (by decide)
  | text value => exact ⟨'"', _, rfl, rfl, by decide⟩
  | list elements => exact ⟨'[', _, rfl, rfl, by decide⟩
  | object fields => exact ⟨'\x7b', _, rfl, rfl, by decide⟩

/-- Some text stands for every value. -/
theorem length_compact_pos (value : Json) : 0 < (compact value).length := by
  obtain ⟨c, rest, same, _⟩ := compact_eq_cons value
  rw [same]
  exact Nat.succ_pos _

/-- A sign or a digit begins nothing but an integer. -/
theorem readValue_number {c : Char} (number : c = '-' ∨ isNumberDigit c = true) (room : Nat)
    (rest : Text) :
    readValue (room + 1) (c :: rest) =
      (readInt (c :: rest)).map fun (value, after) => (.int value, after) := by
  rw [readValue, skipFiller_cons (isFiller_number number)]
  split
  all_goals first | rfl | (rename_i same; cases same; exact absurd number (by decide))

/-! ### Steps of the reader -/

section Steps

variable {room : Nat} {source more rest : Text} {value : Json}

/-- A value before a closing bracket is the last element. -/
theorem readElements_last (read : readValue room source = some (value, ']' :: rest)) :
    readElements (room + 1) source = some ([value], rest) := by
  simp only [readElements, read, Option.bind_eq_bind, Option.bind_some]
  rfl

/-- A value before a comma is followed by the other elements. -/
theorem readElements_next {elements : List Json}
    (read : readValue room source = some (value, ',' :: more))
    (later : readElements room more = some (elements, rest)) :
    readElements (room + 1) source = some (value :: elements, rest) := by
  have comma : skipFiller (',' :: more) = ',' :: more := rfl
  simp only [readElements, read, Option.bind_eq_bind, Option.bind_some, comma, later]
  rfl

/-- A key with a value before a closing brace is the last field. The colon follows the key at
once, so there is no filler to skip before it. -/
theorem readFields_last {key : Text} (read : readValue room source = some (value, '\x7d' :: rest)) :
    readFields (room + 1) (writeText key ++ ':' :: source) = some ([(key, value)], rest) := by
  have colon : skipFiller (':' :: source) = ':' :: source := rfl
  rw [writeText, List.append_assoc, List.cons_append, readFields, skipFiller_cons rfl]
  simp only [List.singleton_append, readText_written, Option.bind_eq_bind, Option.bind_some, colon,
    read]
  rfl

/-- A key with a value before a comma is followed by the other fields. -/
theorem readFields_next {key : Text} {fields : List (Text × Json)}
    (read : readValue room source = some (value, ',' :: more))
    (later : readFields room more = some (fields, rest)) :
    readFields (room + 1) (writeText key ++ ':' :: source) = some ((key, value) :: fields, rest) := by
  have colon : skipFiller (':' :: source) = ':' :: source := rfl
  have comma : skipFiller (',' :: more) = ',' :: more := rfl
  rw [writeText, List.append_assoc, List.cons_append, readFields, skipFiller_cons rfl]
  simp only [List.singleton_append, readText_written, Option.bind_eq_bind, Option.bind_some, colon,
    read, comma, later]
  rfl

/-- A bracket before anything but a closing bracket opens a list with elements. Only the empty
list has a case of its own in the reader. -/
theorem readValue_list {c : Char} {elements : List Json} (solid : isFiller c = false)
    (inner : c ≠ ']') (read : readElements room (c :: source) = some (elements, rest)) :
    readValue (room + 1) ('[' :: c :: source) = some (.list elements, rest) := by
  rw [readValue, skipFiller_cons rfl]
  simp only [skipFiller_cons solid]
  split
  · rename_i closed
    exact absurd (List.cons.inj closed).1 inner
  · rw [read]
    rfl

/-- A brace before a quote opens an object with fields, because the quote is not the brace that
would close it at once. -/
theorem readValue_object {fields : List (Text × Json)}
    (read : readFields room ('"' :: source) = some (fields, rest)) :
    readValue (room + 1) ('\x7b' :: '"' :: source) = some (.object fields, rest) := by
  have quote : skipFiller ('"' :: source) = '"' :: source := rfl
  rw [readValue, skipFiller_cons rfl]
  simp only [quote]
  split
  · rename_i closed
    exact absurd (List.cons.inj closed).1 (by decide)
  · rw [read]
    rfl

end Steps

/-! ### Members of lists and objects -/

/-- What is joined begins with the first part. -/
theorem join_eq_append (separator part : Text) (parts : List Text) :
    ∃ tail, Text.join separator (part :: parts) = part ++ tail := by
  cases parts with
  | nil => exact ⟨[], (List.append_nil part).symm⟩
  | cons second rest => exact ⟨_, List.append_assoc _ _ _⟩

/-- Joined parts are as long as the first of them, a separator, and the rest together. -/
theorem length_join (separator : Char) (first second : Text) (rest : List Text) :
    (Text.join [separator] (first :: second :: rest)).length =
      first.length + 1 + (Text.join [separator] (second :: rest)).length := by
  simp [Text.join]
  omega

/-! ### Values -/

mutual

-- The induction is on the value. What carries it is the bound: the brackets around a list pay
-- for the step into it, and each comma or colon for the step behind it.
/-- A written value is read back, and what follows it is left over. The room that the reader needs
is paid for by the length of what was written, so the induction is on the value and not on the
room. -/
theorem readValue_compact : (value : Json) → (room : Nat) → (rest : Text) →
    2 * (compact value).length ≤ room + 1 → Stops rest →
    readValue (room + 1) (compact value ++ rest) = some (value, rest)
  | .null, _, _, _, _ => rfl
  | .bool true, _, _, _, _ => rfl
  | .bool false, _, _, _, _ => rfl
  | .int value, room, rest, _, stops => by
    obtain ⟨c, digits, same, number⟩ := intText_eq_cons value
    have read := readInt_intText value stops
    rw [compact, same, List.cons_append, readValue_number number, ← List.cons_append, ← same, read]
    rfl
  | .text value, room, rest, _, _ => by
    rw [compact, writeText, List.append_assoc, List.cons_append, readValue, skipFiller_cons rfl]
    simp only [List.singleton_append, readText_written]
    rfl
  | .list [], _, _, _, _ => rfl
  | .list (element :: more), room, rest, enough, _ => by
    rw [compact, List.cons_append, List.length_cons, List.length_append] at enough
    obtain ⟨bound, rfl⟩ : ∃ bound, room = bound + 1 := ⟨room - 1, by omega⟩
    have read := readElements_join (element :: more) (List.cons_ne_nil _ _) (bound + 1) rest
      (by omega)
    obtain ⟨tail, joined⟩ := join_eq_append [','] (compact element) (compactAll more)
    obtain ⟨c, begun, same, solid, inner⟩ := compact_eq_cons element
    rw [← compactAll, same] at joined
    rw [compact, List.cons_append, List.cons_append, List.append_assoc, List.singleton_append]
    rw [joined] at read ⊢
    exact readValue_list solid inner read
  | .object [], _, _, _, _ => rfl
  | .object ((key, value) :: more), room, rest, enough, _ => by
    rw [compact, List.cons_append, List.length_cons, List.length_append] at enough
    obtain ⟨bound, rfl⟩ : ∃ bound, room = bound + 1 := ⟨room - 1, by omega⟩
    have read := readFields_join ((key, value) :: more) (List.cons_ne_nil _ _) (bound + 1) rest
      (by omega)
    obtain ⟨tail, joined⟩ := join_eq_append [','] (writeText key ++ ':' :: compact value)
      (compactFields more)
    rw [← compactFields, writeText] at joined
    rw [compact, List.cons_append, List.cons_append, List.append_assoc, List.singleton_append]
    rw [joined] at read ⊢
    exact readValue_object read

/-- Written elements are read back up to the closing bracket, each of them by the reader of
values. -/
theorem readElements_join : (elements : List Json) → elements ≠ [] → (room : Nat) →
    (rest : Text) → 2 * (Text.join [','] (compactAll elements)).length + 1 ≤ room →
    readElements room (Text.join [','] (compactAll elements) ++ ']' :: rest) =
      some (elements, rest)
  | [], nonempty, _, _, _ => absurd rfl nonempty
  | [element], _, room, rest, enough => by
    have some := length_compact_pos element
    rw [compactAll, compactAll, Text.join] at enough ⊢
    obtain ⟨bound, rfl⟩ : ∃ bound, room = bound + 2 := ⟨room - 2, by omega⟩
    exact readElements_last (readValue_compact element _ _ (by omega) (stops_cons rfl _))
  | element :: second :: more, _, room, rest, enough => by
    have some := length_compact_pos element
    rw [compactAll, compactAll, length_join, ← compactAll] at enough
    obtain ⟨bound, rfl⟩ : ∃ bound, room = bound + 2 := ⟨room - 2, by omega⟩
    have later := readElements_join (second :: more) (List.cons_ne_nil _ _) (bound + 1) rest
      (by omega)
    rw [compactAll, compactAll, Text.join, ← compactAll, List.append_assoc, List.append_assoc]
    exact readElements_next (readValue_compact element _ _ (by omega) (stops_cons rfl _)) later

/-- Written fields are read back up to the closing brace, each key as a text and each value by the
reader of values. -/
theorem readFields_join : (fields : List (Text × Json)) → fields ≠ [] → (room : Nat) →
    (rest : Text) → 2 * (Text.join [','] (compactFields fields)).length + 1 ≤ room →
    readFields room (Text.join [','] (compactFields fields) ++ '\x7d' :: rest) =
      some (fields, rest)
  | [], nonempty, _, _, _ => absurd rfl nonempty
  | [(key, value)], _, room, rest, enough => by
    have some := length_compact_pos value
    rw [compactFields, compactFields, Text.join] at enough ⊢
    rw [List.length_append, List.length_cons] at enough
    obtain ⟨bound, rfl⟩ : ∃ bound, room = bound + 2 := ⟨room - 2, by omega⟩
    rw [List.append_assoc]
    exact readFields_last (readValue_compact value _ _ (by omega) (stops_cons rfl _))
  | (key, value) :: (name, other) :: more, _, room, rest, enough => by
    have some := length_compact_pos value
    rw [compactFields, compactFields, length_join, ← compactFields, List.length_append,
      List.length_cons] at enough
    obtain ⟨bound, rfl⟩ : ∃ bound, room = bound + 2 := ⟨room - 2, by omega⟩
    have later := readFields_join ((name, other) :: more) (List.cons_ne_nil _ _) (bound + 1) rest
      (by omega)
    rw [compactFields, compactFields, Text.join, ← compactFields, List.append_assoc,
      List.append_assoc, List.append_assoc]
    exact readFields_next (readValue_compact value _ _ (by omega) (stops_cons rfl _)) later

end

/-- A value that was written on one line is read back as it is. -/
theorem ofText?_compact (value : Json) : ofText? (compact value) = some value := by
  have read := readValue_compact value (2 * (compact value).length + 1) [] (by omega) nofun
  rw [List.append_nil] at read
  rw [ofText?, read]
  rfl

/-! ### Line breaks -/

/-- The escape of a control character contains no line break. -/
theorem newline_not_mem_control : ∀ n < 0x20, '\n' ∉ Quoted.hex 4 n := by decide

/-- No written character contains a line break, not even the line break itself, which is
escaped. -/
theorem newline_not_mem_escapeChar (c : Char) : '\n' ∉ escapeChar c := by
  fun_cases escapeChar c with
  | case8 _ _ _ _ _ _ _ control => simpa using newline_not_mem_control c.toNat control
  | case9 _ _ feed => simpa using Ne.symm feed
  | _ => decide

/-- A written text stays on one line, character by character: a line feed is escaped like every
control character. -/
theorem newline_not_mem_writeText (text : Text) : '\n' ∉ writeText text := by
  have inside : '\n' ∉ text.flatMap escapeChar := by
    rw [List.mem_flatMap]
    rintro ⟨c, _, member⟩
    exact newline_not_mem_escapeChar c member
  simp [writeText, inside]

/-- A numeral stays on one line: it has a sign and digits only. -/
theorem newline_not_mem_intText (n : Int) : '\n' ∉ intText n := by
  have digits (n : Nat) : '\n' ∉ natDigits n := fun member =>
    absurd (isNumberDigit_of_mem _ member) (by decide)
  cases n with
  | ofNat n => exact digits n
  | negSucc n => simpa [intText] using digits (n + 1)

/-- A character that is neither in the separator nor in the parts is not in what is joined. -/
theorem not_mem_join {c : Char} {separator : Text} {parts : List Text} (apart : c ∉ separator)
    (absent : ∀ part ∈ parts, c ∉ part) : c ∉ Text.join separator parts := by
  fun_induction Text.join separator parts with
  | case1 => exact List.not_mem_nil
  | case2 last => exact absent last List.mem_cons_self
  | case3 first second rest inductionHypothesis =>
    rw [List.forall_mem_cons] at absent
    simp [absent.1, apart, inductionHypothesis absent.2]

mutual

/-- A written value stays on one line, whatever texts it holds. The induction is on the value. -/
theorem newline_not_mem_compact : (value : Json) → '\n' ∉ compact value
  | .null => by decide
  | .bool true => by decide
  | .bool false => by decide
  | .int value => newline_not_mem_intText value
  | .text value => newline_not_mem_writeText value
  | .list elements => by
    have inside : '\n' ∉ Text.join [','] (compactAll elements) :=
      not_mem_join (by decide) (newline_not_mem_compactAll elements)
    simp [compact, inside]
  | .object fields => by
    have inside : '\n' ∉ Text.join [','] (compactFields fields) :=
      not_mem_join (by decide) (newline_not_mem_compactFields fields)
    simp [compact, inside]

/-- Each written element stays on one line. -/
theorem newline_not_mem_compactAll :
    (elements : List Json) → ∀ part ∈ compactAll elements, '\n' ∉ part
  | [] => nofun
  | element :: rest => by
    rw [compactAll, List.forall_mem_cons]
    exact ⟨newline_not_mem_compact element, newline_not_mem_compactAll rest⟩

/-- Each written field stays on one line, its key and its value. -/
theorem newline_not_mem_compactFields :
    (fields : List (Text × Json)) → ∀ part ∈ compactFields fields, '\n' ∉ part
  | [] => nofun
  | (key, value) :: rest => by
    rw [compactFields, List.forall_mem_cons]
    refine ⟨?_, newline_not_mem_compactFields rest⟩
    have name := newline_not_mem_writeText key
    have content := newline_not_mem_compact value
    simp [name, content]

end

end SqlRenewal.Json
