import SqlRenewal.Proofs.Raise.Grammar

/-!
# The search by offsets

The search may also go about a whole text by offsets alone: it looks for a delimiter,
adds up lengths, and calculates the bounds of a statement or the place where to resume.
Such bounds say nothing about themselves, so they are checked before anyone uses them.

`scan` does this, and comes to the same as `locate`. Hence its checks never fail,
wherever in a text it begins, and nothing that it calculates is beyond the end.
-/
namespace SqlRenewal

/-! ### Unchecked bounds -/

/-- What a search by offsets comes to, unchecked. A statement begins where its keyword was
found; the bound behind it is calculated. -/
inductive RawSighting where
  | found (start : Nat) (stop : Int) (arguments : Text) (form : Form) (tokens : List Text)
  | skipped (position : Nat) (resume : Int) (reason : Reason)
  | absent
deriving DecidableEq, Repr

/-- The raw sighting begins at the offset or behind it, covers something, and ends inside the
text; a bare statement has two tokens. -/
def RawSighting.Within (text : Text) (offset : Nat) : RawSighting → Prop
  | .found start stop _ form tokens =>
    offset ≤ start ∧ start < stop ∧ stop ≤ text.length ∧ (form = .bare → tokens.length = 2)
  | .skipped position resume _ => offset ≤ position ∧ position < resume ∧ resume ≤ text.length
  | .absent => True

/-- The bounds of a sighting, without what is known about them. -/
def Sighting.raw : Sighting → RawSighting
  | .found span => .found span.start span.stop span.arguments span.layout.form span.layout.tokens
  | .skipped skip => .skipped skip.position skip.resume skip.reason
  | .absent => .absent

/-- Bounds that pass their check are in order, as the check refuses a span that ends where it
starts or before. -/
theorem lt_of_checkSpan {start : Nat} {stop : Int} {form : Form} {tokens : List Text}
    (checked : checkSpan start stop form tokens = .ok ()) : start < stop.toNat := by
  unfold checkSpan at checked
  split at checked
  · cases checked
  · split at checked
    · cases checked
    · omega

/-- A skip that passes its check goes on behind its position. -/
theorem lt_of_checkSkip {position : Nat} {resume : Int} (checked : checkSkip position resume = .ok ()) :
    position < resume.toNat := by
  unfold checkSkip at checked
  split at checked
  · cases checked
  · omega

/-- A span with the given bounds, if they pass their check. -/
def acceptSpan (start : Nat) (stop : Int) (arguments : Text) (form : Form) (tokens : List Text) :
    Except BoundsFault Span :=
  match checked : checkSpan start stop form tokens with
  | .error fault => .error fault
  | .ok () =>
    let layout := match form with
      | .parenthesized => .parenthesized
      | .bare => .bare (tokens.getD 0 []) (tokens.getD 1 [])
    .ok ⟨start, stop.toNat, arguments, layout, lt_of_checkSpan checked⟩

/-- A skip with the given bounds, if they pass their check. -/
def acceptSkip (position : Nat) (resume : Int) (reason : Reason) : Except BoundsFault Skip :=
  match checked : checkSkip position resume with
  | .error fault => .error fault
  | .ok () => .ok ⟨position, resume.toNat, reason, lt_of_checkSkip checked⟩

/-- The sighting with the bounds of a raw sighting, if they pass their check. -/
def RawSighting.accept : RawSighting → Except BoundsFault Sighting
  | .found start stop arguments form tokens =>
    (acceptSpan start stop arguments form tokens).map .found
  | .skipped position resume reason => (acceptSkip position resume reason).map .skipped
  | .absent => .ok .absent

/-- The part of a text between two offsets. -/
def slice (text : Text) (start stop : Nat) : Text :=
  (text.take stop).drop start

/-! ### The search -/

/-- An argument list whose opening parenthesis stands at `opening`. -/
def scanParenthesized (text : Text) (start opening : Nat) : RawSighting :=
  match matchingClose? text opening with
  | none => .skipped start (opening + 1) .unclosed
  | some closing =>
    let arguments := slice text (opening + 1) closing.toNat
    if hasRaise arguments then .skipped start (closing + 1) .nested
    else .found start (closing + 1) arguments .parenthesized []

/-- A bare statement whose code begins at `codeStart`. An empty line would end where it
begins, so a skip goes one further at least. -/
def scanBare (text : Text) (start codeStart : Nat) : RawSighting :=
  let eol := lineEnd text codeStart
  let parts := BareLine.ofText (slice text codeStart eol)
  let stop := codeStart + (parts.code.length + parts.gap.length) + parts.message.length
  if parts.gap = [] then .skipped start (max eol (codeStart + 1)) .noGap
  else if parts.message = [] then .skipped start (max eol (codeStart + 1)) .noMessage
  else if hasRaise parts.message then .skipped start stop .nested
  else .found start stop (slice text codeStart stop) .bare [parts.code, parts.message]

/-- What follows the keyword at `start`. -/
def scanAt (text : Text) (start : Nat) : RawSighting :=
  let keywordEnd := start + raiseWord.length
  let after := text.drop keywordEnd
  let opening := keywordEnd + (after.takeWhile isBlank).length
  let codeStart := keywordEnd + (after.takeWhile isInlineBlank).length
  if (text.drop opening).head? = some '(' then scanParenthesized text start opening
  else if keywordEnd < codeStart ∧ (text.drop codeStart).head?.any isDigit then
    scanBare text start codeStart
  else .skipped start keywordEnd .unrecognized

/-- The next legacy statement at or after an offset. -/
def scan (text : Text) (offset : Nat) : RawSighting :=
  match firstRaise? (text.take offset).getLast? (text.drop offset) with
  | none => .absent
  | some position => scanAt text (offset + position)

/-! ### The two searches -/

/-- A slice is what is taken after what stands before it was dropped. -/
theorem slice_eq_take_drop (text : Text) (start length : Nat) :
    slice text start (start + length) = (text.drop start).take length := by
  rw [slice, List.drop_take, Nat.add_sub_cancel_left]

/-- The parenthesis that closes a list stands behind what the list encloses. The search begins at
the opening parenthesis, which counts for one, and its answer is an offset of the whole text. -/
theorem matchingClose?_eq {text inside : Text} {opening : Nat}
    (opens : text.drop opening = '(' :: inside) :
    matchingClose? text opening =
      (closeAt? 1 inside).map fun length : Nat => ((opening + 1 + length : Nat) : Int) := by
  have fromOpening : readFrom text opening = '(' :: inside := by
    rw [← opens, readFrom, if_neg (by omega), Int.toNat_natCast]
  have outermost : closeAt? 0 ('(' :: inside) = (closeAt? 1 inside).map (· + 1) := by
    rw [closeAt?, if_pos rfl]
    rfl
  rw [matchingClose?, fromOpening, outermost]
  cases closeAt? 1 inside with
  | none => rfl
  | some length =>
    refine congrArg some ?_
    push_cast
    omega

/-- The scan by offsets finds what is sighted in the text that is left: the depths along the
offsets are those along the rest, and so is the index at which they come back. -/
theorem scanParenthesized_eq {text inside : Text} {start opening : Nat} (after : start < opening + 1)
    (opens : text.drop opening = '(' :: inside) :
    scanParenthesized text start opening =
      (sightParenthesized start (opening + 1) after inside).raw := by
  have behind : text.drop (opening + 1) = inside := by
    rw [← List.drop_drop, opens]
    rfl
  have closes := matchingClose?_eq opens
  rw [scanParenthesized, sightParenthesized]
  cases closed : closeAt? 1 inside with
  | none =>
    rw [closed] at closes
    simp [closes, Sighting.raw]
  | some length =>
    rw [closed] at closes
    simp only [closes, Option.map_some, Int.toNat_natCast, slice_eq_take_drop, behind]
    split <;> rfl

/-- A line ends before the first line break behind an offset. -/
theorem lineEnd_eq {text : Text} {offset : Nat} (inside : offset ≤ text.length) :
    lineEnd text offset = offset + ((text.drop offset).takeWhile fun c => !isLineBreak c).length := by
  have start : searchStart text offset = offset := by
    rw [searchStart, if_neg (by omega), Int.toNat_natCast]
  rw [lineEnd, start, if_neg (by omega)]

/-- The scan of a bare statement by offsets finds what is sighted on the rest of its line. Each
offset is where one of the parts ends, and each slice between two of them is that part. -/
theorem scanBare_eq {text : Text} {start codeStart : Nat} (after : start < codeStart)
    (digit : (text.drop codeStart).head?.any isDigit = true) :
    scanBare text start codeStart =
      (sightBare start codeStart after (.ofText (text.drop codeStart))).raw := by
  obtain ⟨line, rest, same, unbroken, ends⟩ := line_split (text.drop codeStart)
  have inside : codeStart ≤ text.length := by
    refine Nat.le_of_not_lt fun beyond => ?_
    rw [List.drop_of_length_le (Nat.le_of_lt beyond)] at digit
    cases digit
  -- The digit that begins the line keeps the skips from standing still.
  have some : 0 < line.length := by
    rw [same] at digit
    cases line with
    | nil => exact absurd (head_digit_of_append digit ends) (by decide)
    | cons c line => simp
  have whole : BareLine.ofText (text.drop codeStart) = BareLine.ofText line := by
    rw [same, BareLine.ofText_append unbroken ends]
  have ofLine : (BareLine.ofText line).line = line := takeWhile_unbroken unbroken
  have eol : lineEnd text codeStart = codeStart + line.length := by
    rw [← ofLine, ← whole, lineEnd_eq inside]
    rfl
  have region : slice text codeStart (codeStart + line.length) = line := by
    rw [slice_eq_take_drop, same, List.take_left]
  obtain ⟨trailer, parts, _⟩ := BareLine.parts_append unbroken
  have arguments : slice text codeStart (codeStart + ((BareLine.ofText line).code ++
        (BareLine.ofText line).gap ++ (BareLine.ofText line).message).length) =
      (BareLine.ofText line).code ++ (BareLine.ofText line).gap ++ (BareLine.ofText line).message := by
    rw [slice_eq_take_drop]
    refine (List.prefix_iff_eq_take.mp ⟨trailer ++ rest, ?_⟩).symm
    rw [same, ← List.append_assoc, ← parts]
  have lengths (first second third : Text) :
      codeStart + (first.length + second.length) + third.length =
        codeStart + (first ++ second ++ third).length := by
    simp only [List.length_append]
    omega
  simp only [scanBare, sightBare, eol, region, whole, lengths, arguments, ofLine]
  split
  · simp only [Sighting.raw, RawSighting.skipped.injEq, and_true, true_and]
    omega
  · split
    · simp only [Sighting.raw, RawSighting.skipped.injEq, and_true, true_and]
      omega
    · split
      · simp only [Sighting.raw, RawSighting.skipped.injEq, and_true, true_and]
        rw [← lengths]
        omega
      · simp only [Sighting.raw, Layout.form, Layout.tokens, RawSighting.found.injEq, and_true, true_and]
        rw [← lengths]
        omega

/-- To drop as many characters as are taken is to drop those that are taken. -/
theorem drop_takeWhile_length (keep : Char → Bool) (text : Text) :
    text.drop (text.takeWhile keep).length = text.dropWhile keep := by
  induction text with
  | nil => rfl
  | cons c rest inductionHypothesis =>
    cases kept : keep c with
    | true => simp [kept, inductionHypothesis]
    | false => simp [kept]

/-- What the scan by offsets finds at a keyword is what is sighted there: the two look at the same
rest of the text, and decide in the same order. -/
theorem scanAt_eq (text : Text) (start : Nat) :
    scanAt text start = (sightAt start (text.drop (start + raiseWord.length))).raw := by
  have behind (keep : Char → Bool) :
      text.drop (start + raiseWord.length +
          ((text.drop (start + raiseWord.length)).takeWhile keep).length) =
        (text.drop (start + raiseWord.length)).dropWhile keep := by
    rw [← List.drop_drop, drop_takeWhile_length]
  unfold sightAt
  dsimp only
  split
  · rename_i inside opens
    rw [scanAt, behind, opens, List.head?_cons, if_pos rfl]
    exact scanParenthesized_eq _ (by rw [behind, opens])
  · rename_i other
    have closed : ((text.drop (start + raiseWord.length)).dropWhile isBlank).head? ≠ some '(' := by
      intro opening
      obtain ⟨inside, same⟩ := List.head?_eq_some_iff.mp opening
      exact other inside same
    rw [scanAt, behind, if_neg closed, behind]
    have moved : start + raiseWord.length < start + raiseWord.length +
          ((text.drop (start + raiseWord.length)).takeWhile isInlineBlank).length ↔
        (text.drop (start + raiseWord.length)).takeWhile isInlineBlank ≠ [] := by
      rw [← List.length_pos_iff]
      omega
    by_cases bare : (text.drop (start + raiseWord.length)).takeWhile isInlineBlank ≠ [] ∧
        ((text.drop (start + raiseWord.length)).dropWhile isInlineBlank).head?.any isDigit = true
    · rw [if_pos bare, if_pos ⟨moved.mpr bare.1, bare.2⟩, scanBare_eq _ (by rw [behind]; exact bare.2),
        behind]
    · rw [if_neg bare, if_neg fun both => bare ⟨moved.mp both.1, both.2⟩]
      rfl

/-- Searching by offsets comes to the same as searching what is behind the offset. -/
theorem scan_eq {text : Text} {offset : Nat} (inside : offset ≤ text.length) :
    scan text offset = (locate text offset).raw := by
  rw [scan, locate_eq inside, sight]
  cases firstRaise? (text.take offset).getLast? (text.drop offset) with
  | none => rfl
  | some position =>
    simp only [← sightAt_shift, scanAt_eq, List.drop_drop, Nat.add_assoc]

/-! ### The checks -/

/-- Every skip passes its check, because it carries the proof of it: the text goes on behind the
place of the skip. -/
theorem acceptSkip_eq (skip : Skip) : acceptSkip skip.position skip.resume skip.reason = .ok skip := by
  have forward := skip.position_lt_resume
  have passes : checkSkip skip.position skip.resume = .ok () := by
    rw [checkSkip, if_neg (by omega)]
  unfold acceptSkip
  split
  · rename_i fails
    rw [passes] at fails
    cases fails
  · rfl

/-- Every span passes its checks, because it carries the proofs of them, and its layout has the
tokens that its form asks for. -/
theorem acceptSpan_eq (span : Span) :
    acceptSpan span.start span.stop span.arguments span.layout.form span.layout.tokens = .ok span := by
  obtain ⟨start, stop, arguments, layout, forward⟩ := span
  have passes : checkSpan start stop layout.form layout.tokens = .ok () := by
    rw [checkSpan, if_neg (by omega), if_neg (by omega)]
    cases layout <;> rfl
  unfold acceptSpan
  split
  · rename_i fails
    rw [passes] at fails
    cases fails
  · cases layout <;> rfl

/-- A sighting is accepted by its bounds. -/
theorem Sighting.accept_raw (sighting : Sighting) : sighting.raw.accept = .ok sighting := by
  cases sighting with
  | absent => rfl
  | skipped skip => rw [raw, RawSighting.accept, acceptSkip_eq, Except.map]
  | found span => rw [raw, RawSighting.accept, acceptSpan_eq, Except.map]

/-- The search from an offset stays between the offset and the end of the text. What is sighted
lies in the rest of the text, and its offsets are moved by the length of the part in front. -/
theorem locate_within {text : Text} {offset : Nat} (inside : offset ≤ text.length) :
    (locate text offset).raw.Within text offset := by
  have bound := Sighting.stop_le (text.take offset).getLast? (text.drop offset)
  rw [List.length_drop] at bound
  rw [locate_eq inside]
  cases seen : sight (text.take offset).getLast? (text.drop offset) with
  | absent => trivial
  | skipped skip =>
    rw [seen] at bound
    have forward := skip.position_lt_resume
    simp only [Sighting.stop, Sighting.shift, Skip.shift, Sighting.raw, RawSighting.Within] at bound ⊢
    omega
  | found span =>
    rw [seen] at bound
    have forward := span.start_lt_stop
    simp only [Sighting.stop, Sighting.shift, Span.shift, Sighting.raw, RawSighting.Within] at bound ⊢
    refine ⟨by omega, by omega, by omega, ?_⟩
    cases span.layout <;> simp [Layout.form, Layout.tokens]

/-- Wherever a search by offsets begins, its bounds pass their checks and are inside the
text, and what is accepted is what the other search sees. -/
theorem scan_accept {text : Text} {offset : Nat} (inside : offset ≤ text.length) :
    (scan text offset).accept = .ok (locate text offset) ∧ (scan text offset).Within text offset := by
  rw [scan_eq inside]
  exact ⟨Sighting.accept_raw _, locate_within inside⟩

end SqlRenewal
