import SqlRenewal.Throw.Reading
import SqlRenewal.Proofs.Raise.Depth
import SqlRenewal.Proofs.Text.Letters

/-!
# Pieces of an argument list

Cutting an argument list loses nothing: the pieces stand in it one after the
other, with a comma between neighbours. Where the list is balanced, so is every
piece, because the depth that the cutting counts is then the true one.

No piece is cut again where it stands alone. An argument of a balanced list is therefore one
argument in any other list, too.
-/
namespace SqlRenewal

/-! ### Trimming -/

/-- What trimming takes from the end belongs to the class. It is what is taken from the front of
the reversed text. -/
theorem Text.trimRightWhile_append (drop : Char → Bool) (text : Text) :
    ∃ margin, text = Text.trimRightWhile drop text ++ margin ∧ ∀ c ∈ margin, drop c = true := by
  refine ⟨(text.reverse.takeWhile drop).reverse, ?_, ?_⟩
  · rw [Text.trimRightWhile, ← List.reverse_append, List.takeWhile_append_dropWhile,
      List.reverse_reverse]
  · intro c member
    exact List.all_eq_true.mp List.all_takeWhile c (List.mem_reverse.mp member)

/-- What trimming takes from both ends belongs to the class. -/
theorem Text.trimWhile_append (drop : Char → Bool) (text : Text) :
    ∃ left right, text = left ++ Text.trimWhile drop text ++ right ∧
      (∀ c ∈ left, drop c = true) ∧ ∀ c ∈ right, drop c = true := by
  obtain ⟨right, same, dropped⟩ := Text.trimRightWhile_append drop (text.dropWhile drop)
  refine ⟨text.takeWhile drop, right, ?_, List.all_eq_true.mp List.all_takeWhile, dropped⟩
  rw [Text.trimWhile, List.append_assoc, ← same, List.takeWhile_append_dropWhile]

/-- A text that neither begins nor ends with a character of the class is left as it is. -/
theorem Text.trimWhile_eq_self {drop : Char → Bool} {text : Text}
    (ends : ∀ c, text.head? = some c ∨ text.getLast? = some c → drop c = false) :
    Text.trimWhile drop text = text := by
  have unblocked {part : Text} (front : ∀ c, part.head? = some c → drop c = false) :
      part.dropWhile drop = part := by
    cases part with
    | nil => rfl
    | cons c rest => rw [List.dropWhile_cons_of_neg (by simp [front c rfl])]
  rw [Text.trimWhile, unblocked fun c head => ends c (.inl head), Text.trimRightWhile, unblocked,
    List.reverse_reverse]
  intro c head
  rw [List.head?_reverse] at head
  exact ends c (.inr head)

/-- A trimmed text neither begins nor ends with a character of the class, because trimming stops
at the first character from either side that is none. -/
theorem Text.trimWhile_ends {drop : Char → Bool} {text : Text} {c : Char}
    (atEnd : (Text.trimWhile drop text).head? = some c ∨ (Text.trimWhile drop text).getLast? = some c) :
    drop c = false := by
  have unblocked {part : Text} (front : (part.dropWhile drop).head? = some c) : drop c = false := by
    have first := List.head?_dropWhile_not drop part
    rw [front] at first
    simpa using first
  rcases atEnd with first | last
  · obtain ⟨margin, same, _⟩ := Text.trimRightWhile_append drop (text.dropWhile drop)
    rw [Text.trimWhile] at first
    have head : (text.dropWhile drop).head? = some c := by
      rw [same, List.head?_append, first]
      rfl
    exact unblocked head
  · rw [Text.trimWhile, Text.trimRightWhile, List.getLast?_reverse] at last
    exact unblocked last

/-- Trimming a second time changes nothing. -/
theorem Text.trimWhile_trimWhile (drop : Char → Bool) (text : Text) :
    Text.trimWhile drop (Text.trimWhile drop text) = Text.trimWhile drop text :=
  Text.trimWhile_eq_self fun _ atEnd => Text.trimWhile_ends atEnd

/-! ### Where a piece stands -/

/-- The part stands in the text between commas or the ends of the text. -/
def BetweenCommas (text piece : Text) : Prop :=
  ∃ front rest, text = front ++ piece ++ rest ∧ (front = [] ∨ ∃ more, front = more ++ [',']) ∧
    (rest = [] ∨ ∃ more, rest = ',' :: more)

/-- The pieces of a cut stand between commas, the first one at the beginning. The induction goes
along the text, for any depth. -/
theorem cutArguments_between (depth : Nat) (text : Text) :
    (∃ rest, text = (cutArguments depth text).1 ++ rest ∧ (rest = [] ∨ ∃ more, rest = ',' :: more)) ∧
      ∀ piece ∈ (cutArguments depth text).2, ∃ front rest, text = front ++ ',' :: piece ++ rest ∧
        (rest = [] ∨ ∃ more, rest = ',' :: more) := by
  induction text generalizing depth with
  | nil => simp [cutArguments]
  | cons c text inductionHypothesis =>
    obtain ⟨⟨rest, first, ends⟩, later⟩ := inductionHypothesis (depthAfter depth c)
    have shifted : ∀ piece ∈ (cutArguments (depthAfter depth c) text).2, ∃ front rest,
        c :: text = front ++ ',' :: piece ++ rest ∧ (rest = [] ∨ ∃ more, rest = ',' :: more) := by
      intro piece member
      obtain ⟨front, behind, same, closed⟩ := later piece member
      exact ⟨c :: front, behind, by simp [same], closed⟩
    simp only [cutArguments]
    split
    · rename_i cut
      refine ⟨⟨c :: text, rfl, .inr ⟨text, by rw [cut.1]⟩⟩, ?_⟩
      intro piece member
      rcases List.mem_cons.mp member with rfl | member
      · exact ⟨[], rest, by simpa [cut.1] using first, ends⟩
      · exact shifted piece member
    · exact ⟨⟨rest, by simp [← first], ends⟩, shifted⟩

/-- Every piece of an argument list stands between commas. The first one begins with the list, and
the others are found behind a comma by the lemma on cutting. -/
theorem argumentPieces_between {text piece : Text} (member : piece ∈ argumentPieces text) :
    BetweenCommas text piece := by
  obtain ⟨⟨rest, first, ends⟩, later⟩ := cutArguments_between 0 text
  rcases List.mem_cons.mp member with rfl | member
  · exact ⟨[], rest, by simpa using first, .inl rfl, ends⟩
  · obtain ⟨front, behind, same, closed⟩ := later piece member
    exact ⟨front ++ [','], behind, by simpa using same, .inr ⟨front, rfl⟩, closed⟩

/-! ### Texts that are not cut -/

/-- Read at the given depth, the text is cut nowhere. -/
def Uncut (depth : Nat) (text : Text) : Prop :=
  cutArguments depth text = (text, [])

/-- An empty text is not cut. -/
theorem uncut_nil (depth : Nat) : Uncut depth [] := rfl

/-- A text is not cut if its first character is no comma at depth zero and its rest is not cut. -/
theorem uncut_cons {depth : Nat} {c : Char} {rest : Text} :
    Uncut depth (c :: rest) ↔ ¬(c = ',' ∧ depth = 0) ∧ Uncut (depthAfter depth c) rest := by
  simp only [Uncut, cutArguments]
  by_cases cut : c = ',' ∧ depth = 0
  · simp [cut]
  · rw [if_neg cut]
    simp [cut, Prod.ext_iff]

/-- Two texts are not cut together if neither is, the second at the depth that the first one
leaves. -/
theorem uncut_append {depth : Nat} {first second : Text} :
    Uncut depth (first ++ second) ↔
      Uncut depth first ∧ Uncut (first.foldl depthAfter depth) second := by
  induction first generalizing depth with
  | nil => simp [uncut_nil]
  | cons c first inductionHypothesis =>
    simp only [List.cons_append, uncut_cons, inductionHypothesis, List.foldl_cons, and_assoc]

/-- Cutting goes on behind a text that is not cut, at the depth that the text leads to. All of it
belongs to the first piece. -/
theorem cutArguments_append_of_uncut {depth : Nat} {first : Text} (uncut : Uncut depth first)
    (rest : Text) :
    cutArguments depth (first ++ rest) =
      (first ++ (cutArguments (first.foldl depthAfter depth) rest).1,
        (cutArguments (first.foldl depthAfter depth) rest).2) := by
  induction first generalizing depth with
  | nil => rfl
  | cons c first inductionHypothesis =>
    obtain ⟨kept, uncut⟩ := uncut_cons.mp uncut
    simp only [List.cons_append, cutArguments, inductionHypothesis uncut, if_neg kept,
      List.foldl_cons]

/-- A text without commas is not cut, at any depth, since only a comma can. -/
theorem uncut_of_no_comma {text : Text} (none : ∀ c ∈ text, c ≠ ',') (depth : Nat) :
    Uncut depth text := by
  induction text generalizing depth with
  | nil => rfl
  | cons c rest inductionHypothesis =>
    refine uncut_cons.mpr ⟨fun cut => none c (by simp) cut.1, ?_⟩
    exact inductionHypothesis (fun d member => none d (by simp [member])) _

/-- No piece of a list is cut again: each of them ends at the first comma at which it could be
cut. The induction goes along the text, for any depth. -/
theorem cutArguments_uncut (depth : Nat) (text : Text) :
    Uncut depth (cutArguments depth text).1 ∧ ∀ piece ∈ (cutArguments depth text).2, Uncut 0 piece := by
  induction text generalizing depth with
  | nil => exact ⟨rfl, by simp [cutArguments]⟩
  | cons c rest inductionHypothesis =>
    obtain ⟨first, later⟩ := inductionHypothesis (depthAfter depth c)
    simp only [cutArguments]
    split
    · rename_i cut
      refine ⟨rfl, ?_⟩
      intro piece member
      rcases List.mem_cons.mp member with rfl | member
      · rwa [cut.1, cut.2] at first ⊢
      · exact later piece member
    · rename_i kept
      exact ⟨uncut_cons.mpr ⟨kept, first⟩, later⟩

/-- No piece of an argument list is cut again. -/
theorem argumentPieces_uncut {text piece : Text} (member : piece ∈ argumentPieces text) :
    Uncut 0 piece := by
  obtain ⟨first, later⟩ := cutArguments_uncut 0 text
  rcases List.mem_cons.mp member with rfl | member
  · exact first
  · exact later piece member

/-! ### Balanced pieces -/

/-- The counted depth is the true one as long as the text does not fall below zero. -/
theorem depthAfter_eq {depth : Nat} {c : Char} (above : 0 ≤ (depth : Int) + weight c) :
    (depthAfter depth c : Int) = depth + weight c := by
  unfold depthAfter weight at *
  split
  · simp
  · split
    · rename_i opens closes
      rw [if_neg opens, if_pos closes] at above
      omega
    · simp

/-- The counted depth is the true one behind a text that does not fall below zero. -/
theorem foldl_depthAfter {depth : Nat} {text : Text} (above : StaysAbove depth text) :
    ((text.foldl depthAfter depth : Nat) : Int) = depth + balance text := by
  induction text generalizing depth with
  | nil => simp
  | cons c rest inductionHypothesis =>
    obtain ⟨_, above⟩ := staysAbove_cons.mp above
    have bound : 0 ≤ (depth : Int) + weight c := by simpa using above [] List.nil_prefix
    have exactly := depthAfter_eq bound
    rw [List.foldl_cons, inductionHypothesis (by rwa [exactly]), exactly, balance_cons,
      Int.add_assoc]

/-- Behind a balanced text the depth is zero again. It never falls below zero in between, so the
depth that is counted is the balance. -/
theorem Balanced.foldl_depthAfter_eq_zero {text : Text} (balanced : Balanced text) :
    text.foldl depthAfter 0 = 0 := by
  have level := @foldl_depthAfter 0 text balanced.1
  rw [balanced.2] at level
  simpa using level

/-- A part without commas that does not fall below zero belongs to the first piece. -/
theorem cutArguments_append {depth level : Nat} {part : Text} (rest : Text)
    (none : ∀ c ∈ part, c ≠ ',') (above : StaysAbove depth part)
    (reached : (level : Int) = depth + balance part) :
    cutArguments depth (part ++ rest) =
      (part ++ (cutArguments level rest).1, (cutArguments level rest).2) := by
  have behind : part.foldl depthAfter depth = level := by
    have counted := foldl_depthAfter above
    omega
  rw [cutArguments_append_of_uncut (uncut_of_no_comma none depth), behind]

/-- A balanced text that is not cut is the piece in front of the next comma. -/
theorem argumentPieces_append {first : Text} (balanced : Balanced first) (uncut : Uncut 0 first)
    (rest : Text) : argumentPieces (first ++ ',' :: rest) = first :: argumentPieces rest := by
  have level := balanced.foldl_depthAfter_eq_zero
  simp [argumentPieces, cutArguments_append_of_uncut uncut, level, cutArguments, depthAfter]

/-- A list that ends at depth zero is cut into a first piece that ends there too,
and balanced ones. -/
theorem cutArguments_balanced {depth : Nat} {text : Text} (above : StaysAbove depth text)
    (level : (depth : Int) + balance text = 0) :
    (StaysAbove depth (cutArguments depth text).1 ∧
        (depth : Int) + balance (cutArguments depth text).1 = 0) ∧
      ∀ piece ∈ (cutArguments depth text).2, Balanced piece := by
  induction text generalizing depth with
  | nil => simpa [cutArguments] using level
  | cons c text inductionHypothesis =>
    obtain ⟨start, above⟩ := staysAbove_cons.mp above
    rw [balance_cons] at level
    have bound : 0 ≤ (depth : Int) + weight c := by simpa using above [] List.nil_prefix
    have exactly := depthAfter_eq bound
    obtain ⟨⟨firstAbove, firstLevel⟩, later⟩ :=
      @inductionHypothesis (depthAfter depth c) (by rwa [exactly]) (by rw [exactly]; omega)
    simp only [cutArguments]
    split
    · rename_i cut
      have zero : depthAfter depth c = 0 := by rw [cut.1, cut.2]; rfl
      rw [zero] at firstAbove firstLevel later
      refine ⟨by simp [cut.2], ?_⟩
      intro piece member
      rcases List.mem_cons.mp member with rfl | member
      · rw [zero]
        exact ⟨by simpa using firstAbove, by simpa using firstLevel⟩
      · exact later piece (by rwa [zero] at member)
    · rw [staysAbove_cons, balance_cons, ← exactly]
      exact ⟨⟨⟨start, firstAbove⟩, by omega⟩, later⟩

/-- No blank is a parenthesis. The blanks are finitely many. -/
theorem blankForms_weight : ∀ c ∈ blankForms, weight c = 0 := by decide

/-- A blank is no parenthesis. -/
theorem weight_of_isBlank {c : Char} (blank : isBlank c = true) : weight c = 0 :=
  blankForms_weight c (mem_blankForms blank)

/-- Blanks are balanced, because they contain no parentheses. -/
theorem balanced_of_blank {text : Text} (blank : ∀ c ∈ text, isBlank c = true) : Balanced text :=
  balanced_of_weightless fun c member => weight_of_isBlank (blank c member)

/-- Every piece of a balanced list is balanced. -/
theorem argumentPieces_balanced {text piece : Text} (balanced : Balanced text)
    (member : piece ∈ argumentPieces text) : Balanced piece := by
  obtain ⟨first, later⟩ := @cutArguments_balanced 0 text balanced.1 (by simp [balanced.2])
  rcases List.mem_cons.mp member with rfl | member
  · exact ⟨first.1, by simpa using first.2⟩
  · exact later piece member

/-- Trimming blanks keeps a text balanced, because blanks are no parentheses and do not change the
depth. -/
theorem Balanced.trim {text : Text} (balanced : Balanced text) : Balanced (Text.trim text) := by
  obtain ⟨left, right, same, leftBlank, rightBlank⟩ := Text.trimWhile_append isBlank text
  have leftZero : balance left = 0 :=
    balance_of_weightless fun c member => weight_of_isBlank (leftBlank c member)
  have rightZero : balance right = 0 :=
    balance_of_weightless fun c member => weight_of_isBlank (rightBlank c member)
  obtain ⟨above, level⟩ := balanced
  rw [same] at above level
  rw [List.append_assoc, staysAbove_append, staysAbove_append, leftZero] at above
  rw [balance_append, balance_append, leftZero, rightZero] at level
  exact ⟨by simpa [Text.trim] using above.2.1, by simpa [Text.trim] using level⟩

/-- Every argument of a balanced list is balanced. -/
theorem splitArguments_balanced {text token : Text} (balanced : Balanced text)
    (member : token ∈ splitArguments text) : Balanced token := by
  obtain ⟨piece, listed, rfl⟩ := List.mem_map.mp member
  exact (argumentPieces_balanced balanced listed).trim

/-- The text is one argument, in whatever list it stands. -/
structure IsArgument (text : Text) : Prop where
  uncut : Uncut 0 text
  balanced : Balanced text
  trimmed : Text.trim text = text

/-- An argument of a balanced list is one in any other list. Its piece is not cut, and without the
blanks around it, which leave the depth alone, it is not cut either. -/
theorem isArgument_of_mem {text token : Text} (balanced : Balanced text)
    (member : token ∈ splitArguments text) : IsArgument token := by
  have level := splitArguments_balanced balanced member
  obtain ⟨piece, listed, rfl⟩ := List.mem_map.mp member
  refine ⟨?_, level, Text.trimWhile_trimWhile isBlank piece⟩
  have uncut := argumentPieces_uncut listed
  obtain ⟨left, right, same, leftBlank, _⟩ := Text.trimWhile_append isBlank piece
  rw [same, uncut_append, uncut_append, (balanced_of_blank leftBlank).foldl_depthAfter_eq_zero] at uncut
  exact uncut.1.2

end SqlRenewal
