import Mathlib.Data.List.Induction
import SqlRenewal.Proofs.Throw.Tokens

/-!
# The pieces of an argument list

An argument list is its pieces, with a comma between neighbours. Where the list is balanced,
it cannot be cut in another way at commas such that every piece is balanced and encloses
the commas left in it between its own parentheses.

Both rest on the depth: a comma of a balanced text is enclosed exactly if more parentheses
are opened than closed before it, and that is what the cutting counts.
-/
namespace SqlRenewal

/-! ### Enclosed commas -/

/-- The comma between the two parts of a text lies between a parenthesis in the first and
the one in the second that closes it. -/
def CommaEnclosed (front rest : Text) : Prop :=
  ∃ before inside inside' after, front = before ++ '(' :: inside ∧ rest = inside' ++ ')' :: after ∧
    Balanced (inside ++ ',' :: inside')

/-- Every comma of the text lies between parentheses of the text. -/
def EnclosesCommas (text : Text) : Prop :=
  ∀ front rest, text = front ++ ',' :: rest → CommaEnclosed front rest

/-- Only an opening parenthesis leads to a greater depth. -/
theorem eq_of_weight_pos {c : Char} (opens : 0 < weight c) : c = '(' := by
  by_contra other
  rw [weight, if_neg other] at opens
  split at opens <;> omega

/-- Behind a parenthesis that is not closed the balance is one more than before it. -/
theorem balance_append_opening (before inside : Text) :
    balance (before ++ '(' :: inside) = balance before + 1 + balance inside := by
  have opens : weight '(' = 1 := rfl
  rw [balance_append, balance_cons, opens, Int.add_assoc]

/-- A text that ends above a depth has opened a parenthesis at that depth and not closed it. The
induction takes the last character away. -/
theorem exists_unclosed {depth : Int} {front : Text} (start : 0 ≤ depth)
    (deeper : depth < balance front) : ∃ before inside, front = before ++ '(' :: inside ∧
      balance before = depth ∧ StaysAbove 0 inside := by
  induction front using List.reverseRecOn with
  | nil =>
    rw [balance_nil] at deeper
    omega
  | append_singleton front c inductionHypothesis =>
    have ends : balance (front ++ [c]) = balance front + weight c := by simp
    rw [ends] at deeper
    -- Either the parenthesis is open before the last character, or that is the one.
    by_cases earlier : depth < balance front
    · obtain ⟨before, inside, rfl, level, above⟩ := inductionHypothesis earlier
      rw [balance_append_opening] at deeper earlier
      refine ⟨before, inside ++ [c], by simp, level, ?_⟩
      simp only [staysAbove_append, staysAbove_cons, staysAbove_nil]
      exact ⟨above, by omega, by omega⟩
    · obtain rfl : c = '(' := eq_of_weight_pos (by omega)
      have opens : weight '(' = 1 := rfl
      exact ⟨front, [], rfl, by omega, by simp⟩

/-- A parenthesis that is open before a comma and closed in the end is closed behind it: the first
place where the depth is back is behind the comma. -/
theorem exists_closing {inside rest : Text} (unclosed : StaysAbove 0 inside)
    (closed : balance (inside ++ ',' :: rest) < 0) : ∃ inside' after,
      rest = inside' ++ ')' :: after ∧ Balanced (inside ++ ',' :: inside') := by
  cases closes : closeAt? 1 (inside ++ ',' :: rest) with
  | none =>
    have bound := closeAt?_one_eq_none_iff.mp closes _ (List.prefix_refl _)
    omega
  | some offset =>
    obtain ⟨enclosed, after, same, _, balanced⟩ := closeAt?_one_eq_some_iff.mp closes
    rcases List.append_eq_append_iff.mp same with ⟨more, rfl, behind⟩ | ⟨more, rfl, behind⟩
    · cases more with
      | nil => simp at behind
      | cons c inside' =>
        obtain ⟨rfl, rfl⟩ := List.cons.inj behind
        exact ⟨inside', after, rfl, balanced⟩
    · cases more with
      | nil => simp at behind
      | cons c more =>
        obtain ⟨rfl, _⟩ := List.cons.inj behind
        have bound := unclosed (enclosed ++ [')']) ⟨more, by simp⟩
        have below : balance (enclosed ++ [')']) = -1 := by
          rw [balance_append, balanced.2]
          rfl
        omega

/-- A comma of a balanced text is enclosed exactly if a parenthesis is open before it. -/
theorem commaEnclosed_iff {front rest : Text} (balanced : Balanced (front ++ ',' :: rest)) :
    CommaEnclosed front rest ↔ 0 < balance front := by
  obtain ⟨above, level⟩ := balanced
  constructor
  · rintro ⟨before, inside, inside', after, rfl, rfl, enclosed⟩
    have outside : 0 ≤ 0 + balance before :=
      above before ((List.prefix_append _ _).trans (List.prefix_append _ _))
    have within : 0 ≤ 0 + balance inside := enclosed.1 inside (List.prefix_append _ _)
    rw [balance_append_opening]
    omega
  · intro opened
    obtain ⟨before, inside, rfl, outermost, within⟩ := exists_unclosed (Int.le_refl 0) opened
    have closed : balance (inside ++ ',' :: rest) < 0 := by
      rw [List.append_assoc, List.cons_append, balance_append_opening] at level
      omega
    obtain ⟨inside', after, rfl, balanced⟩ := exists_closing within closed
    exact ⟨before, inside, inside', after, rfl, rfl, balanced⟩

/-- A text is cut nowhere exactly if a parenthesis is open before each of its commas. The
induction goes along the text, for any depth. -/
theorem uncut_iff_opened {depth : Nat} {text : Text} (above : StaysAbove depth text) :
    Uncut depth text ↔ ∀ front rest, text = front ++ ',' :: rest → 0 < depth + balance front := by
  induction text generalizing depth with
  | nil => simp [uncut_nil]
  | cons c text inductionHypothesis =>
    obtain ⟨_, above⟩ := staysAbove_cons.mp above
    have bound : 0 ≤ (depth : Int) + weight c := by simpa using above [] List.nil_prefix
    have exactly := depthAfter_eq bound
    rw [uncut_cons, inductionHypothesis (by rwa [exactly]), exactly]
    constructor
    · rintro ⟨kept, later⟩ front rest same
      cases front with
      | nil =>
        obtain ⟨rfl, _⟩ := List.cons.inj same
        have opened : depth ≠ 0 := fun level => kept ⟨rfl, level⟩
        rw [balance_nil]
        omega
      | cons d front =>
        obtain ⟨rfl, inner⟩ := List.cons.inj same
        have opened := later front rest inner
        rw [balance_cons]
        omega
    · intro opened
      constructor
      · rintro ⟨rfl, rfl⟩
        have impossible := opened [] text rfl
        simp at impossible
      · rintro front rest rfl
        have inner := opened (c :: front) rest rfl
        rw [balance_cons] at inner
        omega

/-- A balanced text is not cut exactly if each of its commas is enclosed: the depth at a comma is
not zero where some parenthesis before it is closed behind it. -/
theorem Balanced.uncut_iff {text : Text} (balanced : Balanced text) :
    Uncut 0 text ↔ EnclosesCommas text := by
  have counted := @uncut_iff_opened 0 text balanced.1
  rw [counted]
  constructor
  · rintro opened front rest rfl
    exact (commaEnclosed_iff balanced).mpr (by simpa using opened front rest rfl)
  · rintro encloses front rest rfl
    simpa using (commaEnclosed_iff balanced).mp (encloses front rest rfl)

/-! ### Cutting and joining -/

/-- The pieces are what is left of a text that is cut at some of its commas. There is one
more of them than there are cuts, so there is always one. -/
structure CutAtCommas (text : Text) (pieces : List Text) : Prop where
  nonempty : pieces ≠ []
  joined : Text.join [','] pieces = text

/-- The first character of what is joined is that of the first part. -/
theorem Text.join_cons_cons (separator : Text) (c : Char) (first : Text) (rest : List Text) :
    Text.join separator ((c :: first) :: rest) = c :: Text.join separator (first :: rest) := by
  cases rest <;> rfl

/-- Joined by commas, the pieces of a cut are the text: what a cut takes away is one comma, which
the joining puts back. The induction goes along the text, for any depth. -/
theorem join_cutArguments (depth : Nat) (text : Text) :
    Text.join [','] ((cutArguments depth text).1 :: (cutArguments depth text).2) = text := by
  induction text generalizing depth with
  | nil => rfl
  | cons c text inductionHypothesis =>
    have later := inductionHypothesis (depthAfter depth c)
    simp only [cutArguments]
    split
    · rename_i cut
      rw [Text.join, later, cut.1]
      rfl
    · rw [Text.join_cons_cons, later]

/-- The pieces of a text are the text cut at its commas at depth zero, by induction along the
text. -/
theorem argumentPieces_cutAtCommas (text : Text) : CutAtCommas text (argumentPieces text) :=
  ⟨List.cons_ne_nil _ _, join_cutArguments 0 text⟩

/-- Balanced texts that are not cut are the pieces of the list that they are joined to. -/
theorem argumentPieces_join {pieces : List Text} (nonempty : pieces ≠ [])
    (whole : ∀ piece ∈ pieces, Balanced piece ∧ Uncut 0 piece) :
    argumentPieces (Text.join [','] pieces) = pieces := by
  fun_induction Text.join [','] pieces with
  | case1 => contradiction
  | case2 last =>
    have uncut : cutArguments 0 last = (last, []) := (whole last (by simp)).2
    simp [argumentPieces, uncut]
  | case3 first second rest inductionHypothesis =>
    obtain ⟨balanced, uncut⟩ := whole first (by simp)
    rw [List.append_assoc, List.singleton_append, argumentPieces_append balanced uncut,
      inductionHypothesis (by simp) fun piece member => whole piece (by simp [member])]

/-- Splitting an argument list loses nothing: the arguments are pieces, trimmed, and joined
by commas the pieces are the list. Of a balanced list every argument is balanced and
encloses its commas between its own parentheses; and the list is cut into those pieces, and
into no others, that are balanced and enclose their commas. -/
theorem splitArguments_decomposes (text : Text) :
    ∃ pieces, CutAtCommas text pieces ∧ splitArguments text = pieces.map Text.trim ∧
      (Balanced text →
        (∀ token ∈ splitArguments text, Balanced token ∧ EnclosesCommas token) ∧
        ∀ others, (CutAtCommas text others ∧
            ∀ piece ∈ others, Balanced piece ∧ EnclosesCommas piece) ↔ others = pieces) := by
  refine ⟨argumentPieces text, argumentPieces_cutAtCommas text, rfl, ?_⟩
  intro balanced
  constructor
  · intro token member
    have argument := isArgument_of_mem balanced member
    exact ⟨argument.balanced, argument.balanced.uncut_iff.mp argument.uncut⟩
  · intro others
    constructor
    · rintro ⟨cut, each⟩
      rw [← cut.joined]
      refine (argumentPieces_join cut.nonempty ?_).symm
      intro piece member
      obtain ⟨level, encloses⟩ := each piece member
      exact ⟨level, level.uncut_iff.mpr encloses⟩
    · rintro rfl
      refine ⟨argumentPieces_cutAtCommas text, ?_⟩
      intro piece member
      have level := argumentPieces_balanced balanced member
      exact ⟨level, level.uncut_iff.mp (argumentPieces_uncut member)⟩

/-- Calls with commas of their own, and blanks around the pieces. -/
theorem splitArguments_decomposes_calls :
    let text := "f(a, (b)) ,g(), c".toList
    let tokens := ["f(a, (b))".toList, "g()".toList, ['c']]
    Balanced text ∧ splitArguments text = tokens ∧
      ∃ pieces, CutAtCommas text pieces ∧ tokens = pieces.map Text.trim ∧
        (∀ token ∈ tokens, Balanced token ∧ EnclosesCommas token) ∧
        ∀ others, (CutAtCommas text others ∧
            ∀ piece ∈ others, Balanced piece ∧ EnclosesCommas piece) ↔ others = pieces := by
  intro text tokens
  have balanced : Balanced text := balanced_iff_closeAt?.mpr (by decide)
  have split : splitArguments text = tokens := by decide
  obtain ⟨pieces, cut, trimmed, decomposes⟩ := splitArguments_decomposes text
  obtain ⟨each, alone⟩ := decomposes balanced
  rw [split] at trimmed each
  exact ⟨balanced, split, pieces, cut, trimmed, each, alone⟩

end SqlRenewal
