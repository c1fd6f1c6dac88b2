import SqlRenewal.Proofs.Substitution.Reflection
import SqlRenewal.Proofs.Raise.Statement

/-!
# Rules that keep lines and keywords

An application of a rule that loses neither a line break nor a keyword is firm: the
keyword begins in the new text exactly where it begins in the old one, and no swap
takes a line break. Then what the statement pass reads behind a keyword can be read
off either text: the occurrence itself, the closing parenthesis of its arguments,
and the end of its line.
-/
namespace SqlRenewal

/-- Swaps that take no line break. -/
def FlatSwap (before : Option Char) (taken put : Text) : Prop :=
  Swap true before taken put ∧ ∀ c ∈ taken, isLineBreak c = false

/-- A swap in which no line break is lost is a swap. -/
theorem FlatSwap.swap {before : Option Char} {taken put : Text} (flat : FlatSwap before taken put) :
    Swap true before taken put :=
  flat.1

/-- The texts before and after an application that loses no line break and no keyword. -/
abbrev Firm : Option Char → Option Char → Text → Text → Prop :=
  Aligned (fun before before' old new => startsRaise before old = startsRaise before' new) FlatSwap

/-- An application is firm if it keeps the number of line breaks and of keywords. No swap adds
any, so one that took some away would be missing in the whole; the induction goes along the
swaps. -/
theorem Firm.of_renewed {joins : Bool} {before before' : Option Char} {old new : Text}
    (renewed : Renewed joins before before' old new)
    (lines : new.countP isLineBreak = old.countP isLineBreak)
    (words : countRaises before' new = countRaises before old) : Firm before before' old new := by
  have never := putForms_isLineBreak
  induction renewed with
  | nil => exact .nil
  | @keep before before' c old new follows later inductionHypothesis =>
    have reflected : startsRaise before' (c :: new) = true → startsRaise before (c :: old) = true :=
      Renewed.startsWord (.keep follows later) raiseWord_sought
    have fewer := Renewed.countRaises_le later
    rw [countRaises, countRaises] at words
    rw [List.countP_cons, List.countP_cons] at lines
    have same : startsRaise before (c :: old) = startsRaise before' (c :: new) := by
      by_cases starts : startsRaise before' (c :: new) = true
      · rw [starts, reflected starts]
      · by_cases started : startsRaise before (c :: old) = true
        · rw [if_neg starts, if_pos started] at words
          omega
        · rw [Bool.not_eq_true] at starts started
          rw [starts, started]
    rw [same] at words
    exact .keep same (inductionHypothesis (by omega) (by omega))
  | @swap before before' taken put old new swap later inductionHypothesis =>
    have fewer := later.countP_le Swap.mono never
    have none : put.countP isLineBreak = 0 := by
      apply List.countP_eq_zero.mpr
      intro c member
      simp [never c (swap.put_mem c member)]
    rw [List.countP_append, List.countP_append, none] at lines
    rw [countRaises_append_of_lacks (swap.put_lacks raiseWord_sought before' new),
      countRaises_append_of_lacks (swap.taken_lacks before old)] at words
    refine .swap ⟨swap.mono, ?_⟩ (inductionHypothesis (by omega) words)
    intro c member
    have unbroken := List.countP_eq_zero.mp (show taken.countP isLineBreak = 0 by omega) c member
    simpa using unbroken

/-- A renewal that keeps line breaks and joins no words keeps the number of keywords: none of its
swaps is about the keyword, and none of them can make one. -/
theorem Firm.countRaises_eq {before before' : Option Char} {old new : Text}
    (firm : Firm before before' old new) : countRaises before' new = countRaises before old := by
  induction firm with
  | nil => rfl
  | keep same later inductionHypothesis => rw [countRaises, countRaises, same, inductionHypothesis]
  | @swap before before' taken put old new flat later inductionHypothesis =>
    rw [countRaises_append_of_lacks (flat.swap.put_lacks raiseWord_sought before' new),
      countRaises_append_of_lacks (flat.swap.taken_lacks before old)]
    exact inductionHypothesis

/-- An occurrence of the keyword stays one, in front of what its rest has become. Swaps neither
begin inside the keyword nor join it, so its letters were kept one by one. -/
theorem Firm.occurs {before before' : Option Char} {front word after new : Text}
    (firm : Firm before before' (front ++ word ++ after) new)
    (occurs : Occurs before front word after) :
    ∃ front' after', new = front' ++ word ++ after' ∧ Occurs before' front' word after' ∧
      Firm (lastOf before (front ++ word)) (lastOf before' (front' ++ word)) after after' := by
  generalize whole : front ++ word ++ after = old at firm
  induction firm generalizing front with
  | nil =>
    have none : word = [] := by simp_all
    exact absurd none (occurs.spelled.ne_nil (by decide))
  | @keep before before' c old new same later inductionHypothesis =>
    cases front with
    | nil =>
      -- The occurrence is here: its other letters are kept, and it is still a word.
      obtain ⟨d, more, rfl, letter⟩ := occurs.spelled.cons_of_known raiseWord_known (by decide)
      rw [List.nil_append, List.cons_append] at whole
      obtain ⟨rfl, rfl⟩ := List.cons.inj whole
      have starts : startsRaise before (d :: (more ++ after)) = true :=
        startsWord_iff.mpr ⟨occurs.opened, d :: more, after, rfl, occurs.spelled, occurs.closed⟩
      have isWord := letterForms_isWordChar d letter
      obtain ⟨after', rfl, aligned⟩ := later.letters_of_old FlatSwap.swap (by simp [endsWord, isWord])
        fun e member => occurs.spelled.letters raiseWord_known e (by simp [member])
      rw [starts] at same
      obtain ⟨opened, word', rest', split, spelled', closed'⟩ := startsWord_iff.mp same.symm
      have lengths : (d :: more).length = word'.length := by
        rw [occurs.spelled.length_eq, spelled'.length_eq]
      obtain ⟨_, rfl⟩ := List.append_inj (show d :: more ++ after' = word' ++ rest' from split) lengths
      exact ⟨[], after', rfl, ⟨trivial, opened, occurs.spelled, closed'⟩, by simpa using aligned⟩
    | cons d front =>
      rw [List.cons_append, List.cons_append] at whole
      obtain ⟨rfl, rfl⟩ := List.cons.inj whole
      obtain ⟨absent, lacking⟩ := occurs.lacking
      have inner : Occurs (some d) front word after :=
        ⟨lacking, by simpa using occurs.opened, occurs.spelled, occurs.closed⟩
      obtain ⟨front', after', rfl, occurs', aligned⟩ := inductionHypothesis inner rfl
      refine ⟨d :: front', after', rfl, ⟨⟨?_, occurs'.lacking⟩, by simpa using occurs'.opened,
        occurs'.spelled, occurs'.closed⟩, by simpa using aligned⟩
      rw [← startsRaise_eq] at absent ⊢
      rw [List.append_assoc] at same
      rw [← absent, same, List.append_assoc]
  | @swap before before' taken put old new flat later inductionHypothesis =>
    have starts : startsWord raiseWord (lastOf before front) (word ++ after) = true :=
      startsWord_iff.mpr ⟨occurs.opened, word, after, rfl, occurs.spelled, occurs.closed⟩
    obtain ⟨more, rfl, rfl⟩ := (flat.swap.taken_lacks before old).before_start
      (by rw [← whole, List.append_assoc]) starts
    have inner : Occurs (lastOf before taken) more word after := by
      refine ⟨(lacks_append.mp occurs.lacking).2, ?_, occurs.spelled, occurs.closed⟩
      rw [← lastOf_append]
      exact occurs.opened
    obtain ⟨front', after', rfl, occurs', aligned⟩ := inductionHypothesis inner (by simp)
    refine ⟨put ++ front', after', by simp, ?_, ?_⟩
    · exact occurs'.prepend (flat.swap.put_lacks raiseWord_sought before' _)
    · rw [List.append_assoc, List.append_assoc, lastOf_append, lastOf_append _ put]
      exact aligned

/-! ### Cutting a firm alignment -/

/-- The text is over, or it goes on with a character outside words that no swap
begins with. -/
def Barrier (text : Text) : Prop :=
  ∀ c ∈ text.head?, c ∉ openingForms ∧ endsWord (some c) = true

/-- No word goes on in a barrier. -/
theorem Barrier.endsWord_head {text : Text} (barrier : Barrier text) :
    endsWord text.head? = true := by
  cases text with
  | nil => rfl
  | cons c rest => exact (barrier c rfl).2

/-- A barrier stays one: swaps put no character of words in its first place. -/
theorem Firm.barrier {before before' : Option Char} {old new : Text}
    (firm : Firm before before' old new) (barrier : Barrier old) : Barrier new := by
  cases firm with
  | nil => exact barrier
  | keep same later => exact barrier
  | swap flat later =>
    obtain ⟨c, more, rfl, opening⟩ := flat.swap.taken_head
    exact absurd opening (barrier c rfl).1

/-- At a barrier that no swap goes over, a firm alignment can be cut in two. The induction goes
along the alignment up to the barrier. -/
theorem Firm.cut {before before' : Option Char} {front rest new : Text}
    (firm : Firm before before' (front ++ rest) new) (barrier : Barrier rest)
    (whole : ∀ early late, front = early ++ late → ∀ {b taken put}, FlatSwap b taken put →
      taken <+: late ++ rest → taken <+: late) :
    ∃ front' rest', new = front' ++ rest' ∧ Firm before before' front front' ∧
      Firm (lastOf before front) (lastOf before' front') rest rest' := by
  generalize joined : front ++ rest = old at firm
  induction firm generalizing front with
  | nil =>
    obtain ⟨rfl, rfl⟩ := List.append_eq_nil_iff.mp joined
    exact ⟨[], [], rfl, .nil, .nil⟩
  | @keep before before' c old new same later inductionHypothesis =>
    cases front with
    | nil =>
      rw [List.nil_append] at joined
      subst joined
      exact ⟨[], c :: new, rfl, .nil, .keep same later⟩
    | cons d front =>
      rw [List.cons_append] at joined
      obtain ⟨rfl, rfl⟩ := List.cons.inj joined
      obtain ⟨front', rest', rfl, first, second⟩ :=
        inductionHypothesis (fun early late split => whole (d :: early) late (by rw [split]; rfl)) rfl
      have closed : Seam before (d :: front) rest := .inr barrier.endsWord_head
      have closed' : Seam before' (d :: front') rest' := .inr (second.barrier barrier).endsWord_head
      refine ⟨d :: front', rest', rfl, .keep ?_ first, by simpa using second⟩
      rw [startsRaise_eq, startsRaise_eq, startsWord_append raiseWord_known closed,
        startsWord_append raiseWord_known closed'] at same
      rw [startsRaise_eq, startsRaise_eq, same]
  | @swap before before' taken put old new flat later inductionHypothesis =>
    cases front with
    | nil =>
      rw [List.nil_append] at joined
      subst joined
      exact ⟨[], put ++ new, rfl, .nil, .swap flat later⟩
    | cons d front =>
      obtain ⟨more, split⟩ := whole [] (d :: front) rfl flat ⟨old, joined.symm⟩
      rw [← split, List.append_assoc] at joined
      obtain ⟨front', rest', rfl, first, second⟩ := inductionHypothesis
        (fun early late same => whole (taken ++ early) late (by rw [← split, same, List.append_assoc]))
        (List.append_cancel_left joined)
      refine ⟨put ++ front', rest', by simp, ?_, ?_⟩
      · rw [← split]
        exact .swap flat first
      · rw [← split, lastOf_append, lastOf_append]
        exact second

end SqlRenewal
