import Mathlib.Order.Bounds.Basic
import SqlRenewal.Proofs.Raise.Depth

/-!
# The matching parenthesis

Counted from an opening parenthesis on, more parentheses are opened than closed up to the
matching one, and there they are as many for the first time. What stands between the two
is balanced. Where no such place comes, every prefix opens more than it closes.

Everything follows from the depth behind the opening parenthesis: the matching one is the
first character that brings it below zero.
-/
namespace SqlRenewal

/-- The first character that brings the depth below zero closes an argument list. Up to it no
prefix closes more than it opens, which is what being the first one means. -/
theorem closeAt?_one_iff_isLeast {text : Text} {offset : Nat} :
    closeAt? 1 text = some offset ↔
      IsLeast {place | place < text.length ∧ balance (text.take (place + 1)) = -1} offset := by
  have closing {place : Nat} (closed : closeAt? 1 text = some place) :
      IsLeast {place | place < text.length ∧ balance (text.take (place + 1)) = -1} place := by
    obtain ⟨inside, rest, rfl, rfl, above, level⟩ := closeAt?_one_eq_some_iff.mp closed
    refine ⟨⟨by simp, ?_⟩, ?_⟩
    · rw [List.take_length_add_append, balance_append, level]
      rfl
    · rintro place ⟨_, below⟩
      by_contra earlier
      have front : (inside ++ ')' :: rest).take (place + 1) = inside.take (place + 1) :=
        List.take_append_of_le_length (by omega)
      have bound := above (inside.take (place + 1)) (List.take_prefix _ _)
      rw [front] at below
      omega
  constructor
  · exact closing
  · intro least
    cases found : closeAt? 1 text with
    | some place => rw [(closing found).unique least]
    | none =>
      have bound := closeAt?_one_eq_none_iff.mp found (text.take (offset + 1)) (List.take_prefix _ _)
      have below := least.1.2
      omega

section Matching

variable {text : Text} {start : Nat}

/-- The indices behind the given one up to which a text, read from there, opens as many
parentheses as it closes. The characters at both indices count. -/
def levelIndices (text : Text) (start : Nat) : Set Nat :=
  {index | start < index ∧ index < text.length ∧
    (text.extract start (index + 1)).count '(' = (text.extract start (index + 1)).count ')'}

/-- A text from which everything before a parenthesis is dropped begins with it. -/
theorem drop_of_opens (opens : text[start]? = some '(') :
    text.drop start = '(' :: text.drop (start + 1) := by
  obtain ⟨inside, here⟩ := List.getElem?_eq_some_iff.mp opens
  rw [List.drop_eq_getElem_cons inside, here]

/-- From an opening parenthesis on, the search goes over what it encloses: the parenthesis itself
brings the depth to one, and offsets are counted from behind it. -/
theorem matchingClose_of_opens (opens : text[start]? = some '(') :
    matchingClose text start = .ok ((closeAt? 1 (text.drop (start + 1))).map
      fun offset => ((start + 1 + offset : Nat) : Int)) := by
  have inside : ¬ (text.length + (start : Int) < 0) := by omega
  have forward : ¬ ((start : Int) < 0) := by omega
  rw [matchingClose, if_neg inside, matchingClose?, readFrom, if_neg forward, Int.toNat_natCast,
    drop_of_opens opens, closeAt?, if_pos rfl, Int.zero_add]
  cases closeAt? 1 (text.drop (start + 1)) with
  | none => rfl
  | some offset =>
    have reached : (start : Int) + ((offset + 1 : Nat) : Int) = ((start + 1 + offset : Nat) : Int) := by
      omega
    exact congrArg (fun index => Except.ok (some index)) reached

/-- The indices at which the depth is back where it was before the parenthesis are those at which
the balance of what is inside has fallen by one. -/
theorem mem_levelIndices (opens : text[start]? = some '(') (offset : Nat) :
    start + 1 + offset ∈ levelIndices text start ↔ offset < (text.drop (start + 1)).length ∧
      balance ((text.drop (start + 1)).take (offset + 1)) = -1 := by
  have excerpt : text.extract start (start + 1 + offset + 1) =
      '(' :: (text.drop (start + 1)).take (offset + 1) := by
    rw [List.extract, drop_of_opens opens,
      show start + 1 + offset + 1 - start = offset + 1 + 1 by omega, List.take_succ_cons]
  have level : (text.extract start (start + 1 + offset + 1)).count '(' =
        (text.extract start (start + 1 + offset + 1)).count ')' ↔
      balance ((text.drop (start + 1)).take (offset + 1)) = -1 := by
    have counted := balance_eq_count (text.extract start (start + 1 + offset + 1))
    have whole : balance (text.extract start (start + 1 + offset + 1)) =
        1 + balance ((text.drop (start + 1)).take (offset + 1)) := by
      rw [excerpt]
      rfl
    omega
  rw [levelIndices, Set.mem_ofPred_eq, level, List.length_drop]
  constructor
  · rintro ⟨_, inside, below⟩
    exact ⟨by omega, below⟩
  · rintro ⟨inside, below⟩
    exact ⟨by omega, by omega, below⟩

/-- The matching parenthesis stands at the first place that closes as much as was opened. Offsets
behind the opening parenthesis are carried back to indices of the text. -/
theorem isLeast_levelIndices_iff (opens : text[start]? = some '(') {index : Nat} :
    IsLeast (levelIndices text start) index ↔
      ∃ offset, index = start + 1 + offset ∧ closeAt? 1 (text.drop (start + 1)) = some offset := by
  have behind {place : Nat} (member : place ∈ levelIndices text start) :
      ∃ offset, place = start + 1 + offset := ⟨place - (start + 1), by have := member.1; omega⟩
  constructor
  · rintro ⟨member, least⟩
    obtain ⟨offset, rfl⟩ := behind member
    refine ⟨offset, rfl, closeAt?_one_iff_isLeast.mpr ⟨(mem_levelIndices opens offset).mp member, ?_⟩⟩
    intro other level
    have bound := least ((mem_levelIndices opens other).mpr level)
    omega
  · rintro ⟨offset, rfl, closed⟩
    obtain ⟨level, least⟩ := closeAt?_one_iff_isLeast.mp closed
    refine ⟨(mem_levelIndices opens offset).mpr level, ?_⟩
    intro place member
    obtain ⟨other, rfl⟩ := behind member
    have bound := least ((mem_levelIndices opens other).mp member)
    omega

/-- Nothing closes the parenthesis exactly if every prefix from it on opens more than it
closes. -/
theorem closeAt?_eq_none_iff_count (opens : text[start]? = some '(') :
    closeAt? 1 (text.drop (start + 1)) = none ↔
      ∀ front, front <+: text.drop start → front ≠ [] → front.count ')' < front.count '(' := by
  rw [closeAt?_one_eq_none_iff, drop_of_opens opens]
  have counts (front : Text) : ('(' :: front).count ')' < ('(' :: front).count '(' ↔
      0 ≤ 0 + balance front := by
    have counted := balance_eq_count ('(' :: front)
    have whole : balance ('(' :: front) = 1 + balance front := rfl
    omega
  constructor
  · intro above front begins some
    obtain rfl | ⟨shorter, rfl, inner⟩ := List.prefix_cons_iff.mp begins
    · exact absurd rfl some
    · exact (counts shorter).mpr (above shorter inner)
  · intro more front begins
    have opened := more ('(' :: front) (List.cons_prefix_cons.mpr ⟨rfl, begins⟩) (List.cons_ne_nil _ _)
    exact (counts front).mp opened

/-- The depth matching is exact. From an opening parenthesis it finds an index exactly if
this is the first one behind it up to which as many parentheses are opened as closed; a
closing one stands there, and between the two the text is balanced. It finds nothing
exactly if every prefix from the opening one on opens more than it closes. -/
theorem matchingClose_exact (opens : text[start]? = some '(') :
    (∀ close : Int, matchingClose text start = .ok (some close) ↔
        ∃ index : Nat, close = index ∧ IsLeast (levelIndices text start) index) ∧
      (∀ index : Nat, matchingClose text start = .ok (some (index : Int)) →
        text[index]? = some ')' ∧ Balanced (text.extract (start + 1) index)) ∧
      (matchingClose text start = .ok none ↔
        ∀ front, front <+: text.drop start → front ≠ [] → front.count ')' < front.count '(') := by
  rw [matchingClose_of_opens opens]
  refine ⟨?found, ?enclosed, ?unclosed⟩
  case found =>
    intro close
    rw [Except.ok.injEq, Option.map_eq_some_iff]
    constructor
    · rintro ⟨offset, closed, rfl⟩
      exact ⟨start + 1 + offset, rfl, (isLeast_levelIndices_iff opens).mpr ⟨offset, rfl, closed⟩⟩
    · rintro ⟨index, rfl, least⟩
      obtain ⟨offset, rfl, closed⟩ := (isLeast_levelIndices_iff opens).mp least
      exact ⟨offset, closed, rfl⟩
  case enclosed =>
    intro index found
    rw [Except.ok.injEq, Option.map_eq_some_iff] at found
    obtain ⟨offset, closed, same⟩ := found
    obtain rfl : start + 1 + offset = index := Int.ofNat_inj.mp same
    obtain ⟨inside, rest, whole, rfl, balanced⟩ := closeAt?_one_eq_some_iff.mp closed
    constructor
    · rw [← List.getElem?_drop, whole, List.getElem?_append_right (Nat.le_refl _), Nat.sub_self]
      rfl
    · rw [List.extract, whole, Nat.add_sub_cancel_left, List.take_left]
      exact balanced
  case unclosed =>
    rw [Except.ok.injEq, Option.map_eq_none_iff, closeAt?_eq_none_iff_count opens]

end Matching

/-- Nested parentheses, and one that closes nothing behind them. -/
theorem matchingClose_exact_nested :
    let text := "f((a)(b)))".toList
    text[1]? = some '(' ∧ matchingClose text (1 : Nat) = .ok (some 8) ∧
      IsLeast (levelIndices text 1) 8 ∧ text[8]? = some ')' ∧ Balanced (text.extract 2 8) ∧
      ¬ ∀ front, front <+: text.drop 1 → front ≠ [] → front.count ')' < front.count '(' := by
  intro text
  have opens : text[1]? = some '(' := by decide
  obtain ⟨found, enclosed, unclosed⟩ := matchingClose_exact opens
  have closed : matchingClose text (1 : Nat) = .ok (some ((8 : Nat) : Int)) := by decide
  obtain ⟨index, same, least⟩ := (found 8).mp closed
  obtain rfl : 8 = index := Int.ofNat_inj.mp same
  obtain ⟨closing, balanced⟩ := enclosed 8 closed
  refine ⟨opens, closed, least, closing, balanced, ?_⟩
  rw [← unclosed, closed]
  decide

end SqlRenewal
