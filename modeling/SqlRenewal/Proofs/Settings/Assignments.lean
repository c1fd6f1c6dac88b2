import SqlRenewal.Settings.Dotenv

/-!
# The last assignment

A settings file may assign values to one key several times. The last of these
assignments counts, whatever lines stand around it.
-/
namespace SqlRenewal

/-! ### Ordered associations -/

section Association

variable {α β : Type} [DecidableEq α]

/-- The value of a key is that of the first pair with it, so a pair in front decides for its own
key only. -/
theorem valueOf?_cons (key : α) (pair : α × β) (pairs : List (α × β)) :
    valueOf? key (pair :: pairs) = if pair.1 = key then some pair.2 else valueOf? key pairs := by
  rw [valueOf?, List.find?_cons]
  by_cases here : pair.1 = key
  · simp [here]
  · have elsewhere : (pair.1 == key) = false := by simpa using here
    simp only [elsewhere, here, if_false, valueOf?]

/-- The value of a key in two lists is that in the first, or else that in the second. -/
theorem valueOf?_append (key : α) (pairs others : List (α × β)) :
    valueOf? key (pairs ++ others) = (valueOf? key pairs).or (valueOf? key others) := by
  rw [valueOf?, valueOf?, valueOf?, List.find?_append, Option.map_or]

/-- What was assigned to a key before is replaced, and other keys keep their values. The induction
is over the pairs, each of which is either one of the key or untouched. -/
theorem valueOf?_replaced (key other : α) (value : β) (pairs : List (α × β)) :
    valueOf? other (pairs.map fun pair => if pair.1 = key then (key, value) else pair) =
      if other = key then (valueOf? key pairs).map fun _ => value else valueOf? other pairs := by
  induction pairs with
  | nil => simp [valueOf?]
  | cons pair pairs inductionHypothesis =>
    rw [List.map_cons, valueOf?_cons, inductionHypothesis, valueOf?_cons, valueOf?_cons]
    by_cases named : pair.1 = key
    · by_cases same : other = key
      · simp [named, same]
      · simp [named, same, Ne.symm same]
    · by_cases same : other = key
      · simp [named, same]
      · simp [named, same]

/-- An assignment gives its key the new value, in the place of the old one or behind all others,
and every other key keeps its own. -/
theorem valueOf?_assign (key other : α) (value : β) (pairs : List (α × β)) :
    valueOf? other (assign key value pairs) =
      if other = key then some value else valueOf? other pairs := by
  rw [assign]
  split
  · rename_i present
    obtain ⟨pair, member, named⟩ := List.any_eq_true.mp present
    have assigned : (valueOf? key pairs).isSome := by
      rw [valueOf?, Option.isSome_map, List.find?_isSome]
      exact ⟨pair, member, named⟩
    obtain ⟨old, found⟩ := Option.isSome_iff_exists.mp assigned
    rw [valueOf?_replaced, found, Option.map_some]
  · rename_i absent
    have free : valueOf? key pairs = none := by
      rw [valueOf?, Option.map_eq_none_iff, List.find?_eq_none]
      exact fun pair member named => absent (List.any_eq_true.mpr ⟨pair, member, named⟩)
    rw [valueOf?_append, valueOf?_cons]
    by_cases same : other = key
    · simp [same, free]
    · simp [same, Ne.symm same, valueOf?]

/-- With distinct keys, the value of a key is the one that stands beside it, since behind it the
key does not occur again. -/
theorem valueOf?_eq_some_iff {pairs : List (α × β)} (distinct : (pairs.map Prod.fst).Nodup)
    {key : α} {value : β} : valueOf? key pairs = some value ↔ (key, value) ∈ pairs := by
  induction pairs with
  | nil => simp [valueOf?]
  | cons pair pairs inductionHypothesis =>
    obtain ⟨name, other⟩ := pair
    rw [List.map_cons, List.nodup_cons] at distinct
    rw [valueOf?_cons]
    by_cases here : name = key
    · subst here
      have once : (name, value) ∉ pairs := fun member =>
        distinct.1 (List.mem_map.mpr ⟨(name, value), member, rfl⟩)
      simp [once, eq_comm]
    · rw [if_neg here, inductionHypothesis distinct.2]
      simp [Ne.symm here]

/-- A new key stands behind the others, and a key that is there keeps its place. -/
theorem map_fst_assign (key : α) (value : β) (pairs : List (α × β)) :
    (assign key value pairs).map Prod.fst =
      if key ∈ pairs.map Prod.fst then pairs.map Prod.fst else pairs.map Prod.fst ++ [key] := by
  have listed : (pairs.any fun pair => pair.1 == key) = true ↔ key ∈ pairs.map Prod.fst := by
    simp [List.any_eq_true]
  rw [assign]
  by_cases present : key ∈ pairs.map Prod.fst
  · have sameKeys (pair : α × β) :
        (Prod.fst ∘ fun pair => if pair.1 = key then (key, value) else pair) pair = pair.1 := by
      by_cases named : pair.1 = key
      · simp [named]
      · simp [named]
    rw [if_pos (listed.mpr present), if_pos present, List.map_map, List.map_congr_left]
    exact fun pair _ => sameKeys pair
  · rw [if_neg (fun found => present (listed.mp found)), if_neg present, List.map_append]
    rfl

/-- Assigns the values of some pairs to their keys, one after the other. -/
def assignAll (pairs values : List (α × β)) : List (α × β) :=
  pairs.foldl (fun values pair => assign pair.1 pair.2 values) values

/-- Behind the pairs, a key has the value of the last one that names it, or the one that it
had before. -/
theorem valueOf?_assignAll (key : α) (pairs values : List (α × β)) :
    valueOf? key (assignAll pairs values) =
      (((pairs.filter fun pair => pair.1 = key).getLast?).map (·.2)).or (valueOf? key values) := by
  induction pairs generalizing values with
  | nil => rfl
  | cons pair pairs inductionHypothesis =>
    have step : assignAll (pair :: pairs) values =
        assignAll pairs (assign pair.1 pair.2 values) := rfl
    rw [step, inductionHypothesis, valueOf?_assign]
    by_cases named : key = pair.1
    · simp only [named, if_true, List.filter_cons, decide_true, List.getLast?_cons]
      cases (pairs.filter fun other => other.1 = pair.1).getLast? <;> rfl
    · simp [named, Ne.symm named]

/-- Assignments keep the keys apart, because a key that is there is assigned in its place. -/
theorem nodup_assignAll (pairs : List (α × β)) {values : List (α × β)}
    (distinct : (values.map Prod.fst).Nodup) : ((assignAll pairs values).map Prod.fst).Nodup := by
  induction pairs generalizing values with
  | nil => exact distinct
  | cons pair pairs inductionHypothesis =>
    apply inductionHypothesis
    rw [map_fst_assign]
    split
    · exact distinct
    · rename_i fresh
      rw [List.nodup_append]
      refine ⟨distinct, by simp, ?_⟩
      rintro key member other single rfl
      exact fresh (List.mem_singleton.mp single ▸ member)

/-- Keys stand in the order of their first assignments, behind those that were there. The
induction is over the assignments. -/
theorem map_fst_assignAll [BEq α] [LawfulBEq α] (pairs values : List (α × β)) :
    (assignAll pairs values).map Prod.fst = values.map Prod.fst ++
      ((pairs.map Prod.fst).filter fun key => key ∉ values.map Prod.fst).eraseDups := by
  induction pairs generalizing values with
  | nil => simp [assignAll]
  | cons pair pairs inductionHypothesis =>
    have step : assignAll (pair :: pairs) values =
        assignAll pairs (assign pair.1 pair.2 values) := rfl
    rw [step, inductionHypothesis, map_fst_assign, List.map_cons, List.filter_cons]
    by_cases present : pair.1 ∈ values.map Prod.fst
    · simp only [present, if_true, not_true_eq_false, decide_false, Bool.false_eq_true, if_false]
    · simp only [present, if_false, not_false_eq_true, decide_true, if_true]
      rw [List.append_assoc, List.eraseDups_cons, List.filter_filter, List.singleton_append]
      congr 3
      apply List.filter_congr
      intro key _
      simp only [List.mem_append, List.mem_singleton, not_or, Bool.decide_and]
      by_cases same : key = pair.1
      · simp [same]
      · simp [same]

end Association

/-! ### Settings files -/

namespace Dotenv

/-- The last value that lines assign to a key. -/
def lastOf? (key : Text) (lines : List Text) : Option Text :=
  (((lines.filterMap assignment?).filter fun pair => pair.1 == key).getLast?).map (·.2)

/-- The value of the last assignment to a key in a settings file. -/
def lastAssigned? (key text : Text) : Option Text :=
  lastOf? key (splitLines text)

/-- Reading lines assigns what they say, one line after the other. A line without an assignment
leaves the table alone, in the fold as in the filter. -/
theorem addLines_eq (lines : List Text) (values : List (Text × Text)) :
    lines.foldl addLine values = assignAll (lines.filterMap assignment?) values := by
  induction lines generalizing values with
  | nil => rfl
  | cons line lines inductionHypothesis =>
    rw [List.foldl_cons, inductionHypothesis, addLine, List.filterMap_cons]
    cases assignment? line with
    | none => rfl
    | some pair => rfl

/-- Lines that are read add their last assignments to what there was before. -/
theorem valueOf?_addLines (key : Text) (lines : List Text) (values : List (Text × Text)) :
    valueOf? key (lines.foldl addLine values) = (lastOf? key lines).or (valueOf? key values) := by
  have named (pair : Text × Text) : (pair.1 == key) = decide (pair.1 = key) := by
    rw [Bool.eq_iff_iff]
    simp
  simp only [addLines_eq, valueOf?_assignAll, lastOf?, named]

/-- A settings file gives a key the value of its last assignment. -/
theorem valueOf?_read (key text : Text) : valueOf? key (read text) = lastAssigned? key text := by
  rw [read, valueOf?_addLines]
  exact Option.or_none

end Dotenv

end SqlRenewal
