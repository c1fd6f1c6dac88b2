import SqlRenewal.Json.Printer

/-!
# Arranged values

Two values are the same if they differ at most in the order in which the fields of
their objects stand. Arranging a value keeps it the same, so it makes no difference to
a reader who looks fields up by their keys.

Whether a value can be written depends on how deep it is and on the integers in it,
and on neither of these is the order of fields of any influence.
-/
namespace SqlRenewal.Json

/-! ### Values that are the same -/

mutual

/-- The values differ at most in the order of the fields of their objects. -/
inductive Same : Json → Json → Prop where
  | null : Same .null .null
  | bool (value : Bool) : Same (.bool value) (.bool value)
  | int (value : Int) : Same (.int value) (.int value)
  | text (value : Text) : Same (.text value) (.text value)
  | list {elements others : List Json} (each : SameAll elements others) :
      Same (.list elements) (.list others)
  | object {fields others moved : List (Text × Json)} (each : SameFields fields others)
      (permuted : others.Perm moved) : Same (.object fields) (.object moved)

/-- The values are the same, one by one. -/
inductive SameAll : List Json → List Json → Prop where
  | nil : SameAll [] []
  | cons {element other : Json} {rest others : List Json} (first : Same element other)
      (later : SameAll rest others) : SameAll (element :: rest) (other :: others)

/-- The fields have the same keys and the same values, one by one. -/
inductive SameFields : List (Text × Json) → List (Text × Json) → Prop where
  | nil : SameFields [] []
  | cons {key : Text} {value other : Json} {rest others : List (Text × Json)}
      (first : Same value other) (later : SameFields rest others) :
      SameFields ((key, value) :: rest) ((key, other) :: others)

end

mutual

/-- A value is the same as the one in which all fields are sorted: a sorting only permutes the
fields of each object. The induction is on the value, with lists and fields beside it. -/
theorem same_arrange : (value : Json) → value.Same value.arrange
  | .null => .null
  | .bool value => .bool value
  | .int value => .int value
  | .text value => .text value
  | .list elements => .list (sameAll_arrangeAll elements)
  | .object fields => .object (sameFields_arrangeFields fields) (List.mergeSort_perm _ _).symm

/-- The elements of a list are sorted one by one. -/
theorem sameAll_arrangeAll : (elements : List Json) → SameAll elements (arrangeAll elements)
  | [] => .nil
  | element :: rest => .cons (same_arrange element) (sameAll_arrangeAll rest)

/-- The values of the fields are sorted one by one, and their keys are kept. -/
theorem sameFields_arrangeFields :
    (fields : List (Text × Json)) → SameFields fields (arrangeFields fields)
  | [] => .nil
  | (_, value) :: rest => .cons (same_arrange value) (sameFields_arrangeFields rest)

end

/-! ### Objects as maps -/

/-- The value of the first field of a key. -/
def lookUp? (key : Text) (fields : List (Text × Json)) : Option Json :=
  (fields.find? fun entry => entry.1 == key).map (·.2)

/-- Fields that are the same one by one have the same keys in the same order. -/
theorem SameFields.keys {fields others : List (Text × Json)} (each : SameFields fields others) :
    fields.map Prod.fst = others.map Prod.fst := by
  induction fields generalizing others with
  | nil =>
    cases each
    rfl
  | cons entry rest inductionHypothesis =>
    cases each with
    | cons first later => rw [List.map_cons, List.map_cons, inductionHypothesis later]

/-- Fields that are the same one by one give the same value for every key, because the key is
found at the same position. -/
theorem SameFields.lookUp? {fields others : List (Text × Json)} (each : SameFields fields others)
    (key : Text) : Option.Rel Same (lookUp? key fields) (lookUp? key others) := by
  induction fields generalizing others with
  | nil =>
    cases each
    exact .none
  | cons entry rest inductionHypothesis =>
    cases each with
    | @cons name value other rest others first later =>
      rw [Json.lookUp?, Json.lookUp?, List.find?_cons, List.find?_cons]
      by_cases here : (name == key) = true
      · simp only [here]
        exact .some first
      · simp only [here]
        exact inductionHypothesis later

/-- With distinct keys, the search for a key finds a field exactly if it is listed. The induction
is over the fields: behind the first one with the key there is no other. -/
theorem lookUp?_eq_some_iff {fields : List (Text × Json)} (distinct : (fields.map Prod.fst).Nodup)
    {key : Text} {value : Json} : lookUp? key fields = some value ↔ (key, value) ∈ fields := by
  induction fields with
  | nil => simp [lookUp?]
  | cons entry rest inductionHypothesis =>
    obtain ⟨name, other⟩ := entry
    rw [List.map_cons, List.nodup_cons] at distinct
    rw [lookUp?, List.find?_cons]
    by_cases here : name = key
    · subst here
      have once : (name, value) ∉ rest := fun member =>
        distinct.1 (List.mem_map.mpr ⟨(name, value), member, rfl⟩)
      simp [once, eq_comm]
    · have elsewhere : (name == key) = false := by simpa using here
      simp only [elsewhere]
      rw [← lookUp?, inductionHypothesis distinct.2]
      simp [Ne.symm here]

/-- Where no key stands twice, the order of the fields does not matter to what is found under a
key. -/
theorem lookUp?_perm {fields moved : List (Text × Json)} (distinct : (fields.map Prod.fst).Nodup)
    (permuted : fields.Perm moved) (key : Text) : lookUp? key fields = lookUp? key moved := by
  have distinct' : (moved.map Prod.fst).Nodup := (permuted.map Prod.fst).nodup_iff.mp distinct
  apply Option.ext
  intro value
  rw [lookUp?_eq_some_iff distinct, lookUp?_eq_some_iff distinct', permuted.mem_iff]

/-- Objects that are the same are the same maps, if their keys are distinct. -/
theorem Same.field? {fields : List (Text × Json)} {other : Json}
    (same : (Json.object fields).Same other) (distinct : (fields.map Prod.fst).Nodup)
    (key : String) : Option.Rel Same ((Json.object fields).field? key) (other.field? key) := by
  cases same with
  | object each permuted =>
    rw [each.keys] at distinct
    have found := each.lookUp? key.toList
    rw [lookUp?_perm distinct permuted] at found
    exact found

/-! ### Values that can be written -/

mutual

/-- The largest number of lists and objects that stand inside each other. -/
def depth : Json → Nat
  | .null => 0
  | .bool _ => 0
  | .int _ => 0
  | .text _ => 0
  | .list elements => depthOfAll elements + 1
  | .object fields => depthOfFields fields + 1

/-- The depth of the deepest of some values. -/
def depthOfAll : List Json → Nat
  | [] => 0
  | element :: rest => max (depth element) (depthOfAll rest)

/-- The depth of the deepest value of some fields. -/
def depthOfFields : List (Text × Json) → Nat
  | [] => 0
  | (_, value) :: rest => max (depth value) (depthOfFields rest)

end

mutual

/-- All integers in a value. -/
def integers : Json → List Int
  | .null => []
  | .bool _ => []
  | .int value => [value]
  | .text _ => []
  | .list elements => integersOfAll elements
  | .object fields => integersOfFields fields

/-- All integers in some values. -/
def integersOfAll : List Json → List Int
  | [] => []
  | element :: rest => integers element ++ integersOfAll rest

/-- All integers in the values of some fields. -/
def integersOfFields : List (Text × Json) → List Int
  | [] => []
  | (_, value) :: rest => integers value ++ integersOfFields rest

end

/-- The integer fits into 64 bits, with or without a sign. -/
def Fits (value : Int) : Prop :=
  smallestInt ≤ value ∧ value ≤ largestInt

/-- Two comparisons decide it. -/
instance (value : Int) : Decidable (Fits value) :=
  inferInstanceAs (Decidable (_ ∧ _))

/-- The value can be written: it is not nested too deep, and all its integers fit. -/
def Writable (value : Json) : Prop :=
  value.depth ≤ depthLimit ∧ ∀ number ∈ value.integers, Fits number

/-- It is decided by the depth of the value and its finitely many integers. -/
instance (value : Json) : Decidable value.Writable :=
  inferInstanceAs (Decidable (_ ∧ _))

mutual

/-- A value can be written if it is not nested deeper than there is room, and every integer in it
fits. The induction follows the writer, which takes one off the room for every level. -/
theorem fault?_eq_none_iff (room : Nat) : (value : Json) →
    (value.fault? room = none ↔ value.depth ≤ room ∧ ∀ number ∈ value.integers, Fits number)
  | .null => by simp [fault?, depth, integers]
  | .bool _ => by simp [fault?, depth, integers]
  | .int value => by simp [fault?, depth, integers, Fits]
  | .text _ => by simp [fault?, depth, integers]
  | .list elements => by
    rw [fault?, depth, integers]
    split
    · simp only [reduceCtorEq, false_iff]
      omega
    · rw [firstFault?_eq_none_iff (room - 1) elements]
      have shallower : depthOfAll elements ≤ room - 1 ↔ depthOfAll elements + 1 ≤ room := by omega
      rw [shallower]
  | .object fields => by
    rw [fault?, depth, integers]
    split
    · simp only [reduceCtorEq, false_iff]
      omega
    · rw [fieldsFault?_eq_none_iff (room - 1) fields]
      have shallower : depthOfFields fields ≤ room - 1 ↔ depthOfFields fields + 1 ≤ room := by omega
      rw [shallower]

/-- The elements of a list can be written if the deepest of them fits into the room. -/
theorem firstFault?_eq_none_iff (room : Nat) : (elements : List Json) →
    (firstFault? elements room = none ↔
      depthOfAll elements ≤ room ∧ ∀ number ∈ integersOfAll elements, Fits number)
  | [] => by simp [firstFault?, depthOfAll, integersOfAll]
  | element :: rest => by
    rw [firstFault?, Option.or_eq_none_iff, fault?_eq_none_iff room element,
      firstFault?_eq_none_iff room rest, depthOfAll, integersOfAll, Nat.max_le,
      List.forall_mem_append]
    exact and_and_and_comm

/-- The fields of an object can be written if the deepest of their values fits into the room. -/
theorem fieldsFault?_eq_none_iff (room : Nat) : (fields : List (Text × Json)) →
    (fieldsFault? fields room = none ↔
      depthOfFields fields ≤ room ∧ ∀ number ∈ integersOfFields fields, Fits number)
  | [] => by simp [fieldsFault?, depthOfFields, integersOfFields]
  | (key, value) :: rest => by
    rw [fieldsFault?, Option.or_eq_none_iff, fault?_eq_none_iff room value,
      fieldsFault?_eq_none_iff room rest, depthOfFields, integersOfFields, Nat.max_le,
      List.forall_mem_append]
    exact and_and_and_comm

end

/-! ### The order of fields is of no influence -/

/-- A list has no fault if none of its elements has one. -/
theorem firstFault?_eq_none {elements : List Json} {room : Nat} :
    firstFault? elements room = none ↔ ∀ element ∈ elements, element.fault? room = none := by
  induction elements with
  | nil => simp [firstFault?]
  | cons element rest inductionHypothesis =>
    rw [firstFault?, Option.or_eq_none_iff, inductionHypothesis, List.forall_mem_cons]

/-- An object has no fault if no value in it has one, by induction over the fields. Keys are
texts, and a text can always be written. -/
theorem fieldsFault?_eq_none {fields : List (Text × Json)} {room : Nat} :
    fieldsFault? fields room = none ↔ ∀ entry ∈ fields, entry.2.fault? room = none := by
  induction fields with
  | nil => simp [fieldsFault?]
  | cons entry rest inductionHypothesis =>
    obtain ⟨key, value⟩ := entry
    rw [fieldsFault?, Option.or_eq_none_iff, inductionHypothesis, List.forall_mem_cons]

/-- Whether the fields have a fault does not depend on their order, though the first fault
does. -/
theorem fieldsFault?_perm {fields moved : List (Text × Json)} (permuted : fields.Perm moved)
    (room : Nat) : fieldsFault? fields room = none ↔ fieldsFault? moved room = none := by
  rw [fieldsFault?_eq_none, fieldsFault?_eq_none]
  exact forall_congr' fun entry => imp_congr_left permuted.mem_iff

mutual

/-- Two values that are the same can both be written, or neither of them: they are nested equally
deep and have the same integers. -/
theorem Same.fault? {value other : Json} (same : value.Same other) (room : Nat) :
    value.fault? room = none ↔ other.fault? room = none := by
  cases same with
  | null => exact Iff.rfl
  | bool => exact Iff.rfl
  | int => exact Iff.rfl
  | text => exact Iff.rfl
  | list each =>
    rw [Json.fault?, Json.fault?]
    split
    · exact Iff.rfl
    · exact each.firstFault? (room - 1)
  | object each permuted =>
    rw [Json.fault?, Json.fault?]
    split
    · exact Iff.rfl
    · exact (each.fieldsFault? (room - 1)).trans (fieldsFault?_perm permuted _)

/-- Lists that are the same element by element can both be written, or neither. -/
theorem SameAll.firstFault? {elements others : List Json} (each : SameAll elements others)
    (room : Nat) :
    Json.firstFault? elements room = none ↔ Json.firstFault? others room = none := by
  cases each with
  | nil => exact Iff.rfl
  | cons first later =>
    rw [Json.firstFault?, Json.firstFault?, Option.or_eq_none_iff, Option.or_eq_none_iff,
      first.fault? room, later.firstFault? room]

/-- Fields that are the same one by one can both be written, or neither. -/
theorem SameFields.fieldsFault? {fields others : List (Text × Json)}
    (each : SameFields fields others) (room : Nat) :
    Json.fieldsFault? fields room = none ↔ Json.fieldsFault? others room = none := by
  cases each with
  | nil => exact Iff.rfl
  | cons first later =>
    rw [Json.fieldsFault?, Json.fieldsFault?, Option.or_eq_none_iff, Option.or_eq_none_iff,
      first.fault? room, later.fieldsFault? room]

end

/-- What is written is the sorted value, and it can be written exactly if the value itself can
be. -/
theorem fault?_arrange {value : Json} :
    value.arrange.fault? depthLimit = none ↔ value.Writable := by
  rw [← (same_arrange value).fault? depthLimit, fault?_eq_none_iff]
  exact Iff.rfl

/-! ### Lines -/

/-- All of some values can be written exactly if they are written one to a line. -/
theorem lines_eq_ok_iff {values : List Json} {written : Text} :
    lines values = .ok written ↔ (∀ value ∈ values, value.Writable) ∧
      written = (values.map arrange).flatMap fun value => compact value ++ ['\n'] := by
  have sound : firstFault? (values.map arrange) depthLimit = none ↔
      ∀ value ∈ values, value.Writable := by
    rw [firstFault?_eq_none, List.forall_mem_map]
    exact forall₂_congr fun value _ => fault?_arrange
  rw [← sound]
  cases found : firstFault? (values.map arrange) depthLimit with
  | none => simp only [lines, found, Except.ok.injEq, true_and, eq_comm]
  | some fault => simp only [lines, found, reduceCtorEq, false_and]

/-- A single value that cannot be written keeps all of them from being written. -/
theorem lines_eq_error {values : List Json} {value : Json} (member : value ∈ values)
    (unwritable : ¬ value.Writable) : ∃ fault, lines values = .error fault := by
  cases written : lines values with
  | ok text => exact absurd ((lines_eq_ok_iff.mp written).1 value member) unwritable
  | error fault => exact ⟨fault, rfl⟩

end SqlRenewal.Json
