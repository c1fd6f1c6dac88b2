import SqlRenewal.Proofs.Substitution.Hits

/-!
# Applying a rule

A rule with a built-in pattern, whatever its allowance, makes swaps only. The
induction follows the scan: between matches characters are kept, and each match
that the allowance still covers is one swap, behind kept words in the case of an
option.
-/
namespace SqlRenewal

/-- The patterns of the built-in rules; `joins` says whether the operators of outer
joins are among them. -/
inductive BuiltinPattern (joins : Bool) : Pattern → Prop where
  | typeName {capitals : List Char} {put : Text} (listed : (capitals, put) ∈ typeNames) :
      BuiltinPattern joins (.typeName capitals put)
  | currentDate : BuiltinPattern joins .currentDate
  | outerJoin (side : JoinSide) (allowed : joins = true) : BuiltinPattern joins (.outerJoin side)
  | optionOff {capitals : List Char} (listed : capitals ∈ optionNames) :
      BuiltinPattern joins (.optionOff capitals)
  | definition : BuiltinPattern joins .definition

/-- Every rule that comes with the program has one of its patterns. -/
theorem builtinRules_pattern : ∀ rule ∈ builtinRules, BuiltinPattern true rule.pattern := by
  simp only [builtinRules, List.forall_mem_cons]
  exact ⟨.typeName (by decide), .typeName (by decide), .typeName (by decide), .currentDate,
    .outerJoin _ rfl, .outerJoin _ rfl, .optionOff (by decide), .optionOff (by decide), .definition,
    by simp⟩

/-- Behind a word character that is put, nothing has to be known: it is no blank and ends no word,
so there is nothing that the old text would have to match. -/
theorem Follows.of_joined {joins : Bool} {before before' : Option Char}
    (unblank : isBlankBeside before' = false) (joined : endsWord before' = false)
    (inside : joins = false → endsWord before = false) (old : Text) :
    Follows joins before before' old := by
  refine ⟨?_, ?_, ?_⟩
  · intro blank
    rw [unblank] at blank
    cases blank
  · intro _ opened
    rw [joined] at opened
    cases opened
  · intro none opened
    rw [inside none] at opened
    cases opened

/-- Behind a word, a word can go on. -/
theorem endsWord_spelled {capitals : List Char} {word : Text} (spelled : Spells capitals word)
    (known : capitals ⊆ capitalLetters) (some : capitals ≠ []) (before : Option Char) :
    endsWord (lastOf before word) = false := by
  obtain ⟨c, letter, last⟩ := lastOf_spelled spelled known some before
  simp [last, endsWord, letterForms_isWordChar c letter]

/-! ### One match -/

/-- A match is one step of the alignment, in front of the given rest: the alignment goes on
behind it, and what is aligned there is aligned from the match on. -/
def Hit.Steps (joins : Bool) (before : Option Char) (hit : Hit) (rest : Text) : Prop :=
  ∀ before' : Option Char, Follows joins before before' (hit.taken ++ rest) →
    Follows joins (lastOf before hit.taken) (lastOf before' hit.put) rest ∧
      ∀ {new : Text}, Renewed joins (lastOf before hit.taken) (lastOf before' hit.put) rest new →
        Renewed joins before before' (hit.taken ++ rest) (hit.put ++ new)

section Match

variable {joins : Bool} {before : Option Char} {rest : Text}

/-- A swap is a step wherever the alignment goes on behind it. -/
theorem Swap.steps {taken put : Text} (swap : Swap joins before taken put)
    (goesOn : ∀ before', Follows joins (lastOf before taken) (lastOf before' put) rest) :
    Hit.Steps joins before ⟨taken, put⟩ rest :=
  fun before' _ => ⟨goesOn before', fun later => .swap swap later⟩

/-- The name of a type is swapped for one that ends in a parenthesis. Behind the old name the
text goes on with a blank or not at all, so the word that the parenthesis ends is of no matter. -/
theorem steps_typeName {capitals : List Char} {word put : Text}
    (listed : (capitals, put) ∈ typeNames) (spelled : Spells capitals word)
    (blank : isBlankBeside before = true) (closed : isBlankBeside rest.head? = true) :
    Hit.Steps joins before ⟨word, put⟩ rest := by
  have swap : Swap joins before word put := .inl (.typeName listed spelled blank)
  have nonempty : ∀ entry ∈ typeNames, entry.1 ≠ [] := by decide
  refine swap.steps fun before' => ⟨?_, ?_, ?_⟩
  · intro impossible
    rw [swap.put_last] at impossible
    cases impossible
  · intro solid
    rw [closed] at solid
    cases solid
  · intro _ opened
    rw [endsWord_spelled spelled (typeNames_known _ listed) (nonempty _ listed)] at opened
    cases opened

/-- A call ends in the same parenthesis as the one that is put, so the text behind it sees the
same character before it. -/
theorem steps_currentDate {word blanks inside : Text} (opened : endsWord before = true)
    (spelled : Spells ['G', 'E', 'T', 'D', 'A', 'T', 'E'] word)
    (blank : ∀ c ∈ blanks, isBlank c = true) (inner : ∀ c ∈ inside, isBlank c = true) :
    Hit.Steps joins before
      ⟨word ++ (blanks ++ '(' :: (inside ++ [')'])), "SYSDATETIME()".toList⟩ rest := by
  refine Swap.steps (.inl (.currentDate spelled blank inner opened)) fun before' => ?_
  have last : lastOf before (word ++ (blanks ++ '(' :: (inside ++ [')']))) = some ')' := by
    simp [lastOf_append]
  have put : lastOf before' "SYSDATETIME()".toList = some ')' := rfl
  rw [last, put]
  exact Follows.refl _ _ _

/-- Of an option only the value is swapped, behind words that are kept and the blanks that end
them. What is put and what is taken both end inside a word. -/
theorem steps_optionOff {capitals : List Char} {set gap name space off : Text}
    (option : OptionOff capitals set gap name space) (spelled : Spells ['O', 'F', 'F'] off) :
    Hit.Steps joins before
      ⟨set ++ (gap ++ (name ++ space)) ++ off, set ++ (gap ++ (name ++ space)) ++ ['O', 'N']⟩
      rest := by
  intro before' follows
  dsimp only at follows ⊢
  constructor
  · refine Follows.of_joined ?_ ?_ ?_ rest
    · rw [lastOf_append]
      rfl
    · rw [lastOf_append]
      rfl
    · intro _
      rw [lastOf_append]
      exact endsWord_spelled spelled (by decide) (by decide) _
  · intro new later
    have blank : isBlankBeside (lastOf before (set ++ (gap ++ (name ++ space)))) = true := by
      obtain ⟨c, member, last⟩ := lastOf_mem option.spaceSome
        (lastOf (lastOf (lastOf before set) gap) name)
      simp [lastOf_append, last, isBlankBeside, option.spaceBlank c member]
    rw [List.append_assoc _ off] at follows ⊢
    rw [List.append_assoc _ ['O', 'N']]
    refine Renewed.append follows fun _ => .swap (.inl (.off spelled blank)) ?_
    rwa [← lastOf_append, ← lastOf_append]

/-- The kind of a definition is kept, so the alignment goes on behind the same word. -/
theorem steps_definition {capitals : List Char} {word blanks kind : Text}
    (opened : endsWord before = true) (spelled : Spells ['C', 'R', 'E', 'A', 'T', 'E'] word)
    (blank : ∀ c ∈ blanks, isBlank c = true) (listed : capitals ∈ definitionWords)
    (named : Spells capitals kind) :
    Hit.Steps joins before ⟨word ++ (blanks ++ kind), "ALTER ".toList ++ kind⟩ rest := by
  refine Swap.steps (.inl (.definition spelled blank listed named opened)) fun before' => ?_
  have some := named.ne_nil (definitionWords_ne_nil _ listed)
  have last : lastOf before (word ++ (blanks ++ kind)) = lastOf before' ("ALTER ".toList ++ kind) := by
    rw [lastOf_append, lastOf_append, lastOf_append]
    exact lastOf_of_ne_nil some _ _
  rw [last]
  exact Follows.refl _ _ _

/-- One match is one step of the alignment. Each of the patterns says what it takes and what it
puts, and each of these pairs is a swap, or one behind words that are kept. -/
theorem BuiltinPattern.step {pattern : Pattern} (builtin : BuiltinPattern joins pattern) {text : Text}
    {hit : Hit} (found : pattern.hit? before text = some hit) :
    ∃ rest, text = hit.taken ++ rest ∧ hit.taken ≠ [] ∧ hit.Steps joins before rest := by
  cases builtin with
  | typeName listed =>
    obtain ⟨blank, word, rest, rfl, spelled, closed, rfl⟩ := typeNameHit?_eq_some_iff.mp found
    have nonempty : ∀ entry ∈ typeNames, entry.1 ≠ [] := by decide
    exact ⟨rest, rfl, spelled.ne_nil (nonempty _ listed), steps_typeName listed spelled blank closed⟩
  | currentDate =>
    obtain ⟨opened, word, blanks, inside, rest, rfl, spelled, blank, inner, rfl⟩ :=
      currentDateHit?_eq_some_iff.mp found
    exact ⟨rest, by simp, by simp, steps_currentDate opened spelled blank inner⟩
  | outerJoin side allowed =>
    obtain ⟨rest, same, join⟩ := outerJoinHit?_eq_some found
    have swap : Swap joins before hit.taken hit.put := .inr ⟨allowed, join⟩
    obtain ⟨c, more, nonempty, _⟩ := swap.taken_head
    refine ⟨rest, same, by simp [nonempty], swap.steps fun before' => ?_⟩
    exact Follows.of_joined (swap.put_last before') (join.put_joined before') (by simp [allowed]) rest
  | optionOff listed =>
    obtain ⟨_, set, gap, name, space, off, rest, rfl, option, spelled, _, rfl⟩ :=
      (optionOffHit?_eq_some_iff listed).mp found
    exact ⟨rest, by simp, by simp [spelled.ne_nil], steps_optionOff option spelled⟩
  | definition =>
    obtain ⟨opened, word, blanks, capitals, kind, rest, rfl, spelled, _, blank, listed, named, _, rfl⟩ :=
      definitionHit?_eq_some found
    have some := named.ne_nil (definitionWords_ne_nil _ listed)
    exact ⟨rest, by simp, by simp [some], steps_definition opened spelled blank listed named⟩

end Match

/-! ### The scan -/

section Scan

variable {pattern : Pattern} {before : Option Char}

/-- A pattern whose matches take some of the text. The patterns of the built-in rules are
all of this kind. -/
def Pattern.TakesSome (pattern : Pattern) : Prop :=
  ∀ before text hit, pattern.hit? before text = some hit →
    ∃ rest, text = hit.taken ++ rest ∧ hit.taken ≠ []

/-- A built-in pattern takes what it swaps, and that is never nothing. -/
theorem BuiltinPattern.takesSome {joins : Bool} (builtin : BuiltinPattern joins pattern) :
    pattern.TakesSome := by
  intro before text hit found
  obtain ⟨rest, same, some, _⟩ := builtin.step found
  exact ⟨rest, same, some⟩

/-- An operator of a join is never empty. -/
theorem outerJoin_takesSome (side : JoinSide) : (Pattern.outerJoin side).TakesSome :=
  have builtin : BuiltinPattern true (.outerJoin side) := .outerJoin side rfl
  builtin.takesSome

/-- Where the pattern does not match, the scan goes on behind the character. -/
theorem Pattern.scan_plain {c : Char} {rest : Text} (absent : pattern.hit? before (c :: rest) = none) :
    pattern.scan before (c :: rest) = .plain c :: pattern.scan (some c) rest := by
  rw [Pattern.scan, absent]

/-- Scanning goes on behind a match that takes something: as many characters are passed as were
taken. -/
theorem Pattern.scan_hit {rest : Text} {hit : Hit}
    (found : pattern.hit? before (hit.taken ++ rest) = some hit) (some : hit.taken ≠ []) :
    pattern.scan before (hit.taken ++ rest) =
      .hit hit :: pattern.scan (lastOf before hit.taken) rest := by
  cases text : hit.taken ++ rest with
  | nil => exact absurd (List.append_eq_nil_iff.mp text).1 some
  | cons c later =>
    rw [text] at found
    have length := List.length_pos_iff.mpr some
    have behind : later.drop (hit.taken.length - 1) = rest := by
      have dropped := congrArg (List.drop hit.taken.length) text
      rwa [List.drop_left, List.drop_cons length, eq_comm] at dropped
    rw [Pattern.scan, found]
    dsimp only
    rw [if_neg some, behind]
    rfl

/-- Nothing is left for a match that takes some of the text, so none is found at the end. -/
theorem Pattern.TakesSome.hit?_nil (takes : pattern.TakesSome) (before : Option Char) :
    pattern.hit? before [] = none := by
  cases found : pattern.hit? before [] with
  | none => rfl
  | some hit =>
    obtain ⟨rest, same, some⟩ := takes _ _ _ found
    exact absurd (List.append_eq_nil_iff.mp same.symm).1 some

/-- A pattern that takes something finds nothing in an empty text. -/
theorem Pattern.TakesSome.scan_nil (takes : pattern.TakesSome) (before : Option Char) :
    pattern.scan before [] = [] := by
  rw [Pattern.scan, takes.hit?_nil]
  rfl

/-- Induction along a scan whose matches take some of the text: from each place it goes on
behind the next character or behind the next match. -/
theorem Pattern.TakesSome.scan_induct (takes : pattern.TakesSome)
    {motive : Option Char → Text → Prop} (nil : ∀ before, motive before [])
    (plain : ∀ before c rest, pattern.hit? before (c :: rest) = none → motive (some c) rest →
      motive before (c :: rest))
    (hit : ∀ before hit rest, pattern.hit? before (hit.taken ++ rest) = some hit → hit.taken ≠ [] →
      motive (lastOf before hit.taken) rest → motive before (hit.taken ++ rest))
    (before : Option Char) (text : Text) : motive before text := by
  induction length : text.length using Nat.strongRecOn generalizing before text with
  | ind length inductionHypothesis =>
    subst length
    cases text with
    | nil => exact nil before
    | cons c rest =>
      cases found : pattern.hit? before (c :: rest) with
      | none => exact plain before c rest found (inductionHypothesis _ (Nat.lt_succ_self _) _ _ rfl)
      | some match? =>
        obtain ⟨later, whole, some⟩ := takes _ _ _ found
        have shorter : later.length < (c :: rest).length := by
          have positive := List.length_pos_iff.mpr some
          rw [whole, List.length_append]
          omega
        rw [whole] at found ⊢
        exact hit before match? later found some (inductionHypothesis _ shorter _ _ rfl)

/-- A literal is hit where the text begins with it, and its replacement is put. The search
compares from the front and asks for nothing else. -/
theorem literal_hit?_eq_some_iff {find put text : Text} {hit : Hit} :
    (Pattern.literal find put).hit? before text = some hit ↔ find <+: text ∧ hit = ⟨find, put⟩ := by
  simp only [Pattern.literal, Pattern.hit?, customHit?, List.isPrefixOf_iff_prefix]
  constructor
  · intro found
    split at found
    · rename_i start
      obtain ⟨rest, rfl⟩ := start
      simpa [eq_comm] using found
    · cases found
  · rintro ⟨⟨rest, rfl⟩, rfl⟩
    simp

/-- A given text takes something unless it is empty. The empty one is found everywhere, also where
there is nothing to take. -/
theorem literal_takesSome_iff {find put : Text} :
    (Pattern.literal find put).TakesSome ↔ find ≠ [] := by
  constructor
  · rintro takes rfl
    obtain ⟨_, _, some⟩ := takes none [] ⟨[], put⟩ (literal_hit?_eq_some_iff.mpr ⟨List.nil_prefix, rfl⟩)
    exact some rfl
  · intro some before text hit found
    obtain ⟨⟨rest, rfl⟩, rfl⟩ := literal_hit?_eq_some_iff.mp found
    exact ⟨rest, rfl, some⟩

/-- The empty text is found in front of every character and behind the last one, and what is
put there leaves the characters where they are. -/
theorem replaceHits_scan_empty (put : Text) (before : Option Char) (text : Text) :
    replaceHits none ((Pattern.literal [] put).scan before text) =
      text.flatMap (fun c => put ++ [c]) ++ put := by
  have everywhere (before : Option Char) (text : Text) :
      (Pattern.literal [] put).hit? before text = some ⟨[], put⟩ :=
    literal_hit?_eq_some_iff.mpr ⟨List.nil_prefix, rfl⟩
  induction text generalizing before with
  | nil => simp [Pattern.scan, everywhere, replaceHits]
  | cons c rest inductionHypothesis =>
    simp [Pattern.scan, everywhere, replaceHits, inductionHypothesis]

end Scan

/-- An application with a built-in pattern makes swaps only. The induction goes from match to
match, with the allowance that is left: what is over the limit is kept. -/
theorem BuiltinPattern.renewed {joins : Bool} {pattern : Pattern}
    (builtin : BuiltinPattern joins pattern) (allowance : Option Nat) {before before' : Option Char}
    {text : Text} (follows : Follows joins before before' text) :
    Renewed joins before before' text (replaceHits allowance (pattern.scan before text)) := by
  induction before, text using builtin.takesSome.scan_induct generalizing allowance before' with
  | nil before =>
    rw [builtin.takesSome.scan_nil, replaceHits]
    exact .nil
  | plain before c rest absent inductionHypothesis =>
    rw [Pattern.scan_plain absent, replaceHits]
    exact .keep follows (inductionHypothesis _ (Follows.refl _ _ _))
  | hit before hit rest found some inductionHypothesis =>
    obtain ⟨later, same, _, step⟩ := builtin.step found
    obtain rfl := List.append_cancel_left same
    obtain ⟨followed, replaced⟩ := step _ follows
    rw [Pattern.scan_hit found some]
    match allowance with
    | none => exact replaced (inductionHypothesis none followed)
    | Option.some (n + 1) => exact replaced (inductionHypothesis (Option.some n) followed)
    | Option.some 0 =>
      rw [replaceHits]
      exact Renewed.append follows fun later => inductionHypothesis (Option.some 0) later

end SqlRenewal
