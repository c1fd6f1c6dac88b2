import SqlRenewal.Proofs.Substitution.Scan

/-!
# Texts without matches

A text is clear of a pattern if the pattern matches nowhere in it. The patterns of
types, of the current date and of options are lasting: no application of a
built-in rule brings one of their matches into a clear text, and one application
of their own rule clears a text. Operators of joins are not among them, and neither
are the first words of a definition.
-/
namespace SqlRenewal

/-- The pattern matches nowhere, not even behind the last character. -/
def Clear (pattern : Pattern) : Option Char → Text → Prop
  | before, [] => pattern.hit? before [] = none
  | before, c :: rest =>
    pattern.hit? before (c :: rest) = none ∧ Clear pattern (some c) rest

/-- A text without hits has none in its rest. -/
theorem Clear.behind {pattern : Pattern} {before : Option Char} {first second : Text}
    (clear : Clear pattern before (first ++ second)) :
    Clear pattern (lastOf before first) second := by
  induction first generalizing before with
  | nil => simpa using clear
  | cons c first inductionHypothesis => simpa using inductionHypothesis clear.2

/-- A plain character is no hit. -/
@[simp]
theorem hitsOf_plain (c : Char) (pieces : List Piece) :
    hitsOf (.plain c :: pieces) = hitsOf pieces := rfl

/-- A hit is the first of the hits. -/
@[simp]
theorem hitsOf_hit (hit : Hit) (pieces : List Piece) :
    hitsOf (.hit hit :: pieces) = hit :: hitsOf pieces := rfl

/-- A scan without matches is the text, character by character. The cases are those of the scan,
and only the ones without a match go on. -/
theorem hitsOf_scan_eq_nil_iff {pattern : Pattern} {before : Option Char} {text : Text} :
    hitsOf (pattern.scan before text) = [] ↔ Clear pattern before text := by
  fun_induction Pattern.scan pattern before text with
  | case1 before => cases found : pattern.hit? before [] <;> simp [hitsOf, Clear, found]
  | case2 before c rest none inductionHypothesis =>
    simpa [hitsOf, Clear, none] using inductionHypothesis
  | case3 before c rest hit found empty => simp [hitsOf, Clear, found]
  | case4 before c rest hit found some => simp [hitsOf, Clear, found]

/-- A rule leaves a clear text as it is. Every piece of the scan is then a plain character,
whatever allowance there is. -/
theorem Clear.replaceHits_eq {pattern : Pattern} {before : Option Char} {text : Text}
    (clear : Clear pattern before text) (allowance : Option Nat) :
    replaceHits allowance (pattern.scan before text) = text := by
  induction text generalizing before with
  | nil =>
    rw [Clear] at clear
    simp [Pattern.scan, clear, replaceHits]
  | cons c rest inductionHypothesis =>
    rw [Pattern.scan_plain clear.1, replaceHits, inductionHypothesis clear.2]

/-! ### Parts without matches -/

/-- The pattern matches nowhere inside the first text, behind which the second one stands. -/
def ClearOn (pattern : Pattern) : Option Char → Text → Text → Prop
  | _, [], _ => True
  | before, c :: front, rest =>
    pattern.hit? before (c :: (front ++ rest)) = none ∧ ClearOn pattern (some c) front rest

/-- Two texts have no hits together if none begins in the first, with the second in view, and none
in the second. -/
theorem clear_append {pattern : Pattern} {before : Option Char} {front rest : Text} :
    Clear pattern before (front ++ rest) ↔
      ClearOn pattern before front rest ∧ Clear pattern (lastOf before front) rest := by
  induction front generalizing before with
  | nil => simp [ClearOn]
  | cons c front inductionHypothesis =>
    rw [List.cons_append, Clear, ClearOn, inductionHypothesis, lastOf_cons, and_assoc]

/-- A part without matches is left as it is, and the scan of the rest begins behind its last
character. -/
theorem ClearOn.replaceHits_eq {pattern : Pattern} {before : Option Char} {front rest : Text}
    (clear : ClearOn pattern before front rest) (allowance : Option Nat) :
    replaceHits allowance (pattern.scan before (front ++ rest)) =
      front ++ replaceHits allowance (pattern.scan (lastOf before front) rest) := by
  induction front generalizing before with
  | nil => simp
  | cons c front inductionHypothesis =>
    rw [List.cons_append, Pattern.scan_plain clear.1, replaceHits, inductionHypothesis clear.2,
      lastOf_cons, List.cons_append]

/-- A part has no match, or it goes on with its first one behind a part that has none. -/
theorem clearOn_or_hit (pattern : Pattern) (before : Option Char) (part rest : Text) :
    ClearOn pattern before part rest ∨ ∃ front behind hit, part = front ++ behind ∧ behind ≠ [] ∧
      ClearOn pattern before front (behind ++ rest) ∧
      pattern.hit? (lastOf before front) (behind ++ rest) = some hit := by
  induction part generalizing before with
  | nil => exact .inl trivial
  | cons c part inductionHypothesis =>
    cases found : pattern.hit? before (c :: (part ++ rest)) with
    | some hit => exact .inr ⟨[], c :: part, hit, rfl, List.cons_ne_nil _ _, trivial, found⟩
    | none =>
      rcases inductionHypothesis (some c) with clear | ⟨front, behind, hit, rfl, some, clear, found'⟩
      · exact .inl ⟨found, clear⟩
      · refine .inr ⟨c :: front, behind, hit, rfl, some, ⟨?_, clear⟩, by rwa [lastOf_cons]⟩
        rwa [← List.append_assoc]

/-- A text is clear, or it goes on with its first match behind a part that has none. -/
theorem clear_or_hit (pattern : Pattern) (before : Option Char) (text : Text) :
    Clear pattern before text ∨ ∃ front behind hit, text = front ++ behind ∧
      ClearOn pattern before front behind ∧ pattern.hit? (lastOf before front) behind = some hit := by
  rcases clearOn_or_hit pattern before text [] with clear | ⟨front, behind, hit, rfl, _, clear, found⟩
  · cases last : pattern.hit? (lastOf before text) [] with
    | none =>
      have whole : Clear pattern before (text ++ []) := clear_append.mpr ⟨clear, last⟩
      exact .inl (by rwa [List.append_nil] at whole)
    | some hit => exact .inr ⟨text, [], hit, (List.append_nil _).symm, clear, last⟩
  · rw [List.append_nil] at clear found
    exact .inr ⟨front, behind, hit, rfl, clear, found⟩

/-- Replacing goes on behind a match. -/
theorem replaceHits_hit {pattern : Pattern} {before : Option Char} {text rest : Text} {hit : Hit}
    (found : pattern.hit? before text = some hit) (whole : text = hit.taken ++ rest)
    (some : hit.taken ≠ []) : replaceHits none (pattern.scan before text) =
      hit.put ++ replaceHits none (pattern.scan (lastOf before hit.taken) rest) := by
  subst whole
  rw [Pattern.scan_hit found some, replaceHits]

/-! ### Lasting patterns -/

/-- The pattern, opened by the given word, is one whose matches do not come back. -/
inductive Lasting : List Char → Pattern → Prop where
  | typeName {capitals : List Char} {put : Text} (listed : (capitals, put) ∈ typeNames) :
      Lasting capitals (.typeName capitals put)
  | currentDate : Lasting ['G', 'E', 'T', 'D', 'A', 'T', 'E'] .currentDate
  | optionOff {capitals : List Char} (listed : capitals ∈ optionNames) :
      Lasting ['S', 'E', 'T'] (.optionOff capitals)

/-- The names of types are among the words that rules look for. -/
theorem typeNames_sought : ∀ entry ∈ typeNames, entry.1 ∈ soughtWords := by decide

/-- The word with which a lasting pattern opens is among those that rules look for. -/
theorem Lasting.sought {opening : List Char} {pattern : Pattern} (lasting : Lasting opening pattern) :
    opening ∈ soughtWords := by
  cases lasting with
  | typeName listed => exact typeNames_sought _ listed
  | currentDate => decide
  | optionOff => decide

/-- A lasting pattern is one that comes with the program. -/
theorem Lasting.builtin {opening : List Char} {pattern : Pattern} (lasting : Lasting opening pattern)
    (joins : Bool) : BuiltinPattern joins pattern := by
  cases lasting with
  | typeName listed => exact .typeName listed
  | currentDate => exact .currentDate
  | optionOff listed => exact .optionOff listed

/-- No word goes on before blanks and a character that is none of a word. -/
theorem endsWord_head_of_blank {blanks : Text} (blank : ∀ c ∈ blanks, isBlank c = true) {c : Char}
    (outside : endsWord (some c) = true) (rest : Text) :
    endsWord (blanks ++ c :: rest).head? = true := by
  cases blanks with
  | nil => exact outside
  | cons d blanks =>
    have isBlank := blank d (by simp)
    simp [endsWord, isWordChar_of_isBlank isBlank]

/-- No word goes on before blanks: the first of them is no word character, and what follows does
not matter. -/
theorem endsWord_head_of_blanks {blanks : Text} (some : blanks ≠ [])
    (blank : ∀ c ∈ blanks, isBlank c = true) (rest : Text) :
    endsWord (blanks ++ rest).head? = true := by
  cases blanks with
  | nil => exact absurd rfl some
  | cons d blanks =>
    have isBlank := blank d (by simp)
    simp [endsWord, isWordChar_of_isBlank isBlank]

/-- No word goes on behind blanks. -/
theorem endsWord_lastOf_blanks {blanks : Text} (some : blanks ≠ [])
    (blank : ∀ c ∈ blanks, isBlank c = true) (before : Option Char) :
    endsWord (lastOf before blanks) = true := by
  obtain ⟨c, member, last⟩ := lastOf_mem some before
  simp [last, endsWord, isWordChar_of_isBlank (blank c member)]

/-- A match begins with the opening word of its pattern, standing as a word of its own. There is
one case for each of the lasting patterns. -/
theorem Lasting.startsWord {opening : List Char} {pattern : Pattern}
    (lasting : Lasting opening pattern) {before : Option Char} {text : Text} {hit : Hit}
    (found : pattern.hit? before text = some hit) : startsWord opening before text = true := by
  cases lasting with
  | typeName listed =>
    obtain ⟨blank, word, rest, rfl, spelled, closed, _⟩ := typeNameHit?_eq_some_iff.mp found
    exact startsWord_iff.mpr ⟨endsWord_of_isBlankBeside blank, word, rest, rfl, spelled,
      endsWord_of_isBlankBeside closed⟩
  | currentDate =>
    obtain ⟨opened, word, blanks, inside, rest, rfl, spelled, blank, inner, _⟩ :=
      currentDateHit?_eq_some_iff.mp found
    exact startsWord_iff.mpr ⟨opened, word, _, rfl, spelled,
      endsWord_head_of_blank blank (by decide) _⟩
  | optionOff listed =>
    obtain ⟨opened, set, gap, name, space, off, rest, rfl, option, spelled, closed, _⟩ :=
      (optionOffHit?_eq_some_iff listed).mp found
    exact startsWord_iff.mpr ⟨opened, set, _, rfl, option.spelled,
      endsWord_head_of_blanks option.gapSome option.gapBlank _⟩

/-- Where the opening word does not begin, the pattern does not match, so a part without that word
can stand in front of a clear text. The induction goes along the part. -/
theorem Lasting.clear_append {opening : List Char} {pattern : Pattern}
    (lasting : Lasting opening pattern) {before : Option Char} {front rest : Text}
    (lacking : Lacks opening before front rest) (clear : Clear pattern (lastOf before front) rest) :
    Clear pattern before (front ++ rest) := by
  induction front generalizing before with
  | nil => simpa using clear
  | cons c front inductionHypothesis =>
    refine ⟨?_, inductionHypothesis lacking.2 (by simpa using clear)⟩
    cases found : pattern.hit? before (c :: (front ++ rest)) with
    | none => rfl
    | some hit =>
      have starts := lasting.startsWord found
      rw [lacking.1] at starts
      cases starts

/-- A match in the new text was a match in the old one. Its words were kept, since a renewal makes
none of the sought ones, and so were the blanks and parentheses beside them. -/
theorem Lasting.reflect {opening : List Char} {pattern : Pattern}
    (lasting : Lasting opening pattern) {joins : Bool} {before before' : Option Char}
    {old new : Text} (renewed : Renewed joins before before' old new) {hit : Hit}
    (found : pattern.hit? before' new = some hit) :
    ∃ earlier, pattern.hit? before old = some earlier := by
  have starts := lasting.startsWord found
  have follows := renewed.follows lasting.sought starts
  have known := soughtWords_known _ lasting.sought
  have nonempty := soughtWords_ne_nil _ lasting.sought
  cases lasting with
  | typeName listed =>
    obtain ⟨blank, word, rest, rfl, spelled, closed, _⟩ := typeNameHit?_eq_some_iff.mp found
    have read := dropWord?_eq_some_iff.mpr
      ⟨⟨word, rfl, spelled⟩, endsWord_of_isBlankBeside closed⟩
    obtain ⟨word', old', rfl, _, spelled', _, later⟩ :=
      renewed.word (typeNames_sought _ listed) (endsWord_of_isBlankBeside blank) read
    cases rest with
    | nil => simp [isBlankBeside] at closed
    | cons c rest =>
      have isBlank : isBlank c = true := by simpa [isBlankBeside] using closed
      have single : Renewed joins (lastOf before word') (lastOf before' word') old' ([c] ++ rest) := later
      obtain ⟨behind, rfl, _⟩ :=
        single.kept_of_new Swap.mono (by simpa using not_letter_of_isBlank isBlank)
      exact ⟨_, typeNameHit?_eq_some_iff.mpr ⟨follows.blank blank, word', _, rfl, spelled', closed,
        rfl⟩⟩
  | currentDate =>
    obtain ⟨opened, word, blanks, inside, rest, rfl, spelled, blank, inner, _⟩ :=
      currentDateHit?_eq_some_iff.mp found
    have read := dropWord?_eq_some_iff.mpr
      ⟨⟨word, rfl, spelled⟩, endsWord_head_of_blank blank (c := '(') (by decide) (inside ++ ')' :: rest)⟩
    obtain ⟨word', old', rfl, _, spelled', _, later⟩ := renewed.word (by decide) opened read
    have marks : ∀ c ∈ blanks ++ '(' :: (inside ++ [')']), c ∉ letterForms := by
      intro c member
      simp only [List.mem_append, List.mem_cons, List.not_mem_nil, or_false] at member
      rcases member with inBlanks | rfl | inInside | rfl
      · exact not_letter_of_isBlank (blank c inBlanks)
      · decide
      · exact not_letter_of_isBlank (inner c inInside)
      · decide
    have whole : blanks ++ '(' :: (inside ++ ')' :: rest) =
        (blanks ++ '(' :: (inside ++ [')'])) ++ rest := by simp
    rw [whole] at later
    obtain ⟨behind, rfl, _⟩ := later.kept_of_new Swap.mono marks
    have solid := isBlankBeside_spelled spelled' known nonempty
      (blanks ++ '(' :: (inside ++ [')']) ++ behind)
    refine ⟨_, currentDateHit?_eq_some_iff.mpr ⟨follows.opened solid opened, word', blanks, inside,
      behind, by simp, spelled', blank, inner, rfl⟩⟩
  | @optionOff capitals listed =>
    obtain ⟨opened, set, gap, name, space, off, rest, rfl, option, spelled, closed, _⟩ :=
      (optionOffHit?_eq_some_iff listed).mp found
    have readSet := dropWord?_eq_some_iff.mpr ⟨⟨set, rfl, option.spelled⟩,
      endsWord_head_of_blanks option.gapSome option.gapBlank (name ++ (space ++ (off ++ rest)))⟩
    obtain ⟨set', afterSet, rfl, _, setSpelled, _, behindSet⟩ :=
      renewed.word (by decide) opened readSet
    obtain ⟨afterGap, rfl, behindGap⟩ := behindSet.kept_of_new Swap.mono
      fun c member => not_letter_of_isBlank (option.gapBlank c member)
    have readName := dropWord?_eq_some_iff.mpr ⟨⟨name, rfl, option.named⟩,
      endsWord_head_of_blanks option.spaceSome option.spaceBlank (off ++ rest)⟩
    obtain ⟨name', afterName, rfl, _, nameSpelled, _, behindName⟩ :=
      Renewed.word behindGap (optionNames_sought _ listed)
        (endsWord_lastOf_blanks option.gapSome option.gapBlank _) readName
    obtain ⟨afterSpace, rfl, behindSpace⟩ := behindName.kept_of_new Swap.mono
      fun c member => not_letter_of_isBlank (option.spaceBlank c member)
    have readOff := dropWord?_eq_some_iff.mpr ⟨⟨off, rfl, spelled⟩, closed⟩
    obtain ⟨off', old', rfl, _, offSpelled, offClosed, _⟩ :=
      Renewed.word behindSpace (by decide)
        (endsWord_lastOf_blanks option.spaceSome option.spaceBlank _) readOff
    have solid := isBlankBeside_spelled setSpelled known nonempty
      (gap ++ (name' ++ (space ++ (off' ++ old'))))
    exact ⟨_, (optionOffHit?_eq_some_iff listed).mpr ⟨follows.opened solid opened, set', gap, name',
      space, off', old', rfl, ⟨setSpelled, option.gapSome, option.gapBlank, nameSpelled,
        option.spaceSome, option.spaceBlank⟩, offSpelled, offClosed, rfl⟩⟩

/-- Where a lasting pattern had no hit it gets none by a renewal: a hit would open with a word,
and a renewal makes no words. -/
theorem Lasting.hit?_eq_none {opening : List Char} {pattern : Pattern}
    (lasting : Lasting opening pattern) {joins : Bool} {before before' : Option Char}
    {old new : Text} (renewed : Renewed joins before before' old new)
    (none : pattern.hit? before old = none) : pattern.hit? before' new = Option.none := by
  cases found : pattern.hit? before' new with
  | none => rfl
  | some hit =>
    obtain ⟨earlier, some⟩ := lasting.reflect renewed found
    rw [none] at some
    cases some

/-- A clear text stays clear under every built-in rule, by induction over the renewal. What a swap
puts lacks the sought words, and a kept character begins no match that was not there. -/
theorem Lasting.clear_renewed {opening : List Char} {pattern : Pattern}
    (lasting : Lasting opening pattern) {joins : Bool} {before before' : Option Char}
    {old new : Text} (renewed : Renewed joins before before' old new)
    (clear : Clear pattern before old) : Clear pattern before' new := by
  induction renewed with
  | nil => exact (lasting.builtin false).takesSome.hit?_nil _
  | keep follows later inductionHypothesis =>
    exact ⟨lasting.hit?_eq_none (.keep follows later) clear.1, inductionHypothesis clear.2⟩
  | @swap before before' taken put old new swap later inductionHypothesis =>
    exact lasting.clear_append (swap.put_lacks lasting.sought before' new)
      (inductionHypothesis clear.behind)

/-- An option that was turned on is no match: its first word begins the pattern, but the value
that follows is not the one it looks for, and no other word of it begins one. -/
theorem OptionOff.clear {capitals : List Char} (listed : capitals ∈ optionNames)
    {set gap name space : Text} (option : OptionOff capitals set gap name space)
    {before : Option Char} {rest : Text}
    (clear : Clear (.optionOff capitals)
      (lastOf before (set ++ (gap ++ (name ++ space)) ++ ['O', 'N'])) rest) :
    Clear (.optionOff capitals) before (set ++ (gap ++ (name ++ space)) ++ ['O', 'N'] ++ rest) := by
  have shape : set ++ (gap ++ (name ++ space)) ++ ['O', 'N'] =
      set ++ (gap ++ (name ++ (space ++ ['O', 'N']))) := by simp
  rw [shape] at clear ⊢
  have clashing : ∀ capitals ∈ optionNames, clash capitals ['S', 'E', 'T'] = true := by decide
  -- The first word begins the pattern, but the value is not the one it looks for.
  have first : optionOffHit? capitals before
      (set ++ (gap ++ (name ++ (space ++ ['O', 'N']))) ++ rest) = none := by
    by_cases opened : endsWord before = true
    · have value : dropWord? ['O', 'F', 'F'] ('O' :: 'N' :: rest) = none := by
        have differs : writes 'F' 'N' = false := by decide
        simp [dropWord?, dropKeyword?, differs]
      have whole : set ++ (gap ++ (name ++ (space ++ ['O', 'N']))) ++ rest =
          set ++ (gap ++ (name ++ (space ++ ('O' :: 'N' :: rest)))) := by simp
      rw [whole, option.hit?_eq listed opened (by rfl), value]
      rfl
    · rw [optionOffHit?, if_neg opened]
  have later : ∀ b, Lacks ['S', 'E', 'T'] b (gap ++ (name ++ (space ++ ['O', 'N']))) rest := by
    intro b
    rw [lacks_append, lacks_append, lacks_append]
    refine ⟨lacks_of_blanks (by decide) option.gapBlank _ _, ?_,
      lacks_of_blanks (by decide) option.spaceBlank _ _, ?_⟩
    · exact option.named.lacks (optionNames_known _ listed) (by decide) (clashing _ listed) _ _
    · exact lacks_of_no_opening (by decide) _ _
  have lasting : Lasting ['S', 'E', 'T'] (.optionOff capitals) := .optionOff listed
  obtain ⟨c, more, rfl, letter⟩ := option.spelled.cons_of_known (by decide) (by decide)
  have inside : endsWord (some c) = false := by simp [endsWord, letterForms_isWordChar c letter]
  have word : ∀ d ∈ more, isWordChar d = true := by
    intro d member
    exact letterForms_isWordChar d (option.spelled.letters (by decide) d (by simp [member]))
  refine ⟨first, ?_⟩
  change Clear _ (some c) ((more ++ (gap ++ (name ++ (space ++ ['O', 'N'])))) ++ rest)
  apply lasting.clear_append
  · rw [lacks_append]
    exact ⟨lacks_of_inside inside word _, later _⟩
  · simpa using clear

/-- A rule clears a text of its own pattern. What it puts holds no match, and no match begins
where it ends; the induction goes from match to match. -/
theorem Lasting.clear_replaceHits {opening : List Char} {pattern : Pattern}
    (lasting : Lasting opening pattern) {before before' : Option Char} {text : Text}
    (follows : Follows false before before' text) :
    Clear pattern before' (replaceHits none (pattern.scan before text)) := by
  have builtin : BuiltinPattern false pattern := lasting.builtin false
  induction before, text using builtin.takesSome.scan_induct generalizing before' with
  | nil before =>
    rw [builtin.takesSome.scan_nil, replaceHits]
    exact builtin.takesSome.hit?_nil _
  | plain before c rest absent inductionHypothesis =>
    rw [Pattern.scan_plain absent, replaceHits]
    refine ⟨?_, inductionHypothesis (Follows.refl _ _ _)⟩
    exact lasting.hit?_eq_none (.keep follows (builtin.renewed none (Follows.refl _ _ _))) absent
  | hit before hit rest found some inductionHypothesis =>
    obtain ⟨behind, same, _, step⟩ := builtin.step found
    obtain rfl := List.append_cancel_left same
    have later := inductionHypothesis (step _ follows).1
    rw [Pattern.scan_hit found some, replaceHits]
    cases lasting with
    | typeName listed =>
      obtain ⟨blank, word, _, _, spelled, _, rfl⟩ := typeNameHit?_eq_some_iff.mp found
      have swap : Swap false before word _ := .inl (.typeName listed spelled blank)
      exact Lasting.clear_append (.typeName listed)
        (swap.put_lacks (typeNames_sought _ listed) before' _) later
    | currentDate =>
      obtain ⟨opened, word, blanks, inside, _, _, spelled, blank, inner, rfl⟩ :=
        currentDateHit?_eq_some_iff.mp found
      have swap : Swap false before _ _ := .inl (.currentDate spelled blank inner opened)
      exact Lasting.clear_append .currentDate (swap.put_lacks (by decide) before' _) later
    | optionOff listed =>
      obtain ⟨opened, set, gap, name, space, off, _, _, option, _, _, rfl⟩ :=
        (optionOffHit?_eq_some_iff listed).mp found
      exact option.clear listed later

end SqlRenewal
