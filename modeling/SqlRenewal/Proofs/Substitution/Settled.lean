import SqlRenewal.Proofs.Substitution.Clear

/-!
# Passes of rules

What every single rule preserves, a list of rules preserves through all its passes
(`applyRules_induct`). A lasting rule clears the text in the first pass, and the
text stays clear of it, however the passes go on. Rules that find a clear text do
nothing and leave no trace in the tally; conversely, rules that add nothing to the
tally do nothing.
-/
namespace SqlRenewal

/-! ### What all rules preserve -/

/-- The first rule of a pass is applied first. -/
theorem Progress.applyAll_cons (progress : Progress) (rule : Rule) (rules : List Rule) :
    progress.applyAll (rule :: rules) = (progress.apply rule).applyAll rules := rfl

/-- The rules of a pass are applied in two parts, one after the other. -/
theorem Progress.applyAll_append (progress : Progress) (first second : List Rule) :
    progress.applyAll (first ++ second) = (progress.applyAll first).applyAll second :=
  List.foldl_append

/-- What every rule keeps a pass keeps, by induction over its rules, for any progress that the
earlier ones made. -/
theorem Progress.applyAll_induct {preserved : Text → Prop} {rules : List Rule}
    (step : ∀ rule ∈ rules, ∀ text, preserved text → preserved (rule.apply text))
    (progress : Progress) (start : preserved progress.text) :
    preserved (progress.applyAll rules).text := by
  induction rules generalizing progress with
  | nil => exact start
  | cons rule rules inductionHypothesis =>
    apply inductionHypothesis (fun other member => step other (List.mem_cons_of_mem _ member))
    exact step rule List.mem_cons_self _ start

/-- What every rule keeps all passes keep, by induction over the passes. They may end early,
behind a pass that has kept it too. -/
theorem Progress.settle_induct {preserved : Text → Prop} {rules : List Rule}
    (step : ∀ rule ∈ rules, ∀ text, preserved text → preserved (rule.apply text)) (passes : Nat)
    (progress : Progress) (start : preserved progress.text) :
    preserved (Progress.settle rules passes progress).text := by
  induction passes generalizing progress with
  | zero => exact start
  | succ passes inductionHypothesis =>
    have next := Progress.applyAll_induct step progress start
    rw [Progress.settle]
    split
    · exact next
    · exact inductionHypothesis _ next

/-- What each rule preserves, all of them together preserve: first the passes until nothing
changes or the limit is reached, then the rules that wait for a change. -/
theorem applyRules_induct {preserved : Text → Prop} {rules : List Rule}
    (step : ∀ rule ∈ rules, ∀ text, preserved text → preserved (rule.apply text))
    (changed : Bool) {text : Text} (start : preserved text) :
    preserved (applyRules rules changed text).text := by
  have settled : preserved (settleRules rules text).text :=
    Progress.settle_induct (fun rule member => step rule (List.mem_filter.mp member).1) _ _ start
  rw [applyRules]
  split
  · exact Progress.applyAll_induct (fun rule member => step rule (List.mem_filter.mp member).1) _ settled
  · exact settled

/-! ### Rules on clear texts -/

/-- The rule matches nowhere in the text. -/
def Rule.IsClear (rule : Rule) (text : Text) : Prop :=
  Clear rule.pattern none text

/-- A rule counts no hits exactly in a clear text. -/
theorem Rule.count_eq_zero_iff {rule : Rule} {text : Text} :
    rule.count text = 0 ↔ rule.IsClear text := by
  rw [Rule.count, List.length_eq_zero_iff, Pattern.hits, hitsOf_scan_eq_nil_iff, Rule.IsClear]

/-- A rule changes nothing in a clear text. -/
theorem Rule.IsClear.changes_eq {rule : Rule} {text : Text} (clear : rule.IsClear text) :
    rule.changes text = 0 := by
  have none : rule.pattern.hits text = [] := hitsOf_scan_eq_nil_iff.mpr clear
  rw [Rule.changes, Rule.replaced, none]
  cases rule.limit? <;> simp

/-- A rule does nothing with a clear text. -/
theorem Rule.IsClear.apply_eq {rule : Rule} {progress : Progress}
    (clear : rule.IsClear progress.text) : progress.apply rule = progress := by
  have same : rule.apply progress.text = progress.text := Clear.replaceHits_eq clear _
  rw [Progress.apply, same, clear.changes_eq, Tally.add, if_pos rfl]

/-- A pass does nothing if the text is clear for all its rules. The first rule leaves the progress
alone, so the others see the same text. -/
theorem Progress.applyAll_eq {rules : List Rule} {progress : Progress}
    (clear : ∀ rule ∈ rules, rule.IsClear progress.text) : progress.applyAll rules = progress := by
  induction rules with
  | nil => rfl
  | cons rule rules inductionHypothesis =>
    have first : progress.apply rule = progress := (clear rule List.mem_cons_self).apply_eq
    have others := inductionHypothesis fun other member => clear other (List.mem_cons_of_mem _ member)
    rw [Progress.applyAll_cons, first, others]

/-- Rules without matches change nothing and count nothing: the first pass leaves everything as it
is and is the last one, and no rule follows a change. -/
theorem applyRules_of_clear {rules : List Rule} {text : Text}
    (clear : ∀ rule ∈ rules, rule.afterChange = false → rule.IsClear text) :
    applyRules rules false text = ⟨text, []⟩ := by
  have still (passes : Nat) : Progress.settle (rules.filter (!·.afterChange)) passes ⟨text, []⟩ =
      ⟨text, []⟩ := by
    have same : (⟨text, []⟩ : Progress).applyAll (rules.filter (!·.afterChange)) = ⟨text, []⟩ := by
      apply Progress.applyAll_eq
      intro rule member
      obtain ⟨listed, unconditional⟩ := List.mem_filter.mp member
      exact clear rule listed (by simpa using unconditional)
    cases passes with
    | zero => rfl
    | succ passes => rw [Progress.settle, same, if_pos rfl]
  simp [applyRules, settleRules, still]

/-! ### Rules that change nothing -/

/-- The first matches, as many as the allowance says. -/
def coveredHits (allowance : Option Nat) (hits : List Hit) : List Hit :=
  match allowance with
  | none => hits
  | some n => hits.take n

/-- Matches that are put back as they were leave the text as it was. The induction goes from match
to match. -/
theorem BuiltinPattern.replaceHits_eq {joins : Bool} {pattern : Pattern}
    (builtin : BuiltinPattern joins pattern) (allowance : Option Nat) {before : Option Char}
    {text : Text}
    (idle : ∀ hit ∈ coveredHits allowance (hitsOf (pattern.scan before text)), hit.put = hit.taken) :
    replaceHits allowance (pattern.scan before text) = text := by
  induction before, text using builtin.takesSome.scan_induct generalizing allowance with
  | nil before =>
    rw [builtin.takesSome.scan_nil, replaceHits]
  | plain before c rest absent inductionHypothesis =>
    rw [Pattern.scan_plain absent] at idle ⊢
    rw [replaceHits, inductionHypothesis allowance idle]
  | hit before hit rest found some inductionHypothesis =>
    rw [Pattern.scan_hit found some] at idle ⊢
    cases allowance with
    | none =>
      have first : hit.put = hit.taken := idle hit (by simp [coveredHits])
      have later : ∀ other ∈ coveredHits none (hitsOf (pattern.scan (lastOf before hit.taken) rest)),
          other.put = other.taken := by
        intro other member
        exact idle other (by simpa [coveredHits] using .inr member)
      rw [replaceHits, first, inductionHypothesis none later]
    | some limit =>
      cases limit with
      | zero => rw [replaceHits, inductionHypothesis (Option.some 0) (by simp [coveredHits])]
      | succ limit =>
        have first : hit.put = hit.taken := idle hit (by simp [coveredHits])
        have later : ∀ other ∈ coveredHits (Option.some limit)
            (hitsOf (pattern.scan (lastOf before hit.taken) rest)), other.put = other.taken := by
          intro other member
          exact idle other (by simpa [coveredHits] using .inr member)
        rw [replaceHits, first, inductionHypothesis (Option.some limit) later]

/-- A rule that counts no hit leaves the text as it is. A hit counts unless it puts what it takes,
so all hits that are replaced put the same text. -/
theorem Rule.apply_of_changes {rule : Rule} (builtin : BuiltinPattern true rule.pattern) {text : Text}
    (none : rule.changes text = 0) : rule.apply text = text := by
  refine builtin.replaceHits_eq rule.limit? ?_
  intro hit member
  have replaced : hit ∈ rule.replaced text := member
  rw [Rule.changes, List.countP_eq_zero] at none
  simpa using none hit replaced

/-- A tally is empty after hits are added if it was, and there were none. Hits of a new name make
an entry, and those of a known one are added to an entry. -/
theorem Tally.add_eq_nil_iff {name : Text} {hits : Nat} {tally : Tally} :
    tally.add name hits = [] ↔ hits = 0 ∧ tally = [] := by
  rw [Tally.add]
  by_cases none : hits = 0
  · simp [none]
  · simp only [none, if_false, false_and, iff_false]
    split
    · rename_i listed
      intro empty
      rw [List.map_eq_nil_iff] at empty
      simp [empty] at listed
    · simp

/-- All hits of a tally together. -/
def Tally.total : Tally → Nat
  | [] => 0
  | entry :: tally => entry.2 + Tally.total tally

/-- The total grows by the hits of a new entry. -/
theorem Tally.total_concat (tally : Tally) (entry : Text × Nat) :
    Tally.total (tally ++ [entry]) = tally.total + entry.2 := by
  induction tally with
  | nil => simp [Tally.total]
  | cons other tally inductionHypothesis =>
    rw [List.cons_append, Tally.total, Tally.total, inductionHypothesis, Nat.add_assoc]

/-- Hits that are entered for a name are found in the total again, at least once if the name is
there. The induction is over the entries. -/
theorem Tally.total_le_map (name : Text) (hits : Nat) (tally : Tally) :
    tally.total + (if tally.any (·.1 == name) then hits else 0) ≤
      Tally.total (tally.map fun entry =>
        if entry.1 = name then (entry.1, entry.2 + hits) else entry) := by
  induction tally with
  | nil => exact Nat.le_refl _
  | cons entry tally inductionHypothesis =>
    rw [List.map_cons, total, total, List.any_cons]
    by_cases same : entry.1 = name
    · rw [if_pos same, beq_iff_eq.mpr same, Bool.true_or, if_pos rfl]
      dsimp only
      omega
    · rw [if_neg same, beq_eq_false_iff_ne.mpr same, Bool.false_or]
      omega

/-- The total grows by the hits that are added at least, whether they go to an entry that is there
or to a new one. -/
theorem Tally.total_add_le (name : Text) (hits : Nat) (tally : Tally) :
    tally.total + hits ≤ (tally.add name hits).total := by
  rw [Tally.add]
  split
  · omega
  · split
    · rename_i listed
      have entered := Tally.total_le_map name hits tally
      rwa [if_pos listed] at entered
    · exact Nat.le_of_eq (Tally.total_concat tally (name, hits)).symm

section WithoutHits

/-- The total never falls during a pass, because hits are only added. The induction is over the
rules. -/
theorem Progress.total_le_applyAll (rules : List Rule) (progress : Progress) :
    progress.tally.total ≤ (progress.applyAll rules).tally.total := by
  induction rules generalizing progress with
  | nil => exact Nat.le_refl _
  | cons rule rules inductionHypothesis =>
    have first : progress.tally.total + rule.changes progress.text ≤ (progress.apply rule).tally.total :=
      Tally.total_add_le _ _ _
    have later := inductionHypothesis (progress.apply rule)
    rw [Progress.applyAll_cons]
    omega

/-- An empty tally after a pass was empty before it. -/
theorem Progress.tally_of_applyAll {rules : List Rule} {progress : Progress}
    (none : (progress.applyAll rules).tally = []) : progress.tally = [] := by
  induction rules generalizing progress with
  | nil => exact none
  | cons rule rules inductionHypothesis =>
    exact (Tally.add_eq_nil_iff.mp (inductionHypothesis none)).2

variable {rules : List Rule} (builtin : ∀ rule ∈ rules, BuiltinPattern true rule.pattern)

include builtin

/-- A pass that adds nothing to the tally changes nothing. Every change is a hit, and hits that
one rule adds are not taken away by later ones; the induction is over the rules. -/
theorem Progress.applyAll_of_same_tally {progress : Progress}
    (same : (progress.applyAll rules).tally = progress.tally) : progress.applyAll rules = progress := by
  induction rules generalizing progress with
  | nil => rfl
  | cons rule rules inductionHypothesis =>
    have counted : progress.tally.total + rule.changes progress.text ≤
        (progress.apply rule).tally.total := Tally.total_add_le _ _ _
    have later : (progress.apply rule).tally.total ≤ (progress.applyAll (rule :: rules)).tally.total :=
      Progress.total_le_applyAll rules _
    rw [same] at later
    have unchanged : rule.changes progress.text = 0 := by omega
    have first : progress.apply rule = progress := by
      rw [Progress.apply, Rule.apply_of_changes (builtin rule List.mem_cons_self) unchanged, unchanged,
        Tally.add, if_pos rfl]
    rw [Progress.applyAll_cons, first] at same ⊢
    exact inductionHypothesis (fun other member => builtin other (List.mem_cons_of_mem _ member)) same

/-- A pass without any hit changes nothing. -/
theorem Progress.applyAll_of_tally {progress : Progress}
    (none : (progress.applyAll rules).tally = []) : progress.applyAll rules = progress :=
  Progress.applyAll_of_same_tally builtin (none.trans (Progress.tally_of_applyAll none).symm)

/-- Passes without any hit change nothing: the first of them has none, and no other is made. -/
theorem Progress.settle_of_tally {passes : Nat} {progress : Progress}
    (none : (Progress.settle rules passes progress).tally = []) :
    Progress.settle rules passes progress = progress := by
  induction passes generalizing progress with
  | zero => rfl
  | succ passes inductionHypothesis =>
    rw [Progress.settle] at none ⊢
    split at none
    · rename_i settled
      rw [if_pos settled]
      exact Progress.applyAll_of_tally builtin none
    · rename_i unsettled
      have later := inductionHypothesis none
      have next : (progress.applyAll rules).tally = [] := by
        rw [← later]
        exact none
      rw [if_neg unsettled, later]
      exact Progress.applyAll_of_tally builtin next

/-- Rules that record no hit change nothing, neither in the passes nor by the rules that follow a
change. -/
theorem applyRules_of_tally {changed : Bool} {text : Text}
    (none : (applyRules rules changed text).tally = []) : (applyRules rules changed text).text = text := by
  have kept (condition : Rule → Bool) : ∀ rule ∈ rules.filter condition,
      BuiltinPattern true rule.pattern :=
    fun rule member => builtin rule (List.mem_filter.mp member).1
  have settled (quiet : (settleRules rules text).tally = []) : settleRules rules text = ⟨text, []⟩ :=
    Progress.settle_of_tally (kept _) quiet
  rw [applyRules] at none ⊢
  split at none
  · rename_i followed
    have last := Progress.applyAll_of_tally (kept _) none
    have quiet : (settleRules rules text).tally = [] := by
      rw [← last]
      exact none
    rw [if_pos followed, last, settled quiet]
  · rename_i unfollowed
    rw [if_neg unfollowed, settled none]

end WithoutHits

/-! ### Lasting rules -/

/-- The rule replaces all matches of a lasting pattern. -/
def Rule.Lasts (rule : Rule) : Prop :=
  (∃ opening, Lasting opening rule.pattern) ∧ rule.allowance = none

/-- A rule with a built-in pattern makes swaps only. -/
theorem Rule.apply_renewed {joins : Bool} {rule : Rule} (builtin : BuiltinPattern joins rule.pattern)
    (text : Text) : Renewed joins none none text (rule.apply text) :=
  builtin.renewed _ (Follows.refl _ _ _)

/-- Behind a lasting rule the text is clear for it: what it puts makes no new hit. -/
theorem Rule.Lasts.isClear_apply {rule : Rule} (lasts : rule.Lasts) (text : Text) :
    rule.IsClear (rule.apply text) := by
  obtain ⟨⟨opening, lasting⟩, unlimited⟩ := lasts
  have cleared := lasting.clear_replaceHits (Follows.refl false none text)
  simpa [Rule.IsClear, Rule.apply, Rule.limit?, unlimited] using cleared

/-- A text that is clear of a lasting rule stays so. -/
theorem Rule.Lasts.isClear_apply_other {rule other : Rule} (lasts : rule.Lasts)
    (builtin : BuiltinPattern true other.pattern) {text : Text} (clear : rule.IsClear text) :
    rule.IsClear (other.apply text) := by
  obtain ⟨⟨opening, lasting⟩, _⟩ := lasts
  exact lasting.clear_renewed (Rule.apply_renewed builtin text) clear

/-- Behind a pass the text is clear for each of its lasting rules. The rules after it make no hits
for it, because all of them make no words. -/
theorem Rule.Lasts.isClear_applyAll {rule : Rule} (lasts : rule.Lasts) {rules : List Rule}
    (builtin : ∀ other ∈ rules, BuiltinPattern true other.pattern) (member : rule ∈ rules)
    (progress : Progress) : rule.IsClear (progress.applyAll rules).text := by
  induction rules generalizing progress with
  | nil => cases member
  | cons first rules inductionHypothesis =>
    have later : ∀ other ∈ rules, BuiltinPattern true other.pattern :=
      fun other listed => builtin other (List.mem_cons_of_mem _ listed)
    rcases List.mem_cons.mp member with rfl | member
    · -- Its own application clears the text, and the rules after it keep it clear.
      apply Progress.applyAll_induct (fun other listed _ => lasts.isClear_apply_other (later other listed))
      exact lasts.isClear_apply _
    · exact inductionHypothesis later member _

/-- The rules leave a text that is clear of every lasting rule among them: it is clear behind its
own pass, and the passes of the others make no match for it. -/
theorem Rule.Lasts.isClear_applyRules {rule : Rule} (lasts : rule.Lasts) {rules : List Rule}
    (builtin : ∀ other ∈ rules, BuiltinPattern true other.pattern) (member : rule ∈ rules)
    (unconditional : rule.afterChange = false) (changed : Bool) (text : Text) :
    rule.IsClear (applyRules rules changed text).text := by
  have kept : ∀ (condition : Rule → Bool), ∀ other ∈ rules.filter condition, ∀ text,
      rule.IsClear text → rule.IsClear (other.apply text) := by
    intro condition other listed text
    exact lasts.isClear_apply_other (builtin other (List.mem_filter.mp listed).1)
  have settled : rule.IsClear (settleRules rules text).text := by
    have repeated : rule ∈ rules.filter (!·.afterChange) :=
      List.mem_filter.mpr ⟨member, by simp [unconditional]⟩
    have first := lasts.isClear_applyAll
      (fun other listed => builtin other (List.mem_filter.mp listed).1) repeated ⟨text, []⟩
    rw [settleRules, passLimit, Progress.settle]
    split
    · exact first
    · exact Progress.settle_induct (kept _) _ _ first
  rw [applyRules]
  split
  · exact Progress.applyAll_induct (kept _) _ settled
  · exact settled

/-! ### The built-in rules -/

/-- The rules for calls and for the first words of definitions are no rules for joins: they have
other patterns. -/
theorem joinless_of_call_or_head {rule : Rule} (one : rule = getdateFunction ∨ rule = createToAlter) :
    rule ∈ builtinRules ∧ rule ≠ leftOuterJoin ∧ rule ≠ rightOuterJoin := by
  rcases one with rfl | rfl
  · refine ⟨by simp [builtinRules], ?_, ?_⟩
    all_goals
      intro same
      cases congrArg Rule.pattern same
  · refine ⟨by simp [builtinRules], ?_, ?_⟩
    all_goals
      intro same
      cases congrArg Rule.pattern same

/-- All rules but the two joins have patterns that join no words. They are listed in the order of
the table. -/
theorem builtinRules_pattern_of_ne : ∀ rule ∈ builtinRules, rule ≠ leftOuterJoin →
    rule ≠ rightOuterJoin → BuiltinPattern false rule.pattern := by
  simp only [builtinRules, List.forall_mem_cons]
  exact ⟨fun _ _ => .typeName (by decide), fun _ _ => .typeName (by decide),
    fun _ _ => .typeName (by decide), fun _ _ => .currentDate, fun ne _ => absurd rfl ne,
    fun _ ne => absurd rfl ne, fun _ _ => .optionOff (by decide), fun _ _ => .optionOff (by decide),
    fun _ _ => .definition, by simp⟩

/-- Apart from joins, a rule that needs no earlier change lasts. The one that does need it is
excluded like the joins. -/
theorem builtinRules_lasts : ∀ rule ∈ builtinRules, rule ≠ leftOuterJoin → rule ≠ rightOuterJoin →
    rule.afterChange = false → rule.Lasts := by
  simp only [builtinRules, List.forall_mem_cons]
  exact ⟨fun _ _ _ => ⟨⟨_, .typeName (by decide)⟩, rfl⟩, fun _ _ _ => ⟨⟨_, .typeName (by decide)⟩, rfl⟩,
    fun _ _ _ => ⟨⟨_, .typeName (by decide)⟩, rfl⟩, fun _ _ _ => ⟨⟨_, .currentDate⟩, rfl⟩,
    fun ne _ => absurd rfl ne, fun _ ne => absurd rfl ne,
    fun _ _ _ => ⟨⟨_, .optionOff (by decide)⟩, rfl⟩, fun _ _ _ => ⟨⟨_, .optionOff (by decide)⟩, rfl⟩,
    fun _ _ impossible => absurd impossible (by decide), by simp⟩

end SqlRenewal
