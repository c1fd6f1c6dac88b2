import SqlRenewal.Proofs.Substitution.OperatorRun
import SqlRenewal.Proofs.Substitution.Settled

/-!
# Passes are enough for short runs

Rules for words are settled by one pass. Only a run of operators needs several: a pass
replaces at most one operator of either side in it. So a run with at most as many asterisks,
or at most as many equals signs, as there are passes is used up, or left without operators,
before the passes end, and no rule has a match in the text that comes out.

The measure of a run is the smaller one of the two counts. It goes down with every operator
that is replaced, and where none is replaced the run is settled for good, because nothing
that other rules do beside a run changes what is seen in it.
-/
namespace SqlRenewal

/-! ### The measure of a run -/

/-- At most so many operators are left in a run. -/
def Few (n : Nat) (run : Text) : Prop :=
  run.count '*' ≤ n ∨ run.count '=' ≤ n

/-- A run for which so many passes are enough. -/
def Spent (n : Nat) (before : Option Char) (run rest : Text) : Prop :=
  Few n run ∨ ∀ side, ClearOn (.outerJoin side) before run rest

/-- The same run in the middle of a pass, behind the rule for left operators. -/
def Halfway (n : Nat) (before : Option Char) (run rest : Text) : Prop :=
  Few n run ∨ (ClearOn (.outerJoin .left) before run rest ∧
    (Few (n + 1) run ∨ ClearOn (.outerJoin .right) before run rest))

/-- An operator of a join is made of one star and one equals sign. -/
theorem JoinSide.count_operator (side : JoinSide) :
    side.operator.count '*' = 1 ∧ side.operator.count '=' = 1 := by
  cases side with
  | left => decide
  | right => decide

/-- What is few is so for any greater bound. -/
theorem Few.mono {m n : Nat} {run : Text} (few : Few m run) (le : m ≤ n) : Few n run := by
  rcases few with asterisks | equals
  · exact .inl (by omega)
  · exact .inr (by omega)

/-- What is left beside an operator has fewer characters of both kinds. -/
theorem Few.split {n : Nat} {side : JoinSide} {front behind : Text}
    (few : Few (n + 1) (front ++ (side.operator ++ behind))) : Few n front ∧ Few n behind := by
  obtain ⟨asterisk, equal⟩ := side.count_operator
  simp only [Few, List.count_append, asterisk, equal] at few ⊢
  omega

/-- A run that lacks one of the characters has no operator, because an operator would lie in the
run as a whole and has both. -/
theorem clearOn_of_few {run rest : Text} (few : Few 0 run)
    (closed : isNoneOf operatorForms rest.head? = true) (side : JoinSide) (before : Option Char) :
    ClearOn (.outerJoin side) before run rest := by
  rcases clearOn_or_hit (.outerJoin side) before run rest with
    clear | ⟨front, part, hit, rfl, _, _, found⟩
  · exact clear
  obtain ⟨text, whole, _⟩ := outerJoinHit?_eq_some_iff.mp found
  obtain ⟨behind, rfl, _⟩ := operator_inside closed whole
  obtain ⟨asterisk, equal⟩ := side.count_operator
  simp only [Few, List.count_append, asterisk, equal] at few
  omega

/-- Whether a run is spent is judged by its two counts, so blocks of other characters around it
have no part in that. -/
theorem spent_steady (n : Nat) : Steady (Spent n) := by
  intro before before' run rest rest' operators closed alike behind spent
  rcases spent with few | clear
  · exact .inl few
  · exact .inr fun side => clearOn_steady side operators closed alike behind (clear side)

/-- Whether a run is halfway is judged by its two counts as well. The third condition, that a side
is clear, is steady on its own. -/
theorem halfway_steady (n : Nat) : Steady (Halfway n) := by
  intro before before' run rest rest' operators closed alike behind halfway
  rcases halfway with few | ⟨clear, few | right⟩
  · exact .inl few
  · exact .inr ⟨clearOn_steady _ operators closed alike behind clear, .inl few⟩
  · exact .inr ⟨clearOn_steady _ operators closed alike behind clear,
      .inr (clearOn_steady _ operators closed alike behind right)⟩

/-! ### One pass -/

/-- The left join takes a star out of each run in which it can, so every run is halfway behind
it. -/
theorem EveryRun.apply_left {n : Nat} {text : Text} (every : EveryRun (Spent (n + 1)) none text) :
    EveryRun (Halfway n) none (leftOuterJoin.apply text) := by
  refine every.outerJoin (halfway_steady n) ?_ ?_
  · intro before run rest spent clear
    rcases spent with few | both
    · exact .inr ⟨clear, .inl few⟩
    · exact .inr ⟨clear, .inr (both .right)⟩
  · intro before front behind rest spent unclear other text
    rcases spent with few | both
    · exact ⟨.inl few.split.1, .inl few.split.2⟩
    · exact absurd (both .left) unclear

/-- The right join does the second half: every run is spent by one pass then. A run that it
changes loses one of each character, and one that it leaves is clear of both operators. -/
theorem EveryRun.apply_right {n : Nat} {text : Text} (every : EveryRun (Halfway n) none text) :
    EveryRun (Spent n) none (rightOuterJoin.apply text) := by
  refine every.outerJoin (spent_steady n) ?_ ?_
  · intro before run rest halfway clear
    rcases halfway with few | ⟨left, _⟩
    · exact .inl few
    · refine .inr fun side => ?_
      cases side with
      | left => exact left
      | right => exact clear
  · intro before front behind rest halfway unclear other text
    have few : Few (n + 1) (front ++ (JoinSide.right.operator ++ behind)) := by
      rcases halfway with few | ⟨_, few | clear⟩
      · exact few.mono (Nat.le_succ n)
      · exact few
      · exact absurd clear unclear
    exact ⟨.inl few.split.1, .inl few.split.2⟩

/-- A rule for words leaves what is said of runs. -/
theorem EveryRun.apply_word {n : Nat} {rule : Rule} (word : BuiltinPattern false rule.pattern)
    {text : Text} (every : EveryRun (Spent n) none text) : EveryRun (Spent n) none (rule.apply text) :=
  every.renewed (spent_steady n) (Alike.refl none) (Rule.apply_renewed word text)

/-- The rules in front of those for operators, and the ones behind them. -/
def typeRules : List Rule := [textType, ntextType, imageType, getdateFunction]

/-- The rules for the options of a session. -/
def optionRules : List Rule := [ansiNullsOff, quotedIdentifierOff]

/-- The rules that are repeated are those of types, the two joins, and those of options, in this
order. -/
theorem repeatedRules_eq : builtinRules.filter (!·.afterChange) =
    typeRules ++ leftOuterJoin :: rightOuterJoin :: optionRules := rfl

/-- Rules that look for words have patterns that join none. They are named one by one, and none of
them is an outer join. -/
theorem builtinPattern_of_word {rule : Rule} (word : rule ∈ typeRules ∨ rule ∈ optionRules) :
    BuiltinPattern false rule.pattern := by
  have known : ∀ rule ∈ typeRules ++ optionRules, BuiltinPattern false rule.pattern := by
    simp only [typeRules, optionRules, List.cons_append, List.nil_append, List.forall_mem_cons]
    exact ⟨.typeName (by decide), .typeName (by decide), .typeName (by decide), .currentDate,
      .optionOff (by decide), .optionOff (by decide), by simp⟩
  exact known rule (List.mem_append.mpr word)

/-- One pass brings every run a step nearer to its end. Only the two joins touch runs, and the
rules for words before and behind them leave every run as it is. -/
theorem EveryRun.pass {n : Nat} {progress : Progress}
    (every : EveryRun (Spent (n + 1)) none progress.text) :
    EveryRun (Spent n) none (progress.applyAll (builtinRules.filter (!·.afterChange))).text := by
  have types : EveryRun (Spent (n + 1)) none (progress.applyAll typeRules).text :=
    Progress.applyAll_induct
      (fun rule member _ => EveryRun.apply_word (builtinPattern_of_word (.inl member))) progress every
  have joins : EveryRun (Spent n) none
      (((progress.applyAll typeRules).apply leftOuterJoin).apply rightOuterJoin).text :=
    types.apply_left.apply_right
  rw [repeatedRules_eq, Progress.applyAll_append, Progress.applyAll_cons, Progress.applyAll_cons]
  exact Progress.applyAll_induct
    (fun rule member _ => EveryRun.apply_word (builtinPattern_of_word (.inr member))) _ joins

/-! ### All passes -/

/-- All repeated rules have patterns that come with the program. -/
theorem repeatedRules_pattern : ∀ rule ∈ builtinRules.filter (!·.afterChange),
    BuiltinPattern true rule.pattern :=
  fun rule member => builtinRules_pattern rule (List.mem_filter.mp member).1

/-- A text that a pass leaves as it is has no run to be shortened. -/
theorem EveryRun.of_idle {n : Nat} {progress : Progress}
    (idle : progress.applyAll (builtinRules.filter (!·.afterChange)) = progress)
    (every : EveryRun (Spent n) none progress.text) : EveryRun (Spent 0) none progress.text := by
  induction n with
  | zero => exact every
  | succ n inductionHypothesis =>
    have shorter := every.pass
    rw [idle] at shorter
    exact inductionHypothesis shorter

/-- As many passes as the measure says leave no operator. The induction is over the passes; a pass
that does nothing ends them early, and then there was nothing left to do. -/
theorem EveryRun.settle {passes : Nat} {progress : Progress}
    (every : EveryRun (Spent passes) none progress.text) : EveryRun (Spent 0) none
      (Progress.settle (builtinRules.filter (!·.afterChange)) passes progress).text := by
  induction passes generalizing progress with
  | zero => exact every
  | succ passes inductionHypothesis =>
    rw [Progress.settle]
    split
    · -- The passes end early, because this one did nothing.
      rename_i same
      have idle := Progress.applyAll_of_same_tally repeatedRules_pattern same
      rw [idle]
      exact every.of_idle idle
    · exact inductionHypothesis every.pass

/-- Runs that are spent have no operator, and outside of runs none can begin. The induction goes
from run to run. -/
theorem EveryRun.isClear {before : Option Char} {text : Text} (every : EveryRun (Spent 0) before text)
    (side : JoinSide) : Clear (.outerJoin side) before text := by
  induction every with
  | nil => exact (outerJoin_takesSome side).hit?_nil _
  | plain outside later inductionHypothesis =>
    exact ⟨outerJoin_hit?_of_plain outside, inductionHypothesis⟩
  | @run before run rest some operators closed spent later inductionHypothesis =>
    have clear : ClearOn (.outerJoin side) before run rest := by
      rcases spent with few | both
      · exact clearOn_of_few few closed side before
      · exact both side
    exact clear_append.mpr ⟨clear, inductionHypothesis⟩

/-- No run of operator characters in the text needs more passes than there are. -/
def ShortRuns (text : Text) : Prop :=
  ∀ front run rest, text = front ++ (run ++ rest) → OperatorRun front run rest →
    run.count '*' ≤ passLimit ∨ run.count '=' ≤ passLimit

/-- Short runs are spent within as many passes as there are. -/
theorem ShortRuns.everyRun {text : Text} (short : ShortRuns text) :
    EveryRun (Spent passLimit) none text := by
  have each : EveryRun (Spent passLimit) (lastOf none []) text :=
    everyRun_of_forall (fun front run rest whole row => .inl (short front run rest whole row))
      (.inl rfl)
  rwa [lastOf_nil] at each

/-- After all passes every short run is spent, by induction over the passes: each takes one off
what every run has left. -/
theorem ShortRuns.everyRun_applyRules {text : Text} (short : ShortRuns text) (changed : Bool) :
    EveryRun (Spent 0) none (applyRules builtinRules changed text).text := by
  have settled : EveryRun (Spent 0) none (settleRules builtinRules text).text :=
    short.everyRun.settle
  have conditional : ∀ rule ∈ builtinRules.filter (·.afterChange),
      BuiltinPattern false rule.pattern := by
    intro rule member
    obtain ⟨listed, follows⟩ := List.mem_filter.mp member
    apply builtinRules_pattern_of_ne rule listed
    · rintro rfl
      cases follows
    · rintro rfl
      cases follows
  rw [applyRules]
  split
  · exact Progress.applyAll_induct
      (fun rule member _ => EveryRun.apply_word (conditional rule member)) _ settled
  · exact settled

/-- Where no run is too long, the rules leave a text in which none of them has a match, and
applying them again does nothing. The rules for words are done with in one pass; each pass takes
what the two joins can take out of every run, and there are as many passes as the longest run
needs. -/
theorem applyRules_settles {text : Text} (short : ShortRuns text) (changed : Bool) :
    (∀ rule ∈ builtinRules, rule.afterChange = false →
      rule.pattern.hits (applyRules builtinRules changed text).text = []) ∧
    applyRules builtinRules false (applyRules builtinRules changed text).text =
      ⟨(applyRules builtinRules changed text).text, []⟩ := by
  have spent := short.everyRun_applyRules changed
  have clear : ∀ rule ∈ builtinRules, rule.afterChange = false →
      rule.IsClear (applyRules builtinRules changed text).text := by
    intro rule listed unconditional
    by_cases left : rule = leftOuterJoin
    · subst left
      exact spent.isClear .left
    by_cases right : rule = rightOuterJoin
    · subst right
      exact spent.isClear .right
    · exact (builtinRules_lasts rule listed left right unconditional).isClear_applyRules
        builtinRules_pattern listed unconditional changed text
  refine ⟨?_, applyRules_of_clear clear⟩
  intro rule listed unconditional
  exact hitsOf_scan_eq_nil_iff.mpr (clear rule listed unconditional)

/-- A run that needs all passes. -/
theorem applyRules_settles_row :
    ShortRuns "a *=*=*=*=*=*=*=*= b".toList ∧
      leftOuterJoin.pattern.hits (applyRules builtinRules true "a *=*=*=*=*=*=*=*= b".toList).text = [] ∧
      applyRules builtinRules false (applyRules builtinRules true "a *=*=*=*=*=*=*=*= b".toList).text =
        ⟨(applyRules builtinRules true "a *=*=*=*=*=*=*=*= b".toList).text, []⟩ := by
  have short : ShortRuns "a *=*=*=*=*=*=*=*= b".toList := by
    intro front run rest whole row
    have eight : (front ++ (run ++ rest)).count '*' = passLimit := by
      rw [← whole]
      decide
    simp only [List.count_append] at eight
    exact .inl (by omega)
  obtain ⟨clear, still⟩ := applyRules_settles short true
  exact ⟨short, clear leftOuterJoin (by simp [builtinRules]) rfl, still⟩

end SqlRenewal
