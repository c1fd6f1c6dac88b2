import SqlRenewal.Proofs.Substitution.Clear

/-!
# Operators in a row

The operators of outer joins are read off the asterisks and equals signs that stand in a
row. In such a run at most one of them is replaced at a time: the left one only where the
run ends, the right one only where it begins. What is left of the run is shorter by both
characters, and letters stand where the operator stood.

`EveryRun` says of every run what it is given to say, with the character before the run
and the text behind it. Whether an operator is replaced depends on its neighbours, but
swaps of words neither touch a run nor put a character beside it that would matter there.
-/
namespace SqlRenewal

/-! ### Runs and their neighbours -/

/-- The characters of the operators. -/
def operatorForms : List Char := ['*', '=']

/-- Operator characters that no other ones stand beside, between two parts of a text. -/
structure OperatorRun (front run rest : Text) : Prop where
  operators : ∀ c ∈ run, c ∈ operatorForms
  opened : isNoneOf operatorForms front.getLast? = true
  closed : isNoneOf operatorForms rest.head? = true

/-- What is said holds for every run of a text that follows the given character. -/
inductive EveryRun (holds : Option Char → Text → Text → Prop) : Option Char → Text → Prop where
  | nil {before : Option Char} : EveryRun holds before []
  | plain {before : Option Char} {c : Char} {rest : Text} (outside : c ∉ operatorForms)
      (later : EveryRun holds (some c) rest) : EveryRun holds before (c :: rest)
  | run {before : Option Char} {run rest : Text} (some : run ≠ [])
      (operators : ∀ c ∈ run, c ∈ operatorForms)
      (closed : isNoneOf operatorForms rest.head? = true) (holding : holds before run rest)
      (later : EveryRun holds (lastOf before run) rest) : EveryRun holds before (run ++ rest)

/-- Two neighbours of a run count alike. -/
def Alike (first second : Option Char) : Prop :=
  ∀ c ∈ markForms, first = some c ↔ second = some c

/-- A neighbour is like itself. -/
theorem Alike.refl (neighbour : Option Char) : Alike neighbour neighbour :=
  fun _ _ => Iff.rfl

/-- Neighbours are alike in both directions. -/
theorem Alike.symm {first second : Option Char} (alike : Alike first second) : Alike second first :=
  fun c member => (alike c member).symm

/-- A neighbour is none of some characters if it is not any one of them; an end of the text is
none. -/
theorem isNoneOf_eq_true_iff {excluded : List Char} {neighbour : Option Char} :
    isNoneOf excluded neighbour = true ↔ ∀ c ∈ excluded, neighbour ≠ some c := by
  cases neighbour with
  | none => simp [isNoneOf]
  | some d =>
    simp only [isNoneOf, Option.any_some, Bool.not_eq_eq_eq_not, Bool.not_true, ne_eq,
      Option.some.injEq, List.contains_eq_mem, decide_eq_false_iff_not]
    constructor
    · rintro absent c member rfl
      exact absent member
    · intro differs member
      exact differs d member rfl

/-- Two neighbours without characters of marks are alike. -/
theorem alike_of_unmarked {first second : Option Char} (free : isNoneOf markForms first = true)
    (free' : isNoneOf markForms second = true) : Alike first second := by
  rw [isNoneOf_eq_true_iff] at free free'
  intro c member
  exact iff_of_false (free c member) (free' c member)

/-- Alike neighbours bar the same operators. -/
theorem Alike.isNoneOf {first second : Option Char} (alike : Alike first second)
    {excluded : List Char} (known : excluded ⊆ markForms) (free : isNoneOf excluded first = true) :
    isNoneOf excluded second = true := by
  rw [isNoneOf_eq_true_iff] at free ⊢
  intro c member same
  exact free c member ((alike c (known member)).mpr same)

/-- The characters of operators are among those of marks. -/
theorem operatorForms_marked : operatorForms ⊆ markForms := by decide

/-- A text without characters of marks has none of operators. -/
theorem not_operator_of_unmarked {text : Text} (unmarked : ∀ c ∈ text, c ∉ markForms) :
    ∀ c ∈ text, c ∉ operatorForms :=
  fun c member operator => unmarked c member (operatorForms_marked operator)

/-- What closes a run is no character of operators. -/
theorem not_operator_of_head {c : Char} {rest : Text}
    (closed : isNoneOf operatorForms (c :: rest).head? = true) : c ∉ operatorForms :=
  fun operator => isNoneOf_eq_true_iff.mp closed c operator rfl

section

variable {holds : Option Char → Text → Text → Prop} {before : Option Char} {front run rest : Text}

/-- A front without characters of operators adds no run. Each of its characters is plain, and the
last one stands before the runs of the rest. -/
theorem EveryRun.prepend (outside : ∀ c ∈ front, c ∉ operatorForms)
    (every : EveryRun holds (lastOf before front) rest) : EveryRun holds before (front ++ rest) := by
  induction front generalizing before with
  | nil => simpa using every
  | cons c front inductionHypothesis =>
    have later : ∀ d ∈ front, d ∉ operatorForms := fun d member => outside d (by simp [member])
    exact .plain (outside c (by simp)) (inductionHypothesis later (by simpa using every))

/-- What holds of every run holds of those behind a front without operators, since no run begins
in the front. The induction goes along it. -/
theorem EveryRun.behind (every : EveryRun holds before (front ++ rest))
    (outside : ∀ c ∈ front, c ∉ operatorForms) : EveryRun holds (lastOf before front) rest := by
  induction front generalizing before with
  | nil => simpa using every
  | cons c front inductionHypothesis =>
    generalize whole : c :: front ++ rest = text at every
    cases every with
    | nil => simp at whole
    | plain _ later =>
      obtain ⟨rfl, rfl⟩ := List.cons.inj whole
      rw [lastOf_cons]
      exact inductionHypothesis later fun d member => outside d (by simp [member])
    | @run _ run _ some operators =>
      cases run with
      | nil => exact absurd rfl some
      | cons d run =>
        obtain ⟨rfl, _⟩ := List.cons.inj whole
        exact absurd (operators c (by simp)) (outside c (by simp))

/-- Behind a run the character before it says nothing more. No other run starts there, so the
character is not looked at. -/
theorem EveryRun.change_before (every : EveryRun holds before rest)
    (closed : isNoneOf operatorForms rest.head? = true) (other : Option Char) :
    EveryRun holds other rest := by
  cases every with
  | nil => exact .nil
  | plain outside later => exact .plain outside later
  | @run _ run _ some operators =>
    cases run with
    | nil => exact absurd rfl some
    | cons d run => exact absurd (operators d (by simp)) (not_operator_of_head closed)

/-- A run may be empty. -/
theorem EveryRun.prepend_run (operators : ∀ c ∈ run, c ∈ operatorForms)
    (closed : isNoneOf operatorForms rest.head? = true) (holding : holds before run rest)
    (later : EveryRun holds (lastOf before run) rest) : EveryRun holds before (run ++ rest) := by
  by_cases empty : run = []
  · subst empty
    simpa using later
  · exact .run empty operators closed holding later

end

/-- Operator characters at the beginning of a text, up to the first other one, are a run, which
may be empty. -/
theorem exists_leading_run (text : Text) : ∃ run rest, text = run ++ rest ∧
    (∀ c ∈ run, c ∈ operatorForms) ∧ isNoneOf operatorForms rest.head? = true := by
  refine ⟨text.takeWhile operatorForms.contains, text.dropWhile operatorForms.contains,
    List.takeWhile_append_dropWhile.symm, ?_, ?_⟩
  · intro c member
    have operator := List.all_eq_true.mp (List.all_takeWhile (p := operatorForms.contains)) c member
    simpa using operator
  · have stopped := List.head?_dropWhile_not operatorForms.contains text
    cases found : (text.dropWhile operatorForms.contains).head? with
    | none => rfl
    | some c =>
      rw [found] at stopped
      simpa [isNoneOf] using stopped

/-- What holds for the runs of a text that are found by cutting it holds for its runs one
after the other. -/
theorem everyRun_of_forall {holds : Option Char → Text → Text → Prop} {front text : Text}
    (each : ∀ first run rest, front ++ text = first ++ (run ++ rest) → OperatorRun first run rest →
      holds (lastOf none first) run rest)
    (apart : isNoneOf operatorForms front.getLast? = true ∨ isNoneOf operatorForms text.head? = true) :
    EveryRun holds (lastOf none front) text := by
  induction size : text.length using Nat.strongRecOn generalizing front text with
  | ind length inductionHypothesis =>
    obtain ⟨run, rest, rfl, operators, closed⟩ := exists_leading_run text
    cases run with
    | nil =>
      cases rest with
      | nil => exact .nil
      | cons c rest =>
        have outside := not_operator_of_head closed
        have last : isNoneOf operatorForms (front ++ [c]).getLast? = true := by
          simpa [isNoneOf] using outside
        have later : EveryRun holds (lastOf none (front ++ [c])) rest :=
          inductionHypothesis rest.length (by simp [← size]) (by simpa using each) (.inl last) rfl
        rw [lastOf_append] at later
        exact .plain outside later
    | cons c run =>
      have opened : isNoneOf operatorForms front.getLast? = true := by
        rcases apart with opened | closed'
        · exact opened
        · exact absurd (operators c (by simp)) (not_operator_of_head closed')
      have shorter : rest.length < length := by
        rw [← size, List.length_append, List.length_cons]
        omega
      have later : EveryRun holds (lastOf none (front ++ c :: run)) rest :=
        inductionHypothesis rest.length shorter (by simpa using each) (.inr closed) rfl
      rw [lastOf_append] at later
      exact .run (List.cons_ne_nil c run) operators closed
        (each front (c :: run) rest rfl ⟨operators, opened, closed⟩) later

/-! ### Words beside a run -/

/-- What is said of a run does not depend on more of its neighbours than operators do. -/
def Steady (holds : Option Char → Text → Text → Prop) : Prop :=
  ∀ {before before' : Option Char} {run rest rest' : Text}, (∀ c ∈ run, c ∈ operatorForms) →
    isNoneOf operatorForms rest.head? = true → Alike before before' → Alike rest.head? rest'.head? →
    holds before run rest → holds before' run rest'

/-- A renewal leaves the first character like it was, as far as operators are concerned: words are
put for words. -/
theorem Renewed.alike_head {before before' : Option Char} {old new : Text}
    (renewed : Renewed false before before' old new) : Alike old.head? new.head? := by
  cases renewed with
  | nil => exact Alike.refl _
  | keep follows later => exact Alike.refl _
  | swap swap later =>
    obtain ⟨takenFree, putFree⟩ := swap.word.unmarked
    obtain ⟨c, more, rfl, _⟩ := swap.taken_head
    obtain ⟨d, others, rfl, _⟩ := swap.put_head
    apply alike_of_unmarked
    · simpa [isNoneOf] using takenFree c (by simp)
    · simpa [isNoneOf] using putFree d (by simp)

/-- A run is kept by rules without joins: what they take begins with a letter, and a run has
none. -/
theorem Renewed.kept_run {before before' : Option Char} {run old new : Text}
    (renewed : Renewed false before before' (run ++ old) new)
    (operators : ∀ c ∈ run, c ∈ operatorForms) : ∃ new', new = run ++ new' ∧
      Renewed false (lastOf before run) (lastOf before' run) old new' := by
  have letterless : ∀ c ∈ operatorForms, c ∉ letterForms := by decide
  apply renewed.kept_of_unopened
  intro b taken put swap
  obtain ⟨c, more, same, letter⟩ := swap.word.taken_head
  exact ⟨c, more, same, fun member => letterless c (operators c member) letter⟩

/-- Swaps of words leave every run as it is. They neither take nor put a character of operators,
so a run lies between two swaps; the induction is on the length of the old text. -/
theorem EveryRun.renewed {holds : Option Char → Text → Text → Prop} (steady : Steady holds)
    {before before' : Option Char} {old new : Text} (every : EveryRun holds before old)
    (alike : Alike before before') (renewed : Renewed false before before' old new) :
    EveryRun holds before' new := by
  -- Induction on the length of the old text: a swap may take more than one character.
  induction size : old.length using Nat.strongRecOn generalizing before before' old new with
  | ind length inductionHypothesis =>
    cases every with
    | nil =>
      generalize whole : ([] : Text) = text at renewed
      cases renewed with
      | nil => exact .nil
      | keep follows later => cases whole
      | swap swap later =>
        obtain ⟨c, more, rfl, _⟩ := swap.taken_head
        cases whole
    | @plain _ c rest outside every =>
      generalize whole : c :: rest = text at renewed
      cases renewed with
      | nil => cases whole
      | keep follows later =>
        obtain ⟨rfl, rfl⟩ := List.cons.inj whole
        have shorter : rest.length < length := by simp [← size]
        exact .plain outside (inductionHypothesis rest.length shorter every (Alike.refl _) later rfl)
      | @swap _ _ taken put old new swap later =>
        obtain ⟨takenFree, putFree⟩ := swap.word.unmarked
        obtain ⟨takenLast, putLast⟩ := swap.word.unmarked_last before before'
        have before_taken : EveryRun holds before (taken ++ old) := whole ▸ .plain outside every
        have behind := before_taken.behind (not_operator_of_unmarked takenFree)
        have shorter : old.length < length := by
          obtain ⟨d, more, same, _⟩ := swap.taken_head
          rw [← size, whole, same, List.length_append, List.length_cons]
          omega
        have inner := inductionHypothesis old.length shorter behind
          (alike_of_unmarked takenLast putLast) later rfl
        exact inner.prepend (not_operator_of_unmarked putFree)
    | @run _ run rest some operators closed holding every =>
      obtain ⟨new, rfl, later⟩ := renewed.kept_run operators
      have head := Renewed.alike_head later
      have last : Alike (lastOf before run) (lastOf before' run) := by
        rw [lastOf_of_ne_nil some before before']
        exact Alike.refl _
      have shorter : rest.length < length := by
        have positive := List.length_pos_iff.mpr some
        rw [← size, List.length_append]
        omega
      exact .run some operators (head.isNoneOf operatorForms_marked closed)
        (steady operators closed alike head holding)
        (inductionHypothesis rest.length shorter every last later rfl)

/-! ### Operators inside a run -/

/-- The characters of an operator are characters of operators. -/
theorem JoinSide.operator_mem (side : JoinSide) : ∀ c ∈ side.operator, c ∈ operatorForms := by
  cases side with
  | left => decide
  | right => decide

/-- Only characters of marks are barred beside an operator. -/
theorem JoinSide.barred_marked (side : JoinSide) :
    side.barredBefore ⊆ markForms ∧ side.barredBehind ⊆ markForms := by
  cases side with
  | left => decide
  | right => decide

/-- An operator that begins inside a run ends inside it, because behind the run stands no
character of operators. -/
theorem operator_inside {side : JoinSide} {part rest text : Text}
    (closed : isNoneOf operatorForms rest.head? = true)
    (whole : part ++ rest = side.operator ++ text) :
    ∃ behind, part = side.operator ++ behind ∧ text = behind ++ rest := by
  rcases List.append_eq_append_iff.mp whole with ⟨more, same, follows⟩ | ⟨behind, same, follows⟩
  · cases more with
    | nil => exact ⟨[], by simpa using same.symm, by simpa using follows.symm⟩
    | cons c more =>
      have operator : c ∈ operatorForms := side.operator_mem c (by simp [same])
      rw [follows] at closed
      exact absurd operator (not_operator_of_head closed)
  · exact ⟨behind, same, follows⟩

/-- Clear runs stay clear beside other neighbours that count alike, because an operator looks at
its neighbours in no other way. The induction is along the run. -/
theorem clearOn_steady (side : JoinSide) : Steady (ClearOn (.outerJoin side)) := by
  intro before before' run rest rest' operators closed alike behind clear
  induction run generalizing before before' with
  | nil => trivial
  | cons c run inductionHypothesis =>
    have later : ∀ d ∈ run, d ∈ operatorForms := fun d member => operators d (by simp [member])
    refine ⟨?_, inductionHypothesis later (Alike.refl _) clear.2⟩
    cases found : (Pattern.outerJoin side).hit? before' (c :: (run ++ rest')) with
    | none => rfl
    | some hit =>
      obtain ⟨text, whole, free, freeBehind, rfl⟩ := outerJoinHit?_eq_some_iff.mp found
      have closed' := behind.isNoneOf operatorForms_marked closed
      rw [← List.cons_append] at whole
      obtain ⟨tail, samePart, rfl⟩ := operator_inside closed' whole
      have headAlike : Alike (tail ++ rest').head? (tail ++ rest).head? := by
        cases tail with
        | nil => exact behind.symm
        | cons d tail => exact Alike.refl _
      have earlier : (Pattern.outerJoin side).hit? before (c :: (run ++ rest)) =
          some ⟨side.operator, side.written⟩ := by
        refine outerJoinHit?_eq_some_iff.mpr ⟨tail ++ rest, ?_, ?_, ?_, rfl⟩
        · rw [← List.cons_append, samePart, List.append_assoc]
        · exact alike.symm.isNoneOf side.barred_marked.1 free
        · exact headAlike.isNoneOf side.barred_marked.2 freeBehind
      rw [clear.1] at earlier
      cases earlier

/-- Behind an operator character a right operator is none: every such character is barred in front
of it. The induction goes along the rest of the run. -/
theorem clearOn_right_of_joined {before : Option Char} {part rest : Text}
    (operators : ∀ c ∈ part, c ∈ operatorForms) (joined : isNoneOf operatorForms before = false) :
    ClearOn (.outerJoin .right) before part rest := by
  induction part generalizing before with
  | nil => trivial
  | cons c part inductionHypothesis =>
    have next : isNoneOf operatorForms (some c) = false := by
      simpa [isNoneOf] using operators c (by simp)
    refine ⟨?_, inductionHypothesis (fun d member => operators d (by simp [member])) next⟩
    cases found : (Pattern.outerJoin .right).hit? before (c :: (part ++ rest)) with
    | none => rfl
    | some hit =>
      obtain ⟨text, _, free, _⟩ := outerJoinHit?_eq_some_iff.mp found
      have known : operatorForms ⊆ JoinSide.right.barredBefore := by decide
      have apart : isNoneOf operatorForms before = true :=
        isNoneOf_eq_true_iff.mpr fun d member => isNoneOf_eq_true_iff.mp free d (known member)
      rw [joined] at apart
      cases apart

/-- Behind the operator of a run nothing else is replaced: a left operator ends the run, and
behind a right one no other may stand. -/
theorem clearOn_behind_operator {side : JoinSide} {behind rest : Text}
    (operators : ∀ c ∈ behind, c ∈ operatorForms)
    (free : isNoneOf side.barredBehind (behind ++ rest).head? = true) (before : Option Char) :
    ClearOn (.outerJoin side) (lastOf before side.operator) behind rest := by
  cases side with
  | left =>
    -- The left operator stands at the end of the run.
    cases behind with
    | nil => trivial
    | cons c behind => exact absurd (operators c (by simp)) (not_operator_of_head free)
  | right =>
    exact clearOn_right_of_joined operators (by simp [JoinSide.operator, isNoneOf, operatorForms])

/-- In a run that is not clear one operator is written out, and what stands before and behind it
in the run is kept. -/
theorem replaceHits_run {side : JoinSide} {before : Option Char} {run rest : Text}
    (operators : ∀ c ∈ run, c ∈ operatorForms)
    (closed : isNoneOf operatorForms rest.head? = true)
    (unclear : ¬ClearOn (.outerJoin side) before run rest) :
    ∃ front behind, run = front ++ (side.operator ++ behind) ∧
      replaceHits none ((Pattern.outerJoin side).scan before (run ++ rest)) =
        front ++ (side.written ++ (behind ++
          replaceHits none ((Pattern.outerJoin side).scan (lastOf before run) rest))) := by
  rcases clearOn_or_hit (.outerJoin side) before run rest with
    clear | ⟨front, part, hit, rfl, _, clear, found⟩
  · exact absurd clear unclear
  obtain ⟨text, whole, _, free, rfl⟩ := outerJoinHit?_eq_some_iff.mp found
  obtain ⟨behind, rfl, rfl⟩ := operator_inside closed whole
  have later := clearOn_behind_operator (fun c member => operators c (by simp [member])) free
    (lastOf before front)
  refine ⟨front, behind, rfl, ?_⟩
  rw [List.append_assoc, clear.replaceHits_eq, replaceHits_hit found whole side.operator_ne_nil,
    later.replaceHits_eq, lastOf_append, lastOf_append]

/-! ### One application to a text -/

/-- No operator begins with another character, because the first one of each operator is among the
characters of operators. -/
theorem outerJoin_hit?_of_plain {side : JoinSide} {before : Option Char} {c : Char} {rest : Text}
    (outside : c ∉ operatorForms) : (Pattern.outerJoin side).hit? before (c :: rest) = none := by
  cases found : (Pattern.outerJoin side).hit? before (c :: rest) with
  | none => rfl
  | some hit =>
    obtain ⟨text, whole, _⟩ := outerJoinHit?_eq_some_iff.mp found
    have inside : c ∈ side.operator := by
      cases side with
      | left =>
        obtain ⟨rfl, _⟩ := List.cons.inj whole
        exact List.mem_cons_self
      | right =>
        obtain ⟨rfl, _⟩ := List.cons.inj whole
        exact List.mem_cons_self
    exact absurd (side.operator_mem c inside) outside

/-- Another character is passed over. -/
theorem replaceHits_plain {side : JoinSide} {before : Option Char} {c : Char} {rest : Text}
    (outside : c ∉ operatorForms) :
    replaceHits none ((Pattern.outerJoin side).scan before (c :: rest)) =
      c :: replaceHits none ((Pattern.outerJoin side).scan (some c) rest) := by
  rw [Pattern.scan_plain (outerJoin_hit?_of_plain outside), replaceHits]

/-- A text that begins with no operator still begins with the same character, because a join takes
operators only. -/
theorem head?_replaceHits {text : Text} (closed : isNoneOf operatorForms text.head? = true)
    (side : JoinSide) (before : Option Char) :
    (replaceHits none ((Pattern.outerJoin side).scan before text)).head? = text.head? := by
  cases text with
  | nil => rw [(outerJoin_takesSome side).scan_nil, replaceHits]
  | cons c text =>
    rw [replaceHits_plain (not_operator_of_head closed)]
    rfl

/-- What an application makes of the runs of a text: those without the operator stay, and of
the others two shorter ones are left, which may be empty. -/
theorem EveryRun.outerJoin {side : JoinSide} {holds holds' : Option Char → Text → Text → Prop}
    (steady : Steady holds')
    (idle : ∀ {before run rest}, holds before run rest → ClearOn (.outerJoin side) before run rest →
      holds' before run rest)
    (split : ∀ {before front behind rest}, holds before (front ++ (side.operator ++ behind)) rest →
      ¬ClearOn (.outerJoin side) before (front ++ (side.operator ++ behind)) rest →
      ∀ other text, holds' other front text ∧ holds' other behind text)
    {before : Option Char} {text : Text} (every : EveryRun holds before text) :
    EveryRun holds' before (replaceHits none ((Pattern.outerJoin side).scan before text)) := by
  induction every with
  | nil =>
    rw [(outerJoin_takesSome side).scan_nil, replaceHits]
    exact .nil
  | plain outside later inductionHypothesis =>
    rw [replaceHits_plain outside]
    exact .plain outside inductionHypothesis
  | @run before run rest some operators closed holding later inductionHypothesis =>
    have head := head?_replaceHits closed side (lastOf before run)
    have closed' : isNoneOf operatorForms (replaceHits none
        ((Pattern.outerJoin side).scan (lastOf before run) rest)).head? = true := by rwa [head]
    by_cases clear : ClearOn (.outerJoin side) before run rest
    · rw [clear.replaceHits_eq]
      refine .run some operators closed' ?_ inductionHypothesis
      have behind : Alike rest.head? (replaceHits none
          ((Pattern.outerJoin side).scan (lastOf before run) rest)).head? := by
        rw [head]
        exact Alike.refl _
      exact steady operators closed (Alike.refl _) behind (idle holding clear)
    · obtain ⟨front, behind, rfl, replaced⟩ := replaceHits_run operators closed clear
      have shorter := split holding clear
      obtain ⟨nonempty, unmarked⟩ := side.written_unmarked
      have letters := not_operator_of_unmarked unmarked
      have written : isNoneOf operatorForms (side.written ++ (behind ++ replaceHits none
          ((Pattern.outerJoin side).scan (lastOf before (front ++ (side.operator ++ behind)))
            rest))).head? = true := by
        cases side with
        | left => rfl
        | right => rfl
      rw [replaced]
      refine .prepend_run (fun c member => operators c (by simp [member])) written (shorter _ _).1 ?_
      refine .prepend letters ?_
      refine .prepend_run (fun c member => operators c (by simp [member])) closed' (shorter _ _).2 ?_
      exact inductionHypothesis.change_before closed' _

end SqlRenewal
