import SqlRenewal.Proofs.Ledger.Timeless
import SqlRenewal.Proofs.Work.Sweep

/-!
# The routines of a batch do not meet

In a table, the change of one routine touches neither the text nor the result of another
one. A batch that names no routine twice therefore makes of each of them what its change
alone would have made, whether the other ones succeed or fail. The order does not matter
either: in another one the same changes are entered in the ledger under other numbers.

The clock goes on between one run and another, so ledgers are compared without their times.
Where two runs read the same clock, they noted the same times too.
-/
namespace SqlRenewal

variable {desk : Desk} {manner : Manner} {identity other : Identity}

/-- Drafts that are entered in two parts are entered in one. -/
theorem Ledger.enterAll_append (ledger : Ledger) (now : Stamp) (first second : List Draft) :
    (ledger.enterAll now first).enterAll now second = ledger.enterAll now (first ++ second) := by
  rw [Ledger.enterAll, Ledger.enterAll, Ledger.enterAll, List.foldl_append]

/-! ### Tables -/

/-- A routine of the table after the changes of some routines. -/
def Desk.renewed (desk : Desk) (manner : Manner) (identities : List Identity) (routine : Routine) :
    Routine :=
  if routine.identity ∈ identities then
    { routine with text := (desk.newText? manner routine.identity).getD routine.text }
  else routine

/-- A renewed routine keeps its identity. -/
@[simp] theorem Desk.renewed_identity (identities : List Identity) (routine : Routine) :
    (desk.renewed manner identities routine).identity = routine.identity := by
  rw [Desk.renewed]
  split <;> rfl

section Table

variable {table : Option Catalog} (shelf : desk.shelf = .table table)

include shelf

/-- A change touches the row of its own routine only, or none. Renewing it in a table is renewing
the rows of its name, each with the text that was read. -/
theorem changed_table : (desk.changed manner identity).shelf =
    .table (table.map (List.map (desk.renewed manner [identity]))) := by
  have pointwise : desk.renewed manner [identity] = fun routine =>
      if routine.identity = identity then
        { routine with text := (desk.newText? manner identity).getD routine.text }
      else routine := by
    funext routine
    simp only [Desk.renewed, List.mem_singleton]
    split
    · rename_i same
      rw [same]
    · rfl
  rw [pointwise, Desk.changed]
  cases desk.newText? manner identity with
  | none =>
    simp only [Option.getD_none, ite_self, List.map_id_fun', Option.map_id]
    exact shelf
  | some text =>
    simp only [Desk.withText, shelf]
    cases table <;> rfl

/-- What is read in a table is decided by the first routine of the name, and renewing others
neither changes that row nor puts another one before it. -/
theorem read_renewed {after : Desk} {identities : List Identity}
    (renewed : after.shelf = .table (table.map (List.map (desk.renewed manner identities))))
    (untouched : other ∉ identities) : after.read other = desk.read other := by
  rw [Desk.read, Desk.read, renewed, shelf]
  cases table with
  | none => rfl
  | some catalog =>
    simp only [Option.map_some]
    rw [Catalog.routine?_map fun routine => Desk.renewed_identity identities routine]
    cases found : catalog.routine? other with
    | none => rfl
    | some routine =>
      have owner := Catalog.routine?_identity found
      simp only [Option.map_some, Desk.renewed, owner, untouched, if_false]

/-- A change leaves the other routines alone. -/
theorem changed_alike (distinct : other ≠ identity) :
    desk.Alike (desk.changed manner identity) other := by
  refine ⟨?_, Desk.changed_outage _ _ _⟩
  exact read_renewed shelf (changed_table shelf) (by simpa using distinct)

end Table

/-! ### Batches -/

/-- What is renewed in the first change and then in the later ones is renewed in all of them. -/
theorem Desk.renewed_renewed {identities : List Identity} (absent : identity ∉ identities)
    (alike : ∀ other ∈ identities, desk.Alike (desk.changed manner identity) other)
    (routine : Routine) :
    (desk.changed manner identity).renewed manner identities (desk.renewed manner [identity] routine) =
      desk.renewed manner (identity :: identities) routine := by
  by_cases first : routine.identity = identity
  · simp [Desk.renewed, first, absent]
  · by_cases later : routine.identity ∈ identities
    · simp [Desk.renewed, first, later, (alike _ later).newText?]
    · simp [Desk.renewed, first, later]

/-- What a batch comes to, as far as it can be told from the desk at its beginning. -/
structure Foreseen (desk : Desk) (table : Option Catalog) (manner : Manner)
    (identities : List Identity) : Prop where
  outcomes : (desk.outcomes manner identities).map Outcome.unnumbered =
    identities.map fun identity =>
      (Outcome.ofAnswer identity (desk.verdict manner identity)).unnumbered
  ledger : (desk.changedAll manner identities).ledger =
    desk.ledger.enterAll desk.now (identities.filterMap (desk.draft? manner))
  shelf : (desk.changedAll manner identities).shelf =
    .table (table.map (List.map (desk.renewed manner identities)))

/-- What a batch makes of a table is foreseen row by row, before any of its changes: each change
touches its own row, and no routine is changed twice. The induction is over the routines. -/
theorem foreseen {table : Option Catalog} (shelf : desk.shelf = .table table) (manner : Manner)
    {identities : List Identity} (distinct : identities.Nodup) :
    Foreseen desk table manner identities := by
  induction identities generalizing desk table with
  | nil =>
    have idle : desk.renewed manner [] = id := by
      funext routine
      simp [Desk.renewed]
    refine ⟨rfl, rfl, ?_⟩
    rw [idle, List.map_id_fun, Option.map_id]
    exact shelf
  | cons identity rest inductionHypothesis =>
    obtain ⟨absent, distinct⟩ := List.nodup_cons.mp distinct
    -- The routines of the rest see the desk as it was, so nothing that is foreseen for them
    -- depends on the first change.
    have alike : ∀ other ∈ rest, desk.Alike (desk.changed manner identity) other := by
      intro other member
      refine changed_alike shelf ?_
      rintro rfl
      exact absent member
    obtain ⟨outcomes, ledger, shelves⟩ := inductionHypothesis (changed_table shelf) distinct
    refine ⟨?_, ?_, ?_⟩
    · rw [Desk.outcomes, List.map_cons, outcomes, Desk.unnumbered_outcome, List.map_cons]
      congr 1
      refine List.map_congr_left ?_
      intro other member
      rw [(alike other member).verdict]
    · have same : rest.filterMap ((desk.changed manner identity).draft? manner) =
          rest.filterMap (desk.draft? manner) := by
        refine List.filterMap_congr ?_
        intro other member
        rw [(alike other member).draft?]
      rw [Desk.changedAll, ledger, Desk.changed_ledger, Desk.changed_now, same,
        Ledger.enterAll_append]
      cases drafted : desk.draft? manner identity <;> simp [drafted]
    · have composed : (desk.changed manner identity).renewed manner rest ∘
          desk.renewed manner [identity] = desk.renewed manner (identity :: rest) := by
        funext routine
        exact Desk.renewed_renewed absent alike routine
      rw [Desk.changedAll, shelves, Option.map_map, List.map_comp_map, composed]

/-- A batch makes of each routine what its change alone would make of it, whenever that is
made. -/
structure Isolated (desk : Desk) (manner : Manner) (size : Nat) (identities : List Identity)
    (batch : Batch) (after : Desk) : Prop where
  performed : (changeAll manner size identities).perform desk = (.ok batch, after)
  /-- A change that fails alone has a result that failed. -/
  outcomes : ∀ now, batch.outcomes.map Outcome.unnumbered = identities.map fun identity =>
    (Outcome.ofAnswer identity
      ((changeRoutine manner identity).perform { desk with now }).1).unnumbered
  texts : ∀ now, ∀ identity ∈ identities, after.text? identity =
    ((changeRoutine manner identity).perform { desk with now }).2.text? identity
  others : ∀ identity, identity ∉ identities → after.text? identity = desk.text? identity

/-- The text of a routine after a batch is that of its own row, found in the table as it was and
renewed there. -/
theorem text?_renewed {table : Option Catalog} {after : Desk} {identities : List Identity}
    (renewed : after.shelf = .table (table.map (List.map (desk.renewed manner identities)))) :
    after.text? identity = (table.bind fun catalog => catalog.routine? identity).map fun routine =>
      (desk.renewed manner identities routine).text := by
  rw [Desk.text?, renewed]
  cases table with
  | none => rfl
  | some catalog =>
    simp only [Option.map_some, Option.bind_some]
    rw [Catalog.routine?_map fun routine => Desk.renewed_identity identities routine,
      Option.map_map]
    rfl

/-- Where two changes renew a routine of the name alike, its text is the same after both. -/
theorem text?_renewed_congr {table : Option Catalog} {first second : Routine → Routine}
    (same : ∀ routine, routine.identity = identity → (first routine).text = (second routine).text) :
    ((table.bind fun catalog => catalog.routine? identity).map fun routine => (first routine).text) =
      (table.bind fun catalog => catalog.routine? identity).map
        fun routine => (second routine).text := by
  refine Option.map_congr ?_
  intro routine found
  obtain ⟨catalog, _, listed⟩ := Option.bind_eq_some_iff.mp found
  exact same routine (Catalog.routine?_identity listed)

/-- The change alone comes to what was foreseen for it in the batch: its text, its result and its
entry depend on its own row only, and on the ledger by the numbers that it gives. -/
theorem isolated {table : Option Catalog} (shelf : desk.shelf = .table table)
    (noting : desk.Noting) (manner : Manner) (size : Nat) {identities : List Identity}
    (distinct : identities.Nodup) :
    ∃ lines, Isolated desk manner size identities
      (.ofOutcomes size (desk.outcomes manner identities))
      ((desk.changedAll manner identities).logged lines) := by
  obtain ⟨lines, performed⟩ := noting.perform_changeAll manner size identities
  obtain ⟨outcomes, _, shelves⟩ := foreseen shelf manner distinct
  have notingAt (now : Stamp) : ({ desk with now } : Desk).Noting :=
    ⟨noting.orderly, noting.backups, noting.updates⟩
  refine ⟨lines, performed, ?_, ?_, ?_⟩
  · intro now
    rw [Batch.outcomes_ofOutcomes, outcomes]
    refine List.map_congr_left ?_
    intro identity _
    obtain ⟨_, alone⟩ := (notingAt now).perform_changeRoutine manner identity
    have same : ({ desk with now } : Desk).verdict manner identity = desk.verdict manner identity := rfl
    rw [alone, same]
    cases desk.verdict manner identity <;> rfl
  · intro now identity member
    obtain ⟨_, alone⟩ := (notingAt now).perform_changeRoutine manner identity
    have shelfAt : ({ desk with now } : Desk).shelf = .table table := shelf
    rw [alone, Desk.logged_text?, Desk.logged_text?, text?_renewed shelves,
      text?_renewed (changed_table shelfAt)]
    refine text?_renewed_congr ?_
    intro routine named
    have same : ({ desk with now } : Desk).newText? manner identity = desk.newText? manner identity :=
      rfl
    simp [Desk.renewed, named, member, same]
  · intro identity absent
    have unchanged : desk.text? identity =
        (table.bind fun catalog => catalog.routine? identity).map fun routine => (id routine).text := by
      rw [Desk.text?, shelf]
      cases table <;> rfl
    rw [Desk.logged_text?, text?_renewed shelves, unchanged]
    refine text?_renewed_congr ?_
    intro routine named
    simp [Desk.renewed, named, absent]

/-- A batch of distinct routines in a table makes of each of them what its change alone
would make of it, and leaves the other ones as they are, whatever its rules: nothing but the
renewal of single texts is asked of them. In any other order, and at any other time, it
leaves the same table, gives the same results apart from the numbers of the backups, and
makes the same entries in the ledger under other numbers. At the same time it also notes the
same times. -/
theorem changeAll_isolates {table : Option Catalog} (shelf : desk.shelf = .table table)
    (noting : desk.Noting) (manner : Manner) (size : Nat) {identities : List Identity}
    (distinct : identities.Nodup) :
    ∃ batch after, Isolated desk manner size identities batch after ∧
      ∀ permuted : List Identity, identities.Perm permuted → ∀ now,
        ∃ batch' after', Isolated { desk with now } manner size permuted batch' after' ∧
          after'.shelf = after.shelf ∧
          (batch.outcomes.map Outcome.unnumbered).Perm (batch'.outcomes.map Outcome.unnumbered) ∧
          ∃ number numberEvent,
            desk.ledger.timeless.EqualUpToNumbers after.ledger.timeless after'.ledger.timeless number
              numberEvent ∧
            (now = desk.now →
              desk.ledger.EqualUpToNumbers after.ledger after'.ledger number numberEvent) := by
  obtain ⟨lines, alone⟩ := isolated shelf noting manner size distinct
  refine ⟨_, _, alone, ?_⟩
  intro permuted perm now
  let later : Desk := { desk with now }
  have distinct' : permuted.Nodup := perm.nodup_iff.mp distinct
  have shelf' : later.shelf = .table table := shelf
  have noting' : later.Noting := ⟨noting.orderly, noting.backups, noting.updates⟩
  obtain ⟨lines', alone'⟩ := isolated shelf' noting' manner size distinct'
  have first := foreseen shelf manner distinct
  have second := foreseen shelf' manner distinct'
  refine ⟨_, _, alone', ?_, ?_, ?_⟩
  · have sameRoutines : later.renewed manner permuted = desk.renewed manner identities := by
      funext routine
      simp only [Desk.renewed, perm.mem_iff]
      rfl
    exact (second.shelf.trans (by rw [sameRoutines])).trans first.shelf.symm
  · rw [alone.outcomes now, alone'.outcomes now]
    exact perm.map _
  · -- At the same time the entries are equal up to numbers, and without times it does not
    -- matter when they were made.
    obtain ⟨number, numberEvent, equal⟩ := noting.orderly.enterAll_perm desk.now
      (perm.filterMap (desk.draft? manner))
    have made : (later.changedAll manner permuted).ledger =
        desk.ledger.enterAll now (permuted.filterMap (desk.draft? manner)) := second.ledger
    have timeless := equal.timeless
    rw [Ledger.enterAll_timeless _ _ (permuted.filterMap _), ← Ledger.enterAll_timeless _ now, ← made,
      ← first.ledger] at timeless
    refine ⟨number, numberEvent, timeless, ?_⟩
    rintro rfl
    rwa [← first.ledger, ← made] at equal

/-- In a batch of three, one routine is changed, one does not exist, and one may not be
written. -/
theorem changeAll_isolates_failures :
    let routine (name : Char) : Identity := ⟨['d'], [name], by decide, List.cons_ne_nil _ _⟩
    let desk : Desk :=
      { shelf := .table (some [⟨routine 'p', [], "RAISERROR(1)".toList⟩,
          ⟨routine 'q', [], "RAISERROR(2)".toList⟩])
        outage := { commits := [['q']] } }
    let manner : Manner := { rules := [], preview := false }
    let identities := [routine 'q', routine 'r', routine 'p']
    desk.Noting ∧ identities.Nodup ∧
      ((changeAll manner 0 identities).perform desk).2.ledger.records.map Record.status =
        [.backedUp, .updated] ∧
      ∃ batch after, Isolated desk manner 0 identities batch after := by
  intro routine desk manner identities
  have noting : desk.Noting := ⟨.ofEmpty ⟨_, rfl⟩ rfl, rfl, rfl⟩
  have distinct : identities.Nodup := by decide
  obtain ⟨batch, after, alone, _⟩ := changeAll_isolates rfl noting manner 0 distinct
  obtain ⟨lines, performed⟩ := noting.perform_changeAll manner 0 identities
  have entered : (desk.changedAll manner identities).ledger.records.map Record.status =
      [.backedUp, .updated] := by cbv
  refine ⟨noting, distinct, ?_, batch, after, alone⟩
  exact (congrArg (fun ending => ending.2.ledger.records.map Record.status) performed).trans entered

end SqlRenewal
