import SqlRenewal.Proofs.Ledger.Transaction

/-!
# The committed records of a routine

The committed records of a routine, oldest first, are a stack. A backup leaves
every stack as it is, because its record is not committed yet; committing the
record that was added last puts it on the stack of its routine; taking a record
back removes it from the place where it stands. No step touches the stack of
another routine.

The numbers of the records grow along the ledger, so a number finds one record.
-/
namespace SqlRenewal

/-- Steps can be noted, records carry growing numbers, and none is beyond the last one
given. -/
structure Ledger.Orderly (ledger : Ledger) : Prop where
  noted : ∃ events, ledger.events = some events
  increasing : ledger.records.Pairwise fun older newer => older.id < newer.id
  bounded : ∀ record ∈ ledger.records, record.id ≤ ledger.lastRecord

namespace Ledger

variable {ledger : Ledger} {record : Record} {front rest : List Record}

/-- Without records there are no numbers to be in order. -/
theorem Orderly.ofEmpty (noted : ∃ events, ledger.events = some events)
    (empty : ledger.records = []) : ledger.Orderly := by
  refine ⟨noted, ?_, ?_⟩
  · rw [empty]
    exact List.Pairwise.nil
  · simp [empty]

/-! ### Backups -/

/-- A backup adds its record at the end of the ledger, which stays orderly: the number of the new
record is beyond all that were given. -/
theorem Orderly.append (orderly : ledger.Orderly) (now : Stamp) (identity : Identity)
    (before : Text) (after : Option Text) :
    ∃ backed : Ledger, ledger.append now identity before after =
        (backed, some (ledger.nextRecord now identity before after)) ∧
      backed.records = ledger.records ++ [ledger.nextRecord now identity before after] ∧
      backed.Orderly := by
  obtain ⟨⟨events, noted⟩, increasing, bounded⟩ := orderly
  simp only [Ledger.append, noted]
  refine ⟨_, rfl, rfl, ⟨_, rfl⟩, ?_, ?_⟩
  · rw [List.pairwise_append]
    refine ⟨increasing, List.pairwise_singleton _ _, ?_⟩
    intro older member newer last
    rw [List.mem_singleton.mp last]
    exact Nat.lt_succ_of_le (bounded older member)
  · intro older member
    rcases List.mem_append.mp member with member | last
    · exact Nat.le_succ_of_le (bounded older member)
    · exact Nat.le_of_eq (congrArg Record.id (List.mem_singleton.mp last))

/-! ### Steps of a record -/

/-- A record of an orderly ledger is the only one of its number, because the numbers before it are
smaller and those behind it are greater. -/
theorem Orderly.apart (orderly : ledger.Orderly) (split : ledger.records = front ++ record :: rest) :
    ∀ other ∈ front ++ rest, other.id ≠ record.id := by
  have increasing := orderly.increasing
  rw [split, List.pairwise_append, List.pairwise_cons] at increasing
  obtain ⟨_, ⟨later, _⟩, earlier⟩ := increasing
  intro other member
  rcases List.mem_append.mp member with inFront | inRest
  · exact Nat.ne_of_lt (earlier other inFront record (by simp))
  · exact Nat.ne_of_gt (later other inRest)

/-- A number finds its record. In an orderly ledger no other record has it, so the search passes
over all that stand in front. -/
theorem Orderly.find? (orderly : ledger.Orderly)
    (split : ledger.records = front ++ record :: rest) : ledger.find? record.id = some record := by
  have earlier : front.find? (fun other => (other.id : Int) == record.id) = none := by
    rw [List.find?_eq_none]
    intro other member
    have distinct := orderly.apart split other (by simp [member])
    simpa using fun same => distinct (Int.ofNat.inj same)
  rw [Ledger.find?, split, List.find?_append, earlier]
  simp

/-- To replace the record of a number replaces the one record at its position: no other record has
that number. -/
theorem Orderly.replaceRecord (orderly : ledger.Orderly)
    (split : ledger.records = front ++ record :: rest) {changed : Record}
    (same : changed.id = record.id) :
    Ledger.replaceRecord changed ledger.records = front ++ changed :: rest := by
  have apart := orderly.apart split
  have kept {part : List Record} (distinct : ∀ other ∈ part, other.id ≠ record.id) :
      (part.map fun other => if other.id = changed.id then changed else other) = part := by
    have pointwise : ∀ other ∈ part, (if other.id = changed.id then changed else other) = other := by
      intro other member
      rw [same, if_neg (distinct other member)]
    simpa using List.map_congr_left pointwise
  rw [Ledger.replaceRecord, split, List.map_append, List.map_cons, if_pos same.symm,
    kept fun other member => apart other (by simp [member]),
    kept fun other member => apart other (by simp [member])]

/-- A record takes its next step where it stands: its number finds it alone, and the event of the
step can be noted. -/
theorem Orderly.advance (orderly : ledger.Orderly)
    (split : ledger.records = front ++ record :: rest) {now : Stamp} {target : Status}
    {stage : Stage} (next : record.stage.step? now target = some stage) :
    ∃ advanced : Ledger,
      ledger.advance now record.id target = .ok (advanced, { record with stage }) ∧
      advanced.records = front ++ { record with stage } :: rest ∧ advanced.Orderly := by
  have place : Ledger.replaceRecord { record with stage } ledger.records =
      front ++ { record with stage } :: rest := orderly.replaceRecord split rfl
  have found := orderly.find? split
  obtain ⟨⟨events, noted⟩, increasing, bounded⟩ := orderly
  simp only [Ledger.advance, found, next, noted, place]
  refine ⟨_, rfl, rfl, ⟨_, rfl⟩, ?_, ?_⟩
  · rw [split] at increasing
    simpa [List.pairwise_append, List.pairwise_cons] using increasing
  · intro other member
    rcases List.mem_append.mp member with inFront | placed
    · exact bounded other (by simp [split, inFront])
    · rcases List.mem_cons.mp placed with rfl | inRest
      · exact bounded record (by simp [split])
      · exact bounded other (by simp [split, inRest])

/-! ### Stacks -/

/-- The record is committed and belongs to the routine. -/
def onStack (identity : Identity) (record : Record) : Bool :=
  (some Status.updated).all (· == record.status) && (some identity).all (· == record.identity)

/-- The committed records of a routine are those records whose status and identity say so. -/
theorem mem_committed {identity : Identity} :
    record ∈ ledger.committed identity ↔
      record ∈ ledger.records ∧ record.status = .updated ∧ record.identity = identity := by
  simp only [Ledger.committed, select, List.mem_filter, Option.all_some, Bool.and_eq_true,
    beq_iff_eq]
  rw [@eq_comm _ Status.updated, @eq_comm _ identity]

/-- The stack of a routine grows in its numbers from the bottom to the top. -/
theorem Orderly.committed (orderly : ledger.Orderly) (identity : Identity) :
    (ledger.committed identity).Pairwise fun older newer => older.id < newer.id :=
  orderly.increasing.filter _

/-- The stack of a routine is a filter of the records, so it keeps their order. -/
theorem committed_eq (ledger : Ledger) (identity : Identity) :
    ledger.committed identity = ledger.records.filter (onStack identity) := rfl

/-- A committed record stands in the ledger between those below and above it. The stack is a
selection of the records in their order, so it can be cut where the ledger is cut. -/
theorem committed_split {identity : Identity} {below above : List Record}
    (stack : ledger.committed identity = below ++ record :: above) :
    ∃ front rest, ledger.records = front ++ record :: rest ∧
      front.filter (onStack identity) = below ∧ rest.filter (onStack identity) = above ∧
      record.status = .updated ∧ record.identity = identity := by
  have member : record ∈ ledger.committed identity := by simp [stack]
  obtain ⟨_, status, owner⟩ := mem_committed.mp member
  rw [committed_eq] at stack
  obtain ⟨older, newer, records, lower, upper⟩ := List.filter_eq_append_iff.mp stack
  obtain ⟨skipped, rest, same, passed, _, remaining⟩ := List.filter_eq_cons_iff.mp upper
  refine ⟨older ++ skipped, rest, by simp [records, same], ?_, remaining, status, owner⟩
  have none : skipped.filter (onStack identity) = [] := List.filter_eq_nil_iff.mpr passed
  rw [List.filter_append, lower, none, List.append_nil]

/-- The choice falls on the newest of the records that it admits. The last element of a filtered
list is where the filter splits the list. -/
theorem latestUpdated?_eq_some {identity : Identity} {choice : Choice}
    (found : ledger.latestUpdated? identity choice = some record) :
    ∃ below above, ledger.committed identity = below ++ record :: above ∧
      choice.admits record = true ∧ ∀ other ∈ above, choice.admits other = false := by
  obtain ⟨admitted, same⟩ := List.getLast?_eq_some_iff.mp found
  obtain ⟨lower, upper, stack, _, last⟩ := List.filter_eq_append_iff.mp same
  obtain ⟨skipped, above, split, _, admits, none⟩ := List.filter_eq_cons_iff.mp last
  refine ⟨lower ++ skipped, above, by simp [stack, split], admits, ?_⟩
  intro other member
  simpa using List.filter_eq_nil_iff.mp none other member

/-- No committed record is found if the choice may fall on none of them. -/
theorem latestUpdated?_eq_none {identity : Identity} {choice : Choice} :
    ledger.latestUpdated? identity choice = none ↔
      ∀ record ∈ ledger.committed identity, choice.admits record = false := by
  rw [latestUpdated?, List.getLast?_eq_none_iff, List.filter_eq_nil_iff]
  simp

end Ledger

end SqlRenewal
