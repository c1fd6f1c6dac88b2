import SqlRenewal.Proofs.Work.Bookkeeping
import SqlRenewal.Proofs.Work.Export

/-!
# Cleaning the ledger

A cleaning counts the records, writes them to a file, and removes them. Each of these
steps may fail on its own: the database may refuse to count or to remove, and the file
may not come into being as it should. Since the records are removed last, a cleaning that
fails at any step leaves all of them in the ledger, and one that succeeds leaves them in
the file.

What can go wrong with the database and with the writing of the file lies outside of the
work, and is a parameter of it here.
-/
namespace SqlRenewal

/-! ### Records in lines -/

/-- Apart from lists and objects, values are only the same if they are equal. -/
theorem Json.Same.eq_of_depth {value other : Json} (same : value.Same other)
    (plain : value.depth = 0) : other = value := by
  cases same with
  | null => rfl
  | bool => rfl
  | int => rfl
  | text => rfl
  | list each => simp [Json.depth] at plain
  | object each permuted => simp [Json.depth] at plain

/-- A plain field of an object is found in everything that is the same. Only one field has its
key, and a plain value is the same as no other one. -/
theorem Json.Same.field?_fieldsOf {fields : List (String × Json)} {other : Json}
    (same : (Json.fieldsOf fields).Same other)
    (distinct : (fields.map fun entry => entry.1.toList).Nodup) {key : String} {value : Json}
    (member : (key, value) ∈ fields) (plain : value.depth = 0) : other.field? key = some value := by
  have shape : Json.fieldsOf fields =
      .object (fields.map fun entry => (entry.1.toList, entry.2)) := rfl
  have names : ((fields.map fun entry => (entry.1.toList, entry.2)).map Prod.fst).Nodup := by
    rwa [List.map_map]
  rw [shape] at same
  have listed : (Json.object (fields.map fun entry => (entry.1.toList, entry.2))).field? key =
      some value :=
    (lookUp?_eq_some_iff names).mpr (List.mem_map.mpr ⟨_, member, rfl⟩)
  have found := same.field? names key
  rw [listed] at found
  cases read : other.field? key with
  | none =>
    rw [read] at found
    cases found
  | some content =>
    rw [read] at found
    cases found with
    | some alike => rw [alike.eq_of_depth plain]

/-- What was read says all that a record holds. -/
structure Record.SaidBy (record : Record) (read : Json) : Prop where
  id : read.field? "backup_id" = some (.nat record.id)
  schema : read.field? "schema_name" = some (.text record.identity.schema)
  name : read.field? "unit_name" = some (.text record.identity.name)
  before : read.field? "original_text" = some (.text record.before)
  after : read.field? "rewritten_text" = some (.optional .text record.after)
  status : read.field? "status" = some (.string record.status.name)
  createdAt : read.field? "created_at" = some (.text record.createdAt)
  updatedAt : read.field? "updated_at" = some (.optional .text record.stage.updatedAt)
  rolledBackAt : read.field? "rolled_back_at" = some (.optional .text record.stage.rolledBackAt)

/-- A text that may be missing is not nested. -/
theorem Json.depth_optional_text (content : Option Text) :
    (Json.optional .text content).depth = 0 := by
  cases content <;> rfl

/-- A text that may be missing has no integers in it. -/
theorem Json.integers_optional_text (content : Option Text) :
    (Json.optional .text content).integers = [] := by
  cases content <;> rfl

/-- A record can be written while its number fits: it is one object without others in it, and
the number is the only integer. -/
theorem Record.writable_toJson {record : Record} (fits : Json.Fits record.id) :
    record.toJson.Writable := by
  constructor
  · simp only [Record.toJson, Json.fieldsOf, List.map_cons, List.map_nil, Json.depth,
      Json.depthOfFields, Json.depth_optional_text, Json.nat, Json.string]
    decide
  · simpa only [Record.toJson, Json.fieldsOf, List.map_cons, List.map_nil, Json.integers,
      Json.integersOfFields, Json.integers_optional_text, Json.nat, Json.string, List.append_nil,
      List.nil_append, List.forall_mem_singleton] using fits

/-- What is the same as the layout of a record says all that the record holds: each field is found
under its key, and none of them is nested. -/
theorem Record.saidBy_of_same {record : Record} {read : Json} (same : record.toJson.Same read) :
    record.SaidBy read := by
  have keys : (["backup_id", "schema_name", "unit_name", "original_text", "rewritten_text",
      "status", "created_at", "updated_at", "rolled_back_at"].map String.toList).Nodup := by decide
  constructor
  all_goals apply same.field?_fieldsOf keys (by simp)
  all_goals first | rfl | exact Json.depth_optional_text _

/-- The file at a path holds records, one to a line, by increasing numbers. -/
structure Tree.Archives (tree : Tree) (path : Path) (records : List Record) : Prop where
  lines : ∃ written lines, tree.readBytes path = .ok (Utf8.encode written) ∧
    Text.splitAt '\n' written = lines ++ [[]] ∧ lines.length = records.length ∧
    List.Forall₂ (fun line record => ∃ read, Json.ofText? line = some read ∧ record.SaidBy read)
      lines records
  increasing : records.Pairwise fun older newer => older.id < newer.id

/-- Lines that are read back as the layouts of records are an archive of them. -/
theorem Tree.HoldsLines.archives {tree : Tree} {path : Path} {records : List Record}
    (holds : tree.HoldsLines path (records.map Record.toJson))
    (increasing : records.Pairwise fun older newer => older.id < newer.id) :
    tree.Archives path records := by
  obtain ⟨written, stored, _, lines, split, readable⟩ := holds
  rw [List.forall₂_map_right_iff] at readable
  refine ⟨⟨written, lines, stored, split, readable.length_eq, ?_⟩, increasing⟩
  refine readable.imp fun line record reads => ?_
  obtain ⟨read, understood, same⟩ := reads
  exact ⟨read, understood, Record.saidBy_of_same same⟩

/-- All records are exported where a file can be written, as long as their numbers fit. -/
theorem perform_exportRecords_ok {desk : Desk} {path : Path} {made : Tree}
    (above : desk.files.makeDirectories path.directory = (made, .ok ()))
    (fits : ∀ record ∈ desk.ledger.records, Json.Fits record.id) (takes : made.takes path = true) :
    ∃ bytes, (exportRecords path).perform desk =
      (.ok desk.ledger.records.length, { desk with files := made.put path (.file bytes) }) := by
  have writable : ∀ value ∈ desk.ledger.records.map Record.toJson, value.Writable := by
    rw [List.forall_mem_map]
    exact fun record member => Record.writable_toJson (fits record member)
  obtain ⟨written, saved, _⟩ := perform_saveLines_ok above writable takes
  refine ⟨Utf8.encode written, ?_⟩
  rw [exportRecords, exportRecordsBy, Action.perform_bind_ok (Action.perform_get desk)]
  exact Action.perform_bind_ok saved _

/-! ### What can go wrong -/

/-- What goes wrong outside of the work, if anything does. -/
structure Mishap where
  /-- The database does not count its records. -/
  counting : Option Failure := none
  /-- The file cannot be written, and the attempt leaves these files behind. -/
  writing : Option (Failure × Tree) := none
  /-- The database does not remove its records. -/
  removing : Option Failure := none

/-- Counts the records, unless that goes wrong. -/
def countUnless (mishap : Mishap) : Action Counts :=
  match mishap.counting with
  | some failure => throw failure
  | none => countRecords

/-- Writes values to a file, unless that goes wrong. -/
def saveUnless (mishap : Mishap) (values : List Json) (path : Path) : Action Unit :=
  match mishap.writing with
  | some (failure, files) => do
    modify fun desk => { desk with files }
    throw failure
  | none => saveLines values path

/-- Removes all events and records, unless that goes wrong. -/
def removeUnless (mishap : Mishap) : Action Unit :=
  match mishap.removing with
  | some failure => throw failure
  | none => removeRecords

/-- Writes all records to a file, unless that goes wrong. -/
def exportUnless (mishap : Mishap) : Path → Action Nat :=
  exportRecordsBy (saveUnless mishap)

/-- Removes all records, unless that goes wrong. -/
def purgeUnless (mishap : Mishap) : Bool → Action Nat :=
  purgeBy (removeUnless mishap)

/-- Cleans the ledger, unless something goes wrong. -/
def cleanUpUnless (mishap : Mishap) : Bool → Option Path → Action Cleanup :=
  cleanUpBy (countUnless mishap) (exportUnless mishap) (purgeUnless mishap)

/-- Where nothing goes wrong it is the plain cleaning, with each of its steps. -/
theorem cleanUpUnless_nothing : cleanUpUnless {} = cleanUp := rfl

/-- Where nothing goes wrong it is the plain removal. -/
theorem purgeUnless_nothing : purgeUnless {} = purge := rfl

/-! ### Steps of a cleaning -/

/-- Every record is counted once, under its status. Each status has a count of its own, so one
record more adds one to the total. -/
theorem Ledger.counts_total (ledger : Ledger) : ledger.counts.total = ledger.records.length := by
  simp only [Counts.total, Ledger.counts]
  induction ledger.records with
  | nil => rfl
  | cons record records inductionHypothesis =>
    simp only [List.countP_cons, List.length_cons, ← inductionHypothesis]
    cases record.status <;> simp <;> omega

variable (mishap : Mishap) (desk : Desk)

/-- A file that is not written may be anything, but nothing else than files is touched. -/
theorem perform_saveUnless_cases (values : List Json) (path : Path) :
    (∃ failure files, (saveUnless mishap values path).perform desk =
      (.error failure, { desk with files })) ∨
    ∃ files, (saveUnless mishap values path).perform desk = (.ok ⟨⟩, { desk with files }) ∧
      files.HoldsLines path values ∧
      ∀ place, place ≠ path.collapse → files.fileAt place = desk.files.fileAt place := by
  cases writing : mishap.writing with
  | some wrong =>
    simp only [saveUnless, writing]
    exact .inl ⟨_, _, rfl⟩
  | none =>
    simp only [saveUnless, writing]
    obtain ⟨failure, files, stopped⟩ | ⟨files, saved, holds⟩ :=
      perform_saveLines_cases values path desk
    · exact .inl ⟨failure, files, stopped⟩
    · refine .inr ⟨files, saved, holds, fun place apart => ?_⟩
      have kept := fileAt_saveLines values apart desk
      rwa [saved] at kept

/-- An export that succeeds has put all records into the file, and touched no other one. -/
theorem perform_exportUnless_cases (path : Path) :
    (∃ failure files, (exportUnless mishap path).perform desk =
      (.error failure, { desk with files })) ∨
    ∃ files, (exportUnless mishap path).perform desk =
        (.ok desk.ledger.records.length, { desk with files }) ∧
      files.HoldsLines path (desk.ledger.records.map Record.toJson) ∧
      ∀ place, place ≠ path.collapse → files.fileAt place = desk.files.fileAt place := by
  simp only [exportUnless, exportRecordsBy, Action.perform_bind, Action.perform_get]
  obtain ⟨failure, files, stopped⟩ | ⟨files, saved, holds, untouched⟩ :=
    perform_saveUnless_cases mishap desk (desk.ledger.records.map Record.toJson) path
  · exact .inl ⟨failure, files, by simp only [stopped]⟩
  · exact .inr ⟨files, by simp only [saved, Action.perform_pure], holds, untouched⟩

/-- Either nothing is removed, or everything is: the removal may be refused by the database, or
for want of a table of events. -/
theorem perform_purgeUnless_cases :
    (∃ failure, (purgeUnless mishap true).perform desk = (.error failure, desk)) ∨
    ∃ removed after, (purgeUnless mishap true).perform desk = (.ok removed, after) ∧
      after.ledger.records = [] ∧ after.ledger.events = some [] ∧ after.files = desk.files := by
  cases removing : mishap.removing with
  | some failure =>
    refine .inl ⟨failure, ?_⟩
    simp [purgeUnless, purgeBy, removeUnless, removing, Action.perform_bind]
  | none =>
    have works : purgeUnless mishap = purge := by
      rw [purgeUnless, removeUnless, removing, purge]
    rw [works]
    cases cleared : desk.ledger.clear? with
    | none => exact .inl ⟨.storage, perform_purge_refused cleared⟩
    | some ledger =>
      obtain ⟨lines, performed⟩ := perform_purge cleared
      obtain ⟨events, _, rfl⟩ := Option.map_eq_some_iff.mp cleared
      exact .inr ⟨_, _, performed, rfl, rfl, rfl⟩

/-! ### Cleaning -/

/-- Without a confirmation the records are counted, if that, and a line is logged; the operation
ends before any file or record is touched. -/
theorem perform_cleanUpUnless_unconfirmed (target : Option Path) :
    ∃ lines, (cleanUpUnless mishap false target).perform desk =
      (match mishap.counting with
        | some failure => .error failure
        | none => .ok { total := desk.ledger.counts.total, updated := desk.ledger.counts.updated,
                        purged := false }, desk.logged lines) := by
  cases counting : mishap.counting with
  | some failure =>
    refine ⟨[], ?_⟩
    simp [cleanUpUnless, cleanUpBy, countUnless, counting, Desk.logged]
  | none =>
    simp only [cleanUpUnless, cleanUpBy, countUnless, counting]
    exact ⟨_, rfl⟩

/-- A cleaning that is confirmed exports the records and then removes them, in whatever way this
is done. -/
theorem perform_cleanUpBy_confirmed {count : Action Counts} {counts : Counts}
    (counted : count.perform desk = (.ok counts, desk)) (save : Path → Action Nat)
    (empty : Bool → Action Nat) (path : Path) :
    (cleanUpBy count save empty true (some path)).perform desk =
      (do
        let _ ← save path
        let _ ← empty true
        return { total := counts.total, updated := counts.updated,
                 purged := true, exportedTo := some path } : Action Cleanup).perform desk :=
  Action.perform_bind_ok counted _

/-- With a confirmation and a path, all steps are taken, or one fails and the ledger stays
as it is. -/
theorem perform_cleanUpUnless_cases (path : Path) :
    (∃ failure files, (cleanUpUnless mishap true (some path)).perform desk =
      (.error failure, { desk with files })) ∨
    ∃ cleanup after, (cleanUpUnless mishap true (some path)).perform desk = (.ok cleanup, after) ∧
      cleanup.total = desk.ledger.records.length ∧
      after.ledger.records = [] ∧ after.ledger.events = some [] ∧
      after.files.HoldsLines path (desk.ledger.records.map Record.toJson) ∧
      ∀ place, place ≠ path.collapse → after.files.fileAt place = desk.files.fileAt place := by
  cases counting : mishap.counting with
  | some failure =>
    refine .inl ⟨failure, desk.files, ?_⟩
    simp [cleanUpUnless, cleanUpBy, countUnless, counting]
  | none =>
    have counted : (countUnless mishap).perform desk = (.ok desk.ledger.counts, desk) := by
      rw [countUnless, counting]
      rfl
    -- The records are removed last: until then every failure leaves the ledger as it was.
    rw [cleanUpUnless, perform_cleanUpBy_confirmed desk counted, Action.perform_bind]
    obtain ⟨failure, files, stopped⟩ | ⟨files, saved, holds, untouched⟩ :=
      perform_exportUnless_cases mishap desk path
    · rw [stopped]
      exact .inl ⟨failure, files, rfl⟩
    · simp only [saved, Action.perform_bind]
      obtain ⟨failure, stopped⟩ | ⟨removed, after, emptied, records, events, kept⟩ :=
        perform_purgeUnless_cases mishap { desk with files }
      · rw [stopped]
        exact .inl ⟨failure, files, rfl⟩
      · rw [emptied]
        refine .inr ⟨_, after, rfl, desk.ledger.counts_total, records, events, ?_⟩
        rw [kept]
        exact ⟨holds, untouched⟩

/-- While nothing goes wrong outside, a cleaning goes as far as the export does: with a table of
events the records can be removed. -/
theorem perform_cleanUp_confirmed {events : List Event} (noted : desk.ledger.events = some events)
    {path : Path} {count : Nat} {files : Tree}
    (saved : (exportRecords path).perform desk = (.ok count, { desk with files })) :
    ∃ lines, (cleanUp true (some path)).perform desk =
      (.ok { total := desk.ledger.records.length, updated := desk.ledger.counts.updated,
             purged := true, exportedTo := some path },
        ({ desk with files, ledger := { desk.ledger with records := [], events := some [] } } : Desk).logged
          lines) := by
  have counted : countRecords.perform desk = (.ok desk.ledger.counts, desk) := rfl
  have cleared : desk.ledger.clear? =
      some { desk.ledger with records := [], events := some [] } := by
    rw [Ledger.clear?, noted, Option.map_some]
  obtain ⟨lines, emptied⟩ : ∃ lines, (purge true).perform { desk with files } = _ :=
    perform_purge cleared
  refine ⟨lines, ?_⟩
  rw [cleanUp, perform_cleanUpBy_confirmed desk counted, Action.perform_bind_ok saved,
    Action.perform_bind_ok emptied, Ledger.counts_total]
  rfl

/-! ### No record is lost -/

/-- What a cleaning can do to the history in the ledger, whatever goes wrong. -/
structure Desk.KeepsHistory (mishap : Mishap) (desk : Desk) : Prop where
  /-- Without a confirmation only a line is logged. What is reported are the numbers of all
  records and of those whose changes are in the definitions. -/
  unconfirmed : ∀ target, ∃ result lines,
    (cleanUpUnless mishap false target).perform desk = (result, desk.logged lines) ∧
    (mishap.counting = none → result = .ok {
      total := desk.ledger.records.length
      updated := desk.ledger.records.countP fun record => record.status == .updated
      purged := false })
  /-- With a confirmation and a path, all records and events stay where they are, or the
  file at the path holds every record and no other file has changed. -/
  confirmed : ∀ path, let ending := (cleanUpUnless mishap true (some path)).perform desk
    (∃ failure, ending.1 = .error failure ∧ ending.2.ledger = desk.ledger) ∨
    ∃ cleanup, ending.1 = .ok cleanup ∧ ending.2.ledger.records = [] ∧
      ending.2.ledger.events = some [] ∧ ending.2.files.Archives path desk.ledger.records ∧
      cleanup.total = desk.ledger.records.length ∧
      ∀ place, place ≠ path.collapse → ending.2.files.fileAt place = desk.files.fileAt place
  /-- It does not fail unless something goes wrong, or the records cannot be exported. -/
  able : ∀ path count files, mishap = {} →
    (exportRecords path).perform desk = (.ok count, { desk with files }) →
    ∃ cleanup, ((cleanUpUnless mishap true (some path)).perform desk).1 = .ok cleanup
  /-- Nothing is removed without a confirmation. -/
  unforced : (purgeUnless mishap false).perform desk = (.error .unconfirmedPurge, desk)

/-- A coherent ledger loses no history to a cleaning: the records are removed last, and only
behind an export that held all of them. -/
theorem Ledger.Coherent.keepsHistory {desk : Desk} (coherent : desk.ledger.Coherent)
    (mishap : Mishap) : desk.KeepsHistory mishap where
  unconfirmed := by
    intro target
    obtain ⟨lines, performed⟩ := perform_cleanUpUnless_unconfirmed mishap desk target
    refine ⟨_, lines, performed, fun counted => ?_⟩
    rw [counted, ← Ledger.counts_total]
    rfl
  confirmed := by
    intro path
    obtain ⟨failure, files, performed⟩ |
        ⟨cleanup, after, performed, total, records, events, holds, untouched⟩ :=
      perform_cleanUpUnless_cases mishap desk path
    · rw [performed]
      exact .inl ⟨failure, rfl, rfl⟩
    · rw [performed]
      exact .inr ⟨cleanup, rfl, records, events, holds.archives coherent.orderly.increasing, total,
        untouched⟩
  able := by
    rintro path count files rfl saved
    obtain ⟨events, noted, _⟩ := coherent
    obtain ⟨lines, performed⟩ := perform_cleanUp_confirmed desk noted saved
    rw [cleanUpUnless_nothing, performed]
    exact ⟨_, rfl⟩
  unforced := rfl

/-- A ledger that was new at the beginning loses no record to a cleaning at its desk, whatever
was asked of it before, and whatever goes wrong: requests leave it coherent. -/
theorem Desk.keepsHistory_serve (desk : Desk) (requests : List Request) (mishap : Mishap) :
    (({ desk with ledger := {} } : Desk).serve requests).KeepsHistory mishap := by
  have unmade : ({} : Ledger).Keeps [] := ⟨.nil, by simp, by simp⟩
  obtain ⟨coherent, _⟩ := Desk.serve_keeps requests { desk with ledger := {} } []
    Ledger.coherent_empty unmade
  exact coherent.keepsHistory mishap

end SqlRenewal
