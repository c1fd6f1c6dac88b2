import SqlRenewal.CommandLine.Invocation
import SqlRenewal.Proofs.Store.Databases
import SqlRenewal.Proofs.Work.Bookkeeping
import SqlRenewal.Proofs.Work.Errands

/-!
# What the work of a command can change

Only a command that commits changes definitions, and in a folder only the files of
routines. Only an export changes another file, the one that it names. Only a confirmed
cleaning removes records; otherwise all of them stay, and at most their stage changes when
a change is taken back.
-/
namespace SqlRenewal

variable {desk after last : Desk} {identity : Identity}

/-! ### Commands -/

/-- The command changes definitions. -/
def Command.commits : Command → Bool
  | .apply _ commit _ => commit
  | .batch _ commit _ _ => commit
  | .rollback _ _ _ => true
  | _ => false

/-- The command removes records. -/
def Command.purges : Command → Bool
  | .cleanup confirmed _ => confirmed
  | _ => false

/-- The file that a command exports records to. -/
def Command.target? : Command → Option Path
  | .export out => out.map Path.ofText
  | .cleanup _ target => (target.filter (· ≠ [])).map Path.ofText
  | _ => none

/-- The command exports records to a place. -/
def Command.ExportsTo (command : Command) (place : Path) : Prop :=
  ∃ target, command.target? = some target ∧ target.collapse = place

/-- The names of the definition files that a command may write, if it works on a folder:
those of one routine, or those of files in the folder itself. -/
def Command.Names : Command → Text → Prop
  | .rollback schema name _, file => file = schema ++ '.' :: name ∨ file = name
  | _, file => '/' ∉ file

/-! ### Records -/

/-- Every record is still there, in the same position, and at most its stage has changed. -/
def RecordsKept (before after : List Record) : Prop :=
  ∀ (index : Nat) (record : Record), before[index]? = some record →
    ∃ later, after[index]? = some later ∧ later.Continues record

/-- Where records are only added at the end, each of the old ones keeps its position and its
stage. -/
theorem RecordsKept.of_grown {before after : List Record} (initial : before <+: after) :
    RecordsKept before after := by
  intro index record found
  obtain ⟨rest, rfl⟩ := initial
  have inside := (List.getElem?_eq_some_iff.mp found).1
  exact ⟨record, by rw [List.getElem?_append_left inside, found], rfl⟩

/-- Records that stay as they are keep their positions. -/
theorem RecordsKept.refl (records : List Record) : RecordsKept records records :=
  .of_grown (List.prefix_refl records)

/-- A record that keeps its position twice keeps it over both steps: its stage has moved on at
most twice. -/
theorem RecordsKept.trans {before middle after : List Record} (first : RecordsKept before middle)
    (second : RecordsKept middle after) : RecordsKept before after := by
  intro index record found
  obtain ⟨later, kept, continues⟩ := first index record found
  obtain ⟨last, stays, again⟩ := second index later kept
  refine ⟨last, stays, ?_⟩
  rw [Record.Continues, again, continues]

/-- A step changes one record in its place and leaves all others alone, so every position is kept;
the changed record has only moved on. -/
theorem Ledger.Advances.recordsKept {ledger after : Ledger} {now : Stamp} {target : Status}
    {front rest : List Record} {record : Record} {stage : Stage}
    (advances : ledger.Advances after now target front record stage rest) :
    RecordsKept ledger.records after.records := by
  intro index other found
  rw [advances.before] at found
  rw [advances.records]
  rcases Nat.lt_trichotomy index front.length with inFront | rfl | behind
  · rw [List.getElem?_append_left inFront] at found ⊢
    exact ⟨other, found, rfl⟩
  · rw [List.getElem?_append_right (Nat.le_refl _), Nat.sub_self, List.getElem?_cons_zero] at found ⊢
    cases found
    exact ⟨_, rfl, rfl⟩
  · obtain ⟨offset, rfl⟩ : ∃ offset, index = front.length + (offset + 1) :=
      ⟨index - front.length - 1, by omega⟩
    rw [List.getElem?_append_right (by omega), Nat.add_sub_cancel_left, List.getElem?_cons_succ]
      at found ⊢
    exact ⟨other, found, rfl⟩

/-! ### Definitions -/

/-- The place is that of a definition file of a folder. -/
def Folder.Owns (root place : Path) : Prop :=
  ∃ name, place = (Folder.fileNamed root name).collapse

/-- What is appended and has no separator in it stays in one piece, as the end of the last one. -/
theorem splitAt_append {separator : Char} {tail : Text} (absent : separator ∉ tail) (text : Text) :
    ∃ front last, Text.splitAt separator (text ++ tail) = front ++ [last ++ tail] := by
  induction text with
  | nil => exact ⟨[], [], Folder.splitAt_of_not_mem absent⟩
  | cons c rest inductionHypothesis =>
    obtain ⟨front, last, parts⟩ := inductionHypothesis
    rw [List.cons_append, Text.splitAt, parts]
    split
    · exact ⟨[] :: front, last, rfl⟩
    · cases front with
      | nil => exact ⟨[], c :: last, rfl⟩
      | cons part front => exact ⟨(c :: part) :: front, last, rfl⟩

/-- The name of a definition file ends as all of them do. Only the last piece of the name is the
name of the file, and the suffix has no slash at which it could be cut off. -/
theorem Folder.fileNamed_child (root : Path) (name : Text) :
    ∃ (folder : Path) (stem : Text),
      Folder.fileNamed root name = folder.child (stem ++ Folder.suffix) := by
  have unsplit : '/' ∉ Folder.suffix := by decide
  obtain ⟨front, stem, split⟩ := splitAt_append unsplit name
  have longer : 4 ≤ (stem ++ Folder.suffix).length := by simp [Folder.suffix]
  have nonempty : stem ++ Folder.suffix ≠ [] := by
    intro same
    simp [same] at longer
  have pointless : stem ++ Folder.suffix ≠ ['.'] := by
    intro same
    simp [same] at longer
  obtain ⟨inner, parts⟩ : ∃ inner, (Path.ofText (name ++ Folder.suffix)).parts =
      inner ++ [stem ++ Folder.suffix] := by
    rw [Path.ofText, split, List.filter_append, List.filter_cons_of_pos (by simp [nonempty, pointless])]
    exact ⟨_, rfl⟩
  rw [Folder.fileNamed, Path.below]
  split
  · refine ⟨⟨root.anchor, root.parts ++ inner⟩, stem, ?_⟩
    rw [parts, Path.child, List.append_assoc]
  · refine ⟨⟨(Path.ofText (name ++ Folder.suffix)).anchor, inner⟩, stem, ?_⟩
    rw [Path.child, ← parts]

/-- No definition file is the file of last changes of a database. The two names end in different
suffixes, and the name of a database is more than dots, so no step is taken back. -/
theorem Folder.Owns.ne_changes {root place : Path} (owned : Folder.Owns root place) (file : Path) :
    place ≠ file.changes.collapse := by
  obtain ⟨name, rfl⟩ := owned
  obtain ⟨folder, stem, named⟩ := Folder.fileNamed_child root name
  rw [named, Path.collapse_changes, Path.collapse_child]
  · intro same
    have names : stem ++ Folder.suffix = file.name ++ changesSuffix := by
      have parts := congrArg Path.parts same
      simpa [Path.child] using congrArg List.getLast? parts
    have ends := (List.append_inj' names rfl).2
    cases ends
  · intro points
    have lengths := congrArg List.length points
    simp [Folder.suffix] at lengths

/-- The shelf is a folder, and the place that of a definition file with one of the names. -/
def Shelf.Owns (names : Text → Prop) (shelf : Shelf) (place : Path) : Prop :=
  ∃ root, shelf = .folder root ∧ ∃ name, names name ∧ place = (Folder.fileNamed root name).collapse

/-- Files have changed only where a folder has definition files with some names, and no
database has been made. -/
structure Desk.Edits (names : Text → Prop) (desk after : Desk) : Prop where
  folder : ∀ root, after.shelf = .folder root ↔ desk.shelf = .folder root
  files : ∀ place, ¬ desk.shelf.Owns names place →
    after.files.fileAt place = desk.files.fileAt place
  still : (∀ root, desk.shelf ≠ .folder root) → after.files = desk.files
  orderly : desk.files.Orderly → after.files.Orderly

variable {names : Text → Prop}

/-- Where nothing happens, nothing but named routines is edited. -/
theorem Desk.Edits.refl (names : Text → Prop) (desk : Desk) : desk.Edits names desk :=
  ⟨fun _ => .rfl, fun _ _ => rfl, fun _ => rfl, id⟩

/-- Edits of named routines add up: a place that neither of them touches is untouched. The folder
is the same before and after, so both speak of the same places. -/
theorem Desk.Edits.trans (first : desk.Edits names after) (second : after.Edits names last) :
    desk.Edits names last := by
  have owns (place : Path) : after.shelf.Owns names place ↔ desk.shelf.Owns names place := by
    simp only [Shelf.Owns, first.folder]
  constructor
  · intro root
    rw [second.folder, first.folder]
  · intro place elsewhere
    rw [second.files place (mt (owns place).mp elsewhere), first.files place elsewhere]
  · intro other
    rw [second.still, first.still other]
    intro root same
    exact other root ((first.folder root).mp same)
  · exact fun orderly => second.orderly (first.orderly orderly)

/-- Both names that the file of a routine can have are among the names. -/
def Identity.Named (names : Text → Prop) (identity : Identity) : Prop :=
  names identity.qualified ∧ names identity.name

/-- The identity that a command makes of its arguments is one that the command names, because both
are made of the same two texts. -/
theorem Identity.named_make {schema name : Text} (made : Identity.make schema name = .ok identity)
    (choice : Choice) : identity.Named (Command.rollback schema name choice).Names := by
  rw [Identity.make] at made
  split at made
  · cases made
  · split at made
    · cases made
    · cases made
      exact ⟨.inl rfl, .inr rfl⟩

/-- A definition file is written over in its own place, which belongs to one of the routines of
that name. No other file is touched, and the tree stays orderly because a file stood there. -/
theorem Desk.edits_put {root path : Path} {entry : Entry} (folder : desk.shelf = .folder root)
    (own : Folder.pathFor desk.files root identity = .ok path) (named : identity.Named names)
    (stands : desk.files.look path = .ok entry) (file : entry.isFile = true) (bytes : List UInt8) :
    desk.Edits names { desk with files := desk.files.put path (.file bytes) } := by
  have owned : desk.shelf.Owns names path.collapse := by
    refine ⟨root, folder, ?_⟩
    obtain rfl | ⟨_, rfl⟩ := Folder.pathFor_cases own
    · exact ⟨_, named.1, rfl⟩
    · exact ⟨_, named.2, rfl⟩
  constructor
  · exact fun _ => .rfl
  · intro place elsewhere
    refine Tree.fileAt_put_of_ne ?_
    rintro rfl
    exact elsewhere owned
  · exact fun other => absurd folder (other root)
  · exact fun orderly => orderly.putFile (orderly.proper.put_file (Tree.look_eq_ok stands) file)

/-- Where no file has changed and the shelf is of the same kind, nothing has been edited. -/
theorem Desk.edits_of_files (files : after.files = desk.files)
    (folder : ∀ root, after.shelf = .folder root ↔ desk.shelf = .folder root) :
    desk.Edits names after :=
  ⟨folder, fun _ _ => by rw [files], fun _ => files, fun orderly => files ▸ orderly⟩

/-- To put a text in the place of that of a named routine edits that routine: in a table it is a
row, in a folder the one file that belongs to the name. -/
theorem Desk.edits_withText {old : Text} (read : desk.read identity = .ok old)
    (named : ∀ root, desk.shelf = .folder root → identity.Named names) (text : Text) :
    desk.Edits names (desk.withText identity text) := by
  rw [Desk.withText]
  rw [Desk.read] at read
  cases shelf : desk.shelf with
  | table table =>
    refine Desk.edits_of_files rfl ?_
    cases table <;> simp [shelf, Shelf.withText]
  | folder root =>
    rw [shelf] at read
    obtain ⟨path, entry, own, stands, file, _⟩ := Folder.read_eq_ok read
    simp only [Shelf.withText, Shelf.filesWithText, own, ← shelf]
    exact Desk.edits_put shelf own (named root shelf) stands file _
  | nowhere => simp [shelf] at read

/-- The change of a named routine edits it at most: the text is put in its place, or nothing is
written. -/
theorem Desk.edits_changed (named : ∀ root, desk.shelf = .folder root → identity.Named names)
    (manner : Manner) : desk.Edits names (desk.changed manner identity) := by
  rw [Desk.changed]
  cases new : desk.newText? manner identity with
  | none => exact Desk.edits_of_files rfl fun _ => .rfl
  | some text =>
    obtain ⟨old, read, _⟩ := Desk.newText?_eq_some new
    have edits := Desk.edits_withText read named text
    exact ⟨edits.folder, edits.files, edits.still, edits.orderly⟩

/-- A batch edits its own routines at most, by induction over them. A folder is still the same
folder after each change, so the names stay those of the batch. -/
theorem Desk.edits_changedAll {identities : List Identity}
    (named : ∀ root, desk.shelf = .folder root → ∀ identity ∈ identities, identity.Named names)
    (manner : Manner) : desk.Edits names (desk.changedAll manner identities) := by
  induction identities generalizing desk with
  | nil => exact .refl names desk
  | cons identity rest inductionHypothesis =>
    have first : desk.Edits names (desk.changed manner identity) :=
      Desk.edits_changed (fun root folder => named root folder identity List.mem_cons_self) manner
    refine first.trans (inductionHypothesis fun root folder other member => ?_)
    exact named root ((first.folder root).mp folder) other (List.mem_cons_of_mem _ member)

/-- A routine that a folder lists has its name from a file name, and no file name contains a
slash. -/
theorem Folder.unsplit_of_mem_routines {tree : Tree} {root : Path} {routines : List Routine}
    {routine : Routine} (proper : tree.Proper) (listing : Folder.routines tree root = .ok routines)
    (member : routine ∈ routines) : '/' ∉ routine.identity.qualified := by
  rw [Folder.routines] at listing
  cases loading : (Folder.files tree root).mapM (Folder.load tree) with
  | error failure =>
    rw [loading] at listing
    cases listing
  | ok loaded =>
    rw [loading] at listing
    cases listing
    have loads : Folder.Loads tree (Folder.files tree root) loaded :=
      mapM_eq_ok_iff.mp loading
    obtain ⟨path, inFolder, read⟩ := loads.source (Folder.mem_sortRoutines.mp member)
    exact Folder.unsplit_of_mem_files proper inFolder (Folder.load_eq_ok_iff.mp read).2.1

/-- The routines that a folder lists have files in the folder itself. Their names come from its
entries, and no entry has a slash in its name. -/
theorem Desk.named_chosen {root : Path} {routines : List Routine} (proper : desk.files.Proper)
    (folder : desk.shelf = .folder root) (listing : desk.routines = .ok routines) (scope : Scope) :
    ∀ identity ∈ scope.chosen routines, identity.Named ('/' ∉ ·) := by
  intro identity member
  obtain ⟨routine, picked, rfl⟩ := List.mem_map.mp member
  have listed : routine ∈ routines := (List.mem_filter.mp picked).1
  simp only [Desk.routines, folder] at listing
  have unsplit := Folder.unsplit_of_mem_routines proper listing listed
  exact ⟨unsplit, Folder.not_mem_name unsplit⟩

/-- A preview leaves the definitions alone: none of its changes has a new text to write. The
induction is over the routines. -/
theorem Desk.changedAll_preview (desk : Desk) {manner : Manner} (preview : manner.preview = true)
    (identities : List Identity) :
    (desk.changedAll manner identities).shelf = desk.shelf ∧
      (desk.changedAll manner identities).files = desk.files := by
  induction identities generalizing desk with
  | nil => exact ⟨rfl, rfl⟩
  | cons identity rest inductionHypothesis =>
    have unwritten : desk.newText? manner identity = none := by
      simp [Desk.newText?, Desk.writes, preview]
    obtain ⟨shelf, files⟩ := inductionHypothesis (desk.changed manner identity)
    rw [Desk.changedAll, shelf, files, Desk.changed, unwritten]
    exact ⟨rfl, rfl⟩

/-- Changes add records, and leave those alone that were there. Every change only enters its
drafts behind the old records, and the prefixes compose. -/
theorem Desk.records_changedAll (desk : Desk) (manner : Manner) (identities : List Identity) :
    desk.ledger.records <+: (desk.changedAll manner identities).ledger.records := by
  induction identities generalizing desk with
  | nil => exact List.prefix_refl _
  | cons identity rest inductionHypothesis =>
    refine List.IsPrefix.trans ?_ (inductionHypothesis (desk.changed manner identity))
    rw [Desk.changed_ledger, Ledger.enterAll_eq]
    exact List.prefix_append _ _

/-- A desk at which steps can be noted is one after any changes, because no change drops the table
of events. -/
theorem Desk.Noting.changedAll (noting : desk.Noting) (manner : Manner)
    (identities : List Identity) : (desk.changedAll manner identities).Noting := by
  induction identities generalizing desk with
  | nil => exact noting
  | cons identity rest inductionHypothesis =>
    exact inductionHypothesis (noting.changed manner identity)

/-! ### What operations do to a desk -/

/-- Whatever the operation comes to, the desk behind it is related to the one before. -/
def Action.Within {α : Type} (relation : Desk → Desk → Prop) (action : Action α) : Prop :=
  ∀ desk, relation desk (action.perform desk).2

namespace Action.Within

variable {α β : Type} {relation other : Desk → Desk → Prop} {action : Action α}

/-- What an operation stays within, it stays within by any weaker relation. -/
theorem mono (within : action.Within relation)
    (weaker : ∀ desk after, relation desk after → other desk after) : action.Within other :=
  fun desk => weaker _ _ (within desk)

variable [IsPreorder Desk relation]

/-- An answer without any work changes nothing. -/
theorem pure (value : α) : (Pure.pure value : Action α).Within relation :=
  fun desk => refl_of relation desk

/-- A failure without any work changes nothing. -/
theorem throw (failure : Failure) : (MonadExcept.throw failure : Action α).Within relation :=
  fun desk => refl_of relation desk

/-- To look at the desk changes nothing. -/
theorem get : (MonadState.get : Action Desk).Within relation :=
  fun desk => refl_of relation desk

/-- To stop on a failure changes nothing. -/
theorem orFail (result : Except Failure α) : (SqlRenewal.orFail result).Within relation := by
  cases result with
  | ok value => exact pure value
  | error failure => exact throw failure

/-- Two steps that stay within a preorder stay within it together: where the first one fails the
second is not taken, and otherwise the two compose. -/
theorem bind {next : α → Action β} (first : action.Within relation)
    (second : ∀ value, (next value).Within relation) : (action >>= next).Within relation := by
  intro desk
  have begun := first desk
  rw [perform_bind]
  cases performed : action.perform desk with
  | mk result after =>
    rw [performed] at begun
    cases result with
    | error failure => exact begun
    | ok value => exact trans_of relation begun (second value after)

/-- Both ways stay within a preorder: what was done before the failure is kept, and the handler
goes on from there. -/
theorem tryCatch {handle : Failure → Action α} (first : action.Within relation)
    (handled : ∀ failure, (handle failure).Within relation) :
    (MonadExcept.tryCatch action handle).Within relation := by
  intro desk
  have begun := first desk
  rw [perform_tryCatch]
  cases performed : action.perform desk with
  | mk result after =>
    rw [performed] at begun
    cases result with
    | error failure => exact trans_of relation begun (handled failure after)
    | ok value => exact begun

end Action.Within

/-- Nothing but the log has changed. -/
def Desk.Logs (desk after : Desk) : Prop :=
  ∃ lines, after = desk.logged lines

/-- Lines can be logged after others, and none need be. -/
instance : IsPreorder Desk Desk.Logs where
  refl desk := ⟨[], by simp⟩
  trans := by
    rintro desk _ _ ⟨lines, rfl⟩ ⟨more, rfl⟩
    exact ⟨lines ++ more, Desk.logged_logged ..⟩

/-- A line that is written changes the log alone. -/
theorem logs_say (level : Level) (channel : Channel) (message : String) :
    (say level channel message).Within Desk.Logs :=
  fun _ => ⟨_, rfl⟩

/-- Renewing a text writes one line for each statement that is left alone, and nothing else. -/
theorem logs_renewLogged (rules : List Rule) (text : Text) :
    (renewLogged rules text).Within Desk.Logs := by
  intro desk
  obtain ⟨lines, renewed⟩ := perform_renewLogged rules text desk
  exact ⟨lines, by rw [renewed]⟩

/-- A search of the ledger changes nothing, whether it ends in a record, in none, or in a
refusal. -/
theorem logs_findCommitted (identity : Identity) (choice : Choice) :
    (findCommitted identity choice).Within Desk.Logs := by
  intro desk
  rw [perform_findCommitted]
  exact refl_of Desk.Logs desk

/-- A preview reads definitions and renews their texts; neither writes anything but lines of the
log. -/
theorem logs_previewRun (rules : List Rule) (scope : Scope) :
    (previewRun rules scope).Within Desk.Logs := by
  intro desk
  cases listing : desk.routines with
  | ok routines =>
    obtain ⟨lines, performed⟩ := perform_previewRun listing rules scope
    exact ⟨lines, by rw [performed]⟩
  | error failure =>
    have listed := perform_listRoutines scope desk
    rw [listing] at listed
    rw [previewRun, Action.perform_bind_error listed]
    exact refl_of Desk.Logs desk

/-- A reply is only laid out. -/
theorem logs_ofJson (value : Json) (code : Nat) : (Reply.ofJson value code).Within Desk.Logs :=
  .bind (.orFail _) fun _ => .pure _

/-- A summary is only laid out, and its failures are written to the log. -/
theorem logs_replySummary (summary : Summary) : (replySummary summary).Within Desk.Logs := by
  refine .bind (logs_ofJson _ _) fun reply => ?_
  split
  · exact .bind (logs_say _ _ _) fun _ => .pure _
  · exact .pure _

/-! ### Taking a change back -/

/-- Definitions are edited, and all records of an orderly ledger are still in their
positions. -/
structure Desk.Restores (names : Text → Prop) (desk after : Desk) : Prop where
  edits : desk.Edits names after
  orderly : desk.ledger.Orderly → after.ledger.Orderly
  records : desk.ledger.Orderly → RecordsKept desk.ledger.records after.ledger.records

/-- Edits without a change of the ledger take nothing back, so they are a case of what taking back
may do. -/
theorem Desk.Edits.restores (edits : desk.Edits names after)
    (ledger : after.ledger = desk.ledger) : desk.Restores names after :=
  ⟨edits, fun orderly => ledger ▸ orderly, fun _ => ledger ▸ .refl _⟩

/-- What is done in steps keeps to the effect if each step does. -/
instance : IsPreorder Desk (Desk.Restores names) where
  refl desk := (Desk.Edits.refl names desk).restores rfl
  trans _ _ _ first second :=
    ⟨first.edits.trans second.edits, fun orderly => second.orderly (first.orderly orderly),
      fun orderly => (first.records orderly).trans (second.records (first.orderly orderly))⟩

/-- Lines of the log are no change of anything that taking back may touch. -/
theorem Desk.Logs.restores (desk after : Desk) (logs : desk.Logs after) :
    desk.Restores names after := by
  obtain ⟨lines, rfl⟩ := logs
  have edits : desk.Edits names (desk.logged lines) := Desk.edits_of_files rfl fun _ => .rfl
  exact edits.restores rfl

/-- Writing a text edits definitions, or fails and leaves all as it was. The cases are the kinds
of shelves: a row of a table, a file of a folder, or no place at all. -/
theorem restores_writeRoutine (named : identity.Named names) (text : Text) :
    (writeRoutine identity text).Within (Desk.Restores names) := by
  intro desk
  have idle : desk.Restores names desk := refl_of _ desk
  cases denied : desk.outage.commits.contains identity.name with
  | true =>
    rw [perform_writeRoutine_denied denied]
    exact idle
  | false =>
    rw [writeRoutine, Action.perform_bind_ok (Action.perform_get desk), denied]
    simp only [Bool.false_eq_true, if_false]
    rw [Action.perform_bind_ok (Action.perform_get desk)]
    cases shelf : desk.shelf with
    | table table =>
      cases table with
      | none => exact idle
      | some catalog =>
        cases found : catalog.routine? identity with
        | none =>
          simp only [found]
          exact idle
        | some routine =>
          simp only [found]
          have edits : desk.Edits names { desk with shelf := .table (catalog.setText identity text) } :=
            Desk.edits_of_files rfl (by simp [shelf])
          exact edits.restores rfl
    | folder root =>
      simp only
      rw [Action.perform_bind_ok (Action.perform_get desk)]
      cases written : Folder.write desk.files root identity text with
      | error failure => exact idle
      | ok files =>
        obtain ⟨path, entry, own, stands, file, rfl⟩ := Folder.write_eq_put written
        exact (Desk.edits_put shelf own named stands file _).restores rfl
    | nowhere => exact idle

/-- A record that is marked as taken back stays in its position: a step changes one record in its
place, and one that is refused changes nothing. -/
theorem restores_markRolledBack (id : Int) : (markRolledBack id).Within (Desk.Restores names) := by
  intro desk
  rw [markRolledBack]
  cases stepped : desk.ledger.advance desk.now id .rolledBack with
  | error fault =>
    obtain ⟨failure, refused⟩ := perform_advanceRecord_error stepped
    rw [refused]
    exact refl_of _ desk
  | ok ending =>
    obtain ⟨ledger, record⟩ := ending
    rw [perform_advanceRecord_ok stepped]
    have kept : desk.ledger.Orderly →
        ledger.Orderly ∧ RecordsKept desk.ledger.records ledger.records := by
      intro orderly
      obtain ⟨front, old, stage, rest, advances, rfl, _⟩ := orderly.advance_eq_ok stepped
      obtain ⟨advanced, again, _, orderlyAfter⟩ := orderly.advance advances.before advances.next
      obtain rfl : advanced = ledger :=
        congrArg Prod.fst (Except.ok.inj (again.symm.trans stepped))
      exact ⟨orderlyAfter, advances.recordsKept⟩
    exact ⟨Desk.edits_of_files rfl fun _ => .rfl, fun orderly => (kept orderly).1,
      fun orderly => (kept orderly).2⟩

/-- Taking a change back writes the one routine that is named and marks one record in its place;
to search and to log changes nothing. -/
theorem restores_rollbackRun (named : identity.Named names) (choice : Choice) :
    (rollbackRun identity choice).Within (Desk.Restores names) := by
  refine .bind (.bind ((logs_findCommitted identity choice).mono Desk.Logs.restores) fun found => ?_)
    fun _ => .pure _
  cases found with
  | none => exact .throw _
  | some record =>
    exact .bind (restores_writeRoutine named _) fun _ => .bind (restores_markRolledBack _) fun _ =>
      .bind ((logs_say _ _ _).mono Desk.Logs.restores) fun _ => .pure _

/-- The reply to a rollback does no more than the rollback; its failures are only put into
words. -/
theorem restores_replyRollback (named : identity.Named names) (choice : Choice) :
    (replyRollback identity choice).Within (Desk.Restores names) := by
  refine .tryCatch (.bind (restores_rollbackRun named choice) fun _ =>
    (logs_ofJson _ _).mono Desk.Logs.restores) fun failure => ?_
  split
  · exact .bind ((logs_say _ _ _).mono Desk.Logs.restores) fun _ => .pure _
  · exact .bind ((logs_say _ _ _).mono Desk.Logs.restores) fun _ => .pure _
  · exact .throw _

/-! ### Exporting records -/

/-- At most the file at one path has changed, and directories have been made. -/
structure Desk.Saves (path : Path) (desk after : Desk) : Prop where
  shelf : after.shelf = desk.shelf
  ledger : after.ledger = desk.ledger
  files : ∀ place, place ≠ path.collapse → after.files.fileAt place = desk.files.fileAt place
  orderly : desk.files.Orderly → after.files.Orderly

/-- A file may be written more than once, or not at all. -/
instance (path : Path) : IsPreorder Desk (Desk.Saves path) where
  refl _ := ⟨rfl, rfl, fun _ _ => rfl, id⟩
  trans _ _ _ first second :=
    ⟨second.shelf.trans first.shelf, second.ledger.trans first.ledger,
      fun place apart => (second.files place apart).trans (first.files place apart),
      fun orderly => second.orderly (first.orderly orderly)⟩

/-- The directories above a path are made of nothing: no file is where one of them comes to stand,
so every file stays. -/
theorem Desk.saves_makeDirectories (desk : Desk) {path : Path} (unsplit : path.Unsplit) :
    desk.Saves path { desk with files := (desk.files.makeDirectories path.directory).1 } := by
  have same (place : Path) := Tree.fileAt_makeDirectories desk.files path.directory place
  refine ⟨rfl, rfl, fun place _ => same place, fun orderly => ?_⟩
  exact orderly.of_fileAt (orderly.proper.makeDirectories unsplit.directory)
    fun place _ stands => .inl (same place ▸ stands)

/-- To write a text touches the file at its path only. -/
theorem Desk.saves_writeText {path : Path} {text : Text} {files : Tree} (unsplit : path.Unsplit)
    (written : desk.files.writeText path text = .ok files) :
    desk.Saves path { desk with files } := by
  obtain ⟨rfl, _⟩ := Tree.write_eq_ok written
  exact ⟨rfl, rfl, fun place apart => Tree.fileAt_put_of_ne apart, fun orderly =>
    orderly.putFile (orderly.proper.put unsplit)⟩

/-- A file of lines is written behind the directories that it needs, and both touch no other file;
where one of the two fails, the first has been done at most. -/
theorem saves_saveLines (values : List Json) {path : Path} (unsplit : path.Unsplit) :
    (saveLines values path).Within (Desk.Saves path) := by
  intro desk
  have making := desk.saves_makeDirectories unsplit
  rw [saveLines, Action.perform_bind_ok (Action.perform_get desk)]
  cases made : desk.files.makeDirectories path.directory with
  | mk files outcome =>
    rw [made] at making
    simp only
    rw [Action.perform_bind_ok (Action.perform_modify _ desk)]
    cases outcome with
    | error fault => exact making
    | ok nothing =>
      refine trans_of (Desk.Saves path) making ?_
      cases written : Json.lines values with
      | error fault => exact refl_of _ _
      | ok text =>
        have kept : ∀ last, files.writeText path text = .ok last →
            ({ desk with files } : Desk).Saves path { desk with files := last } :=
          fun last saved => Desk.saves_writeText unsplit saved
        simp only [orFail, Except.mapError, pure_bind]
        cases saved : files.writeText path text with
        | error fault => exact refl_of _ _
        | ok last => exact kept last saved

/-- Records are only exported. -/
theorem saves_exportRecords {path : Path} (unsplit : path.Unsplit) :
    (exportRecords path).Within (Desk.Saves path) :=
  .bind .get fun _ => .bind (saves_saveLines _ unsplit) fun _ => .pure _

/-! ### The effect of a command -/

/-- What the work of a command can have changed. -/
structure Command.Effect (command : Command) (desk after : Desk) : Prop where
  shelf : command.commits = false → after.shelf = desk.shelf
  files : ∀ place, ¬ command.ExportsTo place →
    (command.commits = true → ¬ desk.shelf.Owns command.Names place) →
    after.files.fileAt place = desk.files.fileAt place
  still : command.target? = none → (∀ root, desk.shelf ≠ .folder root) → after.files = desk.files
  orderlyFiles : desk.files.Orderly → after.files.Orderly
  orderly : after.ledger.Orderly
  records : RecordsKept desk.ledger.records after.ledger.records ∨
    command.purges = true ∧ after.ledger.records = []
  untouched : command.commits = false → command.purges = false →
    desk.ledger.records <+: after.ledger.records

namespace Command.Effect

variable {command : Command}

/-- Lines of the log after an effect do not add to it. -/
theorem logs (effect : command.Effect desk after) (quiet : after.Logs last) :
    command.Effect desk last := by
  obtain ⟨lines, rfl⟩ := quiet
  exact ⟨effect.shelf, effect.files, effect.still, effect.orderlyFiles, effect.orderly,
    effect.records, effect.untouched⟩

/-- A command that does nothing keeps to its effect, whatever the command may do. -/
theorem idle (command : Command) (orderly : desk.ledger.Orderly) : command.Effect desk desk :=
  ⟨fun _ => rfl, fun _ _ _ => rfl, fun _ _ => rfl, id, orderly, .inl (.refl _),
    fun _ _ => List.prefix_refl _⟩

/-- A reply after the work changes nothing: the second action only writes to the log, and where
the first one fails it is not reached. -/
theorem bind {α β : Type} {action : Action α} {next : α → Action β}
    (effect : command.Effect desk (action.perform after).2)
    (quiet : ∀ value, (next value).Within Desk.Logs) :
    command.Effect desk ((action >>= next).perform after).2 := by
  rw [Action.perform_bind]
  cases performed : action.perform after with
  | mk result last =>
    rw [performed] at effect
    cases result with
    | error failure => exact effect
    | ok value => exact effect.logs (quiet value last)

/-- A command that only writes lines of the log keeps to its effect. -/
theorem of_logs {α : Type} {action : Action α} (quiet : action.Within Desk.Logs)
    (command : Command) (orderly : desk.ledger.Orderly) :
    command.Effect desk (action.perform desk).2 :=
  (idle command orderly).logs (quiet desk)

/-- A command that commits edits definitions, and keeps the records. What an effect demands of
commands that do not commit is void here. -/
theorem of_edits (commits : command.commits = true) (edits : desk.Edits command.Names after)
    (orderly : after.ledger.Orderly)
    (records : RecordsKept desk.ledger.records after.ledger.records) :
    command.Effect desk after := by
  have never {p : Prop} (not : command.commits = false) : p := by
    rw [commits] at not
    cases not
  exact ⟨never, fun place _ elsewhere => edits.files place (elsewhere commits),
    fun _ => edits.still, edits.orderly, orderly, .inl records, never⟩

/-- An export writes the file that it names, and this file is the one place outside the databases
that such a command may touch. The ledger stays as it was. -/
theorem of_saves {path : Path} (target : command.target? = some path) (saves : desk.Saves path after)
    (orderly : desk.ledger.Orderly) : command.Effect desk after := by
  constructor
  · exact fun _ => saves.shelf
  · intro place apart _
    refine saves.files place ?_
    rintro rfl
    exact apart ⟨path, target, rfl⟩
  · intro none
    rw [target] at none
    cases none
  · exact saves.orderly
  · exact saves.ledger ▸ orderly
  · exact .inl (saves.ledger ▸ .refl _)
  · exact fun _ _ => saves.ledger ▸ List.prefix_refl _

/-- What removes all records leaves everything else as it is. In an orderly ledger the removal is
not refused, and a line of the log is all that is added. -/
theorem purge (effect : command.Effect desk after) (purges : command.purges = true) :
    command.Effect desk ((SqlRenewal.purge true).perform after).2 := by
  obtain ⟨events, noted⟩ := effect.orderly.noted
  have empty : command.Effect desk
      { after with ledger := { after.ledger with records := [], events := some [] } } := by
    refine ⟨effect.shelf, effect.files, effect.still, effect.orderlyFiles,
      .ofEmpty ⟨_, rfl⟩ rfl, .inr ⟨purges, rfl⟩, fun _ kept => ?_⟩
    rw [purges] at kept
    cases kept
  have cleared : after.ledger.clear? =
      some { after.ledger with records := [], events := some [] } := by
    rw [Ledger.clear?, noted, Option.map_some]
  obtain ⟨lines, purged⟩ := perform_purge cleared
  rw [purged]
  exact empty.logs ⟨lines, rfl⟩

/-- Changes of the routines of a scope, or their preview, keep to the effect of their command. A
run that commits edits the routines that it lists, and one that does not only adds records. -/
theorem changeRun (noting : desk.Noting) (proper : desk.files.Proper) {manner : Manner}
    (commits : command.commits = !manner.preview) (names : command.Names = ('/' ∉ ·))
    (scope : Scope) (size : Option Nat) :
    command.Effect desk ((SqlRenewal.changeRun manner scope size).perform desk).2 := by
  cases listing : desk.routines with
  | error failure =>
    rw [perform_changeRun_error listing]
    exact idle command noting.orderly
  | ok routines =>
    obtain ⟨lines, performed⟩ := noting.perform_changeRun listing manner scope size
    rw [performed]
    refine logs ?_ ⟨lines, rfl⟩
    have records := desk.records_changedAll manner (scope.chosen routines)
    have orderly := (noting.changedAll manner (scope.chosen routines)).orderly
    cases preview : manner.preview with
    | false =>
      rw [preview] at commits
      refine of_edits commits (Desk.edits_changedAll ?_ _) orderly (.of_grown records)
      rw [names]
      exact fun root folder => Desk.named_chosen proper folder listing scope
    | true =>
      obtain ⟨shelf, files⟩ := desk.changedAll_preview preview (scope.chosen routines)
      exact ⟨fun _ => shelf, fun _ _ _ => by rw [files], fun _ _ => files,
        fun ordered => files ▸ ordered, orderly, .inl (.of_grown records), fun _ _ => records⟩

/-- Cleaning removes the records if it is confirmed, and may export them before. Each step keeps
to the effect: counting changes nothing, an export writes its own file, and the removal is what
the confirmation allows. -/
theorem cleanUp (orderly : desk.ledger.Orderly) (confirmed : Bool) (target : Option Text) :
    (Command.cleanup confirmed target).Effect desk
      ((SqlRenewal.cleanUp confirmed ((target.filter (· ≠ [])).map Path.ofText)).perform desk).2 := by
  have counted : countRecords.perform desk = (.ok desk.ledger.counts, desk) := rfl
  rw [SqlRenewal.cleanUp, cleanUpBy, Action.perform_bind_ok counted]
  cases confirmed with
  | false => exact of_logs (.bind (logs_say _ _ _) fun _ => .pure _) _ orderly
  | true =>
    simp only [Bool.not_true, Bool.false_eq_true, if_false]
    cases named : (target.filter (· ≠ [])).map Path.ofText with
    | none =>
      simp only
      exact ((idle _ orderly).purge rfl).bind fun _ => .pure _
    | some path =>
      obtain ⟨text, _, rfl⟩ := Option.map_eq_some_iff.mp named
      have unsplit := Path.unsplit_ofText text
      have saved : (Command.cleanup true target).Effect desk ((exportRecords (Path.ofText text)).perform desk).2 :=
        of_saves named (saves_exportRecords unsplit desk) orderly
      simp only
      rw [Action.perform_bind]
      cases exported : (exportRecords (Path.ofText text)).perform desk with
      | mk result after =>
        rw [exported] at saved
        cases result with
        | error failure => exact saved
        | ok count => exact (saved.purge rfl).bind fun _ => .pure _

end Command.Effect

/-- The work of every command keeps to its effect, however it ends. There is one case for each
command, and each is put together from the effects of its steps. -/
theorem Desk.Noting.effect (noting : desk.Noting) (proper : desk.files.Proper)
    (settings : Settings) (command : Command) :
    command.Effect desk ((command.work settings).perform desk).2 := by
  have orderly := noting.orderly
  cases command with
  | preview scope =>
    exact .of_logs (.bind (logs_previewRun _ _) logs_replySummary) _ orderly
  | apply scope commit noBackup =>
    refine .bind (.changeRun noting proper ?_ rfl scope none) logs_replySummary
    simp [Command.commits, changeManner]
  | batch scope commit noBackup size =>
    refine .bind (.changeRun noting proper ?_ rfl scope (some settings.batchSize.count)) logs_replySummary
    simp [Command.commits, changeManner]
  | rollback schema name choice =>
    have restores : (Command.work settings (.rollback schema name choice)).Within
        (Desk.Restores (Command.rollback schema name choice).Names) := by
      rw [Command.work, nameRoutine]
      cases made : Identity.make schema name with
      | error fault => exact .throw _
      | ok identity => exact restores_replyRollback (Identity.named_make made choice) choice
    have after := restores desk
    exact .of_edits rfl after.edits (after.orderly orderly) (after.records orderly)
  | history schema name =>
    exact .of_logs (.bind (.orFail _) fun _ => .bind .get fun _ => logs_ofJson _ _) _ orderly
  | status => exact .of_logs (.bind .get fun _ => logs_ofJson _ _) _ orderly
  | «export» out =>
    cases out with
    | none => exact .idle _ orderly
    | some out =>
      exact .bind (.of_saves rfl (saves_exportRecords (Path.unsplit_ofText out) desk) orderly)
        fun _ => logs_ofJson _ _
  | cleanup confirmed target =>
    exact .bind (.cleanUp orderly confirmed target) fun _ => logs_ofJson _ _
  | renew file report =>
    cases file with
    | none => exact .idle _ orderly
    | some file =>
      refine .of_logs (.bind .get fun _ => .bind (.orFail _) fun _ =>
        .bind (logs_renewLogged _ _) fun _ => ?_) _ orderly
      split
      · exact logs_ofJson _ _
      · exact .pure _

end SqlRenewal
