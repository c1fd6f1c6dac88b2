import SqlRenewal.Proofs.Store.Beside
import SqlRenewal.Proofs.Work.Sweep

/-!
# A run over a folder with one more file

A run begins with the listing of the folder, and a single file that cannot be loaded ends
it there: no routine is changed, whatever the scope. If the new file can be loaded, and
stands apart from the other ones, every other routine has the result that it has without
the file, and its file the same contents in the end.
-/
namespace SqlRenewal

variable {desk desk' : Desk} {manner : Manner} {root : Path} {name : Text}
  {identity newcomer : Identity} {others : List Identity}

/-! ### What is chosen -/

/-- Sorted routines stand in the order of their identities. -/
theorem pairwise_sortRoutines (routines : List Routine) :
    (sortRoutines routines).Pairwise fun first second =>
      Identity.ble first.identity second.identity = true :=
  List.pairwise_mergeSort
    (fun first second third => Identity.ble_trans first.identity second.identity third.identity)
    (fun first second => Identity.ble_total first.identity second.identity) routines

/-- The routines of a scope stand in the order of their identities. -/
theorem Scope.pairwise_chosen (scope : Scope) (routines : List Routine) :
    (scope.chosen (sortRoutines routines)).Pairwise fun first second =>
      Identity.ble first second = true := by
  rw [Scope.chosen, List.pairwise_map]
  exact (pairwise_sortRoutines routines).filter _

/-- One more routine is chosen, or not. The other ones are the same, in the same order, because
the order is that of the names. -/
theorem Scope.chosen_newcomer (scope : Scope) {routine : Routine} {routines joined : List Routine}
    (perm : joined.Perm (routine :: routines))
    (distinct : ∀ other ∈ routines, other.identity ≠ routine.identity) :
    (scope.chosen (sortRoutines joined)).filter (· ≠ routine.identity) =
      scope.chosen (sortRoutines routines) := by
  refine List.Perm.eq_of_pairwise (fun first second _ _ => Identity.ble_antisymm)
    ((scope.pairwise_chosen joined).filter _) (scope.pairwise_chosen routines) ?_
  have sorted : (sortRoutines joined).Perm (routine :: sortRoutines routines) :=
    ((List.mergeSort_perm _ _).trans perm).trans ((List.mergeSort_perm _ _).symm.cons routine)
  have kept : (scope.chosen (sortRoutines routines)).filter (· ≠ routine.identity) =
      scope.chosen (sortRoutines routines) := by
    rw [List.filter_eq_self]
    intro other chosen
    obtain ⟨found, listed, rfl⟩ := List.mem_map.mp chosen
    have member := Folder.mem_sortRoutines.mp (List.mem_filter.mp listed).1
    simpa using distinct found member
  have chosen := ((sorted.filter fun routine =>
    scope.admits routine.identity && isLegacy routine.text).map Routine.identity).filter
      (· ≠ routine.identity)
  refine chosen.trans ?_
  rw [← kept, List.filter_cons]
  split
  · rw [List.map_cons, List.filter_cons_of_neg (by simp)]
    exact .refl _
  · exact .refl _

/-! ### One change -/

/-- A change in a folder writes over the file of the routine, or writes nothing; no file is made
or removed. -/
theorem Desk.changed_folder (shelf : desk.shelf = .folder root) (manner : Manner)
    (identity : Identity) :
    (desk.changed manner identity).shelf = .folder root ∧
      (desk.newText? manner identity = none ∧ (desk.changed manner identity).files = desk.files ∨
        ∃ text path old, desk.newText? manner identity = some text ∧
          Folder.pathFor desk.files root identity = .ok path ∧ desk.files.look path = .ok old ∧
          old.isFile = true ∧ (desk.changed manner identity).files =
            desk.files.put path (.file (Utf8.encode text))) := by
  rw [Desk.changed]
  cases new : desk.newText? manner identity with
  | none => exact ⟨shelf, .inl ⟨rfl, rfl⟩⟩
  | some text =>
    have renewal : ∃ report, desk.renewal? manner identity = some report := by
      simp only [Desk.newText?, Option.ite_none_right_eq_some, Option.map_eq_some_iff] at new
      obtain ⟨_, report, renewal, _⟩ := new
      exact ⟨report, renewal⟩
    obtain ⟨report, renewal⟩ := renewal
    obtain ⟨before, read, _⟩ := Desk.renewal?_eq_some renewal
    rw [Desk.read, shelf] at read
    obtain ⟨path, old, found, stands, file, _⟩ := Folder.read_eq_ok read
    refine ⟨by simp only [Desk.withText, shelf, Shelf.withText],
      .inr ⟨text, path, old, rfl, found, stands, file, ?_⟩⟩
    simp only [Desk.withText, shelf, Shelf.filesWithText, found]

/-- The second desk has one more file in its folder, which stands apart. -/
structure Desk.Joined (root : Path) (name : Text) (newcomer : Identity) (others : List Identity)
    (desk desk' : Desk) : Prop where
  shelf : desk.shelf = .folder root
  shelf' : desk'.shelf = .folder root
  outage : desk'.outage = desk.outage
  beside : Folder.Beside root name desk.files desk'.files
  apart : Folder.Apart root name desk'.files newcomer others

namespace Desk.Joined

variable (joined : Desk.Joined root name newcomer others desk desk')

include joined

/-- A routine from another file is alike with and without the new file. -/
theorem alike (listed : identity ∈ others) : desk.Alike desk' identity := by
  refine ⟨?_, joined.outage⟩
  rw [Desk.read, Desk.read, joined.shelf, joined.shelf']
  exact joined.beside.read_eq (joined.apart.unsplit identity listed)
    (joined.apart.unused identity listed)

/-- A change of another routine is the same at both desks. It reads the same text there, and
writes the same new one into the same file, if any. -/
theorem changed (listed : identity ∈ others) (manner : Manner) :
    Desk.Joined root name newcomer others (desk.changed manner identity)
      (desk'.changed manner identity) := by
  have same := (joined.alike listed).newText? manner
  have unsplit := joined.apart.unsplit identity listed
  have unused := joined.apart.unused identity listed
  obtain ⟨shelf, files⟩ := Desk.changed_folder joined.shelf manner identity
  obtain ⟨shelf', files'⟩ := Desk.changed_folder joined.shelf' manner identity
  have outage : (desk'.changed manner identity).outage = (desk.changed manner identity).outage := by
    rw [Desk.changed_outage, Desk.changed_outage, joined.outage]
  rcases files' with ⟨none, kept'⟩ | ⟨text, path, old, new, found, stands, file, written'⟩
  · rcases files with ⟨_, kept⟩ | ⟨_, _, _, new, _⟩
    · exact ⟨shelf, shelf', outage, kept ▸ kept' ▸ joined.beside, kept' ▸ joined.apart⟩
    · rw [same, new] at none
      cases none
  · rcases files with ⟨none, _⟩ | ⟨text', path', old', new', found', _, _, written⟩
    · rw [same, none] at new
      cases new
    · obtain rfl : text' = text := by
        rw [same, new'] at new
        exact Option.some.inj new
      obtain rfl : path' = path := by
        rw [joined.beside.pathFor_eq unsplit unused, found'] at found
        exact Except.ok.inj found
      have look := joined.beside.look_eq unsplit found fun here => unused (here ▸ found)
      refine ⟨shelf, shelf', outage, ?_, ?_⟩
      · rw [written, written']
        exact joined.beside.put_both stands file rfl look
      · rw [written']
        exact joined.apart.put stands file rfl

/-- A change of the new routine touches the new file alone, because it stands apart from all
others. -/
theorem changed_newcomer (ends : Folder.suffix <:+ name) (manner : Manner) :
    Desk.Joined root name newcomer others desk (desk'.changed manner newcomer) := by
  obtain ⟨shelf', files'⟩ := Desk.changed_folder joined.shelf' manner newcomer
  have outage : (desk'.changed manner newcomer).outage = desk.outage := by
    rw [Desk.changed_outage, joined.outage]
  rcases files' with ⟨_, kept'⟩ | ⟨text, path, old, _, found, stands, file, written'⟩
  · exact ⟨joined.shelf, shelf', outage, kept' ▸ joined.beside, kept' ▸ joined.apart⟩
  · have here := joined.apart.own path old found stands file
    refine ⟨joined.shelf, shelf', outage, ?_, ?_⟩
    · rw [written']
      exact joined.beside.put_new stands file rfl ends here
    · rw [written']
      exact joined.apart.put stands file rfl

end Desk.Joined

/-! ### Runs -/

/-- The results that are not about a routine, without the numbers of their backups. -/
def Outcome.besides (newcomer : Identity) (outcomes : List Outcome) : List Outcome :=
  (outcomes.filter fun outcome => outcome.identity ≠ newcomer).map Outcome.unnumbered

/-- Changes of other routines are the same at both desks, and changes of the new routine in
between do not matter. -/
theorem Desk.Joined.changedAll (joined : Desk.Joined root name newcomer others desk desk')
    (ends : Folder.suffix <:+ name) (manner : Manner) {identities : List Identity}
    (listed : ∀ identity ∈ identities, identity ≠ newcomer → identity ∈ others) :
    Outcome.besides newcomer (desk'.outcomes manner identities) =
        (desk.outcomes manner (identities.filter (· ≠ newcomer))).map Outcome.unnumbered ∧
      Desk.Joined root name newcomer others
        (desk.changedAll manner (identities.filter (· ≠ newcomer)))
        (desk'.changedAll manner identities) := by
  induction identities generalizing desk desk' with
  | nil => exact ⟨rfl, joined⟩
  | cons identity rest inductionHypothesis =>
    have later : ∀ identity ∈ rest, identity ≠ newcomer → identity ∈ others :=
      fun identity member => listed identity (List.mem_cons_of_mem _ member)
    by_cases new : identity = newcomer
    -- Only the second desk moves here, and the two are still joined.
    · subst new
      obtain ⟨outcomes, after⟩ :=
        inductionHypothesis (joined.changed_newcomer ends manner) later
      rw [List.filter_cons_of_neg (by simp), Desk.outcomes, Outcome.besides,
        List.filter_cons_of_neg (by simp)]
      exact ⟨outcomes, after⟩
    · have member := listed identity List.mem_cons_self new
      obtain ⟨outcomes, after⟩ := inductionHypothesis (joined.changed member manner) later
      have same : (desk'.outcome manner identity).unnumbered =
          (desk.outcome manner identity).unnumbered := by
        rw [Desk.unnumbered_outcome, Desk.unnumbered_outcome, (joined.alike member).verdict]
      rw [List.filter_cons_of_pos (by simpa using new), Desk.outcomes, Outcome.besides,
        List.filter_cons_of_pos (by simpa using new), List.map_cons, same, Desk.outcomes,
        List.map_cons]
      exact ⟨congrArg _ outcomes, after⟩

/-- Every other routine has the same result, and every other file the same contents. -/
structure Undisturbed (root : Path) (before : Tree) (newcomer : Identity)
    (alone ending : Except Failure Summary × Desk) : Prop where
  outcomes : ∃ summary summary', alone.1 = .ok summary ∧ ending.1 = .ok summary' ∧
    Outcome.besides newcomer summary'.outcomes = summary.outcomes.map Outcome.unnumbered
  contents : ∀ path ∈ Folder.files before root,
    ending.2.files.look path = alone.2.files.look path

/-- The desk with one more file. -/
def Desk.withFile (desk : Desk) (path : Path) (bytes : List UInt8) : Desk :=
  { desk with files := desk.files.put path (.file bytes) }

section Run

variable (shelf : desk.shelf = .folder root) (noting : desk.Noting)
  (receives : Folder.Receives desk.files root name) {bytes : List UInt8}

include shelf receives

/-- The routines of a folder that takes the new file can be listed before it came. -/
theorem routines_receiving : ∃ routines, desk.routines = .ok routines := by
  obtain ⟨loaded, listed, _⟩ := receives.legible.routines
  exact ⟨_, by rw [Desk.routines, shelf]; exact listed⟩

/-- Where the new file cannot be loaded, no routine is listed: a listing loads every file. -/
theorem routines_withFile_error {failure : Failure}
    (fails : Folder.load (desk.withFile (root.child name) bytes).files (root.child name) =
      .error failure) :
    (desk.withFile (root.child name) bytes).routines = .error failure := by
  rw [Desk.routines, Desk.withFile, shelf]
  exact receives.routines_error rfl fails

/-- A new file that can be loaded adds its routine to the list; if it stands apart, the two
desks differ in nothing else. -/
theorem joined_withFile {routine : Routine}
    (loads : Folder.load (desk.withFile (root.child name) bytes).files (root.child name) =
      .ok routine) :
    ∃ loaded joined, desk.routines = .ok (sortRoutines loaded) ∧
      (desk.withFile (root.child name) bytes).routines = .ok (sortRoutines joined) ∧
      joined.Perm (routine :: loaded) ∧
      (Folder.StandsApart (desk.withFile (root.child name) bytes).files root (root.child name) →
        (∀ other ∈ loaded, other.identity ≠ routine.identity) ∧
        Desk.Joined root name routine.identity (loaded.map Routine.identity) desk
          (desk.withFile (root.child name) bytes)) := by
  have file : (Entry.file bytes).isFile = true := rfl
  obtain ⟨loaded, joined, loadsOld, listed, listedNow, perm⟩ := receives.routines_ok file loads
  refine ⟨loaded, joined, ?_, ?_, perm, ?_⟩
  · rw [Desk.routines, shelf]
    exact listed
  · rw [Desk.routines, Desk.withFile, shelf]
    exact listedNow
  intro apart
  have files := receives.files_perm file
  have named := (Folder.load_eq_ok_iff.mp loads).2.1
  have defined : ∀ other ∈ loaded, ∃ path ∈ Folder.files (desk.withFile (root.child name)
      bytes).files root, path ≠ root.child name ∧ Folder.identityFor path = .ok other.identity := by
    intro other member
    obtain ⟨path, inFolder, loadsOther⟩ := loadsOld.source member
    refine ⟨path, files.mem_iff.mpr (List.mem_cons_of_mem _ inFolder),
      receives.ne_of_mem_files inFolder, (Folder.load_eq_ok_iff.mp loadsOther).2.1⟩
  constructor
  · intro other member same
    obtain ⟨path, inFolder, elsewhere, namedOther⟩ := defined other member
    exact apart.distinct path inFolder elsewhere (by rw [namedOther, same, named])
  · refine ⟨shelf, shelf, rfl, receives.beside file, ?_⟩
    refine apart.apart receives.properNow (files.mem_iff.mpr List.mem_cons_self) named ?_
    intro identity member
    obtain ⟨other, listedOther, rfl⟩ := List.mem_map.mp member
    exact defined other listedOther

include noting

/-- A new file that loads and stands apart disturbs no other routine: all others read and are
written as before, so each change of them comes out the same. -/
theorem undisturbed {routine : Routine}
    (loads : Folder.load (desk.withFile (root.child name) bytes).files (root.child name) =
      .ok routine)
    (apart : Folder.StandsApart (desk.withFile (root.child name) bytes).files root
      (root.child name)) (manner : Manner) (scope : Scope) (size : Option Nat) :
    Undisturbed root desk.files routine.identity ((changeRun manner scope size).perform desk)
      ((changeRun manner scope size).perform (desk.withFile (root.child name) bytes)) := by
  obtain ⟨loaded, joined, listed, listedNow, perm, aside⟩ := joined_withFile shelf receives loads
  obtain ⟨distinct, start⟩ := aside apart
  have known : ∀ identity ∈ scope.chosen (sortRoutines joined), identity ≠ routine.identity →
      identity ∈ loaded.map Routine.identity := by
    intro identity member new
    obtain ⟨found, picked, rfl⟩ := List.mem_map.mp member
    have inList := perm.mem_iff.mp (Folder.mem_sortRoutines.mp (List.mem_filter.mp picked).1)
    rcases List.mem_cons.mp inList with rfl | older
    · exact absurd rfl new
    · exact List.mem_map_of_mem older
  obtain ⟨outcomes, after⟩ := start.changedAll receives.ends manner known
  rw [scope.chosen_newcomer perm distinct] at outcomes after
  have notingNow : (desk.withFile (root.child name) bytes).Noting :=
    ⟨noting.orderly, noting.backups, noting.updates⟩
  obtain ⟨lines, alone⟩ := noting.perform_changeRun listed manner scope size
  obtain ⟨lines', ending⟩ := notingNow.perform_changeRun listedNow manner scope size
  rw [alone, ending]
  constructor
  · refine ⟨_, _, rfl, rfl, ?_⟩
    rw [Summary.outcomes_ofOutcomes, Summary.outcomes_ofOutcomes]
    exact outcomes
  · intro path inFolder
    have elsewhere := receives.ne_of_mem_files inFolder
    obtain ⟨other, entry, rfl, ends, _, _⟩ := Folder.mem_files.mp inFolder
    refine after.beside.looks other ends ?_
    rintro rfl
    exact elsewhere rfl

/-- A run over a folder with one more definition file gives a summary exactly if this file
can be loaded. If it cannot, the run fails with the fault of the file, and nothing is
changed. If it can, and the file stands apart, no other routine is disturbed. -/
theorem changeRun_newcomer (bytes : List UInt8) (manner : Manner) (scope : Scope)
    (size : Option Nat) :
    let joined := desk.withFile (root.child name) bytes
    let alone := (changeRun manner scope size).perform desk
    let ending := (changeRun manner scope size).perform joined
    (∃ summary, alone.1 = .ok summary) ∧
      ((∃ summary, ending.1 = .ok summary) ↔
        ∃ routine, Folder.load joined.files (root.child name) = .ok routine) ∧
      (∀ failure, Folder.load joined.files (root.child name) = .error failure →
        ending = (.error failure, joined)) ∧
      ∀ routine, Folder.load joined.files (root.child name) = .ok routine →
        Folder.StandsApart joined.files root (root.child name) →
        Undisturbed root desk.files routine.identity alone ending := by
  intro joined alone ending
  have stopped {failure : Failure}
      (fails : Folder.load joined.files (root.child name) = .error failure) :
      ending = (.error failure, joined) :=
    perform_changeRun_error (routines_withFile_error shelf receives fails) manner scope size
  obtain ⟨routines, listed⟩ := routines_receiving shelf receives
  obtain ⟨lines, performed⟩ := noting.perform_changeRun listed manner scope size
  refine ⟨⟨_, congrArg Prod.fst performed⟩, ?_, fun failure => stopped, ?_⟩
  · cases loads : Folder.load joined.files (root.child name) with
    | error failure => simp [stopped loads]
    | ok routine =>
      obtain ⟨_, _, _, listedNow, _⟩ := joined_withFile shelf receives loads
      have notingNow : joined.Noting := ⟨noting.orderly, noting.backups, noting.updates⟩
      obtain ⟨_, performedNow⟩ := notingNow.perform_changeRun listedNow manner scope size
      exact ⟨fun _ => ⟨routine, rfl⟩, fun _ => ⟨_, congrArg Prod.fst performedNow⟩⟩
  · intro routine loads apart
    exact undisturbed shelf noting receives loads apart manner scope size

end Run

/-- A routine is changed beside another one of a new file. -/
theorem changeRun_newcomer_plain :
    let root : Path := ⟨.here, [['d']]⟩
    let old : Path := root.child "s.n.sql".toList
    let new : Path := root.child "p.sql".toList
    let files : Tree := ⟨[(root, .directory), (old, .file (Utf8.encode "RAISERROR(1)".toList))]⟩
    let desk : Desk := { shelf := .folder root, files }
    let manner : Manner := { rules := [], preview := false }
    desk.Noting ∧ Folder.Receives files root "p.sql".toList ∧
      ∃ routine, Folder.load (files.put new (.file [])) new = .ok routine ∧
        Folder.StandsApart (files.put new (.file [])) root new ∧
        Undisturbed root files routine.identity
          ((changeRun manner {} none).perform desk)
          ((changeRun manner {} none).perform (desk.withFile new [])) := by
  intro root old new files desk manner
  let joined := files.put new (.file [])
  let plain : Identity := ⟨defaultSchema, ['p'], by decide, by decide⟩
  let qualified : Identity := ⟨['s'], ['n'], by decide, by decide⟩
  have namedOld : Folder.identityFor old = .ok qualified := by
    unfold old root qualified
    cbv
  have namedNew : Folder.identityFor new = .ok plain := by
    unfold new root plain
    cbv
  have noting : desk.Noting := ⟨.ofEmpty ⟨_, rfl⟩ rfl, rfl, rfl⟩
  have receives : Folder.Receives files root "p.sql".toList := by
    have folder : files.look root = .ok .directory := by
      unfold files old root
      cbv
    have free : files.look new = .error (.missing new) := by
      unfold files new old root
      cbv
    have listing : Folder.files files root = [old] := by
      unfold files old root
      cbv
    have text : files.readText old = .ok "RAISERROR(1)".toList := by
      unfold files old root
      cbv
    refine ⟨⟨by decide, by decide⟩, folder, ?_, by decide, by decide, free⟩
    rw [Folder.Legible, listing, List.forall_mem_singleton]
    exact ⟨⟨_, text⟩, qualified, namedOld⟩
  have loads : Folder.load joined new = .ok ⟨plain, procedureKind, []⟩ := by
    unfold joined files new old root plain
    cbv
  have listing : Folder.files joined root = [new, old] := by
    unfold joined files new old root
    cbv
  have foundNew : Folder.pathFor joined root plain = .ok new := by
    unfold joined files new old root plain
    cbv
  have foundOld : Folder.pathFor joined root qualified = .ok old := by
    unfold joined files new old root qualified
    cbv
  have distinct : old ≠ new := by decide
  have each {property : Path → Prop} (holds : property old) :
      ∀ other ∈ Folder.files joined root, other ≠ new → property other := by
    rw [listing, List.forall_mem_cons, List.forall_mem_singleton]
    exact ⟨fun same => absurd rfl same, fun _ => holds⟩
  have apart : Folder.StandsApart joined root new := by
    refine ⟨each ?_, each ?_, each ?_⟩
    · rw [namedOld, namedNew]
      decide
    · intro identity named
      rw [← Except.ok.inj (namedOld.symm.trans named), foundOld]
      exact fun same => distinct (Except.ok.inj same)
    · intro identity named
      rw [← Except.ok.inj (namedNew.symm.trans named), foundNew]
      exact fun same => distinct (Except.ok.inj same).symm
  have newcomer := changeRun_newcomer rfl noting receives [] manner {} none
  exact ⟨noting, receives, _, loads, apart, newcomer.2.2.2 _ loads apart⟩

/-- One byte that no text has stops the run over a routine of another file. -/
theorem unreadable_file_stops_run :
    let root : Path := ⟨.here, [['d']]⟩
    let old : Path := root.child "dbo.a.sql".toList
    let new : Path := root.child "dbo.b.sql".toList
    let files : Tree := ⟨[(root, .directory), (old, .file (Utf8.encode "RAISERROR(1)".toList))]⟩
    let desk : Desk := { shelf := .folder root, files }
    let manner : Manner := { rules := [], preview := false }
    let scope : Scope := { name := some ['a'] }
    let fault : Utf8.Fault := ⟨0, 0xff, 1, .startByte⟩
    (∃ summary, ((applyRun manner scope).perform desk).1 = .ok summary) ∧
      (applyRun manner scope).perform (desk.withFile new [0xff]) =
        (.error (.decoding fault), desk.withFile new [0xff]) := by
  intro root old new files desk manner scope fault
  have noting : desk.Noting := ⟨.ofEmpty ⟨_, rfl⟩ rfl, rfl, rfl⟩
  let identity : Identity := ⟨defaultSchema, ['a'], by decide, by decide⟩
  have listed : Folder.routines files root =
      .ok [⟨identity, procedureKind, "RAISERROR(1)".toList⟩] := by
    unfold files old root identity
    cbv
  have unlisted : Folder.routines (files.put new (.file [0xff])) root =
      .error (.decoding fault) := by
    unfold files new old root fault
    cbv
  obtain ⟨lines, performed⟩ := noting.perform_changeRun listed manner scope none
  have spoiled : (desk.withFile new [0xff]).routines = .error (.decoding fault) := unlisted
  exact ⟨⟨_, congrArg Prod.fst performed⟩, perform_changeRun_error spoiled manner scope none⟩

end SqlRenewal
