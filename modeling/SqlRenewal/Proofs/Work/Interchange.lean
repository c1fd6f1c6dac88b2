import SqlRenewal.Proofs.Store.Stock
import SqlRenewal.Proofs.Work.Errands

/-!
# A table in the place of a folder

The same routines are put into a table and into an empty folder. If their names are portable
and no carriage return is in their texts, nobody can tell from the answers where they are
kept: whatever is asked for, in whatever order and at whatever times, both give the same
answers, and they have the same texts after each of them.
-/
namespace SqlRenewal

variable {desk desk' : Desk} {listed : List Identity} {supply : Supply} {supplies : List Supply}
  {rules : List Rule}

/-! ### Errand after errand -/

/-- An errand, and the time at which it is done. -/
structure Visit where
  now : Stamp
  errand : Errand

/-- The answers to one errand after the other, each with the desk as it is then. -/
def Desk.attend (rules : List Rule) : Desk → List Visit → List (Except Failure Summary × Desk)
  | _, [] => []
  | desk, visit :: rest =>
    let ending := (visit.errand.action rules).perform { desk with now := visit.now }
    ending :: ending.2.attend rules rest

/-- Desks that match give the same answers to the same errands, each at its own times, and
have the same texts after each of them. -/
theorem Desk.Matches.attend (matched : Desk.Matches listed desk desk')
    (builtin : ∀ rule ∈ rules, rule ∈ builtinRules) {visits visits' : List Visit}
    (errands : visits'.map Visit.errand = visits.map Visit.errand) :
    List.Forall₂ (fun ending ending' => ending'.1 = ending.1 ∧ ending.2.SameTexts ending'.2)
      (desk.attend rules visits) (desk'.attend rules visits') := by
  induction visits generalizing desk desk' visits' with
  | nil =>
    obtain rfl := List.map_eq_nil_iff.mp errands
    exact .nil
  | cons visit rest inductionHypothesis =>
    obtain ⟨visit', rest', rfl, same, later⟩ := List.map_eq_cons_iff.mp errands
    obtain ⟨answer, matchedNow⟩ :=
      (matched.atTimes visit.now visit'.now).perform_errand builtin visit.errand
    rw [← same] at answer matchedNow
    rw [Desk.attend, Desk.attend, ← same]
    exact .cons ⟨answer, matchedNow.sameTexts⟩ (inductionHypothesis matchedNow later)

/-! ### Desks with the same routines -/

/-- The name and the text of a routine that is put into a store. -/
def Supply.content (supply : Supply) : Identity × Text :=
  (supply.identity, supply.text)

/-- The definitions of the desk are those of the supplies, in good order. -/
structure Desk.Stocked (desk : Desk) (supplies : List Supply) : Prop where
  kept : desk.Kept
  names : desk.names = (supplies.map Supply.identity).mergeSort Identity.ble
  reads : ∀ supply ∈ supplies, desk.read supply.identity = .ok supply.text

/-- The order of the names does not depend on the order in which they come. -/
theorem Identity.mergeSort_eq {first second : List Identity} (perm : first.Perm second) :
    first.mergeSort ble = second.mergeSort ble := by
  have sorted (names : List Identity) :
      (names.mergeSort ble).Pairwise fun first second => ble first second = true :=
    List.pairwise_mergeSort ble_trans ble_total names
  refine List.Perm.eq_of_pairwise (fun _ _ _ _ => ble_antisymm) (sorted first) (sorted second) ?_
  exact ((List.mergeSort_perm _ _).trans perm).trans (List.mergeSort_perm _ _).symm

/-- It is enough that the supplies are listed, in whatever order: sorted by names they are one
list. -/
theorem Desk.Kept.stocked (kept : desk.Kept) (routines : List Routine)
    (listing : desk.routines = .ok (sortRoutines routines))
    (perm : (routines.map Routine.content).Perm (supplies.map Supply.content)) :
    desk.Stocked supplies := by
  refine ⟨kept, ?_, ?_⟩
  · have names := perm.map Prod.fst
    rw [List.map_map, List.map_map] at names
    simp only [Desk.names, listing, map_sortRoutines]
    exact Identity.mergeSort_eq names
  · intro supply member
    obtain ⟨routine, listed, same⟩ :=
      List.mem_map.mp (perm.mem_iff.mpr (List.mem_map_of_mem member))
    obtain ⟨sorted, listing', _, reads⟩ := kept.agrees
    obtain rfl := Except.ok.inj (listing.symm.trans listing')
    have read := reads routine (Folder.mem_sortRoutines.mpr listed)
    have identity : routine.identity = supply.identity := congrArg Prod.fst same
    have text : routine.text = supply.text := congrArg Prod.snd same
    rw [identity, text] at read
    exact read

/-- Two desks with the same supplies and empty ledgers match: they list the same routines with the
same texts, and have nothing to take back. -/
theorem Desk.Stocked.matches (stocked : desk.Stocked supplies) (stocked' : desk'.Stocked supplies)
    (assorted : Assorted supplies) (outage : desk.outage = {}) (outage' : desk'.outage = {})
    (ledger : desk.ledger = {}) (ledger' : desk'.ledger = {}) :
    Desk.Matches ((supplies.map Supply.identity).mergeSort Identity.ble) desk desk' := by
  have noting {desk : Desk} (outage : desk.outage = {}) (ledger : desk.ledger = {}) :
      desk.Noting := by
    refine ⟨?_, ?_, ?_⟩
    · rw [ledger]
      exact Ledger.coherent_empty.orderly
    · rw [outage]
    · rw [outage]
  have source {identity : Identity}
      (member : identity ∈ (supplies.map Supply.identity).mergeSort Identity.ble) :
      ∃ supply ∈ supplies, supply.identity = identity :=
    List.mem_map.mp ((List.mergeSort_perm _ _).mem_iff.mp member)
  refine ⟨noting outage ledger, noting outage' ledger', outage'.trans outage.symm, stocked.kept,
    stocked'.kept, stocked.names, stocked'.names, ?_, ?_, ?_, ?_⟩
  · intro identity member
    obtain ⟨supply, supplied, rfl⟩ := source member
    rw [stocked.reads supply supplied, stocked'.reads supply supplied]
  · intro identity member text read
    obtain ⟨supply, supplied, rfl⟩ := source member
    rw [stocked.reads supply supplied] at read
    exact Except.ok.inj read ▸ assorted.plain supply supplied
  · rw [ledger, ledger']
  · intro record noted
    rw [ledger] at noted
    cases noted

/-! ### The table -/

/-- Puts routines into the table of definitions. -/
def putSupplies (supplies : List Supply) : Action Unit :=
  forM supplies fun supply => putRoutine supply.identity supply.text supply.kind

/-- The definition that stands in the table. -/
def Supply.definition (supply : Supply) : Routine :=
  Catalog.define supply.identity supply.text supply.kind

/-- A routine that the table does not have is added at its end, since there is no row that it
could replace. -/
theorem perform_putRoutine_new {catalog : Catalog} (shelf : desk.shelf = .table (some catalog))
    (new : supply.identity ∉ catalog.map Routine.identity) :
    (putRoutine supply.identity supply.text supply.kind).perform desk =
      (.ok (), { desk with shelf := .table (some (catalog ++ [supply.definition])) }) := by
  have held : getCatalog.perform desk = (.ok catalog, desk) := by
    rw [getCatalog, Action.perform_bind, Action.perform_get]
    simp only [shelf, Action.perform_pure]
  have absent : catalog.routine? supply.identity = none := by
    refine List.find?_eq_none.mpr ?_
    intro routine member
    have other : routine.identity ≠ supply.identity := by
      intro same
      exact new (same ▸ List.mem_map_of_mem member)
    simpa using other
  have added : catalog.put supply.definition = catalog ++ [supply.definition] := by
    rw [Catalog.put, if_neg]
    rw [show supply.definition.identity = supply.identity from rfl, absent]
    simp
  rw [putRoutine, Action.perform_bind_ok held, setCatalog, Action.perform_modify]
  rw [show Catalog.define supply.identity supply.text supply.kind = supply.definition from rfl, added]

/-- Routines with names of their own are added in their order. The induction is over them, for any
table to begin with. -/
theorem perform_putSupplies (desk : Desk) {catalog : Catalog}
    (distinct : (catalog.map Routine.identity ++ supplies.map Supply.identity).Nodup) :
    (putSupplies supplies).perform { desk with shelf := .table (some catalog) } = (.ok (),
      { desk with shelf := .table (some (catalog ++ supplies.map Supply.definition)) }) := by
  induction supplies generalizing catalog with
  | nil =>
    rw [List.map_nil, List.append_nil]
    rfl
  | cons supply rest inductionHypothesis =>
    have new : supply.identity ∉ catalog.map Routine.identity := by
      intro member
      exact (List.nodup_append.mp distinct).2.2 _ member _ List.mem_cons_self rfl
    have later : ((catalog ++ [supply.definition]).map Routine.identity ++
        rest.map Supply.identity).Nodup := by
      rw [List.map_append, List.append_assoc]
      exact distinct
    rw [putSupplies, List.forM_cons, Action.perform_bind_ok (perform_putRoutine_new rfl new),
      List.map_cons, List.append_cons catalog supply.definition (rest.map Supply.definition)]
    exact inductionHypothesis later

/-- A table with the definitions of an assortment is stocked with it: it lists them, and no
routine twice. -/
theorem stocked_table (assorted : Assorted supplies)
    (shelf : desk.shelf = .table (some (supplies.map Supply.definition))) :
    desk.Stocked supplies := by
  have identities : (supplies.map Supply.definition).map Routine.identity =
      supplies.map Supply.identity := by
    rw [List.map_map]
    rfl
  have kept : desk.Kept := .table shelf (identities ▸ assorted.distinct)
  refine kept.stocked (supplies.map Supply.definition) ?_ ?_
  · rw [Desk.routines, shelf]
  · rw [List.map_map]
    exact .refl _

/-! ### The folder -/

/-- A folder with the files of an assortment is stocked with it: it is legible and tidy, and lists
the routines that were put there. -/
theorem stocked_folder (assorted : Assorted supplies) {root : Path}
    (shelf : desk.shelf = .folder root) (known : Folder.Stocked desk.files root supplies) :
    desk.Stocked supplies := by
  obtain ⟨listed, listing, perm⟩ := known.routines_eq assorted
  have kept : desk.Kept :=
    .folder shelf known.proper (known.legible assorted) (known.tidy assorted)
  refine kept.stocked listed ?_ ?_
  · rw [Desk.routines, shelf]
    exact listing
  · have contents := perm.map Routine.content
    rw [List.map_map] at contents
    exact contents

/-- A table and a folder with the same routines give the same answers to all errands, and have the
same texts after each of them. Every errand keeps the two desks matching, so the induction is over
the errands. -/
theorem attend_interchangeable (builtin : ∀ rule ∈ rules, rule ∈ builtinRules)
    (assorted : Assorted supplies) {tree files : Tree} {root : Path} (proper : tree.Proper)
    (folder : tree.look root = .ok .directory) (empty : tree.names root = [])
    (stocked : Folder.stock tree root supplies = .ok files) {visits visits' : List Visit}
    (errands : visits'.map Visit.errand = visits.map Visit.errand) :
    ∃ desk, (putSupplies supplies).perform { shelf := .table (some []) } = (.ok (), desk) ∧
      desk.SameTexts { shelf := .folder root, files } ∧
      List.Forall₂ (fun ending ending' => ending'.1 = ending.1 ∧ ending.2.SameTexts ending'.2)
        (desk.attend rules visits)
        (Desk.attend rules { shelf := .folder root, files } visits') := by
  have filled : (putSupplies supplies).perform { shelf := .table (some []) } =
      (.ok (), { shelf := .table (some (supplies.map Supply.definition)) }) :=
    perform_putSupplies { shelf := .nowhere } assorted.distinct
  have known : Folder.Stocked files root supplies :=
    (Folder.Stocked.ofEmpty proper folder empty).addAll assorted.portable assorted.distinct stocked
  have inTable : Desk.Stocked { shelf := .table (some (supplies.map Supply.definition)) } supplies :=
    stocked_table assorted rfl
  have inFolder : Desk.Stocked { shelf := .folder root, files } supplies :=
    stocked_folder assorted rfl known
  have matched := inTable.matches inFolder assorted rfl rfl rfl rfl
  exact ⟨_, filled, matched.sameTexts, matched.attend builtin errands⟩

/-- Two routines, of which one has a name with a point in it, at two clocks. -/
theorem attend_interchangeable_pair :
    let root : Path := ⟨.here, [['d']]⟩
    let tree : Tree := ⟨[(root, .directory)]⟩
    let old : Identity := ⟨defaultSchema, ['p'], by decide, by decide⟩
    let new : Identity := ⟨['s'], ['n', '.', 'm'], by decide, by decide⟩
    let supplies : List Supply := [⟨old, "RAISERROR(1)".toList, none⟩,
      ⟨new, "SELECT 1".toList, some ['V', 'I', 'E', 'W']⟩]
    let files : Tree := ⟨[(root, .directory),
      (root.child "dbo.p.sql".toList, .file (Utf8.encode "RAISERROR(1)".toList)),
      (root.child "s.n.m.sql".toList, .file (Utf8.encode "SELECT 1".toList))]⟩
    let visits : List Visit := [⟨['1'], .apply true false {}⟩, ⟨['2'], .rollback old .newest⟩]
    let visits' : List Visit := [⟨['3'], .apply true false {}⟩, ⟨['4'], .rollback old .newest⟩]
    Assorted supplies ∧ Folder.stock tree root supplies = .ok files ∧
      ∃ desk, (putSupplies supplies).perform { shelf := .table (some []) } = (.ok (), desk) ∧
        desk.SameTexts { shelf := .folder root, files } ∧
        List.Forall₂ (fun ending ending' => ending'.1 = ending.1 ∧ ending.2.SameTexts ending'.2)
          (desk.attend builtinRules visits)
          (Desk.attend builtinRules { shelf := .folder root, files } visits') := by
  intro root tree old new supplies files visits visits'
  have flush {text : Text} {first last : Char} (begins : text.head? = some first)
      (ends : text.getLast? = some last)
      (solid : ∀ c ∈ [first, last], isBlank c = false ∧ c ≠ '[' ∧ c ≠ ']') : text.Flush := by
    intro c atEnd
    rcases atEnd with atBegin | atLast
    · exact solid c (by simp [Option.some.inj (begins.symm.trans atBegin)])
    · exact solid c (by simp [Option.some.inj (ends.symm.trans atLast)])
  have assorted : Assorted supplies := by
    constructor
    · decide
    · rw [List.forall_mem_cons, List.forall_mem_singleton]
      constructor
      · exact ⟨by decide, by decide, flush rfl rfl (by decide), flush rfl rfl (by decide)⟩
      · exact ⟨by decide, by decide, flush rfl rfl (by decide), flush rfl rfl (by decide)⟩
    · rw [List.forall_mem_cons, List.forall_mem_singleton]
      exact ⟨by decide, by decide⟩
  have proper : tree.Proper := ⟨by decide, by decide⟩
  have folder : tree.look root = .ok .directory := by
    unfold tree root
    cbv
  have empty : tree.names root = [] := by
    unfold tree root
    cbv
  have stocked : Folder.stock tree root supplies = .ok files := by
    unfold files supplies tree root old new
    cbv
  exact ⟨assorted, stocked,
    attend_interchangeable (fun _ member => member) assorted proper folder empty stocked rfl⟩

end SqlRenewal
