import SqlRenewal.Work.Desk

/-!
# Changing one routine

A routine is backed up before its new text is written, and the backup is marked
when that is done. A preview stops after the backup. A change is taken back by
writing the text of the newest committed backup.
-/
namespace SqlRenewal

/-- What became of a routine. -/
inductive Fate where
  | unchanged
  | previewed
  | updated
  /-- The text was written, but its backup could not be marked. -/
  | untracked
  | failed
deriving DecidableEq, Repr

/-- The name of a fate in reports. -/
def Fate.name : Fate → String
  | .unchanged => "unchanged"
  | .previewed => "previewed"
  | .updated => "updated"
  | .untracked => "updated_untracked"
  | .failed => "failed"

/-- The routine has, or would have, a new text. -/
def Fate.isChange : Fate → Bool
  | .unchanged => false
  | .previewed => true
  | .updated => true
  | .untracked => true
  | .failed => false

/-- The result of working on one routine. -/
structure Outcome where
  identity : Identity
  fate : Fate
  backup : Option Nat := none
  categories : List Category := []
  flags : List Flag := []
  error : Option String := none
deriving DecidableEq, Repr

/-- How changes are made: by the built-in rules or by others, with backups or without, and
for a preview or for good. -/
structure Manner where
  rules : List Rule := builtinRules
  backup : Bool := true
  preview : Bool := true

/-- Marks the backup of a text that has been written, if there is one. The answer
is the wording of the fault when that was impossible. -/
def settleBackup (identity : Identity) : Option Record → Action (Option String)
  | none => return none
  | some record =>
    tryCatch (do let _ ← markUpdated record.id; return none) fun failure => do
      match failure with
      | .ledger fault =>
        say .error .changes ("Updated " ++ String.ofList identity.qualified ++
          s!" but could not mark backup {record.id} UPDATED: {fault.message}")
        return some fault.message
      | other => throw other

/-- Changes one routine, or previews the change. -/
def changeRoutine (manner : Manner) (identity : Identity) : Action Outcome := do
  let text ← readRoutine identity
  let report ← renewLogged manner.rules text
  let categories := foundCategories text
  let name := String.ofList identity.qualified
  if !report.changed then
    say .debug .changes ("No changes needed for: " ++ name)
    return { identity, fate := .unchanged, categories }
  let record ← if manner.backup then some <$> backUp identity text (some report.text) else pure none
  let outcome : Outcome :=
    { identity, fate := .previewed, backup := record.map Record.id, categories, flags := report.flags }
  if manner.preview then
    say .info .changes ("PREVIEW: would update " ++ name)
    return outcome
  writeRoutine identity report.text
  match ← settleBackup identity record with
  | some fault => return { outcome with fate := .untracked, error := some fault }
  | none =>
    say .info .changes ("Updated: " ++ name)
    return { outcome with fate := .updated }

/-- Takes back the newest committed change of a routine, or that of a number. Its record
is marked in the given way. -/
def rollBackBy (mark : Int → Action Record) (identity : Identity) (choice : Choice) :
    Action Record := do
  match ← findCommitted identity choice with
  | none => throw (.noBackup identity choice)
  | some record =>
    writeRoutine identity record.before
    let restored ← mark record.id
    say .info .changes ("Successfully rolled back: " ++ String.ofList identity.qualified ++
      s!" (backup {record.id})")
    return restored

/-- Takes back the newest committed change of a routine, or that of a number. -/
def rollBack : Identity → Choice → Action Record :=
  rollBackBy fun id => markRolledBack id

end SqlRenewal
