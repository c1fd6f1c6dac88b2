import SqlRenewal.Work.Run

/-!
# Reports as JSON

How the results of the work are laid out for printing and for export.
-/
namespace SqlRenewal

/-- A list of strings. -/
def Json.strings (values : List String) : Json :=
  .list (values.map .string)

/-- The result of working on one routine. -/
def Outcome.toJson (outcome : Outcome) : Json :=
  .fieldsOf [("unit", .text outcome.identity.qualified), ("status", .string outcome.fate.name),
    ("backup_id", .optional .nat outcome.backup),
    ("issues", .strings (outcome.categories.map Category.label)),
    ("review_flags", .strings (outcome.flags.map Flag.message)),
    ("error", .optional .string outcome.error)]

/-- A report on progress. -/
def Milestone.toJson (milestone : Milestone) : Json :=
  .fieldsOf [("batch", .nat milestone.number), ("processed", .nat milestone.processed),
    ("total", .nat milestone.total), ("percent", .nat milestone.percent)]

/-- The fields that only some kinds of runs report. -/
def Details.fields : Details → List (String × Json)
  | .nothing => []
  | .forms byName =>
    [("raiserror_forms", .object (byName.map fun (name, shapes) =>
      (name, .strings (shapes.map Form.label))))]
  | .milestones reached => [("batches", .list (reached.map Milestone.toJson))]

/-- The results of a run. -/
def Summary.toJson (summary : Summary) : Json :=
  .fieldsOf ([("mode", .string summary.mode.name), ("preview_only", .bool summary.preview),
    ("examined", .nat summary.examined), ("changed", .nat summary.changed),
    ("failed", .nat summary.failed), ("succeeded", .nat summary.succeeded),
    ("units", .list (summary.outcomes.map Outcome.toJson))] ++ summary.details.fields)

/-- A record with all its texts and times. -/
def Record.toJson (record : Record) : Json :=
  .fieldsOf [("backup_id", .nat record.id), ("schema_name", .text record.identity.schema),
    ("unit_name", .text record.identity.name), ("original_text", .text record.before),
    ("rewritten_text", .optional .text record.after), ("status", .string record.status.name),
    ("created_at", .text record.createdAt),
    ("updated_at", .optional .text record.stage.updatedAt),
    ("rolled_back_at", .optional .text record.stage.rolledBackAt)]

/-- The number of records of each status. -/
def Counts.toJson (counts : Counts) : Json :=
  .fieldsOf [("BACKED_UP", .nat counts.backedUp), ("UPDATED", .nat counts.updated),
    ("ROLLED_BACK", .nat counts.rolledBack)]

/-- A statement that was replaced. -/
def Replacement.toJson (replacement : Replacement) : Json :=
  .fieldsOf [("position", .nat replacement.position), ("form", .string replacement.form.name),
    ("original", .text replacement.before), ("replacement", .text replacement.after),
    ("code", .int replacement.code), ("severity_dropped", .optional .text replacement.severity)]

/-- A statement that was left alone. -/
def Skip.toJson (skip : Skip) : Json :=
  .fieldsOf [("position", .nat skip.position), ("reason", .string skip.reason.message)]

/-- The fields of a report on the renewal of a text. -/
def Report.fields (report : Report) : List (String × Json) :=
  [("changed", .bool report.changed),
    ("statements", .list (report.replacements.map Replacement.toJson)),
    ("skipped", .list (report.skips.map Skip.toJson)),
    ("rule_hits", .object (report.tally.map fun (name, count) => (name, .nat count))),
    ("review_flags", .strings (report.flags.map Flag.message))]

end SqlRenewal
