import SqlRenewal.CommandLine.Switch
import SqlRenewal.Ledger.Basic
import SqlRenewal.Routine.Identity

/-!
# Commands

The command line names one command, with general switches before it and its own
switches after it. A blank value counts as an empty text, except where a file to
read or to write is asked for: there it names no file.
-/
namespace SqlRenewal

/-- The general switches. -/
structure GeneralOptions where
  ledger : Option Text := none
  database : Option Text := none
  folder : Option Text := none
  settingsFile : Option Text := none
  verbose : Bool := false
deriving DecidableEq, Repr

/-- The switches of all commands. -/
structure CommandOptions where
  schema : Option Text := none
  name : Option Text := none
  commit : Bool := false
  noBackup : Bool := false
  batchSize : Option Int := none
  backup : Choice := .newest
  out : Option Text := none
  confirm : Bool := false
  target : Option Text := none
  file : Option Text := none
  report : Bool := false
deriving DecidableEq, Repr

/-- What a command line asks for. -/
inductive Command where
  | preview (scope : Scope)
  | apply (scope : Scope) (commit noBackup : Bool)
  | batch (scope : Scope) (commit noBackup : Bool) (size : Option Int)
  | rollback (schema name : Text) (choice : Choice)
  | history (schema name : Text)
  | status
  | export (out : Option Text)
  | cleanup (confirmed : Bool) (target : Option Text)
  | renew (file : Option Text) (report : Bool)
deriving DecidableEq, Repr

/-- The switch that asks for help. -/
def helpSwitch {σ : Type} : Switch σ :=
  { names := ["-h".toList, "--help".toList], effect := .help }

/-- The general switches, in the order in which messages list them. -/
def generalSwitches : List (Switch GeneralOptions) :=
  [helpSwitch,
    { names := ["--journal-db".toList]
      effect := .value fun value options => { options with ledger := some (value.getD []) } },
    { names := ["--definitions-db".toList]
      effect := .value fun value options => { options with database := some (value.getD []) }
      rivals := ["--definitions-dir".toList] },
    { names := ["--definitions-dir".toList]
      effect := .value fun value options => { options with folder := some (value.getD []) }
      rivals := ["--definitions-db".toList] },
    { names := ["--env-file".toList]
      effect := .value fun value options => { options with settingsFile := some (value.getD []) } },
    { names := ["-v".toList, "--verbose".toList]
      effect := .flag fun options => { options with verbose := true } }]

/-- The switch for a schema. -/
def schemaSwitch : Switch CommandOptions :=
  { names := ["--schema".toList]
    effect := .value fun value options => { options with schema := some (value.getD []) } }

/-- The switch for a name, which some commands require. -/
def nameSwitch (required : Bool) : Switch CommandOptions :=
  { names := ["--name".toList]
    effect := .value fun value options => { options with name := some (value.getD []) }
    required }

/-- The switches of commands that change routines. -/
def changeSwitches : List (Switch CommandOptions) :=
  [{ names := ["--commit".toList]
     effect := .flag fun options => { options with commit := true } },
    { names := ["--no-backup".toList]
      effect := .flag fun options => { options with noBackup := true } }]

/-- A command as the command line knows it: its name, its switches, and what they
ask for. -/
structure CommandSpec where
  name : Text
  switches : List (Switch CommandOptions)
  command : CommandOptions → Command

/-- The scope that switches give. -/
def CommandOptions.scope (options : CommandOptions) : Scope :=
  ⟨options.schema, options.name⟩

/-- All commands, in the order in which messages list them. -/
def commandSpecs : List CommandSpec :=
  [{ name := "preview".toList
     switches := [helpSwitch, schemaSwitch, nameSwitch false]
     command := fun options => .preview options.scope },
    { name := "apply".toList
      switches := [helpSwitch, schemaSwitch, nameSwitch false] ++ changeSwitches
      command := fun options => .apply options.scope options.commit options.noBackup },
    { name := "batch".toList
      switches := [helpSwitch, schemaSwitch, nameSwitch false] ++ changeSwitches ++
        [{ names := ["--batch-size".toList]
           effect := .number fun value options => { options with batchSize := value } }]
      command := fun options =>
        .batch options.scope options.commit options.noBackup options.batchSize },
    { name := "rollback".toList
      switches := [helpSwitch, nameSwitch true, schemaSwitch,
        { names := ["--backup-id".toList]
          effect := .number fun value options => { options with
            backup := (value.map Choice.numbered).getD .unnumbered } }]
      command := fun options =>
        .rollback (options.schema.getD defaultSchema) (options.name.getD []) options.backup },
    { name := "history".toList
      switches := [helpSwitch, nameSwitch true, schemaSwitch]
      command := fun options =>
        .history (options.schema.getD defaultSchema) (options.name.getD []) },
    { name := "status".toList
      switches := [helpSwitch]
      command := fun _ => .status },
    { name := "export".toList
      switches := [helpSwitch,
        { names := ["--out".toList]
          effect := .value fun value options => { options with out := value }
          required := true }]
      command := fun options => .export options.out },
    { name := "cleanup".toList
      switches := [helpSwitch,
        { names := ["--confirm".toList]
          effect := .flag fun options => { options with confirm := true } },
        { names := ["--export".toList]
          effect := .value fun value options => { options with target := some (value.getD []) } }]
      command := fun options => .cleanup options.confirm options.target },
    { name := "rewrite".toList
      switches := [helpSwitch,
        { names := ["--file".toList]
          effect := .value fun value options => { options with file := value }
          required := true },
        { names := ["--report".toList]
          effect := .flag fun options => { options with report := true } }]
      command := fun options => .renew options.file options.report }]

/-- Reads a whole command line. -/
def readCommandLine (arguments : List Text) : Except Stop (GeneralOptions × Command) := do
  let general ← Progression.ofArguments generalSwitches true {} arguments
  match general.command with
  | none => throw (.usage (.required ["command".toList]))
  | some (name, rest) =>
    match commandSpecs.find? (·.name == name) with
    | none => throw (.usage (.unknownCommand name (commandSpecs.map CommandSpec.name)))
    | some spec =>
      let own ← Progression.ofArguments spec.switches false {} rest
      match general.left ++ own.left with
      | [] => return (general.options, spec.command own.options)
      | left => throw (.usage (.unrecognized left))

end SqlRenewal
