import SqlRenewal.Json.Printer
import SqlRenewal.Json.Reader
import SqlRenewal.Store.Database
import SqlRenewal.Text.Utf8

/-!
# The form of a database file

A database is kept as one JSON object. Its first field tells it from any other
file. A missing table is null.
-/
namespace SqlRenewal

namespace Json

/-- The text that a value is. -/
def asText? : Json → Option Text
  | .text value => some value
  | _ => none

/-- The natural number that a value is. -/
def asNat? : Json → Option Nat
  | .int (.ofNat value) => some value
  | _ => none

/-- The elements of a list. -/
def asList? : Json → Option (List Json)
  | .list elements => some elements
  | _ => none

/-- A value that may be null. -/
def asOptional? {α : Type} (decode : Json → Option α) : Json → Option (Option α)
  | .null => some none
  | value => (decode value).map some

/-- An object with the given fields. -/
def fieldsOf (fields : List (String × Json)) : Json :=
  .object (fields.map fun (key, value) => (key.toList, value))

end Json

namespace Database

/-- The value of the first field of a database. -/
def mark : String := "sql-renewal database"

/-- A routine as a field value. -/
def encodeRoutine (routine : Routine) : Json :=
  .fieldsOf [("schema", .text routine.identity.schema), ("name", .text routine.identity.name),
    ("kind", .text routine.kind), ("text", .text routine.text)]

/-- A status as a field value. -/
def encodeStatus (status : Status) : Json :=
  .string status.name

/-- A record as a field value. -/
def encodeRecord (record : Record) : Json :=
  .fieldsOf [("id", .nat record.id), ("schema", .text record.identity.schema),
    ("name", .text record.identity.name), ("before", .text record.before),
    ("after", .optional .text record.after), ("status", encodeStatus record.status),
    ("created", .text record.createdAt), ("updated", .optional .text record.stage.updatedAt),
    ("rolled back", .optional .text record.stage.rolledBackAt)]

/-- An event as a field value. -/
def encodeEvent (event : Event) : Json :=
  .fieldsOf [("id", .nat event.id), ("record", .nat event.record),
    ("source", .optional encodeStatus event.source), ("target", encodeStatus event.target),
    ("stamp", .text event.stamp)]

/-- A database as a value. -/
def encode (database : Database) : Json :=
  .fieldsOf [("format", .string mark),
    ("definitions", .optional (fun catalog => .list (catalog.map encodeRoutine)) database.catalog),
    ("records", .list (database.ledger.records.map encodeRecord)),
    ("events", .optional (fun events => .list (events.map encodeEvent)) database.ledger.events),
    ("last record", .nat database.ledger.lastRecord),
    ("last event", .nat database.ledger.lastEvent)]

/-- The name of a routine. -/
def decodeIdentity? (value : Json) : Option Identity := do
  let schema ← (← value.field? "schema").asText?
  let name ← (← value.field? "name").asText?
  (Identity.make schema name).toOption

/-- A routine. -/
def decodeRoutine? (value : Json) : Option Routine := do
  return ⟨← decodeIdentity? value, ← (← value.field? "kind").asText?,
    ← (← value.field? "text").asText?⟩

/-- A status. -/
def decodeStatus? (value : Json) : Option Status := do
  Status.ofName? (← value.asText?)

/-- The stage of a record: its status with the times that belong to it. -/
def decodeStage? (value : Json) : Option Stage := do
  match ← decodeStatus? (← value.field? "status") with
  | .backedUp => return .backedUp
  | .updated => return .updated (← (← value.field? "updated").asText?)
  | .rolledBack =>
    return .rolledBack (← (← value.field? "updated").asText?)
      (← (← value.field? "rolled back").asText?)

/-- A record. -/
def decodeRecord? (value : Json) : Option Record := do
  return {
    id := ← (← value.field? "id").asNat?
    identity := ← decodeIdentity? value
    before := ← (← value.field? "before").asText?
    after := ← (← value.field? "after").asOptional? Json.asText?
    createdAt := ← (← value.field? "created").asText?
    stage := ← decodeStage? value }

/-- An event. -/
def decodeEvent? (value : Json) : Option Event := do
  return {
    id := ← (← value.field? "id").asNat?
    record := ← (← value.field? "record").asNat?
    source := ← (← value.field? "source").asOptional? decodeStatus?
    target := ← decodeStatus? (← value.field? "target")
    stamp := ← (← value.field? "stamp").asText? }

/-- The elements of a list, each decoded. -/
def decodeAll? {α : Type} (decode : Json → Option α) (value : Json) : Option (List α) := do
  (← value.asList?).mapM decode

/-- The database that a value is. -/
def decode? (value : Json) : Option Database := do
  if (← (← value.field? "format").asText?) ≠ mark.toList then none
  else return {
    catalog := ← (← value.field? "definitions").asOptional? (decodeAll? decodeRoutine?)
    ledger := {
      records := ← decodeAll? decodeRecord? (← value.field? "records")
      events := ← (← value.field? "events").asOptional? (decodeAll? decodeEvent?)
      lastRecord := ← (← value.field? "last record").asNat?
      lastEvent := ← (← value.field? "last event").asNat? } }

/-- The bytes of a database file. -/
def toBytes (database : Database) : List UInt8 :=
  Utf8.encode (database.encode.compact ++ ['\n'])

/-- The database that the bytes of a file are. -/
def ofBytes? (bytes : List UInt8) : Option Database := do
  decode? (← Json.ofText? (← (Utf8.decode bytes).toOption))

end Database

end SqlRenewal
