import SqlRenewal.Ledger.Basic
import SqlRenewal.Store.Catalog

/-!
# Database files

One file can hold the table of definitions, the ledger of backups, or both.
Opening it makes sure that all tables are there.
-/
namespace SqlRenewal

/-- What a database file holds. The table of definitions can be missing. -/
structure Database where
  catalog : Option Catalog := some []
  ledger : Ledger := {}
deriving DecidableEq, Repr

/-- The database with all its tables, empty where they were missing. -/
def Database.restore (database : Database) : Database :=
  { catalog := some (database.catalog.getD []), ledger := database.ledger.restore }

end SqlRenewal
