import SqlRenewal.Proofs.Ledger.Timeless
import SqlRenewal.Proofs.Renewal.Alphabet
import SqlRenewal.Proofs.Work.Keeping

/-!
# Desks that match

Two desks match if their definitions are in good order, they list the same routines with
the same texts, and their ledgers hold the same apart from the times. Where the definitions
are kept, and how, does not matter. Every change of a listed routine has the same result
at both desks, and they match again afterwards.

A folder gives no carriage return back, so none may come into a text. The built-in rules
bring none, and the ledger holds no text with one.
-/
namespace SqlRenewal

variable {desk desk' after : Desk} {manner : Manner} {identity : Identity} {text : Text}
  {listed : List Identity}

/-- The ledger holds texts of the listed routines, without carriage returns. -/
def Ledger.Accounts (ledger : Ledger) (listed : List Identity) : Prop :=
  ∀ record ∈ ledger.records, record.identity ∈ listed ∧ '\r' ∉ record.before

/-- Both desks list the same routines with the same texts, and have noted the same. -/
structure Desk.Matches (listed : List Identity) (desk desk' : Desk) : Prop where
  noting : desk.Noting
  noting' : desk'.Noting
  outage : desk'.outage = desk.outage
  kept : desk.Kept
  kept' : desk'.Kept
  names : desk.names = listed
  names' : desk'.names = listed
  reads : ∀ identity ∈ listed, desk'.read identity = desk.read identity
  plain : ∀ identity ∈ listed, ∀ text, desk.read identity = .ok text → '\r' ∉ text
  ledgers : desk'.ledger.timeless = desk.ledger.timeless
  accounts : desk.ledger.Accounts listed

/-! ### Definitions stay -/

/-- What a desk keeps depends on its shelf and its files only. -/
theorem Desk.Kept.congr (kept : desk.Kept) (shelf : after.shelf = desk.shelf)
    (files : after.files = desk.files) : after.Kept := by
  cases kept with
  | table table distinct => exact .table (shelf.trans table) distinct
  | folder folder proper legible tidy =>
    exact .folder (shelf.trans folder) (files ▸ proper) (files ▸ legible) (files ▸ tidy)

namespace Desk.Matches

variable (matched : Desk.Matches listed desk desk')

include matched

/-- A listed routine is alike at two desks that match. -/
theorem alike (member : identity ∈ listed) : desk.Alike desk' identity :=
  ⟨matched.reads identity member, matched.outage⟩

/-- Desks that match have given the same last number. -/
theorem lastRecord : desk'.ledger.lastRecord = desk.ledger.lastRecord := by
  have same := congrArg Ledger.lastRecord matched.ledgers
  exact same

/-- Nothing is written, and the same is noted at both desks. -/
theorem withLedgers {first second : Ledger} (orderly : first.Orderly) (orderly' : second.Orderly)
    (ledgers : second.timeless = first.timeless) (accounts : first.Accounts listed) :
    Desk.Matches listed { desk with ledger := first } { desk' with ledger := second } := by
  obtain ⟨noting, noting', outage, kept, kept', names, names', reads, plain, _, _⟩ := matched
  exact ⟨⟨orderly, noting.backups, noting.updates⟩, ⟨orderly', noting'.backups, noting'.updates⟩,
    outage, kept.congr rfl rfl, kept'.congr rfl rfl, names, names', reads, plain, ledgers, accounts⟩

/-- Desks match whatever is in their logs. -/
theorem logged (lines lines' : List LogLine) :
    Desk.Matches listed (desk.logged lines) (desk'.logged lines') := by
  obtain ⟨noting, noting', outage, kept, kept', names, names', reads, plain, ledgers, accounts⟩ :=
    matched
  exact ⟨noting.logged lines, noting'.logged lines', outage, kept.congr rfl rfl,
    kept'.congr rfl rfl, names, names', reads, plain, ledgers, accounts⟩

/-- Desks match whatever their clocks say. No part of the match reads the clock, so each is kept
as it is. -/
theorem atTimes (now now' : Stamp) :
    Desk.Matches listed { desk with now } { desk' with now := now' } := by
  obtain ⟨noting, noting', outage, kept, kept', names, names', reads, plain, ledgers, accounts⟩ :=
    matched
  exact ⟨⟨noting.orderly, noting.backups, noting.updates⟩,
    ⟨noting'.orderly, noting'.backups, noting'.updates⟩, outage, kept.congr rfl rfl,
    kept'.congr rfl rfl, names, names', reads, plain, ledgers, accounts⟩

/-- The same text is written at both desks, each at its own place, and all other routines stay as
alike as they were. -/
theorem withText (member : identity ∈ listed) (plain : '\r' ∉ text) :
    Desk.Matches listed (desk.withText identity text) (desk'.withText identity text) := by
  have reworded := matched.kept.reworded (matched.names ▸ member) plain
  have reworded' := matched.kept'.reworded (matched.names' ▸ member) plain
  refine ⟨⟨matched.noting.orderly, matched.noting.backups, matched.noting.updates⟩,
    ⟨matched.noting'.orderly, matched.noting'.backups, matched.noting'.updates⟩, matched.outage,
    reworded.kept, reworded'.kept, reworded.names.trans matched.names,
    reworded'.names.trans matched.names', ?_, ?_, matched.ledgers, matched.accounts⟩
  · intro other memberOther
    by_cases same : other = identity
    · rw [same, reworded'.reads, reworded.reads]
    · rw [reworded'.others other (matched.names' ▸ memberOther) same,
        reworded.others other (matched.names ▸ memberOther) same, matched.reads other memberOther]
  · intro other memberOther found read
    by_cases same : other = identity
    · rw [same, reworded.reads] at read
      exact Except.ok.inj read ▸ plain
    · rw [reworded.others other (matched.names ▸ memberOther) same] at read
      exact matched.plain other memberOther found read

end Desk.Matches

/-! ### Changes -/

/-- What a change notes is the text that was read. -/
theorem Desk.draft?_eq_some {draft : Draft} (drafted : desk.draft? manner identity = some draft) :
    draft.identity = identity ∧ desk.read identity = .ok draft.before := by
  simp only [Desk.draft?, Option.ite_none_right_eq_some, Option.map_eq_some_iff] at drafted
  obtain ⟨_, report, renewal, rfl⟩ := drafted
  obtain ⟨text, read, rfl, _⟩ := Desk.renewal?_eq_some renewal
  exact ⟨rfl, read⟩

/-- What is written is the renewal of the text that was read. -/
theorem Desk.newText?_eq_some (new : desk.newText? manner identity = some text) :
    ∃ before, desk.read identity = .ok before ∧ text = (renew manner.rules before).text := by
  simp only [Desk.newText?, Option.ite_none_right_eq_some, Option.map_eq_some_iff] at new
  obtain ⟨_, report, renewal, rfl⟩ := new
  obtain ⟨before, read, rfl, _⟩ := Desk.renewal?_eq_some renewal
  exact ⟨before, read, rfl⟩

/-- A change enters no text but the one that it has read, of a listed routine and without a
carriage return. All other records are the old ones. -/
theorem Ledger.Accounts.changed (accounts : desk.ledger.Accounts listed) (member : identity ∈ listed)
    (plain : ∀ text, desk.read identity = .ok text → '\r' ∉ text) (manner : Manner) :
    (desk.changed manner identity).ledger.Accounts listed := by
  intro record noted
  rw [Desk.changed_ledger, Ledger.enterAll_eq, List.mem_append] at noted
  rcases noted with old | new
  · exact accounts record old
  · cases drafted : desk.draft? manner identity with
    | none => simp [drafted, Draft.records] at new
    | some draft =>
      obtain ⟨owner, read⟩ := Desk.draft?_eq_some drafted
      simp only [drafted, Option.toList_some, Draft.records, List.mem_singleton] at new
      subst new
      constructor
      · rw [Draft.record, owner]
        exact member
      · exact plain draft.before read

namespace Desk.Matches

variable (matched : Desk.Matches listed desk desk')

include matched

/-- A listed routine has the same outcome at two desks that match: its text, the flags and the
number of its backup are the same. -/
theorem outcome_eq (member : identity ∈ listed) (manner : Manner) :
    desk'.outcome manner identity = desk.outcome manner identity := by
  have alike := matched.alike member
  rw [Desk.outcome, Desk.outcome, Desk.answer, Desk.answer, alike.verdict, Desk.number?, Desk.number?,
    alike.draft?, matched.lastRecord]

variable (builtin : ∀ rule ∈ manner.rules, rule ∈ builtinRules)

include builtin

/-- The same change is made at both desks. What it reads, renews and enters is the same, and a
carriage return in the new text would come from the old one. -/
theorem changed (member : identity ∈ listed) :
    Desk.Matches listed (desk.changed manner identity) (desk'.changed manner identity) := by
  have alike := matched.alike member
  have ledgers : (desk'.changed manner identity).ledger.timeless =
      (desk.changed manner identity).ledger.timeless := by
    rw [Desk.changed_ledger, Desk.changed_ledger, alike.draft?, Ledger.enterAll_timeless,
      Ledger.enterAll_timeless, matched.ledgers]
  have noted := matched.withLedgers (matched.noting.changed manner identity).orderly
    (matched.noting'.changed manner identity).orderly ledgers
    (matched.accounts.changed member (matched.plain identity member) manner)
  simp only [Desk.changed, alike.newText?] at noted ⊢
  cases new : desk.newText? manner identity with
  | none => exact noted
  | some text =>
    obtain ⟨before, read, rfl⟩ := Desk.newText?_eq_some new
    -- A carriage return in the new text would come from the old one.
    have plain : '\r' ∉ (renew manner.rules before).text := by
      intro returns
      exact matched.plain identity member before read (renew_return builtin returns)
    exact noted.withText member plain

/-- A batch of listed routines has the same results at both desks, and leaves them matching. The
induction is over the routines. -/
theorem changedAll {identities : List Identity}
    (members : ∀ identity ∈ identities, identity ∈ listed) :
    desk'.outcomes manner identities = desk.outcomes manner identities ∧
      Desk.Matches listed (desk.changedAll manner identities)
        (desk'.changedAll manner identities) := by
  induction identities generalizing desk desk' with
  | nil => exact ⟨rfl, matched⟩
  | cons identity rest inductionHypothesis =>
    have member := members identity List.mem_cons_self
    obtain ⟨outcomes, later⟩ := inductionHypothesis (matched.changed builtin member)
      fun other memberOther => members other (List.mem_cons_of_mem _ memberOther)
    rw [Desk.outcomes, Desk.outcomes, matched.outcome_eq member, outcomes]
    exact ⟨rfl, later⟩

end Desk.Matches

end SqlRenewal
