import SqlRenewal.Renewal.Report
import SqlRenewal.Proofs.Renewal.Pass
import SqlRenewal.Proofs.Substitution.Settled

/-!
# The characters of a renewed text

A renewal brings few characters of its own into a text: those around a message, those of
the default message, and those that the rules put. Every other one was there before. In
particular no carriage return comes into a text.
-/
namespace SqlRenewal

/-- The characters that a renewal can bring into a text. -/
def ownForms : List Char :=
  frameForms ++ defaultMessage ++ putForms

/-- The message of a statement is taken from it, or the default: it is one of the arguments, which
are pieces of the statement. -/
theorem Statement.message_mem {layout : Layout} {arguments statement : Text} {reading : Reading}
    (stated : Statement layout arguments statement reading) :
    ∀ c ∈ reading.message, c ∈ statement ∨ c ∈ defaultMessage := by
  intro c member
  cases stated with
  | parenthesized spelled blank balanced read =>
    cases readArguments_message read.2 with
    | inl default => exact .inr (default ▸ member)
    | inr listed =>
      obtain ⟨piece, cut, same⟩ := List.mem_map.mp listed
      obtain ⟨front, rest, rfl, _⟩ := argumentPieces_between cut
      obtain ⟨left, right, whole, _⟩ := Text.trimWhile_append isBlank piece
      have inside : c ∈ piece := by
        rw [whole, ← Text.trim, same]
        simp [member]
      exact .inl (by simp [inside])
  | bare spelled some inline blank lacking read =>
    rw [(readBare_eq_ok read).1] at member
    exact .inl (by simp [member])

/-- A character of a rendered statement comes from the old statement, or is one that every
rendering may use. -/
theorem Statement.render_mem {layout : Layout} {arguments statement : Text} {reading : Reading}
    (stated : Statement layout arguments statement reading) :
    ∀ c ∈ reading.render, c ∈ statement ∨ c ∈ ownForms := by
  intro c member
  rw [reading.render_eq, List.mem_append, List.mem_append] at member
  have framed (form : c ∈ frameForms) : c ∈ ownForms := by simp [ownForms, form]
  obtain (inFront | inside) | behind := member
  · exact .inr (framed (reading.opening_mem c inFront))
  · cases stated.message_mem c inside with
    | inl taken => exact .inl taken
    | inr default => exact .inr (by simp [ownForms, default])
  · exact .inr (framed (reading.closing_mem c behind))

/-- The statement pass writes its own characters and those of the text. What is kept is from the
text, and a rendering has its own words and the arguments of the statement; the induction is on
the pass. -/
theorem Pass.mem {before : Option Char} {text text' : Text} (pass : Pass before text text') :
    ∀ c ∈ text', c ∈ text ∨ c ∈ ownForms := by
  induction pass with
  | absent => exact fun c member => .inl member
  | @left before kept rest rest' leaves later inductionHypothesis =>
    intro c member
    cases List.mem_append.mp member with
    | inl inKept => exact .inl (List.mem_append_left _ inKept)
    | inr behind => exact (inductionHypothesis c behind).imp_left (List.mem_append_right _)
  | @replaced before layout arguments front statement rest rest' reading lacking opened stated
      later inductionHypothesis =>
    intro c member
    rw [List.mem_append, List.mem_append] at member
    obtain (inFront | written) | behind := member
    · exact .inl (by simp [inFront])
    · exact (stated.render_mem c written).imp_left fun taken => by simp [taken]
    · exact (inductionHypothesis c behind).imp_left (List.mem_append_right _)

/-- A rule puts its own characters and keeps those of the text. A character that is never put
cannot become more, so one that is there now was there before. -/
theorem Rule.apply_mem {rule : Rule} (builtin : BuiltinPattern true rule.pattern) (text : Text) :
    ∀ c ∈ rule.apply text, c ∈ text ∨ c ∈ ownForms := by
  intro c member
  by_cases put : c ∈ putForms
  · exact .inr (by simp [ownForms, put])
  · have never : ∀ d ∈ putForms, (d == c) = false := by
      intro d listed
      simpa using fun same : d = c => put (same ▸ listed)
    have fewer := (Rule.apply_renewed builtin text).countP_le Swap.mono never
    have once : 0 < (rule.apply text).countP (· == c) :=
      List.countP_pos_iff.mpr ⟨c, member, beq_self_eq_true c⟩
    obtain ⟨d, inText, same⟩ := List.countP_pos_iff.mp (Nat.lt_of_lt_of_le once fewer)
    exact .inl (eq_of_beq same ▸ inText)

/-- A renewal with built-in rules writes its own characters and those of the text: the statement
pass does, and each application of a rule keeps this. -/
theorem renew_mem {rules : List Rule} (builtin : ∀ rule ∈ rules, rule ∈ builtinRules) (text : Text) :
    ∀ c ∈ (renew rules text).text, c ∈ text ∨ c ∈ ownForms := by
  have step : ∀ rule ∈ rules, ∀ middle, (∀ c ∈ middle, c ∈ text ∨ c ∈ ownForms) →
      ∀ c ∈ rule.apply middle, c ∈ text ∨ c ∈ ownForms := by
    intro rule listed middle known c member
    have pattern := builtinRules_pattern rule (builtin rule listed)
    cases rule.apply_mem pattern middle c member with
    | inl kept => exact known c kept
    | inr own => exact .inr own
  exact applyRules_induct step _ (reviseFrom_pass none 0 text).mem

/-- A carriage return in a renewed text was in the old one, because no rule and no rendering puts
one. -/
theorem renew_return {rules : List Rule} (builtin : ∀ rule ∈ rules, rule ∈ builtinRules)
    {text : Text} (returns : '\r' ∈ (renew rules text).text) : '\r' ∈ text := by
  cases renew_mem builtin text _ returns with
  | inl kept => exact kept
  | inr own => exact absurd own (by decide)

end SqlRenewal
