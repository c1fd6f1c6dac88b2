import SqlRenewal.Renewal.Report
import SqlRenewal.Proofs.Renewal.Pass

/-!
# The edits as a script

The report of a renewal lists the edits of the statement pass, each with its place
in the text that the pass returns. While the pass runs, that text is still growing,
so a place is final only because the pass never goes back behind what it has
written.

`EditScript` relates the text before the pass, the text after it and the edits. By
induction over it the edits stand apart and in order, each replacement stands where
its edit says, putting the statements back restores the text, and every keyword that
is left lies in a part that was skipped.
-/
namespace SqlRenewal

/-! ### Places of edits -/

/-- Where an edit begins in the text that the pass returns. -/
def Edit.start : Edit → Nat
  | .replaced replacement => replacement.position
  | .skipped skip => skip.position

/-- Where an edit ends in the text that the pass returns. -/
def Edit.stop : Edit → Nat
  | .replaced replacement => replacement.position + replacement.after.length
  | .skipped skip => skip.resume

/-- The text with a replaced statement back in the place of its replacement. -/
def Edit.undo : Edit → Text → Text
  | .replaced replacement, text =>
    text.take replacement.position ++ replacement.before ++
      text.drop (replacement.position + replacement.after.length)
  | .skipped _, text => text

/-! ### The script -/

/-- The edits make the second text of the first one. So many characters have been
written already, and `before` is the last of them. -/
inductive EditScript : Option Char → Nat → Text → Text → List Edit → Prop where
  | done {before : Option Char} {position : Nat} {text : Text}
      (lacking : Lacks raiseWord before text []) : EditScript before position text text []
  | skipped {before : Option Char} {position : Nat} {front occurrence rest rest' : Text}
      {skip : Skip} {edits : List Edit}
      (lacking : Lacks raiseWord before front (occurrence ++ rest))
      (opened : endsWord (lastOf before front) = true)
      (seam : Seam before (front ++ occurrence) rest)
      (starts : skip.position = position + front.length)
      (stops : skip.resume = position + (front ++ occurrence).length)
      (later : EditScript (lastOf before (front ++ occurrence))
        (position + (front ++ occurrence).length) rest rest' edits) :
      EditScript before position (front ++ occurrence ++ rest) (front ++ occurrence ++ rest')
        (.skipped skip :: edits)
  | replaced {before : Option Char} {position : Nat} {layout : Layout} {arguments front rest rest' : Text}
      {reading : Reading} {replacement : Replacement} {edits : List Edit}
      (lacking : Lacks raiseWord before front (replacement.before ++ rest))
      (opened : endsWord (lastOf before front) = true)
      (stated : Statement layout arguments replacement.before reading)
      (seam : Seam before (front ++ replacement.before) rest)
      (written : replacement.after = reading.render)
      (starts : replacement.position = position + front.length)
      (later : EditScript (lastOf before replacement.after)
        (position + (front ++ replacement.after).length) rest rest' edits) :
      EditScript before position (front ++ replacement.before ++ rest)
        (front ++ replacement.after ++ rest') (.replaced replacement :: edits)

/-- Where a sighting begins. -/
def Sighting.start? : Sighting → Option Nat
  | .found span => some span.start
  | .skipped skip => some skip.position
  | .absent => none

/-- Every sighting at a keyword starts at that keyword. -/
theorem sightAt_start? (position : Nat) (after : Text) :
    (sightAt position after).start? = some position := by
  unfold sightAt sightParenthesized sightBare
  dsimp only
  repeat' split
  all_goals rfl

/-- Whatever stays begins with the next keyword, since nothing before it is looked at. -/
theorem settle_leave_position {before : Option Char} {text : Text} {skip : Skip}
    (decided : settle (sight before text) = .leave skip) :
    firstRaise? before text = some skip.position := by
  have begun : (sight before text).start? = firstRaise? before text := by
    unfold sight
    cases firstRaise? before text with
    | none => rfl
    | some position => exact sightAt_start? position _
  rw [← begun]
  cases seen : sight before text with
  | absent => simp [seen, settle] at decided
  | skipped other =>
    simp only [seen, settle, Decision.leave.injEq] at decided
    rw [decided]
    rfl
  | found span =>
    simp only [seen, settle] at decided
    split at decided
    · cases decided
      rfl
    · cases decided

/-- An occurrence that stays, with the parts of the text around it. -/
structure Skip.Bounds (skip : Skip) (before : Option Char) (front occurrence rest : Text) : Prop where
  lacking : Lacks raiseWord before front (occurrence ++ rest)
  opened : endsWord (lastOf before front) = true
  seam : Seam before (front ++ occurrence) rest
  starts : skip.position = front.length
  stops : skip.resume = (front ++ occurrence).length

/-- A part that stays ends where nothing joins it: at its end, or in front of the trailer
of its line. -/
theorem settle_leave_seam {before : Option Char} {text : Text} {skip : Skip}
    (decided : settle (sight before text) = .leave skip) :
    Seam before (text.take skip.resume) (text.drop skip.resume) := by
  rcases settle_cases before text with lacking | ⟨kept, rest, rfl, leaves⟩ |
    ⟨span, reading, front, statement, rest, replaced, rfl, replaces⟩
  · rw [sight_of_lacks lacking] at decided
    cases decided
  · obtain ⟨other, front, trailer, left, rfl, resume, trailing⟩ := leaves.settled
    obtain rfl : other = skip := by
      rw [decided] at left
      exact (Decision.leave.inj left).symm
    rw [resume, List.append_assoc, List.take_left, List.drop_left]
    cases trailer with
    | nil => simpa using leaves.seam
    | cons c trailer => exact .inr (trailer_outside_words (trailing c (by simp))).1
  · rw [decided] at replaced
    cases replaced

/-- A statement that is left alone lies in the text between what is before it and where the scan
goes on. -/
theorem settle_leave_bounds {before : Option Char} {text : Text} {skip : Skip}
    (decided : settle (sight before text) = .leave skip) :
    ∃ front occurrence rest, text = front ++ occurrence ++ rest ∧
      skip.Bounds before front occurrence rest := by
  have inside := settle_leave_le decided
  have seam := settle_leave_seam decided
  obtain ⟨front, behind, rfl, length, lacking, starts⟩ :=
    firstRaise?_eq_some_iff.mp (settle_leave_position decided)
  have room := skip.position_lt_resume
  -- The part that stays goes from the end of `front` to the place where the pass resumes.
  obtain ⟨size, reach⟩ : ∃ size, skip.resume = front.length + size :=
    ⟨skip.resume - front.length, by omega⟩
  have split : behind.take size ++ behind.drop size = behind := List.take_append_drop size behind
  have bounded : size ≤ behind.length := by
    rw [List.length_append] at inside
    omega
  refine ⟨front, behind.take size, behind.drop size, by simp [split], ?_⟩
  refine ⟨by rwa [split], (startsWord_iff.mp starts).1, ?_, length.symm, ?_⟩
  · rw [reach, List.take_length_add_append, List.drop_length_add_append] at seam
    exact seam
  · simp [reach, bounded]

/-- The pass is what its script describes: every step of it is a step of the script, with the text
that is kept in front, and the edit that is made. -/
theorem reviseFrom_script (before : Option Char) (position : Nat) (text : Text) :
    EditScript before position text (reviseFrom before position text).text
      (reviseFrom before position text).edits := by
  -- Strong induction on the length: the pass goes on with a shorter text.
  induction size : text.length using Nat.strongRecOn generalizing before position text with
  | ind n inductionHypothesis =>
    rcases settle_cases before text with lacking | ⟨kept, behind, same, leaves⟩ |
      ⟨span, reading, front, statement, rest, decided, rfl, replaces⟩
    · rw [reviseFrom_done lacking]
      exact .done lacking
    · obtain ⟨skip, _, _, decided, _⟩ := leaves.settled
      rw [← same] at decided
      obtain ⟨front, occurrence, rest, rfl, bounds⟩ := settle_leave_bounds decided
      have shorter : rest.length < n := by
        have moved := skip.position_lt_resume
        rw [bounds.stops, bounds.starts] at moved
        simp only [List.length_append] at size moved
        omega
      rw [reviseFrom_leave decided, bounds.stops, List.take_left, List.drop_left]
      refine .skipped bounds.lacking bounds.opened bounds.seam ?_ ?_
        (inductionHypothesis _ shorter _ _ _ rfl)
      · simp [Skip.shift, bounds.starts]
      · simp [Skip.shift, bounds.stops]
    · have shorter : rest.length < n := by
        have := List.length_pos_iff.mpr replaces.stated.ne_nil
        simp only [List.length_append] at size
        omega
      have place : position + front.length + reading.render.length =
          position + (front ++ reading.render).length := by simp [Nat.add_assoc]
      let replacement : Replacement :=
        { position := position + front.length
          form := span.layout.form
          before := statement
          after := reading.render
          code := reading.code
          severity := reading.severity
          flags := readingFlags span reading rest }
      have edited : EditScript before position (front ++ replacement.before ++ rest) _ _ :=
        .replaced replaces.lacking replaces.opened replaces.stated replaces.seam rfl rfl
          (inductionHypothesis _ shorter _ _ _ rfl)
      rw [reviseFrom_replaced decided replaces, place]
      exact edited

/-! ### What the script says -/

variable {before : Option Char} {position : Nat} {text text' : Text} {edits : List Edit}

/-- Edits stand where the pass still has to write: each step goes on behind the edit that it made,
so no later edit comes before it. -/
theorem EditScript.within (script : EditScript before position text text' edits) :
    ∀ edit ∈ edits, position ≤ edit.start ∧ edit.start < edit.stop ∧
      edit.stop ≤ position + text'.length := by
  induction script with
  | done => simp
  | skipped lacking opened seam starts stops later inductionHypothesis =>
    intro edit member
    simp only [List.length_append] at *
    cases member with
    | head =>
      refine ⟨?_, Skip.position_lt_resume _, ?_⟩ <;> simp only [Edit.start, Edit.stop] <;> omega
    | tail _ member =>
      have bounds := inductionHypothesis edit member
      omega
  | @replaced _ _ _ _ _ _ _ reading replacement _ lacking opened stated seam written starts later
      inductionHypothesis =>
    intro edit member
    have room : 0 < replacement.after.length := by simp [written, Reading.render]
    simp only [List.length_append] at *
    cases member with
    | head =>
      simp only [Edit.start, Edit.stop]
      omega
    | tail _ member =>
      have bounds := inductionHypothesis edit member
      omega

/-- Each edit ends before the next one begins, because the later part of the script lies behind
what the edit has written. The induction goes along the script. -/
theorem EditScript.increasing (script : EditScript before position text text' edits) :
    edits.Pairwise fun earlier later => earlier.stop ≤ later.start := by
  induction script with
  | done => exact .nil
  | skipped lacking opened seam starts stops later inductionHypothesis =>
    refine .cons ?_ inductionHypothesis
    intro edit member
    rw [Edit.stop, stops]
    exact (later.within edit member).1
  | replaced lacking opened stated seam written starts later inductionHypothesis =>
    refine .cons ?_ inductionHypothesis
    intro edit member
    have bound := (later.within edit member).1
    rw [List.length_append] at bound
    rw [Edit.stop, starts]
    omega

/-- A replacement stands in the text where its edit says. Everything before it has been written
when the edit is made, and nothing of that is written again. -/
theorem EditScript.written (script : EditScript before position text text' edits) (done : Text)
    (length : done.length = position) {replacement : Replacement}
    (member : .replaced replacement ∈ edits) :
    ((done ++ text').drop replacement.position).take replacement.after.length =
      replacement.after := by
  induction script generalizing done with
  | done => cases member
  | @skipped _ _ front occurrence _ rest' _ _ lacking opened seam starts stops later
      inductionHypothesis =>
    cases member with
    | tail _ member =>
      have further := inductionHypothesis (done ++ (front ++ occurrence))
        (by simp [length]) member
      simpa using further
  | @replaced _ _ _ _ front _ rest' _ current _ lacking opened stated seam written starts later
      inductionHypothesis =>
    cases member with
    | head =>
      have placed : done ++ (front ++ replacement.after ++ rest') =
          (done ++ front) ++ (replacement.after ++ rest') := by simp
      rw [placed, starts, ← length, ← List.length_append, List.drop_left, List.take_left]
    | tail _ member =>
      have further := inductionHypothesis (done ++ (front ++ current.after))
        (by simp [length]) member
      simpa using further

/-- Putting the statements back, the last one first, restores the text: behind an edit the text is
the old one by then, and in front of it nothing was touched. -/
theorem EditScript.undone (script : EditScript before position text text' edits) (done : Text)
    (length : done.length = position) : edits.foldr Edit.undo (done ++ text') = done ++ text := by
  induction script generalizing done with
  | done => rfl
  | @skipped _ _ front occurrence _ _ _ _ lacking opened seam starts stops later
      inductionHypothesis =>
    have further := inductionHypothesis (done ++ (front ++ occurrence)) (by simp [length])
    simpa [Edit.undo] using further
  | @replaced _ _ _ _ front rest rest' _ replacement edits lacking opened stated seam written starts
      later inductionHypothesis =>
    have further := inductionHypothesis (done ++ (front ++ replacement.after))
      (by simp [length])
    have place : replacement.position = (done ++ front).length := by simp [starts, length]
    calc List.foldr Edit.undo (done ++ (front ++ replacement.after ++ rest'))
          (.replaced replacement :: edits)
        = Edit.undo (.replaced replacement)
            ((done ++ front) ++ (replacement.after ++ rest)) := by
          rw [List.foldr_cons, ← List.append_assoc, further]
          simp only [List.append_assoc]
      _ = (done ++ front) ++ replacement.before ++ rest := by
          rw [Edit.undo, place, List.take_left, List.drop_length_add_append, List.drop_left]
      _ = done ++ (front ++ replacement.before ++ rest) := by simp only [List.append_assoc]

/-- Of two ways to cut a text, the later cut goes beyond the earlier one. -/
theorem split_of_length_le {first second third fourth : Text} (same : first ++ second = third ++ fourth)
    (shorter : first.length ≤ third.length) :
    ∃ more, third = first ++ more ∧ second = more ++ fourth := by
  obtain ⟨more, rfl⟩ : first <+: third :=
    List.prefix_of_prefix_length_le (List.prefix_append first second)
      (same ▸ List.prefix_append third fourth) shorter
  refine ⟨more, rfl, ?_⟩
  rw [List.append_assoc] at same
  exact List.append_cancel_left same

/-- A keyword that is left in the text begins in a part that was skipped. What is kept between
edits has none, and neither has a replacement. -/
theorem EditScript.covered (script : EditScript before position text text' edits)
    {front rest : Text} (same : text' = front ++ rest)
    (starts : startsRaise (lastOf before front) rest = true) :
    ∃ skip, .skipped skip ∈ edits ∧ skip.position ≤ position + front.length ∧
      position + front.length < skip.resume := by
  induction script generalizing front with
  | @done before _ text lacking =>
    obtain ⟨more, _, none⟩ := lacking.before_start (by rw [List.append_nil, same]) starts
    obtain ⟨rfl, rfl⟩ := List.nil_eq_append_iff.mp none
    simp [startsRaise, dropWord?, dropKeyword?, raiseWord] at starts
  | @skipped before position part occurrence _ rest' skip _ lacking opened seam placed stops later
      inductionHypothesis =>
    rw [List.append_assoc] at same
    have free : Lacks raiseWord before part (occurrence ++ rest') :=
      lacks_change_rest raiseWord_known lacking opened _
    obtain ⟨more, rfl, behind⟩ := free.before_start same starts
    by_cases inside : more.length < occurrence.length
    · refine ⟨skip, by simp, ?_, ?_⟩
      · simp only [placed, List.length_append]
        omega
      · simp only [stops, List.length_append]
        omega
    · obtain ⟨further, rfl, split⟩ := split_of_length_le behind (by omega)
      obtain ⟨other, member, bounds⟩ := inductionHypothesis split (by simpa [lastOf_append] using starts)
      refine ⟨other, by simp [member], ?_⟩
      simp only [List.length_append] at bounds ⊢
      omega
  | @replaced before position _ _ part _ rest' _ current _ lacking opened stated seam written placed later
      inductionHypothesis =>
    have free : Lacks raiseWord before (part ++ current.after) rest' := by
      rw [lacks_append, written]
      exact ⟨lacks_change_rest raiseWord_known lacking opened _,
        Reading.lacks_render stated.message_lacks _ _⟩
    have some : current.after ≠ [] := by simp [written, Reading.render]
    obtain ⟨more, rfl, split⟩ := free.before_start same starts
    rw [lastOf_append, lastOf_append, lastOf_of_ne_nil some _ before] at starts
    obtain ⟨other, member, bounds⟩ := inductionHypothesis split starts
    refine ⟨other, by simp [member], ?_⟩
    simp only [List.length_append] at bounds ⊢
    omega

/-! ### The report of a renewal -/

/-- The edits are a faithful script from one text to another. -/
structure FaithfulScript (text text' : Text) (edits : List Edit) : Prop where
  /-- Each edit ends before the next one begins. -/
  increasing : edits.Pairwise fun earlier later => earlier.stop ≤ later.start
  /-- Every edit covers some of the second text, and nothing beyond it. -/
  inside : ∀ edit ∈ edits, edit.start < edit.stop ∧ edit.stop ≤ text'.length
  /-- A replacement stands in the second text where its edit says. -/
  written : ∀ replacement, .replaced replacement ∈ edits →
    (text'.drop replacement.position).take replacement.after.length = replacement.after
  /-- Putting the statements back, the last one first, gives the first text. -/
  undone : edits.foldr Edit.undo text' = text
  /-- A keyword of the second text begins in a part that was skipped. -/
  covered : ∀ front rest, text' = front ++ rest → startsRaise front.getLast? rest = true →
    ∃ skip, .skipped skip ∈ edits ∧ skip.position ≤ front.length ∧ front.length < skip.resume

/-- The edits that a report lists lead from the text to what the statement pass made of it,
whatever rules are applied afterwards. The pass is its script, and what is claimed is read off the
script by induction. -/
theorem renew_edits_faithful (rules : List Rule) (text : Text) :
    FaithfulScript text (revise text).text (renew rules text).edits := by
  have script : EditScript none 0 text (revise text).text (renew rules text).edits :=
    reviseFrom_script none 0 text
  refine ⟨script.increasing, ?_, ?_, ?_, ?_⟩
  · intro edit member
    have bounds := script.within edit member
    omega
  · intro replacement member
    exact script.written [] rfl member
  · exact script.undone [] rfl
  · intro front rest same starts
    have last : lastOf none front = front.getLast? := Option.or_none
    obtain ⟨skip, member, bounds⟩ := script.covered same (last ▸ starts)
    exact ⟨skip, member, by omega⟩

end SqlRenewal
