import Mathlib.Data.List.Infix
import SqlRenewal.CommandLine.Command

/-!
# Switches that are not given

A switch changes the options only if an argument of the command line spells its name, or
shortens it. So a command commits only if it is told to, or takes a change back, and it
removes records only if that is confirmed.
-/
namespace SqlRenewal

/-- The argument is the name of a long switch, or begins it. -/
def Abbreviates (argument name : Text) : Prop :=
  argument <+: name ∧ 2 < argument.length

variable {σ : Type} {property : σ → Prop}

/-- Two computations succeed in a row if the first does, and the second with its value. -/
theorem bind_eq_ok {ε α β : Type} {first : Except ε α} {next : α → Except ε β} {result : β} :
    first >>= next = .ok result ↔ ∃ value, first = .ok value ∧ next value = .ok result := by
  cases first <;> simp [bind, Except.bind]

/-- Errors that are put in other words leave a success as it is, and make none. -/
theorem mapError_eq_ok {ε δ α : Type} {result : Except ε α} {change : ε → δ} {value : α} :
    result.mapError change = .ok value ↔ result = .ok value := by
  cases result <;> simp [Except.mapError]

/-! ### Taking switches -/

/-- Whatever its value, the switch keeps a property of the options. -/
def Switch.Keeps (property : σ → Prop) (switch : Switch σ) : Prop :=
  match switch.effect with
  | .help => True
  | .flag set => ∀ options, property options → property (set options)
  | .value set => ∀ value options, property options → property (set value options)
  | .number set => ∀ value options, property options → property (set value options)

/-- The switch that stands last in an argument. -/
def Ending.switch : Ending σ → Switch σ
  | .valued switch _ => switch
  | .plain switch => switch

namespace Progression

variable {switches : List (Switch σ)} {expectsCommand : Bool} {state result : Progression σ}

/-- A switch that keeps a property does so for the value that it is given: what it sets is one of
the changes that keep it. -/
theorem change_keeps {switch : Switch σ} {value : Option Text} {set : σ → σ} {options : σ}
    (changed : change switch value = .ok set) (keeps : switch.Keeps property)
    (holds : property options) : property (set options) := by
  rw [change] at changed
  rw [Switch.Keeps] at keeps
  cases effect : switch.effect with
  | help =>
    rw [effect] at changed
    cases changed
    exact holds
  | flag change =>
    rw [effect] at changed keeps
    cases changed
    exact keeps options holds
  | value change =>
    rw [effect] at changed keeps
    cases changed
    exact keeps value options holds
  | number change =>
    rw [effect] at changed keeps
    simp only at changed
    split at changed
    · cases changed
      exact keeps none options holds
    · split at changed
      · cases changed
        exact keeps _ options holds
      · cases changed

/-- A switch that was taken has changed the options as it says, and the command is as it was. -/
theorem take_eq_ok {switch : Switch σ} {value : Option Text}
    (taken : state.take switch value = .ok result) :
    result.command = state.command ∧
      ∃ set, change switch value = .ok set ∧ result.options = set state.options := by
  obtain ⟨set, changed, taken⟩ := bind_eq_ok.mp taken
  split at taken
  · cases taken
  · split at taken
    · cases taken
    · cases taken
      exact ⟨rfl, set, mapError_eq_ok.mp changed, rfl⟩

/-- A taken switch keeps a property of the options if the switch itself does. -/
theorem take_keeps {switch : Switch σ} {value : Option Text}
    (taken : state.take switch value = .ok result) (keeps : switch.Keeps property)
    (holds : property state.options) : property result.options := by
  obtain ⟨_, set, changed, options⟩ := take_eq_ok taken
  rw [options]
  exact change_keeps changed keeps holds

/-- Some switches of an argument take effect, the last of them with that value. -/
def takeCluster (state : Progression σ) (cluster : Cluster σ) (value : Option Text) :
    Except Stop (Progression σ) := do
  (← state.takeAll cluster.flags).take cluster.ending.switch value

/-- Several flags together leave the command as it was, because each of them changes options only.
The induction is over the flags. -/
theorem takeAll_command {flags : List (Switch σ)} (taken : state.takeAll flags = .ok result) :
    result.command = state.command := by
  induction flags generalizing state with
  | nil =>
    cases taken
    rfl
  | cons flag rest inductionHypothesis =>
    rw [takeAll, List.foldlM_cons] at taken
    obtain ⟨middle, first, later⟩ := bind_eq_ok.mp taken
    rw [inductionHypothesis later, (take_eq_ok first).1]

/-- Several flags keep a property if each of them does. The induction is over the flags: each
starts from options that have the property. -/
theorem takeAll_keeps {flags : List (Switch σ)} (taken : state.takeAll flags = .ok result)
    (keeps : ∀ flag ∈ flags, flag.Keeps property) (holds : property state.options) :
    property result.options := by
  induction flags generalizing state with
  | nil =>
    cases taken
    exact holds
  | cons flag rest inductionHypothesis =>
    rw [takeAll, List.foldlM_cons] at taken
    rw [List.forall_mem_cons] at keeps
    obtain ⟨middle, first, later⟩ := bind_eq_ok.mp taken
    exact inductionHypothesis later keeps.2 (take_keeps first keeps.1 holds)

/-- A cluster of flags with the switch that ends it leaves the command as it was. -/
theorem takeCluster_command {cluster : Cluster σ} {value : Option Text}
    (taken : state.takeCluster cluster value = .ok result) : result.command = state.command := by
  obtain ⟨middle, flags, ending⟩ := bind_eq_ok.mp taken
  rw [(take_eq_ok ending).1, takeAll_command flags]

/-- A cluster keeps a property if its flags do and the switch that ends it does. -/
theorem takeCluster_keeps {cluster : Cluster σ} {value : Option Text}
    (taken : state.takeCluster cluster value = .ok result)
    (flags : ∀ flag ∈ cluster.flags, flag.Keeps property)
    (ending : cluster.ending.switch.Keeps property) (holds : property state.options) :
    property result.options := by
  obtain ⟨middle, first, last⟩ := bind_eq_ok.mp taken
  exact take_keeps last ending (takeAll_keeps first flags holds)

/-- One step of reading: the first token ends it with the command, or is left for later, or
its switches take effect. -/
theorem read_cons {token : Token σ} {rest : List (Token σ)}
    (done : read switches expectsCommand state (token :: rest) = .ok result) :
    (∃ name, result = { state with command := some (name, rest.map Token.written) }) ∨
      ∃ next remaining, remaining <:+ rest ∧
        read switches expectsCommand next remaining = .ok result ∧
        ((∃ text, next = state.leave text) ∨
          ∃ switch name attached written cluster value,
            token = .given switch name attached written ∧
              Cluster.ofSwitch switches switch name attached = .ok cluster ∧
              state.takeCluster cluster value = .ok next) := by
  cases token with
  | word text =>
    rw [read] at done
    split at done
    · exact .inl ⟨text, (Except.ok.inj done).symm⟩
    · exact .inr ⟨_, rest, List.suffix_refl rest, done, .inl ⟨text, rfl⟩⟩
  | divider =>
    rw [read] at done
    split at done
    · exact .inl ⟨_, (Except.ok.inj done).symm⟩
    · exact .inr ⟨_, rest, List.suffix_refl rest, done, .inl ⟨_, rfl⟩⟩
  | unknown text =>
    rw [read] at done
    exact .inr ⟨_, rest, List.suffix_refl rest, done, .inl ⟨text, rfl⟩⟩
  | given switch name attached written =>
    rw [read] at done
    obtain ⟨cluster, clustered, done⟩ := bind_eq_ok.mp done
    have holds := mapError_eq_ok.mp clustered
    have takes {middle next : Progression σ} {last : Switch σ} {value : Option Text}
        (flags : state.takeAll cluster.flags = .ok middle) (ending : cluster.ending.switch = last)
        (taken : middle.take last value = .ok next) : state.takeCluster cluster value = .ok next := by
      rw [takeCluster, ending]
      exact bind_eq_ok.mpr ⟨middle, flags, taken⟩
    obtain ⟨next, remaining, value, short, later, taken⟩ : ∃ next remaining value,
        remaining <:+ rest ∧ read switches expectsCommand next remaining = .ok result ∧
          state.takeCluster cluster value = .ok next := by
      split at done
      · rename_i last value ending
        obtain ⟨middle, flags, done⟩ := bind_eq_ok.mp done
        obtain ⟨next, taken, done⟩ := bind_eq_ok.mp done
        exact ⟨next, rest, _, List.suffix_refl rest, done, takes flags (by rw [ending]; rfl) taken⟩
      · rename_i last ending
        split at done
        · split at done
          · rename_i value remaining _
            obtain ⟨middle, flags, done⟩ := bind_eq_ok.mp done
            obtain ⟨next, taken, done⟩ := bind_eq_ok.mp done
            exact ⟨next, remaining, _, List.suffix_cons _ _, done,
              takes flags (by rw [ending]; rfl) taken⟩
          · cases done
        · obtain ⟨middle, flags, done⟩ := bind_eq_ok.mp done
          obtain ⟨next, taken, done⟩ := bind_eq_ok.mp done
          exact ⟨next, rest, _, List.suffix_refl rest, done, takes flags (by rw [ending]; rfl) taken⟩
    exact .inr ⟨next, remaining, short, later,
      .inr ⟨switch, name, attached, written, cluster, value, rfl, holds, taken⟩⟩

end Progression

/-- Whatever switches a token stands for, they keep a property of the options. -/
def Token.Keeps (property : σ → Prop) (switches : List (Switch σ)) (token : Token σ) : Prop :=
  ∀ switch name attached written cluster, token = .given switch name attached written →
    Cluster.ofSwitch switches switch name attached = .ok cluster →
      (∀ flag ∈ cluster.flags, flag.Keeps property) ∧ cluster.ending.switch.Keeps property

namespace Progression

variable {switches : List (Switch σ)} {expectsCommand : Bool} {state result : Progression σ}
  {tokens : List (Token σ)}

/-- What has been read keeps what all its tokens keep. The reader takes one token or two at a
time, so the induction is on how many are left. -/
theorem read_keeps (done : read switches expectsCommand state tokens = .ok result)
    (kept : ∀ token ∈ tokens, token.Keeps property switches) (holds : property state.options) :
    property result.options := by
  induction size : tokens.length using Nat.strongRecOn generalizing state tokens with
  | ind count inductionHypothesis =>
    cases tokens with
    | nil =>
      cases done
      exact holds
    | cons token rest =>
      rw [List.forall_mem_cons] at kept
      obtain ⟨name, rfl⟩ | ⟨next, remaining, short, later, step⟩ := read_cons done
      · exact holds
      · refine inductionHypothesis remaining.length ?_ later
          (fun token member => kept.2 token (short.subset member)) ?_ rfl
        · rw [← size, List.length_cons]
          exact Nat.lt_succ_of_le short.length_le
        · obtain ⟨text, rfl⟩ | ⟨switch, name, attached, written, cluster, value, rfl, clustered, taken⟩ :=
            step
          · exact holds
          · obtain ⟨flags, ending⟩ := kept.1 _ _ _ _ cluster rfl clustered
            exact takeCluster_keeps taken flags ending holds

/-- The arguments of the command are some of the arguments that were read, because the first word
that is no switch ends the general options. The induction is on the tokens that are left. -/
theorem read_command (done : read switches expectsCommand state tokens = .ok result)
    (unread : state.command = none) {name : Text} {arguments : List Text}
    (command : result.command = some (name, arguments)) :
    arguments ⊆ tokens.map Token.written := by
  induction size : tokens.length using Nat.strongRecOn generalizing state tokens with
  | ind count inductionHypothesis =>
    cases tokens with
    | nil =>
      cases done
      rw [unread] at command
      cases command
    | cons token rest =>
      rw [List.map_cons]
      obtain ⟨found, rfl⟩ | ⟨next, remaining, short, later, step⟩ := read_cons done
      · cases command
        exact List.subset_cons_self _ _
      · have arguments : arguments ⊆ remaining.map Token.written := by
          refine inductionHypothesis remaining.length ?_ later ?_ rfl
          · rw [← size, List.length_cons]
            exact Nat.lt_succ_of_le short.length_le
          · obtain ⟨text, rfl⟩ | ⟨_, _, _, _, cluster, value, _, _, taken⟩ := step
            · exact unread
            · rw [takeCluster_command taken, unread]
        exact List.Subset.trans arguments
          (List.Subset.trans (List.map_subset _ short.subset) (List.subset_cons_self _ _))

end Progression

/-! ### Tokens -/

namespace Token

variable {switches : List (Switch σ)}

/-- A switch is given by one of its names. Without a value the argument is that name, or
begins it. -/
structure Names (switches : List (Switch σ)) (text : Text) (switch : Switch σ) (name : Text)
    (attached : Option Text) : Prop where
  known : switch ∈ switches
  named : name ∈ switch.names
  begins : attached = none → text <+: name
  whole : attached = none → text = name ∨ ∃ rest, text = '-' :: '-' :: rest

/-- A text without a value in it is not split: it has no equals sign, so all of it is the
beginning. -/
theorem splitValue_eq_none {text beginning : Text} (split : splitValue text = (beginning, none)) :
    beginning = text := by
  rw [splitValue] at split
  split at split
  · cases split
  · cases split
    rfl

/-- A switch that is found under a name is one of the switches and has that name. -/
theorem named?_eq_some {name : Text} {switch : Switch σ}
    (found : Switch.named? switches name = some switch) : switch ∈ switches ∧ name ∈ switch.names :=
  ⟨List.mem_of_find?_eq_some found, by simpa using List.find?_some found⟩

/-- The names of the switches are listed with the switches that have them. -/
theorem mem_entries {name : Text} {switch : Switch σ} (member : (name, switch) ∈ Switch.entries switches) :
    switch ∈ switches ∧ name ∈ switch.names := by
  simpa [Switch.entries] using member

/-- A token that is spelled out gives a switch under a name that the text names. -/
theorem names_of_spelledOut? {text : Text} {token : Token σ}
    (spelled : spelledOut? switches text = some token) :
    ∃ switch name attached, token = .given switch name attached text ∧
      Names switches text switch name attached := by
  rw [spelledOut?] at spelled
  split at spelled
  · rename_i switch found
    cases spelled
    obtain ⟨known, named⟩ := named?_eq_some found
    exact ⟨switch, text, none, rfl, known, named, fun _ => List.prefix_refl text, fun _ => .inl rfl⟩
  · simp only at spelled
    split at spelled
    · rename_i valued
      obtain ⟨switch, found, rfl⟩ := Option.map_eq_some_iff.mp spelled
      obtain ⟨known, named⟩ := named?_eq_some found
      have attached : (splitValue text).2 ≠ none := Option.isSome_iff_ne_none.mp valued
      exact ⟨switch, _, _, rfl, known, named, fun none => absurd none attached,
        fun none => absurd none attached⟩
    · cases spelled

/-- Every reading of an abbreviated text gives a switch under a name that the text names: the
readings are chosen among the names that begin as the text does. -/
theorem names_of_readings {text : Text} {name : Text} {token : Token σ}
    (member : (name, token) ∈ readings switches text) :
    ∃ switch attached, token = .given switch name attached text ∧
      Names switches text switch name attached := by
  unfold readings at member
  split at member
  · rename_i rest
    obtain ⟨⟨found, switch⟩, inside, same⟩ := List.mem_map.mp member
    cases same
    obtain ⟨entry, begins⟩ := List.mem_filter.mp inside
    obtain ⟨known, named⟩ := mem_entries entry
    refine ⟨switch, _, rfl, known, named, fun unvalued => ?_, fun _ => .inr ⟨rest, rfl⟩⟩
    have beginning := splitValue_eq_none (Prod.ext rfl unvalued)
    rw [← beginning]
    exact List.isPrefixOf_iff_prefix.mp begins
  · rename_i letter value _
    obtain ⟨⟨found, switch⟩, inside, same⟩ := List.mem_map.mp member
    cases same
    obtain ⟨known, named⟩ := mem_entries (List.mem_filter.mp inside).1
    exact ⟨switch, some value, rfl, known, named, nofun, nofun⟩
  · cases member

/-- A text is read as a word, as something unknown, or as a switch that it names; the case split
is that of the reader. -/
theorem ofText_cases {text : Text} {token : Token σ} (read : ofText switches text = .ok token) :
    token = .word text ∨ token = .unknown text ∨
      ∃ switch name attached, token = .given switch name attached text ∧
        Names switches text switch name attached := by
  rw [ofText] at read
  split at read
  · exact .inl (Except.ok.inj read).symm
  · split at read
    · rename_i found spelled
      cases read
      exact .inr (.inr (names_of_spelledOut? spelled))
    · split at read
      · rename_i name found single
        cases read
        obtain ⟨switch, attached, same, names⟩ :=
          names_of_readings (by rw [single]; exact List.mem_singleton_self (name, token))
        exact .inr (.inr ⟨switch, name, attached, same, names⟩)
      · split at read
        · exact .inl (Except.ok.inj read).symm
        · exact .inr (.inl (Except.ok.inj read).symm)
      · cases read

/-- A token is the argument that it was taken from. -/
theorem written_ofText {text : Text} {token : Token σ} (read : ofText switches text = .ok token) :
    token.written = text := by
  obtain rfl | rfl | ⟨_, _, _, rfl, _⟩ := ofText_cases read
  · rfl
  · rfl
  · rfl

/-- Tokens keep the texts from which they were read, in their order. The induction is over the
texts; behind a divider each text is a token as it stands. -/
theorem written_ofTexts {texts : List Text} {tokens : List (Token σ)}
    (read : ofTexts switches texts = .ok tokens) : tokens.map written = texts := by
  induction texts generalizing tokens with
  | nil =>
    cases read
    rfl
  | cons text rest inductionHypothesis =>
    rw [ofTexts] at read
    split at read
    · rename_i divider
      cases read
      simp [written, divider, Function.comp_def]
    · obtain ⟨token, first, read⟩ := bind_eq_ok.mp read
      obtain ⟨later, others, read⟩ := bind_eq_ok.mp read
      cases read
      rw [List.map_cons, written_ofText first, inductionHypothesis others]

end Token

/-! ### A flag that is not given -/

/-- All switches but one flag keep a property of the options, and that flag has one name,
a long one. -/
structure LoneFlag (property : σ → Prop) (flag : Text) (switches : List (Switch σ)) : Prop where
  dashes : flag.take 2 = ['-', '-']
  long : 2 < flag.length
  others : ∀ switch ∈ switches,
    switch.Keeps property ∨ switch.names = [flag] ∧ switch.takesValue = false

namespace LoneFlag

variable {flag : Text} {switches : List (Switch σ)} (lone : LoneFlag property flag switches)

include lone

/-- The flag cannot be given by a letter. A switch under a letter is another one, for the only
name of the flag is longer than a letter with its dash. -/
theorem keeps_letter {letter : Char} {next : Switch σ}
    (found : Switch.named? switches ['-', letter] = some next) : next.Keeps property := by
  obtain ⟨known, named⟩ := Token.named?_eq_some found
  rcases lone.others next known with keeps | ⟨names, _⟩
  · exact keeps
  · rw [names, List.mem_singleton] at named
    have long := lone.long
    rw [← named] at long
    simp at long

omit lone in
/-- A cluster of one switch keeps what that switch keeps. It has no other flags, and the switch is
its ending. -/
theorem single_keeps {switch : Switch σ} {text : Text} {cluster : Cluster σ}
    (own : switch.Keeps property) (made : Cluster.single switch text = .ok cluster) :
    (∀ flag ∈ cluster.flags, flag.Keeps property) ∧ cluster.ending.switch.Keeps property := by
  rw [Cluster.single] at made
  split at made
  · cases made
    exact ⟨nofun, own⟩
  · cases made

/-- Short flags that are written together are single letters, and no letter alone abbreviates the
flag in question; so each of them keeps what it is about. -/
theorem together_keeps {switch : Switch σ} {text : Text} {cluster : Cluster σ}
    (own : switch.Keeps property) (made : Cluster.together switches switch text = .ok cluster) :
    (∀ flag ∈ cluster.flags, flag.Keeps property) ∧ cluster.ending.switch.Keeps property := by
  fun_induction Cluster.together switches switch text generalizing cluster with
  | case1 switch => exact single_keeps own made
  | case2 switch letter rest =>
    cases made
    exact ⟨nofun, own⟩
  | case3 => cases made
  | case4 switch letter rest _ next found =>
    cases made
    exact ⟨by simpa using own, lone.keeps_letter found⟩
  | case5 switch letter rest _ next found _ inductionHypothesis =>
    obtain ⟨later, done, made⟩ := bind_eq_ok.mp made
    cases made
    obtain ⟨flags, ending⟩ := inductionHypothesis (lone.keeps_letter found) done
    exact ⟨List.forall_mem_cons.mpr ⟨own, flags⟩, ending⟩

/-- However a switch is written, alone, with a value or together with others, its cluster keeps
what the switches in it keep. -/
theorem ofSwitch_keeps {switch : Switch σ} {name : Text} {attached : Option Text}
    {cluster : Cluster σ} (own : switch.Keeps property)
    (made : Cluster.ofSwitch switches switch name attached = .ok cluster) :
    (∀ flag ∈ cluster.flags, flag.Keeps property) ∧ cluster.ending.switch.Keeps property := by
  cases attached with
  | none =>
    cases made
    exact ⟨nofun, own⟩
  | some value =>
    rw [Cluster.ofSwitch] at made
    split at made
    · exact single_keeps own made
    · exact lone.together_keeps own made

/-- An argument that does not spell the flag brings only other switches: every switch that it
gives is given under a name that the argument names. -/
theorem ofText_keeps {text : Text} {token : Token σ} (read : Token.ofText switches text = .ok token)
    (undivided : text ≠ ['-', '-']) (ungiven : ¬ Abbreviates text flag) :
    token.Keeps property switches := by
  rintro switch name attached written cluster rfl made
  obtain other | other | ⟨_, _, _, same, names⟩ := Token.ofText_cases read
  · cases other
  · cases other
  · cases same
    rcases lone.others switch names.known with own | ⟨named, flagged⟩
    · exact lone.ofSwitch_keeps own made
    · obtain rfl : name = flag := by simpa [named] using names.named
      exfalso
      cases attached with
      | some value =>
        -- A flag takes no value, so the argument is refused.
        simp [Cluster.ofSwitch, lone.dashes, Cluster.single, flagged] at made
      | none =>
        refine ungiven ⟨names.begins rfl, ?_⟩
        rcases names.whole rfl with rfl | ⟨rest, rfl⟩
        · exact lone.long
        · cases rest with
          | nil => exact absurd rfl undivided
          | cons c rest => simp

/-- Where no text abbreviates a flag, every token that is read keeps the property that only this
flag could change. -/
theorem ofTexts_keeps {texts : List Text} {tokens : List (Token σ)}
    (read : Token.ofTexts switches texts = .ok tokens)
    (ungiven : ∀ text ∈ texts, ¬ Abbreviates text flag) :
    ∀ token ∈ tokens, token.Keeps property switches := by
  induction texts generalizing tokens with
  | nil =>
    cases read
    nofun
  | cons text rest inductionHypothesis =>
    rw [List.forall_mem_cons] at ungiven
    rw [Token.ofTexts] at read
    split at read
    · cases read
      intro token member
      rcases List.mem_cons.mp member with rfl | word
      · nofun
      · obtain ⟨text, _, rfl⟩ := List.mem_map.mp word
        nofun
    · rename_i undivided
      obtain ⟨token, first, read⟩ := bind_eq_ok.mp read
      obtain ⟨later, others, read⟩ := bind_eq_ok.mp read
      cases read
      exact List.forall_mem_cons.mpr ⟨lone.ofText_keeps first undivided ungiven.1,
        inductionHypothesis others ungiven.2⟩

/-- Where no argument spells the flag, the property is kept: the arguments are first cut into
tokens, none of which is the flag, and then the tokens are read. -/
theorem ofArguments_keeps {expectsCommand : Bool} {options : σ} {arguments : List Text}
    {result : Progression σ}
    (read : Progression.ofArguments switches expectsCommand options arguments = .ok result)
    (ungiven : ∀ argument ∈ arguments, ¬ Abbreviates argument flag) (holds : property options) :
    property result.options := by
  obtain ⟨tokens, made, read⟩ := bind_eq_ok.mp read
  obtain ⟨state, done, read⟩ := bind_eq_ok.mp read
  split at read
  · cases read
    exact Progression.read_keeps done (lone.ofTexts_keeps (mapError_eq_ok.mp made) ungiven) holds
  · cases read

end LoneFlag

/-! ### Commands -/

/-- The arguments of a command are some of those of the command line. Cutting them into tokens
loses nothing that is written, and the command gets what is behind it. -/
theorem ofArguments_command {switches : List (Switch σ)} {expectsCommand : Bool} {options : σ}
    {arguments : List Text} {result : Progression σ}
    (read : Progression.ofArguments switches expectsCommand options arguments = .ok result)
    {name : Text} {rest : List Text} (command : result.command = some (name, rest)) :
    rest ⊆ arguments := by
  obtain ⟨tokens, made, read⟩ := bind_eq_ok.mp read
  obtain ⟨state, done, read⟩ := bind_eq_ok.mp read
  split at read
  · cases read
    rw [← Token.written_ofTexts (mapError_eq_ok.mp made)]
    exact Progression.read_command done rfl command
  · cases read

/-- A command is read from its own switches, among the arguments of the command line. The general
switches end at its name, and what stands behind the name is read with the switches of the
command. -/
theorem readCommandLine_eq_ok {arguments : List Text} {general : GeneralOptions} {command : Command}
    (read : readCommandLine arguments = .ok (general, command)) :
    ∃ spec ∈ commandSpecs, ∃ rest own, rest ⊆ arguments ∧
      Progression.ofArguments spec.switches false {} rest = .ok own ∧
      command = spec.command own.options := by
  obtain ⟨first, begun, read⟩ := bind_eq_ok.mp read
  split at read
  · cases read
  · rename_i name rest named
    split at read
    · cases read
    · rename_i spec found
      obtain ⟨own, done, read⟩ := bind_eq_ok.mp read
      split at read
      · cases read
        exact ⟨spec, List.mem_of_find?_eq_some found, rest, own, ofArguments_command begun named,
          done, rfl⟩
      · cases read

/-- What a command line can consent to: that definitions change, or that records go. -/
inductive Consent where
  | commit
  | confirm

/-- The flag that gives consent. -/
def Consent.flag : Consent → Text
  | .commit => "--commit".toList
  | .confirm => "--confirm".toList

/-- Consent has been given. -/
def Consent.isGiven : Consent → CommandOptions → Bool
  | .commit => CommandOptions.commit
  | .confirm => CommandOptions.confirm

/-- Only its own flag gives consent. No other switch of any command sets what the flag sets,
and the flag is spelled like no other switch. -/
theorem loneFlag_consent (consent : Consent) {spec : CommandSpec} (known : spec ∈ commandSpecs) :
    LoneFlag (fun options => consent.isGiven options = false) consent.flag spec.switches := by
  simp only [commandSpecs, List.mem_cons, List.not_mem_nil, or_false] at known
  cases consent with
  | commit =>
    change LoneFlag (fun options => options.commit = false) "--commit".toList spec.switches
    refine ⟨rfl, by decide, ?_⟩
    rcases known with rfl | rfl | rfl | rfl | rfl | rfl | rfl | rfl | rfl <;>
      simp [Switch.Keeps, Switch.takesValue, helpSwitch, schemaSwitch, nameSwitch, changeSwitches]
  | confirm =>
    change LoneFlag (fun options => options.confirm = false) "--confirm".toList spec.switches
    refine ⟨rfl, by decide, ?_⟩
    rcases known with rfl | rfl | rfl | rfl | rfl | rfl | rfl | rfl | rfl <;>
      simp [Switch.Keeps, Switch.takesValue, helpSwitch, schemaSwitch, nameSwitch, changeSwitches]

end SqlRenewal
