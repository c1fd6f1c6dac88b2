import SqlRenewal.Text.Integer
import SqlRenewal.Text.Quoted

/-!
# Switches on a command line

A switch begins with a dash. It may be a flag, or take a value, which is the next
argument or is attached with an equals sign. A long switch may be shortened as
long as only one switch is meant. Flags of one letter may be written together,
and an equals sign after the first of them does not count. Two dashes, attached
as a value, leave the value blank.

A negative number, a lone dash and anything with a space in it are arguments,
not switches. After two dashes everything is an argument. Unknown switches and
arguments that nothing takes are collected.

All arguments are sorted into switches and others before any of them has an
effect.
-/
namespace SqlRenewal

/-- Why a command line is refused. -/
inductive UsageFault where
  | ambiguous (given : Text) (meant : List Text)
  | unusedValue (switch : Text) (value : Text)
  | noValue (switch : Text)
  | notInteger (switch : Text) (value : Text)
  | rivals (switch other : Text)
  | required (names : List Text)
  | unknownCommand (given : Text) (known : List Text)
  | unrecognized (arguments : List Text)
  | settings (message : String)
deriving DecidableEq, Repr

/-- The wording of a refused command line. -/
def UsageFault.message : UsageFault → String
  | .ambiguous given meant =>
    "ambiguous option: " ++ String.ofList given ++ " could match " ++
      String.ofList (Text.join [',', ' '] meant)
  | .unusedValue switch value =>
    "argument " ++ String.ofList switch ++ ": ignored explicit argument " ++
      String.ofList (Quoted.encode value)
  | .noValue switch => "argument " ++ String.ofList switch ++ ": expected one argument"
  | .notInteger switch value =>
    "argument " ++ String.ofList switch ++ ": invalid int value: " ++
      String.ofList (Quoted.encode value)
  | .rivals switch other =>
    "argument " ++ String.ofList switch ++ ": not allowed with argument " ++ String.ofList other
  | .required names =>
    "the following arguments are required: " ++ String.ofList (Text.join [',', ' '] names)
  | .unknownCommand given known =>
    "argument command: invalid choice: " ++ String.ofList (Quoted.encode given) ++
      " (choose from " ++ String.ofList (Text.join [',', ' '] (known.map Quoted.encode)) ++ ")"
  | .unrecognized arguments =>
    "unrecognized arguments: " ++ String.ofList (Text.join [' '] arguments)
  | .settings message => message

/-- Why reading a command line ends early. -/
inductive Stop where
  | help
  | usage (fault : UsageFault)
deriving DecidableEq, Repr

/-- What a switch does to the options that are being collected. A switch that takes
a value may be given with a blank one. -/
inductive Effect (σ : Type) where
  | help
  | flag (set : σ → σ)
  | value (set : Option Text → σ → σ)
  | number (set : Option Int → σ → σ)

/-- A switch with all its names. -/
structure Switch (σ : Type) where
  names : List Text
  effect : Effect σ
  required : Bool := false
  /-- Names of the switches that cannot be given beside this one. -/
  rivals : List Text := []

namespace Switch

variable {σ : Type}

/-- The name of a switch in messages. -/
def title (switch : Switch σ) : Text :=
  Text.join ['/'] switch.names

/-- The switch takes a value. -/
def takesValue (switch : Switch σ) : Bool :=
  match switch.effect with
  | .help => false
  | .flag _ => false
  | .value _ => true
  | .number _ => true

/-- The switch of exactly that name. -/
def named? (switches : List (Switch σ)) (name : Text) : Option (Switch σ) :=
  switches.find? fun switch => switch.names.contains name

/-- All names of some switches, each with its switch. -/
def entries (switches : List (Switch σ)) : List (Text × Switch σ) :=
  switches.flatMap fun switch => switch.names.map fun name => (name, switch)

end Switch

/-- What an argument is taken for. -/
inductive Token (σ : Type) where
  | word (text : Text)
  | divider
  | given (switch : Switch σ) (name : Text) (attached : Option Text) (written : Text)
  | unknown (text : Text)

namespace Token

variable {σ : Type}

/-- The argument as it was written. -/
def written : Token σ → Text
  | .word text => text
  | .divider => ['-', '-']
  | .given _ _ _ text => text
  | .unknown text => text

/-- The argument looks like a negative number. One line feed at its end does not
count. -/
def isNegativeNumber (text : Text) : Bool :=
  let line := if text.getLast? = some '\n' then text.dropLast else text
  match line with
  | '-' :: rest =>
    let fraction := rest.dropWhile isDigit
    (!rest.isEmpty && fraction.isEmpty) ||
      (fraction.head? == some '.' && !fraction.tail.isEmpty && fraction.tail.all isDigit)
  | _ => false

/-- The beginning of a switch and the value after its equals sign. -/
def splitValue (text : Text) : Text × Option Text :=
  match Text.breakAt? '=' text with
  | some (name, value) => (name, some value)
  | none => (text, none)

/-- The switches that an argument may stand for when it is not spelled out: those
that a long one begins, or the short one that its first letter names. -/
def readings (switches : List (Switch σ)) (text : Text) : List (Text × Token σ) :=
  match text with
  | '-' :: '-' :: _ =>
    let (beginning, attached) := splitValue text
    ((Switch.entries switches).filter fun entry => beginning.isPrefixOf entry.1).map
      fun (name, switch) => (name, .given switch name attached text)
  | '-' :: letter :: value =>
    ((Switch.entries switches).filter fun entry => entry.1 == ['-', letter]).map
      fun (name, switch) => (name, .given switch name (some value) text)
  | _ => []

/-- The switch that an argument spells out, with or without a value. -/
def spelledOut? (switches : List (Switch σ)) (text : Text) : Option (Token σ) :=
  match Switch.named? switches text with
  | some switch => some (.given switch text none text)
  | none =>
    let (name, attached) := splitValue text
    if attached.isSome then
      (Switch.named? switches name).map fun switch => .given switch name attached text
    else none

/-- Takes an argument for a switch or for a word. -/
def ofText (switches : List (Switch σ)) (text : Text) : Except UsageFault (Token σ) :=
  if text.head? ≠ some '-' ∨ text = ['-'] then .ok (.word text)
  else match spelledOut? switches text with
    | some token => .ok token
    | none =>
      match readings switches text with
      | [(_, token)] => .ok token
      | [] =>
        if isNegativeNumber text || text.contains ' ' then .ok (.word text)
        else .ok (.unknown text)
      | several => .error (.ambiguous text (several.map (·.1)))

/-- Takes all arguments for switches or words. -/
def ofTexts (switches : List (Switch σ)) : List Text → Except UsageFault (List (Token σ))
  | [] => .ok []
  | text :: rest =>
    if text = ['-', '-'] then .ok (.divider :: rest.map .word)
    else do return (← ofText switches text) :: (← ofTexts switches rest)

end Token

/-- The last switch of an argument, with its value, or else it may still need one. -/
inductive Ending (σ : Type) where
  | valued (switch : Switch σ) (value : Text)
  | plain (switch : Switch σ)

/-- The switches of one argument: flags written together, and the last switch. -/
structure Cluster (σ : Type) where
  flags : List (Switch σ)
  ending : Ending σ

namespace Cluster

variable {σ : Type}

/-- The value of a switch, as far as it is attached. -/
def single (switch : Switch σ) (value : Text) : Except UsageFault (Cluster σ) :=
  if switch.takesValue then .ok ⟨[], .valued switch value⟩
  else .error (.unusedValue switch.title value)

/-- The switches written together with a first one of one letter, where the text
attached to it is given. A flag leaves its text to the flag that the first letter
of it names. -/
def together (switches : List (Switch σ)) :
    (switch : Switch σ) → Text → Except UsageFault (Cluster σ)
  | switch, [] => single switch []
  | switch, letter :: rest =>
    if switch.takesValue then .ok ⟨[], .valued switch (letter :: rest)⟩
    else match Switch.named? switches ['-', letter] with
      | none => .error (.unusedValue switch.title (letter :: rest))
      | some next =>
        if rest.isEmpty then .ok ⟨[switch], .plain next⟩
        else do
          let cluster ← together switches next rest
          return { cluster with flags := switch :: cluster.flags }

/-- The switches that one argument holds. -/
def ofSwitch (switches : List (Switch σ)) (switch : Switch σ) (name : Text) :
    Option Text → Except UsageFault (Cluster σ)
  | none => .ok ⟨[], .plain switch⟩
  | some value =>
    if name.take 2 = ['-', '-'] then single switch value
    else together switches switch value

end Cluster

/-- The value that an attached text gives: two dashes leave it blank. -/
def attachedValue (text : Text) : Option Text :=
  if text = ['-', '-'] then none else some text

/-- What has been read of a command line. -/
structure Progression (σ : Type) where
  options : σ
  /-- Names of the switches that were given. -/
  given : List Text := []
  /-- Arguments that nothing took. -/
  left : List Text := []
  /-- The command with all that follows it. -/
  command : Option (Text × List Text) := none

namespace Progression

variable {σ : Type}

/-- What a switch with that value does to the options. A value that is not blank has
to be a number where one is asked for. -/
def change (switch : Switch σ) (value : Option Text) : Except UsageFault (σ → σ) :=
  match switch.effect with
  | .help => .ok id
  | .flag set => .ok set
  | .value set => .ok (set value)
  | .number set =>
    match value with
    | none => .ok (set none)
    | some text =>
      match readNumber? text with
      | some number => .ok (set (some number))
      | none => .error (.notInteger switch.title text)

/-- A switch takes effect. -/
def take (state : Progression σ) (switch : Switch σ) (value : Option Text) :
    Except Stop (Progression σ) := do
  let set ← (change switch value).mapError Stop.usage
  match switch.rivals.find? state.given.contains with
  | some other => throw (.usage (.rivals switch.title other))
  | none =>
    match switch.effect with
    | .help => throw .help
    | _ => return { state with options := set state.options, given := state.given ++ switch.names }

/-- Several flags take effect, one after the other. -/
def takeAll (state : Progression σ) (flags : List (Switch σ)) : Except Stop (Progression σ) :=
  flags.foldlM (fun state switch => state.take switch none) state

/-- Leaves an argument for later. -/
def leave (state : Progression σ) (text : Text) : Progression σ :=
  { state with left := state.left ++ [text] }

/-- Reads tokens from left to right. When a command is expected, the first word is
the command, and takes the rest of the arguments. -/
def read (switches : List (Switch σ)) (expectsCommand : Bool) :
    Progression σ → List (Token σ) → Except Stop (Progression σ)
  | state, [] => .ok state
  | state, .word text :: rest =>
    if expectsCommand then .ok { state with command := some (text, rest.map Token.written) }
    else read switches expectsCommand (state.leave text) rest
  | state, .divider :: rest =>
    if expectsCommand && !rest.isEmpty then
      .ok { state with command := some (['-', '-'], rest.map Token.written) }
    else read switches expectsCommand (state.leave ['-', '-']) rest
  | state, .unknown text :: rest => read switches expectsCommand (state.leave text) rest
  | state, .given switch name attached _ :: rest => do
    let cluster ← (Cluster.ofSwitch switches switch name attached).mapError Stop.usage
    match cluster.ending with
    | .valued last value =>
      read switches expectsCommand
        (← (← state.takeAll cluster.flags).take last (attachedValue value)) rest
    | .plain last =>
      if last.takesValue then
        match rest with
        | .word value :: rest =>
          read switches expectsCommand
            (← (← state.takeAll cluster.flags).take last (some value)) rest
        | _ => throw (.usage (.noValue last.title))
      else
        read switches expectsCommand
          (← (← state.takeAll cluster.flags).take last none) rest

/-- Switches that have to be given and were not. -/
def missing (switches : List (Switch σ)) (state : Progression σ) : List Text :=
  (switches.filter fun switch =>
    switch.required && !switch.names.any state.given.contains).map Switch.title

/-- Reads a command line, or the part of it that belongs to a command. -/
def ofArguments (switches : List (Switch σ)) (expectsCommand : Bool) (options : σ)
    (arguments : List Text) : Except Stop (Progression σ) := do
  let tokens ← (Token.ofTexts switches arguments).mapError Stop.usage
  let state ← read switches expectsCommand { options } tokens
  match state.missing switches with
  | [] => return state
  | names => throw (.usage (.required names))

end Progression

end SqlRenewal
