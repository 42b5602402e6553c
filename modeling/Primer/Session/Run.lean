import Primer.Machine.Eval
import Primer.Program.Grammar
import Primer.Session.Failure

/-!
# Running sources

A source is parsed and evaluated in a scope of a world. The scope and the console outlive the run, also
one that fails, so that several sources can share them.
-/

namespace Primer

/-- How a run ended. -/
inductive Finish where
  | value (value : Value)
  | failure (failure : Failure)
  | awaitingInput
  | outOfBudget

namespace World

/-- A world with one scope, for programs. -/
def ofConsole (console : Console) : World :=
  ⟨#[.global], console⟩

end World

/-- Evaluates a parsed program. -/
def runProgram (budget : Nat) (path source : String) (program : Block) (scope : ScopeId)
    (world : World) : Finish × World :=
  match (evalProgram budget scope program).run world with
  | .ok value world => (.value value, world)
  | .error (.failed error) world => (.failure (.runtime path source error), world)
  | .error .awaitingInput world => (.awaitingInput, world)
  | .error _ world => (.outOfBudget, world)

/-- Parses and evaluates a source in a scope; `path` is only its name in reports. -/
def run (budget : Nat) (path source : String) (scope : ScopeId) (world : World) :
    Finish × World :=
  match parse source with
  | .ok program => runProgram budget path source program scope world
  | .error error => (.failure (.parse path source error), world)

end Primer
