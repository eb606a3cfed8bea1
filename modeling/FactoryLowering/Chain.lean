import FactoryLowering.Pass.FactoryHelpers
import FactoryLowering.Pass.OwnerChange

/-! Chains of passes. A chain takes a unit as a whole: if one pass fails, the unit stays as it
was, whatever the passes before did to it. -/
namespace FactoryLowering

structure Chain where
  passes : List Pass := []

structure ChainOutcome where
  unit : CompilationUnit
  warnings : List Warning
  result : Except Error Report

namespace Chain

def factoryHelpers (f : Family) : Chain := { passes := [.factoryHelpers f] }

/-- Moves calls to another owner, then shortens their receivers where that is safe. -/
def ownerChange (config : Config) : Except Error Chain := do
  let change ← OwnerChange.ofConfig config
  return { passes := [.ownerChange change, .receiverShortening config] }

def passNames (chain : Chain) : List String := chain.passes.map (·.name)

def size (chain : Chain) : Nat := chain.passes.length

def isEmpty (chain : Chain) : Bool := chain.passes.isEmpty

def debugText (chain : Chain) : String :=
  "PassChain \x7b passes: [" ++
    Text.separated ", " (chain.passNames.map Text.quotedString) ++ "] \x7d"

def runPasses : List Pass → CompilationUnit → ChangeLog → ChainOutcome
  | [], u, _ => { unit := u, warnings := [], result := .ok {} }
  | pass :: rest, u, log =>
    let outcome := pass.run u log
    match outcome.result with
    | .error error => { unit := outcome.unit, warnings := outcome.warnings, result := .error error }
    | .ok stats =>
      let later := runPasses rest outcome.unit outcome.log
      { unit := later.unit
        warnings := outcome.warnings ++ later.warnings
        result := later.result.map fun report => { passes := (pass.name, stats) :: report.passes } }

/-- Runs the chain on a unit with an empty log; a failed run leaves the unit as it was. -/
def runUnit (chain : Chain) (u : CompilationUnit) : ChainOutcome :=
  let outcome := runPasses chain.passes u {}
  match outcome.result with
  | .ok _ => outcome
  | .error _ => { outcome with unit := u }

/-- Runs the chain on units from a given number on; a failure is also warned of. -/
def runFrom (chain : Chain) (index : Nat) : List CompilationUnit → List ChainOutcome
  | [] => []
  | u :: us =>
    let outcome := chain.runUnit u
    let warnings :=
      match outcome.result with
      | .ok _ => outcome.warnings
      | .error error => outcome.warnings ++ [.unitKept index error]
    { outcome with warnings } :: chain.runFrom (index + 1) us

def runUnits (chain : Chain) (us : List CompilationUnit) : List ChainOutcome := chain.runFrom 0 us

end Chain

end FactoryLowering
