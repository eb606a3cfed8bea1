import FactoryLowering.ImportEdits
import FactoryLowering.MethodPattern
import FactoryLowering.Pass.Basic
import FactoryLowering.Tree.Builder
import FactoryLowering.Tree.Editor

/-! Calls of one owner's method move to another owner. The new receiver is spelled out, because
its simple name may still mean the old owner here; changed calls are logged, so that a later
pass can shorten them. -/
namespace FactoryLowering

structure OwnerChange where
  pattern : MethodPattern
  origin : String
  target : String
  changeKey : String

namespace OwnerChange

def ofConfig (config : Config) : Except Error OwnerChange := do
  config.validate
  let pattern ← MethodPattern.parse config.pattern
  return {
    pattern, origin := config.origin, target := config.target, changeKey := config.changeKey }

def targetMethod (target : String) (c : Call) : Except CallFault MethodType :=
  match c.method with
  | some { owner := .reference _ params, name } => .ok { owner := .reference target params, name }
  | some { owner, .. } => .error (.ownerNotClass owner)
  | none => .error .unresolved

structure State where
  log : ChangeLog
  stats : Stats := {}
  warnings : List Warning := []

/-- Moves a call to the target; its new receiver keeps the old one's place in the source. -/
def moveCall (change : OwnerChange) (c : Call) : StateM State Call := fun s =>
  match targetMethod change.target c with
  | .error fault =>
    (c, { s with
          warnings := s.warnings ++ [.callKept c.id (.call fault)]
          stats.callsSkipped := s.stats.callsSkipped + 1 })
  | .ok method =>
    let span := (c.receiver.map (·.span)).getD {}
    ({ c with receiver := some (.qualifiedAt change.target span), method := some method },
      { s with
        log := s.log.record change.changeKey c.id
        stats.callsChanged := s.stats.callsChanged + 1 })

def editor (change : OwnerChange) : Editor State where
  call c := if change.pattern.isMatch c then change.moveCall c else pure c

/-- Moves every matching call, then drops imports of the old owner that nothing needs. -/
def run (change : OwnerChange) (u : CompilationUnit) (log : ChangeLog) : PassOutcome :=
  let (types, s) := change.editor.types u.types { log }
  let unit := { u with types }
  if s.stats.callsChanged > 0 then
    let outcome := ImportEdits.apply { removals := [change.origin] } unit
    { unit := outcome.unit
      log := s.log
      warnings := s.warnings ++ outcome.warnings
      result := .ok { s.stats with importsRemoved := outcome.removed } }
  else { unit, log := s.log, warnings := s.warnings, result := .ok s.stats }

end OwnerChange

def Pass.ownerChange (change : OwnerChange) : Pass where
  name := "change-method-owner"
  run := change.run

end FactoryLowering

/-! Shortening the receivers that an owner change spelled out: `com.acme.List.of(a)` becomes
`List.of(a)` with an import. It is done for logged calls only, and only where no other single import
binds the simple name and no type of the unit is found that has it. -/
namespace FactoryLowering.ReceiverShortening

/-- Shortens the receiver of a logged call that spells the target out; the state counts them. -/
def shortenCall (target : String) (logged : List NodeId) (c : Call) :
    StateM Nat Call := fun count =>
  match c.receiver with
  | some receiver =>
    if logged.contains c.id && receiver.spellsOut target then
      let short : Identifier :=
        { name := Text.simpleName target
          type := some (.reference target [])
          span := receiver.span }
      ({ c with receiver := some (.ident short) }, count + 1)
    else (c, count)
  | none => (c, count)

def editor (target : String) (logged : List NodeId) : Editor Nat where
  call := shortenCall target logged

def run (config : Config) (u : CompilationUnit) (log : ChangeLog) : PassOutcome :=
  let logged := log.ids config.changeKey
  if logged.isEmpty || u.importsType config.origin || u.simpleNameTaken config.target then
    { unit := u, log, result := .ok {} }
  else
    let (types, count) := (editor config.target logged).types u.types 0
    let unit := { u with types }
    if count > 0 then
      let outcome := ImportEdits.apply { additions := [config.target] } unit
      { unit := outcome.unit
        log
        warnings := outcome.warnings
        result := .ok { receiversShortened := count, importsAdded := outcome.added } }
    else { unit, log, result := .ok {} }

end FactoryLowering.ReceiverShortening

namespace FactoryLowering

def Pass.receiverShortening (config : Config) : Pass where
  name := "simplify-qualified-owner"
  run := ReceiverShortening.run config

end FactoryLowering
