import FactoryLowering.Family
import FactoryLowering.ImportEdits
import FactoryLowering.Pass.Basic
import FactoryLowering.Scope
import FactoryLowering.Tree.Editor

/-! Factory calls become calls of a helper declared in the same file: `List.of(a, b)` becomes
`listOf(a, b)`. When the walk leaves a type, it gets one helper for each arity that calls inside
it asked for, unless a method it has already fits. -/
namespace FactoryLowering

/-- Pairs of a host and an arity; the order and the number of recordings do not show. -/
structure ArityTable where
  uses : List (NodeId × Nat) := []

namespace ArityTable

def record (t : ArityTable) (host : NodeId) (arity : Nat) : ArityTable :=
  { uses := (host, arity) :: t.uses }

def arities (t : ArityTable) (host : NodeId) : List Nat :=
  ascending ((t.uses.filter (·.1 == host)).map (·.2))

def take (t : ArityTable) (host : NodeId) : List Nat × ArityTable :=
  (t.arities host, { uses := t.uses.filter (·.1 != host) })

def isEmpty (t : ArityTable) : Bool := t.uses.isEmpty

@[simp] theorem mem_arities {t : ArityTable} {host : NodeId} {arity : Nat} :
    arity ∈ t.arities host ↔ (host, arity) ∈ t.uses := by
  simp [arities]

@[simp] theorem mem_arities_record {t : ArityTable} {host other : NodeId} {arity n : Nat} :
    n ∈ (t.record host arity).arities other ↔ other = host ∧ n = arity ∨ n ∈ t.arities other := by
  simp [record]

end ArityTable

end FactoryLowering

namespace FactoryLowering.FactoryHelpers

structure State where
  scopes : ScopeStack
  needed : ArityTable := {}
  nextId : NodeId
  edits : ImportEdits := {}
  stats : Stats := {}
  warnings : List Warning := []
  failure : Option Error := none

def State.warn (s : State) (w : Warning) : State := { s with warnings := s.warnings ++ [w] }

/-- The method of the call after the change: the host's helper, with the type parameters of the
factory's owner. -/
def helperMethod (f : Family) (host : String) (c : Call) : Except CallFault MethodType :=
  if !f.accepts c.arity then .error (.unpaired f.helperName c.arity)
  else
    match c.method with
    | some { owner := .reference _ params, .. } =>
      .ok { owner := .reference host params, name := f.helperName }
    | some { owner, .. } => .error (.ownerNotClass owner)
    | none => .error .unresolved

def State.host? (s : State) : Option (NodeId × String) :=
  s.scopes.host?.bind fun scope => scope.fqn.map fun fqn => (scope.id, fqn)

/-- Turns a factory call into a call of the host's helper; without a host it stays. -/
def lowerCall (f : Family) (c : Call) : StateM State Call := fun s =>
  match s.host? with
  | none => (c, { s with stats.callsSkipped := s.stats.callsSkipped + 1 })
  | some (host, fqn) =>
    match helperMethod f fqn c with
    | .error fault =>
      (c, { s.warn (.callKept c.id (.call fault)) with
            stats.callsSkipped := s.stats.callsSkipped + 1 })
    | .ok method =>
      ({ c with receiver := none, name := f.helperName, method := some method },
        { s with
          needed := s.needed.record host c.arity
          stats.callsChanged := s.stats.callsChanged + 1 })

/-- Sees to it that a type has a method for helper calls of this arity. -/
def provide (f : Family) (spelledOut : List String) (d : TypeDecl) (arity : Nat) :
    StateM State TypeDecl := fun s =>
  match f.compatible? d arity with
  | some found =>
    let s := if found.head.isStatic then s else s.warn (.instanceHelper d.label f.helperName arity)
    (d, { s with stats.helpersReused := s.stats.helpersReused + 1 })
  | none =>
    match f.helper? spelledOut arity s.nextId with
    | (none, nextId) => (d, { s.warn (.noHelper d.label f.helperName arity) with nextId })
    | (some helper, nextId) =>
      (d.addMember (.method helper),
        { s with
          nextId
          edits := (f.imports.filter fun fqn => !spelledOut.contains fqn).foldl
            ImportEdits.add s.edits
          stats.helpersAdded := s.stats.helpersAdded + 1 })

def provideAll (f : Family) (spelledOut : List String) (d : TypeDecl) :
    List Nat → StateM State TypeDecl
  | [] => return d
  | arity :: rest => do
    let d ← provide f spelledOut d arity
    provideAll f spelledOut d rest

def leaveType (f : Family) (spelledOut : List String) (d : TypeDecl) :
    StateM State TypeDecl := fun s =>
  match s.scopes.leave? with
  | none => (d, { s with failure := some (.internal (.noScopeToLeave d.label)) })
  | some (scope, scopes) =>
    let (arities, needed) := s.needed.take scope.id
    provideAll f spelledOut d arities { s with scopes, needed }

def leaveAnonymous : StateM State Unit := modify fun s =>
  match s.scopes.leave? with
  | none => s
  | some (_, scopes) => { s with scopes }

def editor (f : Family) (spelledOut : List String) : Editor State where
  visit
    | .enterType d site => modify fun s => { s with scopes := s.scopes.enter d site }
    | .enterAnonymous head _ => modify fun s => { s with scopes := s.scopes.enterAnonymous head }
    | _ => pure ()
  call c := if f.pattern.isMatch c then lowerCall f c else pure c
  leaveType := leaveType f spelledOut
  leaveAnonymous _ _ := leaveAnonymous

def walk (f : Family) (u : CompilationUnit) : List TypeDecl × State :=
  (editor f (f.shadowed u)).types u.types
    { scopes := { package := u.packageName }, nextId := u.nextId }

def run (f : Family) (u : CompilationUnit) (log : ChangeLog) : PassOutcome :=
  let (types, s) := walk f u
  let unit := { u with types, nextId := s.nextId }
  match s.failure, s.needed.isEmpty with
  | some error, _ => { unit, log, warnings := s.warnings, result := .error error }
  | none, false =>
    { unit, log, warnings := s.warnings, result := .error (.internal .aritiesLeftOver) }
  | none, true =>
    let outcome := s.edits.apply unit
    { unit := outcome.unit
      log
      warnings := s.warnings ++ outcome.warnings
      result := .ok { s.stats with
        importsAdded := outcome.added
        importsRemoved := outcome.removed } }

end FactoryLowering.FactoryHelpers

namespace FactoryLowering

def Pass.factoryHelpers (f : Family) : Pass where
  name := "collection-of-backport"
  run := FactoryHelpers.run f

end FactoryLowering
