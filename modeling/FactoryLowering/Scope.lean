import FactoryLowering.Text.Basic
import FactoryLowering.Tree.Basic

/-! The types around a place in a tree, and which of them may declare a helper. -/
namespace FactoryLowering

inductive ScopeKind where
  | classScope
  | interfaceScope
  | enumScope
  | anonymous
  deriving DecidableEq, Repr

structure Scope where
  id : NodeId
  kind : ScopeKind
  /-- Local and anonymous types have no name, nor has anything in them. -/
  fqn : Option String
  /-- Whether a private static method may be declared here. -/
  canHost : Bool
  deriving DecidableEq, Repr

structure ScopeStack where
  package : String
  frames : List Scope := []
  deriving DecidableEq, Repr

def TypeDecl.scopeKind : TypeDecl → ScopeKind
  | .classDecl .. => .classScope
  | .interfaceDecl .. => .interfaceScope
  | .enumDecl .. => .enumScope

namespace ScopeStack

def current? (s : ScopeStack) : Option Scope := s.frames.head?

def depth (s : ScopeStack) : Nat := s.frames.length

def nameAt (s : ScopeStack) (name : String) : TypeSite → Option String
  | .topLevel => some (Text.qualify s.package name)
  | .inType => (s.current?.bind (·.fqn)).map fun outer => outer ++ "." ++ name
  | .inBlock => none

/-- Whether a type at this site may hold static members. Enums may anywhere, interfaces may not
hold private ones, and a member class must be static or stand in an interface. -/
def mayHost (s : ScopeStack) (d : TypeDecl) : TypeSite → Bool
  | .topLevel => d.scopeKind != .interfaceScope
  | .inType =>
    match d.scopeKind with
    | .interfaceScope => false
    | .enumScope => true
    | _ => d.mods.contains .staticMember || s.current?.any (·.kind == .interfaceScope)
  | .inBlock => d.scopeKind == .enumScope

def enter (s : ScopeStack) (d : TypeDecl) (site : TypeSite) : ScopeStack :=
  let fqn := s.nameAt d.name site
  let scope : Scope :=
    { id := d.id, kind := d.scopeKind, fqn, canHost := fqn.isSome && s.mayHost d site }
  { s with frames := scope :: s.frames }

def enterAnonymous (s : ScopeStack) (head : ClassHead) : ScopeStack :=
  let scope : Scope := { id := head.id, kind := .anonymous, fqn := none, canHost := false }
  { s with frames := scope :: s.frames }

def leave? (s : ScopeStack) : Option (Scope × ScopeStack) :=
  match s.frames with
  | [] => none
  | scope :: frames => some (scope, { s with frames })

def host? (s : ScopeStack) : Option Scope := s.frames.find? (·.canHost)

end ScopeStack

end FactoryLowering
