import FactoryLowering.CompilationUnit
import FactoryLowering.Text.Characters
import FactoryLowering.Tree.Builder
import FactoryLowering.Tree.Editor

/-! Binding calls to methods from imports and declarations alone. A receiver that names a type
gives the owner, an unqualified call belongs to the type around it, and whatever is bound
already stays as it is. -/
namespace FactoryLowering

mutual
/-- Simple and fully qualified names of a type and its member types, an outer type first. -/
def TypeDecl.declaredNames (outer : String) : TypeDecl → List (String × String)
  | .classDecl head members =>
    (head.name, Text.qualify outer head.name) ::
      Member.declaredNames (Text.qualify outer head.name) members
  | .interfaceDecl head members =>
    (head.name, Text.qualify outer head.name) ::
      Member.declaredNames (Text.qualify outer head.name) members
  | .enumDecl head _ members =>
    (head.name, Text.qualify outer head.name) ::
      Member.declaredNames (Text.qualify outer head.name) members

def Member.declaredNames (outer : String) : List Member → List (String × String)
  | [] => []
  | .typeDecl d :: rest => d.declaredNames outer ++ Member.declaredNames outer rest
  | _ :: rest => Member.declaredNames outer rest
end

structure NameTable where
  package : String
  /-- Single imports in the order of the unit; of two that bind one name the later counts. -/
  single : List (String × String)
  /-- Packages imported on demand, in the order of the unit. -/
  onDemand : List String
  /-- Types of the unit; of two with one name the first counts. -/
  declared : List (String × String)

namespace NameTable

def ofUnit (u : CompilationUnit) : NameTable where
  package := u.packageName
  single := (u.imports.filter (·.isSingle)).map fun i => (Text.simpleName i.name, i.name)
  onDemand := (u.imports.filter fun i => !i.isStatic && i.isWildcard).map (·.name)
  declared := u.types.flatMap (TypeDecl.declaredNames u.packageName)

/-- The type a simple name denotes: single imports come first, then the unit's own types,
`java.lang`, and packages imported on demand. The last two give known types only. -/
def resolve? (table : NameTable) (name : String) : Option String :=
  if !Text.startsUppercase name then none
  else
    table.single.reverse.lookup name <|> table.declared.lookup name <|>
      (("java.lang" :: table.onDemand).map (· ++ "." ++ name)).find? isKnownType

/-- The type a receiver denotes, and the receiver with what was found out about it. -/
def receiver (table : NameTable) : Expr → Expr × Option String
  | .ident i =>
    match i.type with
    | some (.reference fqn _) => (.ident i, some fqn)
    | _ =>
      match table.resolve? i.name with
      | some fqn => (.ident { i with type := some (.ofName fqn) }, some fqn)
      | none => (.ident i, none)
  | .field target name span =>
    let e := Expr.field target name span
    (e, e.qualifiedName?.filter fun spelled =>
      Text.startsLowercase spelled && Text.startsUppercase (Text.simpleName spelled))
  | e => (e, none)

end NameTable

structure Attribution where
  unit : CompilationUnit
  resolved : Nat
  unresolved : Nat

namespace Attribution

structure State where
  /-- Names of the enclosing types, the innermost first. -/
  enclosing : List (Option String) := []
  resolved : Nat := 0
  unresolved : Nat := 0

/-- The name of a type about to be entered; local types have none, nor has anything in them. -/
def enclosingName (table : NameTable) (s : State) (name : String) : TypeSite → Option String
  | .topLevel => some (Text.qualify table.package name)
  | .inType => s.enclosing.head?.join.map fun outer => outer ++ "." ++ name
  | .inBlock => none

/-- Binds a call to the method of its own name in the owner, if an owner was found. -/
def bindTo (c : Call) : Option String → StateM State Call
  | some fqn => do
    modify fun s => { s with resolved := s.resolved + 1 }
    return { c with method := some { owner := .ofName fqn, name := c.name } }
  | none => do
    modify fun s => { s with unresolved := s.unresolved + 1 }
    return c

def bindCall (table : NameTable) (c : Call) : StateM State Call := do
  match c.method, c.receiver with
  | some _, _ => return c
  | none, some e =>
    let (e, owner) := table.receiver e
    bindTo { c with receiver := some e } owner
  | none, none => bindTo c (← get).enclosing.head?.join

def editor (table : NameTable) : Editor State where
  visit
    | .enterType d site =>
      modify fun s => { s with enclosing := enclosingName table s d.name site :: s.enclosing }
    | .enterAnonymous _ _ => modify fun s => { s with enclosing := none :: s.enclosing }
    | _ => pure ()
  call := bindCall table
  leaveType d := do
    modify fun s => { s with enclosing := s.enclosing.tail }
    return d
  leaveAnonymous _ _ := modify fun s => { s with enclosing := s.enclosing.tail }

def run (u : CompilationUnit) : Attribution :=
  let (types, s) := (editor (.ofUnit u)).types u.types {}
  { unit := { u with types }, resolved := s.resolved, unresolved := s.unresolved }

end Attribution

end FactoryLowering
