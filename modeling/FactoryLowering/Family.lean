import FactoryLowering.CompilationUnit
import FactoryLowering.MethodPattern
import FactoryLowering.Tree.Builder

/-! Factory families. A family ties a factory method such as `java.util.List.of` to the helper
that does its work where the factory does not exist, and to the library types the helper uses. -/
namespace FactoryLowering

inductive Family where
  | list
  | set
  | map
  deriving DecidableEq, Repr

namespace Family

def helperName : Family → String
  | .list => "listOf"
  | .set => "setOf"
  | .map => "mapOf"

/-- The interface that declares the factory and that the helper returns. -/
def interface : Family → String
  | .list => "java.util.List"
  | .set => "java.util.Set"
  | .map => "java.util.Map"

def pattern (f : Family) : MethodPattern := { owner := f.interface, name := "of" }

def container : Family → String
  | .list => "java.util.ArrayList"
  | .set => "java.util.LinkedHashSet"
  | .map => "java.util.HashMap"

def viewOwner : String := "java.util.Collections"

def imports (f : Family) : List String := [f.interface, f.container, viewOwner]

/-- Whether the arguments come in pairs of a key and a value. -/
def isKeyValue (f : Family) : Bool := f == .map

def accepts (f : Family) (arity : Nat) : Bool := !f.isKeyValue || arity % 2 == 0

def typeVars : Family → List String
  | .map => ["K", "V"]
  | _ => ["E"]

def localName : Family → String
  | .list => "list"
  | .set => "set"
  | .map => "map"

def viewName : Family → String
  | .list => "unmodifiableList"
  | .set => "unmodifiableSet"
  | .map => "unmodifiableMap"

/-- A method that takes `arity` arguments, by its parameters or by a variable last one. -/
def fits (arity : Nat) (m : Method) : Bool :=
  m.head.params.length == arity || m.head.isVarargs && m.head.params.length - 1 ≤ arity

/-- The first own method of a type that can stand in for the helper of this arity. -/
def compatible? (f : Family) (d : TypeDecl) (arity : Nat) : Option Method :=
  (d.methodsNamed f.helperName).find? (fits arity)

def shadowed (f : Family) (u : CompilationUnit) : List String := f.imports.filter u.simpleNameTaken

/-- How many calls fill the container: one for each element or pair. -/
def fillCount (f : Family) (arity : Nat) : Nat := if f.isKeyValue then arity / 2 else arity

def fillParams (f : Family) (number : Nat) : List Parameter :=
  if f.isKeyValue then
    [{ type := { name := "K" }, name := "k" ++ toString number },
      { type := { name := "V" }, name := "v" ++ toString number }]
  else [{ type := { name := "E" }, name := "e" ++ toString number }]

def fillName (f : Family) : String := if f.isKeyValue then "put" else "add"

def makeFill (f : Family) (number : Nat) : StateM NodeId Stmt := do
  let args := (f.fillParams number).map fun p => Expr.ofName p.name
  let call ← Call.make (some (.ofName f.localName)) f.fillName args
  return .ofExpr (.call call)

/-- A library type by its simple name, or in full if it is to be spelled out. -/
def spell (spelledOut : List String) (fqn : String) : String :=
  if spelledOut.contains fqn then fqn else Text.simpleName fqn

def makeBody (f : Family) (spelledOut : List String) (fills : Nat) : StateM NodeId (List Stmt) := do
  let interface := TypeRef.generic (spell spelledOut f.interface) f.typeVars
  let container := TypeRef.generic (spell spelledOut f.container) f.typeVars
  let filled ← (List.range fills).mapM fun i => f.makeFill (i + 1)
  let view ← Call.make (some (.qualified (spell spelledOut viewOwner))) f.viewName
    [.ofName f.localName]
  return .localVariable interface f.localName (some (.newObject container [])) ::
    filled ++ [.returning (some (.call view))]

def helperHead (f : Family) (spelledOut : List String) (fills : Nat) : MethodHead :=
  { mods := [.privateAccess, .staticMember]
    typeParams := f.typeVars.map fun v => { name := v }
    result := some (.generic (spell spelledOut f.interface) f.typeVars)
    name := f.helperName
    params := (List.range fills).flatMap fun i => f.fillParams (i + 1) }

/-- The helper for an arity the family accepts; any other arity takes no identity. -/
def helper? (f : Family) (spelledOut : List String) (arity : Nat) :
    StateM NodeId (Option Method) := do
  if f.accepts arity then
    let stmts ← f.makeBody spelledOut (f.fillCount arity)
    return some { head := f.helperHead spelledOut (f.fillCount arity)
                  body := some (.ofStmts stmts) }
  else return none

end Family

end FactoryLowering
