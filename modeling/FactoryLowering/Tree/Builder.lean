import FactoryLowering.Tree.Basic

/-! Making nodes that have no place in the source: every span is the all-zero one. Nodes with an
identity take it from the running counter. A dotted name is spelled as a chain of field accesses on
an identifier. -/
namespace FactoryLowering

namespace Expr

def ofName (name : String) : Expr := .ident { name := name }

def qualifiedName? : Expr → Option String
  | .ident name => some name.name
  | .field target name _ => target.qualifiedName?.map fun outer => outer ++ "." ++ name
  | _ => none

/-- The chain that spells a dotted name: an identifier, then one field access for each dot. -/
def qualified (name : String) : Expr :=
  let (first, rest) := Text.segments name.toList
  rest.foldl (fun target segment => .field target (String.ofList segment) {})
    (ofName (String.ofList first))

/-- The same chain with a span on its outermost field access; a name without dots keeps none. -/
def qualifiedAt (name : String) (span : Span) : Expr :=
  match qualified name with
  | .field target segment _ => .field target segment span
  | e => e

/-- Whether an expression spells the type `fqn` out; a bare identifier never does. -/
def spellsOut (fqn : String) : Expr → Bool
  | .field target name span => (Expr.field target name span).qualifiedName? == some fqn
  | _ => false

end Expr

def Expr.ofString (value : String) : Expr := .literal (.string value) {}

def Expr.ofInt (value : Int) : Expr := .literal (.integer value) {}

def Expr.newObject (type : TypeRef) (args : List Expr) : Expr := .new type args {}

def Call.unresolved (id : NodeId) (receiver : Option Expr) (name : String) (args : List Expr) :
    Call :=
  { id, receiver, name, args, method := none, span := {} }

def Call.make (receiver : Option Expr) (name : String) (args : List Expr) : StateM NodeId Call := do
  let id ← fresh
  return .unresolved id receiver name args

/-- A type whose arguments are plain names, such as `Map<K, V>`. -/
def TypeRef.generic (name : String) (args : List String) : TypeRef :=
  { name, args := args.map fun arg => { name := arg } }

def Stmt.ofExpr (value : Expr) : Stmt := .expression value {}

def Stmt.localVariable (type : TypeRef) (name : String) (init : Option Expr) : Stmt :=
  .variables [] type [{ name, init, span := {} }] {}

def Stmt.returning (value : Option Expr) : Stmt := .returns value {}

def Block.ofStmts (stmts : List Stmt) : Block := { stmts, span := {} }

def Method.make (mods : List Modifier) (result : Option TypeRef) (name : String)
    (params : List Parameter) (stmts : List Stmt) : Method :=
  { head := { mods, result, name, params }, body := some (.ofStmts stmts) }

namespace TypeDecl

def makeClass (mods : List Modifier) (name : String) (members : List Member) :
    StateM NodeId TypeDecl := do
  let id ← fresh
  return .classDecl { id, mods, name } members

def makeInterface (mods : List Modifier) (name : String) (members : List Member) :
    StateM NodeId TypeDecl := do
  let id ← fresh
  return .interfaceDecl { id, mods, name } members

def makeEnum (mods : List Modifier) (name : String) (constants : List String) :
    StateM NodeId TypeDecl := do
  let id ← fresh
  return .enumDecl { id, mods, name }
    (constants.map fun constant => { name := constant, args := [], span := {} }) []

end TypeDecl

end FactoryLowering
