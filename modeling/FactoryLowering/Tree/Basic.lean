import FactoryLowering.Tree.Types

/-! The syntax tree of a Java compilation unit's types: declarations, members, statements and
expressions. What a declaration says apart from its subtrees is kept in a head structure. -/
namespace FactoryLowering

inductive Literal where
  | integer (value : Int)
  | boolean (value : Bool)
  | string (value : String)
  | char (value : Char)
  | null
  deriving DecidableEq, Repr

inductive BinaryOp where
  | add | sub | mul | div | mod | lt | le | gt | ge | eq | ne | and | or
  deriving DecidableEq, Repr

def BinaryOp.symbol : BinaryOp → String
  | .add => "+"
  | .sub => "-"
  | .mul => "*"
  | .div => "/"
  | .mod => "%"
  | .lt => "<"
  | .le => "<="
  | .gt => ">"
  | .ge => ">="
  | .eq => "=="
  | .ne => "!="
  | .and => "&&"
  | .or => "||"

def BinaryOp.all : List BinaryOp :=
  [.add, .sub, .mul, .div, .mod, .lt, .le, .gt, .ge, .eq, .ne, .and, .or]

structure Identifier where
  name : String
  type : Option JavaType := none
  span : Span := {}

structure ClassHead where
  id : NodeId
  mods : List Modifier := []
  name : String
  typeParams : List TypeParam := []
  superclass : Option TypeRef := none
  interfaces : List TypeRef := []
  span : Span := {}

structure InterfaceHead where
  id : NodeId
  mods : List Modifier := []
  name : String
  typeParams : List TypeParam := []
  superinterfaces : List TypeRef := []
  span : Span := {}

structure EnumHead where
  id : NodeId
  mods : List Modifier := []
  name : String
  interfaces : List TypeRef := []
  span : Span := {}

structure FieldHead where
  mods : List Modifier := []
  type : TypeRef
  name : String
  span : Span := {}

/-- A method without its body; no result type means `void`. -/
structure MethodHead where
  mods : List Modifier := []
  typeParams : List TypeParam := []
  result : Option TypeRef := none
  name : String
  params : List Parameter := []
  span : Span := {}

structure ConstructorHead where
  mods : List Modifier := []
  name : String
  params : List Parameter := []
  span : Span := {}

mutual

inductive Expr where
  | literal (value : Literal) (span : Span)
  | ident (name : Identifier)
  | binary (op : BinaryOp) (left right : Expr) (span : Span)
  | assign (target value : Expr) (span : Span)
  | call (call : Call)
  | field (target : Expr) (name : String) (span : Span)
  | cast (type : TypeRef) (operand : Expr) (span : Span)
  | conditional (test yes no : Expr) (span : Span)
  | new (type : TypeRef) (args : List Expr) (span : Span)
  | newAnonymous (type : TypeRef) (args : List Expr) (head : ClassHead) (members : List Member)
      (span : Span)
  | paren (inner : Expr)

/-- A method call; an unqualified one has no receiver, an unresolved one no method. -/
structure Call where
  id : NodeId
  receiver : Option Expr
  name : String
  args : List Expr
  method : Option MethodType
  span : Span

inductive Stmt where
  | expression (value : Expr) (span : Span)
  | variables (mods : List Modifier) (type : TypeRef) (declared : List Declarator) (span : Span)
  | typeDecl (decl : TypeDecl)
  | ifElse (test : Expr) (yes : Stmt) (no : Option Stmt) (span : Span)
  | whileLoop (test : Expr) (body : Stmt) (span : Span)
  | forEach (type : TypeRef) (name : String) (iterable : Expr) (body : Stmt) (span : Span)
  | returns (value : Option Expr) (span : Span)
  | throws (value : Expr) (span : Span)
  | block (block : Block)
  | empty

structure Declarator where
  name : String
  init : Option Expr
  span : Span

structure Block where
  stmts : List Stmt
  span : Span

inductive Member where
  | field (head : FieldHead) (init : Option Expr)
  | method (method : Method)
  | constructorDecl (head : ConstructorHead) (body : Block)
  | initializer (isStatic : Bool) (body : Block) (span : Span)
  | typeDecl (decl : TypeDecl)

structure Method where
  head : MethodHead
  body : Option Block

structure EnumConstant where
  name : String
  args : List Expr
  span : Span

inductive TypeDecl where
  | classDecl (head : ClassHead) (members : List Member)
  | interfaceDecl (head : InterfaceHead) (members : List Member)
  | enumDecl (head : EnumHead) (constants : List EnumConstant) (members : List Member)

end

/-- Where a type is declared: by itself in the unit, in another type, or in a block. -/
inductive TypeSite where
  | topLevel
  | inType
  | inBlock
  deriving DecidableEq, Repr

namespace MethodHead

def isStatic (m : MethodHead) : Bool := m.mods.contains .staticMember

def isVarargs (m : MethodHead) : Bool := m.params.getLast?.any (·.varargs)

end MethodHead

def Call.arity (c : Call) : Nat := c.args.length

namespace TypeDecl

def id : TypeDecl → NodeId
  | .classDecl head _ => head.id
  | .interfaceDecl head _ => head.id
  | .enumDecl head _ _ => head.id

def name : TypeDecl → String
  | .classDecl head _ => head.name
  | .interfaceDecl head _ => head.name
  | .enumDecl head _ _ => head.name

def mods : TypeDecl → List Modifier
  | .classDecl head _ => head.mods
  | .interfaceDecl head _ => head.mods
  | .enumDecl head _ _ => head.mods

def members : TypeDecl → List Member
  | .classDecl _ members => members
  | .interfaceDecl _ members => members
  | .enumDecl _ _ members => members

def addMember (m : Member) : TypeDecl → TypeDecl
  | .classDecl head members => .classDecl head (members ++ [m])
  | .interfaceDecl head members => .interfaceDecl head (members ++ [m])
  | .enumDecl head constants members => .enumDecl head constants (members ++ [m])

@[simp] theorem members_addMember (m : Member) (d : TypeDecl) :
    (d.addMember m).members = d.members ++ [m] := by
  cases d <;> rfl

@[simp] theorem id_addMember (m : Member) (d : TypeDecl) : (d.addMember m).id = d.id := by
  cases d <;> rfl

@[simp] theorem name_addMember (m : Member) (d : TypeDecl) : (d.addMember m).name = d.name := by
  cases d <;> rfl

/-- `class A`, `interface A` or `enum A`: how a type is spoken of in messages. -/
def label : TypeDecl → String
  | .classDecl head _ => "class " ++ head.name
  | .interfaceDecl head _ => "interface " ++ head.name
  | .enumDecl head _ _ => "enum " ++ head.name

def methodsNamed (d : TypeDecl) (name : String) : List Method :=
  d.members.filterMap fun
    | .method m => if m.head.name = name then some m else none
    | _ => none

end TypeDecl

mutual
/-- Whether a type of this simple name is the declaration itself or a member type in it. -/
def TypeDecl.declares (name : String) : TypeDecl → Bool
  | .classDecl head members => head.name == name || Member.anyDeclares name members
  | .interfaceDecl head members => head.name == name || Member.anyDeclares name members
  | .enumDecl head _ members => head.name == name || Member.anyDeclares name members

def Member.anyDeclares (name : String) : List Member → Bool
  | [] => false
  | .typeDecl d :: rest => d.declares name || Member.anyDeclares name rest
  | _ :: rest => Member.anyDeclares name rest
end

/-- The source span of an expression; parentheses have none of their own. -/
def Expr.span : Expr → Span
  | .literal _ span => span
  | .ident name => name.span
  | .binary _ _ _ span => span
  | .assign _ _ span => span
  | .call c => c.span
  | .field _ _ span => span
  | .cast _ _ span => span
  | .conditional _ _ _ span => span
  | .new _ _ span => span
  | .newAnonymous _ _ _ _ span => span
  | .paren inner => inner.span

end FactoryLowering
