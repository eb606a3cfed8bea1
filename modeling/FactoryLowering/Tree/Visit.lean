import FactoryLowering.Tree.Basic

/-! Reading a tree: the nodes it holds, in source order, each before what stands in it. Types
and anonymous class bodies are also left again, so that nesting can be followed. -/
namespace FactoryLowering

inductive Visit where
  | enterType (decl : TypeDecl) (site : TypeSite)
  | leaveType (decl : TypeDecl)
  | enterAnonymous (head : ClassHead) (members : List Member)
  | leaveAnonymous (head : ClassHead) (members : List Member)
  | member (member : Member)
  | block (block : Block)
  | stmt (stmt : Stmt)
  | expr (expr : Expr)
  | call (call : Call)
  | identifier (name : Identifier)
  | typeRef (type : TypeRef)

def boundVisits (params : List TypeParam) : List Visit :=
  params.flatMap fun p => p.bounds.map .typeRef

def parameterVisits (params : List Parameter) : List Visit :=
  params.map fun p => .typeRef p.type

def ClassHead.visits (head : ClassHead) : List Visit :=
  boundVisits head.typeParams ++ head.superclass.toList.map .typeRef ++ head.interfaces.map .typeRef

def InterfaceHead.visits (head : InterfaceHead) : List Visit :=
  boundVisits head.typeParams ++ head.superinterfaces.map .typeRef

def EnumHead.visits (head : EnumHead) : List Visit := head.interfaces.map .typeRef

def MethodHead.visits (head : MethodHead) : List Visit :=
  boundVisits head.typeParams ++ head.result.toList.map .typeRef ++ parameterVisits head.params

mutual

def Expr.visits : Expr → List Visit
  | .literal value span => [.expr (.literal value span)]
  | .ident name => [.expr (.ident name), .identifier name]
  | .binary op left right span =>
    .expr (.binary op left right span) :: (left.visits ++ right.visits)
  | .assign target value span =>
    .expr (.assign target value span) :: (target.visits ++ value.visits)
  | .call ⟨id, receiver, name, args, method, span⟩ =>
    .expr (.call ⟨id, receiver, name, args, method, span⟩) ::
      .call ⟨id, receiver, name, args, method, span⟩ ::
      (Expr.visitsOption receiver ++ Expr.visitsList args)
  | .field target name span => .expr (.field target name span) :: target.visits
  | .cast type operand span => .expr (.cast type operand span) :: .typeRef type :: operand.visits
  | .conditional test yes no span =>
    .expr (.conditional test yes no span) :: (test.visits ++ yes.visits ++ no.visits)
  | .new type args span =>
    .expr (.new type args span) :: .typeRef type :: Expr.visitsList args
  | .newAnonymous type args head members span =>
    .expr (.newAnonymous type args head members span) :: .typeRef type ::
      (Expr.visitsList args ++ .enterAnonymous head members ::
        (Member.visitsList members ++ [.leaveAnonymous head members]))
  | .paren inner => .expr (.paren inner) :: inner.visits

def Expr.visitsOption : Option Expr → List Visit
  | none => []
  | some e => e.visits

def Expr.visitsList : List Expr → List Visit
  | [] => []
  | e :: es => e.visits ++ Expr.visitsList es

def Stmt.visits : Stmt → List Visit
  | .expression value span => .stmt (.expression value span) :: value.visits
  | .variables mods type declared span =>
    .stmt (.variables mods type declared span) :: .typeRef type :: Declarator.visitsList declared
  | .typeDecl decl => .stmt (.typeDecl decl) :: decl.visits .inBlock
  | .ifElse test yes no span =>
    .stmt (.ifElse test yes no span) :: (test.visits ++ yes.visits ++ Stmt.visitsOption no)
  | .whileLoop test body span => .stmt (.whileLoop test body span) :: (test.visits ++ body.visits)
  | .forEach type name iterable body span =>
    .stmt (.forEach type name iterable body span) :: .typeRef type ::
      (iterable.visits ++ body.visits)
  | .returns value span => .stmt (.returns value span) :: Expr.visitsOption value
  | .throws value span => .stmt (.throws value span) :: value.visits
  | .block body => .stmt (.block body) :: body.visits
  | .empty => [.stmt .empty]

def Stmt.visitsOption : Option Stmt → List Visit
  | none => []
  | some s => s.visits

def Stmt.visitsList : List Stmt → List Visit
  | [] => []
  | s :: ss => s.visits ++ Stmt.visitsList ss

def Declarator.visitsList : List Declarator → List Visit
  | [] => []
  | ⟨_, init, _⟩ :: ds => Expr.visitsOption init ++ Declarator.visitsList ds

def Block.visits : Block → List Visit
  | ⟨stmts, span⟩ => .block ⟨stmts, span⟩ :: Stmt.visitsList stmts

def Block.visitsOption : Option Block → List Visit
  | none => []
  | some b => b.visits

def Member.visits : Member → List Visit
  | .field head init => .member (.field head init) :: .typeRef head.type :: Expr.visitsOption init
  | .method ⟨head, body⟩ =>
    .member (.method ⟨head, body⟩) :: (head.visits ++ Block.visitsOption body)
  | .constructorDecl head body =>
    .member (.constructorDecl head body) :: (parameterVisits head.params ++ body.visits)
  | .initializer isStatic body span => .member (.initializer isStatic body span) :: body.visits
  | .typeDecl decl => .member (.typeDecl decl) :: decl.visits .inType

def Member.visitsList : List Member → List Visit
  | [] => []
  | m :: ms => m.visits ++ Member.visitsList ms

def EnumConstant.visitsList : List EnumConstant → List Visit
  | [] => []
  | ⟨_, args, _⟩ :: cs => Expr.visitsList args ++ EnumConstant.visitsList cs

def TypeDecl.visits (site : TypeSite) : TypeDecl → List Visit
  | .classDecl head members =>
    .enterType (.classDecl head members) site ::
      (head.visits ++ Member.visitsList members ++ [.leaveType (.classDecl head members)])
  | .interfaceDecl head members =>
    .enterType (.interfaceDecl head members) site ::
      (head.visits ++ Member.visitsList members ++ [.leaveType (.interfaceDecl head members)])
  | .enumDecl head constants members =>
    .enterType (.enumDecl head constants members) site ::
      (head.visits ++ EnumConstant.visitsList constants ++ Member.visitsList members ++
        [.leaveType (.enumDecl head constants members)])

end

def typesVisits (decls : List TypeDecl) : List Visit :=
  decls.flatMap (TypeDecl.visits .topLevel)

/-- Every call, an enclosing one before those in its receiver and arguments. -/
def callsOf (visits : List Visit) : List Call :=
  visits.filterMap fun
    | .call c => some c
    | _ => none

end FactoryLowering
