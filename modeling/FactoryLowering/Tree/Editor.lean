import FactoryLowering.Tree.Visit

/-! Editing a tree in one walk. An editor is told of every node before the walk enters it, may
replace a call once its receiver and arguments are done, and may replace a type once its members
are done. Everything else keeps its place, so an editor changes nothing it does not name. -/
namespace FactoryLowering

structure Editor (σ : Type) where
  /-- Told of a node on the way down; identifiers and written types are not announced. -/
  visit : Visit → StateM σ Unit := fun _ => pure ()
  call : Call → StateM σ Call := pure
  leaveType : TypeDecl → StateM σ TypeDecl := pure
  leaveAnonymous : ClassHead → List Member → StateM σ Unit := fun _ _ => pure ()

namespace Editor

variable {σ : Type}

mutual

def expr (editor : Editor σ) : Expr → StateM σ Expr
  | .literal value span => do
    editor.visit (.expr (.literal value span))
    return .literal value span
  | .ident name => do
    editor.visit (.expr (.ident name))
    return .ident name
  | .binary op left right span => do
    editor.visit (.expr (.binary op left right span))
    let left ← editor.expr left
    let right ← editor.expr right
    return .binary op left right span
  | .assign target value span => do
    editor.visit (.expr (.assign target value span))
    let target ← editor.expr target
    let value ← editor.expr value
    return .assign target value span
  | .call ⟨id, receiver, name, args, method, span⟩ => do
    editor.visit (.expr (.call ⟨id, receiver, name, args, method, span⟩))
    editor.visit (.call ⟨id, receiver, name, args, method, span⟩)
    let receiver ← editor.exprOption receiver
    let args ← editor.exprList args
    let call ← editor.call ⟨id, receiver, name, args, method, span⟩
    return .call call
  | .field target name span => do
    editor.visit (.expr (.field target name span))
    let target ← editor.expr target
    return .field target name span
  | .cast type operand span => do
    editor.visit (.expr (.cast type operand span))
    let operand ← editor.expr operand
    return .cast type operand span
  | .conditional test yes no span => do
    editor.visit (.expr (.conditional test yes no span))
    let test ← editor.expr test
    let yes ← editor.expr yes
    let no ← editor.expr no
    return .conditional test yes no span
  | .new type args span => do
    editor.visit (.expr (.new type args span))
    let args ← editor.exprList args
    return .new type args span
  | .newAnonymous type args head members span => do
    editor.visit (.expr (.newAnonymous type args head members span))
    let args ← editor.exprList args
    editor.visit (.enterAnonymous head members)
    let members ← editor.memberList members
    editor.leaveAnonymous head members
    return .newAnonymous type args head members span
  | .paren inner => do
    editor.visit (.expr (.paren inner))
    let inner ← editor.expr inner
    return .paren inner

def exprOption (editor : Editor σ) : Option Expr → StateM σ (Option Expr)
  | none => return none
  | some e => do
    let e ← editor.expr e
    return some e

def exprList (editor : Editor σ) : List Expr → StateM σ (List Expr)
  | [] => return []
  | e :: es => do
    let e ← editor.expr e
    let es ← editor.exprList es
    return e :: es

def stmt (editor : Editor σ) : Stmt → StateM σ Stmt
  | .expression value span => do
    editor.visit (.stmt (.expression value span))
    let value ← editor.expr value
    return .expression value span
  | .variables mods type declared span => do
    editor.visit (.stmt (.variables mods type declared span))
    let declared ← editor.declaratorList declared
    return .variables mods type declared span
  | .typeDecl decl => do
    editor.visit (.stmt (.typeDecl decl))
    let decl ← editor.typeDecl .inBlock decl
    return .typeDecl decl
  | .ifElse test yes no span => do
    editor.visit (.stmt (.ifElse test yes no span))
    let test ← editor.expr test
    let yes ← editor.stmt yes
    let no ← editor.stmtOption no
    return .ifElse test yes no span
  | .whileLoop test body span => do
    editor.visit (.stmt (.whileLoop test body span))
    let test ← editor.expr test
    let body ← editor.stmt body
    return .whileLoop test body span
  | .forEach type name iterable body span => do
    editor.visit (.stmt (.forEach type name iterable body span))
    let iterable ← editor.expr iterable
    let body ← editor.stmt body
    return .forEach type name iterable body span
  | .returns value span => do
    editor.visit (.stmt (.returns value span))
    let value ← editor.exprOption value
    return .returns value span
  | .throws value span => do
    editor.visit (.stmt (.throws value span))
    let value ← editor.expr value
    return .throws value span
  | .block body => do
    editor.visit (.stmt (.block body))
    let body ← editor.block body
    return .block body
  | .empty => do
    editor.visit (.stmt .empty)
    return .empty

def stmtOption (editor : Editor σ) : Option Stmt → StateM σ (Option Stmt)
  | none => return none
  | some s => do
    let s ← editor.stmt s
    return some s

def stmtList (editor : Editor σ) : List Stmt → StateM σ (List Stmt)
  | [] => return []
  | s :: ss => do
    let s ← editor.stmt s
    let ss ← editor.stmtList ss
    return s :: ss

def declaratorList (editor : Editor σ) : List Declarator → StateM σ (List Declarator)
  | [] => return []
  | ⟨name, init, span⟩ :: ds => do
    let init ← editor.exprOption init
    let ds ← editor.declaratorList ds
    return ⟨name, init, span⟩ :: ds

def block (editor : Editor σ) : Block → StateM σ Block
  | ⟨stmts, span⟩ => do
    editor.visit (.block ⟨stmts, span⟩)
    let stmts ← editor.stmtList stmts
    return ⟨stmts, span⟩

def blockOption (editor : Editor σ) : Option Block → StateM σ (Option Block)
  | none => return none
  | some b => do
    let b ← editor.block b
    return some b

def member (editor : Editor σ) : Member → StateM σ Member
  | .field head init => do
    editor.visit (.member (.field head init))
    let init ← editor.exprOption init
    return .field head init
  | .method ⟨head, body⟩ => do
    editor.visit (.member (.method ⟨head, body⟩))
    let body ← editor.blockOption body
    return .method ⟨head, body⟩
  | .constructorDecl head body => do
    editor.visit (.member (.constructorDecl head body))
    let body ← editor.block body
    return .constructorDecl head body
  | .initializer isStatic body span => do
    editor.visit (.member (.initializer isStatic body span))
    let body ← editor.block body
    return .initializer isStatic body span
  | .typeDecl decl => do
    editor.visit (.member (.typeDecl decl))
    let decl ← editor.typeDecl .inType decl
    return .typeDecl decl

def memberList (editor : Editor σ) : List Member → StateM σ (List Member)
  | [] => return []
  | m :: ms => do
    let m ← editor.member m
    let ms ← editor.memberList ms
    return m :: ms

def constantList (editor : Editor σ) : List EnumConstant → StateM σ (List EnumConstant)
  | [] => return []
  | ⟨name, args, span⟩ :: cs => do
    let args ← editor.exprList args
    let cs ← editor.constantList cs
    return ⟨name, args, span⟩ :: cs

def typeDecl (editor : Editor σ) (site : TypeSite) : TypeDecl → StateM σ TypeDecl
  | .classDecl head members => do
    editor.visit (.enterType (.classDecl head members) site)
    let members ← editor.memberList members
    editor.leaveType (.classDecl head members)
  | .interfaceDecl head members => do
    editor.visit (.enterType (.interfaceDecl head members) site)
    let members ← editor.memberList members
    editor.leaveType (.interfaceDecl head members)
  | .enumDecl head constants members => do
    editor.visit (.enterType (.enumDecl head constants members) site)
    let constants ← editor.constantList constants
    let members ← editor.memberList members
    editor.leaveType (.enumDecl head constants members)

end

def types (editor : Editor σ) : List TypeDecl → StateM σ (List TypeDecl)
  | [] => return []
  | d :: ds => do
    let d ← editor.typeDecl .topLevel d
    let ds ← editor.types ds
    return d :: ds

/-- The editor that changes nothing and writes down every visit. -/
def recorder : Editor (List Visit) where
  visit v := modify (· ++ [v])
  leaveType decl := do
    modify (· ++ [.leaveType decl])
    return decl
  leaveAnonymous head members := modify (· ++ [.leaveAnonymous head members])

end Editor

end FactoryLowering
