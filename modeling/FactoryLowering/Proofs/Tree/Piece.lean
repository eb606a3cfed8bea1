import FactoryLowering.Proofs.Tree.Rewriting
import FactoryLowering.Tree.Editor
import Mathlib.Data.List.Forall2

/-! # Pieces of a tree

Expressions, statements, members and lists of them are all edited, read and rewritten in one manner:
the node itself comes first, then its parts from left to right. Only calls, anonymous classes and
types are treated in a manner of their own. So a property that is to hold of every piece of every
tree is settled by six cases, and the kinds of nodes need not be gone through again.
-/
namespace FactoryLowering

variable {α β σ : Type}

/-- What walks do with pieces of one kind. -/
structure Kind (α : Type) where
  edit : {σ : Type} → Editor σ → α → StateM σ α
  visits : α → List Visit
  becomes : Rewriting → Path → Path → α → α → Prop
  /-- Whether types in such a piece have no name, given whether the type around has none. -/
  hides : Bool → Bool := fun _ => true

def Editor.tell (editor : Editor σ) : List Visit → StateM σ Unit
  | [] => pure ()
  | v :: vs => do
    editor.visit v
    editor.tell vs

def Editor.body (editor : Editor σ) : TypeDecl → StateM σ TypeDecl
  | .classDecl head members => do
    let members ← editor.memberList members
    return .classDecl head members
  | .interfaceDecl head members => do
    let members ← editor.memberList members
    return .interfaceDecl head members
  | .enumDecl head constants members => do
    let constants ← editor.constantList constants
    let members ← editor.memberList members
    return .enumDecl head constants members

def Editor.anonymous (editor : Editor σ) (head : ClassHead) (members : List Member) :
    StateM σ (List Member) := do
  editor.visit (.enterAnonymous head members)
  let members ← editor.memberList members
  editor.leaveAnonymous head members
  return members

theorem Editor.typeDecl_eq (editor : Editor σ) (site : TypeSite) (d : TypeDecl) :
    editor.typeDecl site d = (do
      editor.visit (.enterType d site)
      let d' ← editor.body d
      editor.leaveType d') := by
  cases d <;> rfl

theorem Editor.methodHeads_memberList (editor : Editor σ) (ms : List Member) (s : σ) :
    methodHeads (editor.memberList ms s).1 = methodHeads ms := by
  induction ms generalizing s with
  | nil => rfl
  | cons m ms ih =>
    have hrest := ih (editor.member m s).2
    cases m with
    | method m =>
      obtain ⟨head, body⟩ := m
      exact congrArg (List.cons head) hrest
    | field => exact hrest
    | constructorDecl => exact hrest
    | initializer => exact hrest
    | typeDecl => exact hrest

theorem Editor.alike_body (editor : Editor σ) (d : TypeDecl) (s : σ) :
    d.Alike (editor.body d s).1 := by
  cases d <;> exact ⟨rfl, rfl, rfl, rfl, editor.methodHeads_memberList _ _⟩

theorem Editor.memberList_append (editor : Editor σ) (ms ns : List Member) (s : σ) :
    editor.memberList (ms ++ ns) s =
      ((editor.memberList ms s).1 ++ (editor.memberList ns (editor.memberList ms s).2).1,
        (editor.memberList ns (editor.memberList ms s).2).2) := by
  induction ms generalizing s with
  | nil => rfl
  | cons m ms ih =>
    have hrest := ih (editor.member m s).2
    have hcons : ∀ ls, editor.memberList (m :: ls) s =
        ((editor.member m s).1 :: (editor.memberList ls (editor.member m s).2).1,
          (editor.memberList ls (editor.member m s).2).2) := fun _ => rfl
    rw [List.cons_append, hcons, hrest, hcons]
    rfl

theorem Editor.expr_call (editor : Editor σ) (c : Call) :
    editor.expr (.call c) = (do
      editor.visit (.expr (.call c))
      editor.visit (.call c)
      let receiver ← editor.exprOption c.receiver
      let args ← editor.exprList c.args
      let call ← editor.call { c with receiver, args }
      return .call call) := by
  obtain ⟨id, receiver, name, args, method, span⟩ := c
  rfl

theorem Expr.visits_call (c : Call) : (Expr.call c).visits =
    .expr (.call c) :: .call c :: (Expr.visitsOption c.receiver ++ Expr.visitsList c.args) := by
  obtain ⟨id, receiver, name, args, method, span⟩ := c
  rfl

theorem Expr.locate_call (p : Path) (c : Call) : locate p (Expr.call c).visits =
    ⟨p, .expr (.call c)⟩ :: ⟨p, .call c⟩ :: (locate p (Expr.visitsOption c.receiver) ++
      locate p (Expr.visitsList c.args)) := by
  simp [Expr.visits_call, locate, Visit.pathAfter]

theorem Expr.becomes_call {r : Rewriting} {p q : Path} {c : Call} {new : Expr} :
    (Expr.call c).Becomes r p q new ↔ ∃ receiver args call,
      Expr.BecomesOption r p q c.receiver receiver ∧ Expr.BecomesList r p q c.args args ∧
      r.call p q c { c with receiver, args } call ∧ new = .call call := by
  obtain ⟨id, receiver, name, args, method, span⟩ := c
  rw [Expr.Becomes]

namespace Kind

def unit : Kind Unit where
  edit _ _ := pure ()
  visits _ := []
  becomes _ _ _ _ _ := True

def prod (K : Kind α) (L : Kind β) : Kind (α × β) where
  edit editor x := do
    let a ← K.edit editor x.1
    let b ← L.edit editor x.2
    return (a, b)
  visits x := K.visits x.1 ++ L.visits x.2
  becomes r p q x y := K.becomes r p q x.1 y.1 ∧ L.becomes r p q x.2 y.2
  hides unnamed := K.hides unnamed && L.hides unnamed

theorem edit_prod (K : Kind α) (L : Kind β) (editor : Editor σ) (a : α) (b : β) (s : σ) :
    (K.prod L).edit editor (a, b) s =
      (((K.edit editor a s).1, (L.edit editor b (K.edit editor a s).2).1),
        (L.edit editor b (K.edit editor a s).2).2) := rfl

def expr : Kind Expr where
  edit := Editor.expr
  visits := Expr.visits
  becomes r p q := Expr.Becomes r p q

def exprOption : Kind (Option Expr) where
  edit := Editor.exprOption
  visits := Expr.visitsOption
  becomes r p q := Expr.BecomesOption r p q

def exprList : Kind (List Expr) where
  edit := Editor.exprList
  visits := Expr.visitsList
  becomes r p q := Expr.BecomesList r p q

def stmt : Kind Stmt where
  edit := Editor.stmt
  visits := Stmt.visits
  becomes r p q := Stmt.Becomes r p q

def stmtOption : Kind (Option Stmt) where
  edit := Editor.stmtOption
  visits := Stmt.visitsOption
  becomes r p q := Stmt.BecomesOption r p q

def stmtList : Kind (List Stmt) where
  edit := Editor.stmtList
  visits := Stmt.visitsList
  becomes r p q := Stmt.BecomesList r p q

def declaratorList : Kind (List Declarator) where
  edit := Editor.declaratorList
  visits := Declarator.visitsList
  becomes r p q := Declarator.BecomesList r p q

def block : Kind Block where
  edit := Editor.block
  visits := Block.visits
  becomes r p q := Block.Becomes r p q

def blockOption : Kind (Option Block) where
  edit := Editor.blockOption
  visits := Block.visitsOption
  becomes r p q := Block.BecomesOption r p q

def constantList : Kind (List EnumConstant) where
  edit := Editor.constantList
  visits := EnumConstant.visitsList
  becomes r p q := EnumConstant.BecomesList r p q

def member : Kind Member where
  edit := Editor.member
  visits := Member.visits
  becomes r p q := Member.Becomes r p q
  hides unnamed := unnamed

def memberList : Kind (List Member) where
  edit := Editor.memberList
  visits := Member.visitsList
  becomes r p q := Member.BecomesList r p q
  hides unnamed := unnamed

def body : Kind TypeDecl where
  edit := Editor.body
  visits := TypeDecl.innerVisits
  becomes r p q := TypeDecl.BodyBecomes r p q
  hides unnamed := unnamed

def typeDecl (site : TypeSite) : Kind TypeDecl where
  edit editor := editor.typeDecl site
  visits := TypeDecl.visits site
  becomes r p q := TypeDecl.Becomes r p q site
  hides unnamed :=
    match site with
    | .topLevel => false
    | .inType => unnamed
    | .inBlock => true

def anonymous (head : ClassHead) : Kind (List Member) where
  edit editor := editor.anonymous head
  visits ms := .enterAnonymous head ms :: (Member.visitsList ms ++ [.leaveAnonymous head ms])
  becomes r p q ms ms' :=
    Member.BecomesList r (.anonymous head ms :: p) (.anonymous head ms' :: q) ms ms'

def types : Kind (List TypeDecl) where
  edit := Editor.types
  visits := typesVisits
  becomes r p q := List.Forall₂ (TypeDecl.Becomes r p q .topLevel)
  hides _ := false

/-- A node that is put together from its parts: walks come by the node itself, by names in it that
are not announced, and then by the parts. -/
structure Node (K : Kind α) (L : Kind β) (build : α → β) (own : α → List Visit)
    (refs : List Visit) : Prop where
  announced : ∀ a, ∀ v ∈ own a, v.Announced := by simp [Visit.Announced]
  unannounced : ∀ v ∈ refs, v.Unannounced := by simp [Visit.Unannounced]
  edit : ∀ {σ : Type} (editor : Editor σ) a, L.edit editor (build a) = (do
    editor.tell (own a)
    let a' ← K.edit editor a
    return build a') := by intros; rfl
  visits : ∀ a, L.visits (build a) = own a ++ refs ++ K.visits a := by intros; rfl
  becomes : ∀ {r p q a new}, L.becomes r p q (build a) new ↔
    ∃ a', K.becomes r p q a a' ∧ new = build a'
  hides : ∀ unnamed, L.hides unnamed = true → K.hides unnamed = true := by
    simp [Kind.unit, Kind.prod, Kind.expr, Kind.exprOption, Kind.exprList, Kind.stmt,
      Kind.stmtOption, Kind.stmtList, Kind.declaratorList, Kind.block, Kind.blockOption,
      Kind.constantList, Kind.member, Kind.memberList, Kind.body, Kind.typeDecl, Kind.anonymous]

theorem Node.quiet {K : Kind α} {L : Kind β} {build : α → β}
    {own : α → List Visit} {refs : List Visit} (n : K.Node L build own refs) (a : α) :
    ∀ v ∈ own a ++ refs, v.Quiet := fun v hv =>
  (List.mem_append.mp hv).imp (n.announced a v) (n.unannounced v)

end Kind

/-- A property of pieces that passes from the parts of a piece to the piece. -/
structure Hereditary (P : {α : Type} → Kind α → Path → α → Prop) : Prop where
  unit : ∀ {p}, P Kind.unit p ()
  /-- Visits of the first piece end at the level at which they began, so those of the second one are
  located as if they stood alone. -/
  pair : ∀ {α β : Type} {K : Kind α} {L : Kind β} {p a b}, (∀ a, Level (K.visits a)) → P K p a →
    P L p b → P (K.prod L) p (a, b)
  node : ∀ {α β : Type} {K : Kind α} {L : Kind β} (build : α → β) (own : α → List Visit)
    (refs : List Visit) {p a}, K.Node L build own refs → P K p a → P L p (build a)
  call : ∀ {p} (c : Call), P .exprOption p c.receiver → P .exprList p c.args → P .expr p (.call c)
  anonymous : ∀ {p head ms}, P .memberList (.anonymous head ms :: p) ms → P (.anonymous head) p ms
  type : ∀ {p site d}, P .body (.type d site :: p) d → P (.typeDecl site) p d

namespace Hereditary

variable {P : {α : Type} → Kind α → Path → α → Prop}

mutual

theorem expr (h : Hereditary P) : ∀ (e : Expr) (p : Path), P .expr p e
  | .literal value span, p =>
    h.node (fun _ => Expr.literal value span) (fun _ => [.expr (.literal value span)]) []
      { becomes := by simp [Kind.expr, Kind.unit, Expr.Becomes] } h.unit
  | .ident name, p =>
    h.node (fun _ => Expr.ident name) (fun _ => [.expr (.ident name)]) [.identifier name]
      { becomes := by simp [Kind.expr, Kind.unit, Expr.Becomes] } h.unit
  | .binary op left right span, p =>
    h.node (fun x => Expr.binary op x.1 x.2 span) (fun x => [.expr (.binary op x.1 x.2 span)]) []
      { becomes := by simp [Kind.expr, Kind.prod, Expr.Becomes, and_assoc] }
      (h.pair Expr.visits_level (h.expr left p) (h.expr right p))
  | .assign target value span, p =>
    h.node (fun x => Expr.assign x.1 x.2 span) (fun x => [.expr (.assign x.1 x.2 span)]) []
      { becomes := by simp [Kind.expr, Kind.prod, Expr.Becomes, and_assoc] }
      (h.pair Expr.visits_level (h.expr target p) (h.expr value p))
  | .call ⟨id, receiver, name, args, method, span⟩, p =>
    h.call ⟨id, receiver, name, args, method, span⟩ (h.exprOption receiver p) (h.exprList args p)
  | .field target name span, p =>
    h.node (fun e => Expr.field e name span) (fun e => [.expr (.field e name span)]) []
      { becomes := by simp [Kind.expr, Expr.Becomes] } (h.expr target p)
  | .cast type operand span, p =>
    h.node (fun e => Expr.cast type e span) (fun e => [.expr (.cast type e span)]) [.typeRef type]
      { becomes := by simp [Kind.expr, Expr.Becomes] } (h.expr operand p)
  | .conditional test yes no span, p =>
    h.node (fun x => Expr.conditional x.1.1 x.1.2 x.2 span)
      (fun x => [.expr (.conditional x.1.1 x.1.2 x.2 span)]) []
      { becomes := by simp [Kind.expr, Kind.prod, Expr.Becomes, and_assoc] }
      (h.pair (fun x => x.1.visits_level.append x.2.visits_level)
        (h.pair Expr.visits_level (h.expr test p) (h.expr yes p)) (h.expr no p))
  | .new type args span, p =>
    h.node (fun es => Expr.new type es span) (fun es => [.expr (.new type es span)])
      [.typeRef type] { becomes := by simp [Kind.expr, Kind.exprList, Expr.Becomes] }
      (h.exprList args p)
  | .newAnonymous type args head members span, p =>
    h.node (fun x => Expr.newAnonymous type x.1 head x.2 span)
      (fun x => [.expr (.newAnonymous type x.1 head x.2 span)]) [.typeRef type]
      { becomes := by
          simp [Kind.expr, Kind.prod, Kind.exprList, Kind.anonymous, Expr.Becomes, and_assoc] }
      (h.pair Expr.visitsList_level (h.exprList args p) (h.anonymous (h.memberList members _)))
  | .paren inner, p =>
    h.node Expr.paren (fun e => [.expr (.paren e)]) []
      { becomes := by simp [Kind.expr, Expr.Becomes] } (h.expr inner p)

theorem exprOption (h : Hereditary P) : ∀ (e : Option Expr) (p : Path), P .exprOption p e
  | none, p =>
    h.node (fun _ => none) (fun _ => []) []
      { becomes := by simp [Kind.exprOption, Kind.unit, Expr.BecomesOption] } h.unit
  | some e, p =>
    h.node some (fun _ => []) []
      { becomes := by simp [Kind.exprOption, Kind.expr, Expr.BecomesOption] } (h.expr e p)

theorem exprList (h : Hereditary P) : ∀ (es : List Expr) (p : Path), P .exprList p es
  | [], p =>
    h.node (fun _ => []) (fun _ => []) []
      { becomes := by simp [Kind.exprList, Kind.unit, Expr.BecomesList] } h.unit
  | e :: es, p =>
    h.node (fun x => x.1 :: x.2) (fun _ => []) []
      { becomes := by
          simp [Kind.exprList, Kind.prod, Kind.expr, Expr.BecomesList, and_assoc] }
      (h.pair Expr.visits_level (h.expr e p) (h.exprList es p))

theorem stmt (h : Hereditary P) : ∀ (s : Stmt) (p : Path), P .stmt p s
  | .expression value span, p =>
    h.node (fun e => Stmt.expression e span) (fun e => [.stmt (.expression e span)]) []
      { becomes := by simp [Kind.stmt, Kind.expr, Stmt.Becomes] } (h.expr value p)
  | .variables mods type declared span, p =>
    h.node (fun ds => Stmt.variables mods type ds span)
      (fun ds => [.stmt (.variables mods type ds span)]) [.typeRef type]
      { becomes := by simp [Kind.stmt, Kind.declaratorList, Stmt.Becomes] }
      (h.declaratorList declared p)
  | .typeDecl decl, p =>
    h.node Stmt.typeDecl (fun d => [.stmt (.typeDecl d)]) []
      { becomes := by simp [Kind.stmt, Kind.typeDecl, Stmt.Becomes] } (h.typeDecl .inBlock decl p)
  | .ifElse test yes no span, p =>
    h.node (fun x => Stmt.ifElse x.1.1 x.1.2 x.2 span)
      (fun x => [.stmt (.ifElse x.1.1 x.1.2 x.2 span)]) []
      { becomes := by
          simp [Kind.stmt, Kind.prod, Kind.expr, Kind.stmtOption, Stmt.Becomes, and_assoc] }
      (h.pair (fun x => x.1.visits_level.append x.2.visits_level)
        (h.pair Expr.visits_level (h.expr test p) (h.stmt yes p)) (h.stmtOption no p))
  | .whileLoop test body span, p =>
    h.node (fun x => Stmt.whileLoop x.1 x.2 span) (fun x => [.stmt (.whileLoop x.1 x.2 span)]) []
      { becomes := by simp [Kind.stmt, Kind.prod, Kind.expr, Stmt.Becomes, and_assoc] }
      (h.pair Expr.visits_level (h.expr test p) (h.stmt body p))
  | .forEach type name iterable body span, p =>
    h.node (fun x => Stmt.forEach type name x.1 x.2 span)
      (fun x => [.stmt (.forEach type name x.1 x.2 span)]) [.typeRef type]
      { becomes := by simp [Kind.stmt, Kind.prod, Kind.expr, Stmt.Becomes, and_assoc] }
      (h.pair Expr.visits_level (h.expr iterable p) (h.stmt body p))
  | .returns value span, p =>
    h.node (fun e => Stmt.returns e span) (fun e => [.stmt (.returns e span)]) []
      { becomes := by simp [Kind.stmt, Kind.exprOption, Stmt.Becomes] } (h.exprOption value p)
  | .throws value span, p =>
    h.node (fun e => Stmt.throws e span) (fun e => [.stmt (.throws e span)]) []
      { becomes := by simp [Kind.stmt, Kind.expr, Stmt.Becomes] } (h.expr value p)
  | .block body, p =>
    h.node Stmt.block (fun b => [.stmt (.block b)]) []
      { becomes := by simp [Kind.stmt, Kind.block, Stmt.Becomes] } (h.block body p)
  | .empty, p =>
    h.node (fun _ => Stmt.empty) (fun _ => [.stmt .empty]) []
      { becomes := by simp [Kind.stmt, Kind.unit, Stmt.Becomes] } h.unit

theorem stmtOption (h : Hereditary P) : ∀ (s : Option Stmt) (p : Path), P .stmtOption p s
  | none, p =>
    h.node (fun _ => none) (fun _ => []) []
      { becomes := by simp [Kind.stmtOption, Kind.unit, Stmt.BecomesOption] } h.unit
  | some s, p =>
    h.node some (fun _ => []) []
      { becomes := by simp [Kind.stmtOption, Kind.stmt, Stmt.BecomesOption] } (h.stmt s p)

theorem stmtList (h : Hereditary P) : ∀ (ss : List Stmt) (p : Path), P .stmtList p ss
  | [], p =>
    h.node (fun _ => []) (fun _ => []) []
      { becomes := by simp [Kind.stmtList, Kind.unit, Stmt.BecomesList] } h.unit
  | s :: ss, p =>
    h.node (fun x => x.1 :: x.2) (fun _ => []) []
      { becomes := by simp [Kind.stmtList, Kind.prod, Kind.stmt, Stmt.BecomesList, and_assoc] }
      (h.pair Stmt.visits_level (h.stmt s p) (h.stmtList ss p))

theorem declaratorList (h : Hereditary P) : ∀ (ds : List Declarator) (p : Path),
    P .declaratorList p ds
  | [], p =>
    h.node (fun _ => []) (fun _ => []) []
      { becomes := by simp [Kind.declaratorList, Kind.unit, Declarator.BecomesList] } h.unit
  | ⟨name, init, span⟩ :: ds, p =>
    h.node (fun x => ⟨name, x.1, span⟩ :: x.2) (fun _ => []) []
      { becomes := by
          simp [Kind.declaratorList, Kind.prod, Kind.exprOption, Declarator.BecomesList,
            and_assoc] }
      (h.pair Expr.visitsOption_level (h.exprOption init p) (h.declaratorList ds p))

theorem block (h : Hereditary P) : ∀ (b : Block) (p : Path), P .block p b
  | ⟨stmts, span⟩, p =>
    h.node (fun ss => Block.mk ss span) (fun ss => [.block ⟨ss, span⟩]) []
      { becomes := by simp [Kind.block, Kind.stmtList, Block.Becomes] } (h.stmtList stmts p)

theorem blockOption (h : Hereditary P) : ∀ (b : Option Block) (p : Path), P .blockOption p b
  | none, p =>
    h.node (fun _ => none) (fun _ => []) []
      { becomes := by simp [Kind.blockOption, Kind.unit, Block.BecomesOption] } h.unit
  | some b, p =>
    h.node some (fun _ => []) []
      { becomes := by simp [Kind.blockOption, Kind.block, Block.BecomesOption] } (h.block b p)

theorem member (h : Hereditary P) : ∀ (m : Member) (p : Path), P .member p m
  | .field head init, p =>
    h.node (fun e => Member.field head e) (fun e => [.member (.field head e)])
      [.typeRef head.type] { becomes := by simp [Kind.member, Kind.exprOption, Member.Becomes] }
      (h.exprOption init p)
  | .method ⟨head, body⟩, p =>
    h.node (fun b => Member.method ⟨head, b⟩) (fun b => [.member (.method ⟨head, b⟩)]) head.visits
      { unannounced := head.unannounced
        becomes := by simp [Kind.member, Kind.blockOption, Member.Becomes] }
      (h.blockOption body p)
  | .constructorDecl head body, p =>
    h.node (fun b => Member.constructorDecl head b) (fun b => [.member (.constructorDecl head b)])
      (parameterVisits head.params)
      { unannounced := unannounced_parameters _
        becomes := by simp [Kind.member, Kind.block, Member.Becomes] }
      (h.block body p)
  | .initializer isStatic body span, p =>
    h.node (fun b => Member.initializer isStatic b span)
      (fun b => [.member (.initializer isStatic b span)]) []
      { becomes := by simp [Kind.member, Kind.block, Member.Becomes] } (h.block body p)
  | .typeDecl decl, p =>
    h.node Member.typeDecl (fun d => [.member (.typeDecl d)]) []
      { becomes := by simp [Kind.member, Kind.typeDecl, Member.Becomes] }
      (h.typeDecl .inType decl p)

theorem memberList (h : Hereditary P) : ∀ (ms : List Member) (p : Path), P .memberList p ms
  | [], p =>
    h.node (fun _ => []) (fun _ => []) []
      { becomes := by simp [Kind.memberList, Kind.unit, Member.BecomesList] } h.unit
  | m :: ms, p =>
    h.node (fun x => x.1 :: x.2) (fun _ => []) []
      { becomes := by
          simp [Kind.memberList, Kind.prod, Kind.member, Member.BecomesList, and_assoc] }
      (h.pair Member.visits_level (h.member m p) (h.memberList ms p))

theorem constantList (h : Hereditary P) : ∀ (cs : List EnumConstant) (p : Path),
    P .constantList p cs
  | [], p =>
    h.node (fun _ => []) (fun _ => []) []
      { becomes := by simp [Kind.constantList, Kind.unit, EnumConstant.BecomesList] } h.unit
  | ⟨name, args, span⟩ :: cs, p =>
    h.node (fun x => ⟨name, x.1, span⟩ :: x.2) (fun _ => []) []
      { becomes := by
          simp [Kind.constantList, Kind.prod, Kind.exprList, EnumConstant.BecomesList,
            and_assoc] }
      (h.pair Expr.visitsList_level (h.exprList args p) (h.constantList cs p))

theorem typeDecl (h : Hereditary P) (site : TypeSite) : ∀ (d : TypeDecl) (p : Path),
    P (.typeDecl site) p d
  | .classDecl head members, p =>
    h.type (h.node (fun ms => TypeDecl.classDecl head ms) (fun _ => []) head.visits
      { unannounced := head.unannounced
        becomes := by simp [Kind.body, Kind.memberList, TypeDecl.BodyBecomes] }
      (h.memberList members _))
  | .interfaceDecl head members, p =>
    h.type (h.node (fun ms => TypeDecl.interfaceDecl head ms) (fun _ => []) head.visits
      { unannounced := head.unannounced
        becomes := by simp [Kind.body, Kind.memberList, TypeDecl.BodyBecomes] }
      (h.memberList members _))
  | .enumDecl head constants members, p =>
    h.type (h.node (fun x => TypeDecl.enumDecl head x.1 x.2) (fun _ => []) head.visits
      { unannounced := head.unannounced
        visits := by simp [Kind.body, Kind.prod, Kind.constantList, Kind.memberList,
          TypeDecl.innerVisits]
        becomes := by
          simp [Kind.body, Kind.prod, Kind.constantList, Kind.memberList, TypeDecl.BodyBecomes,
            and_assoc] }
      (h.pair EnumConstant.visitsList_level (h.constantList constants _) (h.memberList members _)))

end

theorem types (h : Hereditary P) (p : Path) : ∀ ds : List TypeDecl, P .types p ds
  | [] =>
    h.node (fun _ => []) (fun _ => []) []
      { becomes := by simp [Kind.types, Kind.unit] } h.unit
  | d :: ds =>
    h.node (fun x => x.1 :: x.2) (fun _ => []) []
      { becomes := by
          simp [Kind.types, Kind.prod, Kind.typeDecl, List.forall₂_cons_left_iff, and_assoc]
        hides := by simp [Kind.types] }
      (h.pair (TypeDecl.visits_level .topLevel) (h.typeDecl .topLevel d p) (h.types p ds))

end Hereditary

theorem typesBecome_iff {r : Rewriting} {ds new : List TypeDecl} :
    TypesBecome r ds new ↔ Kind.types.becomes r [] [] ds new := by
  induction ds generalizing new with
  | nil => exact List.forall₂_nil_left_iff.symm
  | cons d ds ih =>
    simp only [TypesBecome, ih]
    simp [Kind.types, List.forall₂_cons_left_iff]

theorem Rewriting.becomes_refl {r : Rewriting} (hcall : ∀ p q c, r.call p q c c c)
    (htype : ∀ p q site d, r.type p q site d d d) :
    Hereditary fun K _ a => ∀ p q, K.becomes r p q a a where
  unit _ _ := trivial
  pair _ ha hb p q := ⟨ha p q, hb p q⟩
  node build own refs _ _ n ha p q := n.becomes.mpr ⟨_, ha p q, rfl⟩
  call c hr ha p q := by
    refine Expr.becomes_call.mpr ⟨c.receiver, c.args, c, hr p q, ha p q, ?_, rfl⟩
    obtain ⟨id, receiver, name, args, method, span⟩ := c
    exact hcall p q _
  anonymous hms p q := hms _ _
  type hd p q := TypeDecl.becomes_iff.mpr ⟨_, hd _ _, htype p q _ _⟩

end FactoryLowering
