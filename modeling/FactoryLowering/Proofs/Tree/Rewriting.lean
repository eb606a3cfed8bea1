import FactoryLowering.Proofs.Tree.Place
import FactoryLowering.Scope
import Mathlib.Data.List.Forall2

/-! Trees that arise from other trees by rewriting calls and types in place. All other nodes keep
their place, kind and data. A rule sees where a node stood and where the new one stands, so it can
speak of what lies around both. -/
namespace FactoryLowering

/-- What may become of calls and of types. Both rules are given the path of the old node, the path
of the new one, the old node, the old node with all subtrees already rewritten, and the new node. -/
structure Rewriting where
  call : Path → Path → Call → Call → Call → Prop
  type : Path → Path → TypeSite → TypeDecl → TypeDecl → TypeDecl → Prop

mutual

def Expr.Becomes (r : Rewriting) (p q : Path) : Expr → Expr → Prop
  | .literal value span, new => new = .literal value span
  | .ident name, new => new = .ident name
  | .binary op left right span, new => ∃ left' right',
      left.Becomes r p q left' ∧ right.Becomes r p q right' ∧ new = .binary op left' right' span
  | .assign target value span, new => ∃ target' value',
      target.Becomes r p q target' ∧ value.Becomes r p q value' ∧ new = .assign target' value' span
  | .call ⟨id, receiver, name, args, method, span⟩, new => ∃ receiver' args' call',
      Expr.BecomesOption r p q receiver receiver' ∧ Expr.BecomesList r p q args args' ∧
      r.call p q ⟨id, receiver, name, args, method, span⟩ ⟨id, receiver', name, args', method, span⟩
        call' ∧ new = .call call'
  | .field target name span, new => ∃ target',
      target.Becomes r p q target' ∧ new = .field target' name span
  | .cast type operand span, new => ∃ operand',
      operand.Becomes r p q operand' ∧ new = .cast type operand' span
  | .conditional test yes no span, new => ∃ test' yes' no',
      test.Becomes r p q test' ∧ yes.Becomes r p q yes' ∧ no.Becomes r p q no' ∧
      new = .conditional test' yes' no' span
  | .new type args span, new => ∃ args',
      Expr.BecomesList r p q args args' ∧ new = .new type args' span
  | .newAnonymous type args head members span, new => ∃ args' members',
      Expr.BecomesList r p q args args' ∧
      Member.BecomesList r (.anonymous head members :: p) (.anonymous head members' :: q)
        members members' ∧
      new = .newAnonymous type args' head members' span
  | .paren inner, new => ∃ inner', inner.Becomes r p q inner' ∧ new = .paren inner'
  termination_by structural old _ => old

def Expr.BecomesOption (r : Rewriting) (p q : Path) : Option Expr → Option Expr → Prop
  | none, new => new = none
  | some e, new => ∃ e', e.Becomes r p q e' ∧ new = some e'
  termination_by structural old _ => old

def Expr.BecomesList (r : Rewriting) (p q : Path) : List Expr → List Expr → Prop
  | [], new => new = []
  | e :: es, new => ∃ e' es', e.Becomes r p q e' ∧ Expr.BecomesList r p q es es' ∧ new = e' :: es'
  termination_by structural old _ => old

def Stmt.Becomes (r : Rewriting) (p q : Path) : Stmt → Stmt → Prop
  | .expression value span, new => ∃ value',
      value.Becomes r p q value' ∧ new = .expression value' span
  | .variables mods type declared span, new => ∃ declared',
      Declarator.BecomesList r p q declared declared' ∧ new = .variables mods type declared' span
  | .typeDecl decl, new => ∃ decl', decl.Becomes r p q .inBlock decl' ∧ new = .typeDecl decl'
  | .ifElse test yes no span, new => ∃ test' yes' no',
      test.Becomes r p q test' ∧ yes.Becomes r p q yes' ∧ Stmt.BecomesOption r p q no no' ∧
      new = .ifElse test' yes' no' span
  | .whileLoop test body span, new => ∃ test' body',
      test.Becomes r p q test' ∧ body.Becomes r p q body' ∧ new = .whileLoop test' body' span
  | .forEach type name iterable body span, new => ∃ iterable' body',
      iterable.Becomes r p q iterable' ∧ body.Becomes r p q body' ∧
      new = .forEach type name iterable' body' span
  | .returns value span, new => ∃ value',
      Expr.BecomesOption r p q value value' ∧ new = .returns value' span
  | .throws value span, new => ∃ value', value.Becomes r p q value' ∧ new = .throws value' span
  | .block body, new => ∃ body', body.Becomes r p q body' ∧ new = .block body'
  | .empty, new => new = .empty
  termination_by structural old _ => old

def Stmt.BecomesOption (r : Rewriting) (p q : Path) : Option Stmt → Option Stmt → Prop
  | none, new => new = none
  | some s, new => ∃ s', s.Becomes r p q s' ∧ new = some s'
  termination_by structural old _ => old

def Stmt.BecomesList (r : Rewriting) (p q : Path) : List Stmt → List Stmt → Prop
  | [], new => new = []
  | s :: ss, new => ∃ s' ss', s.Becomes r p q s' ∧ Stmt.BecomesList r p q ss ss' ∧ new = s' :: ss'
  termination_by structural old _ => old

def Declarator.BecomesList (r : Rewriting) (p q : Path) :
    List Declarator → List Declarator → Prop
  | [], new => new = []
  | ⟨name, init, span⟩ :: ds, new => ∃ init' ds',
      Expr.BecomesOption r p q init init' ∧ Declarator.BecomesList r p q ds ds' ∧
      new = ⟨name, init', span⟩ :: ds'
  termination_by structural old _ => old

def Block.Becomes (r : Rewriting) (p q : Path) : Block → Block → Prop
  | ⟨stmts, span⟩, new => ∃ stmts', Stmt.BecomesList r p q stmts stmts' ∧ new = ⟨stmts', span⟩
  termination_by structural old _ => old

def Block.BecomesOption (r : Rewriting) (p q : Path) : Option Block → Option Block → Prop
  | none, new => new = none
  | some b, new => ∃ b', b.Becomes r p q b' ∧ new = some b'
  termination_by structural old _ => old

def Member.Becomes (r : Rewriting) (p q : Path) : Member → Member → Prop
  | .field head init, new => ∃ init', Expr.BecomesOption r p q init init' ∧ new = .field head init'
  | .method ⟨head, body⟩, new => ∃ body',
      Block.BecomesOption r p q body body' ∧ new = .method ⟨head, body'⟩
  | .constructorDecl head body, new => ∃ body',
      body.Becomes r p q body' ∧ new = .constructorDecl head body'
  | .initializer isStatic body span, new => ∃ body',
      body.Becomes r p q body' ∧ new = .initializer isStatic body' span
  | .typeDecl decl, new => ∃ decl', decl.Becomes r p q .inType decl' ∧ new = .typeDecl decl'
  termination_by structural old _ => old

def Member.BecomesList (r : Rewriting) (p q : Path) : List Member → List Member → Prop
  | [], new => new = []
  | m :: ms, new => ∃ m' ms',
      m.Becomes r p q m' ∧ Member.BecomesList r p q ms ms' ∧ new = m' :: ms'
  termination_by structural old _ => old

def EnumConstant.BecomesList (r : Rewriting) (p q : Path) :
    List EnumConstant → List EnumConstant → Prop
  | [], new => new = []
  | ⟨name, args, span⟩ :: cs, new => ∃ args' cs',
      Expr.BecomesList r p q args args' ∧ EnumConstant.BecomesList r p q cs cs' ∧
      new = ⟨name, args', span⟩ :: cs'
  termination_by structural old _ => old

def TypeDecl.Becomes (r : Rewriting) (p q : Path) (site : TypeSite) : TypeDecl → TypeDecl → Prop
  | .classDecl head members, new => ∃ members',
      Member.BecomesList r (.type (.classDecl head members) site :: p) (.type new site :: q)
        members members' ∧
      r.type p q site (.classDecl head members) (.classDecl head members') new
  | .interfaceDecl head members, new => ∃ members',
      Member.BecomesList r (.type (.interfaceDecl head members) site :: p) (.type new site :: q)
        members members' ∧
      r.type p q site (.interfaceDecl head members) (.interfaceDecl head members') new
  | .enumDecl head constants members, new => ∃ constants' members',
      EnumConstant.BecomesList r (.type (.enumDecl head constants members) site :: p)
        (.type new site :: q) constants constants' ∧
      Member.BecomesList r (.type (.enumDecl head constants members) site :: p)
        (.type new site :: q) members members' ∧
      r.type p q site (.enumDecl head constants members) (.enumDecl head constants' members') new
  termination_by structural old _ => old

end

def TypesBecome (r : Rewriting) : List TypeDecl → List TypeDecl → Prop
  | [], new => new = []
  | d :: ds, new =>
    ∃ d' ds', d.Becomes r [] [] .topLevel d' ∧ TypesBecome r ds ds' ∧ new = d' :: ds'

/-- A type whose constants and members are rewritten and whose head is the same. -/
def TypeDecl.BodyBecomes (r : Rewriting) (p q : Path) : TypeDecl → TypeDecl → Prop
  | .classDecl head members, new => ∃ members',
      Member.BecomesList r p q members members' ∧ new = .classDecl head members'
  | .interfaceDecl head members, new => ∃ members',
      Member.BecomesList r p q members members' ∧ new = .interfaceDecl head members'
  | .enumDecl head constants members, new => ∃ constants' members',
      EnumConstant.BecomesList r p q constants constants' ∧
      Member.BecomesList r p q members members' ∧ new = .enumDecl head constants' members'

theorem TypeDecl.becomes_iff {r : Rewriting} {p q : Path} {site : TypeSite} {d new : TypeDecl} :
    d.Becomes r p q site new ↔ ∃ d', d.BodyBecomes r (.type d site :: p) (.type new site :: q) d' ∧
      r.type p q site d d' new := by
  cases d with
  | classDecl head members =>
    rw [TypeDecl.Becomes]
    constructor
    · rintro ⟨ms, hms, hr⟩
      exact ⟨_, ⟨ms, hms, rfl⟩, hr⟩
    · rintro ⟨_, ⟨ms, hms, rfl⟩, hr⟩
      exact ⟨ms, hms, hr⟩
  | interfaceDecl head members =>
    rw [TypeDecl.Becomes]
    constructor
    · rintro ⟨ms, hms, hr⟩
      exact ⟨_, ⟨ms, hms, rfl⟩, hr⟩
    · rintro ⟨_, ⟨ms, hms, rfl⟩, hr⟩
      exact ⟨ms, hms, hr⟩
  | enumDecl head constants members =>
    rw [TypeDecl.Becomes]
    constructor
    · rintro ⟨cs, ms, hcs, hms, hr⟩
      exact ⟨_, ⟨cs, ms, hcs, hms, rfl⟩, hr⟩
    · rintro ⟨_, ⟨cs, ms, hcs, hms, rfl⟩, hr⟩
      exact ⟨cs, ms, hcs, hms, hr⟩

def methodHeads (members : List Member) : List MethodHead :=
  members.filterMap fun
    | .method m => some m.head
    | _ => none

/-- Two versions of one type: all that is said about the type itself is the same, and so are the
heads of its own methods. -/
structure TypeDecl.Alike (d d' : TypeDecl) : Prop where
  id : d'.id = d.id
  name : d'.name = d.name
  mods : d'.mods = d.mods
  kind : d'.scopeKind = d.scopeKind
  heads : methodHeads d'.members = methodHeads d.members

variable {r : Rewriting} {p q : Path}

theorem Expr.BecomesList.length_eq {es es' : List Expr} (h : Expr.BecomesList r p q es es') :
    es'.length = es.length := by
  induction es generalizing es' with
  | nil =>
    rw [Expr.BecomesList] at h
    rw [h]
  | cons e es ih =>
    rw [Expr.BecomesList] at h
    obtain ⟨e', rest, _, hrest, rfl⟩ := h
    simp [ih hrest]

theorem Member.BecomesList.methodHeads_eq {ms ms' : List Member}
    (h : Member.BecomesList r p q ms ms') : methodHeads ms' = methodHeads ms := by
  induction ms generalizing ms' with
  | nil =>
    rw [Member.BecomesList] at h
    rw [h]
  | cons m ms ih =>
    rw [Member.BecomesList] at h
    obtain ⟨m', rest, hm, hrest, rfl⟩ := h
    have hr := ih hrest
    unfold methodHeads at hr ⊢
    cases m with
    | method m =>
      obtain ⟨head, body⟩ := m
      rw [Member.Becomes] at hm
      obtain ⟨_, _, rfl⟩ := hm
      simp [hr]
    | field head init =>
      rw [Member.Becomes] at hm
      obtain ⟨_, _, rfl⟩ := hm
      simpa using hr
    | constructorDecl head body =>
      rw [Member.Becomes] at hm
      obtain ⟨_, _, rfl⟩ := hm
      simpa using hr
    | initializer isStatic body span =>
      rw [Member.Becomes] at hm
      obtain ⟨_, _, rfl⟩ := hm
      simpa using hr
    | typeDecl decl =>
      rw [Member.Becomes] at hm
      obtain ⟨_, _, rfl⟩ := hm
      simpa using hr

theorem TypeDecl.BodyBecomes.alike {d d' : TypeDecl} (h : d.BodyBecomes r p q d') : d.Alike d' := by
  cases d with
  | classDecl head members =>
    obtain ⟨ms, hms, rfl⟩ := h
    exact ⟨rfl, rfl, rfl, rfl, hms.methodHeads_eq⟩
  | interfaceDecl head members =>
    obtain ⟨ms, hms, rfl⟩ := h
    exact ⟨rfl, rfl, rfl, rfl, hms.methodHeads_eq⟩
  | enumDecl head constants members =>
    obtain ⟨cs, ms, hcs, hms, rfl⟩ := h
    exact ⟨rfl, rfl, rfl, rfl, hms.methodHeads_eq⟩

theorem Stmt.becomesList_iff {ss ss' : List Stmt} :
    Stmt.BecomesList r p q ss ss' ↔ List.Forall₂ (Stmt.Becomes r p q) ss ss' := by
  induction ss generalizing ss' with
  | nil => rw [Stmt.BecomesList, List.forall₂_nil_left_iff]
  | cons s ss ih => simp only [Stmt.BecomesList, ih, List.forall₂_cons_left_iff]

theorem Member.becomesList_iff {ms ms' : List Member} :
    Member.BecomesList r p q ms ms' ↔ List.Forall₂ (Member.Becomes r p q) ms ms' := by
  induction ms generalizing ms' with
  | nil => rw [Member.BecomesList, List.forall₂_nil_left_iff]
  | cons m ms ih => simp only [Member.BecomesList, ih, List.forall₂_cons_left_iff]

theorem TypeDecl.BodyBecomes.length_members {d d' : TypeDecl} (h : d.BodyBecomes r p q d') :
    d'.members.length = d.members.length := by
  cases d with
  | classDecl head members =>
    obtain ⟨members', hmembers, rfl⟩ := h
    exact (Member.becomesList_iff.mp hmembers).length_eq.symm
  | interfaceDecl head members =>
    obtain ⟨members', hmembers, rfl⟩ := h
    exact (Member.becomesList_iff.mp hmembers).length_eq.symm
  | enumDecl head constants members =>
    obtain ⟨constants', members', _, hmembers, rfl⟩ := h
    exact (Member.becomesList_iff.mp hmembers).length_eq.symm

end FactoryLowering
