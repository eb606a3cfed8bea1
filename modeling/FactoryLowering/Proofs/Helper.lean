import FactoryLowering.Family
import FactoryLowering.Proofs.QualifiedName
import Mathlib.Data.List.Forall2

/-! # Helpers and what can stand in for them

Whether a type serves helper calls of some arity depends on the heads of its own methods only. A
synthesized helper serves its own arity and no other, and the calls in it are bound to no method.
-/
namespace FactoryLowering

def TypeDecl.addMembers (ms : List Member) : TypeDecl → TypeDecl
  | .classDecl head members => .classDecl head (members ++ ms)
  | .interfaceDecl head members => .interfaceDecl head (members ++ ms)
  | .enumDecl head constants members => .enumDecl head constants (members ++ ms)

@[simp] theorem TypeDecl.members_addMembers (ms : List Member) (d : TypeDecl) :
    (d.addMembers ms).members = d.members ++ ms := by
  cases d <;> rfl

@[simp] theorem TypeDecl.addMembers_nil (d : TypeDecl) : d.addMembers [] = d := by
  cases d <;> simp [TypeDecl.addMembers]

theorem TypeDecl.addMembers_cons (m : Member) (ms : List Member) (d : TypeDecl) :
    d.addMembers (m :: ms) = (d.addMember m).addMembers ms := by
  cases d <;> simp [TypeDecl.addMembers, TypeDecl.addMember]

theorem TypeDecl.addMembers_append (ms ns : List Member) (d : TypeDecl) :
    d.addMembers (ms ++ ns) = (d.addMembers ms).addMembers ns := by
  cases d <;> simp [TypeDecl.addMembers]

theorem TypeDecl.addMembers_methods_inj {d : TypeDecl} {ms ns : List Method}
    (h : d.addMembers (ms.map .method) = d.addMembers (ns.map .method)) : ms = ns := by
  have hmembers := congrArg TypeDecl.members h
  rw [TypeDecl.members_addMembers, TypeDecl.members_addMembers,
    List.append_cancel_left_eq] at hmembers
  exact List.map_injective_iff.mpr (fun _ _ same => Member.method.inj same) hmembers

theorem TypeDecl.BodyBecomes.addMembers {r : Rewriting} {p q : Path} {d d' : TypeDecl}
    {ms ms' : List Member} (h : d.BodyBecomes r p q d') (hms : Member.BecomesList r p q ms ms') :
    (d.addMembers ms).BodyBecomes r p q (d'.addMembers ms') := by
  have append : ∀ {ns ns'}, Member.BecomesList r p q ns ns' →
      Member.BecomesList r p q (ns ++ ms) (ns' ++ ms') := by
    intro ns ns' hns
    rw [Member.becomesList_iff] at hns hms ⊢
    exact List.rel_append hns hms
  cases d with
  | classDecl head members =>
    obtain ⟨members', hmembers, rfl⟩ := h
    exact ⟨_, append hmembers, rfl⟩
  | interfaceDecl head members =>
    obtain ⟨members', hmembers, rfl⟩ := h
    exact ⟨_, append hmembers, rfl⟩
  | enumDecl head constants members =>
    obtain ⟨constants', members', hconstants, hmembers, rfl⟩ := h
    exact ⟨_, _, hconstants, append hmembers, rfl⟩

theorem Stmt.visitsList_eq (ss : List Stmt) : Stmt.visitsList ss = ss.flatMap (·.visits) := by
  induction ss with
  | nil => rfl
  | cons s ss ih => rw [Stmt.visitsList, ih, List.flatMap_cons]

theorem Member.visitsList_append (ms ns : List Member) :
    Member.visitsList (ms ++ ns) = Member.visitsList ms ++ Member.visitsList ns := by
  induction ms with
  | nil => simp [Member.visitsList]
  | cons m ms ih => simp [Member.visitsList, ih]

theorem TypeDecl.innerVisits_addMembers (ms : List Member) (d : TypeDecl) :
    (d.addMembers ms).innerVisits = d.innerVisits ++ Member.visitsList ms := by
  cases d <;> simp [TypeDecl.addMembers, TypeDecl.innerVisits, Member.visitsList_append]

theorem TypeDecl.Alike.addMembers {d d' : TypeDecl} (h : d.Alike d') (site : TypeSite)
    (ms : List Member) (scopes : ScopeStack) :
    scopes.enter (d'.addMembers ms) site = scopes.enter d site := by
  obtain ⟨hid, hname, hmods, hkind, _⟩ := h
  have same : (d'.addMembers ms).id = d'.id ∧ (d'.addMembers ms).name = d'.name ∧
      (d'.addMembers ms).mods = d'.mods ∧ (d'.addMembers ms).scopeKind = d'.scopeKind := by
    cases d' <;> exact ⟨rfl, rfl, rfl, rfl⟩
  obtain ⟨hid', hname', hmods', hkind'⟩ := same
  cases site <;> simp only [ScopeStack.enter, ScopeStack.nameAt, ScopeStack.mayHost, hid', hname',
    hmods', hkind', hid, hname, hmods, hkind]

@[simp] theorem methodHeads_append (ms ns : List Member) :
    methodHeads (ms ++ ns) = methodHeads ms ++ methodHeads ns :=
  List.filterMap_append

@[simp] theorem methodHeads_map_method (ms : List Method) :
    methodHeads (ms.map .method) = ms.map (·.head) := by
  simp [methodHeads, List.filterMap_map]

theorem exists_of_mem_of_forall₂ {α β : Type} {R : α → β → Prop} {xs : List α} {ys : List β} {x : α}
    (h : List.Forall₂ R xs ys) (hx : x ∈ xs) : ∃ y ∈ ys, R x y := by
  induction h with
  | nil => cases hx
  | cons hfirst _ ih =>
    rcases List.mem_cons.mp hx with rfl | hx
    · exact ⟨_, List.mem_cons_self, hfirst⟩
    · obtain ⟨y, hy, hr⟩ := ih hx
      exact ⟨y, List.mem_cons_of_mem _ hy, hr⟩

namespace Family

def fillStmt (f : Family) (id : NodeId) (number : Nat) : Stmt :=
  .ofExpr (.call (.unresolved id (some (.ofName f.localName)) f.fillName
    ((f.fillParams number).map fun p => .ofName p.name)))

/-- A helper's body whose calls have the identities from `first` on. -/
def helperBody (f : Family) (spelledOut : List String) (fills : Nat) (first : NodeId) : List Stmt :=
  .localVariable (.generic (spell spelledOut f.interface) f.typeVars) f.localName
      (some (.newObject (.generic (spell spelledOut f.container) f.typeVars) [])) ::
    (List.range fills).map (fun i => f.fillStmt (NodeId.next^[i] first) (i + 1)) ++
    [.returning (some (.call (.unresolved (NodeId.next^[fills] first)
      (some (.qualified (spell spelledOut viewOwner))) f.viewName [.ofName f.localName])))]

theorem mapM_makeFill (f : Family) (fills : Nat) (first : NodeId) :
    (List.range fills).mapM (fun i => f.makeFill (i + 1)) first =
      ((List.range fills).map fun i => f.fillStmt (NodeId.next^[i] first) (i + 1),
        NodeId.next^[fills] first) := by
  induction fills with
  | zero => rfl
  | succ fills ih =>
    have hlast : ∀ id, [fills].mapM (fun i => f.makeFill (i + 1)) id =
        ([f.fillStmt id (fills + 1)], NodeId.next id) := fun _ => rfl
    rw [List.range_succ, List.mapM_append, List.map_append, Function.iterate_succ_apply']
    simp only [bind, StateT.bind, ih, hlast]
    rfl

theorem makeBody_eq (f : Family) (spelledOut : List String) (fills : Nat) (first : NodeId) :
    f.makeBody spelledOut fills first =
      (f.helperBody spelledOut fills first, NodeId.next^[fills + 1] first) := by
  simp only [makeBody, bind, StateT.bind, mapM_makeFill, Function.iterate_succ_apply']
  rfl

theorem helper?_eq (f : Family) (spelledOut : List String) (arity : Nat) (first : NodeId) :
    f.helper? spelledOut arity first =
      if f.accepts arity then
        (some { head := f.helperHead spelledOut (f.fillCount arity)
                body := some (.ofStmts (f.helperBody spelledOut (f.fillCount arity) first)) },
          NodeId.next^[f.fillCount arity + 1] first)
      else (none, first) := by
  unfold helper?
  split
  · simp only [bind, StateT.bind, makeBody_eq]
    rfl
  · rfl

variable {f : Family} {spelledOut : List String} {a b : Nat} {d : TypeDecl} {m : Method}

def servesHead (f : Family) (a : Nat) (head : MethodHead) : Bool :=
  head.name == f.helperName && fits a ⟨head, none⟩

theorem compatible?_map_head :
    (f.compatible? d a).map (·.head) = (methodHeads d.members).find? (f.servesHead a) := by
  unfold compatible? TypeDecl.methodsNamed methodHeads
  induction d.members with
  | nil => rfl
  | cons x xs ih =>
    cases x with
    | method x =>
      by_cases hname : x.head.name = f.helperName
      · cases hfit : fits a x with
        | true =>
          have hfit' : fits a ⟨x.head, none⟩ = true := hfit
          simp [hname, hfit, servesHead, hfit']
        | false =>
          have hfit' : fits a ⟨x.head, none⟩ = false := hfit
          simpa [hname, hfit, servesHead, hfit'] using ih
      · have other : (x.head.name == f.helperName) = false := by simp [hname]
        simpa [hname, servesHead, other] using ih
    | _ => simpa using ih

theorem compatible?_isSome :
    (f.compatible? d a).isSome = (methodHeads d.members).any (f.servesHead a) := by
  have hhead : ((f.compatible? d a).map (·.head)).isSome = (f.compatible? d a).isSome :=
    Option.isSome_map
  rw [← hhead, compatible?_map_head, List.isSome_find?]

theorem compatible?_eq_none_iff :
    f.compatible? d a = none ↔ (methodHeads d.members).any (f.servesHead a) = false := by
  rw [← compatible?_isSome, Option.isSome_eq_false_iff, Option.isNone_iff_eq_none]

/-- A method that the family makes for calls of this arity. -/
def IsHelper (f : Family) (spelledOut : List String) (a : Nat) (m : Method) : Prop :=
  ∃ id, (f.helper? spelledOut a id).1 = some m

theorem IsHelper.accepts_and_head (h : f.IsHelper spelledOut a m) :
    f.accepts a = true ∧ m.head = f.helperHead spelledOut (f.fillCount a) := by
  obtain ⟨id, h⟩ := h
  rw [helper?_eq] at h
  split at h
  · next accepted => exact ⟨accepted, by cases h; rfl⟩
  · cases h

theorem length_helperHead_params (spelledOut : List String) (h : f.accepts a = true) :
    (f.helperHead spelledOut (f.fillCount a)).params.length = a := by
  cases f with
  | list =>
    simp [helperHead, fillCount, fillParams, isKeyValue, List.length_flatMap, List.map_const']
  | set =>
    simp [helperHead, fillCount, fillParams, isKeyValue, List.length_flatMap, List.map_const']
  | map =>
    have even : a % 2 = 0 := by simpa [accepts, isKeyValue] using h
    have pairs : a / 2 * 2 = a := by omega
    simpa [helperHead, fillCount, fillParams, isKeyValue, List.length_flatMap, List.map_const']
      using pairs

theorem isVarargs_helperHead (f : Family) (spelledOut : List String) (fills : Nat) :
    (f.helperHead spelledOut fills).isVarargs = false := by
  have fixed : ∀ x ∈ (f.helperHead spelledOut fills).params, x.varargs = false := by
    intro x hx
    obtain ⟨i, _, hx⟩ := List.mem_flatMap.mp hx
    unfold fillParams at hx
    split at hx
    · simp only [List.mem_cons, List.not_mem_nil, or_false] at hx
      rcases hx with rfl | rfl <;> rfl
    · obtain rfl := List.mem_singleton.mp hx
      rfl
  unfold MethodHead.isVarargs
  cases hlast : (f.helperHead spelledOut fills).params.getLast? with
  | none => rfl
  | some x => exact fixed x (List.mem_of_getLast? hlast)

theorem IsHelper.servesHead_iff (h : f.IsHelper spelledOut a m) :
    f.servesHead b m.head = true ↔ b = a := by
  obtain ⟨accepted, hhead⟩ := h.accepts_and_head
  have hlen := length_helperHead_params spelledOut accepted
  have hfixed := isVarargs_helperHead f spelledOut (f.fillCount a)
  have hname : m.head.name = f.helperName := by rw [hhead]; rfl
  rw [servesHead, hname, fits, hhead]
  simp only [BEq.rfl, Bool.true_and, hlen, hfixed, Bool.false_and, Bool.or_false, beq_iff_eq]
  exact eq_comm

end Family

theorem Expr.sites_ofName (p : Path) (name : String) : sites p (Expr.ofName name).visits = [] := by
  simp [Expr.ofName, Expr.visits]

theorem Expr.sites_qualified (p : Path) (name : String) :
    sites p (Expr.qualified name).visits = [] :=
  sites_eq_nil_of_callsOf (Expr.callsOf_of_qualifiedName? (Expr.qualifiedName?_qualified name)) p

namespace Family

variable {f : Family} {spelledOut : List String} {p : Path}

theorem fillStmt_eq (f : Family) (id : NodeId) (number : Nat) :
    f.fillStmt id number = .ofExpr (.call (.unresolved id (some (.ofName f.localName))
      f.fillName (((f.fillParams number).map (·.name)).map .ofName))) := by
  rw [fillStmt, List.map_map]
  rfl

theorem sites_fill_args (f : Family) (p : Path) (number : Nat) :
    sites p (Expr.visitsList ((f.fillParams number).map fun x => Expr.ofName x.name)) = [] := by
  unfold fillParams
  split <;> simp [Expr.visitsList, Expr.sites_ofName]

theorem method_eq_none_of_mem_helperBody {fills : Nat} {first : NodeId} {x : Site}
    (hx : x ∈ sites p (Stmt.visitsList (f.helperBody spelledOut fills first))) :
    x.call.method = none := by
  obtain ⟨s, hs, hx⟩ := Stmt.mem_sites_visitsList.mp hx
  simp only [helperBody, List.cons_append, List.mem_cons, List.mem_append, List.mem_map,
    List.not_mem_nil, or_false] at hs
  rcases hs with rfl | ⟨i, _, rfl⟩ | rfl
  · simp [Stmt.localVariable, Expr.newObject, Stmt.visits, Declarator.visitsList,
      Expr.visitsOption, Expr.visits, Expr.visitsList] at hx
  · simp [fillStmt, Stmt.ofExpr, Call.unresolved, Stmt.visits, Expr.visits, Expr.visitsOption,
      Expr.sites_ofName, sites_fill_args] at hx
    rw [hx]
  · simp [Stmt.returning, Call.unresolved, Stmt.visits, Expr.visits, Expr.visitsOption,
      Expr.visitsList, Expr.sites_ofName, Expr.sites_qualified] at hx
    rw [hx]

/-- The calls in helpers are bound to no method, so they match no pattern. -/
theorem method_eq_none_of_mem_helpers {arities : List Nat} {ms : List Method} {x : Site}
    (h : List.Forall₂ (f.IsHelper spelledOut) arities ms)
    (hx : x ∈ sites p (Member.visitsList (ms.map .method))) : x.call.method = none := by
  obtain ⟨_, hmember, hx⟩ := Member.mem_sites_visitsList.mp hx
  obtain ⟨m, hm, rfl⟩ := List.mem_map.mp hmember
  have hflip : List.Forall₂ (flip (f.IsHelper spelledOut)) ms arities := List.Forall₂.flip h
  obtain ⟨a, _, id, hhelper⟩ := exists_of_mem_of_forall₂ hflip hm
  rw [helper?_eq] at hhelper
  split at hhelper
  · cases hhelper
    simp only [Member.visits, Block.visitsOption, Block.ofStmts, Block.visits, sites_member,
      sites_append, MethodHead.visits_level, MethodHead.sites_visits, List.nil_append,
      sites_block] at hx
    exact method_eq_none_of_mem_helperBody hx
  · cases hhelper

end Family

end FactoryLowering
