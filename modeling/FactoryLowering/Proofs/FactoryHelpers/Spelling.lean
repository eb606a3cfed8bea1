import FactoryLowering.Proofs.FactoryHelpers.Closure
import FactoryLowering.Proofs.FactoryHelpers.Idempotence
import FactoryLowering.Proofs.ImportAdditions
import FactoryLowering.Proofs.Tree.DeclaredNames
import FactoryLowering.Proofs.Tree.Refinement
import FactoryLowering.Proofs.Tree.TypeText
import Mathlib.Data.List.Nodup

/-! # Library types named by helpers

A helper names three types of the library. Which of them it spells out is settled before the walk,
which of them are imported is settled after it. The two agree: a type that a helper names by its
simple name is imported or was visible already, and nothing else in the unit has that name.
-/
namespace FactoryLowering

/-- The names that a visit may mean types by: a written type, or the receiver of a call. -/
def Visit.typeNames : Visit → List String
  | .typeRef type => type.names
  | .call c => (c.receiver.bind (·.qualifiedName?)).toList
  | _ => []

def Method.typeNames (m : Method) : List String :=
  (Member.method m).visits.flatMap Visit.typeNames

/-- The method writes the type as the given name, and never in another way. -/
def Method.Spells (m : Method) (fqn name : String) : Prop :=
  name ∈ m.typeNames ∧ ∀ n ∈ m.typeNames, Text.simpleName n = Text.simpleName fqn → n = name

theorem TypeRef.names_generic (name : String) (args : List String) :
    (TypeRef.generic name args).names = name :: args := by
  have hargs : TypeRef.allNames (args.map fun arg => { name := arg }) = args := by
    induction args with
    | nil => rfl
    | cons arg rest ih => simp [TypeRef.allNames, TypeRef.names, ih]
  simp only [TypeRef.generic, TypeRef.names, hargs]

theorem Expr.typeNames_of_qualifiedName? : ∀ {e : Expr} {name : String},
    e.qualifiedName? = some name → e.visits.flatMap Visit.typeNames = []
  | .ident i, _, _ => rfl
  | .field target name span, _, h => by
    simp only [Expr.qualifiedName?, Option.map_eq_some_iff] at h
    obtain ⟨outer, houter, _⟩ := h
    rw [Expr.visits, List.flatMap_cons, typeNames_of_qualifiedName? houter]
    rfl

theorem Expr.typeNames_ofName (name : String) :
    (Expr.ofName name).visits.flatMap Visit.typeNames = [] :=
  Expr.typeNames_of_qualifiedName? rfl

theorem Expr.typeNames_names (names : List String) :
    (Expr.visitsList (names.map Expr.ofName)).flatMap Visit.typeNames = [] := by
  induction names with
  | nil => rfl
  | cons name rest ih =>
    rw [List.map_cons, Expr.visitsList, List.flatMap_append, Expr.typeNames_ofName, ih]
    rfl

namespace Family

variable {f : Family} {spelledOut : List String} {a : Nat} {m : Method}

theorem packageName_of_mem_imports (f : Family) :
    ∀ fqn ∈ f.imports, Text.packageName fqn = "java.util" := by
  cases f <;> decide

theorem nodup_imports (f : Family) : f.imports.Nodup := by
  cases f <;> decide

theorem simpleName_ne_of_ne (f g : Family) : ∀ a ∈ f.imports, ∀ b ∈ g.imports,
    a = b ∨ Text.simpleName a ≠ Text.simpleName b := by
  cases f <;> cases g <;> decide

theorem simpleName_spell (f : Family) (spelledOut : List String) :
    ∀ fqn ∈ f.imports, Text.simpleName (spell spelledOut fqn) = Text.simpleName fqn := by
  have twice : ∀ fqn ∈ f.imports, Text.simpleName (Text.simpleName fqn) = Text.simpleName fqn := by
    cases f <;> decide
  intro fqn hfqn
  unfold spell
  split
  · rfl
  · exact twice fqn hfqn

/-- The names in a helper that mean no type of the library. -/
def ownNames (f : Family) : List String := f.localName :: f.typeVars

theorem simpleName_ownNames (f : Family) :
    ∀ name ∈ f.ownNames, ∀ fqn ∈ f.imports, Text.simpleName name ≠ Text.simpleName fqn := by
  cases f <;> decide

theorem typeNames_fillParams (f : Family) (number : Nat) :
    ∀ x ∈ f.fillParams number, ∀ name ∈ x.type.names, name ∈ f.ownNames := by
  cases f <;> simp [fillParams, isKeyValue, ownNames, typeVars, TypeRef.names, TypeRef.allNames]

theorem typeNames_helperHead (f : Family) (spelledOut : List String) (fills : Nat) :
    ∃ names, (∀ name ∈ names, name ∈ f.ownNames) ∧
      (f.helperHead spelledOut fills).visits.flatMap Visit.typeNames =
        spell spelledOut f.interface :: names := by
  refine ⟨f.typeVars ++ (parameterVisits (f.helperHead spelledOut fills).params).flatMap
    Visit.typeNames, ?_, ?_⟩
  · intro name hname
    rcases List.mem_append.mp hname with hvar | hparam
    · exact List.mem_cons_of_mem _ hvar
    · obtain ⟨v, hv, hname⟩ := List.mem_flatMap.mp hparam
      obtain ⟨x, hx, rfl⟩ := List.mem_map.mp hv
      obtain ⟨i, _, hx⟩ := List.mem_flatMap.mp hx
      exact typeNames_fillParams f (i + 1) x hx name hname
  · have unbounded : boundVisits (f.helperHead spelledOut fills).typeParams = [] := by
      simp [boundVisits, helperHead]
    have result : (f.helperHead spelledOut fills).result.toList.map Visit.typeRef =
        [.typeRef (.generic (spell spelledOut f.interface) f.typeVars)] := rfl
    rw [MethodHead.visits, unbounded, result]
    simp [Visit.typeNames, TypeRef.names_generic]

theorem typeNames_fillStmt (f : Family) (id : NodeId) (number : Nat) :
    (f.fillStmt id number).visits.flatMap Visit.typeNames = [f.localName] := by
  have hargs := Expr.typeNames_names ((f.fillParams number).map (·.name))
  rw [List.map_map] at hargs
  have hreceiver := Expr.typeNames_ofName f.localName
  have hvisits : (f.fillStmt id number).visits.flatMap Visit.typeNames = f.localName ::
      ((Expr.ofName f.localName).visits ++ Expr.visitsList
        ((f.fillParams number).map fun x => Expr.ofName x.name)).flatMap Visit.typeNames := rfl
  rw [hvisits, List.flatMap_append, hreceiver]
  exact congrArg (List.cons f.localName) hargs

theorem typeNames_helperBody (f : Family) (spelledOut : List String) (fills : Nat)
    (first : NodeId) :
    (Stmt.visitsList (f.helperBody spelledOut fills first)).flatMap Visit.typeNames =
      spell spelledOut f.interface :: f.typeVars ++ spell spelledOut f.container :: f.typeVars ++
        List.replicate fills f.localName ++ [spell spelledOut viewOwner] := by
  have hlocal : (Stmt.localVariable (.generic (spell spelledOut f.interface) f.typeVars) f.localName
      (some (.newObject (.generic (spell spelledOut f.container) f.typeVars) []))).visits.flatMap
        Visit.typeNames =
      spell spelledOut f.interface :: f.typeVars ++ spell spelledOut f.container :: f.typeVars := by
    rw [← TypeRef.names_generic, ← TypeRef.names_generic]
    exact congrArg _ (List.append_nil _)
  have hview : (Stmt.returning (some (.call (.unresolved (NodeId.next^[fills] first)
      (some (.qualified (spell spelledOut viewOwner))) f.viewName
      [.ofName f.localName])))).visits.flatMap Visit.typeNames = [spell spelledOut viewOwner] := by
    have hname := Expr.qualifiedName?_qualified (spell spelledOut viewOwner)
    have hvisits : (Stmt.returning (some (.call (.unresolved (NodeId.next^[fills] first)
        (some (.qualified (spell spelledOut viewOwner))) f.viewName
        [.ofName f.localName])))).visits.flatMap Visit.typeNames =
        (Expr.qualified (spell spelledOut viewOwner)).qualifiedName?.toList ++
          ((Expr.qualified (spell spelledOut viewOwner)).visits ++
            Expr.visitsList ([f.localName].map Expr.ofName)).flatMap Visit.typeNames := rfl
    rw [hvisits, List.flatMap_append, Expr.typeNames_of_qualifiedName? hname,
      Expr.typeNames_names, hname]
    rfl
  have hfills : ((List.range fills).map fun i => f.fillStmt (NodeId.next^[i] first) (i + 1)).flatMap
      (fun s => s.visits.flatMap Visit.typeNames) = List.replicate fills f.localName := by
    simp only [List.flatMap_map, typeNames_fillStmt]
    rw [← List.map_eq_flatMap, List.map_const', List.length_range]
  rw [Stmt.visitsList_eq, List.flatMap_assoc, helperBody]
  simp only [List.cons_append, List.flatMap_cons, List.flatMap_append, hfills, hlocal, hview,
    List.flatMap_nil]
  simp

theorem IsHelper.mem_typeNames (h : f.IsHelper spelledOut a m) :
    (∀ fqn ∈ f.imports, spell spelledOut fqn ∈ m.typeNames) ∧
      ∀ name ∈ m.typeNames, name ∈ f.ownNames ∨ ∃ fqn ∈ f.imports, name = spell spelledOut fqn := by
  obtain ⟨first, h⟩ := h
  rw [helper?_eq] at h
  split at h
  · cases h
    obtain ⟨names, hown, hhead⟩ := f.typeNames_helperHead spelledOut (f.fillCount a)
    have hbody := f.typeNames_helperBody spelledOut (f.fillCount a) first
    have hall : Method.typeNames
        { head := f.helperHead spelledOut (f.fillCount a)
          body := some (.ofStmts (f.helperBody spelledOut (f.fillCount a) first)) } =
        (spell spelledOut f.interface :: names) ++
          (Stmt.visitsList (f.helperBody spelledOut (f.fillCount a) first)).flatMap
            Visit.typeNames := by
      rw [Method.typeNames, Member.visits, List.flatMap_cons, List.flatMap_append, hhead]
      rfl
    rw [hbody] at hall
    constructor
    · intro fqn hfqn
      rw [hall]
      simp only [imports, List.mem_cons, List.not_mem_nil, or_false] at hfqn
      rcases hfqn with rfl | rfl | rfl <;> simp
    · intro name hname
      rw [hall] at hname
      simp only [List.mem_append, List.mem_cons, List.mem_replicate, List.not_mem_nil,
        or_false] at hname
      rcases hname with (rfl | hname) | (((rfl | hvar) | (rfl | hvar)) | ⟨_, rfl⟩) | rfl
      · exact .inr ⟨f.interface, by simp [imports], rfl⟩
      · exact .inl (hown name hname)
      · exact .inr ⟨f.interface, by simp [imports], rfl⟩
      · exact .inl (List.mem_cons_of_mem _ hvar)
      · exact .inr ⟨f.container, by simp [imports], rfl⟩
      · exact .inl (List.mem_cons_of_mem _ hvar)
      · exact .inl List.mem_cons_self
      · exact .inr ⟨viewOwner, by simp [imports], rfl⟩
  · cases h

theorem IsHelper.spells (h : f.IsHelper spelledOut a m) {fqn : String} (hfqn : fqn ∈ f.imports) :
    m.Spells fqn (spell spelledOut fqn) := by
  obtain ⟨hwritten, honly⟩ := h.mem_typeNames
  refine ⟨hwritten fqn hfqn, fun name hname same => ?_⟩
  rcases honly name hname with hown | ⟨other, hother, rfl⟩
  · exact absurd same (f.simpleName_ownNames name hown fqn hfqn)
  · rw [f.simpleName_spell spelledOut other hother] at same
    rcases f.simpleName_ne_of_ne f other hother fqn hfqn with rfl | differ
    · rfl
    · exact absurd same differ

end Family

/-- Whether a type of `java.util` can be used by its simple name. -/
def CompilationUnit.seesUtility (u : CompilationUnit) (fqn : String) : Bool :=
  u.importsType fqn || u.packageName == "java.util"

def Family.missing (f : Family) (u : CompilationUnit) : List String :=
  f.imports.filter fun fqn => !u.simpleNameTaken fqn && !u.seesUtility fqn

theorem Family.needsImport_eq {f : Family} {fqn : String} (h : fqn ∈ f.imports)
    (u : CompilationUnit) : u.needsImport fqn = !u.seesUtility fqn := by
  have hpackage := f.packageName_of_mem_imports fqn h
  have hnamed : "java.util".isEmpty = false := by decide
  have hlang : ("java.util" == "java.lang") = false := by decide
  rw [CompilationUnit.needsImport, CompilationUnit.seesUtility, hpackage, hnamed, hlang,
    Bool.or_false, Bool.false_or, Bool.or_comm, BEq.comm]

namespace FactoryHelpers

variable {f : Family} {spelledOut : List String} {s : State}

/-- A property of states that the steps of a walk keep, whatever scopes are open, whatever is asked
for and whatever went wrong. -/
structure Kept (f : Family) (spelledOut : List String) (inv : State → Prop) : Prop where
  frame : ∀ {s} scopes needed failure, inv s → inv { s with scopes, needed, failure }
  call : ∀ {s} c, inv s → inv ((editor f spelledOut).call c s).2
  provide : ∀ {s} d a, inv s → inv (provide f spelledOut d a s).2

namespace Kept

variable {inv : State → Prop}

theorem provideAll (h : Kept f spelledOut inv) (arities : List Nat) (d : TypeDecl) (hs : inv s) :
    inv (provideAll f spelledOut d arities s).2 := by
  induction arities generalizing d s with
  | nil => exact hs
  | cons a rest ih => exact ih _ (h.provide d a hs)

theorem leaveType (h : Kept f spelledOut inv) (d : TypeDecl) (hs : inv s) :
    inv ((editor f spelledOut).leaveType d s).2 := by
  have hleave : (editor f spelledOut).leaveType d s =
      FactoryHelpers.leaveType f spelledOut d s := rfl
  rw [hleave, FactoryHelpers.leaveType]
  split
  · exact h.frame _ _ _ hs
  · exact h.provideAll _ d (h.frame _ _ s.failure hs)

theorem leaveAnonymous (h : Kept f spelledOut inv) (hs : inv s) :
    inv (FactoryHelpers.leaveAnonymous s).2 := by
  simp only [FactoryHelpers.leaveAnonymous, modify, modifyGet, MonadStateOf.modifyGet,
    StateT.modifyGet, pure]
  split
  · exact hs
  · exact h.frame _ s.needed s.failure hs

theorem obeys (h : Kept f spelledOut inv) :
    (editor f spelledOut).Obeys ⟨fun _ _ _ _ _ => True, fun _ _ _ _ _ _ => True⟩ (fun _ => True)
      (fun _ => inv) fun _ _ _ _ => True where
  refl _ := trivial
  trans _ _ := trivial
  visit {p v s} hv hs := by
    cases v <;> first | exact hv.elim | exact ⟨hs, trivial⟩
  skip _ _ := trivial
  enterCall hs := hs
  call _ _ _ ht _ _ := ⟨fun _ => trivial, h.call _ ht, trivial⟩
  enterType {p d site s} _ hs := h.frame (s.scopes.enter d site) s.needed s.failure hs
  leaveType _ _ _ ht _ := ⟨fun _ => trivial, h.leaveType _ ht, trivial⟩
  enterAnonymous {p head ms s} hs := h.frame (s.scopes.enterAnonymous head) s.needed s.failure hs
  leaveAnonymous _ _ ht _ := ⟨h.leaveAnonymous ht, trivial⟩

theorem walk {u : CompilationUnit} (h : Kept f (f.shadowed u) inv)
    (start : inv { scopes := { package := u.packageName }, nextId := u.nextId }) :
    inv (FactoryHelpers.walk f u).2 :=
  (h.obeys.types u.types (fun _ _ => trivial) _ start).2.1

end Kept

/-- What the import edits of a walk say: all types that helpers name by their simple names are
asked for as soon as there is a helper, and nothing else is. -/
structure Requests (f : Family) (spelledOut : List String) (s : State) : Prop where
  removals : s.edits.removals = []
  additions : ∀ fqn, fqn ∈ s.edits.additions ↔
    0 < s.stats.helpersAdded ∧ fqn ∈ f.imports ∧ spelledOut.contains fqn = false

theorem foldl_add (fqns : List String) (edits : ImportEdits) :
    (fqns.foldl ImportEdits.add edits).removals = edits.removals ∧
      ∀ fqn, fqn ∈ (fqns.foldl ImportEdits.add edits).additions ↔
        fqn ∈ fqns ∨ fqn ∈ edits.additions := by
  induction fqns generalizing edits with
  | nil => simp
  | cons first rest ih =>
    obtain ⟨hremovals, hadditions⟩ := ih (edits.add first)
    refine ⟨hremovals, fun fqn => ?_⟩
    rw [List.foldl_cons, hadditions]
    simp only [ImportEdits.add, List.mem_cons]
    exact or_left_comm.trans or_assoc.symm

theorem Requests.provide (h : Requests f spelledOut s) (d : TypeDecl) (a : Nat) :
    Requests f spelledOut (provide f spelledOut d a s).2 := by
  unfold FactoryHelpers.provide
  split
  · split
    · exact ⟨h.removals, h.additions⟩
    · exact ⟨h.removals, h.additions⟩
  · split
    · exact ⟨h.removals, h.additions⟩
    · obtain ⟨hremovals, hadditions⟩ :=
        foldl_add (f.imports.filter fun fqn => !spelledOut.contains fqn) s.edits
      refine ⟨hremovals.trans h.removals, fun fqn => ?_⟩
      rw [hadditions, h.additions]
      simp only [List.mem_filter, Bool.not_eq_true', Nat.zero_lt_succ, true_and]
      exact or_iff_left_of_imp And.right

/-- Calls ask for no import, take no identity and add no helper. They leave the scopes alone and do
not fail. -/
theorem call_frame (f : Family) (spelledOut : List String) (c : Call) (s : State) :
    ((editor f spelledOut).call c s).2.edits = s.edits ∧
      ((editor f spelledOut).call c s).2.nextId = s.nextId ∧
      ((editor f spelledOut).call c s).2.stats.helpersAdded = s.stats.helpersAdded ∧
      ((editor f spelledOut).call c s).2.scopes = s.scopes ∧
      ((editor f spelledOut).call c s).2.failure = s.failure := by
  by_cases hm : f.pattern.isMatch c = true
  · have hcall : (editor f spelledOut).call c s = lowerCall f c s := by
      simp only [editor, hm, if_true]
    rw [hcall, lowerCall]
    split
    · exact ⟨rfl, rfl, rfl, rfl, rfl⟩
    · split
      · exact ⟨rfl, rfl, rfl, rfl, rfl⟩
      · exact ⟨rfl, rfl, rfl, rfl, rfl⟩
  · have hcall : (editor f spelledOut).call c s = (c, s) := by
      simp only [editor, hm]
      rfl
    rw [hcall]
    exact ⟨rfl, rfl, rfl, rfl, rfl⟩

theorem requests_kept (f : Family) (spelledOut : List String) :
    Kept f spelledOut (Requests f spelledOut) where
  frame _ _ _ h := ⟨h.removals, h.additions⟩
  call {s} c h := by
    obtain ⟨hedits, _, hadded, _⟩ := call_frame f spelledOut c s
    exact ⟨hedits ▸ h.removals, by rw [hedits, hadded]; exact h.additions⟩
  provide d a h := h.provide d a

theorem walk_requests (f : Family) (u : CompilationUnit) :
    Requests f (f.shadowed u) (walk f u).2 :=
  (requests_kept f (f.shadowed u)).walk ⟨rfl, fun _ => by simp⟩

/-- The rule for types says how the helpers that a type gets write the types of the library. -/
def spelling (f : Family) (u : CompilationUnit) : Rewriting where
  call p _ _ c new := new = lowerAt f u.packageName p c
  type _ _ _ _ d new := ∃ ms : List Method, new = d.addMembers (ms.map .method) ∧
    ∀ m ∈ ms, m.head.name = f.helperName ∧ ∀ fqn ∈ f.imports,
      m.Spells fqn (if u.simpleNameTaken fqn then fqn else Text.simpleName fqn)

theorem contains_shadowed {fqn : String} (h : fqn ∈ f.imports) (u : CompilationUnit) :
    (f.shadowed u).contains fqn = u.simpleNameTaken fqn := by
  simp [Family.shadowed, h]

theorem lowering_refines_spelling (f : Family) (u : CompilationUnit) :
    (lowering f (f.shadowed u) u.packageName).Refines (spelling f u) fun _ _ _ => True where
  enterType _ _ _ := fun _ _ => trivial
  enterAnonymous _ _ := trivial
  call _ _ _ h := h
  type _ _ h := by
    obtain ⟨arities, ms, hms, rfl⟩ := h
    refine ⟨ms, rfl, fun m hm => ?_⟩
    obtain ⟨a, _, hhelper⟩ := exists_of_mem_of_forall₂ (List.Forall₂.flip hms) hm
    have hhelper : f.IsHelper (f.shadowed u) a m := hhelper
    refine ⟨by rw [hhelper.accepts_and_head.2]; rfl, fun fqn hfqn => ?_⟩
    have hspells := hhelper.spells hfqn
    rwa [Family.spell, contains_shadowed hfqn] at hspells

theorem lowering_keepsNames (f : Family) (spelledOut : List String) (package : String) :
    (lowering f spelledOut package).KeepsNames := by
  intro p q site d d' new h outer
  obtain ⟨_, ms, _, rfl⟩ := h
  cases d' <;> simp only [TypeDecl.addMembers, TypeDecl.declaredNames,
    Member.declaredNames_append_methods]

theorem declaresType_run (f : Family) (u : CompilationUnit) (log : ChangeLog) (name : String) :
    (FactoryHelpers.run f u log).unit.declaresType name = u.declaresType name := by
  refine TypesBecome.declaresType_eq (lowering_keepsNames f (f.shadowed u) u.packageName) ?_
    (run_packageName f u log) name
  rw [run_types]
  exact (walk_lowering f u).1

def requested (f : Family) (u : CompilationUnit) : List String :=
  ascending (walk f u).2.edits.additions

theorem run_unit_eq (f : Family) (u : CompilationUnit) (log : ChangeLog) :
    (FactoryHelpers.run f u log).unit = ((walkedUnit f u).addImports (requested f u)).unit := by
  rw [run_eq, ImportEdits.apply_additions (walk_requests f u).removals]
  rfl

theorem run_result (f : Family) (u : CompilationUnit) (log : ChangeLog) :
    (FactoryHelpers.run f u log).result = .ok { (walk f u).2.stats with
      importsAdded := (FactoryHelpers.run f u log).unit.imports.length - u.imports.length
      importsRemoved := 0 } := by
  rw [run_unit_eq, run_eq, ImportEdits.apply_additions (walk_requests f u).removals]
  rfl

theorem mem_requested {u : CompilationUnit} {fqn : String} : fqn ∈ requested f u ↔
    0 < (walk f u).2.stats.helpersAdded ∧ fqn ∈ f.imports ∧ u.simpleNameTaken fqn = false := by
  rw [requested, mem_ascending, (walk_requests f u).additions]
  refine and_congr_right fun _ => and_congr_right fun h => ?_
  rw [contains_shadowed h]

theorem importsOther_run (f g : Family) (u : CompilationUnit) (log : ChangeLog) {fqn : String}
    (h : fqn ∈ g.imports) :
    (FactoryHelpers.run f u log).unit.importsOther fqn = u.importsOther fqn := by
  have hfree : ∀ a ∈ requested f u, a = fqn ∨ Text.simpleName a ≠ Text.simpleName fqn :=
    fun a ha => f.simpleName_ne_of_ne g a (mem_requested.mp ha).2.1 fqn h
  rw [run_unit_eq, CompilationUnit.importsOther_addImports hfree]
  rfl

/-- A pass leaves every family's taken names taken and its free names free. -/
theorem shadowed_run (f g : Family) (u : CompilationUnit) (log : ChangeLog) :
    g.shadowed (FactoryHelpers.run f u log).unit = g.shadowed u := by
  refine List.filter_congr fun fqn hfqn => ?_
  rw [CompilationUnit.simpleNameTaken, importsOther_run f g u log hfqn, declaresType_run,
    CompilationUnit.simpleNameTaken]

theorem sublist_imports_run (f : Family) (u : CompilationUnit) (log : ChangeLog) :
    u.imports.Sublist (FactoryHelpers.run f u log).unit.imports := by
  rw [run_unit_eq]
  exact (walkedUnit f u).sublist_addImports (requested f u)

theorem nodup_simpleNames {fqns : List String} (hnodup : fqns.Nodup)
    (h : ∀ fqn ∈ fqns, fqn ∈ f.imports) : (fqns.map Text.simpleName).Nodup :=
  List.Nodup.map_on (fun a ha b hb same =>
    (f.simpleName_ne_of_ne f a (h a ha) b (h b hb)).resolve_right fun differ => differ same) hnodup

theorem nodup_simpleNames_requested (f : Family) (u : CompilationUnit) :
    ((requested f u).map Text.simpleName).Nodup :=
  nodup_simpleNames (ImportEdits.nodup_ascending _) fun _ hfqn => (mem_requested.mp hfqn).2.1

theorem importsOther_of_mem_requested {u : CompilationUnit} {fqn : String}
    (h : fqn ∈ requested f u) : (walkedUnit f u).importsOther fqn = false := by
  have hfree := (mem_requested.mp h).2.2
  rw [CompilationUnit.simpleNameTaken, Bool.or_eq_false_iff] at hfree
  exact hfree.1

/-- As soon as there is a helper, exactly the missing types are imported. -/
theorem imports_run {u : CompilationUnit} (log : ChangeLog)
    (h : 0 < (walk f u).2.stats.helpersAdded) :
    (FactoryHelpers.run f u log).unit.imports.Perm (u.imports ++ (f.missing u).map .single) := by
  have hnodup : (requested f u).Nodup := ImportEdits.nodup_ascending _
  have hmissing : ((requested f u).filter (walkedUnit f u).needsImport).Perm (f.missing u) := by
    refine (List.perm_ext_iff_of_nodup (hnodup.filter _) (f.nodup_imports.filter _)).mpr ?_
    intro fqn
    rw [List.mem_filter, mem_requested, List.mem_filter]
    constructor
    · rintro ⟨⟨_, hfqn, hname⟩, hneeds⟩
      rw [Family.needsImport_eq hfqn] at hneeds
      exact ⟨hfqn, by rw [hname]; exact hneeds⟩
    · rintro ⟨hfqn, hname⟩
      simp only [Bool.and_eq_true, Bool.not_eq_true'] at hname
      refine ⟨⟨h, hfqn, hname.1⟩, ?_⟩
      rw [Family.needsImport_eq hfqn, Bool.not_eq_true']
      exact hname.2
  rw [run_unit_eq]
  have hperm := CompilationUnit.imports_addImports (nodup_simpleNames_requested f u)
    fun _ hfqn => importsOther_of_mem_requested hfqn
  exact hperm.trans ((hmissing.map _).append_left _)

/-- What a library type that helpers name is called, and why that name means it: either its simple
name is taken, then it is spelled out and not imported, or the simple name means it and nothing
else. -/
def Binds (f : Family) (u out : CompilationUnit) (fqn : String) : Prop :=
  (fqn ∈ f.shadowed u ∧ out.imports.count (.single fqn) = u.imports.count (.single fqn)) ∨
    (fqn ∉ f.shadowed u ∧ out.seesUtility fqn = true ∧ out.importsOther fqn = false ∧
      out.declaresType (Text.simpleName fqn) = false)

theorem mem_shadowed {u : CompilationUnit} {fqn : String} :
    fqn ∈ f.shadowed u ↔ fqn ∈ f.imports ∧ u.simpleNameTaken fqn = true :=
  List.mem_filter

theorem seesUtility_run {u : CompilationUnit} (log : ChangeLog) {fqn : String}
    (h : 0 < (walk f u).2.stats.helpersAdded) (hfqn : fqn ∈ f.imports)
    (hfree : u.simpleNameTaken fqn = false) :
    (FactoryHelpers.run f u log).unit.seesUtility fqn = true := by
  rw [CompilationUnit.seesUtility, run_packageName, Bool.or_eq_true]
  by_cases hsees : u.seesUtility fqn = true
  · rw [CompilationUnit.seesUtility, Bool.or_eq_true] at hsees
    refine hsees.imp_left fun himports => ?_
    obtain ⟨i, hi, hprovides⟩ := List.any_eq_true.mp himports
    exact List.any_eq_true.mpr ⟨i, (sublist_imports_run f u log).subset hi, hprovides⟩
  · have hmissing : fqn ∈ f.missing u :=
      List.mem_filter.mpr ⟨hfqn, by simp [hfree, hsees]⟩
    have hnew : ImportDecl.single fqn ∈ (FactoryHelpers.run f u log).unit.imports :=
      (imports_run log h).mem_iff.mpr (List.mem_append_right _ (List.mem_map_of_mem hmissing))
    exact .inl (List.any_eq_true.mpr ⟨_, hnew, by simp [ImportDecl.provides, ImportDecl.single]⟩)

theorem binds_run {u : CompilationUnit} (log : ChangeLog) {fqn : String}
    (h : 0 < (walk f u).2.stats.helpersAdded) (hfqn : fqn ∈ f.imports) :
    Binds f u (FactoryHelpers.run f u log).unit fqn := by
  cases htaken : u.simpleNameTaken fqn with
  | true =>
    refine .inl ⟨mem_shadowed.mpr ⟨hfqn, htaken⟩, ?_⟩
    have hkept : ImportDecl.single fqn ∉ (f.missing u).map .single := by
      intro hmem
      obtain ⟨other, hother, hsame⟩ := List.mem_map.mp hmem
      obtain rfl : other = fqn := congrArg ImportDecl.name hsame
      simp [Family.missing, htaken] at hother
    rw [(imports_run log h).count_eq, List.count_append, List.count_eq_zero.mpr hkept]
    rfl
  | false =>
    have hfree := htaken
    rw [CompilationUnit.simpleNameTaken, Bool.or_eq_false_iff] at hfree
    refine .inr ⟨fun hmem => ?_, seesUtility_run log h hfqn htaken, ?_, ?_⟩
    · rw [(mem_shadowed.mp hmem).2] at htaken
      cases htaken
    · rw [importsOther_run f f u log hfqn]
      exact hfree.1
    · rw [declaresType_run]
      exact hfree.2

/-- The pass succeeds, and its helpers write each library type so that it is meant: by its simple
name if that is free in the unit, and else in full. Names that are taken stay taken, imports are
only added, and as soon as there is a helper exactly the missing ones are. -/
theorem run_names_library_types (f : Family) (u : CompilationUnit) (log : ChangeLog) :
    ∃ stats, (FactoryHelpers.run f u log).result = .ok stats ∧
      TypesBecome (spelling f u) u.types (FactoryHelpers.run f u log).unit.types ∧
      f.shadowed (FactoryHelpers.run f u log).unit = f.shadowed u ∧
      u.imports.Sublist (FactoryHelpers.run f u log).unit.imports ∧
      (0 < stats.helpersAdded →
        (∀ fqn ∈ f.imports, Binds f u (FactoryHelpers.run f u log).unit fqn) ∧
        (FactoryHelpers.run f u log).unit.imports.Perm
          (u.imports ++ (f.missing u).map .single) ∧
        stats.importsAdded = (f.missing u).length) := by
  have htypes : TypesBecome (spelling f u) u.types (FactoryHelpers.run f u log).unit.types := by
    rw [run_types]
    exact (walk_lowering f u).1.refine (lowering_refines_spelling f u) fun _ _ => trivial
  refine ⟨_, run_result f u log, htypes, shadowed_run f f u log, sublist_imports_run f u log, ?_⟩
  intro h
  refine ⟨fun fqn hfqn => binds_run log h hfqn, imports_run log h, ?_⟩
  have hlength := (imports_run log h).length_eq
  rw [List.length_append, List.length_map] at hlength
  simp only [hlength, Nat.add_sub_cancel_left]

/-- A unit in which one type is imported already, one is not and the name of the third is taken. -/
def takenName : CompilationUnit where
  imports := [.single "com.acme.Collections", .single "java.util.List"]
  types := [.classDecl { id := 0, name := "Outer" }
    [.field { type := { name := "Object" }, name := "x" } (some (.call (listOf 1 [.ofInt 1])))]]
  nextId := 2

/-- The helper spells `java.util.Collections` out, and only `java.util.ArrayList` is imported. -/
theorem run_names_library_types_of_takenName :
    (FactoryHelpers.run .list takenName {}).result =
        .ok { callsChanged := 1, helpersAdded := 1, importsAdded := 1 } ∧
      Family.list.shadowed takenName = ["java.util.Collections"] ∧
      Family.list.missing takenName = ["java.util.ArrayList"] ∧
      TypesBecome (spelling .list takenName) takenName.types
        (FactoryHelpers.run .list takenName {}).unit.types ∧
      ∀ fqn ∈ Family.list.imports,
        Binds .list takenName (FactoryHelpers.run .list takenName {}).unit fqn := by
  have hresult : (FactoryHelpers.run .list takenName {}).result =
      .ok { callsChanged := 1, helpersAdded := 1, importsAdded := 1 } := by rfl
  obtain ⟨stats, hok, htypes, _, _, hbinds⟩ := run_names_library_types .list takenName {}
  obtain rfl := Except.ok.inj (hresult.symm.trans hok)
  exact ⟨hresult, by decide, by decide, htypes, (hbinds (by decide)).1⟩

end FactoryHelpers

end FactoryLowering
