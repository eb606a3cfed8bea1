import FactoryLowering.Proofs.Helper
import FactoryLowering.Proofs.Tree.CallEdit
import FactoryLowering.Proofs.Tree.Identity
import Mathlib.Data.List.Nodup

/-! # What helpers do when they are called

Straight-line methods on library collections can be run: variables are declared and looked up by
name, insertions are carried out one after the other, and the last statement gives the result. A
collection remembers every insertion, so running a helper shows which arguments went in, and in
which order. Anything else in a body, a name that is declared twice included, makes the run fail.
-/
namespace FactoryLowering

namespace Execution

inductive CollectionKind where
  | list
  | set
  | map
  deriving DecidableEq, Repr

namespace CollectionKind

def className : CollectionKind → String
  | .list => "java.util.ArrayList"
  | .set => "java.util.LinkedHashSet"
  | .map => "java.util.HashMap"

def insertion : CollectionKind → String × Nat
  | .list => ("add", 1)
  | .set => ("add", 1)
  | .map => ("put", 2)

def viewMethod : CollectionKind → String
  | .list => "unmodifiableList"
  | .set => "unmodifiableSet"
  | .map => "unmodifiableMap"

def ofClassName? (name : String) : Option CollectionKind :=
  [list, set, map].find? fun kind =>
    name == kind.className || name == Text.simpleName kind.className

end CollectionKind

variable {α : Type}

/-- What a variable holds. The arguments of all insertions into a collection are kept, in order. -/
inductive Value (α : Type) where
  | argument (a : α)
  | collection (kind : CollectionKind) (inserted : List (List α))
  | view (kind : CollectionKind) (inserted : List (List α))

abbrev Variables (α : Type) := String → Option (Value α)

namespace Variables

def declare (vars : Variables α) (name : String) (value : Value α) : Option (Variables α) :=
  if (vars name).isNone then some (Function.update vars name (some value)) else none

def bindArguments (vars : Variables α) : List String → List α → Option (Variables α)
  | [], [] => some vars
  | name :: names, a :: args =>
    (vars.declare name (.argument a)).bind fun vars => bindArguments vars names args
  | _, _ => none

def argument? (vars : Variables α) : Expr → Option α
  | .ident name =>
    match vars name.name with
    | some (.argument a) => some a
    | _ => none
  | _ => none

/-- A variable, a new collection, or a view of the collection in a variable. -/
def evaluate? (vars : Variables α) : Expr → Option (Value α)
  | .ident name => vars name.name
  | .new type [] _ => (CollectionKind.ofClassName? type.name).map fun kind => .collection kind []
  | .call ⟨_, some receiver, method, [.ident arg], _, _⟩ =>
    match receiver.qualifiedName?, vars arg.name with
    | some owner, some (.collection kind inserted) =>
      if (owner = "java.util.Collections" ∨ owner = "Collections") ∧ method = kind.viewMethod then
        some (.view kind inserted)
      else none
    | _, _ => none
  | _ => none

/-- Declares a variable, or inserts arguments into the collection in a variable. -/
def execute? (vars : Variables α) : Stmt → Option (Variables α)
  | .variables _ _ [⟨name, some init, _⟩] _ => (vars.evaluate? init).bind (vars.declare name)
  | .expression (.call ⟨_, some (.ident target), method, args, _, _⟩) _ =>
    match vars target.name with
    | some (.collection kind inserted) =>
      if (method, args.length) = kind.insertion then
        (args.mapM vars.argument?).map fun row =>
          Function.update vars target.name (some (.collection kind (inserted ++ [row])))
      else none
    | _ => none
  | _ => none

def run? (vars : Variables α) : List Stmt → Option (Value α)
  | [] => none
  | [.returns (some value) _] => vars.evaluate? value
  | s :: rest => (vars.execute? s).bind fun vars => run? vars rest

end Variables

def call? (m : Method) (args : List α) : Option (Value α) :=
  if m.head.isVarargs then none
  else
    (Variables.bindArguments (fun _ => none) (m.head.params.map (·.name)) args).bind fun vars =>
      m.body.bind fun body => vars.run? body.stmts

namespace Variables

theorem declare_of_free {vars : Variables α} {name : String} (h : vars name = none)
    (value : Value α) :
    vars.declare name value = some (Function.update vars name (some value)) := by
  simp [declare, h]

theorem exists_bindArguments {vars : Variables α} {names : List String} {args : List α}
    (hlength : names.length = args.length) (hnodup : names.Nodup)
    (hfree : ∀ name ∈ names, vars name = none) :
    ∃ bound : Variables α, vars.bindArguments names args = some bound ∧
      names.map bound = args.map (fun a => some (.argument a)) ∧
      ∀ name, name ∉ names → bound name = vars name := by
  induction names generalizing vars args with
  | nil =>
    obtain rfl := List.length_eq_zero_iff.mp hlength.symm
    exact ⟨vars, rfl, rfl, fun _ _ => rfl⟩
  | cons name names ih =>
    obtain ⟨a, args, rfl⟩ := List.exists_cons_of_length_eq_add_one hlength.symm
    obtain ⟨hname, hnodup⟩ := List.nodup_cons.mp hnodup
    obtain ⟨hhere, hlater⟩ := List.forall_mem_cons.mp hfree
    have hfree' : ∀ x ∈ names, Function.update vars name (some (.argument a)) x = none := by
      intro x hx
      have hne : x ≠ name := fun h => hname (h ▸ hx)
      rw [Function.update_of_ne hne]
      exact hlater x hx
    obtain ⟨bound, hbind, hvalues, hrest⟩ := ih (Nat.succ.inj hlength) hnodup hfree'
    refine ⟨bound, ?_, ?_, ?_⟩
    · rw [bindArguments, declare_of_free hhere]
      exact hbind
    · rw [List.map_cons, List.map_cons, hvalues, hrest name hname, Function.update_self]
    · intro x hx
      obtain ⟨hne, hx⟩ := not_or.mp (mt List.mem_cons.mpr hx)
      rw [hrest x hx, Function.update_of_ne hne]

theorem mapM_argument? {vars : Variables α} {names : List String} {row : List α}
    (h : names.map vars = row.map fun a => some (.argument a)) :
    (names.map Expr.ofName).mapM vars.argument? = some row := by
  induction names generalizing row with
  | nil =>
    have hrow : row = [] := by simpa using h.symm
    rw [hrow]
    rfl
  | cons name names ih =>
    obtain ⟨a, row, rfl⟩ : ∃ a rest, row = a :: rest := by
      cases row with
      | nil => cases h
      | cons a rest => exact ⟨a, rest, rfl⟩
    rw [List.map_cons, List.map_cons, List.cons.injEq] at h
    have hname : vars.argument? (Expr.ofName name) = some a := by
      simp only [Expr.ofName, argument?, h.1]
    rw [List.map_cons, List.mapM_cons, hname, ih h.2]
    rfl

/-- Values for parameters that come in groups are a list of groups of values. -/
theorem exists_rows {ι : Type} {vars : Variables α} {names : ι → List String} {is : List ι}
    {args : List α} (h : (is.flatMap names).map vars = args.map fun a => some (.argument a)) :
    ∃ rows : List (List α), rows.flatten = args ∧
      List.Forall₂ (fun i row => (names i).map vars = row.map fun a => some (.argument a)) is
        rows := by
  induction is generalizing args with
  | nil =>
    have hargs : args = [] := by simpa using h.symm
    exact ⟨[], hargs.symm, .nil⟩
  | cons i is ih =>
    rw [List.flatMap_cons, List.map_append] at h
    obtain ⟨row, later, rfl, hrow, hlater⟩ := List.append_eq_map_iff.mp h
    obtain ⟨rows, rfl, hrows⟩ := ih hlater.symm
    exact ⟨row :: rows, rfl, .cons hrow.symm hrows⟩

theorem run?_cons {vars : Variables α} {s : Stmt} (h : ∀ value span, s ≠ .returns value span)
    (rest : List Stmt) : vars.run? (s :: rest) = (vars.execute? s).bind (·.run? rest) := by
  rw [run?]
  intro value span heq _
  exact h (some value) span heq

end Variables

end Execution

open Execution

def Stmt.declaredNames : Stmt → List String
  | .variables _ _ declared _ => declared.map (·.name)
  | _ => []

namespace Family

variable {α : Type} {f : Family} {spelledOut : List String}

def collectionKind : Family → CollectionKind
  | .list => .list
  | .set => .set
  | .map => .map

/-- Neighbours two by two; an odd one is left out. -/
def pairs : List α → List (List α)
  | a :: b :: rest => [a, b] :: pairs rest
  | _ => []

/-- What the family's collection is to be given: every argument by itself, or key and value. -/
def insertions (f : Family) (args : List α) : List (List α) :=
  match f with
  | .list => args.map ([·])
  | .set => args.map ([·])
  | .map => pairs args

theorem eq_map_singleton_of_flatten {rows : List (List α)} (h : ∀ row ∈ rows, row.length = 1) :
    rows = rows.flatten.map ([·]) := by
  induction rows with
  | nil => rfl
  | cons row rows ih =>
    obtain ⟨hrow, hrows⟩ := List.forall_mem_cons.mp h
    obtain ⟨a, rfl⟩ := List.length_eq_one_iff.mp hrow
    rw [List.flatten_cons, List.map_append, ← ih hrows]
    rfl

theorem eq_pairs_of_flatten {rows : List (List α)} (h : ∀ row ∈ rows, row.length = 2) :
    rows = pairs rows.flatten := by
  induction rows with
  | nil => rfl
  | cons row rows ih =>
    obtain ⟨hrow, hrows⟩ := List.forall_mem_cons.mp h
    obtain ⟨a, b, rfl⟩ := List.length_eq_two.mp hrow
    have hlater := ih hrows
    rw [List.flatten_cons, List.cons_append, List.cons_append, List.nil_append, pairs, ← hlater]

def fillNames (f : Family) (number : Nat) : List String := (f.fillParams number).map (·.name)

theorem insertions_of_flatten {rows : List (List α)} {args : List α} (h : rows.flatten = args)
    (hlength : ∀ row ∈ rows, row.length = f.collectionKind.insertion.2) :
    f.insertions args = rows := by
  subst h
  cases f with
  | list => exact (eq_map_singleton_of_flatten hlength).symm
  | set => exact (eq_map_singleton_of_flatten hlength).symm
  | map => exact (eq_pairs_of_flatten hlength).symm

theorem length_fillNames (f : Family) (number : Nat) :
    (f.fillNames number).length = f.collectionKind.insertion.2 := by
  cases f <;> rfl

theorem exists_letter_of_mem_fillNames {number : Nat} {name : String}
    (h : name ∈ f.fillNames number) : ∃ c : Char, (c = 'e' ∨ c = 'k' ∨ c = 'v') ∧
      name.toList = c :: (toString number).toList := by
  cases f with
  | list =>
    obtain rfl := List.mem_singleton.mp h
    exact ⟨'e', .inl rfl, by simp⟩
  | set =>
    obtain rfl := List.mem_singleton.mp h
    exact ⟨'e', .inl rfl, by simp⟩
  | map =>
    rcases List.mem_cons.mp h with rfl | h
    · exact ⟨'k', .inr (.inl rfl), by simp⟩
    · obtain rfl := List.mem_singleton.mp h
      exact ⟨'v', .inr (.inr rfl), by simp⟩

theorem toString_nat_injective {m n : Nat} (h : (toString m).toList = (toString n).toList) :
    m = n := by
  rw [Nat.toString_eq_ofList_toDigits, Nat.toString_eq_ofList_toDigits, String.toList_ofList,
    String.toList_ofList] at h
  have hvalue := congrArg (Nat.ofDigitChars 10 · 0) h
  simpa only [Nat.ofDigitChars_ten_toDigits] using hvalue

theorem eq_of_mem_fillNames {number other : Nat} {name : String} (h : name ∈ f.fillNames number)
    (h' : name ∈ f.fillNames other) : number = other := by
  obtain ⟨c, _, hname⟩ := exists_letter_of_mem_fillNames h
  obtain ⟨c', _, hname'⟩ := exists_letter_of_mem_fillNames h'
  rw [hname, List.cons.injEq] at hname'
  exact toString_nat_injective hname'.2

theorem nodup_fillNames (f : Family) (number : Nat) : (f.fillNames number).Nodup := by
  cases f with
  | list => exact List.nodup_singleton _
  | set => exact List.nodup_singleton _
  | map =>
    refine List.nodup_cons.mpr ⟨?_, List.nodup_singleton _⟩
    intro h
    have hname := congrArg String.toList (List.mem_singleton.mp h)
    simp at hname

theorem localName_not_mem_fillNames (f : Family) (number : Nat) :
    f.localName ∉ f.fillNames number := by
  intro h
  obtain ⟨c, hc, hname⟩ := exists_letter_of_mem_fillNames h
  cases f <;> simp [localName] at hname <;> obtain ⟨rfl, _⟩ := hname <;> simp at hc

def paramNames (f : Family) (fills : Nat) : List String :=
  (List.range fills).flatMap fun i => f.fillNames (i + 1)

theorem map_name_helperHead (f : Family) (spelledOut : List String) (fills : Nat) :
    (f.helperHead spelledOut fills).params.map (·.name) = f.paramNames fills := by
  simp only [helperHead, paramNames, fillNames, List.map_flatMap]

theorem nodup_paramNames (f : Family) (fills : Nat) : (f.paramNames fills).Nodup := by
  refine List.nodup_flatMap.mpr ⟨fun i _ => f.nodup_fillNames (i + 1), ?_⟩
  refine List.nodup_range.imp fun {i j} hne => ?_
  intro name hi hj
  exact hne (Nat.succ.inj (eq_of_mem_fillNames hi hj))

theorem localName_not_mem_paramNames (f : Family) (fills : Nat) :
    f.localName ∉ f.paramNames fills := by
  intro h
  obtain ⟨i, _, h⟩ := List.mem_flatMap.mp h
  exact f.localName_not_mem_fillNames (i + 1) h

theorem execute?_fillStmt {vars : Variables α} {inserted : List (List α)} {number : Nat}
    {row : List α}
    (hlocal : vars f.localName = some (.collection f.collectionKind inserted))
    (hrow : (f.fillNames number).map vars = row.map fun a => some (.argument a)) (id : NodeId) :
    vars.execute? (f.fillStmt id number) = some (Function.update vars f.localName
      (some (.collection f.collectionKind (inserted ++ [row])))) := by
  have hargs := Variables.mapM_argument? hrow
  have hmethod : (f.fillName, ((f.fillNames number).map Expr.ofName).length) =
      f.collectionKind.insertion := by
    cases f <;> rfl
  rw [fillStmt_eq]
  change (match vars f.localName with
    | some (.collection kind inserted) => _
    | _ => none) = _
  rw [hlocal]
  change (if (f.fillName, ((f.fillNames number).map Expr.ofName).length) = _ then
    (((f.fillNames number).map Expr.ofName).mapM vars.argument?).map _ else none) = _
  rw [if_pos hmethod, hargs]
  rfl

/-- The fill statements insert one group of arguments after the other. They change the local
variable only, so the parameters keep the values that they were called with. -/
theorem run?_fills {vars params : Variables α} {inserted rows : List (List α)} {is : List Nat}
    (hlocal : vars f.localName = some (.collection f.collectionKind inserted))
    (hparams : ∀ name, name ≠ f.localName → vars name = params name)
    (hrows : List.Forall₂ (fun i row =>
      (f.fillNames (i + 1)).map params = row.map fun a => some (.argument a)) is rows)
    (id : Nat → NodeId) (rest : List Stmt) :
    vars.run? (is.map (fun i => f.fillStmt (id i) (i + 1)) ++ rest) =
      Variables.run? (Function.update vars f.localName
        (some (.collection f.collectionKind (inserted ++ rows)))) rest := by
  induction hrows generalizing vars inserted with
  | nil =>
    rw [List.append_nil, ← hlocal, Function.update_eq_self]
    rfl
  | @cons i row is rows hrow hrows ih =>
    have hvalues : (f.fillNames (i + 1)).map vars = row.map fun a => some (.argument a) := by
      rw [← hrow]
      refine List.map_congr_left fun name hname => hparams name ?_
      rintro rfl
      exact f.localName_not_mem_fillNames (i + 1) hname
    have hparams' : ∀ name, name ≠ f.localName → Function.update vars f.localName
        (some (.collection f.collectionKind (inserted ++ [row]))) name = params name := by
      intro name hne
      rw [Function.update_of_ne hne]
      exact hparams name hne
    rw [List.map_cons, List.cons_append, Variables.run?_cons (by simp [fillStmt, Stmt.ofExpr]),
      execute?_fillStmt hlocal hvalues, Option.bind_some, ih (Function.update_self ..) hparams',
      Function.update_idem, List.append_assoc, List.singleton_append]

theorem ofClassName?_spell (f : Family) (spelledOut : List String) :
    CollectionKind.ofClassName? (spell spelledOut f.container) = some f.collectionKind := by
  unfold spell
  split <;> cases f <;> decide +kernel

theorem spell_viewOwner (spelledOut : List String) :
    spell spelledOut viewOwner = "java.util.Collections" ∨
      spell spelledOut viewOwner = "Collections" := by
  unfold spell
  split
  · exact .inl rfl
  · exact .inr (by decide +kernel)

theorem evaluate?_view {vars : Variables α} {inserted : List (List α)}
    (hlocal : vars f.localName = some (.collection f.collectionKind inserted))
    (spelledOut : List String) (id : NodeId) :
    vars.evaluate? (.call (.unresolved id (some (.qualified (spell spelledOut viewOwner)))
      f.viewName [.ofName f.localName])) = some (.view f.collectionKind inserted) := by
  have hview : f.viewName = f.collectionKind.viewMethod := by
    cases f <;> rfl
  have howner := Expr.qualifiedName?_qualified (spell spelledOut viewOwner)
  simp only [Variables.evaluate?, Call.unresolved, Expr.ofName, howner, hlocal]
  exact if_pos ⟨spell_viewOwner spelledOut, hview⟩

theorem run?_helperBody {params : Variables α} {rows : List (List α)} {fills : Nat}
    (hlocal : params f.localName = none)
    (hrows : List.Forall₂ (fun i row =>
      (f.fillNames (i + 1)).map params = row.map fun a => some (.argument a)) (List.range fills)
        rows)
    (spelledOut : List String) (first : NodeId) :
    params.run? (f.helperBody spelledOut fills first) = some (.view f.collectionKind rows) := by
  have hnew : params.execute? (.localVariable (.generic (spell spelledOut f.interface) f.typeVars)
      f.localName (some (.newObject (.generic (spell spelledOut f.container) f.typeVars) []))) =
      some (Function.update params f.localName (some (.collection f.collectionKind []))) := by
    have hkind := f.ofClassName?_spell spelledOut
    simp only [Variables.execute?, Variables.evaluate?, Stmt.localVariable, Expr.newObject,
      TypeRef.generic, hkind, Option.map_some, Option.bind_some]
    exact Variables.declare_of_free hlocal _
  have hparams : ∀ name, name ≠ f.localName →
      Function.update params f.localName (some (.collection f.collectionKind [])) name =
        params name := fun name hne => Function.update_of_ne hne ..
  rw [helperBody, List.cons_append, Variables.run?_cons (by simp [Stmt.localVariable]), hnew,
    Option.bind_some, run?_fills (Function.update_self ..) hparams hrows]
  exact evaluate?_view (Function.update_self ..) spelledOut (NodeId.next^[fills] first)

theorem call?_helper {n : Nat} (h : f.accepts n = true) (spelledOut : List String) (first : NodeId)
    {args : List α} (hargs : args.length = n) :
    call? { head := f.helperHead spelledOut (f.fillCount n)
            body := some (.ofStmts (f.helperBody spelledOut (f.fillCount n) first)) } args =
      some (.view f.collectionKind (f.insertions args)) := by
  have hnames := f.map_name_helperHead spelledOut (f.fillCount n)
  have hlength : (f.paramNames (f.fillCount n)).length = args.length := by
    rw [← hnames, List.length_map, length_helperHead_params spelledOut h, hargs]
  have hfree : ∀ name ∈ f.paramNames (f.fillCount n), (fun _ => none : Variables α) name = none :=
    fun _ _ => rfl
  obtain ⟨params, hbind, hvalues, hothers⟩ :=
    Variables.exists_bindArguments hlength (f.nodup_paramNames _) hfree
  obtain ⟨rows, hflatten, hrows⟩ := Variables.exists_rows hvalues
  have hwidth : ∀ row ∈ rows, row.length = f.collectionKind.insertion.2 := by
    intro row hrow
    obtain ⟨i, _, hi⟩ := exists_of_mem_of_forall₂ hrows.flip hrow
    have hcount := congrArg List.length hi
    rw [List.length_map, List.length_map, f.length_fillNames] at hcount
    exact hcount.symm
  have hlocal : params f.localName = none := hothers _ (f.localName_not_mem_paramNames _)
  have hrun := run?_helperBody hlocal hrows spelledOut first
  rw [call?, isVarargs_helperHead, hnames, hbind, insertions_of_flatten hflatten hwidth]
  exact hrun

theorem declaredNames_helperBody (f : Family) (spelledOut : List String) (fills : Nat)
    (first : NodeId) :
    (f.helperBody spelledOut fills first).flatMap Stmt.declaredNames = [f.localName] := by
  have hfills : ((List.range fills).map fun i =>
      f.fillStmt (NodeId.next^[i] first) (i + 1)).flatMap Stmt.declaredNames = [] := by
    rw [List.flatMap_map]
    exact List.flatMap_eq_nil_iff.mpr fun _ _ => rfl
  rw [helperBody, List.flatMap_append, List.flatMap_cons, hfills]
  rfl

theorem callsOf_unresolved {receiver : Expr} {path : String}
    (h : receiver.qualifiedName? = some path) (id : NodeId) (name : String) (names : List String) :
    callsOf (Expr.call (.unresolved id (some receiver) name (names.map .ofName))).visits =
      [.unresolved id (some receiver) name (names.map .ofName)] := by
  have hreceiver : callsOf (Expr.visitsOption (some receiver)) = [] :=
    callsOf_quiet (Expr.quiet_of_qualifiedName? h)
  have hargs := callsOf_quiet (Expr.quiet_names names)
  rw [Expr.visits_call]
  have hparts := callsOf_append (Expr.visitsOption (some receiver))
    (Expr.visitsList (names.map .ofName))
  rw [hreceiver, hargs] at hparts
  exact congrArg (List.cons _) hparts

theorem callIds_fills (f : Family) (fills : Nat) (first : NodeId) :
    (callsOf (((List.range fills).map fun i =>
      f.fillStmt (NodeId.next^[i] first) (i + 1)).flatMap (·.visits))).map (·.id) =
      List.iterate NodeId.next first fills := by
  have hfill : ∀ i, (callsOf (f.fillStmt (NodeId.next^[i] first) (i + 1)).visits).map (·.id) =
      [NodeId.next^[i] first] := by
    intro i
    have hname : (Expr.ofName f.localName).qualifiedName? = some f.localName := rfl
    have hcall := callsOf_unresolved hname (NodeId.next^[i] first) f.fillName (f.fillNames (i + 1))
    rw [fillStmt_eq]
    exact congrArg (List.map (·.id)) hcall
  rw [List.flatMap_map, callsOf, List.filterMap_flatMap, List.map_flatMap,
    ← List.range_map_iterate, List.map_eq_flatMap]
  exact congrArg (List.flatMap · (List.range fills)) (funext hfill)

theorem callIds_helperBody (f : Family) (spelledOut : List String) (fills : Nat) (first : NodeId) :
    (callsOf (Stmt.visitsList (f.helperBody spelledOut fills first))).map (·.id) =
      List.iterate NodeId.next first (fills + 1) := by
  have hview := callsOf_unresolved (Expr.qualifiedName?_qualified (spell spelledOut viewOwner))
    (NodeId.next^[fills] first) f.viewName [f.localName]
  have hreturn : (callsOf ([Stmt.returning (some (.call (.unresolved (NodeId.next^[fills] first)
      (some (.qualified (spell spelledOut viewOwner))) f.viewName
      [.ofName f.localName])))].flatMap (·.visits))).map (·.id) = [NodeId.next^[fills] first] := by
    rw [List.flatMap_singleton]
    exact congrArg (List.map (·.id)) hview
  rw [Stmt.visitsList_eq, helperBody, List.cons_append, List.flatMap_cons, List.flatMap_append,
    callsOf_append, callsOf_append, List.map_append, List.map_append, callIds_fills,
    List.iterate_add]
  exact congrArg (List.iterate NodeId.next first fills ++ ·) hreturn

theorem callsOf_method (m : Method) :
    callsOf (Member.method m).visits = callsOf (Block.visitsOption m.body) := by
  obtain ⟨head, body⟩ := m
  have hhead := callsOf_quiet fun v hv => Or.inr (head.unannounced v hv)
  have hparts := callsOf_append head.visits (Block.visitsOption body)
  rw [hhead, List.nil_append] at hparts
  exact hparts

end Family

/-- A method that does for its arguments what a family's factory does. -/
structure Method.Collects (m : Method) (f : Family) (n : Nat) : Prop where
  name : m.head.name = f.helperName
  mods : m.head.mods = [.privateAccess, .staticMember]
  fixed : m.head.isVarargs = false
  count : m.head.params.length = n
  distinct : (m.head.params.map (·.name)).Nodup
  /-- One variable is declared, and its name is not that of a parameter. -/
  apart : ∃ body localName, m.body = some body ∧
    body.stmts.flatMap Stmt.declaredNames = [localName] ∧ localName ∉ m.head.params.map (·.name)
  collects : ∀ (α : Type) (args : List α), args.length = n →
    call? m args = some (.view f.collectionKind (f.insertions args))
  serves : ∀ d : TypeDecl, d.methodsNamed f.helperName = [m] →
    ∀ k, (f.compatible? d k).isSome = true ↔ k = n

def Family.callCount (f : Family) (n : Nat) : Nat := if f = .map then n / 2 + 1 else n + 1

namespace Family

variable {f : Family} {spelledOut : List String}

theorem fillCount_add_one (f : Family) (n : Nat) : f.fillCount n + 1 = f.callCount n := by
  cases f <;> rfl

theorem accepts_iff (f : Family) (n : Nat) : f.accepts n = true ↔ f = .map → n % 2 = 0 := by
  cases f <;> simp [accepts, isKeyValue]

theorem collects_helper {n : Nat} (h : f.accepts n = true) (spelledOut : List String)
    (first : NodeId) :
    Method.Collects { head := f.helperHead spelledOut (f.fillCount n)
                      body := some (.ofStmts (f.helperBody spelledOut (f.fillCount n) first)) }
      f n where
  name := rfl
  mods := rfl
  fixed := isVarargs_helperHead f spelledOut _
  count := length_helperHead_params spelledOut h
  distinct := by
    rw [map_name_helperHead]
    exact f.nodup_paramNames _
  apart := by
    refine ⟨_, f.localName, rfl, f.declaredNames_helperBody spelledOut _ first, ?_⟩
    rw [map_name_helperHead]
    exact f.localName_not_mem_paramNames _
  collects α args hargs := call?_helper h spelledOut first hargs
  serves d hd k := by
    have hfixed := isVarargs_helperHead f spelledOut (f.fillCount n)
    have hcount := length_helperHead_params spelledOut h
    rw [compatible?, hd, List.isSome_find?]
    simp only [List.any_cons, List.any_nil, Bool.or_false, fits, hfixed, hcount, Bool.false_and,
      beq_iff_eq]
    exact eq_comm

/-- The family makes a helper for every arity that it accepts and for no other. The helper collects
its arguments, and its calls have taken the identities that are gone: as many 32-bit numbers, one
after the other, as there are calls. -/
theorem helper_collects_arguments (f : Family) (spelledOut : List String) (n : Nat)
    (first : UInt32) :
    ((f.helper? spelledOut n first.toNat).1.isSome = true ↔ (f = .map → n % 2 = 0)) ∧
    ((f.helper? spelledOut n first.toNat).1 = none →
      (f.helper? spelledOut n first.toNat).2 = first.toNat) ∧
    ∀ m, (f.helper? spelledOut n first.toNat).1 = some m → m.Collects f n ∧
      (f.helper? spelledOut n first.toNat).2 = (first + UInt32.ofNat (f.callCount n)).toNat ∧
      (callsOf (Member.method m).visits).map (·.id) =
        (List.range (f.callCount n)).map (fun i => (first + UInt32.ofNat i).toNat) ∧
      (first.toNat + f.callCount n < 2 ^ 32 →
        (f.helper? spelledOut n first.toNat).2 = first.toNat + f.callCount n ∧
        (callsOf (Member.method m).visits).map (·.id) =
          List.range' first.toNat (f.callCount n)) := by
  rw [← accepts_iff]
  by_cases haccepts : f.accepts n = true
  · have hhelper : f.helper? spelledOut n first.toNat =
        (some { head := f.helperHead spelledOut (f.fillCount n)
                body := some (.ofStmts (f.helperBody spelledOut (f.fillCount n) first.toNat)) },
          NodeId.next^[f.callCount n] first.toNat) := by
      rw [helper?_eq, if_pos haccepts, ← fillCount_add_one]
    rw [hhelper]
    refine ⟨iff_of_true rfl haccepts, nofun, ?_⟩
    intro m hm
    cases hm
    have hids := f.callIds_helperBody spelledOut (f.fillCount n) first.toNat
    rw [fillCount_add_one] at hids
    rw [callsOf_method]
    refine ⟨collects_helper haccepts spelledOut first.toNat, NodeId.iterate_next_toNat first _,
      hids.trans ?_, fun hroom => ?_⟩
    · rw [← List.range_map_iterate]
      exact List.map_congr_left fun i _ => NodeId.iterate_next_toNat first i
    · obtain ⟨hrange, hcounter⟩ := NodeId.iterate_eq_range' (NodeId.lt_last_of_mem_iterate hroom)
      exact ⟨hcounter, hids.trans hrange⟩
  · have hnone : f.helper? spelledOut n first.toNat = (none, first.toNat) := by
      rw [helper?_eq, if_neg haccepts]
    rw [hnone]
    exact ⟨iff_of_false nofun haccepts, fun _ => rfl, nofun⟩

/-- The two calls of `listOf(e1)` take the greatest identity and 0. -/
example : (Family.list.helper? [] 1 NodeId.last).2 = 1 ∧
    (Family.list.helper? [] 1 NodeId.last).1.any (fun m =>
      (callsOf (Member.method m).visits).map (·.id) == [NodeId.last, 0]) = true := by
  decide +kernel

end Family

end FactoryLowering
