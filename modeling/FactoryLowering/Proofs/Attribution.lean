import FactoryLowering.Proofs.NodeIdentity
import FactoryLowering.Proofs.QualifiedName
import FactoryLowering.Proofs.Tree.CallEdit
import FactoryLowering.Proofs.Tree.DeclaredNames
import FactoryLowering.Proofs.Tree.PrintedText
import FactoryLowering.Proofs.Tree.Refinement

/-! # What attribution does

Which type a call belongs to follows from its receiver or, if it has none, from the types around it.
Nothing that is bound inside the receiver or elsewhere changes that. So one run settles every call:
those that are left without a method stay so however often attribution is run, and nothing that is
printed has changed.
-/
namespace FactoryLowering

/-- The same expression, but for the class that an identifier is found to denote. -/
inductive Expr.Retyped : Expr → Expr → Prop
  | same (e : Expr) : Retyped e e
  | ident (i : Identifier) {type : JavaType} (h : type.isReference = true) :
      Retyped (.ident i) (.ident { i with type := some type })

/-- What may become of a call: it stays as it is or, if it has no method, it is bound to the method
of its own name in some class. -/
inductive Call.Attributed : Call → Call → Prop
  | kept (c : Call) : Attributed c c
  | bound {c : Call} {receiver : Option Expr} {owner : JavaType} (unbound : c.method = none)
      (isClass : owner.isReference = true) (retyped : Option.Rel Expr.Retyped c.receiver receiver) :
      Attributed c { c with receiver, method := some { owner, name := c.name } }

structure SameParts (e e' : Option Expr) : Prop where
  text : ∀ level, Expr.receiverText level e' = Expr.receiverText level e
  sites : ∀ q, sites q (Expr.visitsOption e') = sites q (Expr.visitsOption e)
  ids : idsOf (Expr.visitsOption e') = idsOf (Expr.visitsOption e)

theorem SameParts.refl (e : Option Expr) : SameParts e e := ⟨fun _ => rfl, fun _ => rfl, rfl⟩

theorem SameParts.of_retyped {e e' : Option Expr} (h : Option.Rel Expr.Retyped e e') :
    SameParts e e' := by
  cases h with
  | none => exact .refl none
  | some h =>
    cases h with
    | same => exact .refl _
    | ident i h => exact ⟨fun _ => rfl, fun _ => rfl, rfl⟩

namespace Call.Attributed

variable {c c' : Call}

theorem receiver (h : c.Attributed c') : SameParts c.receiver c'.receiver := by
  cases h with
  | kept => exact .refl c.receiver
  | bound _ _ hretyped => exact .of_retyped hretyped

theorem args (h : c.Attributed c') : c'.args = c.args := by
  cases h <;> rfl

theorem id (h : c.Attributed c') : c'.id = c.id := by
  cases h <;> rfl

theorem name (h : c.Attributed c') : c'.name = c.name := by
  cases h <;> rfl

theorem text_eq (h : c.Attributed c') (level : Nat) :
    (Expr.call c').text level = (Expr.call c).text level := by
  have hreceiver := h.receiver.text level
  have hargs := h.args
  have hname := h.name
  obtain ⟨id, receiver, name, args, method, span⟩ := c
  obtain ⟨id', receiver', name', args', method', span'⟩ := c'
  simp only at hreceiver hargs hname
  rw [Expr.text, Expr.text, hreceiver, hargs, hname]

theorem idsOf_eq (h : c.Attributed c') :
    idsOf (Expr.call c').visits = idsOf (Expr.call c).visits := by
  rw [idsOf_call, idsOf_call, h.id, h.args, h.receiver.ids]

end Call.Attributed

theorem attributed_keepsText : (callsOnly Call.Attributed).KeepsText where
  call h := h.text_eq
  type {p q site d d' new} h level := by
    obtain rfl : new = d' := h
    rfl

theorem callsOnly_keepsNames (rule : Call → Call → Prop) : (callsOnly rule).KeepsNames := by
  intro p q site d d' new h outer
  obtain rfl : new = d' := h
  rfl

theorem idsOf_attributed : Hereditary fun K _ a => ∀ p q new,
    K.becomes (callsOnly Call.Attributed) p q a new →
      idsOf (K.visits new) = idsOf (K.visits a) where
  unit _ _ _ _ := rfl
  pair {_ _ K L _ a b} _ ha hb p q new h := by
    have hvisits : ∀ x, (K.prod L).visits x = K.visits x.1 ++ L.visits x.2 := fun _ => rfl
    rw [hvisits, hvisits, idsOf_append, idsOf_append, ha p q _ h.1, hb p q _ h.2]
  node {_ _ K L} build own refs _ a n ha p q _ h := by
    obtain ⟨a', ha', rfl⟩ := n.becomes.mp h
    have hnode : ∀ x, idsOf (L.visits (build x)) = idsOf (K.visits x) := fun x => by
      rw [n.visits, idsOf_append, idsOf_quiet (n.quiet x), List.nil_append]
    rw [hnode, hnode, ha p q a' ha']
  call c hr ha p q _ h := by
    obtain ⟨receiver, args, call, hreceiver, hargs, hcall, rfl⟩ := Expr.becomes_call.mp h
    have hparts : idsOf (Expr.visitsOption receiver) = _ := hr p q receiver hreceiver
    have hparts' : idsOf (Expr.visitsList args) = _ := ha p q args hargs
    have goal : idsOf (Expr.call call).visits = idsOf (Expr.call c).visits := by
      rw [hcall.idsOf_eq, idsOf_call, idsOf_call, hparts, hparts']
      rfl
    exact goal
  anonymous {_ head ms} hms p q ms' h := by
    rw [idsOf_anonymous, idsOf_anonymous]
    exact congrArg (head.id :: ·) (hms _ _ ms' h)
  type {_ site d} hd p q new h := by
    obtain ⟨d', hbody, htype⟩ := TypeDecl.becomes_iff.mp h
    obtain rfl : new = d' := htype
    have hids := hd _ _ new hbody
    have goal : idsOf (new.visits site) = idsOf (d.visits site) := by
      rw [TypeDecl.idsOf_visits, TypeDecl.idsOf_visits, hbody.alike.id]
      exact congrArg (d.id :: ·) hids
    exact goal

namespace NameTable

variable {table : NameTable} {r : Rewriting} {p q : Path}

theorem receiver_becomes : ∀ {e e' : Expr}, e.Becomes r p q e' →
    (table.receiver e').2 = (table.receiver e).2
  | .field target name span, _, h => by
    have hspells := h.spelling_eq.1
    rw [Expr.Becomes] at h
    obtain ⟨target', _, rfl⟩ := h
    rw [receiver, receiver, hspells]
  | .literal .., _, h | .ident .., _, h => by
    rw [Expr.Becomes] at h
    rw [h]
  | .binary .., _, h | .assign .., _, h | .newAnonymous .., _, h => by
    rw [Expr.Becomes] at h
    obtain ⟨_, _, _, _, rfl⟩ := h
    rfl
  | .call ⟨_, _, _, _, _, _⟩, _, h => by
    rw [Expr.Becomes] at h
    obtain ⟨_, _, _, _, _, _, rfl⟩ := h
    rfl
  | .cast .., _, h | .new .., _, h | .paren .., _, h => by
    rw [Expr.Becomes] at h
    obtain ⟨_, _, rfl⟩ := h
    rfl
  | .conditional .., _, h => by
    rw [Expr.Becomes] at h
    obtain ⟨_, _, _, _, _, _, rfl⟩ := h
    rfl

theorem receiver_retyped (table : NameTable) (e : Expr) : e.Retyped (table.receiver e).1 := by
  rcases table.receiver_cases e with hsame | ⟨i, fqn, rfl, hnew⟩
  · rw [hsame]
    exact .same e
  · rw [hnew]
    exact .ident i rfl

theorem receiver_of_none {e : Expr} (h : (table.receiver e).2 = none) :
    (table.receiver e).1 = e := by
  rcases table.receiver_cases e with hsame | ⟨i, fqn, rfl, hnew⟩
  · exact hsame
  · rw [hnew] at h
    cases h

end NameTable

namespace Attribution

variable {table : NameTable} {p q : Path} {c : Call} {s t : State}

def enclosingAt (table : NameTable) : Path → List (Option String)
  | [] => []
  | .type d site :: outer =>
    enclosingName table { enclosing := enclosingAt table outer } d.name site ::
      enclosingAt table outer
  | .anonymous _ _ :: outer => none :: enclosingAt table outer

/-- The type that the method of a call is taken from. -/
def owner? (table : NameTable) (x : Site) : Option String :=
  match x.call.receiver with
  | some e => (table.receiver e).2
  | none => (enclosingAt table x.path).head?.join

def bindAt (table : NameTable) (x : Site) : Call :=
  match x.call.method, owner? table x with
  | none, some fqn =>
    { x.call with
      receiver := x.call.receiver.map fun e => (table.receiver e).1
      method := some { owner := .ofName fqn, name := x.call.name } }
  | _, _ => x.call

def binds (table : NameTable) (x : Site) : Bool :=
  x.call.method.isNone && (owner? table x).isSome

def misses (table : NameTable) (x : Site) : Bool :=
  x.call.method.isNone && (owner? table x).isNone

theorem receiver_of_owner?_eq_none (h : owner? table ⟨p, c⟩ = none) :
    (c.receiver.map fun e => (table.receiver e).1) = c.receiver := by
  obtain ⟨id, receiver, name, args, method, span⟩ := c
  cases receiver with
  | none => rfl
  | some e => exact congrArg some (NameTable.receiver_of_none h)

theorem bindCall_of_unbound (h : s.enclosing = enclosingAt table p) (hmethod : c.method = none) :
    bindCall table c s = bindTo { c with receiver := c.receiver.map fun e => (table.receiver e).1 }
      (owner? table ⟨p, c⟩) s := by
  obtain ⟨id, receiver, name, args, method, span⟩ := c
  obtain rfl : method = none := hmethod
  cases receiver with
  | none =>
    rw [owner?, ← h]
    rfl
  | some e => rfl

theorem bindCall_eq (h : s.enclosing = enclosingAt table p) (c : Call) :
    bindCall table c s = (bindAt table ⟨p, c⟩,
      { s with
        resolved := s.resolved + if binds table ⟨p, c⟩ then 1 else 0
        unresolved := s.unresolved + if misses table ⟨p, c⟩ then 1 else 0 }) := by
  obtain ⟨id, receiver, name, args, method, span⟩ := c
  cases method with
  | some method => rfl
  | none =>
    rw [bindCall_of_unbound h rfl]
    cases howner : owner? table ⟨p, id, receiver, name, args, none, span⟩ with
    | some fqn =>
      simp only [bindAt, binds, misses, howner]
      rfl
    | none =>
      rw [receiver_of_owner?_eq_none howner]
      simp only [bindAt, binds, misses, howner]
      rfl

/-- The owner of a call follows from what is around the call, whatever is bound inside it. -/
theorem owner?_congr {r : Rewriting} {p' q' : Path} {receiver : Option Expr} {args : List Expr}
    (hpath : enclosingAt table q = enclosingAt table p)
    (h : Expr.BecomesOption r p' q' c.receiver receiver) :
    owner? table ⟨q, { c with receiver, args }⟩ = owner? table ⟨p, c⟩ := by
  cases hreceiver : c.receiver with
  | none =>
    rw [hreceiver, Expr.BecomesOption] at h
    simp only [owner?, h, hreceiver, hpath]
  | some e =>
    rw [hreceiver, Expr.BecomesOption] at h
    obtain ⟨e', he, rfl⟩ := h
    simp only [owner?, hreceiver]
    exact NameTable.receiver_becomes he

/-- Each call becomes what attribution makes of it once its parts are done. -/
def binding (table : NameTable) : Rewriting where
  call p _ _ c new := new = bindAt table ⟨p, c⟩
  type _ _ _ _ d new := new = d

structure Counts (table : NameTable) (xs : List Site) (s t : State) : Prop where
  resolved : t.resolved = s.resolved + xs.countP (binds table)
  unresolved : t.unresolved = s.unresolved + xs.countP (misses table)

theorem Counts.trans {xs ys : List Site} {u : State} (h : Counts table xs s t)
    (k : Counts table ys t u) : Counts table (xs ++ ys) s u := by
  constructor
  · rw [List.countP_append, k.resolved, h.resolved, Nat.add_assoc]
  · rw [List.countP_append, k.unresolved, h.unresolved, Nat.add_assoc]

theorem Counts.call {xs : List Site} {receiver : Option Expr} {args : List Expr} {r : Rewriting}
    (h : Counts table xs s t) (ht : t.enclosing = enclosingAt table p)
    (hreceiver : Expr.BecomesOption r p q c.receiver receiver) :
    Counts table (⟨p, c⟩ :: xs) s (bindCall table { c with receiver, args } t).2 := by
  have howner : owner? table ⟨p, { c with receiver, args }⟩ = owner? table ⟨p, c⟩ :=
    owner?_congr rfl hreceiver
  have hbinds : binds table ⟨p, { c with receiver, args }⟩ = binds table ⟨p, c⟩ := by
    rw [binds, binds, howner]
  have hmisses : misses table ⟨p, { c with receiver, args }⟩ = misses table ⟨p, c⟩ := by
    rw [misses, misses, howner]
  rw [bindCall_eq ht, hbinds, hmisses]
  constructor
  · rw [List.countP_cons, h.resolved, Nat.add_assoc]
  · rw [List.countP_cons, h.unresolved, Nat.add_assoc]

theorem editor_obeys_binding (table : NameTable) :
    (editor table).Obeys (binding table) (fun _ => True)
      (fun p s => s.enclosing = enclosingAt table p)
      fun _ xs s t => Counts table (xs.filterMap Place.site?) s t where
  refl _ := ⟨rfl, rfl⟩
  trans h k := by
    rw [List.filterMap_append]
    exact h.trans k
  visit {p v s} hv hs := by
    cases v <;> first | exact hv.elim | exact ⟨hs, rfl, rfl⟩
  skip {p v s} hv _ := by
    cases v <;> first | exact hv.elim | exact ⟨rfl, rfl⟩
  enterCall hs := hs
  call {p c receiver args xs s t} _ _ hrel ht hreceiver _ := by
    have hcall : (editor table).call { c with receiver, args } t =
      bindCall table { c with receiver, args } t := rfl
    have hcounts : Counts table (⟨p, c⟩ :: xs.filterMap Place.site?) s
      (bindCall table { c with receiver, args } t).2 := hrel.call ht (hreceiver [])
    rw [hcall]
    refine ⟨fun _ => ?_, ?_, hcounts⟩
    · rw [bindCall_eq ht]
      rfl
    · rw [bindCall_eq ht]
      exact ht
  enterType {p d site s} _ hs := by
    have hname : enclosingName table s d.name site =
        enclosingName table { enclosing := enclosingAt table p } d.name site := by
      cases site with
      | topLevel => rfl
      | inType => rw [enclosingName, enclosingName, hs]
      | inBlock => rfl
    rw [enclosingAt, ← hname, ← hs]
    rfl
  leaveType {p d d' site s t} _ _ hrel ht _ := by
    have hcounts : Counts table (sites (.type d site :: p) d.innerVisits) s t :=
      ⟨hrel.resolved, hrel.unresolved⟩
    rw [← TypeDecl.sites_visits] at hcounts
    exact ⟨fun _ => rfl, congrArg List.tail ht, hcounts.resolved, hcounts.unresolved⟩
  enterAnonymous hs := congrArg (none :: ·) hs
  leaveAnonymous {p head ms ms' s t} _ hrel ht _ := by
    have hcounts : Counts table (sites (.anonymous head ms :: p) (Member.visitsList ms)) s t :=
      ⟨hrel.resolved, hrel.unresolved⟩
    rw [← sites_anonymous, sites, locate_anonymous] at hcounts
    exact ⟨congrArg List.tail ht, hcounts.resolved, hcounts.unresolved⟩

def walk (table : NameTable) (types : List TypeDecl) : List TypeDecl × State :=
  (editor table).types types {}

theorem run_eq (u : CompilationUnit) : run u =
    { unit := { u with types := (walk (.ofUnit u) u.types).1 }
      resolved := (walk (.ofUnit u) u.types).2.resolved
      unresolved := (walk (.ofUnit u) u.types).2.unresolved } := rfl

theorem walk_binding (table : NameTable) (types : List TypeDecl) :
    TypesBecome (binding table) types (walk table types).1 ∧
      Counts table (typesSites types) {} (walk table types).2 := by
  obtain ⟨htypes, _, hcounts⟩ :=
    (editor_obeys_binding table).types types (fun _ _ => trivial) {} rfl
  exact ⟨htypes, hcounts⟩

theorem resolved_walk (table : NameTable) (types : List TypeDecl) :
    (walk table types).2.resolved = (typesSites types).countP (binds table) := by
  rw [(walk_binding table types).2.resolved, Nat.zero_add]

theorem unresolved_walk (table : NameTable) (types : List TypeDecl) :
    (walk table types).2.unresolved = (typesSites types).countP (misses table) := by
  rw [(walk_binding table types).2.unresolved, Nat.zero_add]

/-- The call has its method, or there is none that attribution could give it. -/
def Settled (table : NameTable) (x : Site) : Prop :=
  x.call.method = none → owner? table x = none

theorem bindAt_of_settled {x : Site} (h : Settled table x) : bindAt table x = x.call := by
  cases hmethod : x.call.method with
  | some method => simp only [bindAt, hmethod]
  | none => simp only [bindAt, hmethod, h hmethod]

theorem method_bindAt (table : NameTable) (x : Site) :
    (bindAt table x).method.isNone = misses table x := by
  cases hmethod : x.call.method with
  | some method => simp [bindAt, misses, hmethod]
  | none => cases howner : owner? table x <;> simp [bindAt, misses, hmethod, howner]

theorem bindAt_attributed (table : NameTable) (x : Site) : x.call.Attributed (bindAt table x) := by
  by_cases hsettled : Settled table x
  · rw [bindAt_of_settled hsettled]
    exact .kept _
  · obtain ⟨hmethod, howner⟩ := Classical.not_imp.mp hsettled
    obtain ⟨fqn, hfqn⟩ := Option.ne_none_iff_exists'.mp howner
    have hnew : bindAt table x =
        { x.call with
          receiver := x.call.receiver.map fun e => (table.receiver e).1
          method := some { owner := .ofName fqn, name := x.call.name } } := by
      simp only [bindAt, hmethod, hfqn]
    have hretyped : Option.Rel Expr.Retyped x.call.receiver
        (x.call.receiver.map fun e => (table.receiver e).1) := by
      cases x.call.receiver with
      | none => exact .none
      | some e => exact .some (table.receiver_retyped e)
    rw [hnew]
    exact .bound hmethod rfl hretyped

structure KeepsCall (c c' : Call) : Prop where
  id : c'.id = c.id
  name : c'.name = c.name
  arity : c'.arity = c.arity
  method : c'.method = c.method ∨ c.method = none ∧
    ∃ owner, owner.isReference = true ∧ c'.method = some { owner, name := c.name }

theorem attributed_keepsCall {receiver : Option Expr} {args : List Expr} {new : Call}
    (hargs : args.length = c.args.length) (h : Call.Attributed { c with receiver, args } new) :
    KeepsCall c new := by
  cases h with
  | kept => exact ⟨rfl, rfl, hargs, .inl rfl⟩
  | bound hunbound howner _ => exact ⟨rfl, rfl, hargs, .inr ⟨hunbound, _, howner, rfl⟩⟩

structure Settles (table : NameTable) (x y : Site) : Prop where
  call : KeepsCall x.call y.call
  method : y.call.method.isNone = misses table x
  settled : Settled table y

theorem settles_bindAt {r : Rewriting} {receiver : Option Expr} {args : List Expr}
    (hpath : enclosingAt table q = enclosingAt table p)
    (hreceiver : Expr.BecomesOption r p q c.receiver receiver)
    (hargs : args.length = c.args.length) :
    Settles table ⟨p, c⟩ ⟨q, bindAt table ⟨p, { c with receiver, args }⟩⟩ := by
  have hsame : owner? table ⟨p, { c with receiver, args }⟩ = owner? table ⟨p, c⟩ :=
    owner?_congr rfl hreceiver
  have hmethod : (bindAt table ⟨p, { c with receiver, args }⟩).method.isNone =
      misses table ⟨p, c⟩ := by
    rw [method_bindAt, misses, misses, hsame]
  have hnew := bindAt_attributed table ⟨p, { c with receiver, args }⟩
  refine ⟨attributed_keepsCall hargs hnew, hmethod, fun hnone => ?_⟩
  have hnone : (bindAt table ⟨p, { c with receiver, args }⟩).method = none := hnone
  have howner : owner? table ⟨p, c⟩ = none := by
    rw [hnone] at hmethod
    simp only [Option.isNone_none, misses, Bool.true_eq, Bool.and_eq_true,
      Option.isNone_iff_eq_none] at hmethod
    exact hmethod.2
  -- A call that is left without a method is left alone, and `q` is as good a place as `p`.
  rw [bindAt_of_settled fun _ => hsame.trans howner, owner?_congr hpath hreceiver]
  exact howner

theorem binding_relates (table : NameTable) :
    (binding table).Relates (fun p q => enclosingAt table q = enclosingAt table p)
      (List.Forall₂ (Settles table)) where
  nil := .nil
  append hx hy := List.rel_append hx hy
  enterType {p q site d d' new} hpq alike htype := by
    obtain rfl : new = d' := htype
    rw [enclosingAt, enclosingAt, hpq, alike.name]
  enterAnonymous hpq _ := by rw [enclosingAt, enclosingAt, hpq]
  call {p q c receiver args new} hpq hreceiver hargs hr ha hnew := by
    obtain rfl : new = bindAt table ⟨p, { c with receiver, args }⟩ := hnew
    have hnew := bindAt_attributed table ⟨p, { c with receiver, args }⟩
    rw [hnew.receiver.sites, hnew.args]
    exact .cons (settles_bindAt hpq hreceiver hargs.length_eq) (List.rel_append hr ha)
  type _ _ htype hinner := by
    obtain rfl := htype
    exact hinner

theorem binding_refines_attributed (table : NameTable) :
    (binding table).Refines (callsOnly Call.Attributed) fun _ _ _ => True where
  enterType _ _ _ _ _ := trivial
  enterAnonymous _ _ := trivial
  call {p q c receiver args new} _ _ _ hnew := by
    obtain rfl : new = bindAt table ⟨p, { c with receiver, args }⟩ := hnew
    exact bindAt_attributed table ⟨p, { c with receiver, args }⟩
  type _ _ htype := htype

theorem binding_refines_unchanged (table : NameTable) :
    (binding table).Refines unchanged fun _ _ x => ∀ y, x.site? = some y → Settled table y where
  enterType {p q site d d' new} hok _ _ x hx := by
    refine hok x ?_
    rw [TypeDecl.locate_visits]
    exact List.mem_cons_of_mem _ (List.mem_append_left _ hx)
  enterAnonymous hok _ := hok
  call {p q c receiver args new} hok hreceiver _ hnew := by
    obtain rfl : new = bindAt table ⟨p, { c with receiver, args }⟩ := hnew
    have hsettled : Settled table ⟨p, c⟩ := hok ⟨p, c⟩ rfl
    refine bindAt_of_settled fun hmethod => ?_
    exact (owner?_congr rfl hreceiver).trans (hsettled hmethod)
  type _ _ htype := htype

theorem binds_eq_false {x : Site} (h : Settled table x) : binds table x = false := by
  cases hmethod : x.call.method with
  | some method => simp [binds, hmethod]
  | none => simp [binds, h hmethod]

theorem misses_eq {x : Site} (h : Settled table x) : misses table x = x.call.method.isNone := by
  cases hmethod : x.call.method with
  | some method => simp [misses, hmethod]
  | none => simp [misses, hmethod, h hmethod]

theorem walk_of_settled {types : List TypeDecl} (h : ∀ x ∈ typesSites types, Settled table x) :
    (walk table types).1 = types ∧ (walk table types).2.resolved = 0 ∧
      (walk table types).2.unresolved = (typesSites types).countP (·.call.method.isNone) := by
  have hok : ∀ x ∈ typesPlaces types, ∀ y, x.site? = some y → Settled table y :=
    fun x hx y hy => h y (List.mem_filterMap.mpr ⟨x, hx, hy⟩)
  have hunchanged := (walk_binding table types).1.refine (binding_refines_unchanged table) hok
  refine ⟨hunchanged.eq_old, ?_, ?_⟩
  · rw [resolved_walk, List.countP_eq_zero]
    intro x hx
    rw [binds_eq_false (h x hx)]
    exact Bool.false_ne_true
  · rw [unresolved_walk]
    exact List.countP_congr fun x hx => by rw [misses_eq (h x hx)]

def unbound (u : CompilationUnit) : Nat :=
  (callsOf (typesVisits u.types)).countP (·.method.isNone)

theorem unbound_eq (u : CompilationUnit) :
    unbound u = (typesSites u.types).countP (·.call.method.isNone) := by
  rw [unbound, ← map_call_typesSites, List.countP_map]
  rfl

theorem binds_or_misses (xs : List Site) : xs.countP (binds table) + xs.countP (misses table) =
    xs.countP (·.call.method.isNone) := by
  rw [List.countP_eq_countP_filter_add xs (·.call.method.isNone) fun x => (owner? table x).isSome,
    List.countP_filter, List.countP_filter]
  simp only [Option.not_isSome]
  rfl

/-- All that attribution does to a unit, and what a second run does. -/
structure Outcome (u : CompilationUnit) (out : Attribution) : Prop where
  unit : out.unit = { u with types := out.unit.types }
  types : TypesBecome (callsOnly Call.Attributed) u.types out.unit.types
  calls : List.Forall₂ KeepsCall (callsOf (typesVisits u.types))
    (callsOf (typesVisits out.unit.types))
  text : out.unit.text = u.text
  ids : out.unit.ids = u.ids
  accounted : out.resolved + out.unresolved = unbound u
  left : out.unresolved = unbound out.unit
  again : run out.unit = { unit := out.unit, resolved := 0, unresolved := out.unresolved }

/-- A run settles every call: it changes nothing that is printed, counts each call that had no
method, and leaves nothing to do for another run. -/
theorem run_settles (u : CompilationUnit) : Outcome u (run u) := by
  have hbinding := (walk_binding (.ofUnit u) u.types).1
  have htypes : TypesBecome (callsOnly Call.Attributed) u.types (run u).unit.types :=
    hbinding.refine (binding_refines_attributed _) fun _ _ => trivial
  have hsettles : List.Forall₂ (Settles (.ofUnit u)) (typesSites u.types)
      (typesSites (run u).unit.types) := hbinding.rel_sites (binding_relates _) rfl
  have hleft : (run u).unresolved = unbound (run u).unit := by
    rw [unbound_eq, countP_eq_of_forall₂ hsettles fun _ _ _ h => h.method, ← unresolved_walk]
    rfl
  refine ⟨rfl, htypes, ?_, htypes.text_eq attributed_keepsText,
    idsOf_attributed.types [] u.types [] [] _ (typesBecome_iff.mp htypes), ?_, hleft, ?_⟩
  · rw [← map_call_typesSites, ← map_call_typesSites, List.forall₂_map_left_iff,
      List.forall₂_map_right_iff]
    exact hsettles.imp fun _ _ h => h.call
  · rw [unbound_eq, ← binds_or_misses, ← resolved_walk, ← unresolved_walk]
    rfl
  · -- The names that the unit declares are those before, so a second run has the same table.
    have htable : NameTable.ofUnit (run u).unit = .ofUnit u := by
      have hnames := htypes.declaredNames_eq (callsOnly_keepsNames _) u.packageName
      exact congrArg (fun declared => { NameTable.ofUnit u with declared }) hnames
    have hsettled : ∀ y ∈ typesSites (run u).unit.types, Settled (.ofUnit u) y := by
      intro y hy
      obtain ⟨x, _, h⟩ := exists_of_mem_of_forall₂ (List.Forall₂.flip hsettles) hy
      exact h.settled
    obtain ⟨hsame, hresolved, hunresolved⟩ := walk_of_settled hsettled
    rw [← unbound_eq, ← hleft] at hunresolved
    rw [run_eq (run u).unit, htable, hsame, hresolved, hunresolved]

def threeCalls : CompilationUnit where
  imports := [.single "java.util.List"]
  types := [.classDecl { id := 0, name := "Main" }
    [.field { type := { name := "Object" }, name := "x" }
      (some (.call (.unresolved 1 (some (.ofName "List")) "of"
        [.call (.unresolved 2 none "size" []),
          .call (.unresolved 3 (some (.ofName "xs")) "get" [])])))]]
  nextId := 4

/-- A variable is no type, so one of the calls is left. -/
theorem run_settles_threeCalls : unbound threeCalls = 3 ∧ (run threeCalls).resolved = 2 ∧
    unbound (run threeCalls).unit = 1 ∧ (run threeCalls).unit.text = threeCalls.text := by
  have houtcome := run_settles threeCalls
  have hbefore : unbound threeCalls = 3 := by decide
  have hresolved : (run threeCalls).resolved = 2 := by decide +kernel
  have haccounted := houtcome.accounted
  have hleft := houtcome.left
  exact ⟨hbefore, hresolved, by omega, houtcome.text⟩

end Attribution

end FactoryLowering
