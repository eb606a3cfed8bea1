import FactoryLowering.Proofs.Tree.Piece

/-! # Call sites of rewritten trees

A call site is a call with its path. What a rewriting does to single calls and to single types
extends to the call sites of whole trees, in source order, for every relation between lists of sites
that respects appending.
-/
namespace FactoryLowering

structure Site where
  path : Path
  call : Call

def Place.site? (x : Place) : Option Site :=
  match x.visit with
  | .call c => some ⟨x.path, c⟩
  | _ => none

def sites (p : Path) (vs : List Visit) : List Site := (locate p vs).filterMap Place.site?

def typesSites (ds : List TypeDecl) : List Site := sites [] (typesVisits ds)

theorem mem_sites {p : Path} {vs : List Visit} {x : Site} :
    x ∈ sites p vs ↔ ⟨x.path, .call x.call⟩ ∈ locate p vs := by
  obtain ⟨path, c⟩ := x
  rw [sites, List.mem_filterMap]
  constructor
  · rintro ⟨⟨path', v⟩, hmem, hsite⟩
    cases v <;> cases hsite
    exact hmem
  · intro h
    exact ⟨_, h, rfl⟩

def placeCalls (xs : List Place) : List Call := (xs.filterMap Place.site?).map (·.call)

@[simp] theorem placeCalls_append (xs ys : List Place) :
    placeCalls (xs ++ ys) = placeCalls xs ++ placeCalls ys := by
  simp [placeCalls]

theorem placeCalls_locate (p : Path) (vs : List Visit) : placeCalls (locate p vs) = callsOf vs := by
  induction vs generalizing p with
  | nil => rfl
  | cons v vs ih =>
    have hrest := ih (v.pathAfter p)
    cases v with
    | call c => exact congrArg (c :: ·) hrest
    | _ => exact hrest

theorem map_call_typesSites (ds : List TypeDecl) :
    (typesSites ds).map (·.call) = callsOf (typesVisits ds) :=
  placeCalls_locate [] (typesVisits ds)

theorem sites_eq_nil_of_callsOf {vs : List Visit} (h : callsOf vs = []) (p : Path) :
    sites p vs = [] := by
  rw [← placeCalls_locate p] at h
  exact List.map_eq_nil_iff.mp h

@[simp] theorem sites_nil (p : Path) : sites p [] = [] := rfl

@[simp] theorem sites_append {vs : List Visit} (h : Level vs) (p : Path) (ws : List Visit) :
    sites p (vs ++ ws) = sites p vs ++ sites p ws := by
  rw [sites, locate_append h, List.filterMap_append, sites, sites]

@[simp] theorem sites_call (p : Path) (c : Call) (vs : List Visit) :
    sites p (.call c :: vs) = ⟨p, c⟩ :: sites p vs := rfl

@[simp] theorem sites_expr (p : Path) (e : Expr) (vs : List Visit) :
    sites p (.expr e :: vs) = sites p vs := rfl

@[simp] theorem sites_stmt (p : Path) (s : Stmt) (vs : List Visit) :
    sites p (.stmt s :: vs) = sites p vs := rfl

@[simp] theorem sites_block (p : Path) (b : Block) (vs : List Visit) :
    sites p (.block b :: vs) = sites p vs := rfl

@[simp] theorem sites_member (p : Path) (m : Member) (vs : List Visit) :
    sites p (.member m :: vs) = sites p vs := rfl

@[simp] theorem sites_identifier (p : Path) (i : Identifier) (vs : List Visit) :
    sites p (.identifier i :: vs) = sites p vs := rfl

@[simp] theorem sites_typeRef (p : Path) (t : TypeRef) (vs : List Visit) :
    sites p (.typeRef t :: vs) = sites p vs := rfl

theorem callsOf_quiet {vs : List Visit} (h : ∀ v ∈ vs, v.Quiet) : callsOf vs = [] := by
  refine List.filterMap_eq_nil_iff.mpr fun v hv => ?_
  cases v <;> first | rfl | exact (h _ hv).elim False.elim False.elim

theorem Kind.Node.sites_eq {α β : Type} {K : Kind α} {L : Kind β} {build : α → β}
    {own : α → List Visit} {refs : List Visit} (n : K.Node L build own refs) (a : α) (p : Path) :
    sites p (L.visits (build a)) = sites p (K.visits a) := by
  rw [n.visits, sites_append (Level.quiet (n.quiet a)),
    sites_eq_nil_of_callsOf (callsOf_quiet (n.quiet a)), List.nil_append]

@[simp] theorem MethodHead.sites_visits (head : MethodHead) (p : Path) : sites p head.visits = [] :=
  sites_eq_nil_of_callsOf (callsOf_quiet fun v hv => .inr (head.unannounced v hv)) p

theorem Expr.sites_call (p : Path) (c : Call) : sites p (Expr.call c).visits =
    ⟨p, c⟩ :: (sites p (Expr.visitsOption c.receiver) ++ sites p (Expr.visitsList c.args)) := by
  rw [Expr.visits_call, sites_expr, FactoryLowering.sites_call,
    sites_append (Expr.visitsOption_level _)]

@[simp] theorem TypeDecl.sites_visits (p : Path) (site : TypeSite) (d : TypeDecl) :
    sites p (d.visits site) = sites (.type d site :: p) d.innerVisits := by
  rw [sites, TypeDecl.locate_visits, List.filterMap_cons, List.filterMap_append, sites]
  exact List.append_nil _

@[simp] theorem sites_anonymous (p : Path) (head : ClassHead) (ms : List Member) :
    sites p (.enterAnonymous head ms :: (Member.visitsList ms ++ [.leaveAnonymous head ms])) =
      sites (.anonymous head ms :: p) (Member.visitsList ms) := by
  have hlevel := sites_append (Member.visitsList_level ms) (.anonymous head ms :: p)
    [.leaveAnonymous head ms]
  exact hlevel.trans (List.append_nil _)

theorem Stmt.mem_sites_visitsList {p : Path} {ss : List Stmt} {x : Site} :
    x ∈ sites p (Stmt.visitsList ss) ↔ ∃ s ∈ ss, x ∈ sites p s.visits := by
  induction ss with
  | nil => simp [Stmt.visitsList]
  | cons s ss ih => simp [Stmt.visitsList, ih]

theorem Member.mem_sites_visitsList {p : Path} {ms : List Member} {x : Site} :
    x ∈ sites p (Member.visitsList ms) ↔ ∃ m ∈ ms, x ∈ sites p m.visits := by
  induction ms with
  | nil => simp [Member.visitsList]
  | cons m ms ih => simp [Member.visitsList, ih]

/-- A relation between the call sites of a tree before and after a rewriting. `path` relates the old
path of a node and the new one; it is kept when a type or an anonymous class is entered. -/
structure Rewriting.Relates (r : Rewriting) (path : Path → Path → Prop)
    (rel : List Site → List Site → Prop) : Prop where
  nil : rel [] []
  append : ∀ {xs xs' ys ys'}, rel xs xs' → rel ys ys' → rel (xs ++ ys) (xs' ++ ys')
  enterType : ∀ {p q site d d' new}, path p q → d.Alike d' → r.type p q site d d' new →
    path (.type d site :: p) (.type new site :: q)
  enterAnonymous : ∀ {p q head ms ms'}, path p q →
    methodHeads ms' = methodHeads ms →
    path (.anonymous head ms :: p) (.anonymous head ms' :: q)
  call : ∀ {p q c receiver args new}, path p q →
    Expr.BecomesOption r p q c.receiver receiver → Expr.BecomesList r p q c.args args →
    rel (sites p (Expr.visitsOption c.receiver)) (sites q (Expr.visitsOption receiver)) →
    rel (sites p (Expr.visitsList c.args)) (sites q (Expr.visitsList args)) →
    r.call p q c { c with receiver, args } new →
    rel (⟨p, c⟩ :: (sites p (Expr.visitsOption c.receiver) ++ sites p (Expr.visitsList c.args)))
      (⟨q, new⟩ :: (sites q (Expr.visitsOption new.receiver) ++ sites q (Expr.visitsList new.args)))
  type : ∀ {p q site d d' new}, path p q → d.Alike d' → r.type p q site d d' new →
    rel (sites (.type d site :: p) d.innerVisits) (sites (.type new site :: q) d'.innerVisits) →
    rel (sites (.type d site :: p) d.innerVisits) (sites (.type new site :: q) new.innerVisits)

variable {r : Rewriting} {path : Path → Path → Prop} {rel : List Site → List Site → Prop}

theorem Rewriting.Relates.hereditary (h : r.Relates path rel) : Hereditary fun K p a => ∀ q a',
    path p q → K.becomes r p q a a' → rel (sites p (K.visits a)) (sites q (K.visits a')) where
  unit _ _ _ _ := h.nil
  pair {_ _ K L p a b} level ha hb q new hpq hboth := by
    have hleft := sites_append (level a) p (L.visits b)
    have hright := sites_append (level new.1) q (L.visits new.2)
    have hall := h.append (ha q _ hpq hboth.1) (hb q _ hpq hboth.2)
    rwa [← hleft, ← hright] at hall
  node build own refs p a n ha q _ hpq hb := by
    obtain ⟨a', ha', rfl⟩ := n.becomes.mp hb
    rw [n.sites_eq, n.sites_eq]
    exact ha q a' hpq ha'
  call {p} c hr ha q _ hpq hb := by
    obtain ⟨receiver, args, call, hreceiver, hargs, hcall, rfl⟩ := Expr.becomes_call.mp hb
    have hsites := hr q receiver hpq hreceiver
    have hsites' := ha q args hpq hargs
    have hall := h.call hpq hreceiver hargs hsites hsites' hcall
    rw [← Expr.sites_call, ← Expr.sites_call] at hall
    exact hall
  anonymous {p head ms} hms q ms' hpq hb := by
    have hb : Member.BecomesList r (.anonymous head ms :: p) (.anonymous head ms' :: q) ms ms' := hb
    have hall := hms _ ms' (h.enterAnonymous hpq hb.methodHeads_eq) hb
    have hleft := sites_anonymous p head ms
    have hright := sites_anonymous q head ms'
    exact hleft.symm ▸ hright.symm ▸ hall
  type {p site d} hd q new hpq hb := by
    obtain ⟨d', hd', htype⟩ := TypeDecl.becomes_iff.mp hb
    have hinner := hd _ d' (h.enterType hpq hd'.alike htype) hd'
    have hall := h.type hpq hd'.alike htype hinner
    rw [← TypeDecl.sites_visits, ← TypeDecl.sites_visits] at hall
    exact hall

theorem TypesBecome.rel_sites (h : r.Relates path rel) (start : path [] []) {ds ds' : List TypeDecl}
    (hds : TypesBecome r ds ds') : rel (typesSites ds) (typesSites ds') :=
  h.hereditary.types [] ds [] ds' start (typesBecome_iff.mp hds)

end FactoryLowering
