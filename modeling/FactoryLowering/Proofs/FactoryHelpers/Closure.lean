import FactoryLowering.Proofs.FactoryHelpers.Walk
import FactoryLowering.Proofs.ImportEdits
import Mathlib.Algebra.GroupWithZero.Nat

/-! # Each host gets what its calls ask for

A type that differs in identity from the types around it gets one helper for each arity that
factory calls inside it ask of it and that none of its own methods serves, in ascending order and
nothing else. The walk finds this out with a table of identities and arities; the statement speaks
of the calls of the tree and of their hosts only.
-/
namespace FactoryLowering

def Place.isApart (x : Place) : Bool :=
  match x.visit with
  | .enterType d _ => x.path.all fun
    | .type outer _ => outer.id != d.id
    | .anonymous _ _ => true
  | _ => true

/-- No type has the identity of a type around it. -/
def CompilationUnit.NestedTypesDiffer (u : CompilationUnit) : Prop :=
  ∀ x ∈ typesPlaces u.types, x.isApart = true

instance (u : CompilationUnit) : Decidable u.NestedTypesDiffer :=
  inferInstanceAs (Decidable (∀ x ∈ typesPlaces u.types, x.isApart = true))

namespace FactoryHelpers

def askedArity? (f : Family) : Visit → Option Nat
  | .call c => if f.pattern.isMatch c && f.accepts c.arity then some c.arity else none
  | _ => none

/-- The arities that calls inside a type ask of it, each as often as it is asked for. The calls are
those whose host is the type itself. -/
def demand (f : Family) (package : String) (outer : Path) (site : TypeSite) (d : TypeDecl) :
    List Nat :=
  ((locate (.type d site :: outer) d.innerVisits).filter
    fun x => hostDepth package x.path == outer.length + 1).filterMap fun x => askedArity? f x.visit

/-- How many different arities are asked of a type, at the place where it is entered. -/
def demandCount (f : Family) (package : String) (x : Place) : Nat :=
  match x.visit with
  | .enterType d site => (ascending (demand f package x.path site d)).length
  | _ => 0

/-- Calls are lowered where they stand. A type keeps its members and gets helpers after them, for
exactly the arities that are asked of it and that it does not serve already. -/
def closure (f : Family) (u : CompilationUnit) : Rewriting where
  call p _ _ c new := new = lowerAt f u.packageName p c
  type p _ site old d new := ∃ arities ms, new = d.addMembers (ms.map .method) ∧
    List.Forall₂ (f.IsHelper (f.shadowed u)) arities ms ∧ arities.Pairwise (· < ·) ∧
    (∀ a, a ∈ arities ↔ a ∈ demand f u.packageName p site old ∧ f.compatible? old a = none) ∧
    ∀ a ∈ demand f u.packageName p site old, (f.compatible? new a).isSome

variable {f : Family} {spelledOut : List String} {package : String} {p : Path} {s t : State}

def AskedOf (f : Family) (package : String) (p : Path) (xs : List Place) (use : NodeId × Nat) :
    Prop :=
  (∃ name, hostAt package p = some (use.1, name)) ∧
    ∃ x ∈ xs, askedArity? f x.visit = some use.2 ∧ hostDepth package x.path = hostDepth package p

/-- What passing some places does to the table and to the numbers of helpers: requests to hosts
outside are added, those to hosts inside are served. -/
structure Serves (f : Family) (package : String) (p : Path) (xs : List Place) (s t : State) :
    Prop where
  uses : ∀ use, use ∈ t.needed.uses ↔ use ∈ s.needed.uses ∨ AskedOf f package p xs use
  served : t.stats.helpersAdded + t.stats.helpersReused =
    s.stats.helpersAdded + s.stats.helpersReused + (xs.map (demandCount f package)).sum

theorem mem_demand {outer : Path} {site : TypeSite} {d : TypeDecl} {a : Nat} :
    a ∈ demand f package outer site d ↔
      ∃ x ∈ locate (.type d site :: outer) d.innerVisits,
        askedArity? f x.visit = some a ∧ hostDepth package x.path = outer.length + 1 := by
  simp only [demand, List.mem_filterMap, List.mem_filter, beq_iff_eq]
  constructor
  · rintro ⟨x, ⟨hx, hd⟩, ha⟩
    exact ⟨x, hx, ha, hd⟩
  · rintro ⟨x, hx, ha, hd⟩
    exact ⟨x, ⟨hx, hd⟩, ha⟩

/-- Identities of open hosts differ from that of a type that stands apart. -/
theorem not_mem_hostIds_of_isApart {d : TypeDecl} {site : TypeSite}
    (apart : (Place.mk p (.enterType d site)).isApart = true) : d.id ∉ hostIds package p := by
  intro hid
  obtain ⟨outer, outerSite, hmem, heq⟩ := exists_type_of_mem_hostIds hid
  simp only [Place.isApart, List.all_eq_true] at apart
  have := apart _ hmem
  simp [heq] at this

/-- The arities recorded for a type when it is left are those asked of it. A host finds its own
requests; any other type finds none, because the hosts around it have other identities. -/
theorem mem_uses_iff_mem_demand {d : TypeDecl} {site : TypeSite} {a : Nat}
    (fresh : d.id ∉ hostIds package p) (hs : Open f package p s)
    (h : Serves f package (.type d site :: p) (locate (.type d site :: p) d.innerVisits)
      { s with scopes := s.scopes.enter d site } t) :
    (d.id, a) ∈ t.needed.uses ↔ a ∈ demand f package p site d := by
  have old : (d.id, a) ∉ s.needed.uses := fun hu => fresh (hs.hosts _ hu)
  rw [h.uses, mem_demand]
  cases here : hostsHere package (.type d site :: p) with
  | true =>
    have hdepth := hostDepth_cons_of_hostsHere here
    constructor
    · rintro (hu | ⟨_, x, hx, ha, hd⟩)
      · exact absurd hu old
      · exact ⟨x, hx, ha, hd.trans hdepth⟩
    · rintro ⟨x, hx, ha, hd⟩
      exact .inr ⟨exists_name_of_hostsHere here, x, hx, ha, hd.trans hdepth.symm⟩
  | false =>
    constructor
    · rintro (hu | ⟨⟨name, hname⟩, _⟩)
      · exact absurd hu old
      · rw [hostAt_of_not_hostsHere here] at hname
        exact absurd (mem_hostIds_of_hostAt hname) fresh
    · rintro ⟨x, hx, _, hd⟩
      have hwithin := (TypeDecl.innerVisits_level d).within _ x hx
      exact absurd hd (hostDepth_ne_of_not_hostsHere here hwithin)

/-- Requests that come out of an enclosure: all of them if it is no host, and none if it is one. -/
theorem askedOf_enclosed {e : Enclosure} {v w : Visit} {xs : List Place} {use : NodeId × Nat}
    (hv : askedArity? f v = none) (hw : askedArity? f w = none)
    (within : ∀ x ∈ xs, e :: p <:+ x.path) :
    AskedOf f package p (⟨p, v⟩ :: (xs ++ [⟨e :: p, w⟩])) use ↔
      hostsHere package (e :: p) = false ∧ AskedOf f package (e :: p) xs use := by
  cases here : hostsHere package (e :: p) with
  | true =>
    simp only [Bool.true_eq_false, false_and, iff_false]
    rintro ⟨_, x, hx, ha, hd⟩
    simp only [List.mem_cons, List.mem_append, List.not_mem_nil, or_false] at hx
    rcases hx with rfl | hx | rfl
    · rw [hv] at ha
      cases ha
    · have hdeep : hostDepth package (e :: p) ≤ hostDepth package x.path :=
        hostDepth_mono (within x hx)
      have hhere := hostDepth_cons_of_hostsHere here
      have hout := hostDepth_le package p
      omega
    · rw [hw] at ha
      cases ha
  | false =>
    simp only [true_and, AskedOf, hostAt_of_not_hostsHere here,
      hostDepth_cons_of_not_hostsHere here]
    refine and_congr_right fun _ => ⟨?_, ?_⟩
    · rintro ⟨x, hx, ha, hd⟩
      simp only [List.mem_cons, List.mem_append, List.not_mem_nil, or_false] at hx
      rcases hx with rfl | hx | rfl
      · rw [hv] at ha
        cases ha
      · exact ⟨x, hx, ha, hd⟩
      · rw [hw] at ha
        cases ha
    · rintro ⟨x, hx, ha, hd⟩
      exact ⟨x, List.mem_cons_of_mem _ (List.mem_append_left _ hx), ha, hd⟩

namespace Serves

theorem refl (s : State) : Serves f package p [] s s :=
  ⟨fun _ => ⟨.inl, fun h => h.elim id fun ⟨_, _, hx, _⟩ => (nomatch hx)⟩, rfl⟩

theorem trans {xs ys : List Place} {u : State} (h : Serves f package p xs s t)
    (k : Serves f package p ys t u) : Serves f package p (xs ++ ys) s u := by
  constructor
  · intro use
    rw [k.uses, h.uses, or_assoc]
    refine or_congr_right ?_
    simp only [AskedOf, List.mem_append, ← and_or_left]
    refine and_congr_right fun _ => ⟨?_, ?_⟩
    · rintro (⟨x, hx, hu⟩ | ⟨x, hx, hu⟩)
      · exact ⟨x, .inl hx, hu⟩
      · exact ⟨x, .inr hx, hu⟩
    · rintro ⟨x, hx | hx, hu⟩
      · exact .inl ⟨x, hx, hu⟩
      · exact .inr ⟨x, hx, hu⟩
  · rw [k.served, h.served, List.map_append, List.sum_append, Nat.add_assoc]

theorem skip {x : Place} (ha : askedArity? f x.visit = none)
    (hd : demandCount f package x = 0) (s : State) : Serves f package p [x] s s := by
  constructor
  · intro use
    refine ⟨.inl, fun h => h.elim id ?_⟩
    rintro ⟨_, y, hy, hy', _⟩
    obtain rfl := List.mem_singleton.mp hy
    rw [ha] at hy'
    cases hy'
  · simp [hd]

theorem rotate {x : Place} {xs : List Place} (h : Serves f package p (xs ++ [x]) s t) :
    Serves f package p (x :: xs) s t := by
  have hmem (y : Place) : y ∈ x :: xs ↔ y ∈ xs ++ [x] := by simp [or_comm]
  constructor
  · intro use
    simp only [h.uses, AskedOf, hmem]
  · rw [h.served]
    simp [Nat.add_comm]

theorem call {c c' : Call} (hs : Open f package p s) (same : askedArity? f (.call c') =
    askedArity? f (.call c)) :
    Serves f package p [⟨p, .call c⟩] s ((editor f spelledOut).call c' s).2 := by
  have asks (use : NodeId × Nat) : AskedOf f package p [⟨p, .call c⟩] use ↔
      (∃ name, hostAt package p = some (use.1, name)) ∧
        askedArity? f (.call c') = some use.2 := by
    simp [AskedOf, same]
  rcases call_cases hs.scopes c' with
    ⟨hl, host, name, hat, heq⟩ | ⟨hl, hm, warnings, heq⟩ | ⟨_, hm, heq⟩ <;> rw [heq]
  · simp only [lowers, Bool.and_eq_true] at hl
    refine ⟨fun use => ?_, rfl⟩
    simp only [ArityTable.record, List.mem_cons, asks, askedArity?, hl.1, Bool.and_self, if_true,
      hat]
    obtain ⟨id, a⟩ := use
    simp [or_comm, eq_comm]
  · refine ⟨fun use => ?_, rfl⟩
    rw [asks]
    refine (or_iff_left ?_).symm
    rintro ⟨⟨name, hat⟩, ha⟩
    have depth : hostDepth package p ≠ 0 := by
      rw [Ne, ← hostAt_eq_none_iff, hat]
      simp
    simp only [askedArity?] at ha
    split at ha
    · next hc =>
      simp only [lowers, hc, Bool.true_and, bne_eq_false_iff_eq] at hl
      exact depth hl
    · cases ha
  · exact .skip (by rw [← same, askedArity?, hm]; rfl) rfl s

/-- Leaving a type serves what is asked of it and nothing else. -/
theorem leaveType {d d' : TypeDecl} {site : TypeSite} (fresh : d.id ∉ hostIds package p)
    (hs : Open f package p s) (ht : Open f package (.type d site :: p) t)
    (h : Serves f package (.type d site :: p) (locate (.type d site :: p) d.innerVisits)
      { s with scopes := s.scopes.enter d site } t) :
    Serves f package p (locate p (d.visits site)) s
      ((editor f spelledOut).leaveType d' t).2 := by
  have hp := ht.provides spelledOut d'
  rw [TypeDecl.locate_visits]
  constructor
  · intro use
    rw [hp.needed, askedOf_enclosed rfl rfl ((TypeDecl.innerVisits_level d).within _)]
    simp only [ArityTable.take, List.mem_filter, bne_iff_ne, h.uses]
    constructor
    · rintro ⟨hu | hu, hne⟩
      · exact .inl hu
      · refine .inr ⟨?_, hu⟩
        cases here : hostsHere package (.type d site :: p) with
        | false => rfl
        | true =>
          obtain ⟨fqn, hfqn⟩ := exists_name_of_hostsHere here
          obtain ⟨⟨name, hname⟩, _⟩ := hu
          simp only [hfqn, Option.some.injEq, Prod.mk.injEq] at hname
          exact absurd hname.1.symm hne
    · rintro (hu | ⟨here, hu⟩)
      · exact ⟨.inl hu, fun heq => fresh (heq ▸ hs.hosts use hu)⟩
      · refine ⟨.inr hu, fun heq => ?_⟩
        obtain ⟨⟨name, hname⟩, _⟩ := hu
        rw [hostAt_of_not_hostsHere here] at hname
        exact fresh (heq ▸ mem_hostIds_of_hostAt hname)
  · have count : (t.needed.arities d.id).length = demandCount f package ⟨p, .enterType d site⟩ := by
      rw [ArityTable.arities, demandCount]
      refine congrArg List.length (ascending_congr fun a => ?_)
      rw [← mem_uses_iff_mem_demand fresh hs h]
      simp
    have hsum := h.served
    rw [hp.served, count]
    simp only [List.map_cons, List.map_append, List.map_nil, List.sum_cons, List.sum_append,
      List.sum_nil, demandCount] at hsum ⊢
    omega

/-- An anonymous class hosts nothing, so requests inside it go to the host around it. -/
theorem leaveAnonymous {head : ClassHead} {ms : List Member}
    (ht : Open f package (.anonymous head ms :: p) t)
    (h : Serves f package (.anonymous head ms :: p)
      (locate (.anonymous head ms :: p) (Member.visitsList ms))
      { s with scopes := s.scopes.enterAnonymous head } t) :
    Serves f package p (⟨p, .enterAnonymous head ms⟩ ::
      (locate (.anonymous head ms :: p) (Member.visitsList ms) ++
        [⟨.anonymous head ms :: p, .leaveAnonymous head ms⟩])) s
      (FactoryHelpers.leaveAnonymous t).2 := by
  rw [leaveAnonymous_eq ht.scopes]
  constructor
  · intro use
    rw [askedOf_enclosed rfl rfl ((Member.visitsList_level ms).within _)]
    simp only [hostsHere_anonymous, true_and]
    exact h.uses use
  · have hsum := h.served
    simp only [List.map_cons, List.map_append, List.map_nil, List.sum_cons, List.sum_append,
      List.sum_nil, demandCount] at hsum ⊢
    omega

end Serves

theorem askedArity?_congr {c : Call} {receiver : Option Expr} {args : List Expr}
    (h : args.length = c.args.length) :
    askedArity? f (.call { c with receiver, args }) = askedArity? f (.call c) := by
  have harity : Call.arity { c with receiver, args } = c.arity := h
  have hmatch : f.pattern.isMatch { c with receiver, args } = f.pattern.isMatch c := rfl
  rw [askedArity?, harity, hmatch, askedArity?]

theorem closure_type {u : CompilationUnit} {q : Path} {d d' : TypeDecl} {site : TypeSite}
    (ht : Open f u.packageName (.type d site :: p) t) (alike : d.Alike d')
    (asked : ∀ a, (d.id, a) ∈ t.needed.uses ↔ a ∈ demand f u.packageName p site d) :
    (closure f u).type p q site d d' ((editor f (f.shadowed u)).leaveType d' t).1 := by
  have hsame (a : Nat) : f.compatible? d' a = none ↔ f.compatible? d a = none := by
    rw [Family.compatible?_eq_none_iff, Family.compatible?_eq_none_iff, alike.heads]
  obtain ⟨ms, hnew, hms⟩ := (ht.provides (f.shadowed u) d').helpers
  have hadded (a : Nat) :
      a ∈ (t.needed.arities d.id).filter (fun a => (f.compatible? d' a).isNone) ↔
      a ∈ demand f u.packageName p site d ∧ f.compatible? d a = none := by
    rw [List.mem_filter, ArityTable.mem_arities, asked, Option.isNone_iff_eq_none, hsame]
  refine ⟨_, ms, hnew, hms, (pairwise_lt_ascending _).filter _, hadded, fun a ha => ?_⟩
  rw [hnew, Family.compatible?_isSome, TypeDecl.members_addMembers, methodHeads_append,
    List.any_append, methodHeads_map_method, Bool.or_eq_true]
  by_cases hc : f.compatible? d a = none
  · -- the type did not serve the arity, so it has got a helper for it
    obtain ⟨m, hm, hhelper⟩ := exists_of_mem_of_forall₂ hms ((hadded a).mpr ⟨ha, hc⟩)
    right
    exact List.any_eq_true.mpr ⟨m.head, List.mem_map_of_mem hm, hhelper.servesHead_iff.mpr rfl⟩
  · left
    rw [alike.heads, ← Family.compatible?_isSome]
    exact Option.isSome_iff_ne_none.mpr hc

theorem editor_obeys_closure (f : Family) (u : CompilationUnit) :
    (editor f (f.shadowed u)).Obeys (closure f u) (·.isApart = true) (Open f u.packageName)
      (Serves f u.packageName) where
  refl _ := .refl _
  trans h k := h.trans k
  visit {p v s} hv hs := by
    cases v <;> first | exact hv.elim | exact ⟨hs, .skip rfl rfl s⟩
  skip {p v s} hv _ := by
    cases v <;> first | exact hv.elim | exact .skip rfl rfl s
  enterCall hs := hs
  call {p c receiver args xs s t} _ _ hrel ht _ hargs := by
    have same : askedArity? f (.call { c with receiver, args }) = askedArity? f (.call c) :=
      askedArity?_congr (hargs []).length_eq
    exact ⟨fun _ => call_eq_lowerAt ht.scopes _, ht.call _, (hrel.trans (.call ht same)).rotate⟩
  enterType _ hs := hs.enterType
  leaveType {p d d' site s t} hok hs hrel ht alike := by
    have fresh : d.id ∉ hostIds u.packageName p := not_mem_hostIds_of_isApart hok
    exact ⟨fun q => closure_type ht alike fun _ => mem_uses_iff_mem_demand fresh hs hrel,
      ht.leaveType d', .leaveType fresh hs ht hrel⟩
  enterAnonymous hs := hs.enterAnonymous
  leaveAnonymous hs hrel ht _ := ⟨ht.leaveAnonymous, .leaveAnonymous ht hrel⟩

theorem walk_closure (f : Family) (u : CompilationUnit) (h : u.NestedTypesDiffer) :
    TypesBecome (closure f u) u.types (walk f u).1 ∧
      (walk f u).2.stats.helpersAdded + (walk f u).2.stats.helpersReused =
        ((typesPlaces u.types).map (demandCount f u.packageName)).sum := by
  obtain ⟨htypes, _, hserves⟩ := (editor_obeys_closure f u).types u.types h _ (open_start f u)
  have hcount := hserves.served
  simp only [Nat.zero_add] at hcount
  exact ⟨htypes, hcount⟩

/-- The pass succeeds, its types are those of the closure, and it serves each different pair of a
host and an arity asked of it once. -/
theorem run_closes_hosts (f : Family) (u : CompilationUnit) (log : ChangeLog)
    (h : u.NestedTypesDiffer) :
    ∃ stats, (FactoryHelpers.run f u log).result = .ok stats ∧
      TypesBecome (closure f u) u.types (FactoryHelpers.run f u log).unit.types ∧
      stats.helpersAdded + stats.helpersReused =
        ((typesPlaces u.types).map (demandCount f u.packageName)).sum := by
  obtain ⟨htypes, hcount⟩ := walk_closure f u h
  rw [run_eq]
  refine ⟨_, rfl, ?_, hcount⟩
  rw [ImportEdits.apply_types]
  exact htypes

def listOf (id : NodeId) (args : List Expr) : Call where
  id := id
  receiver := some (.ofName "List")
  name := "of"
  args := args
  method := some { owner := .reference "java.util.List" [], name := "of" }
  span := {}

/-- A class that hosts calls of an inner and of an anonymous class, and around a host of its own. -/
def nestedHosts : CompilationUnit where
  types := [.classDecl { id := 0, name := "Outer" }
    [.typeDecl (.classDecl { id := 1, name := "Inner" }
      [.field { type := { name := "Object" }, name := "x" } (some (.call (listOf 10 [.ofInt 1])))]),
    .typeDecl (.interfaceDecl { id := 2, name := "Shape" }
      [.typeDecl (.classDecl { id := 3, name := "Leaf" }
        [.field { type := { name := "Object" }, name := "y" }
          (some (.call (listOf 11 [.call (listOf 12 [])])))])]),
    .initializer false (.ofStmts [.ofExpr (.newAnonymous { name := "Object" } []
      { id := 4, name := "" } [.field { type := { name := "Object" }, name := "z" }
        (some (.call (listOf 13 [.ofInt 2])))] {})]) {}]]
  nextId := 14

/-- Both classes are asked for helpers: one for one argument, the other for one and for none. -/
theorem run_closes_nestedHosts : nestedHosts.NestedTypesDiffer ∧
    ((typesPlaces nestedHosts.types).map (demandCount .list nestedHosts.packageName)).sum = 3 ∧
    ∃ stats, (FactoryHelpers.run .list nestedHosts {}).result = .ok stats ∧
      TypesBecome (closure .list nestedHosts) nestedHosts.types
        (FactoryHelpers.run .list nestedHosts {}).unit.types ∧
      stats.helpersAdded + stats.helpersReused =
        ((typesPlaces nestedHosts.types).map (demandCount .list nestedHosts.packageName)).sum :=
  ⟨by decide, by decide, run_closes_hosts .list nestedHosts {} (by decide)⟩

end FactoryHelpers

end FactoryLowering
