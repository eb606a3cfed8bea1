import FactoryLowering.Proofs.FactoryHelpers.Walk
import FactoryLowering.Proofs.ImportEdits
import FactoryLowering.Proofs.Tree.Refinement

/-! # Running the helper pass again

A unit is settled for a family if the pass would lower none of its calls. The pass settles its own
family, passes of other families keep it settled, and on a settled unit the pass changes nothing.
No assumption on identities is needed.
-/
namespace FactoryLowering.FactoryHelpers

variable {f g : Family} {spelledOut : List String} {package : String} {p q : Path} {s t : State}

/-- Every call of the factory that is left has no host or an arity that no helper takes. -/
def Settled (f : Family) (u : CompilationUnit) : Prop :=
  ∀ x ∈ typesSites u.types, lowers f u.packageName x.path x.call = false

theorem lowers_of_isMatch_eq_false {c : Call} (h : f.pattern.isMatch c = false) :
    lowers f package p c = false := by
  simp [lowers, h]

theorem lowers_of_method_eq_none {c : Call} (h : c.method = none) :
    lowers f package p c = false := by
  apply lowers_of_isMatch_eq_false
  simp [MethodPattern.isMatch, h]

theorem lowers_lowered (host : String) (c : Call) :
    lowers f package p (lowered g host c) = false :=
  lowers_of_isMatch_eq_false (isMatch_lowered f g host c)

theorem lowers_congr {c : Call} {receiver : Option Expr} {args : List Expr}
    (hpq : scopesAt package q = scopesAt package p) (h : args.length = c.args.length) :
    lowers f package q { c with receiver, args } = lowers f package p c := by
  have hhost : hostDepth package q = 0 ↔ hostDepth package p = 0 := by
    rw [← hostAt_eq_none_iff, ← hostAt_eq_none_iff, hostAt, hostAt, hpq]
  have hdepth : (hostDepth package q != 0) = (hostDepth package p != 0) := by
    simp [bne, hhost]
  have harity : Call.arity { c with receiver, args } = c.arity := h
  have hmatch : f.pattern.isMatch { c with receiver, args } = f.pattern.isMatch c := rfl
  rw [lowers, harity, hmatch, hdepth, lowers]

/-- What a pass of one family does to the calls of another: if none of them would be lowered before,
then none would be afterwards. For its own family it needs no such assumption. -/
def Settles (f g : Family) (package : String) (xs ys : List Site) : Prop :=
  (f = g ∨ ∀ x ∈ xs, lowers f package x.path x.call = false) →
    ∀ y ∈ ys, lowers f package y.path y.call = false

theorem Settles.append {xs xs' ys ys' : List Site} (hx : Settles f g package xs xs')
    (hy : Settles f g package ys ys') : Settles f g package (xs ++ ys) (xs' ++ ys') := by
  intro known z hz
  have left : f = g ∨ ∀ x ∈ xs, lowers f package x.path x.call = false :=
    known.imp_right fun h x hx => h x (List.mem_append_left _ hx)
  have right : f = g ∨ ∀ x ∈ ys, lowers f package x.path x.call = false :=
    known.imp_right fun h x hx => h x (List.mem_append_right _ hx)
  rcases List.mem_append.mp hz with hz | hz
  · exact hx left z hz
  · exact hy right z hz

theorem Settles.call {c new : Call} {receiver : Option Expr} {args : List Expr}
    (hpq : scopesAt package q = scopesAt package p) (hargs : args.length = c.args.length)
    (hr : Settles f g package (sites p (Expr.visitsOption c.receiver))
      (sites q (Expr.visitsOption receiver)))
    (ha : Settles f g package (sites p (Expr.visitsList c.args)) (sites q (Expr.visitsList args)))
    (hnew : new = lowerAt g package p { c with receiver, args }) :
    Settles f g package
      (⟨p, c⟩ :: (sites p (Expr.visitsOption c.receiver) ++ sites p (Expr.visitsList c.args)))
      (⟨q, new⟩ :: (sites q (Expr.visitsOption new.receiver) ++
        sites q (Expr.visitsList new.args))) := by
  have hself : Settles f g package [⟨p, c⟩] [⟨q, new⟩] := by
    intro known y hy
    obtain rfl := List.mem_singleton.mp hy
    by_cases hl : lowers g package p { c with receiver, args } = true
    · obtain ⟨host, name, _, heq⟩ := exists_host_of_lowers hl
      rw [hnew, heq]
      exact lowers_lowered name _
    · have hkept := lowerAt_of_not_lowers (Bool.eq_false_iff.mpr hl)
      rw [hnew, hkept, lowers_congr hpq hargs]
      rcases known with rfl | known
      · rw [← lowers_congr rfl hargs]
        exact Bool.eq_false_iff.mpr hl
      · exact known _ List.mem_cons_self
  refine hself.append ?_
  by_cases hl : lowers g package p { c with receiver, args } = true
  · -- the receiver is dropped, so nothing in it is left to be lowered
    obtain ⟨host, name, _, heq⟩ := exists_host_of_lowers hl
    have hnone : Settles f g package (sites p (Expr.visitsOption c.receiver)) [] :=
      fun _ _ hy => nomatch hy
    rw [hnew, heq]
    exact hnone.append ha
  · rw [hnew, lowerAt_of_not_lowers (Bool.eq_false_iff.mpr hl)]
    exact hr.append ha

theorem scopesAt_lowering {site : TypeSite} {d d' new : TypeDecl}
    (hpq : scopesAt package q = scopesAt package p) (alike : d.Alike d')
    (htype : (lowering f spelledOut package).type p q site d d' new) :
    scopesAt package (.type new site :: q) = scopesAt package (.type d site :: p) := by
  obtain ⟨arities, ms, _, rfl⟩ := htype
  rw [scopesAt, scopesAt, hpq, alike.addMembers]

theorem lowering_relates (f g : Family) (spelledOut : List String) (package : String) :
    (lowering g spelledOut package).Relates
      (fun p q => scopesAt package q = scopesAt package p) (Settles f g package) where
  nil _ _ hy := nomatch hy
  append hx hy := hx.append hy
  enterType hpq alike htype := scopesAt_lowering hpq alike htype
  enterAnonymous hpq _ := by rw [scopesAt, scopesAt, hpq]
  call hpq _ hargs hr ha hnew := .call hpq hargs.length_eq hr ha hnew
  type {p q site d d' new} _ _ htype hinner := by
    obtain ⟨arities, ms, hms, rfl⟩ := htype
    have hhelpers : Settles f g package [] (sites (.type (d'.addMembers (ms.map .method)) site :: q)
        (Member.visitsList (ms.map .method))) :=
      fun _ _ hy => lowers_of_method_eq_none (Family.method_eq_none_of_mem_helpers hms hy)
    have hboth := hinner.append hhelpers
    rwa [List.append_nil, ← sites_append d'.innerVisits_level,
      ← TypeDecl.innerVisits_addMembers] at hboth

theorem run_types (f : Family) (u : CompilationUnit) (log : ChangeLog) :
    (FactoryHelpers.run f u log).unit.types = (walk f u).1 := by
  rw [run_eq]
  exact ImportEdits.apply_types _ _

theorem run_packageName (f : Family) (u : CompilationUnit) (log : ChangeLog) :
    (FactoryHelpers.run f u log).unit.packageName = u.packageName := by
  rw [run_eq]
  exact ImportEdits.apply_packageName _ _

theorem settles_run (f g : Family) (u : CompilationUnit) (log : ChangeLog) :
    Settles f g u.packageName (typesSites u.types)
      (typesSites (FactoryHelpers.run g u log).unit.types) := by
  rw [run_types]
  exact (walk_lowering g u).1.rel_sites (lowering_relates f g _ _) rfl

theorem settled_run (f : Family) (u : CompilationUnit) (log : ChangeLog) :
    Settled f (FactoryHelpers.run f u log).unit := by
  intro x hx
  rw [run_packageName]
  exact settles_run f f u log (.inl rfl) x hx

theorem Settled.run {u : CompilationUnit} (h : Settled f u) (g : Family) (log : ChangeLog) :
    Settled f (FactoryHelpers.run g u log).unit := by
  intro x hx
  rw [run_packageName]
  exact settles_run f g u log (.inr h) x hx

structure Idle (package : String) (nextId : NodeId) (p : Path) (s : State) : Prop where
  scopes : s.scopes = scopesAt package p
  failure : s.failure = none
  needed : s.needed = {}
  edits : s.edits = {}
  nextId : s.nextId = nextId
  stats : s.stats = { callsSkipped := s.stats.callsSkipped }

namespace Idle

variable {nextId : NodeId}

theorem withScopes {scopes : ScopeStack} (h : Idle package nextId q s)
    (hscopes : scopes = scopesAt package p) : Idle package nextId p { s with scopes } :=
  ⟨hscopes, h.failure, h.needed, h.edits, h.nextId, h.stats⟩

theorem call {c : Call} (h : Idle package nextId p s) (hl : lowers f package p c = false) :
    ((editor f spelledOut).call c s).1 = c ∧
      Idle package nextId p ((editor f spelledOut).call c s).2 := by
  rcases call_cases h.scopes c with ⟨hlow, _⟩ | ⟨_, _, warnings, heq⟩ | ⟨_, _, heq⟩
  · rw [hl] at hlow
    cases hlow
  · rw [heq]
    refine ⟨rfl, h.scopes, h.failure, h.needed, h.edits, h.nextId, ?_⟩
    simp only
    rw [h.stats]
  · rw [heq]
    exact ⟨rfl, h⟩

theorem leaveType_eq {d d' : TypeDecl} {site : TypeSite}
    (h : Idle package nextId (.type d site :: p) s) :
    (editor f spelledOut).leaveType d' s = (d', { s with scopes := scopesAt package p }) := by
  rw [FactoryHelpers.leaveType_eq h.scopes, h.needed]
  rfl

theorem leaveAnonymous {head : ClassHead} {ms : List Member}
    (h : Idle package nextId (.anonymous head ms :: p) s) :
    Idle package nextId p (FactoryHelpers.leaveAnonymous s).2 := by
  rw [leaveAnonymous_eq h.scopes]
  exact h.withScopes rfl

end Idle

theorem editor_obeys_unchanged (f : Family) (spelledOut : List String) (package : String)
    (nextId : NodeId) :
    (editor f spelledOut).Obeys unchanged
      (fun x => ∀ c, x.visit = .call c → lowers f package x.path c = false)
      (Idle package nextId) fun _ _ _ _ => True where
  refl _ := trivial
  trans _ _ := trivial
  visit {p v s} hv hs := by
    cases v <;> first | exact hv.elim | exact ⟨hs, trivial⟩
  skip _ _ := trivial
  enterCall hs := hs
  call {p c receiver args xs s t} hok _ _ ht _ hargs := by
    have hl : lowers f package p { c with receiver, args } = false := by
      rw [lowers_congr rfl (hargs []).length_eq]
      exact hok c rfl
    obtain ⟨hsame, hidle⟩ := ht.call hl
    exact ⟨fun _ => hsame, hidle, trivial⟩
  enterType _ hs := hs.withScopes (by rw [scopesAt, hs.scopes])
  leaveType {p d d' site s t} _ _ _ ht _ := by
    rw [ht.leaveType_eq]
    exact ⟨fun _ => rfl, ht.withScopes rfl, trivial⟩
  enterAnonymous hs := hs.withScopes (by rw [scopesAt, hs.scopes])
  leaveAnonymous _ _ ht _ := ⟨ht.leaveAnonymous, trivial⟩

theorem walk_of_settled {u : CompilationUnit} (h : Settled f u) :
    (walk f u).1 = u.types ∧ Idle u.packageName u.nextId [] (walk f u).2 := by
  have hok : ∀ x ∈ typesPlaces u.types, ∀ c, x.visit = .call c →
      lowers f u.packageName x.path c = false := by
    rintro ⟨path, v⟩ hx c rfl
    exact h ⟨path, c⟩ (mem_sites.mpr hx)
  have start : Idle u.packageName u.nextId []
      { scopes := { package := u.packageName }, nextId := u.nextId } :=
    ⟨rfl, rfl, rfl, rfl, rfl, rfl⟩
  obtain ⟨htypes, hidle, _⟩ :=
    (editor_obeys_unchanged f (f.shadowed u) u.packageName u.nextId).types u.types hok _ start
  exact ⟨htypes.eq_old, hidle⟩

theorem run_of_settled {u : CompilationUnit} (h : Settled f u) (log : ChangeLog) :
    (FactoryHelpers.run f u log).unit = u ∧
      ∃ skipped, (FactoryHelpers.run f u log).result = .ok { callsSkipped := skipped } := by
  obtain ⟨htypes, hidle⟩ := walk_of_settled h
  have hunit : walkedUnit f u = u := by
    rw [walkedUnit, htypes, hidle.nextId]
  have hedits : (walk f u).2.edits.apply (walkedUnit f u) = { unit := u } := by
    rw [hidle.edits, hunit]
    rfl
  rw [run_eq, hedits]
  refine ⟨rfl, (walk f u).2.stats.callsSkipped, ?_⟩
  simp only
  rw [hidle.stats]

def afterPasses (families : List Family) (u : CompilationUnit) (log : ChangeLog) :
    CompilationUnit :=
  families.foldl (fun u f => (FactoryHelpers.run f u log).unit) u

theorem Settled.afterPasses {u : CompilationUnit} (h : Settled f u) (families : List Family)
    (log : ChangeLog) : Settled f (afterPasses families u log) := by
  induction families generalizing u with
  | nil => exact h
  | cons g rest ih => exact ih (h.run g log)

/-- A pass after passes of any families, its own among them, changes nothing. -/
theorem rerun_changes_nothing (before between : List Family) (f : Family) (u : CompilationUnit)
    (log : ChangeLog) :
    (FactoryHelpers.run f (afterPasses (before ++ f :: between) u log) log).unit =
        afterPasses (before ++ f :: between) u log ∧
      ∃ skipped, (FactoryHelpers.run f (afterPasses (before ++ f :: between) u log) log).result =
        .ok { callsSkipped := skipped } := by
  have hsettled : Settled f (afterPasses (before ++ f :: between) u log) := by
    rw [afterPasses, List.foldl_append]
    exact (settled_run f _ log).afterPasses between log
  exact run_of_settled hsettled log

end FactoryLowering.FactoryHelpers
