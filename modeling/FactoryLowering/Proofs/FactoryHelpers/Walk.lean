import FactoryLowering.Proofs.FactoryHelpers.Step
import FactoryLowering.Proofs.Tree.Walk

/-! # The walk of the helper pass

At each path the walk has open exactly the scopes of that path, and arities are asked for only of
hosts that are still open. So no scope is missing when a type is left, and nothing is asked for in
the end. This needs no assumption on identities: a type that shares its identity with one around it
takes over what was asked of the outer one, but it asks for nothing of its own.
-/
namespace FactoryLowering.FactoryHelpers

variable {f : Family} {spelledOut : List String} {package : String} {p : Path} {s t : State}

/-- The state of a walk at a path. -/
structure Open (f : Family) (package : String) (p : Path) (s : State) : Prop where
  scopes : s.scopes = scopesAt package p
  failure : s.failure = none
  hosts : ∀ use ∈ s.needed.uses, use.1 ∈ hostIds package p
  accepted : ∀ use ∈ s.needed.uses, f.accepts use.2 = true

/-- Calls are lowered where they stand, and types get helpers at their end. -/
def lowering (f : Family) (spelledOut : List String) (package : String) : Rewriting where
  call p _ _ c new := new = lowerAt f package p c
  type _ _ _ _ d new := ∃ arities ms, List.Forall₂ (f.IsHelper spelledOut) arities ms ∧
    new = d.addMembers (ms.map .method)

namespace Open

theorem enterType {d : TypeDecl} {site : TypeSite} (h : Open f package p s) :
    Open f package (.type d site :: p) { s with scopes := s.scopes.enter d site } := by
  refine ⟨by rw [scopesAt, h.scopes], h.failure, fun use hu => ?_, h.accepted⟩
  rw [hostIds_type]
  split
  · exact List.mem_cons_of_mem _ (h.hosts use hu)
  · exact h.hosts use hu

theorem enterAnonymous {head : ClassHead} {ms : List Member} (h : Open f package p s) :
    Open f package (.anonymous head ms :: p)
      { s with scopes := s.scopes.enterAnonymous head } :=
  ⟨by rw [scopesAt, h.scopes], h.failure, h.hosts, h.accepted⟩

theorem leaveAnonymous {head : ClassHead} {ms : List Member}
    (h : Open f package (.anonymous head ms :: p) s) :
    Open f package p (FactoryHelpers.leaveAnonymous s).2 := by
  rw [leaveAnonymous_eq h.scopes]
  exact ⟨rfl, h.failure, h.hosts, h.accepted⟩

theorem call (h : Open f package p s) (c : Call) :
    Open f package p ((editor f spelledOut).call c s).2 := by
  rcases call_cases h.scopes c with
    ⟨hl, host, name, hat, heq⟩ | ⟨_, _, warnings, heq⟩ | ⟨_, _, heq⟩ <;> rw [heq]
  · simp only [lowers, Bool.and_eq_true] at hl
    refine ⟨h.scopes, h.failure, ?_, ?_⟩ <;> intro use hu <;>
      rcases List.mem_cons.mp hu with rfl | hu
    · exact mem_hostIds_of_hostAt hat
    · exact h.hosts use hu
    · exact hl.1.2
    · exact h.accepted use hu
  · exact ⟨h.scopes, h.failure, h.hosts, h.accepted⟩
  · exact h

theorem provides {d : TypeDecl} {site : TypeSite} (h : Open f package (.type d site :: p) s)
    (spelledOut : List String) (d' : TypeDecl) :
    Provides f spelledOut d' (s.needed.arities d.id)
      { s with scopes := scopesAt package p, needed := (s.needed.take d.id).2 }
      ((editor f spelledOut).leaveType d' s).1 ((editor f spelledOut).leaveType d' s).2 := by
  rw [leaveType_eq h.scopes]
  refine provideAll_provides _ d' _ (fun a ha => ?_) ?_
  · exact h.accepted _ (ArityTable.mem_arities.mp ha)
  · exact pairwise_lt_ascending _

theorem leaveType {d : TypeDecl} {site : TypeSite} (h : Open f package (.type d site :: p) s)
    (d' : TypeDecl) : Open f package p ((editor f spelledOut).leaveType d' s).2 := by
  have hp := h.provides spelledOut d'
  refine ⟨hp.scopes, hp.failure.trans h.failure, ?_, ?_⟩ <;> rw [hp.needed] <;> intro use hu <;>
    simp only [ArityTable.take, List.mem_filter, bne_iff_ne] at hu
  · have hmem := h.hosts use hu.1
    rw [hostIds_type] at hmem
    split at hmem
    · exact (List.mem_cons.mp hmem).resolve_left hu.2
    · exact hmem
  · exact h.accepted use hu.1

end Open

/-- The walk lowers calls in place and adds helpers to types, whatever the identities are. -/
theorem editor_obeys_lowering (f : Family) (spelledOut : List String) (package : String) :
    (editor f spelledOut).Obeys (lowering f spelledOut package) (fun _ => True) (Open f package)
      fun _ _ _ _ => True where
  refl _ := trivial
  trans _ _ := trivial
  visit {p v s} hv hs := by
    cases v <;> first | exact hv.elim | exact ⟨hs, trivial⟩
  skip _ _ := trivial
  enterCall hs := hs
  call _ _ _ ht _ _ := ⟨fun _ => call_eq_lowerAt ht.scopes _, ht.call _, trivial⟩
  enterType _ hs := hs.enterType
  leaveType {p d d' site s t} _ _ _ ht _ := by
    obtain ⟨ms, hnew, hms⟩ := (ht.provides spelledOut d').helpers
    exact ⟨fun q => ⟨_, ms, hms, hnew⟩, ht.leaveType d', trivial⟩
  enterAnonymous hs := hs.enterAnonymous
  leaveAnonymous _ _ ht _ := ⟨ht.leaveAnonymous, trivial⟩

theorem open_start (f : Family) (u : CompilationUnit) :
    Open f u.packageName [] { scopes := { package := u.packageName }, nextId := u.nextId } :=
  ⟨rfl, rfl, fun _ hu => (nomatch hu), fun _ hu => (nomatch hu)⟩

theorem Open.needed_eq (h : Open f package [] s) : s.needed.uses = [] :=
  List.eq_nil_iff_forall_not_mem.mpr fun use hu => nomatch h.hosts use hu

theorem walk_lowering (f : Family) (u : CompilationUnit) :
    TypesBecome (lowering f (f.shadowed u) u.packageName) u.types (walk f u).1 ∧
      Open f u.packageName [] (walk f u).2 := by
  have h := (editor_obeys_lowering f (f.shadowed u) u.packageName).types u.types
    (fun _ _ => trivial) _ (open_start f u)
  exact ⟨h.1, h.2.1⟩

def walkedUnit (f : Family) (u : CompilationUnit) : CompilationUnit :=
  { u with types := (walk f u).1, nextId := (walk f u).2.nextId }

/-- The pass never fails: it always comes to its import edits. -/
theorem run_eq (f : Family) (u : CompilationUnit) (log : ChangeLog) :
    FactoryHelpers.run f u log =
      { unit := ((walk f u).2.edits.apply (walkedUnit f u)).unit
        log
        warnings := (walk f u).2.warnings ++ ((walk f u).2.edits.apply (walkedUnit f u)).warnings
        result := .ok { (walk f u).2.stats with
          importsAdded := ((walk f u).2.edits.apply (walkedUnit f u)).added
          importsRemoved := ((walk f u).2.edits.apply (walkedUnit f u)).removed } } := by
  have hopen := (walk_lowering f u).2
  have hempty : (walk f u).2.needed.isEmpty = true := by
    rw [ArityTable.isEmpty, hopen.needed_eq]
    rfl
  simp only [FactoryHelpers.run, hopen.failure, hempty, walkedUnit]

end FactoryLowering.FactoryHelpers
