import FactoryLowering.Ascending
import FactoryLowering.Pass.FactoryHelpers
import FactoryLowering.Proofs.Helper
import FactoryLowering.Proofs.Host
import FactoryLowering.Proofs.MethodPattern
import Mathlib.Data.List.Forall2

/-! # Single steps of the helper pass

What the pass does with one call, and with one type when it leaves it. Both are given as functions
of the path, of the node and of the arities asked for, so that the walk's own state drops out.
-/
namespace FactoryLowering

namespace FactoryHelpers

variable {f : Family} {spelledOut : List String} {package : String} {p : Path} {s t : State}

/-- Whether the pass lowers a call at a path: it is a call of the factory, its arity has a helper,
and there is a host. -/
def lowers (f : Family) (package : String) (p : Path) (c : Call) : Bool :=
  f.pattern.isMatch c && f.accepts c.arity && hostDepth package p != 0

def lowered (f : Family) (host : String) (c : Call) : Call :=
  { c with
    receiver := none
    name := f.helperName
    method := some { owner := .reference host c.ownerParams, name := f.helperName } }

/-- A helper call is no factory call of any family, because helpers have other names. -/
theorem isMatch_lowered (f g : Family) (host : String) (c : Call) :
    f.pattern.isMatch (lowered g host c) = false := by
  have hname : (g.helperName == f.pattern.name) = false := by
    cases f <;> cases g <;> decide
  simp [MethodPattern.isMatch, lowered, hname]

/-- What becomes of a call at a path. -/
def lowerAt (f : Family) (package : String) (p : Path) (c : Call) : Call :=
  match hostAt package p with
  | some (_, host) => if lowers f package p c then lowered f host c else c
  | none => c

theorem lowerAt_of_not_lowers {c : Call} (h : lowers f package p c = false) :
    lowerAt f package p c = c := by
  unfold lowerAt
  cases hostAt package p with
  | none => rfl
  | some host => simp [h]

theorem exists_host_of_lowers {c : Call} (h : lowers f package p c = true) :
    ∃ host name, hostAt package p = some (host, name) ∧
      lowerAt f package p c = lowered f name c := by
  have depth : hostDepth package p ≠ 0 := by
    simp only [lowers, Bool.and_eq_true, bne_iff_ne] at h
    exact h.2
  obtain ⟨⟨host, name⟩, hhost⟩ := Option.ne_none_iff_exists'.mp (mt hostAt_eq_none_iff.mp depth)
  exact ⟨host, name, hhost, by simp [lowerAt, hhost, h]⟩

theorem call_cases (hs : s.scopes = scopesAt package p) (c : Call) :
    (lowers f package p c = true ∧ ∃ host name, hostAt package p = some (host, name) ∧
      (editor f spelledOut).call c s = (lowered f name c,
        { s with
          needed := s.needed.record host c.arity
          stats.callsChanged := s.stats.callsChanged + 1 })) ∨
    (lowers f package p c = false ∧ f.pattern.isMatch c = true ∧ ∃ warnings,
      (editor f spelledOut).call c s = (c,
        { s with warnings, stats.callsSkipped := s.stats.callsSkipped + 1 })) ∨
    (lowers f package p c = false ∧ f.pattern.isMatch c = false ∧
      (editor f spelledOut).call c s = (c, s)) := by
  have hhost : s.host? = hostAt package p := by rw [State.host?, hs, hostAt]
  cases hm : f.pattern.isMatch c with
  | false =>
    refine .inr (.inr ⟨by simp [lowers, hm], rfl, ?_⟩)
    simp only [editor, hm]
    rfl
  | true =>
    have hcall : (editor f spelledOut).call c s = lowerCall f c s := by
      simp only [editor, hm, if_true]
    rw [hcall]
    cases hat : hostAt package p with
    | none =>
      have depth := hostAt_eq_none_iff.mp hat
      exact .inr (.inl ⟨by simp [lowers, depth], rfl, s.warnings, by
        simp only [lowerCall, hhost, hat]⟩)
    | some host =>
      obtain ⟨host, name⟩ := host
      have depth : hostDepth package p ≠ 0 := by
        rw [Ne, ← hostAt_eq_none_iff, hat]
        simp
      cases ha : f.accepts c.arity with
      | false =>
        exact .inr (.inl ⟨by simp [lowers, ha], rfl, _, by
          simp only [lowerCall, hhost, hat, helperMethod, ha, Bool.not_false, if_true, State.warn]
          rfl⟩)
      | true =>
        have hmethod := MethodPattern.method_of_isMatch hm
        refine .inl ⟨by simp [lowers, hm, ha, depth], host, name, rfl, ?_⟩
        simp only [lowerCall, hhost, hat, helperMethod, ha, Bool.not_true, Bool.false_eq_true,
          if_false, hmethod, lowered]

theorem call_eq_lowerAt (hs : s.scopes = scopesAt package p) (c : Call) :
    ((editor f spelledOut).call c s).1 = lowerAt f package p c := by
  rcases call_cases hs c with
    ⟨hl, host, name, hat, heq⟩ | ⟨hl, _, warnings, heq⟩ | ⟨hl, _, heq⟩ <;> rw [heq]
  · simp only [lowerAt, hat, hl, if_true]
  · exact (lowerAt_of_not_lowers hl).symm
  · exact (lowerAt_of_not_lowers hl).symm

theorem leaveType_eq {d d' : TypeDecl} {site : TypeSite}
    (hs : s.scopes = scopesAt package (.type d site :: p)) :
    (editor f spelledOut).leaveType d' s =
      provideAll f spelledOut d' (s.needed.arities d.id)
        { s with scopes := scopesAt package p, needed := (s.needed.take d.id).2 } := by
  simp only [editor, leaveType, hs, scopesAt, ScopeStack.enter, ScopeStack.leave?, ArityTable.take]

theorem leaveAnonymous_eq {head : ClassHead} {ms : List Member}
    (hs : s.scopes = scopesAt package (.anonymous head ms :: p)) :
    (leaveAnonymous s).2 = { s with scopes := scopesAt package p } := by
  have hleave : s.scopes.leave? = some
      ({ id := head.id, kind := .anonymous, fqn := none, canHost := false },
        scopesAt package p) := by
    rw [hs]
    rfl
  simp only [leaveAnonymous, modify, modifyGet, MonadStateOf.modifyGet, StateT.modifyGet, pure,
    hleave]

/-- What providing a type with methods for several arities does to the type and to the state. -/
structure Provides (f : Family) (spelledOut : List String) (d : TypeDecl) (arities : List Nat)
    (s : State) (d' : TypeDecl) (s' : State) : Prop where
  helpers : ∃ ms, d' = d.addMembers (ms.map .method) ∧ List.Forall₂ (f.IsHelper spelledOut)
    (arities.filter fun a => (f.compatible? d a).isNone) ms
  scopes : s'.scopes = s.scopes
  needed : s'.needed = s.needed
  failure : s'.failure = s.failure
  changed : s'.stats.callsChanged = s.stats.callsChanged
  skipped : s'.stats.callsSkipped = s.stats.callsSkipped
  served : s'.stats.helpersAdded + s'.stats.helpersReused =
    s.stats.helpersAdded + s.stats.helpersReused + arities.length

/-- A helper that a type gets serves no other arity, so it is no reason to leave out another. -/
theorem compatible?_addMember {d : TypeDecl} {m : Method} {a b : Nat}
    (hm : f.IsHelper spelledOut a m) (hb : b ≠ a) :
    (f.compatible? (d.addMember (.method m)) b).isNone = (f.compatible? d b).isNone := by
  have other : f.servesHead b m.head = false := by
    simpa using mt hm.servesHead_iff.mp hb
  have same : (f.compatible? (d.addMember (.method m)) b).isSome = (f.compatible? d b).isSome := by
    rw [Family.compatible?_isSome, Family.compatible?_isSome]
    simp [methodHeads, other]
  rw [← Option.not_isSome, ← Option.not_isSome, same]

theorem provideAll_provides (arities : List Nat) (d : TypeDecl) (s : State)
    (ha : ∀ a ∈ arities, f.accepts a = true) (ho : arities.Pairwise (· < ·)) :
    Provides f spelledOut d arities s (provideAll f spelledOut d arities s).1
      (provideAll f spelledOut d arities s).2 := by
  induction arities generalizing d s with
  | nil => exact ⟨⟨[], (TypeDecl.addMembers_nil d).symm, .nil⟩, rfl, rfl, rfl, rfl, rfl, rfl⟩
  | cons a rest ih =>
    obtain ⟨hlt, ho⟩ := List.pairwise_cons.mp ho
    obtain ⟨hacc, ha⟩ := List.forall_mem_cons.mp ha
    have step : provideAll f spelledOut d (a :: rest) s =
        provideAll f spelledOut (provide f spelledOut d a s).1 rest
          (provide f spelledOut d a s).2 := rfl
    rw [step]
    cases hc : f.compatible? d a with
    | some found =>
      have hd : (provide f spelledOut d a s).1 = d := by simp only [provide, hc]
      have h := ih d (provide f spelledOut d a s).2 ha ho
      rw [hd]
      refine ⟨?_, h.scopes.trans ?_, h.needed.trans ?_, h.failure.trans ?_, h.changed.trans ?_,
        h.skipped.trans ?_, h.served.trans ?_⟩
      · simpa [hc] using h.helpers
      all_goals simp only [provide, hc, List.length_cons]
      · split <;> rfl
      · split <;> rfl
      · split <;> rfl
      · split <;> rfl
      · split <;> rfl
      · split
        · omega
        · simp only [State.warn]
          omega
    | none =>
      obtain ⟨m, next, hm⟩ : ∃ m next, f.helper? spelledOut a s.nextId = (some m, next) := by
        simp only [Family.helper?_eq, hacc, if_true]
        exact ⟨_, _, rfl⟩
      have hhelper : f.IsHelper spelledOut a m := ⟨s.nextId, by rw [hm]⟩
      have hd : (provide f spelledOut d a s).1 = d.addMember (.method m) := by
        simp only [provide, hc, hm]
      have h := ih (d.addMember (.method m)) (provide f spelledOut d a s).2 ha ho
      rw [hd]
      refine ⟨?_, h.scopes.trans ?_, h.needed.trans ?_, h.failure.trans ?_, h.changed.trans ?_,
        h.skipped.trans ?_, h.served.trans ?_⟩
      · obtain ⟨ms, hms, hall⟩ := h.helpers
        have missing : (rest.filter fun b => (f.compatible? (d.addMember (.method m)) b).isNone) =
            rest.filter fun b => (f.compatible? d b).isNone := by
          refine List.filter_congr fun b hb => ?_
          exact compatible?_addMember hhelper (Nat.ne_of_gt (hlt b hb))
        refine ⟨m :: ms, ?_, ?_⟩
        · rw [hms, List.map_cons, TypeDecl.addMembers_cons]
        · rw [missing] at hall
          simpa [hc] using List.Forall₂.cons hhelper hall
      all_goals simp only [provide, hc, hm, List.length_cons]
      omega

end FactoryHelpers

end FactoryLowering
