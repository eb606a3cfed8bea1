import FactoryLowering.Proofs.FactoryHelpers.Closure
import FactoryLowering.Proofs.Tree.Refinement

/-! # What a helper call finds

A call by simple name means a method of the innermost enclosure that declares one of that name,
whatever its parameters. The pass looks for methods in hosts only. So a helper call finds its host
exactly if no enclosure inside of the host has a method of the helper's name.
-/
namespace FactoryLowering

def Enclosure.declaresMethod (name : String) : Enclosure → Bool
  | .type d _ => (methodHeads d.members).any (·.name == name)
  | .anonymous _ ms => (methodHeads ms).any (·.name == name)

/-- How many enclosures there are from the innermost one that declares a method of this name
outward, and none if there is no such enclosure. -/
def lookupDepth (name : String) : Path → Nat
  | [] => 0
  | e :: outer => if e.declaresMethod name then outer.length + 1 else lookupDepth name outer

/-- Whether an enclosure inside of the host declares a method of this name. -/
def hidden (name package : String) : Path → Bool
  | [] => false
  | e :: outer =>
    !hostsHere package (e :: outer) && (e.declaresMethod name || hidden name package outer)

def hostDeclares (name package : String) : Path → Bool
  | [] => false
  | e :: outer =>
    if hostsHere package (e :: outer) then e.declaresMethod name
    else hostDeclares name package outer

theorem lookupDepth_eq_hostDepth_iff {name package : String} {p : Path}
    (h : hostDeclares name package p = true) :
    lookupDepth name p = hostDepth package p ↔ hidden name package p = false := by
  induction p with
  | nil => cases h
  | cons e p ih =>
    cases here : hostsHere package (e :: p) with
    | true =>
      rw [hostDeclares, if_pos here] at h
      rw [lookupDepth, if_pos h, hostDepth_cons_of_hostsHere here, hidden, here]
      simp
    | false =>
      rw [hostDeclares, if_neg (by simp [here])] at h
      rw [hostDepth_cons_of_not_hostsHere here, hidden, here]
      cases he : e.declaresMethod name with
      | true =>
        -- the lookup ends here, and the host is further out
        have hle := hostDepth_le package p
        rw [lookupDepth, if_pos he]
        simp only [Bool.not_false, Bool.true_or, Bool.and_self, Bool.true_eq_false, iff_false]
        omega
      | false =>
        rw [lookupDepth, if_neg (by simp [he]), ih h]
        simp

theorem hostsHere_congr {package : String} {p q : Path}
    (h : scopesAt package q = scopesAt package p) : hostsHere package q = hostsHere package p := by
  rw [hostsHere, h, hostsHere]

namespace FactoryHelpers

variable {f : Family} {package : String} {p q : Path}

/-- Calls are lowered to calls of the host's helper. What such a call finds by its simple name is
the host, provided that no enclosure inside of the host declared a method of that name to begin
with, and otherwise it is not the host. -/
def reaching (f : Family) (u : CompilationUnit) : Rewriting where
  call p q _ c new := new = lowerAt f u.packageName p c ∧
    (lowers f u.packageName p c = true →
      (∃ id host, hostAt u.packageName q = some (id, host) ∧ new = lowered f host c) ∧
      (lookupDepth f.helperName q = hostDepth u.packageName q ↔
        hidden f.helperName u.packageName p = false))
  type := (closure f u).type

/-- What the paths before and after the pass tell about a place inside. -/
structure Reached (f : Family) (package : String) (p q : Path) (x : Place) : Prop where
  scopes : scopesAt package q = scopesAt package p
  hidden : FactoryLowering.hidden f.helperName package q =
    FactoryLowering.hidden f.helperName package p
  host : ∀ a, askedArity? f x.visit = some a →
    hostDepth package x.path = hostDepth package p → hostDepth package p ≠ 0 →
    hostDeclares f.helperName package q = true

namespace Reached

theorem enterAnonymous {head : ClassHead} {ms ms' : List Member} {x : Place}
    (h : Reached f package p q x) (heads : methodHeads ms' = methodHeads ms) :
    Reached f package (.anonymous head ms :: p) (.anonymous head ms' :: q) x := by
  refine ⟨by rw [scopesAt, scopesAt, h.scopes], ?_, ?_⟩
  · rw [FactoryLowering.hidden, FactoryLowering.hidden, h.hidden, hostsHere_anonymous,
      hostsHere_anonymous, Enclosure.declaresMethod, Enclosure.declaresMethod, heads]
  · intro a ha hdepth hne
    rw [hostDepth_cons_of_not_hostsHere (hostsHere_anonymous head ms)] at hdepth hne
    exact h.host a ha hdepth hne

/-- A type that hosts nothing gets no helper, so it declares what it declared before. -/
theorem declaresMethod_eq {u : CompilationUnit} {site : TypeSite} {d d' new : TypeDecl}
    (alike : d.Alike d') (htype : (closure f u).type p q site d d' new)
    (here : hostsHere u.packageName (.type d site :: p) = false) (name : String) :
    (Enclosure.type new site).declaresMethod name =
      (Enclosure.type d site).declaresMethod name := by
  obtain ⟨arities, ms, hnew, hms, _, hmem, _⟩ := htype
  have hnone : arities = [] := by
    apply List.eq_nil_iff_forall_not_mem.mpr
    intro a ha
    obtain ⟨x, hx, _, hdepth⟩ := mem_demand.mp ((hmem a).mp ha).1
    have hwithin := (TypeDecl.innerVisits_level d).within _ x hx
    exact hostDepth_ne_of_not_hostsHere here hwithin hdepth
  rw [hnone] at hms
  cases hms
  rw [hnew, List.map_nil, TypeDecl.addMembers_nil, Enclosure.declaresMethod,
    Enclosure.declaresMethod, alike.heads]

theorem declaresMethod_of_compatible? {d : TypeDecl} {a : Nat} (site : TypeSite)
    (h : (f.compatible? d a).isSome = true) :
    (Enclosure.type d site).declaresMethod f.helperName = true := by
  rw [Family.compatible?_isSome] at h
  obtain ⟨head, hmem, hserves⟩ := List.any_eq_true.mp h
  rw [Family.servesHead, Bool.and_eq_true] at hserves
  exact List.any_eq_true.mpr ⟨head, hmem, hserves.1⟩

theorem enterType {u : CompilationUnit} {site : TypeSite} {d d' new : TypeDecl}
    (hall : ∀ x ∈ locate p (d.visits site), Reached f u.packageName p q x) (alike : d.Alike d')
    (htype : (closure f u).type p q site d d' new) {x : Place}
    (hx : x ∈ locate (.type d site :: p) d.innerVisits) :
    Reached f u.packageName (.type d site :: p) (.type new site :: q) x := by
  rw [TypeDecl.locate_visits, List.forall_mem_cons] at hall
  have hself := hall.1
  have hinner := hall.2 x (List.mem_append_left _ hx)
  have hsame := declaresMethod_eq alike htype
  obtain ⟨arities, ms, hnew, _, _, _, hserved⟩ := htype
  have hscopes : scopesAt u.packageName (.type new site :: q) =
      scopesAt u.packageName (.type d site :: p) := by
    rw [scopesAt, scopesAt, hself.scopes, hnew, alike.addMembers]
  have hhosts := hostsHere_congr hscopes
  refine ⟨hscopes, ?_, ?_⟩
  · rw [FactoryLowering.hidden, FactoryLowering.hidden, hhosts]
    cases here : hostsHere u.packageName (.type d site :: p) with
    | true => rfl
    | false => rw [hself.hidden, hsame here]
  · intro a ha hdepth hne
    rw [hostDeclares, hhosts]
    cases here : hostsHere u.packageName (.type d site :: p) with
    | true =>
      rw [hostDepth_cons_of_hostsHere here] at hdepth
      exact declaresMethod_of_compatible? site (hserved a (mem_demand.mpr ⟨x, hx, ha, hdepth⟩))
    | false =>
      rw [hostDepth_cons_of_not_hostsHere here] at hdepth hne
      exact hinner.host a ha hdepth hne

end Reached

theorem closure_refines_reaching (f : Family) (u : CompilationUnit) :
    (closure f u).Refines (reaching f u) (Reached f u.packageName) where
  enterType hall alike htype _ hx := .enterType hall alike htype hx
  enterAnonymous h heads := h.enterAnonymous heads
  type _ _ htype := htype
  call {p q c receiver args new} h _ hargs hcall := by
    refine ⟨hcall, fun hl => ?_⟩
    obtain ⟨id, host, hat, heq⟩ := exists_host_of_lowers hl
    have hatq : hostAt u.packageName q = some (id, host) := by
      rw [hostAt, h.scopes, ← hostAt, hat]
    have hcond := hl
    simp only [lowers, Bool.and_eq_true, bne_iff_ne] at hcond
    have hasked : askedArity? f (.call c) = some (Call.arity { c with receiver, args }) := by
      rw [← askedArity?_congr hargs.length_eq, askedArity?, hcond.1.1, hcond.1.2]
      rfl
    refine ⟨⟨id, host, hatq, hcall.trans heq⟩, ?_⟩
    rw [lookupDepth_eq_hostDepth_iff (h.host _ hasked rfl hcond.2), h.hidden]

/-- Every call that the pass lowers, and that is still there, finds its host by the helper's simple
name exactly if no enclosure inside of the host has a method of that name. -/
theorem run_reaches_host_iff (f : Family) (u : CompilationUnit) (log : ChangeLog)
    (h : u.NestedTypesDiffer) :
    TypesBecome (reaching f u) u.types (FactoryHelpers.run f u log).unit.types := by
  obtain ⟨htypes, _⟩ := walk_closure f u h
  rw [run_eq, ImportEdits.apply_types]
  refine htypes.refine (closure_refines_reaching f u) fun x _ => ⟨rfl, rfl, ?_⟩
  intro a _ _ hne
  exact absurd rfl hne

theorem run_reaches_hosts_of_nestedHosts : nestedHosts.NestedTypesDiffer ∧
    TypesBecome (reaching .list nestedHosts) nestedHosts.types
      (FactoryHelpers.run .list nestedHosts {}).unit.types :=
  ⟨by decide, run_reaches_host_iff .list nestedHosts {} (by decide)⟩

/-- An inner class with a method `listOf` of its own and a call `List.of(1)`. -/
def hiddenHelper : CompilationUnit where
  imports := [.single "java.util.List"]
  types := [.classDecl { id := 0, name := "Outer" }
    [.typeDecl (.classDecl { id := 1, name := "Inner" }
      [.method { head := { name := "listOf" }, body := some (.ofStmts []) },
        .field { type := { name := "Object" }, name := "x" }
          (some (.call (listOf 2 [.ofInt 1])))])]]
  nextId := 3

/-- The helper is declared in the outer class, but the lowered call means the method of the inner
one, which is what its simple name finds first. -/
theorem hiddenHelper_misses_host : hiddenHelper.NestedTypesDiffer ∧
    ∃ x ∈ typesSites (FactoryHelpers.run .list hiddenHelper {}).unit.types,
      x.call.id = 2 ∧ x.call.name = "listOf" ∧
      x.call.method.bind (·.owner.fqn?) = some "Outer" ∧
      hostDepth "" x.path = 1 ∧ lookupDepth "listOf" x.path = 2 := by
  decide +kernel

end FactoryHelpers

end FactoryLowering
