import FactoryLowering.Proofs.Host
import FactoryLowering.Proofs.Tree.HandedCalls
import FactoryLowering.Proofs.TypeNames

/-! # The rule for hosts

Whether a type may declare a helper is worked out once, when the type is entered, from its own
declaration and from the scope around it. The rule that this amounts to speaks of the whole path:
the type is a class or an enum, neither it nor anything around it is local or anonymous, and it is
static in effect. The host of a call is the innermost type around it for which the rule holds.
-/
namespace FactoryLowering

def Enclosure.isInterface : Enclosure → Bool
  | .type d _ => d.scopeKind == .interfaceScope
  | .anonymous _ _ => false

/-- The rule, for the innermost enclosure of a path. -/
def MayDeclareHelpers : Path → Prop
  | .type d site :: outer =>
    (∀ e ∈ Enclosure.type d site :: outer, e.isNamed = true) ∧
    (d.scopeKind = .classScope ∨ d.scopeKind = .enumScope) ∧
    (site = .topLevel ∨ d.scopeKind = .enumScope ∨ .staticMember ∈ d.mods ∨
      ∃ e rest, outer = e :: rest ∧ e.isInterface = true)
  | _ => False

/-- The host of a path and everything around it: of all enclosures for which the rule holds, the
innermost one. -/
structure IsHost (p q : Path) : Prop where
  encloses : q <:+ p
  rule : MayDeclareHelpers q
  innermost : ∀ other, other <:+ p → MayDeclareHelpers other → other.length ≤ q.length

section Innermost

variable {p q : Path} {e : Enclosure}

theorem isHost_cons_of_mayDeclareHelpers (h : MayDeclareHelpers (e :: p)) :
    IsHost (e :: p) q ↔ q = e :: p := by
  constructor
  · intro hq
    exact hq.encloses.eq_of_length_le (hq.innermost _ (List.suffix_refl _) h)
  · rintro rfl
    exact ⟨List.suffix_refl _, h, fun _ hother _ => hother.length_le⟩

theorem isHost_cons_of_not_mayDeclareHelpers (h : ¬ MayDeclareHelpers (e :: p)) :
    IsHost (e :: p) q ↔ IsHost p q := by
  have hsuffix : ∀ other, MayDeclareHelpers other → (other <:+ e :: p ↔ other <:+ p) := by
    intro other hother
    have hne : other ≠ e :: p := by
      rintro rfl
      exact h hother
    rw [List.suffix_cons_iff]
    exact or_iff_right hne
  constructor
  · intro hq
    refine ⟨(hsuffix q hq.rule).mp hq.encloses, hq.rule, ?_⟩
    intro other hother hrule
    exact hq.innermost other ((hsuffix other hrule).mpr hother) hrule
  · intro hq
    refine ⟨(hsuffix q hq.rule).mpr hq.encloses, hq.rule, ?_⟩
    intro other hother hrule
    exact hq.innermost other ((hsuffix other hrule).mp hother) hrule

end Innermost

/-- The scope that is opened for an enclosure. -/
def Enclosure.Opens : Enclosure → Scope → Prop
  | .type d _, scope => scope.id = d.id ∧ scope.kind = d.scopeKind
  | .anonymous head _, scope => scope.id = head.id ∧ scope.kind = .anonymous

/-- What a scope says about its enclosure and what is around it. -/
structure Scope.Describes (scope : Scope) (e : Enclosure) (outer : Path) : Prop where
  opens : e.Opens scope
  named : scope.fqn.isSome = true ↔ ∀ x ∈ e :: outer, x.isNamed = true
  hosts : scope.canHost = true ↔ MayDeclareHelpers (e :: outer)

inductive DescribePath : List Scope → Path → Prop
  | nil : DescribePath [] []
  | cons {scope : Scope} {scopes : List Scope} {e : Enclosure} {outer : Path} :
    scope.Describes e outer → DescribePath scopes outer →
      DescribePath (scope :: scopes) (e :: outer)

namespace DescribePath

variable {scopes : List Scope} {p q : Path} {scope : Scope}

theorem forall₂_opens (h : DescribePath scopes p) : List.Forall₂ Enclosure.Opens p scopes := by
  induction h with
  | nil => exact .nil
  | cons hscope _ ih => exact .cons hscope.opens ih

theorem find?_eq_some_iff (h : DescribePath scopes p) :
    scopes.find? (·.canHost) = some scope ↔
      ∃ q, IsHost p q ∧ scopes[p.length - q.length]? = some scope := by
  induction h with
  | nil =>
    refine iff_of_false nofun ?_
    rintro ⟨q, _, hscope⟩
    cases hscope
  | @cons first scopes e outer hfirst _ ih =>
    by_cases hrule : MayDeclareHelpers (e :: outer)
    · rw [List.find?_cons_of_pos (hfirst.hosts.mpr hrule)]
      simp only [isHost_cons_of_mayDeclareHelpers hrule, exists_eq_left, Nat.sub_self,
        List.getElem?_cons_zero]
    · rw [List.find?_cons_of_neg (mt hfirst.hosts.mp hrule), ih]
      refine exists_congr fun q => ?_
      rw [isHost_cons_of_not_mayDeclareHelpers hrule]
      refine and_congr_right fun hq => ?_
      -- one more scope inside, and as many from the host outward
      have hlength : (e :: outer).length - q.length = (outer.length - q.length) + 1 := by
        have hle := hq.encloses.length_le
        rw [List.length_cons]
        omega
      rw [hlength, List.getElem?_cons_succ]

theorem find?_eq_none_iff (h : DescribePath scopes p) :
    scopes.find? (·.canHost) = none ↔ ∀ q, q <:+ p → ¬ MayDeclareHelpers q := by
  induction h with
  | nil =>
    refine iff_of_true rfl ?_
    intro q hq
    rw [List.suffix_nil.mp hq]
    exact id
  | @cons first scopes e outer hfirst _ ih =>
    rw [List.find?_eq_none, List.forall_mem_cons, ← List.find?_eq_none, ih, hfirst.hosts]
    constructor
    · rintro ⟨hhere, houter⟩ q hq
      rcases List.suffix_cons_iff.mp hq with rfl | hq
      · exact hhere
      · exact houter q hq
    · intro hall
      refine ⟨hall _ (List.suffix_refl _), fun q hq => hall q ?_⟩
      exact hq.trans (List.suffix_cons e outer)

theorem exists_fqn_of_canHost (h : DescribePath scopes p) (hscope : scope ∈ scopes)
    (hhost : scope.canHost = true) : ∃ fqn, scope.fqn = some fqn := by
  induction h with
  | nil => cases hscope
  | @cons first scopes e outer hfirst _ ih =>
    rcases List.mem_cons.mp hscope with rfl | hscope
    · have hrule := hfirst.hosts.mp hhost
      refine Option.isSome_iff_exists.mp (hfirst.named.mpr ?_)
      cases e with
      | type d site => exact hrule.1
      | anonymous head ms => exact hrule.elim
    · exact ih hscope

theorem forall_fqn_of_forall_isNamed (h : DescribePath scopes p)
    (hnamed : ∀ e ∈ p, e.isNamed = true) : ∀ scope ∈ scopes, scope.fqn.isSome = true := by
  induction h with
  | nil => exact List.forall_mem_nil _
  | cons hfirst _ ih =>
    refine List.forall_mem_cons.mpr ⟨hfirst.named.mpr hnamed, ih ?_⟩
    exact (List.forall_mem_cons.mp hnamed).2

/-- From the outside to the inside, scopes with a name come first and those without one follow. -/
theorem exists_named_append (h : DescribePath scopes p) : ∃ named unnamed : List Scope,
    scopes.reverse = named ++ unnamed ∧ (∀ scope ∈ named, scope.fqn.isSome = true) ∧
      ∀ scope ∈ unnamed, scope.fqn = none := by
  induction h with
  | nil => exact ⟨[], [], rfl, List.forall_mem_nil _, List.forall_mem_nil _⟩
  | @cons first scopes e outer hfirst hrest ih =>
    by_cases hfqn : first.fqn.isSome = true
    · -- what is around a type with a name has a name
      have hall := forall_fqn_of_forall_isNamed (.cons hfirst hrest) (hfirst.named.mp hfqn)
      refine ⟨(first :: scopes).reverse, [], (List.append_nil _).symm, ?_, List.forall_mem_nil _⟩
      exact fun scope hscope => hall scope (List.mem_reverse.mp hscope)
    · obtain ⟨named, unnamed, heq, hnamed, hunnamed⟩ := ih
      refine ⟨named, unnamed ++ [first], ?_, hnamed, ?_⟩
      · rw [List.reverse_cons, heq, List.append_assoc]
      · refine List.forall_mem_append.mpr ⟨hunnamed, List.forall_mem_singleton.mpr ?_⟩
        exact Option.not_isSome_iff_eq_none.mp hfqn

end DescribePath

/-- The outermost enclosure of a path, and no other one, is a top-level type. -/
def RootedPath : Path → Prop
  | [] => True
  | .type _ site :: outer => (site = .topLevel ↔ outer = []) ∧ RootedPath outer
  | .anonymous _ _ :: outer => RootedPath outer

def Place.Rooted (x : Place) : Prop :=
  ∀ d site, x.visit = .enterType d site → (site = .topLevel ↔ x.path = [])

theorem Editor.Obeys.rooted {σ : Type} {editor : Editor σ} {r : Rewriting} {inv : Path → σ → Prop}
    {rel : Path → List Place → σ → σ → Prop} (h : editor.Obeys r (fun _ => True) inv rel) :
    editor.Obeys r Place.Rooted (fun p s => RootedPath p ∧ inv p s) rel where
  refl hs := h.refl hs.2
  trans := h.trans
  visit hv hs := by
    obtain ⟨hinv, hrel⟩ := h.visit hv hs.2
    exact ⟨⟨hs.1, hinv⟩, hrel⟩
  skip hv hs := h.skip hv hs.2
  enterCall hs := ⟨hs.1, h.enterCall hs.2⟩
  call _ hs hrel ht hreceiver hargs := by
    obtain ⟨hcall, hinv, hrel'⟩ := h.call trivial hs.2 hrel ht.2 hreceiver hargs
    exact ⟨hcall, ⟨hs.1, hinv⟩, hrel'⟩
  enterType {p d site s} hok hs := ⟨⟨hok d site rfl, hs.1⟩, h.enterType trivial hs.2⟩
  leaveType _ hs hrel ht alike := by
    obtain ⟨htype, hinv, hrel'⟩ := h.leaveType trivial hs.2 hrel ht.2 alike
    exact ⟨htype, ⟨hs.1, hinv⟩, hrel'⟩
  enterAnonymous hs := ⟨hs.1, h.enterAnonymous hs.2⟩
  leaveAnonymous hs hrel ht heads := by
    obtain ⟨hinv, hrel'⟩ := h.leaveAnonymous hs.2 hrel ht.2 heads
    exact ⟨⟨hs.1, hinv⟩, hrel'⟩

section Scopes

variable {package : String} {d : TypeDecl} {site : TypeSite} {outer p : Path}

theorem isSome_nameAt_iff (h : DescribePath (scopesAt package outer).frames outer)
    (hrooted : site = .topLevel ↔ outer = []) :
    ((scopesAt package outer).nameAt d.name site).isSome = true ↔
      ∀ e ∈ Enclosure.type d site :: outer, e.isNamed = true := by
  rw [List.forall_mem_cons]
  cases site with
  | topLevel =>
    obtain rfl := hrooted.mp rfl
    exact iff_of_true rfl ⟨rfl, List.forall_mem_nil _⟩
  | inBlock => exact iff_of_false Bool.false_ne_true fun hall => Bool.false_ne_true hall.1
  | inType =>
    have hhere : (Enclosure.type d .inType).isNamed = true := rfl
    rw [and_iff_right hhere, ScopeStack.nameAt, Option.isSome_map, ScopeStack.current?]
    generalize (scopesAt package outer).frames = scopes at h ⊢
    cases h with
    | nil => cases hrooted.mpr rfl
    | cons hscope _ => exact hscope.named

theorem current?_any_isInterface (h : DescribePath (scopesAt package outer).frames outer) :
    (scopesAt package outer).current?.any (·.kind == .interfaceScope) = true ↔
      ∃ e rest, outer = e :: rest ∧ e.isInterface = true := by
  rw [ScopeStack.current?]
  generalize (scopesAt package outer).frames = scopes at h ⊢
  cases h with
  | nil =>
    refine iff_of_false Bool.false_ne_true ?_
    rintro ⟨e, rest, heq, _⟩
    cases heq
  | @cons scope scopes e rest hscope _ =>
    have hkind : (scope.kind == .interfaceScope) = e.isInterface := by
      cases e with
      | type d site => rw [hscope.opens.2]; rfl
      | anonymous head ms => rw [hscope.opens.2]; rfl
    rw [List.head?_cons, Option.any_some, hkind]
    constructor
    · exact fun he => ⟨e, rest, rfl, he⟩
    · rintro ⟨_, _, heq, he⟩
      cases heq
      exact he

theorem describes_enter (h : DescribePath (scopesAt package outer).frames outer)
    (hrooted : site = .topLevel ↔ outer = []) :
    DescribePath (scopesAt package (.type d site :: outer)).frames (.type d site :: outer) := by
  refine .cons ⟨⟨rfl, rfl⟩, isSome_nameAt_iff h hrooted, ?_⟩ h
  rw [Bool.and_eq_true, isSome_nameAt_iff h hrooted, MayDeclareHelpers]
  refine and_congr_right fun hnamed => ?_
  cases site with
  | topLevel => cases d <;> simp [ScopeStack.mayHost, TypeDecl.scopeKind]
  | inBlock => cases (List.forall_mem_cons.mp hnamed).1
  | inType =>
    have hinterface := current?_any_isInterface h
    cases d <;>
      simp only [ScopeStack.mayHost, TypeDecl.scopeKind, Bool.or_eq_true, List.contains_iff_mem,
        hinterface] <;> simp

theorem describePath_scopesAt (package : String) (h : RootedPath p) :
    DescribePath (scopesAt package p).frames p := by
  induction p with
  | nil => exact .nil
  | cons e outer ih =>
    cases e with
    | type d site => exact describes_enter (ih h.2) h.1
    | anonymous head ms =>
      refine .cons ⟨⟨rfl, rfl⟩, iff_of_false Bool.false_ne_true ?_,
        iff_of_false Bool.false_ne_true id⟩ (ih h)
      exact fun hall => Bool.false_ne_true (List.forall_mem_cons.mp hall).1

end Scopes

namespace FactoryHelpers

/-- What a state with its open scopes tells about the enclosures of a path. -/
structure KnowsHost (p : Path) (s : State) : Prop where
  /-- The innermost scope comes first, as the innermost enclosure does. -/
  scopes : List.Forall₂ Enclosure.Opens p s.scopes.frames
  host : ∀ scope, s.scopes.host? = some scope ↔
    ∃ q, IsHost p q ∧ s.scopes.frames[p.length - q.length]? = some scope
  noHost : s.scopes.host? = none ↔ ∀ q, q <:+ p → ¬ MayDeclareHelpers q
  /-- A host is never given up for want of a name. -/
  kept : ∀ scope, s.scopes.host? = some scope →
    ∃ fqn, scope.fqn = some fqn ∧ s.host? = some (scope.id, fqn)
  unnamed : ∃ named unnamed : List Scope, s.scopes.frames.reverse = named ++ unnamed ∧
    (∀ scope ∈ named, scope.fqn.isSome = true) ∧ ∀ scope ∈ unnamed, scope.fqn = none

theorem Open.knowsHost {f : Family} {package : String} {p : Path} {s : State}
    (h : Open f package p s) (hrooted : RootedPath p) : KnowsHost p s := by
  have hscopes : DescribePath s.scopes.frames p := by
    rw [h.scopes]
    exact describePath_scopesAt package hrooted
  refine ⟨hscopes.forall₂_opens, fun _ => hscopes.find?_eq_some_iff, hscopes.find?_eq_none_iff, ?_,
    hscopes.exists_named_append⟩
  intro scope hhost
  obtain ⟨fqn, hfqn⟩ := hscopes.exists_fqn_of_canHost (List.mem_of_find?_eq_some hhost)
    (List.find?_some hhost)
  refine ⟨fqn, hfqn, ?_⟩
  rw [State.host?, hhost, Option.bind_some, hfqn, Option.map_some]

def handedCalls (f : Family) (u : CompilationUnit) : List (Call × State) :=
  (editor f (f.shadowed u)).handed u.types
    { scopes := { package := u.packageName }, nextId := u.nextId }

theorem editor_obeys_rooted (f : Family) (u : CompilationUnit) :
    (editor f (f.shadowed u)).Obeys (lowering f (f.shadowed u) u.packageName) Place.Rooted
      (fun p s => RootedPath p ∧ Open f u.packageName p s) fun _ _ _ _ => True :=
  (editor_obeys_lowering f (f.shadowed u) u.packageName).rooted

theorem rooted_typesPlaces (ds : List TypeDecl) : ∀ x ∈ typesPlaces ds, x.Rooted := by
  rintro ⟨p, v⟩ hx d site rfl
  exact topLevel_iff_of_mem_typesPlaces hx

/-- What it means that hosts are chosen by the rule on a unit. -/
structure HostsFollowRule (f : Family) (u : CompilationUnit) : Prop where
  recording : (editor f (f.shadowed u)).recorded.types u.types
      ({ scopes := { package := u.packageName }, nextId := u.nextId }, []) =
    ((walk f u).1, ((walk f u).2, handedCalls f u))
  /-- Every call of the unit is handed over once, with the right host in reach. -/
  calls : Records KnowsHost (typesSites u.types) (handedCalls f u)
  watching : (editor f (f.shadowed u)).watched.types u.types
      { state := { scopes := { package := u.packageName }, nextId := u.nextId } } =
    ((walk f u).1, { state := (walk f u).2, notes := notes f u })
  /-- The same is true wherever else the walk comes by. -/
  everywhere : ∀ note ∈ notes f u, KnowsHost note.1 note.2

theorem hosts_follow_rule (f : Family) (u : CompilationUnit) : HostsFollowRule f u := by
  have hobeys := editor_obeys_rooted f u
  have hstart := open_start f u
  refine ⟨Editor.recorded_types _ u.types _, ?_, Editor.watched_types _ u.types _, ?_⟩
  · refine (hobeys.handed (rooted_typesPlaces u.types) ⟨trivial, hstart⟩).mono ?_
    exact fun h => h.2.knowsHost h.1
  · intro note hnote
    obtain ⟨hrooted, hopen⟩ :=
      hobeys.notes (rooted_typesPlaces u.types) ⟨trivial, hstart⟩ note hnote
    exact hopen.knowsHost hrooted

end FactoryHelpers

end FactoryLowering
