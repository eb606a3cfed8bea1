import FactoryLowering.Attribution
import FactoryLowering.Proofs.FactoryHelpers.Walk
import FactoryLowering.Proofs.Tree.Watch

/-! # One name for each type

The full name of a type is worked out in three places: attribution keeps a stack of names on its
walk and has a table of declared names, and the helper pass keeps a stack of scopes. All of them
agree with one description, which takes the name from the path of the type: the simple names along
the path, joined to the package, unless something on the path is a local type or an anonymous class.
-/
namespace FactoryLowering

namespace Enclosure

def isNamed : Enclosure → Bool
  | .type _ site => site != .inBlock
  | .anonymous _ _ => false

def simpleName : Enclosure → String
  | .type d _ => d.name
  | .anonymous head _ => head.name

end Enclosure

namespace CompilationUnit

def pathName (u : CompilationUnit) (p : Path) : String :=
  u.qualify (p.reverse.map Enclosure.simpleName)

def pathName? (u : CompilationUnit) (p : Path) : Option String :=
  if p.all Enclosure.isNamed then some (u.pathName p) else none

def enclosingNames (u : CompilationUnit) : Path → List (Option String)
  | [] => []
  | e :: outer => u.pathName? (e :: outer) :: u.enclosingNames outer

theorem pathName_cons (u : CompilationUnit) (e : Enclosure) (outer : Path) :
    u.pathName (e :: outer) = Text.qualify (u.pathName outer) e.simpleName := by
  simp [pathName, qualify]

theorem pathName_ne_empty (u : CompilationUnit) {e : Enclosure} (h : e.simpleName ≠ "")
    (outer : Path) : (u.pathName (e :: outer)).isEmpty = false := by
  rw [pathName_cons, Text.qualify]
  split
  · simpa using h
  · simp

end CompilationUnit

/-- The types on a path have names, and the one that is outermost, and no other, is top-level. -/
def SitedPath : Path → Prop
  | [] => True
  | .type d site :: outer => (site = .topLevel ↔ outer = []) ∧ d.name ≠ "" ∧ SitedPath outer
  | .anonymous _ _ :: outer => SitedPath outer

def Place.Sited (x : Place) : Prop :=
  ∀ d site, x.visit = .enterType d site → (site = .topLevel ↔ x.path = []) ∧ d.name ≠ ""

section Path

variable {u : CompilationUnit} {d : TypeDecl} {site : TypeSite} {outer p : Path}

theorem pathName?_inType (h : SitedPath outer) (hne : outer ≠ []) :
    u.pathName? (.type d .inType :: outer) =
      (u.enclosingNames outer).head?.join.map fun name => name ++ "." ++ d.name := by
  obtain ⟨e, rest, rfl⟩ := List.exists_cons_of_ne_nil hne
  have hhead : (u.enclosingNames (e :: rest)).head?.join = u.pathName? (e :: rest) := rfl
  have hhere : (Enclosure.type d .inType).isNamed = true := rfl
  rw [hhead, CompilationUnit.pathName?, CompilationUnit.pathName?, List.all_cons, hhere,
    Bool.true_and]
  by_cases hnamed : (e :: rest).all Enclosure.isNamed = true
  · cases e with
    | anonymous head ms => cases hnamed
    | type outerDecl outerSite =>
      obtain ⟨_, hname, _⟩ := h
      have hnonempty := u.pathName_ne_empty (e := .type outerDecl outerSite) hname rest
      rw [if_pos hnamed, if_pos hnamed, CompilationUnit.pathName_cons, Text.qualify, hnonempty]
      rfl
  · rw [if_neg hnamed, if_neg hnamed]
    rfl

theorem pathName?_type (h : SitedPath (.type d site :: outer)) :
    u.pathName? (.type d site :: outer) =
      match site with
      | .topLevel => some (Text.qualify u.packageName d.name)
      | .inType => (u.enclosingNames outer).head?.join.map fun name => name ++ "." ++ d.name
      | .inBlock => none := by
  obtain ⟨hsite, _, houter⟩ := h
  cases site with
  | topLevel =>
    obtain rfl := hsite.mp rfl
    rfl
  | inType => exact pathName?_inType houter fun hnil => nomatch hsite.mpr hnil
  | inBlock => rfl

theorem package_scopesAt (package : String) (p : Path) :
    (scopesAt package p).package = package := by
  induction p with
  | nil => rfl
  | cons e outer ih => cases e <;> exact ih

theorem map_fqn_scopesAt (h : SitedPath p) :
    (scopesAt u.packageName p).frames.map (·.fqn) = u.enclosingNames p := by
  induction p with
  | nil => rfl
  | cons e outer ih =>
    cases e with
    | anonymous head ms => exact congrArg (none :: ·) (ih h)
    | type d site =>
      have hrest := ih h.2.2
      have houter : (scopesAt u.packageName outer).current?.bind (·.fqn) =
          (u.enclosingNames outer).head?.join := by
        rw [← hrest, ScopeStack.current?]
        cases (scopesAt u.packageName outer).frames <;> rfl
      have hname : (scopesAt u.packageName outer).nameAt d.name site =
          u.pathName? (.type d site :: outer) := by
        rw [pathName?_type h]
        cases site with
        | topLevel => rw [ScopeStack.nameAt, package_scopesAt]
        | inType => rw [ScopeStack.nameAt, houter]
        | inBlock => rfl
      rw [CompilationUnit.enclosingNames, ← hname, ← hrest]
      rfl

end Path

theorem not_topLevel_mem : Hereditary fun K _ a => K.hides true = true →
    ∀ d, Visit.enterType d .topLevel ∉ K.visits a where
  unit _ _ h := nomatch h
  pair {_ _ K L p a b} _ ha hb hides d hd := by
    have hboth : (K.hides true && L.hides true) = true := hides
    rw [Bool.and_eq_true] at hboth
    rcases List.mem_append.mp hd with hd | hd
    · exact ha hboth.1 d hd
    · exact hb hboth.2 d hd
  node {_ _ K L} build own refs {p a} n ha hides d hd := by
    rw [n.visits] at hd
    rcases List.mem_append.mp hd with hd | hd
    · exact (n.quiet a _ hd).elim False.elim False.elim
    · exact ha (n.hides true hides) d hd
  call {p} c hr ha _ d hd := by
    have hd : Visit.enterType d .topLevel ∈ (Expr.call c).visits := hd
    rw [Expr.visits_call] at hd
    simp only [List.mem_cons, List.mem_append, reduceCtorEq, false_or] at hd
    rcases hd with hd | hd
    · exact hr rfl d hd
    · exact ha rfl d hd
  anonymous {p head ms} hms _ d hd := by
    have hd : Visit.enterType d .topLevel ∈
      .enterAnonymous head ms :: (Member.visitsList ms ++ [.leaveAnonymous head ms]) := hd
    simp only [List.mem_cons, List.mem_append, List.not_mem_nil, reduceCtorEq, false_or,
      or_false] at hd
    exact hms rfl d hd
  type {p site d} hd hides d' hd' := by
    have hd' : Visit.enterType d' .topLevel ∈ d.visits site := hd'
    rw [TypeDecl.visits_eq] at hd'
    simp only [List.mem_cons, List.mem_append, List.not_mem_nil, reduceCtorEq, or_false] at hd'
    rcases hd' with heq | hd'
    · cases heq
      cases hides
    · exact hd rfl d' hd'

theorem visit_mem_of_mem_locate {vs : List Visit} {p : Path} {x : Place} (h : x ∈ locate p vs) :
    x.visit ∈ vs := by
  induction vs generalizing p with
  | nil => cases h
  | cons v vs ih =>
    rcases List.mem_cons.mp h with rfl | h
    · exact List.mem_cons_self
    · exact List.mem_cons_of_mem v (ih h)

theorem topLevel_iff_of_mem_typesPlaces {ds : List TypeDecl} {p : Path} {d : TypeDecl}
    {site : TypeSite} (h : ⟨p, .enterType d site⟩ ∈ typesPlaces ds) :
    site = .topLevel ↔ p = [] := by
  induction ds with
  | nil => cases h
  | cons outer ds ih =>
    rw [typesPlaces, typesVisits, List.flatMap_cons, locate_append (outer.visits_level .topLevel),
      TypeDecl.locate_visits] at h
    rcases List.mem_append.mp h with h | h
    · simp only [List.mem_cons, List.mem_append, List.not_mem_nil, Place.mk.injEq, reduceCtorEq,
        and_false, or_false] at h
      rcases h with ⟨rfl, heq⟩ | h
      · cases heq
        exact iff_of_true rfl rfl
      · -- inside the type the path is no longer empty, and nothing is called top-level
        have hbody := Hereditary.typeDecl not_topLevel_mem .inType outer []
        have hinside : [.type outer .topLevel] <:+ p := outer.innerVisits_level.within _ _ h
        refine iff_of_false ?_ ?_
        · rintro rfl
          refine hbody rfl d ?_
          have hvisits : (Kind.typeDecl .inType).visits outer = outer.visits .inType := rfl
          rw [hvisits, TypeDecl.visits_eq]
          exact List.mem_cons_of_mem _ (List.mem_append_left _ (visit_mem_of_mem_locate h))
        · rintro rfl
          cases List.suffix_nil.mp hinside
    · exact ih h

def Place.typePath? (x : Place) : Option Path :=
  match x.visit with
  | .enterType d site => some (.type d site :: x.path)
  | _ => none

/-- The paths of the types that have a full name, in the order in which they are entered. These are
the top-level types, their member types, the member types of those, and so on. -/
def namedTypes (p : Path) (vs : List Visit) : List Path :=
  ((locate p vs).filterMap Place.typePath?).filter (·.all Enclosure.isNamed)

section NamedTypes

variable {p : Path}

theorem namedTypes_append {vs : List Visit} (h : Level vs) (p : Path) (ws : List Visit) :
    namedTypes p (vs ++ ws) = namedTypes p vs ++ namedTypes p ws := by
  rw [namedTypes, locate_append h, List.filterMap_append, List.filter_append, namedTypes,
    namedTypes]

theorem namedTypes_quiet {vs : List Visit} (h : ∀ v ∈ vs, v.Quiet) (p : Path) :
    namedTypes p vs = [] := by
  have hnone : (locate p vs).filterMap Place.typePath? = [] := by
    refine List.filterMap_eq_nil_iff.mpr ?_
    rintro ⟨path, v⟩ hx
    have hquiet : v.Quiet := h v (visit_mem_of_mem_locate hx)
    cases v <;> first | rfl | exact hquiet.elim False.elim False.elim
  rw [namedTypes, hnone, List.filter_nil]

theorem namedTypes_skip {refs : List Visit} (h : ∀ v ∈ refs, v.Unannounced) (p : Path)
    (vs : List Visit) : namedTypes p (refs ++ vs) = namedTypes p vs := by
  have hquiet : ∀ v ∈ refs, v.Quiet := fun v hv => .inr (h v hv)
  rw [namedTypes_append (.quiet hquiet), namedTypes_quiet hquiet, List.nil_append]

theorem namedTypes_memberNode (p : Path) (m : Member) (vs : List Visit) :
    namedTypes p (.member m :: vs) = namedTypes p vs := rfl

theorem namedTypes_visits (p : Path) (site : TypeSite) (d : TypeDecl) :
    namedTypes p (d.visits site) =
      (if (Enclosure.type d site :: p).all Enclosure.isNamed then [.type d site :: p] else []) ++
        namedTypes (.type d site :: p) d.innerVisits := by
  have hself : Place.typePath? ⟨p, .enterType d site⟩ = some (.type d site :: p) := rfl
  have hleave : [(⟨.type d site :: p, .leaveType d⟩ : Place)].filterMap Place.typePath? = [] := rfl
  rw [namedTypes, TypeDecl.locate_visits, List.filterMap_cons_some hself, List.filterMap_append,
    hleave, List.append_nil, List.filter_cons, namedTypes]
  split <;> rfl

theorem namedTypes_anonymous (p : Path) (head : ClassHead) (ms : List Member) :
    namedTypes p ((Kind.anonymous head).visits ms) =
      namedTypes (.anonymous head ms :: p) (Member.visitsList ms) := by
  have hplaces : locate p ((Kind.anonymous head).visits ms) = _ := locate_anonymous p head ms
  have hself : Place.typePath? ⟨p, .enterAnonymous head ms⟩ = none := rfl
  have hleave : [(⟨.anonymous head ms :: p, .leaveAnonymous head ms⟩ : Place)].filterMap
    Place.typePath? = [] := rfl
  rw [namedTypes, hplaces, List.filterMap_cons_none hself, List.filterMap_append, hleave,
    List.append_nil, namedTypes]

theorem namedTypes_call (p : Path) (c : Call) :
    namedTypes p (Expr.call c).visits =
      namedTypes p (Expr.visitsOption c.receiver) ++ namedTypes p (Expr.visitsList c.args) := by
  rw [← namedTypes_append (Expr.visitsOption_level c.receiver), namedTypes, namedTypes,
    Expr.visits_call]
  rfl

theorem namedTypes_of_hides : Hereditary fun K p a =>
    K.hides (!p.all Enclosure.isNamed) = true → namedTypes p (K.visits a) = [] where
  unit _ := rfl
  pair {_ _ K L p a b} level ha hb hides := by
    have hboth : (K.hides _ && L.hides _) = true := hides
    rw [Bool.and_eq_true] at hboth
    have hvisits : (K.prod L).visits (a, b) = K.visits a ++ L.visits b := rfl
    rw [hvisits, namedTypes_append (level a), ha hboth.1, hb hboth.2, List.append_nil]
  node {_ _ K L} build own refs {p a} n ha hides := by
    rw [n.visits, namedTypes_append (.quiet (n.quiet a)), namedTypes_quiet (n.quiet a),
      ha (n.hides _ hides), List.nil_append]
  call {p} c hr ha _ := by
    have hcall : namedTypes p (Kind.expr.visits (.call c)) = _ := namedTypes_call p c
    have hreceiver : namedTypes p (Expr.visitsOption c.receiver) = [] := hr rfl
    have hargs : namedTypes p (Expr.visitsList c.args) = [] := ha rfl
    rw [hcall, hreceiver, hargs, List.append_nil]
  anonymous {p head ms} hms _ := by
    rw [namedTypes_anonymous]
    exact hms rfl
  type {p site d} hd hides := by
    have hunnamed : (Enclosure.type d site :: p).all Enclosure.isNamed = false := by
      cases site with
      | topLevel => cases hides
      | inType => simpa [Kind.typeDecl, Enclosure.isNamed] using hides
      | inBlock => rfl
    have hinner : namedTypes (.type d site :: p) d.innerVisits = [] := by
      refine hd ?_
      rw [hunnamed]
      rfl
    have htype : namedTypes p ((Kind.typeDecl site).visits d) = _ := namedTypes_visits p site d
    rw [htype, hunnamed, hinner]
    rfl

/-- An entry of the table of declared names for the type at a path. -/
def IsEntry (u : CompilationUnit) (entry : String × String) (p : Path) : Prop :=
  p.head?.map Enclosure.simpleName = some entry.1 ∧ entry.2 = u.pathName p

theorem forall₂_isEntry_type {u : CompilationUnit} {site : TypeSite} {d : TypeDecl}
    {names : List (String × String)}
    (hnamed : (Enclosure.type d site :: p).all Enclosure.isNamed = true)
    (hinner : List.Forall₂ (IsEntry u) names (namedTypes (.type d site :: p) d.innerVisits)) :
    List.Forall₂ (IsEntry u) ((d.name, Text.qualify (u.pathName p) d.name) :: names)
      (namedTypes p (d.visits site)) := by
  rw [namedTypes_visits, if_pos hnamed]
  exact .cons ⟨rfl, (u.pathName_cons (.type d site) p).symm⟩ hinner

theorem namedTypes_member {m : Member} (h : ∀ d, m ≠ .typeDecl d) (p : Path) :
    namedTypes p m.visits = [] := by
  cases m with
  | field head init =>
    rw [Member.visits, namedTypes_memberNode]
    exact namedTypes_of_hides.exprOption init p rfl
  | method m =>
    obtain ⟨head, body⟩ := m
    rw [Member.visits, namedTypes_memberNode, namedTypes_skip head.unannounced]
    exact namedTypes_of_hides.blockOption body p rfl
  | constructorDecl head body =>
    rw [Member.visits, namedTypes_memberNode, namedTypes_skip (unannounced_parameters _)]
    exact namedTypes_of_hides.block body p rfl
  | initializer isStatic body span =>
    rw [Member.visits, namedTypes_memberNode]
    exact namedTypes_of_hides.block body p rfl
  | typeDecl d => exact absurd rfl (h d)

theorem namedTypes_visitsList (p : Path) (m : Member) (ms : List Member) :
    namedTypes p (Member.visitsList (m :: ms)) =
      namedTypes p m.visits ++ namedTypes p (Member.visitsList ms) := by
  rw [Member.visitsList, namedTypes_append m.visits_level]

end NamedTypes

mutual

theorem TypeDecl.forall₂_isEntry (u : CompilationUnit) {site : TypeSite} (hsite : site ≠ .inBlock) :
    ∀ (d : TypeDecl) {p : Path}, p.all Enclosure.isNamed = true →
      List.Forall₂ (IsEntry u) (d.declaredNames (u.pathName p)) (namedTypes p (d.visits site))
  | .classDecl head members, p, hp => by
    have hnamed :
        (Enclosure.type (.classDecl head members) site :: p).all Enclosure.isNamed = true := by
      simp [Enclosure.isNamed, hsite, hp]
    have hinner := Member.forall₂_isEntry u members hnamed
    rw [← namedTypes_skip head.unannounced, CompilationUnit.pathName_cons] at hinner
    exact forall₂_isEntry_type hnamed hinner
  | .interfaceDecl head members, p, hp => by
    have hnamed :
        (Enclosure.type (.interfaceDecl head members) site :: p).all Enclosure.isNamed = true := by
      simp [Enclosure.isNamed, hsite, hp]
    have hinner := Member.forall₂_isEntry u members hnamed
    rw [← namedTypes_skip head.unannounced, CompilationUnit.pathName_cons] at hinner
    exact forall₂_isEntry_type hnamed hinner
  | .enumDecl head constants members, p, hp => by
    have hnamed :
        (Enclosure.type (.enumDecl head constants members) site :: p).all Enclosure.isNamed =
          true := by
      simp [Enclosure.isNamed, hsite, hp]
    have hinner := Member.forall₂_isEntry u members hnamed
    -- types in the arguments of constants stand in anonymous classes
    have hconstants : namedTypes (.type (.enumDecl head constants members) site :: p)
        (EnumConstant.visitsList constants) = [] := namedTypes_of_hides.constantList constants _ rfl
    rw [← List.nil_append (namedTypes _ _), ← hconstants,
      ← namedTypes_append (EnumConstant.visitsList_level constants),
      ← namedTypes_skip head.unannounced, ← List.append_assoc,
      CompilationUnit.pathName_cons] at hinner
    exact forall₂_isEntry_type hnamed hinner
  termination_by structural d => d

theorem Member.forall₂_isEntry (u : CompilationUnit) :
    ∀ (ms : List Member) {p : Path}, p.all Enclosure.isNamed = true →
      List.Forall₂ (IsEntry u) (Member.declaredNames (u.pathName p) ms)
        (namedTypes p (Member.visitsList ms))
  | [], _, _ => .nil
  | .typeDecl d :: ms, p, hp => by
    rw [namedTypes_visitsList, Member.visits, namedTypes_memberNode]
    exact List.rel_append (TypeDecl.forall₂_isEntry u (by decide) d hp)
      (Member.forall₂_isEntry u ms hp)
  | .field head init :: ms, p, hp => by
    rw [namedTypes_visitsList, namedTypes_member (by simp), List.nil_append]
    exact Member.forall₂_isEntry u ms hp
  | .method m :: ms, p, hp => by
    rw [namedTypes_visitsList, namedTypes_member (by simp), List.nil_append]
    exact Member.forall₂_isEntry u ms hp
  | .constructorDecl head body :: ms, p, hp => by
    rw [namedTypes_visitsList, namedTypes_member (by simp), List.nil_append]
    exact Member.forall₂_isEntry u ms hp
  | .initializer isStatic body span :: ms, p, hp => by
    rw [namedTypes_visitsList, namedTypes_member (by simp), List.nil_append]
    exact Member.forall₂_isEntry u ms hp
  termination_by structural ms => ms

end

/-- The table lists the types that have a full name, in the order in which they are entered. -/
theorem NameTable.forall₂_declared (u : CompilationUnit) :
    List.Forall₂ (IsEntry u) (NameTable.ofUnit u).declared
      (namedTypes [] (typesVisits u.types)) := by
  have hsite : TypeSite.topLevel ≠ .inBlock := by decide
  have hall : ∀ ds : List TypeDecl, List.Forall₂ (IsEntry u)
      (ds.flatMap (TypeDecl.declaredNames u.packageName)) (namedTypes [] (typesVisits ds)) := by
    intro ds
    induction ds with
    | nil => exact .nil
    | cons d ds ih =>
      rw [List.flatMap_cons, typesVisits, List.flatMap_cons,
        namedTypes_append (d.visits_level .topLevel)]
      exact List.rel_append (d.forall₂_isEntry u hsite (p := []) rfl) ih
  exact hall u.types

theorem lookup_of_forall₂_isEntry {u : CompilationUnit} {entries : List (String × String)}
    {paths : List Path} (h : List.Forall₂ (IsEntry u) entries paths) (name : String) :
    entries.lookup name =
      (paths.find? fun p => p.head?.map Enclosure.simpleName == some name).map u.pathName := by
  induction h with
  | nil => rfl
  | @cons entry p entries paths hentry _ ih =>
    obtain ⟨simple, full⟩ := entry
    obtain ⟨hsimple, hfull⟩ := hentry
    rw [List.lookup_cons, List.find?_cons, hsimple]
    by_cases hname : simple = name
    · subst hname
      simpa using hfull
    · have hother : (some simple == some name) = false := by simpa using hname
      have hother' : (name == simple) = false := by simpa using Ne.symm hname
      rw [hother, hother', ih]

def Visit.hasName : Visit → Bool
  | .enterType d _ => d.name != ""
  | _ => true

/-- All type declarations of the unit have names, wherever they stand. -/
def CompilationUnit.TypesHaveNames (u : CompilationUnit) : Prop :=
  ∀ v ∈ typesVisits u.types, v.hasName = true

instance (u : CompilationUnit) : Decidable u.TypesHaveNames :=
  inferInstanceAs (Decidable (∀ v ∈ typesVisits u.types, v.hasName = true))

theorem CompilationUnit.TypesHaveNames.sited {u : CompilationUnit} (h : u.TypesHaveNames) :
    ∀ x ∈ typesPlaces u.types, x.Sited := by
  rintro ⟨p, v⟩ hx d site rfl
  have hname : (Visit.enterType d site).hasName = true := h _ (visit_mem_of_mem_locate hx)
  exact ⟨topLevel_iff_of_mem_typesPlaces hx, by simpa [Visit.hasName] using hname⟩

/-- No rule at all. -/
def Rewriting.any : Rewriting where
  call _ _ _ _ _ := True
  type _ _ _ _ _ _ := True

namespace Attribution

variable {u : CompilationUnit} {p : Path} {s : State}

/-- The state of a walk at a path. -/
structure Named (u : CompilationUnit) (p : Path) (s : State) : Prop where
  sited : SitedPath p
  enclosing : s.enclosing = u.enclosingNames p

theorem enclosing_bindTo (c : Call) (owner : Option String) (s : State) :
    (bindTo c owner s).2.enclosing = s.enclosing := by
  cases owner <;> rfl

theorem enclosing_bindCall (table : NameTable) (c : Call) (s : State) :
    (bindCall table c s).2.enclosing = s.enclosing := by
  obtain ⟨id, receiver, name, args, method, span⟩ := c
  cases method with
  | some method => rfl
  | none =>
    cases receiver with
    | none => exact enclosing_bindTo _ _ s
    | some e => exact enclosing_bindTo _ _ s

theorem Named.enclosingName_eq {d : TypeDecl} {site : TypeSite} (h : Named u p s)
    (hsited : SitedPath (.type d site :: p)) :
    enclosingName (.ofUnit u) s d.name site = u.pathName? (.type d site :: p) := by
  rw [pathName?_type hsited]
  cases site with
  | topLevel => rfl
  | inType => rw [enclosingName, h.enclosing]
  | inBlock => rfl

theorem editor_obeys_named (u : CompilationUnit) :
    (editor (.ofUnit u)).Obeys .any Place.Sited (Named u) fun _ _ _ _ => True where
  refl _ := trivial
  trans _ _ := trivial
  visit {p v s} hv hs := by
    cases v <;> first | exact hv.elim | exact ⟨hs, trivial⟩
  skip _ _ := trivial
  enterCall hs := hs
  call {p c receiver args xs s t} _ _ _ ht _ _ := by
    refine ⟨fun _ => trivial, ⟨ht.sited, ?_⟩, trivial⟩
    exact (enclosing_bindCall (.ofUnit u) { c with receiver, args } t).trans ht.enclosing
  enterType {p d site s} hok hs := by
    obtain ⟨hsite, hname⟩ := hok d site rfl
    have hsited : SitedPath (.type d site :: p) := ⟨hsite, hname, hs.sited⟩
    refine ⟨hsited, ?_⟩
    rw [CompilationUnit.enclosingNames, ← hs.enclosingName_eq hsited, ← hs.enclosing]
    rfl
  leaveType {p d d' site s t} _ hs _ ht _ := by
    refine ⟨fun _ => trivial, ⟨hs.sited, ?_⟩, trivial⟩
    exact congrArg List.tail ht.enclosing
  enterAnonymous {p head ms s} hs := ⟨hs.sited, congrArg (none :: ·) hs.enclosing⟩
  leaveAnonymous {p head ms ms' s t} hs _ ht _ :=
    ⟨⟨hs.sited, congrArg List.tail ht.enclosing⟩, trivial⟩

def notes (u : CompilationUnit) : List (Path × State) := (editor (.ofUnit u)).notes u.types {}

theorem notes_named (hnames : u.TypesHaveNames) : ∀ x ∈ notes u, Named u x.1 x.2 :=
  (editor_obeys_named u).notes hnames.sited ⟨trivial, rfl⟩

end Attribution

namespace FactoryHelpers

def notes (f : Family) (u : CompilationUnit) : List (Path × State) :=
  (editor f (f.shadowed u)).notes u.types
    { scopes := { package := u.packageName }, nextId := u.nextId }

theorem notes_open (f : Family) (u : CompilationUnit) :
    ∀ x ∈ notes f u, Open f u.packageName x.1 x.2 :=
  (editor_obeys_lowering f (f.shadowed u) u.packageName).notes (fun _ _ => trivial) (open_start f u)

end FactoryHelpers

/-- What it means that the names of types agree on a unit. -/
structure NamesAgree (f : Family) (u : CompilationUnit) : Prop where
  /-- Notes are taken on the walks themselves, for watching changes nothing. -/
  watching : ∀ (σ : Type) (editor : Editor σ) (s : σ),
    editor.watched.types u.types { state := s } = ((editor.types u.types s).1,
      { state := (editor.types u.types s).2, notes := editor.notes u.types s })
  /-- Notes are taken at every position, in the order of the walk. -/
  reached : (positions [] (typesVisits u.types)).Sublist ((Attribution.notes u).map (·.1))
  frames : (Attribution.notes u).map (fun x => (x.1, x.2.enclosing)) =
    (FactoryHelpers.notes f u).map fun x => (x.1, x.2.scopes.frames.map (·.fqn))
  names : ∀ x ∈ Attribution.notes u, x.2.enclosing = u.enclosingNames x.1
  /-- A simple name means the first type of that name that has a full name. -/
  declared : ∀ name, (NameTable.ofUnit u).declared.lookup name =
    ((namedTypes [] (typesVisits u.types)).find? fun p =>
      p.head?.map Enclosure.simpleName == some name).map u.pathName

/-- If no type declaration goes without a name, all names of types agree. -/
theorem type_names_agree (f : Family) (u : CompilationUnit) (hnames : u.TypesHaveNames) :
    NamesAgree f u := by
  have hnamed := Attribution.notes_named hnames
  have hsited : ∀ x ∈ FactoryHelpers.notes f u, SitedPath x.1 :=
    Editor.forall_path_notes (fun x hx => (hnamed x hx).sited) _ _
  have hframes : ∀ x ∈ FactoryHelpers.notes f u,
      x.2.scopes.frames.map (·.fqn) = u.enclosingNames x.1 := by
    intro x hx
    rw [(FactoryHelpers.notes_open f u x hx).scopes]
    exact map_fqn_scopesAt (hsited x hx)
  refine ⟨?_, ?_, ?_, ?_, ?_⟩
  · exact fun _ editor s => editor.watched_types u.types s
  · exact Editor.positions_sublist_notes _ u.types _
  · refine Editor.map_notes_eq u.enclosingNames Attribution.State.enclosing
      (fun t : FactoryHelpers.State => t.scopes.frames.map (·.fqn)) ?_ ?_
    · exact fun x hx => (hnamed x hx).enclosing
    · exact hframes
  · exact fun x hx => (hnamed x hx).enclosing
  · exact lookup_of_forall₂_isEntry (NameTable.forall₂_declared u)

/-- In the package `p`, `class A` has a method with a local `class B` that has a member `class C`,
and a member `enum B` with a constant made from an anonymous class, which has a member `class C`
too. A second top-level type is called `C`. -/
def nestedNames : CompilationUnit where
  package := some "p"
  types :=
    [.classDecl { id := 0, name := "A" }
      [.method
          { head := { name := "run" }
            body := some { stmts := [.typeDecl localType], span := {} } },
        .typeDecl (.enumDecl { id := 3, name := "B" }
          [{ name := "ONE", args := [.newAnonymous { name := "C" } [] { id := 4, name := "" }
            [.typeDecl (.classDecl { id := 5, name := "C" } [])] {}], span := {} }] [])],
      .interfaceDecl { id := 6, name := "C" } []]
  nextId := 7
where
  localType : TypeDecl :=
    .classDecl { id := 1, name := "B" } [.typeDecl (.classDecl { id := 2, name := "C" } [])]

theorem type_names_agree_on_nestedNames :
    nestedNames.TypesHaveNames ∧
    ((NameTable.ofUnit nestedNames).declared.lookup "B" = some "p.A.B" ∧
      (NameTable.ofUnit nestedNames).declared.lookup "C" = some "p.C") ∧
    NamesAgree .list nestedNames := by
  have hnames : nestedNames.TypesHaveNames := by decide
  exact ⟨hnames, by decide +kernel, type_names_agree .list nestedNames hnames⟩

end FactoryLowering
