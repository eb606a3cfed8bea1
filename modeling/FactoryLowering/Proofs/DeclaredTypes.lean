import FactoryLowering.Family
import FactoryLowering.Proofs.OwnerChange.Shortening
import FactoryLowering.Proofs.Tree.DeclaredNames
import FactoryLowering.Proofs.TypeNames

/-! # Which declarations the search for a name finds

Whether a unit declares a type of some name is found out by a search through its top-level types and
their member types. The reading walk comes by more declarations than that: local types, and types in
anonymous classes. The search finds exactly those declarations that have neither around them.
-/
namespace FactoryLowering

namespace CompilationUnit

/-- The reading walk comes by a declaration of this name, wherever it stands. -/
def Declares (u : CompilationUnit) (name : String) : Prop :=
  ∃ d site, Visit.enterType d site ∈ typesVisits u.types ∧ d.name = name

/-- The same for a declaration that is not local and stands in no local type and no anonymous
class. -/
def DeclaresOpenly (u : CompilationUnit) (name : String) : Prop :=
  ∃ outer d site, ⟨outer, .enterType d site⟩ ∈ typesPlaces u.types ∧ d.name = name ∧
    ∀ e ∈ Enclosure.type d site :: outer, e.isNamed = true

theorem DeclaresOpenly.declares {u : CompilationUnit} {name : String}
    (h : u.DeclaresOpenly name) : u.Declares name := by
  obtain ⟨outer, d, site, hplace, hname, _⟩ := h
  exact ⟨d, site, visit_mem_of_mem_locate hplace, hname⟩

end CompilationUnit

theorem mem_namedTypes {vs : List Visit} {p path : Path} :
    path ∈ namedTypes p vs ↔ ∃ outer d site, path = .type d site :: outer ∧
      ⟨outer, .enterType d site⟩ ∈ locate p vs ∧ ∀ e ∈ path, e.isNamed = true := by
  rw [namedTypes, List.mem_filter, List.mem_filterMap, List.all_eq_true]
  constructor
  · rintro ⟨⟨⟨outer, v⟩, hplace, htype⟩, hnamed⟩
    cases v with
    | enterType d site =>
      cases htype
      exact ⟨outer, d, site, rfl, hplace, hnamed⟩
    | _ => cases htype
  · rintro ⟨outer, d, site, rfl, hplace, hnamed⟩
    exact ⟨⟨_, hplace, rfl⟩, hnamed⟩

theorem any_fst_of_forall₂_isEntry {u : CompilationUnit} {entries : List (String × String)}
    {paths : List Path} (h : List.Forall₂ (IsEntry u) entries paths) (name : String) :
    entries.any (·.1 == name) = true ↔
      ∃ path ∈ paths, path.head?.map Enclosure.simpleName = some name := by
  induction h with
  | nil => simp
  | @cons entry path entries paths hentry _ ih =>
    obtain ⟨hsimple, _⟩ := hentry
    rw [List.any_cons, Bool.or_eq_true, beq_iff_eq, ih, List.exists_mem_cons_iff, hsimple,
      Option.some.injEq]

theorem CompilationUnit.declaresType_iff (u : CompilationUnit) (name : String) :
    u.declaresType name = true ↔ u.DeclaresOpenly name := by
  rw [declaresType_eq, any_fst_of_forall₂_isEntry (NameTable.forall₂_declared u)]
  constructor
  · rintro ⟨path, hpath, hname⟩
    obtain ⟨outer, d, site, rfl, hplace, hnamed⟩ := mem_namedTypes.mp hpath
    exact ⟨outer, d, site, hplace, Option.some.inj hname, hnamed⟩
  · rintro ⟨outer, d, site, hplace, hname, hnamed⟩
    exact ⟨_, mem_namedTypes.mpr ⟨outer, d, site, rfl, hplace, hnamed⟩, congrArg some hname⟩

theorem CompilationUnit.simpleNameTaken_iff (u : CompilationUnit) (fqn : String) :
    u.simpleNameTaken fqn = true ↔
      u.importsOther fqn = true ∨ u.DeclaresOpenly (Text.simpleName fqn) := by
  rw [simpleNameTaken, Bool.or_eq_true, declaresType_iff]

/-- How the search for declared names compares with the reading walk, and what that means for the
two places that ask whether a simple name is taken. -/
structure FindsOpenDeclarations (u : CompilationUnit) : Prop where
  found : ∀ name, u.declaresType name = true ↔ u.DeclaresOpenly name
  /-- What is found is there. -/
  sound : ∀ name, u.declaresType name = true → u.Declares name
  /-- A name that is there is missed if and only if every declaration of it is local or stands in a
  local type or an anonymous class. -/
  missed : ∀ name, u.Declares name ∧ u.declaresType name = false ↔ u.Declares name ∧
    ∀ outer d site, ⟨outer, .enterType d site⟩ ∈ typesPlaces u.types → d.name = name →
      ∃ e ∈ Enclosure.type d site :: outer, e.isNamed = false
  shadowed : ∀ (f : Family) fqn, fqn ∈ f.shadowed u ↔
    fqn ∈ f.imports ∧ (u.importsOther fqn = true ∨ u.DeclaresOpenly (Text.simpleName fqn))
  declines : ∀ config log, ReceiverShortening.declines config u log = true ↔
    log.ids config.changeKey = [] ∨ u.importsType config.origin = true ∨
      u.importsOther config.target = true ∨ u.DeclaresOpenly (Text.simpleName config.target)

/-- The search finds the declarations that are open, and no others. -/
theorem search_finds_open_declarations (u : CompilationUnit) : FindsOpenDeclarations u where
  found := u.declaresType_iff
  sound name h := ((u.declaresType_iff name).mp h).declares
  missed name := by
    rw [and_congr_right_iff]
    intro _
    rw [← Bool.not_eq_true, u.declaresType_iff]
    constructor
    · intro hhidden outer d site hplace hname
      by_contra hopen
      apply hhidden
      refine ⟨outer, d, site, hplace, hname, fun e he => ?_⟩
      by_contra hunnamed
      exact hopen ⟨e, he, Bool.eq_false_iff.mpr hunnamed⟩
    · rintro hall ⟨outer, d, site, hplace, hname, hnamed⟩
      obtain ⟨e, he, hunnamed⟩ := hall outer d site hplace hname
      rw [hnamed e he] at hunnamed
      cases hunnamed
  shadowed f fqn := by
    rw [Family.shadowed, List.mem_filter, u.simpleNameTaken_iff]
  declines config log := by
    rw [ReceiverShortening.declines, Bool.or_eq_true, Bool.or_eq_true, u.simpleNameTaken_iff,
      List.isEmpty_iff, or_assoc]

def localList : CompilationUnit where
  types := [.classDecl { id := 0, name := "A" }
    [.method
      { head := { name := "run" }
        body := some { stmts := [.typeDecl (.classDecl { id := 1, name := "List" } [])]
                       span := {} } }]]
  nextId := 2

/-- The walk comes by the local class, but its name counts as free in both places. -/
theorem localList_is_not_found :
    localList.Declares "List" ∧ localList.declaresType "List" = false ∧
      Family.shadowed .list localList = [] ∧ localList.simpleNameTaken "com.acme.List" = false := by
  refine ⟨⟨.classDecl { id := 1, name := "List" } [], .inBlock, ?_, rfl⟩, ?_⟩
  · simp [localList, typesVisits, TypeDecl.visits, Member.visitsList, Member.visits,
      Block.visitsOption, Block.visits, Stmt.visitsList, Stmt.visits]
  · decide +kernel

end FactoryLowering
