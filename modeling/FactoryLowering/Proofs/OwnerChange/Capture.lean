import FactoryLowering.Proofs.DeclaredTypes
import FactoryLowering.Proofs.OwnerChange.Idempotence

/-! # What the import of a shortened receiver can capture

Before receivers are shortened, the simple name of the target is looked up among the single imports
and the declared types of the unit, and nowhere else. So the import that is added binds a name that
neither of them bound, and all other names keep their meaning. A name that the unit took from a
package imported on demand is not looked for, nor is that of a local type, and it can be captured.
-/
namespace FactoryLowering

theorem lookup_filter {α : Type} (name : String) (entries : List (String × α)) :
    (entries.filter fun entry => name == entry.1).lookup name = entries.lookup name := by
  induction entries with
  | nil => rfl
  | cons entry rest ih =>
    obtain ⟨key, value⟩ := entry
    cases hkey : name == key with
    | true => simp [List.lookup_cons, hkey]
    | false => simpa [List.lookup_cons, hkey] using ih

namespace NameTable

variable {u : CompilationUnit} {name fqn : String}

/-- What a name means by `java.lang` and the packages imported on demand alone. -/
def outside? (table : NameTable) (name : String) : Option String :=
  if !Text.startsUppercase name then none
  else (("java.lang" :: table.onDemand).map (· ++ "." ++ name)).find? isKnownType

theorem lookup_single (u : CompilationUnit) (name : String) :
    (ofUnit u).single.reverse.lookup name =
      (((u.imports.filter (·.boundName? == some name)).map
        fun i => (Text.simpleName i.name, i.name)).reverse).lookup name := by
  have hbound : (fun i : ImportDecl => i.boundName? == some name) =
      fun i => name == Text.simpleName i.name && i.isSingle := by
    funext i
    cases hsingle : i.isSingle with
    | false => simp [ImportDecl.boundName?, hsingle]
    | true => simp [ImportDecl.boundName?, hsingle, BEq.comm]
  rw [← lookup_filter, List.filter_reverse, hbound, ← List.filter_filter, ofUnit, List.filter_map]
  rfl

theorem lookup_single_eq_none (h : ∀ i ∈ u.imports, i.boundName? ≠ some name) :
    (ofUnit u).single.reverse.lookup name = none := by
  have hnone : u.imports.filter (·.boundName? == some name) = [] :=
    List.filter_eq_nil_iff.mpr fun i hi => by simpa using h i hi
  rw [lookup_single, hnone]
  rfl

theorem lookup_declared_eq_none (h : u.declaresType name = false) :
    (ofUnit u).declared.lookup name = none := by
  rw [CompilationUnit.declaresType_eq, List.any_eq_false] at h
  rw [← lookup_filter]
  have hnone : (ofUnit u).declared.filter (fun entry => name == entry.1) = [] :=
    List.filter_eq_nil_iff.mpr fun entry hentry => by
      rw [BEq.comm]
      exact h entry hentry
  rw [hnone]
  rfl

theorem resolve?_eq_outside? (hsingle : ∀ i ∈ u.imports, i.boundName? ≠ some name)
    (hdeclared : u.declaresType name = false) :
    (ofUnit u).resolve? name = (ofUnit u).outside? name := by
  rw [resolve?, lookup_single_eq_none hsingle, lookup_declared_eq_none hdeclared, outside?]
  rfl

theorem boundName?_single (fqn : String) :
    (ImportDecl.single fqn).boundName? = some (Text.simpleName fqn) := rfl

theorem resolve?_withImport_of_ne (h : name ≠ Text.simpleName fqn) :
    (ofUnit (u.withImport fqn)).resolve? name = (ofUnit u).resolve? name := by
  have hkept : (u.withImport fqn).imports.filter (·.boundName? == some name) =
      u.imports.filter (·.boundName? == some name) :=
    filter_insertImport _ (by simpa [boundName?_single] using Ne.symm h) u.imports
  have hpackages : (u.withImport fqn).imports.filter (fun i => !i.isStatic && i.isWildcard) =
      u.imports.filter fun i => !i.isStatic && i.isWildcard :=
    filter_insertImport _ rfl u.imports
  have hdemand : (ofUnit (u.withImport fqn)).onDemand = (ofUnit u).onDemand :=
    congrArg (List.map ImportDecl.name) hpackages
  have hdeclared : (ofUnit (u.withImport fqn)).declared = (ofUnit u).declared := rfl
  rw [resolve?, resolve?, lookup_single, lookup_single, hkept, hdemand, hdeclared]

theorem resolve?_withImport_self (h : ∀ i ∈ u.imports, i.boundName? ≠ some (Text.simpleName fqn)) :
    (ofUnit (u.withImport fqn)).resolve? (Text.simpleName fqn) =
      if Text.startsUppercase (Text.simpleName fqn) then some fqn else none := by
  have hperm := (insertImport_perm fqn u.imports).filter
    (·.boundName? == some (Text.simpleName fqn))
  have hnone : u.imports.filter (·.boundName? == some (Text.simpleName fqn)) = [] :=
    List.filter_eq_nil_iff.mpr fun i hi => by simpa using h i hi
  rw [List.filter_cons_of_pos (by simp [boundName?_single]), hnone, List.perm_singleton] at hperm
  have honly : (ofUnit (u.withImport fqn)).single.reverse.lookup (Text.simpleName fqn) =
      some fqn := by
    have himports : (u.withImport fqn).imports = insertImport fqn u.imports := rfl
    rw [lookup_single, himports, hperm]
    simp [ImportDecl.single]
  rw [resolve?, honly]
  cases Text.startsUppercase (Text.simpleName fqn) <;> rfl

/-- A type that needs an import is not found in `java.lang` or in a package imported on demand. -/
theorem outside?_ne_of_needsImport (h : u.needsImport fqn = true) :
    (ofUnit u).outside? (Text.simpleName fqn) ≠ some fqn := by
  simp only [CompilationUnit.needsImport, Bool.not_eq_true', Bool.or_eq_false_iff,
    beq_eq_false_iff_ne] at h
  obtain ⟨⟨⟨_, hlang⟩, _⟩, himports⟩ := h
  intro hfound
  unfold outside? at hfound
  split at hfound
  · cases hfound
  · obtain ⟨package, hpackage, hname⟩ := List.mem_map.mp (List.mem_of_find?_eq_some hfound)
    have hown := Text.packageName_eq_of_append hname.symm
    rcases List.mem_cons.mp hpackage with rfl | hdemand
    · exact hlang hown
    · obtain ⟨i, hi, rfl⟩ := List.mem_map.mp hdemand
      obtain ⟨himport, hkind⟩ := List.mem_filter.mp hi
      rw [Bool.and_eq_true] at hkind
      refine List.any_eq_false.mp himports i himport ?_
      simp [ImportDecl.provides, hkind, hown]

end NameTable

namespace ReceiverShortening

variable {config : Config} {u : CompilationUnit} {log : ChangeLog}

/-- When the import of the target is added. Whether the unit uses the name is not asked. -/
structure AddsImport (config : Config) (u : CompilationUnit) (log : ChangeLog) : Prop where
  recorded : ∃ c ∈ callsOf (typesVisits u.types), c.id ∈ log.ids config.changeKey ∧
    ∃ receiver, c.receiver = some receiver ∧ receiver.spellsOut config.target = true
  origin : u.importsType config.origin = false
  needed : u.needsImport config.target = true
  unbound : ∀ i ∈ u.imports, i.boundName? ≠ some (Text.simpleName config.target)
  undeclared : ¬ u.DeclaresOpenly (Text.simpleName config.target)

/-- What the new import does to the meaning of names: all but one keep theirs. That one came from
`java.lang` or a package imported on demand, or meant nothing. -/
structure BindsFreeName (config : Config) (u out : CompilationUnit) : Prop where
  imports : out.imports = insertImport config.target u.imports
  others : ∀ name, name ≠ Text.simpleName config.target →
    (NameTable.ofUnit out).resolve? name = (NameTable.ofUnit u).resolve? name
  before : (NameTable.ofUnit u).resolve? (Text.simpleName config.target) =
    (NameTable.ofUnit u).outside? (Text.simpleName config.target)
  after : (NameTable.ofUnit out).resolve? (Text.simpleName config.target) =
    if Text.startsUppercase (Text.simpleName config.target) then some config.target else none
  changes : (NameTable.ofUnit out).resolve? (Text.simpleName config.target) ≠
      (NameTable.ofUnit u).resolve? (Text.simpleName config.target) ↔
    Text.startsUppercase (Text.simpleName config.target) = true

theorem shortening_keepsNames (target : String) (logged : List NodeId) :
    (shortening target logged).KeepsNames := by
  intro p q site d d' new h outer
  obtain rfl : new = d' := h
  rfl

theorem candidates_pos_iff : 0 < candidates config u log ↔
    ∃ c ∈ callsOf (typesVisits u.types), c.id ∈ log.ids config.changeKey ∧
      ∃ receiver, c.receiver = some receiver ∧ receiver.spellsOut config.target = true := by
  simp only [candidates, List.countP_pos_iff, shortens, Bool.and_eq_true, List.contains_iff_mem,
    Option.any_eq_true]

theorem addsImport_iff : AddsImport config u log ↔
    ¬ Settled config u log ∧ u.takesImport config.target = true := by
  have hunbound : u.bindsName config.target = false ↔
      ∀ i ∈ u.imports, i.boundName? ≠ some (Text.simpleName config.target) := by
    simp [CompilationUnit.bindsName]
  have hdeclared := u.declaresType_iff (Text.simpleName config.target)
  rw [Settled, not_or, Bool.not_eq_true, CompilationUnit.takesImport, Bool.and_eq_true,
    Bool.not_eq_true', hunbound]
  constructor
  · intro h
    have hids : (log.ids config.changeKey).isEmpty = false := by
      obtain ⟨c, _, hid, _⟩ := h.recorded
      exact List.isEmpty_eq_false_iff_exists_mem.mpr ⟨_, hid⟩
    -- a single import of another type would bind the name as well
    have hother : u.importsOther config.target = false := by
      refine List.any_eq_false.mpr fun i hi => ?_
      simp [h.unbound i hi]
    have hfree := mt hdeclared.mp h.undeclared
    refine ⟨⟨?_, Nat.ne_of_gt (candidates_pos_iff.mpr h.recorded)⟩, h.needed, h.unbound⟩
    simp only [declines, CompilationUnit.simpleNameTaken, hids, h.origin, hother,
      Bool.eq_false_iff.mpr hfree, Bool.or_self]
  · rintro ⟨⟨hguard, hcandidates⟩, hneeds, hunbound⟩
    simp only [declines, CompilationUnit.simpleNameTaken, Bool.or_eq_false_iff] at hguard
    obtain ⟨⟨_, horigin⟩, _, hfree⟩ := hguard
    exact ⟨candidates_pos_iff.mp (Nat.pos_of_ne_zero hcandidates), horigin, hneeds, hunbound,
      fun hopen => Bool.eq_false_iff.mp hfree (hdeclared.mpr hopen)⟩

theorem exists_result (config : Config) (u : CompilationUnit) (log : ChangeLog) :
    ∃ stats, (run config u log).result = .ok stats ∧
      (stats.importsAdded = 1 ↔ AddsImport config u log) := by
  rw [addsImport_iff]
  by_cases hsettled : Settled config u log
  · rw [run_of_settled hsettled]
    exact ⟨_, rfl, iff_of_false nofun fun h => h.1 hsettled⟩
  · obtain ⟨types, _, _, hrun⟩ := run_of_not_settled hsettled
    rw [hrun, CompilationUnit.addImport_unit]
    have htakes : CompilationUnit.takesImport { u with types } config.target =
        u.takesImport config.target := rfl
    rw [htakes]
    refine ⟨_, rfl, ?_⟩
    cases htaken : u.takesImport config.target with
    | true =>
      refine iff_of_true ?_ ⟨hsettled, rfl⟩
      simp [CompilationUnit.withImport, CompilationUnit.length_insertImport]
    | false =>
      refine iff_of_false ?_ fun h => Bool.false_ne_true h.2
      simp

theorem AddsImport.bindsFreeName (h : AddsImport config u log) :
    BindsFreeName config u (run config u log).unit := by
  obtain ⟨hsettled, htakes⟩ := addsImport_iff.mp h
  obtain ⟨types, htypes, _, hrun⟩ := run_of_not_settled hsettled
  have hunit : (run config u log).unit =
      CompilationUnit.withImport { u with types } config.target := by
    have htypes : CompilationUnit.takesImport { u with types } config.target = true := htakes
    rw [hrun, CompilationUnit.addImport_unit, if_pos htypes]
  -- the walk leaves the names that the unit declares as they are
  have htable : NameTable.ofUnit { u with types } = NameTable.ofUnit u := by
    have hnames := htypes.declaredNames_eq (shortening_keepsNames _ _) u.packageName
    exact congrArg (fun declared => { NameTable.ofUnit u with declared }) hnames
  have hfree : u.declaresType (Text.simpleName config.target) = false :=
    Bool.eq_false_iff.mpr (mt (u.declaresType_iff _).mp h.undeclared)
  have hbefore := NameTable.resolve?_eq_outside? h.unbound hfree
  have hafter := NameTable.resolve?_withImport_self (u := { u with types }) h.unbound
  rw [hunit]
  refine ⟨rfl, fun name hname => ?_, hbefore, hafter, ?_⟩
  · rw [NameTable.resolve?_withImport_of_ne hname, htable]
  · rw [hafter, hbefore]
    cases hupper : Text.startsUppercase (Text.simpleName config.target) with
    | true => exact iff_of_true (NameTable.outside?_ne_of_needsImport h.needed).symm rfl
    | false => simp [NameTable.outside?, hupper]

/-- The pass adds the import exactly if a recorded call spells the target out, the origin is not
imported, the target has to be, and neither a single import nor an open declaration has its simple
name. The import then gives the name to the target, whatever the unit used it for. All other names
mean what they meant. -/
theorem run_binds_free_name (config : Config) (u : CompilationUnit) (log : ChangeLog) :
    ∃ stats, (run config u log).result = .ok stats ∧
      (stats.importsAdded = 1 ↔ AddsImport config u log) ∧
      (stats.importsAdded = 1 → BindsFreeName config u (run config u log).unit) := by
  obtain ⟨stats, hresult, hadds⟩ := exists_result config u log
  exact ⟨stats, hresult, hadds, fun hadded => (hadds.mp hadded).bindsFreeName⟩

def toAcmeList : Config where
  origin := "com.old.Lists"
  method := "of"
  target := "com.acme.List"

/-- `List` is a type of `java.util`, imported on demand; `com.acme.List.of(1)` is spelled out. -/
def usesBothLists : CompilationUnit where
  imports := [{ name := "java.util", isWildcard := true }]
  types := [.classDecl { id := 0, name := "A" }
    [.field { type := { name := "List" }, name := "x" } none,
      .field { type := { name := "Object" }, name := "y" } (some (.call
        { id := 1, receiver := some (.qualified "com.acme.List"), name := "of"
          args := [.literal (.integer 1) {}]
          method := some { owner := .reference "com.acme.List" [], name := "of" }, span := {} }))]]
  nextId := 2

def movedCall : ChangeLog := ({} : ChangeLog).record toAcmeList.changeKey 1

theorem run_binds_free_name_of_usesBothLists :
    (run toAcmeList usesBothLists movedCall).result =
        .ok { receiversShortened := 1, importsAdded := 1 } ∧
      AddsImport toAcmeList usesBothLists movedCall ∧
      BindsFreeName toAcmeList usesBothLists (run toAcmeList usesBothLists movedCall).unit := by
  have hadded : (run toAcmeList usesBothLists movedCall).result =
      .ok { receiversShortened := 1, importsAdded := 1 } := by rfl
  obtain ⟨stats, hresult, hadds, hbinds⟩ := run_binds_free_name toAcmeList usesBothLists movedCall
  rw [hadded] at hresult
  cases hresult
  exact ⟨hadded, hadds.mp rfl, hbinds rfl⟩

/-- The import is added although the unit refers to a type by that name, and the name changes its
meaning. -/
theorem run_captures_name_of_usesBothLists :
    toAcmeList.validate = .ok () ∧
      (run toAcmeList usesBothLists movedCall).result =
        .ok { receiversShortened := 1, importsAdded := 1 } ∧
      usesBothLists.references toAcmeList.target = true ∧
      (NameTable.ofUnit usesBothLists).resolve? "List" = some "java.util.List" ∧
      (NameTable.ofUnit (run toAcmeList usesBothLists movedCall).unit).resolve? "List" =
        some "com.acme.List" :=
  ⟨Config.validate_eq_ok_iff.mpr (by decide +kernel), by rfl, by decide +kernel,
    by decide +kernel, by decide +kernel⟩

end ReceiverShortening

end FactoryLowering
