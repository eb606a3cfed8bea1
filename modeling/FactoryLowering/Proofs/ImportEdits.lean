import FactoryLowering.ImportEdits

/-! # What import edits do

Edits change the list of imports and nothing else. A removal only takes imports away. After an
addition the type can be used by its simple name, if no single import bound that name to another
type before.
-/
namespace FactoryLowering

namespace CompilationUnit

theorem dropUnused_eq (u : CompilationUnit) (fqn : String) :
    ∃ imports, (u.dropUnused fqn).unit = { u with imports } := by
  unfold dropUnused
  split
  · exact ⟨u.imports, rfl⟩
  · exact ⟨_, rfl⟩

theorem addImport_eq (u : CompilationUnit) (fqn : String) :
    ∃ imports, (u.addImport fqn).unit = { u with imports } := by
  unfold addImport
  split
  · exact ⟨u.imports, rfl⟩
  · split
    · exact ⟨u.imports, rfl⟩
    · exact ⟨_, rfl⟩

/-- Two edits that change the imports only do so together. -/
theorem andThen_eq {u : CompilationUnit} {first : ImportOutcome}
    {edit : CompilationUnit → ImportOutcome}
    (hfirst : ∃ imports, first.unit = { u with imports })
    (hedit : ∀ v, ∃ imports, (edit v).unit = { v with imports }) :
    ∃ imports, (first.andThen edit).unit = { u with imports } := by
  obtain ⟨imports, hfirst⟩ := hfirst
  obtain ⟨imports', hsecond⟩ := hedit first.unit
  exact ⟨imports', by rw [ImportOutcome.andThen, hsecond, hfirst]⟩

theorem addImports_eq (u : CompilationUnit) (fqns : List String) :
    ∃ imports, (u.addImports fqns).unit = { u with imports } := by
  induction fqns generalizing u with
  | nil => exact ⟨u.imports, rfl⟩
  | cons fqn rest ih => exact andThen_eq (u.addImport_eq fqn) ih

theorem dropAll_eq (u : CompilationUnit) (fqns : List String) :
    ∃ imports, (u.dropAll fqns).unit = { u with imports } := by
  induction fqns generalizing u with
  | nil => exact ⟨u.imports, rfl⟩
  | cons fqn rest ih => exact andThen_eq (u.dropUnused_eq fqn) ih

theorem imports_dropUnused_sublist (u : CompilationUnit) (fqn : String) :
    (u.dropUnused fqn).unit.imports.Sublist u.imports := by
  unfold dropUnused
  split
  · exact List.Sublist.refl _
  · exact List.filter_sublist

theorem length_insertImport (fqn : String) (imports : List ImportDecl) :
    (insertImport fqn imports).length = imports.length + 1 := by
  induction imports with
  | nil => rfl
  | cons first rest ih =>
    unfold insertImport
    split
    · rfl
    · exact congrArg (· + 1) ih

theorem dropUnused_counts (u : CompilationUnit) (fqn : String) : (u.dropUnused fqn).added = 0 ∧
    (u.dropUnused fqn).unit.imports.length + (u.dropUnused fqn).removed = u.imports.length ∧
    (u.dropUnused fqn).warnings = [] := by
  unfold dropUnused
  split
  · exact ⟨rfl, rfl, rfl⟩
  · exact ⟨rfl, Nat.add_sub_cancel' (List.length_filter_le _ _), rfl⟩

theorem dropAll_counts (u : CompilationUnit) (fqns : List String) : (u.dropAll fqns).added = 0 ∧
    (u.dropAll fqns).unit.imports.length + (u.dropAll fqns).removed = u.imports.length ∧
    (u.dropAll fqns).warnings = [] := by
  induction fqns generalizing u with
  | nil => exact ⟨rfl, rfl, rfl⟩
  | cons fqn rest ih =>
    obtain ⟨hadded, hremoved, hwarnings⟩ := u.dropUnused_counts fqn
    obtain ⟨hadded', hremoved', hwarnings'⟩ := ih (u.dropUnused fqn).unit
    refine ⟨?_, ?_, ?_⟩ <;> simp only [dropAll, ImportOutcome.andThen]
    · rw [hadded, hadded']
    · omega
    · rw [hwarnings, hwarnings']
      rfl

theorem addImport_counts (u : CompilationUnit) (fqn : String) : (u.addImport fqn).removed = 0 ∧
    (u.addImport fqn).unit.imports.length = u.imports.length + (u.addImport fqn).added := by
  unfold addImport
  split
  · exact ⟨rfl, rfl⟩
  · split
    · exact ⟨rfl, rfl⟩
    · exact ⟨rfl, length_insertImport fqn u.imports⟩

theorem addImports_counts (u : CompilationUnit) (fqns : List String) :
    (u.addImports fqns).removed = 0 ∧
    (u.addImports fqns).unit.imports.length = u.imports.length + (u.addImports fqns).added := by
  induction fqns generalizing u with
  | nil => exact ⟨rfl, rfl⟩
  | cons fqn rest ih =>
    obtain ⟨hremoved, hadded⟩ := u.addImport_counts fqn
    obtain ⟨hremoved', hadded'⟩ := ih (u.addImport fqn).unit
    refine ⟨?_, ?_⟩ <;> simp only [addImports, ImportOutcome.andThen]
    · rw [hremoved, hremoved']
    · omega

/-- The type can be used by its simple name: it is imported, or needs no import. -/
def sees (u : CompilationUnit) (fqn : String) : Prop :=
  Text.packageName fqn = "java.lang" ∨ Text.packageName fqn = u.packageName ∨
    u.importsType fqn = true

theorem mem_insertImport {fqn : String} {i : ImportDecl} {imports : List ImportDecl} :
    i ∈ insertImport fqn imports ↔ i = .single fqn ∨ i ∈ imports := by
  induction imports with
  | nil => simp [insertImport]
  | cons first rest ih =>
    unfold insertImport
    split
    · simp
    · rw [List.mem_cons, ih, List.mem_cons]
      exact or_left_comm

theorem importsType_of_boundName {u : CompilationUnit} {fqn : String} {i : ImportDecl}
    (hother : u.importsOther fqn = false) (hi : i ∈ u.imports)
    (hbound : i.boundName? = some (Text.simpleName fqn)) : u.importsType fqn = true := by
  simp only [importsOther, List.any_eq_false, Bool.and_eq_true, beq_iff_eq, bne_iff_ne,
    not_and, Decidable.not_not] at hother
  have hname := hother i hi hbound
  unfold ImportDecl.boundName? at hbound
  split at hbound
  · next hsingle =>
    simp only [ImportDecl.isSingle, Bool.and_eq_true, Bool.not_eq_true'] at hsingle
    exact List.any_eq_true.mpr ⟨i, hi, by simp [ImportDecl.provides, hsingle, hname]⟩
  · cases hbound

theorem sees_addImport {u : CompilationUnit} {fqn : String} (hpackage : Text.packageName fqn ≠ "")
    (hother : u.importsOther fqn = false) : (u.addImport fqn).unit.sees fqn := by
  obtain ⟨imports, hunit⟩ := u.addImport_eq fqn
  have hsame : (u.addImport fqn).unit.packageName = u.packageName := by
    rw [hunit]
    rfl
  rw [sees, hsame]
  by_cases hneeds : u.needsImport fqn = true
  · by_cases hbound : u.imports.any (fun i => i.boundName? == some (Text.simpleName fqn)) = true
    · obtain ⟨i, hi, hname⟩ := List.any_eq_true.mp hbound
      have himports := importsType_of_boundName hother hi (by simpa using hname)
      simp [needsImport, himports] at hneeds
    · refine .inr (.inr (List.any_eq_true.mpr ⟨.single fqn, ?_, ?_⟩))
      · simp only [addImport, hneeds, Bool.not_true, Bool.false_eq_true, if_false, hbound]
        exact mem_insertImport.mpr (.inl rfl)
      · simp [ImportDecl.provides, ImportDecl.single]
  · have hkept : (u.addImport fqn).unit = u := by simp [addImport, hneeds]
    rw [hkept]
    simp only [needsImport, Bool.not_eq_true, Bool.not_eq_false', Bool.or_eq_true, beq_iff_eq,
      String.isEmpty_iff, hpackage, false_or] at hneeds
    rcases hneeds with (hlang | hown) | himports
    · exact .inl hlang
    · exact .inr (.inl hown)
    · exact .inr (.inr himports)

theorem importsOther_addImport {u : CompilationUnit} {fqn : String}
    (hother : u.importsOther fqn = false) : (u.addImport fqn).unit.importsOther fqn = false := by
  unfold addImport
  split
  · exact hother
  · split
    · exact hother
    · simp only [importsOther, List.any_eq_false] at hother ⊢
      intro i hi
      rcases mem_insertImport.mp hi with rfl | hi
      · simp [ImportDecl.single]
      · exact hother i hi

end CompilationUnit

namespace ImportEdits

/-- The counters are what the list of imports gets shorter by in the removals, and longer by in the
additions. -/
theorem apply_eq_lengths (edits : ImportEdits) (u : CompilationUnit) :
    edits.apply u =
      let kept := (u.dropAll (ascending edits.removals)).unit
      let out := kept.addImports (ascending edits.additions)
      { unit := out.unit
        added := out.unit.imports.length - kept.imports.length
        removed := u.imports.length - kept.imports.length
        warnings := out.warnings } := by
  obtain ⟨hadded, hremoved, hwarnings⟩ := u.dropAll_counts (ascending edits.removals)
  obtain ⟨hremoved', hadded'⟩ := (u.dropAll (ascending edits.removals)).unit.addImports_counts
    (ascending edits.additions)
  rw [apply, ImportOutcome.andThen, hwarnings]
  congr 1 <;> omega

theorem apply_removal (fqn : String) (u : CompilationUnit) :
    apply { removals := [fqn] } u =
      { unit := (u.dropUnused fqn).unit
        added := 0
        removed := u.imports.length - (u.dropUnused fqn).unit.imports.length
        warnings := [] } := by
  simp [apply_eq_lengths, ascending, insertAscending, CompilationUnit.addImports,
    CompilationUnit.dropAll, ImportOutcome.andThen]

theorem apply_addition (fqn : String) (u : CompilationUnit) :
    apply { additions := [fqn] } u =
      { unit := (u.addImport fqn).unit
        added := (u.addImport fqn).unit.imports.length - u.imports.length
        removed := 0
        warnings := (u.addImport fqn).warnings } := by
  simp [apply_eq_lengths, ascending, insertAscending, CompilationUnit.addImports,
    CompilationUnit.dropAll, ImportOutcome.andThen]

theorem apply_unit_eq (edits : ImportEdits) (u : CompilationUnit) :
    ∃ imports, (edits.apply u).unit = { u with imports } :=
  CompilationUnit.andThen_eq (u.dropAll_eq _) fun next => next.addImports_eq _

@[simp] theorem apply_types (edits : ImportEdits) (u : CompilationUnit) :
    (edits.apply u).unit.types = u.types := by
  obtain ⟨imports, h⟩ := edits.apply_unit_eq u
  rw [h]

@[simp] theorem apply_packageName (edits : ImportEdits) (u : CompilationUnit) :
    (edits.apply u).unit.packageName = u.packageName := by
  obtain ⟨imports, h⟩ := edits.apply_unit_eq u
  rw [h]
  rfl

end ImportEdits

end FactoryLowering
