import FactoryLowering.Proofs.ImportAdditions

/-! # The import list after edits

Removals come first, and whether a type is referred to does not depend on the imports, so all of
them together are one filter of the list. Additions are made one after the other, and each one sees
the list that the ones before have left. What an addition keeps, all of them keep: the order of
names, that no name is bound twice, and that a type that was asked for before can be used or is kept
out by another one of the same simple name.
-/
namespace FactoryLowering

/-- The names of non-static imports, those on demand among them, never go down along the list. -/
def SortedByName (imports : List ImportDecl) : Prop :=
  imports.Pairwise fun i j => i.isStatic = false → j.isStatic = false → i.name ≤ j.name

def BindsOnce (imports : List ImportDecl) : Prop :=
  imports.Pairwise fun i j => i.isSingle = true → j.isSingle = true →
    Text.simpleName i.name ≠ Text.simpleName j.name

variable {fqn : String} {imports : List ImportDecl}

/-- Static imports are passed by whatever their names are, so they may stand anywhere. -/
theorem SortedByName.insertImport (h : SortedByName imports) (fqn : String) :
    SortedByName (insertImport fqn imports) := by
  induction imports with
  | nil => exact List.pairwise_singleton _ _
  | cons first rest ih =>
    obtain ⟨hfirst, hrest⟩ := List.pairwise_cons.mp h
    cases hplace : (!first.isStatic && fqn < first.name) with
    | true =>
      rw [insertImport_cons_of_lt rest hplace]
      simp only [Bool.and_eq_true, Bool.not_eq_true', decide_eq_true_eq] at hplace
      obtain ⟨hstatic, hless⟩ := hplace
      have hle : fqn ≤ first.name := String.not_lt.mp (String.lt_asymm hless)
      refine List.pairwise_cons.mpr ⟨?_, h⟩
      intro j hj _ hjstatic
      rcases List.mem_cons.mp hj with rfl | hj
      · exact hle
      · exact String.le_trans hle (hfirst j hj hstatic hjstatic)
    | false =>
      rw [insertImport_cons_of_not_lt rest hplace]
      simp only [Bool.and_eq_false_iff, Bool.not_eq_false', decide_eq_false_iff_not] at hplace
      refine List.pairwise_cons.mpr ⟨?_, ih hrest⟩
      intro j hj hstatic hjstatic
      rcases CompilationUnit.mem_insertImport.mp hj with rfl | hj
      · have hnot := hplace.resolve_left (Bool.eq_false_iff.mp hstatic)
        exact String.not_lt.mp hnot
      · exact hfirst j hj hstatic hjstatic

namespace CompilationUnit

variable {u : CompilationUnit} {fqns : List String}

theorem importsOther_iff (u : CompilationUnit) (fqn : String) : u.importsOther fqn = true ↔
    ∃ i ∈ u.imports, i.isSingle = true ∧ i.name ≠ fqn ∧
      Text.simpleName i.name = Text.simpleName fqn := by
  have hbound : ∀ i : ImportDecl, i.boundName? = some (Text.simpleName fqn) ↔
      i.isSingle = true ∧ Text.simpleName i.name = Text.simpleName fqn := by
    intro i
    cases hsingle : i.isSingle <;> simp [ImportDecl.boundName?, hsingle]
  simp only [importsOther, List.any_eq_true, Bool.and_eq_true, beq_iff_eq, bne_iff_ne, hbound]
  constructor
  · rintro ⟨i, hi, ⟨hsingle, hname⟩, hother⟩
    exact ⟨i, hi, hsingle, hother, hname⟩
  · rintro ⟨i, hi, hsingle, hother, hname⟩
    exact ⟨i, hi, ⟨hsingle, hname⟩, hother⟩

theorem needsImport_withImport_self (u : CompilationUnit) (fqn : String) :
    (u.withImport fqn).needsImport fqn = false := by
  have himports : (u.withImport fqn).importsType fqn = true := by
    rw [importsType, any_withImport]
    simp [ImportDecl.provides, ImportDecl.single]
  simp [needsImport, himports]

theorem dropAll_unit (u : CompilationUnit) (fqns : List String) :
    (u.dropAll fqns).unit = { u with
      imports := u.imports.filter fun i =>
        !(i.isSingle && fqns.contains i.name && !u.references i.name) } := by
  induction fqns generalizing u with
  | nil => simp [dropAll]
  | cons fqn rest ih =>
    have hfirst : (u.dropUnused fqn).unit = { u with
        imports := u.imports.filter fun i =>
          !(i.isSingle && i.name == fqn && !u.references i.name) } := by
      have hname : (fun i : ImportDecl => !(i.isSingle && i.name == fqn && !u.references i.name)) =
          fun i => !(i.isSingle && i.name == fqn && !u.references fqn) := by
        funext i
        cases hi : i.name == fqn with
        | true => rw [eq_of_beq hi]
        | false => rw [Bool.and_false, Bool.false_and, Bool.false_and]
      rw [hname, dropUnused]
      cases u.references fqn <;> simp
    have hreferences : (u.dropUnused fqn).unit.references = u.references := by
      rw [hfirst]
      rfl
    rw [dropAll, ImportOutcome.andThen, ih, hreferences, hfirst]
    simp only [List.filter_filter, List.contains_cons]
    congr 2
    funext i
    cases i.isSingle <;> cases i.name == fqn <;> cases u.references i.name <;> simp

theorem addImports_keep {P : CompilationUnit → Prop}
    (step : ∀ u fqn, u.takesImport fqn = true → P u → P (u.withImport fqn)) (h : P u) :
    P (u.addImports fqns).unit := by
  rw [addImports_unit]
  induction fqns generalizing u with
  | nil => exact h
  | cons fqn rest ih =>
    rw [List.foldl_cons, addImport_unit]
    split
    · next htakes => exact ih (step u fqn htakes h)
    · exact ih h

/-- A type that needs no import, or is kept out by another one of the same simple name. -/
def Served (u : CompilationUnit) (fqn : String) : Prop :=
  u.needsImport fqn = false ∨ u.importsOther fqn = true

theorem takesImport_of_served (h : u.Served fqn) : u.takesImport fqn = false := by
  rw [takesImport, Bool.and_eq_false_iff]
  refine h.imp id fun hother => ?_
  obtain ⟨i, hi, hsingle, _, hname⟩ := (u.importsOther_iff fqn).mp hother
  have hbinds : u.bindsName fqn = true :=
    List.any_eq_true.mpr ⟨i, hi, by simp [ImportDecl.boundName?, hsingle, hname]⟩
  rw [hbinds]
  rfl

theorem Served.withImport {a : String} (h : u.Served fqn) : (u.withImport a).Served fqn := by
  rcases h with hvisible | hother
  · left
    by_cases hsame : a = fqn
    · rw [hsame, needsImport_withImport_self]
    · rw [needsImport_withImport hsame, hvisible]
  · right
    rw [importsOther, any_withImport, ← importsOther, hother, Bool.or_true]

theorem served_addImport (u : CompilationUnit) (fqn : String) :
    (u.addImport fqn).unit.Served fqn := by
  rw [addImport_unit]
  split
  · exact .inl (needsImport_withImport_self u fqn)
  · next hkept =>
    by_cases hother : u.importsOther fqn = true
    · exact .inr hother
    · left
      rw [takesImport_of_free (Bool.eq_false_iff.mpr hother)] at hkept
      exact Bool.eq_false_iff.mpr hkept

theorem served_addImports (u : CompilationUnit) (fqns : List String) :
    ∀ fqn ∈ fqns, (u.addImports fqns).unit.Served fqn := by
  induction fqns generalizing u with
  | nil => exact List.forall_mem_nil _
  | cons first rest ih =>
    have hrest : (u.addImports (first :: rest)).unit =
        ((u.addImport first).unit.addImports rest).unit := rfl
    rw [hrest, List.forall_mem_cons]
    refine ⟨?_, ih _⟩
    exact addImports_keep (P := fun u => u.Served first) (fun _ _ _ h => h.withImport)
      (u.served_addImport first)

theorem addImports_of_served (h : ∀ fqn ∈ fqns, u.Served fqn) : (u.addImports fqns).unit = u := by
  rw [addImports_unit]
  induction fqns with
  | nil => rfl
  | cons first rest ih =>
    obtain ⟨hfirst, hrest⟩ := List.forall_mem_cons.mp h
    rw [List.foldl_cons, addImport_unit, takesImport_of_served hfirst, if_neg Bool.false_ne_true]
    exact ih hrest

theorem bindsOnce_addImports (h : BindsOnce u.imports) :
    BindsOnce (u.addImports fqns).unit.imports := by
  refine addImports_keep (P := fun u => BindsOnce u.imports) ?_ h
  intro u fqn htakes h
  simp only [takesImport, bindsName, Bool.and_eq_true, Bool.not_eq_true', List.any_eq_false,
    beq_iff_eq] at htakes
  refine (insertImport_perm fqn u.imports).symm.pairwise (List.pairwise_cons.mpr ⟨?_, h⟩) ?_
  · intro i hi _ hsingle hname
    refine htakes.2 i hi ?_
    rw [ImportDecl.boundName?, if_pos hsingle]
    exact congrArg some hname.symm
  · exact fun hij hj hi => Ne.symm (hij hi hj)

theorem sortedByName_addImports (h : SortedByName u.imports) :
    SortedByName (u.addImports fqns).unit.imports :=
  addImports_keep (P := fun u => SortedByName u.imports)
    (fun _ fqn _ h => SortedByName.insertImport h fqn) h

theorem filter_addImports (keep : ImportDecl → Bool) (h : ∀ fqn, keep (.single fqn) = false)
    (u : CompilationUnit) (fqns : List String) :
    (u.addImports fqns).unit.imports.filter keep = u.imports.filter keep := by
  refine addImports_keep (P := fun v => v.imports.filter keep = u.imports.filter keep) ?_ rfl
  intro v fqn _ hv
  rw [← hv]
  exact filter_insertImport keep (h fqn) v.imports

theorem exists_inserted (u : CompilationUnit) (fqns : List String) : ∃ inserted : List String,
    inserted.Sublist fqns ∧
      (u.addImports fqns).unit.imports.Perm (inserted.map .single ++ u.imports) := by
  rw [addImports_unit]
  induction fqns generalizing u with
  | nil => exact ⟨[], List.Sublist.refl _, List.Perm.refl _⟩
  | cons fqn rest ih =>
    rw [List.foldl_cons, addImport_unit]
    split
    · obtain ⟨inserted, hsub, hperm⟩ := ih (u.withImport fqn)
      refine ⟨fqn :: inserted, hsub.cons_cons fqn, hperm.trans ?_⟩
      have hfirst := (insertImport_perm fqn u.imports).append_left (inserted.map .single)
      exact hfirst.trans List.perm_middle
    · obtain ⟨inserted, hsub, hperm⟩ := ih u
      exact ⟨inserted, hsub.cons fqn, hperm⟩

end CompilationUnit

namespace ImportEdits

variable {edits : ImportEdits} {u : CompilationUnit}

/-- The imports that edits take away: single imports of types that are to be removed and that
nothing in the unit refers to. -/
def drops (edits : ImportEdits) (u : CompilationUnit) (i : ImportDecl) : Bool :=
  i.isSingle && edits.removals.contains i.name && !u.references i.name

def keeps (edits : ImportEdits) (u : CompilationUnit) : List ImportDecl :=
  u.imports.filter fun i => !edits.drops u i

theorem apply_eq (edits : ImportEdits) (u : CompilationUnit) :
    edits.apply u =
      { unit := (CompilationUnit.addImports { u with imports := edits.keeps u }
          (ascending edits.additions)).unit
        added := (CompilationUnit.addImports { u with imports := edits.keeps u }
          (ascending edits.additions)).unit.imports.length - (edits.keeps u).length
        removed := u.imports.length - (edits.keeps u).length
        warnings := (CompilationUnit.addImports { u with imports := edits.keeps u }
          (ascending edits.additions)).warnings } := by
  have hkept : (u.dropAll (ascending edits.removals)).unit =
      { u with imports := edits.keeps u } := by
    have hsame : ∀ name, (ascending edits.removals).contains name = edits.removals.contains name :=
      fun name => by rw [Bool.eq_iff_iff]; simp
    rw [CompilationUnit.dropAll_unit]
    simp only [hsame]
    rfl
  rw [apply_eq_lengths, hkept]

/-- What edits do to a unit. -/
structure Carried (edits : ImportEdits) (u : CompilationUnit) (out : ImportOutcome) : Prop where
  unit : out.unit = { u with imports := out.unit.imports }
  /-- The imports that are not dropped keep their order, and all others are new and asked for. -/
  inserted : (edits.keeps u).Sublist out.unit.imports ∧ ∃ inserted : List String,
    inserted.Nodup ∧ (∀ fqn ∈ inserted, fqn ∈ edits.additions) ∧
      out.unit.imports.Perm (inserted.map .single ++ edits.keeps u) ∧
      out.added = inserted.length
  removed : out.removed = u.imports.countP (edits.drops u)
  /-- Imports that are static or on demand are all kept, and no new ones come in. -/
  others : out.unit.imports.filter (!·.isSingle) = u.imports.filter (!·.isSingle)
  served : ∀ fqn ∈ edits.additions, out.unit.needsImport fqn = false ∨
    ∃ i ∈ out.unit.imports, i.isSingle = true ∧ i.name ≠ fqn ∧
      Text.simpleName i.name = Text.simpleName fqn
  bindsOnce : BindsOnce u.imports → BindsOnce out.unit.imports
  sorted : SortedByName u.imports → SortedByName out.unit.imports
  /-- A type that is both removed and added would be imported anew each time. -/
  again : (∀ fqn ∈ edits.additions, fqn ∉ edits.removals) →
    (edits.apply out.unit).unit = out.unit ∧ (edits.apply out.unit).added = 0 ∧
      (edits.apply out.unit).removed = 0

theorem filter_keeps (edits : ImportEdits) (u : CompilationUnit) :
    (edits.keeps u).filter (!·.isSingle) = u.imports.filter (!·.isSingle) := by
  rw [keeps, List.filter_filter]
  refine List.filter_congr fun i _ => ?_
  cases hsingle : i.isSingle <;> simp [drops, hsingle]

theorem length_sub_length_keeps (edits : ImportEdits) (u : CompilationUnit) :
    u.imports.length - (edits.keeps u).length = u.imports.countP (edits.drops u) := by
  have hall := List.length_eq_countP_add_countP (edits.drops u) (l := u.imports)
  have hkept : (edits.keeps u).length = u.imports.countP fun i => !edits.drops u i :=
    List.countP_eq_length_filter.symm
  simp only [Bool.not_eq_true, Bool.decide_eq_false] at hall
  omega

theorem keeps_apply (h : ∀ fqn ∈ edits.additions, fqn ∉ edits.removals) :
    edits.keeps (edits.apply u).unit = (edits.apply u).unit.imports := by
  obtain ⟨imports, hunit⟩ := edits.apply_unit_eq u
  have hreferences : (edits.apply u).unit.references = u.references := by
    rw [hunit]
    rfl
  obtain ⟨inserted, hsub, hperm⟩ := CompilationUnit.exists_inserted
    { u with imports := edits.keeps u } (ascending edits.additions)
  refine List.filter_eq_self.mpr fun i hi => ?_
  rw [drops, hreferences]
  rw [apply_eq, hperm.mem_iff, List.mem_append] at hi
  rcases hi with hnew | hkept
  · obtain ⟨fqn, hfqn, rfl⟩ := List.mem_map.mp hnew
    have hadded : fqn ∈ edits.additions := mem_ascending.mp (hsub.subset hfqn)
    have hnot : edits.removals.contains fqn = false := by simpa using h fqn hadded
    have hname : (ImportDecl.single fqn).name = fqn := rfl
    rw [hname, hnot, Bool.and_false]
    rfl
  · exact (List.mem_filter.mp hkept).2

/-- Whatever is asked for, edits change the imports and nothing else. What is dropped and what is
put in is what was asked for; names that were in order stay in order, and nothing comes to be bound
twice. Edits that do not contradict themselves are done once and for all. -/
theorem apply_keeps_imports_sound (edits : ImportEdits) (u : CompilationUnit) :
    edits.Carried u (edits.apply u) := by
  have hserved : ∀ fqn ∈ edits.additions, (edits.apply u).unit.Served fqn := by
    intro fqn hfqn
    rw [apply_eq]
    exact CompilationUnit.served_addImports _ _ fqn (mem_ascending.mpr hfqn)
  obtain ⟨imports, hunit⟩ := edits.apply_unit_eq u
  refine ⟨?_, ⟨?_, ?_⟩, ?_, ?_, ?_, ?_, ?_, ?_⟩
  · rw [hunit]
  · rw [apply_eq]
    exact CompilationUnit.sublist_addImports { u with imports := edits.keeps u } _
  · obtain ⟨inserted, hsub, hperm⟩ := CompilationUnit.exists_inserted
      { u with imports := edits.keeps u } (ascending edits.additions)
    refine ⟨inserted, (nodup_ascending _).sublist hsub, ?_, ?_, ?_⟩
    · exact fun fqn hfqn => mem_ascending.mp (hsub.subset hfqn)
    · rw [apply_eq]
      exact hperm
    · have hlength := hperm.length_eq
      rw [List.length_append, List.length_map] at hlength
      rw [apply_eq, hlength, Nat.add_sub_cancel]
  · rw [apply_eq]
    exact edits.length_sub_length_keeps u
  · rw [apply_eq, ← edits.filter_keeps u]
    exact CompilationUnit.filter_addImports (!·.isSingle) (fun _ => rfl)
      { u with imports := edits.keeps u } _
  · intro fqn hfqn
    exact (hserved fqn hfqn).imp id (CompilationUnit.importsOther_iff _ fqn).mp
  · intro h
    rw [apply_eq]
    exact CompilationUnit.bindsOnce_addImports (h.sublist List.filter_sublist)
  · intro h
    rw [apply_eq]
    exact CompilationUnit.sortedByName_addImports (h.sublist List.filter_sublist)
  · intro h
    have hkept : { (edits.apply u).unit with imports := edits.keeps (edits.apply u).unit } =
        (edits.apply u).unit := by rw [keeps_apply h]
    have hagain : (CompilationUnit.addImports
        { (edits.apply u).unit with imports := edits.keeps (edits.apply u).unit }
        (ascending edits.additions)).unit = (edits.apply u).unit := by
      rw [hkept]
      exact CompilationUnit.addImports_of_served fun fqn hfqn => hserved fqn (mem_ascending.mp hfqn)
    rw [apply_eq edits (edits.apply u).unit, hagain, keeps_apply h]
    exact ⟨rfl, Nat.sub_self _, Nat.sub_self _⟩

def mixedImports : CompilationUnit where
  imports := [{ name := "java.util.Collections.sort", isStatic := true }, .single "java.util.List",
    { name := "org.acme", isWildcard := true }]

/-- One removal, one addition that is carried out, and one that the first addition keeps out. -/
def swapLists : ImportEdits where
  additions := ["org.other.Lists", "com.acme.Lists"]
  removals := ["java.util.List"]

theorem apply_keeps_imports_sound_on_mixedImports :
    BindsOnce mixedImports.imports ∧ SortedByName mixedImports.imports ∧
      (swapLists.apply mixedImports).unit.imports =
        [{ name := "java.util.Collections.sort", isStatic := true }, .single "com.acme.Lists",
          { name := "org.acme", isWildcard := true }] ∧
      BindsOnce (swapLists.apply mixedImports).unit.imports ∧
      SortedByName (swapLists.apply mixedImports).unit.imports ∧
      (swapLists.apply (swapLists.apply mixedImports).unit).unit =
        (swapLists.apply mixedImports).unit := by
  have hbinds : BindsOnce mixedImports.imports := by
    simp [BindsOnce, mixedImports, ImportDecl.isSingle, ImportDecl.single]
  have hsorted : SortedByName mixedImports.imports := by
    simp [SortedByName, mixedImports, ImportDecl.single]
  have hcarried := apply_keeps_imports_sound swapLists mixedImports
  have hagain := (hcarried.again (by decide +kernel)).1
  exact ⟨hbinds, hsorted, by decide +kernel, hcarried.bindsOnce hbinds, hcarried.sorted hsorted,
    hagain⟩

end ImportEdits

end FactoryLowering
