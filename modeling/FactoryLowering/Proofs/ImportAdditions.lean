import FactoryLowering.Proofs.ImportEdits
import Mathlib.Data.List.Perm.Basic

/-! # Adding several imports

A type whose simple name is free of other types is imported exactly if it is needed. Types of
different simple names do not get in each other's way: what is needed stays needed, what is free
stays free, and the list of imports that comes out does not depend on the order of the additions,
even if it is not sorted.
-/
namespace FactoryLowering

variable {a b fqn : String} {u : CompilationUnit} {fqns : List String}

theorem insertImport_perm (fqn : String) (imports : List ImportDecl) :
    (insertImport fqn imports).Perm (.single fqn :: imports) := by
  induction imports with
  | nil => exact List.Perm.refl _
  | cons first rest ih =>
    unfold insertImport
    split
    · exact List.Perm.refl _
    · exact (ih.cons first).trans (List.Perm.swap _ _ rest)

theorem sublist_insertImport (fqn : String) (imports : List ImportDecl) :
    imports.Sublist (insertImport fqn imports) := by
  induction imports with
  | nil => exact List.nil_sublist _
  | cons first rest ih =>
    unfold insertImport
    split
    · exact List.sublist_cons_self _ _
    · exact ih.cons_cons first

theorem filter_insertImport (keep : ImportDecl → Bool)
    (h : keep (.single fqn) = false) (imports : List ImportDecl) :
    (insertImport fqn imports).filter keep = imports.filter keep := by
  induction imports with
  | nil => simp [insertImport, h]
  | cons first rest ih =>
    unfold insertImport
    split
    · rw [List.filter_cons_of_neg (Bool.eq_false_iff.mp h)]
    · rw [List.filter_cons, List.filter_cons, ih]

theorem insertImport_cons_of_lt {first : ImportDecl} (rest : List ImportDecl)
    (h : (!first.isStatic && fqn < first.name) = true) :
    insertImport fqn (first :: rest) = .single fqn :: first :: rest := by
  rw [insertImport, if_pos h]

theorem insertImport_cons_of_not_lt {first : ImportDecl} (rest : List ImportDecl)
    (h : (!first.isStatic && fqn < first.name) = false) :
    insertImport fqn (first :: rest) = first :: insertImport fqn rest := by
  rw [insertImport, if_neg (Bool.eq_false_iff.mp h)]

/-- Of two names that are inserted, the smaller one comes to stand first wherever they meet. -/
theorem insertImport_comm_of_lt (h : a < b) (imports : List ImportDecl) :
    insertImport a (insertImport b imports) = insertImport b (insertImport a imports) := by
  have below : (!(ImportDecl.single b).isStatic && a < (ImportDecl.single b).name) = true :=
    decide_eq_true h
  have above : (!(ImportDecl.single a).isStatic && b < (ImportDecl.single a).name) = false :=
    decide_eq_false (String.lt_asymm h)
  induction imports with
  | nil =>
    have hleft := insertImport_cons_of_lt [] below
    have hright := insertImport_cons_of_not_lt [] above
    rw [insertImport, hleft, insertImport, hright, insertImport]
  | cons first rest ih =>
    cases hb : (!first.isStatic && b < first.name) with
    | true =>
      have ha : (!first.isStatic && a < first.name) = true := by
        simp only [Bool.and_eq_true, decide_eq_true_eq] at hb ⊢
        exact ⟨hb.1, String.lt_trans h hb.2⟩
      rw [insertImport_cons_of_lt _ hb, insertImport_cons_of_lt _ below,
        insertImport_cons_of_lt _ ha,
        insertImport_cons_of_not_lt _ above, insertImport_cons_of_lt _ hb]
    | false =>
      rw [insertImport_cons_of_not_lt _ hb]
      cases ha : (!first.isStatic && a < first.name) with
      | true =>
        rw [insertImport_cons_of_lt _ ha, insertImport_cons_of_lt _ ha,
          insertImport_cons_of_not_lt _ above, insertImport_cons_of_not_lt _ hb]
      | false =>
        rw [insertImport_cons_of_not_lt _ ha, insertImport_cons_of_not_lt _ ha,
          insertImport_cons_of_not_lt _ hb, ih]

theorem insertImport_comm (a b : String) (imports : List ImportDecl) :
    insertImport a (insertImport b imports) = insertImport b (insertImport a imports) := by
  by_cases hab : a < b
  · exact insertImport_comm_of_lt hab imports
  · by_cases hba : b < a
    · exact (insertImport_comm_of_lt hba imports).symm
    · rw [String.le_antisymm (String.not_lt.mp hba) (String.not_lt.mp hab)]

namespace CompilationUnit

def withImport (u : CompilationUnit) (fqn : String) : CompilationUnit :=
  { u with imports := insertImport fqn u.imports }

/-- Whether a single import binds the simple name of a type, to it or to another one. -/
def bindsName (u : CompilationUnit) (fqn : String) : Bool :=
  u.imports.any fun i => i.boundName? == some (Text.simpleName fqn)

def takesImport (u : CompilationUnit) (fqn : String) : Bool := u.needsImport fqn && !u.bindsName fqn

theorem addImport_unit (u : CompilationUnit) (fqn : String) :
    (u.addImport fqn).unit = if u.takesImport fqn then u.withImport fqn else u := by
  unfold addImport takesImport bindsName withImport
  cases u.needsImport fqn with
  | false => simp
  | true =>
    cases u.imports.any fun i => i.boundName? == some (Text.simpleName fqn) with
    | false => simp
    | true => simp

theorem any_withImport (p : ImportDecl → Bool) (u : CompilationUnit) (fqn : String) :
    (u.withImport fqn).imports.any p = (p (.single fqn) || u.imports.any p) :=
  (insertImport_perm fqn u.imports).any_eq

theorem needsImport_withImport (h : a ≠ b) (u : CompilationUnit) :
    (u.withImport a).needsImport b = u.needsImport b := by
  have himports : (u.withImport a).importsType b = u.importsType b := by
    rw [importsType, any_withImport]
    simp [importsType, ImportDecl.provides, ImportDecl.single, h]
  rw [needsImport, himports]
  rfl

theorem bindsName_withImport (h : Text.simpleName a ≠ Text.simpleName b) (u : CompilationUnit) :
    (u.withImport a).bindsName b = u.bindsName b := by
  rw [bindsName, any_withImport]
  simp [bindsName, ImportDecl.boundName?, ImportDecl.isSingle, ImportDecl.single, h]

theorem importsOther_withImport (h : a = b ∨ Text.simpleName a ≠ Text.simpleName b)
    (u : CompilationUnit) : (u.withImport a).importsOther b = u.importsOther b := by
  rw [importsOther, any_withImport]
  rcases h with rfl | h
  · simp [importsOther, ImportDecl.single]
  · simp [importsOther, ImportDecl.boundName?, ImportDecl.isSingle, ImportDecl.single, h]

theorem takesImport_withImport (h : Text.simpleName a ≠ Text.simpleName b)
    (u : CompilationUnit) : (u.withImport a).takesImport b = u.takesImport b := by
  have hne : a ≠ b := fun same => h (congrArg Text.simpleName same)
  rw [takesImport, needsImport_withImport hne, bindsName_withImport h, takesImport]

theorem addImport_comm (h : Text.simpleName a ≠ Text.simpleName b) (u : CompilationUnit) :
    ((u.addImport a).unit.addImport b).unit = ((u.addImport b).unit.addImport a).unit := by
  rw [addImport_unit u a, addImport_unit u b]
  cases ha : u.takesImport a <;> cases hb : u.takesImport b <;>
    simp only [if_true, Bool.false_eq_true, if_false, addImport_unit, ha, hb,
      takesImport_withImport h, takesImport_withImport (Ne.symm h)]
  exact congrArg (fun imports => { u with imports }) (insertImport_comm b a u.imports)

theorem addImports_unit (u : CompilationUnit) (fqns : List String) :
    (u.addImports fqns).unit = fqns.foldl (fun u fqn => (u.addImport fqn).unit) u := by
  induction fqns generalizing u with
  | nil => rfl
  | cons fqn rest ih => exact ih (u.addImport fqn).unit

theorem addImports_addImport_comm (u : CompilationUnit)
    (h : ∀ b ∈ fqns, a = b ∨ Text.simpleName a ≠ Text.simpleName b) :
    ((u.addImport a).unit.addImports fqns).unit = ((u.addImports fqns).unit.addImport a).unit := by
  simp only [addImports_unit]
  induction fqns generalizing u with
  | nil => rfl
  | cons b rest ih =>
    obtain ⟨hb, hrest⟩ := List.forall_mem_cons.mp h
    rw [List.foldl_cons, List.foldl_cons]
    rcases hb with rfl | hb
    · exact ih _ hrest
    · rw [addImport_comm hb, ih _ hrest]

theorem addImports_comm (u : CompilationUnit) {others : List String}
    (h : ∀ a ∈ fqns, ∀ b ∈ others, a = b ∨ Text.simpleName a ≠ Text.simpleName b) :
    ((u.addImports fqns).unit.addImports others).unit =
      ((u.addImports others).unit.addImports fqns).unit := by
  induction fqns generalizing u with
  | nil => rfl
  | cons a rest ih =>
    obtain ⟨ha, hrest⟩ := List.forall_mem_cons.mp h
    have hfirst : (u.addImports (a :: rest)).unit =
        ((u.addImport a).unit.addImports rest).unit := rfl
    have hlast : ((u.addImports others).unit.addImports (a :: rest)).unit =
        (((u.addImports others).unit.addImport a).unit.addImports rest).unit := rfl
    rw [hfirst, hlast, ih _ hrest, addImports_addImport_comm u ha]

theorem addImports_frame (u : CompilationUnit) (types : List TypeDecl) (nextId : NodeId)
    (fqns : List String) : (addImports { u with types, nextId } fqns).unit =
      { (u.addImports fqns).unit with types, nextId } := by
  have hstep : ∀ (u : CompilationUnit) fqn, (addImport { u with types, nextId } fqn).unit =
      { (u.addImport fqn).unit with types, nextId } := by
    intro u fqn
    rw [addImport_unit, addImport_unit]
    have htakes : takesImport { u with types, nextId } fqn = u.takesImport fqn := rfl
    rw [htakes]
    split <;> rfl
  induction fqns generalizing u with
  | nil => rfl
  | cons fqn rest ih =>
    have hrest := ih (u.addImport fqn).unit
    rw [← hstep] at hrest
    exact hrest

theorem takesImport_of_free (h : u.importsOther fqn = false) :
    u.takesImport fqn = u.needsImport fqn := by
  cases hneeds : u.needsImport fqn with
  | false => simp [takesImport, hneeds]
  | true =>
    cases hbound : u.bindsName fqn with
    | false => simp [takesImport, hneeds, hbound]
    | true =>
      obtain ⟨i, hi, hname⟩ := List.any_eq_true.mp hbound
      have himports := importsType_of_boundName h hi (by simpa using hname)
      simp [needsImport, himports] at hneeds

theorem addImport_warnings_of_free (h : u.importsOther fqn = false) :
    (u.addImport fqn).warnings = [] := by
  have htakes := takesImport_of_free h
  unfold addImport
  cases hneeds : u.needsImport fqn with
  | false => rfl
  | true =>
    have hunbound : u.bindsName fqn = false := by
      simpa [takesImport, hneeds] using htakes
    rw [bindsName] at hunbound
    rw [hunbound]
    rfl

theorem sublist_addImports (u : CompilationUnit) (fqns : List String) :
    u.imports.Sublist (u.addImports fqns).unit.imports := by
  rw [addImports_unit]
  induction fqns generalizing u with
  | nil => exact List.Sublist.refl _
  | cons fqn rest ih =>
    have hfirst : u.imports.Sublist (u.addImport fqn).unit.imports := by
      rw [addImport_unit]
      split
      · exact sublist_insertImport fqn u.imports
      · exact List.Sublist.refl _
    exact hfirst.trans (ih _)

/-- Types of different simple names that are all free: those that are needed are imported. -/
theorem imports_addImports (hnames : (fqns.map Text.simpleName).Nodup)
    (hfree : ∀ fqn ∈ fqns, u.importsOther fqn = false) :
    (u.addImports fqns).unit.imports.Perm
      (u.imports ++ (fqns.filter u.needsImport).map .single) := by
  rw [addImports_unit]
  induction fqns generalizing u with
  | nil => simp
  | cons fqn rest ih =>
    obtain ⟨hnew, hnames⟩ := List.nodup_cons.mp hnames
    obtain ⟨hfirst, hfree⟩ := List.forall_mem_cons.mp hfree
    have hother : ∀ b ∈ rest, Text.simpleName fqn ≠ Text.simpleName b :=
      fun b hb same => hnew (same ▸ List.mem_map_of_mem hb)
    rw [List.foldl_cons, addImport_unit, takesImport_of_free hfirst]
    cases hneeds : u.needsImport fqn with
    | false =>
      rw [if_neg Bool.false_ne_true, List.filter_cons_of_neg (by simp [hneeds])]
      exact ih hnames hfree
    | true =>
      rw [if_pos rfl, List.filter_cons_of_pos hneeds]
      have hsame : rest.filter (u.withImport fqn).needsImport = rest.filter u.needsImport :=
        List.filter_congr fun b hb =>
          needsImport_withImport (fun same => hother b hb (congrArg _ same)) u
      have hrest := ih hnames fun b hb => by
        rw [importsOther_withImport (.inr (hother b hb))]
        exact hfree b hb
      rw [hsame] at hrest
      have hinsert := insertImport_perm fqn u.imports
      exact hrest.trans ((hinsert.append_right _).trans List.perm_middle.symm)

theorem importsOther_addImports
    (h : ∀ a ∈ fqns, a = b ∨ Text.simpleName a ≠ Text.simpleName b) :
    (u.addImports fqns).unit.importsOther b = u.importsOther b := by
  rw [addImports_unit]
  induction fqns generalizing u with
  | nil => rfl
  | cons a rest ih =>
    obtain ⟨ha, hrest⟩ := List.forall_mem_cons.mp h
    rw [List.foldl_cons, ih hrest, addImport_unit]
    split
    · exact importsOther_withImport ha u
    · rfl

theorem addImports_warnings_of_free (hnames : (fqns.map Text.simpleName).Nodup)
    (hfree : ∀ fqn ∈ fqns, u.importsOther fqn = false) : (u.addImports fqns).warnings = [] := by
  induction fqns generalizing u with
  | nil => rfl
  | cons fqn rest ih =>
    obtain ⟨hnew, hnames⟩ := List.nodup_cons.mp hnames
    obtain ⟨hfirst, hfree⟩ := List.forall_mem_cons.mp hfree
    have hrest : ((u.addImport fqn).unit.addImports rest).warnings = [] := by
      refine ih hnames fun b hb => ?_
      have hother : Text.simpleName fqn ≠ Text.simpleName b :=
        fun same => hnew (same ▸ List.mem_map_of_mem hb)
      rw [addImport_unit]
      split
      · rw [importsOther_withImport (.inr hother)]
        exact hfree b hb
      · exact hfree b hb
    have hwarned : (u.addImports (fqn :: rest)).warnings =
        (u.addImport fqn).warnings ++ ((u.addImport fqn).unit.addImports rest).warnings := rfl
    rw [hwarned, hrest, addImport_warnings_of_free hfirst, List.append_nil]

end CompilationUnit

namespace ImportEdits

theorem nodup_ascending (fqns : List String) : (ascending fqns).Nodup := by
  have total : ∀ x y : String, x ≠ y → ¬ x < y → y < x := fun x y differ notBelow =>
    String.not_le.mp fun le => differ (String.le_antisymm le (String.not_lt.mp notBelow))
  refine List.Pairwise.imp ?_ (pairwise_ascending (fun _ _ _ => String.lt_trans) total fqns)
  rintro x y below rfl
  exact String.lt_irrefl x below

theorem apply_additions {edits : ImportEdits} (h : edits.removals = []) (u : CompilationUnit) :
    edits.apply u =
      { unit := (u.addImports (ascending edits.additions)).unit
        added := (u.addImports (ascending edits.additions)).unit.imports.length - u.imports.length
        removed := 0
        warnings := (u.addImports (ascending edits.additions)).warnings } := by
  rw [apply_eq_lengths, h]
  simp [ascending, CompilationUnit.dropAll]

end ImportEdits

end FactoryLowering
