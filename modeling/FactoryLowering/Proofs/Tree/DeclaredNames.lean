import FactoryLowering.Attribution
import FactoryLowering.Proofs.Tree.Rewriting

/-! # Declared names under a rewriting

The names that a tree declares come from the heads of its types. A rewriting that adds no type to
another one and takes none away leaves them as they are, in order and with their full names, and so
it leaves alone which simple names are declared.
-/
namespace FactoryLowering

/-- The rule for types leaves the names that a type declares as its rewritten members have them. -/
def Rewriting.KeepsNames (r : Rewriting) : Prop :=
  ∀ {p q site d d' new}, r.type p q site d d' new →
    ∀ outer, new.declaredNames outer = d'.declaredNames outer

variable {r : Rewriting}

mutual

theorem TypeDecl.Becomes.declaredNames_eq (h : r.KeepsNames) : ∀ (d : TypeDecl) {p q : Path}
    {site : TypeSite} {new : TypeDecl}, d.Becomes r p q site new →
    ∀ outer, new.declaredNames outer = d.declaredNames outer
  | .classDecl head members, _, _, _, _, hb, outer => by
    rw [TypeDecl.Becomes] at hb
    obtain ⟨members', hm, htype⟩ := hb
    rw [h htype, TypeDecl.declaredNames, TypeDecl.declaredNames, hm.declaredNames_eq h members]
  | .interfaceDecl head members, _, _, _, _, hb, outer => by
    rw [TypeDecl.Becomes] at hb
    obtain ⟨members', hm, htype⟩ := hb
    rw [h htype, TypeDecl.declaredNames, TypeDecl.declaredNames, hm.declaredNames_eq h members]
  | .enumDecl head constants members, _, _, _, _, hb, outer => by
    rw [TypeDecl.Becomes] at hb
    obtain ⟨constants', members', _, hm, htype⟩ := hb
    rw [h htype, TypeDecl.declaredNames, TypeDecl.declaredNames, hm.declaredNames_eq h members]
  termination_by structural old => old

theorem Member.BecomesList.declaredNames_eq (h : r.KeepsNames) : ∀ (ms : List Member) {p q : Path}
    {new : List Member}, Member.BecomesList r p q ms new →
    ∀ outer, Member.declaredNames outer new = Member.declaredNames outer ms
  | [], _, _, _, hb, outer => by
    rw [Member.BecomesList] at hb
    rw [hb]
  | m :: ms, _, _, _, hb, outer => by
    rw [Member.BecomesList] at hb
    obtain ⟨m', rest, hm, hrest, rfl⟩ := hb
    have hlater := hrest.declaredNames_eq h ms outer
    cases m with
    | typeDecl decl =>
      rw [Member.Becomes] at hm
      obtain ⟨decl', hd, rfl⟩ := hm
      rw [Member.declaredNames, Member.declaredNames, hd.declaredNames_eq h decl outer, hlater]
    | method m =>
      obtain ⟨head, body⟩ := m
      rw [Member.Becomes] at hm
      obtain ⟨_, _, rfl⟩ := hm
      exact hlater
    | field head init =>
      rw [Member.Becomes] at hm
      obtain ⟨_, _, rfl⟩ := hm
      exact hlater
    | constructorDecl head body =>
      rw [Member.Becomes] at hm
      obtain ⟨_, _, rfl⟩ := hm
      exact hlater
    | initializer isStatic body span =>
      rw [Member.Becomes] at hm
      obtain ⟨_, _, rfl⟩ := hm
      exact hlater
  termination_by structural old => old

end

mutual

theorem TypeDecl.declares_eq (name outer : String) : ∀ d : TypeDecl,
    d.declares name = (d.declaredNames outer).any (·.1 == name)
  | .classDecl head members => by
    rw [TypeDecl.declares, TypeDecl.declaredNames, List.any_cons,
      Member.anyDeclares_eq name (Text.qualify outer head.name) members]
  | .interfaceDecl head members => by
    rw [TypeDecl.declares, TypeDecl.declaredNames, List.any_cons,
      Member.anyDeclares_eq name (Text.qualify outer head.name) members]
  | .enumDecl head constants members => by
    rw [TypeDecl.declares, TypeDecl.declaredNames, List.any_cons,
      Member.anyDeclares_eq name (Text.qualify outer head.name) members]

theorem Member.anyDeclares_eq (name outer : String) : ∀ ms : List Member,
    Member.anyDeclares name ms = (Member.declaredNames outer ms).any (·.1 == name)
  | [] => rfl
  | .typeDecl d :: rest => by
    rw [Member.anyDeclares, Member.declaredNames, List.any_append, d.declares_eq name outer,
      Member.anyDeclares_eq name outer rest]
  | .method _ :: rest => Member.anyDeclares_eq name outer rest
  | .field _ _ :: rest => Member.anyDeclares_eq name outer rest
  | .constructorDecl _ _ :: rest => Member.anyDeclares_eq name outer rest
  | .initializer _ _ _ :: rest => Member.anyDeclares_eq name outer rest

end

theorem Member.declaredNames_append_methods (outer : String) (ms : List Member)
    (methods : List Method) :
    Member.declaredNames outer (ms ++ methods.map .method) = Member.declaredNames outer ms := by
  induction ms with
  | nil =>
    induction methods with
    | nil => rfl
    | cons m rest ih => exact ih
  | cons m ms ih =>
    cases m with
    | typeDecl d => rw [List.cons_append, Member.declaredNames, Member.declaredNames, ih]
    | _ => exact ih

theorem TypesBecome.declaredNames_eq (h : r.KeepsNames) {ds ds' : List TypeDecl}
    (hb : TypesBecome r ds ds') (outer : String) :
    ds'.flatMap (TypeDecl.declaredNames outer) = ds.flatMap (TypeDecl.declaredNames outer) := by
  induction ds generalizing ds' with
  | nil =>
    obtain rfl : ds' = [] := hb
    rfl
  | cons d ds ih =>
    obtain ⟨d', rest, hd, hrest, rfl⟩ := hb
    rw [List.flatMap_cons, List.flatMap_cons, hd.declaredNames_eq h d, ih hrest]

theorem CompilationUnit.declaresType_eq (u : CompilationUnit) (name : String) :
    u.declaresType name = (NameTable.ofUnit u).declared.any (·.1 == name) := by
  simp only [declaresType, NameTable.ofUnit, List.any_flatMap,
    TypeDecl.declares_eq name u.packageName]

theorem TypesBecome.declaresType_eq (h : r.KeepsNames) {u u' : CompilationUnit}
    (hb : TypesBecome r u.types u'.types) (hpackage : u'.packageName = u.packageName)
    (name : String) : u'.declaresType name = u.declaresType name := by
  have hnames := hb.declaredNames_eq h u.packageName
  simp only [CompilationUnit.declaresType_eq, NameTable.ofUnit, hpackage, hnames]

end FactoryLowering
