import FactoryLowering.Proofs.FactoryHelpers.Spelling
import FactoryLowering.Proofs.FactoryHelpers.Undisturbed
import FactoryLowering.Proofs.OwnerChange.Effect

/-! # Families commute

The passes of two families can be run in either order. The imports, the counter and the numbers in
the report come out the same, and so do the types, but that each type has its new helpers in the
order of the passes, and with other identities in their bodies. Receivers that a pass may drop must
be inert: a type in one that has the identity of a host around takes over the host's helpers, and
is gone or still there depending on the order.
-/
namespace FactoryLowering

/-- Calls get other identities, and all else is as it was. -/
def renumbering : Rewriting where
  call _ _ _ c new := ∃ id, new = { c with id }
  type _ _ _ _ d new := new = d

/-- The same method, up to the identities of the calls in its body. -/
def Method.Renumbered (m m' : Method) : Prop :=
  (Member.method m).Becomes renumbering [] [] (.method m')

theorem renumbering_refl : Hereditary fun K _ a => ∀ p q, K.becomes renumbering p q a a :=
  Rewriting.becomes_refl (fun _ _ c => ⟨c.id, by cases c; rfl⟩) fun _ _ _ _ => rfl

theorem becomes_renumbering_unresolved (id id' : NodeId) (receiver : Option Expr) (name : String)
    (args : List Expr) : (Expr.call (.unresolved id receiver name args)).Becomes renumbering [] []
      (.call (.unresolved id' receiver name args)) := by
  refine Expr.becomes_call.mpr ⟨receiver, args, _, ?_, ?_, ⟨id', rfl⟩, rfl⟩
  · exact renumbering_refl.exprOption receiver [] [] []
  · exact renumbering_refl.exprList args [] [] []

theorem Stmt.becomes_ofExpr {r : Rewriting} {p q : Path} {e e' : Expr} (h : e.Becomes r p q e') :
    (Stmt.ofExpr e).Becomes r p q (.ofExpr e') := by
  rw [Stmt.ofExpr, Stmt.Becomes]
  exact ⟨e', h, rfl⟩

theorem Stmt.becomes_returning {r : Rewriting} {p q : Path} {e e' : Expr}
    (h : e.Becomes r p q e') : (Stmt.returning (some e)).Becomes r p q (.returning (some e')) := by
  rw [Stmt.returning, Stmt.Becomes]
  exact ⟨some e', ⟨e', h, rfl⟩, rfl⟩

namespace Family

variable {f : Family} {spelledOut : List String} {a : Nat} {m m' : Method}

theorem helperBody_renumbered (f : Family) (spelledOut : List String) (fills : Nat)
    (first first' : NodeId) : Stmt.BecomesList renumbering [] []
      (f.helperBody spelledOut fills first) (f.helperBody spelledOut fills first') := by
  have hfill : List.Forall₂ (Stmt.Becomes renumbering [] [])
      ((List.range fills).map fun i => f.fillStmt (NodeId.next^[i] first) (i + 1))
      ((List.range fills).map fun i => f.fillStmt (NodeId.next^[i] first') (i + 1)) := by
    rw [List.forall₂_map_left_iff, List.forall₂_map_right_iff, List.forall₂_same]
    intro i _
    exact Stmt.becomes_ofExpr (becomes_renumbering_unresolved _ _ _ _ _)
  have hview := Stmt.becomes_returning (becomes_renumbering_unresolved (NodeId.next^[fills] first)
    (NodeId.next^[fills] first') (some (.qualified (spell spelledOut viewOwner))) f.viewName
    [.ofName f.localName])
  have hlocal : ∀ s : Stmt, s.Becomes renumbering [] [] s :=
    fun s => renumbering_refl.stmt s [] [] []
  rw [Stmt.becomesList_iff]
  exact .cons (hlocal _) (List.rel_append hfill (.cons hview .nil))

theorem IsHelper.renumbered (h : f.IsHelper spelledOut a m) (h' : f.IsHelper spelledOut a m') :
    m.Renumbered m' := by
  obtain ⟨first, h⟩ := h
  obtain ⟨first', h'⟩ := h'
  rw [helper?_eq] at h h'
  cases accepted : f.accepts a with
  | false => simp [accepted] at h
  | true =>
    simp only [accepted, if_true, Option.some.injEq] at h h'
    subst h h'
    simp only [Method.Renumbered, Member.Becomes, Block.BecomesOption, Block.ofStmts, Block.Becomes]
    exact ⟨_, ⟨_, ⟨_, f.helperBody_renumbered spelledOut _ first first', rfl⟩, rfl⟩, rfl⟩

end Family

namespace FactoryHelpers

variable {f g : Family} {sf sg : List String} {package : String} {p q q' : Path}

/-- Some helpers of a family, and the same ones once more with other identities. -/
structure Reissued (f : Family) (spelledOut : List String) (ms ms' : List Method) : Prop where
  helpers : ∃ arities, List.Forall₂ (f.IsHelper spelledOut) arities ms
  renumbered : List.Forall₂ Method.Renumbered ms ms'

theorem SameHelpers.reissued {ms ms' : List Method} (h : SameHelpers f sf ms ms') :
    Reissued f sf ms ms' := by
  obtain ⟨arities, hms, hms'⟩ := h
  refine ⟨⟨arities, hms⟩, ?_⟩
  induction hms generalizing ms' with
  | nil =>
    cases hms'
    exact .nil
  | cons hm _ ih =>
    cases hms' with
    | cons hm' hms' => exact .cons (hm.renumbered hm') (ih hms')

/-- All is the same, but that the helpers at the end of a type come in another order: first those
of one family and then those of the other one, or the other way round. -/
def swapped (f g : Family) (sf sg : List String) : Rewriting where
  call _ _ _ c new := new = c
  type _ _ _ _ d new := ∃ rest fs fs' gs gs',
    d = TypeDecl.addMembers ((fs ++ gs).map .method) rest ∧
    new = TypeDecl.addMembers ((gs' ++ fs').map .method) rest ∧
    Reissued f sf fs fs' ∧ Reissued g sg gs gs'

theorem swapped_refl (f g : Family) (sf sg : List String) :
    Hereditary fun K _ a => ∀ p q, K.becomes (swapped f g sf sg) p q a a := by
  refine Rewriting.becomes_refl (fun _ _ _ => rfl) fun _ _ _ d => ?_
  exact ⟨d, [], [], [], [], by simp, by simp, SameHelpers.nil.reissued, SameHelpers.nil.reissued⟩

theorem becomes_swapped_call {c c' : Call} :
    (Expr.call c).Becomes (swapped f g sf sg) q q' (.call c') ↔
      Expr.BecomesOption (swapped f g sf sg) q q' c.receiver c'.receiver ∧
      Expr.BecomesList (swapped f g sf sg) q q' c.args c'.args ∧
      c' = { c with receiver := c'.receiver, args := c'.args } := by
  rw [Expr.becomes_call]
  constructor
  · rintro ⟨r, as, call, hr, ha, hcall, hnew⟩
    obtain rfl : call = { c with receiver := r, args := as } := hcall
    obtain rfl := Expr.call.inj hnew
    exact ⟨hr, ha, rfl⟩
  · rintro ⟨hr, ha, hc⟩
    exact ⟨c'.receiver, c'.args, c', hr, ha, hc, rfl⟩

theorem becomes_swapped_lowerAt (h : Family) (package : String) (p : Path) {c c' : Call}
    (hc : (Expr.call c).Becomes (swapped f g sf sg) q q' (.call c')) :
    (Expr.call (lowerAt h package p c)).Becomes (swapped f g sf sg) q q'
      (.call (lowerAt h package p c')) := by
  have hall := becomes_swapped_call.mp hc
  obtain ⟨hr, ha, hsame⟩ := hall
  have hlowers : lowers h package p c' = lowers h package p c := by
    rw [hsame]
    exact lowers_congr rfl ha.length_eq
  cases hl : lowers h package p c with
  | false =>
    rw [lowerAt_of_not_lowers hl, lowerAt_of_not_lowers (hlowers.trans hl)]
    exact hc
  | true =>
    obtain ⟨host, name, hat, heq⟩ := exists_host_of_lowers hl
    obtain ⟨host', name', hat', heq'⟩ := exists_host_of_lowers (hlowers.trans hl)
    rw [hat] at hat'
    cases hat'
    rw [heq, heq']
    refine becomes_swapped_call.mpr ⟨?_, ha, ?_⟩
    · rw [lowered, lowered, Expr.BecomesOption]
    · rw [hsame]
      rfl

/-- A call is lowered by one family at most. -/
theorem lowerAt_comm (hne : f ≠ g) (package : String) (p : Path) (c : Call) :
    lowerAt g package p (lowerAt f package p c) = lowerAt f package p (lowerAt g package p c) := by
  have apart : ∀ {f g : Family}, f ≠ g → lowers f package p c = true →
      lowerAt g package p (lowerAt f package p c) =
        lowerAt f package p (lowerAt g package p c) := by
    intro f g hne hl
    obtain ⟨_, name, _, heq⟩ := exists_host_of_lowers hl
    have hmatch : f.pattern.isMatch c = true := by
      simp only [lowers, Bool.and_eq_true] at hl
      exact hl.1.1
    have hother : lowers g package p c = false :=
      lowers_of_isMatch_eq_false (not_isMatch_of_isMatch hne hmatch)
    have hhelper : lowers g package p (lowered f name c) = false :=
      lowers_of_isMatch_eq_false (isMatch_lowered g f name c)
    rw [lowerAt_of_not_lowers hother, heq, lowerAt_of_not_lowers hhelper]
  cases hf : lowers f package p c with
  | true => exact apart hne hf
  | false =>
    cases hg : lowers g package p c with
    | true => exact (apart (Ne.symm hne) hg).symm
    | false => rw [lowerAt_of_not_lowers hf, lowerAt_of_not_lowers hg, lowerAt_of_not_lowers hf]

/-- What the walks of two families make of a piece, in either order. -/
structure Swaps (f g : Family) (sf sg : List String) (package : String) {α : Type} (K : Kind α)
    (p : Path) (a : α) : Prop where
  left : Undisturbed f g sf sg package K p a
  right : Undisturbed g f sg sf package K p a
  swap : DropsInert f package p (K.visits a) → DropsInert g package p (K.visits a) →
    ∀ {s t} k l, Open f package p s → Open g package p t → ∀ q q',
      K.becomes (swapped f g sf sg) q q'
        (K.edit (editor g sg) (K.edit (editor f sf) a s).1 (t.shift k)).1
        (K.edit (editor f sf) (K.edit (editor g sg) a t).1 (s.shift l)).1

theorem Swaps.call {c : Call} (hne : f ≠ g)
    (hr : Swaps f g sf sg package .exprOption p c.receiver)
    (ha : Swaps f g sf sg package .exprList p c.args) :
    Swaps f g sf sg package .expr p (.call c) := by
  refine ⟨(Undisturbed.hereditary hne sf sg package).call c hr.left ha.left,
    (Undisturbed.hereditary (Ne.symm hne) sg sf package).call c hr.right ha.right,
    fun hokf hokg s t k l hs ht q q' => ?_⟩
  obtain ⟨_, hokfr, hokfa⟩ := hokf.of_call
  obtain ⟨_, hokgr, hokga⟩ := hokg.of_call
  have hreceiver := hr.swap hokfr hokgr k l hs ht q q'
  have hargs := ha.swap hokfa hokga k l (hr.left.first s hs) (hr.left.second t ht) q q'
  rw [Undisturbed.call_after hne hr.left ha.left hokf hs ht rfl rfl rfl rfl k,
    Undisturbed.call_after (Ne.symm hne) hr.right ha.right hokg ht hs rfl rfl rfl rfl l,
    lowerAt_comm hne]
  refine becomes_swapped_lowerAt f package p (becomes_swapped_lowerAt g package p ?_)
  exact becomes_swapped_call.mpr ⟨hreceiver, hargs, rfl⟩

theorem Swaps.type {site : TypeSite} {d : TypeDecl} (hne : f ≠ g)
    (hd : Swaps f g sf sg package .body (.type d site :: p) d) :
    Swaps f g sf sg package (.typeDecl site) p d := by
  refine ⟨(Undisturbed.hereditary hne sf sg package).type hd.left,
    (Undisturbed.hereditary (Ne.symm hne) sg sf package).type hd.right,
    fun hokf hokg s t k l hs ht q q' => ?_⟩
  have hokf := hokf.of_typeDecl
  have hokg := hokg.of_typeDecl
  rcases hF : Kind.body.edit (editor f sf) d (s.enter d site) with ⟨dF, s₂⟩
  rcases hG : Kind.body.edit (editor g sg) d (t.enter d site) with ⟨dG, t₂⟩
  obtain ⟨_, fs, gs, gs', _, hgs, hfirst, hsecond, hafter⟩ :=
    hd.left.typeDecl_after hne hokf hs ht hF hG k
  obtain ⟨_, gs₁, fs₁, fs', _, hfs, hfirst', hsecond', hafter'⟩ :=
    hd.right.typeDecl_after (Ne.symm hne) hokg ht hs hG hF l
  -- What a family gives to the type first is what it would give it alone.
  obtain rfl := TypeDecl.addMembers_methods_inj (hfirst.symm.trans hsecond')
  obtain rfl := TypeDecl.addMembers_methods_inj (hfirst'.symm.trans hsecond)
  rw [hfirst, hafter, hfirst', hafter', ← TypeDecl.addMembers_append, ← TypeDecl.addMembers_append,
    ← List.map_append, ← List.map_append]
  refine TypeDecl.becomes_iff.mpr ⟨_, TypeDecl.BodyBecomes.addMembers ?_ ?_,
    _, fs, fs', gs', gs₁, rfl, rfl, hfs.reissued, hgs.symm.reissued⟩
  · have hinner := hd.swap hokf hokg k l (hs.enter d site) (ht.enter d site)
    rw [hF, hG] at hinner
    exact hinner _ _
  · exact (swapped_refl f g sf sg).memberList _ [] _ _

theorem Swaps.hereditary (hne : f ≠ g) (sf sg : List String) (package : String) :
    Hereditary (Swaps f g sf sg package) where
  unit :=
    ⟨(Undisturbed.hereditary hne sf sg package).unit,
      (Undisturbed.hereditary (Ne.symm hne) sg sf package).unit,
      fun _ _ _ _ _ _ _ _ _ _ => trivial⟩
  pair {_ _ K L p a b} level ha hb := by
    refine ⟨(Undisturbed.hereditary hne sf sg package).pair level ha.left hb.left,
      (Undisturbed.hereditary (Ne.symm hne) sg sf package).pair level ha.right hb.right,
      fun hokf hokg s t k l hs ht q q' => ?_⟩
    obtain ⟨hokfa, hokfb⟩ := hokf.of_append (level a)
    obtain ⟨hokga, hokgb⟩ := hokg.of_append (level a)
    have hfirst := ha.swap hokfa hokga k l hs ht q q'
    have hsecond := hb.swap hokfb hokgb k l (ha.left.first s hs) (ha.left.second t ht) q q'
    rw [← ha.left.follows hokfa k hs ht, ← ha.right.follows hokga l ht hs] at hsecond
    exact ⟨hfirst, hsecond⟩
  node {_ _ K L} build own refs {p a} n ha := by
    refine ⟨(Undisturbed.hereditary hne sf sg package).node build own refs n ha.left,
      (Undisturbed.hereditary (Ne.symm hne) sg sf package).node build own refs n ha.right,
      fun hokf hokg s t k l hs ht q q' => ?_⟩
    rw [edit_node n, edit_node n, edit_node n, edit_node n]
    exact n.becomes.mpr ⟨_, ha.swap (hokf.of_node n) (hokg.of_node n) k l hs ht q q', rfl⟩
  call _ hr ha := .call hne hr ha
  anonymous {p head ms} hms := by
    refine ⟨(Undisturbed.hereditary hne sf sg package).anonymous hms.left,
      (Undisturbed.hereditary (Ne.symm hne) sg sf package).anonymous hms.right,
      fun hokf hokg s t k l hs ht q q' => ?_⟩
    have hs₁ : Open f package (.anonymous head ms :: p) (s.enterAnonymous head) :=
      hs.enterAnonymous
    have ht₁ : Open g package (.anonymous head ms :: p) (t.enterAnonymous head) :=
      ht.enterAnonymous
    exact hms.swap hokf.of_anonymous hokg.of_anonymous k l hs₁ ht₁ _ _
  type hd := .type hne hd

end FactoryHelpers

theorem Stats.add_comm (a b : Stats) : a + b = b + a := by
  simp only [HAdd.hAdd, Add.add, Stats.mk.injEq]
  simp [Nat.add_comm]

namespace FactoryHelpers

variable {f g : Family} {u : CompilationUnit}

/-- No receiver of a factory call of two families holds a call. -/
def ReceiversCallFree (f g : Family) (u : CompilationUnit) : Prop :=
  ∀ x ∈ typesSites u.types, (f.pattern.isMatch x.call || g.pattern.isMatch x.call) = true →
    callsOf (Expr.visitsOption x.call.receiver) = []

instance (f g : Family) (u : CompilationUnit) : Decidable (ReceiversCallFree f g u) :=
  inferInstanceAs (Decidable (∀ x ∈ typesSites u.types, _))

/-- No receiver of a factory call of two families holds a type with the identity of a type around
the call that may declare helpers. -/
def ReceiversSpareHosts (f g : Family) (u : CompilationUnit) : Prop :=
  ∀ x ∈ typesSites u.types, (f.pattern.isMatch x.call || g.pattern.isMatch x.call) = true →
    ∀ id ∈ typeIdsOf (Expr.visitsOption x.call.receiver), id ∉ hostIds u.packageName x.path

instance (f g : Family) (u : CompilationUnit) : Decidable (ReceiversSpareHosts f g u) :=
  inferInstanceAs (Decidable (∀ x ∈ typesSites u.types, _))

theorem ReceiversSpareHosts.of_nestedTypesDiffer (h : u.NestedTypesDiffer) (f g : Family) :
    ReceiversSpareHosts f g u := by
  intro x hx _ id hid hhost
  obtain ⟨v, hv, hsome⟩ := List.mem_filterMap.mp hid
  cases v with
  | enterType d site =>
    cases hsome
    obtain ⟨q, hq⟩ := exists_place_of_mem hv x.path
    have hplace := receivers_within.types [] u.types x hx _ hq
    have hinside := (Expr.visitsOption_level x.call.receiver).within x.path _ hq
    obtain ⟨outer, outerSite, hmem, heq⟩ := exists_type_of_mem_hostIds hhost
    have hapart := h _ hplace
    simp only [Place.isApart, List.all_eq_true] at hapart
    have hdiffer := hapart _ (hinside.subset hmem)
    simp [heq] at hdiffer
  | _ => cases hsome

def ReceiversInert (f g : Family) (u : CompilationUnit) : Prop :=
  ∀ x ∈ typesSites u.types, (f.pattern.isMatch x.call || g.pattern.isMatch x.call) = true →
    InertReceiver u.packageName x.path x.call

theorem ReceiversCallFree.inert (h : ReceiversCallFree f g u) (hosts : ReceiversSpareHosts f g u) :
    ReceiversInert f g u :=
  fun x hx hmatch => ⟨h x hx hmatch, hosts x hx hmatch⟩

theorem ReceiversInert.symm (h : ReceiversInert f g u) : ReceiversInert g f u := by
  intro x hx hmatch
  rw [Bool.or_comm] at hmatch
  exact h x hx hmatch

theorem ReceiversInert.dropsInert (h : ReceiversInert f g u) :
    DropsInert f u.packageName [] (Kind.types.visits u.types) := by
  intro x hx hmatch
  exact h x hx (Bool.or_eq_true_iff.mpr (.inl hmatch))

def start (u : CompilationUnit) : State where
  scopes := { package := u.packageName }
  nextId := u.nextId

theorem walk_eq (f : Family) (u : CompilationUnit) :
    walk f u = Kind.types.edit (editor f (f.shadowed u)) u.types (start u) := rfl

theorem nextId_kept (f : Family) (spelledOut : List String) (n : NodeId) :
    Kept f spelledOut fun s => ∃ k, s.nextId = NodeId.next^[k] n where
  frame _ _ _ h := h
  call {s} c h := by
    obtain ⟨_, hnext, _⟩ := call_frame f spelledOut c s
    rw [hnext]
    exact h
  provide {s} d a h := by
    obtain ⟨k, hk⟩ := h
    unfold provide
    split
    · split <;> exact ⟨k, hk⟩
    · cases accepted : f.accepts a with
      | false =>
        simp only [Family.helper?_eq, accepted]
        exact ⟨k, hk⟩
      | true =>
        simp only [Family.helper?_eq, accepted, if_true]
        exact ⟨f.fillCount a + 1 + k, by rw [hk, ← Function.iterate_add_apply]⟩

theorem exists_nextId_walk (f : Family) (u : CompilationUnit) :
    ∃ k, (walk f u).2.nextId = NodeId.next^[k] u.nextId :=
  (nextId_kept f (f.shadowed u) u.nextId).walk ⟨0, rfl⟩

theorem run_unit (f : Family) (u : CompilationUnit) (log : ChangeLog) :
    (FactoryHelpers.run f u log).unit = { (u.addImports (requested f u)).unit with
      types := (walk f u).1
      nextId := (walk f u).2.nextId } := by
  rw [run_unit_eq]
  exact u.addImports_frame _ _ _

/-- A walk over the unit that another family's pass leaves is a walk over the types of that
family's walk, with the counter ahead. -/
theorem walk_run (f g : Family) (u : CompilationUnit) (log : ChangeLog) {k : Nat}
    (hk : (walk f u).2.nextId = NodeId.next^[k] u.nextId) :
    walk g (FactoryHelpers.run f u log).unit =
      Kind.types.edit (editor g (g.shadowed u)) (walk f u).1 ((start u).shift k) := by
  have hstart : start (FactoryHelpers.run f u log).unit = (start u).shift k := by
    rw [start, run_packageName, run_unit, hk]
    rfl
  rw [walk_eq, shadowed_run, run_types, hstart]

/-- A family's pass asks for the same imports and counts the same whether or not another family
was there before. -/
theorem walk_run_state (hne : f ≠ g) (h : ReceiversInert f g u) (log : ChangeLog) {k : Nat}
    (hk : (walk f u).2.nextId = NodeId.next^[k] u.nextId) :
    (walk g (FactoryHelpers.run f u log).unit).2 = (walk g u).2.shift k := by
  have hall := (Undisturbed.hereditary hne (f.shadowed u) (g.shadowed u) u.packageName).types
    [] u.types
  rw [walk_run f g u log hk, walk_eq f, walk_eq g]
  exact hall.follows h.dropsInert k (open_start f u) (open_start g u)

theorem run_run_unit (hne : f ≠ g) (h : ReceiversInert f g u) (log log' : ChangeLog) {k l : Nat}
    (hk : (walk f u).2.nextId = NodeId.next^[k] u.nextId)
    (hl : (walk g u).2.nextId = NodeId.next^[l] u.nextId) :
    (FactoryHelpers.run g (FactoryHelpers.run f u log).unit log').unit =
      { ((u.addImports (requested f u)).unit.addImports (requested g u)).unit with
        types := (walk g (FactoryHelpers.run f u log).unit).1
        nextId := NodeId.next^[k] (NodeId.next^[l] u.nextId) } := by
  have hstate := walk_run_state hne h log hk
  have hrequested : requested g (FactoryHelpers.run f u log).unit = requested g u := by
    rw [requested, hstate]
    rfl
  have hnext : (walk g (FactoryHelpers.run f u log).unit).2.nextId =
      NodeId.next^[k] (NodeId.next^[l] u.nextId) := by
    rw [hstate, ← hl]
    rfl
  rw [run_unit g, hrequested, hnext]
  simp only [run_unit f u log, CompilationUnit.addImports_frame]

def inOrder (f g : Family) : Chain where
  passes := [.factoryHelpers f, .factoryHelpers g]

theorem runUnit_inOrder (f g : Family) (u : CompilationUnit) :
    ((inOrder f g).runUnit u).unit = (FactoryHelpers.run g (FactoryHelpers.run f u {}).unit
      (FactoryHelpers.run f u {}).log).unit ∧
    ∃ report, ((inOrder f g).runUnit u).result = .ok report ∧
      report.total = { (walk f u).2.stats + (walk g (FactoryHelpers.run f u {}).unit).2.stats with
        importsAdded := ((inOrder f g).runUnit u).unit.imports.length - u.imports.length
        importsRemoved := 0 } := by
  have hfirst := run_result f u {}
  have hsecond := run_result g (FactoryHelpers.run f u {}).unit (FactoryHelpers.run f u {}).log
  obtain ⟨hresult, hunit⟩ := Chain.runUnit_pair (.factoryHelpers f) (.factoryHelpers g)
    hfirst hsecond
  have hunit : ((inOrder f g).runUnit u).unit = (FactoryHelpers.run g
    (FactoryHelpers.run f u {}).unit (FactoryHelpers.run f u {}).log).unit := hunit
  refine ⟨hunit, _, hresult, ?_⟩
  -- The second pass counts from the imports that the first one left.
  have hadded : (FactoryHelpers.run f u {}).unit.imports.length - u.imports.length +
      (((inOrder f g).runUnit u).unit.imports.length -
        (FactoryHelpers.run f u {}).unit.imports.length) =
      ((inOrder f g).runUnit u).unit.imports.length - u.imports.length := by
    have hkept := (sublist_imports_run f u {}).length_le
    have hkept' := (sublist_imports_run g (FactoryHelpers.run f u {}).unit
      (FactoryHelpers.run f u {}).log).length_le
    rw [← hunit] at hkept'
    omega
  rw [← hadded, hunit]
  simp only [Report.total, List.foldl, HAdd.hAdd, Add.add]
  simp

/-- Whether it makes no difference in which order two families are run on a unit, but for the order
of the helpers and the identities in them. -/
structure CommuteOn (f g : Family) (u : CompilationUnit) : Prop where
  total : ∃ report report', ((inOrder f g).runUnit u).result = .ok report ∧
    ((inOrder g f).runUnit u).result = .ok report' ∧ report'.total = report.total
  imports : ((inOrder g f).runUnit u).unit.imports = ((inOrder f g).runUnit u).unit.imports
  nextId : ((inOrder g f).runUnit u).unit.nextId = ((inOrder f g).runUnit u).unit.nextId
  types : TypesBecome (swapped f g (f.shadowed u) (g.shadowed u))
    ((inOrder f g).runUnit u).unit.types ((inOrder g f).runUnit u).unit.types

theorem imports_inOrder (hne : f ≠ g) (h : ReceiversInert f g u) :
    ((inOrder g f).runUnit u).unit.imports = ((inOrder f g).runUnit u).unit.imports ∧
      ((inOrder g f).runUnit u).unit.nextId = ((inOrder f g).runUnit u).unit.nextId := by
  obtain ⟨k, hk⟩ := exists_nextId_walk f u
  obtain ⟨l, hl⟩ := exists_nextId_walk g u
  have hapart : ∀ a ∈ requested f u, ∀ b ∈ requested g u,
      a = b ∨ Text.simpleName a ≠ Text.simpleName b := fun a ha b hb =>
    f.simpleName_ne_of_ne g a (mem_requested.mp ha).2.1 b (mem_requested.mp hb).2.1
  rw [(runUnit_inOrder f g u).1, (runUnit_inOrder g f u).1, run_run_unit hne h {} _ hk hl,
    run_run_unit (Ne.symm hne) h.symm {} _ hl hk]
  constructor
  · have hcomm := u.addImports_comm hapart
    exact (congrArg CompilationUnit.imports hcomm).symm
  · exact (Function.Commute.refl NodeId.next).iterate_iterate l k u.nextId

/-- Two families can be run in either order if receivers that may be dropped are inert. -/
theorem families_commute (hne : f ≠ g) (hcalls : ReceiversCallFree f g u)
    (hhosts : ReceiversSpareHosts f g u) : CommuteOn f g u := by
  have h := hcalls.inert hhosts
  obtain ⟨k, hk⟩ := exists_nextId_walk f u
  obtain ⟨l, hl⟩ := exists_nextId_walk g u
  obtain ⟨himports, hnext⟩ := imports_inOrder hne h
  obtain ⟨hunit, report, hresult, htotal⟩ := runUnit_inOrder f g u
  obtain ⟨hunit', report', hresult', htotal'⟩ := runUnit_inOrder g f u
  refine ⟨⟨report, report', hresult, hresult', ?_⟩, himports, hnext, ?_⟩
  · rw [htotal, htotal', himports, walk_run_state hne h {} hk,
      walk_run_state (Ne.symm hne) h.symm {} hl, Stats.add_comm]
    rfl
  · have hall := (Swaps.hereditary hne (f.shadowed u) (g.shadowed u) u.packageName).types
      [] u.types
    rw [typesBecome_iff, hunit, hunit', run_types, run_types, walk_run f g u {} hk,
      walk_run g f u {} hl]
    exact hall.swap h.dropsInert h.symm.dropsInert k l (open_start f u) (open_start g u) [] []

def setOf (id : NodeId) (args : List Expr) : Call :=
  { listOf id args with
    receiver := some (.ofName "Set")
    method := some { owner := .reference "java.util.Set" [], name := "of" } }

/-- Lists in sets and sets in lists. -/
def mixedFactories : CompilationUnit where
  imports := [.single "java.util.Set", .single "java.util.List"]
  types := [.classDecl { id := 0, name := "Main" }
    [.field { type := { name := "Object" }, name := "x" }
        (some (.call (listOf 1 [.call (setOf 2 [.ofInt 1]), .ofInt 2]))),
      .field { type := { name := "Object" }, name := "y" }
        (some (.call (setOf 3 [.call (listOf 4 [])])))]]
  nextId := 5

theorem families_commute_of_mixedFactories : ReceiversCallFree .list .set mixedFactories ∧
    ReceiversSpareHosts .list .set mixedFactories ∧ CommuteOn .list .set mixedFactories ∧
    ((inOrder .list .set).runUnit mixedFactories).unit.types.flatMap
      (fun d => (methodHeads d.members).map (·.name)) = ["listOf", "listOf", "setOf"] ∧
    ((inOrder .set .list).runUnit mixedFactories).unit.types.flatMap
      (fun d => (methodHeads d.members).map (·.name)) = ["setOf", "listOf", "listOf"] := by
  have hcalls : ReceiversCallFree .list .set mixedFactories := by decide
  have hhosts : ReceiversSpareHosts .list .set mixedFactories :=
    .of_nestedTypesDiffer (by decide) .list .set
  refine ⟨hcalls, hhosts, families_commute (by decide) hcalls hhosts, ?_, ?_⟩ <;> decide +kernel

theorem length_members_of_swapped {sf sg : List String} {ds ds' : List TypeDecl}
    (h : TypesBecome (swapped f g sf sg) ds ds') :
    ds'.map (·.members.length) = ds.map (·.members.length) := by
  induction ds generalizing ds' with
  | nil =>
    rw [TypesBecome] at h
    rw [h]
  | cons d ds ih =>
    obtain ⟨d', rest, hd, hrest, rfl⟩ := h
    obtain ⟨_, hbody, _, fs, fs', gs, gs', rfl, rfl, hfs, hgs⟩ := TypeDecl.becomes_iff.mp hd
    have hlength := hbody.length_members
    have hf := hfs.renumbered.length_eq
    have hg := hgs.renumbered.length_eq
    simp only [TypeDecl.members_addMembers, List.length_append, List.length_map] at hlength
    simp only [List.map_cons, TypeDecl.members_addMembers, List.length_append, List.length_map,
      ih hrest, List.cons.injEq, and_true]
    omega

theorem CommuteOn.length_members (h : CommuteOn f g u) :
    ((inOrder g f).runUnit u).unit.types.map (·.members.length) =
      ((inOrder f g).runUnit u).unit.types.map (·.members.length) :=
  length_members_of_swapped h.types

/-- The receiver of the second call holds a class that has the identity of the class around. -/
def repeatedHost : CompilationUnit where
  imports := [.single "java.util.List", .single "java.util.Set"]
  types := [.classDecl { id := 0, name := "Outer" }
    [.field { type := { name := "Object" }, name := "x" } (some (.call (setOf 1 [.ofInt 1]))),
      .field { type := { name := "Object" }, name := "y" } (some (.call
        { listOf 2 [.ofInt 2] with
          receiver := some (.newAnonymous { name := "Object" } [] { id := 3, name := "" }
            [.typeDecl (.classDecl { id := 0, name := "Inner" } [])] {}) }))]]
  nextId := 4

/-- The inner class gets the outer one's helper and is dropped with it, if it is still there. -/
theorem families_differ_on_repeatedHost :
    ReceiversCallFree .list .set repeatedHost ∧ ¬ CommuteOn .list .set repeatedHost := by
  refine ⟨by decide, fun h => ?_⟩
  have hlengths := h.length_members
  have hfirst : ((inOrder .list .set).runUnit repeatedHost).unit.types.map (·.members.length) =
      [4] := by decide +kernel
  have hsecond : ((inOrder .set .list).runUnit repeatedHost).unit.types.map (·.members.length) =
      [3] := by decide +kernel
  rw [hfirst, hsecond] at hlengths
  cases hlengths

end FactoryHelpers

end FactoryLowering
