import FactoryLowering.Proofs.FactoryHelpers.Closure
import FactoryLowering.Proofs.FactoryHelpers.Idempotence
import FactoryLowering.Proofs.Tree.Identity

/-! # Identities that helpers take

The calls in a helper are numbered one after the other from the running counter. Only types that
have a name get helpers, so none ends up in a receiver.
-/
namespace FactoryLowering

theorem ids_unresolved {receiver : Expr} {path : String} (h : receiver.qualifiedName? = some path)
    (id : NodeId) (name : String) (names : List String) :
    idsOf (Expr.call (.unresolved id (some receiver) name (names.map .ofName))).visits = [id] ∧
      looseIds (Expr.call (.unresolved id (some receiver) name (names.map .ofName))).visits =
        [] := by
  have hreceiver : idsOf (Expr.visitsOption (some receiver)) = [] :=
    idsOf_quiet (Expr.quiet_of_qualifiedName? h)
  have hargs := idsOf_quiet (Expr.quiet_names names)
  rw [idsOf_call, looseIds_call]
  simp only [Call.unresolved, hreceiver, hargs, looseIds_eq_nil_of_idsOf hreceiver,
    looseIds_eq_nil_of_idsOf hargs, List.append_nil, and_self]

theorem ids_method (head : MethodHead) (body : Block) :
    idsOf (Member.visitsList [.method ⟨head, some body⟩]) = idsOf (Stmt.visitsList body.stmts) ∧
      looseIds (Member.visitsList [.method ⟨head, some body⟩]) =
        looseIds (Stmt.visitsList body.stmts) := by
  have hhead : ∀ v ∈ head.visits, v.Quiet := fun v hv => .inr (head.unannounced v hv)
  have hvisits : Member.visitsList [.method ⟨head, some body⟩] =
      .member (.method ⟨head, some body⟩) ::
        (head.visits ++ .block body :: Stmt.visitsList body.stmts) := by
    obtain ⟨stmts, span⟩ := body
    simp only [Member.visitsList, Member.visits, Block.visitsOption, Block.visits, List.append_nil]
  have hids := idsOf_append head.visits (.block body :: Stmt.visitsList body.stmts)
  have hloose := looseIds_append head.visits (.block body :: Stmt.visitsList body.stmts)
  rw [idsOf_quiet hhead] at hids
  rw [looseIds_quiet hhead] at hloose
  rw [hvisits]
  exact ⟨hids, hloose⟩

namespace Family

variable {f : Family} {spelledOut : List String}

theorem ids_fillStmt (f : Family) (id : NodeId) (number : Nat) :
    idsOf (f.fillStmt id number).visits = [id] ∧ looseIds (f.fillStmt id number).visits = [] := by
  rw [fillStmt_eq]
  exact ids_unresolved rfl id f.fillName _

theorem ids_fills (f : Family) (fills : Nat) (first : NodeId) :
    idsOf (Stmt.visitsList ((List.range fills).map fun i =>
        f.fillStmt (NodeId.next^[i] first) (i + 1))) = List.iterate NodeId.next first fills ∧
      looseIds (Stmt.visitsList ((List.range fills).map fun i =>
        f.fillStmt (NodeId.next^[i] first) (i + 1))) = [] := by
  induction fills with
  | zero => exact ⟨rfl, rfl⟩
  | succ fills ih =>
    obtain ⟨hids, hloose⟩ := f.ids_fillStmt (NodeId.next^[fills] first) (fills + 1)
    rw [Stmt.visitsList_eq] at ih ⊢
    rw [List.range_succ, List.map_append, List.flatMap_append, idsOf_append, looseIds_append,
      ih.1, ih.2, List.iterate_add]
    simp [hids, hloose]

theorem ids_helperBody (f : Family) (spelledOut : List String) (fills : Nat) (first : NodeId) :
    idsOf (Stmt.visitsList (f.helperBody spelledOut fills first)) =
        List.iterate NodeId.next first (fills + 1) ∧
      looseIds (Stmt.visitsList (f.helperBody spelledOut fills first)) = [] := by
  obtain ⟨hfills, hloose⟩ := f.ids_fills fills first
  obtain ⟨hview, hviewLoose⟩ := ids_unresolved
    (Expr.qualifiedName?_qualified (spell spelledOut viewOwner)) (NodeId.next^[fills] first)
    f.viewName [f.localName]
  rw [Stmt.visitsList_eq] at hfills hloose ⊢
  simp only [helperBody, List.cons_append, List.flatMap_cons, List.flatMap_append,
    List.flatMap_nil, List.append_nil, idsOf_append, looseIds_append, hfills, hloose,
    List.iterate_add]
  exact ⟨congrArg (List.iterate NodeId.next first fills ++ ·) hview, hviewLoose⟩

theorem numbered_helper {a : Nat} {first next : NodeId} {m : Method}
    (h : f.helper? spelledOut a first = (some m, next)) :
    ∃ k, Numbered [.method m] first k ∧ next = NodeId.next^[k] first := by
  rw [helper?_eq] at h
  split at h
  · obtain ⟨hids, hloose⟩ := f.ids_helperBody spelledOut (f.fillCount a) first
    obtain ⟨hidsBody, hlooseBody⟩ := ids_method (f.helperHead spelledOut (f.fillCount a))
      (.ofStmts (f.helperBody spelledOut (f.fillCount a) first))
    cases h
    exact ⟨_, ⟨hidsBody.trans hids, hlooseBody.trans hloose⟩, rfl⟩
  · cases h

theorem next_eq_of_helper?_eq_none {a : Nat} {first next : NodeId}
    (h : f.helper? spelledOut a first = (none, next)) : next = first := by
  rw [helper?_eq] at h
  split at h
  · cases h
  · cases h
    rfl

end Family

namespace FactoryHelpers

variable {f : Family} {spelledOut : List String} {package : String} {p : Path}

theorem provide_numbered (f : Family) (spelledOut : List String) (d : TypeDecl) (a : Nat)
    (s : State) : ∃ ms k, (provide f spelledOut d a s).1 = d.addMembers ms ∧
      Numbered ms s.nextId k ∧
      (provide f spelledOut d a s).2.nextId = NodeId.next^[k] s.nextId := by
  unfold provide
  split
  · refine ⟨[], 0, d.addMembers_nil.symm, .nil _, ?_⟩
    split
    · rfl
    · rfl
  · split
    · next hnone =>
      exact ⟨[], 0, d.addMembers_nil.symm, .nil _, Family.next_eq_of_helper?_eq_none hnone⟩
    · next helper _ hsome =>
      obtain ⟨k, hnumbered, hnext⟩ := Family.numbered_helper hsome
      refine ⟨[.method helper], k, ?_, hnumbered, hnext⟩
      rw [TypeDecl.addMembers_cons, TypeDecl.addMembers_nil]

theorem provideAll_numbered (f : Family) (spelledOut : List String) (arities : List Nat)
    (d : TypeDecl) (s : State) : ∃ ms k, (provideAll f spelledOut d arities s).1 = d.addMembers ms ∧
      Numbered ms s.nextId k ∧
      (provideAll f spelledOut d arities s).2.nextId = NodeId.next^[k] s.nextId := by
  induction arities generalizing d s with
  | nil => exact ⟨[], 0, d.addMembers_nil.symm, .nil _, rfl⟩
  | cons a rest ih =>
    obtain ⟨ms, k, hms, hnumbered, hnext⟩ := provide_numbered f spelledOut d a s
    obtain ⟨ns, l, hns, hrest, hlast⟩ :=
      ih (provide f spelledOut d a s).1 (provide f spelledOut d a s).2
    rw [hnext] at hrest hlast
    refine ⟨ms ++ ns, k + l, ?_, hnumbered.append hrest, ?_⟩
    · rw [TypeDecl.addMembers_append, ← hms]
      exact hns
    · rw [Nat.add_comm, Function.iterate_add_apply]
      exact hlast

theorem arities_eq_nil_of_unnamed {d : TypeDecl} {site : TypeSite} {s : State}
    (apart : (Place.mk p (.enterType d site)).isApart = true)
    (h : Open f package (.type d site :: p) s)
    (hunnamed : unnamed package (.type d site :: p) = true) : s.needed.arities d.id = [] := by
  have hfar : d.id ∉ hostIds package p := not_mem_hostIds_of_isApart apart
  refine List.eq_nil_iff_forall_not_mem.mpr fun a ha => ?_
  have hhost := h.hosts _ (ArityTable.mem_arities.mp ha)
  rw [hostIds_of_unnamed hunnamed] at hhost
  exact hfar hhost

/-- The walk takes identities for the helpers it adds, and loses only what stands in receivers of
the calls it lowers. -/
theorem editor_tracksIds (f : Family) (spelledOut : List String) (package : String) :
    (editor f spelledOut).TracksIds package (·.isApart = true) (Open f package) (·.nextId)
      (lowers f package) where
  visit {p v s} hv hs := by
    cases v <;> first | exact hv.elim | exact ⟨hs, rfl⟩
  enterCall _ hs := ⟨hs, rfl⟩
  call {p c receiver args s} hs hlength := by
    have hlowers : lowers f package p { c with receiver, args } = lowers f package p c :=
      lowers_congr rfl hlength
    refine ⟨?_, hs.call _, ?_⟩
    · rcases call_cases hs.scopes { c with receiver, args } with
        ⟨hl, host, name, _, heq⟩ | ⟨_, _, warnings, heq⟩ | ⟨_, _, heq⟩ <;> rw [heq]
      · exact ⟨rfl, rfl, .inr ⟨rfl, .inl (hlowers.symm.trans hl)⟩⟩
      · exact ⟨rfl, rfl, .inl rfl⟩
      · exact ⟨rfl, rfl, .inl rfl⟩
    · rcases call_cases hs.scopes { c with receiver, args } with
        ⟨hl, host, name, _, heq⟩ | ⟨_, _, warnings, heq⟩ | ⟨_, _, heq⟩ <;> rw [heq]
  enterType _ _ hs := ⟨hs.enterType, rfl⟩
  leaveType {p d site s} d' hok hs := by
    by_cases hunnamed : unnamed package (.type d site :: p) = true
    · have hnone := arities_eq_nil_of_unnamed hok hs hunnamed
      refine ⟨[], 0, ?_, hs.leaveType d', .nil _, ?_, fun _ => rfl⟩
      · rw [leaveType_eq hs.scopes, hnone, TypeDecl.addMembers_nil]
        rfl
      · rw [leaveType_eq hs.scopes, hnone]
        rfl
    · obtain ⟨ms, k, hms, hnumbered, hnext⟩ :=
        provideAll_numbered f spelledOut (s.needed.arities d.id) d'
          { s with scopes := scopesAt package p, needed := (s.needed.take d.id).2 }
      refine ⟨ms, k, ?_, hs.leaveType d', hnumbered, ?_, fun h => absurd h hunnamed⟩
      · rw [leaveType_eq hs.scopes]
        exact hms
      · rw [leaveType_eq hs.scopes]
        exact hnext
  enterAnonymous _ _ hs := ⟨hs.enterAnonymous, rfl⟩
  leaveAnonymous {p head ms s} _ hs := by
    have hnext : (FactoryHelpers.leaveAnonymous s).2.nextId = s.nextId := by
      rw [leaveAnonymous_eq hs.scopes]
    exact ⟨hs.leaveAnonymous, hnext⟩

end FactoryHelpers

end FactoryLowering
