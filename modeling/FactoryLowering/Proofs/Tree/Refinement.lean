import FactoryLowering.Proofs.Tree.Piece

/-! # Refining a rewriting

What is known of a rewriting can be sharpened by what is known of the places of the old tree. Such
knowledge is carried from a node to the nodes inside it; at calls and types it turns one rule into
another.
-/
namespace FactoryLowering

/-- What it takes to get from one rewriting to another. `ok` says of a place inside a node what the
old and the new path of that node tell about it. -/
structure Rewriting.Refines (r r' : Rewriting) (ok : Path → Path → Place → Prop) : Prop where
  enterType : ∀ {p q site d d' new}, (∀ x ∈ locate p (d.visits site), ok p q x) → d.Alike d' →
    r.type p q site d d' new → ∀ x ∈ locate (.type d site :: p) d.innerVisits,
      ok (.type d site :: p) (.type new site :: q) x
  enterAnonymous : ∀ {p q head ms ms' x}, ok p q x → methodHeads ms' = methodHeads ms →
    ok (.anonymous head ms :: p) (.anonymous head ms' :: q) x
  call : ∀ {p q c receiver args new}, ok p q ⟨p, .call c⟩ →
    Expr.BecomesOption r p q c.receiver receiver → Expr.BecomesList r p q c.args args →
    r.call p q c { c with receiver, args } new → r'.call p q c { c with receiver, args } new
  type : ∀ {p q site d d' new}, ok p q ⟨p, .enterType d site⟩ → d.Alike d' →
    r.type p q site d d' new → r'.type p q site d d' new

variable {r r' : Rewriting} {ok : Path → Path → Place → Prop}

theorem Rewriting.Refines.hereditary (h : r.Refines r' ok) : Hereditary fun K p a => ∀ q new,
    (∀ x ∈ locate p (K.visits a), ok p q x) → K.becomes r p q a new → K.becomes r' p q a new where
  unit _ _ _ hb := hb
  pair {_ _ K L p a b} level ha hb q new hok hboth := by
    have hok : ∀ x ∈ locate p (K.visits a ++ L.visits b), ok p q x := hok
    rw [locate_append (level a), List.forall_mem_append] at hok
    exact ⟨ha q _ hok.1 hboth.1, hb q _ hok.2 hboth.2⟩
  node {_ _ K L} build own refs {p a} n ha q _ hok hb := by
    obtain ⟨a', ha', rfl⟩ := n.becomes.mp hb
    rw [n.visits, locate_append (Level.quiet (n.quiet a)), List.forall_mem_append] at hok
    exact n.becomes.mpr ⟨a', ha q a' hok.2 ha', rfl⟩
  call {p} c hr ha q _ hok hb := by
    obtain ⟨receiver, args, call, hreceiver, hargs, hcall, rfl⟩ := Expr.becomes_call.mp hb
    have hok : ∀ x ∈ locate p (Expr.call c).visits, ok p q x := hok
    rw [Expr.locate_call] at hok
    simp only [List.forall_mem_cons, List.forall_mem_append] at hok
    obtain ⟨_, hokc, hokr, hoka⟩ := hok
    exact Expr.becomes_call.mpr ⟨receiver, args, call, hr q receiver hokr hreceiver,
      ha q args hoka hargs, h.call hokc hreceiver hargs hcall, rfl⟩
  anonymous {p head ms} hms q ms' hok hb := by
    have hb : Member.BecomesList r (.anonymous head ms :: p) (.anonymous head ms' :: q) ms ms' := hb
    have hplaces : locate p ((Kind.anonymous head).visits ms) = _ := locate_anonymous p head ms
    rw [hplaces, List.forall_mem_cons, List.forall_mem_append] at hok
    exact hms _ ms' (fun x hx => h.enterAnonymous (hok.2.1 x hx) hb.methodHeads_eq) hb
  type {p site d} hd q new hok hb := by
    obtain ⟨d', hd', htype⟩ := TypeDecl.becomes_iff.mp hb
    have hin := h.enterType hok hd'.alike htype
    have hok : ∀ x ∈ locate p (d.visits site), ok p q x := hok
    rw [TypeDecl.locate_visits, List.forall_mem_cons] at hok
    exact TypeDecl.becomes_iff.mpr ⟨d', hd _ d' hin hd', h.type hok.1 hd'.alike htype⟩

theorem TypesBecome.refine (h : r.Refines r' ok) {old new : List TypeDecl}
    (hok : ∀ x ∈ typesPlaces old, ok [] [] x) (hb : TypesBecome r old new) :
    TypesBecome r' old new :=
  typesBecome_iff.mpr (h.hereditary.types [] old [] new hok (typesBecome_iff.mp hb))

/-- Calls and types keep what they are, with the subtrees they have come to. -/
def unchanged : Rewriting where
  call _ _ _ c new := new = c
  type _ _ _ _ d new := new = d

theorem eq_of_unchanged : Hereditary fun K p a => ∀ q new, K.becomes unchanged p q a new →
    new = a where
  unit _ _ _ := rfl
  pair _ ha hb q _ h := Prod.ext (ha q _ h.1) (hb q _ h.2)
  node build own refs _ _ n ha q _ h := by
    obtain ⟨a', ha', rfl⟩ := n.becomes.mp h
    rw [ha q a' ha']
  call c hr ha q _ h := by
    obtain ⟨receiver, args, _, hreceiver, hargs, rfl, rfl⟩ := Expr.becomes_call.mp h
    rw [hr q receiver hreceiver, ha q args hargs]
    obtain ⟨id, receiver, name, args, method, span⟩ := c
    rfl
  anonymous hms _ _ h := hms _ _ h
  type hd _ _ h := by
    obtain ⟨_, hbody, rfl⟩ := TypeDecl.becomes_iff.mp h
    exact hd _ _ hbody

theorem TypesBecome.eq_old {old new : List TypeDecl} (h : TypesBecome unchanged old new) :
    new = old :=
  eq_of_unchanged.types [] old [] new (typesBecome_iff.mp h)

end FactoryLowering
