import FactoryLowering.Proofs.Tree.Piece

/-! What an editing walk does, derived from what the editor does at single nodes. The tree that
comes out arises from the tree that went in by the editor's rewriting; the state is described by an
invariant for each path and by a relation between the states before and after some places. -/
namespace FactoryLowering

variable {σ α β : Type}

/-- A step of a walk at one path: it keeps the invariant, its result is as promised, and the states
before and after it are related by the places it passed. -/
def Passes (inv : Path → σ → Prop) (rel : Path → List Place → σ → σ → Prop) (p : Path)
    (places : List Place) (step : StateM σ α) (post : α → Prop) : Prop :=
  ∀ s, inv p s → post (step s).1 ∧ inv p (step s).2 ∧ rel p places s (step s).2

/-- The obligations of an editor. The rewriting, the invariant and the relation have to hold at
each node if the nodes below it are as they should be; `ok` is what is known of the places of the
tree before the walk. -/
structure Editor.Obeys (editor : Editor σ) (r : Rewriting) (ok : Place → Prop)
    (inv : Path → σ → Prop) (rel : Path → List Place → σ → σ → Prop) : Prop where
  refl : ∀ {p s}, inv p s → rel p [] s s
  trans : ∀ {p xs ys s t u}, rel p xs s t → rel p ys t u → rel p (xs ++ ys) s u
  visit : ∀ {p v s}, v.Announced → inv p s →
    inv p (editor.visit v s).2 ∧ rel p [⟨p, v⟩] s (editor.visit v s).2
  skip : ∀ {p v s}, v.Unannounced → inv p s → rel p [⟨p, v⟩] s s
  enterCall : ∀ {p c s}, inv p s → inv p (editor.visit (.call c) s).2
  call : ∀ {p c receiver args xs s t}, ok ⟨p, .call c⟩ → inv p s →
    rel p xs (editor.visit (.call c) s).2 t → inv p t →
    (∀ q, Expr.BecomesOption r p q c.receiver receiver) →
    (∀ q, Expr.BecomesList r p q c.args args) →
    (∀ q, r.call p q c { c with receiver, args } (editor.call { c with receiver, args } t).1) ∧
      inv p (editor.call { c with receiver, args } t).2 ∧
      rel p (⟨p, .call c⟩ :: xs) s (editor.call { c with receiver, args } t).2
  enterType : ∀ {p d site s}, ok ⟨p, .enterType d site⟩ → inv p s →
    inv (.type d site :: p) (editor.visit (.enterType d site) s).2
  leaveType : ∀ {p d d' site s t}, ok ⟨p, .enterType d site⟩ → inv p s →
    rel (.type d site :: p) (locate (.type d site :: p) d.innerVisits)
      (editor.visit (.enterType d site) s).2 t →
    inv (.type d site :: p) t → d.Alike d' →
    (∀ q, r.type p q site d d' (editor.leaveType d' t).1) ∧ inv p (editor.leaveType d' t).2 ∧
      rel p (locate p (d.visits site)) s (editor.leaveType d' t).2
  enterAnonymous : ∀ {p head ms s}, inv p s →
    inv (.anonymous head ms :: p) (editor.visit (.enterAnonymous head ms) s).2
  leaveAnonymous : ∀ {p head ms ms' s t}, inv p s →
    rel (.anonymous head ms :: p) (locate (.anonymous head ms :: p) (Member.visitsList ms))
      (editor.visit (.enterAnonymous head ms) s).2 t →
    inv (.anonymous head ms :: p) t → methodHeads ms' = methodHeads ms →
    inv p (editor.leaveAnonymous head ms' t).2 ∧
      rel p (⟨p, .enterAnonymous head ms⟩ ::
        (locate (.anonymous head ms :: p) (Member.visitsList ms) ++
          [⟨.anonymous head ms :: p, .leaveAnonymous head ms⟩])) s
        (editor.leaveAnonymous head ms' t).2

namespace Editor.Obeys

variable {editor : Editor σ} {r : Rewriting} {ok : Place → Prop} {inv : Path → σ → Prop}
  {rel : Path → List Place → σ → σ → Prop} {p : Path}

theorem done (h : editor.Obeys r ok inv rel) {a : α} {post : α → Prop} (ha : post a) :
    Passes inv rel p [] (pure a : StateM σ α) post :=
  fun _ hs => ⟨ha, hs, h.refl hs⟩

theorem bind (h : editor.Obeys r ok inv rel) {xs ys : List Place} {m : StateM σ α}
    {next : α → StateM σ β} {mid : α → Prop} {post : β → Prop} (hm : Passes inv rel p xs m mid)
    (hn : ∀ a, mid a → Passes inv rel p ys (next a) post) :
    Passes inv rel p (xs ++ ys) (m >>= next) post := by
  intro s hs
  obtain ⟨hmid, hinv, hrel⟩ := hm s hs
  obtain ⟨hpost, hinv', hrel'⟩ := hn _ hmid _ hinv
  exact ⟨hpost, hinv', h.trans hrel hrel'⟩

theorem last (h : editor.Obeys r ok inv rel) {xs : List Place} {m : StateM σ α} {next : α → β}
    {mid : α → Prop} {post : β → Prop} (hm : Passes inv rel p xs m mid)
    (hn : ∀ a, mid a → post (next a)) :
    Passes inv rel p xs (m >>= fun a => pure (next a)) post := by
  have hb := h.bind hm fun a ha => h.done (p := p) (hn a ha)
  rwa [List.append_nil] at hb

theorem tell (h : editor.Obeys r ok inv rel) {vs : List Visit} (hv : ∀ v ∈ vs, v.Announced) :
    Passes inv rel p (locate p vs) (editor.tell vs) fun _ => True := by
  induction vs with
  | nil => exact h.done trivial
  | cons v vs ih =>
    obtain ⟨hfirst, hrest⟩ := List.forall_mem_cons.mp hv
    have hm : Passes inv rel p [⟨p, v⟩] (editor.visit v) fun _ => True :=
      fun _ hs => ⟨trivial, h.visit hfirst hs⟩
    have hquiet : v.Quiet := .inl hfirst
    rw [locate, hquiet.pathAfter]
    exact h.bind hm fun _ _ => ih hrest

theorem passOver (h : editor.Obeys r ok inv rel) {vs : List Visit} {ys : List Place}
    {next : StateM σ β} {post : β → Prop} (hv : ∀ v ∈ vs, v.Unannounced)
    (hn : Passes inv rel p ys next post) : Passes inv rel p (locate p vs ++ ys) next post := by
  induction vs with
  | nil => exact hn
  | cons v vs ih =>
    obtain ⟨hfirst, hrest⟩ := List.forall_mem_cons.mp hv
    rw [locate, hfirst.pathAfter]
    intro s hs
    obtain ⟨hpost, hinv, hrel⟩ := ih hrest s hs
    have hboth : rel p ([⟨p, v⟩] ++ (locate p vs ++ ys)) s _ := h.trans (h.skip hfirst hs) hrel
    exact ⟨hpost, hinv, hboth⟩

theorem node (h : editor.Obeys r ok inv rel) {K : Kind α} {L : Kind β} {build : α → β}
    {own : α → List Visit} {refs : List Visit} {a : α} (n : K.Node L build own refs)
    (ha : Passes inv rel p (locate p (K.visits a)) (K.edit editor a)
      fun a' => ∀ q, K.becomes r p q a a') :
    Passes inv rel p (locate p (L.visits (build a))) (L.edit editor (build a))
      fun b => ∀ q, L.becomes r p q (build a) b := by
  have hown : Level (own a) := .quiet fun v hv => .inl (n.announced a v hv)
  have hrefs : Level refs := .quiet fun v hv => .inr (n.unannounced v hv)
  rw [n.edit, n.visits, List.append_assoc, locate_append hown, locate_append hrefs]
  exact h.bind (h.tell (n.announced a)) fun _ _ => h.passOver n.unannounced
    (h.last ha fun a' ha' q => n.becomes.mpr ⟨a', ha' q, rfl⟩)

theorem walkCall (h : editor.Obeys r ok inv rel) {c : Call} (hok : ok ⟨p, .call c⟩)
    (hr : Passes inv rel p (locate p (Expr.visitsOption c.receiver)) (editor.exprOption c.receiver)
      fun receiver => ∀ q, Expr.BecomesOption r p q c.receiver receiver)
    (ha : Passes inv rel p (locate p (Expr.visitsList c.args)) (editor.exprList c.args)
      fun args => ∀ q, Expr.BecomesList r p q c.args args) :
    Passes inv rel p (locate p (Expr.call c).visits) (editor.expr (.call c))
      fun e => ∀ q, (Expr.call c).Becomes r p q e := by
  have hnode : Passes inv rel p [⟨p, .expr (.call c)⟩] (editor.visit (.expr (.call c)))
      fun _ => True := fun _ hs => ⟨trivial, h.visit trivial hs⟩
  rw [Expr.locate_call, Editor.expr_call]
  refine h.bind hnode fun _ _ s hs => ?_
  obtain ⟨hreceiver, hinv, hrel⟩ := hr _ (h.enterCall hs)
  obtain ⟨hargs, hinv', hrel'⟩ := ha _ hinv
  obtain ⟨hcall, hinv'', hrel''⟩ := h.call hok hs (h.trans hrel hrel') hinv' hreceiver hargs
  refine ⟨fun q => ?_, hinv'', hrel''⟩
  exact Expr.becomes_call.mpr ⟨_, _, _, hreceiver q, hargs q, hcall q, rfl⟩

theorem walkAnonymous (h : editor.Obeys r ok inv rel) {head : ClassHead} {ms : List Member}
    (hms : Passes inv rel (.anonymous head ms :: p)
      (locate (.anonymous head ms :: p) (Member.visitsList ms)) (editor.memberList ms)
      fun ms' => ∀ q, Member.BecomesList r (.anonymous head ms :: p) q ms ms') :
    Passes inv rel p (locate p ((Kind.anonymous head).visits ms)) (editor.anonymous head ms)
      fun ms' => ∀ q, (Kind.anonymous head).becomes r p q ms ms' := by
  have hplaces : locate p ((Kind.anonymous head).visits ms) = _ := locate_anonymous p head ms
  rw [hplaces]
  intro s hs
  obtain ⟨hms', hinv, hrel⟩ := hms _ (h.enterAnonymous hs)
  obtain ⟨hinv', hrel'⟩ := h.leaveAnonymous hs hrel hinv (hms' []).methodHeads_eq
  exact ⟨fun q => hms' _, hinv', hrel'⟩

theorem walkType (h : editor.Obeys r ok inv rel) {d : TypeDecl} {site : TypeSite}
    (hok : ok ⟨p, .enterType d site⟩)
    (hd : Passes inv rel (.type d site :: p) (locate (.type d site :: p) d.innerVisits)
      (editor.body d) fun d' => ∀ q, d.BodyBecomes r (.type d site :: p) q d') :
    Passes inv rel p (locate p (d.visits site)) (editor.typeDecl site d)
      fun new => ∀ q, d.Becomes r p q site new := by
  rw [Editor.typeDecl_eq]
  intro s hs
  obtain ⟨hbody, hinv, hrel⟩ := hd _ (h.enterType hok hs)
  obtain ⟨htype, hinv', hrel'⟩ := h.leaveType hok hs hrel hinv (hbody []).alike
  exact ⟨fun q => TypeDecl.becomes_iff.mpr ⟨_, hbody _, htype q⟩, hinv', hrel'⟩

/-- A walk over any piece whose places are known to be in order. -/
theorem hereditary (h : editor.Obeys r ok inv rel) : Hereditary fun K p a =>
    (∀ x ∈ locate p (K.visits a), ok x) → Passes inv rel p (locate p (K.visits a))
      (K.edit editor a) fun a' => ∀ q, K.becomes r p q a a' where
  unit _ := h.done fun _ => trivial
  pair {_ _ K L p a b} level ha hb hok := by
    have hplaces : locate p ((K.prod L).visits (a, b)) = _ := locate_append (level a) p (L.visits b)
    rw [hplaces, List.forall_mem_append] at hok
    rw [hplaces]
    exact h.bind (ha hok.1) fun a' ha' => h.last (hb hok.2) fun b' hb' q => ⟨ha' q, hb' q⟩
  node {_ _ K L} build own refs {p a} n ha hok := by
    rw [n.visits, locate_append (.quiet (n.quiet a)), List.forall_mem_append] at hok
    exact h.node n (ha hok.2)
  call {p} c hr ha hok := by
    have hok : ∀ x ∈ locate p (Expr.call c).visits, ok x := hok
    rw [Expr.locate_call] at hok
    simp only [List.forall_mem_cons, List.forall_mem_append] at hok
    obtain ⟨_, hokc, hokr, hoka⟩ := hok
    exact h.walkCall hokc (hr hokr) (ha hoka)
  anonymous {p head ms} hms hok := by
    have hplaces : locate p ((Kind.anonymous head).visits ms) = _ := locate_anonymous p head ms
    rw [hplaces, List.forall_mem_cons, List.forall_mem_append] at hok
    exact h.walkAnonymous (hms hok.2.1)
  type {p site d} hd hok := by
    have hok : ∀ x ∈ locate p (d.visits site), ok x := hok
    rw [TypeDecl.locate_visits, List.forall_mem_cons, List.forall_mem_append] at hok
    exact h.walkType hok.1 (hd hok.2.1)

theorem types (h : editor.Obeys r ok inv rel) (ds : List TypeDecl)
    (hok : ∀ x ∈ typesPlaces ds, ok x) :
    Passes inv rel [] (typesPlaces ds) (editor.types ds) fun ds' => TypesBecome r ds ds' := by
  intro s hs
  obtain ⟨hds, hinv, hrel⟩ := h.hereditary.types [] ds hok s hs
  exact ⟨typesBecome_iff.mpr (hds []), hinv, hrel⟩

end Editor.Obeys

end FactoryLowering
