import FactoryLowering.Proofs.FactoryHelpers.Idempotence
import FactoryLowering.Proofs.Tree.Identity

/-! # One family's walk after another's

A walk goes through the same states whether or not another family was there before, apart from the
numbers that its helpers take. The other family's helpers ask for nothing and serve nobody, and the
calls it lowered are no calls of this family's factory. Receivers that it dropped must not have
mattered: they may hold no call and no type with the identity of a host around.
-/
namespace FactoryLowering

namespace FactoryHelpers

def State.shift (s : State) (k : Nat) : State := { s with nextId := NodeId.next^[k] s.nextId }

def State.enter (s : State) (d : TypeDecl) (site : TypeSite) : State :=
  { s with scopes := s.scopes.enter d site }

def State.enterAnonymous (s : State) (head : ClassHead) : State :=
  { s with scopes := s.scopes.enterAnonymous head }

variable {f g : Family} {spelledOut : List String} {package : String} {p : Path} {s t : State}
  {d d' : TypeDecl}

theorem Open.shift (h : Open f package p s) (k : Nat) : Open f package p (s.shift k) :=
  ⟨h.scopes, h.failure, h.hosts, h.accepted⟩

theorem Open.enter (h : Open f package p s) (d : TypeDecl) (site : TypeSite) :
    Open f package (.type d site :: p) (s.enter d site) := h.enterType

theorem State.enter_shift (s : State) (k : Nat) (d : TypeDecl) (site : TypeSite) :
    (s.shift k).enter d site = (s.enter d site).shift k := rfl

theorem State.enter_addMembers (h : d.Alike d') (s : State) (site : TypeSite) (ms : List Member) :
    s.enter (d'.addMembers ms) site = s.enter d site := by
  rw [State.enter, h.addMembers site ms, State.enter]

/-- Only what a call is bound to, its number of arguments and its identity show in the state. -/
theorem call_shift (f : Family) (spelledOut : List String) (c c' : Call) (hid : c'.id = c.id)
    (hmethod : c'.method = c.method) (harity : c'.arity = c.arity) (s : State) (k : Nat) :
    ((editor f spelledOut).call c' (s.shift k)).2 =
      ((editor f spelledOut).call c s).2.shift k := by
  have hmatch : f.pattern.isMatch c' = f.pattern.isMatch c := by
    simp only [MethodPattern.isMatch, hmethod]
  have hhelper : ∀ fqn, helperMethod f fqn c' = helperMethod f fqn c := by
    intro fqn
    simp only [helperMethod, harity, hmethod]
  have hhost : (s.shift k).host? = s.host? := rfl
  simp only [editor, hmatch]
  split
  · simp only [lowerCall, hhost, hhelper, hid, harity]
    split
    · rfl
    · split
      · rfl
      · rfl
  · rfl

theorem call_of_not_isMatch {c : Call} (h : f.pattern.isMatch c = false) (s : State) :
    (editor f spelledOut).call c s = (c, s) := by
  simp only [editor, h]
  rfl

/-- Helpers of one family for the same arities, one by one. -/
def SameHelpers (f : Family) (spelledOut : List String) (ms ms' : List Method) : Prop :=
  ∃ arities, List.Forall₂ (f.IsHelper spelledOut) arities ms ∧
    List.Forall₂ (f.IsHelper spelledOut) arities ms'

namespace SameHelpers

variable {ms ms' ns ns' : List Method}

theorem nil : SameHelpers f spelledOut [] [] := ⟨[], .nil, .nil⟩

theorem symm (h : SameHelpers f spelledOut ms ms') : SameHelpers f spelledOut ms' ms := by
  obtain ⟨arities, hms, hms'⟩ := h
  exact ⟨arities, hms', hms⟩

theorem append (h : SameHelpers f spelledOut ms ms') (k : SameHelpers f spelledOut ns ns') :
    SameHelpers f spelledOut (ms ++ ns) (ms' ++ ns') := by
  obtain ⟨arities, hms, hms'⟩ := h
  obtain ⟨others, hns, hns'⟩ := k
  exact ⟨arities ++ others, List.rel_append hms hns, List.rel_append hms' hns'⟩

theorem map_head (h : SameHelpers f spelledOut ms ms') :
    ms'.map (·.head) = ms.map (·.head) := by
  obtain ⟨arities, hms, hms'⟩ := h
  induction hms generalizing ms' with
  | nil =>
    cases hms'
    rfl
  | cons hm _ ih =>
    cases hms' with
    | cons hm' hms' =>
      rw [List.map_cons, List.map_cons, ih hms', hm.accepts_and_head.2, hm'.accepts_and_head.2]

end SameHelpers

/-- Two versions of one type that can be told apart neither by the warnings about them nor by the
helper calls that their own methods serve. -/
structure Interchangeable (g : Family) (d d' : TypeDecl) : Prop where
  label : d'.label = d.label
  serves : ∀ a, (methodHeads d'.members).find? (g.servesHead a) =
    (methodHeads d.members).find? (g.servesHead a)

theorem label_addMembers (d : TypeDecl) (ms : List Member) : (d.addMembers ms).label = d.label := by
  cases d <;> rfl

theorem Interchangeable.addMembers {ms ms' : List Method} (h : Interchangeable g d d')
    (hms : SameHelpers g spelledOut ms ms') :
    Interchangeable g (d.addMembers (ms.map .method)) (d'.addMembers (ms'.map .method)) := by
  refine ⟨?_, fun a => ?_⟩
  · rw [label_addMembers, label_addMembers, h.label]
  · simp only [TypeDecl.members_addMembers, methodHeads_append, methodHeads_map_method,
      List.find?_append, h.serves a, hms.map_head]

theorem provide_shift (spelledOut : List String) (h : Interchangeable g d d') (a : Nat)
    (s : State) (k : Nat) :
    ∃ ms ms', SameHelpers g spelledOut ms ms' ∧
      (provide g spelledOut d a s).1 = d.addMembers (ms.map .method) ∧
      provide g spelledOut d' a (s.shift k) =
        (d'.addMembers (ms'.map .method), (provide g spelledOut d a s).2.shift k) := by
  have hhead : (g.compatible? d' a).map (·.head) = (g.compatible? d a).map (·.head) := by
    rw [Family.compatible?_map_head, Family.compatible?_map_head, h.serves]
  cases hfound : g.compatible? d a with
  | some found =>
    rw [hfound] at hhead
    obtain ⟨found', hfound', hsame⟩ := Option.map_eq_some_iff.mp hhead
    refine ⟨[], [], .nil, ?_, ?_⟩
    · simp only [provide, hfound, List.map_nil, TypeDecl.addMembers_nil]
    · simp only [provide, hfound, hfound', hsame, h.label, List.map_nil, TypeDecl.addMembers_nil]
      split <;> rfl
  | none =>
    rw [hfound] at hhead
    have hfound' := Option.map_eq_none_iff.mp hhead
    cases haccepts : g.accepts a with
    | false =>
      refine ⟨[], [], .nil, ?_, ?_⟩
      · simp only [provide, hfound, Family.helper?_eq, haccepts, Bool.false_eq_true, if_false,
          List.map_nil, TypeDecl.addMembers_nil]
      · simp only [provide, hfound, hfound', Family.helper?_eq, haccepts, Bool.false_eq_true,
          if_false, h.label, List.map_nil, TypeDecl.addMembers_nil]
        rfl
    | true =>
      have hhelper : ∀ n, ∃ m, g.helper? spelledOut a n =
          (some m, NodeId.next^[g.fillCount a + 1] n) := by
        intro n
        simp only [Family.helper?_eq, haccepts, if_true]
        exact ⟨_, rfl⟩
      obtain ⟨m, hm⟩ := hhelper s.nextId
      obtain ⟨m', hm'⟩ := hhelper (NodeId.next^[k] s.nextId)
      have hsame : SameHelpers g spelledOut [m] [m'] :=
        ⟨[a], .cons ⟨_, by rw [hm]⟩ .nil, .cons ⟨_, by rw [hm']⟩ .nil⟩
      refine ⟨[m], [m'], hsame, ?_, ?_⟩
      · simp only [provide, hfound, hm, List.map_cons, List.map_nil, TypeDecl.addMembers_cons,
          TypeDecl.addMembers_nil]
      · have hnext : NodeId.next^[g.fillCount a + 1] (NodeId.next^[k] s.nextId) =
            NodeId.next^[k] (NodeId.next^[g.fillCount a + 1] s.nextId) :=
          (Function.Commute.refl NodeId.next).iterate_iterate _ _ s.nextId
        have hshift : (s.shift k).nextId = NodeId.next^[k] s.nextId := rfl
        simp only [provide, hfound, hfound', hm, hshift, hm', hnext, List.map_cons, List.map_nil,
          TypeDecl.addMembers_cons, TypeDecl.addMembers_nil]
        rfl

theorem provideAll_shift (h : Interchangeable g d d') (arities : List Nat) (s : State) (k : Nat) :
    ∃ ms ms', SameHelpers g spelledOut ms ms' ∧
      (provideAll g spelledOut d arities s).1 = d.addMembers (ms.map .method) ∧
      provideAll g spelledOut d' arities (s.shift k) =
        (d'.addMembers (ms'.map .method), (provideAll g spelledOut d arities s).2.shift k) := by
  induction arities generalizing d d' s with
  | nil =>
    refine ⟨[], [], .nil, d.addMembers_nil.symm, ?_⟩
    rw [List.map_nil, TypeDecl.addMembers_nil]
    rfl
  | cons a rest ih =>
    obtain ⟨ms, ms', hms, hd, hd'⟩ := provide_shift spelledOut h a s k
    obtain ⟨ns, ns', hns, hrest, hrest'⟩ := ih (h.addMembers hms) (provide g spelledOut d a s).2
    have hstep : ∀ d s, provideAll g spelledOut d (a :: rest) s =
        provideAll g spelledOut (provide g spelledOut d a s).1 rest
          (provide g spelledOut d a s).2 := fun _ _ => rfl
    refine ⟨ms ++ ns, ms' ++ ns', hms.append hns, ?_, ?_⟩
    · rw [hstep, hd, hrest, List.map_append, TypeDecl.addMembers_append]
    · rw [hstep, hstep, hd', hrest', hd, List.map_append, TypeDecl.addMembers_append]

/-- Helpers of one family do not serve calls of another one's. -/
theorem Interchangeable.withHelpers {arities : List Nat} {ms : List Method} (hne : f ≠ g)
    (hlabel : d'.label = d.label) (hheads : methodHeads d'.members = methodHeads d.members)
    (hms : List.Forall₂ (f.IsHelper spelledOut) arities ms) :
    Interchangeable g d (d'.addMembers (ms.map .method)) := by
  refine ⟨(label_addMembers d' _).trans hlabel, fun a => ?_⟩
  have hname : (f.helperName == g.helperName) = false := by
    cases f <;> cases g <;> first | exact absurd rfl hne | decide
  have hnone : (ms.map (·.head)).find? (g.servesHead a) = none := by
    refine List.find?_eq_none.mpr fun head hhead => ?_
    obtain ⟨m, hm, rfl⟩ := List.mem_map.mp hhead
    obtain ⟨b, _, hhelper⟩ := exists_of_mem_of_forall₂ (List.Forall₂.flip hms) hm
    have hhelper : f.IsHelper spelledOut b m := hhelper
    have hother : (m.head.name == g.helperName) = false := by
      rw [hhelper.accepts_and_head.2]
      exact hname
    simp [Family.servesHead, hother]
  rw [TypeDecl.members_addMembers, methodHeads_append, methodHeads_map_method, List.find?_append,
    hheads, hnone, Option.or_none]

theorem leaveType_shift (spelledOut : List String) {e : TypeDecl} {site : TypeSite}
    (h : Interchangeable g d d')
    (hs : Open g package (.type e site :: p) s) (k : Nat) :
    ∃ ms ms', SameHelpers g spelledOut ms ms' ∧
      ((editor g spelledOut).leaveType d s).1 = d.addMembers (ms.map .method) ∧
      (editor g spelledOut).leaveType d' (s.shift k) =
        (d'.addMembers (ms'.map .method), ((editor g spelledOut).leaveType d s).2.shift k) := by
  have hs' : (s.shift k).scopes = scopesAt package (.type e site :: p) := hs.scopes
  rw [leaveType_eq hs.scopes, leaveType_eq hs']
  exact provideAll_shift h (s.needed.arities e.id) _ k

theorem tell_eq {vs : List Visit} (h : ∀ v ∈ vs, v.Announced) (s : State) :
    (editor f spelledOut).tell vs s = ((), s) := by
  induction vs with
  | nil => rfl
  | cons v vs ih =>
    obtain ⟨hv, hvs⟩ := List.forall_mem_cons.mp h
    have hvisit : (editor f spelledOut).visit v s = ((), s) := by
      cases v <;> first | exact hv.elim | rfl
    have htell : (editor f spelledOut).tell (v :: vs) s =
        (editor f spelledOut).tell vs ((editor f spelledOut).visit v s).2 := rfl
    rw [htell, hvisit]
    exact ih hvs

theorem edit_node {α β : Type} {K : Kind α} {L : Kind β} {build : α → β} {own : α → List Visit}
    {refs : List Visit} (n : K.Node L build own refs) (a : α) (s : State) :
    L.edit (editor f spelledOut) (build a) s =
      (build (K.edit (editor f spelledOut) a s).1, (K.edit (editor f spelledOut) a s).2) := by
  have htell : (editor f spelledOut).tell (own a) s = ((), s) := tell_eq (n.announced a) s
  have hedit : L.edit (editor f spelledOut) (build a) s =
      (build (K.edit (editor f spelledOut) a ((editor f spelledOut).tell (own a) s).2).1,
        (K.edit (editor f spelledOut) a ((editor f spelledOut).tell (own a) s).2).2) := by
    rw [n.edit]
    rfl
  rw [hedit, htell]

theorem edit_call {c : Call} {receiver : Option Expr} {args : List Expr} {s₁ s₂ : State}
    (hr : Kind.exprOption.edit (editor f spelledOut) c.receiver s = (receiver, s₁))
    (ha : Kind.exprList.edit (editor f spelledOut) c.args s₁ = (args, s₂)) :
    Kind.expr.edit (editor f spelledOut) (.call c) s =
      (.call ((editor f spelledOut).call { c with receiver, args } s₂).1,
        ((editor f spelledOut).call { c with receiver, args } s₂).2) := by
  obtain ⟨rfl, rfl⟩ := Prod.ext_iff.mp hr
  obtain ⟨rfl, rfl⟩ := Prod.ext_iff.mp ha
  have hedit : Kind.expr.edit (editor f spelledOut) (.call c) =
    (editor f spelledOut).expr (.call c) := rfl
  rw [hedit, Editor.expr_call]
  rfl

theorem length_edit {es es' : List Expr} {s t : State}
    (h : Kind.exprList.edit (editor f spelledOut) es s = (es', t)) : es'.length = es.length := by
  have hlength := (editor f spelledOut).length_exprList es s
  obtain ⟨rfl, _⟩ := Prod.ext_iff.mp h
  exact hlength

theorem alike_edit {d d' : TypeDecl} {s t : State}
    (h : Kind.body.edit (editor f spelledOut) d s = (d', t)) : d.Alike d' ∧ d'.label = d.label := by
  have halike := (editor f spelledOut).alike_body d s
  have hlabel : ((editor f spelledOut).body d s).1.label = d.label := by cases d <;> rfl
  obtain ⟨rfl, _⟩ := Prod.ext_iff.mp h
  exact ⟨halike, hlabel⟩

theorem edit_addMembers {d d' : TypeDecl} {ms ms' : List Member} {s t u : State}
    (hd : Kind.body.edit (editor f spelledOut) d s = (d', t))
    (hms : Kind.memberList.edit (editor f spelledOut) ms t = (ms', u)) :
    Kind.body.edit (editor f spelledOut) (d.addMembers ms) s = (d'.addMembers ms', u) := by
  obtain ⟨rfl, rfl⟩ := Prod.ext_iff.mp hd
  obtain ⟨rfl, rfl⟩ := Prod.ext_iff.mp hms
  cases d with
  | classDecl head members =>
    have hall := (editor f spelledOut).memberList_append members ms s
    exact congrArg (fun x => (TypeDecl.classDecl head x.1, x.2)) hall
  | interfaceDecl head members =>
    have hall := (editor f spelledOut).memberList_append members ms s
    exact congrArg (fun x => (TypeDecl.interfaceDecl head x.1, x.2)) hall
  | enumDecl head constants members =>
    have hall := (editor f spelledOut).memberList_append members ms
      ((editor f spelledOut).constantList constants s).2
    exact congrArg (fun x => (TypeDecl.enumDecl head
      ((editor f spelledOut).constantList constants s).1 x.1, x.2)) hall

theorem edit_typeDecl (site : TypeSite) (d : TypeDecl) (s : State) :
    (Kind.typeDecl site).edit (editor f spelledOut) d s =
      (editor f spelledOut).leaveType
        (Kind.body.edit (editor f spelledOut) d (s.enter d site)).1
        (Kind.body.edit (editor f spelledOut) d (s.enter d site)).2 := by
  have hedit : (Kind.typeDecl site).edit (editor f spelledOut) d =
    (editor f spelledOut).typeDecl site d := rfl
  rw [hedit, Editor.typeDecl_eq]
  rfl

theorem edit_anonymous (head : ClassHead) (ms : List Member) (s : State) :
    (Kind.anonymous head).edit (editor f spelledOut) ms s =
      ((Kind.memberList.edit (editor f spelledOut) ms (s.enterAnonymous head)).1,
        (leaveAnonymous (Kind.memberList.edit (editor f spelledOut) ms
          (s.enterAnonymous head)).2).2) := rfl

theorem open_kept (f : Family) (spelledOut : List String) (package : String) :
    Hereditary fun K p a => ∀ s, Open f package p s →
      Open f package p (K.edit (editor f spelledOut) a s).2 where
  unit s hs := hs
  pair _ ha hb s hs := hb _ (ha s hs)
  node {_ _ K L} build own refs {p a} n ha s hs := by
    rw [edit_node n]
    exact ha s hs
  call {p} c hr ha s hs := by
    rcases hreceiver : Kind.exprOption.edit (editor f spelledOut) c.receiver s with ⟨r, s₁⟩
    rcases hargs : Kind.exprList.edit (editor f spelledOut) c.args s₁ with ⟨as, s₂⟩
    have hs₁ := hr s hs
    rw [hreceiver] at hs₁
    have hs₂ := ha s₁ hs₁
    rw [hargs] at hs₂
    rw [edit_call hreceiver hargs]
    exact hs₂.call _
  anonymous hms s hs := (hms _ hs.enterAnonymous).leaveAnonymous
  type {p site d} hd s hs := by
    rw [edit_typeDecl]
    exact (hd _ (hs.enter d site)).leaveType _

/-- Visits in which a walk does nothing: calls that are not of the factory, and types that are not
asked for anything. -/
def ignores (f : Family) (hosts : List NodeId) : Visit → Prop
  | .call c => f.pattern.isMatch c = false
  | .enterType d _ => d.id ∉ hosts
  | _ => True

/-- Types that get no name here, or no types at all. -/
def Harmless (package : String) {α : Type} (K : Kind α) (p : Path) (a : α) : Prop :=
  K.hides (unnamed package p) = true ∨ ∀ d site, Visit.enterType d site ∉ K.visits a

/-- A walk passes such pieces without a trace. -/
theorem untouched (f : Family) (spelledOut : List String) (package : String) :
    Hereditary fun K p a => Harmless package K p a →
      (∀ v ∈ K.visits a, ignores f (hostIds package p) v) →
      ∀ s, Open f package p s → K.edit (editor f spelledOut) a s = (a, s) where
  unit _ _ s _ := rfl
  pair {_ _ K L p a b} _ ha hb hharmless hv s hs := by
    obtain ⟨hva, hvb⟩ := List.forall_mem_append.mp hv
    have hleft : K.edit (editor f spelledOut) a s = (a, s) :=
      ha (hharmless.imp (fun h => (Bool.and_eq_true _ _ ▸ h).1)
        fun h d site hd => h d site (List.mem_append_left _ hd)) hva s hs
    have hright : L.edit (editor f spelledOut) b s = (b, s) :=
      hb (hharmless.imp (fun h => (Bool.and_eq_true _ _ ▸ h).2)
        fun h d site hd => h d site (List.mem_append_right _ hd)) hvb s hs
    rw [Kind.edit_prod, hleft, hright]
  node {_ _ K L} build own refs {p a} n ha hharmless hv s hs := by
    have hsub : ∀ v ∈ K.visits a, v ∈ L.visits (build a) := by
      intro v hv
      rw [n.visits]
      exact List.mem_append_right _ hv
    rw [edit_node n, ha (hharmless.imp (n.hides _) fun h d site hd => h d site (hsub _ hd))
      (fun v hvisit => hv v (hsub v hvisit)) s hs]
  call {p} c hr ha _ hv s hs := by
    have hv : ∀ v ∈ (Expr.call c).visits, ignores f (hostIds package p) v := hv
    rw [Expr.visits_call] at hv
    simp only [List.forall_mem_cons, List.forall_mem_append] at hv
    obtain ⟨_, hcall, hvr, hva⟩ := hv
    rw [edit_call (hr (.inl rfl) hvr s hs) (ha (.inl rfl) hva s hs)]
    obtain ⟨id, receiver, name, args, method, span⟩ := c
    rw [call_of_not_isMatch hcall]
  anonymous {p head ms} hms _ hv s hs := by
    have hv : ∀ v ∈ Member.visitsList ms, ignores f (hostIds package p) v := by
      intro v hvisit
      exact hv v (List.mem_cons_of_mem _ (List.mem_append_left _ hvisit))
    have hopen : Open f package (.anonymous head ms :: p) (s.enterAnonymous head) :=
      hs.enterAnonymous
    have hinner : _ = (ms, s.enterAnonymous head) := hms (.inl rfl) hv _ hopen
    rw [edit_anonymous, hinner, leaveAnonymous_eq hopen.scopes, State.enterAnonymous, ← hs.scopes]
  type {p site d} hd hharmless hv s hs := by
    have hv : ∀ v ∈ d.visits site, ignores f (hostIds package p) v := hv
    rw [TypeDecl.visits_eq, List.forall_mem_cons, List.forall_mem_append] at hv
    obtain ⟨hhost, hinside, _⟩ := hv
    have hunnamed : unnamed package (.type d site :: p) = true := by
      rw [unnamed_type]
      refine hharmless.resolve_right fun h => h d site ?_
      have hfirst : Visit.enterType d site ∈ d.visits site := by
        rw [TypeDecl.visits_eq]
        exact List.mem_cons_self
      exact hfirst
    have hids := hostIds_of_unnamed hunnamed
    have hopen := hs.enter d site
    have hinner := hd (.inl hunnamed) (by rw [hids]; exact hinside) _ hopen
    have hnone : s.needed.arities d.id = [] := by
      refine List.eq_nil_iff_forall_not_mem.mpr fun a ha => ?_
      exact hhost (hs.hosts _ (ArityTable.mem_arities.mp ha))
    have hall : s.needed.uses.filter (·.1 != d.id) = s.needed.uses :=
      List.filter_eq_self.mpr fun use hu => bne_iff_ne.mpr fun same =>
        hhost (same ▸ hs.hosts use hu)
    have hneeded : (s.needed.take d.id).2 = s.needed := by rw [ArityTable.take, hall]
    rw [edit_typeDecl, hinner, leaveType_eq hopen.scopes]
    simp only [State.enter, hnone, hneeded, ← hs.scopes]
    rfl

end FactoryHelpers

theorem Member.mem_visitsList {v : Visit} {ms : List Member} :
    v ∈ Member.visitsList ms ↔ ∃ m ∈ ms, v ∈ m.visits := by
  induction ms with
  | nil => simp [Member.visitsList]
  | cons m ms ih => simp [Member.visitsList, ih]

/-- A visit in a helper: what has no identity, or a call that is bound to no method. -/
def Visit.IsUnbound (v : Visit) : Prop := v.Quiet ∨ ∃ c, v = .call c ∧ c.method = none

theorem unbound_unresolved {receiver : Expr} {path : String}
    (h : receiver.qualifiedName? = some path) (id : NodeId) (name : String) (names : List String) :
    ∀ v ∈ (Expr.call (.unresolved id (some receiver) name (names.map .ofName))).visits,
      v.IsUnbound := by
  rw [Expr.visits_call, List.forall_mem_cons, List.forall_mem_cons, List.forall_mem_append]
  exact ⟨.inl (.inl trivial), .inr ⟨_, rfl, rfl⟩,
    fun v hv => .inl (Expr.quiet_of_qualifiedName? h v hv),
    fun v hv => .inl (Expr.quiet_names names v hv)⟩

namespace Family

variable {f : Family} {spelledOut : List String}

theorem unbound_helperBody (f : Family) (spelledOut : List String) (fills : Nat) (first : NodeId) :
    ∀ v ∈ Stmt.visitsList (f.helperBody spelledOut fills first), v.IsUnbound := by
  intro v hv
  rw [Stmt.visitsList_eq, List.mem_flatMap] at hv
  obtain ⟨s, hs, hv⟩ := hv
  simp only [helperBody, List.cons_append, List.mem_cons, List.mem_append, List.mem_map,
    List.not_mem_nil, or_false] at hs
  rcases hs with rfl | ⟨i, _, rfl⟩ | rfl
  · have hlocal : ∀ v ∈ (Stmt.localVariable (.generic (spell spelledOut f.interface) f.typeVars)
        f.localName (some (.newObject (.generic (spell spelledOut f.container) f.typeVars)
        []))).visits, v.Quiet := by
      simp [Stmt.localVariable, Stmt.visits, Declarator.visitsList, Expr.visitsOption,
        Expr.newObject, Expr.visits, Expr.visitsList, Visit.Quiet, Visit.Announced,
        Visit.Unannounced]
    exact .inl (hlocal v hv)
  · rw [fillStmt_eq, Stmt.ofExpr, Stmt.visits, List.mem_cons] at hv
    rcases hv with rfl | hv
    · exact .inl (.inl trivial)
    · exact unbound_unresolved rfl _ _ _ v hv
  · rw [Stmt.returning, Stmt.visits, List.mem_cons] at hv
    rcases hv with rfl | hv
    · exact .inl (.inl trivial)
    · exact unbound_unresolved (Expr.qualifiedName?_qualified _) _ _ [f.localName] v hv

theorem IsHelper.unbound {a : Nat} {m : Method} (h : f.IsHelper spelledOut a m) :
    ∀ v ∈ (Member.method m).visits, v.IsUnbound := by
  obtain ⟨first, h⟩ := h
  rw [helper?_eq] at h
  split at h
  · cases h
    simp only [Member.visits, Block.visitsOption, Block.ofStmts, Block.visits, List.forall_mem_cons,
      List.forall_mem_append]
    exact ⟨.inl (.inl trivial), fun v hv => .inl (.inr (MethodHead.unannounced _ v hv)),
      .inl (.inl trivial), f.unbound_helperBody spelledOut _ first⟩
  · cases h

end Family

namespace FactoryHelpers

variable {f g : Family} {package : String} {p : Path} {s : State}

theorem helpers_untouched {spelledOut others : List String} {arities : List Nat} {ms : List Method}
    (hms : List.Forall₂ (f.IsHelper others) arities ms) (hs : Open g package p s) :
    Kind.memberList.edit (editor g spelledOut) (ms.map .method) s = (ms.map .method, s) := by
  have hunbound : ∀ v ∈ Member.visitsList (ms.map .method), v.IsUnbound := by
    intro v hv
    obtain ⟨_, hmember, hv⟩ := Member.mem_visitsList.mp hv
    obtain ⟨m, hm, rfl⟩ := List.mem_map.mp hmember
    obtain ⟨a, _, hhelper⟩ := exists_of_mem_of_forall₂ (List.Forall₂.flip hms) hm
    have hhelper : f.IsHelper others a m := hhelper
    exact hhelper.unbound v hv
  refine (untouched g spelledOut package).memberList _ p (.inr fun d site hd => ?_)
    (fun v hv => ?_) s hs
  · rcases hunbound _ hd with hquiet | ⟨c, hcall, _⟩
    · exact hquiet.elim id id
    · cases hcall
  · rcases hunbound v hv with hquiet | ⟨c, rfl, hmethod⟩
    · cases v <;> first | trivial | exact (hquiet.elim id id).elim
    · simp only [ignores, MethodPattern.isMatch, hmethod]

theorem not_isMatch_of_isMatch (hne : f ≠ g) {c : Call} (h : f.pattern.isMatch c = true) :
    g.pattern.isMatch c = false := by
  have howner : (f.interface == g.interface) = false := by
    cases f <;> cases g <;> first | exact absurd rfl hne | decide
  have hmethod := MethodPattern.method_of_isMatch h
  simp only [MethodPattern.isMatch, hmethod]
  rw [Bool.and_eq_false_iff]
  exact .inr howner

def typeIdsOf (vs : List Visit) : List NodeId :=
  vs.filterMap fun
    | .enterType d _ => some d.id
    | _ => none

/-- The receiver of a call may be dropped: it holds no call, and no type with the identity of a host
around the call. -/
structure InertReceiver (package : String) (p : Path) (c : Call) : Prop where
  calls : callsOf (Expr.visitsOption c.receiver) = []
  hosts : ∀ id ∈ typeIdsOf (Expr.visitsOption c.receiver), id ∉ hostIds package p

theorem InertReceiver.ignores {c : Call} (h : InertReceiver package p c) (g : Family) :
    ∀ v ∈ Expr.visitsOption c.receiver, ignores g (hostIds package p) v := by
  intro v hv
  cases v with
  | call inner =>
    have hcall : inner ∈ callsOf (Expr.visitsOption c.receiver) :=
      List.mem_filterMap.mpr ⟨_, hv, rfl⟩
    rw [h.calls] at hcall
    cases hcall
  | enterType d site => exact h.hosts d.id (List.mem_filterMap.mpr ⟨_, hv, rfl⟩)
  | _ => trivial

/-- Wherever a family may drop a receiver, it is inert. -/
def DropsInert (f : Family) (package : String) (p : Path) (vs : List Visit) : Prop :=
  ∀ x ∈ sites p vs, f.pattern.isMatch x.call = true →
    InertReceiver package x.path x.call

namespace DropsInert

variable {vs ws : List Visit}

theorem of_append (level : Level vs) (h : DropsInert f package p (vs ++ ws)) :
    DropsInert f package p vs ∧ DropsInert f package p ws := by
  rw [DropsInert, sites_append level, List.forall_mem_append] at h
  exact h

theorem of_node {α β : Type} {K : Kind α} {L : Kind β} {build : α → β} {own : α → List Visit}
    {refs : List Visit} {a : α} (n : K.Node L build own refs)
    (h : DropsInert f package p (L.visits (build a))) : DropsInert f package p (K.visits a) := by
  rw [DropsInert, n.sites_eq] at h
  exact h

theorem of_call {c : Call} (h : DropsInert f package p (Expr.call c).visits) :
    (f.pattern.isMatch c = true → InertReceiver package p c) ∧
      DropsInert f package p (Expr.visitsOption c.receiver) ∧
      DropsInert f package p (Expr.visitsList c.args) := by
  rw [DropsInert, Expr.sites_call, List.forall_mem_cons, List.forall_mem_append] at h
  exact h

theorem of_anonymous {head : ClassHead} {ms : List Member}
    (h : DropsInert f package p ((Kind.anonymous head).visits ms)) :
    DropsInert f package (.anonymous head ms :: p) (Member.visitsList ms) := by
  simp only [DropsInert, Kind.anonymous, sites_anonymous] at h
  exact h

theorem of_typeDecl {d : TypeDecl} {site : TypeSite}
    (h : DropsInert f package p (d.visits site)) :
    DropsInert f package (.type d site :: p) d.innerVisits := by
  rw [DropsInert, TypeDecl.sites_visits] at h
  exact h

end DropsInert

/-- How a family's walk goes on a piece after the walk of another family. -/
structure Undisturbed (f g : Family) (sf sg : List String) (package : String) {α : Type}
    (K : Kind α) (p : Path) (a : α) : Prop where
  first : ∀ s, Open f package p s → Open f package p (K.edit (editor f sf) a s).2
  second : ∀ s, Open g package p s → Open g package p (K.edit (editor g sg) a s).2
  /-- The walk goes through the same states as on the piece before, with the counter ahead. -/
  follows : DropsInert f package p (K.visits a) →
    ∀ {s t} k, Open f package p s → Open g package p t →
      (K.edit (editor g sg) (K.edit (editor f sf) a s).1 (t.shift k)).2 =
        (K.edit (editor g sg) a t).2.shift k

namespace Undisturbed

variable {sf sg : List String}

theorem call_after {c : Call} {r r' : Option Expr} {as as' : List Expr} {s s₁ s₂ t t₁ t₂ : State}
    (hne : f ≠ g) (hr : Undisturbed f g sf sg package .exprOption p c.receiver)
    (ha : Undisturbed f g sf sg package .exprList p c.args)
    (hok : DropsInert f package p (Expr.call c).visits) (hs : Open f package p s)
    (ht : Open g package p t)
    (hreceiver : Kind.exprOption.edit (editor f sf) c.receiver s = (r, s₁))
    (hargs : Kind.exprList.edit (editor f sf) c.args s₁ = (as, s₂))
    (hreceiver' : Kind.exprOption.edit (editor g sg) c.receiver t = (r', t₁))
    (hargs' : Kind.exprList.edit (editor g sg) c.args t₁ = (as', t₂)) (k : Nat) :
    Kind.expr.edit (editor g sg) (Kind.expr.edit (editor f sf) (.call c) s).1 (t.shift k) =
      (.call (lowerAt g package p (lowerAt f package p { c with
          receiver := (Kind.exprOption.edit (editor g sg) r (t.shift k)).1
          args := (Kind.exprList.edit (editor g sg) as (t₁.shift k)).1 })),
        (Kind.expr.edit (editor g sg) (.call c) t).2.shift k) := by
  obtain ⟨hinert, hokr, hoka⟩ := hok.of_call
  have hs₁ := hr.first s hs
  have ht₁ := hr.second t ht
  have hreceivers := hr.follows hokr k hs ht
  rw [hreceiver] at hs₁ hreceivers
  rw [hreceiver'] at ht₁ hreceivers
  have hs₂ := ha.first s₁ hs₁
  have ht₂ := ha.second t₁ ht₁
  have hall := ha.follows hoka k hs₁ ht₁
  rw [hargs] at hs₂ hall
  rw [hargs'] at ht₂ hall
  rcases hreceiver'' : Kind.exprOption.edit (editor g sg) r (t.shift k) with ⟨r'', u₁⟩
  rcases hargs'' : Kind.exprList.edit (editor g sg) as (t₁.shift k) with ⟨as'', u₂⟩
  rw [hreceiver''] at hreceivers
  rw [hargs''] at hall
  obtain rfl : u₁ = t₁.shift k := hreceivers
  obtain rfl : u₂ = t₂.shift k := hall
  have hlength : as''.length = as.length := length_edit hargs''
  have hlowersEq : lowers f package p { c with receiver := r'', args := as'' } =
      lowers f package p { c with receiver := r, args := as } :=
    lowers_congr (c := { c with receiver := r, args := as }) rfl hlength
  rw [edit_call hreceiver hargs, edit_call hreceiver' hargs', call_eq_lowerAt hs₂.scopes]
  cases hlowers : lowers f package p { c with receiver := r, args := as } with
  | false =>
    -- The call is still there, and is told the same things as before.
    have harity : as''.length = as'.length := by
      rw [hlength, length_edit hargs, length_edit hargs']
    have hstate := call_shift g sg ⟨c.id, r', c.name, as', c.method, c.span⟩
      ⟨c.id, r'', c.name, as'', c.method, c.span⟩ rfl rfl harity t₂ k
    rw [lowerAt_of_not_lowers hlowers, lowerAt_of_not_lowers (hlowersEq.trans hlowers),
      edit_call hreceiver'' hargs'', call_eq_lowerAt (ht₂.shift k).scopes]
    exact congrArg (Prod.mk _) hstate
  | true =>
    -- The receiver is gone, and the helper call means nothing to the second family.
    obtain ⟨host, name, hat, hlowered⟩ := exists_host_of_lowers hlowers
    obtain ⟨host', name', hat', hlowered'⟩ := exists_host_of_lowers (hlowersEq.trans hlowers)
    obtain rfl : name = name' := by
      rw [hat] at hat'
      cases hat'
      rfl
    have hmatch : f.pattern.isMatch c = true := by
      simp only [lowers, Bool.and_eq_true] at hlowers
      exact hlowers.1.1
    have hother : g.pattern.isMatch { c with receiver := r', args := as' } = false :=
      not_isMatch_of_isMatch hne hmatch
    have hhelper := isMatch_lowered g f name { c with receiver := r'', args := as'' }
    have hdropped := (untouched g sg package).exprOption c.receiver p (.inl rfl)
      ((hinert hmatch).ignores g) t ht
    obtain rfl : t = t₁ := congrArg Prod.snd (hdropped.symm.trans hreceiver')
    have hcall := edit_call (c := lowered f name { c with receiver := r, args := as }) rfl hargs''
    rw [hlowered, hlowered', hcall, call_of_not_isMatch hother,
      lowerAt_of_not_lowers (lowers_of_isMatch_eq_false hhelper)]
    exact congrArg (fun x => (Expr.call x.1, x.2)) (call_of_not_isMatch hhelper (t₂.shift k))

/-- What a type becomes if the second walk comes after the first one: the first family's helpers
are kept, and then come helpers for the arities for which the type would get some anyway. -/
theorem typeDecl_after {d : TypeDecl} {site : TypeSite} (hne : f ≠ g)
    (hd : Undisturbed f g sf sg package .body (.type d site :: p) d)
    (hok : DropsInert f package (.type d site :: p) d.innerVisits) {s t s₂ t₂ : State}
    {dF dG : TypeDecl}
    (hs : Open f package p s) (ht : Open g package p t)
    (hF : Kind.body.edit (editor f sf) d (s.enter d site) = (dF, s₂))
    (hG : Kind.body.edit (editor g sg) d (t.enter d site) = (dG, t₂))
    (k : Nat) :
    ∃ arities fs gs gs', List.Forall₂ (f.IsHelper sf) arities fs ∧ SameHelpers g sg gs gs' ∧
      ((Kind.typeDecl site).edit (editor f sf) d s).1 = dF.addMembers (fs.map .method) ∧
      ((Kind.typeDecl site).edit (editor g sg) d t).1 = dG.addMembers (gs.map .method) ∧
      (Kind.typeDecl site).edit (editor g sg) (dF.addMembers (fs.map .method)) (t.shift k) =
        (((Kind.body.edit (editor g sg) dF ((t.enter d site).shift k)).1.addMembers
            (fs.map .method)).addMembers (gs'.map .method),
          ((Kind.typeDecl site).edit (editor g sg) d t).2.shift k) := by
  have hs₂ := hd.first _ (hs.enter d site)
  rw [hF] at hs₂
  have ht₂ := hd.second _ (ht.enter d site)
  rw [hG] at ht₂
  have hstate := hd.follows hok k (hs.enter d site) (ht.enter d site)
  rw [hF, hG] at hstate
  rcases hFG : Kind.body.edit (editor g sg) dF ((t.enter d site).shift k) with ⟨dFG, t₂'⟩
  rw [hFG] at hstate
  obtain rfl : t₂' = t₂.shift k := hstate
  obtain ⟨fs, hnewF, hfs⟩ := (hs₂.provides sf dF).helpers
  obtain ⟨halike, hlabelF⟩ := alike_edit hF
  obtain ⟨halikeG, hlabelG⟩ := alike_edit hG
  obtain ⟨halikeFG, hlabelFG⟩ := alike_edit hFG
  have hinter : Interchangeable g dG (dFG.addMembers (fs.map .method)) := by
    refine .withHelpers hne ?_ ?_ hfs
    · rw [hlabelFG, hlabelF, hlabelG]
    · rw [halikeFG.heads, halike.heads, halikeG.heads]
  obtain ⟨gs, gs', hgs, hnewG, hleave⟩ := leaveType_shift sg hinter ht₂ k
  refine ⟨_, fs, gs, gs', hfs, hgs, ?_, ?_, ?_⟩
  · rw [edit_typeDecl, hF]
    exact hnewF
  · rw [edit_typeDecl, hG]
    exact hnewG
  · have hbody := edit_addMembers hFG (helpers_untouched hfs (ht₂.shift k))
    rw [edit_typeDecl, edit_typeDecl, State.enter_addMembers halike, State.enter_shift, hbody, hG]
    exact hleave

theorem hereditary (hne : f ≠ g) (sf sg : List String) (package : String) :
    Hereditary (Undisturbed f g sf sg package) where
  unit := ⟨fun _ hs => hs, fun _ hs => hs, fun _ _ _ _ _ _ => rfl⟩
  pair {_ _ K L p a b} level ha hb := by
    refine ⟨(open_kept f sf package).pair level ha.first hb.first,
      (open_kept g sg package).pair level ha.second hb.second, fun hok s t k hs ht => ?_⟩
    obtain ⟨hoka, hokb⟩ := hok.of_append (level a)
    have hleft := ha.follows hoka k hs ht
    have hright := hb.follows hokb k (ha.first s hs) (ha.second t ht)
    rw [Kind.edit_prod, Kind.edit_prod, Kind.edit_prod, hleft]
    exact hright
  node {_ _ K L} build own refs {p a} n ha := by
    refine ⟨(open_kept f sf package).node build own refs n ha.first,
      (open_kept g sg package).node build own refs n ha.second, fun hok s t k hs ht => ?_⟩
    rw [edit_node n, edit_node n, edit_node n]
    exact ha.follows (hok.of_node n) k hs ht
  call {p} c hr ha := by
    refine ⟨(open_kept f sf package).call c hr.first ha.first,
      (open_kept g sg package).call c hr.second ha.second, fun hok s t k hs ht => ?_⟩
    rw [call_after hne hr ha hok hs ht rfl rfl rfl rfl k]
  anonymous {p head ms} hms := by
    refine ⟨(open_kept f sf package).anonymous hms.first,
      (open_kept g sg package).anonymous hms.second, fun hok s t k hs ht => ?_⟩
    have hs₁ : Open f package (.anonymous head ms :: p) (s.enterAnonymous head) :=
      hs.enterAnonymous
    have ht₁ : Open g package (.anonymous head ms :: p) (t.enterAnonymous head) :=
      ht.enterAnonymous
    have ht₂ := hms.second _ ht₁
    have hinner := hms.follows hok.of_anonymous k hs₁ ht₁
    have hstart : (t.shift k).enterAnonymous head = (t.enterAnonymous head).shift k := rfl
    rw [edit_anonymous, edit_anonymous, edit_anonymous, hstart, hinner,
      leaveAnonymous_eq ht₂.scopes, leaveAnonymous_eq (ht₂.shift k).scopes]
    rfl
  type {p site d} hd := by
    refine ⟨(open_kept f sf package).type hd.first,
      (open_kept g sg package).type hd.second, fun hok s t k hs ht => ?_⟩
    obtain ⟨_, fs, gs, gs', _, _, hfirst, _, hafter⟩ :=
      hd.typeDecl_after hne hok.of_typeDecl hs ht rfl rfl k
    rw [hfirst, hafter]

end Undisturbed

end FactoryHelpers

end FactoryLowering
