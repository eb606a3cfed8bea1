import FactoryLowering.Proofs.Tree.Site
import FactoryLowering.Proofs.Tree.Walk
import Mathlib.Data.List.Forall2

/-! # Editors that change calls only

Such an editor is described by what it does with one call. If it leaves each call alone, then it
leaves the tree alone. If it drops no call together with a receiver, then the calls of the edited
tree correspond to those of the tree before, one by one. Even if it does, no call that it was after
is left.
-/
namespace FactoryLowering

variable {σ : Type} {rule : Call → Call → Prop}

/-- Calls change by a rule that knows nothing of their paths, and types do not change. -/
def callsOnly (rule : Call → Call → Prop) : Rewriting where
  call _ _ _ c new := rule c new
  type _ _ _ _ d new := new = d

theorem callsOf_append (vs ws : List Visit) : callsOf (vs ++ ws) = callsOf vs ++ callsOf ws :=
  List.filterMap_append

theorem callsOf_anonymous (head : ClassHead) (ms : List Member) :
    callsOf ((Kind.anonymous head).visits ms) = callsOf (Member.visitsList ms) := by
  have hvisits : (Kind.anonymous head).visits ms =
    [.enterAnonymous head ms] ++ (Member.visitsList ms ++ [.leaveAnonymous head ms]) := rfl
  rw [hvisits, callsOf_append, callsOf_append]
  exact List.append_nil _

theorem TypeDecl.callsOf_visits (site : TypeSite) (d : TypeDecl) :
    callsOf (d.visits site) = callsOf d.innerVisits := by
  rw [TypeDecl.visits_eq, ← List.singleton_append, callsOf_append, callsOf_append]
  exact List.append_nil _

theorem Editor.obeys_callsOnly {call : Call → StateM σ Call} {rel : List Call → σ → σ → Prop}
    (refl : ∀ s, rel [] s s)
    (trans : ∀ {cs ds s t u}, rel cs s t → rel ds t u → rel (cs ++ ds) s u)
    (step : ∀ {p c receiver args cs s t},
      (∀ q, Expr.BecomesOption (callsOnly rule) p q c.receiver receiver) →
      (∀ q, Expr.BecomesList (callsOnly rule) p q c.args args) → rel cs s t →
      rule { c with receiver, args } (call { c with receiver, args } t).1 ∧
        rel (c :: cs) s (call { c with receiver, args } t).2) :
    Editor.Obeys { call } (callsOnly rule) (fun _ => True) (fun _ _ => True)
      fun _ xs s t => rel (placeCalls xs) s t where
  refl _ := refl _
  trans h k := by
    rw [placeCalls_append]
    exact trans h k
  visit {p v s} hv _ := by
    cases v <;> first | exact hv.elim | exact ⟨trivial, refl s⟩
  skip {p v s} hv _ := by
    cases v <;> first | exact hv.elim | exact refl s
  enterCall _ := trivial
  call _ _ hrel _ hreceiver hargs := by
    obtain ⟨hrule, hnext⟩ := step hreceiver hargs hrel
    exact ⟨fun _ => hrule, trivial, hnext⟩
  enterType _ _ := trivial
  leaveType {p d d' site s t} _ _ hrel _ _ := by
    refine ⟨fun _ => rfl, trivial, ?_⟩
    rw [placeCalls_locate] at hrel ⊢
    rw [TypeDecl.callsOf_visits]
    exact hrel
  enterAnonymous _ := trivial
  leaveAnonymous {p head ms ms' s t} _ hrel _ _ := by
    refine ⟨trivial, ?_⟩
    have hcalls : placeCalls (⟨p, .enterAnonymous head ms⟩ ::
        (locate (.anonymous head ms :: p) (Member.visitsList ms) ++
          [⟨.anonymous head ms :: p, .leaveAnonymous head ms⟩])) =
        placeCalls (locate (.anonymous head ms :: p) (Member.visitsList ms)) := by
      have happend := placeCalls_append (locate (.anonymous head ms :: p) (Member.visitsList ms))
        [⟨.anonymous head ms :: p, .leaveAnonymous head ms⟩]
      exact happend.trans (List.append_nil _)
    rw [hcalls]
    exact hrel

theorem Editor.tell_callsOnly (call : Call → StateM σ Call) (vs : List Visit) (s : σ) :
    Editor.tell { call } vs s = ((), s) := by
  induction vs with
  | nil => rfl
  | cons v vs ih => exact ih

theorem Editor.expr_call_callsOnly {call : Call → StateM σ Call} {c : Call}
    {receiver : Option Expr} {args : List Expr} {s t u : σ}
    (hr : Editor.exprOption { call } c.receiver s = (receiver, t))
    (ha : Editor.exprList { call } c.args t = (args, u)) :
    Editor.expr { call } (.call c) s =
      (.call (call { c with receiver, args } u).1, (call { c with receiver, args } u).2) := by
  obtain ⟨rfl, rfl⟩ := Prod.ext_iff.mp hr
  obtain ⟨rfl, rfl⟩ := Prod.ext_iff.mp ha
  rw [Editor.expr_call]
  rfl

theorem Editor.edit_of_idle {call : Call → StateM σ Call} : Hereditary fun K _ a =>
    (∀ c ∈ callsOf (K.visits a), ∀ s, call c s = (c, s)) → ∀ s, K.edit { call } a s = (a, s) where
  unit _ _ := rfl
  pair {_ _ K L p a b} _ ha hb hidle s := by
    have hvisits : (K.prod L).visits (a, b) = K.visits a ++ L.visits b := rfl
    rw [hvisits, callsOf_append, List.forall_mem_append] at hidle
    rw [Kind.edit_prod, ha hidle.1, hb hidle.2]
  node {_ _ K L} build own refs {p a} n ha hidle s := by
    rw [n.visits, callsOf_append, callsOf_quiet (n.quiet a), List.nil_append] at hidle
    have hedit : L.edit { call } (build a) s =
        (build (K.edit { call } a (Editor.tell { call } (own a) s).2).1,
          (K.edit { call } a (Editor.tell { call } (own a) s).2).2) := by
      rw [n.edit]
      rfl
    rw [hedit, Editor.tell_callsOnly, ha hidle]
  call {p} c hr ha hidle s := by
    have hcalls : callsOf (Expr.call c).visits =
        c :: callsOf (Expr.visitsOption c.receiver ++ Expr.visitsList c.args) := by
      rw [Expr.visits_call]
      rfl
    have hidle : ∀ c' ∈ callsOf (Expr.call c).visits, ∀ s, call c' s = (c', s) := hidle
    rw [hcalls, callsOf_append, List.forall_mem_cons, List.forall_mem_append] at hidle
    obtain ⟨hself, hreceiver, hargs⟩ := hidle
    have hreceiver : ∀ s, Editor.exprOption { call } c.receiver s = (c.receiver, s) :=
      hr hreceiver
    have hargs : ∀ s, Editor.exprList { call } c.args s = (c.args, s) := ha hargs
    obtain ⟨id, receiver, name, args, method, span⟩ := c
    have hedit := Editor.expr_call_callsOnly (hreceiver s) (hargs s)
    exact hedit.trans (congrArg (fun x => (Expr.call x.1, x.2)) (hself s))
  anonymous {p head ms} hms hidle s := by
    rw [callsOf_anonymous] at hidle
    have hms : Editor.memberList { call } ms s = (ms, s) := hms hidle s
    have hedit : (Kind.anonymous head).edit { call } ms s =
      ((Editor.memberList { call } ms s).1, (Editor.memberList { call } ms s).2) := rfl
    rw [hedit, hms]
  type {p site d} hd hidle s := by
    have hidle : ∀ c ∈ callsOf (d.visits site), ∀ s, call c s = (c, s) := hidle
    rw [TypeDecl.callsOf_visits] at hidle
    have hbody : Editor.body { call } d s = (d, s) := hd hidle s
    have hedit : (Kind.typeDecl site).edit { call } d s =
        ((Editor.body { call } d s).1, (Editor.body { call } d s).2) := by
      have h : (Kind.typeDecl site).edit { call } d = Editor.typeDecl { call } site d := rfl
      rw [h, Editor.typeDecl_eq]
      rfl
    rw [hedit, hbody]

theorem forall₂_trans_of_mem {α β γ : Type} {R : α → β → Prop} {S : β → γ → Prop} {T : α → γ → Prop}
    {xs : List α} {ys : List β} {zs : List γ} (h : List.Forall₂ R xs ys)
    (k : List.Forall₂ S ys zs) (step : ∀ x ∈ xs, ∀ y z, R x y → S y z → T x z) :
    List.Forall₂ T xs zs := by
  induction h generalizing zs with
  | nil =>
    cases k
    exact .nil
  | cons hxy _ ih =>
    cases k with
    | cons hyz hrest =>
      rw [List.forall_mem_cons] at step
      exact .cons (step.1 _ _ hxy hyz) (ih hrest step.2)

theorem countP_eq_of_forall₂ {α β : Type} {R : α → β → Prop} {f : α → Bool} {g : β → Bool}
    {xs : List α} {ys : List β} (h : List.Forall₂ R xs ys)
    (same : ∀ x ∈ xs, ∀ y, R x y → g y = f x) : ys.countP g = xs.countP f := by
  induction h with
  | nil => rfl
  | cons hxy _ ih =>
    rw [List.forall_mem_cons] at same
    rw [List.countP_cons, List.countP_cons, same.1 _ hxy, ih same.2]

/-- A rewritten call keeps the calls in its arguments. Those in its receiver stay too, unless there
are none before and none afterwards. -/
structure KeepsCalls (c : Call) (receiver : Option Expr) (args : List Expr) (new : Call) :
    Prop where
  args : new.args = args
  receiver : new.receiver = receiver ∨
    callsOf (Expr.visitsOption c.receiver) = [] ∧ callsOf (Expr.visitsOption new.receiver) = []

theorem callsOnly_relates {ok : Call → Prop} {R : Call → Call → Prop}
    (step : ∀ {p q c receiver args new}, ok c →
      Expr.BecomesOption (callsOnly rule) p q c.receiver receiver →
      Expr.BecomesList (callsOnly rule) p q c.args args →
      rule { c with receiver, args } new → R c new ∧ KeepsCalls c receiver args new) :
    (callsOnly rule).Relates (fun _ _ => True) fun xs ys =>
      (∀ x ∈ xs, ok x.call) → List.Forall₂ (fun x y => R x.call y.call) xs ys where
  nil _ := .nil
  append hx hy hok := by
    rw [List.forall_mem_append] at hok
    exact List.rel_append (hx hok.1) (hy hok.2)
  enterType _ _ _ := trivial
  enterAnonymous _ _ := trivial
  call {p q c receiver args new} _ hreceiver hargs hr ha hrule hok := by
    rw [List.forall_mem_cons, List.forall_mem_append] at hok
    obtain ⟨hnew, hkeepsArgs, hkeeps⟩ := step hok.1 hreceiver hargs hrule
    refine .cons hnew (List.rel_append ?_ ?_)
    · rcases hkeeps with hsame | ⟨hbefore, hafter⟩
      · rw [hsame]
        exact hr hok.2.1
      · rw [sites_eq_nil_of_callsOf hbefore, sites_eq_nil_of_callsOf hafter]
        exact .nil
    · rw [hkeepsArgs]
      exact ha hok.2.2
  type _ _ htype hinner hok := by
    obtain rfl := htype
    exact hinner hok

theorem forall₂_calls_of_typesBecome {ok : Call → Prop} {R : Call → Call → Prop}
    (step : ∀ {p q c receiver args new}, ok c →
      Expr.BecomesOption (callsOnly rule) p q c.receiver receiver →
      Expr.BecomesList (callsOnly rule) p q c.args args →
      rule { c with receiver, args } new → R c new ∧ KeepsCalls c receiver args new)
    {ds ds' : List TypeDecl} (hok : ∀ c ∈ callsOf (typesVisits ds), ok c)
    (hds : TypesBecome (callsOnly rule) ds ds') :
    List.Forall₂ R (callsOf (typesVisits ds)) (callsOf (typesVisits ds')) := by
  rw [← map_call_typesSites] at hok ⊢
  rw [← map_call_typesSites, List.forall₂_map_left_iff, List.forall₂_map_right_iff]
  exact hds.rel_sites (callsOnly_relates step) trivial fun x hx => hok _ (List.mem_map_of_mem hx)

/-- What is left after an editor has changed every call it was after: none of them, if it turns such
a call into one of another kind and puts no call into its receiver. -/
theorem callsOnly_clears {hit : Call → Bool} {rewrite : Call → Call}
    (kept : ∀ c, hit c = false → rewrite c = c)
    (done : ∀ c, hit c = true → hit (rewrite c) = false ∧ (rewrite c).args = c.args ∧
      callsOf (Expr.visitsOption (rewrite c).receiver) = []) :
    (callsOnly fun c new => new = rewrite c).Relates (fun _ _ => True) fun _ ys =>
      ∀ y ∈ ys, hit y.call = false where
  nil := List.forall_mem_nil _
  append hx hy := List.forall_mem_append.mpr ⟨hx, hy⟩
  enterType _ _ _ := trivial
  enterAnonymous _ _ := trivial
  call {p q c receiver args new} _ _ _ hr ha hnew := by
    obtain rfl : new = rewrite { c with receiver, args } := hnew
    rw [List.forall_mem_cons, List.forall_mem_append]
    cases hhit : hit { c with receiver, args } with
    | true =>
      -- what stood in the old receiver is gone, and the new one holds no call
      obtain ⟨hother, hargs, hreceiver⟩ := done _ hhit
      rw [sites_eq_nil_of_callsOf hreceiver, hargs]
      exact ⟨hother, List.forall_mem_nil _, ha⟩
    | false =>
      rw [kept _ hhit]
      exact ⟨hhit, hr, ha⟩
  type _ _ htype hinner := by
    obtain rfl := htype
    exact hinner

theorem not_hit_of_typesBecome {hit : Call → Bool} {rewrite : Call → Call}
    (kept : ∀ c, hit c = false → rewrite c = c)
    (done : ∀ c, hit c = true → hit (rewrite c) = false ∧ (rewrite c).args = c.args ∧
      callsOf (Expr.visitsOption (rewrite c).receiver) = [])
    {ds ds' : List TypeDecl} (hds : TypesBecome (callsOnly fun c new => new = rewrite c) ds ds') :
    ∀ c ∈ callsOf (typesVisits ds'), hit c = false := by
  intro c hc
  rw [← map_call_typesSites] at hc
  obtain ⟨x, hx, rfl⟩ := List.mem_map.mp hc
  exact hds.rel_sites (callsOnly_clears kept done) trivial x hx

end FactoryLowering
