import FactoryLowering.Pass.OwnerChange
import FactoryLowering.Proofs.QualifiedName
import FactoryLowering.Proofs.Tree.CallEdit

/-! # The walk of the owner change

The walk moves every call that matches, whatever its path, counts it and logs its identity. If no
matching call has a call in its receiver, then no call gets lost, and the calls after the walk are
those before it, one by one.
-/
namespace FactoryLowering

def Call.receiverSpan (c : Call) : Span := (c.receiver.map (·.span)).getD {}

/-- What becomes of one call when calls that match move to the target and get a new receiver, which
is made for the span of the old one. All other calls keep the method they are bound to. -/
structure Retargeted (pattern : MethodPattern) (target : String) (receiver : Span → Expr)
    (old new : Call) : Prop where
  id : new.id = old.id
  name : new.name = old.name
  span : new.span = old.span
  arity : new.arity = old.arity
  moved : pattern.isMatch old = true →
    new.method = some { owner := .reference target old.ownerParams, name := pattern.name } ∧
      new.receiver = some (receiver old.receiverSpan)
  kept : pattern.isMatch old = false →
    new.method = old.method ∧ new.receiver.isSome = old.receiver.isSome

namespace OwnerChange

variable {change : OwnerChange} {s t : State}

def moved (change : OwnerChange) (c : Call) : Call :=
  { c with
    receiver := some (.qualifiedAt change.target c.receiverSpan)
    method := some
      { owner := .reference change.target c.ownerParams, name := change.pattern.name } }

def moveAt (change : OwnerChange) (c : Call) : Call :=
  if change.pattern.isMatch c then change.moved c else c

def moving (change : OwnerChange) : Rewriting := callsOnly fun c new => new = change.moveAt c

theorem call_of_isMatch {c : Call} (h : change.pattern.isMatch c = true) (s : State) :
    change.editor.call c s = (change.moved c,
      { s with
        log := s.log.record change.changeKey c.id
        stats.callsChanged := s.stats.callsChanged + 1 }) := by
  have hmethod := MethodPattern.method_of_isMatch h
  simp only [editor, h, if_true, moveCall, targetMethod, hmethod]
  rfl

theorem call_of_not_isMatch {c : Call} (h : change.pattern.isMatch c = false) (s : State) :
    change.editor.call c s = (c, s) := by
  simp only [editor, h]
  rfl

theorem call_eq_moveAt (c : Call) (s : State) : (change.editor.call c s).1 = change.moveAt c := by
  unfold moveAt
  cases hm : change.pattern.isMatch c with
  | true => rw [call_of_isMatch hm, if_pos rfl]
  | false => rw [call_of_not_isMatch hm, if_neg Bool.false_ne_true]

/-- What passing some calls does to the state: those that match are counted and logged. -/
structure Moves (change : OwnerChange) (cs : List Call) (s t : State) : Prop where
  log : ∀ entry, entry ∈ t.log.entries ↔ entry ∈ s.log.entries ∨
    ∃ c ∈ cs, change.pattern.isMatch c = true ∧ entry = (change.changeKey, c.id)
  stats : t.stats = { s.stats with
    callsChanged := s.stats.callsChanged + cs.countP change.pattern.isMatch }
  warnings : t.warnings = s.warnings

namespace Moves

theorem refl (s : State) : Moves change [] s s :=
  ⟨fun _ => by simp, rfl, rfl⟩

theorem trans {cs ds : List Call} {u : State} (h : Moves change cs s t) (k : Moves change ds t u) :
    Moves change (cs ++ ds) s u := by
  refine ⟨fun entry => ?_, ?_, k.warnings.trans h.warnings⟩
  · rw [k.log, h.log, or_assoc]
    refine or_congr_right ?_
    simp only [List.mem_append, or_and_right, exists_or]
  · rw [k.stats, h.stats, List.countP_append, Nat.add_assoc]

theorem call {c c' : Call} {cs : List Call} (hmethod : c'.method = c.method) (hid : c'.id = c.id)
    (h : Moves change cs s t) : Moves change (c :: cs) s (change.editor.call c' t).2 := by
  have hsame : change.pattern.isMatch c' = change.pattern.isMatch c := by
    simp only [MethodPattern.isMatch, hmethod]
  cases hm : change.pattern.isMatch c with
  | true =>
    rw [call_of_isMatch (hsame.trans hm)]
    refine ⟨fun entry => ?_, ?_, h.warnings⟩
    · simp only [ChangeLog.record, List.mem_cons, h.log, hid, exists_eq_or_imp, hm, true_and]
      exact or_left_comm
    · rw [List.countP_cons_of_pos hm]
      simp only [h.stats]
      rw [Nat.add_assoc]
  | false =>
    rw [call_of_not_isMatch (hsame.trans hm)]
    refine ⟨fun entry => ?_, ?_, h.warnings⟩
    · rw [h.log]
      simp [hm]
    · rw [h.stats, List.countP_cons_of_neg (by simp [hm])]

end Moves

theorem editor_obeys_moving (change : OwnerChange) :
    change.editor.Obeys change.moving (fun _ => True) (fun _ _ => True)
      fun _ xs s t => Moves change (placeCalls xs) s t := by
  refine Editor.obeys_callsOnly Moves.refl Moves.trans ?_
  intro p c receiver args cs s t _ _ hrel
  exact ⟨call_eq_moveAt _ t, .call rfl rfl hrel⟩

theorem span_of_moving {p q : Path} {c c' new : Call} (h : change.moving.call p q c c' new) :
    new.span = c'.span := by
  obtain rfl : new = change.moveAt c' := h
  unfold moveAt
  split <;> rfl

theorem retargeted_step {p q : Path} {c new : Call} {receiver : Option Expr} {args : List Expr}
    (hfree : change.pattern.isMatch c = true → callsOf (Expr.visitsOption c.receiver) = [])
    (hreceiver : Expr.BecomesOption change.moving p q c.receiver receiver)
    (hargs : Expr.BecomesList change.moving p q c.args args)
    (hnew : new = change.moveAt { c with receiver, args }) :
    Retargeted change.pattern change.target (Expr.qualifiedAt change.target) c new ∧
      KeepsCalls c receiver args new := by
  have harity : Call.arity { c with receiver, args } = c.arity := hargs.length_eq
  have hsame : change.pattern.isMatch { c with receiver, args } = change.pattern.isMatch c := rfl
  have hspans : receiver.map (·.span) = c.receiver.map (·.span) :=
    hreceiver.map_span span_of_moving
  rw [moveAt, hsame] at hnew
  cases hm : change.pattern.isMatch c with
  | true =>
    rw [hm, if_pos rfl] at hnew
    subst hnew
    refine ⟨⟨rfl, rfl, rfl, harity, fun _ => ⟨rfl, ?_⟩, fun h => ?_⟩, rfl, .inr ⟨hfree hm, ?_⟩⟩
    · rw [moved, Call.receiverSpan, hspans, Call.receiverSpan]
    · rw [hm] at h
      cases h
    · exact Expr.callsOf_of_qualifiedName? (Expr.qualifiedName?_qualifiedAt _ _)
  | false =>
    rw [hm, if_neg Bool.false_ne_true] at hnew
    subst hnew
    refine ⟨⟨rfl, rfl, rfl, harity, fun h => ?_, fun _ => ⟨rfl, ?_⟩⟩, rfl, .inl rfl⟩
    · rw [hm] at h
      cases h
    · simpa using congrArg Option.isSome hspans

theorem forall₂_retargeted {ds ds' : List TypeDecl} (hds : TypesBecome change.moving ds ds')
    (hfree : ∀ c ∈ callsOf (typesVisits ds), change.pattern.isMatch c = true →
      callsOf (Expr.visitsOption c.receiver) = []) :
    List.Forall₂ (Retargeted change.pattern change.target (Expr.qualifiedAt change.target))
      (callsOf (typesVisits ds)) (callsOf (typesVisits ds')) :=
  forall₂_calls_of_typesBecome retargeted_step hfree hds

end OwnerChange

end FactoryLowering
