import FactoryLowering.Pass.OwnerChange
import FactoryLowering.Proofs.ImportEdits
import FactoryLowering.Proofs.OwnerChange.Walk

/-! # The walk that shortens receivers

A logged call whose receiver spells the target out gets the target's simple name as its receiver.
What is spelled out holds no call, so all calls are kept.
-/
namespace FactoryLowering.ReceiverShortening

variable {target : String} {logged : List NodeId}

def shortens (target : String) (logged : List NodeId) (c : Call) : Bool :=
  logged.contains c.id && c.receiver.any (·.spellsOut target)

def shortName (target : String) (span : Span) : Expr :=
  .ident { name := Text.simpleName target, type := some (.reference target []), span }

def shortenAt (target : String) (logged : List NodeId) (c : Call) : Call :=
  if shortens target logged c then
    { c with receiver := some (shortName target c.receiverSpan) }
  else c

def shortening (target : String) (logged : List NodeId) : Rewriting :=
  callsOnly fun c new => new = shortenAt target logged c

theorem call_eq (target : String) (logged : List NodeId) (c : Call) (count : Nat) :
    (editor target logged).call c count =
      (shortenAt target logged c, if shortens target logged c then count + 1 else count) := by
  obtain ⟨id, receiver, name, args, method, span⟩ := c
  cases receiver with
  | none =>
    simp only [editor, shortenCall, shortenAt, shortens, Option.any_none, Bool.and_false,
      Bool.false_eq_true, if_false]
  | some receiver =>
    cases hc : logged.contains id && receiver.spellsOut target with
    | true =>
      simp only [editor, shortenCall, shortenAt, shortens, Option.any_some, hc, if_true]
      rfl
    | false =>
      simp only [editor, shortenCall, shortenAt, shortens, Option.any_some, hc,
        Bool.false_eq_true, if_false]

def Counts (target : String) (logged : List NodeId) (cs : List Call) (s t : Nat) : Prop :=
  t = s + cs.countP (shortens target logged)

theorem Counts.trans {cs ds : List Call} {s t u : Nat} (h : Counts target logged cs s t)
    (k : Counts target logged ds t u) : Counts target logged (cs ++ ds) s u := by
  rw [Counts] at h k ⊢
  rw [k, h, List.countP_append, Nat.add_assoc]

theorem editor_obeys_shortening (target : String) (logged : List NodeId) :
    (editor target logged).Obeys (shortening target logged) (fun _ => True) (fun _ _ => True)
      fun _ xs s t => Counts target logged (placeCalls xs) s t := by
  refine Editor.obeys_callsOnly (fun _ => rfl) Counts.trans ?_
  intro p c receiver args cs s t hreceiver _ hst
  have hcall := call_eq target logged { c with receiver, args } t
  have hsame : shortens target logged { c with receiver, args } = shortens target logged c := by
    simp only [shortens, (hreceiver []).any_spellsOut]
  refine ⟨congrArg Prod.fst hcall, (congrArg Prod.snd hcall).trans ?_⟩
  rw [Counts] at hst
  cases hc : shortens target logged c with
  | true => simp [hsame, hc, hst, Nat.add_assoc]
  | false => simp [hsame, hc, hst]

/-- What becomes of one call when receivers are shortened. -/
structure Shortened (target : String) (logged : List NodeId) (old new : Call) : Prop where
  id : new.id = old.id
  name : new.name = old.name
  span : new.span = old.span
  arity : new.arity = old.arity
  method : new.method = old.method
  short : shortens target logged old = true →
    new.receiver = some (shortName target old.receiverSpan)
  kept : shortens target logged old = false → new.receiver.isSome = old.receiver.isSome

theorem span_of_shortening {p q : Path} {c c' new : Call}
    (h : (shortening target logged).call p q c c' new) : new.span = c'.span := by
  obtain rfl : new = shortenAt target logged c' := h
  unfold shortenAt
  split <;> rfl

theorem callsOf_of_shortens {c : Call} (h : shortens target logged c = true) :
    callsOf (Expr.visitsOption c.receiver) = [] := by
  simp only [shortens, Bool.and_eq_true, Option.any_eq_true] at h
  obtain ⟨_, receiver, hreceiver, hspells⟩ := h
  rw [hreceiver, Expr.visitsOption]
  exact Expr.callsOf_of_qualifiedName? (Expr.qualifiedName?_of_spellsOut hspells)

theorem shortened_step {p q : Path} {c new : Call} {receiver : Option Expr} {args : List Expr}
    (hreceiver : Expr.BecomesOption (shortening target logged) p q c.receiver receiver)
    (hargs : Expr.BecomesList (shortening target logged) p q c.args args)
    (hnew : new = shortenAt target logged { c with receiver, args }) :
    Shortened target logged c new ∧ KeepsCalls c receiver args new := by
  have harity : Call.arity { c with receiver, args } = c.arity := hargs.length_eq
  have hspans : receiver.map (·.span) = c.receiver.map (·.span) :=
    hreceiver.map_span span_of_shortening
  have hsame : shortens target logged { c with receiver, args } = shortens target logged c := by
    simp only [shortens, hreceiver.any_spellsOut]
  rw [shortenAt, hsame] at hnew
  cases hc : shortens target logged c with
  | true =>
    rw [hc, if_pos rfl] at hnew
    subst hnew
    refine ⟨⟨rfl, rfl, rfl, harity, rfl, fun _ => ?_, fun h => ?_⟩, rfl,
      .inr ⟨callsOf_of_shortens hc, ?_⟩⟩
    · rw [Call.receiverSpan, hspans, Call.receiverSpan]
    · rw [hc] at h
      cases h
    · rw [Expr.visitsOption, shortName, Expr.visits]
      rfl
  | false =>
    rw [hc, if_neg Bool.false_ne_true] at hnew
    subst hnew
    refine ⟨⟨rfl, rfl, rfl, harity, rfl, fun h => ?_, fun _ => ?_⟩, rfl, .inl rfl⟩
    · rw [hc] at h
      cases h
    · simpa using congrArg Option.isSome hspans

theorem forall₂_shortened {ds ds' : List TypeDecl}
    (hds : TypesBecome (shortening target logged) ds ds') :
    List.Forall₂ (Shortened target logged) (callsOf (typesVisits ds)) (callsOf (typesVisits ds')) :=
  forall₂_calls_of_typesBecome (fun _ => shortened_step) (fun _ _ => trivial) hds

theorem walk_shortening (target : String) (logged : List NodeId)
    (ds : List TypeDecl) :
    TypesBecome (shortening target logged) ds ((editor target logged).types ds 0).1 ∧
      ((editor target logged).types ds 0).2 =
        (callsOf (typesVisits ds)).countP (shortens target logged) := by
  obtain ⟨htypes, _, hcount⟩ :=
    (editor_obeys_shortening target logged).types ds (fun _ _ => trivial) 0 trivial
  rw [Counts, typesPlaces, placeCalls_locate, Nat.zero_add] at hcount
  exact ⟨htypes, hcount⟩

theorem shortens_congr {target : String} {logged ids : List NodeId}
    (h : ∀ id, id ∈ logged ↔ id ∈ ids) :
    shortens target logged = shortens target ids := by
  funext c
  have hcontains : logged.contains c.id = ids.contains c.id := by
    rw [Bool.eq_iff_iff, List.contains_iff_mem, List.contains_iff_mem, h]
  rw [shortens, hcontains, shortens]

theorem shortening_congr {target : String} {logged ids : List NodeId}
    (h : ∀ id, id ∈ logged ↔ id ∈ ids) :
    shortening target logged = shortening target ids := by
  have hcall : shortenAt target logged =
      shortenAt target ids := by
    funext c
    rw [shortenAt, shortens_congr h, shortenAt]
  rw [shortening, hcall, shortening]

variable {config : Config} {u : CompilationUnit} {log : ChangeLog}

/-- Whether the pass leaves a unit alone. -/
def declines (config : Config) (u : CompilationUnit) (log : ChangeLog) : Bool :=
  (log.ids config.changeKey).isEmpty || u.importsType config.origin ||
    u.simpleNameTaken config.target

theorem run_of_declines (h : declines config u log = true) :
    run config u log = { unit := u, log, result := .ok {} } := by
  rw [declines] at h
  rw [run, if_pos h]

theorem run_of_not_declines {types : List TypeDecl} {count : Nat}
    (h : declines config u log = false) (hcount : 0 < count)
    (hwalk : (editor config.target (log.ids config.changeKey)).types u.types 0 = (types, count)) :
    run config u log =
      { unit := (CompilationUnit.addImport { u with types } config.target).unit
        log
        warnings := (CompilationUnit.addImport { u with types } config.target).warnings
        result := .ok {
          receiversShortened := count
          importsAdded :=
            (CompilationUnit.addImport { u with types } config.target).unit.imports.length -
              u.imports.length } } := by
  have hgo : ¬((log.ids config.changeKey).isEmpty || u.importsType config.origin ||
      u.simpleNameTaken config.target) = true := Bool.eq_false_iff.mp h
  rw [run, if_neg hgo, hwalk]
  simp only [hcount, if_true, ImportEdits.apply_addition]

end FactoryLowering.ReceiverShortening
