import FactoryLowering.Attribution
import FactoryLowering.Proofs.FactoryHelpers.Identity
import FactoryLowering.Proofs.OwnerChange.Effect

/-! # Identities through any sequence of runs

A unit is sound in its identities if calls, types and anonymous classes all have different ones and
the counter is above them. Attribution and passes keep a unit sound, in whatever order they are run.
Identities get lost only together with a receiver; those that the counter gave out since the start
are all there in the end.
-/
namespace FactoryLowering

namespace CompilationUnit

def ids (u : CompilationUnit) : List NodeId := idsOf (typesVisits u.types)

/-- The identities that a rewritten call may take away with its receiver. -/
def receiverIds (u : CompilationUnit) : List NodeId := looseIds (typesVisits u.types)

/-- No identity occurs twice, and the counter is above all of them. -/
structure IdsSound (u : CompilationUnit) : Prop where
  distinct : u.ids.Nodup
  below : ∀ n ∈ u.ids, n < u.nextId

instance (u : CompilationUnit) : Decidable u.IdsSound :=
  decidable_of_iff (u.ids.Nodup ∧ ∀ n ∈ u.ids, n < u.nextId)
    ⟨fun h => ⟨h.1, h.2⟩, fun h => ⟨h.distinct, h.below⟩⟩

end CompilationUnit

theorem isApart_enterType {p : Path} {d : TypeDecl} {site : TypeSite} (h : d.id ∉ p.typeIds) :
    (Place.mk p (.enterType d site)).isApart = true := by
  refine List.all_eq_true.mpr fun e he => ?_
  cases e with
  | type outer outerSite =>
    have hne : outer.id ≠ d.id := by
      rintro same
      exact h (List.mem_filterMap.mpr ⟨_, he, congrArg some same⟩)
    exact bne_iff_ne.mpr hne
  | anonymous head ms => rfl

theorem sublist_typeIds_tail (p : Path) : (Path.typeIds p.tail).Sublist p.typeIds :=
  (List.tail_sublist p).filterMap _

theorem isApart_of_nodup {vs : List Visit} {p : Path} (h : (p.typeIds ++ idsOf vs).Nodup) :
    ∀ x ∈ locate p vs, x.isApart = true := by
  induction vs generalizing p with
  | nil => exact fun x hx => nomatch hx
  | cons v vs ih =>
    have hrest : (idsOf vs).Sublist (idsOf (v :: vs)) := (List.sublist_cons_self v vs).filterMap _
    rw [locate, List.forall_mem_cons]
    cases v with
    | enterType d site =>
      have hperm : (p.typeIds ++ d.id :: idsOf vs).Perm (d.id :: (p.typeIds ++ idsOf vs)) :=
        List.perm_middle
      have hnodup := hperm.nodup_iff.mp h
      have hfar := (List.nodup_cons.mp hnodup).1
      exact ⟨isApart_enterType fun hmem => hfar (List.mem_append_left _ hmem), ih hnodup⟩
    | leaveType d =>
      exact ⟨rfl, ih (h.sublist ((sublist_typeIds_tail p).append hrest))⟩
    | leaveAnonymous head ms =>
      exact ⟨rfl, ih (h.sublist ((sublist_typeIds_tail p).append hrest))⟩
    | _ => exact ⟨rfl, ih (h.sublist (hrest.append_left _))⟩

theorem looseIds_subset : Hereditary fun K _ a => looseIds (K.visits a) ⊆ idsOf (K.visits a) where
  unit hn := hn
  pair {_ _ K L p a b} _ ha hb := by
    have hvisits : (K.prod L).visits (a, b) = K.visits a ++ L.visits b := rfl
    rw [hvisits, looseIds_append, idsOf_append]
    exact List.append_subset.mpr ⟨fun n hn => List.mem_append_left _ (ha hn),
      fun n hn => List.mem_append_right _ (hb hn)⟩
  node {_ _ K L} build own refs {p a} n ha := by
    rw [n.visits, looseIds_append, idsOf_append, looseIds_quiet (n.quiet a),
      idsOf_quiet (n.quiet a)]
    exact ha
  call {p} c hr ha := by
    intro n hn
    have hn : n ∈ looseIds (Expr.call c).visits := hn
    have goal : n ∈ idsOf (Expr.call c).visits := by
      rw [looseIds_call, List.mem_append, List.mem_append] at hn
      rw [idsOf_call, List.mem_cons, List.mem_append]
      rcases hn with hn | hn | hn
      · exact .inr (.inl hn)
      · exact .inr (.inl (hr hn))
      · exact .inr (.inr (ha hn))
    exact goal
  anonymous {p head ms} hms := by
    rw [looseIds_anonymous, idsOf_anonymous]
    exact List.subset_cons_of_subset head.id hms
  type {p site d} hd := by
    have hd : looseIds d.innerVisits ⊆ idsOf d.innerVisits := hd
    have hall := List.subset_cons_of_subset d.id hd
    rw [← d.looseIds_visits site, ← d.idsOf_visits site] at hall
    exact hall

namespace CompilationUnit

variable {u u' u'' : CompilationUnit}

theorem mem_ids_of_mem_receiverIds {n : NodeId} (h : n ∈ u.receiverIds) : n ∈ u.ids :=
  looseIds_subset.types [] u.types h

theorem IdsSound.nestedTypesDiffer (h : u.IdsSound) : u.NestedTypesDiffer :=
  isApart_of_nodup h.distinct

structure KeepsIdentity (u u' : CompilationUnit) : Prop where
  distinct : u'.ids.Nodup
  le : u.nextId ≤ u'.nextId
  source : ∀ n ∈ u'.ids, n ∈ u.ids ∨ u.nextId ≤ n ∧ n < u'.nextId
  fresh : ∀ n, u.nextId ≤ n → n < u'.nextId → n ∈ u'.ids
  lost : ∀ n ∈ u.ids, n ∈ u'.ids ∨ n ∈ u.receiverIds
  receivers : ∀ n ∈ u'.receiverIds, n ∈ u.receiverIds

theorem KeepsIdentity.sound (h : u.KeepsIdentity u') (hu : u.IdsSound) : u'.IdsSound := by
  refine ⟨h.distinct, fun n hn => ?_⟩
  rcases h.source n hn with hn | hn
  · exact Nat.lt_of_lt_of_le (hu.below n hn) h.le
  · exact hn.2

theorem KeepsIdentity.refl (hu : u.IdsSound) : u.KeepsIdentity u := by
  refine ⟨hu.distinct, Nat.le_refl _, fun n hn => .inl hn, fun n hle hlt => ?_,
    fun n hn => .inl hn, fun n hn => hn⟩
  exact absurd hle (Nat.not_le_of_lt hlt)

/-- New identities do not stand in receivers, so a later run does not lose them. -/
theorem KeepsIdentity.trans (h : u.KeepsIdentity u') (k : u'.KeepsIdentity u'') (hu : u.IdsSound) :
    u.KeepsIdentity u'' := by
  have hle := h.le
  have hle' := k.le
  refine ⟨k.distinct, Nat.le_trans hle hle', fun n hn => ?_, fun n hlow hhigh => ?_, fun n hn => ?_,
    fun n hn => h.receivers n (k.receivers n hn)⟩
  · rcases k.source n hn with hn | ⟨hlow, hhigh⟩
    · rcases h.source n hn with hn | ⟨hlow, hhigh⟩
      · exact .inl hn
      · exact .inr ⟨hlow, Nat.lt_of_lt_of_le hhigh hle'⟩
    · exact .inr ⟨Nat.le_trans hle hlow, hhigh⟩
  · by_cases hearly : n < u'.nextId
    · rcases k.lost n (h.fresh n hlow hearly) with hn | hn
      · exact hn
      · have hold := hu.below n (mem_ids_of_mem_receiverIds (h.receivers n hn))
        exact absurd hlow (Nat.not_le_of_lt hold)
    · exact k.fresh n (Nat.le_of_not_lt hearly) hhigh
  · rcases h.lost n hn with hn | hn
    · rcases k.lost n hn with hn | hn
      · exact .inl hn
      · exact .inr (h.receivers n hn)
    · exact .inr hn

theorem KeepsIdentity.of_keepsIds {drops : Path → Call → Bool} {k : Nat}
    (hnext : u'.nextId = NodeId.next^[k] u.nextId)
    (h : KeepsIds drops [] (typesVisits u.types) (typesVisits u'.types)
      (List.iterate NodeId.next u.nextId k)) (hu : u.IdsSound)
    (hroom : ∀ n ∈ u'.ids, n < NodeId.last) : u.KeepsIdentity u' := by
  obtain ⟨⟨kept, hsub, hperm⟩, hlost, hloose⟩ := h
  have hperm : u'.ids.Perm (kept ++ List.iterate NodeId.next u.nextId k) := hperm
  obtain ⟨hrange, hcounter⟩ := NodeId.iterate_eq_range' fun n hn =>
    hroom n (hperm.mem_iff.mpr (List.mem_append_right _ hn))
  rw [hrange] at hperm
  rw [hcounter] at hnext
  have hfresh : ∀ n, n ∈ List.range' u.nextId k ↔ u.nextId ≤ n ∧ n < u'.nextId := by
    intro n
    rw [hnext]
    exact List.mem_range'_1
  refine ⟨?_, ?_, fun n hn => ?_, fun n hlow hhigh => ?_, fun n hn => ?_, hloose⟩
  · rw [hperm.nodup_iff, List.nodup_append']
    refine ⟨hu.distinct.sublist hsub, List.nodup_range' .., ?_⟩
    intro n hkept hnew
    have hold := hu.below n (hsub.subset hkept)
    exact absurd ((hfresh n).mp hnew).1 (Nat.not_le_of_lt hold)
  · rw [hnext]
    exact Nat.le_add_right ..
  · rcases List.mem_append.mp (hperm.mem_iff.mp hn) with hn | hn
    · exact .inl (hsub.subset hn)
    · exact .inr ((hfresh n).mp hn)
  · exact hperm.mem_iff.mpr (List.mem_append_right _ ((hfresh n).mpr ⟨hlow, hhigh⟩))
  · exact (hlost n hn).imp_right mem_looseIds_of_mem_droppedIds

theorem KeepsIdentity.perm (h : u.KeepsIdentity u') (hu : u.IdsSound) :
    u'.ids.Perm (u.ids.filter (u'.ids.contains ·) ++
      List.range' u.nextId (u'.nextId - u.nextId)) := by
  have hfresh : ∀ n, n ∈ List.range' u.nextId (u'.nextId - u.nextId) ↔
      u.nextId ≤ n ∧ n < u'.nextId := by
    intro n
    rw [List.mem_range'_1, Nat.add_sub_cancel' h.le]
  have hnodup : (u.ids.filter (u'.ids.contains ·) ++
      List.range' u.nextId (u'.nextId - u.nextId)).Nodup := by
    rw [List.nodup_append']
    refine ⟨hu.distinct.filter _, List.nodup_range' .., fun n hold hnew => ?_⟩
    have hbelow := hu.below n (List.mem_filter.mp hold).1
    exact absurd ((hfresh n).mp hnew).1 (Nat.not_le_of_lt hbelow)
  refine (List.perm_ext_iff_of_nodup h.distinct hnodup).mpr fun n => ?_
  rw [List.mem_append, List.mem_filter, hfresh, List.contains_iff_mem]
  constructor
  · intro hn
    exact (h.source n hn).imp_left fun hold => ⟨hold, hn⟩
  · rintro (⟨_, hn⟩ | ⟨hlow, hhigh⟩)
    · exact hn
    · exact h.fresh n hlow hhigh

end CompilationUnit

/-- Attribution replaces identifiers only, and only if it has found out what they denote. -/
theorem NameTable.receiver_cases (table : NameTable) (e : Expr) : (table.receiver e).1 = e ∨
    ∃ i fqn, e = .ident i ∧
      table.receiver e = (.ident { i with type := some (.ofName fqn) }, some fqn) := by
  unfold NameTable.receiver
  split
  · split
    · exact .inl rfl
    · split
      · exact .inr ⟨_, _, rfl, rfl⟩
      · exact .inl rfl
  · exact .inl rfl
  · exact .inl rfl

theorem Attribution.bindTo_keeps (c : Call) (owner : Option String) (s : State) :
    (bindTo c owner s).1.id = c.id ∧ (bindTo c owner s).1.args = c.args ∧
      (bindTo c owner s).1.receiver = c.receiver := by
  cases owner <;> exact ⟨rfl, rfl, rfl⟩

theorem Attribution.bindCall_keeps (table : NameTable) (drops : Path → Call → Bool) (p : Path)
    (c : Call) (receiver : Option Expr) (args : List Expr) (s : State) :
    KeepsCallId drops p c receiver args (bindCall table { c with receiver, args } s).1 := by
  unfold bindCall
  cases hmethod : c.method with
  | some method => exact ⟨rfl, rfl, .inl rfl⟩
  | none =>
    cases receiver with
    | none =>
      obtain ⟨hid, hargs, hreceiver⟩ := bindTo_keeps
        ⟨c.id, none, c.name, args, none, c.span⟩ s.enclosing.head?.join s
      exact ⟨hid, hargs, .inl hreceiver⟩
    | some e =>
      obtain ⟨hid, hargs, hreceiver⟩ := bindTo_keeps
        ⟨c.id, some (table.receiver e).1, c.name, args, none, c.span⟩ (table.receiver e).2 s
      refine ⟨hid, hargs, ?_⟩
      rcases table.receiver_cases e with hsame | ⟨i, fqn, rfl, hnew⟩
      · exact .inl (hreceiver.trans (congrArg some hsame))
      · have hbound := hreceiver.trans (congrArg (fun x => some x.1) hnew)
        refine .inr ⟨?_, .inr rfl⟩
        exact congrArg (fun r => idsOf (Expr.visitsOption r)) hbound

theorem Attribution.editor_tracksIds (table : NameTable) (package : String) (n : NodeId) :
    (editor table).TracksIds package (fun _ => True) (fun _ _ => True) (fun _ => n)
      fun _ _ => false :=
  Editor.tracksIds_of_calls package n (fun _ _ => rfl) fun s _ => bindCall_keeps table _ _ _ _ _ s

theorem OwnerChange.editor_tracksIds (change : OwnerChange) (package : String) (n : NodeId) :
    change.editor.TracksIds package (fun _ => True) (fun _ _ => True) (fun _ => n)
      fun _ c => change.pattern.isMatch c := by
  refine Editor.tracksIds_of_calls package n (fun _ _ => rfl) ?_
  intro p c receiver args s _
  have hsame : change.pattern.isMatch { c with receiver, args } = change.pattern.isMatch c := rfl
  rw [call_eq_moveAt, moveAt, hsame]
  split
  · next hmatch =>
    refine ⟨rfl, rfl, .inr ⟨?_, .inl hmatch⟩⟩
    exact idsOf_quiet (Expr.quiet_of_qualifiedName? (Expr.qualifiedName?_qualifiedAt _ _))
  · exact ⟨rfl, rfl, .inl rfl⟩

theorem ReceiverShortening.editor_tracksIds (target : String) (logged : List NodeId)
    (drops : Path → Call → Bool) (package : String) (n : NodeId) :
    (editor target logged).TracksIds package (fun _ => True) (fun _ _ => True) (fun _ => n)
      drops := by
  refine Editor.tracksIds_of_calls package n (fun _ _ => rfl) ?_
  intro p c receiver args s _
  rw [call_eq, shortenAt]
  split
  · next hshort =>
    simp only [shortens, Bool.and_eq_true, Option.any_eq_true] at hshort
    obtain ⟨_, spelled, hreceiver, hspells⟩ := hshort
    refine ⟨rfl, rfl, .inr ⟨rfl, .inr ?_⟩⟩
    rw [hreceiver]
    exact idsOf_quiet (Expr.quiet_of_qualifiedName? (Expr.qualifiedName?_of_spellsOut hspells))
  · exact ⟨rfl, rfl, .inl rfl⟩

theorem FactoryHelpers.run_nextId (f : Family) (u : CompilationUnit) (log : ChangeLog) :
    (FactoryHelpers.run f u log).unit.nextId = (walk f u).2.nextId := by
  obtain ⟨imports, himports⟩ := ImportEdits.apply_unit_eq (walk f u).2.edits (walkedUnit f u)
  rw [run_eq, himports]
  rfl

theorem OwnerChange.run_tree (change : OwnerChange) (u : CompilationUnit) (log : ChangeLog) :
    (change.run u log).unit.types = (change.editor.types u.types { log }).1 ∧
      (change.run u log).unit.nextId = u.nextId := by
  rcases hwalk : change.editor.types u.types { log } with ⟨types, s⟩
  simp only [OwnerChange.run, hwalk]
  split
  · obtain ⟨imports, himports⟩ :=
      ImportEdits.apply_unit_eq { removals := [change.origin] } { u with types }
    rw [himports]
    exact ⟨rfl, rfl⟩
  · exact ⟨rfl, rfl⟩

theorem ReceiverShortening.run_tree {config : Config} {u : CompilationUnit} {log : ChangeLog}
    (h : declines config u log = false) :
    (run config u log).unit.types =
        ((editor config.target (log.ids config.changeKey)).types u.types 0).1 ∧
      (run config u log).unit.nextId = u.nextId := by
  have hgo : ¬((log.ids config.changeKey).isEmpty || u.importsType config.origin ||
      u.simpleNameTaken config.target) = true := Bool.eq_false_iff.mp h
  rcases hwalk : (editor config.target (log.ids config.changeKey)).types u.types 0 with
    ⟨types, count⟩
  rw [run, if_neg hgo, hwalk]
  dsimp only
  split
  · obtain ⟨imports, himports⟩ :=
      ImportEdits.apply_unit_eq { additions := [config.target] } { u with types }
    rw [himports]
    exact ⟨rfl, rfl⟩
  · exact ⟨rfl, rfl⟩

def Visit.isPlain : Visit → Bool
  | .call _ => false
  | .enterAnonymous _ _ => false
  | _ => true

def Call.hasPlainReceiver (c : Call) : Bool := (Expr.visitsOption c.receiver).all Visit.isPlain

theorem idsOf_plain_append {vs ws : List Visit}
    (hv : vs.all Visit.isPlain = true → idsOf vs = [])
    (hw : ws.all Visit.isPlain = true → idsOf ws = [])
    (h : (vs ++ ws).all Visit.isPlain = true) : idsOf (vs ++ ws) = [] := by
  rw [List.all_append, Bool.and_eq_true] at h
  rw [idsOf_append, hv h.1, hw h.2]
  rfl

mutual

theorem Expr.idsOf_plain : ∀ e : Expr, e.visits.all Visit.isPlain = true → idsOf e.visits = []
  | .literal _ _, _ => rfl
  | .ident _, _ => rfl
  | .binary _ left right _, h => idsOf_plain_append left.idsOf_plain right.idsOf_plain h
  | .assign target value _, h => idsOf_plain_append target.idsOf_plain value.idsOf_plain h
  | .call ⟨_, _, _, _, _, _⟩, h => nomatch h
  | .field target _ _, h => target.idsOf_plain h
  | .cast _ operand _, h => operand.idsOf_plain h
  | .conditional test yes no _, h =>
    idsOf_plain_append (idsOf_plain_append test.idsOf_plain yes.idsOf_plain) no.idsOf_plain h
  | .new _ args _, h => Expr.idsOf_plainList args h
  | .newAnonymous _ args head members _, h => by
    simp [Expr.visits, Visit.isPlain] at h
  | .paren inner, h => inner.idsOf_plain h

theorem Expr.idsOf_plainList : ∀ es : List Expr,
    (Expr.visitsList es).all Visit.isPlain = true → idsOf (Expr.visitsList es) = []
  | [], _ => rfl
  | e :: es, h => idsOf_plain_append e.idsOf_plain (Expr.idsOf_plainList es) h

end

theorem Call.idsOf_receiver {c : Call} (h : c.hasPlainReceiver = true) :
    idsOf (Expr.visitsOption c.receiver) = [] := by
  rw [Call.hasPlainReceiver] at h
  cases hreceiver : c.receiver with
  | none => rfl
  | some e =>
    rw [hreceiver] at h
    exact e.idsOf_plain h

/-- One run over a unit: attribution, or a pass with any log. -/
inductive Step where
  | attribution
  | factoryHelpers (f : Family) (log : ChangeLog)
  | ownerChange (change : OwnerChange) (log : ChangeLog)
  | receiverShortening (config : Config) (log : ChangeLog)

namespace Step

def run (u : CompilationUnit) : Step → CompilationUnit
  | .attribution => (Attribution.run u).unit
  | .factoryHelpers f log => ((Pass.factoryHelpers f).run u log).unit
  | .ownerChange change log => ((Pass.ownerChange change).run u log).unit
  | .receiverShortening config log => ((Pass.receiverShortening config).run u log).unit

/-- Whether a pass rewrites a call of a unit. Attribution binds calls and rewrites none. -/
def rewrites (u : CompilationUnit) (p : Path) (c : Call) : Step → Bool
  | .attribution => false
  | .factoryHelpers f _ => FactoryHelpers.lowers f u.packageName p c
  | .ownerChange change _ => change.pattern.isMatch c
  | .receiverShortening config log => !ReceiverShortening.declines config u log &&
      ReceiverShortening.shortens config.target (log.ids config.changeKey) c

/-- What one run does to the identities of a unit. -/
theorem keepsIds (u : CompilationUnit) (h : u.NestedTypesDiffer) : ∀ step : Step,
    ∃ k, (step.run u).nextId = NodeId.next^[k] u.nextId ∧
      KeepsIds (fun p c => step.rewrites u p c) [] (typesVisits u.types)
        (typesVisits (step.run u).types) (List.iterate NodeId.next u.nextId k)
  | .attribution => by
    obtain ⟨k, heffect⟩ := (Attribution.editor_tracksIds (.ofUnit u) u.packageName u.nextId).types
      u.types {} (fun _ _ => trivial) trivial
    exact ⟨k, heffect.counter, heffect.ids⟩
  | .factoryHelpers f log => by
    obtain ⟨k, heffect⟩ := (FactoryHelpers.editor_tracksIds f (f.shadowed u) u.packageName).types
      u.types _ h (FactoryHelpers.open_start f u)
    have htypes : ((Step.factoryHelpers f log).run u).types = (FactoryHelpers.walk f u).1 :=
      FactoryHelpers.run_types f u log
    have hnext : ((Step.factoryHelpers f log).run u).nextId = (FactoryHelpers.walk f u).2.nextId :=
      FactoryHelpers.run_nextId f u log
    rw [htypes, hnext]
    exact ⟨k, heffect.counter, heffect.ids⟩
  | .ownerChange change log => by
    obtain ⟨k, heffect⟩ := (change.editor_tracksIds u.packageName u.nextId).types
      u.types { log } (fun _ _ => trivial) trivial
    obtain ⟨htypes, hnext⟩ := change.run_tree u log
    have htypes : ((Step.ownerChange change log).run u).types = _ := htypes
    have hnext : ((Step.ownerChange change log).run u).nextId = u.nextId := hnext
    rw [htypes, hnext]
    exact ⟨k, heffect.counter, heffect.ids⟩
  | .receiverShortening config log => by
    cases hdeclines : ReceiverShortening.declines config u log with
    | true =>
      have hrun := ReceiverShortening.run_of_declines hdeclines
      have hsame : (Step.receiverShortening config log).run u = u := congrArg PassOutcome.unit hrun
      rw [hsame]
      exact ⟨0, rfl, .refl _⟩
    | false =>
      obtain ⟨k, heffect⟩ := (ReceiverShortening.editor_tracksIds config.target
        (log.ids config.changeKey) (fun p c => (Step.receiverShortening config log).rewrites u p c)
        u.packageName u.nextId).types u.types 0 (fun _ _ => trivial) trivial
      obtain ⟨htypes, hnext⟩ := ReceiverShortening.run_tree hdeclines
      have htypes : ((Step.receiverShortening config log).run u).types = _ := htypes
      have hnext : ((Step.receiverShortening config log).run u).nextId = u.nextId := hnext
      rw [htypes, hnext]
      exact ⟨k, heffect.counter, heffect.ids⟩

/-- No call that the run rewrites has a call or an anonymous class in its receiver. -/
def Spares (u : CompilationUnit) (step : Step) : Prop :=
  ∀ x ∈ typesSites u.types, step.rewrites u x.path x.call = true → x.call.hasPlainReceiver = true

instance (u : CompilationUnit) (step : Step) : Decidable (step.Spares u) :=
  inferInstanceAs (Decidable (∀ x ∈ typesSites u.types, _ → _))

theorem keepsIdentity {u : CompilationUnit} (hu : u.IdsSound) {step : Step}
    (hroom : ∀ n ∈ (step.run u).ids, n < NodeId.last) : u.KeepsIdentity (step.run u) := by
  obtain ⟨k, hnext, hids⟩ := step.keepsIds u hu.nestedTypesDiffer
  exact .of_keepsIds hnext hids hu hroom

theorem mem_ids_run {u : CompilationUnit} (hu : u.IdsSound) {step : Step} (h : step.Spares u) :
    ∀ n ∈ u.ids, n ∈ (step.run u).ids := by
  intro n hn
  obtain ⟨_, _, hids⟩ := step.keepsIds u hu.nestedTypesDiffer
  refine (hids.lost n hn).resolve_right fun hdropped => ?_
  obtain ⟨x, hx, hn⟩ := List.mem_flatMap.mp hdropped
  split at hn
  · next hrewrites =>
    rw [Call.idsOf_receiver (h x hx hrewrites)] at hn
    cases hn
  · cases hn

end Step

def runSteps (u : CompilationUnit) : List Step → CompilationUnit
  | [] => u
  | step :: rest => runSteps (step.run u) rest

def SpareReceivers (u : CompilationUnit) : List Step → Prop
  | [] => True
  | step :: rest => step.Spares u ∧ SpareReceivers (step.run u) rest

/-- The counter does not come to its end: no run gives out the greatest identity. -/
def NoOverflow (u : CompilationUnit) : List Step → Prop
  | [] => True
  | step :: rest => (∀ n ∈ (step.run u).ids, n < NodeId.last) ∧ NoOverflow (step.run u) rest

theorem runSteps_keepsIdentity {u : CompilationUnit} (hu : u.IdsSound) {steps : List Step}
    (hroom : NoOverflow u steps) : u.KeepsIdentity (runSteps u steps) := by
  induction steps generalizing u with
  | nil => exact .refl hu
  | cons step rest ih =>
    have hfirst := Step.keepsIdentity hu hroom.1
    exact hfirst.trans (ih (hfirst.sound hu) hroom.2) hu

theorem mem_ids_runSteps {u : CompilationUnit} (hu : u.IdsSound) {steps : List Step}
    (hroom : NoOverflow u steps) (h : SpareReceivers u steps) :
    ∀ n ∈ u.ids, n ∈ (runSteps u steps).ids := by
  induction steps generalizing u with
  | nil => exact fun n hn => hn
  | cons step rest ih =>
    intro n hn
    have hfirst := Step.keepsIdentity hu hroom.1
    exact ih (hfirst.sound hu) hroom.2 h.2 n (Step.mem_ids_run hu h.1 n hn)

/-- Any sequence of runs keeps a unit sound as long as there are identities left. Those in the end
are some of those before, and each number that the counter went through. If receivers are spared,
none is lost. -/
theorem runSteps_ids {u : CompilationUnit} (hu : u.IdsSound) {steps : List Step}
    (hroom : NoOverflow u steps) :
    (runSteps u steps).IdsSound ∧ u.nextId ≤ (runSteps u steps).nextId ∧
      ∃ kept : List NodeId, kept.Sublist u.ids ∧
        (runSteps u steps).ids.Perm
          (kept ++ List.range' u.nextId ((runSteps u steps).nextId - u.nextId)) ∧
        (SpareReceivers u steps → kept = u.ids) := by
  have hkeeps := runSteps_keepsIdentity hu hroom
  refine ⟨hkeeps.sound hu, hkeeps.le, _, List.filter_sublist, hkeeps.perm hu, fun hspares => ?_⟩
  refine List.filter_eq_self.mpr fun n hn => ?_
  exact List.contains_iff_mem.mpr (mem_ids_runSteps hu hroom hspares n hn)

def unboundCalls : CompilationUnit where
  imports := [.single "java.util.List", .single "java.util.Set"]
  types := [.classDecl { id := 0, name := "Main" }
    [.field { type := { name := "Object" }, name := "x" }
        (some (.call (.unresolved 1 (some (.ofName "List")) "of" [.ofInt 1]))),
      .field { type := { name := "Object" }, name := "y" }
        (some (.call (.unresolved 2 (some (.ofName "Set")) "of" [.ofInt 2])))]]
  nextId := 3

def setsConfig : Config where
  origin := "java.util.Set"
  method := "of"
  target := "com.acme.Sets"

/-- Binds the calls, gives the first one a helper, moves the second one and shortens it. -/
def allRuns : List Step :=
  [.attribution, .factoryHelpers .list {}, .ownerChange setsConfig.change {},
    .receiverShortening setsConfig { entries := [(setsConfig.changeKey, 2)] }]

theorem runSteps_ids_of_unboundCalls : unboundCalls.IdsSound ∧ NoOverflow unboundCalls allRuns ∧
    SpareReceivers unboundCalls allRuns ∧
    (runSteps unboundCalls allRuns).nextId = 5 ∧ (runSteps unboundCalls allRuns).IdsSound ∧
    (runSteps unboundCalls allRuns).ids.Perm ([0, 1, 2] ++ [3, 4]) := by
  have hsound : unboundCalls.IdsSound := by decide
  have hroom : NoOverflow unboundCalls allRuns := by
    refine ⟨?_, ?_, ?_, ?_, trivial⟩ <;> decide +kernel
  have hspares : SpareReceivers unboundCalls allRuns := by
    refine ⟨?_, ?_, ?_, ?_, trivial⟩ <;> decide +kernel
  have hnext : (runSteps unboundCalls allRuns).nextId = 5 := by decide +kernel
  obtain ⟨hkept, _, kept, _, hperm, hall⟩ := runSteps_ids hsound hroom
  rw [hall hspares, hnext] at hperm
  exact ⟨hsound, hroom, hspares, hnext, hkept, hperm⟩

/-- In `make().of(1)` the call of `make` goes with the receiver that it stands in. -/
example : (runSteps
    { types := [.classDecl { id := 0, name := "Main" }
        [.field { type := { name := "Object" }, name := "x" } (some (.call
          { FactoryHelpers.listOf 1 [.ofInt 1] with
            receiver := some (.call (.unresolved 2 none "make" [])) }))]]
      nextId := 3 } [.factoryHelpers .list {}]).ids = [0, 1, 3, 4] := by
  decide +kernel

end FactoryLowering
