import FactoryLowering.Proofs.ImportList
import FactoryLowering.Proofs.OwnerChange.Capture
import FactoryLowering.Proofs.OwnerChange.Exactness

/-! # When receivers are shortened, and which

The pass is told from its outcome alone. Of the log it reads what is recorded under its own key and
nothing else, and it leaves the log as it is. A unit in which the name of the target may mean
something else is not touched. In any other unit a receiver is shortened exactly if its call is
recorded and it spells the target as a chain of field accesses. Settings need not be valid, and an
identity may belong to several calls.
-/
namespace FactoryLowering

/-- Chains of field accesses on an identifier, and the dotted names they are read as. -/
inductive Expr.Spells : Expr → String → Prop where
  | ident (i : Identifier) : Spells (.ident i) i.name
  | field {outer : Expr} {name : String} (h : Spells outer name) (segment : String) (span : Span) :
    Spells (.field outer segment span) (name ++ "." ++ segment)

theorem Expr.Spells.qualifiedName?_eq {e : Expr} {name : String} (h : e.Spells name) :
    e.qualifiedName? = some name := by
  induction h with
  | ident i => rfl
  | field _ segment span ih => rw [qualifiedName?, ih, Option.map_some]

theorem Expr.spells_of_qualifiedName? : ∀ {e : Expr} {name : String},
    e.qualifiedName? = some name → e.Spells name
  | .ident i, _, h => by
    obtain rfl := Option.some.inj h
    exact .ident i
  | .field outer segment span, _, h => by
    simp only [qualifiedName?, Option.map_eq_some_iff] at h
    obtain ⟨name, houter, rfl⟩ := h
    exact .field (spells_of_qualifiedName? houter) segment span

namespace ReceiverShortening

variable {config : Config} {u : CompilationUnit} {log log' : ChangeLog}

/-- What speaks against shortening: nothing is recorded, the origin can still be meant, or the
simple name of the target belongs to another type. -/
def Hindered (config : Config) (u : CompilationUnit) (log : ChangeLog) : Prop :=
  (∀ id, (config.changeKey, id) ∉ log.entries) ∨
    (∃ i ∈ u.imports, i.provides config.origin = true) ∨
    (∃ i ∈ u.imports, i.isSingle = true ∧ i.name ≠ config.target ∧
      Text.simpleName i.name = Text.simpleName config.target) ∨
    u.declaresType (Text.simpleName config.target) = true

/-- A recorded call whose receiver spells the target. A bare identifier is no such receiver, even if
the target is a name without dots. -/
def SpellsTarget (config : Config) (log : ChangeLog) (c : Call) : Prop :=
  (config.changeKey, c.id) ∈ log.entries ∧ ∃ outer segment span,
    c.receiver = some (.field outer segment span) ∧
      (Expr.field outer segment span).Spells config.target

/-- Recorded calls that spell the target get its simple name as their receiver, with the span of the
old one. All other calls and all types are kept as a whole. -/
def shorteningExactly (config : Config) (log : ChangeLog) : Rewriting where
  call _ _ old c new :=
    SpellsTarget config log old ∧
        new = { c with receiver := some (shortName config.target old.receiverSpan) } ∨
      ¬ SpellsTarget config log old ∧ new = c
  type _ _ _ _ d new := new = d

theorem declines_iff : declines config u log = true ↔ Hindered config u log := by
  have hempty : (log.ids config.changeKey).isEmpty = true ↔
      ∀ id, (config.changeKey, id) ∉ log.entries := by
    simp [List.isEmpty_iff, List.eq_nil_iff_forall_not_mem]
  simp only [declines, CompilationUnit.simpleNameTaken, Bool.or_eq_true, hempty,
    CompilationUnit.importsOther_iff, CompilationUnit.importsType, List.any_eq_true, Hindered,
    or_assoc]

theorem shortens_iff {c : Call} :
    shortens config.target (log.ids config.changeKey) c = true ↔ SpellsTarget config log c := by
  simp only [shortens, Bool.and_eq_true, List.contains_iff_mem, ChangeLog.mem_ids,
    Option.any_eq_true, SpellsTarget]
  refine and_congr_right fun _ => ?_
  constructor
  · rintro ⟨receiver, hreceiver, hspells⟩
    have hname := Expr.spells_of_qualifiedName? (Expr.qualifiedName?_of_spellsOut hspells)
    cases receiver with
    | field outer segment span => exact ⟨outer, segment, span, hreceiver, hname⟩
    | _ => cases hspells
  · rintro ⟨outer, segment, span, hreceiver, hspells⟩
    refine ⟨_, hreceiver, ?_⟩
    rw [Expr.spellsOut, hspells.qualifiedName?_eq]
    exact beq_self_eq_true _

instance (config : Config) (log : ChangeLog) : DecidablePred (SpellsTarget config log) :=
  fun _ => decidable_of_iff _ shortens_iff

theorem shortening_refines_exactly : (shortening config.target (log.ids config.changeKey)).Refines
    (shorteningExactly config log) fun _ _ _ => True where
  enterType _ _ _ := fun _ _ => trivial
  enterAnonymous _ _ := trivial
  type _ _ h := h
  call {p q c receiver args new} _ hreceiver _ hcall := by
    obtain rfl : new =
      shortenAt config.target (log.ids config.changeKey) { c with receiver, args } := hcall
    -- what is spelled and where it stands is the same before and after the walk over the receiver
    have hspan : Call.receiverSpan { c with receiver, args } = c.receiverSpan := by
      rw [Call.receiverSpan, hreceiver.map_span span_of_shortening, Call.receiverSpan]
    have hsame : shortens config.target (log.ids config.changeKey) { c with receiver, args } =
        shortens config.target (log.ids config.changeKey) c := by
      simp only [shortens, hreceiver.any_spellsOut]
    by_cases hc : SpellsTarget config log c
    · left
      refine ⟨hc, ?_⟩
      rw [shortenAt, if_pos (hsame.trans (shortens_iff.mpr hc)), hspan]
    · right
      refine ⟨hc, if_neg ?_⟩
      rw [hsame, shortens_iff]
      exact hc

theorem candidates_eq (config : Config) (u : CompilationUnit) (log : ChangeLog) :
    candidates config u log =
      (callsOf (typesVisits u.types)).countP fun c => decide (SpellsTarget config log c) := by
  refine List.countP_congr fun c _ => ?_
  rw [shortens_iff, decide_eq_true_iff]

/-- The outcome of the pass on a unit and a log. -/
structure ExactOutcome (config : Config) (u : CompilationUnit) (log : ChangeLog)
    (out : PassOutcome) : Prop where
  logKept : out.log = log
  warnings : out.warnings = []
  unit : out.unit = { u with types := out.unit.types, imports := out.unit.imports }
  hindered : Hindered config u log → out.unit = u ∧ out.result = .ok {}
  types : ¬ Hindered config u log →
    TypesBecome (shorteningExactly config log) u.types out.unit.types
  /-- The calls are counted as they stand in the unit before. If there are any, the target can be
  used by its simple name afterwards. No import is taken away, and none but that of the target is
  put in. -/
  result : ¬ Hindered config u log → ∃ count added,
    out.result = .ok { receiversShortened := count, importsAdded := added } ∧
    count = (callsOf (typesVisits u.types)).countP (fun c => decide (SpellsTarget config log c)) ∧
    (0 < count → out.unit.needsImport config.target = false) ∧
    (added = 0 ∧ out.unit.imports = u.imports ∨
      added = 1 ∧ 0 < count ∧ out.unit.imports = insertImport config.target u.imports)

theorem exactOutcome_of_settled (h : Settled config u log) :
    ExactOutcome config u log (run config u log) := by
  rw [run_of_settled h]
  refine ⟨rfl, rfl, rfl, fun _ => ⟨rfl, rfl⟩, ?_, ?_⟩
  all_goals
    intro hfree
    have hnone : candidates config u log = 0 :=
      h.resolve_left fun hdeclines => hfree (declines_iff.mp hdeclines)
  · have htypes := (walk_shortening config.target (log.ids config.changeKey) u.types).1
    rw [walk_of_candidates_eq_zero hnone] at htypes
    exact htypes.refine shortening_refines_exactly fun _ _ => trivial
  · refine ⟨0, 0, rfl, ?_, fun hpos => absurd hpos (Nat.lt_irrefl 0), .inl ⟨rfl, rfl⟩⟩
    rw [← candidates_eq, hnone]

theorem exactOutcome_of_not_settled (h : ¬ Settled config u log) :
    ExactOutcome config u log (run config u log) := by
  obtain ⟨types, htypes, hpos, hrun⟩ := run_of_not_settled h
  have hgo : ¬ Hindered config u log := fun hhindered => h (.inl (declines_iff.mpr hhindered))
  have hfree : CompilationUnit.importsOther { u with types } config.target = false := by
    refine Bool.eq_false_iff.mpr fun hother => hgo (.inr (.inr (.inl ?_)))
    exact (CompilationUnit.importsOther_iff { u with types } config.target).mp hother
  have hneeds : CompilationUnit.needsImport { u with types } config.target =
    u.needsImport config.target := rfl
  rw [CompilationUnit.addImport_unit, CompilationUnit.takesImport_of_free hfree, hneeds] at hrun
  rw [hrun]
  cases hneeded : u.needsImport config.target with
  | true =>
    refine ⟨rfl, rfl, rfl, fun hhindered => absurd hhindered hgo, fun _ => ?_, fun _ => ?_⟩
    · exact htypes.refine shortening_refines_exactly fun _ _ => trivial
    · refine ⟨_, 1, ?_, candidates_eq config u log, fun _ => ?_, .inr ⟨rfl, hpos, rfl⟩⟩
      · simp [CompilationUnit.withImport, CompilationUnit.length_insertImport]
      · exact CompilationUnit.needsImport_withImport_self _ _
  | false =>
    refine ⟨rfl, rfl, rfl, fun hhindered => absurd hhindered hgo, fun _ => ?_, fun _ => ?_⟩
    · exact htypes.refine shortening_refines_exactly fun _ _ => trivial
    · refine ⟨_, 0, ?_, candidates_eq config u log, fun _ => hneeds.trans hneeded, .inl ⟨rfl, rfl⟩⟩
      simp

theorem run_congr
    (h : ∀ id, (config.changeKey, id) ∈ log'.entries ↔ (config.changeKey, id) ∈ log.entries) :
    run config u log' = { run config u log with log := log' } := by
  simp only [run, ChangeLog.ids_congr h]
  split
  · rfl
  · split
    split <;> rfl

/-- On every unit the pass shortens exactly what it is meant to shorten, or nothing if something
speaks against it. Two logs that agree on the key of the pass lead to the same outcome. -/
theorem run_shortens_exactly (config : Config) (u : CompilationUnit) (log : ChangeLog) :
    ExactOutcome config u log (run config u log) ∧
      ∀ log' : ChangeLog, (∀ id, (config.changeKey, id) ∈ log'.entries ↔
        (config.changeKey, id) ∈ log.entries) →
        run config u log' = { run config u log with log := log' } := by
  refine ⟨?_, fun log' h => run_congr h⟩
  by_cases h : Settled config u log
  · exact exactOutcome_of_settled h
  · exact exactOutcome_of_not_settled h

/-- `com.acme.List.of(com.acme.List.of())`, `acme.of()` and once more `com.acme.List.of()`. The
first three calls have one identity, the last one has another. -/
def sharedIdentity : CompilationUnit where
  types := [.classDecl { id := 0, name := "Main" }
    [field (ofCall 1 (.qualified "com.acme.List") [ofCall 1 (.qualified "com.acme.List") []]),
      field (ofCall 1 (.ofName "acme") []),
      field (ofCall 2 (.qualified "com.acme.List") [])]]
  nextId := 3
where
  field (e : Expr) : Member := .field { type := { name := "Object" }, name := "x" } (some e)
  ofCall (id : NodeId) (receiver : Expr) (args : List Expr) : Expr :=
    .call { id, receiver := some receiver, name := "of", args, method := none, span := {} }

/-- Recordings under another key, repeated recordings and their order do not matter. -/
theorem run_shortens_exactly_on_sharedIdentity :
    ExactOutcome toAcmeList sharedIdentity movedCall (run toAcmeList sharedIdentity movedCall) ∧
    (run toAcmeList sharedIdentity movedCall).result =
        .ok { receiversShortened := 2, importsAdded := 1 } ∧
    run toAcmeList sharedIdentity
        { entries := [("other", 2), (toAcmeList.changeKey, 1), (toAcmeList.changeKey, 1)] } =
      { run toAcmeList sharedIdentity movedCall with
        log := { entries :=
          [("other", 2), (toAcmeList.changeKey, 1), (toAcmeList.changeKey, 1)] } } := by
  obtain ⟨houtcome, hlogs⟩ := run_shortens_exactly toAcmeList sharedIdentity movedCall
  refine ⟨houtcome, by rfl, hlogs _ fun id => ?_⟩
  have hother : toAcmeList.changeKey ≠ "other" := by decide +kernel
  simp [movedCall, ChangeLog.record, hother]

end ReceiverShortening

end FactoryLowering
