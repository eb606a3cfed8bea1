import FactoryLowering.Proofs.ImportAdditions
import FactoryLowering.Proofs.OwnerChange.Effect

/-! # Running an owner change again

A unit is settled for a pass if the pass finds no call to change. The move settles its unit, since
the target is not the origin and a new receiver holds no call. Shortening binds no call to another
method, so it keeps the unit settled for the move. A second run finds nothing to move and logs
nothing, and so nothing is shortened either. Identities may repeat, and receivers may hold calls.
-/
namespace FactoryLowering

namespace ReceiverShortening

variable {config : Config} {u : CompilationUnit} {log : ChangeLog}

def candidates (config : Config) (u : CompilationUnit) (log : ChangeLog) : Nat :=
  (callsOf (typesVisits u.types)).countP (shortens config.target (log.ids config.changeKey))

/-- The pass declines, or there is no receiver to shorten. -/
def Settled (config : Config) (u : CompilationUnit) (log : ChangeLog) : Prop :=
  declines config u log = true ∨ candidates config u log = 0

theorem walk_of_candidates_eq_zero (h : candidates config u log = 0) :
    (editor config.target (log.ids config.changeKey)).types u.types 0 = (u.types, 0) := by
  refine Editor.edit_of_idle.types [] u.types ?_ 0
  intro c hc count
  have hkept : ¬ shortens config.target (log.ids config.changeKey) c = true :=
    List.countP_eq_zero.mp h c hc
  have hcall := call_eq config.target (log.ids config.changeKey) c count
  rw [shortenAt, if_neg hkept, if_neg hkept] at hcall
  exact hcall

theorem run_of_settled (h : Settled config u log) :
    run config u log = { unit := u, log, result := .ok {} } := by
  cases hgo : declines config u log with
  | true => exact run_of_declines hgo
  | false =>
    have hwalk := walk_of_candidates_eq_zero (h.resolve_left (Bool.eq_false_iff.mp hgo))
    rw [declines] at hgo
    rw [run, if_neg (Bool.eq_false_iff.mp hgo), hwalk]
    rfl

theorem run_of_not_settled (h : ¬ Settled config u log) : ∃ types,
    TypesBecome (shortening config.target (log.ids config.changeKey)) u.types types ∧
    0 < candidates config u log ∧
    run config u log =
      { unit := (CompilationUnit.addImport { u with types } config.target).unit
        log
        result := .ok {
          receiversShortened := candidates config u log
          importsAdded :=
            (CompilationUnit.addImport { u with types } config.target).unit.imports.length -
              u.imports.length } } := by
  rw [Settled, not_or] at h
  obtain ⟨htypes, hcount⟩ := walk_shortening config.target (log.ids config.changeKey) u.types
  have hgo : declines config u log = false := Bool.eq_false_iff.mpr h.1
  have hpos : 0 < candidates config u log := Nat.pos_of_ne_zero h.2
  have hwalk : (editor config.target (log.ids config.changeKey)).types u.types 0 =
      (_, candidates config u log) := Prod.ext rfl hcount
  refine ⟨_, htypes, hpos, ?_⟩
  rw [run_of_not_declines hgo hpos hwalk]
  have hfree : ∀ types, CompilationUnit.importsOther { u with types } config.target = false := by
    simp only [declines, Bool.or_eq_false_iff, CompilationUnit.simpleNameTaken] at hgo
    exact fun _ => hgo.2.1
  rw [CompilationUnit.addImport_warnings_of_free (hfree _)]

theorem run_succeeds (config : Config) (u : CompilationUnit) (log : ChangeLog) :
    ∃ stats, (run config u log).result = .ok stats ∧ (run config u log).warnings = [] := by
  by_cases h : Settled config u log
  · rw [run_of_settled h]
    exact ⟨_, rfl, rfl⟩
  · obtain ⟨_, _, _, hrun⟩ := run_of_not_settled h
    rw [hrun]
    exact ⟨_, rfl, rfl⟩

theorem types_run (h : ¬ Settled config u log) :
    TypesBecome (shortening config.target (log.ids config.changeKey)) u.types
      (run config u log).unit.types := by
  obtain ⟨types, htypes, _, hrun⟩ := run_of_not_settled h
  obtain ⟨imports, hunit⟩ := CompilationUnit.addImport_eq { u with types } config.target
  rw [hrun, hunit]
  exact htypes

/-- A short name spells nothing out, so no receiver that the pass shortens is left. -/
theorem settled_run (config : Config) (u : CompilationUnit) (log : ChangeLog) :
    Settled config (run config u log).unit log := by
  by_cases h : Settled config u log
  · rw [run_of_settled h]
    exact h
  · right
    refine List.countP_eq_zero.mpr fun c hc => Bool.eq_false_iff.mp ?_
    refine not_hit_of_typesBecome ?_ ?_ (types_run h) c hc
    · intro c hs
      rw [shortenAt, hs, if_neg Bool.false_ne_true]
    · intro c hs
      have hname : (shortName config.target c.receiverSpan).spellsOut config.target = false := rfl
      have hshort : shortens config.target (log.ids config.changeKey)
          { c with receiver := some (shortName config.target c.receiverSpan) } = false := by
        rw [shortens, Option.any_some, hname, Bool.and_false]
      rw [shortenAt, if_pos hs]
      refine ⟨hshort, rfl, ?_⟩
      rw [Expr.visitsOption, shortName, Expr.visits]
      rfl

end ReceiverShortening

namespace OwnerChange

variable {change : OwnerChange} {u : CompilationUnit} {log : ChangeLog}

def Settled (change : OwnerChange) (u : CompilationUnit) : Prop :=
  ∀ c ∈ callsOf (typesVisits u.types), change.pattern.isMatch c = false

theorem settled_iff : change.Settled u ↔
    (callsOf (typesVisits u.types)).countP change.pattern.isMatch = 0 := by
  simp [Settled, List.countP_eq_zero]

theorem run_of_settled (h : change.Settled u) (log : ChangeLog) :
    change.run u log = { unit := u, log, result := .ok {} } := by
  have hwalk : change.walk u log = (u.types, { log }) :=
    Editor.edit_of_idle.types [] u.types (fun c hc s => call_of_not_isMatch (h c hc) s) { log }
  rw [run_eq, hwalk, outUnit, settled_iff.mp h]
  simp

theorem isMatch_moved (h : change.target ≠ change.pattern.owner) (c : Call) :
    change.pattern.isMatch (change.moved c) = false := by
  simp [MethodPattern.isMatch, moved, h]

theorem settled_run (change : OwnerChange) (h : change.target ≠ change.pattern.owner)
    (u : CompilationUnit) (log : ChangeLog) : change.Settled (change.run u log).unit := by
  obtain ⟨htypes, _⟩ := change.walk_moving u log
  rw [run_eq, Settled, types_outUnit]
  refine not_hit_of_typesBecome ?_ ?_ htypes
  · intro c hm
    rw [moveAt, hm, if_neg Bool.false_ne_true]
  · intro c hm
    rw [moveAt, if_pos hm]
    refine ⟨isMatch_moved h c, rfl, ?_⟩
    exact Expr.callsOf_of_qualifiedName? (Expr.qualifiedName?_qualifiedAt _ _)

/-- Shortening leaves the methods that calls are bound to, so it brings up no matching call. -/
theorem Settled.shorten (h : change.Settled u) (config : Config) (log : ChangeLog) :
    change.Settled (ReceiverShortening.run config u log).unit := by
  by_cases hs : ReceiverShortening.Settled config u log
  · rw [ReceiverShortening.run_of_settled hs]
    exact h
  · rw [settled_iff] at h ⊢
    rw [← h]
    refine countP_eq_of_forall₂
      (ReceiverShortening.forall₂_shortened (ReceiverShortening.types_run hs)) ?_
    intro c _ new hshortened
    rw [MethodPattern.isMatch, hshortened.method, MethodPattern.isMatch]

end OwnerChange

def Config.chain (config : Config) : Chain where
  passes := [.ownerChange config.change, .receiverShortening config]

namespace Chain

variable {config : Config}

theorem ownerChange_eq (hvalid : config.validate = .ok ()) :
    Chain.ownerChange config = .ok config.chain := by
  rw [Chain.ownerChange, Config.ofConfig_eq hvalid]
  rfl

theorem settled_ownerChange (hvalid : config.validate = .ok ()) (u : CompilationUnit) :
    ∃ report, (config.chain.runUnit u).result = .ok report ∧
      config.change.Settled (config.chain.runUnit u).unit := by
  obtain ⟨_, _, _, hdiffer⟩ := Config.validate_eq_ok_iff.mp hvalid
  have hmoved := config.change.settled_run (Ne.symm hdiffer) u {}
  have hfirst := congrArg PassOutcome.result (OwnerChange.run_eq config.change u {})
  obtain ⟨stats, hsecond, _⟩ := ReceiverShortening.run_succeeds config
    (config.change.run u {}).unit (config.change.run u {}).log
  have hpair :=
    runUnit_pair (.ownerChange config.change) (.receiverShortening config) hfirst hsecond
  have hunit : (config.chain.runUnit u).unit = (ReceiverShortening.run config
    (config.change.run u {}).unit (config.change.run u {}).log).unit := hpair.2
  refine ⟨_, hpair.1, ?_⟩
  rw [hunit]
  exact hmoved.shorten config _

/-- On a unit without matching calls the first pass leaves the log empty, so the second one has
nothing to go by. -/
theorem ownerChange_of_settled {u : CompilationUnit} (h : config.change.Settled u) :
    config.chain.runUnit u =
      { unit := u
        warnings := []
        result := .ok { passes :=
          [("change-method-owner", {}), ("simplify-qualified-owner", {})] } } := by
  have hfirst : (Pass.ownerChange config.change).run u {} =
      { unit := u, log := {}, result := .ok {} } := OwnerChange.run_of_settled h {}
  have hdeclines : ReceiverShortening.declines config u {} = true := rfl
  have hsecond : (Pass.receiverShortening config).run u {} =
      { unit := u, log := {}, result := .ok {} } := ReceiverShortening.run_of_declines hdeclines
  simp only [Config.chain, runUnit, runPasses, hfirst, hsecond]
  rfl

/-- An owner change that is run again succeeds, changes nothing and counts nothing. Already after
the first run no call of the unit matches. -/
theorem ownerChange_is_idempotent (config : Config) (u : CompilationUnit)
    (hvalid : config.validate = .ok ()) :
    ∃ chain report, Chain.ownerChange config = .ok chain ∧
      (chain.runUnit u).result = .ok report ∧
      (∀ c ∈ callsOf (typesVisits (chain.runUnit u).unit.types),
        config.methodPattern.isMatch c = false) ∧
      chain.runUnit (chain.runUnit u).unit =
        { unit := (chain.runUnit u).unit
          warnings := []
          result := .ok { passes :=
            [("change-method-owner", {}), ("simplify-qualified-owner", {})] } } := by
  obtain ⟨report, hresult, hsettled⟩ := settled_ownerChange hvalid u
  exact ⟨_, report, ownerChange_eq hvalid, hresult, hsettled, ownerChange_of_settled hsettled⟩

/-- The call `List.of().of(List.of())`, with one identity for all three calls. -/
def chainedUnit : CompilationUnit where
  imports := [.single "java.util.List"]
  types := [.classDecl { id := 0, name := "Main" }
    [.field { type := { name := "Object" }, name := "x" } (some (.call (ofCall
      (.call (ofCall (.ofName "List") [])) [.call (ofCall (.ofName "List") [])])))]]
  nextId := 2
where
  ofCall (receiver : Expr) (args : List Expr) : Call :=
    { id := 1, receiver := some receiver, name := "of", args
      method := some { owner := .reference "java.util.List" [], name := "of" }, span := {} }

theorem ownerChange_is_idempotent_on_chainedUnit :
    (listsConfig.matching chainedUnit).length = 3 ∧
    ∃ chain report, Chain.ownerChange listsConfig = .ok chain ∧
      (chain.runUnit chainedUnit).result = .ok report ∧
      (∀ c ∈ callsOf (typesVisits (chain.runUnit chainedUnit).unit.types),
        listsConfig.methodPattern.isMatch c = false) ∧
      chain.runUnit (chain.runUnit chainedUnit).unit =
        { unit := (chain.runUnit chainedUnit).unit
          warnings := []
          result := .ok { passes :=
            [("change-method-owner", {}), ("simplify-qualified-owner", {})] } } := by
  have hvalid : listsConfig.validate = .ok () :=
    Config.validate_eq_ok_iff.mpr (by decide +kernel)
  exact ⟨by decide +kernel, ownerChange_is_idempotent listsConfig chainedUnit hvalid⟩

end Chain

end FactoryLowering
