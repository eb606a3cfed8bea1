import FactoryLowering.Ascending
import FactoryLowering.Proofs.OwnerChange.Idempotence
import FactoryLowering.Proofs.Tree.Refinement

/-! # What an owner change does, and nothing else

The pass is told from its outcome alone: which calls it rewrites and how, what it counts and what it
logs. The receiver of a call is walked before it is thrown away, so calls in it are counted and
logged although they are gone, and the span that the new receiver takes over is the one it had
before the walk. The log may hold recordings of earlier passes, also under the key of this one.
-/
namespace FactoryLowering

namespace ChangeLog

theorem ids_eq_ascending {log : ChangeLog} {key : String} {ids : List NodeId}
    (h : ∀ id, (key, id) ∈ log.entries ↔ id ∈ ids) : log.ids key = ascending ids :=
  ascending_congr fun id => by simpa using h id

theorem ids_congr {log log' : ChangeLog} {key : String}
    (h : ∀ id, (key, id) ∈ log.entries ↔ (key, id) ∈ log'.entries) : log.ids key = log'.ids key :=
  ids_eq_ascending fun id => by simpa using h id

end ChangeLog

theorem OwnerChange.exists_outUnit_eq (change : OwnerChange) (u : CompilationUnit)
    (types : List TypeDecl) : ∃ imports, change.outUnit u types = { u with types, imports } := by
  unfold outUnit
  split
  · exact ⟨u.imports, rfl⟩
  · exact CompilationUnit.dropUnused_eq { u with types } change.origin

namespace Config

variable {config : Config} {u : CompilationUnit} {log : ChangeLog}

/-- A call bound to the method of the origin is bound to that of the target, for the same type
parameters. Its receiver becomes the chain that spells the target, and the outermost access of the
chain gets the span that the old receiver had. Identity, name, span and arguments are kept. Every
other call is kept as a whole, and so is every type. -/
def retargeting (config : Config) : Rewriting where
  call _ _ old c new :=
    (∃ params outer segment,
      old.method = some { owner := .reference config.origin params, name := config.method } ∧
      Expr.qualified config.target = .field outer segment {} ∧
      new = { c with
        receiver := some (.field outer segment old.receiverSpan)
        method := some
          { owner := .reference config.target params, name := config.method } }) ∨
    (∀ params,
      old.method ≠ some { owner := .reference config.origin params, name := config.method }) ∧
      new = c
  type _ _ _ _ d new := new = d

theorem isMatch_methodPattern_iff {c : Call} : config.methodPattern.isMatch c = true ↔
    ∃ params,
      c.method = some { owner := .reference config.origin params, name := config.method } := by
  constructor
  · intro h
    exact ⟨_, MethodPattern.method_of_isMatch h⟩
  · rintro ⟨params, hmethod⟩
    simp [MethodPattern.isMatch, hmethod, methodPattern]

theorem moving_refines_retargeting (htarget : Text.isQualifiedName config.target.toList = true) :
    config.change.moving.Refines config.retargeting fun _ _ _ => True where
  enterType _ _ _ := fun _ _ => trivial
  enterAnonymous _ _ := trivial
  type _ _ h := h
  call {p q c receiver args new} _ hreceiver _ hcall := by
    obtain rfl : new = config.change.moveAt { c with receiver, args } := hcall
    -- the walk has rewritten the receiver by now, but it still stands where it stood
    have hspan : Call.receiverSpan { c with receiver, args } = c.receiverSpan := by
      rw [Call.receiverSpan, hreceiver.map_span OwnerChange.span_of_moving, Call.receiverSpan]
    have hsame : config.change.pattern.isMatch { c with receiver, args } =
      config.methodPattern.isMatch c := rfl
    by_cases hm : config.methodPattern.isMatch c = true
    · left
      obtain ⟨outer, segment, hchain, hat⟩ := Expr.exists_qualified_eq htarget c.receiverSpan
      refine ⟨c.ownerParams, outer, segment, MethodPattern.method_of_isMatch hm, hchain, ?_⟩
      rw [OwnerChange.moveAt, if_pos (hsame.trans hm), OwnerChange.moved, hspan, ← hat]
      rfl
    · right
      refine ⟨fun params hmethod => hm (isMatch_methodPattern_iff.mpr ⟨params, hmethod⟩), ?_⟩
      exact if_neg hm

/-- The outcome of the pass on a unit and a log. -/
structure ExactOutcome (config : Config) (u : CompilationUnit) (log : ChangeLog)
    (out : PassOutcome) : Prop where
  unit : out.unit = { u with types := out.unit.types, imports := out.unit.imports }
  types : TypesBecome config.retargeting u.types out.unit.types
  /-- The calls are counted as they stand in the unit before, and no other number but that of the
  removed imports moves. -/
  result : ∃ removed, out.result =
    .ok { callsChanged := (config.matching u).length, importsRemoved := removed }
  ids : out.log.ids config.changeKey =
    ascending (log.ids config.changeKey ++ (config.matching u).map (·.id))
  others : ∀ key, key ≠ config.changeKey → out.log.ids key = log.ids key

theorem exactOutcome_run (htarget : Text.isQualifiedName config.target.toList = true) :
    config.ExactOutcome u log (config.change.run u log) := by
  obtain ⟨htypes, _⟩ := config.change.walk_moving u log
  refine ⟨?_, ?_, ?_, ?_, ?_⟩
  · obtain ⟨imports, hunit⟩ := config.change.exists_outUnit_eq u (config.change.walk u log).1
    rw [OwnerChange.run_eq]
    simp only [hunit]
  · rw [OwnerChange.run_eq, OwnerChange.types_outUnit]
    exact htypes.refine (moving_refines_retargeting htarget) fun _ _ => trivial
  · rw [OwnerChange.run_eq, ← length_matching]
    exact ⟨_, rfl⟩
  · refine ChangeLog.ids_eq_ascending fun id => ?_
    rw [mem_log_run config, List.mem_append, ChangeLog.mem_ids]
    simp
  · intro key hkey
    refine ChangeLog.ids_congr fun id => ?_
    rw [mem_log_run config]
    simp [hkey]

end Config

namespace OwnerChange

/-- With valid settings there is a pass, and on every unit and log it rewrites exactly the calls of
the origin's method, counts them, and adds them to what the log holds under the pass's key. -/
theorem run_retargets_exactly (config : Config) (hvalid : config.validate = .ok ()) :
    ∃ change, OwnerChange.ofConfig config = .ok change ∧
      ∀ u log, config.ExactOutcome u log (change.run u log) := by
  obtain ⟨_, htarget, _, _⟩ := Config.validate_eq_ok_iff.mp hvalid
  exact ⟨config.change, Config.ofConfig_eq hvalid, fun u log => Config.exactOutcome_run htarget⟩

/-- Three calls with one identity, one in the receiver and one in the arguments of another, and a
log that names this call and others. -/
theorem run_retargets_chainedUnit_exactly :
    Chain.listsConfig.validate = .ok () ∧
    (Chain.listsConfig.matching Chain.chainedUnit).map (·.id) = [1, 1, 1] ∧
    ∃ change, OwnerChange.ofConfig Chain.listsConfig = .ok change ∧
      Chain.listsConfig.ExactOutcome Chain.chainedUnit
        { entries := [(Chain.listsConfig.changeKey, 7), ("other", 1)] }
        (change.run Chain.chainedUnit
          { entries := [(Chain.listsConfig.changeKey, 7), ("other", 1)] }) := by
  have hvalid : Chain.listsConfig.validate = .ok () :=
    Config.validate_eq_ok_iff.mpr (by decide +kernel)
  obtain ⟨change, hchange, hall⟩ := run_retargets_exactly Chain.listsConfig hvalid
  exact ⟨hvalid, by decide +kernel, change, hchange, hall _ _⟩

end OwnerChange

end FactoryLowering
