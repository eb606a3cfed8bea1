import FactoryLowering.Proofs.Chain
import FactoryLowering.Proofs.FactoryHelpers.Account
import FactoryLowering.Proofs.OwnerChange.Idempotence

/-! # What passes report

None of the passes fails, and what they warn of is known. Their numbers say whether the unit was
changed. Each pass finds nothing to do in a unit that it has been over before, and it counts nothing
exactly if it finds nothing to do. So a pass that counts something cannot have given back the unit
it got, even if what it counted was dropped again with a receiver.
-/
namespace FactoryLowering

/-- No pass comes to an error, whatever the unit and the log are. The helper pass always finds the
scope it leaves and serves all that is asked for. The owner change skips no call. Neither it nor the
shortening of receivers has anything to warn of. -/
theorem passes_run_through (u : CompilationUnit) (log : ChangeLog) :
    (∀ f : Family, FactoryHelpers.RunsThrough f u log) ∧
    (∀ config : Config, config.validate = .ok () → ∃ change stats,
      OwnerChange.ofConfig config = .ok change ∧ (change.run u log).result = .ok stats ∧
        stats.callsSkipped = 0 ∧ (change.run u log).warnings = []) ∧
    ∀ config : Config, ∃ stats, (ReceiverShortening.run config u log).result = .ok stats ∧
      (ReceiverShortening.run config u log).warnings = [] := by
  refine ⟨fun f => FactoryHelpers.runsThrough f u log, fun config hvalid => ?_,
    fun config => ReceiverShortening.run_succeeds config u log⟩
  have hrun := OwnerChange.run_eq config.change u log
  refine ⟨config.change, _, Config.ofConfig_eq hvalid, congrArg PassOutcome.result hrun, rfl, ?_⟩
  rw [hrun]

def oddMap : CompilationUnit where
  types := [.classDecl { id := 0, name := "Main" }
    [.field { type := { name := "Object" }, name := "x" } (some (.call
      { id := 1, receiver := some (.ofName "Map"), name := "of", args := [.ofInt 1]
        method := some { owner := .reference "java.util.Map" [], name := "of" }, span := {} }))]]
  nextId := 2

theorem passes_run_through_on_oddMap :
    FactoryHelpers.refusals .map oddMap.packageName (typesSites oddMap.types) =
        [.callKept 1 (.call (.unpaired "mapOf" 1))] ∧
      FactoryHelpers.RunsThrough .map oddMap {} ∧
      ∃ change stats, OwnerChange.ofConfig Chain.listsConfig = .ok change ∧
        (change.run oddMap {}).result = .ok stats ∧ stats.callsSkipped = 0 ∧
        (change.run oddMap {}).warnings = [] := by
  have hvalid : Chain.listsConfig.validate = .ok () :=
    Config.validate_eq_ok_iff.mpr (by decide +kernel)
  obtain ⟨hhelpers, hchange, _⟩ := passes_run_through oddMap {}
  exact ⟨rfl, hhelpers .map, hchange Chain.listsConfig hvalid⟩

namespace Stats

theorem changed_eq_false_iff {s : Stats} : s.changed = false ↔ s.callsChanged = 0 ∧
    s.helpersAdded = 0 ∧ s.receiversShortened = 0 ∧ s.importsAdded = 0 ∧ s.importsRemoved = 0 := by
  simp [changed, and_assoc]

theorem changed_add (a b : Stats) : (a + b).changed = (a.changed || b.changed) := by
  rw [Bool.eq_iff_iff, ← not_iff_not]
  simp only [Bool.not_eq_true, Bool.or_eq_false_iff, changed_eq_false_iff]
  have hsum : a + b =
    { callsChanged := a.callsChanged + b.callsChanged
      callsSkipped := a.callsSkipped + b.callsSkipped
      helpersAdded := a.helpersAdded + b.helpersAdded
      helpersReused := a.helpersReused + b.helpersReused
      receiversShortened := a.receiversShortened + b.receiversShortened
      importsAdded := a.importsAdded + b.importsAdded
      importsRemoved := a.importsRemoved + b.importsRemoved } := rfl
  rw [hsum]
  simp only
  omega

end Stats

namespace Report

theorem changed_foldl (passes : List (String × Stats)) (sum : Stats) :
    (passes.foldl (fun sum pass => sum + pass.2) sum).changed =
      (sum.changed || passes.any (·.2.changed)) := by
  induction passes generalizing sum with
  | nil => simp
  | cons pass rest ih =>
    rw [List.foldl_cons, ih, Stats.changed_add, List.any_cons, Bool.or_assoc]

theorem changed_total (r : Report) : r.total.changed = r.changed := by
  rw [total, changed_foldl]
  rfl

end Report

theorem OwnerChange.target_ne_owner {config : Config} {change : OwnerChange}
    (h : OwnerChange.ofConfig config = .ok change) : change.target ≠ change.pattern.owner := by
  have hvalid : config.validate = .ok () := by
    cases hresult : config.validate with
    | ok => rfl
    | error error =>
      rw [OwnerChange.ofConfig, hresult] at h
      cases h
  obtain ⟨_, _, _, hdiffer⟩ := Config.validate_eq_ok_iff.mp hvalid
  rw [Config.ofConfig_eq hvalid] at h
  obtain rfl := Except.ok.inj h
  exact Ne.symm hdiffer

namespace Pass

/-- The passes of the library, with settings that are accepted. -/
inductive IsProvided : Pass → Prop
  | factoryHelpers (f : Family) : IsProvided (.factoryHelpers f)
  | ownerChange {config : Config} {change : OwnerChange}
      (accepted : OwnerChange.ofConfig config = .ok change) : IsProvided (.ownerChange change)
  | receiverShortening (config : Config) : IsProvided (.receiverShortening config)

/-- The pass always succeeds, and its numbers say whether it changed the unit. -/
def IsHonest (pass : Pass) : Prop :=
  ∀ u log, ∃ stats, (pass.run u log).result = .ok stats ∧
    (stats.changed = true ↔ (pass.run u log).unit ≠ u)

/-- It is enough to know when a pass has nothing to do: exactly then it counts nothing, then it
keeps the unit, and on what it gives back it would have nothing to do. -/
theorem isHonest_of_settled {pass : Pass} (settled : CompilationUnit → ChangeLog → Prop)
    (counts : ∀ u log, ∃ stats, (pass.run u log).result = .ok stats ∧
      (stats.changed = false ↔ settled u log))
    (keeps : ∀ u log, settled u log → (pass.run u log).unit = u)
    (settles : ∀ u log, settled (pass.run u log).unit log) : pass.IsHonest := by
  intro u log
  obtain ⟨stats, hresult, hcounts⟩ := counts u log
  refine ⟨stats, hresult, ?_⟩
  constructor
  · intro hchanged hsame
    have hsettled := settles u log
    rw [hsame, ← hcounts, hchanged] at hsettled
    cases hsettled
  · intro hdiffers
    by_contra hnot
    exact hdiffers (keeps u log (hcounts.mp (Bool.eq_false_iff.mpr hnot)))

theorem factoryHelpers_isHonest (f : Family) : (Pass.factoryHelpers f).IsHonest := by
  apply isHonest_of_settled fun u _ => FactoryHelpers.Settled f u
  · intro u log
    refine ⟨_, FactoryHelpers.run_result f u log, ?_, ?_⟩
    · intro hunchanged
      have hcount := (FactoryHelpers.walk_account f u).changed
      have hzero : (FactoryHelpers.walk f u).2.stats.callsChanged = 0 :=
        (Stats.changed_eq_false_iff.mp hunchanged).1
      rw [hzero, Nat.zero_add, eq_comm, List.countP_eq_zero] at hcount
      exact fun x hx => Bool.eq_false_iff.mpr (hcount x hx)
    · intro hsettled
      obtain ⟨_, skipped, hresult⟩ := FactoryHelpers.run_of_settled hsettled log
      rw [FactoryHelpers.run_result] at hresult
      rw [Except.ok.inj hresult]
      rfl
  · intro u log hsettled
    exact (FactoryHelpers.run_of_settled hsettled log).1
  · intro u log
    exact FactoryHelpers.settled_run f u log

theorem ownerChange_isHonest {change : OwnerChange} (h : change.target ≠ change.pattern.owner) :
    (Pass.ownerChange change).IsHonest := by
  apply isHonest_of_settled fun u _ => change.Settled u
  · intro u log
    refine ⟨_, congrArg PassOutcome.result (change.run_eq u log), ?_, ?_⟩
    · intro hunchanged
      exact OwnerChange.settled_iff.mpr (Stats.changed_eq_false_iff.mp hunchanged).1
    · intro hsettled
      have hresult := congrArg PassOutcome.result (OwnerChange.run_of_settled hsettled log)
      rw [OwnerChange.run_eq] at hresult
      rw [Except.ok.inj hresult]
      rfl
  · intro u log hsettled
    exact congrArg PassOutcome.unit (OwnerChange.run_of_settled hsettled log)
  · intro u log
    exact change.settled_run h u log

theorem receiverShortening_isHonest (config : Config) :
    (Pass.receiverShortening config).IsHonest := by
  apply isHonest_of_settled (ReceiverShortening.Settled config)
  · intro u log
    by_cases h : ReceiverShortening.Settled config u log
    · refine ⟨_, congrArg PassOutcome.result (ReceiverShortening.run_of_settled h), ?_⟩
      exact ⟨fun _ => h, fun _ => rfl⟩
    · obtain ⟨_, _, hpos, hrun⟩ := ReceiverShortening.run_of_not_settled h
      refine ⟨_, congrArg PassOutcome.result hrun, ?_, fun hsettled => absurd hsettled h⟩
      intro hunchanged
      have hzero := (Stats.changed_eq_false_iff.mp hunchanged).2.2.1
      exact absurd hzero (Nat.ne_of_gt hpos)
  · intro u log hsettled
    exact congrArg PassOutcome.unit (ReceiverShortening.run_of_settled hsettled)
  · intro u log
    exact ReceiverShortening.settled_run config u log

theorem IsProvided.isHonest {pass : Pass} (h : pass.IsProvided) : pass.IsHonest := by
  cases h with
  | factoryHelpers f => exact factoryHelpers_isHonest f
  | ownerChange accepted => exact ownerChange_isHonest (OwnerChange.target_ne_owner accepted)
  | receiverShortening config => exact receiverShortening_isHonest config

end Pass

namespace Chain

variable {passes : List Pass}

theorem reaches_of_isHonest (h : ∀ pass ∈ passes, pass.IsHonest) (s : Progress) :
    ∃ t added, Reaches s passes t ∧ t.passes = s.passes ++ added ∧
      (added.any (·.2.changed) = false → t.unit = s.unit) := by
  induction passes generalizing s with
  | nil => exact ⟨s, [], .nil s, (List.append_nil _).symm, fun _ => rfl⟩
  | cons pass rest ih =>
    obtain ⟨hpass, hrest⟩ := List.forall_mem_cons.mp h
    obtain ⟨stats, hresult, hchanged⟩ := hpass s.unit s.log
    obtain ⟨t, added, hreaches, hadded, hkept⟩ := ih hrest (s.after pass stats)
    refine ⟨t, (pass.name, stats) :: added, .cons hresult hreaches, ?_, ?_⟩
    · rw [hadded, Progress.after, List.append_assoc, List.singleton_append]
    · intro hnone
      rw [List.any_cons, Bool.or_eq_false_iff] at hnone
      rw [hkept hnone.2]
      by_contra hdiffers
      exact Bool.false_ne_true (hnone.1.symm.trans (hchanged.mpr hdiffers))

end Chain

/-- The numbers of each pass say whether it changed the unit. Of a chain, the sums say so as well as
the numbers of the passes. If they say that nothing was changed, then the unit is what it was. -/
theorem reports_tell_changes :
    (∀ pass u log, Pass.IsProvided pass → ∃ stats, (pass.run u log).result = .ok stats ∧
      (stats.changed = true ↔ (pass.run u log).unit ≠ u)) ∧
    ∀ (chain : Chain) u, (∀ pass ∈ chain.passes, Pass.IsProvided pass) →
      ∃ report, (chain.runUnit u).result = .ok report ∧
        report.changed = report.total.changed ∧
        (report.changed = false → (chain.runUnit u).unit = u) := by
  refine ⟨fun pass u log h => h.isHonest u log, ?_⟩
  rintro ⟨passes⟩ u h
  obtain ⟨t, added, hreaches, hadded, hkept⟩ :=
    Chain.reaches_of_isHonest (fun pass hpass => (h pass hpass).isHonest) { unit := u }
  rw [List.nil_append] at hadded
  rw [Chain.runUnit_of_reaches hreaches, hadded]
  exact ⟨_, rfl, (Report.changed_total _).symm, hkept⟩

def idleChain : Chain where
  passes := [.factoryHelpers .map, .receiverShortening Chain.listsConfig]

/-- The outer call of the chained unit is moved, and with its old receiver a call is dropped that
was counted before. Still the unit is changed. A chain that skips the only call there is keeps its
unit. -/
theorem reports_tell_changes_on_chainedUnit :
    (∃ stats, (Chain.listsConfig.change.run Chain.chainedUnit {}).result = .ok stats ∧
      stats.callsChanged = 3 ∧
      (Chain.listsConfig.change.run Chain.chainedUnit {}).unit ≠ Chain.chainedUnit) ∧
    (idleChain.runUnit oddMap).result =
        .ok { passes := [("collection-of-backport", { callsSkipped := 1 }),
          ("simplify-qualified-owner", {})] } ∧
      (idleChain.runUnit oddMap).unit = oddMap := by
  constructor
  · have hvalid : Chain.listsConfig.validate = .ok () :=
      Config.validate_eq_ok_iff.mpr (by decide +kernel)
    have hcount : (Chain.listsConfig.change.run Chain.chainedUnit {}).result =
        .ok { callsChanged := 3, importsRemoved := 1 } := by rfl
    obtain ⟨stats, hresult, hchanged⟩ := reports_tell_changes.1 _ Chain.chainedUnit {}
      (.ownerChange (Config.ofConfig_eq hvalid))
    obtain rfl := Except.ok.inj (hresult.symm.trans hcount)
    exact ⟨_, hresult, rfl, hchanged.mp rfl⟩
  · have hprovided : ∀ pass ∈ idleChain.passes, Pass.IsProvided pass := by
      intro pass hpass
      simp only [idleChain, List.mem_cons, List.not_mem_nil, or_false] at hpass
      rcases hpass with rfl | rfl
      · exact .factoryHelpers .map
      · exact .receiverShortening Chain.listsConfig
    have hrun : (idleChain.runUnit oddMap).result =
        .ok { passes := [("collection-of-backport", { callsSkipped := 1 }),
          ("simplify-qualified-owner", {})] } := by rfl
    obtain ⟨report, hresult, _, hkept⟩ := reports_tell_changes.2 idleChain oddMap hprovided
    obtain rfl := Except.ok.inj (hresult.symm.trans hrun)
    exact ⟨hrun, hkept rfl⟩

end FactoryLowering
