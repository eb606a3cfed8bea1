import FactoryLowering.Chain
import FactoryLowering.Proofs.ImportEdits
import FactoryLowering.Proofs.OwnerChange.Shortening
import Mathlib.Data.List.Nodup

/-! # What an owner change does to a unit

The two passes of the chain share the log and the unit only. If the identities of calls differ, the
log names exactly the calls that were moved, and all of their receivers are spelled out. So the
second pass either shortens all of them or none.
-/
namespace FactoryLowering

namespace Config

def methodPattern (config : Config) : MethodPattern where
  owner := config.origin
  name := config.method

def change (config : Config) : OwnerChange where
  pattern := config.methodPattern
  origin := config.origin
  target := config.target
  changeKey := config.changeKey

def matching (config : Config) (u : CompilationUnit) : List Call :=
  (callsOf (typesVisits u.types)).filter config.methodPattern.isMatch

theorem parse_pattern {config : Config} (horigin : Text.isDottedName config.origin.toList = true)
    (hmethod : Text.isIdentifier config.method.toList = true) :
    MethodPattern.parse config.pattern = .ok config.methodPattern := by
  have htext : config.pattern = config.methodPattern.text := rfl
  rw [htext]
  exact MethodPattern.parse_text horigin hmethod

theorem ofConfig_eq {config : Config} (h : config.validate = .ok ()) :
    OwnerChange.ofConfig config = .ok config.change := by
  obtain ⟨horigin, _, hmethod, _⟩ := validate_eq_ok_iff.mp h
  have hdotted : Text.isDottedName config.origin.toList = true := by
    simp only [Text.isQualifiedName, Bool.and_eq_true] at horigin
    exact horigin.1
  have hparse := parse_pattern hdotted hmethod
  unfold OwnerChange.ofConfig
  rw [h, hparse]
  rfl

/-- The unit after the first pass: matching calls are moved and spelled out, and then imports of the
origin that nothing refers to are dropped. -/
structure Moved (config : Config) (u u₁ : CompilationUnit) (stats : Stats) : Prop where
  types : TypesBecome config.change.moving u.types u₁.types
  calls : List.Forall₂
    (Retargeted config.methodPattern config.target (Expr.qualifiedAt config.target))
    (callsOf (typesVisits u.types)) (callsOf (typesVisits u₁.types))
  unit : u₁ = if config.matching u = [] then { u with types := u₁.types }
    else (CompilationUnit.dropUnused { u with types := u₁.types } config.origin).unit
  imports : u₁.imports.Sublist u.imports
  stats : stats = {
    callsChanged := (config.matching u).length
    importsRemoved := u.imports.length - u₁.imports.length }

/-- The unit after the second pass, if it may shorten receivers. -/
structure Shortened (config : Config) (u u₁ u₂ : CompilationUnit) (stats : Stats) : Prop where
  types : TypesBecome (ReceiverShortening.shortening config.target
    ((config.matching u).map (·.id))) u₁.types u₂.types
  calls : List.Forall₂
    (Retargeted config.methodPattern config.target (ReceiverShortening.shortName config.target))
    (callsOf (typesVisits u.types)) (callsOf (typesVisits u₂.types))
  unit : u₂ = (CompilationUnit.addImport { u₁ with types := u₂.types } config.target).unit
  sees : u₂.sees config.target
  unbound : u₂.importsOther config.target = false
  stats : stats = {
    receiversShortened := (config.matching u).length
    importsAdded := u₂.imports.length - u₁.imports.length }

end Config

namespace OwnerChange

variable {change : OwnerChange} {u : CompilationUnit} {log : ChangeLog}

def walk (change : OwnerChange) (u : CompilationUnit) (log : ChangeLog) : List TypeDecl × State :=
  change.editor.types u.types { log }

theorem walk_moving (change : OwnerChange) (u : CompilationUnit) (log : ChangeLog) :
    TypesBecome change.moving u.types (change.walk u log).1 ∧
      Moves change (callsOf (typesVisits u.types)) { log } (change.walk u log).2 := by
  obtain ⟨htypes, _, hmoves⟩ :=
    (editor_obeys_moving change).types u.types (fun _ _ => trivial) { log } trivial
  rw [typesPlaces, placeCalls_locate] at hmoves
  exact ⟨htypes, hmoves⟩

/-- The unit after the pass, told by the types that the walk gives. -/
def outUnit (change : OwnerChange) (u : CompilationUnit) (types : List TypeDecl) :
    CompilationUnit :=
  if (callsOf (typesVisits u.types)).countP change.pattern.isMatch = 0 then { u with types }
  else (CompilationUnit.dropUnused { u with types } change.origin).unit

theorem types_outUnit (change : OwnerChange) (u : CompilationUnit) (types : List TypeDecl) :
    (change.outUnit u types).types = types := by
  unfold outUnit
  split
  · rfl
  · obtain ⟨imports, himports⟩ := CompilationUnit.dropUnused_eq { u with types } change.origin
    rw [himports]

theorem imports_outUnit_sublist (change : OwnerChange) (u : CompilationUnit)
    (types : List TypeDecl) : (change.outUnit u types).imports.Sublist u.imports := by
  unfold outUnit
  split
  · exact List.Sublist.refl _
  · exact CompilationUnit.imports_dropUnused_sublist { u with types } change.origin

theorem run_eq (change : OwnerChange) (u : CompilationUnit) (log : ChangeLog) :
    change.run u log =
      { unit := change.outUnit u (change.walk u log).1
        log := (change.walk u log).2.log
        warnings := []
        result := .ok {
          callsChanged := (callsOf (typesVisits u.types)).countP change.pattern.isMatch
          importsRemoved := u.imports.length -
            (change.outUnit u (change.walk u log).1).imports.length } } := by
  obtain ⟨_, hmoves⟩ := change.walk_moving u log
  have hwarnings : (change.walk u log).2.warnings = [] := hmoves.warnings
  have hstats : (change.walk u log).2.stats =
      { callsChanged := (callsOf (typesVisits u.types)).countP change.pattern.isMatch } := by
    rw [hmoves.stats]
    simp
  have hrun : change.run u log =
      if (change.walk u log).2.stats.callsChanged > 0 then
        { unit := (ImportEdits.apply { removals := [change.origin] }
            { u with types := (change.walk u log).1 }).unit
          log := (change.walk u log).2.log
          warnings := (change.walk u log).2.warnings ++ (ImportEdits.apply
            { removals := [change.origin] } { u with types := (change.walk u log).1 }).warnings
          result := .ok { (change.walk u log).2.stats with
            importsRemoved := (ImportEdits.apply { removals := [change.origin] }
              { u with types := (change.walk u log).1 }).removed } }
      else
        { unit := { u with types := (change.walk u log).1 }
          log := (change.walk u log).2.log
          warnings := (change.walk u log).2.warnings
          result := .ok (change.walk u log).2.stats } := rfl
  rw [hrun, hstats, hwarnings, ImportEdits.apply_removal, outUnit]
  by_cases hn : (callsOf (typesVisits u.types)).countP change.pattern.isMatch = 0
  · simp [hn]
  · simp [hn, Nat.pos_of_ne_zero hn]

end OwnerChange

namespace Config

variable {config : Config} {u : CompilationUnit}

/-- No matching call has a call in its receiver. -/
def ReceiversFree (config : Config) (u : CompilationUnit) : Prop :=
  ∀ c ∈ callsOf (typesVisits u.types), config.methodPattern.isMatch c = true →
    callsOf (Expr.visitsOption c.receiver) = []

instance (config : Config) (u : CompilationUnit) : Decidable (config.ReceiversFree u) :=
  decidable_of_iff (∀ c ∈ callsOf (typesVisits u.types), config.methodPattern.isMatch c = true →
    (callsOf (Expr.visitsOption c.receiver)).isEmpty = true) (by simp [ReceiversFree])

theorem length_matching (config : Config) (u : CompilationUnit) :
    (config.matching u).length =
      (callsOf (typesVisits u.types)).countP config.change.pattern.isMatch :=
  List.countP_eq_length_filter.symm

theorem moved_run (config : Config) (hfree : config.ReceiversFree u) :
    ∃ stats, (config.change.run u {}).result = .ok stats ∧
      config.Moved u (config.change.run u {}).unit stats := by
  obtain ⟨htypes, _⟩ := config.change.walk_moving u {}
  rw [OwnerChange.run_eq]
  refine ⟨_, rfl, ⟨?_, ?_, ?_, OwnerChange.imports_outUnit_sublist _ _ _, ?_⟩⟩
  · rw [OwnerChange.types_outUnit]
    exact htypes
  · rw [OwnerChange.types_outUnit]
    exact OwnerChange.forall₂_retargeted htypes hfree
  · rw [OwnerChange.types_outUnit, OwnerChange.outUnit, ← length_matching]
    simp only [List.length_eq_zero_iff]
    rfl
  · rw [length_matching]

theorem mem_log_run (config : Config) {u : CompilationUnit} {log : ChangeLog}
    {entry : String × NodeId} :
    entry ∈ (config.change.run u log).log.entries ↔ entry ∈ log.entries ∨
      entry.1 = config.changeKey ∧ entry.2 ∈ (config.matching u).map (·.id) := by
  obtain ⟨_, hmoves⟩ := config.change.walk_moving u log
  rw [OwnerChange.run_eq, hmoves.log, List.mem_map]
  refine or_congr_right ?_
  constructor
  · rintro ⟨c, hc, hm, rfl⟩
    exact ⟨rfl, c, List.mem_filter.mpr ⟨hc, hm⟩, rfl⟩
  · rintro ⟨hkey, c, hc, hid⟩
    obtain ⟨hmem, hm⟩ := List.mem_filter.mp hc
    exact ⟨c, hmem, hm, Prod.ext hkey hid.symm⟩

theorem mem_ids_run (config : Config) (u : CompilationUnit) (id : NodeId) :
    id ∈ (config.change.run u {}).log.ids config.changeKey ↔
      id ∈ (config.matching u).map (·.id) := by
  rw [ChangeLog.mem_ids, mem_log_run]
  simp

/-- Among the calls after the first pass, those that the second one shortens are the moved ones. -/
theorem shortens_eq {c c₁ : Call} (htarget : Text.isQualifiedName config.target.toList = true)
    (hids : ((callsOf (typesVisits u.types)).map (·.id)).Nodup)
    (hc : c ∈ callsOf (typesVisits u.types))
    (h : Retargeted config.methodPattern config.target (Expr.qualifiedAt config.target) c c₁) :
    ReceiverShortening.shortens config.target ((config.matching u).map (·.id)) c₁ =
      config.methodPattern.isMatch c := by
  rw [ReceiverShortening.shortens, h.id]
  cases hm : config.methodPattern.isMatch c with
  | true =>
    have hmem : c.id ∈ (config.matching u).map (·.id) :=
      List.mem_map_of_mem (List.mem_filter.mpr ⟨hc, hm⟩)
    rw [(h.moved hm).2, Option.any_some, Expr.spellsOut_qualifiedAt htarget]
    simpa using hmem
  | false =>
    have hmem : c.id ∉ (config.matching u).map (·.id) := by
      intro hmem
      obtain ⟨c', hc', heq⟩ := List.mem_map.mp hmem
      obtain ⟨hin, hm'⟩ := List.mem_filter.mp hc'
      rw [List.inj_on_of_nodup_map hids hin hc heq, hm] at hm'
      cases hm'
    rw [Bool.and_eq_false_iff]
    exact .inl (by simpa using hmem)

theorem retargeted_of_shortened {c c₁ c₂ : Call}
    (htarget : Text.isQualifiedName config.target.toList = true)
    (hids : ((callsOf (typesVisits u.types)).map (·.id)).Nodup)
    (hc : c ∈ callsOf (typesVisits u.types))
    (h : Retargeted config.methodPattern config.target (Expr.qualifiedAt config.target) c c₁)
    (k : ReceiverShortening.Shortened config.target ((config.matching u).map (·.id)) c₁ c₂) :
    Retargeted config.methodPattern config.target (ReceiverShortening.shortName config.target)
      c c₂ := by
  have hshortens := shortens_eq htarget hids hc h
  refine ⟨k.id.trans h.id, k.name.trans h.name, k.span.trans h.span, k.arity.trans h.arity,
    fun hm => ⟨?_, ?_⟩, fun hm => ⟨?_, ?_⟩⟩
  · rw [k.method, (h.moved hm).1]
  · rw [k.short (hshortens.trans hm), Call.receiverSpan, (h.moved hm).2]
    simp [Expr.span_qualifiedAt htarget]
  · rw [k.method, (h.kept hm).1]
  · rw [k.kept (hshortens.trans hm), (h.kept hm).2]

theorem shortened_run {u₁ : CompilationUnit} {stats : Stats} {log : ChangeLog}
    (htarget : Text.isQualifiedName config.target.toList = true)
    (hids : ((callsOf (typesVisits u.types)).map (·.id)).Nodup) (hmoved : config.Moved u u₁ stats)
    (hlog : ∀ id, id ∈ log.ids config.changeKey ↔ id ∈ (config.matching u).map (·.id))
    (hsome : config.matching u ≠ [])
    (hgo : ReceiverShortening.declines config u₁ log = false) :
    ∃ stats, (ReceiverShortening.run config u₁ log).result = .ok stats ∧
      config.Shortened u u₁ (ReceiverShortening.run config u₁ log).unit stats := by
  obtain ⟨htypes, hcount⟩ :=
    ReceiverShortening.walk_shortening config.target (log.ids config.changeKey) u₁.types
  rw [ReceiverShortening.shortening_congr hlog] at htypes
  rw [ReceiverShortening.shortens_congr hlog, countP_eq_of_forall₂ hmoved.calls
    fun c hc c₁ h => shortens_eq htarget hids hc h, List.countP_eq_length_filter] at hcount
  generalize hwalk : (ReceiverShortening.editor config.target (log.ids config.changeKey)).types
    u₁.types 0 = walked at htypes hcount
  obtain ⟨types, count⟩ := walked
  replace hcount : count = (config.matching u).length := hcount
  have hpos : 0 < count := by
    rw [hcount]
    exact List.length_pos_iff.mpr hsome
  obtain ⟨imports, hunit⟩ :=
    CompilationUnit.addImport_eq { u₁ with types } config.target
  have hother : CompilationUnit.importsOther { u₁ with types } config.target = false := by
    simp only [ReceiverShortening.declines, Bool.or_eq_false_iff,
      CompilationUnit.simpleNameTaken] at hgo
    exact hgo.2.1
  have hout : (CompilationUnit.addImport { u₁ with types } config.target).unit.types = types := by
    rw [hunit]
  rw [ReceiverShortening.run_of_not_declines hgo hpos hwalk]
  refine ⟨_, rfl, ⟨?_, ?_, ?_, ?_, ?_, ?_⟩⟩
  · rw [hout]
    exact htypes
  · rw [hout]
    exact forall₂_trans_of_mem hmoved.calls (ReceiverShortening.forall₂_shortened htypes)
      fun c hc c₁ c₂ h k => retargeted_of_shortened htarget hids hc h k
  · rw [hout]
  · exact CompilationUnit.sees_addImport (Text.packageName_ne_empty htarget) hother
  · exact CompilationUnit.importsOther_addImport hother
  · rw [hcount]

theorem declines_eq_false_iff {u₁ : CompilationUnit} {log : ChangeLog}
    (hlog : ∀ id, id ∈ log.ids config.changeKey ↔ id ∈ (config.matching u).map (·.id)) :
    ReceiverShortening.declines config u₁ log = false ↔ config.matching u ≠ [] ∧
      u₁.importsType config.origin = false ∧ u₁.simpleNameTaken config.target = false := by
  have hempty : (log.ids config.changeKey).isEmpty = false ↔ config.matching u ≠ [] := by
    rw [List.isEmpty_eq_false_iff_exists_mem]
    simp only [hlog]
    rw [← List.isEmpty_eq_false_iff_exists_mem, List.isEmpty_eq_false_iff, Ne, List.map_eq_nil_iff]
  rw [ReceiverShortening.declines, Bool.or_eq_false_iff, Bool.or_eq_false_iff, hempty, and_assoc]

end Config

namespace Chain

theorem runUnit_pair (first second : Pass) {u : CompilationUnit} {firstStats secondStats : Stats}
    (hfirst : (first.run u {}).result = .ok firstStats)
    (hsecond : (second.run (first.run u {}).unit (first.run u {}).log).result = .ok secondStats) :
    ((Chain.mk [first, second]).runUnit u).result = .ok { passes :=
        [(first.name, firstStats), (second.name, secondStats)] } ∧
      ((Chain.mk [first, second]).runUnit u).unit =
        (second.run (first.run u {}).unit (first.run u {}).log).unit := by
  simp only [runUnit, runPasses, hfirst, hsecond, Except.map, and_self]

/-- The chain of an owner change never fails on a unit and does all or nothing: either all moved
calls end up with the simple name of the target, or all of them with its full name. -/
theorem ownerChange_all_or_nothing (config : Config) (u : CompilationUnit)
    (hvalid : config.validate = .ok ())
    (hids : ((callsOf (typesVisits u.types)).map (·.id)).Nodup)
    (hfree : config.ReceiversFree u) :
    ∃ chain moveStats shortenStats, Chain.ownerChange config = .ok chain ∧
      (chain.runUnit u).result = .ok { passes :=
        [("change-method-owner", moveStats), ("simplify-qualified-owner", shortenStats)] } ∧
      config.Moved u (config.change.run u {}).unit moveStats ∧
      if config.matching u ≠ [] ∧ (config.change.run u {}).unit.importsType config.origin = false ∧
          (config.change.run u {}).unit.simpleNameTaken config.target = false then
        config.Shortened u (config.change.run u {}).unit (chain.runUnit u).unit shortenStats
      else (chain.runUnit u).unit = (config.change.run u {}).unit ∧ shortenStats = {} := by
  obtain ⟨_, htarget, _, _⟩ := Config.validate_eq_ok_iff.mp hvalid
  obtain ⟨moveStats, hfirst, hmoved⟩ := config.moved_run hfree
  have hlog := config.mem_ids_run u
  have hchain : Chain.ownerChange config =
      .ok { passes := [.ownerChange config.change, .receiverShortening config] } := by
    rw [Chain.ownerChange, Config.ofConfig_eq hvalid]
    rfl
  cases hgo : ReceiverShortening.declines config (config.change.run u {}).unit
      (config.change.run u {}).log with
  | false =>
    have hcond := (Config.declines_eq_false_iff hlog).mp hgo
    obtain ⟨shortenStats, hsecond, hshortened⟩ :=
      Config.shortened_run htarget hids hmoved hlog hcond.1 hgo
    have hrun :=
      runUnit_pair (.ownerChange config.change) (.receiverShortening config) hfirst hsecond
    refine ⟨_, moveStats, shortenStats, hchain, hrun.1, hmoved, ?_⟩
    rw [if_pos hcond, hrun.2]
    exact hshortened
  | true =>
    have hcond : ¬ _ := fun h => Bool.false_ne_true
      (((Config.declines_eq_false_iff hlog).mpr h).symm.trans hgo)
    have hdeclined := ReceiverShortening.run_of_declines hgo
    have hunit : (ReceiverShortening.run config (config.change.run u {}).unit
        (config.change.run u {}).log).unit = (config.change.run u {}).unit := by rw [hdeclined]
    have hsecond : (ReceiverShortening.run config (config.change.run u {}).unit
        (config.change.run u {}).log).result = .ok {} := by rw [hdeclined]
    have hrun :=
      runUnit_pair (.ownerChange config.change) (.receiverShortening config) hfirst hsecond
    refine ⟨_, moveStats, {}, hchain, hrun.1, hmoved, ?_⟩
    rw [if_neg hcond, hrun.2]
    exact ⟨hunit, rfl⟩

def listsConfig : Config where
  origin := "java.util.List"
  method := "of"
  target := "com.acme.Lists"

/-- Two calls to be moved, one in an argument of the other, and a call that stays. -/
def listsUnit : CompilationUnit where
  imports := [.single "java.util.List"]
  types := [.classDecl { id := 0, name := "Main" }
    [.field { type := { name := "Object" }, name := "x" } (some (.call (ofCall 1
      [.call { id := 2, receiver := none, name := "size", args := [], method := none, span := {} },
        .call (ofCall 3 [])])))]]
  nextId := 4
where
  ofCall (id : NodeId) (args : List Expr) : Call :=
    { id, receiver := some (.ofName "List"), name := "of", args
      method := some { owner := .reference "java.util.List" [], name := "of" }, span := {} }

theorem ownerChange_all_on_listsUnit :
    (listsConfig.matching listsUnit ≠ [] ∧
      (listsConfig.change.run listsUnit {}).unit.importsType listsConfig.origin = false ∧
      (listsConfig.change.run listsUnit {}).unit.simpleNameTaken listsConfig.target = false) ∧
    ∃ chain moveStats shortenStats, Chain.ownerChange listsConfig = .ok chain ∧
      (chain.runUnit listsUnit).result = .ok { passes :=
        [("change-method-owner", moveStats), ("simplify-qualified-owner", shortenStats)] } ∧
      listsConfig.Moved listsUnit (listsConfig.change.run listsUnit {}).unit moveStats ∧
      listsConfig.Shortened listsUnit (listsConfig.change.run listsUnit {}).unit
        (chain.runUnit listsUnit).unit shortenStats := by
  have hvalid : listsConfig.validate = .ok () :=
    Config.validate_eq_ok_iff.mpr (by decide +kernel)
  have hids : ((callsOf (typesVisits listsUnit.types)).map (·.id)).Nodup := by decide
  have hfree : listsConfig.ReceiversFree listsUnit := by decide
  have hgo : listsConfig.matching listsUnit ≠ [] ∧
      (listsConfig.change.run listsUnit {}).unit.importsType listsConfig.origin = false ∧
      (listsConfig.change.run listsUnit {}).unit.simpleNameTaken listsConfig.target = false := by
    exact ⟨List.ne_nil_of_length_pos (by decide), by decide +kernel, by decide +kernel⟩
  obtain ⟨chain, moveStats, shortenStats, hchain, hresult, hmoved, hsecond⟩ :=
    ownerChange_all_or_nothing listsConfig listsUnit hvalid hids hfree
  rw [if_pos hgo] at hsecond
  exact ⟨hgo, chain, moveStats, shortenStats, hchain, hresult, hmoved, hsecond⟩

end Chain

end FactoryLowering
