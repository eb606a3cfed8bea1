import FactoryLowering.Chain

/-! # Chains as a whole

A run hands a working copy of the unit and a log from pass to pass, for as long as passes succeed.
Only a run that gets through all of its passes gives the working copy back. The first pass that
fails ends the run: its error is the answer, the unit is what it was, and the passes after it do not
matter. In a batch each unit fares as it would alone.

Nothing is assumed of the passes. They may be any functions of the unit and the log.
-/
namespace FactoryLowering.Chain

/-- How far a run has come: the working copy, the log, and what the passes so far reported. -/
structure Progress where
  unit : CompilationUnit
  log : ChangeLog := {}
  warnings : List Warning := []
  passes : List (String × Stats) := []

namespace Progress

def after (s : Progress) (pass : Pass) (stats : Stats) : Progress where
  unit := (pass.run s.unit s.log).unit
  log := (pass.run s.unit s.log).log
  warnings := s.warnings ++ (pass.run s.unit s.log).warnings
  passes := s.passes ++ [(pass.name, stats)]

def resume (s : Progress) (rest : ChainOutcome) : ChainOutcome where
  unit := rest.unit
  warnings := s.warnings ++ rest.warnings
  result := rest.result.map fun report => { passes := s.passes ++ report.passes }

end Progress

/-- Passes that succeed one after the other, each on what the one before it left. -/
inductive Reaches : Progress → List Pass → Progress → Prop
  | nil (s : Progress) : Reaches s [] s
  | cons {s t : Progress} {pass : Pass} {rest : List Pass} {stats : Stats}
      (succeeds : (pass.run s.unit s.log).result = .ok stats)
      (later : Reaches (s.after pass stats) rest t) : Reaches s (pass :: rest) t

variable {s t : Progress} {passes : List Pass} {u : CompilationUnit}

/-- A pass fails after some passes that succeeded. -/
def FailsAfter (s : Progress) (passes : List Pass) (t : Progress) (pass : Pass) (error : Error) :
    Prop :=
  Reaches s passes t ∧ (pass.run t.unit t.log).result = .error error

theorem Reaches.passNames (h : Reaches s passes t) :
    t.passes.map (·.1) = s.passes.map (·.1) ++ passes.map (·.name) := by
  induction h with
  | nil s => simp
  | cons _ _ ih => simpa [Progress.after] using ih

theorem resume_cons {pass : Pass} {stats : Stats} (rest : List Pass)
    (h : (pass.run s.unit s.log).result = .ok stats) :
    s.resume (runPasses (pass :: rest) s.unit s.log) =
      (s.after pass stats).resume
        (runPasses rest (s.after pass stats).unit (s.after pass stats).log) := by
  have hrest : ∀ later : ChainOutcome,
      s.resume
        { unit := later.unit
          warnings := (pass.run s.unit s.log).warnings ++ later.warnings
          result := later.result.map fun report =>
            { passes := (pass.name, stats) :: report.passes } } =
      (s.after pass stats).resume later := by
    rintro ⟨unit, warnings, result⟩
    cases result with
    | error error => simp [Progress.resume, Progress.after, Except.map]
    | ok report => simp [Progress.resume, Progress.after, Except.map]
  rw [← hrest, runPasses, h]
  rfl

theorem Reaches.resume (h : Reaches s passes t) (rest : List Pass) :
    s.resume (runPasses (passes ++ rest) s.unit s.log) =
      t.resume (runPasses rest t.unit t.log) := by
  induction h with
  | nil s => rfl
  | cons succeeds _ ih => rw [List.cons_append, resume_cons _ succeeds, ih]

theorem resume_start (o : ChainOutcome) : ({ unit := u } : Progress).resume o = o := by
  obtain ⟨unit, warnings, result⟩ := o
  cases result <;> simp [Progress.resume, Except.map]

theorem reaches_or_fails (passes : List Pass) (s : Progress) :
    (∃ t, Reaches s passes t) ∨ ∃ before pass later t error,
      passes = before ++ pass :: later ∧ FailsAfter s before t pass error := by
  induction passes generalizing s with
  | nil => exact .inl ⟨s, .nil s⟩
  | cons pass rest ih =>
    cases hresult : (pass.run s.unit s.log).result with
    | error error => exact .inr ⟨[], pass, rest, s, error, rfl, .nil s, hresult⟩
    | ok stats =>
      rcases ih (s.after pass stats) with
        ⟨t, ht⟩ | ⟨before, failing, later, t, error, rfl, ht, hfails⟩
      · exact .inl ⟨t, .cons hresult ht⟩
      · exact .inr ⟨pass :: before, failing, later, t, error, rfl, .cons hresult ht, hfails⟩

theorem runUnit_of_reaches (h : Reaches { unit := u } passes t) :
    (Chain.mk passes).runUnit u =
      { unit := t.unit, warnings := t.warnings, result := .ok { passes := t.passes } } := by
  have hrun : runPasses passes u {} =
      { unit := t.unit, warnings := t.warnings, result := .ok { passes := t.passes } } := by
    have hresume := h.resume []
    rw [List.append_nil, resume_start] at hresume
    rw [hresume]
    simp [runPasses, Progress.resume, Except.map]
  simp only [runUnit, hrun]

theorem runUnit_of_failsAfter {pass : Pass} {error : Error}
    (h : FailsAfter { unit := u } passes t pass error) (later : List Pass) :
    (Chain.mk (passes ++ pass :: later)).runUnit u =
      { unit := u
        warnings := t.warnings ++ (pass.run t.unit t.log).warnings
        result := .error error } := by
  obtain ⟨hreaches, hfails⟩ := h
  have hrun : runPasses (passes ++ pass :: later) u {} =
      { unit := (pass.run t.unit t.log).unit
        warnings := t.warnings ++ (pass.run t.unit t.log).warnings
        result := .error error } := by
    have hresume := hreaches.resume (pass :: later)
    rw [resume_start] at hresume
    rw [hresume]
    simp [runPasses, hfails, Progress.resume, Except.map]
  simp only [runUnit, hrun]

/-- What a batch adds to the warnings of the unit with the given number. -/
def notice (index : Nat) : Except Error Report → List Warning
  | .ok _ => []
  | .error error => [.unitKept index error]

theorem runFrom_eq_mapIdx (chain : Chain) (index : Nat) (us : List CompilationUnit) :
    chain.runFrom index us = us.mapIdx fun i u =>
      { chain.runUnit u with
        warnings :=
          (chain.runUnit u).warnings ++ notice (index + i) (chain.runUnit u).result } := by
  induction us generalizing index with
  | nil => rfl
  | cons u us ih =>
    have hshift : ∀ i, index + 1 + i = index + (i + 1) := fun i => by omega
    rw [runFrom, ih, List.mapIdx_cons]
    simp only [hshift, Nat.add_zero]
    congr 1
    cases hresult : (chain.runUnit u).result with
    | ok report => simp [notice]
    | error error => simp [notice]

/-- A chain threads the unit and the log through its passes, beginning with an empty log. If all
passes succeed, the unit becomes the last working copy and the report lists the passes in order. If
one is the first to fail, its error is all that comes of the run, whatever passes follow it. One of
the two is always the case. Of a batch, each unit fares as in a run on the unit alone. -/
theorem runUnit_is_atomic (chain : Chain) (u : CompilationUnit) (us : List CompilationUnit) :
    (∀ t, Reaches { unit := u } chain.passes t →
      chain.runUnit u =
          { unit := t.unit, warnings := t.warnings, result := .ok { passes := t.passes } } ∧
        t.passes.map (·.1) = chain.passNames) ∧
    (∀ before pass later t error, chain.passes = before ++ pass :: later →
      FailsAfter { unit := u } before t pass error →
      chain.runUnit u =
          { unit := u
            warnings := t.warnings ++ (pass.run t.unit t.log).warnings
            result := .error error } ∧
        ∀ others, (Chain.mk (before ++ pass :: others)).runUnit u = chain.runUnit u) ∧
    ((∃ t, Reaches { unit := u } chain.passes t) ∨ ∃ before pass later t error,
      chain.passes = before ++ pass :: later ∧ FailsAfter { unit := u } before t pass error) ∧
    chain.runUnits us = us.mapIdx fun i u =>
      { chain.runUnit u with
        warnings := (chain.runUnit u).warnings ++ notice i (chain.runUnit u).result } := by
  obtain ⟨passes⟩ := chain
  refine ⟨fun t ht => ⟨runUnit_of_reaches ht, ht.passNames⟩, ?_, reaches_or_fails _ _, ?_⟩
  · rintro before pass later t error rfl hfails
    refine ⟨runUnit_of_failsAfter hfails later, fun others => ?_⟩
    rw [runUnit_of_failsAfter hfails others, runUnit_of_failsAfter hfails later]
  · rw [runUnits, runFrom_eq_mapIdx]
    simp only [Nat.zero_add]

/-- A pass that empties its working copy and then fails. -/
def failing : Pass where
  name := "failing"
  run u log :=
    { unit := { u with imports := [], types := [] }
      log
      result := .error (.internal (.other "boom")) }

def singleCall : CompilationUnit where
  imports := [.single "java.util.List"]
  types := [.classDecl { id := 0, name := "Main" }
    [.field { type := { name := "Object" }, name := "x" } (some (.call
      { id := 1, receiver := some (.ofName "List"), name := "of", args := [.ofInt 1]
        method := some { owner := .reference "java.util.List" [], name := "of" }, span := {} }))]]
  nextId := 2

/-- Alone the first pass changes the unit; with a failing pass after it the unit is kept. -/
theorem runUnit_is_atomic_on_singleCall :
    ∃ t, FailsAfter { unit := singleCall } [.factoryHelpers .list] t failing
        (.internal (.other "boom")) ∧
      t.passes = [("collection-of-backport",
        { callsChanged := 1, helpersAdded := 1, importsAdded := 2 })] ∧
      (Chain.mk [.factoryHelpers .list]).runUnit singleCall =
        { unit := t.unit, warnings := [], result := .ok { passes := t.passes } } ∧
      (Chain.mk [.factoryHelpers .list, failing, .factoryHelpers .set]).runUnit singleCall =
        { unit := singleCall, warnings := [], result := .error (.internal (.other "boom")) } := by
  have hfirst : ((Pass.factoryHelpers .list).run singleCall {}).result =
      .ok { callsChanged := 1, helpersAdded := 1, importsAdded := 2 } := by rfl
  have hreaches : Reaches { unit := singleCall } [.factoryHelpers .list] _ := .cons hfirst (.nil _)
  refine ⟨_, ⟨hreaches, rfl⟩, rfl, ?_, ?_⟩
  · exact ((runUnit_is_atomic ⟨[.factoryHelpers .list]⟩ singleCall []).1 _ hreaches).1
  · exact ((runUnit_is_atomic ⟨[.factoryHelpers .list, failing, .factoryHelpers .set]⟩
      singleCall []).2.1 [.factoryHelpers .list] failing [.factoryHelpers .set] _ _ rfl
      ⟨hreaches, rfl⟩).1

end FactoryLowering.Chain
