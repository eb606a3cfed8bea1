import FactoryLowering.Ascending
import FactoryLowering.CompilationUnit
import FactoryLowering.Error

/-! Passes over one unit: what they tell later passes of the same run, what they did in numbers, and
what comes of them. A pass that fails may leave its unit half done. -/
namespace FactoryLowering

/-- Pairs of a key and a call; the order and the number of recordings do not show. -/
structure ChangeLog where
  entries : List (String × NodeId) := []

namespace ChangeLog

def record (log : ChangeLog) (key : String) (id : NodeId) : ChangeLog :=
  { entries := (key, id) :: log.entries }

def ids (log : ChangeLog) (key : String) : List NodeId :=
  ascending ((log.entries.filter (·.1 == key)).map (·.2))

def contains (log : ChangeLog) (key : String) (id : NodeId) : Bool := log.entries.contains (key, id)

def isEmpty (log : ChangeLog) : Bool := log.entries.isEmpty

@[simp] theorem mem_ids {log : ChangeLog} {key : String} {id : NodeId} :
    id ∈ log.ids key ↔ (key, id) ∈ log.entries := by
  simp [ids]

@[simp] theorem mem_ids_record {log : ChangeLog} {key other : String} {id n : NodeId} :
    n ∈ (log.record key id).ids other ↔ other = key ∧ n = id ∨ n ∈ log.ids other := by
  simp [record]

theorem contains_iff_mem_ids {log : ChangeLog} {key : String} {id : NodeId} :
    log.contains key id = true ↔ id ∈ log.ids key := by
  simp [contains]

end ChangeLog

structure Stats where
  callsChanged : Nat := 0
  callsSkipped : Nat := 0
  helpersAdded : Nat := 0
  helpersReused : Nat := 0
  receiversShortened : Nat := 0
  importsAdded : Nat := 0
  importsRemoved : Nat := 0
  deriving DecidableEq, Repr

namespace Stats

/-- Whether the unit was changed; skipped calls and reused helpers leave no trace in it. -/
def changed (s : Stats) : Bool :=
  s.callsChanged > 0 || s.helpersAdded > 0 || s.receiversShortened > 0 || s.importsAdded > 0 ||
    s.importsRemoved > 0

instance : Add Stats where
  add a b :=
    { callsChanged := a.callsChanged + b.callsChanged
      callsSkipped := a.callsSkipped + b.callsSkipped
      helpersAdded := a.helpersAdded + b.helpersAdded
      helpersReused := a.helpersReused + b.helpersReused
      receiversShortened := a.receiversShortened + b.receiversShortened
      importsAdded := a.importsAdded + b.importsAdded
      importsRemoved := a.importsRemoved + b.importsRemoved }

def text (s : Stats) : String :=
  "rewritten=" ++ toString s.callsChanged ++ " skipped=" ++ toString s.callsSkipped ++
    " synthesized=" ++ toString s.helpersAdded ++ " reused=" ++ toString s.helpersReused ++
    " simplified=" ++ toString s.receiversShortened ++
    " imports=+" ++ toString s.importsAdded ++ "/-" ++ toString s.importsRemoved

end Stats

structure Report where
  passes : List (String × Stats) := []
  deriving DecidableEq, Repr

namespace Report

def changed (r : Report) : Bool := r.passes.any (·.2.changed)

def total (r : Report) : Stats := r.passes.foldl (fun sum pass => sum + pass.2) {}

def statsOf? (r : Report) (name : String) : Option Stats := r.passes.lookup name

end Report

structure PassOutcome where
  unit : CompilationUnit
  log : ChangeLog
  warnings : List Warning := []
  result : Except Error Stats

structure Pass where
  name : String
  run : CompilationUnit → ChangeLog → PassOutcome

end FactoryLowering
