import FactoryLowering.Error
import FactoryLowering.Text.Characters
import FactoryLowering.Tree.Basic

/-! Patterns such as `java.util.List of(..)`: a method of one type, with any arguments. The settings
of an owner change name such a method: the calls of `method` on `origin` move to `target`. -/
namespace FactoryLowering

structure MethodPattern where
  owner : String
  name : String
  deriving DecidableEq, Repr

namespace MethodPattern

def text (p : MethodPattern) : String := p.owner ++ " " ++ p.name ++ "(..)"

def stripEnding? (ending cs : List Char) : Option (List Char) :=
  if ending.isSuffixOf cs then some (cs.take (cs.length - ending.length)) else none

/-- Reads an owner, a blank and a name with `(..)`; blanks may surround the whole and the name. -/
def read? (cs : List Char) : Option MethodPattern :=
  match (Text.trim cs).span (· ≠ ' ') with
  | (_, []) => none
  | (owner, _ :: signature) =>
    match stripEnding? "(..)".toList (Text.trim signature) with
    | none => none
    | some name =>
      if Text.isDottedName owner && Text.isIdentifier name then
        some { owner := String.ofList owner, name := String.ofList name }
      else none

def parse (pattern : String) : Except Error MethodPattern :=
  match read? pattern.toList with
  | some p => .ok p
  | none => .error (.invalidPattern pattern)

/-- Whether a call is bound to the method; how it is written does not count. -/
def isMatch (p : MethodPattern) (c : Call) : Bool :=
  match c.method with
  | some { owner := .reference fqn _, name } => name == p.name && fqn == p.owner
  | _ => false

end MethodPattern

structure Config where
  origin : String
  method : String
  target : String
  deriving DecidableEq, Repr

namespace Config

/-- The first fault of the settings, if any: origin, target, method, then their difference. -/
def validate (config : Config) : Except Error Unit := do
  unless Text.isQualifiedName config.origin.toList do
    throw (.config (.originNotQualified config.origin))
  unless Text.isQualifiedName config.target.toList do
    throw (.config (.targetNotQualified config.target))
  unless Text.isIdentifier config.method.toList do
    throw (.config (.methodNotIdentifier config.method))
  if config.origin = config.target then
    throw (.config (.sameOwner config.origin))

theorem validate_eq_ok_iff {config : Config} :
    config.validate = .ok () ↔
      Text.isQualifiedName config.origin.toList = true ∧
      Text.isQualifiedName config.target.toList = true ∧
      Text.isIdentifier config.method.toList = true ∧ config.origin ≠ config.target := by
  unfold validate
  by_cases origin : Text.isQualifiedName config.origin.toList = true <;>
    by_cases target : Text.isQualifiedName config.target.toList = true <;>
    by_cases method : Text.isIdentifier config.method.toList = true <;>
    by_cases same : config.origin = config.target <;>
    simp [origin, target, method, same, throw, throwThe, MonadExceptOf.throw, bind, Except.bind,
      pure, Except.pure]

def make (origin method target : String) : Except Error Config := do
  let config : Config := { origin, method, target }
  config.validate
  return config

/-- The value of a setting without blanks around it; a blank one counts as missing. -/
def required {m : Type → Type} [Monad m] (lookup : String → m (Option String)) (setting : String) :
    ExceptT Error m String := do
  let value ← lookup setting
  let text := Text.trim (value.getD "").toList
  if text.isEmpty then throw (.config (.missing setting)) else return String.ofList text

/-- Settings read from named variables; none is looked up after a missing one. -/
def ofLookup {m : Type → Type} [Monad m] (lookup : String → m (Option String)) :
    ExceptT Error m Config := do
  let origin ← required lookup "BACKPORT_ORIGIN"
  let method ← required lookup "BACKPORT_METHOD"
  let target ← required lookup "BACKPORT_TARGET"
  ExceptT.mk (pure (make origin method target))

def changeKey (config : Config) : String := "Method change to " ++ config.target

def pattern (config : Config) : String := config.origin ++ " " ++ config.method ++ "(..)"

end Config

end FactoryLowering
