import FactoryLowering.Ascending
import FactoryLowering.CompilationUnit
import FactoryLowering.Error
import FactoryLowering.Tree.Visit

/-! Changes to a unit's imports. Requests are collected while a tree is walked and carried out
afterwards: removals first, then additions, each in ascending order of names. An import goes only if
nothing in the unit refers to its type by the simple name. A fully qualified spelling does not
count, because it needs no import. -/
namespace FactoryLowering

/-- Whether a written name is `simple` or goes on from it, as `Map.Entry` does from `Map`. -/
def namesThrough (simple name : String) : Bool :=
  name == simple || (simple.toList ++ ['.']).isPrefixOf name.toList

mutual
def TypeRef.mentions (simple : String) : TypeRef → Bool
  | ⟨name, args, _, _⟩ => namesThrough simple name || TypeRef.anyMentions simple args

def TypeRef.anyMentions (simple : String) : List TypeRef → Bool
  | [] => false
  | t :: ts => t.mentions simple || TypeRef.anyMentions simple ts
end

/-- Whether a name used as an expression stands for the type; a resolved one is taken at its
word. -/
def Identifier.mentions (fqn : String) (i : Identifier) : Bool :=
  match i.type with
  | some (.reference resolved _) => resolved == fqn
  | _ => i.name == Text.simpleName fqn

def Visit.mentions (fqn : String) : Visit → Bool
  | .typeRef type => type.mentions (Text.simpleName fqn)
  | .identifier name => name.mentions fqn
  | _ => false

def CompilationUnit.references (u : CompilationUnit) (fqn : String) : Bool :=
  (typesVisits u.types).any (Visit.mentions fqn)

structure ImportEdits where
  additions : List String := []
  removals : List String := []

structure ImportOutcome where
  unit : CompilationUnit
  added : Nat := 0
  removed : Nat := 0
  warnings : List Warning := []

def ImportOutcome.andThen (first : ImportOutcome) (edit : CompilationUnit → ImportOutcome) :
    ImportOutcome :=
  let second := edit first.unit
  { unit := second.unit
    added := first.added + second.added
    removed := first.removed + second.removed
    warnings := first.warnings ++ second.warnings }

/-- Whether a type must be imported before its simple name can be used. -/
def CompilationUnit.needsImport (u : CompilationUnit) (fqn : String) : Bool :=
  !((Text.packageName fqn).isEmpty || Text.packageName fqn == "java.lang" ||
    Text.packageName fqn == u.packageName || u.importsType fqn)

/-- Drops the single imports of a type that the unit does not refer to. -/
def CompilationUnit.dropUnused (u : CompilationUnit) (fqn : String) : ImportOutcome :=
  if u.references fqn then { unit := u }
  else
    let imports := u.imports.filter fun i => !(i.isSingle && i.name == fqn)
    { unit := { u with imports }, removed := u.imports.length - imports.length }

def CompilationUnit.dropAll (u : CompilationUnit) : List String → ImportOutcome
  | [] => { unit := u }
  | fqn :: rest => (u.dropUnused fqn).andThen fun next => next.dropAll rest

/-- Puts a single import before the first non-static import with a greater name. -/
def insertImport (fqn : String) : List ImportDecl → List ImportDecl
  | [] => [.single fqn]
  | i :: rest =>
    if !i.isStatic && fqn < i.name then .single fqn :: i :: rest else i :: insertImport fqn rest

/-- Imports a type that needs it, unless a single import binds its simple name. -/
def CompilationUnit.addImport (u : CompilationUnit) (fqn : String) : ImportOutcome :=
  if !u.needsImport fqn then { unit := u }
  else if u.imports.any fun i => i.boundName? == some (Text.simpleName fqn) then
    { unit := u, warnings := [.nameAlreadyBound fqn] }
  else { unit := { u with imports := insertImport fqn u.imports }, added := 1 }

def CompilationUnit.addImports (u : CompilationUnit) : List String → ImportOutcome
  | [] => { unit := u }
  | fqn :: rest => (u.addImport fqn).andThen fun next => next.addImports rest

namespace ImportEdits

def isEmpty (edits : ImportEdits) : Bool := edits.additions.isEmpty && edits.removals.isEmpty

def add (edits : ImportEdits) (fqn : String) : ImportEdits :=
  { edits with additions := fqn :: edits.additions }

def apply (edits : ImportEdits) (u : CompilationUnit) : ImportOutcome :=
  (u.dropAll (ascending edits.removals)).andThen (·.addImports (ascending edits.additions))

end ImportEdits

end FactoryLowering
