import FactoryLowering.Text.Basic
import FactoryLowering.Tree.Printer

/-! Compilation units: a package, imports, types, and the next free node identity. -/
namespace FactoryLowering

/-- An import; the name of an on-demand import is that of its package, without the star. -/
structure ImportDecl where
  name : String
  isStatic : Bool := false
  isWildcard : Bool := false
  span : Span := {}
  deriving DecidableEq, Repr

namespace ImportDecl

def single (name : String) : ImportDecl := { name }

def isSingle (i : ImportDecl) : Bool := !i.isStatic && !i.isWildcard

/-- Whether the import makes the type `fqn` usable by its simple name. -/
def provides (i : ImportDecl) (fqn : String) : Bool :=
  !i.isStatic && (if i.isWildcard then Text.packageName fqn == i.name else i.name == fqn)

def boundName? (i : ImportDecl) : Option String :=
  if i.isSingle then some (Text.simpleName i.name) else none

def text (i : ImportDecl) : String :=
  (if i.isStatic then "import static " else "import ") ++ i.name ++
    (if i.isWildcard then ".*;" else ";")

end ImportDecl

/-- An empty package name differs from no package only in print. -/
structure CompilationUnit where
  package : Option String := none
  imports : List ImportDecl := []
  types : List TypeDecl := []
  nextId : NodeId := 0
  span : Span := {}

namespace CompilationUnit

def packageName (u : CompilationUnit) : String := u.package.getD ""

/-- Fully qualified name of the type that a path of nested names leads to. -/
def qualify (u : CompilationUnit) (path : List String) : String :=
  path.foldl Text.qualify u.packageName

def importsType (u : CompilationUnit) (fqn : String) : Bool := u.imports.any (·.provides fqn)

/-- Whether a single import of a type other than `fqn` binds the simple name of `fqn`. -/
def importsOther (u : CompilationUnit) (fqn : String) : Bool :=
  u.imports.any fun i => i.boundName? == some (Text.simpleName fqn) && i.name != fqn

/-- Whether a top-level type or a member type, at any depth, has this simple name. -/
def declaresType (u : CompilationUnit) (name : String) : Bool := u.types.any (·.declares name)

def simpleNameTaken (u : CompilationUnit) (fqn : String) : Bool :=
  u.importsOther fqn || u.declaresType (Text.simpleName fqn)

def text (u : CompilationUnit) : String :=
  (match u.package with
    | none => ""
    | some name => "package " ++ name ++ ";\n\n") ++
    u.imports.foldr (fun i rest => i.text ++ "\n" ++ rest) "" ++
    (if u.imports.isEmpty then "" else "\n") ++
    Text.separated "\n" (u.types.map (·.text 0))

end CompilationUnit

end FactoryLowering
