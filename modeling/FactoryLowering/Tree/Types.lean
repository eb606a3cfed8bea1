import FactoryLowering.Text.Basic

/-! What nodes carry: identities, source positions, resolved types, and types as they are
written. -/
namespace FactoryLowering

/-- Identity of a call, a type declaration or an anonymous class body within its unit. All
identities are 32-bit numbers. -/
abbrev NodeId := Nat

namespace NodeId

def last : NodeId := UInt32.size - 1

/-- The identity that is given out after this one. The last one is followed by 0. -/
def next (id : NodeId) : NodeId := (id + 1) % UInt32.size

end NodeId

def idText (id : NodeId) : String := "#" ++ toString id

def fresh : StateM NodeId NodeId := modifyGet fun id => (id, NodeId.next id)

structure Location where
  line : Nat := 0
  column : Nat := 0
  offset : Nat := 0
  deriving DecidableEq, Repr

/-- Where a node stands in the source; nodes made later have the all-zero span. -/
structure Span where
  start : Location := {}
  stop : Location := {}
  deriving DecidableEq, Repr

/-! Resolved types and methods: what names in the tree turned out to mean. -/

inductive JavaType where
  | reference (fqn : String) (params : List JavaType)
  | typeVariable (name : String)
  | unknown

structure MethodType where
  owner : JavaType
  name : String

def JavaType.fqn? : JavaType → Option String
  | .reference fqn _ => some fqn
  | _ => none

def JavaType.isReference (t : JavaType) : Bool := t.fqn?.isSome

mutual
def JavaType.text : JavaType → String
  | .reference fqn params =>
    if params.isEmpty then fqn
    else fqn ++ "<" ++ Text.separated ", " (JavaType.texts params) ++ ">"
  | .typeVariable name => name
  | .unknown => "<unknown>"

def JavaType.texts : List JavaType → List String
  | [] => []
  | t :: ts => t.text :: JavaType.texts ts
end

def MethodType.text (m : MethodType) : String := m.owner.text ++ "#" ++ m.name

/-- Library types known without their source, with their type variables. -/
def knownTypes : List (String × List String) :=
  [("java.util.Collection", ["E"]), ("java.util.List", ["E"]), ("java.util.Set", ["E"]),
    ("java.util.Map", ["K", "V"]), ("java.util.ArrayList", ["E"]), ("java.util.HashSet", ["E"]),
    ("java.util.LinkedHashSet", ["E"]), ("java.util.HashMap", ["K", "V"]),
    ("java.util.Optional", ["T"]), ("java.util.Arrays", []), ("java.util.Collections", []),
    ("java.util.Objects", []), ("java.lang.Integer", []), ("java.lang.Long", []),
    ("java.lang.Math", []), ("java.lang.String", []), ("java.lang.System", [])]

def isKnownType (fqn : String) : Bool := (knownTypes.lookup fqn).isSome

/-- The type a name denotes: generic over its own variables if it is a known generic type. -/
def JavaType.ofName (fqn : String) : JavaType :=
  .reference fqn (((knownTypes.lookup fqn).getD []).map .typeVariable)

/-! Types as they are written, and the modifiers, type parameters and parameters of declarations. -/

inductive Modifier where
  | publicAccess
  | protectedAccess
  | privateAccess
  | abstractMember
  | staticMember
  | finalMember
  | synchronizedMember
  | defaultMember
  deriving DecidableEq, Repr

def Modifier.keyword : Modifier → String
  | .publicAccess => "public"
  | .protectedAccess => "protected"
  | .privateAccess => "private"
  | .abstractMember => "abstract"
  | .staticMember => "static"
  | .finalMember => "final"
  | .synchronizedMember => "synchronized"
  | .defaultMember => "default"

def Modifier.all : List Modifier :=
  [.publicAccess, .protectedAccess, .privateAccess, .abstractMember, .staticMember, .finalMember,
    .synchronizedMember, .defaultMember]

/-- A written type: `Map<String, int[]>[]` has two arguments and one array dimension. -/
structure TypeRef where
  name : String
  args : List TypeRef := []
  dims : Nat := 0
  span : Span := {}

structure TypeParam where
  name : String
  bounds : List TypeRef := []
  span : Span := {}

structure Parameter where
  mods : List Modifier := []
  type : TypeRef
  name : String
  varargs : Bool := false
  span : Span := {}

def brackets : Nat → String
  | 0 => ""
  | n + 1 => "[]" ++ brackets n

mutual
def TypeRef.text : TypeRef → String
  | ⟨name, args, dims, _⟩ =>
    name ++ (if args.isEmpty then "" else "<" ++ Text.separated ", " (TypeRef.texts args) ++ ">")
      ++ brackets dims

def TypeRef.texts : List TypeRef → List String
  | [] => []
  | t :: ts => t.text :: TypeRef.texts ts
end

def modifiersText (mods : List Modifier) : String :=
  mods.foldr (fun m rest => m.keyword ++ " " ++ rest) ""

def TypeParam.text (p : TypeParam) : String :=
  if p.bounds.isEmpty then p.name
  else p.name ++ " extends " ++ Text.separated " & " (p.bounds.map (·.text))

def typeParamsText (params : List TypeParam) : String :=
  if params.isEmpty then "" else "<" ++ Text.separated ", " (params.map (·.text)) ++ ">"

def Parameter.text (p : Parameter) : String :=
  modifiersText p.mods ++ p.type.text ++ (if p.varargs then "..." else "") ++ " " ++ p.name

def parametersText (params : List Parameter) : String :=
  "(" ++ Text.separated ", " (params.map (·.text)) ++ ")"

end FactoryLowering
