import FactoryLowering.Text.Basic
import FactoryLowering.Tree.Basic

/-! Java source text. Every member and statement is one entry: an indentation, a core and a line
end. Bodies are indented by four blanks, members have one empty line between them, and branches
of `if`, `while` and `for` always stand in braces. -/
namespace FactoryLowering

def indent : Nat → String
  | 0 => ""
  | n + 1 => "    " ++ indent n

def entry (level : Nat) (core : String) : String := indent level ++ core ++ "\n"

def braced (level : Nat) (entries : String) : String :=
  "\x7b\n" ++ entries ++ indent level ++ "\x7d"

def Literal.text : Literal → String
  | .integer value => toString value
  | .boolean value => if value then "true" else "false"
  | .string value => Text.quotedString value
  | .char value => Text.quotedChar value
  | .null => "null"

def ClassHead.text (head : ClassHead) : String :=
  modifiersText head.mods ++ "class " ++ head.name ++ typeParamsText head.typeParams ++
    (match head.superclass with
      | none => ""
      | some type => " extends " ++ type.text) ++
    (if head.interfaces.isEmpty then ""
      else " implements " ++ Text.separated ", " (head.interfaces.map (·.text)))

def InterfaceHead.text (head : InterfaceHead) : String :=
  modifiersText head.mods ++ "interface " ++ head.name ++ typeParamsText head.typeParams ++
    (if head.superinterfaces.isEmpty then ""
      else " extends " ++ Text.separated ", " (head.superinterfaces.map (·.text)))

def EnumHead.text (head : EnumHead) : String :=
  modifiersText head.mods ++ "enum " ++ head.name ++
    (if head.interfaces.isEmpty then ""
      else " implements " ++ Text.separated ", " (head.interfaces.map (·.text)))

def FieldHead.text (head : FieldHead) : String :=
  modifiersText head.mods ++ head.type.text ++ " " ++ head.name

def MethodHead.text (head : MethodHead) : String :=
  modifiersText head.mods ++
    (if head.typeParams.isEmpty then "" else typeParamsText head.typeParams ++ " ") ++
    (match head.result with
      | none => "void"
      | some type => type.text) ++
    " " ++ head.name ++ parametersText head.params

def ConstructorHead.text (head : ConstructorHead) : String :=
  modifiersText head.mods ++ head.name ++ parametersText head.params

def Stmt.isBlock : Stmt → Bool
  | .block _ => true
  | _ => false

def Stmt.isIfElse : Stmt → Bool
  | .ifElse .. => true
  | _ => false

/-- Enumeration constants, one entry each; a semicolon divides them from members that follow. -/
def constantEntries (level : Nat) (beforeMembers : Bool) : List String → String
  | [] => if beforeMembers then entry level ";" else ""
  | [t] => entry level (t ++ if beforeMembers then ";" else "")
  | t :: ts => entry level (t ++ ",") ++ constantEntries level beforeMembers ts

mutual

def Expr.text (level : Nat) : Expr → String
  | .literal value _ => value.text
  | .ident name => name.name
  | .binary op left right _ => left.text level ++ " " ++ op.symbol ++ " " ++ right.text level
  | .assign target value _ => target.text level ++ " = " ++ value.text level
  | .call ⟨_, receiver, name, args, _, _⟩ =>
    Expr.receiverText level receiver ++ name ++
      "(" ++ Text.separated ", " (Expr.texts level args) ++ ")"
  | .field target name _ => target.text level ++ "." ++ name
  | .cast type operand _ => "(" ++ type.text ++ ") " ++ operand.text level
  | .conditional test yes no _ =>
    test.text level ++ " ? " ++ yes.text level ++ " : " ++ no.text level
  | .new type args _ =>
    "new " ++ type.text ++ "(" ++ Text.separated ", " (Expr.texts level args) ++ ")"
  | .newAnonymous type args _ members _ =>
    "new " ++ type.text ++ "(" ++ Text.separated ", " (Expr.texts level args) ++ ") " ++
      braced level (Text.separated "\n" (Member.entries (level + 1) members))
  | .paren inner => "(" ++ inner.text level ++ ")"

def Expr.receiverText (level : Nat) : Option Expr → String
  | none => ""
  | some e => e.text level ++ "."

def Expr.initText (level : Nat) : Option Expr → String
  | none => ""
  | some e => " = " ++ e.text level

def Expr.resultText (level : Nat) : Option Expr → String
  | none => ""
  | some e => " " ++ e.text level

def Expr.texts (level : Nat) : List Expr → List String
  | [] => []
  | e :: es => e.text level :: Expr.texts level es

def Stmt.core (level : Nat) : Stmt → String
  | .expression value _ => value.text level ++ ";"
  | .variables mods type declared _ =>
    modifiersText mods ++ type.text ++ " " ++
      Text.separated ", " (Declarator.texts level declared) ++ ";"
  | .typeDecl decl => decl.core level
  | .ifElse test yes no _ =>
    "if (" ++ test.text level ++ ") " ++
      (if yes.isBlock then yes.core level
        else braced level (entry (level + 1) (yes.core (level + 1)))) ++
      Stmt.elseText level no
  | .whileLoop test body _ =>
    "while (" ++ test.text level ++ ") " ++
      if body.isBlock then body.core level
      else braced level (entry (level + 1) (body.core (level + 1)))
  | .forEach type name iterable body _ =>
    "for (" ++ type.text ++ " " ++ name ++ " : " ++ iterable.text level ++ ") " ++
      if body.isBlock then body.core level
      else braced level (entry (level + 1) (body.core (level + 1)))
  | .returns value _ => "return" ++ Expr.resultText level value ++ ";"
  | .throws value _ => "throw " ++ value.text level ++ ";"
  | .block body => body.text level
  | .empty => ";"

/-- The other branch; an `if` there continues the chain without braces of its own. -/
def Stmt.elseText (level : Nat) : Option Stmt → String
  | none => ""
  | some s =>
    " else " ++
      if s.isBlock || s.isIfElse then s.core level
      else braced level (entry (level + 1) (s.core (level + 1)))

def Stmt.entries (level : Nat) : List Stmt → String
  | [] => ""
  | s :: ss => entry level (s.core level) ++ Stmt.entries level ss

def Declarator.texts (level : Nat) : List Declarator → List String
  | [] => []
  | ⟨name, init, _⟩ :: ds => (name ++ Expr.initText level init) :: Declarator.texts level ds

def Block.text (level : Nat) : Block → String
  | ⟨stmts, _⟩ => braced level (Stmt.entries (level + 1) stmts)

def Block.bodyText (level : Nat) : Option Block → String
  | none => ";"
  | some b => " " ++ b.text level

def Member.core (level : Nat) : Member → String
  | .field head init => head.text ++ Expr.initText level init ++ ";"
  | .method ⟨head, body⟩ => head.text ++ Block.bodyText level body
  | .constructorDecl head body => head.text ++ " " ++ body.text level
  | .initializer isStatic body _ => (if isStatic then "static " else "") ++ body.text level
  | .typeDecl decl => decl.core level

def Member.entries (level : Nat) : List Member → List String
  | [] => []
  | m :: ms => entry level (m.core level) :: Member.entries level ms

def EnumConstant.texts (level : Nat) : List EnumConstant → List String
  | [] => []
  | ⟨name, args, _⟩ :: cs =>
    (if args.isEmpty then name
      else name ++ "(" ++ Text.separated ", " (Expr.texts level args) ++ ")") ::
      EnumConstant.texts level cs

def TypeDecl.core (level : Nat) : TypeDecl → String
  | .classDecl head members =>
    head.text ++ " " ++ braced level (Text.separated "\n" (Member.entries (level + 1) members))
  | .interfaceDecl head members =>
    head.text ++ " " ++ braced level (Text.separated "\n" (Member.entries (level + 1) members))
  | .enumDecl head constants members =>
    head.text ++ " " ++
      braced level
        (constantEntries (level + 1) (!members.isEmpty)
          (EnumConstant.texts (level + 1) constants) ++
          (if members.isEmpty then "" else "\n") ++
          Text.separated "\n" (Member.entries (level + 1) members))

end

def Member.text (level : Nat) (m : Member) : String := entry level (m.core level)

def TypeDecl.text (level : Nat) (d : TypeDecl) : String := entry level (d.core level)

end FactoryLowering
