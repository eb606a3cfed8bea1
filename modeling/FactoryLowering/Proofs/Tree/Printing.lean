import FactoryLowering.Tree.Printer

/-! # Printing on a sheet

Text is written piece by piece on a sheet that also keeps a level. A line starts with a margin as
wide as the level says, the opening brace of a body raises the level, and its closing brace lowers
it. What a tree writes on a sheet is its text at the level of the sheet, and the level is the same
afterwards.
-/
namespace FactoryLowering

structure Sheet where
  level : Nat := 0
  text : String := ""

namespace Sheet

def write (s : Sheet) (t : String) : Sheet := { s with text := s.text ++ t }

def raise (s : Sheet) : Sheet := { s with level := s.level + 1 }

/-- The outermost level stays what it is. -/
def lower (s : Sheet) : Sheet := { s with level := s.level - 1 }

def margin (s : Sheet) : Sheet := s.write (indent s.level)

/-- A line, or several if the writer ends lines of its own. -/
def line (s : Sheet) (writer : Sheet → Sheet) : Sheet := (writer s.margin).write "\n"

def braces (s : Sheet) (writer : Sheet → Sheet) : Sheet :=
  (writer (s.write "\x7b\n").raise).lower.margin.write "\x7d"

/-- A branch of a statement: joined to the line, or in braces of its own. -/
def branch (s : Sheet) (joined : Bool) (writer : Sheet → Sheet) : Sheet :=
  if joined then writer s else s.braces (·.line writer)

end Sheet

mutual

def Expr.writeOn : Expr → Sheet → Sheet
  | .literal value _, s => s.write value.text
  | .ident name, s => s.write name.name
  | .binary op left right _, s => right.writeOn ((left.writeOn s).write (" " ++ op.symbol ++ " "))
  | .assign target value _, s => value.writeOn ((target.writeOn s).write " = ")
  | .call ⟨_, receiver, name, args, _, _⟩, s =>
    (Expr.writeArgs args ((Expr.writeReceiver receiver s).write (name ++ "("))).write ")"
  | .field target name _, s => (target.writeOn s).write ("." ++ name)
  | .cast type operand _, s => operand.writeOn (s.write ("(" ++ type.text ++ ") "))
  | .conditional test yes no _, s =>
    no.writeOn ((yes.writeOn ((test.writeOn s).write " ? ")).write " : ")
  | .new type args _, s =>
    (Expr.writeArgs args (s.write ("new " ++ type.text ++ "("))).write ")"
  | .newAnonymous type args _ members _, s =>
    ((Expr.writeArgs args (s.write ("new " ++ type.text ++ "("))).write ") ").braces
      (Member.writeAll members)
  | .paren inner, s => (inner.writeOn (s.write "(")).write ")"

def Expr.writeReceiver : Option Expr → Sheet → Sheet
  | none, s => s
  | some e, s => (e.writeOn s).write "."

def Expr.writeInit : Option Expr → Sheet → Sheet
  | none, s => s
  | some e, s => e.writeOn (s.write " = ")

def Expr.writeResult : Option Expr → Sheet → Sheet
  | none, s => s
  | some e, s => e.writeOn (s.write " ")

def Expr.writeArgs : List Expr → Sheet → Sheet
  | [], s => s
  | [e], s => e.writeOn s
  | e :: es, s => Expr.writeArgs es ((e.writeOn s).write ", ")

def Stmt.writeOn : Stmt → Sheet → Sheet
  | .expression value _, s => (value.writeOn s).write ";"
  | .variables mods type declared _, s =>
    (Declarator.writeAll declared (s.write (modifiersText mods ++ type.text ++ " "))).write ";"
  | .typeDecl decl, s => decl.writeOn s
  | .ifElse test yes no _, s =>
    Stmt.writeElse no
      (((test.writeOn (s.write "if (")).write ") ").branch yes.isBlock yes.writeOn)
  | .whileLoop test body _, s =>
    ((test.writeOn (s.write "while (")).write ") ").branch body.isBlock body.writeOn
  | .forEach type name iterable body _, s =>
    ((iterable.writeOn (s.write ("for (" ++ type.text ++ " " ++ name ++ " : "))).write ") ").branch
      body.isBlock body.writeOn
  | .returns value _, s => (Expr.writeResult value (s.write "return")).write ";"
  | .throws value _, s => (value.writeOn (s.write "throw ")).write ";"
  | .block body, s => body.writeOn s
  | .empty, s => s.write ";"

/-- The other branch; the chain goes on in the same line if it is an `if` again. -/
def Stmt.writeElse : Option Stmt → Sheet → Sheet
  | none, s => s
  | some other, s => (s.write " else ").branch (other.isBlock || other.isIfElse) other.writeOn

def Stmt.writeAll : List Stmt → Sheet → Sheet
  | [], s => s
  | stmt :: stmts, s => Stmt.writeAll stmts (s.line stmt.writeOn)

def Declarator.writeAll : List Declarator → Sheet → Sheet
  | [], s => s
  | [⟨name, init, _⟩], s => Expr.writeInit init (s.write name)
  | ⟨name, init, _⟩ :: ds, s =>
    Declarator.writeAll ds ((Expr.writeInit init (s.write name)).write ", ")

def Block.writeOn : Block → Sheet → Sheet
  | ⟨stmts, _⟩, s => s.braces (Stmt.writeAll stmts)

def Block.writeBody : Option Block → Sheet → Sheet
  | none, s => s.write ";"
  | some b, s => b.writeOn (s.write " ")

def Member.writeOn : Member → Sheet → Sheet
  | .field head init, s => (Expr.writeInit init (s.write head.text)).write ";"
  | .method ⟨head, body⟩, s => Block.writeBody body (s.write head.text)
  | .constructorDecl head body, s => body.writeOn (s.write (head.text ++ " "))
  | .initializer isStatic body _, s => body.writeOn (s.write (if isStatic then "static " else ""))
  | .typeDecl decl, s => decl.writeOn s

def Member.writeAll : List Member → Sheet → Sheet
  | [], s => s
  | [m], s => s.line m.writeOn
  | m :: ms, s => Member.writeAll ms ((s.line m.writeOn).write "\n")

def EnumConstant.writeOn : EnumConstant → Sheet → Sheet
  | ⟨name, args, _⟩, s =>
    if args.isEmpty then s.write name
    else (Expr.writeArgs args (s.write (name ++ "("))).write ")"

def EnumConstant.writeAll (beforeMembers : Bool) : List EnumConstant → Sheet → Sheet
  | [], s => if beforeMembers then s.line (·.write ";") else s
  | [c], s => s.line fun s => (c.writeOn s).write (if beforeMembers then ";" else "")
  | c :: cs, s =>
    EnumConstant.writeAll beforeMembers cs (s.line fun s => (c.writeOn s).write ",")

def TypeDecl.writeOn : TypeDecl → Sheet → Sheet
  | .classDecl head members, s => (s.write (head.text ++ " ")).braces (Member.writeAll members)
  | .interfaceDecl head members, s => (s.write (head.text ++ " ")).braces (Member.writeAll members)
  | .enumDecl head constants members, s =>
    (s.write (head.text ++ " ")).braces fun s =>
      Member.writeAll members
        ((EnumConstant.writeAll (!members.isEmpty) constants s).write
          (if members.isEmpty then "" else "\n"))

end

def Member.printOn (m : Member) (s : Sheet) : Sheet := s.line m.writeOn

/-! ## What is written is the text -/

namespace Sheet

@[simp] theorem level_write (s : Sheet) (t : String) : (s.write t).level = s.level := rfl

@[simp] theorem level_raise (s : Sheet) : s.raise.level = s.level + 1 := rfl

@[simp] theorem level_margin (s : Sheet) : s.margin.level = s.level := rfl

@[simp] theorem write_empty (s : Sheet) : s.write "" = s := by
  simp [write]

@[simp] theorem write_write (s : Sheet) (t u : String) :
    (s.write t).write u = s.write (t ++ u) := by
  simp [write, String.append_assoc]

@[simp] theorem lower_write_raise (s : Sheet) (t : String) :
    (s.raise.write t).lower = s.write t := rfl

theorem line_eq {writer : Sheet → Sheet} {s : Sheet} {core : String}
    (h : writer s.margin = s.margin.write core) : s.line writer = s.write (entry s.level core) := by
  rw [line, h]
  simp [margin, entry, String.append_assoc]

theorem braces_eq {writer : Sheet → Sheet} {s : Sheet} {body : String}
    (h : writer (s.write "\x7b\n").raise = (s.write "\x7b\n").raise.write body) :
    s.braces writer = s.write (braced s.level body) := by
  rw [braces, h]
  simp [margin, braced, String.append_assoc]

theorem branch_eq {writer : Sheet → Sheet} {s : Sheet} {core inner : String} (joined : Bool)
    (hcore : writer s = s.write core)
    (hinner : writer (s.write "\x7b\n").raise.margin =
      (s.write "\x7b\n").raise.margin.write inner) :
    s.branch joined writer =
      s.write (if joined then core else braced s.level (entry (s.level + 1) inner)) := by
  cases joined with
  | true => exact hcore
  | false => exact @braces_eq (·.line writer) s _ (line_eq hinner)

end Sheet

mutual

theorem Expr.writeOn_eq : ∀ (e : Expr) (s : Sheet), e.writeOn s = s.write (e.text s.level)
  | .literal value span, s => by rw [Expr.writeOn, Expr.text]
  | .ident name, s => by rw [Expr.writeOn, Expr.text]
  | .binary op left right span, s => by
    simp [Expr.writeOn, Expr.text, left.writeOn_eq, right.writeOn_eq, String.append_assoc]
  | .assign target value span, s => by
    simp [Expr.writeOn, Expr.text, target.writeOn_eq, value.writeOn_eq]
  | .call ⟨id, receiver, name, args, method, span⟩, s => by
    simp [Expr.writeOn, Expr.text, Expr.writeReceiver_eq receiver, Expr.writeArgs_eq args,
      String.append_assoc]
  | .field target name span, s => by
    simp [Expr.writeOn, Expr.text, target.writeOn_eq, String.append_assoc]
  | .cast type operand span, s => by
    simp [Expr.writeOn, Expr.text, operand.writeOn_eq]
  | .conditional test yes no span, s => by
    simp [Expr.writeOn, Expr.text, test.writeOn_eq, yes.writeOn_eq, no.writeOn_eq]
  | .new type args span, s => by
    simp [Expr.writeOn, Expr.text, Expr.writeArgs_eq args, String.append_assoc]
  | .newAnonymous type args head members span, s => by
    simp [Expr.writeOn, Expr.text, Expr.writeArgs_eq args,
      Sheet.braces_eq (Member.writeAll_eq members _), String.append_assoc]
  | .paren inner, s => by simp [Expr.writeOn, Expr.text, inner.writeOn_eq]

theorem Expr.writeReceiver_eq : ∀ (e : Option Expr) (s : Sheet),
    Expr.writeReceiver e s = s.write (Expr.receiverText s.level e)
  | none, s => by simp [Expr.writeReceiver, Expr.receiverText]
  | some e, s => by simp [Expr.writeReceiver, Expr.receiverText, e.writeOn_eq]

theorem Expr.writeInit_eq : ∀ (e : Option Expr) (s : Sheet),
    Expr.writeInit e s = s.write (Expr.initText s.level e)
  | none, s => by simp [Expr.writeInit, Expr.initText]
  | some e, s => by simp [Expr.writeInit, Expr.initText, e.writeOn_eq]

theorem Expr.writeResult_eq : ∀ (e : Option Expr) (s : Sheet),
    Expr.writeResult e s = s.write (Expr.resultText s.level e)
  | none, s => by simp [Expr.writeResult, Expr.resultText]
  | some e, s => by simp [Expr.writeResult, Expr.resultText, e.writeOn_eq]

theorem Expr.writeArgs_eq : ∀ (es : List Expr) (s : Sheet),
    Expr.writeArgs es s = s.write (Text.separated ", " (Expr.texts s.level es))
  | [], s => by simp [Expr.writeArgs, Expr.texts, Text.separated]
  | [e], s => by simp [Expr.writeArgs, Expr.texts, Text.separated, e.writeOn_eq]
  | e :: e' :: es, s => by
    simp [Expr.writeArgs, Expr.writeArgs_eq (e' :: es), Expr.texts, Text.separated, e.writeOn_eq]

theorem Stmt.writeOn_eq : ∀ (stmt : Stmt) (s : Sheet),
    stmt.writeOn s = s.write (stmt.core s.level)
  | .expression value span, s => by simp [Stmt.writeOn, Stmt.core, value.writeOn_eq]
  | .variables mods type declared span, s => by
    simp [Stmt.writeOn, Stmt.core, Declarator.writeAll_eq declared, String.append_assoc]
  | .typeDecl decl, s => by rw [Stmt.writeOn, Stmt.core, decl.writeOn_eq]
  | .ifElse test yes no span, s => by
    simp [Stmt.writeOn, Stmt.core, test.writeOn_eq, Stmt.writeElse_eq no,
      Sheet.branch_eq _ (yes.writeOn_eq _) (yes.writeOn_eq _), String.append_assoc]
  | .whileLoop test body span, s => by
    simp [Stmt.writeOn, Stmt.core, test.writeOn_eq,
      Sheet.branch_eq _ (body.writeOn_eq _) (body.writeOn_eq _), String.append_assoc]
  | .forEach type name iterable body span, s => by
    simp [Stmt.writeOn, Stmt.core, iterable.writeOn_eq,
      Sheet.branch_eq _ (body.writeOn_eq _) (body.writeOn_eq _), String.append_assoc]
  | .returns value span, s => by
    simp [Stmt.writeOn, Stmt.core, Expr.writeResult_eq value]
  | .throws value span, s => by simp [Stmt.writeOn, Stmt.core, value.writeOn_eq]
  | .block body, s => by rw [Stmt.writeOn, Stmt.core, body.writeOn_eq]
  | .empty, s => by rw [Stmt.writeOn, Stmt.core]

theorem Stmt.writeElse_eq : ∀ (other : Option Stmt) (s : Sheet),
    Stmt.writeElse other s = s.write (Stmt.elseText s.level other)
  | none, s => by simp [Stmt.writeElse, Stmt.elseText]
  | some other, s => by
    simp [Stmt.writeElse, Stmt.elseText,
      Sheet.branch_eq _ (other.writeOn_eq _) (other.writeOn_eq _)]

theorem Stmt.writeAll_eq : ∀ (stmts : List Stmt) (s : Sheet),
    Stmt.writeAll stmts s = s.write (Stmt.entries s.level stmts)
  | [], s => by simp [Stmt.writeAll, Stmt.entries]
  | stmt :: stmts, s => by
    simp [Stmt.writeAll, Stmt.entries, Sheet.line_eq (stmt.writeOn_eq _), Stmt.writeAll_eq stmts]

theorem Declarator.writeAll_eq : ∀ (ds : List Declarator) (s : Sheet),
    Declarator.writeAll ds s = s.write (Text.separated ", " (Declarator.texts s.level ds))
  | [], s => by simp [Declarator.writeAll, Declarator.texts, Text.separated]
  | [⟨name, init, span⟩], s => by
    simp [Declarator.writeAll, Declarator.texts, Text.separated, Expr.writeInit_eq init]
  | ⟨name, init, span⟩ :: ⟨name', init', span'⟩ :: ds, s => by
    simp [Declarator.writeAll, Declarator.writeAll_eq (⟨name', init', span'⟩ :: ds),
      Declarator.texts, Text.separated, Expr.writeInit_eq init, String.append_assoc]

theorem Block.writeOn_eq : ∀ (b : Block) (s : Sheet), b.writeOn s = s.write (b.text s.level)
  | ⟨stmts, span⟩, s => by
    rw [Block.writeOn, Block.text, Sheet.braces_eq (Stmt.writeAll_eq stmts _)]
    rfl

theorem Block.writeBody_eq : ∀ (b : Option Block) (s : Sheet),
    Block.writeBody b s = s.write (Block.bodyText s.level b)
  | none, s => by rw [Block.writeBody, Block.bodyText]
  | some b, s => by simp [Block.writeBody, Block.bodyText, b.writeOn_eq]

theorem Member.writeOn_eq : ∀ (m : Member) (s : Sheet), m.writeOn s = s.write (m.core s.level)
  | .field head init, s => by
    simp [Member.writeOn, Member.core, Expr.writeInit_eq init, String.append_assoc]
  | .method ⟨head, body⟩, s => by simp [Member.writeOn, Member.core, Block.writeBody_eq body]
  | .constructorDecl head body, s => by simp [Member.writeOn, Member.core, body.writeOn_eq]
  | .initializer isStatic body span, s => by simp [Member.writeOn, Member.core, body.writeOn_eq]
  | .typeDecl decl, s => by rw [Member.writeOn, Member.core, decl.writeOn_eq]

theorem Member.writeAll_eq : ∀ (ms : List Member) (s : Sheet),
    Member.writeAll ms s = s.write (Text.separated "\n" (Member.entries s.level ms))
  | [], s => by simp [Member.writeAll, Member.entries, Text.separated]
  | [m], s => by
    simp [Member.writeAll, Member.entries, Text.separated, Sheet.line_eq (m.writeOn_eq _)]
  | m :: m' :: ms, s => by
    simp [Member.writeAll, Member.writeAll_eq (m' :: ms), Member.entries, Text.separated,
      Sheet.line_eq (m.writeOn_eq _)]

theorem EnumConstant.writeOn_eq : ∀ (c : EnumConstant) (s : Sheet), c.writeOn s =
    s.write (if c.args.isEmpty then c.name
      else c.name ++ "(" ++ Text.separated ", " (Expr.texts s.level c.args) ++ ")")
  | ⟨name, args, span⟩, s => by
    cases hempty : args.isEmpty <;>
      simp [EnumConstant.writeOn, Expr.writeArgs_eq args, hempty, String.append_assoc]

theorem EnumConstant.writeAll_eq (beforeMembers : Bool) : ∀ (cs : List EnumConstant) (s : Sheet),
    EnumConstant.writeAll beforeMembers cs s =
      s.write (constantEntries s.level beforeMembers (EnumConstant.texts s.level cs))
  | [], s => by
    cases beforeMembers <;>
      simp [EnumConstant.writeAll, EnumConstant.texts, constantEntries, Sheet.line, Sheet.margin,
        entry]
  | [c], s => by
    obtain ⟨name, args, span⟩ := c
    simp [EnumConstant.writeAll, EnumConstant.texts, constantEntries, Sheet.line, Sheet.margin,
      entry, EnumConstant.writeOn_eq ⟨name, args, span⟩, String.append_assoc]
  | c :: c' :: cs, s => by
    have hrest := EnumConstant.writeAll_eq beforeMembers (c' :: cs)
    obtain ⟨name, args, span⟩ := c
    obtain ⟨name', args', span'⟩ := c'
    simp [EnumConstant.writeAll, hrest, EnumConstant.texts, constantEntries, Sheet.line,
      Sheet.margin, entry, EnumConstant.writeOn_eq ⟨name, args, span⟩, String.append_assoc]

theorem TypeDecl.writeOn_eq : ∀ (d : TypeDecl) (s : Sheet), d.writeOn s = s.write (d.core s.level)
  | .classDecl head members, s => by
    simp [TypeDecl.writeOn, TypeDecl.core, Sheet.braces_eq (Member.writeAll_eq members _),
      String.append_assoc]
  | .interfaceDecl head members, s => by
    simp [TypeDecl.writeOn, TypeDecl.core, Sheet.braces_eq (Member.writeAll_eq members _),
      String.append_assoc]
  | .enumDecl head constants members, s => by
    -- The braces hold constants and members, and `braces_eq` would need both as one text.
    simp [TypeDecl.writeOn, TypeDecl.core, Sheet.braces, Sheet.margin, braced,
      EnumConstant.writeAll_eq _ constants, Member.writeAll_eq members, String.append_assoc,
      -String.reduceAppend]

end

/-- A member prints its text at the level of the sheet and leaves the level as it was. -/
theorem Member.printOn_eq (m : Member) (s : Sheet) :
    m.printOn s = { level := s.level, text := s.text ++ m.text s.level } :=
  Sheet.line_eq (m.writeOn_eq s.margin)

end FactoryLowering
