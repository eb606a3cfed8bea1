import FactoryLowering.CompilationUnit

/-! # The names in printed text

Printed text, cut into words so that it can be seen which of them are names of types and which are
names used as expressions. Put together again, the words give the text.
-/
namespace FactoryLowering

/-- A piece of printed text. -/
inductive Word where
  | plain (text : String)
  | typeName (name : String)
  | ident (name : Identifier)

namespace Word

def text : Word → String
  | .plain t => t
  | .typeName name => name
  | .ident i => i.name

end Word

def spell (ws : List Word) : String := ws.foldr (fun w rest => w.text ++ rest) ""

def separatedWords (sep : String) : List (List Word) → List Word
  | [] => []
  | [ws] => ws
  | ws :: rest => ws ++ .plain sep :: separatedWords sep rest

def entryWords (level : Nat) (core : List Word) : List Word :=
  .plain (indent level) :: core ++ [.plain "\n"]

def bracedWords (level : Nat) (entries : List Word) : List Word :=
  .plain "\x7b\n" :: entries ++ [.plain (indent level ++ "\x7d")]

def listedWords (keyword : String) (types : List (List Word)) : List Word :=
  if types.isEmpty then [] else .plain keyword :: separatedWords ", " types

mutual
def TypeRef.words : TypeRef → List Word
  | ⟨name, args, dims, _⟩ =>
    .typeName name ::
      (if args.isEmpty then []
        else .plain "<" :: separatedWords ", " (TypeRef.wordsList args) ++ [.plain ">"]) ++
      [.plain (brackets dims)]

def TypeRef.wordsList : List TypeRef → List (List Word)
  | [] => []
  | t :: ts => t.words :: TypeRef.wordsList ts
end

def TypeParam.words (p : TypeParam) : List Word :=
  if p.bounds.isEmpty then [.plain p.name]
  else .plain (p.name ++ " extends ") :: separatedWords " & " (p.bounds.map (·.words))

def typeParamsWords (params : List TypeParam) : List Word :=
  if params.isEmpty then []
  else .plain "<" :: separatedWords ", " (params.map (·.words)) ++ [.plain ">"]

def Parameter.words (p : Parameter) : List Word :=
  .plain (modifiersText p.mods) :: p.type.words ++
    [.plain ((if p.varargs then "..." else "") ++ " " ++ p.name)]

def parametersWords (params : List Parameter) : List Word :=
  .plain "(" :: separatedWords ", " (params.map (·.words)) ++ [.plain ")"]

def ClassHead.words (head : ClassHead) : List Word :=
  .plain (modifiersText head.mods ++ "class " ++ head.name) :: typeParamsWords head.typeParams ++
    (match head.superclass with
      | none => []
      | some type => .plain " extends " :: type.words) ++
    listedWords " implements " (head.interfaces.map (·.words))

def InterfaceHead.words (head : InterfaceHead) : List Word :=
  .plain (modifiersText head.mods ++ "interface " ++ head.name) ::
    typeParamsWords head.typeParams ++
    listedWords " extends " (head.superinterfaces.map (·.words))

def EnumHead.words (head : EnumHead) : List Word :=
  .plain (modifiersText head.mods ++ "enum " ++ head.name) ::
    listedWords " implements " (head.interfaces.map (·.words))

def FieldHead.words (head : FieldHead) : List Word :=
  .plain (modifiersText head.mods) :: head.type.words ++ [.plain (" " ++ head.name)]

def MethodHead.words (head : MethodHead) : List Word :=
  .plain (modifiersText head.mods) ::
    (if head.typeParams.isEmpty then [] else typeParamsWords head.typeParams ++ [.plain " "]) ++
    (match head.result with
      | none => [.plain "void"]
      | some type => type.words) ++
    .plain (" " ++ head.name) :: parametersWords head.params

def ConstructorHead.words (head : ConstructorHead) : List Word :=
  .plain (modifiersText head.mods ++ head.name) :: parametersWords head.params

def constantWords (level : Nat) (beforeMembers : Bool) : List (List Word) → List Word
  | [] => if beforeMembers then entryWords level [.plain ";"] else []
  | [ws] => entryWords level (ws ++ [.plain (if beforeMembers then ";" else "")])
  | ws :: rest => entryWords level (ws ++ [.plain ","]) ++ constantWords level beforeMembers rest

mutual

def Expr.words (level : Nat) : Expr → List Word
  | .literal value _ => [.plain value.text]
  | .ident name => [.ident name]
  | .binary op left right _ =>
    left.words level ++ .plain (" " ++ op.symbol ++ " ") :: right.words level
  | .assign target value _ => target.words level ++ .plain " = " :: value.words level
  | .call ⟨_, receiver, name, args, _, _⟩ =>
    Expr.receiverWords level receiver ++ .plain (name ++ "(") ::
      separatedWords ", " (Expr.wordsList level args) ++ [.plain ")"]
  | .field target name _ => target.words level ++ [.plain ("." ++ name)]
  | .cast type operand _ => .plain "(" :: type.words ++ .plain ") " :: operand.words level
  | .conditional test yes no _ =>
    test.words level ++ .plain " ? " :: yes.words level ++ .plain " : " :: no.words level
  | .new type args _ =>
    .plain "new " :: type.words ++ .plain "(" ::
      separatedWords ", " (Expr.wordsList level args) ++ [.plain ")"]
  | .newAnonymous type args _ members _ =>
    .plain "new " :: type.words ++ .plain "(" ::
      separatedWords ", " (Expr.wordsList level args) ++ .plain ") " ::
      bracedWords level (separatedWords "\n" (Member.entryList (level + 1) members))
  | .paren inner => .plain "(" :: inner.words level ++ [.plain ")"]

def Expr.receiverWords (level : Nat) : Option Expr → List Word
  | none => []
  | some e => e.words level ++ [.plain "."]

def Expr.initWords (level : Nat) : Option Expr → List Word
  | none => []
  | some e => .plain " = " :: e.words level

def Expr.resultWords (level : Nat) : Option Expr → List Word
  | none => []
  | some e => .plain " " :: e.words level

def Expr.wordsList (level : Nat) : List Expr → List (List Word)
  | [] => []
  | e :: es => e.words level :: Expr.wordsList level es

def Stmt.words (level : Nat) : Stmt → List Word
  | .expression value _ => value.words level ++ [.plain ";"]
  | .variables mods type declared _ =>
    .plain (modifiersText mods) :: type.words ++ .plain " " ::
      separatedWords ", " (Declarator.wordsList level declared) ++ [.plain ";"]
  | .typeDecl decl => decl.words level
  | .ifElse test yes no _ =>
    .plain "if (" :: test.words level ++ .plain ") " ::
      (if yes.isBlock then yes.words level
        else bracedWords level (entryWords (level + 1) (yes.words (level + 1)))) ++
      Stmt.elseWords level no
  | .whileLoop test body _ =>
    .plain "while (" :: test.words level ++ .plain ") " ::
      if body.isBlock then body.words level
      else bracedWords level (entryWords (level + 1) (body.words (level + 1)))
  | .forEach type name iterable body _ =>
    .plain "for (" :: type.words ++ .plain (" " ++ name ++ " : ") :: iterable.words level ++
      .plain ") " ::
      if body.isBlock then body.words level
      else bracedWords level (entryWords (level + 1) (body.words (level + 1)))
  | .returns value _ => .plain "return" :: Expr.resultWords level value ++ [.plain ";"]
  | .throws value _ => .plain "throw " :: value.words level ++ [.plain ";"]
  | .block body => body.words level
  | .empty => [.plain ";"]

def Stmt.elseWords (level : Nat) : Option Stmt → List Word
  | none => []
  | some s =>
    .plain " else " ::
      if s.isBlock || s.isIfElse then s.words level
      else bracedWords level (entryWords (level + 1) (s.words (level + 1)))

def Stmt.entryWords (level : Nat) : List Stmt → List Word
  | [] => []
  | s :: ss => FactoryLowering.entryWords level (s.words level) ++ Stmt.entryWords level ss

def Declarator.wordsList (level : Nat) : List Declarator → List (List Word)
  | [] => []
  | ⟨name, init, _⟩ :: ds =>
    (.plain name :: Expr.initWords level init) :: Declarator.wordsList level ds

def Block.words (level : Nat) : Block → List Word
  | ⟨stmts, _⟩ => bracedWords level (Stmt.entryWords (level + 1) stmts)

def Block.bodyWords (level : Nat) : Option Block → List Word
  | none => [.plain ";"]
  | some b => .plain " " :: b.words level

def Member.words (level : Nat) : Member → List Word
  | .field head init => head.words ++ Expr.initWords level init ++ [.plain ";"]
  | .method ⟨head, body⟩ => head.words ++ Block.bodyWords level body
  | .constructorDecl head body => head.words ++ .plain " " :: body.words level
  | .initializer isStatic body _ =>
    .plain (if isStatic then "static " else "") :: body.words level
  | .typeDecl decl => decl.words level

def Member.entryList (level : Nat) : List Member → List (List Word)
  | [] => []
  | m :: ms => entryWords level (m.words level) :: Member.entryList level ms

def EnumConstant.wordsList (level : Nat) : List EnumConstant → List (List Word)
  | [] => []
  | ⟨name, args, _⟩ :: cs =>
    (if args.isEmpty then [.plain name]
      else .plain (name ++ "(") :: separatedWords ", " (Expr.wordsList level args) ++
        [.plain ")"]) ::
      EnumConstant.wordsList level cs

def TypeDecl.words (level : Nat) : TypeDecl → List Word
  | .classDecl head members =>
    head.words ++ .plain " " ::
      bracedWords level (separatedWords "\n" (Member.entryList (level + 1) members))
  | .interfaceDecl head members =>
    head.words ++ .plain " " ::
      bracedWords level (separatedWords "\n" (Member.entryList (level + 1) members))
  | .enumDecl head constants members =>
    head.words ++ .plain " " ::
      bracedWords level
        (constantWords (level + 1) (!members.isEmpty)
            (EnumConstant.wordsList (level + 1) constants) ++
          .plain (if members.isEmpty then "" else "\n") ::
          separatedWords "\n" (Member.entryList (level + 1) members))

end

/-- The words of a unit; package and imports are written by other means than types. -/
def CompilationUnit.words (u : CompilationUnit) : List Word :=
  .plain (match u.package with
    | none => ""
    | some name => "package " ++ name ++ ";\n\n") ::
    .plain (u.imports.foldr (fun i rest => i.text ++ "\n" ++ rest) "") ::
    .plain (if u.imports.isEmpty then "" else "\n") ::
    separatedWords "\n" (u.types.map fun d => entryWords 0 (d.words 0))

/-! ## The words give the text -/

theorem separatedWords_cons_cons (sep : String) (ws vs : List Word) (rest : List (List Word)) :
    separatedWords sep (ws :: vs :: rest) =
      ws ++ .plain sep :: separatedWords sep (vs :: rest) := rfl

theorem constantWords_cons_cons (level : Nat) (beforeMembers : Bool) (ws vs : List Word)
    (rest : List (List Word)) :
    constantWords level beforeMembers (ws :: vs :: rest) =
      entryWords level (ws ++ [.plain ","]) ++ constantWords level beforeMembers (vs :: rest) := rfl

@[simp] theorem spell_nil : spell [] = "" := rfl

@[simp] theorem spell_cons (w : Word) (ws : List Word) : spell (w :: ws) = w.text ++ spell ws := rfl

@[simp] theorem spell_append (ws vs : List Word) : spell (ws ++ vs) = spell ws ++ spell vs := by
  induction ws with
  | nil => simp
  | cons w ws ih => simp [ih, String.append_assoc]

@[simp] theorem spell_ite (c : Prop) [Decidable c] (ws vs : List Word) :
    spell (if c then ws else vs) = if c then spell ws else spell vs :=
  apply_ite spell c ws vs

@[simp] theorem spell_separatedWords (sep : String) (wss : List (List Word)) :
    spell (separatedWords sep wss) = Text.separated sep (wss.map spell) := by
  induction wss with
  | nil => rfl
  | cons ws rest ih =>
    cases rest with
    | nil => rfl
    | cons vs rest =>
      rw [separatedWords_cons_cons, spell_append, spell_cons, ih]
      simp [Text.separated, Word.text, String.append_assoc]

@[simp] theorem spell_entryWords (level : Nat) (core : List Word) :
    spell (entryWords level core) = entry level (spell core) := by
  simp [entryWords, entry, Word.text, String.append_assoc]

@[simp] theorem spell_bracedWords (level : Nat) (entries : List Word) :
    spell (bracedWords level entries) = braced level (spell entries) := by
  simp [bracedWords, braced, Word.text, String.append_assoc]

theorem spell_listedWords (keyword : String) (types : List (List Word)) :
    spell (listedWords keyword types) =
      if types.isEmpty then "" else keyword ++ Text.separated ", " (types.map spell) := by
  simp [listedWords, Word.text]

mutual

theorem TypeRef.spell_words : ∀ t : TypeRef, spell t.words = t.text
  | ⟨name, args, dims, span⟩ => by
    simp [TypeRef.words, TypeRef.text, TypeRef.spell_wordsList args, Word.text,
      String.append_assoc]

theorem TypeRef.spell_wordsList : ∀ ts : List TypeRef,
    (TypeRef.wordsList ts).map spell = TypeRef.texts ts
  | [] => rfl
  | t :: ts => by
    rw [TypeRef.wordsList, TypeRef.texts, List.map_cons, t.spell_words,
      TypeRef.spell_wordsList ts]

end

theorem TypeParam.spell_words (p : TypeParam) : spell p.words = p.text := by
  simp [TypeParam.words, TypeParam.text, Word.text, Function.comp_def, TypeRef.spell_words]

theorem spell_typeParamsWords (params : List TypeParam) :
    spell (typeParamsWords params) = typeParamsText params := by
  simp [typeParamsWords, typeParamsText, Word.text, Function.comp_def, TypeParam.spell_words,
    String.append_assoc]

theorem Parameter.spell_words (p : Parameter) : spell p.words = p.text := by
  simp [Parameter.words, Parameter.text, Word.text, TypeRef.spell_words, String.append_assoc]

theorem spell_parametersWords (params : List Parameter) :
    spell (parametersWords params) = parametersText params := by
  simp [parametersWords, parametersText, Word.text, Function.comp_def, Parameter.spell_words,
    String.append_assoc]

theorem ClassHead.spell_words (head : ClassHead) : spell head.words = head.text := by
  cases hsuper : head.superclass <;>
    simp [ClassHead.words, ClassHead.text, hsuper, Word.text, Function.comp_def,
      spell_typeParamsWords, spell_listedWords, TypeRef.spell_words, String.append_assoc]

theorem InterfaceHead.spell_words (head : InterfaceHead) : spell head.words = head.text := by
  simp [InterfaceHead.words, InterfaceHead.text, Word.text, Function.comp_def,
    spell_typeParamsWords, spell_listedWords, TypeRef.spell_words, String.append_assoc]

theorem EnumHead.spell_words (head : EnumHead) : spell head.words = head.text := by
  simp [EnumHead.words, EnumHead.text, Word.text, Function.comp_def, spell_listedWords,
    TypeRef.spell_words, String.append_assoc]

theorem FieldHead.spell_words (head : FieldHead) : spell head.words = head.text := by
  simp [FieldHead.words, FieldHead.text, Word.text, TypeRef.spell_words, String.append_assoc]

theorem MethodHead.spell_words (head : MethodHead) : spell head.words = head.text := by
  cases hresult : head.result <;>
    simp [MethodHead.words, MethodHead.text, hresult, Word.text, spell_typeParamsWords,
      spell_parametersWords, TypeRef.spell_words, String.append_assoc, -String.reduceAppend]

theorem ConstructorHead.spell_words (head : ConstructorHead) : spell head.words = head.text := by
  simp [ConstructorHead.words, ConstructorHead.text, Word.text, spell_parametersWords,
    String.append_assoc]

theorem spell_constantWords (level : Nat) (beforeMembers : Bool) (wss : List (List Word)) :
    spell (constantWords level beforeMembers wss) =
      constantEntries level beforeMembers (wss.map spell) := by
  induction wss with
  | nil => simp [constantWords, constantEntries, Word.text]
  | cons ws rest ih =>
    cases rest with
    | nil => simp [constantWords, constantEntries, Word.text]
    | cons vs rest =>
      rw [constantWords_cons_cons, spell_append, ih]
      simp [constantEntries, Word.text]

mutual

theorem Expr.spell_words (level : Nat) : ∀ e : Expr, spell (e.words level) = e.text level
  | .literal value span => by simp [Expr.words, Expr.text, Word.text]
  | .ident name => by simp [Expr.words, Expr.text, Word.text]
  | .binary op left right span => by
    simp [Expr.words, Expr.text, left.spell_words level, right.spell_words level, Word.text,
      String.append_assoc]
  | .assign target value span => by
    simp [Expr.words, Expr.text, target.spell_words level, value.spell_words level, Word.text,
      String.append_assoc]
  | .call ⟨id, receiver, name, args, method, span⟩ => by
    simp [Expr.words, Expr.text, Expr.spell_receiverWords level receiver,
      Expr.spell_wordsList level args, Word.text, String.append_assoc]
  | .field target name span => by
    simp [Expr.words, Expr.text, target.spell_words level, Word.text, String.append_assoc]
  | .cast type operand span => by
    simp [Expr.words, Expr.text, type.spell_words, operand.spell_words level, Word.text,
      String.append_assoc]
  | .conditional test yes no span => by
    simp [Expr.words, Expr.text, test.spell_words level, yes.spell_words level,
      no.spell_words level, Word.text, String.append_assoc]
  | .new type args span => by
    simp [Expr.words, Expr.text, type.spell_words, Expr.spell_wordsList level args, Word.text,
      String.append_assoc]
  | .newAnonymous type args head members span => by
    simp [Expr.words, Expr.text, type.spell_words, Expr.spell_wordsList level args,
      Member.spell_entryList (level + 1) members, Word.text, String.append_assoc]
  | .paren inner => by
    simp [Expr.words, Expr.text, inner.spell_words level, Word.text, String.append_assoc]

theorem Expr.spell_receiverWords (level : Nat) : ∀ e : Option Expr,
    spell (Expr.receiverWords level e) = Expr.receiverText level e
  | none => by rw [Expr.receiverWords, Expr.receiverText, spell_nil]
  | some e => by simp [Expr.receiverWords, Expr.receiverText, e.spell_words level, Word.text]

theorem Expr.spell_initWords (level : Nat) : ∀ e : Option Expr,
    spell (Expr.initWords level e) = Expr.initText level e
  | none => by rw [Expr.initWords, Expr.initText, spell_nil]
  | some e => by simp [Expr.initWords, Expr.initText, e.spell_words level, Word.text]

theorem Expr.spell_resultWords (level : Nat) : ∀ e : Option Expr,
    spell (Expr.resultWords level e) = Expr.resultText level e
  | none => by rw [Expr.resultWords, Expr.resultText, spell_nil]
  | some e => by simp [Expr.resultWords, Expr.resultText, e.spell_words level, Word.text]

theorem Expr.spell_wordsList (level : Nat) : ∀ es : List Expr,
    (Expr.wordsList level es).map spell = Expr.texts level es
  | [] => by rw [Expr.wordsList, Expr.texts, List.map_nil]
  | e :: es => by
    rw [Expr.wordsList, Expr.texts, List.map_cons, e.spell_words level,
      Expr.spell_wordsList level es]

theorem Stmt.spell_words (level : Nat) : ∀ s : Stmt, spell (s.words level) = s.core level
  | .expression value span => by
    simp [Stmt.words, Stmt.core, value.spell_words level, Word.text]
  | .variables mods type declared span => by
    simp [Stmt.words, Stmt.core, type.spell_words, Declarator.spell_wordsList level declared,
      Word.text, String.append_assoc]
  | .typeDecl decl => by rw [Stmt.words, Stmt.core, decl.spell_words level]
  | .ifElse test yes no span => by
    simp [Stmt.words, Stmt.core, test.spell_words level, yes.spell_words level,
      yes.spell_words (level + 1), Stmt.spell_elseWords level no, Word.text, String.append_assoc]
  | .whileLoop test body span => by
    simp [Stmt.words, Stmt.core, test.spell_words level, body.spell_words level,
      body.spell_words (level + 1), Word.text, String.append_assoc]
  | .forEach type name iterable body span => by
    simp [Stmt.words, Stmt.core, type.spell_words, iterable.spell_words level,
      body.spell_words level, body.spell_words (level + 1), Word.text, String.append_assoc]
  | .returns value span => by
    simp [Stmt.words, Stmt.core, Expr.spell_resultWords level value, Word.text,
      String.append_assoc]
  | .throws value span => by
    simp [Stmt.words, Stmt.core, value.spell_words level, Word.text, String.append_assoc]
  | .block body => by rw [Stmt.words, Stmt.core, body.spell_words level]
  | .empty => by simp [Stmt.words, Stmt.core, Word.text]

theorem Stmt.spell_elseWords (level : Nat) : ∀ s : Option Stmt,
    spell (Stmt.elseWords level s) = Stmt.elseText level s
  | none => by rw [Stmt.elseWords, Stmt.elseText, spell_nil]
  | some s => by
    simp [Stmt.elseWords, Stmt.elseText, s.spell_words level, s.spell_words (level + 1),
      Word.text]

theorem Stmt.spell_entryWords (level : Nat) : ∀ ss : List Stmt,
    spell (Stmt.entryWords level ss) = Stmt.entries level ss
  | [] => by rw [Stmt.entryWords, Stmt.entries, spell_nil]
  | s :: ss => by
    rw [Stmt.entryWords, Stmt.entries, spell_append, FactoryLowering.spell_entryWords,
      s.spell_words level, Stmt.spell_entryWords level ss]

theorem Declarator.spell_wordsList (level : Nat) : ∀ ds : List Declarator,
    (Declarator.wordsList level ds).map spell = Declarator.texts level ds
  | [] => by rw [Declarator.wordsList, Declarator.texts, List.map_nil]
  | ⟨name, init, span⟩ :: ds => by
    simp [Declarator.wordsList, Declarator.texts, Expr.spell_initWords level init,
      Declarator.spell_wordsList level ds, Word.text]

theorem Block.spell_words (level : Nat) : ∀ b : Block, spell (b.words level) = b.text level
  | ⟨stmts, span⟩ => by
    rw [Block.words, Block.text, spell_bracedWords, Stmt.spell_entryWords (level + 1) stmts]

theorem Block.spell_bodyWords (level : Nat) : ∀ b : Option Block,
    spell (Block.bodyWords level b) = Block.bodyText level b
  | none => by simp [Block.bodyWords, Block.bodyText, Word.text]
  | some b => by simp [Block.bodyWords, Block.bodyText, b.spell_words level, Word.text]

theorem Member.spell_words (level : Nat) : ∀ m : Member, spell (m.words level) = m.core level
  | .field head init => by
    simp [Member.words, Member.core, head.spell_words, Expr.spell_initWords level init, Word.text,
      String.append_assoc]
  | .method ⟨head, body⟩ => by
    rw [Member.words, Member.core, spell_append, head.spell_words,
      Block.spell_bodyWords level body]
  | .constructorDecl head body => by
    simp [Member.words, Member.core, head.spell_words, body.spell_words level, Word.text,
      String.append_assoc]
  | .initializer isStatic body span => by
    simp [Member.words, Member.core, body.spell_words level, Word.text]
  | .typeDecl decl => by rw [Member.words, Member.core, decl.spell_words level]

theorem Member.spell_entryList (level : Nat) : ∀ ms : List Member,
    (Member.entryList level ms).map spell = Member.entries level ms
  | [] => by rw [Member.entryList, Member.entries, List.map_nil]
  | m :: ms => by
    rw [Member.entryList, Member.entries, List.map_cons, FactoryLowering.spell_entryWords,
      m.spell_words level, Member.spell_entryList level ms]

theorem EnumConstant.spell_wordsList (level : Nat) : ∀ cs : List EnumConstant,
    (EnumConstant.wordsList level cs).map spell = EnumConstant.texts level cs
  | [] => by rw [EnumConstant.wordsList, EnumConstant.texts, List.map_nil]
  | ⟨name, args, span⟩ :: cs => by
    simp [EnumConstant.wordsList, EnumConstant.texts, Expr.spell_wordsList level args,
      EnumConstant.spell_wordsList level cs, Word.text, String.append_assoc]

theorem TypeDecl.spell_words (level : Nat) : ∀ d : TypeDecl, spell (d.words level) = d.core level
  | .classDecl head members => by
    simp [TypeDecl.words, TypeDecl.core, head.spell_words,
      Member.spell_entryList (level + 1) members, Word.text, String.append_assoc]
  | .interfaceDecl head members => by
    simp [TypeDecl.words, TypeDecl.core, head.spell_words,
      Member.spell_entryList (level + 1) members, Word.text, String.append_assoc]
  | .enumDecl head constants members => by
    simp [TypeDecl.words, TypeDecl.core, head.spell_words, spell_constantWords,
      EnumConstant.spell_wordsList (level + 1) constants,
      Member.spell_entryList (level + 1) members, Word.text, String.append_assoc]

end

theorem CompilationUnit.spell_words (u : CompilationUnit) : spell u.words = u.text := by
  cases hpackage : u.package <;>
    simp [CompilationUnit.words, CompilationUnit.text, hpackage, TypeDecl.text,
      TypeDecl.spell_words, Word.text, Function.comp_def, String.append_assoc]

end FactoryLowering
