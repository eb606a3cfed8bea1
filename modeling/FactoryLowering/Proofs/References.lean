import FactoryLowering.ImportEdits
import FactoryLowering.Proofs.OwnerChange.Effect
import FactoryLowering.Proofs.Tree.PrintedWords

/-! # References to a type

Reading a tree comes by the names that the printer writes, in the same order. So the search for
references to a type leaves out no place where its simple name would be printed, and an import that
is dropped for want of references is not needed.
-/
namespace FactoryLowering

def Word.isName : Word → Bool
  | .plain _ => false
  | _ => true

/-- The words that are names of types or used as expressions. -/
def nameWords (ws : List Word) : List Word := ws.filter Word.isName

def Visit.shown : Visit → List Word
  | .typeRef type => nameWords type.words
  | .identifier name => [.ident name]
  | _ => []

@[simp] theorem nameWords_nil : nameWords [] = [] := rfl

@[simp] theorem nameWords_plain (t : String) (ws : List Word) :
    nameWords (.plain t :: ws) = nameWords ws := rfl

@[simp] theorem nameWords_typeName (name : String) (ws : List Word) :
    nameWords (.typeName name :: ws) = .typeName name :: nameWords ws := rfl

@[simp] theorem nameWords_ident (i : Identifier) (ws : List Word) :
    nameWords (.ident i :: ws) = .ident i :: nameWords ws := rfl

@[simp] theorem nameWords_append (ws vs : List Word) :
    nameWords (ws ++ vs) = nameWords ws ++ nameWords vs :=
  List.filter_append ..

@[simp] theorem nameWords_ite (c : Prop) [Decidable c] (ws vs : List Word) :
    nameWords (if c then ws else vs) = if c then nameWords ws else nameWords vs :=
  apply_ite nameWords c ws vs

@[simp] theorem nameWords_separatedWords (sep : String) (wss : List (List Word)) :
    nameWords (separatedWords sep wss) = wss.flatMap nameWords := by
  induction wss with
  | nil => rfl
  | cons ws rest ih =>
    cases rest with
    | nil => simp [separatedWords]
    | cons vs rest =>
      rw [separatedWords_cons_cons, nameWords_append, nameWords_plain, ih]
      rfl

@[simp] theorem nameWords_entryWords (level : Nat) (core : List Word) :
    nameWords (entryWords level core) = nameWords core := by
  simp [entryWords]

@[simp] theorem nameWords_bracedWords (level : Nat) (entries : List Word) :
    nameWords (bracedWords level entries) = nameWords entries := by
  simp [bracedWords]

theorem flatMap_nameWords (types : List TypeRef) :
    (types.map (·.words)).flatMap nameWords = (types.map Visit.typeRef).flatMap Visit.shown := by
  rw [List.flatMap_map, List.flatMap_map]
  rfl

theorem nameWords_listedWords (keyword : String) (types : List TypeRef) :
    nameWords (listedWords keyword (types.map (·.words))) =
      (types.map Visit.typeRef).flatMap Visit.shown := by
  cases types with
  | nil => rfl
  | cons t ts => simp [listedWords, flatMap_nameWords, Visit.shown]

theorem TypeParam.nameWords_words (p : TypeParam) :
    nameWords p.words = (p.bounds.map Visit.typeRef).flatMap Visit.shown := by
  cases hbounds : p.bounds with
  | nil => simp [TypeParam.words, hbounds]
  | cons t ts => simp [TypeParam.words, hbounds, flatMap_nameWords, Visit.shown]

theorem nameWords_typeParamsWords (params : List TypeParam) :
    nameWords (typeParamsWords params) = (boundVisits params).flatMap Visit.shown := by
  cases params with
  | nil => rfl
  | cons p ps =>
    simp [typeParamsWords, boundVisits, List.flatMap_map, List.flatMap_assoc,
      TypeParam.nameWords_words]

theorem nameWords_parametersWords (params : List Parameter) :
    nameWords (parametersWords params) = (parameterVisits params).flatMap Visit.shown := by
  simp [parametersWords, parameterVisits, List.flatMap_map, Parameter.words, Visit.shown]

theorem ClassHead.nameWords_words (head : ClassHead) :
    nameWords head.words = head.visits.flatMap Visit.shown := by
  cases hsuper : head.superclass <;>
    simp [ClassHead.words, ClassHead.visits, hsuper, nameWords_typeParamsWords,
      nameWords_listedWords, Visit.shown]

theorem InterfaceHead.nameWords_words (head : InterfaceHead) :
    nameWords head.words = head.visits.flatMap Visit.shown := by
  simp [InterfaceHead.words, InterfaceHead.visits, nameWords_typeParamsWords, nameWords_listedWords]

theorem EnumHead.nameWords_words (head : EnumHead) :
    nameWords head.words = head.visits.flatMap Visit.shown := by
  simp [EnumHead.words, EnumHead.visits, nameWords_listedWords]

theorem MethodHead.nameWords_words (head : MethodHead) :
    nameWords head.words = head.visits.flatMap Visit.shown := by
  have hparams :
      (if head.typeParams = [] then [] else nameWords (typeParamsWords head.typeParams)) =
        (boundVisits head.typeParams).flatMap Visit.shown := by
    rw [← nameWords_typeParamsWords]
    cases head.typeParams <;> rfl
  cases hresult : head.result <;>
    simp [MethodHead.words, MethodHead.visits, hresult, hparams, nameWords_parametersWords,
      Visit.shown]

theorem nameWords_constantWords (level : Nat) (beforeMembers : Bool) (wss : List (List Word)) :
    nameWords (constantWords level beforeMembers wss) = wss.flatMap nameWords := by
  induction wss with
  | nil => cases beforeMembers <;> rfl
  | cons ws rest ih =>
    cases rest with
    | nil => simp [constantWords]
    | cons vs rest =>
      rw [constantWords_cons_cons, nameWords_append, ih]
      simp

mutual

theorem Expr.nameWords_words (level : Nat) : ∀ e : Expr,
    nameWords (e.words level) = e.visits.flatMap Visit.shown
  | .literal value span => by simp [Expr.words, Expr.visits, Visit.shown]
  | .ident name => by simp [Expr.words, Expr.visits, Visit.shown]
  | .binary op left right span => by
    simp [Expr.words, Expr.visits, Visit.shown, left.nameWords_words level, right.nameWords_words
      level]
  | .assign target value span => by
    simp [Expr.words, Expr.visits, Visit.shown, target.nameWords_words level, value.nameWords_words
      level]
  | .call ⟨id, receiver, name, args, method, span⟩ => by
    simp [Expr.words, Expr.visits, Visit.shown, Expr.nameWords_receiverWords level receiver,
      Expr.nameWords_wordsList level args]
  | .field target name span => by
    simp [Expr.words, Expr.visits, Visit.shown, target.nameWords_words level]
  | .cast type operand span => by
    simp [Expr.words, Expr.visits, Visit.shown, operand.nameWords_words level]
  | .conditional test yes no span => by
    simp [Expr.words, Expr.visits, Visit.shown, test.nameWords_words level, yes.nameWords_words
      level, no.nameWords_words level]
  | .new type args span => by
    simp [Expr.words, Expr.visits, Visit.shown, Expr.nameWords_wordsList level args]
  | .newAnonymous type args head members span => by
    simp [Expr.words, Expr.visits, Visit.shown, Expr.nameWords_wordsList level args,
      Member.nameWords_entryList (level + 1) members]
  | .paren inner => by simp [Expr.words, Expr.visits, Visit.shown, inner.nameWords_words level]

theorem Expr.nameWords_receiverWords (level : Nat) : ∀ e : Option Expr,
    nameWords (Expr.receiverWords level e) = (Expr.visitsOption e).flatMap Visit.shown
  | none => by simp [Expr.receiverWords, Expr.visitsOption]
  | some e => by simp [Expr.receiverWords, Expr.visitsOption, e.nameWords_words level]

theorem Expr.nameWords_initWords (level : Nat) : ∀ e : Option Expr,
    nameWords (Expr.initWords level e) = (Expr.visitsOption e).flatMap Visit.shown
  | none => by simp [Expr.initWords, Expr.visitsOption]
  | some e => by simp [Expr.initWords, Expr.visitsOption, e.nameWords_words level]

theorem Expr.nameWords_resultWords (level : Nat) : ∀ e : Option Expr,
    nameWords (Expr.resultWords level e) = (Expr.visitsOption e).flatMap Visit.shown
  | none => by simp [Expr.resultWords, Expr.visitsOption]
  | some e => by simp [Expr.resultWords, Expr.visitsOption, e.nameWords_words level]

theorem Expr.nameWords_wordsList (level : Nat) : ∀ es : List Expr,
    (Expr.wordsList level es).flatMap nameWords = (Expr.visitsList es).flatMap Visit.shown
  | [] => by simp [Expr.wordsList, Expr.visitsList]
  | e :: es => by
    simp [Expr.wordsList, Expr.visitsList, e.nameWords_words level, Expr.nameWords_wordsList level
      es]

theorem Stmt.nameWords_words (level : Nat) : ∀ s : Stmt,
    nameWords (s.words level) = s.visits.flatMap Visit.shown
  | .expression value span => by
    simp [Stmt.words, Stmt.visits, Visit.shown, value.nameWords_words level]
  | .variables mods type declared span => by
    simp [Stmt.words, Stmt.visits, Visit.shown, Declarator.nameWords_wordsList level declared]
  | .typeDecl decl => by
    simp [Stmt.words, Stmt.visits, Visit.shown, decl.nameWords_words level .inBlock]
  | .ifElse test yes no span => by
    simp [Stmt.words, Stmt.visits, Visit.shown, test.nameWords_words level, yes.nameWords_words
      level, yes.nameWords_words (level + 1), Stmt.nameWords_elseWords level no]
  | .whileLoop test body span => by
    simp [Stmt.words, Stmt.visits, Visit.shown, test.nameWords_words level, body.nameWords_words
      level, body.nameWords_words (level + 1)]
  | .forEach type name iterable body span => by
    simp [Stmt.words, Stmt.visits, Visit.shown, iterable.nameWords_words level,
      body.nameWords_words level, body.nameWords_words (level + 1)]
  | .returns value span => by
    simp [Stmt.words, Stmt.visits, Visit.shown, Expr.nameWords_resultWords level value]
  | .throws value span => by
    simp [Stmt.words, Stmt.visits, Visit.shown, value.nameWords_words level]
  | .block body => by simp [Stmt.words, Stmt.visits, Visit.shown, body.nameWords_words level]
  | .empty => by simp [Stmt.words, Stmt.visits, Visit.shown]

theorem Stmt.nameWords_elseWords (level : Nat) : ∀ s : Option Stmt,
    nameWords (Stmt.elseWords level s) = (Stmt.visitsOption s).flatMap Visit.shown
  | none => by simp [Stmt.elseWords, Stmt.visitsOption]
  | some s => by
    simp [Stmt.elseWords, Stmt.visitsOption, s.nameWords_words level, s.nameWords_words (level + 1)]

theorem Stmt.nameWords_entryWords (level : Nat) : ∀ ss : List Stmt,
    nameWords (Stmt.entryWords level ss) = (Stmt.visitsList ss).flatMap Visit.shown
  | [] => by simp [Stmt.entryWords, Stmt.visitsList]
  | s :: ss => by
    simp [Stmt.entryWords, Stmt.visitsList, s.nameWords_words level, Stmt.nameWords_entryWords level
      ss]

theorem Declarator.nameWords_wordsList (level : Nat) : ∀ ds : List Declarator,
    (Declarator.wordsList level ds).flatMap nameWords =
      (Declarator.visitsList ds).flatMap Visit.shown
  | [] => by simp [Declarator.wordsList, Declarator.visitsList]
  | ⟨name, init, span⟩ :: ds => by
    simp [Declarator.wordsList, Declarator.visitsList, Expr.nameWords_initWords level init,
      Declarator.nameWords_wordsList level ds]

theorem Block.nameWords_words (level : Nat) : ∀ b : Block,
    nameWords (b.words level) = b.visits.flatMap Visit.shown
  | ⟨stmts, span⟩ => by
    simp [Block.words, Block.visits, Visit.shown, Stmt.nameWords_entryWords (level + 1) stmts]

theorem Block.nameWords_bodyWords (level : Nat) : ∀ b : Option Block,
    nameWords (Block.bodyWords level b) = (Block.visitsOption b).flatMap Visit.shown
  | none => by simp [Block.bodyWords, Block.visitsOption]
  | some b => by simp [Block.bodyWords, Block.visitsOption, b.nameWords_words level]

theorem Member.nameWords_words (level : Nat) : ∀ m : Member,
    nameWords (m.words level) = m.visits.flatMap Visit.shown
  | .field head init => by
    simp [Member.words, Member.visits, Visit.shown, FieldHead.words,
      Expr.nameWords_initWords level init]
  | .method ⟨head, body⟩ => by
    simp [Member.words, Member.visits, Visit.shown, head.nameWords_words,
      Block.nameWords_bodyWords level body]
  | .constructorDecl head body => by
    simp [Member.words, Member.visits, Visit.shown, ConstructorHead.words,
      nameWords_parametersWords, body.nameWords_words level]
  | .initializer isStatic body span => by
    simp [Member.words, Member.visits, Visit.shown, body.nameWords_words level]
  | .typeDecl decl => by
    simp [Member.words, Member.visits, Visit.shown, decl.nameWords_words level .inType]

theorem Member.nameWords_entryList (level : Nat) : ∀ ms : List Member,
    (Member.entryList level ms).flatMap nameWords = (Member.visitsList ms).flatMap Visit.shown
  | [] => by simp [Member.entryList, Member.visitsList]
  | m :: ms => by
    simp [Member.entryList, Member.visitsList, m.nameWords_words level,
      Member.nameWords_entryList level ms]

theorem EnumConstant.nameWords_wordsList (level : Nat) : ∀ cs : List EnumConstant,
    (EnumConstant.wordsList level cs).flatMap nameWords =
      (EnumConstant.visitsList cs).flatMap Visit.shown
  | [] => by simp [EnumConstant.wordsList, EnumConstant.visitsList]
  | ⟨name, args, span⟩ :: cs => by
    have hfirst : nameWords (if args.isEmpty then [.plain name]
        else .plain (name ++ "(") :: separatedWords ", " (Expr.wordsList level args) ++
          [.plain ")"]) = (Expr.visitsList args).flatMap Visit.shown := by
      rw [← Expr.nameWords_wordsList level args]
      cases args <;> simp [Expr.wordsList]
    rw [EnumConstant.wordsList, EnumConstant.visitsList, List.flatMap_cons, List.flatMap_append,
      hfirst, EnumConstant.nameWords_wordsList level cs]

theorem TypeDecl.nameWords_words (level : Nat) (site : TypeSite) : ∀ d : TypeDecl,
    nameWords (d.words level) = (d.visits site).flatMap Visit.shown
  | .classDecl head members => by
    simp [TypeDecl.words, TypeDecl.visits, Visit.shown, head.nameWords_words,
      Member.nameWords_entryList (level + 1) members]
  | .interfaceDecl head members => by
    simp [TypeDecl.words, TypeDecl.visits, Visit.shown, head.nameWords_words,
      Member.nameWords_entryList (level + 1) members]
  | .enumDecl head constants members => by
    simp [TypeDecl.words, TypeDecl.visits, Visit.shown, head.nameWords_words,
      nameWords_constantWords, EnumConstant.nameWords_wordsList (level + 1) constants,
      Member.nameWords_entryList (level + 1) members]

end

/-- The printer writes the names that reading comes by, in the same order. -/
theorem CompilationUnit.nameWords_words (u : CompilationUnit) :
    nameWords u.words = (typesVisits u.types).flatMap Visit.shown := by
  simp [CompilationUnit.words, typesVisits, List.flatMap_map, List.flatMap_assoc,
    TypeDecl.nameWords_words 0 .topLevel]

/-! ## What counts as a reference -/

/-- Whether a word stands for the type `fqn` and is not its full name. The name of a written type
may go on from the simple name; a name used as an expression that was resolved to a class is taken
at its word. -/
def Word.Mentions (fqn : String) : Word → Prop
  | .plain _ => False
  | .typeName name =>
    name = Text.simpleName fqn ∨ ∃ rest, name = Text.simpleName fqn ++ "." ++ rest
  | .ident i =>
    match i.type with
    | some (.reference resolved _) => resolved = fqn
    | _ => i.name = Text.simpleName fqn

def CompilationUnit.Mentions (u : CompilationUnit) (fqn : String) : Prop :=
  ∃ w ∈ u.words, w.Mentions fqn

variable {fqn : String}

theorem namesThrough_iff (simple name : String) : namesThrough simple name = true ↔
    name = simple ∨ ∃ rest, name = simple ++ "." ++ rest := by
  rw [namesThrough, Bool.or_eq_true, beq_iff_eq, List.isPrefixOf_iff_prefix]
  refine or_congr_right ?_
  constructor
  · rintro ⟨rest, h⟩
    refine ⟨String.ofList rest, String.toList_inj.mp ?_⟩
    simp [← h]
  · rintro ⟨rest, rfl⟩
    exact ⟨rest.toList, by simp⟩

theorem Word.Mentions.isName {w : Word} (h : w.Mentions fqn) : w.isName = true := by
  cases w with
  | plain => exact h.elim
  | typeName => rfl
  | ident => rfl

theorem exists_mem_nameWords {ws : List Word} :
    (∃ w ∈ nameWords ws, w.Mentions fqn) ↔ ∃ w ∈ ws, w.Mentions fqn := by
  constructor
  · rintro ⟨w, hw, h⟩
    exact ⟨w, List.mem_of_mem_filter hw, h⟩
  · rintro ⟨w, hw, h⟩
    exact ⟨w, List.mem_filter.mpr ⟨hw, h.isName⟩, h⟩

mutual

theorem TypeRef.mentions_iff : ∀ t : TypeRef,
    t.mentions (Text.simpleName fqn) = true ↔ ∃ w ∈ nameWords t.words, w.Mentions fqn
  | ⟨name, args, dims, span⟩ => by
    have hnames : nameWords (TypeRef.mk name args dims span).words =
        .typeName name :: (TypeRef.wordsList args).flatMap nameWords := by
      cases args <;> simp [TypeRef.words, TypeRef.wordsList]
    rw [hnames, List.exists_mem_cons_iff, TypeRef.mentions, Bool.or_eq_true,
      namesThrough_iff, TypeRef.anyMentions_iff args]
    rfl

theorem TypeRef.anyMentions_iff : ∀ ts : List TypeRef,
    TypeRef.anyMentions (Text.simpleName fqn) ts = true ↔
      ∃ w ∈ (TypeRef.wordsList ts).flatMap nameWords, w.Mentions fqn
  | [] => by simp [TypeRef.anyMentions, TypeRef.wordsList]
  | t :: ts => by
    rw [TypeRef.anyMentions, Bool.or_eq_true, t.mentions_iff, TypeRef.anyMentions_iff ts,
      TypeRef.wordsList, List.flatMap_cons]
    simp only [List.mem_append, or_and_right, exists_or]

end

theorem Identifier.mentions_iff (i : Identifier) :
    i.mentions fqn = true ↔ (Word.ident i).Mentions fqn := by
  cases htype : i.type with
  | none => simp [Identifier.mentions, Word.Mentions, htype]
  | some type => cases type <;> simp [Identifier.mentions, Word.Mentions, htype]

theorem Visit.mentions_iff (v : Visit) :
    v.mentions fqn = true ↔ ∃ w ∈ v.shown, w.Mentions fqn := by
  cases v with
  | typeRef type => exact type.mentions_iff
  | identifier name =>
    have hnames : (Visit.identifier name).shown = [.ident name] := rfl
    rw [hnames, List.exists_mem_cons_iff, ← name.mentions_iff]
    simp [Visit.mentions]
  | _ => simp [Visit.mentions, Visit.shown]

/-- A unit refers to a type exactly if the printer writes a name for it. -/
theorem CompilationUnit.references_iff (u : CompilationUnit) :
    u.references fqn = true ↔ u.Mentions fqn := by
  rw [CompilationUnit.Mentions, ← exists_mem_nameWords, u.nameWords_words, references,
    List.any_eq_true]
  simp only [List.mem_flatMap, Visit.mentions_iff]
  constructor
  · rintro ⟨v, hv, w, hw, h⟩
    exact ⟨w, ⟨v, hv, hw⟩, h⟩
  · rintro ⟨w, ⟨v, hv, hw⟩, h⟩
    exact ⟨v, hv, w, hw, h⟩

theorem CompilationUnit.mentions_congr {u u' : CompilationUnit} (h : u'.types = u.types) :
    u'.Mentions fqn ↔ u.Mentions fqn := by
  rw [← references_iff, ← references_iff, references, references, h]

/-! ## Dropping the import of an owner that was changed -/

namespace Config

/-- The imports after a run: if some call was changed and nothing that is printed stands for the old
owner any more, then all single imports of it are gone, and only these. Else no import is. -/
structure LeavesImports (config : Config) (u : CompilationUnit) (out : PassOutcome)
    (stats : Stats) : Prop where
  result : out.result = .ok stats
  changed : stats.callsChanged = (config.matching u).length
  dropped : 0 < stats.callsChanged → ¬ out.unit.Mentions config.origin →
    out.unit.imports = u.imports.filter fun i => !(i.isSingle && i.name == config.origin)
  kept : stats.callsChanged = 0 ∨ out.unit.Mentions config.origin → out.unit.imports = u.imports

theorem leavesImports_run (config : Config) (u : CompilationUnit) (log : ChangeLog) :
    ∃ stats, config.LeavesImports u (config.change.run u log) stats := by
  obtain ⟨types, htypes⟩ : ∃ types, types = (config.change.walk u log).1 := ⟨_, rfl⟩
  have hmentions : (config.change.outUnit u types).Mentions config.origin ↔
      CompilationUnit.references { u with types } config.origin = true := by
    rw [CompilationUnit.references_iff]
    exact CompilationUnit.mentions_congr (OwnerChange.types_outUnit config.change u types)
  rw [OwnerChange.run_eq, ← htypes]
  refine ⟨_, rfl, (config.length_matching u).symm, ?_, ?_⟩
  · intro hchanged hunused
    have hsome : (callsOf (typesVisits u.types)).countP config.change.pattern.isMatch ≠ 0 :=
      Nat.ne_of_gt hchanged
    have hdrop : ¬ CompilationUnit.references { u with types } config.change.origin = true :=
      fun h => hunused (hmentions.mpr h)
    simp only [OwnerChange.outUnit, if_neg hsome, CompilationUnit.dropUnused, if_neg hdrop]
    rfl
  · rintro (hnone | hused)
    · have hnone : (callsOf (typesVisits u.types)).countP config.change.pattern.isMatch = 0 := hnone
      simp only [OwnerChange.outUnit, if_pos hnone]
    · have hkeep : CompilationUnit.references { u with types } config.change.origin = true :=
        hmentions.mp hused
      simp only [OwnerChange.outUnit, CompilationUnit.dropUnused, if_pos hkeep, ite_self]

end Config

/-- References are found wherever the printer writes them, and so changing the owner of calls drops
an import only if it is not needed. -/
theorem imports_dropped_only_when_unused :
    (∀ (u : CompilationUnit) (fqn : String),
      spell u.words = u.text ∧ (u.references fqn = true ↔ u.Mentions fqn)) ∧
    ∀ config : Config, config.validate = .ok () →
      ∃ change, OwnerChange.ofConfig config = .ok change ∧
        ∀ u log, ∃ stats, config.LeavesImports u (change.run u log) stats := by
  refine ⟨fun u fqn => ⟨u.spell_words, u.references_iff⟩, ?_⟩
  intro config hvalid
  exact ⟨config.change, Config.ofConfig_eq hvalid, config.leavesImports_run⟩

/-- Both calls of the unit are changed, and nothing stands for the old owner afterwards. -/
theorem imports_dropped_on_listsUnit :
    Chain.listsConfig.validate = .ok () ∧ (Chain.listsConfig.matching Chain.listsUnit).length = 2 ∧
      ∃ change, OwnerChange.ofConfig Chain.listsConfig = .ok change ∧
        Chain.listsUnit.Mentions "java.util.List" ∧
        ¬ (change.run Chain.listsUnit {}).unit.Mentions "java.util.List" ∧
        (change.run Chain.listsUnit {}).unit.imports = [] := by
  have hvalid : Chain.listsConfig.validate = .ok () :=
    Config.validate_eq_ok_iff.mpr (by decide +kernel)
  obtain ⟨hreferences, hruns⟩ := imports_dropped_only_when_unused
  obtain ⟨change, hchange, hrun⟩ := hruns Chain.listsConfig hvalid
  obtain rfl : Chain.listsConfig.change = change := by
    rw [Config.ofConfig_eq hvalid] at hchange
    exact Except.ok.inj hchange
  have hcount : (Chain.listsConfig.matching Chain.listsUnit).length = 2 := by decide +kernel
  have hbefore : Chain.listsUnit.Mentions "java.util.List" :=
    (hreferences _ _).2.mp (by decide +kernel)
  have hafter : ¬ (Chain.listsConfig.change.run Chain.listsUnit {}).unit.Mentions
      "java.util.List" := by
    rw [← (hreferences _ _).2]
    decide +kernel
  obtain ⟨stats, hleaves⟩ := hrun Chain.listsUnit {}
  have hsome : 0 < stats.callsChanged := by
    rw [hleaves.changed, hcount]
    decide
  refine ⟨hvalid, hcount, _, hchange, hbefore, hafter, ?_⟩
  rw [hleaves.dropped hsome hafter]
  decide +kernel

end FactoryLowering
