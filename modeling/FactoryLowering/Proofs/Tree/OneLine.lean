import FactoryLowering.Proofs.Literals
import FactoryLowering.Proofs.Tree.TypeText
import FactoryLowering.Tree.Visit

/-! # Texts that stay in one line

Only bodies and entries end lines. Everything else that is printed stays in one line: keywords and
operators, literals because of their escapes, and written types and the heads of declarations as
long as no name in them ends a line.
-/
namespace FactoryLowering

def OneLine (text : String) : Prop := '\n' ∉ text.toList

instance : DecidablePred OneLine := fun text => inferInstanceAs (Decidable ('\n' ∉ text.toList))

@[simp] theorem oneLine_append {a b : String} : OneLine (a ++ b) ↔ OneLine a ∧ OneLine b := by
  simp [OneLine, not_or]

@[simp] theorem oneLine_ite {c : Prop} [Decidable c] {a b : String} (ha : OneLine a)
    (hb : OneLine b) : OneLine (if c then a else b) := by
  split
  · exact ha
  · exact hb

theorem OneLine.separated {sep : String} (hsep : OneLine sep) :
    ∀ {texts : List String}, (∀ text ∈ texts, OneLine text) → OneLine (Text.separated sep texts)
  | [], _ => by simp [Text.separated, OneLine]
  | [text], h => h text List.mem_cons_self
  | text :: text' :: texts, h => by
    obtain ⟨hfirst, hrest⟩ := List.forall_mem_cons.mp h
    have hmore := OneLine.separated hsep hrest
    simp [Text.separated, hfirst, hsep, hmore]

theorem oneLine_modifiersText (mods : List Modifier) : OneLine (modifiersText mods) := by
  have hkeyword : ∀ m : Modifier, OneLine m.keyword := by
    intro m
    cases m <;> decide
  induction mods with
  | nil => decide
  | cons m mods ih =>
    have hcons : modifiersText (m :: mods) = m.keyword ++ " " ++ modifiersText mods := rfl
    rw [hcons, oneLine_append, oneLine_append]
    exact ⟨⟨hkeyword m, by decide⟩, ih⟩

theorem oneLine_symbol (op : BinaryOp) : OneLine op.symbol := by
  cases op <;> decide

theorem oneLine_brackets (dims : Nat) : OneLine (brackets dims) := by
  induction dims with
  | zero => decide
  | succ dims ih => simp +decide [brackets, ih]

theorem oneLine_nat (n : Nat) : OneLine (toString n) := by
  intro hmem
  rw [Nat.toString_eq_ofList_toDigits, String.toList_ofList] at hmem
  have hdigit := Nat.isDigit_of_mem_toDigits (by decide) (by decide) hmem
  revert hdigit
  decide

theorem Literal.oneLine_text (value : Literal) : OneLine value.text := by
  cases value with
  | integer value =>
    cases value with
    | ofNat n => exact oneLine_nat n
    | negSucc n =>
      have htext : (Literal.integer (.negSucc n)).text = "-" ++ toString (n + 1) := rfl
      rw [htext, oneLine_append]
      exact ⟨by decide, oneLine_nat _⟩
  | boolean value => cases value <;> decide
  | string value => simpa [OneLine, Literal.text, Text.quotedString] using
      Text.not_newline_mem_quoted (.inl rfl) value.toList
  | char value => simpa [OneLine, Literal.text, Text.quotedChar] using
      Text.not_newline_mem_quoted (.inr rfl) [value]
  | null => decide

mutual

theorem TypeRef.oneLine_text : ∀ t : TypeRef, (∀ name ∈ t.names, OneLine name) → OneLine t.text
  | ⟨name, args, dims, span⟩, h => by
    obtain ⟨hname, hargs⟩ := List.forall_mem_cons.mp h
    have htexts := OneLine.separated (by decide : OneLine ", ") (TypeRef.oneLine_texts args hargs)
    simp +decide [TypeRef.text, hname, htexts, oneLine_brackets]

theorem TypeRef.oneLine_texts : ∀ ts : List TypeRef, (∀ name ∈ TypeRef.allNames ts, OneLine name) →
    ∀ text ∈ TypeRef.texts ts, OneLine text
  | [], _, _, hmem => by cases hmem
  | t :: ts, h, text, hmem => by
    obtain ⟨ht, hts⟩ := List.forall_mem_append.mp h
    rcases List.mem_cons.mp hmem with rfl | hmem
    · exact t.oneLine_text ht
    · exact TypeRef.oneLine_texts ts hts text hmem

end

def Visit.names : Visit → List String
  | .enterType (.classDecl head _) _ => head.name :: head.typeParams.map (·.name)
  | .enterType (.interfaceDecl head _) _ => head.name :: head.typeParams.map (·.name)
  | .enterType (.enumDecl head constants _) _ => head.name :: constants.map (·.name)
  | .member (.field head _) => [head.name]
  | .member (.method m) =>
    m.head.name :: (m.head.typeParams.map (·.name) ++ m.head.params.map (·.name))
  | .member (.constructorDecl head _) => head.name :: head.params.map (·.name)
  | .stmt (.variables _ _ declared _) => declared.map (·.name)
  | .stmt (.forEach _ name _ _ _) => [name]
  | .expr (.field _ name _) => [name]
  | .call c => [c.name]
  | .identifier i => [i.name]
  | .typeRef type => type.names
  | _ => []

/-- All names in a member: of types, members, parameters and variables, and those in expressions. -/
def Member.names (m : Member) : List String := m.visits.flatMap Visit.names

def NamesInLine (vs : List Visit) : Prop := ∀ v ∈ vs, ∀ name ∈ v.names, OneLine name

@[simp] theorem namesInLine_cons {v : Visit} {vs : List Visit} :
    NamesInLine (v :: vs) ↔ (∀ name ∈ v.names, OneLine name) ∧ NamesInLine vs :=
  List.forall_mem_cons

@[simp] theorem namesInLine_append {vs ws : List Visit} :
    NamesInLine (vs ++ ws) ↔ NamesInLine vs ∧ NamesInLine ws :=
  List.forall_mem_append

theorem oneLine_types {types : List TypeRef} {sep : String} (hsep : OneLine sep)
    (h : NamesInLine (types.map .typeRef)) : OneLine (Text.separated sep (types.map (·.text))) := by
  apply OneLine.separated hsep
  intro text htext
  obtain ⟨type, htype, rfl⟩ := List.mem_map.mp htext
  exact type.oneLine_text (h (.typeRef type) (List.mem_map_of_mem htype))

theorem oneLine_typeParamsText {params : List TypeParam} (hnames : ∀ p ∈ params, OneLine p.name)
    (hbounds : NamesInLine (boundVisits params)) : OneLine (typeParamsText params) := by
  have hparam : ∀ text ∈ params.map (·.text), OneLine text := by
    intro text htext
    obtain ⟨p, hp, rfl⟩ := List.mem_map.mp htext
    have htypes : NamesInLine (p.bounds.map .typeRef) := by
      intro v hv
      exact hbounds v (List.mem_flatMap.mpr ⟨p, hp, hv⟩)
    have hlist := oneLine_types (by decide : OneLine " & ") htypes
    simp +decide [TypeParam.text, hnames p hp, hlist]
  have hlist := OneLine.separated (by decide : OneLine ", ") hparam
  simp +decide [typeParamsText, hlist]

theorem oneLine_parametersText {params : List Parameter} (hnames : ∀ p ∈ params, OneLine p.name)
    (htypes : NamesInLine (parameterVisits params)) : OneLine (parametersText params) := by
  have hparam : ∀ text ∈ params.map (·.text), OneLine text := by
    intro text htext
    obtain ⟨p, hp, rfl⟩ := List.mem_map.mp htext
    have htype := p.type.oneLine_text (htypes (.typeRef p.type) (List.mem_map_of_mem hp))
    simp +decide [Parameter.text, oneLine_modifiersText, htype, hnames p hp]
  have hlist := OneLine.separated (by decide : OneLine ", ") hparam
  simp +decide [parametersText, hlist]

/-! The head of a declaration stays in one line if the names in the declaration do. -/

theorem ClassHead.oneLine_text {head : ClassHead} {members : List Member} {site : TypeSite}
    (h : NamesInLine ((TypeDecl.classDecl head members).visits site)) : OneLine head.text := by
  simp only [TypeDecl.visits, ClassHead.visits, namesInLine_cons, namesInLine_append, Visit.names,
    List.forall_mem_cons, List.forall_mem_map] at h
  obtain ⟨⟨hname, hparams⟩, ⟨⟨⟨hbounds, hsuper⟩, hinterfaces⟩, -⟩, -⟩ := h
  have htypeParams := oneLine_typeParamsText hparams hbounds
  have hlist := oneLine_types (by decide : OneLine ", ") hinterfaces
  cases hsuperclass : head.superclass with
  | none =>
    simp +decide [ClassHead.text, hsuperclass, oneLine_modifiersText, hname, htypeParams, hlist]
  | some type =>
    have htype : OneLine type.text := by
      apply type.oneLine_text
      exact hsuper (.typeRef type) (by simp [hsuperclass])
    simp +decide [ClassHead.text, hsuperclass, oneLine_modifiersText, hname, htypeParams, hlist,
      htype]

theorem InterfaceHead.oneLine_text {head : InterfaceHead} {members : List Member} {site : TypeSite}
    (h : NamesInLine ((TypeDecl.interfaceDecl head members).visits site)) : OneLine head.text := by
  simp only [TypeDecl.visits, InterfaceHead.visits, namesInLine_cons, namesInLine_append,
    Visit.names, List.forall_mem_cons, List.forall_mem_map] at h
  obtain ⟨⟨hname, hparams⟩, ⟨⟨hbounds, hinterfaces⟩, -⟩, -⟩ := h
  have htypeParams := oneLine_typeParamsText hparams hbounds
  have hlist := oneLine_types (by decide : OneLine ", ") hinterfaces
  simp +decide [InterfaceHead.text, oneLine_modifiersText, hname, htypeParams, hlist]

theorem EnumHead.oneLine_text {head : EnumHead} {constants : List EnumConstant}
    {members : List Member} {site : TypeSite}
    (h : NamesInLine ((TypeDecl.enumDecl head constants members).visits site)) :
    OneLine head.text := by
  simp only [TypeDecl.visits, EnumHead.visits, namesInLine_cons, namesInLine_append, Visit.names,
    List.forall_mem_cons] at h
  obtain ⟨⟨hname, -⟩, ⟨⟨hinterfaces, -⟩, -⟩, -⟩ := h
  have hlist := oneLine_types (by decide : OneLine ", ") hinterfaces
  simp +decide [EnumHead.text, oneLine_modifiersText, hname, hlist]

theorem FieldHead.oneLine_text {head : FieldHead} {init : Option Expr}
    (h : NamesInLine (Member.field head init).visits) : OneLine head.text := by
  simp only [Member.visits, namesInLine_cons, Visit.names, List.forall_mem_singleton] at h
  obtain ⟨hname, htype, -⟩ := h
  have htext := head.type.oneLine_text htype
  simp +decide [FieldHead.text, oneLine_modifiersText, hname, htext]

theorem MethodHead.oneLine_text {head : MethodHead} {body : Option Block}
    (h : NamesInLine (Member.method ⟨head, body⟩).visits) : OneLine head.text := by
  simp only [Member.visits, MethodHead.visits, namesInLine_cons, namesInLine_append, Visit.names,
    List.forall_mem_cons, List.forall_mem_append, List.forall_mem_map] at h
  obtain ⟨⟨hname, htypeParams, hparams⟩, ⟨⟨hbounds, hresult⟩, hparameters⟩, -⟩ := h
  have hgeneric := oneLine_typeParamsText htypeParams hbounds
  have hlist := oneLine_parametersText hparams hparameters
  cases hresultType : head.result with
  | none =>
    simp +decide [MethodHead.text, hresultType, oneLine_modifiersText, hname, hgeneric, hlist]
  | some type =>
    have htype : OneLine type.text := by
      apply type.oneLine_text
      exact hresult (.typeRef type) (by simp [hresultType])
    simp +decide [MethodHead.text, hresultType, oneLine_modifiersText, hname, hgeneric, hlist,
      htype]

theorem ConstructorHead.oneLine_text {head : ConstructorHead} {body : Block}
    (h : NamesInLine (Member.constructorDecl head body).visits) : OneLine head.text := by
  simp only [Member.visits, namesInLine_cons, namesInLine_append, Visit.names,
    List.forall_mem_cons, List.forall_mem_map] at h
  obtain ⟨⟨hname, hparams⟩, hparameters, -⟩ := h
  have hlist := oneLine_parametersText hparams hparameters
  simp +decide [ConstructorHead.text, oneLine_modifiersText, hname, hlist]

end FactoryLowering
