import FactoryLowering.Proofs.Tree.OneLine
import FactoryLowering.Proofs.Tree.Printing

/-! # Printing at any level

Text printed at a level is the text printed at the outermost level with every line moved to the
right, empty lines apart. Expressions and statements are pieces of lines, and they may go on over
further lines; so the pieces are told apart by whether anything stands yet in the line that they are
added to.
-/
namespace FactoryLowering

namespace Text

def indentLine (width : Nat) (line : List Char) : List Char :=
  if line = [] then [] else List.replicate width ' ' ++ line

/-- A text with every line of it moved to the right. -/
def indentLines (width : Nat) (text : String) : String :=
  String.ofList (['\n'].intercalate ((text.toList.splitOn '\n').map (indentLine width)))

example : indentLines 2 "if\n  a\n\nend\n" = "  if\n    a\n\n  end\n" := by decide +kernel

/-- The same done character by character; `fresh` says that nothing stands in the line yet. -/
def shift (width : Nat) : Bool → List Char → List Char
  | _, [] => []
  | fresh, c :: cs =>
    if c = '\n' then '\n' :: shift width true cs
    else (if fresh then List.replicate width ' ' else []) ++ c :: shift width false cs

def freshAfter : Bool → List Char → Bool
  | fresh, [] => fresh
  | _, c :: cs => freshAfter (decide (c = '\n')) cs

theorem shift_append (width : Nat) (fresh : Bool) (cs ds : List Char) :
    shift width fresh (cs ++ ds) =
      shift width fresh cs ++ shift width (freshAfter fresh cs) ds := by
  induction cs generalizing fresh with
  | nil => rfl
  | cons c cs ih =>
    by_cases hc : c = '\n'
    · simp [shift, freshAfter, ih, hc]
    · simp [shift, freshAfter, ih, hc]

theorem freshAfter_append (fresh : Bool) (cs ds : List Char) :
    freshAfter fresh (cs ++ ds) = freshAfter (freshAfter fresh cs) ds := by
  induction cs generalizing fresh with
  | nil => rfl
  | cons c cs ih => exact ih _

theorem shift_of_not_mem {cs : List Char} (h : '\n' ∉ cs) (width : Nat) :
    shift width false cs = cs := by
  induction cs with
  | nil => rfl
  | cons c cs ih =>
    obtain ⟨hc, hcs⟩ := not_or.mp (mt List.mem_cons.mpr h)
    simp [shift, Ne.symm hc, ih hcs]

theorem freshAfter_of_not_mem {cs : List Char} (h : '\n' ∉ cs) : freshAfter false cs = false := by
  induction cs with
  | nil => rfl
  | cons c cs ih =>
    obtain ⟨hc, hcs⟩ := not_or.mp (mt List.mem_cons.mpr h)
    simp [freshAfter, Ne.symm hc, ih hcs]

theorem shift_blanks {c : Char} (hc : c ≠ '\n') (width blanks : Nat) (cs : List Char) :
    shift width true (List.replicate blanks ' ' ++ c :: cs) =
      List.replicate (blanks + width) ' ' ++ c :: shift width false cs := by
  have hblanks : ∀ n, '\n' ∉ List.replicate n ' ' := by simp
  cases blanks with
  | zero => simp [shift, hc]
  | succ blanks =>
    have hrest : shift width false (List.replicate blanks ' ' ++ c :: cs) =
        List.replicate blanks ' ' ++ c :: shift width false cs := by
      rw [shift_append, shift_of_not_mem (hblanks _), freshAfter_of_not_mem (hblanks _)]
      simp [shift, hc]
    have hline : List.replicate (blanks + 1 + width) ' ' =
        List.replicate width ' ' ++ ' ' :: List.replicate blanks ' ' := by
      rw [← List.replicate_succ, List.replicate_append_replicate]
      congr 1
      omega
    rw [List.replicate_succ, List.cons_append, shift, if_neg (by decide), if_pos rfl, hrest, hline,
      List.append_assoc, List.cons_append]

theorem freshAfter_blanks {c : Char} (hc : c ≠ '\n') (fresh : Bool) (blanks : Nat)
    (cs : List Char) :
    freshAfter fresh (List.replicate blanks ' ' ++ c :: cs) = freshAfter false cs := by
  simp [freshAfter_append, freshAfter, hc]

/-- In a fresh line all lines are moved, and in a line that has text all but the first. -/
theorem exists_splitOn_shift (width : Nat) (cs : List Char) : ∃ line lines,
    cs.splitOn '\n' = line :: lines ∧
      shift width true cs =
        ['\n'].intercalate (indentLine width line :: lines.map (indentLine width)) ∧
      shift width false cs = ['\n'].intercalate (line :: lines.map (indentLine width)) := by
  induction cs with
  | nil => exact ⟨[], [], rfl, by simp [shift, indentLine], by simp [shift]⟩
  | cons c cs ih =>
    obtain ⟨line, lines, hsplit, hfresh, hinner⟩ := ih
    by_cases hc : c = '\n'
    · refine ⟨[], line :: lines, ?_, ?_, ?_⟩
      · simp [List.splitOn_cons_eq_if_modifyHead, hc, hsplit]
      · simp [shift, hc, hfresh, indentLine]
      · simp [shift, hc, hfresh]
    · refine ⟨c :: line, lines, ?_, ?_, ?_⟩
      · simp [List.splitOn_cons_eq_if_modifyHead, hc, hsplit]
      · cases lines <;> simp [shift, hc, hinner, indentLine]
      · cases lines <;> simp [shift, hc, hinner]

theorem toList_indentLines (width : Nat) (text : String) :
    (indentLines width text).toList = shift width true text.toList := by
  obtain ⟨line, lines, hsplit, hfresh, _⟩ := exists_splitOn_shift width text.toList
  rw [indentLines, String.toList_ofList, hsplit, hfresh, List.map_cons]

end Text

/-! ## Texts that move with their level -/

theorem toList_indent (level : Nat) : (indent level).toList = List.replicate (4 * level) ' ' := by
  induction level with
  | zero => rfl
  | succ level ih => simp [indent, ih, Nat.mul_add, List.replicate_succ]

/-- Text that is printed alike at all levels: where the level rises, the lines that start in it move
to the right. `fresh` tells whether nothing stands in the line that it is added to, and `fresh'` the
same of the line that it ends in. -/
structure Moves (fresh fresh' : Bool) (t : Nat → String) : Prop where
  shift_eq : ∀ level rise,
    Text.shift (4 * rise) fresh (t level).toList = (t (level + rise)).toList
  freshAfter_eq : ∀ level, Text.freshAfter fresh (t level).toList = fresh'

/-- Text that begins in the line it is added to. -/
def BeginsInLine (text : String) : Prop := ∃ c cs, text.toList = c :: cs ∧ c ≠ '\n'

theorem BeginsInLine.append {text : String} (h : BeginsInLine text) (more : String) :
    BeginsInLine (text ++ more) := by
  obtain ⟨c, cs, hchars, hc⟩ := h
  exact ⟨c, cs ++ more.toList, by simp [hchars], hc⟩

theorem OneLine.beginsInLine {text : String} (h : OneLine text) (hne : text ≠ "") :
    BeginsInLine text := by
  obtain ⟨c, cs, hchars⟩ := List.exists_cons_of_ne_nil (mt String.toList_eq_nil_iff.mp hne)
  refine ⟨c, cs, hchars, ?_⟩
  rintro rfl
  exact h (by simp [hchars])

namespace Moves

variable {fresh fresh' fresh'' : Bool} {t u : Nat → String}

theorem append (ht : Moves fresh fresh' t) (hu : Moves fresh' fresh'' u) :
    Moves fresh fresh'' fun level => t level ++ u level where
  shift_eq level rise := by
    rw [String.toList_append, Text.shift_append, ht.shift_eq, ht.freshAfter_eq, hu.shift_eq,
      String.toList_append]
  freshAfter_eq level := by
    rw [String.toList_append, Text.freshAfter_append, ht.freshAfter_eq, hu.freshAfter_eq]

theorem empty : Moves fresh fresh fun _ => "" := ⟨fun _ _ => rfl, fun _ => rfl⟩

theorem plain {text : String} (h : OneLine text := by decide) :
    Moves false false fun _ => text where
  shift_eq _ rise := Text.shift_of_not_mem h (4 * rise)
  freshAfter_eq _ := Text.freshAfter_of_not_mem h

theorem write (ht : Moves fresh false t) {text : String} (h : OneLine text := by decide) :
    Moves fresh false fun level => t level ++ text :=
  ht.append (plain h)

theorem lineEnd : Moves fresh true fun _ => "\n" := ⟨fun _ _ => rfl, fun _ => rfl⟩

theorem deeper (h : Moves fresh fresh' t) : Moves fresh fresh' fun level => t (level + 1) where
  shift_eq level rise := by rw [h.shift_eq, Nat.add_right_comm]
  freshAfter_eq level := h.freshAfter_eq (level + 1)

theorem ite {c : Prop} [Decidable c] (ht : Moves fresh fresh' t) (hu : Moves fresh fresh' u) :
    Moves fresh fresh' fun level => if c then t level else u level := by
  by_cases h : c
  · simpa only [if_pos h] using ht
  · simpa only [if_neg h] using hu

theorem margin (h : Moves false fresh' t) (hbegins : ∀ level, BeginsInLine (t level)) :
    Moves true fresh' fun level => indent level ++ t level where
  shift_eq level rise := by
    obtain ⟨c, cs, hchars, hc⟩ := hbegins level
    have hmoved := h.shift_eq level rise
    rw [hchars] at hmoved
    simp only [Text.shift, if_neg hc] at hmoved
    rw [String.toList_append, String.toList_append, toList_indent, toList_indent, hchars,
      Text.shift_blanks hc, ← hmoved, Nat.mul_add]
    rfl
  freshAfter_eq level := by
    obtain ⟨c, cs, hchars, hc⟩ := hbegins level
    have hafter := h.freshAfter_eq level
    rw [hchars] at hafter
    simp only [Text.freshAfter, decide_eq_false hc] at hafter
    rw [String.toList_append, toList_indent, hchars, Text.freshAfter_blanks hc, hafter]

theorem braced (h : Moves true true t) : Moves false false fun level => braced level (t level) := by
  have hopen : Moves false true fun _ => "\x7b\n" := ⟨fun _ _ => rfl, fun _ => rfl⟩
  have hclose : Moves true false fun level => indent level ++ "\x7d" :=
    margin plain fun _ => ⟨'\x7d', [], rfl, by decide⟩
  simpa only [FactoryLowering.braced, String.append_assoc] using (hopen.append h).append hclose

/-- In a body even an entry without any text has a line that is not empty. -/
theorem entry (h : Moves false false t) :
    Moves true true fun level => entry (level + 1) (t (level + 1)) := by
  have hinner : Moves true false fun level => indent level ++ ("    " ++ t (level + 1)) := by
    apply margin ((plain).append h.deeper)
    intro level
    exact BeginsInLine.append ⟨' ', [' ', ' ', ' '], rfl, by decide⟩ _
  have hindent : ∀ level, indent (level + 1) = indent level ++ "    " := by
    intro level
    apply String.toList_inj.mp
    rw [String.toList_append, toList_indent, toList_indent, Nat.mul_add,
      ← List.replicate_append_replicate]
    rfl
  simpa only [FactoryLowering.entry, hindent, String.append_assoc] using hinner.append lineEnd

theorem branch {joined : Bool} (h : Moves false false t) : Moves false false fun level =>
    if joined then t level
    else FactoryLowering.braced level (FactoryLowering.entry (level + 1) (t (level + 1))) :=
  ite h h.entry.braced

end Moves

/-! By induction on the tree: expressions and statements are added to a line that has text already
and end in such a line, while the entries of a body take whole lines. Only entries need a level
above the outermost one, where their margin is never empty. -/

mutual

theorem Expr.moves_text : ∀ e : Expr, NamesInLine e.visits →
    Moves false false fun level => e.text level
  | .literal value span, _ => by
    simp only [Expr.text]
    exact .plain value.oneLine_text
  | .ident name, h => by
    simp only [Expr.visits, namesInLine_cons, Visit.names, List.forall_mem_singleton] at h
    simp only [Expr.text]
    exact .plain h.2.1
  | .binary op left right span, h => by
    simp only [Expr.visits, namesInLine_cons, namesInLine_append] at h
    obtain ⟨-, hleft, hright⟩ := h
    simp only [Expr.text]
    exact ((left.moves_text hleft).write.write (oneLine_symbol op)).write.append
      (right.moves_text hright)
  | .assign target value span, h => by
    simp only [Expr.visits, namesInLine_cons, namesInLine_append] at h
    obtain ⟨-, htarget, hvalue⟩ := h
    simp only [Expr.text]
    exact (target.moves_text htarget).write.append (value.moves_text hvalue)
  | .call ⟨id, receiver, name, args, method, span⟩, h => by
    simp only [Expr.visits, namesInLine_cons, namesInLine_append, Visit.names,
      List.forall_mem_singleton] at h
    obtain ⟨-, hname, hreceiver, hargs⟩ := h
    simp only [Expr.text]
    exact (((Expr.moves_receiverText receiver hreceiver).write hname).write.append
      (Expr.moves_texts args hargs)).write
  | .field target name span, h => by
    simp only [Expr.visits, namesInLine_cons, Visit.names, List.forall_mem_singleton] at h
    obtain ⟨hname, htarget⟩ := h
    simp only [Expr.text]
    exact (target.moves_text htarget).write.write hname
  | .cast type operand span, h => by
    simp only [Expr.visits, namesInLine_cons] at h
    obtain ⟨-, htype, hoperand⟩ := h
    simp only [Expr.text]
    exact ((Moves.plain).write (type.oneLine_text htype)).write.append (operand.moves_text hoperand)
  | .conditional test yes no span, h => by
    simp only [Expr.visits, namesInLine_cons, namesInLine_append] at h
    obtain ⟨-, ⟨htest, hyes⟩, hno⟩ := h
    simp only [Expr.text]
    exact ((test.moves_text htest).write.append (yes.moves_text hyes)).write.append
      (no.moves_text hno)
  | .new type args span, h => by
    simp only [Expr.visits, namesInLine_cons] at h
    obtain ⟨-, htype, hargs⟩ := h
    simp only [Expr.text]
    exact (((Moves.plain).write (type.oneLine_text htype)).write.append
      (Expr.moves_texts args hargs)).write
  | .newAnonymous type args head members span, h => by
    simp only [Expr.visits, namesInLine_cons, namesInLine_append] at h
    obtain ⟨-, htype, hargs, -, hmembers, -⟩ := h
    simp only [Expr.text]
    exact (((Moves.plain).write (type.oneLine_text htype)).write.append
      (Expr.moves_texts args hargs)).write.append (Member.moves_entries members hmembers).braced
  | .paren inner, h => by
    simp only [Expr.visits, namesInLine_cons] at h
    simp only [Expr.text]
    exact ((Moves.plain).append (inner.moves_text h.2)).write

theorem Expr.moves_receiverText : ∀ e : Option Expr, NamesInLine (Expr.visitsOption e) →
    Moves false false fun level => Expr.receiverText level e
  | none, _ => by
    simp only [Expr.receiverText]
    exact .empty
  | some e, h => by
    rw [Expr.visitsOption] at h
    simp only [Expr.receiverText]
    exact (e.moves_text h).write

theorem Expr.moves_initText : ∀ e : Option Expr, NamesInLine (Expr.visitsOption e) →
    Moves false false fun level => Expr.initText level e
  | none, _ => by
    simp only [Expr.initText]
    exact .empty
  | some e, h => by
    rw [Expr.visitsOption] at h
    simp only [Expr.initText]
    exact (Moves.plain).append (e.moves_text h)

theorem Expr.moves_resultText : ∀ e : Option Expr, NamesInLine (Expr.visitsOption e) →
    Moves false false fun level => Expr.resultText level e
  | none, _ => by
    simp only [Expr.resultText]
    exact .empty
  | some e, h => by
    rw [Expr.visitsOption] at h
    simp only [Expr.resultText]
    exact (Moves.plain).append (e.moves_text h)

theorem Expr.moves_texts : ∀ es : List Expr, NamesInLine (Expr.visitsList es) →
    Moves false false fun level => Text.separated ", " (Expr.texts level es)
  | [], _ => by
    simp only [Expr.texts, Text.separated]
    exact .empty
  | [e], h => by
    simp only [Expr.visitsList, namesInLine_append] at h
    simp only [Expr.texts, Text.separated]
    exact e.moves_text h.1
  | e :: e' :: es, h => by
    rw [Expr.visitsList, namesInLine_append] at h
    have hrest := Expr.moves_texts (e' :: es) h.2
    simp only [Expr.texts, Text.separated] at hrest ⊢
    exact (e.moves_text h.1).write.append hrest

theorem Stmt.moves_core : ∀ stmt : Stmt, NamesInLine stmt.visits →
    Moves false false fun level => stmt.core level
  | .expression value span, h => by
    simp only [Stmt.visits, namesInLine_cons] at h
    simp only [Stmt.core]
    exact (value.moves_text h.2).write
  | .variables mods type declared span, h => by
    simp only [Stmt.visits, namesInLine_cons, Visit.names, List.forall_mem_map] at h
    obtain ⟨hnames, htype, hinits⟩ := h
    simp only [Stmt.core]
    have hmods := Moves.plain (oneLine_modifiersText mods)
    exact ((hmods.write (type.oneLine_text htype)).write.append
      (Declarator.moves_texts declared hnames hinits)).write
  | .typeDecl decl, h => by
    simp only [Stmt.visits, namesInLine_cons] at h
    simp only [Stmt.core]
    exact decl.moves_core h.2
  | .ifElse test yes no span, h => by
    simp only [Stmt.visits, namesInLine_cons, namesInLine_append] at h
    obtain ⟨-, ⟨htest, hyes⟩, hno⟩ := h
    simp only [Stmt.core]
    exact ((((Moves.plain).append (test.moves_text htest)).write).append
      (yes.moves_core hyes).branch).append (Stmt.moves_elseText no hno)
  | .whileLoop test body span, h => by
    simp only [Stmt.visits, namesInLine_cons, namesInLine_append] at h
    obtain ⟨-, htest, hbody⟩ := h
    simp only [Stmt.core]
    exact ((Moves.plain).append (test.moves_text htest)).write.append (body.moves_core hbody).branch
  | .forEach type name iterable body span, h => by
    simp only [Stmt.visits, namesInLine_cons, namesInLine_append, Visit.names,
      List.forall_mem_singleton] at h
    obtain ⟨hname, htype, hiterable, hbody⟩ := h
    simp only [Stmt.core]
    exact ((((((Moves.plain).write (type.oneLine_text htype)).write).write hname).write.append
      (iterable.moves_text hiterable)).write).append (body.moves_core hbody).branch
  | .returns value span, h => by
    simp only [Stmt.visits, namesInLine_cons] at h
    simp only [Stmt.core]
    exact ((Moves.plain).append (Expr.moves_resultText value h.2)).write
  | .throws value span, h => by
    simp only [Stmt.visits, namesInLine_cons] at h
    simp only [Stmt.core]
    exact ((Moves.plain).append (value.moves_text h.2)).write
  | .block body, h => by
    simp only [Stmt.visits, namesInLine_cons] at h
    simp only [Stmt.core]
    exact body.moves_text h.2
  | .empty, _ => by
    simp only [Stmt.core]
    exact .plain

theorem Stmt.moves_elseText : ∀ other : Option Stmt, NamesInLine (Stmt.visitsOption other) →
    Moves false false fun level => Stmt.elseText level other
  | none, _ => by
    simp only [Stmt.elseText]
    exact .empty
  | some other, h => by
    rw [Stmt.visitsOption] at h
    simp only [Stmt.elseText]
    exact (Moves.plain).append (other.moves_core h).branch

theorem Stmt.moves_entries : ∀ stmts : List Stmt, NamesInLine (Stmt.visitsList stmts) →
    Moves true true fun level => Stmt.entries (level + 1) stmts
  | [], _ => by
    simp only [Stmt.entries]
    exact .empty
  | stmt :: stmts, h => by
    rw [Stmt.visitsList, namesInLine_append] at h
    simp only [Stmt.entries]
    exact (stmt.moves_core h.1).entry.append (Stmt.moves_entries stmts h.2)

theorem Declarator.moves_texts : ∀ ds : List Declarator, (∀ d ∈ ds, OneLine d.name) →
    NamesInLine (Declarator.visitsList ds) →
    Moves false false fun level => Text.separated ", " (Declarator.texts level ds)
  | [], _, _ => by
    simp only [Declarator.texts, Text.separated]
    exact .empty
  | [⟨name, init, span⟩], hnames, h => by
    simp only [Declarator.visitsList, namesInLine_append] at h
    have hname : OneLine name := hnames _ List.mem_cons_self
    simp only [Declarator.texts, Text.separated]
    exact (Moves.plain hname).append (Expr.moves_initText init h.1)
  | ⟨name, init, span⟩ :: ⟨name', init', span'⟩ :: ds, hnames, h => by
    rw [Declarator.visitsList, namesInLine_append] at h
    obtain ⟨hname, hnames⟩ := List.forall_mem_cons.mp hnames
    have hrest := Declarator.moves_texts (⟨name', init', span'⟩ :: ds) hnames h.2
    simp only [Declarator.texts, Text.separated] at hrest ⊢
    exact ((Moves.plain hname).append (Expr.moves_initText init h.1)).write.append hrest

theorem Block.moves_text : ∀ b : Block, NamesInLine b.visits →
    Moves false false fun level => b.text level
  | ⟨stmts, span⟩, h => by
    simp only [Block.visits, namesInLine_cons] at h
    simp only [Block.text]
    exact (Stmt.moves_entries stmts h.2).braced

theorem Block.moves_bodyText : ∀ b : Option Block, NamesInLine (Block.visitsOption b) →
    Moves false false fun level => Block.bodyText level b
  | none, _ => by
    simp only [Block.bodyText]
    exact .plain
  | some b, h => by
    rw [Block.visitsOption] at h
    simp only [Block.bodyText]
    exact (Moves.plain).append (b.moves_text h)

theorem Member.moves_core : ∀ m : Member, NamesInLine m.visits →
    Moves false false fun level => m.core level
  | .field head init, h => by
    have hhead := FieldHead.oneLine_text h
    simp only [Member.visits, namesInLine_cons] at h
    simp only [Member.core]
    exact ((Moves.plain hhead).append (Expr.moves_initText init h.2.2)).write
  | .method ⟨head, body⟩, h => by
    have hhead := MethodHead.oneLine_text h
    simp only [Member.visits, namesInLine_cons, namesInLine_append] at h
    simp only [Member.core]
    exact (Moves.plain hhead).append (Block.moves_bodyText body h.2.2)
  | .constructorDecl head body, h => by
    have hhead := ConstructorHead.oneLine_text h
    simp only [Member.visits, namesInLine_cons, namesInLine_append] at h
    simp only [Member.core]
    exact (Moves.plain hhead).write.append (body.moves_text h.2.2)
  | .initializer isStatic body span, h => by
    simp only [Member.visits, namesInLine_cons] at h
    simp only [Member.core]
    exact (Moves.ite Moves.plain Moves.plain).append (body.moves_text h.2)
  | .typeDecl decl, h => by
    simp only [Member.visits, namesInLine_cons] at h
    simp only [Member.core]
    exact decl.moves_core h.2

theorem Member.moves_entries : ∀ ms : List Member, NamesInLine (Member.visitsList ms) →
    Moves true true fun level => Text.separated "\n" (Member.entries (level + 1) ms)
  | [], _ => by
    simp only [Member.entries, Text.separated]
    exact .empty
  | [m], h => by
    simp only [Member.visitsList, namesInLine_append] at h
    simp only [Member.entries, Text.separated]
    exact (m.moves_core h.1).entry
  | m :: m' :: ms, h => by
    rw [Member.visitsList, namesInLine_append] at h
    have hrest := Member.moves_entries (m' :: ms) h.2
    simp only [Member.entries, Text.separated] at hrest ⊢
    exact ((m.moves_core h.1).entry.append .lineEnd).append hrest

theorem EnumConstant.moves_constant : ∀ c : EnumConstant, OneLine c.name →
    NamesInLine (Expr.visitsList c.args) → Moves false false fun level =>
      if c.args.isEmpty then c.name
      else c.name ++ "(" ++ Text.separated ", " (Expr.texts level c.args) ++ ")"
  | ⟨name, args, span⟩, hname, h =>
    .ite (.plain hname) (((Moves.plain hname).write.append (Expr.moves_texts args h)).write)

theorem EnumConstant.moves_entries (beforeMembers : Bool) : ∀ cs : List EnumConstant,
    (∀ c ∈ cs, OneLine c.name) → NamesInLine (EnumConstant.visitsList cs) →
    Moves true true fun level =>
      constantEntries (level + 1) beforeMembers (EnumConstant.texts (level + 1) cs)
  | [], _, _ => by
    simp only [EnumConstant.texts, constantEntries]
    exact .ite (Moves.plain).entry .empty
  | [⟨name, args, span⟩], hnames, h => by
    rw [EnumConstant.visitsList, namesInLine_append] at h
    have hconstant := EnumConstant.moves_constant ⟨name, args, span⟩
      (hnames _ List.mem_cons_self) h.1
    simp only [EnumConstant.texts, constantEntries]
    exact (hconstant.append (.ite .plain .empty)).entry
  | ⟨name, args, span⟩ :: ⟨name', args', span'⟩ :: cs, hnames, h => by
    rw [EnumConstant.visitsList, namesInLine_append] at h
    obtain ⟨hname, hnames⟩ := List.forall_mem_cons.mp hnames
    have hconstant := EnumConstant.moves_constant ⟨name, args, span⟩ hname h.1
    have hrest := EnumConstant.moves_entries beforeMembers (⟨name', args', span'⟩ :: cs) hnames h.2
    simp only [EnumConstant.texts, constantEntries] at hrest ⊢
    exact hconstant.write.entry.append hrest

theorem TypeDecl.moves_core : ∀ (d : TypeDecl) {site : TypeSite}, NamesInLine (d.visits site) →
    Moves false false fun level => d.core level
  | .classDecl head members, _, h => by
    have hhead := ClassHead.oneLine_text h
    simp only [TypeDecl.visits, namesInLine_cons, namesInLine_append] at h
    obtain ⟨-, ⟨-, hmembers⟩, -⟩ := h
    simp only [TypeDecl.core]
    exact (Moves.plain hhead).write.append (Member.moves_entries members hmembers).braced
  | .interfaceDecl head members, _, h => by
    have hhead := InterfaceHead.oneLine_text h
    simp only [TypeDecl.visits, namesInLine_cons, namesInLine_append] at h
    obtain ⟨-, ⟨-, hmembers⟩, -⟩ := h
    simp only [TypeDecl.core]
    exact (Moves.plain hhead).write.append (Member.moves_entries members hmembers).braced
  | .enumDecl head constants members, _, h => by
    have hhead := EnumHead.oneLine_text h
    simp only [TypeDecl.visits, namesInLine_cons, namesInLine_append, Visit.names,
      List.forall_mem_cons, List.forall_mem_map] at h
    obtain ⟨⟨-, hnames⟩, ⟨⟨-, hconstants⟩, hmembers⟩, -⟩ := h
    simp only [TypeDecl.core]
    exact (Moves.plain hhead).write.append
      (((EnumConstant.moves_entries _ constants hnames hconstants).append
        (.ite .empty .lineEnd)).append (Member.moves_entries members hmembers)).braced

end

theorem TypeDecl.beginsInLine_core (d : TypeDecl) {site : TypeSite}
    (h : NamesInLine (d.visits site)) (level : Nat) : BeginsInLine (d.core level) := by
  cases d with
  | classDecl head members =>
    have hhead := (ClassHead.oneLine_text h).beginsInLine (by simp [ClassHead.text])
    simp only [TypeDecl.core]
    exact (hhead.append _).append _
  | interfaceDecl head members =>
    have hhead := (InterfaceHead.oneLine_text h).beginsInLine (by simp [InterfaceHead.text])
    simp only [TypeDecl.core]
    exact (hhead.append _).append _
  | enumDecl head constants members =>
    have hhead := (EnumHead.oneLine_text h).beginsInLine (by simp [EnumHead.text])
    simp only [TypeDecl.core]
    exact (hhead.append _).append _

/-- A member begins with something to be seen, so its first line is not empty. -/
theorem Member.beginsInLine_core {m : Member} (h : NamesInLine m.visits) (level : Nat) :
    BeginsInLine (m.core level) := by
  cases m with
  | field head init =>
    have hhead := (FieldHead.oneLine_text h).beginsInLine (by simp [FieldHead.text])
    simp only [Member.core]
    exact (hhead.append _).append _
  | method m =>
    obtain ⟨head, body⟩ := m
    have hhead := (MethodHead.oneLine_text h).beginsInLine (by simp [MethodHead.text])
    simp only [Member.core]
    exact hhead.append _
  | constructorDecl head body =>
    have hhead := (ConstructorHead.oneLine_text h).beginsInLine
      (by simp [ConstructorHead.text, parametersText])
    simp only [Member.core]
    exact (hhead.append _).append _
  | initializer isStatic body span =>
    obtain ⟨stmts, bodySpan⟩ := body
    have hstart : BeginsInLine ((if isStatic then "static " else "") ++ "\x7b\n") := by
      cases isStatic with
      | true => exact ⟨'s', _, rfl, by decide⟩
      | false => exact ⟨'\x7b', _, rfl, by decide⟩
    simp only [Member.core, Block.text, braced, ← String.append_assoc]
    exact ((hstart.append _).append _).append _
  | typeDecl decl =>
    simp only [Member.visits, namesInLine_cons] at h
    exact decl.beginsInLine_core h.2 level

theorem Member.moves_text {m : Member} (h : NamesInLine m.visits) :
    Moves true true fun level => m.text level :=
  ((m.moves_core h).margin (Member.beginsInLine_core h)).append .lineEnd

/-- Wherever a member is printed, its text is the text printed at the outermost level with
`4 * level` blanks in front of each line that is not empty, and the level is the same afterwards. -/
theorem Member.printed_alike_at_all_levels {m : Member} (h : ∀ name ∈ m.names, '\n' ∉ name.toList)
    (level : Nat) (before : String) :
    (m.printOn {}).text = m.text 0 ∧
      m.text level = Text.indentLines (4 * level) (m.text 0) ∧
      m.printOn { level, text := before } =
        { level, text := before ++ Text.indentLines (4 * level) (m.text 0) } := by
  have hmoves := Member.moves_text (List.forall_mem_flatMap.mp h)
  have htext : m.text level = Text.indentLines (4 * level) (m.text 0) := by
    apply String.toList_inj.mp
    rw [Text.toList_indentLines, hmoves.shift_eq, Nat.zero_add]
  refine ⟨?_, htext, ?_⟩
  · simp [Member.printOn_eq]
  · rw [Member.printOn_eq, htext]

/-- An enumeration with an anonymous class in the argument of a constant, and a method in which an
`else if` goes on from a branch without braces. -/
def layeredEnum : Member :=
  .typeDecl (.enumDecl { id := 0, name := "E" }
    [{ name := "A"
       args := [.newAnonymous { name := "Object" } [] { id := 1, name := "" }
         [.field { type := { name := "int" }, name := "x" } none] {}]
       span := {} }]
    [.method
      { head := { name := "f" }
        body := some
          { stmts := [.ifElse (.ident { name := "a" }) .empty
              (some (.ifElse (.ident { name := "b" }) (.returns none {}) none {})) {}]
            span := {} } }])

theorem layeredEnum_printed_alike :
    (∀ name ∈ layeredEnum.names, '\n' ∉ name.toList) ∧
      layeredEnum.text 2 = Text.indentLines 8 (layeredEnum.text 0) ∧
      (layeredEnum.printOn { level := 2, text := "class C \x7b\n" }).level = 2 := by
  have hnames : ∀ name ∈ layeredEnum.names, '\n' ∉ name.toList := by decide +kernel
  obtain ⟨_, htext, hsheet⟩ :=
    Member.printed_alike_at_all_levels hnames 2 "class C \x7b\n"
  exact ⟨hnames, htext, by rw [hsheet]⟩

end FactoryLowering
