import FactoryLowering.CompilationUnit
import FactoryLowering.Proofs.Tree.Rewriting

/-! # Printed text under a rewriting

Identities, spans, resolved types and the methods that calls are bound to are not printed. A
rewriting whose new calls and types read as before, given that their parts do, leaves the text of
every tree as it is.
-/
namespace FactoryLowering

/-- The rules put in nothing that reads differently from the node with rewritten subtrees. -/
structure Rewriting.KeepsText (r : Rewriting) : Prop where
  call : ∀ {p q c c' new}, r.call p q c c' new →
    ∀ level, (Expr.call new).text level = (Expr.call c').text level
  type : ∀ {p q site d d' new}, r.type p q site d d' new →
    ∀ level, new.core level = d'.core level

variable {r : Rewriting} {p q : Path}

theorem Stmt.Becomes.braces_eq : ∀ {s s' : Stmt}, s.Becomes r p q s' →
    s'.isBlock = s.isBlock ∧ s'.isIfElse = s.isIfElse
  | .empty, _, h => by
    rw [Stmt.Becomes] at h
    rw [h]
    exact ⟨rfl, rfl⟩
  | .expression .., _, h | .variables .., _, h | .typeDecl _, _, h | .returns .., _, h
  | .throws .., _, h | .block _, _, h => by
    rw [Stmt.Becomes] at h
    obtain ⟨_, _, rfl⟩ := h
    exact ⟨rfl, rfl⟩
  | .whileLoop .., _, h | .forEach .., _, h => by
    rw [Stmt.Becomes] at h
    obtain ⟨_, _, _, _, rfl⟩ := h
    exact ⟨rfl, rfl⟩
  | .ifElse .., _, h => by
    rw [Stmt.Becomes] at h
    obtain ⟨_, _, _, _, _, _, rfl⟩ := h
    exact ⟨rfl, rfl⟩

theorem isEmpty_eq_of_length_eq {α : Type} {xs ys : List α} (h : ys.length = xs.length) :
    ys.isEmpty = xs.isEmpty := by
  rw [Bool.eq_iff_iff, List.isEmpty_iff_length_eq_zero, List.isEmpty_iff_length_eq_zero, h]

mutual

theorem Expr.Becomes.text_eq (h : r.KeepsText) : ∀ (e : Expr) {p q : Path} {new : Expr},
    e.Becomes r p q new → ∀ level, new.text level = e.text level
  | .literal value span, _, _, _, hb, level => by
    rw [Expr.Becomes] at hb
    rw [hb]
  | .ident name, _, _, _, hb, level => by
    rw [Expr.Becomes] at hb
    rw [hb]
  | .binary op left right span, _, _, _, hb, level => by
    rw [Expr.Becomes] at hb
    obtain ⟨left', right', hl, hr, rfl⟩ := hb
    rw [Expr.text, Expr.text, hl.text_eq h left, hr.text_eq h right]
  | .assign target value span, _, _, _, hb, level => by
    rw [Expr.Becomes] at hb
    obtain ⟨target', value', ht, hv, rfl⟩ := hb
    rw [Expr.text, Expr.text, ht.text_eq h target, hv.text_eq h value]
  | .call ⟨id, receiver, name, args, method, span⟩, _, _, _, hb, level => by
    rw [Expr.Becomes] at hb
    obtain ⟨receiver', args', call', hr, ha, hc, rfl⟩ := hb
    rw [h.call hc level, Expr.text, Expr.text, (hr.texts_eq h receiver level).1,
      ha.texts_eq h args]
  | .field target name span, _, _, _, hb, level => by
    rw [Expr.Becomes] at hb
    obtain ⟨target', ht, rfl⟩ := hb
    rw [Expr.text, Expr.text, ht.text_eq h target]
  | .cast type operand span, _, _, _, hb, level => by
    rw [Expr.Becomes] at hb
    obtain ⟨operand', ho, rfl⟩ := hb
    rw [Expr.text, Expr.text, ho.text_eq h operand]
  | .conditional test yes no span, _, _, _, hb, level => by
    rw [Expr.Becomes] at hb
    obtain ⟨test', yes', no', ht, hy, hn, rfl⟩ := hb
    rw [Expr.text, Expr.text, ht.text_eq h test, hy.text_eq h yes, hn.text_eq h no]
  | .new type args span, _, _, _, hb, level => by
    rw [Expr.Becomes] at hb
    obtain ⟨args', ha, rfl⟩ := hb
    rw [Expr.text, Expr.text, ha.texts_eq h args]
  | .newAnonymous type args head members span, _, _, _, hb, level => by
    rw [Expr.Becomes] at hb
    obtain ⟨args', members', ha, hm, rfl⟩ := hb
    rw [Expr.text, Expr.text, ha.texts_eq h args, hm.entries_eq h members]
  | .paren inner, _, _, _, hb, level => by
    rw [Expr.Becomes] at hb
    obtain ⟨inner', hi, rfl⟩ := hb
    rw [Expr.text, Expr.text, hi.text_eq h inner]
  termination_by structural old => old

theorem Expr.BecomesOption.texts_eq (h : r.KeepsText) : ∀ (e : Option Expr) {p q : Path}
    {new : Option Expr}, Expr.BecomesOption r p q e new → ∀ level,
    Expr.receiverText level new = Expr.receiverText level e ∧
      Expr.initText level new = Expr.initText level e ∧
      Expr.resultText level new = Expr.resultText level e
  | none, _, _, _, hb, level => by
    rw [Expr.BecomesOption] at hb
    rw [hb]
    exact ⟨rfl, rfl, rfl⟩
  | some e, _, _, _, hb, level => by
    rw [Expr.BecomesOption] at hb
    obtain ⟨e', he, rfl⟩ := hb
    have htext := he.text_eq h e level
    refine ⟨?_, ?_, ?_⟩
    · rw [Expr.receiverText, Expr.receiverText, htext]
    · rw [Expr.initText, Expr.initText, htext]
    · rw [Expr.resultText, Expr.resultText, htext]
  termination_by structural old => old

theorem Expr.BecomesList.texts_eq (h : r.KeepsText) : ∀ (es : List Expr) {p q : Path}
    {new : List Expr}, Expr.BecomesList r p q es new →
    ∀ level, Expr.texts level new = Expr.texts level es
  | [], _, _, _, hb, level => by
    rw [Expr.BecomesList] at hb
    rw [hb]
  | e :: es, _, _, _, hb, level => by
    rw [Expr.BecomesList] at hb
    obtain ⟨e', es', he, hes, rfl⟩ := hb
    rw [Expr.texts, Expr.texts, he.text_eq h e, hes.texts_eq h es]
  termination_by structural old => old

theorem Stmt.Becomes.core_eq (h : r.KeepsText) : ∀ (s : Stmt) {p q : Path} {new : Stmt},
    s.Becomes r p q new → ∀ level, new.core level = s.core level
  | .expression value span, _, _, _, hb, level => by
    rw [Stmt.Becomes] at hb
    obtain ⟨value', hv, rfl⟩ := hb
    rw [Stmt.core, Stmt.core, hv.text_eq h value]
  | .variables mods type declared span, _, _, _, hb, level => by
    rw [Stmt.Becomes] at hb
    obtain ⟨declared', hd, rfl⟩ := hb
    rw [Stmt.core, Stmt.core, hd.texts_eq h declared]
  | .typeDecl decl, _, _, _, hb, level => by
    rw [Stmt.Becomes] at hb
    obtain ⟨decl', hd, rfl⟩ := hb
    rw [Stmt.core, Stmt.core, hd.core_eq h decl]
  | .ifElse test yes no span, _, _, _, hb, level => by
    rw [Stmt.Becomes] at hb
    obtain ⟨test', yes', no', ht, hy, hn, rfl⟩ := hb
    rw [Stmt.core, Stmt.core, hy.braces_eq.1, ht.text_eq h test, hy.core_eq h yes,
      hy.core_eq h yes, hn.elseText_eq h no]
  | .whileLoop test body span, _, _, _, hb, level => by
    rw [Stmt.Becomes] at hb
    obtain ⟨test', body', ht, hbody, rfl⟩ := hb
    rw [Stmt.core, Stmt.core, hbody.braces_eq.1, ht.text_eq h test, hbody.core_eq h body,
      hbody.core_eq h body]
  | .forEach type name iterable body span, _, _, _, hb, level => by
    rw [Stmt.Becomes] at hb
    obtain ⟨iterable', body', hi, hbody, rfl⟩ := hb
    rw [Stmt.core, Stmt.core, hbody.braces_eq.1, hi.text_eq h iterable, hbody.core_eq h body,
      hbody.core_eq h body]
  | .returns value span, _, _, _, hb, level => by
    rw [Stmt.Becomes] at hb
    obtain ⟨value', hv, rfl⟩ := hb
    rw [Stmt.core, Stmt.core, (hv.texts_eq h value level).2.2]
  | .throws value span, _, _, _, hb, level => by
    rw [Stmt.Becomes] at hb
    obtain ⟨value', hv, rfl⟩ := hb
    rw [Stmt.core, Stmt.core, hv.text_eq h value]
  | .block body, _, _, _, hb, level => by
    rw [Stmt.Becomes] at hb
    obtain ⟨body', hbody, rfl⟩ := hb
    rw [Stmt.core, Stmt.core, hbody.text_eq h body]
  | .empty, _, _, _, hb, level => by
    rw [Stmt.Becomes] at hb
    rw [hb]
  termination_by structural old => old

theorem Stmt.BecomesOption.elseText_eq (h : r.KeepsText) : ∀ (s : Option Stmt) {p q : Path}
    {new : Option Stmt}, Stmt.BecomesOption r p q s new →
    ∀ level, Stmt.elseText level new = Stmt.elseText level s
  | none, _, _, _, hb, level => by
    rw [Stmt.BecomesOption] at hb
    rw [hb]
  | some s, _, _, _, hb, level => by
    rw [Stmt.BecomesOption] at hb
    obtain ⟨s', hs, rfl⟩ := hb
    rw [Stmt.elseText, Stmt.elseText, hs.braces_eq.1, hs.braces_eq.2, hs.core_eq h s,
      hs.core_eq h s]
  termination_by structural old => old

theorem Stmt.BecomesList.entries_eq (h : r.KeepsText) : ∀ (ss : List Stmt) {p q : Path}
    {new : List Stmt}, Stmt.BecomesList r p q ss new →
    ∀ level, Stmt.entries level new = Stmt.entries level ss
  | [], _, _, _, hb, level => by
    rw [Stmt.BecomesList] at hb
    rw [hb]
  | s :: ss, _, _, _, hb, level => by
    rw [Stmt.BecomesList] at hb
    obtain ⟨s', ss', hs, hss, rfl⟩ := hb
    rw [Stmt.entries, Stmt.entries, hs.core_eq h s, hss.entries_eq h ss]
  termination_by structural old => old

theorem Declarator.BecomesList.texts_eq (h : r.KeepsText) : ∀ (ds : List Declarator) {p q : Path}
    {new : List Declarator}, Declarator.BecomesList r p q ds new →
    ∀ level, Declarator.texts level new = Declarator.texts level ds
  | [], _, _, _, hb, level => by
    rw [Declarator.BecomesList] at hb
    rw [hb]
  | ⟨name, init, span⟩ :: ds, _, _, _, hb, level => by
    rw [Declarator.BecomesList] at hb
    obtain ⟨init', ds', hi, hds, rfl⟩ := hb
    rw [Declarator.texts, Declarator.texts, (hi.texts_eq h init level).2.1, hds.texts_eq h ds]
  termination_by structural old => old

theorem Block.Becomes.text_eq (h : r.KeepsText) : ∀ (b : Block) {p q : Path} {new : Block},
    b.Becomes r p q new → ∀ level, new.text level = b.text level
  | ⟨stmts, span⟩, _, _, _, hb, level => by
    rw [Block.Becomes] at hb
    obtain ⟨stmts', hs, rfl⟩ := hb
    rw [Block.text, Block.text, hs.entries_eq h stmts]
  termination_by structural old => old

theorem Block.BecomesOption.bodyText_eq (h : r.KeepsText) : ∀ (b : Option Block) {p q : Path}
    {new : Option Block}, Block.BecomesOption r p q b new →
    ∀ level, Block.bodyText level new = Block.bodyText level b
  | none, _, _, _, hb, level => by
    rw [Block.BecomesOption] at hb
    rw [hb]
  | some b, _, _, _, hb, level => by
    rw [Block.BecomesOption] at hb
    obtain ⟨b', hbody, rfl⟩ := hb
    rw [Block.bodyText, Block.bodyText, hbody.text_eq h b]
  termination_by structural old => old

theorem Member.Becomes.core_eq (h : r.KeepsText) : ∀ (m : Member) {p q : Path} {new : Member},
    m.Becomes r p q new → ∀ level, new.core level = m.core level
  | .field head init, _, _, _, hb, level => by
    rw [Member.Becomes] at hb
    obtain ⟨init', hi, rfl⟩ := hb
    rw [Member.core, Member.core, (hi.texts_eq h init level).2.1]
  | .method ⟨head, body⟩, _, _, _, hb, level => by
    rw [Member.Becomes] at hb
    obtain ⟨body', hbody, rfl⟩ := hb
    rw [Member.core, Member.core, hbody.bodyText_eq h body]
  | .constructorDecl head body, _, _, _, hb, level => by
    rw [Member.Becomes] at hb
    obtain ⟨body', hbody, rfl⟩ := hb
    rw [Member.core, Member.core, hbody.text_eq h body]
  | .initializer isStatic body span, _, _, _, hb, level => by
    rw [Member.Becomes] at hb
    obtain ⟨body', hbody, rfl⟩ := hb
    rw [Member.core, Member.core, hbody.text_eq h body]
  | .typeDecl decl, _, _, _, hb, level => by
    rw [Member.Becomes] at hb
    obtain ⟨decl', hd, rfl⟩ := hb
    rw [Member.core, Member.core, hd.core_eq h decl]
  termination_by structural old => old

theorem Member.BecomesList.entries_eq (h : r.KeepsText) : ∀ (ms : List Member) {p q : Path}
    {new : List Member}, Member.BecomesList r p q ms new →
    ∀ level, Member.entries level new = Member.entries level ms
  | [], _, _, _, hb, level => by
    rw [Member.BecomesList] at hb
    rw [hb]
  | m :: ms, _, _, _, hb, level => by
    rw [Member.BecomesList] at hb
    obtain ⟨m', ms', hm, hms, rfl⟩ := hb
    rw [Member.entries, Member.entries, hm.core_eq h m, hms.entries_eq h ms]
  termination_by structural old => old

theorem EnumConstant.BecomesList.texts_eq (h : r.KeepsText) : ∀ (cs : List EnumConstant)
    {p q : Path} {new : List EnumConstant}, EnumConstant.BecomesList r p q cs new →
    ∀ level, EnumConstant.texts level new = EnumConstant.texts level cs
  | [], _, _, _, hb, level => by
    rw [EnumConstant.BecomesList] at hb
    rw [hb]
  | ⟨name, args, span⟩ :: cs, _, _, _, hb, level => by
    rw [EnumConstant.BecomesList] at hb
    obtain ⟨args', cs', ha, hcs, rfl⟩ := hb
    rw [EnumConstant.texts, EnumConstant.texts, isEmpty_eq_of_length_eq ha.length_eq,
      ha.texts_eq h args, hcs.texts_eq h cs]
  termination_by structural old => old

theorem TypeDecl.Becomes.core_eq (h : r.KeepsText) : ∀ (d : TypeDecl) {p q : Path}
    {site : TypeSite} {new : TypeDecl}, d.Becomes r p q site new →
    ∀ level, new.core level = d.core level
  | .classDecl head members, _, _, _, _, hb, level => by
    rw [TypeDecl.Becomes] at hb
    obtain ⟨members', hm, htype⟩ := hb
    rw [h.type htype level, TypeDecl.core, TypeDecl.core, hm.entries_eq h members]
  | .interfaceDecl head members, _, _, _, _, hb, level => by
    rw [TypeDecl.Becomes] at hb
    obtain ⟨members', hm, htype⟩ := hb
    rw [h.type htype level, TypeDecl.core, TypeDecl.core, hm.entries_eq h members]
  | .enumDecl head constants members, _, _, _, _, hb, level => by
    rw [TypeDecl.Becomes] at hb
    obtain ⟨constants', members', hc, hm, htype⟩ := hb
    have hempty : members'.isEmpty = members.isEmpty :=
      isEmpty_eq_of_length_eq (Member.becomesList_iff.mp hm).length_eq.symm
    rw [h.type htype level, TypeDecl.core, TypeDecl.core, hempty, hc.texts_eq h constants,
      hm.entries_eq h members]
  termination_by structural old => old

end

theorem TypesBecome.texts_eq (h : r.KeepsText) {ds ds' : List TypeDecl}
    (hb : TypesBecome r ds ds') : ds'.map (·.text 0) = ds.map (·.text 0) := by
  induction ds generalizing ds' with
  | nil =>
    obtain rfl : ds' = [] := hb
    rfl
  | cons d ds ih =>
    obtain ⟨d', rest, hd, hrest, rfl⟩ := hb
    rw [List.map_cons, List.map_cons, ih hrest, TypeDecl.text, TypeDecl.text,
      hd.core_eq h d]

theorem TypesBecome.text_eq (h : r.KeepsText) {u : CompilationUnit} {types : List TypeDecl}
    (hb : TypesBecome r u.types types) : CompilationUnit.text { u with types } = u.text := by
  rw [CompilationUnit.text, CompilationUnit.text, hb.texts_eq h]

end FactoryLowering
