import FactoryLowering.Proofs.MethodPattern
import FactoryLowering.Proofs.Tree.Site
import FactoryLowering.Tree.Builder

/-! # Names that expressions spell

The chain made from a dotted name spells that name and holds no call, and a chain whose names have
no dots is the chain made from what it spells. Rewriting calls and types changes neither what an
expression spells nor where it stands in the source.
-/
namespace FactoryLowering

namespace Text

theorem exists_splitLast?_of_mem {cs : List Char} (h : '.' ∈ cs) :
    ∃ before after, splitLast? cs = some (before, after) := by
  induction cs with
  | nil => cases h
  | cons c cs ih =>
    by_cases hlater : '.' ∈ cs
    · obtain ⟨before, after, heq⟩ := ih hlater
      exact ⟨c :: before, after, by simp [splitLast?, heq]⟩
    · obtain rfl : '.' = c := (List.mem_cons.mp h).resolve_right hlater
      cases heq : splitLast? cs with
      | some split => exact ⟨'.' :: split.1, split.2, by simp [splitLast?, heq]⟩
      | none => exact ⟨[], cs, by simp [splitLast?, heq]⟩

theorem eq_append_of_splitLast? {cs before after : List Char}
    (h : splitLast? cs = some (before, after)) : cs = before ++ '.' :: after := by
  induction cs generalizing before with
  | nil => cases h
  | cons c cs ih =>
    rw [splitLast?] at h
    split at h
    · next hlater =>
      cases h
      rw [ih hlater, List.cons_append]
    · split at h
      · next hdot =>
        cases h
        rw [hdot, List.nil_append]
      · cases h

theorem packageName_eq_of_append {name outer : String}
    (h : name = outer ++ "." ++ simpleName name) : packageName name = outer := by
  have hchars : name.toList = outer.toList ++ '.' :: (simpleName name).toList := by
    simpa using congrArg String.toList h
  rw [simpleName] at hchars
  rw [packageName]
  cases hsplit : splitLast? name.toList with
  | none =>
    rw [hsplit] at hchars
    have hlength := congrArg List.length hchars
    simp only [List.length_append, List.length_cons] at hlength
    omega
  | some split =>
    obtain ⟨before, after⟩ := split
    rw [hsplit, eq_append_of_splitLast? hsplit] at hchars
    have hbefore : before = outer.toList := by simpa using hchars
    simp [hbefore]

theorem exists_segment_of_isQualifiedName {cs : List Char} (h : isQualifiedName cs = true) :
    ∃ init last, (segments cs).2 = init ++ [last] := by
  simp only [isQualifiedName, Bool.and_eq_true, Bool.not_eq_true', List.isEmpty_eq_false_iff] at h
  exact ⟨_, _, (List.dropLast_concat_getLast h.2).symm⟩

theorem segments_append {cs : List Char} (h : '.' ∉ cs) (ds : List Char) :
    segments (cs ++ ds) = (cs ++ (segments ds).1, (segments ds).2) := by
  induction cs with
  | nil => rfl
  | cons c cs ih =>
    obtain ⟨hc, hcs⟩ := not_or.mp (mt List.mem_cons.mpr h)
    simp only [List.cons_append, segments, ih hcs, if_neg (Ne.symm hc)]

theorem exists_last_segment {cs : List Char} (h : '.' ∈ cs) :
    ∃ outer segment, cs = outer ++ '.' :: segment ∧ '.' ∉ segment := by
  obtain ⟨segment, outer, hcs, hsegment⟩ := List.eq_append_cons_of_mem (List.mem_reverse.mpr h)
  refine ⟨outer.reverse, segment.reverse, ?_, fun hdot => hsegment (List.mem_reverse.mp hdot)⟩
  have hreversed := congrArg List.reverse hcs
  simpa using hreversed

theorem segments_append_dot {segment : List Char} (h : '.' ∉ segment) (cs : List Char) :
    segments (cs ++ '.' :: segment) = ((segments cs).1, (segments cs).2 ++ [segment]) := by
  induction cs with
  | nil =>
    have hlast : segments segment = (segment, []) := by simpa [segments] using segments_append h []
    simp [segments, hlast]
  | cons c cs ih =>
    by_cases hc : c = '.'
    · simp [segments, ih, hc]
    · simp [segments, ih, hc]

theorem packageName_ne_empty {name : String} (h : isQualifiedName name.toList = true) :
    packageName name ≠ "" := by
  have hdotted : isDottedName name.toList = true := by
    simp only [isQualifiedName, Bool.and_eq_true] at h
    exact h.1
  obtain ⟨c, rest, hcs, hpart⟩ := exists_head_of_isDottedName hdotted
  have hdot : '.' ∈ rest := by
    obtain ⟨init, last, hseg⟩ := exists_segment_of_isQualifiedName h
    have hmem : '.' ∈ name.toList := by
      rw [← joinSegments_segments name.toList, hseg]
      simp [joinSegments]
    rw [hcs] at hmem
    refine (List.mem_cons.mp hmem).resolve_left ?_
    rintro rfl
    exact absurd hpart (by decide +kernel)
  obtain ⟨before, after, hsplit⟩ := exists_splitLast?_of_mem hdot
  have hname : splitLast? name.toList = some (c :: before, after) := by
    rw [hcs]
    simp [splitLast?, hsplit]
  intro hempty
  simp only [packageName, hname] at hempty
  have hlist := congrArg String.toList hempty
  simp at hlist

end Text

namespace Expr

theorem qualifiedName?_chain {e : Expr} {name : String} (rest : List (List Char))
    (he : e.qualifiedName? = some name) :
    (rest.foldl (fun target segment => .field target (String.ofList segment) {}) e).qualifiedName? =
      some (name ++ String.ofList (rest.flatMap ('.' :: ·))) := by
  induction rest generalizing e name with
  | nil => simpa using he
  | cons segment rest ih =>
    have hstep : (Expr.field e (String.ofList segment) {}).qualifiedName? =
        some (name ++ "." ++ String.ofList segment) := by
      simp [qualifiedName?, he]
    rw [List.foldl_cons, ih hstep]
    congr 1
    apply String.toList_inj.mp
    simp

theorem qualified_eq (name : String) : qualified name =
    (Text.segments name.toList).2.foldl
      (fun target segment => .field target (String.ofList segment) {})
      (ofName (String.ofList (Text.segments name.toList).1)) := rfl

theorem qualifiedName?_qualified (name : String) : (qualified name).qualifiedName? = some name := by
  have hjoin := Text.joinSegments_segments name.toList
  have hfirst : (ofName (String.ofList (Text.segments name.toList).1)).qualifiedName? =
      some (String.ofList (Text.segments name.toList).1) := rfl
  rw [qualified_eq, qualifiedName?_chain _ hfirst, ← String.ofList_append, ← Text.joinSegments,
    hjoin, String.ofList_toList]

theorem qualifiedName?_qualifiedAt (name : String) (span : Span) :
    (qualifiedAt name span).qualifiedName? = some name := by
  have hspells := qualifiedName?_qualified name
  unfold qualifiedAt
  split
  · next target segment span' heq =>
    rw [heq] at hspells
    exact hspells
  · exact hspells

/-- The chain of a qualified name ends with a field access, and only there the span shows. -/
theorem exists_qualified_eq {name : String} (h : Text.isQualifiedName name.toList = true)
    (span : Span) : ∃ outer segment, qualified name = .field outer segment {} ∧
      qualifiedAt name span = .field outer segment span := by
  obtain ⟨init, last, hseg⟩ := Text.exists_segment_of_isQualifiedName h
  unfold qualifiedAt
  rw [qualified_eq, hseg, List.foldl_append, List.foldl_cons, List.foldl_nil]
  exact ⟨_, _, rfl, rfl⟩

theorem exists_field_of_isQualifiedName {name : String}
    (h : Text.isQualifiedName name.toList = true) (span : Span) :
    ∃ target segment, qualifiedAt name span = .field target segment span := by
  obtain ⟨outer, segment, _, hat⟩ := exists_qualified_eq h span
  exact ⟨outer, segment, hat⟩

theorem spellsOut_qualifiedAt {name : String} (h : Text.isQualifiedName name.toList = true)
    (span : Span) : (qualifiedAt name span).spellsOut name = true := by
  have hspells := qualifiedName?_qualifiedAt name span
  obtain ⟨target, segment, heq⟩ := exists_field_of_isQualifiedName h span
  rw [heq] at hspells ⊢
  rw [spellsOut, hspells]
  simp

theorem span_qualifiedAt {name : String} (h : Text.isQualifiedName name.toList = true)
    (span : Span) : (qualifiedAt name span).span = span := by
  obtain ⟨target, segment, heq⟩ := exists_field_of_isQualifiedName h span
  rw [heq, Expr.span]

theorem qualifiedName?_of_spellsOut {e : Expr} {fqn : String} (h : e.spellsOut fqn = true) :
    e.qualifiedName? = some fqn := by
  cases e with
  | field target name span => simpa [spellsOut] using h
  | _ => cases h

theorem callsOf_of_qualifiedName? : ∀ {e : Expr} {name : String},
    e.qualifiedName? = some name → callsOf e.visits = []
  | .ident name, _, _ => by
    rw [Expr.visits]
    rfl
  | .field target name span, _, h => by
    simp only [qualifiedName?, Option.map_eq_some_iff] at h
    obtain ⟨outer, houter, _⟩ := h
    rw [Expr.visits]
    exact callsOf_of_qualifiedName? houter

variable {r : Rewriting} {p q : Path}

theorem Becomes.spelling_eq : ∀ {e e' : Expr}, e.Becomes r p q e' →
    e'.qualifiedName? = e.qualifiedName? ∧ ∀ fqn, e'.spellsOut fqn = e.spellsOut fqn
  | .field target name span, _, h => by
    rw [Expr.Becomes] at h
    obtain ⟨target', ht, rfl⟩ := h
    have hspells : (Expr.field target' name span).qualifiedName? =
        (Expr.field target name span).qualifiedName? := by
      rw [qualifiedName?, qualifiedName?, ht.spelling_eq.1]
    exact ⟨hspells, fun fqn => by rw [spellsOut, spellsOut, hspells]⟩
  | .literal .., _, h | .ident .., _, h => by
    rw [Expr.Becomes] at h
    rw [h]
    exact ⟨rfl, fun _ => rfl⟩
  | .binary .., _, h | .assign .., _, h | .newAnonymous .., _, h => by
    rw [Expr.Becomes] at h
    obtain ⟨_, _, _, _, rfl⟩ := h
    exact ⟨rfl, fun _ => rfl⟩
  | .call ⟨_, _, _, _, _, _⟩, _, h => by
    rw [Expr.Becomes] at h
    obtain ⟨_, _, _, _, _, _, rfl⟩ := h
    exact ⟨rfl, fun _ => rfl⟩
  | .cast .., _, h | .new .., _, h | .paren .., _, h => by
    rw [Expr.Becomes] at h
    obtain ⟨_, _, rfl⟩ := h
    exact ⟨rfl, fun _ => rfl⟩
  | .conditional .., _, h => by
    rw [Expr.Becomes] at h
    obtain ⟨_, _, _, _, _, _, rfl⟩ := h
    exact ⟨rfl, fun _ => rfl⟩

theorem BecomesOption.any_spellsOut {e e' : Option Expr} (h : BecomesOption r p q e e')
    (fqn : String) : e'.any (·.spellsOut fqn) = e.any (·.spellsOut fqn) := by
  cases e with
  | none =>
    rw [Expr.BecomesOption] at h
    rw [h]
  | some e =>
    rw [Expr.BecomesOption] at h
    obtain ⟨e', he, rfl⟩ := h
    exact he.spelling_eq.2 fqn

theorem Becomes.span_eq (keeps : ∀ {p q c c' new}, r.call p q c c' new → new.span = c'.span) :
    ∀ {e e' : Expr}, e.Becomes r p q e' → e'.span = e.span
  | .literal .., _, h | .ident .., _, h => by
    rw [Expr.Becomes] at h
    rw [h]
  | .binary .., _, h | .assign .., _, h | .newAnonymous .., _, h => by
    rw [Expr.Becomes] at h
    obtain ⟨_, _, _, _, rfl⟩ := h
    rfl
  | .call ⟨_, _, _, _, _, _⟩, _, h => by
    rw [Expr.Becomes] at h
    obtain ⟨_, _, _, _, _, hc, rfl⟩ := h
    have hspan := keeps hc
    exact hspan
  | .field .., _, h | .cast .., _, h | .new .., _, h => by
    rw [Expr.Becomes] at h
    obtain ⟨_, _, rfl⟩ := h
    rfl
  | .conditional .., _, h => by
    rw [Expr.Becomes] at h
    obtain ⟨_, _, _, _, _, _, rfl⟩ := h
    rfl
  | .paren inner, _, h => by
    rw [Expr.Becomes] at h
    obtain ⟨_, hi, rfl⟩ := h
    rw [Expr.span, Expr.span, hi.span_eq keeps]

theorem BecomesOption.map_span
    (keeps : ∀ {p q c c' new}, r.call p q c c' new → new.span = c'.span) {e e' : Option Expr}
    (h : BecomesOption r p q e e') : e'.map (·.span) = e.map (·.span) := by
  cases e with
  | none =>
    rw [Expr.BecomesOption] at h
    rw [h]
  | some e =>
    rw [Expr.BecomesOption] at h
    obtain ⟨e', he, rfl⟩ := h
    simp [he.span_eq keeps]

/-! ## Chains and dotted names give each other back -/

def chainNames : Expr → List String
  | .ident i => [i.name]
  | .field target name _ => target.chainNames ++ [name]
  | _ => []

/-- Chains with the same names, whatever their spans and whatever the types of their identifiers. -/
inductive SameChain : Expr → Expr → Prop where
  | ident {i j : Identifier} (h : i.name = j.name) : SameChain (.ident i) (.ident j)
  | field {target target' : Expr} (h : SameChain target target') (name : String)
      (span span' : Span) : SameChain (.field target name span) (.field target' name span')

theorem qualified_of_not_dot_mem {name : String} (h : '.' ∉ name.toList) :
    qualified name = ofName name := by
  have hsegments : Text.segments name.toList = (name.toList, []) := by
    simpa [Text.segments] using Text.segments_append h []
  simp [qualified_eq, hsegments]

theorem qualified_append_dot (outer : String) {segment : String} (h : '.' ∉ segment.toList) :
    qualified (outer ++ "." ++ segment) = .field (qualified outer) segment {} := by
  have hchars : (outer ++ "." ++ segment).toList = outer.toList ++ '.' :: segment.toList := by simp
  have hsegments := Text.segments_append_dot h outer.toList
  rw [qualified_eq, hchars, hsegments, List.foldl_append, ← qualified_eq]
  simp

theorem spellsOut_qualified_iff {name fqn : String} :
    (qualified name).spellsOut fqn = true ↔ name = fqn ∧ '.' ∈ name.toList := by
  have hspells := qualifiedName?_qualified name
  by_cases hdot : '.' ∈ name.toList
  · obtain ⟨outer, segment, hchars, hsegment⟩ := Text.exists_last_segment hdot
    have hname : name = String.ofList outer ++ "." ++ String.ofList segment := by
      apply String.toList_inj.mp
      simpa using hchars
    have hchain : qualified name =
        .field (qualified (String.ofList outer)) (String.ofList segment) {} := by
      rw [hname]
      apply qualified_append_dot
      simpa using hsegment
    rw [hchain] at hspells ⊢
    rw [spellsOut, hspells]
    simp [hdot]
  · simp [qualified_of_not_dot_mem hdot, ofName, spellsOut, hdot]

/-- A chain without dots in its names is the chain of the name it spells. -/
theorem sameChain_qualified : ∀ {e : Expr} {name : String}, e.qualifiedName? = some name →
    (∀ part ∈ e.chainNames, '.' ∉ part.toList) → (qualified name).SameChain e
  | .ident i, _, hspells, hparts => by
    obtain rfl := Option.some.inj hspells
    have hname : '.' ∉ i.name.toList := hparts _ (List.mem_singleton_self _)
    rw [qualified_of_not_dot_mem hname]
    exact .ident rfl
  | .field target segment span, _, hspells, hparts => by
    simp only [qualifiedName?, Option.map_eq_some_iff] at hspells
    obtain ⟨outer, houter, rfl⟩ := hspells
    have hsegment : '.' ∉ segment.toList := hparts _ (by simp [chainNames])
    rw [qualified_append_dot outer hsegment]
    apply SameChain.field
    apply sameChain_qualified houter
    intro part hpart
    exact hparts part (List.mem_append_left _ hpart)

/-- A name is read off its chain, only names with a dot count as spelled out, and a chain whose
names have no dots is the chain of what it spells. Segments may be empty. -/
theorem chains_invert_names (name : String) :
    (qualified name).qualifiedName? = some name ∧
      (∀ fqn, (qualified name).spellsOut fqn = true ↔ name = fqn ∧ '.' ∈ name.toList) ∧
      ∀ e : Expr, e.qualifiedName? = some name → (∀ part ∈ e.chainNames, '.' ∉ part.toList) →
        (qualified name).SameChain e := by
  refine ⟨qualifiedName?_qualified name, ?_, ?_⟩
  · intro fqn
    exact spellsOut_qualified_iff
  · intro e hspells hparts
    exact sameChain_qualified hspells hparts

/-- `.util..List`, with a type on the identifier and a span on a field access. -/
def spacedList : Expr :=
  .field
    (.field
      (.field (.ident { name := "", type := some .unknown }) "util" { start := { line := 2 } })
      "" {})
    "List" {}

theorem chains_invert_names_on_spacedList :
    spacedList.qualifiedName? = some ".util..List" ∧
      (qualified ".util..List").spellsOut ".util..List" = true ∧
      (qualified ".util..List").SameChain spacedList := by
  obtain ⟨_, hspellsOut, hchain⟩ := chains_invert_names ".util..List"
  exact ⟨by decide +kernel, (hspellsOut _).mpr ⟨rfl, by decide⟩,
    hchain _ (by decide +kernel) (by decide +kernel)⟩

end Expr

end FactoryLowering
