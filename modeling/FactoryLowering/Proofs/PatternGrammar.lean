import FactoryLowering.Proofs.OwnerChange.Idempotence
import Mathlib.Data.List.TakeWhile

/-! # The language of method patterns

A pattern is written as its owner, one space, its name and `(..)`, with blanks before the owner,
before the name and at the end. The reader accepts these texts and no others, and what it reads is
the only pattern that the text can stand for. Settings are checked elsewhere, with a check of their
own; whatever passes it gives a text of this language.
-/
namespace FactoryLowering

namespace Text

def Blank (text : String) : Prop := ∀ c ∈ text.toList, isBlank c = true

def Dotted (name : String) : Prop :=
  ∃ ids : List String, ids ≠ [] ∧ (∀ id ∈ ids, isIdentifier id.toList = true) ∧
    name = separated "." ids

theorem exists_trim (cs : List Char) : ∃ before after, cs = before ++ (trim cs ++ after) ∧
    (∀ c ∈ before, isBlank c = true) ∧ ∀ c ∈ after, isBlank c = true := by
  refine ⟨cs.takeWhile isBlank, ((cs.dropWhile isBlank).reverse.takeWhile isBlank).reverse, ?_, ?_,
    ?_⟩
  · rw [trim, ← List.reverse_append, List.takeWhile_append_dropWhile, List.reverse_reverse,
      List.takeWhile_append_dropWhile]
  · intro c hc
    exact List.mem_takeWhile_imp hc
  · intro c hc
    exact List.mem_takeWhile_imp (List.mem_reverse.mp hc)

theorem not_dot_mem_of_isIdentifier {cs : List Char} (h : isIdentifier cs = true) : '.' ∉ cs := by
  intro hdot
  have hpart := isIdentifierPart_of_mem h hdot
  exact absurd hpart (by decide +kernel)

theorem segments_joinSegments {first : List Char} {rest : List (List Char)} (hfirst : '.' ∉ first)
    (hrest : ∀ segment ∈ rest, '.' ∉ segment) :
    segments (joinSegments first rest) = (first, rest) := by
  induction rest generalizing first with
  | nil => simpa [joinSegments, segments] using segments_append hfirst []
  | cons segment rest ih =>
    obtain ⟨hsegment, hrest⟩ := List.forall_mem_cons.mp hrest
    have hlater : segments ('.' :: joinSegments segment rest) = ([], segment :: rest) := by
      simp [segments, ih hsegment hrest]
    have hjoin : joinSegments first (segment :: rest) =
        first ++ '.' :: joinSegments segment rest := by
      simp [joinSegments]
    rw [hjoin, segments_append hfirst, hlater, List.append_nil]

theorem toList_separated (first : String) (rest : List String) :
    (separated "." (first :: rest)).toList =
      joinSegments first.toList (rest.map String.toList) := by
  induction rest generalizing first with
  | nil => simp [separated, joinSegments]
  | cons segment rest ih =>
    rw [separated, String.toList_append, String.toList_append, ih]
    · simp [joinSegments]
    · simp

theorem isDottedName_iff {name : String} : isDottedName name.toList = true ↔ Dotted name := by
  rw [isDottedName, Bool.and_eq_true, List.all_eq_true]
  constructor
  · rintro ⟨hfirst, hrest⟩
    refine ⟨String.ofList (segments name.toList).1 ::
      (segments name.toList).2.map String.ofList, List.cons_ne_nil _ _, ?_, ?_⟩
    · intro id hid
      rcases List.mem_cons.mp hid with rfl | hid
      · simpa using hfirst
      · obtain ⟨segment, hsegment, rfl⟩ := List.mem_map.mp hid
        simpa using hrest segment hsegment
    · apply String.toList_inj.mp
      rw [toList_separated, List.map_map]
      simpa [Function.comp_def] using (joinSegments_segments name.toList).symm
  · rintro ⟨ids, hne, hids, rfl⟩
    obtain ⟨first, rest, rfl⟩ := List.exists_cons_of_ne_nil hne
    obtain ⟨hfirst, hrest⟩ := List.forall_mem_cons.mp hids
    have hrest' : ∀ segment ∈ rest.map String.toList, isIdentifier segment = true := by
      intro segment hsegment
      obtain ⟨id, hid, rfl⟩ := List.mem_map.mp hsegment
      exact hrest id hid
    have hparts := segments_joinSegments (not_dot_mem_of_isIdentifier hfirst)
      fun segment hsegment => not_dot_mem_of_isIdentifier (hrest' segment hsegment)
    rw [toList_separated, hparts]
    exact ⟨hfirst, hrest'⟩

end Text

namespace MethodPattern

structure WellFormed (p : MethodPattern) : Prop where
  owner : Text.Dotted p.owner
  name : Text.isIdentifier p.name.toList = true

/-- The texts that a pattern may be written as. -/
structure WrittenAs (p : MethodPattern) (text : String) : Prop where
  wellFormed : p.WellFormed
  spelling : ∃ before between after, Text.Blank before ∧ Text.Blank between ∧ Text.Blank after ∧
    text = before ++ p.owner ++ " " ++ between ++ p.name ++ "(..)" ++ after

theorem eq_append_of_stripEnding? {ending cs before : List Char}
    (h : stripEnding? ending cs = some before) : cs = before ++ ending := by
  unfold stripEnding? at h
  split at h
  · next hsuffix =>
    obtain ⟨front, rfl⟩ := List.isSuffixOf_iff_suffix.mp hsuffix
    have hfront : front = before := by simpa using h
    rw [hfront]
  · cases h

theorem eq_append_of_span {cs owner signature : List Char} {c : Char}
    (h : cs.span (· ≠ ' ') = (owner, c :: signature)) : cs = owner ++ ' ' :: signature := by
  rw [List.span_eq_takeWhile_dropWhile, Prod.mk.injEq] at h
  obtain ⟨howner, hrest⟩ := h
  have hspace : c = ' ' := by
    have hstop := List.head?_dropWhile_not (· ≠ ' ') cs
    rw [hrest] at hstop
    simpa using hstop
  rw [← hspace, ← howner, ← hrest, List.takeWhile_append_dropWhile]

theorem writtenAs_of_read? {text : String} {p : MethodPattern} (h : read? text.toList = some p) :
    p.WrittenAs text := by
  obtain ⟨before, after, htext, hbefore, hafter⟩ := Text.exists_trim text.toList
  unfold read? at h
  split at h
  · cases h
  · next owner c signature hspan =>
    split at h
    · cases h
    · next name hname =>
      split at h
      · next hcheck =>
        cases h
        rw [Bool.and_eq_true] at hcheck
        obtain ⟨between, final, hsignature, hbetween, hfinal⟩ := Text.exists_trim signature
        refine ⟨⟨?_, ?_⟩, String.ofList before, String.ofList between,
          String.ofList (final ++ after), ?_, ?_, ?_, ?_⟩
        · exact Text.isDottedName_iff.mp (by simpa using hcheck.1)
        · simpa using hcheck.2
        · simpa [Text.Blank] using hbefore
        · simpa [Text.Blank] using hbetween
        · simpa [Text.Blank, or_imp, forall_and] using ⟨hfinal, hafter⟩
        · apply String.toList_inj.mp
          rw [htext, eq_append_of_span hspan, hsignature, eq_append_of_stripEnding? hname]
          simp
      · cases h

theorem WrittenAs.read? {text : String} {p : MethodPattern} (h : p.WrittenAs text) :
    MethodPattern.read? text.toList = some p := by
  obtain ⟨⟨howner, hname⟩, before, between, after, hbefore, hbetween, hafter, rfl⟩ := h
  have hread := read?_padded hbefore (Text.isDottedName_iff.mpr howner) hbetween hname hafter
  simpa using hread

theorem parse_eq_ok_iff {text : String} {p : MethodPattern} :
    parse text = .ok p ↔ p.WrittenAs text := by
  unfold parse
  constructor
  · intro h
    split at h
    · next q hread =>
      cases h
      exact writtenAs_of_read? hread
    · cases h
  · intro h
    rw [h.read?]

theorem parse_eq_error_iff {text : String} {e : Error} :
    parse text = .error e ↔ e = .invalidPattern text ∧ ∀ p : MethodPattern, ¬ p.WrittenAs text := by
  constructor
  · intro h
    refine ⟨?_, ?_⟩
    · unfold parse at h
      split at h
      · cases h
      · cases h
        rfl
    · intro p hp
      rw [parse_eq_ok_iff.mpr hp] at h
      cases h
  · rintro ⟨rfl, hnone⟩
    unfold parse
    split
    · next p hread => exact absurd (writtenAs_of_read? hread) (hnone p)
    · rfl

theorem WrittenAs.unique {text : String} {p q : MethodPattern} (hp : p.WrittenAs text)
    (hq : q.WrittenAs text) : p = q :=
  Option.some.inj (hp.read?.symm.trans hq.read?)

theorem WellFormed.writtenAs_text {p : MethodPattern} (h : p.WellFormed) : p.WrittenAs p.text := by
  have hblank : Text.Blank "" := by simp [Text.Blank]
  refine ⟨h, "", "", "", hblank, hblank, hblank, ?_⟩
  simp [text]

end MethodPattern

namespace Config

theorem validate_cases (config : Config) :
    config.validate = .ok () ∨ ∃ fault, config.validate = .error (.config fault) := by
  unfold validate
  by_cases horigin : Text.isQualifiedName config.origin.toList = true
  · by_cases htarget : Text.isQualifiedName config.target.toList = true
    · by_cases hmethod : Text.isIdentifier config.method.toList = true
      · by_cases hsame : config.origin = config.target
        · right
          exact ⟨.sameOwner config.origin, by simp only [htarget, hmethod, hsame]; rfl⟩
        · left
          simp only [horigin, htarget, hmethod, hsame]
          rfl
      · right
        exact ⟨.methodNotIdentifier config.method, by simp only [horigin, htarget, hmethod]; rfl⟩
    · right
      exact ⟨.targetNotQualified config.target, by simp only [horigin, htarget]; rfl⟩
  · right
    exact ⟨.originNotQualified config.origin, by simp only [horigin]; rfl⟩

/-- What can come of settings: the change they describe, or a fault of the settings themselves. -/
structure BuildsChange (config : Config) : Prop where
  built : ∀ change, OwnerChange.ofConfig config = .ok change ↔ config.validate = .ok () ∧
    change = { pattern := { owner := config.origin, name := config.method }
               origin := config.origin
               target := config.target
               changeKey := config.changeKey }
  refused : ∀ e, OwnerChange.ofConfig config = .error e ↔ config.validate = .error e
  noPatternFault : ∀ text, OwnerChange.ofConfig config ≠ .error (.invalidPattern text)
  chained : ∀ chain, Chain.ownerChange config = .ok chain ↔
    config.validate = .ok () ∧ chain = config.chain

theorem buildsChange (config : Config) : config.BuildsChange := by
  rcases config.validate_cases with hvalid | ⟨fault, hfault⟩
  · have hbuilt := ofConfig_eq hvalid
    refine ⟨?_, ?_, ?_, ?_⟩
    · intro change
      rw [hbuilt, hvalid]
      constructor
      · intro h
        cases h
        exact ⟨rfl, rfl⟩
      · rintro ⟨_, rfl⟩
        rfl
    · intro e
      rw [hbuilt, hvalid]
      simp
    · intro text
      rw [hbuilt]
      simp
    · intro chain
      rw [Chain.ownerChange_eq hvalid, hvalid, Except.ok.injEq, eq_comm]
      exact (and_iff_right rfl).symm
  · have hrefused : OwnerChange.ofConfig config = .error (.config fault) := by
      unfold OwnerChange.ofConfig
      rw [hfault]
      rfl
    have hunchained : Chain.ownerChange config = .error (.config fault) := by
      rw [Chain.ownerChange, hrefused]
      rfl
    refine ⟨?_, ?_, ?_, ?_⟩
    · intro change
      rw [hrefused, hfault]
      simp
    · intro e
      rw [hrefused, hfault, Except.error.injEq, Except.error.injEq]
    · intro text
      rw [hrefused]
      simp
    · intro chain
      rw [hunchained, hfault]
      simp

theorem validate_of_make {origin method target : String} {config : Config}
    (h : make origin method target = .ok config) : config.validate = .ok () := by
  rcases validate_cases { origin, method, target } with hvalid | ⟨fault, hfault⟩
  · rw [make, hvalid] at h
    cases h
    exact hvalid
  · rw [make, hfault] at h
    cases h

section Lookup

variable {σ α β : Type}

theorem exists_of_bind {x : ExceptT Error (StateM σ) α} {next : α → ExceptT Error (StateM σ) β}
    {s : σ} {b : β} (h : ((x >>= next).run s).1 = .ok b) :
    ∃ a t, ((next a).run t).1 = .ok b := by
  have hrun : (x >>= next).run s = ExceptT.bindCont next (x.run s).1 (x.run s).2 := rfl
  rw [hrun] at h
  cases hx : (x.run s).1 with
  | ok a =>
    rw [hx] at h
    exact ⟨a, _, h⟩
  | error e =>
    rw [hx] at h
    cases h

/-- Settings are valid wherever they are looked up, and whatever looking them up does. -/
theorem validate_of_ofLookup {lookup : String → StateM σ (Option String)} {s : σ} {config : Config}
    (h : ((ofLookup lookup).run s).1 = .ok config) : config.validate = .ok () := by
  unfold ofLookup at h
  obtain ⟨origin, _, h⟩ := exists_of_bind h
  obtain ⟨method, _, h⟩ := exists_of_bind h
  obtain ⟨target, _, h⟩ := exists_of_bind h
  exact validate_of_make h

end Lookup

end Config

structure MethodPattern.ReadsGrammar (text : String) : Prop where
  accepted : ∀ p, MethodPattern.parse text = .ok p ↔ p.WrittenAs text
  unique : ∀ p q : MethodPattern, p.WrittenAs text → q.WrittenAs text → p = q
  /-- The error carries the text as it was, with all of its blanks. -/
  refused : ∀ e, MethodPattern.parse text = .error e ↔
    e = .invalidPattern text ∧ ∀ p : MethodPattern, ¬ p.WrittenAs text

/-- The reader accepts the written patterns and no others, it reads back what is written, and valid
settings always give a pattern and a chain. -/
theorem patterns_follow_grammar :
    (∀ text, MethodPattern.ReadsGrammar text) ∧
    (∀ p : MethodPattern, p.WellFormed → MethodPattern.parse p.text = .ok p) ∧
    (∀ config : Config, config.BuildsChange) ∧
    (∀ (σ : Type) (lookup : String → StateM σ (Option String)) (s : σ) (config : Config),
      ((Config.ofLookup lookup).run s).1 = .ok config →
        Chain.ownerChange config = .ok config.chain) := by
  refine ⟨?_, ?_, Config.buildsChange, ?_⟩
  · intro text
    exact ⟨fun _ => MethodPattern.parse_eq_ok_iff, fun _ _ => MethodPattern.WrittenAs.unique,
      fun _ => MethodPattern.parse_eq_error_iff⟩
  · intro p hp
    exact MethodPattern.parse_eq_ok_iff.mpr hp.writtenAs_text
  · intro σ lookup s config hconfig
    exact Chain.ownerChange_eq (Config.validate_of_ofLookup hconfig)

/-- Settings with blanks around them, found by a lookup that counts how often it is asked. -/
def blankSettings (setting : String) : StateM Nat (Option String) := do
  modify (· + 1)
  return match setting with
    | "BACKPORT_ORIGIN" => some " java.util.List"
    | "BACKPORT_METHOD" => some "of\t"
    | "BACKPORT_TARGET" => some " com.acme.Lists "
    | _ => none

theorem patterns_follow_grammar_on_blankSettings :
    ((Config.ofLookup blankSettings).run 0).1 = .ok Chain.listsConfig ∧
      Chain.ownerChange Chain.listsConfig = .ok Chain.listsConfig.chain ∧
      Chain.listsConfig.change.pattern.WellFormed ∧
      MethodPattern.parse Chain.listsConfig.change.pattern.text =
        .ok Chain.listsConfig.change.pattern := by
  have hread : ((Config.ofLookup blankSettings).run 0).1 = .ok Chain.listsConfig := rfl
  have howner : Text.Dotted Chain.listsConfig.change.pattern.owner :=
    ⟨["java", "util", "List"], by decide, by decide +kernel, by decide +kernel⟩
  have hformed : Chain.listsConfig.change.pattern.WellFormed := ⟨howner, by decide +kernel⟩
  obtain ⟨_, hreadBack, _, hchain⟩ := patterns_follow_grammar
  exact ⟨hread, hchain Nat blankSettings 0 _ hread, hformed, hreadBack _ hformed⟩

end FactoryLowering
