import FactoryLowering.MethodPattern
import Mathlib.Data.List.TakeDrop

/-! # Reading method patterns back

Identifiers hold no blanks and no dots, so the text of a pattern can be taken apart at its blank and
at its ending. Settings that are valid therefore give a pattern.
-/
namespace FactoryLowering

namespace Text

def blankCodes : List Nat :=
  [0x9, 0xA, 0xB, 0xC, 0xD, 0x20, 0x85, 0xA0, 0x1680, 0x2000, 0x2001, 0x2002, 0x2003, 0x2004,
    0x2005, 0x2006, 0x2007, 0x2008, 0x2009, 0x200A, 0x2028, 0x2029, 0x202F, 0x205F, 0x3000]

theorem toNat_mem_blankCodes {c : Char} (h : isBlank c = true) : c.toNat ∈ blankCodes := by
  obtain ⟨r, hr, hin⟩ := exists_run_of_inTable h
  simp only [blankRuns, List.mem_cons, List.not_mem_nil, or_false] at hr
  rcases hr with rfl | rfl | rfl | rfl | rfl | rfl | rfl | rfl | rfl | rfl <;>
    simp only [CodeRange.holds, Bool.and_eq_true, decide_eq_true_eq] at hin <;>
    simp only [blankCodes, List.mem_cons, List.not_mem_nil, or_false] <;>
    omega

theorem blankCodes_not_in_tables : ∀ n ∈ blankCodes,
    inTable alphabeticRuns n = false ∧ inTable numericRuns n = false ∧ n ≠ '_'.toNat ∧
      n ≠ '$'.toNat := by
  decide +kernel

theorem isIdentifierPart_of_isIdentifierStart {c : Char} (h : isIdentifierStart c = true) :
    isIdentifierPart c = true := by
  simp only [isIdentifierStart, isIdentifierPart, Bool.or_eq_true] at h ⊢
  rcases h with (h | h) | h <;> simp [h]

theorem isBlank_of_isIdentifierPart {c : Char} (h : isIdentifierPart c = true) :
    isBlank c = false := by
  cases hblank : isBlank c with
  | false => rfl
  | true =>
    obtain ⟨halpha, hnum, hunder, hdollar⟩ :=
      blankCodes_not_in_tables c.toNat (toNat_mem_blankCodes hblank)
    simp only [isIdentifierPart, isAlphabetic, isNumeric, halpha, hnum, Bool.or_eq_true, beq_iff_eq,
      Bool.false_eq_true, false_or] at h
    rcases h with rfl | rfl
    · exact absurd rfl hunder
    · exact absurd rfl hdollar

theorem isIdentifierPart_of_mem {cs : List Char} {c : Char} (h : isIdentifier cs = true)
    (hc : c ∈ cs) : isIdentifierPart c = true := by
  cases cs with
  | nil => cases hc
  | cons first rest =>
    simp only [isIdentifier, Bool.and_eq_true, List.all_eq_true] at h
    rcases List.mem_cons.mp hc with rfl | hc
    · exact isIdentifierPart_of_isIdentifierStart h.1
    · exact h.2 c hc

theorem isIdentifierPart_or_dot {cs : List Char} {c : Char} (h : isDottedName cs = true)
    (hc : c ∈ cs) : isIdentifierPart c = true ∨ c = '.' := by
  rw [← joinSegments_segments cs] at hc
  simp only [isDottedName, Bool.and_eq_true, List.all_eq_true] at h
  simp only [joinSegments, List.mem_append, List.mem_flatMap, List.mem_cons] at hc
  rcases hc with hc | ⟨segment, hs, rfl | hc⟩
  · exact .inl (isIdentifierPart_of_mem h.1 hc)
  · exact .inr rfl
  · exact .inl (isIdentifierPart_of_mem (h.2 segment hs) hc)

theorem isBlank_of_mem_dottedName {cs : List Char} {c : Char} (h : isDottedName cs = true)
    (hc : c ∈ cs) : isBlank c = false := by
  rcases isIdentifierPart_or_dot h hc with hpart | rfl
  · exact isBlank_of_isIdentifierPart hpart
  · decide

theorem ne_nil_of_isIdentifier {cs : List Char} (h : isIdentifier cs = true) : cs ≠ [] := by
  rintro rfl
  cases h

theorem exists_head_of_isDottedName {cs : List Char} (h : isDottedName cs = true) :
    ∃ c rest, cs = c :: rest ∧ isIdentifierPart c = true := by
  simp only [isDottedName, Bool.and_eq_true] at h
  obtain ⟨c, first, hfirst⟩ := List.exists_cons_of_ne_nil (ne_nil_of_isIdentifier h.1)
  have hpart := isIdentifierPart_of_mem h.1 (by rw [hfirst]; exact List.mem_cons_self)
  have hjoin := joinSegments_segments cs
  rw [hfirst] at hjoin
  exact ⟨c, _, hjoin.symm, hpart⟩

theorem trim_padded {before after : List Char} {first last : Char}
    (hbefore : ∀ c ∈ before, isBlank c = true) (hfirst : isBlank first = false)
    (mid : List Char) (hlast : isBlank last = false) (hafter : ∀ c ∈ after, isBlank c = true) :
    trim (before ++ first :: (mid ++ last :: after)) = first :: (mid ++ [last]) := by
  have hafter' : ∀ c ∈ after.reverse, isBlank c = true := by
    intro c hc
    exact hafter c (List.mem_reverse.mp hc)
  rw [trim, List.dropWhile_append_of_pos hbefore,
    List.dropWhile_cons_of_neg (by rw [hfirst]; exact Bool.false_ne_true)]
  have hreverse : (first :: (mid ++ last :: after)).reverse =
      after.reverse ++ last :: (mid.reverse ++ [first]) := by simp
  rw [hreverse, List.dropWhile_append_of_pos hafter',
    List.dropWhile_cons_of_neg (by rw [hlast]; exact Bool.false_ne_true)]
  simp

end Text

def Call.ownerParams (c : Call) : List JavaType :=
  match c.method with
  | some { owner := .reference _ params, .. } => params
  | _ => []

namespace MethodPattern

theorem method_of_isMatch {pattern : MethodPattern} {c : Call}
    (h : pattern.isMatch c = true) :
    c.method = some { owner := .reference pattern.owner c.ownerParams, name := pattern.name } := by
  obtain ⟨id, receiver, name, args, method, span⟩ := c
  unfold MethodPattern.isMatch at h
  split at h
  · next fqn params name hmethod =>
    simp only [Bool.and_eq_true, beq_iff_eq] at h
    obtain ⟨rfl, rfl⟩ := h
    simp only at hmethod
    simp [hmethod, Call.ownerParams]
  · cases h

theorem stripEnding?_append (ending cs : List Char) :
    stripEnding? ending (cs ++ ending) = some cs := by
  have hsuffix : ending.isSuffixOf (cs ++ ending) = true :=
    List.isSuffixOf_iff_suffix.mpr (List.suffix_append cs ending)
  simp [stripEnding?, hsuffix]

/-- Blanks may stand before the owner, before the name and at the end. -/
theorem read?_padded {before owner between name after : List Char}
    (hbefore : ∀ c ∈ before, Text.isBlank c = true) (howner : Text.isDottedName owner = true)
    (hbetween : ∀ c ∈ between, Text.isBlank c = true) (hname : Text.isIdentifier name = true)
    (hafter : ∀ c ∈ after, Text.isBlank c = true) :
    read? (before ++ (owner ++ ' ' :: (between ++ (name ++ ("(..)".toList ++ after))))) =
      some { owner := String.ofList owner, name := String.ofList name } := by
  obtain ⟨o, owner', rfl, ho⟩ := Text.exists_head_of_isDottedName howner
  obtain ⟨n, name', rfl⟩ := List.exists_cons_of_ne_nil (Text.ne_nil_of_isIdentifier hname)
  have hn := Text.isIdentifierPart_of_mem hname List.mem_cons_self
  have hclosing : Text.isBlank ')' = false := by decide
  have hwhole : Text.trim (before ++ ((o :: owner') ++ ' ' :: (between ++ ((n :: name') ++
      ("(..)".toList ++ after))))) =
      (o :: owner') ++ ' ' :: (between ++ ((n :: name') ++ "(..)".toList)) := by
    have htrim := Text.trim_padded hbefore (Text.isBlank_of_isIdentifierPart ho)
      (owner' ++ ' ' :: (between ++ ((n :: name') ++ "(..".toList))) hclosing hafter
    simpa using htrim
  have hsignature : Text.trim (between ++ ((n :: name') ++ "(..)".toList)) =
      (n :: name') ++ "(..)".toList := by
    have htrim := Text.trim_padded hbetween (Text.isBlank_of_isIdentifierPart hn)
      (name' ++ "(..".toList) hclosing (List.forall_mem_nil _)
    simpa using htrim
  have hnoblank : ∀ c ∈ o :: owner', (decide (c ≠ ' ')) = true := by
    intro c hc
    have hblank := Text.isBlank_of_mem_dottedName howner hc
    rw [decide_eq_true_eq]
    rintro rfl
    exact absurd hblank (by decide)
  have hspan : ((o :: owner') ++ ' ' :: (between ++ ((n :: name') ++ "(..)".toList))).span
      (· ≠ ' ') = (o :: owner', ' ' :: (between ++ ((n :: name') ++ "(..)".toList))) := by
    rw [List.span_eq_takeWhile_dropWhile, List.takeWhile_append_of_pos hnoblank,
      List.dropWhile_append_of_pos hnoblank]
    simp
  simp only [read?, hwhole, hspan, hsignature, stripEnding?_append, howner, hname, Bool.and_self,
    if_true]

theorem parse_text {p : MethodPattern} (howner : Text.isDottedName p.owner.toList = true)
    (hname : Text.isIdentifier p.name.toList = true) : parse p.text = .ok p := by
  have hnone : ∀ c ∈ ([] : List Char), Text.isBlank c = true := List.forall_mem_nil _
  have htext : p.text.toList =
      [] ++ (p.owner.toList ++ ' ' :: ([] ++ (p.name.toList ++ ("(..)".toList ++ [])))) := by
    simp [text]
  rw [parse, htext, read?_padded hnone howner hnone hname hnone]
  simp

end MethodPattern

end FactoryLowering
