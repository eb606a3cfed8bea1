import FactoryLowering.Tree.Types

/-! # Written types are told apart by their texts

A written type is a name, its arguments in angle brackets and its array dimensions. If names are
free of the characters that the format itself uses, the text of a type ends at a place that can be
seen in the text, and no two types have one text. The proofs are about texts with something behind
them: a type may be followed by a comma, by a closing bracket or by nothing.
-/
namespace FactoryLowering

namespace Text

theorem toList_separated_cons (sep first : String) (rest : List String) :
    (separated sep (first :: rest)).toList =
      first.toList ++ rest.flatMap fun t => sep.toList ++ t.toList := by
  induction rest generalizing first with
  | nil => simp [separated]
  | cons second rest ih =>
    have hsplit : separated sep (first :: second :: rest) =
        first ++ sep ++ separated sep (second :: rest) := rfl
    rw [hsplit]
    simp [ih]

/-- Nothing comes, or one of these characters comes first. -/
def StartsWith (stops rest : List Char) : Prop := ∀ c ∈ rest.head?, c ∈ stops

theorem append_inj_of_stops {stops xs xs' ys ys' : List Char} (hxs : ∀ c ∈ xs, c ∉ stops)
    (hxs' : ∀ c ∈ xs', c ∉ stops) (hys : StartsWith stops ys) (hys' : StartsWith stops ys')
    (h : xs ++ ys = xs' ++ ys') : xs = xs' ∧ ys = ys' := by
  induction xs generalizing xs' with
  | nil =>
    cases xs' with
    | nil => exact ⟨rfl, h⟩
    | cons c' xs' =>
      have hstop : c' ∈ stops := hys c' (by simp [show ys = c' :: (xs' ++ ys') from h])
      exact absurd hstop (hxs' c' List.mem_cons_self)
  | cons c xs ih =>
    cases xs' with
    | nil =>
      have hstop : c ∈ stops := hys' c (by simp [show ys' = c :: (xs ++ ys) from h.symm])
      exact absurd hstop (hxs c List.mem_cons_self)
    | cons c' xs' =>
      obtain ⟨rfl, hrest⟩ := List.cons.inj h
      obtain ⟨hlater, hlater'⟩ := ih (fun d hd => hxs d (List.mem_cons_of_mem _ hd))
        (fun d hd => hxs' d (List.mem_cons_of_mem _ hd)) hrest
      exact ⟨by rw [hlater], hlater'⟩

end Text

mutual
def TypeRef.names : TypeRef → List String
  | ⟨name, args, _, _⟩ => name :: TypeRef.allNames args

def TypeRef.allNames : List TypeRef → List String
  | [] => []
  | t :: ts => t.names ++ TypeRef.allNames ts
end

mutual
def TypeRef.unplaced : TypeRef → TypeRef
  | ⟨name, args, dims, _⟩ => ⟨name, TypeRef.unplacedAll args, dims, {}⟩

def TypeRef.unplacedAll : List TypeRef → List TypeRef
  | [] => []
  | t :: ts => t.unplaced :: TypeRef.unplacedAll ts
end

/-- The characters that the text of a type is put together with. -/
def typePunctuation : List Char := ['<', '>', ',', ' ', '[', ']']

/-- Names without such characters; they may be empty. -/
def PlainNames (names : List String) : Prop :=
  ∀ name ∈ names, ∀ c ∈ name.toList, c ∉ typePunctuation

namespace TypeRef

/-- The arguments of a type from the second one on, with the bracket that closes them. -/
def moreArgsText (ts : List TypeRef) : List Char :=
  ts.flatMap (fun t => ',' :: ' ' :: t.text.toList) ++ ['>']

def argsText : List TypeRef → List Char
  | [] => []
  | t :: ts => '<' :: (t.text.toList ++ moreArgsText ts)

theorem texts_eq_map (ts : List TypeRef) : texts ts = ts.map (·.text) := by
  induction ts with
  | nil => rfl
  | cons t ts ih => rw [texts, ih, List.map_cons]

theorem toList_text (name : String) (args : List TypeRef) (dims : Nat) (span : Span) :
    (TypeRef.mk name args dims span).text.toList =
      name.toList ++ (argsText args ++ (brackets dims).toList) := by
  cases args with
  | nil => simp [text, argsText]
  | cons t ts =>
    simp [text, argsText, moreArgsText, texts, texts_eq_map, Text.toList_separated_cons,
      List.flatMap_map]

theorem toList_brackets_succ (dims : Nat) :
    (brackets (dims + 1)).toList = '[' :: ']' :: (brackets dims).toList := by
  simp [brackets]

theorem startsWith_brackets {rest : List Char} (hrest : Text.StartsWith [',', '>'] rest)
    (dims : Nat) : Text.StartsWith ['[', ',', '>'] ((brackets dims).toList ++ rest) := by
  intro c hc
  cases dims with
  | zero => exact List.mem_cons_of_mem _ (hrest c (by simpa [brackets] using hc))
  | succ dims =>
    rw [toList_brackets_succ] at hc
    obtain rfl := Option.some.inj hc
    exact List.mem_cons_self

theorem brackets_inj {dims dims' : Nat} {rest rest' : List Char}
    (hrest : Text.StartsWith [',', '>'] rest) (hrest' : Text.StartsWith [',', '>'] rest')
    (h : (brackets dims).toList ++ rest = (brackets dims').toList ++ rest') :
    dims = dims' ∧ rest = rest' := by
  have hends : ∀ {cs}, ¬ Text.StartsWith [',', '>'] ('[' :: cs) := by
    intro cs hstart
    exact absurd (hstart '[' rfl) (by decide)
  induction dims generalizing dims' with
  | zero =>
    cases dims' with
    | zero => exact ⟨rfl, by simpa [brackets] using h⟩
    | succ dims' =>
      rw [toList_brackets_succ] at h
      obtain rfl : rest = _ := by simpa [brackets] using h
      exact absurd hrest hends
  | succ dims ih =>
    rw [toList_brackets_succ] at h
    cases dims' with
    | zero =>
      obtain rfl : _ = rest' := by simpa [brackets] using h
      exact absurd hrest' hends
    | succ dims' =>
      rw [toList_brackets_succ] at h
      obtain ⟨hdims, hsame⟩ := @ih dims' (by simpa using h)
      exact ⟨by rw [hdims], hsame⟩

theorem startsWith_moreArgsText (ts : List TypeRef) (rest : List Char) :
    Text.StartsWith [',', '>'] (moreArgsText ts ++ rest) := by
  intro c hc
  cases ts with
  | nil =>
    obtain rfl := Option.some.inj hc
    decide
  | cons t ts =>
    obtain rfl := Option.some.inj hc
    decide

theorem startsWith_argsText {rest : List Char} (hrest : Text.StartsWith ['[', ',', '>'] rest)
    (args : List TypeRef) : Text.StartsWith typePunctuation (argsText args ++ rest) := by
  have hstops : ∀ c ∈ ['[', ',', '>'], c ∈ typePunctuation := by simp [typePunctuation]
  intro c hc
  cases args with
  | nil => exact hstops c (hrest c hc)
  | cons t ts =>
    obtain rfl := Option.some.inj hc
    decide

end TypeRef

theorem PlainNames.of_append {names names' : List String} (h : PlainNames (names ++ names')) :
    PlainNames names ∧ PlainNames names' :=
  ⟨fun name hname => h name (List.mem_append_left _ hname),
    fun name hname => h name (List.mem_append_right _ hname)⟩

mutual

/-- With a comma, a closing bracket or nothing behind it, the text of a type gives the type. -/
theorem TypeRef.text_append_inj : ∀ (t t' : TypeRef) {rest rest' : List Char},
    PlainNames t.names → PlainNames t'.names → Text.StartsWith [',', '>'] rest →
    Text.StartsWith [',', '>'] rest' → t.text.toList ++ rest = t'.text.toList ++ rest' →
    t.unplaced = t'.unplaced ∧ rest = rest'
  | ⟨name, args, dims, span⟩, ⟨name', args', dims', span'⟩, rest, rest', hplain, hplain', hrest,
      hrest', h => by
    rw [TypeRef.toList_text, TypeRef.toList_text] at h
    simp only [List.append_assoc] at h
    have hdims := TypeRef.startsWith_brackets hrest dims
    have hdims' := TypeRef.startsWith_brackets hrest' dims'
    -- Each part ends where the next one can be seen to start: name, arguments, dimensions.
    obtain ⟨hname, h⟩ := Text.append_inj_of_stops (hplain name List.mem_cons_self)
      (hplain' name' List.mem_cons_self) (TypeRef.startsWith_argsText hdims args)
      (TypeRef.startsWith_argsText hdims' args') h
    obtain ⟨hargs, h⟩ := TypeRef.argsText_append_inj args args'
      (fun n hn => hplain n (List.mem_cons_of_mem _ hn))
      (fun n hn => hplain' n (List.mem_cons_of_mem _ hn)) hdims hdims' h
    obtain ⟨rfl, hsame⟩ := TypeRef.brackets_inj hrest hrest' h
    obtain rfl := String.toList_inj.mp hname
    exact ⟨by rw [TypeRef.unplaced, TypeRef.unplaced, hargs], hsame⟩

theorem TypeRef.argsText_append_inj : ∀ (ts ts' : List TypeRef) {rest rest' : List Char},
    PlainNames (TypeRef.allNames ts) → PlainNames (TypeRef.allNames ts') →
    Text.StartsWith ['[', ',', '>'] rest → Text.StartsWith ['[', ',', '>'] rest' →
    TypeRef.argsText ts ++ rest = TypeRef.argsText ts' ++ rest' →
    TypeRef.unplacedAll ts = TypeRef.unplacedAll ts' ∧ rest = rest'
  | [], [], _, _, _, _, _, _, h => ⟨rfl, h⟩
  | [], t' :: ts', _, _, _, _, hrest, _, h => by
    have hopen := hrest '<' (congrArg List.head? h)
    exact absurd hopen (by decide)
  | t :: ts, [], _, _, _, _, _, hrest', h => by
    have hopen := hrest' '<' (congrArg List.head? h.symm)
    exact absurd hopen (by decide)
  | t :: ts, t' :: ts', rest, rest', hplain, hplain', _, _, h => by
    obtain ⟨ht, hts⟩ := PlainNames.of_append hplain
    obtain ⟨ht', hts'⟩ := PlainNames.of_append hplain'
    simp only [TypeRef.argsText, List.cons_append, List.append_assoc, List.cons.injEq,
      true_and] at h
    obtain ⟨hfirst, h⟩ := TypeRef.text_append_inj t t' ht ht'
      (TypeRef.startsWith_moreArgsText ts rest) (TypeRef.startsWith_moreArgsText ts' rest') h
    obtain ⟨hmore, hsame⟩ := TypeRef.moreArgsText_append_inj ts ts' hts hts' h
    exact ⟨by rw [TypeRef.unplacedAll, TypeRef.unplacedAll, hfirst, hmore], hsame⟩

theorem TypeRef.moreArgsText_append_inj : ∀ (ts ts' : List TypeRef) {rest rest' : List Char},
    PlainNames (TypeRef.allNames ts) → PlainNames (TypeRef.allNames ts') →
    TypeRef.moreArgsText ts ++ rest = TypeRef.moreArgsText ts' ++ rest' →
    TypeRef.unplacedAll ts = TypeRef.unplacedAll ts' ∧ rest = rest'
  | [], [], _, _, _, _, h => ⟨rfl, (List.cons.inj h).2⟩
  | [], t' :: ts', _, _, _, _, h => absurd (List.cons.inj h).1 (by decide)
  | t :: ts, [], _, _, _, _, h => absurd (List.cons.inj h).1 (by decide)
  | t :: ts, t' :: ts', rest, rest', hplain, hplain', h => by
    obtain ⟨ht, hts⟩ := PlainNames.of_append hplain
    obtain ⟨ht', hts'⟩ := PlainNames.of_append hplain'
    have h : t.text.toList ++ (TypeRef.moreArgsText ts ++ rest) =
        t'.text.toList ++ (TypeRef.moreArgsText ts' ++ rest') := by
      simpa [TypeRef.moreArgsText] using h
    obtain ⟨hfirst, h⟩ := TypeRef.text_append_inj t t' ht ht'
      (TypeRef.startsWith_moreArgsText ts rest) (TypeRef.startsWith_moreArgsText ts' rest') h
    obtain ⟨hmore, hsame⟩ := TypeRef.moreArgsText_append_inj ts ts' hts hts' h
    exact ⟨by rw [TypeRef.unplacedAll, TypeRef.unplacedAll, hfirst, hmore], hsame⟩

end

mutual

theorem TypeRef.text_unplaced : ∀ t : TypeRef, t.unplaced.text = t.text
  | ⟨name, args, dims, span⟩ => by
    have hempty : (TypeRef.unplacedAll args).isEmpty = args.isEmpty := by cases args <;> rfl
    rw [TypeRef.unplaced, TypeRef.text, TypeRef.text, TypeRef.texts_unplacedAll args, hempty]

theorem TypeRef.texts_unplacedAll : ∀ ts : List TypeRef,
    TypeRef.texts (TypeRef.unplacedAll ts) = TypeRef.texts ts
  | [] => rfl
  | t :: ts => by
    rw [TypeRef.unplacedAll, TypeRef.texts, TypeRef.texts, t.text_unplaced,
      TypeRef.texts_unplacedAll ts]

end

/-- Types with plain names have the same text if and only if they differ in spans at most. -/
theorem TypeRef.text_tells_types_apart {t t' : TypeRef} (h : PlainNames t.names)
    (h' : PlainNames t'.names) : t.text = t'.text ↔ t.unplaced = t'.unplaced := by
  constructor
  · intro htext
    have hstart : Text.StartsWith [',', '>'] [] := by
      intro c hc
      cases hc
    have hchars : t.text.toList ++ [] = t'.text.toList ++ [] := by rw [htext]
    exact (TypeRef.text_append_inj t t' h h' hstart hstart hchars).1
  · intro hsame
    rw [← t.text_unplaced, hsame, t'.text_unplaced]

/-- `Map<, List<String>[]>[]`, with a first argument that has no name. -/
def nestedType (span : Span) : TypeRef where
  name := "Map"
  args :=
    [{ name := "", span }, { name := "List", args := [{ name := "String", span }], dims := 1 }]
  dims := 1

theorem TypeRef.text_tells_nestedTypes_apart :
    PlainNames (nestedType {}).names ∧ (nestedType {}).text = "Map<, List<String>[]>[]" ∧
      (nestedType {}).unplaced = (nestedType { start := { line := 1 } }).unplaced := by
  have hplain : ∀ span, PlainNames (nestedType span).names := by
    intro span
    simp [PlainNames, nestedType, TypeRef.names, TypeRef.allNames, typePunctuation]
  exact ⟨hplain _, by decide +kernel,
    (TypeRef.text_tells_types_apart (hplain _) (hplain _)).mp (by decide +kernel)⟩

end FactoryLowering
