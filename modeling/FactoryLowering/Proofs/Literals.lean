import FactoryLowering.Tree.Printer

/-! # Literals read back

A printed string or character literal is read again by the rules of the language: it goes from its
opening quote to the first quote that no backslash escapes, only some characters may stand behind a
backslash, and no line ends inside. Reading stops where the printed literal stops, whatever follows,
and gives the value that was printed.
-/
namespace FactoryLowering

namespace Text

def unescape? : Char → Option Char
  | '\\' => some '\\'
  | 'n' => some '\n'
  | 't' => some '\t'
  | 'r' => some '\r'
  | '\x22' => some '\x22'
  | '\x27' => some '\x27'
  | _ => none

/-- Reads on behind an opening quote: the value up to the closing quote, and the text after it. -/
def readQuoted? (quote : Char) : List Char → Option (List Char × List Char)
  | [] => none
  | '\\' :: [] => none
  | '\\' :: letter :: cs =>
    (unescape? letter).bind fun c => (readQuoted? quote cs).map (Prod.map (c :: ·) id)
  | c :: cs =>
    if c = quote then some ([], cs)
    else if c = '\n' ∨ c = '\r' then none
    else (readQuoted? quote cs).map (Prod.map (c :: ·) id)

def IsQuote (c : Char) : Prop := c = '\x22' ∨ c = '\x27'

theorem IsQuote.unescape? {quote : Char} (h : IsQuote quote) : unescape? quote = some quote := by
  rcases h with rfl | rfl <;> rfl

theorem readQuoted?_escape {quote : Char} (h : IsQuote quote) (c : Char) (cs : List Char) :
    readQuoted? quote (escape quote c ++ cs) =
      (readQuoted? quote cs).map (Prod.map (c :: ·) id) := by
  unfold escape
  by_cases hslash : c = '\\'
  · simp [hslash, readQuoted?, Text.unescape?]
  by_cases hline : c = '\n'
  · simp [hline, readQuoted?, Text.unescape?]
  by_cases htab : c = '\t'
  · simp [htab, readQuoted?, Text.unescape?]
  by_cases hreturn : c = '\r'
  · simp [hreturn, readQuoted?, Text.unescape?]
  by_cases hquote : c = quote
  · subst hquote
    simp [hslash, hline, htab, hreturn, readQuoted?, h.unescape?]
  · simp [hslash, hline, htab, hreturn, hquote, readQuoted?]

theorem readQuoted?_escaped {quote : Char} (h : IsQuote quote) (value rest : List Char) :
    readQuoted? quote (value.flatMap (escape quote) ++ quote :: rest) = some (value, rest) := by
  induction value with
  | nil =>
    have hslash : quote ≠ '\\' := by rcases h with rfl | rfl <;> decide
    simp [readQuoted?, hslash]
  | cons c value ih =>
    rw [List.flatMap_cons, List.append_assoc, readQuoted?_escape h, ih]
    rfl

theorem not_newline_mem_quoted {quote : Char} (h : IsQuote quote) (cs : List Char) :
    '\n' ∉ quoted quote cs := by
  have hquote : '\n' ≠ quote := by rcases h with rfl | rfl <;> decide
  have hescape : ∀ c, '\n' ∉ escape quote c := by
    intro c
    grind [escape]
  simp [quoted, hquote, hescape]

end Text

namespace Literal

def IsQuoted : Literal → Prop
  | .string _ => True
  | .char _ => True
  | _ => False

/-- Reads a string or character literal at the start of a text; a character literal has exactly one
character between its quotes. -/
def read? : List Char → Option (Literal × List Char)
  | '\x22' :: cs =>
    (Text.readQuoted? '\x22' cs).map fun (value, rest) => (.string (String.ofList value), rest)
  | '\x27' :: cs =>
    match Text.readQuoted? '\x27' cs with
    | some ([c], rest) => some (.char c, rest)
    | _ => none
  | _ => none

theorem read?_string (value : String) (rest : List Char) :
    read? ((Literal.string value).text.toList ++ rest) = some (.string value, rest) := by
  have hread := Text.readQuoted?_escaped (.inl rfl : Text.IsQuote '\x22') value.toList rest
  simp [text, Text.quotedString, Text.quoted, read?, hread]

theorem read?_char (value : Char) (rest : List Char) :
    read? ((Literal.char value).text.toList ++ rest) = some (.char value, rest) := by
  have hread := Text.readQuoted?_escaped (.inr rfl : Text.IsQuote '\x27') [value] rest
  have hone : [value].flatMap (Text.escape '\x27') = Text.escape '\x27' value := by simp
  rw [hone] at hread
  simp [text, Text.quotedChar, Text.quoted, read?, hread]

theorem read?_text {literal : Literal} (h : literal.IsQuoted) (rest : List Char) :
    read? (literal.text.toList ++ rest) = some (literal, rest) := by
  cases literal with
  | string value => exact read?_string value rest
  | char value => exact read?_char value rest
  | integer => exact h.elim
  | boolean => exact h.elim
  | null => exact h.elim

/-- A printed string or character is read back, up to exactly where its literal ends, so no two of
them are printed alike. -/
theorem quoted_literals_read_back :
    (∀ (value : String) (rest : List Char),
      read? ((Literal.string value).text.toList ++ rest) = some (.string value, rest)) ∧
    (∀ (value : Char) (rest : List Char),
      read? ((Literal.char value).text.toList ++ rest) = some (.char value, rest)) ∧
    ∀ a b : Literal, a.IsQuoted → b.IsQuoted → a.text = b.text → a = b := by
  refine ⟨read?_string, read?_char, ?_⟩
  intro a b ha hb htext
  have hreadA := read?_text ha []
  have hreadB := read?_text hb []
  rw [htext, hreadB] at hreadA
  cases hreadA
  rfl

/-- A backslash, both quotes and a line end in a string, in front of more text. -/
theorem quoted_literals_read_back_on_mixedQuotes :
    (Literal.string "\\\x22\x27\n").text = "\x22\\\\\\\x22\x27\\n\x22" ∧
      read? ("\x22\\\\\\\x22\x27\\n\x22".toList ++ [' ', '+', ' ', '\x22']) =
        some (.string "\\\x22\x27\n", [' ', '+', ' ', '\x22']) ∧
      (Literal.string "\x27").text ≠ (Literal.char '\x27').text := by
  have htext : (Literal.string "\\\x22\x27\n").text = "\x22\\\\\\\x22\x27\\n\x22" := by
    decide +kernel
  obtain ⟨hstring, _, hinjective⟩ := quoted_literals_read_back
  refine ⟨htext, ?_, ?_⟩
  · rw [← htext]
    exact hstring _ _
  · intro hsame
    have hequal := hinjective (.string "\x27") (.char '\x27') trivial trivial hsame
    cases hequal

end Literal

end FactoryLowering
