/-! Texts: joined with separators, quoted as literals, and taken apart at dots. -/
namespace FactoryLowering.Text

def separated (sep : String) : List String → String
  | [] => ""
  | [t] => t
  | t :: ts => t ++ sep ++ separated sep ts

/-! Quoted literals: backslash, line feed, tab, carriage return and the surrounding quote are
escaped, and every other character stands for itself. -/

def escape (quote c : Char) : List Char :=
  if c = '\\' then ['\\', '\\']
  else if c = '\n' then ['\\', 'n']
  else if c = '\t' then ['\\', 't']
  else if c = '\r' then ['\\', 'r']
  else if c = quote then ['\\', c]
  else [c]

def quoted (quote : Char) (cs : List Char) : List Char :=
  quote :: cs.flatMap (escape quote) ++ [quote]

def quotedString (value : String) : String :=
  String.ofList (quoted '\x22' value.toList)

def quotedChar (value : Char) : String :=
  String.ofList (quoted '\x27' [value])

/-! Dotted names such as `java.util.List`, taken apart at every dot or at the last one.
Segments may be empty, so every text is a dotted name and can be put together again. -/

/-- The text before the first dot, and the texts after each dot. -/
def segments : List Char → List Char × List (List Char)
  | [] => ([], [])
  | c :: cs =>
    match segments cs with
    | (first, rest) => if c = '.' then ([], first :: rest) else (c :: first, rest)

def joinSegments (first : List Char) (rest : List (List Char)) : List Char :=
  first ++ rest.flatMap ('.' :: ·)

theorem joinSegments_segments (cs : List Char) :
    joinSegments (segments cs).1 (segments cs).2 = cs := by
  induction cs with
  | nil => rfl
  | cons c cs ih =>
    simp only [segments]
    split
    · next dot => subst dot; simpa [joinSegments] using ih
    · simpa [joinSegments] using ih

/-- What stands before and after the last dot, if there is a dot. -/
def splitLast? : List Char → Option (List Char × List Char)
  | [] => none
  | c :: cs =>
    match splitLast? cs with
    | some (before, after) => some (c :: before, after)
    | none => if c = '.' then some ([], cs) else none

/-- The last segment: `List` of `java.util.List`, and `List` of `List`. -/
def simpleName (name : String) : String :=
  match splitLast? name.toList with
  | some (_, after) => String.ofList after
  | none => name

/-- All before the last segment: `java.util` of `java.util.List`, and nothing of `List`. -/
def packageName (name : String) : String :=
  match splitLast? name.toList with
  | some (before, _) => String.ofList before
  | none => ""

/-- A name inside a package or type; the unnamed package adds nothing. -/
def qualify (outer name : String) : String :=
  if outer.isEmpty then name else outer ++ "." ++ name

end FactoryLowering.Text
