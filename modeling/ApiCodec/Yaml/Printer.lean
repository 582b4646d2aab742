import ApiCodec.Json.Printer
import ApiCodec.Yaml.Reader

set_option autoImplicit false

/-!
Writing YAML. Collections are written in blocks, the items of a sequence at the column of the key
before it. A text is written plain if it reads back as itself, else in single quotes; several lines
become a literal block; characters that cannot be seen need double quotes.
-/

namespace ApiCodec.Yaml

def isPrintable (c : Char) : Bool :=
  let n := c.toNat
  c == '\n' || (0x20 ≤ n && n ≤ 0x7e) ||
    (0xa0 ≤ n && n ≠ 0xfeff && n ≠ 0xfffe && n ≠ 0xffff)

/-- Whether a text ends or is interrupted by white space. -/
def pauses (text : List Char) : Bool :=
  match text with
  | [] => true
  | c :: _ => isBlank c || isBreak c || c == '\x00'

/-- Characters that do not begin a plain scalar. -/
def openers : List Char :=
  ['#', ',', '[', ']', '\x7b', '\x7d', '&', '*', '!', '|', '>', '\'', '"', '%', '@', '\x60']

/-- Whether a plain text would be taken for something else because of its first character. -/
def startsLikeNode (text : List Char) : Bool :=
  ['-', '-', '-'].isPrefixOf text || ['.', '.', '.'].isPrefixOf text ||
    match text with
    | [] => false
    | c :: rest => openers.contains c || (['?', ':', '-'].contains c && pauses rest)

/-- Whether a plain text would be taken for a key or for one with a comment after it. -/
def hasMark : List Char → Bool
  | c :: d :: rest =>
      (d == ':' && pauses rest) || (d == '#' && pauses [c]) || hasMark (d :: rest)
  | _ => false

/-- Whether a character of one kind is followed by one of another. -/
def hasPair (first second : Char → Bool) : List Char → Bool
  | c :: d :: rest => (first c && second d) || hasPair first second (d :: rest)
  | _ => false

/-- Whether a text has a blank before a line break, or characters that cannot be seen. Only double
quotes hold these. -/
def isUneven (text : List Char) : Bool :=
  hasPair (· == ' ') isBreak text || !text.all isPrintable

/-- Whether a text reads back as itself when it is written plain. -/
def mayBePlain (text : List Char) : Bool :=
  !startsLikeNode text && !hasMark text && !isUneven text && !text.any isBreak &&
    text.head? != some ' ' && text.getLast? != some ' '

/-- Hexadecimal digits in capitals, at least as many as a width asks for. -/
def hexText (width n : Nat) : List Char :=
  let digits := (Nat.toDigits 16 n).map Char.toUpper
  List.replicate (width - digits.length) '0' ++ digits

/-- A character between double quotes. -/
def escapeText (c : Char) : List Char :=
  match c with
  | '\x00' => ['\\', '0']
  | '\x07' => ['\\', 'a']
  | '\x08' => ['\\', 'b']
  | '\t' => ['\\', 't']
  | '\n' => ['\\', 'n']
  | '\x0b' => ['\\', 'v']
  | '\x0c' => ['\\', 'f']
  | '\r' => ['\\', 'r']
  | '\x1b' => ['\\', 'e']
  | '"' => ['\\', '"']
  | '\\' => ['\\', '\\']
  | '\x85' => ['\\', 'N']
  | '\u2028' => ['\\', 'L']
  | '\u2029' => ['\\', 'P']
  | c =>
      if isPrintable c then [c]
      else if c.toNat ≤ 0xff then ['\\', 'x'] ++ hexText 2 c.toNat
      else if c.toNat ≤ 0xffff then ['\\', 'u'] ++ hexText 4 c.toNat
      else ['\\', 'U'] ++ hexText 8 c.toNat

def doubleQuoted (text : List Char) : List Char := '"' :: text.flatMap escapeText ++ ['"']

/-- The characters of a text with its lines indented, `write` giving each; lines without characters
stay empty. `atStart` tells whether a line begins here. -/
def indentLines (indent : Nat) (write : Char → List Char) (atStart : Bool) : List Char → List Char
  | [] => []
  | c :: rest =>
      if isBreak c then c :: indentLines indent write true rest
      else
        (if atStart then List.replicate indent ' ' else []) ++ write c ++
          indentLines indent write false rest

/-- A text in single quotes; those in it are written twice. -/
def singleQuoted (indent : Nat) (text : List Char) : List Char :=
  let last := if text.getLast?.any isBreak then List.replicate indent ' ' else []
  '\'' :: indentLines indent (fun c => if c = '\'' then ['\'', '\''] else [c]) false text ++
    last ++ ['\'']

/-- How the header of a block tells the line breaks at its end. -/
def chomping (text : List Char) : List Char :=
  match text.reverse with
  | [] => ['-']
  | [last] => if isBreak last then ['+'] else ['-']
  | last :: before :: _ => if !isBreak last then ['-'] else if isBreak before then ['+'] else []

/-- A text as a literal block. Its header tells the indentation if the text begins with white
space. -/
def literalBlock (indent : Nat) (text : List Char) : List Char :=
  let hint := if text.head?.any fun c => c == ' ' || isBreak c then ['2'] else []
  '|' :: hint ++ chomping text ++ '\n' :: indentLines indent (fun c => [c]) true text

def scalarText (indent : Nat) (text : String) : String :=
  let chars := text.toList
  let quotable := !isUneven chars && !hasPair isBreak (· == ' ') chars
  String.ofList <|
    if chars.contains '\n' then
      if isUneven chars || chars.getLast? == some ' ' then doubleQuoted chars
      else literalBlock indent chars
    else
      let readsAsText : Bool := match Plain.of text with
        | .text => !hasLeadingZero chars
        | _ => false
      if readsAsText && mayBePlain chars then chars
      else if quotable then singleQuoted indent chars
      else doubleQuoted chars

/-- Ends the last line of a text unless it is ended. -/
def endLine (text : String) : String :=
  if text.toList.getLast?.any isBreak then text else text ++ "\n"

def pad (column : Nat) : String := String.ofList (List.replicate column ' ')

/-- A scalar or an empty collection. -/
def inline? (indent : Nat) : Json → Option String
  | .null => some "null"
  | .bool b => some (if b then "true" else "false")
  | .num n => some n.text
  | .str s => some (scalarText indent s)
  | .arr [] => some "[]"
  | .obj [] => some "\x7b\x7d"
  | .arr (_ :: _) => none
  | .obj (_ :: _) => none

mutual

/-- A value as it follows its key, which stands at a column. -/
def valueText (column : Nat) : Json → String
  | .arr (item :: rest) => "\n" ++ pad column ++ itemsText column (item :: rest)
  | .obj (field :: rest) =>
      "\n" ++ pad (column + 2) ++ fieldsText (column + 2) (field :: rest)
  | value => " " ++ (inline? (column + 2) value).getD ""

/-- A value that begins at a column. -/
def nodeText (column : Nat) : Json → String
  | .arr (item :: rest) => itemsText column (item :: rest)
  | .obj (field :: rest) => fieldsText column (field :: rest)
  | value => (inline? column value).getD ""

def itemsText (column : Nat) : List Json → String
  | [] => ""
  | [item] => "- " ++ nodeText (column + 2) item
  | item :: rest =>
      endLine ("- " ++ nodeText (column + 2) item) ++ pad column ++ itemsText column rest

/-- Fields with their keys at a column. Keys are words. -/
def fieldsText (column : Nat) : List (String × Json) → String
  | [] => ""
  | [(key, value)] => key ++ ":" ++ valueText column value
  | (key, value) :: rest =>
      endLine (key ++ ":" ++ valueText column value) ++ pad column ++ fieldsText column rest

end

def print (value : Json) : String := endLine (nodeText 0 value)

end ApiCodec.Yaml
