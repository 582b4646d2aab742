set_option autoImplicit false

namespace ApiCodec.Yaml

/-- Characters that a YAML text may hold. -/
def isAllowed (c : Char) : Bool :=
  let n := c.toNat
  n = 0x09 || n = 0x0a || n = 0x0d || (0x20 ≤ n && n ≤ 0x7e) || n = 0x85 ||
    (0xa0 ≤ n && n ≤ 0xfffd && n ≠ 0xfffe && n ≠ 0xffff) || 0x10000 ≤ n

def isBreak (c : Char) : Bool :=
  c == '\n' || c == '\r' || c.toNat == 0x85 || c.toNat == 0x2028 || c.toNat == 0x2029

def isBlank (c : Char) : Bool := c == ' ' || c == '\t'

/-- Characters of anchors and of tag handles. -/
def isWordChar (c : Char) : Bool := c.isAlphanum || c == '_' || c == '-'

structure Cursor where
  rest : List Char
  line : Nat := 0
  column : Nat := 0
  index : Nat := 0

namespace Cursor

def peek? (at_ : Cursor) (offset : Nat) : Option Char := at_.rest[offset]?

/-- Whether the character at an offset satisfies a test; the end of the text does not. -/
def has (at_ : Cursor) (offset : Nat) (test : Char → Bool) : Bool :=
  match at_.peek? offset with
  | some c => test c
  | none => false

def is (at_ : Cursor) (c : Char) : Bool := at_.has 0 (· == c)

def atEnd (at_ : Cursor) : Bool := at_.rest.isEmpty

def atBlank (at_ : Cursor) : Bool := at_.has 0 isBlank

def atBreak (at_ : Cursor) : Bool := at_.has 0 isBreak

/-- Whether a blank, a line break or the end of the text stands at an offset. -/
def endsWord (at_ : Cursor) (offset : Nat) : Bool :=
  match at_.peek? offset with
  | some c => isBlank c || isBreak c
  | none => true

/-- Steps over one character that is no line break. -/
def next (at_ : Cursor) : Cursor :=
  match at_.rest with
  | [] => at_
  | _ :: rest => { at_ with rest, column := at_.column + 1, index := at_.index + 1 }

/-- Steps over some characters that are no line breaks. -/
def skip : Nat → Cursor → Cursor
  | 0, at_ => at_
  | n + 1, at_ => skip n at_.next

/-- Steps over a line break, and gives the text that stands for it in a scalar. -/
def nextLine (at_ : Cursor) : List Char × Cursor :=
  let moved (width : Nat) (rest : List Char) : Cursor :=
    { rest, line := at_.line + 1, column := 0, index := at_.index + width }
  match at_.rest with
  | '\r' :: '\n' :: rest => (['\n'], moved 2 rest)
  | c :: rest =>
      if c.toNat = 0x2028 ∨ c.toNat = 0x2029 then ([c], moved 1 rest)
      else if isBreak c then (['\n'], moved 1 rest)
      else ([], at_)
  | [] => ([], at_)

/-- Steps over the longest run of characters that satisfy a test, none of them a line break. -/
def span (at_ : Cursor) (test : Char → Bool) : List Char × Cursor :=
  let taken := at_.rest.takeWhile fun c => test c && !isBreak c
  let n := taken.length
  (taken,
    { at_ with
      rest := at_.rest.drop n
      column := at_.column + n
      index := at_.index + n })

/-- Whether the mark of a document's start or end stands here. -/
def atDocumentMark (at_ : Cursor) : Bool :=
  at_.column == 0 &&
    (['-', '-', '-'].isPrefixOf at_.rest || ['.', '.', '.'].isPrefixOf at_.rest) && at_.endsWord 3

end Cursor

end ApiCodec.Yaml
