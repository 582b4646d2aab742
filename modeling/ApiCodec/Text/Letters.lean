import ApiCodec.Text.Tables

set_option autoImplicit false

namespace ApiCodec.Text

namespace Tables

def inRanges (ranges : List (Nat × Nat)) (code : Nat) : Bool :=
  ranges.any fun (first, last) => first ≤ code && code ≤ last

def Run.has (run : Run) (code : Nat) : Bool :=
  run.first ≤ code && code ≤ run.last && (code - run.first) % run.stride == 0

def ShiftRun.has (run : ShiftRun) (code : Nat) : Bool :=
  run.first ≤ code && code ≤ run.last && (code - run.first) % run.stride == 0

/-- The image of a character under a case map; a character outside the map is its own image. -/
def image (long : List (Nat × List Nat)) (runs : List ShiftRun) (c : Char) : List Char :=
  match long.lookup c.toNat with
  | some codes => codes.map Char.ofNat
  | none =>
      match runs.find? (·.has c.toNat) with
      | some run => [Char.ofNat (c.toNat + run.shift).toNat]
      | none => [c]

end Tables

/-- Letters in the wide sense and numbers. -/
def isAlphanumeric (c : Char) : Bool :=
  if c.toNat < 128 then c.isAlphanum else Tables.inRanges Tables.alphanumeric c.toNat

def isLowercase (c : Char) : Bool :=
  if c.toNat < 128 then c.isLower else Tables.lowercase.any (·.has c.toNat)

def isUppercase (c : Char) : Bool :=
  if c.toNat < 128 then c.isUpper else Tables.uppercase.any (·.has c.toNat)

/-- Lower-case, upper-case and title-case letters. -/
def isCased (c : Char) : Bool :=
  isLowercase c || isUppercase c ||
    [0x1c5, 0x1c8, 0x1cb, 0x1f2, 0x1fbc, 0x1fcc, 0x1ffc].contains c.toNat ||
    Tables.inRanges [(0x1f88, 0x1f8f), (0x1f98, 0x1f9f), (0x1fa8, 0x1faf)] c.toNat

/-- Characters that case rules look through. -/
def isCaseIgnorable (c : Char) : Bool :=
  Tables.inRanges Tables.caseIgnorable c.toNat

/-- The lower-case form of one character, away from any context. -/
def lowerChar (c : Char) : List Char :=
  if c.toNat < 128 then [c.toLower] else Tables.image Tables.toLowerLong Tables.toLower c

def upperChar (c : Char) : List Char :=
  if c.toNat < 128 then [c.toUpper] else Tables.image Tables.toUpperLong Tables.toUpper c

/-- Whether the nearest character that case rules do not look through is cased. -/
def nextIsCased (chars : List Char) : Bool :=
  match chars.dropWhile isCaseIgnorable with
  | [] => false
  | c :: _ => isCased c

/-- Lower-cases a text whose characters before it are given in reverse. A capital sigma at the
end of a word becomes a final sigma. -/
def lowerFrom (before : List Char) : List Char → List Char
  | [] => []
  | c :: rest =>
      let image :=
        if c.toNat = 0x3a3 then
          if nextIsCased before && !nextIsCased rest then [Char.ofNat 0x3c2] else [Char.ofNat 0x3c3]
        else lowerChar c
      image ++ lowerFrom (c :: before) rest

def lower (text : String) : String :=
  String.ofList (lowerFrom [] text.toList)

def upper (text : String) : String :=
  String.ofList (text.toList.flatMap upperChar)

/-- Whether two strings agree up to the case of ASCII letters. -/
def equalIgnoringAsciiCase (a b : String) : Bool :=
  a.toList.map Char.toLower == b.toList.map Char.toLower

/-- Whether a message shows a character by its code point. -/
def isHidden (c : Char) : Bool := Tables.inRanges Tables.hidden c.toNat

/-- A character as it stands between the quotes. -/
def visibleChar (c : Char) : List Char :=
  if c = '"' then ['\\', '"']
  else if c = '\\' then ['\\', '\\']
  else if c = '\n' then ['\\', 'n']
  else if c = '\r' then ['\\', 'r']
  else if c = '\t' then ['\\', 't']
  else if c.toNat = 0 then ['\\', '0']
  else if isHidden c then
    ['\\', 'u', '\x7b'] ++ Nat.toDigits 16 c.toNat ++ ['\x7d']
  else [c]

def quoted (text : String) : String :=
  String.ofList ('"' :: text.toList.flatMap visibleChar ++ ['"'])

end ApiCodec.Text
