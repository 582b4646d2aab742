import ApiCodec.Yaml.Cursor

set_option autoImplicit false

namespace ApiCodec.Yaml

/-- The way in which a scalar was written. -/
inductive ScalarStyle
  | plain
  | quoted
  | block
  deriving DecidableEq, Repr

/-- Blanks and line breaks between two words of a scalar. -/
structure Gap where
  /-- Blanks on the line of the word before. -/
  blanks : List Char := []
  /-- The first line break. -/
  first : List Char := []
  /-- The line breaks after the first. -/
  later : List Char := []
  /-- Whether a line ended. -/
  broken : Bool := false

/-- What stands for a gap in the scalar: a single line break becomes a blank, of several the first
goes away. -/
def Gap.folded (gap : Gap) : List Char :=
  if gap.broken then
    if gap.first = ['\n'] then if gap.later.isEmpty then [' '] else gap.later
    else gap.first ++ gap.later
  else gap.blanks

/-- Reads blanks and line breaks. A tab that indents a line below `indent` is refused. -/
def readGap (indent : Nat) : Nat → Gap → Cursor → Option (Gap × Cursor)
  | 0, _, _ => none
  | budget + 1, gap, at_ =>
      if at_.atBlank then
        if gap.broken && at_.column < indent && at_.is '\t' then none
        else if gap.broken then readGap indent budget gap at_.next
        else
          readGap indent budget { gap with blanks := gap.blanks ++ at_.rest.take 1 } at_.next
      else if at_.atBreak then
        let (text, after) := at_.nextLine
        if gap.broken then readGap indent budget { gap with later := gap.later ++ text } after
        else readGap indent budget { gap with blanks := [], first := text, broken := true } after
      else some (gap, at_)

def gapFrom (indent : Nat) (gap : Gap) (at_ : Cursor) : Option (Gap × Cursor) :=
  readGap indent (at_.rest.length + 1) gap at_

/-- The character that a letter after a backslash stands for. -/
def escape? (c : Char) : Option Char :=
  match c with
  | '0' => some (Char.ofNat 0)
  | 'a' => some (Char.ofNat 7)
  | 'b' => some (Char.ofNat 8)
  | 't' => some '\t'
  | '\t' => some '\t'
  | 'n' => some '\n'
  | 'v' => some (Char.ofNat 11)
  | 'f' => some (Char.ofNat 12)
  | 'r' => some '\r'
  | 'e' => some (Char.ofNat 27)
  | ' ' => some ' '
  | '"' => some '"'
  | '/' => some '/'
  | '\\' => some '\\'
  | 'N' => some (Char.ofNat 0x85)
  | '_' => some (Char.ofNat 0xa0)
  | 'L' => some (Char.ofNat 0x2028)
  | 'P' => some (Char.ofNat 0x2029)
  | _ => none

/-- How many hexadecimal digits follow a letter after a backslash. -/
def hexWidth? (c : Char) : Option Nat :=
  match c with
  | 'x' => some 2
  | 'u' => some 4
  | 'U' => some 8
  | _ => none

def hexDigit? (c : Char) : Option Nat :=
  if '0' ≤ c && c ≤ '9' then some (c.toNat - 48)
  else if 'a' ≤ c && c ≤ 'f' then some (c.toNat - 87)
  else if 'A' ≤ c && c ≤ 'F' then some (c.toNat - 55)
  else none

/-- The character whose code point is written in hexadecimal. -/
def hexChar? (digits : List Char) : Option Char := do
  let code ← digits.foldlM (fun n c => (hexDigit? c).map (16 * n + ·)) 0
  if (0xd800 ≤ code && code ≤ 0xdfff) || 0x10ffff < code then none else some (Char.ofNat code)

/-- The characters of a quoted scalar up to a blank, a line break or the closing quote. The flag
tells whether an escaped line break ended them. -/
def readQuotedWord (single : Bool) : Nat → Cursor → Option (List Char × Bool × Cursor)
  | 0, _ => none
  | budget + 1, at_ =>
      let more (c : Char) (after : Cursor) : Option (List Char × Bool × Cursor) := do
        let (chars, escapedBreak, after) ← readQuotedWord single budget after
        some (c :: chars, escapedBreak, after)
      if at_.endsWord 0 then some ([], false, at_)
      else
        match at_.rest with
        | [] => some ([], false, at_)
        | c :: rest =>
            if single then
              if c = '\'' then
                if rest.head? = some '\'' then more '\'' at_.next.next
                else some ([], false, at_)
              else more c at_.next
            else if c = '"' then some ([], false, at_)
            else if c = '\\' then
              match rest with
              | [] => none
              | letter :: digits =>
                  if isBreak letter then some ([], true, at_.next)
                  else
                    match hexWidth? letter with
                    | some width =>
                        if digits.length < width then none
                        else do more (← hexChar? (digits.take width)) (at_.skip (2 + width))
                    | none => do more (← escape? letter) at_.next.next
            else more c at_.next

def readQuoted (single : Bool) : Nat → Cursor → Option (List Char × Cursor)
  | 0, _ => none
  | budget + 1, at_ => do
      if at_.atDocumentMark || at_.atEnd then none
      let (word, escapedBreak, afterWord) ← readQuotedWord single (at_.rest.length + 1) at_
      if !escapedBreak && afterWord.is (if single then '\'' else '"') then
        some (word, afterWord.next)
      else
        let start : Gap × Cursor :=
          if escapedBreak then ({ broken := true }, afterWord.nextLine.2) else ({}, afterWord)
        let (gap, afterGap) ← gapFrom 0 start.1 start.2
        let (more, after) ← readQuoted single budget afterGap
        some (word ++ gap.folded ++ more, after)

/-- Whether a character separates the parts of a flow collection. -/
def isFlowIndicator (c : Char) : Bool :=
  c == ',' || c == '[' || c == ']' || c == '\x7b' || c == '\x7d'

/-- The characters of a plain scalar up to a blank, a line break or what ends the scalar. -/
def readPlainWord (inFlow : Bool) : Nat → Cursor → Option (List Char × Cursor)
  | 0, _ => none
  | budget + 1, at_ =>
      if at_.endsWord 0 then some ([], at_)
      else
        match at_.rest with
        | [] => some ([], at_)
        | c :: _ =>
            if inFlow && c == ':' && at_.has 1 (fun d => d == '?' || isFlowIndicator d) then none
            else if (c == ':' && at_.endsWord 1) || (inFlow && isFlowIndicator c) then
              some ([], at_)
            else do
              let (chars, after) ← readPlainWord inFlow budget at_.next
              some (c :: chars, after)

/-- A plain scalar, its lines indented by at least `indent` outside of flow collections. The flag
tells whether a line ended after its last word. -/
def readPlain (inFlow : Bool) (indent : Nat) :
    Nat → Gap → Cursor → Option (List Char × Bool × Cursor)
  | 0, _, _ => none
  | budget + 1, gap, at_ => do
      if at_.atDocumentMark || at_.is '#' then return ([], gap.broken, at_)
      let (word, afterWord) ← readPlainWord inFlow (at_.rest.length + 1) at_
      -- without a word the gap before it stays outside of the scalar
      let joined := if word.isEmpty then [] else gap.folded ++ word
      let open_ : Gap := if word.isEmpty then gap else {}
      if !(afterWord.atBlank || afterWord.atBreak) then return (joined, open_.broken, afterWord)
      let (gap, afterGap) ← gapFrom indent open_ afterWord
      if !inFlow && afterGap.column < indent then return (joined, gap.broken, afterGap)
      let (more, broken, after) ← readPlain inFlow indent budget gap afterGap
      return (joined ++ more, broken, after)

/-- What happens to the line breaks at the end of a block. -/
inductive Chomping
  | strip
  | clip
  | keep

/-- The indicators after the sign of a block: chomping and width of indentation, in any order. -/
def readBlockHeader (at_ : Cursor) : Option (Chomping × Option Nat × Cursor) :=
  let chomping? (at_ : Cursor) : Option Chomping :=
    if at_.is '+' then some .keep else if at_.is '-' then some .strip else none
  let width? (at_ : Cursor) : Option Nat := (at_.peek? 0).bind fun c =>
    if c.isDigit then some (c.toNat - 48) else none
  let refused (width : Option Nat) : Bool := width == some 0
  match chomping? at_ with
  | some chomping =>
      let width := width? at_.next
      if refused width then none
      else some (chomping, width, if width.isSome then at_.next.next else at_.next)
  | none =>
      match width? at_ with
      | some width =>
          if width = 0 then none
          else
            match chomping? at_.next with
            | some chomping => some (chomping, some width, at_.next.next)
            | none => some (.clip, some width, at_.next)
      | none => some (.clip, none, at_)

/-- Steps over blanks and a comment; a line break or the end of the text has to follow. -/
def skipToLineEnd (at_ : Cursor) : Option Cursor :=
  let (_, afterBlanks) := at_.span isBlank
  let (_, after) := if afterBlanks.is '#' then afterBlanks.span fun _ => true else ([], afterBlanks)
  if after.atBreak || after.atEnd then some after else none

/-- Empty lines of a block. Without a known indentation it is that of the widest line. -/
def readBlockBreaks (indent : Option Nat) :
    Nat → Nat → Cursor → Option (List Char × Nat × Cursor)
  | 0, _, _ => none
  | budget + 1, widest, at_ => do
      let inside (column : Nat) : Bool := indent.all (column < ·)
      let spaces := (at_.rest.takeWhile (· == ' ')).length
      let step := match indent with
        | some n => min spaces (n - at_.column)
        | none => spaces
      let at_ := at_.skip step
      let widest := max widest at_.column
      if inside at_.column && at_.is '\t' then none
      if at_.atBreak then
        let (text, after) := at_.nextLine
        let (more, widest, after) ← readBlockBreaks indent budget widest after
        some (text ++ more, widest, after)
      else some ([], widest, at_)

/-- The lines of a block with their indentation known. `first` is the line break before the line
at hand, `later` those after it, `spaced` whether the line before began with a blank. -/
def readBlockLines (literal : Bool) (indent : Nat) :
    Nat → List Char → List Char → Bool → Cursor → Option (List Char × List Char × List Char × Cursor)
  | 0, _, _, _, _ => none
  | budget + 1, first, later, spaced, at_ => do
      if at_.column = indent && !at_.atEnd then
        let blank := at_.atBlank
        let joint :=
          if !literal && first == ['\n'] && !spaced && !blank then
            if later.isEmpty then [' '] else []
          else first
        let (line, afterLine) := at_.span fun _ => true
        let (first', afterBreak) := afterLine.nextLine
        let (later', _, after) ←
          readBlockBreaks (some indent) (afterBreak.rest.length + 1) 0 afterBreak
        let (more, first'', later'', after) ←
          readBlockLines literal indent budget first' later' blank after
        some (joint ++ later ++ line ++ more, first'', later'', after)
      else some ([], first, later, at_)

/-- A block scalar after its sign; `parent` is the indentation it stands in, -1 for none. -/
def readBlock (literal : Bool) (parent : Int) (at_ : Cursor) : Option (List Char × Cursor) := do
  let (chomping, width, afterHeader) ← readBlockHeader at_
  let lineEnd ← skipToLineEnd afterHeader
  let start := lineEnd.nextLine.2
  let known := width.map fun n => (max parent 0).toNat + n
  let (breaks, widest, first) ← readBlockBreaks known (start.rest.length + 1) 0 start
  let indent := known.getD (max widest (max (parent + 1) 1).toNat)
  let (text, last, trailing, after) ←
    readBlockLines literal indent (first.rest.length + 1) [] breaks false first
  let ending := match chomping with
    | .strip => []
    | .clip => last
    | .keep => last ++ trailing
  some (text ++ ending, after)

end ApiCodec.Yaml
