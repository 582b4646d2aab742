import ApiCodec.Yaml.Scalar

set_option autoImplicit false

namespace ApiCodec.Yaml

inductive Token
  | versionDirective (major minor : Nat)
  | tagDirective (handle start : List Char)
  | documentStart
  | documentEnd
  | blockSequenceStart
  | blockMappingStart
  | blockEnd
  | flowSequenceStart
  | flowSequenceEnd
  | flowMappingStart
  | flowMappingEnd
  | blockEntry
  | flowEntry
  | key
  | value
  | starred (name : List Char)
  | anchor (name : List Char)
  | tag (handle suffix : List Char)
  | scalar (text : List Char) (style : ScalarStyle)
  deriving DecidableEq, Repr

/-- A place where a simple key may begin. -/
structure KeyCandidate where
  /-- How many tokens stand before it. -/
  position : Nat
  line : Nat
  column : Nat
  index : Nat
  /-- Nothing but a key can stand here. -/
  required : Bool

/-- The state of reading tokens. -/
structure Lexer where
  cursor : Cursor
  tokens : Array Token := #[]
  /-- The column of the innermost block collection, -1 outside of any. -/
  indent : Int := -1
  outerIndents : List Int := []
  /-- Whether a simple key may begin here. -/
  keyAllowed : Bool := true
  /-- The candidate outside of flow collections, or in the innermost one. -/
  candidate : Option KeyCandidate := none
  /-- The candidates of the collections around it, one for each open flow collection. -/
  outerCandidates : List (Option KeyCandidate) := []

namespace Lexer

def inFlow (lexer : Lexer) : Bool := !lexer.outerCandidates.isEmpty

def emit (lexer : Lexer) (token : Token) : Lexer :=
  { lexer with tokens := lexer.tokens.push token }

def emitAt (lexer : Lexer) (position : Nat) (token : Token) : Lexer :=
  { lexer with
    tokens := lexer.tokens.extract 0 position ++ #[token] ++
      lexer.tokens.extract position lexer.tokens.size }

/-- Gives up the key candidate; one that has to be a key is a fault. -/
def dropCandidate (lexer : Lexer) : Option Lexer :=
  match lexer.candidate with
  | some candidate =>
      if candidate.required then none else some { lexer with candidate := none }
  | none => some lexer

/-- Notes that a simple key may begin here. -/
def noteCandidate (lexer : Lexer) : Option Lexer :=
  if lexer.keyAllowed then do
    let lexer ← lexer.dropCandidate
    let at_ := lexer.cursor
    some
      { lexer with
        candidate := some
          { position := lexer.tokens.size
            line := at_.line
            column := at_.column
            index := at_.index
            required := !lexer.inFlow && lexer.indent == (at_.column : Int) } }
  else some lexer

/-- Forgets the candidates that are on an earlier line or too far back. -/
def forgetStale (lexer : Lexer) : Option Lexer := do
  let stale (candidate : KeyCandidate) : Bool :=
    candidate.line < lexer.cursor.line || candidate.index + 1024 < lexer.cursor.index
  let check (candidate : Option KeyCandidate) : Option (Option KeyCandidate) :=
    match candidate with
    | some c => if stale c then if c.required then none else some none else some (some c)
    | none => some none
  let candidate ← check lexer.candidate
  let outerCandidates ← lexer.outerCandidates.mapM check
  some { lexer with candidate, outerCandidates }

/-- Closes the block collections that are indented more than a column. -/
def closeBlocksFrom (column : Int) : List Int → Int → Array Token → Array Token × Int × List Int
  | outer :: rest, indent, tokens =>
      if column < indent then closeBlocksFrom column rest outer (tokens.push .blockEnd)
      else (tokens, indent, outer :: rest)
  | [], indent, tokens => (tokens, indent, [])

def closeBlocks (lexer : Lexer) (column : Int) : Lexer :=
  if lexer.inFlow then lexer
  else
    let (tokens, indent, outerIndents) :=
      closeBlocksFrom column lexer.outerIndents lexer.indent lexer.tokens
    { lexer with tokens, indent, outerIndents }

/-- Opens a block collection at a column if it is indented more than the one around it. -/
def openBlock (lexer : Lexer) (column : Nat) (position : Nat) (token : Token) : Lexer :=
  if lexer.inFlow then lexer
  else if lexer.indent < column then
    { lexer.emitAt position token with
      indent := column
      outerIndents := lexer.indent :: lexer.outerIndents }
  else lexer

/-- Steps over blanks, comments and line breaks. A tab does not indent a block. -/
def skipToToken : Nat → Lexer → Lexer
  | 0, lexer => lexer
  | budget + 1, lexer =>
      let at_ := lexer.cursor
      let at_ := if at_.column = 0 && at_.has 0 (·.toNat == 0xfeff) then at_.next else at_
      let tabs := lexer.inFlow || !lexer.keyAllowed
      let (_, at_) := at_.span fun c => c == ' ' || (tabs && c == '\t')
      let (_, at_) := if at_.is '#' then at_.span fun _ => true else ([], at_)
      if at_.atBreak then
        skipToToken budget
          { lexer with
            cursor := at_.nextLine.2
            keyAllowed := if lexer.inFlow then lexer.keyAllowed else true }
      else { lexer with cursor := at_ }

/-- The state after an indicator of some characters. -/
def past (lexer : Lexer) (width : Nat) (token : Token) (keyAllowed : Bool) : Lexer :=
  { lexer.emit token with cursor := lexer.cursor.skip width, keyAllowed }

def documentMark (lexer : Lexer) (token : Token) : Option Lexer := do
  let lexer ← (lexer.closeBlocks (-1)).dropCandidate
  some (lexer.past 3 token false)

def openFlow (lexer : Lexer) (token : Token) : Option Lexer := do
  let lexer ← lexer.noteCandidate
  let lexer := lexer.past 1 token true
  some
    { lexer with
      candidate := none
      outerCandidates := lexer.candidate :: lexer.outerCandidates }

def closeFlow (lexer : Lexer) (token : Token) : Option Lexer := do
  let lexer ← lexer.dropCandidate
  let lexer :=
    match lexer.outerCandidates with
    | candidate :: outerCandidates => { lexer with candidate, outerCandidates }
    | [] => lexer
  some (lexer.past 1 token false)

def flowEntry (lexer : Lexer) : Option Lexer := do
  let lexer ← lexer.dropCandidate
  some (lexer.past 1 .flowEntry true)

/-- Opens a block collection for an indicator, which has to stand where a key may. -/
def startBlock (lexer : Lexer) (token : Token) : Option Lexer :=
  if lexer.inFlow then some lexer
  else if lexer.keyAllowed then
    some (lexer.openBlock lexer.cursor.column lexer.tokens.size token)
  else none

def blockEntry (lexer : Lexer) : Option Lexer := do
  let lexer ← lexer.startBlock .blockSequenceStart
  let lexer ← lexer.dropCandidate
  some (lexer.past 1 .blockEntry true)

def explicitKey (lexer : Lexer) : Option Lexer := do
  let lexer ← lexer.startBlock .blockMappingStart
  let lexer ← lexer.dropCandidate
  some (lexer.past 1 .key (!lexer.inFlow))

def value (lexer : Lexer) : Option Lexer := do
  match lexer.candidate with
  | some candidate =>
      let lexer := lexer.emitAt candidate.position .key
      let lexer := lexer.openBlock candidate.column candidate.position .blockMappingStart
      some ({ lexer with candidate := none }.past 1 .value false)
  | none =>
      let lexer ← lexer.startBlock .blockMappingStart
      some (lexer.past 1 .value (!lexer.inFlow))

/-- Characters of a tag, which may also be written as escaped bytes. -/
def isTagChar (wide : Bool) (c : Char) : Bool :=
  isWordChar c || c == ';' || c == '/' || c == '?' || c == ':' || c == '@' || c == '&' ||
    c == '=' || c == '+' || c == '$' || c == '.' || c == '!' || c == '~' || c == '*' ||
    c == '\'' || c == '(' || c == ')' || c == '%' || (wide && (c == ',' || c == '[' || c == ']'))

/-- Reads the bytes that percent signs spell in a tag. -/
def unescapeTag : List Char → Option (List UInt8)
  | [] => some []
  | '%' :: a :: b :: rest => do
      let a ← hexDigit? a
      let b ← hexDigit? b
      let bytes ← unescapeTag rest
      some (UInt8.ofNat (16 * a + b) :: bytes)
  | c :: rest => do
      if c = '%' then none
      let bytes ← unescapeTag rest
      some (UInt8.ofNat c.toNat :: bytes)

def tagText? (chars : List Char) : Option (List Char) := do
  let bytes ← unescapeTag chars
  (String.fromUTF8? ⟨bytes.toArray⟩).map String.toList

/-- The handle of a tag: an exclamation mark, with a word and another mark after it if there are. -/
def readHandle (at_ : Cursor) : Option (List Char × Cursor) :=
  if at_.is '!' then
    let (word, after) := at_.next.span isWordChar
    if after.is '!' then some ('!' :: word ++ ['!'], after.next) else some ('!' :: word, after)
  else none

/-- A tag as handle and suffix. -/
def readTag (at_ : Cursor) : Option (List Char × List Char × Cursor) :=
  if at_.has 1 (· == '<') then do
    let (chars, after) := at_.next.next.span (isTagChar true)
    if chars.isEmpty || !after.is '>' then none
    some ([], ← tagText? chars, after.next)
  else do
    let (handle, afterHandle) ← readHandle at_
    let (chars, after) := afterHandle.span (isTagChar false)
    let suffix ← tagText? chars
    if 1 < handle.length && handle.getLast? = some '!' then
      if chars.isEmpty then none else some (handle, suffix, after)
    else
      let whole := handle.drop 1 ++ suffix
      if whole.isEmpty then some ([], ['!'], after) else some (['!'], whole, after)

def tag (lexer : Lexer) : Option Lexer := do
  let lexer ← lexer.noteCandidate
  let (handle, suffix, after) ← readTag lexer.cursor
  if !(after.endsWord 0 || (lexer.inFlow && after.is ',')) then none
  some { lexer.emit (.tag handle suffix) with cursor := after, keyAllowed := false }

def anchor (lexer : Lexer) (token : List Char → Token) : Option Lexer := do
  let lexer ← lexer.noteCandidate
  let (name, after) := lexer.cursor.next.span isWordChar
  let ends := after.endsWord 0 ||
    after.has 0 fun c =>
      c == '?' || c == ':' || c == ',' || c == ']' || c == '\x7d' || c == '%' || c == '@' ||
        c.toNat == 0x60
  if name.isEmpty || !ends then none
  some { lexer.emit (token name) with cursor := after, keyAllowed := false }

def blockScalar (lexer : Lexer) (literal : Bool) : Option Lexer := do
  let lexer ← lexer.dropCandidate
  let (text, after) ← readBlock literal lexer.indent lexer.cursor.next
  some { lexer.emit (.scalar text .block) with cursor := after, keyAllowed := true }

def quotedScalar (lexer : Lexer) (single : Bool) : Option Lexer := do
  let lexer ← lexer.noteCandidate
  let at_ := lexer.cursor.next
  let (text, after) ← readQuoted single (at_.rest.length + 1) at_
  some { lexer.emit (.scalar text .quoted) with cursor := after, keyAllowed := false }

def plainScalar (lexer : Lexer) : Option Lexer := do
  let lexer ← lexer.noteCandidate
  let at_ := lexer.cursor
  let (text, broken, after) ←
    readPlain lexer.inFlow (lexer.indent + 1).toNat (at_.rest.length + 1) {} at_
  some { lexer.emit (.scalar text .plain) with cursor := after, keyAllowed := broken }

/-- A number of a version, of at most nine digits. -/
def readVersionNumber (at_ : Cursor) : Option (Nat × Cursor) :=
  let (digits, after) := at_.span Char.isDigit
  if digits.isEmpty || 9 < digits.length then none
  else some (digits.foldl (fun n c => 10 * n + (c.toNat - 48)) 0, after)

/-- A directive after its percent sign. -/
def readDirective (at_ : Cursor) : Option (Token × Cursor) := do
  let (name, afterName) := at_.span isWordChar
  if !afterName.endsWord 0 then none
  let (_, at_) := afterName.span isBlank
  if name = ['Y', 'A', 'M', 'L'] then
    let (major, afterMajor) ← readVersionNumber at_
    if !afterMajor.is '.' then none
    let (minor, after) ← readVersionNumber afterMajor.next
    some (.versionDirective major minor, after)
  else if name = ['T', 'A', 'G'] then
    let (handle, afterHandle) ← readHandle at_
    if handle ≠ ['!'] && handle.getLast? ≠ some '!' then none
    if !afterHandle.atBlank then none
    let (chars, after) := (afterHandle.span isBlank).2.span (isTagChar true)
    if chars.isEmpty || !after.endsWord 0 then none
    some (.tagDirective handle (← tagText? chars), after)
  else none

def directive (lexer : Lexer) : Option Lexer := do
  let lexer ← (lexer.closeBlocks (-1)).dropCandidate
  let (token, after) ← readDirective lexer.cursor.next
  let lineEnd ← skipToLineEnd after
  some
    { lexer.emit token with
      cursor := if lineEnd.atBreak then lineEnd.nextLine.2 else lineEnd
      keyAllowed := false }

/-- Characters that begin no plain scalar, unless another rule lets them. -/
def isIndicator (c : Char) : Bool :=
  isFlowIndicator c || c == '-' || c == '?' || c == ':' || c == '#' || c == '&' || c == '*' ||
    c == '!' || c == '|' || c == '>' || c == '\'' || c == '"' || c == '%' || c == '@' ||
    c.toNat == 0x60

def beginsPlain (lexer : Lexer) (c : Char) : Bool :=
  let at_ := lexer.cursor
  !isIndicator c && !isBlank c && !isBreak c ||
    (c == '-' && !at_.has 1 isBlank) ||
    (!lexer.inFlow && (c == '?' || c == ':') && !at_.endsWord 1)

def token (lexer : Lexer) (c : Char) : Option Lexer :=
  let at_ := lexer.cursor
  if at_.column = 0 && c = '%' then lexer.directive
  else if at_.atDocumentMark then
    lexer.documentMark (if c = '-' then .documentStart else .documentEnd)
  else if c = '[' then lexer.openFlow .flowSequenceStart
  else if c = '\x7b' then lexer.openFlow .flowMappingStart
  else if c = ']' then lexer.closeFlow .flowSequenceEnd
  else if c = '\x7d' then lexer.closeFlow .flowMappingEnd
  else if c = ',' then lexer.flowEntry
  else if c = '-' && at_.endsWord 1 then lexer.blockEntry
  else if c = '?' && (lexer.inFlow || at_.endsWord 1) then lexer.explicitKey
  else if c = ':' && (lexer.inFlow || at_.endsWord 1) then lexer.value
  else if c = '*' then lexer.anchor .starred
  else if c = '&' then lexer.anchor .anchor
  else if c = '!' then lexer.tag
  else if c = '|' && !lexer.inFlow then lexer.blockScalar true
  else if c = '>' && !lexer.inFlow then lexer.blockScalar false
  else if c = '\'' then lexer.quotedScalar true
  else if c = '"' then lexer.quotedScalar false
  else if lexer.beginsPlain c then lexer.plainScalar
  else none

/-- Reads tokens to the end of the text. Every token takes at least one character, so a budget of
the text's length is enough. -/
def run : Nat → Lexer → Option (Array Token)
  | 0, _ => none
  | budget + 1, lexer => do
      let lexer := skipToToken (lexer.cursor.rest.length + 1) lexer
      let lexer ← lexer.forgetStale
      let lexer := lexer.closeBlocks lexer.cursor.column
      match lexer.cursor.rest with
      | [] =>
          let lexer ← (lexer.closeBlocks (-1)).dropCandidate
          some lexer.tokens
      | c :: _ => run budget (← lexer.token c)

end Lexer

/-- The text without a byte order mark at its start. -/
def withoutMark (text : List Char) : List Char :=
  match text with
  | c :: rest => if c.toNat = 0xfeff then rest else text
  | [] => []

/-- The tokens of a text; `none` if it holds what is no token. -/
def tokenize (text : List Char) : Option (List Token) :=
  if text.all isAllowed then
    (Lexer.run (text.length + 2) { cursor := { rest := withoutMark text } }).map Array.toList
  else none

end ApiCodec.Yaml
