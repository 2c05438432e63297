namespace ContentQuery.Json

inductive Cause where
  | endInValue
  | endInList
  | endInObject
  | endInString
  | expectedValue
  | expectedWord
  | expectedListEnd
  | expectedObjectEnd
  | expectedColon
  | nameNotString
  | trailingComma
  | trailingCharacters
  | nestingLimit
  | controlCharacter
  | invalidEscape
  | unfinishedSurrogate
  | loneSurrogate
  | invalidNumber
  | numberOutOfRange
  deriving DecidableEq, Repr

def Cause.message : Cause → String
  | .endInValue => "EOF while parsing a value"
  | .endInList => "EOF while parsing a list"
  | .endInObject => "EOF while parsing an object"
  | .endInString => "EOF while parsing a string"
  | .expectedValue => "expected value"
  | .expectedWord => "expected ident"
  | .expectedListEnd => "expected `,` or `]`"
  | .expectedObjectEnd => "expected `,` or `\x7d`"
  | .expectedColon => "expected `:`"
  | .nameNotString => "key must be a string"
  | .trailingComma => "trailing comma"
  | .trailingCharacters => "trailing characters"
  | .nestingLimit => "recursion limit exceeded"
  | .controlCharacter => "control character (\\u0000-\\u001F) found while parsing a string"
  | .invalidEscape => "invalid escape"
  | .unfinishedSurrogate => "unexpected end of hex escape"
  | .loneSurrogate => "lone leading surrogate in hex escape"
  | .invalidNumber => "invalid number"
  | .numberOutOfRange => "number out of range"

def Cause.isEnd : Cause → Bool
  | .endInValue | .endInList | .endInObject | .endInString => true
  | _ => false

/-- A cause, and the number of bytes after the place where it was found. -/
structure Fault where
  cause : Cause
  left : Nat
  deriving DecidableEq, Repr

/-- The number of bytes of a text in UTF-8. -/
def byteCount (cs : List Char) : Nat := (cs.map Char.utf8Size).foldr (· + ·) 0

/-- A fault in front of the text that is left. -/
def faultHere {α : Type} (cause : Cause) (cs : List Char) : Except Fault α :=
  .error ⟨cause, byteCount cs⟩

/-- A fault after the first byte of the text that is left, or at the end. -/
def faultNext {α : Type} (cause : Cause) (cs : List Char) : Except Fault α :=
  .error ⟨cause, byteCount cs - 1⟩

/-- A place in a text: lines count from 1, columns count the bytes since the start of the line. -/
structure Position where
  line : Nat
  column : Nat
  deriving DecidableEq, Repr

/-- The place `n` bytes further on. -/
def Position.advance : Position → Nat → List Char → Position
  | p, _, [] => p
  | p, n, c :: cs =>
      if n < c.utf8Size then { p with column := p.column + n }
      else if c = '\n' then Position.advance ⟨p.line + 1, 0⟩ (n - c.utf8Size) cs
      else Position.advance { p with column := p.column + c.utf8Size } (n - c.utf8Size) cs

def Fault.position (fault : Fault) (text : List Char) : Position :=
  Position.advance ⟨1, 0⟩ (byteCount text - fault.left) text

def located (cause : Cause) (position : Position) : String :=
  cause.message ++ " at line " ++ toString position.line ++ " column " ++ toString position.column

end ContentQuery.Json
