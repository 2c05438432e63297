import ContentQuery.Json.Number
import ContentQuery.Json.Value
import ContentQuery.Text.Basic

/-!
Reading JSON texts. A reader takes a value off the front of a text; a fault says what was wrong and
how much of the text stood after it. Lists of characters, items and members go through one
repetition; the depth of nesting is bounded.
-/

namespace ContentQuery.Json

/-- Takes a value off the front of a text. -/
abbrev Reader (α : Type) := List Char → Except Fault (α × List Char)

/-- White space between the parts of a value. -/
def isSpace (c : Char) : Bool := c = ' ' || c = '\t' || c = '\n' || c = '\r'

def skipSpace (cs : List Char) : List Char := cs.dropWhile isSpace

/-- Repeats a step until it answers nothing, and collects what it read. A step takes at least one
character, so the length of the text bounds their number. -/
def gather {α : Type} (step : Reader (Option α)) : Nat → Reader (List α)
  | 0, cs => faultHere .endInValue cs
  | n + 1, cs => do
      match ← step cs with
      | (none, rest) => return ([], rest)
      | (some a, rest) =>
          let (more, rest) ← gather step n rest
          return (a :: more, rest)

/-- Reads with `step` up to its end. -/
def gatherAll {α : Type} (step : Reader (Option α)) : Reader (List α) :=
  fun cs => gather step (cs.length + 1) cs

/-- The rest of a word whose first letter is read. -/
def readWord {α : Type} (value : α) : List Char → Reader α
  | [], cs => .ok (value, cs)
  | _ :: _, [] => faultHere .endInValue []
  | e :: es, c :: cs =>
      if c = e then readWord value es cs else faultNext .expectedWord (c :: cs)

/-- Four hexadecimal digits. Four bytes are taken before they are looked at. -/
def readHexQuad (cs : List Char) : Except Fault (Nat × List Char) :=
  if byteCount (cs.take 4) < 4 then faultHere .endInString []
  else
    match (cs.take 4).mapM Text.hexValue? with
    | some digits => .ok (digits.foldl (fun n d => n * 16 + d) 0, cs.drop 4)
    | none => .error ⟨.invalidEscape, byteCount cs - 4⟩

def isHighSurrogate (n : Nat) : Bool := 0xD800 ≤ n && n ≤ 0xDBFF

def isLowSurrogate (n : Nat) : Bool := 0xDC00 ≤ n && n ≤ 0xDFFF

def readLowSurrogate (high : Nat) : Reader Char
  | '\\' :: 'u' :: cs => do
      let (low, rest) ← readHexQuad cs
      if isLowSurrogate low then
        return (Char.ofNat (0x10000 + (high - 0xD800) * 0x400 + (low - 0xDC00)), rest)
      else faultHere .loneSurrogate rest
  | [] => faultHere .endInString []
  | ['\\'] => faultHere .endInString []
  | '\\' :: cs => faultNext .unfinishedSurrogate cs
  | cs => faultNext .unfinishedSurrogate cs

/-- A character by its code, or by the codes of a surrogate pair. -/
def readCode (cs : List Char) : Except Fault (Char × List Char) := do
  let (n, rest) ← readHexQuad cs
  if isLowSurrogate n then faultHere .loneSurrogate rest
  else if isHighSurrogate n then readLowSurrogate n rest
  else return (Char.ofNat n, rest)

def escaped? (c : Char) : Option Char :=
  match c with
  | '"' => some '"'
  | '\\' => some '\\'
  | '/' => some '/'
  | 'b' => some '\x08'
  | 'f' => some '\x0c'
  | 'n' => some '\n'
  | 'r' => some '\r'
  | 't' => some '\t'
  | _ => none

def readEscape : Reader Char
  | [] => faultHere .endInString []
  | c :: cs =>
      if c = 'u' then readCode cs
      else
        match escaped? c with
        | some d => .ok (d, cs)
        | none => faultNext .invalidEscape (c :: cs)

def readStringStep : Reader (Option Char)
  | [] => faultHere .endInString []
  | c :: cs =>
      if c = '"' then .ok (none, cs)
      else if c = '\\' then do
        let (d, rest) ← readEscape cs
        return (some d, rest)
      else if c.toNat < 0x20 then faultNext .controlCharacter (c :: cs)
      else .ok (some c, cs)

def readString (cs : List Char) : Except Fault (String × List Char) := do
  let (chars, rest) ← gatherAll readStringStep cs
  return (String.ofList chars, rest)

/-- A comma and the next item of a list, or the end of the list. -/
def readNextItem (item : Reader Json) : Reader (Option Json) := fun cs =>
  match skipSpace cs with
  | [] => faultHere .endInList []
  | ']' :: rest => .ok (none, rest)
  | ',' :: rest =>
      match skipSpace rest with
      | [] => faultHere .endInValue []
      | ']' :: rest => faultNext .trailingComma (']' :: rest)
      | rest => do
          let (value, rest) ← item rest
          return (some value, rest)
  | rest => faultNext .expectedListEnd rest

def readItems (item : Reader Json) : Reader (List Json) := fun cs =>
  match skipSpace cs with
  | [] => faultHere .endInList []
  | ']' :: rest => .ok ([], rest)
  | rest => do
      let (first, rest) ← item rest
      let (more, rest) ← gatherAll (readNextItem item) rest
      return (first :: more, rest)

def readMember (item : Reader Json) : Reader (String × Json)
  | '"' :: rest => do
      let (name, rest) ← readString rest
      match skipSpace rest with
      | [] => faultHere .endInObject []
      | ':' :: rest => do
          let (value, rest) ← item rest
          return ((name, value), rest)
      | rest => faultNext .expectedColon rest
  | rest => faultNext .nameNotString rest

/-- A comma and the next member of an object, or the end of the object. -/
def readNextMember (item : Reader Json) : Reader (Option (String × Json)) := fun cs =>
  match skipSpace cs with
  | [] => faultHere .endInObject []
  | '\x7d' :: rest => .ok (none, rest)
  | ',' :: rest =>
      match skipSpace rest with
      | [] => faultHere .endInValue []
      | '\x7d' :: rest => faultNext .trailingComma ('\x7d' :: rest)
      | rest => do
          let (value, rest) ← readMember item rest
          return (some value, rest)
  | rest => faultNext .expectedObjectEnd rest

def readMembers (item : Reader Json) : Reader (List (String × Json)) := fun cs =>
  match skipSpace cs with
  | [] => faultHere .endInObject []
  | '\x7d' :: rest => .ok ([], rest)
  | rest => do
      let (first, rest) ← readMember item rest
      let (more, rest) ← gatherAll (readNextMember item) rest
      return (first :: more, rest)

/-- A value whose parts are read with `part?`; without it no list or object may be opened. -/
def readWith (part? : Option (Reader Json)) : Reader Json := fun cs =>
  match skipSpace cs with
  | [] => faultHere .endInValue []
  | c :: rest =>
      match c with
      | 'n' => readWord .null ['u', 'l', 'l'] rest
      | 't' => readWord (.bool true) ['r', 'u', 'e'] rest
      | 'f' => readWord (.bool false) ['a', 'l', 's', 'e'] rest
      | '"' => do
          let (value, rest) ← readString rest
          return (.string value, rest)
      | '[' =>
          match part? with
          | none => faultNext .nestingLimit (c :: rest)
          | some part => do
              let (items, rest) ← readItems part rest
              return (.array items, rest)
      | '\x7b' =>
          match part? with
          | none => faultNext .nestingLimit (c :: rest)
          | some part => do
              let (members, rest) ← readMembers part rest
              return (.object members, rest)
      | _ =>
          if c = '-' || c.isDigit then do
            let (lexeme, rest) ← readNumber (c :: rest)
            return (.number lexeme, rest)
          else faultNext .expectedValue (c :: rest)

/-- A value in which lists and objects are nested at most `depth` deep. -/
def readValue : Nat → Reader Json
  | 0 => readWith none
  | depth + 1 => readWith (some (readValue depth))

def maxNesting : Nat := 127

/-- The first value of a text, and the text after it. -/
def read : Reader Json := readValue maxNesting

end ContentQuery.Json
