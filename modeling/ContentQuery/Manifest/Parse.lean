import ContentQuery.Json.Reader
import ContentQuery.Manifest.Decode

namespace ContentQuery.Manifest

inductive Fault where
  | malformed (cause : Json.Cause) (position : Json.Position)
  | shape
  deriving DecidableEq, Repr

def Fault.message : Fault → String
  | .malformed cause position => Json.located cause position
  | .shape => "data did not match any variant of untagged enum Manifest"

def malformed (text : List Char) (fault : Json.Fault) : Fault :=
  .malformed fault.cause (fault.position text)

def parseChars (text : List Char) : Except Fault (List ContentType) :=
  match Json.read text with
  | .error fault => .error (malformed text fault)
  | .ok (value, rest) =>
      match decodeManifest value with
      | none => .error .shape
      | some declarations =>
          match Json.skipSpace rest with
          | [] => .ok declarations
          | left => .error (malformed text ⟨.trailingCharacters, Json.byteCount left - 1⟩)

def parse (text : String) : Except Fault (List ContentType) := parseChars text.toList

end ContentQuery.Manifest
