import ContentQuery.Event
import ContentQuery.Text.Alphanumeric
import ContentQuery.Text.Basic

/-!
Filters for log lines. A filter is a list of directives between commas. A directive has a target, a
part in brackets and a level, of which any may be missing: `target[span]=level`. Of the directives
that are about an event, the most specific one says up to which level it is let through.
-/

namespace ContentQuery.Log

/-- What a directive is about, besides its target. -/
inductive Scope where
  | everything
  | field (name : String)
  /-- Events inside of a span. No event is in one. -/
  | span
  deriving DecidableEq, Repr

/-- Lets events through up to a rank; rank 0 lets none through. A directive is about the targets
that begin with its own. -/
structure Directive where
  target : List Char
  scope : Scope
  rank : Nat
  deriving DecidableEq, Repr

inductive DirectiveFault where
  | form
  | level
  deriving DecidableEq, Repr

def DirectiveFault.message : DirectiveFault → String
  | .form => "invalid filter directive"
  | .level =>
      "error parsing level filter: expected one of \"off\", \"error\", \"warn\", \"info\", " ++
        "\"debug\", \"trace\", or a number 0-5"

def Scope.fieldName : Scope → String
  | .field name => name
  | _ => ""

def fieldNames (event : Event) : List String := "message" :: event.fields.map Prod.fst

def Scope.covers (event : Event) : Scope → Bool
  | .everything => true
  | .field name => name ∈ fieldNames event
  | .span => false

/-- The names of levels, in any case. -/
def rankOfName? (name : String) : Option Nat :=
  match name.toLower with
  | "off" => some 0
  | "error" => some 1
  | "warn" => some 2
  | "info" => some 3
  | "debug" => some 4
  | "trace" => some 5
  | _ => none

/-- A level by its rank or its name. -/
def readLevel (text : List Char) : Except DirectiveFault Nat :=
  match Decimal.read Decimal.wordMax text with
  | .ok rank => if rank ≤ Level.trace.rank then .ok rank else .error .level
  | .error _ =>
      match rankOfName? (String.ofList text) with
      | some rank => .ok rank
      | none => .error .level

/-- The level after an equals sign. Without any, all levels are let through. -/
def readAssigned (text : List Char) : Except DirectiveFault Nat :=
  if text.isEmpty then .ok Level.trace.rank else readLevel text

namespace Directive

/-! A directive is read without the white space around it, but its parts are cut from the text with
it: they begin and end as many characters after the start of that text as they do after the first
character that is not white space. So each step has what is looked at and what is cut. -/

def readEnd (seen cut : List Char) : Except DirectiveFault Nat :=
  match seen with
  | [] => .ok Level.trace.rank
  | '=' :: _ => readAssigned (cut.drop 1)
  | _ => .error .form

/-- The test of a field in braces, after the opening one. A field whose value is given can only be
one of a span. -/
def readField (isNamed : Bool) (seen cut : List Char) : Except DirectiveFault (Scope × Nat) :=
  let size := (seen.takeWhile (· ≠ '\x7d')).length
  let field := cut.take size
  match seen.drop size with
  | _ :: ']' :: rest =>
      if size = 0 then .error .form
      else do
        let rank ← readEnd rest (cut.drop (size + 2))
        return (if isNamed || field.contains '=' then .span else .field (String.ofList field), rank)
  | _ => .error .form

def readScope (seen cut : List Char) : Except DirectiveFault (Scope × Nat) :=
  let size := (seen.takeWhile fun c => c ≠ ']' && c ≠ '\x7b').length
  match seen.drop size with
  | [] => .error .form
  | ']' :: rest => do
      let rank ← readEnd rest (cut.drop (size + 1))
      return (.span, rank)
  | _ :: rest => readField (size ≠ 0) rest (cut.drop (size + 1))

def isInitial (c : Char) : Bool := c == '-' || c == ':' || c == '_' || Text.isAlphanumeric c

/-- A directive without brackets and equals sign: a level, or else a target. -/
def readBare (text : List Char) : Directive :=
  match readLevel text with
  | .ok rank => ⟨[], .everything, rank⟩
  | .error _ => ⟨text, .everything, Level.trace.rank⟩

def read (text : List Char) : Except DirectiveFault Directive :=
  let seen := Text.trimBlanks text
  let size := (seen.takeWhile fun c => c ≠ '=' && c ≠ '[').length
  if seen.head?.all fun c => c ≠ '[' && !isInitial c then .error .form
  else
    match seen.drop size with
    | [] => .ok (readBare text)
    | '=' :: _ => do
        let rank ← readAssigned (text.drop (size + 1))
        return ⟨text.take size, .everything, rank⟩
    | _ :: rest => do
        let (scope, rank) ← readScope rest (text.drop (size + 1))
        return ⟨text.take size, scope, rank⟩

def covers (event : Event) (d : Directive) : Bool :=
  d.target.isPrefixOf event.target.toList && d.scope.covers event

/-- Whether a directive is at least as specific as another one about the same event: first by its
target, then by its field. -/
def isSpecificAs (d other : Directive) : Bool :=
  other.target.length < d.target.length ||
    (other.target.length == d.target.length && other.scope.fieldName ≤ d.scope.fieldName)

end Directive

/-- Directives, and the texts that were passed over, each with what is wrong with it. -/
structure Filter where
  directives : List Directive
  ignored : List (String × DirectiveFault)
  deriving DecidableEq, Repr

namespace Filter

/-- The filter for a text. Without any directive, errors are let through. -/
def read (text : String) : Filter :=
  let parts := (Text.parts ',' text.toList).filter fun part => !part.isEmpty
  let directives := parts.filterMap fun part => (Directive.read part).toOption
  let ignored := parts.filterMap fun part =>
    match Directive.read part with
    | .ok _ => none
    | .error fault => some (String.ofList part, fault)
  ⟨if directives.isEmpty then [⟨[], .everything, Level.error.rank⟩] else directives, ignored⟩

/-- The filter for a verbosity, where no filter is given. -/
def ofVerbosity (verbosity : Nat) : Filter :=
  let rank :=
    match verbosity with
    | 0 => Level.warn.rank
    | 1 => Level.info.rank
    | 2 => Level.debug.rank
    | _ => Level.trace.rank
  ⟨[⟨"cmsgraph".toList, .everything, rank⟩], []⟩

/-- The most specific directive about an event; of equally specific ones, the last. -/
def decisive? (filter : Filter) (event : Event) : Option Directive :=
  (filter.directives.filter (Directive.covers event)).foldl
    (fun best d =>
      match best with
      | none => some d
      | some b => if d.isSpecificAs b then some d else some b)
    none

def admits (filter : Filter) (event : Event) : Bool :=
  match filter.decisive? event with
  | some directive => event.level.rank ≤ directive.rank
  | none => false

/-- A line about each text that was passed over. -/
def report (filter : Filter) : String :=
  String.join (filter.ignored.map fun (text, fault) =>
    "ignoring `" ++ text ++ "`: " ++ fault.message ++ "\n")

end Filter

end ContentQuery.Log
