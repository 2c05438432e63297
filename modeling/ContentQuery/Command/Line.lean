import ContentQuery.Settings

/-!
Command lines: the three commands, their arguments, and what can be wrong with them.

Arguments are taken from left to right. The value of an argument is looked at when the next
argument that is known begins, or at the end of the line; an unknown argument is refused at once.
-/

namespace ContentQuery.Command

inductive Verb where
  | fragments
  | query
  | check
  deriving DecidableEq, Repr

def Verb.all : List Verb := [.fragments, .query, .check]

def Verb.name : Verb → String
  | .fragments => "fragments"
  | .query => "query"
  | .check => "check"

def Verb.ofName? (name : String) : Option Verb := Verb.all.find? fun verb => verb.name = name

inductive Topic where
  | program
  | command (verb : Verb)
  | help
  deriving DecidableEq, Repr

def helpName : String := "help"

def Topic.ofName? (name : String) : Option Topic :=
  if name = helpName then some .help else (Verb.ofName? name).map .command

/-- Why a command line is not carried out. -/
inductive Refusal where
  | helpRequested (topic : Topic)
  | nothingGiven
  | unknownCommand
  | unknownArgument
  | missingArgument
  /-- An option without its value, or an empty path. -/
  | invalidValue
  /-- A threshold that is no number. -/
  | invalidNumber
  | repeatedOption
  /-- A value for an option that has none. -/
  | needlessValue
  deriving DecidableEq, Repr

/-- Help that was asked for is no failure. -/
def Refusal.exitCode : Refusal → Nat
  | .helpRequested _ => 0
  | _ => 2

/-- What a command does with its manifest. -/
inductive Action where
  /-- Print the fragments of a type. -/
  | fragments (type : String)
  /-- Make the query document of a type, and write it to a file if one is given. -/
  | query (type : String) (output : Option String)
  /-- Compile every type; if it is strict, warnings are errors. -/
  | check (strict : Bool)
  deriving DecidableEq, Repr

structure Request where
  action : Action
  manifest : String
  verbosity : Nat
  formElements : Bool
  maxFragments : Option Nat
  deriving DecidableEq, Repr

/-- The settings of a request: the environment's threshold gives way to the one on the line. -/
def Request.settings (r : Request) (environment : Option String) : Traced Settings :=
  let base := Settings.ofEnvironment environment
  let settings := base.value.withFormElements r.formElements
  ⟨match r.maxFragments with
    | some threshold => settings.withThreshold threshold
    | none => settings, base.events⟩

inductive Slot where
  | manifest
  | type
  | maxFragments
  | output
  deriving DecidableEq, Repr

inductive Flag where
  | formElements
  | strict
  | help
  deriving DecidableEq, Repr

/-- The arguments that are given by their place. -/
def Verb.places : Verb → List Slot
  | .check => [.manifest]
  | _ => [.manifest, .type]

def Verb.longOption? (verb : Verb) (name : String) : Option (Flag ⊕ Slot) :=
  match name with
  | "help" => some (.inl .help)
  | "form-elements" => some (.inl .formElements)
  | "max-fragments" => some (.inr .maxFragments)
  | "output" => if verb = .query then some (.inr .output) else none
  | "strict" => if verb = .check then some (.inl .strict) else none
  | _ => none

structure Progress where
  manifest : Option String
  type : Option String
  maxFragments : Option Nat
  output : Option String
  formElements : Bool
  strict : Bool
  verbosity : Nat
  /-- The places that are still free. -/
  places : List Slot
  /-- An argument that was not looked at yet, with its value if that was given. -/
  pending : Option (Slot × Option String)
  deriving DecidableEq, Repr

def Progress.start (verb : Verb) : Progress :=
  ⟨none, none, none, none, false, false, 0, verb.places, none⟩

def maxVerbosity : Nat := 255

namespace Progress

def store (p : Progress) (slot : Slot) (value : String) : Except Refusal Progress :=
  match slot with
  | .manifest => if value.isEmpty then .error .invalidValue else .ok { p with manifest := value }
  | .type => .ok { p with type := value }
  | .maxFragments =>
      if p.maxFragments.isSome then .error .repeatedOption
      else
        match Decimal.read Decimal.wordMax value.toList with
        | .ok threshold => .ok { p with maxFragments := threshold }
        | .error _ => .error .invalidNumber
  | .output =>
      if p.output.isSome then .error .repeatedOption
      else if value.isEmpty then .error .invalidValue
      else .ok { p with output := value }

/-- Looks at the argument that is pending. -/
def resolve (p : Progress) : Except Refusal Progress :=
  match p.pending with
  | none => .ok p
  | some (_, none) => .error .invalidValue
  | some (slot, some value) => { p with pending := none }.store slot value

/-- Begins an argument whose value follows. -/
def await (p : Progress) (slot : Slot) : Except Refusal Progress := do
  let p ← p.resolve
  return { p with pending := some (slot, none) }

def assign (p : Progress) (slot : Slot) (value : String) : Except Refusal Progress := do
  let p ← p.resolve
  p.store slot value

def set (verb : Verb) (p : Progress) (flag : Flag) : Except Refusal Progress := do
  let p ← p.resolve
  match flag with
  | .help => throw (.helpRequested (.command verb))
  | .formElements =>
      if p.formElements then throw .repeatedOption else return { p with formElements := true }
  | .strict => if p.strict then throw .repeatedOption else return { p with strict := true }

def place (p : Progress) (value : String) : Except Refusal Progress :=
  match p.places with
  | [] => .error .unknownArgument
  | slot :: places => do
      let p ← p.resolve
      return { p with places, pending := some (slot, some value) }

/-- A long option, without its two dashes. -/
def readLong (verb : Verb) (p : Progress) (text : List Char) : Except Refusal Progress :=
  let name := String.ofList (text.takeWhile (· ≠ '='))
  match verb.longOption? name, text.dropWhile (· ≠ '=') with
  | none, _ => .error .unknownArgument
  | some (.inl flag), [] => set verb p flag
  | some (.inl _), _ :: _ => .error .needlessValue
  | some (.inr slot), [] => p.await slot
  | some (.inr slot), _ :: value => p.assign slot (String.ofList value)

/-- Short options, without their dash. The option for the output takes what follows it in the same
word, less an equals sign, or else the next word. -/
def readShort (verb : Verb) (p : Progress) : List Char → Except Refusal Progress
  | [] => .ok p
  | c :: cs =>
      if c = 'v' then do
        let p ← p.resolve
        readShort verb { p with verbosity := min maxVerbosity (p.verbosity + 1) } cs
      else if c = 'h' then set verb p .help
      else if c = 'o' ∧ verb = .query then
        match cs with
        | [] => p.await .output
        | '=' :: value => p.assign .output (String.ofList value)
        | value => p.assign .output (String.ofList value)
      else .error .unknownArgument

/-- A word that begins with no dash, or is a dash alone: the value that is awaited, or an argument
by its place. -/
def readWord (p : Progress) (word : String) : Except Refusal Progress :=
  match p.pending with
  | some (slot, none) => .ok { p with pending := some (slot, some word) }
  | _ => p.place word

/-- One word before the end of options. -/
def readAny (verb : Verb) (p : Progress) (word : String) : Except Refusal Progress :=
  match word.toList with
  | '-' :: '-' :: text => readLong verb p text
  | ['-'] => p.readWord word
  | '-' :: text => readShort verb p text
  | _ => p.readWord word

def readPlaces : List String → Progress → Except Refusal Progress
  | [], p => .ok p
  | word :: words, p => do
      let p ← p.place word
      readPlaces words p

def readAll (verb : Verb) : List String → Progress → Except Refusal Progress
  | [], p => .ok p
  | word :: words, p =>
      if word = "--" then readPlaces words p
      else do
        let p ← readAny verb p word
        readAll verb words p

def required : Option String → Except Refusal String
  | some value => .ok value
  | none => .error .missingArgument

def action (verb : Verb) (p : Progress) : Except Refusal Action :=
  match verb with
  | .fragments => (required p.type).map .fragments
  | .query => (required p.type).map fun type => .query type p.output
  | .check => .ok (.check p.strict)

def finish (verb : Verb) (p : Progress) : Except Refusal Request := do
  let p ← p.resolve
  let manifest ← required p.manifest
  let action ← p.action verb
  return ⟨action, manifest, p.verbosity, p.formElements, p.maxFragments⟩

end Progress

def readCommand (verb : Verb) (words : List String) : Except Refusal Request := do
  let p ← Progress.readAll verb words (Progress.start verb)
  p.finish verb

def readHelp : List String → Refusal
  | [] => .helpRequested .program
  | [name] =>
      match Topic.ofName? name with
      | some topic => .helpRequested topic
      | none => .unknownCommand
  | _ => .unknownCommand

/-- An option in front of the command: only help is known there. -/
def readLeading (text : List Char) : Refusal :=
  match text with
  | '-' :: name =>
      if name.takeWhile (· ≠ '=') ≠ helpName.toList then .unknownArgument
      else if '=' ∈ name then .needlessValue
      else .helpRequested .program
  | 'h' :: _ => .helpRequested .program
  | _ => .unknownArgument

/-- A command line without the name of the program. -/
def read : List String → Except Refusal Request
  | [] => .error .nothingGiven
  | word :: words =>
      match Verb.ofName? word with
      | some verb => readCommand verb words
      | none =>
          if word = helpName then .error (readHelp words)
          else if word = "--" then
            match words with
            | [] => .error .nothingGiven
            | next :: _ =>
                .error (if (Topic.ofName? next).isSome then .unknownArgument else .unknownCommand)
          else
            match word.toList with
            | ['-'] => .error .unknownCommand
            | '-' :: text => .error (readLeading text)
            | _ => .error .unknownCommand

end ContentQuery.Command
