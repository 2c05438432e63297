import ContentQuery.Command.Line

namespace ContentQuery.Command

/-- An item of a help page and what is said about it. -/
structure Entry where
  label : String
  about : String
  deriving DecidableEq, Repr

structure Section where
  heading : String
  entries : List Entry
  deriving DecidableEq, Repr

structure Page where
  about : String
  usage : String
  sections : List Section
  /-- Lines at the end. -/
  closing : Option String
  deriving DecidableEq, Repr

def Section.width (s : Section) : Nat :=
  s.entries.foldl (fun width entry => max width entry.label.length) 0

/-- An entry whose text begins two columns after the widest label. -/
def Entry.render (width : Nat) (entry : Entry) : String :=
  "  " ++ entry.label ++ String.ofList (List.replicate (width - entry.label.length + 2) ' ') ++
    entry.about

def Section.render (s : Section) : String :=
  "\n".intercalate ((s.heading ++ ":") :: s.entries.map (Entry.render s.width))

/-- The parts of a page stand apart by an empty line. -/
def Page.render (page : Page) : String :=
  "\n\n".intercalate ([page.about, "Usage: " ++ page.usage] ++ page.sections.map Section.render ++
    page.closing.toList) ++ "\n"

def Verb.about : Verb → String
  | .fragments => "Print the fragments compiled for a content type"
  | .query => "Assemble the query document for a content type"
  | .check => "Compile every content type and report problems"

def Verb.usage : Verb → String
  | .fragments => "  cmsgraph fragments <MANIFEST> <TYPE>"
  | .query =>
      "  cmsgraph query <MANIFEST> <TYPE>\n" ++
        "  cmsgraph query <MANIFEST> <TYPE> -o <FILE>"
  | .check => "  cmsgraph check <MANIFEST> [--strict]"

def Verb.examples : Verb → String
  | .fragments =>
      "EXAMPLES:\n" ++
        "  cmsgraph fragments types.json ArticlePage\n" ++
        "  cat types.json | cmsgraph fragments - ArticlePage"
  | .query =>
      "EXAMPLES:\n" ++
        "  cmsgraph query types.json ArticlePage\n" ++
        "  cmsgraph query types.json LandingPage --form-elements\n" ++
        "  cmsgraph query types.json ArticlePage --max-fragments 50 -o article.graphql"
  | .check =>
      "EXAMPLES:\n" ++
        "  cmsgraph check types.json            # fail on missing references\n" ++
        "  cmsgraph check types.json --strict   # also fail on fan-out warnings"

/-- The entry of an argument that has a value; an option without a short form stands below the long
forms of the others. -/
def Slot.entry : Slot → Entry
  | .manifest => ⟨"<MANIFEST>", "Content type manifest (JSON), or - for stdin"⟩
  | .type => ⟨"<TYPE>", "Content type key to compile"⟩
  | .maxFragments =>
      ⟨"    --max-fragments <N>",
        "Warn when an unconstrained property generates more than N fragments"⟩
  | .output => ⟨"-o, --output <FILE>", "Write output to file instead of stdout"⟩

def Flag.entry : Flag → Entry
  | .formElements =>
      ⟨"    --form-elements", "Include form element types in experience compositions"⟩
  | .strict => ⟨"    --strict", "Treat warnings as errors"⟩
  | .help => ⟨"-h, --help", "Print help"⟩

def verbosityEntry : Entry :=
  ⟨"-v...", "Verbosity level (-v for info, -vv for debug, -vvv for trace)"⟩

def Verb.ownOptions : Verb → List Entry
  | .fragments => []
  | .query => [Slot.entry .output]
  | .check => [Flag.entry .strict]

def Verb.options (verb : Verb) : List Entry :=
  [Flag.entry .formElements, Slot.entry .maxFragments] ++ verb.ownOptions ++
    [verbosityEntry, Flag.entry .help]

def Verb.page (verb : Verb) : Page :=
  ⟨verb.about, verb.usage,
    [⟨"Arguments", verb.places.map Slot.entry⟩, ⟨"Options", verb.options⟩],
    verb.examples⟩

def Verb.entry (verb : Verb) : Entry := ⟨verb.name, verb.about⟩

def helpAbout : String := "Print this message or the help of the given subcommand(s)"

def Topic.page : Topic → Page
  | .program =>
      ⟨"Compile content type manifests into graph query fragments", "cmsgraph <COMMAND>",
        [⟨"Commands", Verb.all.map Verb.entry ++ [⟨helpName, helpAbout⟩]⟩,
          ⟨"Options", [Flag.entry .help]⟩],
        none⟩
  | .command verb => verb.page
  | .help =>
      ⟨helpAbout, "cmsgraph help [COMMAND]...",
        [⟨"Arguments", [⟨"[COMMAND]...", "Print help for the subcommand(s)"⟩]⟩], none⟩

def Topic.render (topic : Topic) : String := topic.page.render

end ContentQuery.Command
