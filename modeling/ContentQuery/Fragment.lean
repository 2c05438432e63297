namespace ContentQuery

structure Fragment where
  name : String
  typeCondition : String
  body : String
  deriving DecidableEq, Repr

/-- A selection set around the given text. -/
def braced (body : String) : String := "\x7b " ++ body ++ " \x7d"

def Fragment.render (f : Fragment) : String :=
  "fragment " ++ f.name ++ " on " ++ f.typeCondition ++ " " ++ braced f.body

def Fragment.lines (fragments : List Fragment) : String :=
  String.join (fragments.map fun f => f.render ++ "\n")

def spread (name : String) : String := "..." ++ name

/-- A selection that begins with the name of the type. -/
def typedBody (fields : List String) : String :=
  fields.foldl (fun body field => body ++ " " ++ field) "__typename"

/-- Ends the name of a fragment that a component property uses. -/
def componentSuffix : String := "Property"

def mediaMetadataName : String := "MediaMetadata"

def experienceDataName : String := "ExperienceData"

def compositionNodeName : String := "CompositionNodeData"

def compositionComponentName : String := "CompositionComponentData"

/-- The fields that every media asset has. -/
def mediaMetadata : Fragment :=
  ⟨mediaMetadataName, "MediaMetadata", "mimeType thumbnail content"⟩

/-- The field of a media type that holds them. -/
def mediaMetadataField : String := "_metadata " ++ braced (spread mediaMetadataName)

def urlShape : String := braced "type default"

/-- The nodes of a composition: structures hold nodes, components hold an instance of a type. -/
def compositionNode : Fragment :=
  ⟨compositionNodeName, "ICompositionNode",
    "__typename key type nodeType layoutType displayName displayTemplateKey displaySettings " ++
      braced "key value" ++ " ... on CompositionStructureNode " ++ braced "nodes @recursive" ++
      " ... on CompositionComponentNode " ++
      braced ("component " ++ braced (spread compositionComponentName))⟩

end ContentQuery
