import ContentQuery.ContentType

namespace ContentQuery

namespace Indexing

def all : List Indexing := [.disabled, .queryable, .searchable]

def name : Indexing → String
  | .disabled => "disabled"
  | .queryable => "queryable"
  | .searchable => "searchable"

def ofName? (name : String) : Option Indexing := all.find? fun mode => mode.name = name

end Indexing

namespace Behavior

def all : List Behavior := [.sectionEnabled, .elementEnabled, .formsElementEnabled]

def name : Behavior → String
  | .sectionEnabled => "sectionEnabled"
  | .elementEnabled => "elementEnabled"
  | .formsElementEnabled => "formsElementEnabled"

def ofName? (name : String) : Option Behavior := all.find? fun behavior => behavior.name = name

end Behavior

namespace PropertyKind

def name : PropertyKind → String
  | .string => "string"
  | .boolean => "boolean"
  | .integer => "integer"
  | .float => "float"
  | .binary => "binary"
  | .json => "json"
  | .dateTime => "dateTime"
  | .richText => "richText"
  | .url => "url"
  | .link => "link"
  | .contentReference => "contentReference"
  | .component _ => "component"
  | .content _ _ => "content"
  | .array _ => "array"

/-- The names of all kinds. A manifest may also give a kind by its place in this list. -/
def names : List String :=
  ["string", "boolean", "integer", "float", "binary", "json", "dateTime", "richText", "url", "link",
    "contentReference", "component", "content", "array"]

end PropertyKind

end ContentQuery
