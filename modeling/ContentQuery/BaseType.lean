namespace ContentQuery

inductive BaseType where
  | component
  | experience
  | sectionType
  | image
  | video
  | media
  | page
  | folder
  | element
  deriving DecidableEq, Repr, Inhabited

namespace BaseType

def all : List BaseType :=
  [.component, .experience, .sectionType, .image, .video, .media, .page, .folder, .element]

def tag : BaseType → String
  | .component => "_component"
  | .experience => "_experience"
  | .sectionType => "_section"
  | .image => "_image"
  | .video => "_video"
  | .media => "_media"
  | .page => "_page"
  | .folder => "_folder"
  | .element => "_element"

def ofTag? (tag : String) : Option BaseType := all.find? fun base => base.tag = tag

/-- Image, video and generic media assets. -/
def isMedia : BaseType → Bool
  | .image | .video | .media => true
  | _ => false

/-- Structural markers, which are never queried themselves. -/
def isAbstract : BaseType → Bool
  | .component | .experience | .sectionType => true
  | _ => false

/-- Kinds whose fields are written without an alias. -/
def isComponentHierarchy : BaseType → Bool
  | .component | .experience => true
  | _ => false

/-- The interface that stands for a base type in a query. -/
def graphType : BaseType → String
  | .component => "_IComponent"
  | .experience => "_IExperience"
  | .sectionType => "_ISection"
  | .image => "_Image"
  | .video => "_Video"
  | .media => "_Media"
  | .page => "_IPage"
  | .folder => "_IFolder"
  | .element => "_IElement"

theorem ofTag?_tag (base : BaseType) : ofTag? base.tag = some base := by
  cases base <;> decide

theorem mem_all (base : BaseType) : base ∈ all := by
  cases base <;> decide

end BaseType

end ContentQuery
