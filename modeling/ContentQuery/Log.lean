import ContentQuery.Event
import ContentQuery.Text.Quoted

namespace ContentQuery.Log

def renderField (field : String × FieldValue) : String :=
  field.1 ++ "=" ++
    match field.2 with
    | .quoted text => Text.quoted text
    | value => value.text

/-- A log line: the level in five columns, the target, the message and the fields. -/
def render (event : Event) : String :=
  let name := event.level.name
  " " ++ String.ofList (List.replicate (5 - name.length) ' ') ++ name ++ " " ++ event.target ++
    ": " ++ Text.shown event.message ++
    String.join (event.fields.map fun field => " " ++ renderField field)

end ContentQuery.Log
