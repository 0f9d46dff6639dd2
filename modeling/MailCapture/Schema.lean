import MailCapture.Wire
/-!
Schemas of JSON values, as an API server checks them.
-/
namespace MailCapture

inductive Schema where
  | string
  | boolean
  | int32
  /-- a text out of a fixed choice -/
  | choice (names : List String)
  | list (item : Schema)
  | record (properties : List (String × Schema)) (required : List String)
  /-- an object of any form -/
  | object
  | described (text : String) (s : Schema)
  /-- what stands for a missing value -/
  | withDefault (value : Json) (s : Schema)
  | nullable (s : Schema)

namespace Schema

def typed (name : String) (fields : Entries Json) : Entries Json :=
  Entries.put fields "type" (.str name)

mutual

def fields : Schema → Entries Json
  | .string => typed "string" []
  | .boolean => typed "boolean" []
  | .int32 => typed "integer" [("format", .str "int32")]
  | .choice names => typed "string" [("enum", Wire.strings names)]
  | .list item => typed "array" [("items", .obj (fields item))]
  | .record properties required =>
    typed "object" (("properties", .obj (Entries.ofPairs (propertyFields properties))) ::
      (if required.isEmpty then [] else [("required", Wire.strings required)]))
  | .object => typed "object" []
  | .described text s => Entries.put (fields s) "description" (.str text)
  | .withDefault value s => Entries.put (fields s) "default" value
  | .nullable s => Entries.put (fields s) "nullable" (.bool true)

def propertyFields : List (String × Schema) → List (String × Json)
  | [] => []
  | (name, s) :: rest => (name, .obj (fields s)) :: propertyFields rest

end

def toJson (s : Schema) : Json := .obj s.fields

end Schema
end MailCapture
