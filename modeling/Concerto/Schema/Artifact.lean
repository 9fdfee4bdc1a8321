import Concerto.Json.Reader
import Concerto.Schema.Decode
import Concerto.Schema.Encode
import Concerto.Text.Encoding

/-!
Documents that hold one model or several in their JSON form.

* `StructuralError`: why a JSON value is no tree of the metamodel;
* `Model.ofJson`, `modelsOfJson`, `Artifact.ofJson`: the trees of JSON values;
* `Model.validated`, `validatedModels`: the trees checked once more;
* `Artifact.serialize`, `Artifact.deserialize`: the text of a document, and the document of a
  text.
-/

namespace Concerto

/-! ### Structure -/

/-- What a JSON value is to be. -/
inductive Subject where
  | model
  | models
  | metamodel
  | node
  deriving DecidableEq, Repr

/-- The word for what a value is to be. -/
def Subject.word : Subject → String
  | model => "model"
  | models => "models"
  | metamodel => "metamodel"
  | node => "node"

/-- Why a JSON value, or a text, is no tree of the metamodel. -/
inductive StructuralError where
  | notJson (fault : Json.PlacedFault)
  | notObject
  | violations (subject : Subject) (list : List Violation)
  deriving DecidableEq, Repr

namespace StructuralError

/-- The violations on a line each. -/
def entries : StructuralError → List String
  | violations _ list => list.map Violation.text
  | _ => []

/-- The first line of the message. -/
def headline : StructuralError → String
  | notJson fault => "Invalid JSON: " ++ fault.message
  | notObject => "Invalid metamodel: expected a JSON object"
  | violations subject list =>
    "Invalid " ++ subject.word ++ ": " ++ toString list.length ++ " schema violation(s)"

/-- The message of the error: the violations follow the first line. -/
def message (e : StructuralError) : String :=
  Text.lines (e.headline :: e.entries.map ("  " ++ ·))

end StructuralError

/-- The tree of a value, if nothing stands against it. -/
def Checked.accept {α : Type} (subject : Subject) (c : Checked α) : Except StructuralError α :=
  c.toExcept.mapError (.violations subject)

/-- The model with a JSON form. -/
def Model.ofJson (value : Json) : Except StructuralError Model := (checkModel value).accept .model

/-- The models with a JSON form. -/
def modelsOfJson (value : Json) : Except StructuralError (List Model) :=
  (checkModels value).accept .models

/-- The model, checked by its JSON form. -/
def Model.validated (m : Model) : Except StructuralError Model := ofJson m.toJson

/-- The models, checked by their JSON form. -/
def validatedModels (models : List Model) : Except StructuralError (List Model) :=
  modelsOfJson (.ofModels models)

/-! ### Documents -/

/-- What a document holds: one model or several. -/
inductive Artifact where
  | model (model : Model)
  | models (models : List Model)
  deriving DecidableEq

/-- Why a text, or the bytes of a file, is no document. A number with too many digits is read
by nothing, so it is no matter of structure. -/
inductive DocumentError where
  | structural (error : StructuralError)
  | number (error : NumberError)
  | encoding (error : Text.EncodingError)
  deriving DecidableEq, Repr

/-- The message of an error. -/
def DocumentError.message : DocumentError → String
  | structural e => e.message
  | number e => e.message
  | encoding e => e.message

/-- The JSON object of a text. -/
def readObject (text : String) : Except DocumentError Json :=
  match Json.read text with
  | .ok (.object fields) => .ok (.object fields)
  | .ok _ => .error (.structural .notObject)
  | .error (.fault fault) => .error (.structural (.notJson fault))
  | .error (.number error) => .error (.number error)

/-- The tree of a text, by what its JSON object stands for. -/
def deserialize {α : Type} (ofJson : Json → Except StructuralError α) (text : String) :
    Except DocumentError α := do
  let value ← readObject text
  (ofJson value).mapError .structural

/-- The model of a text. -/
def Model.deserialize (text : String) : Except DocumentError Model :=
  Concerto.deserialize Model.ofJson text

/-- The models of a text. -/
def deserializeModels (text : String) : Except DocumentError (List Model) :=
  Concerto.deserialize modelsOfJson text

namespace Artifact

/-- The models of a document. -/
def toModels : Artifact → List Model
  | model m => [m]
  | models ms => ms

/-- The JSON form of a document. -/
def toJson : Artifact → Json
  | model m => m.toJson
  | models ms => .ofModels ms

/-- The document with a JSON form, by the class that the form names. -/
def ofJson (value : Json) : Except StructuralError Artifact :=
  (checkTagged [(.model, fun v => model <$> checkModel v),
    (.models, fun v => models <$> checkModels v)] value).accept .metamodel

/-- The JSON form of a document, checked and with its defaults filled in. -/
def canonical (value : Json) : Except StructuralError Json := (ofJson value).map toJson

/-- The text of a document. -/
def serialize (layout : Json.Layout) (a : Artifact) : Except Json.WriteError String :=
  a.toJson.write layout

/-- The document of a text. -/
def deserialize (text : String) : Except DocumentError Artifact :=
  Concerto.deserialize ofJson text

/-- The document in a file. -/
def ofBytes (bytes : ByteArray) : Except DocumentError Artifact := do
  let text ← (Text.ofBytes bytes).mapError .encoding
  deserialize text

end Artifact

end Concerto
