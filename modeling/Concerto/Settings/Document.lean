import Concerto.Files.Tree
import Concerto.Settings.Basic
import Concerto.Text.Encoding
import Concerto.Yaml.Value

/-!
The settings of a workspace as a YAML document.

* `Settings.ofDocument`: the settings that a document gives; what it leaves out is standard;
* `Settings.load`, `Settings.find`: the settings in a file, and those of a directory;
* `SettingsError`: why a document gives no settings.
-/

namespace Concerto

/-- Why a document gives no settings. -/
inductive SettingsFault where
  | notYaml
  | notMapping
  | unknownFields (names : List String)
  | notText (key : String)
  | notBoolean (key : String)
  | badSuffix
  deriving DecidableEq, Repr

/-- Why there are no settings: a file is missing or cannot be read, or a document has a fault. -/
inductive SettingsError where
  | missing (path : PathName)
  | unreadable (error : FileError)
  | encoding (error : Text.EncodingError)
  | fault (path : PathName) (fault : SettingsFault)
  deriving DecidableEq, Repr

/-! ### Keys -/

/-- The key of the namespace of the base declarations. -/
def builtinNamespaceKey : String := "builtin-namespace"

/-- The key of the end of the names of model files. -/
def sourceSuffixKey : String := "source-suffix"

/-- The key that tells whether the decorators of enum values are resolved. -/
def enumValueDecoratorsKey : String := "resolve-enum-property-decorators"

/-- The key that tells whether the base declaration of transactions has its older key. -/
def legacyTransactionKeyKey : String := "legacy-transaction-seed"

/-- The keys that a document may have. -/
def settingsKeys : List String :=
  [builtinNamespaceKey, sourceSuffixKey, enumValueDecoratorsKey, legacyTransactionKeyKey]

/-- The message of an error. -/
def SettingsError.message : SettingsError → String
  | missing path => "Resolver config file not found: " ++ path.text
  | unreadable e => "Cannot read resolver config file: " ++ e.message
  | encoding e => e.message
  | fault path f =>
    match f with
    | .notYaml => "Invalid YAML in " ++ path.text
    | .notMapping => path.text ++ ": resolver config must be a YAML mapping"
    | .unknownFields names =>
      path.text ++ ": unknown field(s) " ++ Text.joined ", " (names.map Text.quoted)
    | .notText key => path.text ++ ": '" ++ key ++ "' must be a non-empty string"
    | .notBoolean key => path.text ++ ": '" ++ key ++ "' must be true or false"
    | .badSuffix => path.text ++ ": '" ++ sourceSuffixKey ++ "' must start with '.'"

/-! ### Documents -/

namespace Settings

/-- The fields of a document. -/
abbrev Fields := List (Yaml.Value × Yaml.Value)

/-- The value under a key. -/
def value? (key : String) (fields : Fields) : Option Yaml.Value :=
  (fields.find? fun field =>
    match field.1 with
    | .string k => k = key
    | _ => false).map Prod.snd

/-- The text under a key, which is not empty, or else the standard one. -/
def textOr (standard key : String) (fields : Fields) : Except SettingsFault String :=
  match value? key fields with
  | none => .ok standard
  | some (.string s) => if s.isEmpty then .error (.notText key) else .ok s
  | some _ => .error (.notText key)

/-- The truth value under a key, or else the standard one. -/
def booleanOr (standard : Bool) (key : String) (fields : Fields) : Except SettingsFault Bool :=
  match value? key fields with
  | none => .ok standard
  | some (.bool b) => .ok b
  | some _ => .error (.notBoolean key)

/-- The keys that no document may have, in their order. -/
def unknownFields (fields : Fields) : List String :=
  let unknown := fields.filterMap fun field =>
    match field.1 with
    | .string k => if settingsKeys.contains k then none else some k
    | k => some k.keyText
  unknown.mergeSort fun a b => !(b < a)

/-- The settings of the fields of a document. -/
def ofFields (fields : Fields) : Except SettingsFault Settings := do
  let unknown := unknownFields fields
  if !unknown.isEmpty then throw (.unknownFields unknown)
  let builtinNamespace ← textOr standard.builtinNamespace builtinNamespaceKey fields
  let sourceSuffix ← textOr standard.sourceSuffix sourceSuffixKey fields
  let resolveEnumValueDecorators ←
    booleanOr standard.resolveEnumValueDecorators enumValueDecoratorsKey fields
  let legacyTransactionKey ←
    booleanOr standard.legacyTransactionKey legacyTransactionKeyKey fields
  if !sourceSuffix.startsWith "." then throw .badSuffix
  return { builtinNamespace, resolveEnumValueDecorators, legacyTransactionKey, sourceSuffix }

/-- The settings that a document gives. An empty document gives the standard ones. -/
def ofDocument (text : String) : Except SettingsFault Settings :=
  match Yaml.Value.ofText? text with
  | none => .error .notYaml
  | some .null => .ok standard
  | some (.mapping fields) => ofFields fields
  | some _ => .error .notMapping

/-! ### Files -/

/-- The name of the file with the settings of a directory. -/
def fileName : String := ".ctoresolve.yaml"

/-- The settings in a file. -/
def load (t : FileTree) (path : PathName) : Except SettingsError Settings :=
  match t.readBytes path with
  | .error e =>
    .error (if e.fault = .noSuchFile then .missing path else .unreadable e)
  | .ok bytes =>
    match Text.ofBytes bytes with
    | .error e => .error (.encoding e)
    | .ok text => (ofDocument text).mapError (.fault path)

/-- The settings of a directory, which are the standard ones if it has no file for them. -/
def find (t : FileTree) (directory : PathName) : Except SettingsError Settings :=
  let path := directory.below [fileName]
  if t.isFile path then load t path else .ok standard

end Settings

end Concerto
