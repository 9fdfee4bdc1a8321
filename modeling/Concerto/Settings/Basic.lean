/-!
The settings of a workspace.

* `Settings`: what the resolution of names and the loading of models go by.
-/

namespace Concerto

/-- What the resolution of names and the loading of models go by: the namespace of the base
declarations, whether the decorators of enum values are resolved, whether the base declaration
of transactions is known under its older key, and the end of the names of model files. -/
structure Settings where
  builtinNamespace : String := "concerto"
  resolveEnumValueDecorators : Bool := true
  legacyTransactionKey : Bool := false
  sourceSuffix : String := ".cto"
  deriving DecidableEq, Repr

/-- The settings of a workspace that says nothing else. -/
def Settings.standard : Settings := {}

end Concerto
