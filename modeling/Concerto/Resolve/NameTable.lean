import Concerto.Entries
import Concerto.Registry.Basic

/-!
The names that a model may use, with the namespaces that declare them.

* `NameTable`: names with namespaces, in the order in which the names came up;
* `NameTable.build`: the base declarations, then what the model imports, in the order of its
  imports, then what it declares; a name that comes up again takes the later namespace;
* `lookup?_declare`, `lookup?_declareAll`: what a table knows after a declaration or
  several;
* `ResolutionError`: why an import or a name has no declaration.
-/

namespace Concerto

/-! ### Errors -/

/-- Why an import or a name has no declaration. -/
inductive ResolutionError where
  | missingNamespace (ns : String)
  | missingDeclaration (name ns : String)
  | unknownName (name : String)
  deriving DecidableEq, Repr

/-- The message of an error. -/
def ResolutionError.message : ResolutionError → String
  | missingNamespace ns => "Namespace " ++ ns ++ " not found"
  | missingDeclaration name ns => "Declaration " ++ name ++ " in namespace " ++ ns ++ " not found"
  | unknownName name => "Name " ++ name ++ " not found"

/-! ### Tables -/

/-- Names with the namespaces that declare them. -/
structure NameTable where
  entries : List (String × String)
  deriving DecidableEq, Repr

namespace NameTable

/-- The table without names. -/
def empty : NameTable := ⟨[]⟩

/-- The number of names. -/
def size (t : NameTable) : Nat := t.entries.length

/-- The table with a name of a namespace. -/
def declare (ns : String) (t : NameTable) (name : String) : NameTable :=
  ⟨Entries.set name ns t.entries⟩

/-- The table with several names of a namespace. -/
def declareAll (ns : String) (t : NameTable) (names : List String) : NameTable :=
  names.foldl (declare ns) t

/-- The table of names that are given with their namespaces. -/
def ofList (pairs : List (String × String)) : NameTable :=
  pairs.foldl (fun t pair => t.declare pair.2 pair.1) empty

/-- The namespace that a table has for a name. -/
def lookup? (t : NameTable) (name : String) : Option String := t.entries.lookup name

/-- The namespace that declares a name; an empty one declares nothing. -/
def namespaceOf? (t : NameTable) (name : String) : Option String :=
  (t.lookup? name).filter (· ≠ "")

/-- The namespace that declares a name, which has to be known. -/
def resolve (t : NameTable) (name : String) : Except ResolutionError String :=
  match t.namespaceOf? name with
  | some ns => .ok ns
  | none => .error (.unknownName name)

@[simp] theorem lookup?_empty (name : String) : empty.lookup? name = none := rfl

theorem lookup?_declare (ns : String) (t : NameTable) (name other : String) :
    (t.declare ns name).lookup? other = if other = name then some ns else t.lookup? other :=
  Entries.lookup_set name ns t.entries other

theorem lookup?_declareAll (ns : String) (t : NameTable) (names : List String) (other : String) :
    (t.declareAll ns names).lookup? other =
      if other ∈ names then some ns else t.lookup? other := by
  induction names generalizing t with
  | nil => simp [declareAll]
  | cons name names ih =>
    have h : t.declareAll ns (name :: names) = (t.declare ns name).declareAll ns names := rfl
    rw [h, ih, lookup?_declare]
    by_cases hm : other ∈ names <;> by_cases he : other = name <;> simp [hm, he]

end NameTable

/-! ### The table of a model -/

/-- The base declarations, which every model knows without an import. -/
def baseDeclarations : List String := ["Concept", "Asset", "Participant", "Transaction", "Event"]

/-- The key of the base declaration of transactions in older tables. -/
def legacyTransactionKey : String := "Transaction "

/-- The keys of the base declarations. -/
def baseKeys (s : Settings) : List String :=
  baseDeclarations.map fun name =>
    if name = "Transaction" && s.legacyTransactionKey then legacyTransactionKey else name

/-- The table with the names that an import makes known. -/
def Import.declareIn (r : Registry) (t : NameTable) : Import → Except ResolutionError NameTable
  | .type ns name _ =>
    if r.hasDeclaration ns name then .ok (t.declare ns name)
    else .error (.missingDeclaration name ns)
  | .all ns _ =>
    match r.declarationNames? ns with
    | some names => .ok (t.declareAll ns names)
    | none => .error (.missingNamespace ns)

namespace NameTable

/-- The table of the base declarations. -/
def base (s : Settings) : NameTable := empty.declareAll s.builtinNamespace (baseKeys s)

/-- The table of a model whose imports are looked up in a registry. -/
def build (r : Registry) (s : Settings) (m : Model) : Except ResolutionError NameTable := do
  let imported ← m.imports.foldlM (Import.declareIn r) (base s)
  return imported.declareAll m.ns m.declarationNames

end NameTable

end Concerto
