import Concerto.Resolve.NameTable

/-!
The references of a model and of its nodes, in the order in which they are resolved: of a
concept its super type, then the type and the decorators of each property, then its own
decorators; of an enumeration its own decorators, then those of its values.

* `Model.visit` and the visits of other nodes: every reference is replaced by what a step makes
  of it;
* `Reference.resolve`: the step that resolves a reference; after a name without a declaration
  it changes nothing;
* `Model.resolveNames`: the model with its references resolved.
-/

namespace Concerto

/-! ### Visits -/

section
variable {μ : Type → Type} [Monad μ]

/-- Visits the type that an argument of a decorator refers to. -/
def DecoratorArgument.visit (step : Reference → μ Reference) :
    DecoratorArgument → μ DecoratorArgument
  | .type ref isArray location => return .type (← step ref) isArray location
  | argument => return argument

/-- Visits the arguments of a decorator. -/
def Decorator.visit (step : Reference → μ Reference) (d : Decorator) : μ Decorator := do
  match d.arguments with
  | some arguments => return { d with arguments := some (← arguments.mapM (·.visit step)) }
  | none => return d

/-- Visits the decorators of a declaration, a property or an enum value. -/
def Header.visit (step : Reference → μ Reference) (h : Header) : μ Header := do
  match h.decorators with
  | some decorators => return { h with decorators := some (← decorators.mapM (·.visit step)) }
  | none => return h

/-- Visits the type of a property. -/
def PropertyKind.visit (step : Reference → μ Reference) : PropertyKind → μ PropertyKind
  | .object type default => return .object (← step type) default
  | .relationship type => return .relationship (← step type)
  | kind => return kind

/-- Visits the type of a property, then its decorators. -/
def Property.visit (step : Reference → μ Reference) (p : Property) : μ Property := do
  let kind ← p.kind.visit step
  let header ← p.header.visit step
  return { p with kind := kind, header := header }

/-- Visits the super type of a concept, then its properties, then its decorators. -/
def Concept.visit (step : Reference → μ Reference) (c : Concept) : μ Concept := do
  let superType ← c.superType.mapM step
  let properties ← c.properties.mapM (·.visit step)
  let header ← c.header.visit step
  return { c with superType := superType, properties := properties, header := header }

/-- Visits the decorators of an enumeration, then those of its values if they count. -/
def Enumeration.visit (enumValues : Bool) (step : Reference → μ Reference) (e : Enumeration) :
    μ Enumeration := do
  let header ← e.header.visit step
  let values ← if enumValues then e.values.mapM (·.visit step) else pure e.values
  return { e with header := header, values := values }

/-- Visits a declaration. -/
def Declaration.visit (enumValues : Bool) (step : Reference → μ Reference) :
    Declaration → μ Declaration
  | .concept c => return .concept (← c.visit step)
  | .enumeration e => return .enumeration (← e.visit enumValues step)

/-- Visits the declarations of a model. -/
def Model.visit (enumValues : Bool) (step : Reference → μ Reference) (m : Model) : μ Model := do
  let declarations ← m.declarations.mapM (·.visit enumValues step)
  return { m with declarations := declarations }

end

/-! ### Resolution -/

/-- The first name that has no declaration, if one has come up. -/
abbrev Unresolved := Option String

/-- A reference gets the namespace that declares its name. Once a name has none, that name is
kept, and the references that follow stay as they are. -/
def Reference.resolve (t : NameTable) (r : Reference) : StateM Unresolved Reference := do
  match ← get with
  | some _ => return r
  | none =>
    match t.namespaceOf? r.name with
    | some ns => return { r with ns := some ns }
    | none =>
      set (some r.name)
      return r

/-- What a visit that resolves references makes of a node, and the name that it stopped at. -/
def resolved {α : Type} (visit : StateM Unresolved α) : α × Unresolved := visit.run none

/-- The result of a visit that resolves every reference. -/
def resolvedAll {α : Type} (visit : StateM Unresolved α) : Except ResolutionError α :=
  match resolved visit with
  | (a, none) => .ok a
  | (_, some name) => .error (.unknownName name)

/-- The model with the references resolved by a table. -/
def Model.resolveNames (s : Settings) (t : NameTable) (m : Model) :
    Except ResolutionError Model :=
  resolvedAll (m.visit s.resolveEnumValueDecorators (Reference.resolve t))

end Concerto
