import Concerto.Model.Basic

/-!
Editing the texts of a model in place. A path names the fields and the places in lists that lead
from a node to one of its texts; the text is replaced without any check.

* `Segment`, `Path`: a field or a place in a list, and several of them;
* `Model.assign`: the model with a text at a path, if the path leads to a text.
-/

namespace Concerto

/-- A step from a node to one below it. -/
inductive Segment where
  | field (name : String)
  | index (place : Nat)
  deriving DecidableEq, Repr

/-- The steps from a node to one below it. -/
abbrev Path := List Segment

/-- The text at the end of a path. -/
def textAt (value : String) : Path → Option String
  | [] => some value
  | _ => none

section
variable {α : Type}

/-- A list with one of its items edited along the rest of a path. -/
def itemAt (edit : Path → α → Option α) : Path → List α → Option (List α)
  | .index place :: path, as =>
    (as[place]?.bind (edit path)).map fun a => as.set place a
  | _, _ => none

/-- A value that has to be there, edited along a path. -/
def insideAt (edit : Path → α → Option α) (path : Path) (a : Option α) : Option (Option α) :=
  (a.bind (edit path)).map some

end

/-- A reference with a text at a path. -/
def Reference.assign (value : String) : Path → Reference → Option Reference
  | .field "name" :: path, r => (textAt value path).map fun v => { r with name := v }
  | .field "namespace" :: path, r => (textAt value path).map fun v => { r with ns := some v }
  | _, _ => none

/-- A location with a text at a path. -/
def Location.assign (value : String) : Path → Location → Option Location
  | .field "source" :: path, l => (textAt value path).map fun v => { l with source := some v }
  | _, _ => none

/-- An argument of a decorator with a text at a path. -/
def DecoratorArgument.assign (value : String) : Path → DecoratorArgument → Option DecoratorArgument
  | .field "value" :: path, .string _ location => (textAt value path).map (.string · location)
  | .field "type" :: path, .type ref isArray location =>
    (ref.assign value path).map fun ref => .type ref isArray location
  | .field "location" :: path, a =>
    match a with
    | .string v location => (insideAt (Location.assign value) path location).map (.string v ·)
    | .number v location => (insideAt (Location.assign value) path location).map (.number v ·)
    | .boolean v location => (insideAt (Location.assign value) path location).map (.boolean v ·)
    | .type ref isArray location =>
      (insideAt (Location.assign value) path location).map (.type ref isArray ·)
  | _, _ => none

/-- A decorator with a text at a path. -/
def Decorator.assign (value : String) : Path → Decorator → Option Decorator
  | .field "name" :: path, d => (textAt value path).map fun v => { d with name := v }
  | .field "arguments" :: path, d =>
    (insideAt (itemAt (DecoratorArgument.assign value)) path d.arguments).map fun v =>
      { d with arguments := v }
  | .field "location" :: path, d =>
    (insideAt (Location.assign value) path d.location).map fun v => { d with location := v }
  | _, _ => none

/-- What declarations, properties and values have in common, with a text at a path. -/
def Header.assign (value : String) : Path → Header → Option Header
  | .field "name" :: path, h => (textAt value path).map fun v => { h with name := v }
  | .field "decorators" :: path, h =>
    (insideAt (itemAt (Decorator.assign value)) path h.decorators).map fun v =>
      { h with decorators := v }
  | .field "location" :: path, h =>
    (insideAt (Location.assign value) path h.location).map fun v => { h with location := v }
  | _, _ => none

/-- A pattern with a text at a path. -/
def StringPattern.assign (value : String) : Path → StringPattern → Option StringPattern
  | .field "pattern" :: path, p => (textAt value path).map fun v => { p with pattern := v }
  | .field "flags" :: path, p => (textAt value path).map fun v => { p with flags := v }
  | _, _ => none

/-- What a property holds, with a text at a path. -/
def PropertyKind.assign (value : String) : Path → PropertyKind → Option PropertyKind
  | .field "type" :: path, .object type default =>
    (type.assign value path).map (.object · default)
  | .field "type" :: path, .relationship type => (type.assign value path).map .relationship
  | .field "default_value" :: path, .object type _ =>
    (textAt value path).map fun v => .object type (some v)
  | .field "default_value" :: path, .string _ pattern =>
    (textAt value path).map fun v => .string (some v) pattern
  | .field "validator" :: path, .string default pattern =>
    (insideAt (StringPattern.assign value) path pattern).map (.string default ·)
  | _, _ => none

/-- A property with a text at a path. -/
def Property.assign (value : String) (path : Path) (p : Property) : Option Property :=
  match p.header.assign value path with
  | some header => some { p with header := header }
  | none => (p.kind.assign value path).map fun kind => { p with kind := kind }

/-- The identification of a concept with a text at a path. -/
def Identification.assign (value : String) : Path → Identification → Option Identification
  | .field "name" :: path, .byProperty _ => (textAt value path).map .byProperty
  | _, _ => none

/-- A concept with a text at a path. -/
def Concept.assign (value : String) : Path → Concept → Option Concept
  | .field "super_type" :: path, c =>
    (insideAt (Reference.assign value) path c.superType).map fun v => { c with superType := v }
  | .field "identified" :: path, c =>
    (insideAt (Identification.assign value) path c.identified).map fun v =>
      { c with identified := v }
  | .field "properties" :: path, c =>
    (itemAt (Property.assign value) path c.properties).map fun v => { c with properties := v }
  | path, c => (c.header.assign value path).map fun v => { c with header := v }

/-- An enumeration with a text at a path. -/
def Enumeration.assign (value : String) : Path → Enumeration → Option Enumeration
  | .field "properties" :: path, e =>
    (itemAt (Header.assign value) path e.values).map fun v => { e with values := v }
  | path, e => (e.header.assign value path).map fun v => { e with header := v }

/-- A declaration with a text at a path. -/
def Declaration.assign (value : String) (path : Path) : Declaration → Option Declaration
  | concept c => (c.assign value path).map .concept
  | enumeration e => (e.assign value path).map .enumeration

/-- An import with a text at a path. -/
def Import.assign (value : String) : Path → Import → Option Import
  | .field "namespace" :: path, .all _ uri => (textAt value path).map (.all · uri)
  | .field "namespace" :: path, .type _ name uri => (textAt value path).map (.type · name uri)
  | .field "name" :: path, .type ns _ uri => (textAt value path).map (.type ns · uri)
  | .field "uri" :: path, .all ns _ => (textAt value path).map fun v => .all ns (some v)
  | .field "uri" :: path, .type ns name _ => (textAt value path).map fun v => .type ns name (some v)
  | _, _ => none

/-- A model with a text at a path. -/
def Model.assign (value : String) : Path → Model → Option Model
  | .field "namespace" :: path, m => (textAt value path).map fun v => { m with ns := v }
  | .field "source_uri" :: path, m =>
    (textAt value path).map fun v => { m with sourceUri := some v }
  | .field "concerto_version" :: path, m =>
    (textAt value path).map fun v => { m with concertoVersion := some v }
  | .field "imports" :: path, m =>
    (itemAt (Import.assign value) path m.imports).map fun v => { m with imports := v }
  | .field "declarations" :: path, m =>
    (itemAt (Declaration.assign value) path m.declarations).map fun v =>
      { m with declarations := v }
  | _, _ => none

/-- Several models with a text at a path. -/
def assignModels (value : String) : Path → List Model → Option (List Model)
  | .field "models" :: path, models => itemAt (Model.assign value) path models
  | _, _ => none

end Concerto
