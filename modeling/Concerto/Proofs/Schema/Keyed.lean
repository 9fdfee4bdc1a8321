import Concerto.Proofs.Json.RoundTrip
import Concerto.Proofs.Model.Words
import Concerto.Schema.Encode

/-!
The keys and the whole numbers in the JSON forms of nodes.

* `KeyedFields`: fields in a fixed order, none of them twice, whose values are keyed;
* `keyed_decorator`, `keyed_property`, `keyed_model` and the others: the form of a node is keyed if the
  forms of its parts are, and if its own whole numbers have the property;
* `Model.keyed_toJson`, `keyed_ofModels_toJson`: so no object in the form of a model has a key twice,
  whatever the whole numbers in it.

The property is what changes: with few enough digits for it the forms have texts, and where it holds of
every number only the keys are spoken of.
-/

namespace Concerto

open Json (Keyed)

/-! ### Fields -/

/-- Fields with some of the keys, in their order, whose values are keyed. -/
structure KeyedFields (fits : ℤ → Prop) (keys : List String) (fields : List (String × Json)) :
    Prop where
  sublist : (Entries.keys fields).Sublist keys
  values : ∀ field ∈ fields, field.2.Keyed fits

variable {α : Type} {fits : ℤ → Prop}

namespace KeyedFields

variable {keys keys' : List String} {fields fields' : List (String × Json)}

lemma nil : KeyedFields fits [] [] := ⟨.slnil, by simp⟩

lemma append (h : KeyedFields fits keys fields) (h' : KeyedFields fits keys' fields') :
    KeyedFields fits (keys ++ keys') (fields ++ fields') where
  sublist := by
    rw [Entries.keys, List.map_append]
    exact h.sublist.append h'.sublist
  values := List.forall_mem_append.mpr ⟨h.values, h'.values⟩

lemma present {value : Json} (h : value.Keyed fits) (key : String) :
    KeyedFields fits [key] (presentField key value) :=
  ⟨.refl _, List.forall_mem_singleton.mpr h⟩

lemma optional {encode : α → Json} {o : Option α} (h : ∀ a ∈ o, (encode a).Keyed fits)
    (key : String) : KeyedFields fits [key] (optionalField key encode o) := by
  cases o with
  | none => exact ⟨List.nil_sublist _, by simp [optionalField]⟩
  | some a => exact present (h a rfl) key

lemma tag (c : NodeClass) : KeyedFields fits ["$class"] (classField c) := present (.string _) _

/-- More keys may be allowed. -/
lemma mono (h : KeyedFields fits keys fields) (hkeys : keys.Sublist keys') :
    KeyedFields fits keys' fields :=
  ⟨h.sublist.trans hkeys, h.values⟩

/-- An object of such fields is keyed. -/
lemma object (h : KeyedFields fits keys fields) (hkeys : keys.Nodup) :
    (Json.object fields).Keyed fits :=
  .object (h.sublist.nodup hkeys) h.values

end KeyedFields

lemma keyed_list {encode : α → Json} {as : List α} (h : ∀ a ∈ as, (encode a).Keyed fits) :
    (jsonList encode as).Keyed fits := by
  refine .array fun item hitem => ?_
  obtain ⟨a, ha, rfl⟩ := List.mem_map.mp hitem
  exact h a ha

/-! ### Places and types -/

lemma keyed_position {p : Position} (hline : fits p.line) (hcolumn : fits p.column)
    (hoffset : fits p.offset) : p.toJson.Keyed fits :=
  ((((KeyedFields.tag .position).append (.present (.int hline) "line")).append
    (.present (.int hcolumn) "column")).append (.present (.int hoffset) "offset")).object (by decide)

lemma keyed_location {l : Location} (hstart : l.start.toJson.Keyed fits)
    (hstop : l.stop.toJson.Keyed fits) : l.toJson.Keyed fits :=
  ((((KeyedFields.tag .range).append (.present hstart "start")).append
    (.present hstop "end")).append (.optional (fun _ _ => .string _) "source")).object (by decide)

/-- A type is only made of strings. -/
lemma keyed_reference (r : Reference) : r.toJson.Keyed fits :=
  (((KeyedFields.tag .typeIdentifier).append (.present (.string r.name) "name")).append
    (.optional (fun _ _ => .string _) "namespace")).object (by decide)

/-! ### Decorators -/

/-- The location of an argument. -/
def DecoratorArgument.location : DecoratorArgument → Option Location
  | string _ location | number _ location | boolean _ location | type _ _ location => location

/-- The whole numbers of an argument are those of its location. -/
lemma keyed_decoratorArgument {a : DecoratorArgument}
    (hlocation : ∀ l ∈ a.location, l.toJson.Keyed fits) : a.toJson.Keyed fits := by
  cases a with
  | string value location =>
      exact ((KeyedFields.tag _).append ((KeyedFields.present (.string value) "value").append
        (.optional hlocation "location"))).object (by decide)
  | number value location =>
      exact ((KeyedFields.tag _).append ((KeyedFields.present (.double value) "value").append
        (.optional hlocation "location"))).object (by decide)
  | boolean value location =>
      exact ((KeyedFields.tag _).append ((KeyedFields.present (.bool value) "value").append
        (.optional hlocation "location"))).object (by decide)
  | type ref isArray location =>
      exact ((KeyedFields.tag _).append (((KeyedFields.present (keyed_reference ref) "type").append
        (.present (.bool isArray) "isArray")).append
        (.optional hlocation "location"))).object (by decide)

lemma keyed_decorator {d : Decorator}
    (harguments : ∀ as ∈ d.arguments, ∀ a ∈ as, a.toJson.Keyed fits)
    (hlocation : ∀ l ∈ d.location, l.toJson.Keyed fits) : d.toJson.Keyed fits :=
  ((((KeyedFields.tag .decorator).append (.present (.string d.name) "name")).append
    (.optional (fun as has => keyed_list (harguments as has)) "arguments")).append
    (.optional hlocation "location")).object (by decide)

/-! ### Headers -/

/-- The forms of the decorators and of the location of a header are keyed. -/
structure Header.IsKeyed (fits : ℤ → Prop) (h : Header) : Prop where
  decorators : ∀ ds ∈ h.decorators, ∀ d ∈ ds, d.toJson.Keyed fits
  location : ∀ l ∈ h.location, l.toJson.Keyed fits

lemma Header.IsKeyed.fields {h : Header} (hh : h.IsKeyed fits) :
    KeyedFields fits ["name", "decorators", "location"] h.fields :=
  ((KeyedFields.present (.string h.name) "name").append
    (.optional (fun ds hds => keyed_list (hh.decorators ds hds)) "decorators")).append
    (.optional hh.location "location")

/-! ### Properties -/

/-- The whole numbers of a kind of property have the property. -/
def PropertyKind.Fits (fits : ℤ → Prop) (kind : PropertyKind) : Prop :=
  ∀ i, .integer i ∈ kind.numerals → fits i

/-- The bounds of doubles are no whole numbers. -/
lemma integer_notMem_numerals (b : Bounds Double) (i : ℤ) :
    Numeral.integer i ∉ b.numerals .double := by
  simp [Bounds.numerals]

/-- The bounds of whole numbers are such. -/
lemma integer_mem_numerals {b : Bounds ℤ} {i : ℤ} :
    Numeral.integer i ∈ b.numerals .integer ↔ i ∈ b.lower ∨ i ∈ b.upper := by
  simp [Bounds.numerals]

lemma keyed_bounds {c : NodeClass} {number : α → Json} {b : Bounds α}
    (hlower : ∀ a ∈ b.lower, (number a).Keyed fits)
    (hupper : ∀ a ∈ b.upper, (number a).Keyed fits) : (b.toJson c number).Keyed fits :=
  (((KeyedFields.tag c).append (.optional hlower "lower")).append
    (.optional hupper "upper")).object (by decide)

/-- The fields of numbers, with a default and bounds. -/
lemma keyedFields_numbers {c : NodeClass} {number : α → Json} {default : Option α}
    {bounds : Option (Bounds α)} (hdefault : ∀ a ∈ default, (number a).Keyed fits)
    (hbounds : ∀ b ∈ bounds, (b.toJson c number).Keyed fits) :
    KeyedFields fits ["type", "defaultValue", "validator"]
      (optionalField "defaultValue" number default ++
        optionalField "validator" (Bounds.toJson c number) bounds) :=
  ((KeyedFields.optional hdefault "defaultValue").append
    (.optional hbounds "validator")).mono (by decide)

/-- The fields that only a kind of property has. -/
lemma PropertyKind.Fits.fields {kind : PropertyKind} (h : kind.Fits fits) :
    KeyedFields fits ["type", "defaultValue", "validator"] kind.fields := by
  cases kind with
  | object type default =>
      exact ((KeyedFields.present (keyed_reference type) "type").append
        (.optional (fun _ _ => .string _) "defaultValue")).mono (by decide)
  | relationship type =>
      exact (KeyedFields.present (keyed_reference type) "type").mono (by decide)
  | boolean default =>
      exact (KeyedFields.optional (fun _ _ => .bool _) "defaultValue").mono (by decide)
  | dateTime => exact KeyedFields.nil.mono (List.nil_sublist _)
  | string default pattern =>
      have hpattern : ∀ p ∈ pattern, p.toJson.Keyed fits := fun p _ =>
        (((KeyedFields.tag .stringRegexValidator).append (.present (.string p.pattern) "pattern"))
          |>.append (.present (.string p.flags) "flags")).object (by decide)
      exact ((KeyedFields.optional (fun _ _ => .string _) "defaultValue").append
        (.optional hpattern "validator")).mono (by decide)
  | double default bounds =>
      exact keyedFields_numbers (fun _ _ => .double _)
        fun b _ => keyed_bounds (fun _ _ => .double _) fun _ _ => .double _
  | integer | long =>
      refine keyedFields_numbers (fun i hi => .int (h i ?_)) fun b hb =>
        keyed_bounds (fun i hi => .int (h i ?_)) fun i hi => .int (h i ?_) <;>
        simp_all [numerals, integer_mem_numerals]

lemma keyed_property {p : Property} (hheader : p.header.IsKeyed fits) (hkind : p.kind.Fits fits) :
    p.toJson.Keyed fits :=
  ((((hheader.fields.append (.present (.bool p.isArray) "isArray")).append
    (.present (.bool p.isOptional) "isOptional")).append (.tag p.kind.nodeClass)).append
    hkind.fields).object (by decide)

/-- A value of an enumeration has no whole numbers but those of its header. -/
lemma keyed_enumValue {h : Header} (hh : h.IsKeyed fits) : h.toJson.Keyed fits :=
  (hh.fields.append (.tag .enumProperty)).object (by decide)

/-! ### Declarations -/

lemma keyed_concept {c : Concept} (hheader : c.header.IsKeyed fits)
    (hproperties : ∀ p ∈ c.properties, p.toJson.Keyed fits) : c.toJson.Keyed fits := by
  have hidentified : ∀ i ∈ c.identified, i.toJson.Keyed fits := by
    rintro (_ | name) -
    · exact (KeyedFields.tag .identified).object (by decide)
    · exact ((KeyedFields.tag .identifiedBy).append (.present (.string name) "name")).object
        (by decide)
  exact (((((hheader.fields.append (.tag (.concept c.kind))).append
    (.present (.bool c.isAbstract) "isAbstract")).append
    (.optional hidentified "identified")).append
    (.optional (fun r _ => keyed_reference r) "superType")).append
    (.present (keyed_list hproperties) "properties")).object (by decide)

lemma keyed_enumeration {e : Enumeration} (hheader : e.header.IsKeyed fits)
    (hvalues : ∀ h ∈ e.values, h.toJson.Keyed fits) : e.toJson.Keyed fits :=
  ((hheader.fields.append (.tag .enumDeclaration)).append
    (.present (keyed_list hvalues) "properties")).object (by decide)

/-! ### Models -/

/-- An import is only made of strings. -/
lemma keyed_import (i : Import) : i.toJson.Keyed fits := by
  cases i with
  | all ns uri =>
      exact (((KeyedFields.tag .importAll).append (.present (.string ns) "namespace")).append
        (.optional (fun _ _ => .string _) "uri")).object (by decide)
  | type ns name uri =>
      exact ((((KeyedFields.tag .importType).append (.present (.string ns) "namespace")).append
        (.present (.string name) "name")).append
        (.optional (fun _ _ => .string _) "uri")).object (by decide)

lemma keyed_model {m : Model} (h : ∀ d ∈ m.declarations, d.toJson.Keyed fits) :
    m.toJson.Keyed fits :=
  ((((((KeyedFields.tag .model).append (.present (.string m.ns) "namespace")).append
    (.optional (fun _ _ => .string _) "sourceUri")).append
    (.optional (fun _ _ => .string _) "concertoVersion")).append
    (.present (keyed_list fun i _ => keyed_import i) "imports")).append
    (.present (keyed_list h) "declarations")).object (by decide)

lemma keyed_ofModels {models : List Model} (h : ∀ m ∈ models, m.toJson.Keyed fits) :
    (Json.ofModels models).Keyed fits :=
  ((KeyedFields.tag .models).append (.present (keyed_list h) "models")).object (by decide)

/-! ### Keys alone -/

section

variable (hall : ∀ i, fits i)

include hall

lemma Location.keyed_toJson (l : Location) : l.toJson.Keyed fits :=
  keyed_location (keyed_position (hall _) (hall _) (hall _))
    (keyed_position (hall _) (hall _) (hall _))

lemma Header.isKeyed (h : Header) : h.IsKeyed fits where
  decorators _ _ _ _ :=
    keyed_decorator (fun _ _ _ _ => keyed_decoratorArgument fun l _ => l.keyed_toJson hall)
      fun l _ => l.keyed_toJson hall
  location l _ := l.keyed_toJson hall

lemma Declaration.keyed_toJson (d : Declaration) : d.toJson.Keyed fits := by
  cases d with
  | concept c =>
      exact keyed_concept (c.header.isKeyed hall) fun p _ =>
        keyed_property (p.header.isKeyed hall) fun i _ => hall i
  | enumeration e =>
      exact keyed_enumeration (e.header.isKeyed hall) fun h _ => keyed_enumValue (h.isKeyed hall)

/-- No object in the form of a model has a key twice. -/
theorem Model.keyed_toJson (m : Model) : m.toJson.Keyed fits :=
  keyed_model fun d _ => d.keyed_toJson hall

/-- Nor has one in the form of several models. -/
theorem keyed_ofModels_toJson (models : List Model) : (Json.ofModels models).Keyed fits :=
  keyed_ofModels fun m _ => m.keyed_toJson hall

end

end Concerto
