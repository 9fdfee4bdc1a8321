import Concerto.Proofs.Model.SourceForm
import Concerto.Proofs.Resolve.References
import Concerto.Proofs.Schema.Accepted
import Concerto.Proofs.Schema.Keyed

/-!
The JSON forms that have texts.

* `Grants`: a property holds for whatever a check accepts of a value with a text;
* `grants_model`, `grants_models`: models that are accepted have texts again;
* `Model.wellNamed_of_parse`, `Model.hasText_of_parse`: models that have been read from source text are
  well named and have JSON texts;
* `Model.IsUnlocated`, `Model.hasText_mapReferences`: these have no locations, and have texts when their
  references are resolved too.

Whole numbers are what matters here, since those with too many digits have no text. A check may take
a whole number from a truth value, a double or a string, and all that it takes have few enough digits.
-/

namespace Concerto

open Json (HasText)

/-! ### Checks -/

/-- The property holds for whatever the check accepts of a value with a text. -/
def Grants {α : Type} (check : Json → Checked α) (property : α → Prop) : Prop :=
  ∀ value a, value.HasText → check value = .ok a → property a

/-- The values in a value with a text have texts. -/
lemma inherited_hasText : Inherited HasText where
  field h := by
    cases h with
    | object _ hvalues => exact hvalues
  item h := by
    cases h with
    | array hitems => exact hitems

section
variable {α : Type} {check : Json → Checked α} {property : α → Prop} {f : FieldName}
  {fields : Fields}

namespace Grants

section
variable (h : Grants check property) (hfields : (Json.object fields).HasText)
include h hfields

lemma required {a : α} (ha : Concerto.required f check fields = .ok a) : property a :=
  Ensures.required h inherited_hasText hfields ha

lemma defaulted {default a : α} (hdefault : property default)
    (ha : Concerto.defaulted f default check fields = .ok a) : property a :=
  Ensures.defaulted h inherited_hasText hfields hdefault ha

lemma optional {o : Option α} (ho : Concerto.optional f check fields = .ok o) :
    ∀ a ∈ o, property a :=
  Ensures.optional h inherited_hasText hfields ho

end

lemma node {c : NodeClass} {build : Fields → Checked α}
    (h : ∀ fields a, (Json.object fields).HasText → build fields = .ok a → property a) :
    Grants (checkNode c build) property := Ensures.node h

lemma tagged {cases : List (NodeClass × (Json → Checked α))}
    (h : ∀ case ∈ cases, Grants case.2 property) : Grants (checkTagged cases) property :=
  Ensures.tagged h

lemma list (h : Grants check property) : Grants (checkList check) (∀ a ∈ ·, property a) :=
  Ensures.list h inherited_hasText

end Grants

end

/-! ### Leaves -/

/-- A whole number of a double that stands for one has few digits. -/
lemma isReadable_of_wholeOfDouble? {d : Double} {i : ℤ} (h : wholeOfDouble? d = some i) :
    IsReadable i := by
  rw [wholeOfDouble?, Option.filter_eq_some_iff] at h
  obtain ⟨hlow, hhigh⟩ : -wholeDoubleLimit < i ∧ i < wholeDoubleLimit := by simpa using h.2
  have hlimit : wholeDoubleLimit = 9223372036854775808 := rfl
  have hlt : i.natAbs < 10 ^ 19 := by omega
  have hlength := (Nat.length_toDigits_le_iff (b := 10) (by omega) (by omega)).mpr hlt
  exact hlength.trans (by decide)

/-- A whole number of a text that does not begin with too long a one has few digits. -/
lemma isReadable_of_plainInteger? {cs : List Char} {i : ℤ} (hsize : beginsOversize cs = false)
    (h : plainInteger? cs = some i) : IsReadable i := by
  unfold plainInteger? at h
  unfold beginsOversize at hsize
  generalize spanDash cs = dashed at h hsize
  obtain ⟨negative, unsigned⟩ := dashed
  -- the digits that are read are those that have been counted
  have hten : ∀ d ∈ (spanDigits Text.asciiDigit? unsigned).1, d < 10 :=
    fun d hd => lt_ten_of_mem_spanDigits (fun _ _ => Json.asciiDigit?_lt) hd
  simp only at h hsize
  generalize spanDigits Text.asciiDigit? unsigned = spanned at h hsize hten
  obtain ⟨digits, rest⟩ := spanned
  cases digits with
  | nil => cases h
  | cons first others =>
      simp only [Option.ite_none_left_eq_some, Option.some.injEq] at h
      obtain ⟨hplain, rfl⟩ := h
      refine isReadable_of_ofDigits (natAbs_signed _ _) hten (by simp) ?_
      -- a zero is followed by no other digit; in any other case all digits have been counted
      by_cases hzero : first = 0
      · have hothers : others = [] := by
          by_contra hne
          simp [hzero, hne] at hplain
        simp [hothers, integerDigitLimit]
      · simp [hzero] at hsize
        rw [List.length_cons]
        omega

/-- So has one that is read with more freedom. -/
lemma isReadable_of_looseInteger? {cs : List Char} {i : ℤ} (h : looseInteger? cs = some i) :
    IsReadable i := by
  have hrest : ∀ unsigned, (do
      let cs := dropZeroFraction (← dropLeadingZeros? unsigned)
      let cs := (withoutUnderscores? cs).getD cs
      if beginsOversize cs then none else plainInteger? cs) = some i → IsReadable i := by
    intro unsigned hread
    obtain ⟨digits, -, hread⟩ := Option.bind_eq_some_iff.mp hread
    simp only [Option.ite_none_left_eq_some] at hread
    exact isReadable_of_plainInteger? (by simpa using hread.1) hread.2
  unfold looseInteger? at h
  simp only at h
  split at h
  · cases h
  · exact hrest _ h
  · exact hrest _ h

/-- Every whole number that is accepted has few enough digits. -/
lemma grants_integer : Grants checkInteger IsReadable := by
  intro value i hvalue hi
  -- a number of the document has few digits already, a truth value has one; a text is measured
  -- before it is read
  cases value with
  | int n =>
      cases hi
      cases hvalue with
      | int h => exact h
  | bool b =>
      cases hi
      cases b <;> decide
  | string s =>
      simp only [checkInteger] at hi
      split at hi
      · cases hi
      next hsize =>
      split at hi
      · next hplain =>
          cases hi
          exact isReadable_of_plainInteger? (by simpa using hsize) hplain
      split at hi
      · next hloose =>
          cases hi
          exact isReadable_of_looseInteger? hloose
      · cases hi
  | double d =>
      simp only [checkInteger] at hi
      split at hi
      · split at hi
        · next hwhole =>
            cases hi
            exact isReadable_of_wholeOfDouble? hwhole
        · cases hi
      · cases hi
  | null | array | object => cases hi

lemma grants_position : Grants checkPosition (·.toJson.HasText) := by
  refine .node fun fields p hfields hp => ?_
  simp only [Checked.ok_iff_seq, Checked.map_eq_ok] at hp
  obtain ⟨_, offset, ⟨_, column, ⟨_, line, ⟨-, -, rfl⟩, hline, rfl⟩, hcolumn, rfl⟩, hoffset, rfl⟩ := hp
  exact keyed_position (grants_integer.required hfields hline)
    (grants_integer.required hfields hcolumn) (grants_integer.required hfields hoffset)

lemma grants_location : Grants checkLocation (·.toJson.HasText) := by
  refine .node fun fields l hfields hl => ?_
  simp only [Checked.ok_iff_seq, Checked.map_eq_ok] at hl
  obtain ⟨_, source, ⟨_, stop, ⟨_, start, ⟨-, -, rfl⟩, hstart, rfl⟩, hstop, rfl⟩, -, rfl⟩ := hl
  exact keyed_location (grants_position.required hfields hstart)
    (grants_position.required hfields hstop)

/-! ### Decorators -/

lemma grants_decoratorArgument : Grants checkDecoratorArgument (·.toJson.HasText) := by
  refine .tagged fun case hcase => ?_
  have hlocated : ∀ fields (location : Option Location), (Json.object fields).HasText →
      locationField fields = .ok location → ∀ l ∈ location, l.toJson.HasText :=
    fun _ _ hfields => grants_location.optional hfields
  simp only [List.mem_cons, List.not_mem_nil, or_false] at hcase
  rcases hcase with rfl | rfl | rfl | rfl <;> refine .node fun fields a hfields ha => ?_ <;>
    simp only [Checked.ok_iff_seq, Checked.map_eq_ok] at ha
  · obtain ⟨_, location, ⟨_, value, ⟨-, -, rfl⟩, -, rfl⟩, hlocation, rfl⟩ := ha
    exact keyed_decoratorArgument (hlocated fields location hfields hlocation)
  · obtain ⟨_, location, ⟨_, value, ⟨-, -, rfl⟩, -, rfl⟩, hlocation, rfl⟩ := ha
    exact keyed_decoratorArgument (hlocated fields location hfields hlocation)
  · obtain ⟨_, location, ⟨_, value, ⟨-, -, rfl⟩, -, rfl⟩, hlocation, rfl⟩ := ha
    exact keyed_decoratorArgument (hlocated fields location hfields hlocation)
  · obtain ⟨_, location, ⟨_, isArray, ⟨_, type, ⟨-, -, rfl⟩, -, rfl⟩, -, rfl⟩, hlocation, rfl⟩ := ha
    exact keyed_decoratorArgument (hlocated fields location hfields hlocation)

lemma grants_decorator : Grants checkDecorator (·.toJson.HasText) := by
  refine .node fun fields d hfields hd => ?_
  simp only [Checked.ok_iff_seq, Checked.map_eq_ok] at hd
  obtain ⟨_, location, ⟨_, arguments, ⟨_, name, ⟨-, -, rfl⟩, -, rfl⟩, harguments, rfl⟩, hlocation, rfl⟩ :=
    hd
  exact keyed_decorator (grants_decoratorArgument.list.optional hfields harguments)
    (grants_location.optional hfields hlocation)

/-! ### Headers -/

lemma isKeyed_of_headerOf {fields : Fields} (hfields : (Json.object fields).HasText) {h : Header}
    (hh : headerOf fields = .ok h) : h.IsKeyed IsReadable := by
  simp only [headerOf, Checked.ok_iff_seq, Checked.map_eq_ok] at hh
  obtain ⟨_, location, ⟨_, decorators, ⟨_, -, rfl⟩, hdecorators, rfl⟩, hlocation, rfl⟩ := hh
  exact ⟨grants_decorator.list.optional hfields hdecorators,
    grants_location.optional hfields hlocation⟩

/-! ### Properties -/

lemma grants_bounds (c : NodeClass) :
    Grants (checkBounds c checkInteger) fun b =>
      ∀ i, .integer i ∈ b.numerals .integer → IsReadable i := by
  refine .node fun fields b hfields hb i hi => ?_
  simp only [Checked.ok_iff_seq, Checked.map_eq_ok] at hb
  obtain ⟨_, upper, ⟨_, lower, ⟨-, -, rfl⟩, hlower, rfl⟩, hupper, rfl⟩ := hb
  rcases integer_mem_numerals.mp hi with hi | hi
  · exact grants_integer.optional hfields hlower i hi
  · exact grants_integer.optional hfields hupper i hi

/-- The default and the bounds of whole numbers of one type. -/
lemma fits_integers {c : NodeClass} {fields : Fields}
    (hfields : (Json.object fields).HasText) {default : Option ℤ} {bounds : Option (Bounds ℤ)}
    (hdefault : defaultOf checkInteger fields = .ok default)
    (hbounds : optional (.single "validator") (checkBounds c checkInteger) fields = .ok bounds) :
    (PropertyKind.integer default bounds).Fits IsReadable := by
  intro i hi
  rcases List.mem_append.mp hi with hi | hi
  · have hdefaults := grants_integer.optional hfields hdefault
    cases default with
    | none => simp at hi
    | some n =>
        obtain rfl : i = n := by simpa using hi
        exact hdefaults i rfl
  · have hranges := (grants_bounds c).optional hfields hbounds
    cases bounds with
    | none => simp at hi
    | some b => exact hranges b rfl i hi

/-- Whatever kind of property is built of fields, its whole numbers have few enough digits. -/
lemma fits_of_build {case : NodeClass × (Fields → Checked PropertyKind)}
    (hcase : case ∈ propertyKinds) {fields : Fields} (hfields : (Json.object fields).HasText)
    {kind : PropertyKind} (hkind : case.2 fields = .ok kind) : kind.Fits IsReadable := by
  simp only [propertyKinds, List.mem_cons, List.not_mem_nil, or_false] at hcase
  -- only the kinds of whole numbers hold any
  rcases hcase with rfl | rfl | rfl | rfl | rfl | rfl | rfl | rfl
  · simp only [objectKind, Checked.ok_iff_seq, Checked.map_eq_ok] at hkind
    obtain ⟨_, default, ⟨type, -, rfl⟩, -, rfl⟩ := hkind
    simp [PropertyKind.Fits, PropertyKind.numerals]
  · simp only [relationshipKind, Checked.map_eq_ok] at hkind
    obtain ⟨type, -, rfl⟩ := hkind
    simp [PropertyKind.Fits, PropertyKind.numerals]
  · simp only [booleanKind, Checked.map_eq_ok] at hkind
    obtain ⟨default, -, rfl⟩ := hkind
    simp [PropertyKind.Fits, PropertyKind.numerals]
  · cases hkind
    simp [PropertyKind.Fits, PropertyKind.numerals]
  · simp only [stringKind, Checked.ok_iff_seq, Checked.map_eq_ok] at hkind
    obtain ⟨_, pattern, ⟨default, -, rfl⟩, -, rfl⟩ := hkind
    simp [PropertyKind.Fits, PropertyKind.numerals]
  · simp only [doubleKind, Checked.ok_iff_seq, Checked.map_eq_ok] at hkind
    obtain ⟨_, bounds, ⟨default, -, rfl⟩, -, rfl⟩ := hkind
    cases bounds <;>
      simp [PropertyKind.Fits, PropertyKind.numerals, integer_notMem_numerals]
  · simp only [integerKind, Checked.ok_iff_seq, Checked.map_eq_ok] at hkind
    obtain ⟨_, bounds, ⟨default, hdefault, rfl⟩, hbounds, rfl⟩ := hkind
    exact fits_integers hfields hdefault hbounds
  · simp only [longKind, Checked.ok_iff_seq, Checked.map_eq_ok] at hkind
    obtain ⟨_, bounds, ⟨default, hdefault, rfl⟩, hbounds, rfl⟩ := hkind
    exact fits_integers hfields hdefault hbounds

lemma grants_property : Grants checkProperty (·.toJson.HasText) := by
  refine .tagged fun case hcase => ?_
  obtain ⟨⟨c, build⟩, hmem, rfl⟩ := List.mem_map.mp hcase
  refine .node fun fields p hfields hp => ?_
  simp only [Checked.ok_iff_seq, Checked.map_eq_ok] at hp
  obtain ⟨_, kind, ⟨_, -, ⟨_, isOptional, ⟨_, isArray, ⟨header, hheader, rfl⟩, -, rfl⟩, -, rfl⟩, -,
    rfl⟩, hkind, rfl⟩ := hp
  exact keyed_property (isKeyed_of_headerOf hfields hheader)
    (fits_of_build hmem hfields hkind)

lemma grants_enumValue : Grants checkEnumValue (·.toJson.HasText) := by
  refine .node fun fields h hfields hh => ?_
  simp only [Checked.ok_iff_seq, Checked.map_eq_ok] at hh
  obtain ⟨_, -, ⟨header, hheader, rfl⟩, -, rfl⟩ := hh
  exact keyed_enumValue (isKeyed_of_headerOf hfields hheader)

/-! ### Declarations -/

lemma grants_concept (kind : ConceptKind) : Grants (checkConcept kind) (·.toJson.HasText) := by
  refine .node fun fields c hfields hc => ?_
  simp only [Checked.ok_iff_seq, Checked.map_eq_ok] at hc
  obtain ⟨_, properties, ⟨_, superType, ⟨_, identified, ⟨_, isAbstract, ⟨_, -,
    ⟨header, hheader, rfl⟩, -, rfl⟩, -, rfl⟩, -, rfl⟩, -, rfl⟩, hproperties, rfl⟩ := hc
  exact keyed_concept (isKeyed_of_headerOf hfields hheader)
    (grants_property.list.defaulted hfields (by simp) hproperties)

lemma grants_enumeration : Grants checkEnumeration (·.toJson.HasText) := by
  refine .node fun fields e hfields he => ?_
  simp only [Checked.ok_iff_seq, Checked.map_eq_ok] at he
  obtain ⟨_, values, ⟨_, -, ⟨header, hheader, rfl⟩, -, rfl⟩, hvalues, rfl⟩ := he
  exact keyed_enumeration (isKeyed_of_headerOf hfields hheader)
    (grants_enumValue.list.defaulted hfields (by simp) hvalues)

lemma grants_declaration : Grants checkDeclaration (·.toJson.HasText) := by
  refine .tagged fun case hcase => ?_
  rcases List.mem_append.mp hcase with hcase | hcase
  · obtain ⟨kind, -, rfl⟩ := List.mem_map.mp hcase
    exact Ensures.map (grants_concept kind) Declaration.concept fun _ hc => hc
  · obtain rfl := List.mem_singleton.mp hcase
    exact Ensures.map grants_enumeration Declaration.enumeration fun _ he => he

/-! ### Models -/

/-- A model that is accepted of a value with a text has a text again. -/
theorem grants_model : Grants checkModel (·.toJson.HasText) := by
  refine .node fun fields m hfields hm => ?_
  simp only [Checked.ok_iff_seq, Checked.map_eq_ok] at hm
  obtain ⟨_, declarations, ⟨_, imports, ⟨_, version, ⟨_, uri, ⟨_, ns, ⟨-, -, rfl⟩, -, rfl⟩, -, rfl⟩,
    -, rfl⟩, -, rfl⟩, hdeclarations, rfl⟩ := hm
  exact keyed_model (grants_declaration.list.defaulted hfields (by simp) hdeclarations)

/-- So do several models. -/
theorem grants_models : Grants checkModels fun models => (Json.ofModels models).HasText := by
  refine .node fun fields models hfields hmodels => ?_
  simp only [Checked.ok_iff_seq, Checked.map_eq_ok] at hmodels
  obtain ⟨_, models, ⟨-, -, rfl⟩, hmodels, rfl⟩ := hmodels
  exact keyed_ofModels (grants_model.list.defaulted hfields (by simp) hmodels)

/-! ### Source text -/

/-- What source text can tell is well named. -/
lemma Declaration.IsSpellable.wellNamed {d : Declaration} (h : d.IsSpellable) : d.WellNamed := by
  cases d with
  | concept c => exact ⟨h.name.1, fun p hp => (h.properties p hp).name⟩
  | enumeration e => exact ⟨h.name.1, fun v hv => (h.values v hv).1⟩

/-- A model that a text denotes is well named. -/
lemma Model.wellNamed_of_parse {source : String} {m : Model} (h : Model.parse source = .ok m) :
    m.WellNamed := by
  obtain ⟨_, _, _, _, -, -, hread⟩ := Model.exists_of_parse h
  intro d hd
  exact (hread.declarations d hd).wellNamed

/-- Nothing in the decorator has a location. -/
structure Decorator.IsUnlocated (d : Decorator) : Prop where
  arguments : ∀ as ∈ d.arguments, ∀ a ∈ as, a.location = none
  location : d.location = none

/-- Nothing in the header has a location. -/
structure Header.IsUnlocated (h : Header) : Prop where
  decorators : ∀ ds ∈ h.decorators, ∀ d ∈ ds, d.IsUnlocated
  location : h.location = none

namespace Header

/-- Source text has no place for locations. -/
lemma isUnlocated_sourceForm (h : Header) : h.sourceForm.IsUnlocated where
  decorators ds hds d hd := by
    obtain ⟨ds', -, rfl⟩ := Option.map_eq_some_iff.mp hds
    obtain ⟨d', -, rfl⟩ := List.mem_map.mp hd
    refine ⟨fun as has a ha => ?_, rfl⟩
    obtain ⟨as', -, rfl⟩ := Option.map_eq_some_iff.mp has
    obtain ⟨a', -, rfl⟩ := List.mem_map.mp ha
    cases a' <;> rfl
  location := rfl

/-- Changing references adds no locations. -/
lemma IsUnlocated.mapReferences {h : Header} (hh : h.IsUnlocated) (f : Reference → Reference) :
    (h.mapReferences f).IsUnlocated where
  decorators ds hds d hd := by
    obtain ⟨ds', hds', rfl⟩ := Option.map_eq_some_iff.mp hds
    obtain ⟨d', hd', rfl⟩ := List.mem_map.mp hd
    obtain ⟨harguments, hlocation⟩ := hh.decorators ds' hds' d' hd'
    refine ⟨fun as has a ha => ?_, hlocation⟩
    obtain ⟨as', has', rfl⟩ := Option.map_eq_some_iff.mp has
    obtain ⟨a', ha', rfl⟩ := List.mem_map.mp ha
    rw [← harguments as' has' a' ha']
    cases a' <;> rfl
  location := hh.location

/-- Decorators without locations have texts, since they hold no whole numbers. -/
lemma IsUnlocated.isKeyed {h : Header} (hh : h.IsUnlocated) : h.IsKeyed IsReadable where
  decorators ds hds d hd := by
    obtain ⟨harguments, hlocation⟩ := hh.decorators ds hds d hd
    refine keyed_decorator (fun as has a ha => ?_) (by simp [hlocation])
    exact keyed_decoratorArgument (by simp [harguments as has a ha])
  location := by simp [hh.location]

end Header

namespace Declaration

/-- The header of the declaration, and those of its properties or values. -/
def headers : Declaration → List Header
  | concept c => c.header :: c.properties.map Property.header
  | enumeration e => e.header :: e.values

lemma isUnlocated_sourceForm (d : Declaration) : ∀ h ∈ d.sourceForm.headers, h.IsUnlocated := by
  cases d with
  | concept c =>
      refine List.forall_mem_cons.mpr ⟨c.header.isUnlocated_sourceForm, ?_⟩
      exact List.forall_mem_map.mpr <| List.forall_mem_map.mpr fun p _ =>
        p.header.isUnlocated_sourceForm
  | enumeration e =>
      refine List.forall_mem_cons.mpr ⟨e.header.isUnlocated_sourceForm, ?_⟩
      exact List.forall_mem_map.mpr fun v _ => v.isUnlocated_sourceForm

lemma isUnlocated_mapReferences {d : Declaration} (h : ∀ h ∈ d.headers, h.IsUnlocated)
    (enumValues : Bool) (f : Reference → Reference) :
    ∀ h ∈ (d.mapReferences enumValues f).headers, h.IsUnlocated := by
  cases d with
  | concept c =>
      obtain ⟨hheader, hproperties⟩ := List.forall_mem_cons.mp h
      refine List.forall_mem_cons.mpr ⟨hheader.mapReferences f, ?_⟩
      rw [List.forall_mem_map] at hproperties ⊢
      exact List.forall_mem_map.mpr fun p hp => (hproperties p hp).mapReferences f
  | enumeration e =>
      obtain ⟨hheader, hvalues⟩ := List.forall_mem_cons.mp h
      refine List.forall_mem_cons.mpr ⟨hheader.mapReferences f, ?_⟩
      cases enumValues with
      | false => exact hvalues
      | true => exact List.forall_mem_map.mpr fun v hv => (hvalues v hv).mapReferences f

/-- A declaration without locations has a text if its whole numbers have few enough digits. -/
lemma hasText_of_isUnlocated {d : Declaration} (h : ∀ h ∈ d.headers, h.IsUnlocated)
    (hreadable : ∀ i, .integer i ∈ d.numerals → IsReadable i) : d.toJson.HasText := by
  cases d with
  | concept c =>
      obtain ⟨hheader, hproperties⟩ := List.forall_mem_cons.mp h
      refine keyed_concept hheader.isKeyed fun p hp => ?_
      refine keyed_property (hproperties _ (List.mem_map_of_mem hp)).isKeyed fun i hi => ?_
      exact hreadable i (List.mem_append_right _
        (List.mem_flatMap.mpr ⟨p, hp, List.mem_append_right _ hi⟩))
  | enumeration e =>
      obtain ⟨hheader, hvalues⟩ := List.forall_mem_cons.mp h
      exact keyed_enumeration hheader.isKeyed fun v hv => keyed_enumValue (hvalues v hv).isKeyed

end Declaration

namespace Model

/-- Nothing in the declarations of the model has a location. -/
def IsUnlocated (m : Model) : Prop := ∀ d ∈ m.declarations, ∀ h ∈ d.headers, h.IsUnlocated

/-- A model that has been read has no locations, and its whole numbers have few enough digits. -/
lemma isUnlocated_of_parse {source : String} {m : Model} (h : Model.parse source = .ok m) :
    m.IsUnlocated ∧ ∀ i, .integer i ∈ m.numerals → IsReadable i := by
  obtain ⟨-, -, taken, -, -, -, hread⟩ := Model.exists_of_parse h
  refine ⟨?_, hread.standsFor.readable⟩
  rw [← hread.sourceForm, IsUnlocated, sourceForm, List.forall_mem_map]
  exact fun d _ => d.isUnlocated_sourceForm

/-- A model without locations has a JSON text if its whole numbers have few enough digits. -/
lemma hasText_of_isUnlocated {m : Model} (h : m.IsUnlocated)
    (hreadable : ∀ i, .integer i ∈ m.numerals → IsReadable i) : m.toJson.HasText :=
  keyed_model fun d hd => Declaration.hasText_of_isUnlocated (h d hd) fun i hi =>
    hreadable i (List.mem_flatMap.mpr ⟨d, hd, hi⟩)

/-- A model that has been read from source text has a JSON text. -/
theorem hasText_of_parse {source : String} {m : Model} (h : Model.parse source = .ok m) :
    m.toJson.HasText :=
  hasText_of_isUnlocated (isUnlocated_of_parse h).1 (isUnlocated_of_parse h).2

/-- So it has when its references have been resolved. -/
lemma hasText_mapReferences {source : String} {m : Model} (h : Model.parse source = .ok m)
    {f : Reference → Reference} (hf : ∀ r, (f r).name = r.name) (enumValues : Bool) :
    (m.mapReferences enumValues f).toJson.HasText := by
  obtain ⟨hunlocated, hreadable⟩ := isUnlocated_of_parse h
  refine hasText_of_isUnlocated ?_ ?_
  · rw [IsUnlocated, mapReferences, List.forall_mem_map]
    exact fun d hd => Declaration.isUnlocated_mapReferences (hunlocated d hd) enumValues f
  · rwa [← numerals_sourceForm, sourceForm_mapReferences hf, numerals_sourceForm]

end Model

end Concerto
