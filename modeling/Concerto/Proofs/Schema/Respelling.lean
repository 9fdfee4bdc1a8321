import Concerto.Entries
import Concerto.Proofs.Outcome
import Concerto.Proofs.Schema.Codec
import Mathlib.Data.List.Nodup

/-!
The order of the keys in an object, and the spelling of each, are of no matter to a check.

* `Respelled`: a JSON value with the keys of its objects in another order and in other spellings;
* `Matching`: objects in which every field is found with the same value, up to such differences;
* `AllowsRespelling`: a check accepts a respelled value like the value itself, with the same result;
* `AllowsRespelling.node`, `AllowsRespelling.tagged`: this is so for every class, since an object that is
  accepted has no field twice, and for every choice of classes, since the tag may be respelled too.
-/

namespace Concerto

/-! ### Keys -/

/-- Two keys are the same, or are the spellings of one field of some class. -/
def SameField (key key' : String) : Prop :=
  key = key' ∨ ∃ c : NodeClass, ∃ f ∈ c.fieldNames, key ∈ f.keys ∧ key' ∈ f.keys

-- `Respelled` is nested in this relation, and can be as long as the fields are indices of it
/-- The same field with related values. -/
inductive FieldMatches (related : Json → Json → Prop) : String × Json → String × Json → Prop
  | mk {key key' : String} {value value' : Json} (hkey : SameField key key')
      (hvalue : related value value') : FieldMatches related (key, value) (key', value')

/-- The same value, but for the order and the spelling of the keys in its objects. As an object has a value
for each of its keys, no key stands in it twice. -/
inductive Respelled : Json → Json → Prop
  | null : Respelled .null .null
  | bool (b : Bool) : Respelled (.bool b) (.bool b)
  | int (i : Int) : Respelled (.int i) (.int i)
  | double (d : Double) : Respelled (.double d) (.double d)
  | string (s : String) : Respelled (.string s) (.string s)
  | array {items items' : List Json} (h : List.Forall₂ Respelled items items') :
      Respelled (.array items) (.array items')
  | object {fields fields' shuffled : Fields} (hdistinct : (Entries.keys fields).Nodup)
      (h : List.Forall₂ (FieldMatches Respelled) fields fields') (horder : fields'.Perm shuffled) :
      Respelled (.object fields) (.object shuffled)

/-! ### Fields -/

/-- The fields of all classes. -/
def knownFields : List FieldName := NodeClass.all.flatMap NodeClass.fieldNames

/-- The field that a key stands for. -/
def fieldOf? (key : String) : Option FieldName := knownFields.find? fun f => key ∈ f.keys

/-- No key is a spelling of two fields. -/
lemma fieldOf?_of_mem_keys : ∀ f ∈ knownFields, ∀ key ∈ f.keys, fieldOf? key = some f := by
  decide +kernel

lemma mem_knownFields {c : NodeClass} {f : FieldName} (hf : f ∈ c.fieldNames) : f ∈ knownFields :=
  List.mem_flatMap.mpr ⟨c, c.mem_all, hf⟩

/-- The keys of a name are all spellings of some field. -/
def FieldName.IsKnown (f : FieldName) : Prop := ∃ g, ∀ key, fieldOf? key = some g ↔ key ∈ f.keys

lemma isKnown_of_mem {c : NodeClass} {f : FieldName} (hf : f ∈ c.fieldNames) : f.IsKnown := by
  refine ⟨f, fun key => ⟨fun h => ?_, fieldOf?_of_mem_keys f (mem_knownFields hf) key⟩⟩
  simpa using List.find?_some h

lemma isKnown_class : FieldName.class'.IsKnown :=
  isKnown_of_mem (c := .identified) (List.mem_singleton_self _)

lemma SameField.fieldOf?_eq {key key' : String} (h : SameField key key') :
    fieldOf? key = fieldOf? key' := by
  rcases h with rfl | ⟨c, f, hf, hkey, hkey'⟩
  · rfl
  · rw [fieldOf?_of_mem_keys f (mem_knownFields hf) key hkey,
      fieldOf?_of_mem_keys f (mem_knownFields hf) key' hkey']

lemma FieldName.IsKnown.mem_keys_iff {f : FieldName} (hf : f.IsKnown) {key key' : String}
    (h : fieldOf? key = fieldOf? key') : key ∈ f.keys ↔ key' ∈ f.keys := by
  obtain ⟨g, hg⟩ := hf
  rw [← hg key, h, hg key']

/-- No field comes up twice, in whatever spelling. -/
def Clear (fields : Fields) : Prop := ((Entries.keys fields).map fieldOf?).Nodup

/-- A field is found under the one key that it has. -/
lemma find?_eq_some {fields : Fields} (hclear : Clear fields) {f : FieldName} (hf : f.IsKnown)
    {key : String} {value : Json} :
    f.find? fields = some (key, value) ↔ (key, value) ∈ fields ∧ key ∈ f.keys := by
  obtain ⟨g, hg⟩ := hf
  refine ⟨FieldName.mem_of_find?, ?_⟩
  rintro ⟨hmem, hkey⟩
  have hlookup := Entries.lookup_of_mem (List.Nodup.of_map _ hclear) hmem
  -- both spellings stand for one field, which no two keys do
  have hsame : ∀ key' ∈ f.keys, ∀ v, fields.lookup key' = some v → key' = key := by
    intro key' hkey' v hv
    refine List.inj_on_of_nodup_map hclear (List.mem_map_of_mem (mem_of_lookup hv))
      (List.mem_map_of_mem hmem) ?_
    rw [(hg key').mpr hkey', (hg key).mpr hkey]
  rw [FieldName.find?]
  cases hjson : fields.lookup f.json with
  | some v =>
      obtain rfl := hsame f.json (by simp [FieldName.keys]) v hjson
      rw [hlookup] at hjson
      cases hjson
      rfl
  | none =>
      have hplain : key = f.plain := by
        simp only [FieldName.keys, List.mem_cons, List.not_mem_nil, or_false] at hkey
        refine hkey.resolve_left ?_
        rintro rfl
        rw [hlookup] at hjson
        cases hjson
      rw [← hplain, hlookup]
      rfl

/-- The spelling that an object uses is the key under which the field is found. -/
lemma keyIn?_eq (f : FieldName) (fields : Fields) :
    f.keyIn? fields = (f.find? fields).map Prod.fst := by
  rw [FieldName.keyIn?, FieldName.find?]
  cases fields.lookup f.json with
  | some v => rfl
  | none => cases fields.lookup f.plain <;> rfl

lemma unknownKeys_eq_nil_iff {c : NodeClass} {fields : Fields} : unknownKeys c fields = [] ↔
    ∀ key ∈ Entries.keys fields, ∃ f ∈ c.fieldNames, f.keyIn? fields = some key := by
  simp [unknownKeys, Entries.keys, List.filter_eq_nil_iff]

/-- If all keys are those of fields, no field comes up twice. -/
lemma clear_of_unknownKeys {c : NodeClass} {fields : Fields}
    (hdistinct : (Entries.keys fields).Nodup) (h : unknownKeys c fields = []) : Clear fields := by
  have hkeyIn : ∀ f ∈ c.fieldNames, ∀ key, f.keyIn? fields = some key → fieldOf? key = some f := by
    intro f hf key hkey
    rw [keyIn?_eq, Option.map_eq_some_iff] at hkey
    obtain ⟨⟨_, value⟩, hfind, rfl⟩ := hkey
    exact fieldOf?_of_mem_keys f (mem_knownFields hf) _ (FieldName.mem_of_find? hfind).2
  refine List.Nodup.map_on (fun key hkey key' hkey' heq => ?_) hdistinct
  obtain ⟨f, hf, hfkey⟩ := unknownKeys_eq_nil_iff.mp h key hkey
  obtain ⟨f', hf', hfkey'⟩ := unknownKeys_eq_nil_iff.mp h key' hkey'
  rw [hkeyIn f hf key hfkey, hkeyIn f' hf' key' hfkey'] at heq
  obtain rfl := Option.some.inj heq
  exact Option.some.inj (hfkey.symm.trans hfkey')

/-! ### Objects side by side -/

/-- No field comes up twice in either object, and every field of the one has the same field in the other,
with the same value but for the order and the spelling of keys. -/
structure Matching (fields fields' : Fields) : Prop where
  clear : Clear fields
  clear' : Clear fields'
  forth : ∀ field ∈ fields, ∃ field' ∈ fields', fieldOf? field.1 = fieldOf? field'.1 ∧
    Respelled field.2 field'.2
  back : ∀ field' ∈ fields', ∃ field ∈ fields, fieldOf? field.1 = fieldOf? field'.1 ∧
    Respelled field.2 field'.2

namespace Matching

variable {fields fields' shuffled : Fields}

lemma of_forall₂ (hclear : Clear fields) (h : List.Forall₂ (FieldMatches Respelled) fields fields')
    (horder : fields'.Perm shuffled) : Matching fields shuffled := by
  have hpair : ∀ field field', FieldMatches Respelled field field' →
      fieldOf? field.1 = fieldOf? field'.1 ∧ Respelled field.2 field'.2 := by
    rintro _ _ ⟨hkey, hvalue⟩
    exact ⟨hkey.fieldOf?_eq, hvalue⟩
  have hsame : fields.map (fun field => fieldOf? field.1) =
      fields'.map fun field => fieldOf? field.1 :=
    map_eq_map_of_forall₂ (h.imp fun field field' hmatch => (hpair field field' hmatch).1)
  refine ⟨hclear, ?_, fun field hfield => ?_, fun field' hfield' => ?_⟩
  · rw [Clear, Entries.keys, List.map_map] at hclear ⊢
    have hclear' : (fields'.map fun field => fieldOf? field.1).Nodup := hsame ▸ hclear
    exact (horder.map _).nodup_iff.mp hclear'
  · obtain ⟨field', hfield', hmatch⟩ := exists_of_forall₂_left h field hfield
    exact ⟨field', horder.mem_iff.mp hfield', hpair _ _ hmatch⟩
  · obtain ⟨field, hfield, hmatch⟩ := exists_of_forall₂_right h field' (horder.mem_iff.mpr hfield')
    exact ⟨field, hfield, hpair _ _ hmatch⟩

/-- A field that is found in the one object is found in the other. -/
lemma exists_find? (h : Matching fields fields') {f : FieldName} (hf : f.IsKnown) {key : String}
    {value : Json} (hfind : f.find? fields = some (key, value)) :
    ∃ key' value', f.find? fields' = some (key', value') ∧ Respelled value value' := by
  obtain ⟨hmem, hkey⟩ := (find?_eq_some h.clear hf).mp hfind
  obtain ⟨⟨key', value'⟩, hmem', hsame, hvalue⟩ := h.forth _ hmem
  have hkey' := (hf.mem_keys_iff hsame).mp hkey
  exact ⟨key', value', (find?_eq_some h.clear' hf).mpr ⟨hmem', hkey'⟩, hvalue⟩

/-- A field that is not found in the one object is not found in the other. -/
lemma find?_eq_none (h : Matching fields fields') {f : FieldName} (hf : f.IsKnown)
    (hfind : f.find? fields = none) : f.find? fields' = none := by
  by_contra hne
  obtain ⟨⟨key', value'⟩, hfind'⟩ := Option.ne_none_iff_exists'.mp hne
  obtain ⟨hmem', hkey'⟩ := (find?_eq_some h.clear' hf).mp hfind'
  obtain ⟨⟨key, value⟩, hmem, hsame, -⟩ := h.back _ hmem'
  have hkey := (hf.mem_keys_iff hsame).mpr hkey'
  rw [(find?_eq_some h.clear hf).mpr ⟨hmem, hkey⟩] at hfind
  cases hfind

/-- The keys of the one object are those of fields of a class if the keys of the other are. -/
lemma unknownKeys_eq_nil (h : Matching fields fields') {c : NodeClass}
    (hknown : unknownKeys c fields = []) : unknownKeys c fields' = [] := by
  refine unknownKeys_eq_nil_iff.mpr fun key' hkey' => ?_
  obtain ⟨⟨key', value'⟩, hmem', rfl⟩ := List.mem_map.mp hkey'
  obtain ⟨⟨key, value⟩, hmem, hsame, -⟩ := h.back _ hmem'
  obtain ⟨f, hf, hkey⟩ := unknownKeys_eq_nil_iff.mp hknown key (List.mem_map_of_mem hmem)
  refine ⟨f, hf, ?_⟩
  rw [keyIn?_eq, Option.map_eq_some_iff] at hkey
  obtain ⟨⟨_, v⟩, hfind, rfl⟩ := hkey
  have hisKnown := isKnown_of_mem hf
  have hkey' := (hisKnown.mem_keys_iff hsame).mp (FieldName.mem_of_find? hfind).2
  rw [keyIn?_eq, (find?_eq_some h.clear' hisKnown).mpr ⟨hmem', hkey'⟩]
  rfl

/-- The tag of the one object is the tag of the other. -/
lemma exists_tagOf? (h : Matching fields fields') {tag : Json} (htag : tagOf? fields = some tag) :
    ∃ tag', tagOf? fields' = some tag' ∧ Respelled tag tag' := by
  -- a tag is found like the field that names the class, but with its second spelling first
  let swapped : FieldName := ⟨FieldName.class'.plain, FieldName.class'.json⟩
  have hswapped : swapped.IsKnown := by
    obtain ⟨g, hg⟩ := isKnown_class
    refine ⟨g, fun key => (hg key).trans ?_⟩
    simp [swapped, FieldName.keys, or_comm]
  have htagOf : ∀ fields, tagOf? fields = (swapped.find? fields).map Prod.snd := by
    intro fields
    rw [tagOf?, FieldName.find?]
    cases fields.lookup FieldName.class'.plain with
    | some v => rfl
    | none => cases fields.lookup FieldName.class'.json <;> simp [swapped]
  rw [htagOf, Option.map_eq_some_iff] at htag
  obtain ⟨⟨key, value⟩, hfind, rfl⟩ := htag
  obtain ⟨key', value', hfind', hvalue⟩ := h.exists_find? hswapped hfind
  exact ⟨value', by rw [htagOf, hfind']; rfl, hvalue⟩

end Matching

/-! ### Checks -/

section
variable {α β : Type}

/-- The check makes the same of a value in whatever order and spelling its keys are. An object that it
accepts has no field twice. -/
structure AllowsRespelling (check : Json → Checked α) : Prop where
  clear : ∀ {fields : Fields} {a : α}, (Entries.keys fields).Nodup →
    check (.object fields) = .ok a → Clear fields
  eq_ok : ∀ {value value' : Json} {a : α}, Respelled value value' → check value = .ok a →
    check value' = .ok a

/-- The same is built of objects with the same fields. -/
def AllowsMatching (build : Fields → Checked α) : Prop :=
  ∀ (fields fields' : Fields) (a : α), Matching fields fields' → build fields = .ok a →
    build fields' = .ok a

namespace AllowsMatching

/-! ### Fields -/

variable {f : FieldName} {check : Json → Checked α}

lemma ok (a : α) : AllowsMatching fun _ => .ok a :=
  fun _ _ _ _ ha => ha

lemma map {build : Fields → Checked α} (h : AllowsMatching build) (f : α → β) :
    AllowsMatching fun fields => f <$> build fields := by
  intro fields fields' b hmatch hb
  obtain ⟨a, ha, rfl⟩ := Checked.map_eq_ok.mp hb
  exact Checked.map_eq_ok.mpr ⟨a, h _ _ a hmatch ha, rfl⟩

lemma seq {buildFun : Fields → Checked (α → β)} {build : Fields → Checked α}
    (hfun : AllowsMatching buildFun) (h : AllowsMatching build) :
    AllowsMatching fun fields => buildFun fields <*> build fields := by
  intro fields fields' b hmatch hb
  obtain ⟨g, a, hg, ha, rfl⟩ := Checked.ok_iff_seq.mp hb
  exact Checked.ok_iff_seq.mpr ⟨g, a, hfun _ _ g hmatch hg, h _ _ a hmatch ha, rfl⟩

lemma required (h : AllowsRespelling check) (hf : f.IsKnown) :
    AllowsMatching (Concerto.required f check) := by
  intro fields fields' a hmatch ha
  rw [Concerto.required] at ha ⊢
  split at ha
  · next key value hfind =>
      obtain ⟨key', value', hfind', hvalue⟩ := hmatch.exists_find? hf hfind
      simp only [hfind', Checked.within_eq_ok] at ha ⊢
      exact h.eq_ok hvalue ha
  · cases ha

lemma defaulted {default : α} (h : AllowsRespelling check) (hf : f.IsKnown) :
    AllowsMatching (Concerto.defaulted f default check) := by
  intro fields fields' a hmatch ha
  rw [Concerto.defaulted] at ha ⊢
  split at ha
  · next key value hfind =>
      obtain ⟨key', value', hfind', hvalue⟩ := hmatch.exists_find? hf hfind
      simp only [hfind', Checked.within_eq_ok] at ha ⊢
      exact h.eq_ok hvalue ha
  · next hfind =>
      rw [hmatch.find?_eq_none hf hfind]
      exact ha

lemma optional (h : AllowsRespelling check) (hf : f.IsKnown) :
    AllowsMatching (Concerto.optional f check) := by
  intro fields fields' o hmatch ho
  rw [Concerto.optional] at ho ⊢
  split at ho
  · next key hfind =>
      obtain ⟨key', value', hfind', hvalue⟩ := hmatch.exists_find? hf hfind
      cases hvalue
      simpa only [hfind'] using ho
  · next key value hne hfind =>
      obtain ⟨key', value', hfind', hvalue⟩ := hmatch.exists_find? hf hfind
      obtain ⟨a, ha, rfl⟩ := Checked.map_eq_ok.mp ho
      have ha' := h.eq_ok hvalue (Checked.within_eq_ok.mp ha)
      rw [hfind']
      -- a value that is not null is still not null
      cases hvalue <;> first
        | exact absurd rfl hne
        | exact Checked.map_eq_ok.mpr ⟨a, Checked.within_eq_ok.mpr ha', rfl⟩
  · next hfind =>
      rw [hmatch.find?_eq_none hf hfind]
      exact ho

end AllowsMatching

namespace AllowsRespelling

variable {check : Json → Checked α}

/-! ### Values -/

/-- A check that accepts neither objects nor lists. -/
lemma of_leaf (hobject : ∀ fields a, check (.object fields) ≠ .ok a)
    (harray : ∀ items a, check (.array items) ≠ .ok a) : AllowsRespelling check := by
  refine ⟨fun _ ha => absurd ha (hobject _ _), fun hvalue ha => ?_⟩
  cases hvalue with
  | array => exact absurd ha (harray _ _)
  | object => exact absurd ha (hobject _ _)
  | _ => exact ha

lemma map (h : AllowsRespelling check) (f : α → β) :
    AllowsRespelling fun value => f <$> check value := by
  constructor
  · intro fields b hdistinct hb
    obtain ⟨a, ha, -⟩ := Checked.map_eq_ok.mp hb
    exact h.clear hdistinct ha
  · intro value value' b hvalue hb
    obtain ⟨a, ha, rfl⟩ := Checked.map_eq_ok.mp hb
    exact Checked.map_eq_ok.mpr ⟨a, h.eq_ok hvalue ha, rfl⟩

lemma items (h : AllowsRespelling check) {items items' : List Json}
    (hitems : List.Forall₂ Respelled items items') (first : ℕ) {as : List α}
    (has : Checked.items check first items = .ok as) : Checked.items check first items' = .ok as := by
  induction hitems generalizing first as with
  | nil => exact has
  | cons hitem _ ih =>
      rw [Checked.items, Checked.ok_iff_seq] at has ⊢
      obtain ⟨g, others, hg, hothers, rfl⟩ := has
      obtain ⟨a, ha, rfl⟩ := Checked.map_eq_ok.mp hg
      have ha' := h.eq_ok hitem (Checked.within_eq_ok.mp ha)
      exact ⟨_, others, Checked.map_eq_ok.mpr ⟨a, Checked.within_eq_ok.mpr ha', rfl⟩,
        ih (first + 1) hothers, rfl⟩

lemma list (h : AllowsRespelling check) : AllowsRespelling (checkList check) := by
  refine ⟨fun _ has => (by cases has), fun hvalue has => ?_⟩
  cases hvalue with
  | array hitems => exact h.items hitems 0 has
  | object => cases has
  | _ => exact has

/-- An object of a class has no field twice, as a second spelling would be no key of the class. -/
lemma node {c : NodeClass} {build : Fields → Checked α} (h : AllowsMatching build) :
    AllowsRespelling (checkNode c build) := by
  constructor
  · intro fields a hdistinct ha
    exact clear_of_unknownKeys hdistinct (Checked.andThen_eq_ok.mp ha).2
  · intro value value' a hvalue ha
    cases hvalue with
    | object hdistinct hfields horder =>
        obtain ⟨hbuild, hknown⟩ := Checked.andThen_eq_ok.mp ha
        have hmatch := Matching.of_forall₂ (clear_of_unknownKeys hdistinct hknown) hfields horder
        exact Checked.andThen_eq_ok.mpr ⟨h _ _ a hmatch hbuild, hmatch.unknownKeys_eq_nil hknown⟩
    | _ => exact ha

end AllowsRespelling

/-- An object of one of some classes is accepted as one of the class that its tag names. -/
lemma checkTagged_eq_ok {cases : List (NodeClass × (Json → Checked α))} {fields : Fields} {a : α} :
    checkTagged cases (.object fields) = .ok a ↔ ∃ tag case, tagOf? fields = some (.string tag) ∧
      cases.find? (fun c => tag = c.1.tag) = some case ∧ case.2 (.object fields) = .ok a := by
  rw [checkTagged]
  -- a tag that is no text names no class
  cases htag : tagOf? fields with
  | none => simp [Checked.problem]
  | some tag =>
      cases tag with
      | string tag =>
          cases hfind : cases.find? (fun c => tag = c.1.tag) with
          | none => simp [hfind, Checked.problem]
          | some case =>
              obtain ⟨c, check⟩ := case
              simp [hfind]
      | _ =>
          have hnone : cases.find? (fun _ => false) = none := by simp
          simp [hnone, Checked.problem]

/-- The tag may be respelled like all other fields, whatever the class that it names. -/
lemma AllowsRespelling.tagged {cases : List (NodeClass × (Json → Checked α))}
    (h : ∀ case ∈ cases, AllowsRespelling case.2) : AllowsRespelling (checkTagged cases) := by
  constructor
  · intro fields a hdistinct ha
    obtain ⟨tag, case, -, hfind, hcase⟩ := checkTagged_eq_ok.mp ha
    exact (h case (List.mem_of_find?_eq_some hfind)).clear hdistinct hcase
  · intro value value' a hvalue ha
    cases hvalue with
    -- the classes agree, as the tags do, and the class decides what is checked
    | object hdistinct hfields horder =>
        obtain ⟨tag, case, htag, hfind, hcase⟩ := checkTagged_eq_ok.mp ha
        have hallows := h case (List.mem_of_find?_eq_some hfind)
        have hmatch := Matching.of_forall₂ (hallows.clear hdistinct hcase) hfields horder
        obtain ⟨tag', htag', hsame⟩ := hmatch.exists_tagOf? htag
        cases hsame
        exact checkTagged_eq_ok.mpr
          ⟨tag, case, htag', hfind, hallows.eq_ok (.object hdistinct hfields horder) hcase⟩
    | _ => exact ha

end

end Concerto
