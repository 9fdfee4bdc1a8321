import Concerto.Proofs.Json.Scalar
import Concerto.Proofs.Outcome

/-!
JSON text and the values it is read as.

* `Json.Keyed`: values in which no object has a key twice, and whose whole numbers have a property;
* `Json.HasText`: values that some text is read as, those whose whole numbers do not have too many digits;
* `Json.read_writeValue`: the text of such a value is read as the value, whatever its layout;
* `Json.hasText_of_read`: every value that has been read is one of them.
-/

namespace Concerto.Json

/-- No object in the value has a key twice, and the whole numbers in it have the property. -/
inductive Keyed (fits : ℤ → Prop) : Json → Prop where
  | null : Keyed fits .null
  | bool (b : Bool) : Keyed fits (.bool b)
  | int {i : ℤ} (h : fits i) : Keyed fits (.int i)
  | double (d : Double) : Keyed fits (.double d)
  | string (s : String) : Keyed fits (.string s)
  | array {items : List Json} (h : ∀ item ∈ items, Keyed fits item) : Keyed fits (.array items)
  | object {fields : List (String × Json)} (hkeys : (Entries.keys fields).Nodup)
      (h : ∀ field ∈ fields, Keyed fits field.2) : Keyed fits (.object fields)

/-- The whole numbers in the value have few enough digits, and no object in it has a key twice. -/
abbrev HasText : Json → Prop := Keyed IsReadable

/-! ### Whole numbers -/

lemma mem_itemIntegers {items : List Json} {i : ℤ} :
    i ∈ itemIntegers items ↔ ∃ item ∈ items, i ∈ item.integers := by
  induction items with
  | nil => simp [itemIntegers]
  | cons item items ih => simp [itemIntegers, ih]

lemma mem_fieldIntegers {fields : List (String × Json)} {i : ℤ} :
    i ∈ fieldIntegers fields ↔ ∃ field ∈ fields, i ∈ field.2.integers := by
  induction fields with
  | nil => simp [fieldIntegers]
  | cons field fields ih => simp [fieldIntegers, ih]

namespace Keyed

variable {fits fits' : ℤ → Prop} {v : Json}

/-- The whole numbers in the value are those that the property is asked of. -/
lemma integers (h : v.Keyed fits) : ∀ i ∈ v.integers, fits i := by
  induction h with
  | int h => simpa [Json.integers] using h
  | array _ ih =>
      intro i hi
      obtain ⟨item, hitem, hi⟩ := mem_itemIntegers.mp hi
      exact ih item hitem i hi
  | object _ _ ih =>
      intro i hi
      obtain ⟨field, hfield, hi⟩ := mem_fieldIntegers.mp hi
      exact ih field hfield i hi
  | null | bool | double | string => simp [Json.integers]

/-- So another property can be asked of them. -/
lemma of_integers (h : v.Keyed fits) (hfits : ∀ i ∈ v.integers, fits' i) : v.Keyed fits' := by
  induction h with
  | null => exact .null
  | bool b => exact .bool b
  | int _ => exact .int (hfits _ (by simp [Json.integers]))
  | double d => exact .double d
  | string s => exact .string s
  | array _ ih =>
      exact .array fun item hitem => ih item hitem fun i hi =>
        hfits i (mem_itemIntegers.mpr ⟨item, hitem, hi⟩)
  | object hkeys _ ih =>
      exact .object hkeys fun field hfield => ih field hfield fun i hi =>
        hfits i (mem_fieldIntegers.mpr ⟨field, hfield, hi⟩)

end Keyed

/-! ### Layout -/

/-- Spaces are skipped. -/
lemma skipSpaces_append {spaces : List Char} (hspaces : ∀ c ∈ spaces, isSpace c = true)
    (cs : List Char) : skipSpaces (spaces ++ cs) = skipSpaces cs := by
  rw [skipSpaces, List.dropWhile_append_of_pos hspaces]
  rfl

lemma skipSpaces_cons {c : Char} (hc : isSpace c = false) (cs : List Char) :
    skipSpaces (c :: cs) = c :: cs := by
  rw [skipSpaces, List.dropWhile_cons_of_neg]
  simp [hc]

lemma isSpace_lineBreak (layout : Layout) (level : ℕ) :
    ∀ c ∈ layout.lineBreak level, isSpace c = true := by
  cases layout with
  | compact => simp [Layout.lineBreak]
  | indented width =>
      rw [Layout.lineBreak, List.forall_mem_cons]
      refine ⟨rfl, fun c hc => ?_⟩
      rw [List.eq_of_mem_replicate hc]
      rfl

/-- A character other than a space is what comes after a line break. -/
lemma skipSpaces_lineBreak (layout : Layout) (level : ℕ) {c : Char} (hc : isSpace c = false)
    (cs : List Char) : skipSpaces (layout.lineBreak level ++ c :: cs) = c :: cs := by
  rw [skipSpaces_append (isSpace_lineBreak layout level), skipSpaces_cons hc]

/-- A line break before the end of a value does not go on with the value. -/
lemma endsValue_lineBreak (layout : Layout) (level : ℕ) {rest : List Char} (hrest : EndsValue rest) :
    EndsValue (layout.lineBreak level ++ rest) := by
  cases layout with
  | compact => exact hrest
  | indented width =>
      rintro c ⟨⟩
      decide

/-! ### Single values -/

/-- A text begins like a written value: with neither a space nor the end of an array. -/
def StartsValue (cs : List Char) : Prop :=
  ∃ c rest, cs = c :: rest ∧ isSpace c = false ∧ c ≠ ']' ∧ c ≠ '\uFEFF'

lemma StartsValue.cons {c : Char} (h : isSpace c = false ∧ c ≠ ']' ∧ c ≠ '\uFEFF')
    (cs : List Char) : StartsValue (c :: cs) := ⟨c, cs, rfl, h⟩

lemma StartsValue.append {cs : List Char} (h : StartsValue cs) (rest : List Char) :
    StartsValue (cs ++ rest) := by
  obtain ⟨c, cs, rfl, hc⟩ := h
  exact ⟨c, cs ++ rest, rfl, hc⟩

/-- A line break before it is skipped. -/
lemma StartsValue.skipSpaces_lineBreak {cs : List Char} (h : StartsValue cs) (layout : Layout)
    (level : ℕ) : skipSpaces (layout.lineBreak level ++ cs) = cs := by
  obtain ⟨c, cs, rfl, hc, -⟩ := h
  exact Json.skipSpaces_lineBreak layout level hc cs

/-- A value that opens with neither a quote nor a bracket is a word or a number. -/
lemma readValue_plain (steps : ℕ) {c : Char} (hquote : c ≠ '"') (hbrace : c ≠ '\x7b')
    (hbracket : c ≠ '[') (cs : List Char) :
    readValue (steps + 1) (c :: cs) = (readWord? (c :: cs)).elim (readNumber (c :: cs)) .ok := by
  rw [readValue.eq_def]
  split <;> simp_all
  cases readWord? (c :: cs) <;> rfl

/-- A number starts with a dash or with a digit. -/
lemma exists_numberText_chars (t : NumberText) :
    ∃ c cs, t.chars = c :: cs ∧ (c = '-' ∨ c.isDigit = true) := by
  obtain ⟨c, cs, hwhole, hdigit⟩ := t.exists_whole
  cases hnegative : t.negative with
  | false =>
      exact ⟨c, cs ++ t.pointChars ++ t.powerChars, by
        simp [NumberText.chars, NumberText.signChars, NumberText.unsignedChars, hnegative, hwhole],
        Or.inr hdigit⟩
  | true =>
      exact ⟨'-', t.unsignedChars, by simp [NumberText.chars, NumberText.signChars, hnegative],
        Or.inl rfl⟩

/-- Such a character is none with which something else begins. -/
lemma ne_of_begins_number {c d : Char} (hc : c = '-' ∨ c.isDigit = true)
    (hd : d ≠ '-' ∧ d.isDigit = false) : c ≠ d := by
  rintro rfl
  rcases hc with rfl | hc
  · exact hd.1 rfl
  · simp [hc] at hd

lemma startsValue_numberText (t : NumberText) : StartsValue t.chars := by
  obtain ⟨c, cs, hchars, hc⟩ := exists_numberText_chars t
  refine ⟨c, cs, hchars, ?_, ne_of_begins_number hc (by decide), ne_of_begins_number hc (by decide)⟩
  simp [isSpace, ne_of_begins_number hc]

/-- A number is read by the reader of numbers. -/
lemma readValue_numberText (steps : ℕ) (t : NumberText) (rest : List Char) :
    readValue (steps + 1) (t.chars ++ rest) = readNumber (t.chars ++ rest) := by
  have hword := readWord?_chars t rest
  obtain ⟨c, cs, hchars, hc⟩ := exists_numberText_chars t
  rw [hchars, List.cons_append] at hword ⊢
  rw [readValue_plain steps (ne_of_begins_number hc (by decide))
    (ne_of_begins_number hc (by decide)) (ne_of_begins_number hc (by decide)), hword]
  rfl

/-- The text of a whole number is that of a number. -/
lemma exists_writeInt (i : ℤ) : ∃ t : NumberText, t.chars = writeInt i :=
  ⟨.ofInt i, by simp [writeInt, NumberText.chars, NumberText.signChars, NumberText.unsignedChars,
    NumberText.pointChars, NumberText.powerChars, NumberText.ofInt]⟩

/-- The text of a double is that of a number, or one of the words for those that are not finite. -/
lemma readValue_writeDouble (steps : ℕ) (d : Double) {rest : List Char} (hrest : EndsValue rest) :
    readValue (steps + 1) (writeDouble d ++ rest) = .ok (.double d, rest) := by
  cases hfinite : d.isFinite with
  | true =>
      obtain ⟨t, ht, hread⟩ := exists_writeDouble hfinite
      rw [← ht, readValue_numberText, ht, hread rest hrest]
  | false =>
      cases d with
      | nan => rfl
      | infinite negative => cases negative <;> rfl
      | finite negative units h => simp [Double.isFinite] at hfinite

lemma startsValue_writeDouble (d : Double) : StartsValue (writeDouble d) := by
  cases hfinite : d.isFinite with
  | true =>
      obtain ⟨t, ht, -⟩ := exists_writeDouble hfinite
      rw [← ht]
      exact startsValue_numberText t
  | false =>
      cases d with
      | nan => exact .cons (by decide) _
      | infinite negative => cases negative <;> exact .cons (by decide) _
      | finite negative units h => simp [Double.isFinite] at hfinite

/-- Every value has a text that begins like a value. -/
lemma startsValue_writeValue (layout : Layout) (level : ℕ) (v : Json) :
    StartsValue (writeValue layout level v) := by
  rw [writeValue.eq_def]
  split
  · exact .cons (by decide) _
  · exact .cons (by decide) _
  · exact .cons (by decide) _
  · next i =>
      obtain ⟨t, ht⟩ := exists_writeInt i
      rw [← ht]
      exact startsValue_numberText t
  · exact startsValue_writeDouble _
  all_goals exact .cons (by decide) _

/-! ### Values in a document -/

/-- The text of the value is read as the value, two steps for each of its characters being allowed. -/
def ReadsBack (v : Json) : Prop :=
  ∀ (layout : Layout) (level steps : ℕ) (rest : List Char), EndsValue rest →
    2 * (writeValue layout level v).length ≤ steps + 1 →
    readValue steps (writeValue layout level v ++ rest) = .ok (v, rest)

/-- The last item of an array. -/
lemma readItems_last {steps : ℕ} {cs after rest : List Char} {item : Json}
    (hitem : readValue steps cs = .ok (item, after)) (hclose : skipSpaces after = ']' :: rest) :
    readItems (steps + 1) cs = .ok ([item], rest) := by
  simp only [readItems, hitem, bind, Except.bind, hclose]
  rfl

/-- An item of an array before others. -/
lemma readItems_cons {steps : ℕ} {cs after next rest : List Char} {item : Json} {items : List Json}
    (hitem : readValue steps cs = .ok (item, after)) (hcomma : skipSpaces after = ',' :: next)
    (hitems : readItems steps (skipSpaces next) = .ok (items, rest)) :
    readItems (steps + 1) cs = .ok (item :: items, rest) := by
  simp only [readItems, hitem, bind, Except.bind, hcomma, hitems]
  rfl

/-- What follows an item ends the item. -/
lemma endsValue_writeItems (layout : Layout) (level : ℕ) (items : List Json) {rest : List Char}
    (hrest : EndsValue rest) : EndsValue (writeItems layout level items ++ rest) := by
  cases items with
  | nil => exact hrest
  | cons item items =>
      rintro c ⟨⟩
      decide

/-- Items that are read back one by one are read back up to the closing bracket. -/
lemma readItems_writeItems (layout : Layout) (level : ℕ) {items : List Json}
    (hitems : ∀ item ∈ items, ReadsBack item) (rest : List Char) :
    ∀ (item : Json) (steps : ℕ), ReadsBack item →
      2 * ((writeValue layout (level + 1) item).length +
        (writeItems layout (level + 1) items).length + 1) ≤ steps →
      readItems steps (writeValue layout (level + 1) item ++ (writeItems layout (level + 1) items ++
        (layout.lineBreak level ++ ']' :: rest))) = .ok (item :: items, rest) := by
  -- a step for each item and one for its value are enough, and both have characters of their own
  have hclose : EndsValue (layout.lineBreak level ++ ']' :: rest) :=
    endsValue_lineBreak layout level (by rintro c ⟨⟩; decide)
  induction items with
  | nil =>
      intro item steps hitem hsteps
      obtain ⟨steps, rfl⟩ := Nat.exists_eq_add_of_lt (show 0 < steps by omega)
      rw [zero_add]
      refine readItems_last (hitem layout (level + 1) steps _ hclose ?_)
        (skipSpaces_lineBreak layout level (by decide) rest)
      simp only [writeItems, List.length_nil] at hsteps
      omega
  | cons next items ih =>
      intro item steps hitem hsteps
      obtain ⟨steps, rfl⟩ := Nat.exists_eq_add_of_lt (show 0 < steps by omega)
      rw [zero_add]
      obtain ⟨hnext, hothers⟩ := List.forall_mem_cons.mp hitems
      simp only [writeItems, List.length_cons, List.length_append, List.cons_append] at hsteps
      have hvalue := hitem layout (level + 1) steps _
        (endsValue_writeItems layout (level + 1) (next :: items) hclose) (by omega)
      refine readItems_cons hvalue (skipSpaces_cons (by decide) _) ?_
      simp only [List.append_eq, List.append_assoc]
      rw [((startsValue_writeValue layout (level + 1) next).append _).skipSpaces_lineBreak]
      exact ih hothers next steps hnext (by omega)

/-- A key that is not there yet comes last. -/
lemma set_of_nodup {key : String} {value : Json} {before fields : List (String × Json)}
    (h : (Entries.keys (before ++ (key, value) :: fields)).Nodup) :
    Entries.set key value before = before ++ [(key, value)] := by
  simp only [Entries.keys, List.map_append, List.map_cons, List.nodup_append] at h
  exact Entries.set_of_notMem_keys fun hmem => h.2.2 key hmem key (by simp) rfl

lemma startsValue_writeString (s : String) : StartsValue (writeString s) := .cons (by decide) _

/-- A colon stands between a key and its value, spaces apart. -/
lemma exists_skipSpaces_colon (layout : Layout) {cs : List Char} (h : StartsValue cs) :
    ∃ gap, skipSpaces (layout.colon ++ cs) = ':' :: gap ∧ skipSpaces gap = cs := by
  obtain ⟨c, cs, rfl, hc, -⟩ := h
  cases layout with
  | compact => exact ⟨c :: cs, skipSpaces_cons (by decide) _, skipSpaces_cons hc cs⟩
  | indented width =>
      refine ⟨' ' :: c :: cs, skipSpaces_cons (by decide) _, ?_⟩
      rw [← List.singleton_append, skipSpaces_append (by simp [isSpace]), skipSpaces_cons hc]

section
variable {layout : Layout} {steps : ℕ} {key : String} {value : Json} {cs after rest : List Char}
  (hstart : StartsValue cs) (hvalue : readValue steps cs = .ok (value, after))
  (before : List (String × Json))
include hstart hvalue

/-- The last field of an object. -/
lemma readFields_last (hclose : skipSpaces after = '\x7d' :: rest) :
    readFields (steps + 1) before (writeString key ++ (layout.colon ++ cs)) =
      .ok (Entries.set key value before, rest) := by
  obtain ⟨gap, hcolon, hgap⟩ := exists_skipSpaces_colon layout hstart
  simp only [writeString, List.cons_append, List.append_assoc, List.nil_append, readFields,
    readString_writeString, bind, Except.bind, hcolon, hgap, hvalue, hclose]
  rfl

/-- A field of an object before others. -/
lemma readFields_cons {next : List Char} (hcomma : skipSpaces after = ',' :: next) :
    readFields (steps + 1) before (writeString key ++ (layout.colon ++ cs)) =
      readFields steps (Entries.set key value before) (skipSpaces next) := by
  obtain ⟨gap, hcolon, hgap⟩ := exists_skipSpaces_colon layout hstart
  simp only [writeString, List.cons_append, List.append_assoc, List.nil_append, readFields,
    readString_writeString, bind, Except.bind, hcolon, hgap, hvalue, hcomma]

end

/-- What follows a field ends its value. -/
lemma endsValue_writeFields (layout : Layout) (level : ℕ) (fields : List (String × Json))
    {rest : List Char} (hrest : EndsValue rest) :
    EndsValue (writeFields layout level fields ++ rest) := by
  cases fields with
  | nil => exact hrest
  | cons field fields =>
      rintro c ⟨⟩
      decide

/-- Fields whose values are read back one by one are read back up to the closing brace, after those
that were read before. -/
lemma readFields_writeFields (layout : Layout) (level : ℕ) {fields : List (String × Json)}
    (hfields : ∀ field ∈ fields, ReadsBack field.2) (rest : List Char) :
    ∀ (before : List (String × Json)) (key : String) (value : Json) (steps : ℕ), ReadsBack value →
      (Entries.keys (before ++ (key, value) :: fields)).Nodup →
      2 * ((writeValue layout (level + 1) value).length +
        (writeFields layout (level + 1) fields).length + 1) ≤ steps →
      readFields steps before (writeString key ++ (layout.colon ++
        (writeValue layout (level + 1) value ++ (writeFields layout (level + 1) fields ++
          (layout.lineBreak level ++ '\x7d' :: rest))))) =
        .ok (before ++ (key, value) :: fields, rest) := by
  have hclose : EndsValue (layout.lineBreak level ++ '\x7d' :: rest) :=
    endsValue_lineBreak layout level (by rintro c ⟨⟩; decide)
  -- a key that is read goes after those before it, since no key comes twice
  induction fields with
  | nil =>
      intro before key value steps hvalue hkeys hsteps
      obtain ⟨steps, rfl⟩ := Nat.exists_eq_add_of_lt (show 0 < steps by omega)
      rw [zero_add]
      simp only [writeFields, List.length_nil] at hsteps
      have hread := hvalue layout (level + 1) steps _ hclose (by omega)
      rw [writeFields, List.nil_append,
        readFields_last ((startsValue_writeValue _ _ _).append _) hread before
          (skipSpaces_lineBreak layout level (by decide) rest), set_of_nodup hkeys]
  | cons field fields ih =>
      intro before key value steps hvalue hkeys hsteps
      obtain ⟨nextKey, next⟩ := field
      obtain ⟨steps, rfl⟩ := Nat.exists_eq_add_of_lt (show 0 < steps by omega)
      rw [zero_add]
      obtain ⟨hnext, hothers⟩ := List.forall_mem_cons.mp hfields
      simp only [writeFields, List.length_cons, List.length_append, List.cons_append] at hsteps
      have hread := hvalue layout (level + 1) steps _
        (endsValue_writeFields layout (level + 1) ((nextKey, next) :: fields) hclose) (by omega)
      rw [readFields_cons ((startsValue_writeValue _ _ _).append _) hread before
        (skipSpaces_cons (by decide) _), set_of_nodup hkeys]
      have hread' := ih hothers (before ++ [(key, value)]) nextKey next steps hnext
        (by simpa using hkeys) (by omega)
      rw [← List.append_cons] at hread'
      simp only [List.append_eq, List.append_assoc]
      rw [((startsValue_writeString nextKey).append _).skipSpaces_lineBreak]
      exact hread'

/-- A text is not empty, so that at least one step is allowed for it. -/
lemma ReadsBack.of_succ {v : Json}
    (h : ∀ (layout : Layout) (level steps : ℕ) (rest : List Char), EndsValue rest →
      2 * (writeValue layout level v).length ≤ steps + 2 →
      readValue (steps + 1) (writeValue layout level v ++ rest) = .ok (v, rest)) : ReadsBack v := by
  intro layout level steps rest hrest hsteps
  have hpos : 0 < steps := by
    obtain ⟨c, cs, htext, -⟩ := startsValue_writeValue layout level v
    rw [htext, List.length_cons] at hsteps
    omega
  obtain ⟨steps, rfl⟩ := Nat.exists_eq_add_of_lt hpos
  rw [zero_add] at hsteps ⊢
  exact h layout level steps rest hrest hsteps

/-- An array with items opens with a bracket. -/
lemma readValue_array {steps : ℕ} {text cs rest : List Char} {c : Char} {items : List Json}
    (hskip : skipSpaces text = c :: cs) (hc : c ≠ ']')
    (hitems : readItems steps (c :: cs) = .ok (items, rest)) :
    readValue (steps + 1) ('[' :: text) = .ok (.array items, rest) := by
  simp only [readValue, hskip]
  split
  · next hclose => exact absurd (List.cons.inj hclose).1 hc
  · rw [hitems]
    rfl

/-- An object with fields opens with a brace. -/
lemma readValue_object {steps : ℕ} {text cs rest : List Char} {fields : List (String × Json)}
    (hskip : skipSpaces text = '"' :: cs)
    (hfields : readFields steps [] ('"' :: cs) = .ok (fields, rest)) :
    readValue (steps + 1) ('\x7b' :: text) = .ok (.object fields, rest) := by
  simp only [readValue, hskip]
  split
  · next hclose => exact absurd (List.cons.inj hclose).1 (by decide)
  · rw [hfields]
    rfl

/-- An array of values that are read back. -/
lemma readsBack_array {items : List Json} (h : ∀ item ∈ items, ReadsBack item) :
    ReadsBack (.array items) := by
  refine .of_succ fun layout level steps rest hrest hsteps => ?_
  cases items with
  | nil => rfl
  | cons item items =>
      obtain ⟨hitem, hitems⟩ := List.forall_mem_cons.mp h
      simp only [writeValue, List.length_cons, List.length_append, List.cons_append] at hsteps
      have hread := readItems_writeItems layout level hitems rest item steps hitem (by omega)
      have hstart := (startsValue_writeValue layout (level + 1) item).append
        (writeItems layout (level + 1) items ++ (layout.lineBreak level ++ ']' :: rest))
      have hskip := hstart.skipSpaces_lineBreak layout (level + 1)
      -- the reader has to see that no closing bracket comes first
      obtain ⟨c, cs, htext, -, hbracket, -⟩ := hstart
      rw [htext] at hread hskip
      simp only [writeValue, List.cons_append, List.append_assoc, List.nil_append, htext]
      exact readValue_array hskip hbracket hread

/-- An object of values that are read back, with every key once. -/
lemma readsBack_object {fields : List (String × Json)} (hkeys : (Entries.keys fields).Nodup)
    (h : ∀ field ∈ fields, ReadsBack field.2) : ReadsBack (.object fields) := by
  refine .of_succ fun layout level steps rest hrest hsteps => ?_
  cases fields with
  | nil => rfl
  | cons field fields =>
      obtain ⟨key, value⟩ := field
      obtain ⟨hvalue, hfields⟩ := List.forall_mem_cons.mp h
      simp only [writeValue, List.length_cons, List.length_append, List.cons_append] at hsteps
      have hread := readFields_writeFields layout level hfields rest [] key value steps hvalue hkeys
        (by omega)
      have hskip := ((startsValue_writeString key).append (layout.colon ++
        (writeValue layout (level + 1) value ++ (writeFields layout (level + 1) fields ++
          (layout.lineBreak level ++ '\x7d' :: rest))))).skipSpaces_lineBreak layout (level + 1)
      simp only [writeValue, List.cons_append, List.append_assoc, List.nil_append]
      exact readValue_object hskip hread

/-- Every value that has a text is read back. -/
theorem HasText.readsBack {v : Json} (h : HasText v) : ReadsBack v := by
  -- the induction follows the value; the items and fields of a value are read back by the lemmas
  -- above
  induction h with
  | null => exact .of_succ fun _ _ _ _ _ _ => rfl
  | bool b => cases b <;> exact .of_succ fun _ _ _ _ _ _ => rfl
  | int hi =>
      refine .of_succ fun layout level steps rest hrest _ => ?_
      obtain ⟨t, ht⟩ := exists_writeInt _
      rw [writeValue, ← ht, readValue_numberText, ht, readNumber_writeInt hi hrest]
  | double d => exact .of_succ fun _ _ steps _ hrest _ => readValue_writeDouble steps d hrest
  | string s =>
      refine .of_succ fun layout level steps rest _ _ => ?_
      simp only [writeValue, writeString, List.cons_append, List.append_assoc, List.nil_append,
        readValue, readString_writeString, bind, Except.bind]
      rfl
  | array _ ih => exact readsBack_array ih
  | object hkeys _ ih => exact readsBack_object hkeys ih

/-! ### Carriage returns -/

/-- A carriage return in a string is escaped. -/
lemma noReturn_writeString (s : String) : NoReturn (writeString s) := by
  have hhex : ∀ n < 0x20, NoReturn (Text.hexDigits 4 n) := by
    decide +kernel
  have hchar : ∀ c, NoReturn (writeChar c) := by
    intro c
    have hcontrol := hhex c.toNat
    unfold writeChar
    split_ifs <;> simp_all [NoReturn]
  have hchars : NoReturn (s.toList.flatMap writeChar) := by
    intro c hc
    obtain ⟨d, -, hd⟩ := List.mem_flatMap.mp hc
    exact hchar d c hd
  exact noReturn_append.mpr ⟨noReturn_cons.mpr ⟨by decide, hchars⟩, by simp [NoReturn]⟩

lemma noReturn_lineBreak (layout : Layout) (level : ℕ) : NoReturn (layout.lineBreak level) := by
  cases layout with
  | compact => exact noReturn_nil
  | indented width =>
      refine noReturn_cons.mpr ⟨by decide, fun c hc => ?_⟩
      rw [List.eq_of_mem_replicate hc]
      decide

lemma noReturn_colon (layout : Layout) : NoReturn layout.colon := by
  cases layout <;> simp [Layout.colon, NoReturn]

lemma noReturn_writeItems (layout : Layout) (level : ℕ) {items : List Json}
    (h : ∀ item ∈ items, ∀ level, NoReturn (writeValue layout level item)) :
    NoReturn (writeItems layout level items) := by
  induction items with
  | nil => exact noReturn_nil
  | cons item items ih =>
      obtain ⟨hitem, hitems⟩ := List.forall_mem_cons.mp h
      have hcomma : NoReturn (',' :: layout.lineBreak level) :=
        noReturn_cons.mpr ⟨by decide, noReturn_lineBreak layout level⟩
      exact noReturn_append.mpr ⟨noReturn_append.mpr ⟨hcomma, hitem level⟩, ih hitems⟩

lemma noReturn_writeFields (layout : Layout) (level : ℕ) {fields : List (String × Json)}
    (h : ∀ field ∈ fields, ∀ level, NoReturn (writeValue layout level field.2)) :
    NoReturn (writeFields layout level fields) := by
  induction fields with
  | nil => exact noReturn_nil
  | cons field fields ih =>
      obtain ⟨hvalue, hfields⟩ := List.forall_mem_cons.mp h
      have hcomma : NoReturn (',' :: layout.lineBreak level) :=
        noReturn_cons.mpr ⟨by decide, noReturn_lineBreak layout level⟩
      exact noReturn_append.mpr ⟨noReturn_append.mpr ⟨noReturn_append.mpr ⟨noReturn_append.mpr
        ⟨hcomma, noReturn_writeString field.1⟩, noReturn_colon layout⟩, hvalue level⟩, ih hfields⟩

/-- The text of a double is that of a number, or a word. -/
lemma noReturn_writeDouble (d : Double) : NoReturn (writeDouble d) := by
  cases hfinite : d.isFinite with
  | true =>
      obtain ⟨t, ht, -⟩ := exists_writeDouble hfinite
      rw [← ht]
      exact t.noReturn_chars
  | false =>
      cases d with
      | nan => decide
      | infinite negative => cases negative <;> decide
      | finite negative units h => simp [Double.isFinite] at hfinite

/-- The text of a value has no carriage return. -/
theorem HasText.noReturn {v : Json} (h : HasText v) (layout : Layout) (level : ℕ) :
    NoReturn (writeValue layout level v) := by
  induction h generalizing level with
  | null => rw [writeValue]; decide
  | bool b => cases b <;> (rw [writeValue]; decide)
  | int _ =>
      obtain ⟨t, ht⟩ := exists_writeInt _
      rw [writeValue, ← ht]
      exact t.noReturn_chars
  | double d => exact noReturn_writeDouble d
  | string s => exact noReturn_writeString s
  | @array items _ ih =>
      cases items with
      | nil => rw [writeValue]; decide
      | cons item items =>
          obtain ⟨hitem, hitems⟩ := List.forall_mem_cons.mp ih
          simp only [writeValue, List.cons_append, noReturn_cons, noReturn_append]
          exact ⟨by decide, ⟨⟨⟨noReturn_lineBreak layout _, hitem _⟩,
            noReturn_writeItems layout _ hitems⟩, noReturn_lineBreak layout _⟩, by decide, by decide⟩
  | @object fields _ _ ih =>
      cases fields with
      | nil => rw [writeValue]; decide
      | cons field fields =>
          obtain ⟨hvalue, hfields⟩ := List.forall_mem_cons.mp ih
          simp only [writeValue, List.cons_append, noReturn_cons, noReturn_append]
          exact ⟨by decide, ⟨⟨⟨⟨⟨noReturn_lineBreak layout _, noReturn_writeString field.1⟩,
            noReturn_colon layout⟩, hvalue _⟩, noReturn_writeFields layout _ hfields⟩,
            noReturn_lineBreak layout _⟩, by decide, by decide⟩

/-! ### Documents -/

/-- A value is written if its whole numbers have few enough digits. -/
lemma write_eq_ok {layout : Layout} {v : Json} {text : String} : write layout v = .ok text ↔
    (∀ i ∈ v.integers, IsReadable i) ∧ text = String.ofList (writeValue layout 0 v) := by
  rw [write]
  split
  · next h => rw [and_iff_right h, Except.ok.injEq, eq_comm]
  · next h => simp [h]

/-- A value makes up a text, spaces after it apart. -/
theorem read_writeValue {v : Json} (h : HasText v) (layout : Layout) (spaces : List Char)
    (hspaces : ∀ c ∈ spaces, isSpace c = true) (hend : EndsValue spaces) :
    read (String.ofList (writeValue layout 0 v ++ spaces)) = .ok v := by
  have hread := h.readsBack layout 0 (2 * (writeValue layout 0 v ++ spaces).length + 1) spaces hend
    (by rw [List.length_append]; omega)
  -- only spaces are left, so the text is read to its end
  have hrest : skipSpaces spaces = [] := by
    have hskip := skipSpaces_append hspaces []
    rwa [List.append_nil] at hskip
  obtain ⟨c, cs, htext, hc, -, hmark⟩ := (startsValue_writeValue layout 0 v).append spaces
  rw [htext] at hread
  rw [read, String.toList_ofList, htext, mapError_eq_ok, readAll.eq_def]
  split
  · next hbom => exact absurd (List.cons.inj hbom).1 hmark
  · rw [skipSpaces_cons hc]
    simp only [hread, bind, Except.bind, hrest]
    rfl

/-! ### Values that are read -/

lemma asciiDigit?_lt {c : Char} {d : ℕ} (h : Text.asciiDigit? c = some d) : d < 10 := by
  simp only [Text.asciiDigit?, Option.ite_none_right_eq_some, Option.some.injEq] at h
  obtain ⟨⟨-, hnine⟩, rfl⟩ := h
  have hle : c.toNat ≤ 57 := hnine
  omega

/-- The whole part of a number consists of digits, of which there is one at least. -/
lemma digits_of_spanWhole {cs rest : List Char} {whole : List ℕ}
    (h : spanWhole cs = some (whole, rest)) : whole ≠ [] ∧ ∀ d ∈ whole, d < 10 := by
  rw [spanWhole.eq_def] at h
  split at h
  · obtain ⟨rfl, -⟩ := Prod.mk.inj (Option.some.inj h)
    simp
  · have hten : ∀ d ∈ (spanDigits Text.asciiDigit? cs).1, d < 10 :=
      fun d hd => lt_ten_of_mem_spanDigits (fun _ _ => asciiDigit?_lt) hd
    split at h
    · cases h
    · next hne =>
        rw [Option.some.inj h] at hten hne
        exact ⟨fun hnil => hne rest (by rw [hnil]), hten⟩

/-- A whole number that is read has few enough digits. -/
lemma hasText_of_readNumber {cs rest : List Char} {v : Json}
    (h : readNumber cs = .ok (v, rest)) : HasText v := by
  unfold readNumber at h
  -- the cases are those of the reader: a fraction, a power of ten, too many digits, a whole number
  split at h
  next negative unsigned _ =>
  split at h
  · cases h
  next whole after hwhole =>
  obtain ⟨hne, hten⟩ := digits_of_spanWhole hwhole
  split at h
  · obtain ⟨rfl, -⟩ := Prod.mk.inj (Except.ok.inj h)
    exact .double _
  split at h
  · obtain ⟨rfl, -⟩ := Prod.mk.inj (Except.ok.inj h)
    exact .double _
  split at h
  · cases h
  next hlimit =>
  obtain ⟨rfl, -⟩ := Prod.mk.inj (Except.ok.inj h)
  exact .int (isReadable_of_ofDigits (natAbs_signed _ _) hten hne (not_lt.mp hlimit))

/-- A word that is read has a text. -/
lemma hasText_of_readWord? {cs rest : List Char} {v : Json}
    (h : readWord? cs = some (v, rest)) : HasText v := by
  obtain ⟨⟨word, value⟩, hmem, hvalue⟩ := List.exists_of_findSome?_eq_some h
  simp only [Option.ite_none_right_eq_some, Option.some.injEq, Prod.mk.injEq] at hvalue
  obtain ⟨-, rfl, -⟩ := hvalue
  simp only [words, List.mem_cons, Prod.mk.injEq, List.not_mem_nil, or_false] at hmem
  rcases hmem with ⟨-, rfl⟩ | ⟨-, rfl⟩ | ⟨-, rfl⟩ | ⟨-, rfl⟩ | ⟨-, rfl⟩ | ⟨-, rfl⟩
  · exact .null
  · exact .bool true
  all_goals first | exact .bool false | exact .double _

/-- A key that is given a value does not come up twice. -/
lemma nodup_keys_set {key : String} {value : Json} {entries : List (String × Json)}
    (h : (Entries.keys entries).Nodup) : (Entries.keys (Entries.set key value entries)).Nodup := by
  induction entries with
  | nil => simp [Entries.set, Entries.keys]
  | cons entry entries ih =>
      obtain ⟨k, v⟩ := entry
      have hkeys : k ∉ Entries.keys entries ∧ (Entries.keys entries).Nodup := List.nodup_cons.mp h
      rw [Entries.set]
      split
      · exact List.nodup_cons.mpr hkeys
      · next hne =>
          refine List.nodup_cons.mpr ⟨fun hmem => ?_, ih hkeys.2⟩
          exact (Entries.mem_keys_set.mp hmem).elim hne hkeys.1

/-- The values after a key is given one are the others and this one. -/
lemma forall_mem_set {P : Json → Prop} {key : String} {value : Json}
    {entries : List (String × Json)} (hvalue : P value) (h : ∀ entry ∈ entries, P entry.2) :
    ∀ entry ∈ Entries.set key value entries, P entry.2 := by
  induction entries with
  | nil => simpa [Entries.set] using hvalue
  | cons entry entries ih =>
      obtain ⟨k, v⟩ := entry
      obtain ⟨hv, hothers⟩ := List.forall_mem_cons.mp h
      rw [Entries.set]
      split
      · exact List.forall_mem_cons.mpr ⟨hvalue, hothers⟩
      · exact List.forall_mem_cons.mpr ⟨hv, ih hothers⟩

/-- So may the fields of an object be given one more value. -/
lemma HasText.set {before : List (String × Json)} (h : HasText (.object before)) (key : String)
    {value : Json} (hvalue : HasText value) : HasText (.object (Entries.set key value before)) := by
  cases h with
  | object hkeys hvalues => exact .object (nodup_keys_set hkeys) (forall_mem_set hvalue hvalues)

lemma hasText_empty : HasText (.object []) := .object .nil (by simp)

/-- What the readers of values, items and fields make of a text in so many steps has a text. -/
structure ReadersGiveTexts (steps : ℕ) : Prop where
  value : ∀ {cs v rest}, readValue steps cs = .ok (v, rest) → HasText v
  items : ∀ {cs items rest}, readItems steps cs = .ok (items, rest) → ∀ item ∈ items, HasText item
  fields : ∀ {before cs fields rest}, HasText (.object before) →
    readFields steps before cs = .ok (fields, rest) → HasText (.object fields)

namespace ReadersGiveTexts

variable {steps : ℕ} {cs rest : List Char}

lemma readValue (ih : ReadersGiveTexts steps) {v : Json}
    (h : readValue (steps + 1) cs = .ok (v, rest)) : HasText v := by
  -- by the first character: a string, an object, an array, or a word or number
  simp only [Json.readValue] at h
  split at h
  · obtain ⟨⟨s, after⟩, -, hresult⟩ := bind_eq_ok.mp h
    cases hresult
    exact .string s
  · split at h
    · cases h
      exact hasText_empty
    · obtain ⟨⟨fields, after⟩, hfields, hresult⟩ := bind_eq_ok.mp h
      cases hresult
      exact ih.fields hasText_empty hfields
  · split at h
    · cases h
      exact .array (by simp)
    · obtain ⟨⟨items, after⟩, hitems, hresult⟩ := bind_eq_ok.mp h
      cases hresult
      exact .array (ih.items hitems)
  · split at h
    · next hword =>
        cases h
        exact hasText_of_readWord? hword
    · exact hasText_of_readNumber h

lemma readItems (ih : ReadersGiveTexts steps) {items : List Json}
    (h : readItems (steps + 1) cs = .ok (items, rest)) : ∀ item ∈ items, HasText item := by
  simp only [Json.readItems] at h
  obtain ⟨⟨item, after⟩, hitem, h⟩ := bind_eq_ok.mp h
  have hfirst : HasText item := ih.value hitem
  simp only at h
  split at h
  · cases h
    simpa using hfirst
  · obtain ⟨⟨others, after'⟩, hothers, hresult⟩ := bind_eq_ok.mp h
    cases hresult
    exact List.forall_mem_cons.mpr ⟨hfirst, ih.items hothers⟩
  · cases h

lemma readFields (ih : ReadersGiveTexts steps) {before fields : List (String × Json)}
    (hbefore : HasText (.object before))
    (h : readFields (steps + 1) before cs = .ok (fields, rest)) : HasText (.object fields) := by
  simp only [Json.readFields] at h
  split at h
  · obtain ⟨⟨key, after⟩, -, h⟩ := bind_eq_ok.mp h
    simp only at h
    split at h
    · obtain ⟨⟨value, after'⟩, hvalue, h⟩ := bind_eq_ok.mp h
      have hset := hbefore.set key (ih.value hvalue)
      simp only at h
      split at h
      · cases h
        exact hset
      · exact ih.fields hset h
      · cases h
    · cases h
  · cases h

/-- However many steps they may take. -/
theorem all (steps : ℕ) : ReadersGiveTexts steps := by
  induction steps with
  | zero => exact ⟨fun h => (by cases h), fun h => (by cases h), fun _ h => (by cases h)⟩
  | succ steps ih => exact ⟨ih.readValue, ih.readItems, ih.readFields⟩

end ReadersGiveTexts

/-- Every value that has been read has a text. -/
theorem hasText_of_read {text : String} {v : Json} (h : read text = .ok v) : HasText v := by
  rw [read, mapError_eq_ok, readAll.eq_def] at h
  split at h
  · cases h
  · obtain ⟨⟨value, rest⟩, hvalue, h⟩ := bind_eq_ok.mp h
    simp only at h
    split at h
    · cases h
      exact (ReadersGiveTexts.all _).value hvalue
    · cases h

end Concerto.Json
