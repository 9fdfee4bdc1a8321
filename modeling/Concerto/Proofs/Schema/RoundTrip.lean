import Concerto.Command.Run
import Concerto.Proofs.Files.Tree
import Concerto.Proofs.Model.RoundTrip
import Concerto.Proofs.Schema.Texts

/-!
Documents that are written are read back.

* `Artifact.Obtained`: a document that has been read from source text, or made of a JSON value;
* `Artifact.serialize_eq_ok`: the documents with a text are those whose whole numbers have few enough
  digits;
* `Artifact.deserialize_serialize`, `Artifact.ofBytes_serialize`: the text of a document is read as what
  its JSON form stands for, and a file that holds the text as the document;
* `Artifact.readBack_of_obtained`: a document that has been obtained has a text if its whole numbers have
  few enough digits, and only then is it read from any text; and it is read back, whatever its layout,
  from its text and from any file that it has been written to;
* `Artifact.not_serialized_longDefault`: a document that can be made of a JSON value, but is read from no
  text.
-/

namespace Concerto

/-! ### Documents with a text -/

namespace Artifact

/-- The models are well named. -/
def WellNamed (a : Artifact) : Prop := ∀ m ∈ a.toModels, m.WellNamed

/-- The document has been read from source text, or has been made of a JSON value. The whole numbers in
the value may have any number of digits. -/
inductive Obtained : Artifact → Prop where
  | parsed {source : String} {m : Model} (h : Model.parse source = .ok m) : Obtained (.model m)
  | model {value : Json} {m : Model} (h : Model.ofJson value = .ok m) : Obtained (.model m)
  | models {value : Json} {models : List Model} (h : modelsOfJson value = .ok models) :
      Obtained (.models models)

variable {a : Artifact}

/-- The models of a document that has been obtained are well named. -/
lemma Obtained.wellNamed (h : Obtained a) : a.WellNamed := by
  cases h with
  | parsed h => exact List.forall_mem_singleton.mpr (Model.wellNamed_of_parse h)
  | model h => exact List.forall_mem_singleton.mpr (Model.wellNamed_of_ofJson h)
  | models h => exact ensures_models .any _ _ trivial (Checked.accept_eq_ok.mp h)

/-- Whether the JSON form of a document has a text is a matter of its whole numbers. -/
lemma hasText_toJson_iff : a.toJson.HasText ↔ ∀ i ∈ a.toJson.integers, IsReadable i := by
  refine ⟨Json.Keyed.integers, fun h => ?_⟩
  -- every key comes up once anyway, so that the form is keyed if nothing is asked of its numbers
  have hkeyed : a.toJson.Keyed fun _ => True := by
    cases a with
    | model m => exact m.keyed_toJson fun _ => trivial
    | models ms => exact keyed_ofModels_toJson (fun _ => trivial) ms
  exact hkeyed.of_integers h

/-- So the documents with a text are those that are written. -/
lemma serialize_eq_ok {layout : Json.Layout} {text : String} : a.serialize layout = .ok text ↔
    a.toJson.HasText ∧ text = String.ofList (Json.writeValue layout 0 a.toJson) := by
  rw [serialize, Json.write_eq_ok, hasText_toJson_iff]

end Artifact

/-! ### Reading back -/

/-- The object that makes up a text is found. -/
lemma readObject_of_read {text : String} {fields : Fields}
    (h : Json.read text = .ok (.object fields)) : readObject text = .ok (.object fields) := by
  rw [readObject, h]

/-- A document is read from the text of its JSON form, spaces after it apart. -/
lemma deserialize_of_hasText {α : Type} {ofJson : Json → Except StructuralError α} {a : α}
    {fields : Fields} (htext : (Json.object fields).HasText)
    (hof : ofJson (.object fields) = .ok a) (layout : Json.Layout) (spaces : List Char)
    (hspaces : ∀ c ∈ spaces, Json.isSpace c = true) (hend : Json.EndsValue spaces) :
    deserialize ofJson (String.ofList (Json.writeValue layout 0 (.object fields) ++ spaces)) =
      .ok a := by
  rw [deserialize, readObject_of_read (Json.read_writeValue htext layout spaces hspaces hend)]
  simp only [bind, Except.bind, hof]
  rfl

namespace Artifact

variable {a : Artifact}

/-- The JSON form of a document names its class, and is accepted. -/
lemma ofJson_toJson (h : a.WellNamed) : ofJson a.toJson = .ok a := ofJson_eq_ok.mpr ⟨rfl, h⟩

/-- The JSON form of a document is an object. -/
lemma exists_toJson_eq (a : Artifact) : ∃ fields, a.toJson = .object fields := by
  cases a with
  | model m => exact ⟨_, rfl⟩
  | models ms => exact ⟨_, rfl⟩

section

variable {layout : Json.Layout} {text : String} (htext : a.serialize layout = .ok text)

include htext

/-- What reads a document from its JSON form reads it from its text, spaces after it apart. -/
lemma deserialize_append {α : Type} {ofJson : Json → Except StructuralError α} {value : α}
    (hof : ofJson a.toJson = .ok value) (spaces : List Char)
    (hspaces : ∀ c ∈ spaces, Json.isSpace c = true) (hend : Json.EndsValue spaces) :
    Concerto.deserialize ofJson (text ++ String.ofList spaces) = .ok value := by
  obtain ⟨fields, hfields⟩ := exists_toJson_eq a
  obtain ⟨hform, rfl⟩ := serialize_eq_ok.mp htext
  rw [← String.ofList_append]
  rw [hfields] at hof hform ⊢
  exact deserialize_of_hasText hform hof layout spaces hspaces hend

/-- The text of a document on its own is read as what its JSON form stands for. -/
lemma deserialize_serialize {α : Type} {ofJson : Json → Except StructuralError α} {value : α}
    (hof : ofJson a.toJson = .ok value) : Concerto.deserialize ofJson text = .ok value := by
  have hread := deserialize_append htext hof [] (by simp) (by simp [Json.EndsValue])
  simpa using hread

/-- A file that holds the text of a document on a line of its own holds the document: the text has no
line breaks but line feeds, so that no character of it is changed when the file is read. -/
lemma ofBytes_serialize (h : a.WellNamed) : ofBytes (text ++ "\n").toByteArray = .ok a := by
  have hread := deserialize_append htext (ofJson_toJson h) ['\n'] (by simp [Json.isSpace])
    (by rintro c ⟨⟩; decide)
  have hfeeds : Text.ofBytes (text ++ "\n").toByteArray = .ok (text ++ "\n") := by
    obtain ⟨hform, rfl⟩ := serialize_eq_ok.mp htext
    refine Text.ofBytes_toByteArray ?_
    rw [String.toList_append, String.toList_ofList, noReturn_append]
    exact ⟨hform.noReturn layout 0, by decide⟩
  rw [ofBytes, hfeeds]
  exact hread

end

/-- A file that a document has been written to holds its text on a line. -/
lemma readBytes_of_writeDocument {t t' : FileTree} {path : PathName} {layout : Json.Layout}
    (h : Command.writeDocument t path layout a = (t', none)) :
    ∃ text, a.serialize layout = .ok text ∧
      t'.readBytes path = .ok (text ++ "\n").toByteArray := by
  rw [Command.writeDocument.eq_def] at h
  split at h
  · cases h
  · split at h
    · cases h
    · next text htext =>
        split at h
        · cases h
        · next hwrite =>
            obtain ⟨rfl, -⟩ := Prod.mk.inj h
            exact ⟨text, htext, FileTree.readBytes_of_writeBytes hwrite⟩

/-- If a document has a text, only the files can keep it from being written. -/
lemma writeDocument_eq_file {t : FileTree} {path : PathName} {layout : Json.Layout} {text : String}
    (htext : a.serialize layout = .ok text) {f : Command.Fault}
    (h : (Command.writeDocument t path layout a).2 = some f) : ∃ e, f = .file e := by
  rw [Command.writeDocument, htext] at h
  split at h
  · exact ⟨_, (Option.some.inj h).symm⟩
  · simp only at h
    split at h
    · exact ⟨_, (Option.some.inj h).symm⟩
    · cases h

/-! ### Texts of documents -/

/-- The text is read as the document, by what reads one model or by what reads several. -/
def IsReadFrom (text : String) : Artifact → Prop
  | model m => Model.deserialize text = .ok m
  | models ms => deserializeModels text = .ok ms

/-- A document whose models are well named is read from its text. -/
lemma WellNamed.isReadFrom (h : a.WellNamed) {layout : Json.Layout} {text : String}
    (htext : a.serialize layout = .ok text) : a.IsReadFrom text := by
  cases a with
  | model m =>
      have hof : Model.ofJson m.toJson = .ok m :=
        Model.validated_eq_ok.mpr ⟨rfl, h m (List.mem_singleton_self m)⟩
      exact deserialize_serialize htext hof
  | models ms =>
      have hof : modelsOfJson (.ofModels ms) = .ok ms := validatedModels_eq_ok.mpr ⟨rfl, h⟩
      exact deserialize_serialize htext hof

/-- What is read of a text is made of the JSON value of the text. -/
lemma exists_of_deserialize {α : Type} {ofJson : Json → Except StructuralError α} {text : String}
    {value : α} (h : Concerto.deserialize ofJson text = .ok value) :
    ∃ v, v.HasText ∧ ofJson v = .ok value := by
  obtain ⟨v, hread, hof⟩ := bind_eq_ok.mp h
  refine ⟨v, ?_, mapError_eq_ok.mp hof⟩
  rw [readObject.eq_def] at hread
  split at hread
  · next hfields =>
      cases hread
      exact Json.hasText_of_read hfields
  all_goals cases hread

/-- A document that is read from a text has a text. -/
lemma IsReadFrom.hasText {text : String} (h : a.IsReadFrom text) : a.toJson.HasText := by
  cases a with
  | model m =>
      obtain ⟨v, hv, hof⟩ := exists_of_deserialize h
      exact grants_model v m hv (Checked.accept_eq_ok.mp hof)
  | models ms =>
      obtain ⟨v, hv, hof⟩ := exists_of_deserialize h
      exact grants_models v ms hv (Checked.accept_eq_ok.mp hof)

/-- A document that has been obtained is written, and is read from some text, if and only if its whole
numbers have few enough digits. It is read back from its text, and from any file that it has been
written to; and that its file is not written is a matter of the files alone. -/
theorem readBack_of_obtained (h : Obtained a) (layout : Json.Layout) :
    [∀ i ∈ a.toJson.integers, IsReadable i, ∃ text, a.serialize layout = .ok text,
      ∃ text, a.IsReadFrom text].TFAE ∧
    ∀ text, a.serialize layout = .ok text → a.IsReadFrom text ∧
      ∀ (t : FileTree) (path : PathName),
        (∃ e, (Command.writeDocument t path layout a).2 = some (.file e)) ∨
          ∃ t' bytes, Command.writeDocument t path layout a = (t', none) ∧
            t'.readBytes path = .ok bytes ∧ ofBytes bytes = .ok a := by
  have hnamed := h.wellNamed
  refine ⟨?_, fun text htext => ⟨hnamed.isReadFrom htext, fun t path => ?_⟩⟩
  · tfae_have 1 → 2 := fun hreadable =>
      ⟨_, serialize_eq_ok.mpr ⟨hasText_toJson_iff.mpr hreadable, rfl⟩⟩
    tfae_have 2 → 3 := fun ⟨text, htext⟩ => ⟨text, hnamed.isReadFrom htext⟩
    -- a check makes no longer whole numbers than those it is given, so none comes from a text
    tfae_have 3 → 1 := fun ⟨_, hread⟩ => hasText_toJson_iff.mp hread.hasText
    tfae_finish
  · rcases hwrite : Command.writeDocument t path layout a with ⟨t', _ | f⟩
    · obtain ⟨text', htext', hbytes⟩ := readBytes_of_writeDocument hwrite
      exact .inr ⟨t', _, rfl, hbytes, ofBytes_serialize htext' hnamed⟩
    · obtain ⟨e, rfl⟩ := writeDocument_eq_file htext (congrArg Prod.snd hwrite)
      exact .inl ⟨e, rfl⟩

theorem readBack_of_obtained_sample :
    ∃ text, (model .sample).serialize (.indented 2) = .ok text ∧
      Model.deserialize text = .ok .sample ∧
      ∃ t' bytes, Command.writeDocument ⟨[], []⟩ ⟨"", ["x"]⟩ (.indented 2) (model .sample) =
          (t', none) ∧ t'.readBytes ⟨"", ["x"]⟩ = .ok bytes ∧ ofBytes bytes = .ok (model .sample) := by
  obtain ⟨hwritten, hback⟩ := readBack_of_obtained (.parsed Model.parse_sampleText) (.indented 2)
  obtain ⟨text, htext⟩ := (hwritten.out 0 1).mp (by decide)
  obtain ⟨hread, hfile⟩ := hback text htext
  have hnone : (Command.writeDocument ⟨[], []⟩ ⟨"", ["x"]⟩ (.indented 2) (model .sample)).2 = none := by
    rw [Command.writeDocument, FileTree.makeDirectories, htext]
    rfl
  refine ⟨text, htext, hread, (hfile ⟨[], []⟩ ⟨"", ["x"]⟩).resolve_left ?_⟩
  rintro ⟨e, he⟩
  cases hnone.symm.trans he

/-! ### Documents without a text -/

/-- A whole number of one digit more than the limit. -/
def longInteger : ℤ := 10 ^ integerDigitLimit

lemma not_isReadable_longInteger : ¬IsReadable longInteger := by
  have hnat : longInteger.natAbs = 10 ^ integerDigitLimit := by
    rw [longInteger, Int.natAbs_pow, show (10 : ℤ).natAbs = 10 from rfl]
  rw [IsReadable, hnat]
  intro hlength
  -- the power stays as it is: its digits are never counted
  have hlt := (Nat.length_toDigits_le_iff (b := 10) (by omega) (by decide)).mp hlength
  exact lt_irrefl _ hlt

/-- A model with a default of more digits than the limit. -/
def longDefault : Model where
  ns := "a"
  sourceUri := none
  concertoVersion := none
  imports := []
  declarations :=
    [.concept
      { kind := .concept
        header := ⟨"C", none, none⟩
        isAbstract := false
        identified := none
        superType := none
        properties := [⟨⟨"p", none, none⟩, false, false, .integer (some longInteger) none⟩] }]

/-- A model may be made of a JSON value, and then neither be written nor be read from any text. -/
theorem not_serialized_longDefault :
    Obtained (model longDefault) ∧ (∀ layout text, (model longDefault).serialize layout ≠ .ok text) ∧
      ∀ text, Model.deserialize text ≠ .ok longDefault := by
  have hobtained : Obtained (model longDefault) := by
    refine .model (Model.validated_eq_ok.mpr ⟨rfl, List.forall_mem_singleton.mpr ⟨?_, ?_⟩⟩)
    · show isIdentifier "C" = true
      decide +kernel
    · refine List.forall_mem_singleton.mpr ?_
      show isIdentifier "p" = true
      decide +kernel
  have hmem : longInteger ∈ (model longDefault).toJson.integers := by
    show longInteger ∈ [longInteger]
    exact List.mem_singleton_self _
  have hlong : ¬(model longDefault).toJson.HasText :=
    fun htext => not_isReadable_longInteger (htext.integers longInteger hmem)
  refine ⟨hobtained, fun layout text htext => hlong (serialize_eq_ok.mp htext).1,
    fun text hread => hlong ?_⟩
  exact IsReadFrom.hasText (a := model longDefault) hread

end Artifact

end Concerto
