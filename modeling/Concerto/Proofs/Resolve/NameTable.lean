import Concerto.Proofs.Outcome
import Concerto.Resolve.NameTable

/-!
What the table of a model knows.

* `Import.HasTarget`, `Import.binds`: what an import needs, and the names that it makes known;
* `FirstMissing`: the first import without its target, with which the building of a table ends;
* `NameTable.lookup?_of_build`: if there is a table, all imports have their targets, and a name belongs to
  the model, or else to its last import that binds the name, or else to the base declarations;
* `NameTable.build_congr`: a table depends on the declarations in the registry only;
* `Model.Sees`, `NameTable.build_specification`: where a model sees a name, said of its imports and
  declarations alone; its table says the same of every name, and is there unless an import misses
  its target.
-/

namespace Concerto

/-! ### Imports -/

namespace Import

/-- The namespace that is imported, as a whole or in part. -/
def ns : Import → String
  | all ns _ => ns
  | type ns _ _ => ns

/-- What is imported is in the registry. -/
def HasTarget (r : Registry) : Import → Prop
  | all ns _ => r.hasNamespace ns = true
  | type ns name _ => r.hasDeclaration ns name = true

instance (r : Registry) : DecidablePred (HasTarget r)
  | all ns _ => inferInstanceAs (Decidable (r.hasNamespace ns = true))
  | type ns name _ => inferInstanceAs (Decidable (r.hasDeclaration ns name = true))

/-- The import makes a name known, if its target is in the registry. -/
def binds (r : Registry) (name : String) : Import → Bool
  | all ns _ => r.hasDeclaration ns name
  | type _ name' _ => name = name'

/-- What is said of an import whose target is not in the registry. -/
def missing : Import → ResolutionError
  | all ns _ => .missingNamespace ns
  | type ns name _ => .missingDeclaration name ns

variable {r : Registry} {t t' : NameTable}

/-- An import whose target is there adds the names that it binds. -/
lemma declareIn_eq_ok {i : Import} (h : i.declareIn r t = .ok t') :
    i.HasTarget r ∧
      ∀ name, t'.lookup? name = if i.binds r name then some i.ns else t.lookup? name := by
  cases i with
  | all ns uri =>
      rw [declareIn] at h
      cases hnames : r.declarationNames? ns with
      | none =>
          rw [hnames] at h
          cases h
      | some names =>
          rw [hnames] at h
          cases h
          refine ⟨?_, fun name => ?_⟩
          · simpa [HasTarget, Registry.hasNamespace, Registry.declarationNames?] using
              Option.isSome_of_eq_some hnames
          · simp [NameTable.lookup?_declareAll, binds, Registry.hasDeclaration, hnames, Import.ns]
  | type ns name uri =>
      rw [declareIn] at h
      by_cases hdeclared : r.hasDeclaration ns name
      · rw [if_pos hdeclared] at h
        cases h
        exact ⟨hdeclared, fun other => by simp [NameTable.lookup?_declare, binds, Import.ns]⟩
      · rw [if_neg hdeclared] at h
        cases h

/-- An import whose target is there can be taken in. -/
lemma exists_declareIn {i : Import} (h : i.HasTarget r) (t : NameTable) :
    ∃ t', i.declareIn r t = .ok t' := by
  cases i with
  | all ns uri =>
      have hnames : (r.declarationNames? ns).isSome = true := by
        simpa [HasTarget, Registry.hasNamespace, Registry.declarationNames?] using h
      obtain ⟨names, hnames⟩ := Option.isSome_iff_exists.mp hnames
      exact ⟨t.declareAll ns names, by rw [declareIn, hnames]⟩
  | type ns name uri => exact ⟨t.declare ns name, if_pos h⟩

/-- An import whose target is not there cannot. -/
lemma declareIn_eq_missing {i : Import} (h : ¬ i.HasTarget r) (t : NameTable) :
    i.declareIn r t = .error i.missing := by
  cases i with
  | all ns uri =>
      have hnames : r.declarationNames? ns = none := by
        simpa [HasTarget, Registry.hasNamespace, Registry.declarationNames?] using h
      rw [declareIn, hnames, missing]
  | type ns name uri => exact if_neg h

end Import

/-- An import is the first one without its target. -/
def FirstMissing (r : Registry) (imports : List Import) (i : Import) : Prop :=
  ∃ before after, imports = before ++ i :: after ∧ (∀ j ∈ before, j.HasTarget r) ∧ ¬ i.HasTarget r

namespace FirstMissing

variable {r : Registry} {i j : Import} {imports : List Import}

lemma of_cons (hi : i.HasTarget r) : FirstMissing r (i :: imports) j ↔ FirstMissing r imports j := by
  constructor
  · rintro ⟨before, after, himports, hbefore, hj⟩
    cases before with
    | nil =>
        obtain ⟨rfl, -⟩ := List.cons.inj himports
        exact absurd hi hj
    | cons k before =>
        obtain ⟨-, himports⟩ := List.cons.inj himports
        exact ⟨before, after, himports, (List.forall_mem_cons.mp hbefore).2, hj⟩
  · rintro ⟨before, after, rfl, hbefore, hj⟩
    exact ⟨i :: before, after, rfl, List.forall_mem_cons.mpr ⟨hi, hbefore⟩, hj⟩

lemma of_head (hi : ¬ i.HasTarget r) : FirstMissing r (i :: imports) j ↔ j = i := by
  constructor
  · rintro ⟨before, after, himports, hbefore, -⟩
    cases before with
    | nil => exact (List.cons.inj himports).1.symm
    | cons k before =>
        obtain ⟨rfl, -⟩ := List.cons.inj himports
        exact absurd (List.forall_mem_cons.mp hbefore).1 hi
  · rintro rfl
    exact ⟨[], imports, rfl, by simp, hi⟩

end FirstMissing

/-! ### Tables -/

namespace NameTable

variable {r r' : Registry} {t t' : NameTable}

/-- A name belongs to the last of the imports that bind it. -/
lemma lookup?_of_imports {imports : List Import}
    (h : imports.foldlM (Import.declareIn r) t = .ok t') :
    (∀ i ∈ imports, i.HasTarget r) ∧ ∀ name, t'.lookup? name =
      ((imports.reverse.find? (·.binds r name)).map Import.ns).or (t.lookup? name) := by
  induction imports generalizing t with
  | nil =>
      cases h
      exact ⟨by simp, fun name => by simp⟩
  | cons i imports ih =>
      rw [List.foldlM_cons] at h
      obtain ⟨middle, hfirst, hrest⟩ := bind_eq_ok.mp h
      obtain ⟨htarget, hbinds⟩ := Import.declareIn_eq_ok hfirst
      obtain ⟨htargets, hlookup⟩ := ih hrest
      -- the later imports are looked at first, this one only where none of them binds the name
      refine ⟨List.forall_mem_cons.mpr ⟨htarget, htargets⟩, fun name => ?_⟩
      rw [hlookup, hbinds, List.reverse_cons, List.find?_append]
      by_cases hi : i.binds r name <;> cases imports.reverse.find? (·.binds r name) <;> simp [hi]

/-- Imports are taken in one by one, up to the first one without its target. -/
lemma imports_eq_error {imports : List Import} {e : ResolutionError} :
    imports.foldlM (Import.declareIn r) t = .error e ↔
      ∃ i, FirstMissing r imports i ∧ e = i.missing := by
  induction imports generalizing t with
  | nil =>
      constructor
      · intro h
        cases h
      · rintro ⟨i, ⟨before, after, himports, -⟩, -⟩
        exact absurd himports (by simp)
  | cons i imports ih =>
      rw [List.foldlM_cons]
      by_cases hi : i.HasTarget r
      · obtain ⟨t', ht'⟩ := Import.exists_declareIn hi t
        rw [ht']
        simp only [FirstMissing.of_cons hi]
        exact ih
      · rw [Import.declareIn_eq_missing hi]
        simp only [FirstMissing.of_head hi, exists_eq_left]
        exact ⟨fun h => (Except.error.inj h).symm, fun h => congrArg _ h.symm⟩

/-- The table of a model has a name of its own, or else one that the last import binds that binds
it, or else one of the base declarations. -/
theorem lookup?_of_build {s : Settings} {m : Model} (h : build r s m = .ok t) :
    (∀ i ∈ m.imports, i.HasTarget r) ∧ ∀ name, t.lookup? name =
      if name ∈ m.declarationNames then some m.ns
      else ((m.imports.reverse.find? (·.binds r name)).map Import.ns).or
        (if name ∈ baseKeys s then some s.builtinNamespace else none) := by
  obtain ⟨imported, himports, hlocal⟩ := bind_eq_ok.mp h
  cases hlocal
  obtain ⟨htargets, hlookup⟩ := lookup?_of_imports himports
  refine ⟨htargets, fun name => ?_⟩
  rw [lookup?_declareAll, hlookup, base, lookup?_declareAll, lookup?_empty]

/-- The table of a model depends on the names that the models in the registry declare only. -/
lemma build_congr (hnames : r.declarationNames? = r'.declarationNames?) (s : Settings) (m : Model) :
    build r s m = build r' s m := by
  have hdeclare : Import.declareIn r = Import.declareIn r' := by
    funext t i
    cases i <;> simp [Import.declareIn, Registry.hasDeclaration, hnames]
  rw [build, build, hdeclare]

end NameTable

/-! ### What a model sees -/

/-- A name of the base declarations under the settings: that of transactions has another one in older
tables. -/
def Settings.HasBase (s : Settings) (name : String) : Prop :=
  if s.legacyTransactionKey then
    name = Concerto.legacyTransactionKey ∨ name ∈ baseDeclarations ∧ name ≠ "Transaction"
  else name ∈ baseDeclarations

lemma mem_baseKeys {s : Settings} {name : String} : name ∈ baseKeys s ↔ s.HasBase name := by
  unfold Settings.HasBase
  cases hlegacy : s.legacyTransactionKey with
  | false => simp [baseKeys, hlegacy]
  | true =>
      simp only [baseKeys, hlegacy, baseDeclarations, legacyTransactionKey, if_true]
      constructor
      · intro h
        simp at h
        rcases h with rfl | rfl | rfl | rfl | rfl <;> decide
      · rintro (rfl | ⟨h, hne⟩)
        · simp
        · simp [hne] at h
          rcases h with rfl | rfl | rfl | rfl <;> decide

instance (s : Settings) (name : String) : Decidable (s.HasBase name) :=
  decidable_of_iff (name ∈ baseKeys s) mem_baseKeys

/-- A model sees a name in its own namespace if it declares the name, or else in that of the last of
its imports that bind it, or else in that of the base declarations. -/
inductive Model.Sees (r : Registry) (s : Settings) (m : Model) (name : String) : String → Prop
  | own (h : name ∈ m.declarationNames) : m.Sees r s name m.ns
  | imported {before after : List Import} {i : Import} (hown : name ∉ m.declarationNames)
      (himports : m.imports = before ++ i :: after) (hi : i.binds r name = true)
      (hafter : ∀ j ∈ after, j.binds r name = false) : m.Sees r s name i.ns
  | base (hown : name ∉ m.declarationNames) (himports : ∀ i ∈ m.imports, i.binds r name = false)
      (hbase : s.HasBase name) : m.Sees r s name s.builtinNamespace

/-- An import is the last one of its kind. -/
lemma find?_reverse_eq_some {p : Import → Bool} {imports : List Import} {i : Import} :
    imports.reverse.find? p = some i ↔
      p i = true ∧ ∃ before after, imports = before ++ i :: after ∧ ∀ j ∈ after, p j = false := by
  rw [List.find?_eq_some_iff_append]
  refine and_congr_right fun _ => ?_
  constructor
  · rintro ⟨after, before, himports, hafter⟩
    refine ⟨before.reverse, after.reverse, ?_, by simpa using hafter⟩
    rw [← List.reverse_reverse imports, himports]
    simp
  · rintro ⟨before, after, rfl, hafter⟩
    exact ⟨after.reverse, before.reverse, by simp, by simpa using hafter⟩

lemma Model.sees_iff {r : Registry} {s : Settings} {m : Model} {name ns : String} :
    m.Sees r s name ns ↔
      (if name ∈ m.declarationNames then some m.ns
      else ((m.imports.reverse.find? (·.binds r name)).map Import.ns).or
        (if name ∈ baseKeys s then some s.builtinNamespace else none)) = some ns := by
  -- the three rules in their order: an own declaration, the last import that binds the name, a
  -- built-in
  by_cases hown : name ∈ m.declarationNames
  · rw [if_pos hown, Option.some_inj]
    constructor
    · rintro (_ | ⟨hnot, -⟩ | ⟨hnot, -⟩)
      · rfl
      · exact absurd hown hnot
      · exact absurd hown hnot
    · rintro rfl
      exact .own hown
  · rw [if_neg hown]
    cases hlast : m.imports.reverse.find? (·.binds r name) with
    | none =>
        have hnone : ∀ i ∈ m.imports, i.binds r name = false := by simpa using hlast
        simp only [Option.map_none, Option.none_or]
        constructor
        · rintro (hm | ⟨-, himports, hi, -⟩ | ⟨-, -, hbase⟩)
          · exact absurd hm hown
          · rw [hnone _ (by rw [himports]; simp)] at hi
            cases hi
          · rw [if_pos (mem_baseKeys.mpr hbase)]
        · intro h
          split at h
          · next hbase =>
              cases h
              exact .base hown hnone (mem_baseKeys.mp hbase)
          · cases h
    | some i =>
        obtain ⟨hi, before, after, himports, hafter⟩ := find?_reverse_eq_some.mp hlast
        simp only [Option.map_some, Option.some_or, Option.some_inj]
        constructor
        · rintro (hm | ⟨-, himports', hj, hafter'⟩ | ⟨-, hnone, -⟩)
          · exact absurd hm hown
          -- both occurrences are the last binding import, so they are the same one
          · have hlast' := find?_reverse_eq_some.mpr ⟨hj, _, _, himports', hafter'⟩
            rw [hlast] at hlast'
            cases hlast'
            rfl
          · rw [hnone i (by rw [himports]; simp)] at hi
            cases hi
        · rintro rfl
          exact .imported hown himports hi hafter

namespace NameTable

/-- There is no table if and only if an import misses its target; the first such import is
reported. -/
lemma build_eq_error {s : Settings} {m : Model} {e : ResolutionError} :
    build r s m = .error e ↔ ∃ i, FirstMissing r m.imports i ∧ e = i.missing := by
  rw [build, bind_eq_error, ← imports_eq_error]
  exact ⟨fun h => h.resolve_right fun ⟨_, _, h⟩ => (nomatch h), .inl⟩

lemma exists_build {m : Model} (htargets : ∀ i ∈ m.imports, i.HasTarget r) (s : Settings) :
    ∃ t, build r s m = .ok t := by
  cases h : build r s m with
  | ok t => exact ⟨t, rfl⟩
  | error e =>
      obtain ⟨i, ⟨before, after, himports, -, hi⟩, -⟩ := build_eq_error.mp h
      exact absurd (htargets i (by rw [himports]; simp)) hi

/-- In its table a model has the names that it sees. -/
lemma lookup?_eq_some_iff {s : Settings} {m : Model} (h : build r s m = .ok t) {name ns : String} :
    t.lookup? name = some ns ↔ m.Sees r s name ns := by
  rw [(lookup?_of_build h).2 name]
  exact Model.sees_iff.symm

/-- A model has a table exactly if all its imports have their targets; otherwise the first that has
none is reported. In the table, every name has the namespace in which the model sees it, and
no other. -/
theorem build_specification (r : Registry) (s : Settings) (m : Model) :
    ((∃ t, build r s m = .ok t) ↔ ∀ i ∈ m.imports, i.HasTarget r) ∧
      (∀ e, build r s m = .error e ↔ ∃ i, FirstMissing r m.imports i ∧ e = i.missing) ∧
      ∀ t, build r s m = .ok t → ∀ name ns, t.lookup? name = some ns ↔ m.Sees r s name ns :=
  ⟨⟨fun ⟨_, h⟩ => (lookup?_of_build h).1, fun htargets => exists_build htargets s⟩,
    fun _ => build_eq_error, fun _ h _ _ => lookup?_eq_some_iff h⟩

/-- A model of enumerations without values. -/
def naming (ns : String) (imports : List Import) (names : List String) : Model :=
  ⟨ns, none, none, imports, names.map fun name => .enumeration ⟨⟨name, none, none⟩, []⟩⟩

/-- Two namespaces that both declare `X`. -/
def overlapping : Registry :=
  ⟨.standard, [("a", ⟨naming "a" [] ["X", "Y", "Concept"], none, none⟩),
    ("b", ⟨naming "b" [] ["X"], none, none⟩)]⟩

/-- A model that imports both of them, and declares a name twice. -/
def overlappingImports : Model := naming "m" [.all "a" none, .type "b" "X" none] ["Y", "Y"]

theorem build_specification_overlapping :
    (∃ t, build overlapping ⟨"core", true, true, ".cto"⟩ overlappingImports = .ok t ∧
      t.lookup? "X" = some "b" ∧ t.lookup? "Y" = some "m" ∧ t.lookup? "Concept" = some "a" ∧
      t.lookup? "Transaction " = some "core" ∧ t.lookup? "Transaction" = none) ∧
    build overlapping .standard (naming "m" [.type "b" "X" none, .type "b" "Z" none, .all "c" none] [])
      = .error (.missingDeclaration "Z" "b") := by
  obtain ⟨hbuilt, -, hlookup⟩ :=
    build_specification overlapping ⟨"core", true, true, ".cto"⟩ overlappingImports
  obtain ⟨t, ht⟩ := hbuilt.mpr (by decide)
  refine ⟨⟨t, ht, ?_, ?_, ?_, ?_, ?_⟩, ?_⟩
  -- the rules for the names one by one: an import of one type, an own declaration, an import of all
  -- types, a built-in, and no rule
  · exact (hlookup t ht _ _).mpr <| @Model.Sees.imported _ _ _ _ [.all "a" none] []
      (.type "b" "X" none) (by decide) rfl (by decide) (by decide)
  · exact (hlookup t ht _ _).mpr (.own (by decide))
  · exact (hlookup t ht _ _).mpr <| @Model.Sees.imported _ _ _ _ [] [.type "b" "X" none]
      (.all "a" none) (by decide) rfl (by decide) (by decide)
  · exact (hlookup t ht _ _).mpr (.base (by decide) (by decide) (by decide))
  · refine Option.eq_none_iff_forall_ne_some.mpr fun ns h => ?_
    rcases (hlookup t ht _ _).mp h with hown | ⟨-, himports, hi, -⟩ | ⟨-, -, hbase⟩
    · exact absurd hown (by decide)
    · have hnone : ∀ i ∈ overlappingImports.imports, i.binds overlapping "Transaction" = false := by
        decide
      rw [hnone _ (by rw [himports]; simp)] at hi
      cases hi
    · exact absurd hbase (by decide)
  · obtain ⟨-, herror, -⟩ := build_specification overlapping .standard
      (naming "m" [.type "b" "X" none, .type "b" "Z" none, .all "c" none] [])
    exact (herror _).mpr ⟨.type "b" "Z" none,
      ⟨[.type "b" "X" none], [.all "c" none], rfl, by decide, by decide⟩, rfl⟩

end NameTable

end Concerto
