import Concerto.Proofs.Resolve.References

/-!
What resolution does to a model.

* `NameTable.assign`, `NameTable.assignKnown`: a reference that is resolved, and references that are as
  far as the first one without a declaration;
* `Visits`: a visit resolves references in their order, up to the first one without a declaration;
* `Model.resolveNames_eq_ok`: a model is resolved if all its references have declarations, and
  nothing else in it changes;
* `Model.resolveNames_mapReferences`: how it is resolved depends on the names of its references only.
-/

namespace Concerto

namespace NameTable

/-- The first of the references that has no declaration. -/
def unknown? (t : NameTable) (refs : List Reference) : Option String :=
  (refs.find? fun r => t.namespaceOf? r.name = none).map Reference.name

/-- The reference with the namespace that the table has for its name. -/
def assign (t : NameTable) (r : Reference) : Reference := { r with ns := t.namespaceOf? r.name }

/-- The references with those resolved that come before the first one without a declaration. -/
def assignKnown (t : NameTable) : List Reference → List Reference
  | [] => []
  | r :: refs =>
    match t.namespaceOf? r.name with
    | some ns => { r with ns := some ns } :: t.assignKnown refs
    | none => r :: refs

variable {t : NameTable}

@[simp] lemma unknown?_nil : t.unknown? [] = none := rfl

lemma unknown?_append (refs refs' : List Reference) :
    t.unknown? (refs ++ refs') = (t.unknown? refs).or (t.unknown? refs') := by
  rw [unknown?, unknown?, unknown?, List.find?_append]
  cases refs.find? fun r => t.namespaceOf? r.name = none <;> rfl

lemma unknown?_eq_none {refs : List Reference} :
    t.unknown? refs = none ↔ ∀ r ∈ refs, ∃ ns, t.namespaceOf? r.name = some ns := by
  simp [unknown?, Option.ne_none_iff_exists']

lemma exists_of_unknown? {refs : List Reference} {name : String} (h : t.unknown? refs = some name) :
    ∃ r ∈ refs, t.namespaceOf? r.name = none ∧ r.name = name := by
  obtain ⟨r, hfind, hname⟩ := Option.map_eq_some_iff.mp h
  exact ⟨r, List.mem_of_find?_eq_some hfind, by simpa using List.find?_some hfind, hname⟩

/-- Only the names of references count. -/
lemma unknown?_map {f : Reference → Reference} (hf : ∀ r, (f r).name = r.name)
    (refs : List Reference) : t.unknown? (refs.map f) = t.unknown? refs := by
  simp [unknown?, List.find?_map, Function.comp_def, hf]

lemma unknown?_cons_of_known {r : Reference} {refs : List Reference} {ns : String}
    (hns : t.namespaceOf? r.name = some ns) : t.unknown? (r :: refs) = t.unknown? refs := by
  simp [unknown?, hns]

lemma unknown?_cons_of_unknown {r : Reference} {refs : List Reference}
    (hns : t.namespaceOf? r.name = none) : t.unknown? (r :: refs) = some r.name := by
  simp [unknown?, hns]

lemma assignKnown_append_of_known {refs : List Reference} (h : t.unknown? refs = none)
    (refs' : List Reference) :
    t.assignKnown (refs ++ refs') = refs.map t.assign ++ t.assignKnown refs' := by
  induction refs with
  | nil => rfl
  | cons r refs ih =>
      obtain ⟨ns, hns⟩ := unknown?_eq_none.mp h r List.mem_cons_self
      rw [unknown?_cons_of_known hns] at h
      rw [List.cons_append, assignKnown, hns, ih h, List.map_cons, assign, hns, List.cons_append]

lemma assignKnown_of_known {refs : List Reference} (h : t.unknown? refs = none) :
    t.assignKnown refs = refs.map t.assign := by
  simpa [assignKnown] using assignKnown_append_of_known h []

lemma assignKnown_append_of_unknown {refs : List Reference} {name : String}
    (h : t.unknown? refs = some name) (refs' : List Reference) :
    t.assignKnown (refs ++ refs') = t.assignKnown refs ++ refs' := by
  induction refs with
  | nil => cases h
  | cons r refs ih =>
      rw [List.cons_append, assignKnown, assignKnown]
      cases hns : t.namespaceOf? r.name with
      | none => rfl
      | some ns =>
          rw [unknown?_cons_of_known hns] at h
          rw [ih h, List.cons_append]

lemma assign_comp {f : Reference → Reference} (hf : ∀ r, (f r).name = r.name) :
    t.assign ∘ f = t.assign := by
  funext r
  obtain ⟨name, ns⟩ := r
  have hname := hf ⟨name, ns⟩
  simp [assign, hname]

end NameTable

/-! ### Visits -/

/-- A visit of a node resolves its references in their order. Once one has no declaration, nothing
more is changed. If all have declarations, it gives the node with all of them resolved. In any case it
leaves the references before the first one without a declaration resolved, and everything else in
the node as it was. -/
structure Visits {α : Type} (t : NameTable) (refs : α → List Reference)
    (change : (Reference → Reference) → α → α) (a : α) (visit : StateM Unresolved α) : Prop where
  halted : ∀ name, visit.run (some name) = (a, some name)
  unknown : (visit.run none).2 = t.unknown? (refs a)
  done : t.unknown? (refs a) = none → (visit.run none).1 = change t.assign a
  references : refs (visit.run none).1 = t.assignKnown (refs a)
  others : change Reference.unresolved (visit.run none).1 = change Reference.unresolved a

namespace Visits

variable {α β γ : Type} {t : NameTable}
  {refsA : α → List Reference} {changeA : (Reference → Reference) → α → α}
  {refsB : β → List Reference} {changeB : (Reference → Reference) → β → β}
  {refsC : γ → List Reference} {changeC : (Reference → Reference) → γ → γ}
  {a : α} {b : β} {c : γ} {visitB : StateM Unresolved β} {visitC : StateM Unresolved γ}

/-- A node without references is not changed. -/
lemma pure (hrefs : refsA a = []) (hchange : ∀ f, changeA f a = a) :
    Visits t refsA changeA a (pure a) where
  halted _ := rfl
  unknown := by
    rw [hrefs]
    rfl
  done _ := (hchange t.assign).symm
  references := by
    show refsA a = _
    rw [hrefs, NameTable.assignKnown]
  others := rfl

/-- A step resolves a reference. -/
lemma resolve (t : NameTable) (r : Reference) :
    Visits t (fun r => [r]) (fun f => f) r (Reference.resolve t r) := by
  cases hns : t.namespaceOf? r.name with
  | none =>
      have hrun : (Reference.resolve t r).run none = (r, some r.name) := by
        simp only [Reference.resolve, hns]
        rfl
      exact
        { halted := fun _ => rfl
          unknown := by simp [hrun, NameTable.unknown?, hns]
          done := fun hnone => by simp [NameTable.unknown?, hns] at hnone
          references := by rw [hrun, NameTable.assignKnown, hns]
          others := by rw [hrun] }
  | some ns =>
      have hrun : (Reference.resolve t r).run none = (t.assign r, none) := by
        simp only [Reference.resolve, NameTable.assign, hns]
        rfl
      exact
        { halted := fun _ => rfl
          unknown := by simp [hrun, NameTable.unknown?, hns]
          done := fun _ => by rw [hrun]
          references := by
            rw [hrun, NameTable.assignKnown, hns, NameTable.assignKnown, NameTable.assign, hns]
          others := by rw [hrun]; rfl }

/-- A node of two parts is visited by visiting the first part, then the second. -/
lemma both (mk : β → γ → α) (hrefs : ∀ b c, refsA (mk b c) = refsB b ++ refsC c)
    (hchange : ∀ f b c, changeA f (mk b c) = mk (changeB f b) (changeC f c))
    (hb : Visits t refsB changeB b visitB) (hc : Visits t refsC changeC c visitC) :
    Visits t refsA changeA (mk b c)
      (visitB >>= fun b => visitC >>= fun c => Pure.pure (mk b c)) := by
  have hrun : ∀ u, (visitB >>= fun b => visitC >>= fun c => Pure.pure (mk b c)).run u =
      (mk (visitB.run u).1 (visitC.run (visitB.run u).2).1,
        (visitC.run (visitB.run u).2).2) := fun _ => rfl
  cases hfirst : t.unknown? (refsB b) with
  | none =>
      -- the first part is resolved, and what the second part leaves is left
      have hstate : (visitB.run none).2 = none := hb.unknown.trans hfirst
      exact
        { halted := fun name => by rw [hrun, hb.halted, hc.halted]
          unknown := by
            rw [hrun, hrefs, NameTable.unknown?_append, hfirst, hstate, hc.unknown, Option.none_or]
          done := fun hnone => by
            rw [hrefs, NameTable.unknown?_append, hfirst, Option.none_or] at hnone
            rw [hrun, hstate, hb.done hfirst, hc.done hnone, hchange]
          references := by
            rw [hrun, hrefs, hrefs, hstate, hb.references, hc.references,
              NameTable.assignKnown_of_known hfirst, NameTable.assignKnown_append_of_known hfirst]
          others := by rw [hrun, hchange, hchange, hstate, hb.others, hc.others] }
  | some name =>
      -- the second part is not touched
      have hstate : (visitB.run none).2 = some name := hb.unknown.trans hfirst
      exact
        { halted := fun name => by rw [hrun, hb.halted, hc.halted]
          unknown := by
            rw [hrun, hrefs, NameTable.unknown?_append, hfirst, hstate, hc.halted, Option.some_or]
          done := fun hnone => by
            rw [hrefs, NameTable.unknown?_append, hfirst, Option.some_or] at hnone
            cases hnone
          references := by
            rw [hrun, hrefs, hrefs, hstate, hc.halted, hb.references,
              NameTable.assignKnown_append_of_unknown hfirst]
          others := by rw [hrun, hchange, hchange, hstate, hc.halted, hb.others] }

/-- What is put around a part without other references does not count. -/
lemma map (mk : β → α) (hrefs : ∀ b, refsA (mk b) = refsB b)
    (hchange : ∀ f b, changeA f (mk b) = mk (changeB f b)) (hb : Visits t refsB changeB b visitB) :
    Visits t refsA changeA (mk b) (visitB >>= fun b => Pure.pure (mk b)) where
  halted name := by
    show (mk (visitB.run (some name)).1, (visitB.run (some name)).2) = _
    rw [hb.halted]
  unknown := by
    rw [hrefs]
    exact hb.unknown
  done hnone := by
    rw [hrefs] at hnone
    rw [hchange, ← hb.done hnone]
    rfl
  references := by
    rw [hrefs, ← hb.references]
    exact hrefs _
  others := by
    rw [hchange, ← hb.others]
    exact hchange _ _

/-- The items of a list are visited in their order. -/
lemma mapM {visit : β → StateM Unresolved β} (h : ∀ b, Visits t refsB changeB b (visit b))
    (bs : List β) :
    Visits t (List.flatMap refsB) (fun f => List.map (changeB f)) bs (bs.mapM visit) := by
  induction bs with
  | nil => exact pure rfl fun _ => rfl
  | cons b bs ih =>
      rw [List.mapM_cons]
      exact both List.cons (fun _ _ => List.flatMap_cons) (fun _ _ _ => rfl) (h b) ih

end Visits

section Nodes

variable (t : NameTable)

lemma DecoratorArgument.visits (a : DecoratorArgument) :
    Visits t references mapReferences a (a.visit (Reference.resolve t)) := by
  cases a with
  | type ref isArray location =>
      exact Visits.map (type · isArray location) (fun _ => rfl) (fun _ _ => rfl)
        (Visits.resolve t ref)
  | _ => exact Visits.pure rfl fun _ => rfl

lemma Decorator.visits (d : Decorator) :
    Visits t references mapReferences d (d.visit (Reference.resolve t)) := by
  obtain ⟨name, arguments, location⟩ := d
  cases arguments with
  | none => exact Visits.pure rfl fun _ => rfl
  | some arguments =>
      exact Visits.map (fun arguments => Decorator.mk name (some arguments) location)
        (fun _ => rfl) (fun _ _ => rfl) (Visits.mapM (DecoratorArgument.visits t) arguments)

lemma Header.visits (h : Header) :
    Visits t references mapReferences h (h.visit (Reference.resolve t)) := by
  obtain ⟨name, decorators, location⟩ := h
  cases decorators with
  | none => exact Visits.pure rfl fun _ => rfl
  | some decorators =>
      exact Visits.map (fun decorators => Header.mk name (some decorators) location)
        (fun _ => rfl) (fun _ _ => rfl) (Visits.mapM (Decorator.visits t) decorators)

lemma PropertyKind.visits (k : PropertyKind) :
    Visits t references mapReferences k (k.visit (Reference.resolve t)) := by
  cases k with
  | object type default =>
      exact Visits.map (object · default) (fun _ => rfl) (fun _ _ => rfl) (Visits.resolve t type)
  | relationship type =>
      exact Visits.map relationship (fun _ => rfl) (fun _ _ => rfl) (Visits.resolve t type)
  | _ => exact Visits.pure rfl fun _ => rfl

lemma Property.visits (p : Property) :
    Visits t references mapReferences p (p.visit (Reference.resolve t)) :=
  Visits.both (fun kind header => { p with kind := kind, header := header }) (fun _ _ => rfl)
    (fun _ _ _ => rfl) (p.kind.visits t) (p.header.visits t)

lemma Concept.visits (c : Concept) :
    Visits t references mapReferences c (c.visit (Reference.resolve t)) := by
  have hsuper : Visits t Option.toList Option.map c.superType
      (c.superType.mapM (Reference.resolve t)) := by
    cases c.superType with
    | none => exact Visits.pure rfl fun _ => rfl
    | some r => exact Visits.map some (fun _ => rfl) (fun _ _ => rfl) (Visits.resolve t r)
  have hrest : Visits t
      (fun rest : List Property × Header => rest.1.flatMap Property.references ++ rest.2.references)
      (fun f rest => (rest.1.map (·.mapReferences f), rest.2.mapReferences f))
      (c.properties, c.header) _ :=
    -- the header comes last, since the visit takes the decorators after the properties
    Visits.both Prod.mk (fun _ _ => rfl) (fun _ _ _ => rfl)
      (Visits.mapM (Property.visits t) c.properties) (c.header.visits t)
  refine Visits.both
    (fun superType rest =>
      ({ c with superType := superType, properties := rest.1, header := rest.2 } : Concept))
    (fun superType rest => ?_) (fun f superType rest => ?_) hsuper hrest
  · exact List.append_assoc ..
  · rfl

lemma Enumeration.visits (enumValues : Bool) (e : Enumeration) :
    Visits t (references enumValues) (mapReferences enumValues) e
      (e.visit enumValues (Reference.resolve t)) := by
  cases enumValues with
  | false =>
      exact Visits.map (fun header => Enumeration.mk header e.values)
        (fun _ => List.append_nil _) (fun _ _ => rfl) (e.header.visits t)
  | true =>
      exact Visits.both Enumeration.mk (fun _ _ => rfl) (fun _ _ _ => rfl) (e.header.visits t)
        (Visits.mapM (Header.visits t) e.values)

lemma Declaration.visits (enumValues : Bool) (d : Declaration) :
    Visits t (references enumValues) (mapReferences enumValues) d
      (d.visit enumValues (Reference.resolve t)) := by
  cases d with
  | concept c => exact Visits.map concept (fun _ => rfl) (fun _ _ => rfl) (c.visits t)
  | enumeration e =>
      exact Visits.map enumeration (fun _ => rfl) (fun _ _ => rfl) (e.visits t enumValues)

/-- The references of a model are resolved in their order. -/
lemma Model.visits (enumValues : Bool) (m : Model) :
    Visits t (references enumValues) (mapReferences enumValues) m
      (m.visit enumValues (Reference.resolve t)) :=
  Visits.map (fun declarations => ({ m with declarations := declarations } : Model)) (fun _ => rfl)
    (fun _ _ => rfl) (Visits.mapM (Declaration.visits t enumValues) m.declarations)

end Nodes

/-! ### Resolution -/

namespace Model

variable {s : Settings} {t : NameTable} {m m' : Model}

/-- A model with a reference that has no declaration is not resolved; any other has all its
references resolved. -/
lemma resolveNames_eq (s : Settings) (t : NameTable) (m : Model) :
    m.resolveNames s t =
      match t.unknown? (m.references s.resolveEnumValueDecorators) with
      | none => .ok (m.mapReferences s.resolveEnumValueDecorators t.assign)
      | some name => .error (.unknownName name) := by
  have hvisits := m.visits t s.resolveEnumValueDecorators
  rw [resolveNames, resolvedAll, resolved]
  rw [← hvisits.unknown]
  cases hrun : (m.visit s.resolveEnumValueDecorators (Reference.resolve t)).run none with
  | mk m' unresolved =>
      have hname : unresolved = t.unknown? (m.references s.resolveEnumValueDecorators) := by
        rw [← hvisits.unknown, hrun]
      cases unresolved with
      | none =>
          have hdone := hvisits.done hname.symm
          rw [hrun] at hdone
          show Except.ok m' = _
          rw [← hdone]
      | some name => rfl

/-- A model is resolved if all its references have declarations. Then they have their namespaces,
and nothing else has changed. -/
theorem resolveNames_eq_ok : m.resolveNames s t = .ok m' ↔
    (∀ r ∈ m.references s.resolveEnumValueDecorators, ∃ ns, t.namespaceOf? r.name = some ns) ∧
      m' = m.mapReferences s.resolveEnumValueDecorators t.assign := by
  rw [resolveNames_eq, ← NameTable.unknown?_eq_none]
  cases t.unknown? (m.references s.resolveEnumValueDecorators) <;> simp [eq_comm]

/-- The namespaces that references have do not matter for the ones that they get. -/
lemma resolveNames_mapReferences {f : Reference → Reference} (hf : ∀ r, (f r).name = r.name)
    (s : Settings) (t : NameTable) (m : Model) :
    (m.mapReferences s.resolveEnumValueDecorators f).resolveNames s t = m.resolveNames s t := by
  rw [resolveNames_eq, resolveNames_eq, references_mapReferences, t.unknown?_map hf,
    mapReferences_mapReferences, t.assign_comp hf]

end Model

end Concerto
