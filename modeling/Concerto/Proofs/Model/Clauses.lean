import Concerto.Proofs.Model.Retracing
import Concerto.Proofs.Token.Leads
import Concerto.Proofs.Token.Reaches
import Concerto.Proofs.Token.Series

/-!
The clauses of a concept.

* `Clause`: a clause, with the words that spell it and its effect on the clauses before it;
* `Parser.readsItems_clause`: the parser reads clauses one after another, each with its effect;
* `Clause.step_comm`: clauses may be swapped, and what scanning them does to the mode with them;
* `Clause.effect_once`: there is one clause of a kind at most.
-/

namespace Concerto

/-- A clause of the header of a concept. -/
inductive Clause where
  | superType (name : String)
  | identified (name : Option String)
  deriving DecidableEq, Repr

namespace Clause

/-- The keyword that begins a clause, which tells its kind. -/
def keyword : Clause → Keyword
  | superType _ => .extendsKw
  | identified _ => .identifiedKw

/-- The words that spell a clause. -/
def words : Clause → List Word
  | superType name => [.keyword .extendsKw, ⟨.identifier, name⟩]
  | identified none => [.keyword .identifiedKw]
  | identified (some name) => [.keyword .identifiedKw, .keyword .byKw, .name name]

/-- How a concept is identified, by a property or not. -/
def identification : Option String → Identification
  | none => .system
  | some name => .byProperty name

/-- A clause is added to those before it, unless there is one of its kind or its name is reserved. -/
def effect (c : Parser.Clauses) : Clause → Option Parser.Clauses
  | superType name =>
    if c.superType.isSome || reservedWords.contains name then none
    else some { c with superType := some ⟨name, none⟩ }
  | identified name =>
    if c.identified.isSome || name.any reservedWords.contains then none
    else some { c with identified := some (identification name) }

/-- There is a clause of the kind. -/
def IsGiven (c : Parser.Clauses) : Keyword → Prop
  | .extendsKw => c.superType.isSome = true
  | .identifiedKw => c.identified.isSome = true
  | _ => False

lemma effect_once {c c' : Parser.Clauses} {x : Clause} (h : effect c x = some c') :
    ¬IsGiven c x.keyword ∧ ∀ k, k = x.keyword ∨ IsGiven c k → IsGiven c' k := by
  cases x with
  | superType | identified =>
      rw [effect, Option.ite_none_left_eq_some, Bool.or_eq_true, not_or] at h
      obtain ⟨⟨hfresh, -⟩, heq⟩ := h
      obtain rfl := Option.some.inj heq
      refine ⟨hfresh, ?_⟩
      rintro k (rfl | hk)
      · rfl
      · cases k <;> simp_all [IsGiven]

lemma standsAlone_words (x : Clause) : StandsAlone x.words := by
  match x with
  | superType _ | identified none => exact ⟨⟨_, _, rfl, by simp⟩, by simp [Closes, words]⟩
  | identified (some name) =>
      refine ⟨⟨_, _, rfl, by simp⟩, ?_⟩
      simp only [Closes, words, List.getLast?_cons_cons, List.getLast?_singleton, Option.mem_def,
        Option.some.injEq, forall_eq', Word.name]
      split <;> simp

/-! ### Modes -/

/-- The mode after a clause, unless nothing but a location may follow. -/
def modeAfter (mode : ImportMode) (x : Clause) : Option ImportMode :=
  (mode.run (Word.kinds x.words)).filter (· ≠ .afterFrom)

/-- The effect of a clause, and the mode after it. -/
def step (state : Parser.Clauses × ImportMode) (x : Clause) :
    Option (Parser.Clauses × ImportMode) :=
  (effect state.1 x).bind fun c => (modeAfter state.2 x).map fun mode => (c, mode)

/-- A clause may stand anywhere but right after the `from` of an import. -/
lemma run_words_ne_none {mode : ImportMode} (hmode : mode ≠ .afterFrom) (x : Clause) :
    mode.run (Word.kinds x.words) ≠ none := by
  match x with
  | superType _ | identified none =>
      cases mode <;> simp_all [words, ImportMode.run, ImportMode.admits, ImportMode.next]
  | identified (some name) =>
      have hname : (Word.name name).kind ≠ .uri := by
        unfold Word.name
        split <;> simp
      cases mode <;> simp_all [words, ImportMode.run, ImportMode.admits, ImportMode.next]

lemma modeAfter_comm (mode : ImportMode) (name : String) (id : Option String) :
    (modeAfter mode (superType name)).bind (modeAfter · (identified id)) =
      (modeAfter mode (identified id)).bind (modeAfter · (superType name)) := by
  -- of a name only its kind counts, so the kinds are run through the modes one by one
  cases id with
  | none => cases mode <;> rfl
  | some id =>
      have hkind : ∀ kind : TokenKind, (∃ k, kind = .keyword k) ∨ kind = .identifier →
          (modeAfter mode (superType name)).bind (fun m =>
            (m.run [.keyword .identifiedKw, .keyword .byKw, kind]).filter (· ≠ .afterFrom)) =
          ((mode.run [.keyword .identifiedKw, .keyword .byKw, kind]).filter (· ≠ .afterFrom)).bind
            (modeAfter · (superType name)) := by
        rintro kind (⟨k, rfl⟩ | rfl)
        · cases k <;> cases mode <;> rfl
        · cases mode <;> rfl
      refine hkind (Word.name id).kind ?_
      unfold Word.name
      split
      · exact .inl ⟨_, rfl⟩
      · exact .inr rfl

lemma effect_comm (c : Parser.Clauses) (name : String) (id : Option String) :
    (effect c (superType name)).bind (effect · (identified id)) =
      (effect c (identified id)).bind (effect · (superType name)) := by
  cases hsuper : c.superType.isSome <;> cases hname : reservedWords.contains name <;>
    cases hidentified : c.identified.isSome <;> cases hid : id.any reservedWords.contains <;>
      simp only [effect, hsuper, hname, hidentified, hid, Bool.or_true, Bool.or_false,
        Bool.false_eq_true, if_true, if_false, Option.bind_some, Option.bind_none]

/-- Two steps are the two effects, and the modes after them. -/
lemma step_bind (state : Parser.Clauses × ImportMode) (x y : Clause) :
    (step state x).bind (step · y) =
      ((effect state.1 x).bind (effect · y)).bind fun c =>
        ((modeAfter state.2 x).bind (modeAfter · y)).map fun mode => (c, mode) := by
  simp only [step]
  cases effect state.1 x with
  | none => rfl
  | some c =>
      cases modeAfter state.2 x with
      | none => simp
      | some mode => rfl

/-- A clause is not followed by another one of its kind. -/
lemma effect_bind_eq_none {x y : Clause} (h : x.keyword = y.keyword) (c : Parser.Clauses) :
    (effect c x).bind (effect · y) = none := by
  rw [Option.bind_eq_none_iff]
  intro c' hx
  by_contra hy
  obtain ⟨c'', hy⟩ := Option.ne_none_iff_exists'.mp hy
  exact (effect_once hy).1 ((effect_once hx).2 _ (.inl h.symm))

/-- Two clauses may be swapped. -/
lemma step_comm (state : Parser.Clauses × ImportMode) (x y : Clause) :
    (step state x).bind (step · y) = (step state y).bind (step · x) := by
  rw [step_bind, step_bind]
  match x, y with
  | superType name, superType name' =>
      rw [effect_bind_eq_none (x := superType name) (y := superType name') rfl,
        effect_bind_eq_none (x := superType name') (y := superType name) rfl]
      rfl
  | identified id, identified id' =>
      rw [effect_bind_eq_none (x := identified id) (y := identified id') rfl,
        effect_bind_eq_none (x := identified id') (y := identified id) rfl]
      rfl
  | superType name, identified id => rw [effect_comm, modeAfter_comm]
  | identified id, superType name => rw [effect_comm, modeAfter_comm]

variable {items : List Clause} {mode mode' : ImportMode}

/-- The steps of some clauses are their effects, and the modes after them. -/
lemma foldlM_step (c : Parser.Clauses) (mode : ImportMode) (items : List Clause) :
    items.foldlM step (c, mode) =
      (items.foldlM effect c).bind fun c' => (items.foldlM modeAfter mode).map fun mode' =>
        (c', mode') := by
  induction items generalizing c mode with
  | nil => rfl
  | cons x items ih =>
      simp only [List.foldlM_cons, Option.bind_eq_bind, step, Option.bind_assoc]
      refine congrArg _ (funext fun c' => ?_)
      cases modeAfter mode x with
      | none => simp
      | some mode' => simpa using ih c' mode'

/-- The words of clauses may stand where each of them may. -/
lemma run_of_foldlM (h : items.foldlM modeAfter mode = some mode') :
    mode.run (Word.kinds (items.flatMap words)) = some mode' ∧
      (mode ≠ .afterFrom → mode' ≠ .afterFrom) := by
  induction items generalizing mode with
  | nil => exact ⟨h, fun hne => Option.some.inj h ▸ hne⟩
  | cons x items ih =>
      rw [List.foldlM_cons] at h
      obtain ⟨mode₁, hx, h⟩ := Option.bind_eq_some_iff.mp h
      obtain ⟨hrun, hne⟩ := Option.filter_eq_some_iff.mp hx
      obtain ⟨hothers, hmode⟩ := ih h
      refine ⟨?_, fun _ => hmode (by simpa using hne)⟩
      rw [List.flatMap_cons, Word.kinds_append, ImportMode.run_append, hrun]
      exact hothers

/-- Otherwise nothing but a location may follow one of them. -/
lemma exists_of_foldlM (hmode : mode ≠ .afterFrom) (h : items.foldlM modeAfter mode = none) :
    ∃ first x others, items = first ++ x :: others ∧
      mode.run (Word.kinds ((first ++ [x]).flatMap words)) = some .afterFrom := by
  induction items generalizing mode with
  | nil => cases h
  -- the first clause after which a location is expected is the last that may be there
  | cons x items ih =>
      rw [List.foldlM_cons] at h
      cases hx : modeAfter mode x with
      | none =>
          refine ⟨[], x, items, rfl, ?_⟩
          cases hrun : mode.run (Word.kinds x.words) with
          | none => exact absurd hrun (run_words_ne_none hmode x)
          | some mode' => simpa [modeAfter, hrun, Option.filter] using hx
      | some mode' =>
          obtain ⟨hrun, hne⟩ := Option.filter_eq_some_iff.mp hx
          rw [hx] at h
          obtain ⟨first, y, others, rfl, hlast⟩ := ih (by simpa using hne) h
          refine ⟨x :: first, y, others, rfl, ?_⟩
          rw [List.cons_append, List.flatMap_cons, Word.kinds_append, ImportMode.run_append, hrun]
          exact hlast

end Clause

namespace Parser

/-! ### Reading -/

lemma makes_typeName (name : String) : Makes typeName [⟨.identifier, name⟩]
    (if reservedWords.contains name then none else some name) := by
  refine .expect (by simp) fun t ht => ?_
  have hvalue : t.value = name := by rw [← Token.word_value, ht]
  rw [hvalue]
  split
  · exact .failAt _ _
  · exact .pure _

lemma makes_anyName (name : String) : Makes anyName [.name name]
    (if reservedWords.contains name then none else some name) := by
  refine .peek fun t ht => ?_
  have hvalue : t.value = name := by rw [← Token.word_value, ht, Word.name_value]
  have htake : Makes (if reservedWords.contains t.value then failAt t (.reservedName t.value)
      else do
        let _ ← advance
        return t.value) [.name name] (if reservedWords.contains name then none else some name) := by
    rw [hvalue]
    split
    · exact .failAt _ _
    · exact .advance fun _ _ => .pure _
  -- a word is a name of its own or a keyword, some of which are names and some are not
  cases hk : Keyword.ofText? name with
  | none =>
      have hkind : t.kind = .identifier := by rw [← Token.word_kind, ht, Word.name_of_none hk]
      simpa only [hkind, Bool.not_true, Bool.false_eq_true, if_false] using htake
  | some k =>
      have hkind : t.kind = .keyword k := by rw [← Token.word_kind, ht, Word.name, hk]
      cases hname : k.canBeName with
      | true => simpa only [hkind, hname, Bool.not_true, Bool.false_eq_true, if_false] using htake
      | false =>
          -- the two truth values are reserved
          have hreserved : reservedWords.contains name = true := by
            rw [← Keyword.text_of_ofText? hk]
            cases k <;> first | rfl | simp [Keyword.canBeName] at hname
          simp only [hkind, hname, Bool.not_false, if_true, hreserved]
          exact .failAt _ _

lemma makes_clause_superType (c : Clauses) (name : String) :
    Makes (clause c) (Clause.superType name).words (Clause.effect c (.superType name)) := by
  refine .advance fun t ht => ?_
  have hkind : t.kind = .keyword .extendsKw := by rw [← Token.word_kind, ht]; rfl
  rw [if_pos hkind, Clause.effect]
  cases c.superType.isSome with
  | true => exact .failAt _ _
  | false =>
      have hmakes := (makes_typeName name).bind_pure
        (g := fun name => { c with superType := some ⟨name, none⟩ })
      cases hname : reservedWords.contains name <;> rw [hname] at hmakes <;> exact hmakes

lemma makes_clause_identified (c : Clauses) (name : String) :
    Makes (clause c) (Clause.identified (some name)).words
      (Clause.effect c (.identified (some name))) := by
  refine .advance fun t ht => ?_
  have hkind : t.kind = .keyword .identifiedKw := by rw [← Token.word_kind, ht]; rfl
  rw [if_neg (by simp [hkind]), Clause.effect]
  cases c.identified.isSome with
  | true => exact .failAt _ _
  | false =>
      have hmakes := (makes_anyName name).bind_pure
        (g := fun name => { c with identified := some (.byProperty name) })
      have htake : Makes (takeKeyword .byKw >>= fun isNamed => if isNamed then (do
          return { c with identified := some (.byProperty (← anyName)) })
          else return { c with identified := some .system })
          [.keyword .byKw, .name name] ((if reservedWords.contains name then none
            else some name).map fun name => { c with identified := some (.byProperty name) }) := by
        rw [takeKeyword, bind_assoc]
        exact .nextIs (.advance fun _ _ => hmakes)
      show Makes _ _ (if (false || reservedWords.contains name) = true then none else some _)
      cases hname : reservedWords.contains name <;> rw [hname] at htake <;> exact htake

/-- No clause is read once there is one of its kind. -/
lemma neverAt_clause {c : Clauses} {x : Clause} {t : Token} (ht : t.word ∈ x.words.head?)
    (hgiven : Clause.IsGiven c x.keyword) : NeverAt (clause c) t := by
  have hkind : t.kind = .keyword x.keyword := by
    rw [← Token.word_kind]
    match x with
    | .superType _ | .identified none | .identified (some _) => rw [← Option.some.inj ht]; rfl
  cases x with
  | superType =>
      refine .advance (.duplicateClause .extendsKw) ?_
      rw [if_pos (show t.kind = .keyword .extendsKw from hkind)]
      exact if_pos hgiven
  | identified =>
      refine .advance (.duplicateClause .identifiedKw) ?_
      rw [if_neg (by simp [hkind, Clause.keyword])]
      exact if_pos hgiven

/-- The parser reads clauses, after which no `by` may follow. -/
lemma readsItems_clause : ReadsItems Clause.words
    (fun next => next = .keyword .identifiedKw || next = .keyword .extendsKw)
    (· ≠ .keyword .byKw) clause id Clause.effect where
  advances := advances_clause
  first x := by
    match x with
    | .superType _ | .identified none | .identified (some _) => exact ⟨_, _, rfl, by simp, by simp⟩
  congr c c' h := (show c = c' from h) ▸ .refl (clause c)
  reads x c tokens s htokens hfollows := by
    have hmakes : ∀ {words}, Makes (clause c) words (Clause.effect c x) →
        tokens.map Token.word = words →
        (clause c ⟨tokens ++ s.ahead, s.stop⟩).toOption.map (Prod.map id id) =
          (Clause.effect (id c) x).map fun v => (v, s) := by
      intro words hclause hwords
      rw [hclause tokens s hwords]
      show _ = (Clause.effect c x).map _
      cases Clause.effect c x <;> rfl
    match x with
    | .superType name => exact hmakes (makes_clause_superType c name) htokens
    | .identified (some name) => exact hmakes (makes_clause_identified c name) htokens
    | .identified none =>
        -- whether a property is named is seen from the token after the clause
        obtain ⟨t, _, rfl, ht, hnil⟩ := List.map_eq_cons_iff.mp htokens
        obtain rfl := List.map_eq_nil_iff.mp hnil
        have hkind : t.kind = .keyword .identifiedKw := by rw [← Token.word_kind, ht]; rfl
        show ((if t.kind = .keyword .extendsKw then
            if c.superType.isSome then failAt t (.duplicateClause .extendsKw)
            else do return { c with superType := some ⟨← typeName, none⟩ }
          else if c.identified.isSome then failAt t (.duplicateClause .identifiedKw)
          else takeKeyword .byKw >>= fun isNamed => if isNamed then (do
            return { c with identified := some (.byProperty (← anyName)) })
            else return { c with identified := some .system }) s).toOption.map _ = _
        rw [if_neg (by simp [hkind]), id, Clause.effect]
        cases c.identified.isSome with
        | true => rfl
        | false =>
            rw [if_neg (by simp), takeKeyword_of_ne _ hfollows]
            rfl

end Parser

end Concerto
