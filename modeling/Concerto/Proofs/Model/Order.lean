import Concerto.Proofs.Model.Insertion
import Concerto.Proofs.Model.Leading
import Concerto.Proofs.Model.Modifiers

/-!
The order of clauses and of modifiers.

* `TokenParts`: the tokens of a text, in the middle of which there may be others;
* `Part`: a concept up to its clauses, or a property up to its modifiers;
* `Parser.effects_of_model`, `Parser.exists_modifiers`: where a part stands in a text that is read, its
  items have their effects one after another there;
* `Clause.exists_mode_of_parse`: the words of clauses may then stand where they do;
* `Clause.parse_of_perm`, `Modifier.parse_of_perm`: they may stand there in another order;
* `Clause.nodup_of_parse`, `Modifier.nodup_of_parse`: no two of them are of a kind;
* `Model.parse_items_perm`: so both hold of the items of either part.

What looks like a property may be a value of an enumeration and the `o` of the next value. Then the only
modifier there may be is one without a value, and it is the name of that next value.

If a property that identifies a concept has the name `from`, in what is taken for an import because of
another name, then a location has to follow the clause. So it does in any order of the clauses, and the
text is not read.
-/

namespace Concerto

/-! ### Tokens -/

lemma Context.mode_pushAll_append {context : Context} {words words' : List Word} {mode : ImportMode}
    (h : (context.pushAll words).mode.run (Word.kinds words') = some mode) :
    (context.pushAll (words ++ words')).mode = mode := by
  rw [pushAll, List.foldl_append]
  exact mode_pushAll h

/-- A brace after a gap. -/
def OpensBody (text : List Char) : Prop := ∃ gap rest, IsGap False gap ∧ text = gap ++ '\x7b' :: rest

lemma OpensBody.endsToken {text : List Char} (h : OpensBody text) : EndsToken text := by
  obtain ⟨gap, rest, hgap, rfl⟩ := h
  by_cases hne : gap = []
  · subst hne
    simp [EndsToken, boundaries]
  · exact hgap.endsToken hne _

lemma OpensBody.hasToken {text : List Char} (h : OpensBody text) : HasToken text := by
  obtain ⟨gap, rest, hgap, rfl⟩ := h
  exact ⟨gap, '\x7b', rest, hgap, not_opensGap_cons (by decide) (by decide) _, rfl⟩

/-- The tokens of some words, of others in the middle, and of the text after them. -/
structure TokenParts (head middle : List Word) (after : List Char) (stop : Place)
    (H M R : List Token) : Prop where
  head_words : H.map Token.word = head
  middle_words : M.map Token.word = middle
  rest : ∃ place, scanTokens (Context.start.pushAll (head ++ middle)) place after = .ok (R, stop)
  ne_eof : ∀ t ∈ H, t.kind ≠ .eof

namespace TokenParts

variable {source : String} {head middle middle' : List Word} {after : List Char} {stop : Place}
  {H M M' R : List Token} {m : Model} {s : TokenStream}

/-- A text that is read consists of such tokens. -/
lemma exists_of_parse (hreaches : Reaches .start source.toList (head ++ middle) after)
    (h : Model.parse source = .ok m) :
    ∃ H M R stop s, TokenParts head middle after stop H M R ∧
      Parser.model ⟨H ++ (M ++ R), stop⟩ = .ok (m, s) := by
  obtain ⟨tokens, stop, s, hscan, hrun, -⟩ := Model.run_of_parse h
  obtain ⟨taken, R, place, rfl, hwords, hrest⟩ := hreaches.scansIn.exists_rest hscan
  obtain ⟨H, M, rfl, hhead, hmiddle⟩ := List.map_eq_append_iff.mp hwords
  rw [List.append_assoc] at hrun
  refine ⟨H, M, R, stop, s, ⟨hhead, hmiddle, ⟨place, hrest⟩, fun t ht heof => ?_⟩, hrun⟩
  have hscanned := (isScanned_of_scanTokens hscan).1 t (by simp [ht])
  simp [Word.IsScanned, heof] at hscanned

/-- If they are read with other tokens in the middle, so is a text with the words of these. -/
lemma parse_of_model (h : TokenParts head middle after stop H M R)
    (hreaches : Reaches .start source.toList (head ++ middle') after)
    (hmode : (Context.start.pushAll (head ++ middle')).mode =
      (Context.start.pushAll (head ++ middle)).mode)
    (hpattern : middle = middle' ∨
      Closes (head ++ middle) ∧ ∀ t ∈ R.head?, t.kind ≠ .symbol .equals)
    (hmiddle : M'.map Token.word = middle')
    (hrun : Parser.model ⟨H ++ (M' ++ R), stop⟩ = .ok (m, s)) : Model.parse source = .ok m := by
  obtain ⟨place, hrest⟩ := h.rest
  -- the scanner comes to the rest in the same mode; what it scans there is the same if it does not
  -- take a slash for a pattern now
  have hothers : ScansIn (Context.start.pushAll (head ++ middle')) after (R.map Token.word) [] := by
    rw [← List.append_nil after]
    refine scansIn_of_scanTokens hrest (by rw [hmode]; exact (isScanned_of_scanTokens hrest).2)
      (fun before hbefore => ?_) breaksLine_nil
    rcases hpattern with rfl | ⟨hclosed, hfirst⟩
    · exact id
    · refine Context.expectsPattern_pushAll _ hclosed.last_pushAll (fun w hw => ?_) hbefore
      rw [List.head?_map, Option.mem_def, Option.map_eq_some_iff] at hw
      obtain ⟨t', ht', heq⟩ := hw
      rw [← heq]
      exact hfirst t' ht'
  -- the parser sees the words of the tokens only, not their places
  obtain ⟨tokens', stop', hwords', hscan'⟩ := (hreaches.scansIn.trans hothers).scanTokens_eq .start
  refine Model.parse_of_words hrun hscan' ?_
  simp [hwords', h.head_words, hmiddle]

/-- Where no location is expected after them there is a brace. -/
lemma exists_openBrace (h : TokenParts head middle after stop H M R) (hafter : OpensBody after)
    (hmode : (Context.start.pushAll (head ++ middle)).mode ≠ .afterFrom) :
    ∃ t others, R = t :: others ∧ t.kind = .symbol .openBrace := by
  obtain ⟨place, hrest⟩ := h.rest
  obtain ⟨gap, rest, hgap, rfl⟩ := hafter
  have huri : (Context.start.pushAll (head ++ middle)).expectsUri = false := by
    rw [← Bool.not_eq_true, ← Context.mode_eq_afterFrom]
    exact hmode
  have hbrace : Reaches (Context.start.pushAll (head ++ middle)) (gap ++ (['\x7b'] ++ rest))
      [.symbol .openBrace] rest :=
    .word hgap (scannedAs_symbol rfl huri) .here
  obtain ⟨taken, left, place', rfl, hwords, -⟩ := hbrace.scansIn.exists_rest hrest
  obtain ⟨t, others, rfl, ht, -⟩ := List.map_eq_cons_iff.mp hwords
  exact ⟨t, others ++ left, rfl, by rw [← Token.word_kind, ht]; rfl⟩

end TokenParts

/-! ### Parts of a model -/

/-- A concept or a property, up to what it may have in any order. -/
inductive Part where
  | concept (kind : ConceptKind) (name : String)
  | property (isRelationship : Bool) (type : String) (isArray : Bool) (name : String)

namespace Part

/-- The word that tells what it is. -/
def marker : Part → Word
  | concept kind _ => .keyword (.conceptKw kind)
  | property isRelationship .. => if isRelationship then .symbol .arrow else .keyword .propertyKw

/-- The name after the marker. -/
def firstName : Part → String
  | concept _ name => name
  | property _ type .. => type

/-- The words after the first name. -/
def lastWords : Part → List Word
  | concept .. => []
  | property _ _ isArray name =>
    (if isArray then [.symbol .openBracket, .symbol .closeBracket] else []) ++ [.name name]

/-- The words that spell it. -/
def words (part : Part) : List Word :=
  [part.marker, ⟨.identifier, part.firstName⟩] ++ part.lastWords

lemma isMarker (part : Part) : Parser.IsMarker part.marker.kind := by
  cases part with
  | concept kind name => exact .inl ⟨kind, rfl⟩
  | property isRelationship _ _ _ =>
      cases isRelationship with
      | false => exact .inr (.inl rfl)
      | true => exact .inr (.inr rfl)

lemma closes_append (part : Part) (outside : List Word) : Closes (outside ++ part.words) := by
  have hlast : ∀ (before : List Word) (w : Word), w.kind ≠ .uri ∧ w.kind ≠ .symbol .equals →
      Closes (before ++ [w]) := by
    intro before w hw
    simpa [Closes] using hw
  cases part with
  | concept kind name =>
      have hname := hlast (outside ++ [.keyword (.conceptKw kind)]) ⟨.identifier, name⟩ (by simp)
      rwa [List.append_assoc] at hname
  | property _ _ _ name =>
      rw [words, lastWords, ← List.append_assoc, ← List.append_assoc]
      refine hlast _ (.name name) ?_
      unfold Word.name
      split <;> simp

/-- No location is expected after it. -/
lemma mode_ne_afterFrom (part : Part) (outside : List Word) :
    (Context.start.pushAll (outside ++ part.words)).mode ≠ .afterFrom := by
  -- a marker ends an import, and outside of one no token leads to that mode; a name never does
  have hnext : ∀ kind, ImportMode.outside.next kind ≠ .afterFrom := by
    intro kind
    cases kind with
    | keyword k => cases k <;> simp [ImportMode.next]
    | symbol s => cases s <;> simp [ImportMode.next]
    | _ => simp [ImportMode.next]
  rw [Context.pushAll, List.foldl_append]
  cases part with
  | concept kind name =>
      simp only [words, lastWords, List.append_nil, List.foldl_cons, List.foldl_nil,
        ImportMode.mode_push]
      exact ImportMode.next_ne_afterFrom (by simp) _
  | property isRelationship type isArray name =>
      cases isRelationship <;> cases isArray <;>
        simp only [words, lastWords, marker, if_true, Bool.false_eq_true, if_false, List.nil_append,
          List.cons_append, List.foldl_cons, List.foldl_nil, ImportMode.mode_push]
      all_goals exact hnext _

end Part

namespace Parser

/-- Tokens that begin a part. -/
lemma exists_marks {part : Part} {outside : List Word} {H : List Token}
    (h : H.map Token.word = outside ++ part.words) :
    ∃ before a b others, H = before ++ [a, b] ++ others ∧ Marks a b ∧ a.kind = part.marker.kind ∧
      others.map Token.word = part.lastWords := by
  rw [Part.words, ← List.append_assoc] at h
  obtain ⟨first, others, rfl, hfirst, hothers⟩ := List.map_eq_append_iff.mp h
  obtain ⟨before, both, rfl, -, hboth⟩ := List.map_eq_append_iff.mp hfirst
  obtain ⟨a, tail, rfl, ha, htail⟩ := List.map_eq_cons_iff.mp hboth
  obtain ⟨b, none, rfl, hb, hnone⟩ := List.map_eq_cons_iff.mp htail
  obtain rfl := List.map_eq_nil_iff.mp hnone
  have hkind : a.kind = part.marker.kind := by rw [← Token.word_kind, ha]
  refine ⟨before, a, b, others, rfl, ⟨?_, ?_⟩, hkind, hothers⟩
  · rw [hkind]
    exact part.isMarker
  · rw [← Token.word_kind, hb]

/-! ### Clauses -/

/-- After a concept its clauses are read, and a brace. -/
lemma exists_clauses {kind : ConceptKind} {name : String} {outside : List Word} {H rest : List Token}
    {stop : Place} {r : Model × TokenStream}
    (h : H.map Token.word = outside ++ (Part.concept kind name).words)
    (heof : ∀ t ∈ H, t.kind ≠ .eof) (hr : model ⟨H ++ rest, stop⟩ = .ok r) :
    ∃ f : Clauses → Parser Model,
      model.after H = clauses >>= fun c => symbol .openBrace >>= fun _ => f c := by
  obtain ⟨before, a, b, others, rfl, hmarks, hkind, hothers⟩ := exists_marks h
  obtain rfl : others = [] := List.map_eq_nil_iff.mp hothers
  rw [List.append_nil] at hr heof ⊢
  have hopens := opens_of_model hmarks heof hr
  generalize model.after (before ++ [a, b]) = q at hopens ⊢
  cases hopens with
  | @header f _ => exact ⟨f, rfl⟩
  | property ha _ => rcases ha with ha | ha <;> simp [ha, Part.marker] at hkind
  | value ha => simp [ha, Part.marker] at hkind

section Clauses

variable {kind : ConceptKind} {name : String} {outside : List Word} {items items' : List Clause}
  {H M M' R : List Token} {t : Token} {stop : Place} {r : Model × TokenStream}

/-- No two clauses are of a kind. -/
lemma nodup_of_clauses (hH : H.map Token.word = outside ++ (Part.concept kind name).words)
    (heof : ∀ t ∈ H, t.kind ≠ .eof) (hM : M.map Token.word = items.flatMap Clause.words)
    (hr : model ⟨H ++ (M ++ R), stop⟩ = .ok r) : (items.map Clause.keyword).Nodup := by
  obtain ⟨f, hafter⟩ := exists_clauses hH heof hr
  have hr : model.after H ⟨M ++ R, stop⟩ = .ok r := hr
  rw [hafter] at hr
  exact (readsItems_clause.nodup_of_ok (s := ⟨R, stop⟩) (fun _ _ _ h => (Clause.effect_once h).2)
    (fun _ _ _ ht hgiven => neverAt_clause ht hgiven) hM hr).1

/-- Before a token that goes on with no clause, the clauses have their effects one after another, and the
token is a brace. -/
lemma effects_of_model (hH : H.map Token.word = outside ++ (Part.concept kind name).words)
    (heof : ∀ t ∈ H, t.kind ≠ .eof) (hM : M.map Token.word = items.flatMap Clause.words)
    (ht : t.kind ∉ [.keyword .identifiedKw, .keyword .byKw, .keyword .extendsKw])
    (hr : model ⟨H ++ (M ++ t :: R), stop⟩ = .ok r) :
    (∃ c, items.foldlM Clause.effect ⟨none, none⟩ = some c) ∧ t.kind = .symbol .openBrace := by
  simp only [List.mem_cons, List.not_mem_nil, or_false, not_or] at ht
  obtain ⟨hidentified, hby, hextends⟩ := ht
  obtain ⟨f, hafter⟩ := exists_clauses hH heof hr
  have hr : model.after H ⟨M ++ t :: R, stop⟩ = .ok r := hr
  rw [hafter] at hr
  -- the loop reads clause after clause, since none of them can go on with the token
  obtain ⟨c, c', hc, -, hrest⟩ :=
    readsItems_clause.exists_of_ok (s := ⟨t :: R, stop⟩) hM hby hr
  refine ⟨⟨c, hc⟩, ?_⟩
  -- the loop stops at any other token too, and a brace is expected there
  by_contra hbrace
  have hdone : DoneAt (foldWhile
      (fun _ next => next = .keyword .identifiedKw || next = .keyword .extendsKw) clause c') c' t :=
    fun _ _ => foldWhile_of_not_continues
      (show (decide (t.kind = _) || decide (t.kind = _)) = false by simp [hidentified, hextends])
  exact NeverAt.symbol hbrace R stop r ((hdone.agreesAt R stop).symm.trans hrest)

/-- Before a brace, clauses may be others with the same effect. -/
lemma model_of_effects (hH : H.map Token.word = outside ++ (Part.concept kind name).words)
    (heof : ∀ t ∈ H, t.kind ≠ .eof) (hM : M.map Token.word = items.flatMap Clause.words)
    (hM' : M'.map Token.word = items'.flatMap Clause.words)
    (hsame : items.foldlM Clause.effect ⟨none, none⟩ = items'.foldlM Clause.effect ⟨none, none⟩)
    (ht : t.kind = .symbol .openBrace) (hr : model ⟨H ++ (M ++ t :: R), stop⟩ = .ok r) :
    model ⟨H ++ (M' ++ t :: R), stop⟩ = .ok r := by
  obtain ⟨f, hafter⟩ := exists_clauses hH heof hr
  have hr : model.after H ⟨M ++ t :: R, stop⟩ = .ok r := hr
  show model.after H ⟨M' ++ t :: R, stop⟩ = .ok r
  rw [hafter] at hr ⊢
  exact readsItems_clause.ok_of_foldlM_eq (s := ⟨t :: R, stop⟩)
    (fun c c' h => by rw [show c = c' from h]) hM hM' hsame (by simp [TokenStream.current, ht]) hr

end Clauses

/-! ### Modifiers -/

/-- Brackets, if there are any, and the name of a property. -/
lemma makes_arrayMarker_anyName (isArray : Bool) (name : String) :
    Makes (arrayMarker >>= fun isArray => anyName >>= fun name => pure (isArray, name))
      ((if isArray then [.symbol .openBracket, .symbol .closeBracket] else []) ++ [.name name])
      ((if reservedWords.contains name then none else some name).map fun name => (isArray, name)) := by
  have hname := fun isArray : Bool => (makes_anyName name).bind_pure (g := fun name => (isArray, name))
  rw [arrayMarker, bind_assoc]
  cases isArray with
  | true =>
      refine .takeSymbol ?_
      rw [if_pos rfl, bind_assoc]
      exact .symbol (hname true)
  | false =>
      have hkind : (Word.name name).kind ≠ .symbol .openBracket := by
        unfold Word.name
        split <;> simp
      exact .takeSymbol_of_ne hkind (hname false)

/-- A value of an enumeration. -/
lemma makes_enumValue {w : Word} (hw : w.kind = .keyword .propertyKw) (name : String) :
    Makes enumValue [w, .name name]
      ((if reservedWords.contains name then none else some name).map fun name =>
        ⟨name, none, none⟩) := by
  intro tokens s htokens
  obtain ⟨t, others, rfl, ht, -⟩ := List.map_eq_cons_iff.mp htokens
  have hkind : t.kind ≠ .symbol .atSign := by rw [← Token.word_kind, ht, hw]; simp
  have hrest : Makes (do
      let _ ← expect [.keyword .propertyKw]
      return (⟨← anyName, none, none⟩ : Header)) [w, .name name]
      ((if reservedWords.contains name then none else some name).map fun name =>
        ⟨name, none, none⟩) :=
    .expect (by simp [hw]) fun _ _ => (makes_anyName name).bind_pure
  rw [← hrest (t :: others) s htokens]
  exact congrArg Except.toOption (agreesAt_decorators hkind _ _)

/-- Values are not read where there is no value. -/
lemma neverAt_values {t : Token} (h : t.kind ∉ [.symbol .atSign, .keyword .propertyKw,
    .symbol .closeBrace, .eof]) : NeverAt (many continuesBody enumValue) t := by
  simp only [List.mem_cons, List.not_mem_nil, or_false, not_or] at h
  obtain ⟨hat, hmarker, hbrace, heof⟩ := h
  exact .many advances_enumValue (by simp [continuesBody, hbrace, heof])
    (neverAt_enumValue hat hmarker)

section Modifiers

variable {β : Type} {items items' : List Modifier} {M M' R : List Token} {stop : Place}

/-- Where modifiers are read, no two of them are of a kind. -/
lemma nodup_of_modifiers {f : Modified → Parser β} {type : String} {kind : PropertyKind}
    {r : β × TokenStream} (hM : M.map Token.word = items.flatMap Modifier.words)
    (hr : (modifiers type kind >>= f) ⟨M ++ R, stop⟩ = .ok r) :
    (items.map Modifier.keyword).Nodup :=
  ((readsItems_modifier type).nodup_of_ok (s := ⟨R, stop⟩)
    (fun _ _ _ h => (Modifier.effect_once h).2)
    (fun _ _ _ ht hseen => neverAt_modifier ht (List.mem_toFinset.mp hseen)) hM hr).1

/-- They may be in another order, and no equals sign follows. -/
lemma modifiers_of_perm {f : Modified → Parser β} {type : String} {kind : PropertyKind}
    {r : β × TokenStream} (hf : ∀ m m', m.unordered = m'.unordered → f m = f m')
    (hequals : ∀ (m : Modified) (t : Token), t.kind = .symbol .equals → NeverAt (f m) t)
    (hM : M.map Token.word = items.flatMap Modifier.words)
    (hM' : M'.map Token.word = items'.flatMap Modifier.words) (hperm : items.Perm items')
    (hr : (modifiers type kind >>= f) ⟨M ++ R, stop⟩ = .ok r) :
    (∀ t ∈ R.head?, t.kind ≠ .symbol .equals) ∧
      (modifiers type kind >>= f) ⟨M' ++ R, stop⟩ = .ok r := by
  have hreads := readsItems_modifier type
  obtain ⟨v, m, hv, -, hrest⟩ := hreads.exists_of_ok (s := ⟨R, stop⟩) hM trivial hr
  refine ⟨fun t ht heq => ?_, ?_⟩
  · obtain ⟨R', rfl⟩ := List.head?_eq_some_iff.mp ht
    -- no modifier begins with an equals sign, and nothing after them does
    have hdone : DoneAt (foldWhile (fun _ next => (modifierOf? next).isSome) (modifier type) m) m t :=
      fun _ _ => foldWhile_of_not_continues (show (modifierOf? t.kind).isSome = false by rw [heq]; rfl)
    exact hequals m t heq R' stop r ((hdone.agreesAt R' stop).symm.trans hrest)
  -- the effects commute, so the loop ends with the same modifiers in either order
  · exact hreads.ok_of_foldlM_eq (s := ⟨R, stop⟩) hf hM hM'
      (foldlM_perm Modifier.effect_comm hperm _) trivial hr

/-- Where other values of an enumeration are read, no two modifiers follow each other. -/
lemma length_le_one_of_values {f : List Header → Parser β} {O : List Token} {isArray : Bool}
    {name : String} {r : β × TokenStream}
    (hO : O.map Token.word =
      (if isArray then [.symbol .openBracket, .symbol .closeBracket] else []) ++ [.name name])
    (hM : M.map Token.word = items.flatMap Modifier.words)
    (hr : (many continuesBody enumValue >>= f) ⟨O ++ (M ++ R), stop⟩ = .ok r) : items.length ≤ 1 := by
  by_contra hlength
  have htwo : 2 ≤ items.length := by omega
  -- no value begins with the first word of the second modifier
  obtain ⟨k, w, ws, hwords, hw⟩ := Modifier.exists_second htwo
  obtain ⟨t₁, M₁, rfl, ht₁, hM₁⟩ := List.map_eq_cons_iff.mp (hM.trans hwords)
  obtain ⟨t₂, M₂, rfl, rfl, -⟩ := List.map_eq_cons_iff.mp hM₁
  obtain ⟨values, s, hvalues, -⟩ := Yields.exists_of_bind hr
  cases isArray with
  | true =>
      obtain ⟨t, O, rfl, ht, -⟩ := List.map_eq_cons_iff.mp hO
      refine neverAt_values (t := t) ?_ _ _ _ hvalues
      rw [← Token.word_kind, ht]
      simp
  | false =>
      obtain ⟨n, O, rfl, hn, hnil⟩ := List.map_eq_cons_iff.mp hO
      obtain rfl := List.map_eq_nil_iff.mp hnil
      have hkind : n.kind ∉ [TokenKind.symbol .atSign, .symbol .closeBrace, .eof] := by
        rw [← Token.word_kind, hn, Word.name]
        split <;> simp
      by_cases hmarker : n.kind = .keyword .propertyKw
      · -- the first of them names a value, and no other value begins with the second word
        have hboth : [n, t₁].map Token.word = [n.word, .name k.text] := by
          rw [← Word.keyword_eq_name]
          simp [ht₁]
        have hcontinues : continuesBody n.kind = true := by simp [hmarker, continuesBody]
        have hvalues := (agreesAt_many advances_enumValue hcontinues _ _).symm.trans hvalues
        obtain ⟨value, -, hothers⟩ := ((makes_enumValue hmarker k.text).bind_eq_ok_iff
          (s := ⟨t₂ :: M₂ ++ R, stop⟩) hboth).mp hvalues
        refine (neverAt_values (t := t₂) ?_).bind _ _ _ hothers
        rcases hw with hw | ⟨y, hw⟩
        · rw [← Token.word_kind, hw]
          simp
        · rw [← Token.word_kind, hw]
          cases y <;> simp [Modifier.keyword]
      · refine neverAt_values (t := n) ?_ _ _ _ hvalues
        simp_all

/-- After a property, the modifiers are read, or they are one at most, which names a value. -/
lemma exists_modifiers {isRelationship isArray : Bool} {type name : String} {outside : List Word}
    {H : List Token} {r : Model × TokenStream}
    (hH : H.map Token.word = outside ++ (Part.property isRelationship type isArray name).words)
    (heof : ∀ t ∈ H, t.kind ≠ .eof) (hM : M.map Token.word = items.flatMap Modifier.words)
    (hr : model ⟨H ++ (M ++ R), stop⟩ = .ok r) :
    items.length ≤ 1 ∨ ∃ (type : String) (kind : PropertyKind) (f : Modified → Parser Model),
      (∀ m m', m.unordered = m'.unordered → f m = f m') ∧
      (∀ (m : Modified) (t : Token), t.kind = .symbol .equals → NeverAt (f m) t) ∧
      ∀ tokens : List Token,
        model ⟨H ++ tokens, stop⟩ = .ok r ↔ (modifiers type kind >>= f) ⟨tokens, stop⟩ = .ok r := by
  obtain ⟨before, a, b, O, rfl, hmarks, hkind, hO⟩ := exists_marks hH
  have hsplit : ∀ tokens : List Token, model ⟨before ++ [a, b] ++ O ++ tokens, stop⟩ =
      model.after (before ++ [a, b]) ⟨O ++ tokens, stop⟩ := by
    intro tokens
    rw [after, List.append_assoc _ O]
  simp only [hsplit] at hr ⊢
  -- what the two words before the name have been read as decides what is read after them
  have hopens := opens_of_model hmarks (fun t ht => heof t (List.mem_append_left O ht)) hr
  generalize model.after (before ++ [a, b]) = q at hopens hr ⊢
  cases hopens with
  | header ha =>
      obtain ⟨k, ha⟩ := ha
      cases isRelationship <;> simp [ha, Part.marker] at hkind
  -- in an enumeration the type is the name of a value, after an `o` that may stand before it
  | value ha => exact .inl (length_le_one_of_values hO hM hr)
  | @property f ha hrest =>
      have hname := makes_arrayMarker_anyName isArray name
      have hparts : (arrayMarker >>= fun isArray => anyName >>= fun name =>
            modifiers b.value (markedKind a.kind b.value) >>= fun m =>
              f isArray name m.isOptional m.kind) =
          (arrayMarker >>= fun isArray => anyName >>= fun name => pure (isArray, name)) >>= fun x =>
            modifiers b.value (markedKind a.kind b.value) >>= fun m =>
              f x.1 x.2 m.isOptional m.kind := by
        simp only [bind_assoc, pure_bind]
      rw [hparts] at hr ⊢
      obtain ⟨x, hx, -⟩ := (hname.bind_eq_ok_iff (s := ⟨M ++ R, stop⟩) hO).mp hr
      refine .inr ⟨b.value, markedKind a.kind b.value, fun m => f x.1 x.2 m.isOptional m.kind,
        fun m m' h => ?_, fun m t => hrest _ _ _ _ t, fun tokens => ?_⟩
      · obtain ⟨-, hoptional, hkind⟩ := Modifications.mk.inj h
        dsimp only
        rw [hoptional, hkind]
      · rw [hname.bind_eq_ok_iff (s := ⟨tokens, stop⟩) hO, hx]
        simp

end Modifiers

end Parser

/-! ### Texts -/

section Texts

variable {ι : Type} {words : ι → List Word} {before text text' after : String} {m : Model}

omit words in
lemma toList_append_append (before text after : String) :
    (before ++ text ++ after).toList = before.toList ++ (text.toList ++ after.toList) := by
  simp

/-- With other items a text is read as the same model, if its tokens are. -/
lemma Model.parse_of_items {head : List Word} {items items' : List (Spelled words)} {mode : ImportMode}
    (hwords : ∀ x, StandsAlone (words x)) (hbefore : Reaches .start before.toList head [])
    (hclosed : Closes head) (hitems : Written items text.toList)
    (hitems' : Written items' text'.toList) (hends : EndsToken (text.toList ++ after.toList))
    (hends' : EndsToken (text'.toList ++ after.toList)) (hafter : Apart items after.toList)
    (hafter' : Apart items' after.toList)
    (hmode : (Context.start.pushAll head).mode.run (Word.kinds (wordsOf items)) = some mode)
    (hmode' : (Context.start.pushAll head).mode.run (Word.kinds (wordsOf items')) = some mode)
    (hother : ∀ (H M M' R : List Token) (stop : Place) (s : TokenStream),
      TokenParts head (wordsOf items) after.toList stop H M R → M'.map Token.word = wordsOf items' →
      Parser.model ⟨H ++ (M ++ R), stop⟩ = .ok (m, s) → wordsOf items = wordsOf items' ∨
        (∀ t ∈ R.head?, t.kind ≠ .symbol .equals) ∧
          Parser.model ⟨H ++ (M' ++ R), stop⟩ = .ok (m, s))
    (h : Model.parse (before ++ text ++ after) = .ok m) :
    Model.parse (before ++ text' ++ after) = .ok m := by
  -- both texts are scanned into their words and lead to the same mode, so that the rest of the text
  -- is scanned in the same way
  have hreaches := hitems.reaches_append hwords hbefore hclosed hends hafter (by rw [hmode]; rfl)
  have hreaches' := hitems'.reaches_append hwords hbefore hclosed hends' hafter' (by rw [hmode']; rfl)
  have hsame : (Context.start.pushAll (head ++ wordsOf items')).mode =
      (Context.start.pushAll (head ++ wordsOf items)).mode :=
    (Context.mode_pushAll_append hmode').trans (Context.mode_pushAll_append hmode).symm
  -- the tokens of the first text; the words of the other items may stand for those in the middle
  obtain ⟨H, M, R, stop, s, hparts, hrun⟩ := TokenParts.exists_of_parse (by rwa [toList_append_append]) h
  have hM' : ((wordsOf items').map fun w => (⟨w.kind, w.value, .start⟩ : Token)).map Token.word =
      wordsOf items' := by
    rw [List.map_map]
    exact List.map_id _
  -- either the words are the same, or the rest begins with no equals sign that a pattern may follow
  rcases hother H M _ R stop s hparts hM' hrun with heq | ⟨hfirst, hrun'⟩
  · exact hparts.parse_of_model (by rwa [toList_append_append]) hsame (.inl heq)
      (hparts.middle_words.trans heq) hrun
  · exact hparts.parse_of_model (by rwa [toList_append_append]) hsame
      (.inr ⟨hclosed.append (closes_wordsOf hwords items), hfirst⟩) hM' hrun'

section Concept

variable {kind : ConceptKind} {name : String} {outside : List Word}
  {items items' : List (Spelled Clause.words)}

/-- If a location has to follow some clauses, the text after them is not read. -/
lemma Clause.not_parse_of_afterFrom
    (hbefore : Reaches .start before.toList (outside ++ (Part.concept kind name).words) [])
    (hitems : Written items text.toList) (hends : EndsToken after.toList)
    (hafter : HasToken after.toList)
    (hmode : (Context.start.pushAll (outside ++ (Part.concept kind name).words)).mode.run
      (Word.kinds (wordsOf items)) = some .afterFrom) :
    Model.parse (before ++ text ++ after) ≠ .ok m := by
  intro h
  have hreaches := hitems.reaches_append standsAlone_words hbefore (Part.closes_append _ _)
    (hitems.endsToken fun _ => hends) (hends.apart standsAlone_words items) (by rw [hmode]; rfl)
  obtain ⟨H, M, R, stop, s, hparts, hrun⟩ :=
    TokenParts.exists_of_parse (by rwa [toList_append_append]) h
  obtain ⟨place, hrest⟩ := hparts.rest
  obtain ⟨t, R, rfl, ht⟩ := exists_uri (Context.mode_pushAll_append hmode) hafter hrest
  obtain ⟨-, hbrace⟩ := Parser.effects_of_model hparts.head_words hparts.ne_eof
    (hparts.middle_words.trans (wordsOf_eq items)) (by simp [ht]) hrun
  simp [ht] at hbrace

/-- In a text that is read, nothing but a location has to follow none of the clauses. -/
lemma Clause.exists_mode_of_parse
    (hbefore : Reaches .start before.toList (outside ++ (Part.concept kind name).words) [])
    (hitems : Written items text.toList) (hafter : OpensBody after.toList)
    (h : Model.parse (before ++ text ++ after) = .ok m) :
    ∃ mode, (items.map Spelled.item).foldlM modeAfter
      (Context.start.pushAll (outside ++ (Part.concept kind name).words)).mode = some mode := by
  rw [← Option.ne_none_iff_exists']
  intro hnone
  -- the first clause after which nothing but a location may stand
  obtain ⟨first, x, others, heq, hmode⟩ := exists_of_foldlM (Part.mode_ne_afterFrom _ _) hnone
  obtain ⟨firstItems, tail, rfl, rfl, htail⟩ := List.map_eq_append_iff.mp heq
  obtain ⟨y, otherItems, rfl, rfl, rfl⟩ := List.map_eq_cons_iff.mp htail
  rw [← List.singleton_append, ← List.append_assoc] at hitems
  obtain ⟨text₁, text₂, htext, hfirst, hothers⟩ := hitems.exists_append
  -- a token follows it, if only the brace, and that is no location
  have htoken : HasToken (text₂ ++ after.toList) := by
    by_cases hne : otherItems = []
    · subst hne
      cases hothers
      exact hafter.hasToken
    · exact hothers.hasToken standsAlone_words hne hafter.endsToken
  have hparse : Model.parse (before ++ String.ofList text₁ ++ (String.ofList text₂ ++ after)) =
      .ok m := by
    have hsource : before ++ String.ofList text₁ ++ (String.ofList text₂ ++ after) =
        before ++ text ++ after := by
      rw [← String.toList_inj]
      simp [htext]
    rwa [hsource]
  refine not_parse_of_afterFrom hbefore (by simpa using hfirst) ?_ (by simpa using htoken) ?_ hparse
  · simpa using hothers.endsToken fun _ => hafter.endsToken
  · rw [wordsOf_eq]
    simpa using hmode

/-- The clauses of a concept have their effects one after another there. -/
lemma Clause.exists_of_parse
    (hbefore : Reaches .start before.toList (outside ++ (Part.concept kind name).words) [])
    (hitems : Written items text.toList) (hafter : OpensBody after.toList)
    (h : Model.parse (before ++ text ++ after) = .ok m) :
    ∃ v, (items.map Spelled.item).foldlM Clause.step (⟨none, none⟩,
      (Context.start.pushAll (outside ++ (Part.concept kind name).words)).mode) = some v := by
  obtain ⟨mode, hmodes⟩ := exists_mode_of_parse hbefore hitems hafter h
  obtain ⟨hrun, hmode⟩ := run_of_foldlM hmodes
  rw [← wordsOf_eq] at hrun
  -- with the modes, the text is known to be scanned into the words of the clauses
  have hreaches := hitems.reaches_append standsAlone_words hbefore (Part.closes_append _ _)
    (hitems.endsToken fun _ => hafter.endsToken) (hafter.endsToken.apart standsAlone_words items)
    (by rw [hrun]; rfl)
  obtain ⟨H, M, R, stop, s, hparts, hmodel⟩ :=
    TokenParts.exists_of_parse (by rwa [toList_append_append]) h
  obtain ⟨t, R, rfl, ht⟩ := hparts.exists_openBrace hafter (by
    rw [Context.mode_pushAll_append hrun]
    exact hmode (Part.mode_ne_afterFrom _ _))
  obtain ⟨⟨c, heffects⟩, -⟩ := Parser.effects_of_model hparts.head_words hparts.ne_eof
    (hparts.middle_words.trans (wordsOf_eq items)) (by simp [ht]) hmodel
  exact ⟨(c, mode), by rw [foldlM_step, heffects, hmodes]; rfl⟩

/-- They may be in another order. -/
lemma Clause.parse_of_perm
    (hbefore : Reaches .start before.toList (outside ++ (Part.concept kind name).words) [])
    (hitems : Written items text.toList) (hitems' : Written items' text'.toList)
    (hperm : items.Perm items') (hafter : OpensBody after.toList)
    (h : Model.parse (before ++ text ++ after) = .ok m) :
    Model.parse (before ++ text' ++ after) = .ok m := by
  -- the steps of the clauses commute: in the other order they have the same effect in all and lead
  -- to the same mode
  obtain ⟨⟨c, mode⟩, hsteps⟩ := exists_of_parse hbefore hitems hafter h
  have hsteps' := (Parser.foldlM_perm step_comm (hperm.map Spelled.item) _).symm.trans hsteps
  rw [foldlM_step] at hsteps hsteps'
  obtain ⟨c₁, heffects, hmodes⟩ := Option.bind_eq_some_iff.mp hsteps
  obtain ⟨c₂, heffects', hmodes'⟩ := Option.bind_eq_some_iff.mp hsteps'
  obtain ⟨mode₁, hmodes, heq⟩ := Option.map_eq_some_iff.mp hmodes
  obtain ⟨mode₂, hmodes', heq'⟩ := Option.map_eq_some_iff.mp hmodes'
  cases heq
  cases heq'
  obtain ⟨hrun, hmode⟩ := run_of_foldlM hmodes
  obtain ⟨hrun', -⟩ := run_of_foldlM hmodes'
  rw [← wordsOf_eq] at hrun hrun'
  have hends := hafter.endsToken
  -- so the other text is scanned too, and its clauses are read as the same
  refine Model.parse_of_items standsAlone_words hbefore (Part.closes_append _ _) hitems hitems'
    (hitems.endsToken fun _ => hends) (hitems'.endsToken fun _ => hends)
    (hends.apart standsAlone_words items) (hends.apart standsAlone_words items') hrun hrun'
    (fun H M M' R stop s hparts hM' hmodel => .inr ?_) h
  obtain ⟨t, R, rfl, ht⟩ := hparts.exists_openBrace hafter (by
    rw [Context.mode_pushAll_append hrun]
    exact hmode (Part.mode_ne_afterFrom _ _))
  refine ⟨by simp [ht], ?_⟩
  exact Parser.model_of_effects hparts.head_words hparts.ne_eof
    (hparts.middle_words.trans (wordsOf_eq items)) (hM'.trans (wordsOf_eq items'))
    (heffects.trans heffects'.symm) ht hmodel

/-- In a text that is read, no two clauses are of a kind. -/
lemma Clause.nodup_of_parse {source : String} {items : List Clause} {rest : List Char}
    (hreaches : Reaches .start source.toList
      (outside ++ (Part.concept kind name).words ++ items.flatMap Clause.words) rest)
    (h : Model.parse source = .ok m) : (items.map keyword).Nodup := by
  obtain ⟨H, M, R, stop, s, hparts, hmodel⟩ := TokenParts.exists_of_parse hreaches h
  exact Parser.nodup_of_clauses hparts.head_words hparts.ne_eof hparts.middle_words hmodel

end Concept

/-- One thing at most has one order. -/
lemma eq_of_perm {α : Type} {items items' : List α} (h : items.Perm items')
    (hlength : items.length ≤ 1) : items = items' := by
  match items, hlength with
  | [], _ => exact h.nil_eq
  | [x], _ => exact List.singleton_perm.mp h

section Property

variable {isRelationship isArray : Bool} {type name : String} {outside : List Word}
  {items items' : List (Spelled Modifier.words)}

/-- The modifiers of a property may be in another order. -/
lemma Modifier.parse_of_perm
    (hbefore : Reaches .start before.toList
      (outside ++ (Part.property isRelationship type isArray name).words) [])
    (hitems : Written items text.toList) (hitems' : Written items' text'.toList)
    (hperm : items.Perm items') (hafter : Apart items after.toList)
    (h : Model.parse (before ++ text ++ after) = .ok m) :
    Model.parse (before ++ text' ++ after) = .ok m := by
  -- without modifiers both texts are the same
  by_cases hne : items = []
  · subst hne
    obtain rfl := hperm.nil_eq
    rwa [hitems.eq_of_nil, ← hitems'.eq_of_nil] at h
  have hne' : items' ≠ [] := by
    rintro rfl
    exact hne hperm.eq_nil
  -- modifiers lead to the same mode in any order
  obtain ⟨mode, hrun, hrun'⟩ := exists_run_of_perm
    (Part.mode_ne_afterFrom (.property isRelationship type isArray name) outside)
    (hperm.map Spelled.item)
  rw [← wordsOf_eq] at hrun hrun'
  refine Model.parse_of_items standsAlone_words hbefore (Part.closes_append _ _) hitems hitems'
    (hitems.endsToken fun hnil => absurd hnil hne)
    (hitems'.endsToken fun hnil => absurd hnil hne') hafter
    (fun x hx => hafter x (hperm.mem_iff.mpr hx)) hrun hrun'
    (fun H M M' R stop s hparts hM' hmodel => ?_) h
  have hwords := hparts.middle_words.trans (wordsOf_eq items)
  -- in an enumeration there is at most one, and nothing changes its place
  rcases Parser.exists_modifiers hparts.head_words hparts.ne_eof hwords hmodel with
    hlength | ⟨written, kind, f, hf, hequals, hmodels⟩
  · refine .inl ?_
    rw [eq_of_perm hperm (by simpa using hlength)]
  · refine .inr ?_
    rw [hmodels] at hmodel ⊢
    exact Parser.modifiers_of_perm hf hequals hwords (hM'.trans (wordsOf_eq items'))
      (hperm.map Spelled.item) hmodel

/-- In a text that is read, no two modifiers are of a kind. -/
lemma Modifier.nodup_of_parse {source : String} {items : List Modifier} {rest : List Char}
    (hreaches : Reaches .start source.toList
      (outside ++ (Part.property isRelationship type isArray name).words ++
        items.flatMap Modifier.words) rest)
    (h : Model.parse source = .ok m) : (items.map keyword).Nodup := by
  obtain ⟨H, M, R, stop, s, hparts, hmodel⟩ := TokenParts.exists_of_parse hreaches h
  rcases Parser.exists_modifiers hparts.head_words hparts.ne_eof hparts.middle_words hmodel with
    hlength | ⟨written, kind, f, -, -, hmodels⟩
  · match items, hlength with
    | [], _ => exact List.nodup_nil
    | [x], _ => exact List.nodup_singleton _
  · exact Parser.nodup_of_modifiers hparts.middle_words ((hmodels _).mp hmodel)

end Property

end Texts

/-! ### Either part -/

namespace Part

/-- What the part may have in any order. -/
def Item : Part → Type
  | concept .. => Clause
  | property .. => Modifier

/-- The words that spell an item. -/
def itemWords : (part : Part) → part.Item → List Word
  | concept .. => Clause.words
  | property .. => Modifier.words

/-- The keyword that tells the kind of an item. -/
def itemKeyword : (part : Part) → part.Item → Keyword
  | concept .. => Clause.keyword
  | property .. => Modifier.keyword

/-- The text after the items: the brace of a concept, and for a property any text that no modifier runs
together with. -/
def Ends : (part : Part) → List (Spelled part.itemWords) → List Char → Prop
  | concept .. => fun _ => OpensBody
  | property .. => Apart

end Part

/-- The clauses of a concept and the modifiers of a property may be in any order, with blanks or comments
before each of them: the text denotes the same model or, as before, none. And however they are written, a
text with two of a kind denotes none. -/
theorem Model.parse_items_perm (part : Part) (outside : List Word) :
    (∀ (before text text' after : String) (items items' : List (Spelled part.itemWords)),
      Reaches .start before.toList (outside ++ part.words) [] → Written items text.toList →
      Written items' text'.toList → items.Perm items' → part.Ends items after.toList →
      ∀ m, Model.parse (before ++ text ++ after) = .ok m ↔
        Model.parse (before ++ text' ++ after) = .ok m) ∧
    ∀ (source : String) (items : List part.Item) (rest : List Char),
      Reaches .start source.toList (outside ++ part.words ++ items.flatMap part.itemWords) rest →
      ¬(items.map part.itemKeyword).Nodup → ∀ m, Model.parse source ≠ .ok m := by
  cases part with
  | concept kind name =>
      refine ⟨fun before text text' after items items' hbefore hitems hitems' hperm hafter m =>
        ⟨fun h => ?_, fun h => ?_⟩, fun source items rest hreaches hdup m h => ?_⟩
      · exact Clause.parse_of_perm hbefore hitems hitems' hperm hafter h
      · exact Clause.parse_of_perm hbefore hitems' hitems hperm.symm hafter h
      · exact hdup (Clause.nodup_of_parse hreaches h)
  | property isRelationship type isArray name =>
      refine ⟨fun before text text' after items items' hbefore hitems hitems' hperm hafter m =>
        ⟨fun h => ?_, fun h => ?_⟩, fun source items rest hreaches hdup m h => ?_⟩
      · exact Modifier.parse_of_perm hbefore hitems hitems' hperm hafter h
      · refine Modifier.parse_of_perm hbefore hitems' hitems hperm.symm (fun x hx => ?_) h
        exact hafter x (hperm.mem_iff.mpr hx)
      · exact hdup (Modifier.nodup_of_parse hreaches h)

/-- A text up to the clauses of a concept. -/
def beforeClauses : String := "namespace a\nconcept C"

/-- The words before the concept. -/
def wordsBeforeConcept : List Word := [.keyword .namespaceKw, ⟨.identifier, "a"⟩]

/-- A clause that names a concept. -/
def spelledExtends : Spelled Clause.words :=
  ⟨.superType "B", "extends B".toList, .of_scanTokens (by decide +kernel) (by decide +kernel)⟩

/-- A clause that names a property, and with a comment in it. -/
def spelledIdentified : Spelled Clause.words :=
  ⟨.identified (some "x"), "identified/**/by x".toList,
    .of_scanTokens (by decide +kernel) (by decide +kernel)⟩

/-- A text up to a property. -/
def beforeModifiers : String := "namespace a\nconcept C \x7b\n  o String s"

/-- The words before the property. -/
def wordsBeforeProperty : List Word :=
  [.keyword .namespaceKw, ⟨.identifier, "a"⟩, .keyword (.conceptKw .concept), ⟨.identifier, "C"⟩,
    .symbol .openBrace]

/-- A modifier without a value. -/
def spelledOptional : Spelled Modifier.words :=
  ⟨.optional, "optional".toList, .of_scanTokens (by decide +kernel) (by decide +kernel)⟩

/-- A modifier with a value, and with a comment in it. -/
def spelledDefault : Spelled Modifier.words :=
  ⟨.default (.string "x"), "default/**/=\"x\"".toList,
    .of_scanTokens (by decide +kernel) (by decide +kernel)⟩

/-- Two things with a blank before each, and the other way round with a line break before the first and
a comment before the second. -/
lemma written_pair {ι : Type} {words : ι → List Word} (x y : Spelled words) :
    Written [x, y] (' ' :: (x.text ++ ' ' :: y.text)) ∧
      Written [y, x] ('\n' :: (y.text ++ '/' :: '/' :: '\n' :: x.text)) := by
  have hblank : IsGap False [' '] := .blank (by decide) .nil
  have hbreak : IsGap False ['\n'] := .blank (by decide) .nil
  have hcomment : IsGap False ('/' :: '/' :: [] ++ '\n' :: []) := .line (by simp) hbreak
  constructor
  · have hpair : Written [x, y] _ := .cons hblank (by simp) (.cons hblank (by simp) .nil)
    simpa using hpair
  · have hpair : Written [y, x] _ := .cons hbreak (by simp) (.cons hcomment (by simp) .nil)
    simpa using hpair

/-- Two results are the same if one of them is there and they agree on every value. -/
lemma exists_of_agree {ε α : Type} {x y : Except ε α} (h : x.toOption.isSome = true)
    (hiff : ∀ a, x = .ok a ↔ y = .ok a) : ∃ a, x = .ok a ∧ y = .ok a := by
  cases x with
  | error e => cases h
  | ok a => exact ⟨a, rfl, (hiff a).mp rfl⟩

theorem Model.parse_items_perm_sample :
    ((∃ m, Model.parse (beforeClauses ++ " extends B identified/**/by x" ++ "\x7b\x7d") = .ok m ∧
        Model.parse (beforeClauses ++ "\nidentified/**/by x//\nextends B" ++ "\x7b\x7d") = .ok m) ∧
      ∀ m, Model.parse (beforeClauses ++ " extends B extends B" ++ "\x7b\x7d") ≠ .ok m) ∧
    (∃ m, Model.parse (beforeModifiers ++ " optional default/**/=\"x\"" ++ "\x7d") = .ok m ∧
      Model.parse (beforeModifiers ++ "\ndefault/**/=\"x\"//\noptional" ++ "\x7d") = .ok m) ∧
    ∀ m, Model.parse (beforeModifiers ++ " optional optional" ++ "\x7d") ≠ .ok m := by
  constructor
  · obtain ⟨hperm, hdup⟩ := Model.parse_items_perm (.concept .concept "C") wordsBeforeConcept
    have hbody : OpensBody "\x7b\x7d".toList := ⟨[], ['\x7d'], .nil, rfl⟩
    constructor
    -- two clauses, and the same the other way round
    · have hbefore : Reaches .start beforeClauses.toList
          (wordsBeforeConcept ++ (Part.concept .concept "C").words) [] :=
        .of_scanTokens (by decide +kernel) (by decide +kernel)
      have hwritten := written_pair spelledExtends spelledIdentified
      exact exists_of_agree (by decide +kernel)
        (hperm _ _ _ _ _ _ hbefore hwritten.1 hwritten.2 (.swap ..) hbody)
    -- a clause twice
    · have hwritten : Reaches .start (beforeClauses ++ " extends B extends B").toList
          (wordsBeforeConcept ++ (Part.concept .concept "C").words ++
            [Clause.superType "B", .superType "B"].flatMap Clause.words) [] :=
        .of_scanTokens (by decide +kernel) (by decide +kernel)
      have hreaches := hwritten.extend hbody.endsToken (by decide)
      rw [← String.toList_append] at hreaches
      exact hdup _ _ _ hreaches (by decide)
  · obtain ⟨hperm, hdup⟩ :=
      Model.parse_items_perm (.property false "String" false "s") wordsBeforeProperty
    have hbrace : EndsToken "\x7d".toList := by simp [EndsToken, boundaries]
    constructor
    -- two modifiers, and the same the other way round
    · have hbefore : Reaches .start beforeModifiers.toList
          (wordsBeforeProperty ++ (Part.property false "String" false "s").words) [] :=
        .of_scanTokens (by decide +kernel) (by decide +kernel)
      have hwritten := written_pair spelledOptional spelledDefault
      exact exists_of_agree (by decide +kernel) (hperm _ _ _ _ _ _ hbefore hwritten.1 hwritten.2
        (.swap ..) (hbrace.apart Modifier.standsAlone_words _))
    -- a modifier twice
    · have hwritten : Reaches .start (beforeModifiers ++ " optional optional").toList
          (wordsBeforeProperty ++ (Part.property false "String" false "s").words ++
            [Modifier.optional, .optional].flatMap Modifier.words) [] :=
        .of_scanTokens (by decide +kernel) (by decide +kernel)
      have hreaches := hwritten.extend hbrace (by decide)
      rw [← String.toList_append] at hreaches
      exact hdup _ _ _ hreaches (by decide)

end Concerto
