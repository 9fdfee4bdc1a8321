import Concerto.Proofs.Model.Clauses
import Concerto.Proofs.Model.StandsFor
import Mathlib.Data.Finset.Insert

/-!
The modifiers of a property.

* `Modifier`: a modifier, with the words that spell it and what it makes of a kind of property;
* `Parser.readsItems_modifier`: the parser reads modifiers one after another, each with its effect;
* `Modifier.effect_comm`: modifiers may be swapped;
* `Modifier.effect_once`: there is one modifier of a kind at most.
-/

namespace Concerto

/-- A value of a property, as it is written. Numbers with a point or a power are no whole ones. -/
inductive Literal where
  | string (value : String)
  | whole (text : String)
  | decimal (text : String)
  | boolean (value : Bool)
  deriving DecidableEq, Repr

namespace Literal

/-- The word that spells a value. -/
def word : Literal → Word
  | string value => .string value
  | whole text => ⟨.integer, text⟩
  | decimal text => ⟨.float, text⟩
  | boolean true => .keyword .trueKw
  | boolean false => .keyword .falseKw

/-- The text, if it is one. -/
def string? : Literal → Option String
  | string value => some value
  | _ => none

/-- The truth value, if it is one. -/
def boolean? : Literal → Option Bool
  | boolean value => some value
  | _ => none

/-- The number as a double, if it is a number that there is a double for. -/
def double? : Literal → Option Double
  | whole text | decimal text => (readDouble text).toOption
  | _ => none

/-- The number, if it is a whole one. -/
def integer? : Literal → Option Int
  | whole text => (readInteger text).toOption
  | _ => none

lemma word_kind_ne_symbol (x : Literal) (s : Symbol) : x.word.kind ≠ .symbol s := by
  match x with
  | string _ | whole _ | decimal _ | boolean true | boolean false => simp [word]

lemma word_kind_ne_uri (x : Literal) : x.word.kind ≠ .uri := by
  match x with
  | string _ | whole _ | decimal _ | boolean true | boolean false => simp [word]

end Literal

section Bounds

variable {α : Type} (value? : Literal → Option α)

/-- An end of a range that is not left out has to have a value. -/
def endValue : Option Literal → Option (Option α)
  | none => some none
  | some x => (value? x).map some

/-- The bounds between two ends. -/
def boundsOf (lower upper : Option Literal) : Option (Bounds α) :=
  (endValue value? lower).bind fun l => (endValue value? upper).map fun u => ⟨l, u⟩

end Bounds

namespace PropertyKind

/-- The kind with a default, if the value is one for it. -/
def withDefault (kind : PropertyKind) (value : Literal) : Option PropertyKind :=
  match kind with
  | .object type _ => value.string?.map fun v => .object type (some v)
  | .boolean _ => value.boolean?.map fun v => .boolean (some v)
  | .string _ pattern => value.string?.map fun v => .string (some v) pattern
  | .double _ bounds => value.double?.map fun v => .double (some v) bounds
  | .integer _ bounds => value.integer?.map fun v => .integer (some v) bounds
  | .long _ bounds => value.integer?.map fun v => .long (some v) bounds
  | .relationship _ | .dateTime => none

/-- The kind with a pattern, if it may have one. -/
def withPattern (kind : PropertyKind) (pattern : String) : Option PropertyKind :=
  match kind with
  | .string default _ => some (.string default (some (Parser.splitPattern pattern)))
  | _ => none

/-- The kind with bounds, if it may have them. -/
def withBounds (kind : PropertyKind) (lower upper : Option Literal) : Option PropertyKind :=
  match kind with
  | .double default _ =>
    (boundsOf Literal.double? lower upper).map fun bounds => .double default (some bounds)
  | .integer default _ =>
    (boundsOf Literal.integer? lower upper).map fun bounds => .integer default (some bounds)
  | .long default _ =>
    (boundsOf Literal.integer? lower upper).map fun bounds => .long default (some bounds)
  | _ => none

variable (kind : PropertyKind) (value : Literal) (pattern : String) (lower upper : Option Literal)

lemma withDefault_withPattern :
    (kind.withDefault value).bind (·.withPattern pattern) =
      (kind.withPattern pattern).bind (·.withDefault value) := by
  cases kind with
  | string => cases hvalue : value.string? <;> simp [withDefault, withPattern, hvalue]
  | _ => simp [withDefault, withPattern, Option.bind_map]

lemma withPattern_withBounds :
    (kind.withPattern pattern).bind (·.withBounds lower upper) =
      (kind.withBounds lower upper).bind (·.withPattern pattern) := by
  cases kind <;> simp [withPattern, withBounds, Option.bind_map]

lemma withDefault_withBounds :
    (kind.withDefault value).bind (·.withBounds lower upper) =
      (kind.withBounds lower upper).bind (·.withDefault value) := by
  cases kind with
  | double =>
      cases hvalue : value.double? <;> cases hbounds : boundsOf Literal.double? lower upper <;>
        simp [withDefault, withBounds, hvalue, hbounds]
  | integer | long =>
      cases hvalue : value.integer? <;> cases hbounds : boundsOf Literal.integer? lower upper <;>
        simp [withDefault, withBounds, hvalue, hbounds]
  | _ => simp [withDefault, withBounds, Option.bind_map]

end PropertyKind

/-- A modifier of a property. -/
inductive Modifier where
  | optional
  | default (value : Literal)
  | regex (value : String)
  | range (lower upper : Option Literal)
  deriving DecidableEq, Repr

/-- What modifiers have made of a property, whatever their order. -/
structure Modifications where
  seen : Finset Keyword
  isOptional : Bool
  kind : PropertyKind

/-- The modifiers without their order. -/
def Parser.Modified.unordered (m : Parser.Modified) : Modifications :=
  ⟨m.seen.toFinset, m.isOptional, m.kind⟩

namespace Modifier

/-- The keyword that begins a modifier, which tells its kind. -/
def keyword : Modifier → Keyword
  | optional => .optionalKw
  | default _ => .defaultKw
  | regex _ => .regexKw
  | range _ _ => .rangeKw

/-- The words that spell a modifier after its keyword. -/
def valueWords : Modifier → List Word
  | optional => []
  | default value => [.symbol .equals, value.word]
  | regex value => [.symbol .equals, ⟨.regex, value⟩]
  | range lower upper =>
    .symbol .equals :: .symbol .openBracket :: (lower.toList.map Literal.word ++
      .symbol .comma :: (upper.toList.map Literal.word ++ [.symbol .closeBracket]))

/-- The words that spell a modifier. -/
def words (x : Modifier) : List Word := .keyword x.keyword :: x.valueWords

/-- What a modifier makes of a kind of property, if the kind may have it. -/
def change : Modifier → PropertyKind → Option PropertyKind
  | optional, kind => some kind
  | default value, kind => kind.withDefault value
  | regex value, kind => kind.withPattern value
  | range lower upper, kind => kind.withBounds lower upper

/-- A modifier is added to those before it, unless there is one of its kind or the property may not have
it. -/
def effect (v : Modifications) (x : Modifier) : Option Modifications :=
  if x.keyword ∈ v.seen then none
  else (x.change v.kind).map fun kind =>
    ⟨insert x.keyword v.seen, v.isOptional || x.keyword = .optionalKw, kind⟩

lemma effect_once {v v' : Modifications} {x : Modifier} (h : effect v x = some v') :
    x.keyword ∉ v.seen ∧ ∀ k, k = x.keyword ∨ k ∈ v.seen → k ∈ v'.seen := by
  rw [effect, Option.ite_none_left_eq_some] at h
  obtain ⟨hfresh, h⟩ := h
  obtain ⟨kind, -, rfl⟩ := Option.map_eq_some_iff.mp h
  exact ⟨hfresh, fun k hk => Finset.mem_insert.mpr hk⟩

/-- Two modifiers of different kinds make the same of a property in either order. -/
lemma change_comm {x y : Modifier} (h : x.keyword ≠ y.keyword) (kind : PropertyKind) :
    (x.change kind).bind y.change = (y.change kind).bind x.change := by
  match x, y with
  | optional, y => exact (Option.bind_fun_some (y.change kind)).symm
  | x, optional => exact Option.bind_fun_some (x.change kind)
  | default value, regex pattern => exact kind.withDefault_withPattern value pattern
  | regex pattern, default value => exact (kind.withDefault_withPattern value pattern).symm
  | default value, range lower upper => exact kind.withDefault_withBounds value lower upper
  | range lower upper, default value => exact (kind.withDefault_withBounds value lower upper).symm
  | regex pattern, range lower upper => exact kind.withPattern_withBounds pattern lower upper
  | range lower upper, regex pattern => exact (kind.withPattern_withBounds pattern lower upper).symm
  | default _, default _ | regex _, regex _ | range _ _, range _ _ => exact absurd rfl h

/-- A modifier is not followed by another one of its kind. -/
lemma effect_bind_eq_none {x y : Modifier} (h : x.keyword = y.keyword) (v : Modifications) :
    (effect v x).bind (effect · y) = none := by
  rw [Option.bind_eq_none_iff]
  intro v' hx
  by_contra hy
  obtain ⟨v'', hy⟩ := Option.ne_none_iff_exists'.mp hy
  exact (effect_once hy).1 ((effect_once hx).2 _ (.inl h.symm))

/-- Two modifiers, one after the other. -/
lemma effect_bind {x y : Modifier} (h : x.keyword ≠ y.keyword) (v : Modifications) :
    (effect v x).bind (effect · y) =
      if x.keyword ∈ v.seen ∨ y.keyword ∈ v.seen then none
      else ((x.change v.kind).bind y.change).map fun kind =>
        ⟨insert y.keyword (insert x.keyword v.seen),
          v.isOptional || x.keyword = .optionalKw || y.keyword = .optionalKw, kind⟩ := by
  by_cases hx : x.keyword ∈ v.seen
  · simp [effect, hx]
  · cases hchange : x.change v.kind with
    | none => simp [effect, hchange]
    | some kind =>
        by_cases hy : y.keyword ∈ v.seen
        · simp [effect, hx, hy, hchange]
        · simp [effect, hx, hy, hchange, h.symm]

/-- Two modifiers may be swapped. -/
lemma effect_comm (v : Modifications) (x y : Modifier) :
    (effect v x).bind (effect · y) = (effect v y).bind (effect · x) := by
  by_cases h : x.keyword = y.keyword
  · rw [effect_bind_eq_none h, effect_bind_eq_none h.symm]
  · rw [effect_bind h, effect_bind (Ne.symm h), change_comm h, Finset.insert_comm,
      Bool.or_right_comm]
    exact if_congr or_comm rfl rfl

lemma standsAlone_words (x : Modifier) : StandsAlone x.words := by
  refine ⟨⟨_, _, rfl, by simp⟩, ?_⟩
  match x with
  | optional | regex _ => simp [Closes, words, valueWords]
  | range lower upper =>
      have hlast : (range lower upper).words.getLast? = some (.symbol .closeBracket) := by
        simp [words, valueWords, List.getLast?_cons]
      simp [Closes, hlast]
  | default value =>
      simp [Closes, words, valueWords, value.word_kind_ne_uri, value.word_kind_ne_symbol]

/-- Modifiers have nothing to do with imports. -/
lemma isNeutral_words (x : Modifier) : ∀ w ∈ x.words, ImportMode.isNeutral w.kind = true := by
  have hword : ∀ value : Literal, ImportMode.isNeutral value.word.kind = true := by
    intro value
    match value with
    | .string _ | .whole _ | .decimal _ | .boolean true | .boolean false => rfl
  rw [words, List.forall_mem_cons]
  refine ⟨by cases x <;> rfl, ?_⟩
  cases x with
  | optional => simp [valueWords]
  | default value => simpa [valueWords] using ⟨rfl, hword value⟩
  | regex => simpa [valueWords] using ⟨rfl, rfl⟩
  | range lower upper =>
      have hends : ∀ (x : Option Literal), ∀ w ∈ x.toList.map Literal.word,
          ImportMode.isNeutral w.kind = true := by
        intro x w hw
        obtain ⟨value, -, rfl⟩ := List.mem_map.mp hw
        exact hword value
      simp only [valueWords, List.forall_mem_cons, List.forall_mem_append]
      exact ⟨rfl, rfl, hends lower, rfl, hends upper, rfl, by simp⟩

/-- The words of modifiers may stand anywhere but right after the `from` of an import. -/
lemma run_words {mode : ImportMode} (hmode : mode ≠ .afterFrom) {items : List Modifier}
    (hne : items ≠ []) : mode.run (Word.kinds (items.flatMap words)) = some mode.settled := by
  obtain ⟨x, items, rfl⟩ := List.exists_cons_of_ne_nil hne
  rw [ImportMode.run_neutral (fun k hk => ?_) (by simp [words]), if_neg hmode]
  obtain ⟨w, hw, rfl⟩ := List.mem_map.mp hk
  obtain ⟨y, -, hy⟩ := List.mem_flatMap.mp hw
  exact isNeutral_words y w hy

/-- They leave the same mode in another order. -/
lemma exists_run_of_perm {mode : ImportMode} (hmode : mode ≠ .afterFrom) {items items' : List Modifier}
    (hperm : items.Perm items') : ∃ mode', mode.run (Word.kinds (items.flatMap words)) = some mode' ∧
      mode.run (Word.kinds (items'.flatMap words)) = some mode' := by
  by_cases hne : items = []
  · subst hne
    obtain rfl := hperm.nil_eq
    exact ⟨mode, rfl, rfl⟩
  · have hne' : items' ≠ [] := fun hnil => hne (hnil ▸ hperm).eq_nil
    exact ⟨_, run_words hmode hne, run_words hmode hne'⟩

/-- Of two modifiers or more, the second word is an equals sign or the keyword of a modifier. -/
lemma exists_second {items : List Modifier} (h : 2 ≤ items.length) :
    ∃ (k : Keyword) (w : Word) (ws : List Word), items.flatMap words = .keyword k :: w :: ws ∧
      (w.kind = .symbol .equals ∨ ∃ y : Modifier, w.kind = .keyword y.keyword) := by
  match items, h with
  | optional :: y :: items, _ => exact ⟨_, _, _, rfl, .inr ⟨y, rfl⟩⟩
  | default _ :: y :: items, _ | regex _ :: y :: items, _ | range _ _ :: y :: items, _ =>
      exact ⟨_, _, _, rfl, .inl rfl⟩

end Modifier

namespace Parser

/-! ### Reading -/

/-- A text that is read as a value of a kind of property. -/
lemma makes_stringLiteral {α : Type} (f : String → α) (x : Literal) :
    Makes (expect [.string] >>= fun t => pure (f t.value)) [x.word] (x.string?.map f) := by
  cases x with
  | string value =>
      refine .expect (by simp [Literal.word]) fun t ht => ?_
      rw [← Token.word_value, ht]
      exact .pure _
  | whole | decimal => exact .expect_none (by simp [Literal.word])
  | boolean value => cases value <;> exact .expect_none (by simp [Literal.word])

lemma makes_booleanLiteral (x : Literal) : Makes booleanLiteral [x.word] x.boolean? := by
  cases x with
  | string | whole | decimal => exact .expect_none (by simp [Literal.word])
  | boolean value =>
      cases value with
      | true =>
          refine .expect (by simp [Literal.word]) fun t ht => ?_
          rw [← Token.word_kind, ht]
          exact .pure true
      | false =>
          refine .expect (by simp [Literal.word]) fun t ht => ?_
          rw [← Token.word_kind, ht]
          exact .pure false

lemma makes_doubleLiteral (x : Literal) : Makes doubleLiteral [x.word] x.double? := by
  have hnumber : ∀ {w : Word}, w.kind ∈ [TokenKind.integer, TokenKind.float] →
      Makes doubleLiteral [w] (readDouble w.value).toOption := by
    refine fun hw => .expect hw fun t ht => ?_
    rw [← Token.word_value, ht]
    exact .numberValue _
  cases x with
  | whole text | decimal text => exact hnumber (by simp [Literal.word])
  | string => exact .expect_none (by simp [Literal.word])
  | boolean value => cases value <;> exact .expect_none (by simp [Literal.word])

lemma makes_integerLiteral (x : Literal) : Makes integerLiteral [x.word] x.integer? := by
  cases x with
  | whole text =>
      refine .expect (by simp [Literal.word]) fun t ht => ?_
      rw [← Token.word_value, ht]
      exact .numberValue (readInteger text)
  | string | decimal => exact .expect_none (by simp [Literal.word])
  | boolean value => cases value <;> exact .expect_none (by simp [Literal.word])

section Range

variable {α β : Type} {bound : Parser α} {value? : Literal → Option α}

/-- An end of a range before the symbol that ends it. -/
lemma makes_rangeEnd (hbound : ∀ x, Makes bound [x.word] (value? x)) {s : Symbol}
    {f : Option α → Parser β} {words : List Word} {g : Option α → Option β}
    (hf : ∀ v, Makes (f v) (.symbol s :: words) (g v)) (x : Option Literal) :
    Makes
      (do
        let v ← if ← nextIs (.symbol s) then pure none else some <$> bound
        f v)
      (x.toList.map Literal.word ++ .symbol s :: words) ((endValue value? x).bind g) := by
  -- the symbol that ends the range is no literal, so one look tells whether the end is given
  cases x with
  | none =>
      refine .nextIs ?_
      rw [decide_eq_true (show Word.kind (.symbol s) = .symbol s from rfl)]
      exact hf none
  | some x =>
      have hvalue : Makes (some <$> bound >>= f) ([x.word] ++ .symbol s :: words)
          ((endValue value? (some x)).bind g) := by
        rw [← bind_pure_comp]
        exact (hbound x).bind_pure.bind hf
      refine .nextIs ?_
      rw [decide_eq_false (x.word_kind_ne_symbol s)]
      exact hvalue

lemma makes_range (hbound : ∀ x, Makes bound [x.word] (value? x)) (lower upper : Option Literal) :
    Makes (range bound) (.symbol .openBracket :: (lower.toList.map Literal.word ++
      .symbol .comma :: (upper.toList.map Literal.word ++ [.symbol .closeBracket])))
      (boundsOf value? lower upper) := by
  have hupper : ∀ l, Makes
      (do
        let u ← if ← nextIs (.symbol .closeBracket) then pure none else some <$> bound
        symbol .closeBracket
        return (⟨l, u⟩ : Bounds α))
      (upper.toList.map Literal.word ++ [.symbol .closeBracket])
      ((endValue value? upper).map fun u => ⟨l, u⟩) := by
    intro l
    rw [Option.map_eq_bind]
    exact makes_rangeEnd hbound (fun u => .symbol (.pure (⟨l, u⟩ : Bounds α))) upper
  exact .symbol (makes_rangeEnd hbound (fun l => .symbol (hupper l)) lower)

end Range

/-- The value of a modifier. -/
lemma makes_modifierValue {x : Modifier} {kind : PropertyKind} {value : Parser PropertyKind}
    (hvalue : modifierValue? x.keyword kind = some value) :
    Makes (symbol .equals >>= fun _ => value) x.valueWords (x.change kind) := by
  -- not every kind of property has a reader for the value; where it has none, the hypothesis is
  -- false
  cases x with
  | optional => simp [Modifier.keyword, modifierValue?] at hvalue
  | default v =>
      refine .symbol ?_
      cases kind with
      | relationship | dateTime => simp [Modifier.keyword, modifierValue?, defaultValue?] at hvalue
      | object type _ =>
          cases hvalue
          exact makes_stringLiteral (fun v => PropertyKind.object type (some v)) v
      | string _ pattern =>
          cases hvalue
          exact makes_stringLiteral (fun v => PropertyKind.string (some v) pattern) v
      | boolean =>
          cases hvalue
          exact (makes_booleanLiteral v).bind_pure
      | double =>
          cases hvalue
          exact (makes_doubleLiteral v).bind_pure
      | integer | long =>
          cases hvalue
          exact (makes_integerLiteral v).bind_pure
  | regex pattern =>
      refine .symbol ?_
      cases kind with
      | string default _ =>
          cases hvalue
          refine .expect (by simp) fun t ht => ?_
          rw [← Token.word_value, ht]
          exact .pure _
      | _ => simp [Modifier.keyword, modifierValue?, patternValue?] at hvalue
  | range lower upper =>
      refine .symbol ?_
      cases kind with
      | double =>
          cases hvalue
          exact (makes_range makes_doubleLiteral lower upper).bind_pure
      | integer | long =>
          cases hvalue
          exact (makes_range makes_integerLiteral lower upper).bind_pure
      | _ => simp [Modifier.keyword, modifierValue?, rangeValue?] at hvalue

lemma change_of_modifierValue?_eq_none {x : Modifier} {kind : PropertyKind}
    (hx : x.keyword ≠ .optionalKw) (hvalue : modifierValue? x.keyword kind = none) :
    x.change kind = none := by
  cases x with
  | optional => exact absurd rfl hx
  | default =>
      cases kind <;> simp_all [Modifier.keyword, Modifier.change, modifierValue?, defaultValue?,
        PropertyKind.withDefault]
  | regex =>
      cases kind <;> simp_all [Modifier.keyword, Modifier.change, modifierValue?, patternValue?,
        PropertyKind.withPattern]
  | range =>
      cases kind <;> simp_all [Modifier.keyword, Modifier.change, modifierValue?, rangeValue?,
        PropertyKind.withBounds]

lemma makes_modifier (type : String) (m : Modified) (x : Modifier) :
    Makes (modifier type m) x.words
      (if m.seen.contains x.keyword then none
        else (x.change m.kind).map fun kind =>
          ⟨x.keyword :: m.seen, m.isOptional || x.keyword = .optionalKw, kind⟩) := by
  refine .advance fun t ht => ?_
  have hof : modifierOf? t.kind = some x.keyword := by
    rw [← Token.word_kind, ht]
    cases x <;> rfl
  rw [hof]
  dsimp only
  -- the parser asks in this order: was the keyword seen, does it have no value, can the kind have
  -- it
  split
  · exact .failAt _ _
  split
  · next hoptional =>
      cases x with
      | optional =>
          have hpure := Makes.pure (⟨.optionalKw :: m.seen, true, m.kind⟩ : Modified)
          simpa [Modifier.keyword, Modifier.change, Modifier.valueWords] using hpure
      | _ => cases hoptional
  · next hoptional =>
      split
      · next hvalue =>
          rw [change_of_modifierValue?_eq_none hoptional hvalue]
          exact .failAt _ _
      · next value hvalue =>
          have hmakes := (makes_modifierValue hvalue).bind_pure
            (g := fun kind => (⟨x.keyword :: m.seen, m.isOptional, kind⟩ : Modified))
          rw [bind_assoc] at hmakes
          simpa [hoptional] using hmakes

/-- No modifier is read once there is one of its kind. -/
lemma neverAt_modifier {type : String} {m : Modified} {x : Modifier} {t : Token}
    (ht : t.word ∈ x.words.head?) (hseen : x.keyword ∈ m.seen) : NeverAt (modifier type m) t := by
  have hof : modifierOf? t.kind = some x.keyword := by
    rw [← Token.word_kind, ← Option.some.inj ht]
    cases x <;> rfl
  refine .advance (.duplicateModifier x.keyword) ?_
  rw [hof]
  exact if_pos (List.contains_iff_mem.mpr hseen)

/-- The parser reads modifiers. -/
lemma readsItems_modifier (type : String) : ReadsItems Modifier.words
    (fun next => (modifierOf? next).isSome) (fun _ => True) (modifier type) Modified.unordered
    Modifier.effect where
  advances := advances_modifier type
  first x := ⟨_, _, rfl, by cases x <;> rfl, trivial⟩
  reads x m tokens s htokens _ := by
    rw [makes_modifier type m x tokens s htokens]
    by_cases hseen : x.keyword ∈ m.seen
    · simp [Modifier.effect, Modified.unordered, hseen]
    · cases hchange : x.change m.kind <;>
        simp [Modifier.effect, Modified.unordered, hseen, hchange]
  congr m m' h := by
    -- the parser keeps a list of the keywords seen, of which only the members count
    obtain ⟨seen, isOptional, kind⟩ := m
    obtain ⟨seen', isOptional', kind'⟩ := m'
    obtain ⟨hseen, rfl, rfl⟩ := Modifications.mk.inj h
    have hcontains : ∀ k, seen.contains k = seen'.contains k := by
      intro k
      rw [Bool.eq_iff_iff, List.contains_iff_mem, List.contains_iff_mem, ← List.mem_toFinset,
        ← List.mem_toFinset]
      exact iff_of_eq (congrArg (k ∈ ·) hseen)
    have hcons : ∀ k isOptional kind, Modified.unordered ⟨k :: seen, isOptional, kind⟩ =
        Modified.unordered ⟨k :: seen', isOptional, kind⟩ := by
      intro k isOptional kind
      simp only [Modified.unordered, List.toFinset_cons]
      exact congrArg (fun s => (⟨insert k s, isOptional, kind⟩ : Modifications)) hseen
    refine .bind fun t => ?_
    split
    · exact .pure h
    rw [hcontains]
    split
    · exact .refl _
    split
    · exact .pure (hcons _ _ _)
    dsimp only
    split
    · exact .refl _
    · exact .bind fun _ => .bind fun _ => .pure (hcons _ _ _)

end Parser

end Concerto
