import Concerto.Proofs.Model.ImportSoundness
import Concerto.Proofs.Model.Reading

/-!
What decorators and properties that have been read are like.

* `Parser.yields_decorators`: decorators, for a header of any name;
* `Parser.Modified.Reads`: what the loop over the modifiers of a property preserves;
* `Parser.yields_property`: a property with its modifiers in any order.
-/

namespace Concerto

namespace Parser

variable {first : Token → Prop}

/-! ### Decorators -/

/-- Brackets. -/
lemma yields_arrayMarker :
    Yields arrayMarker first (Tells arrayWords (fun _ => []) fun _ => True) := by
  refine .takeSymbol (fun w hw => ?_) (.pure ⟨.nil, trivial⟩)
  exact .symbol fun w' hw' => .pure ⟨.symbol hw (.symbol hw' .nil), trivial⟩

/-- A number in a source text and the word for its value. -/
lemma standsFor_numeral {w : Word} (hkind : w.kind = .integer ∨ w.kind = .float) (n : Numeral)
    (hreadable : ∀ i, n = .integer i → IsReadable i) : StandsFor [w] [n.word] [n] :=
  .neutral (.numeral hkind n hreadable) (List.forall_mem_singleton.mpr n.isNeutral_word)
    (List.forall_mem_singleton.mpr fun h => absurd h n.kind_word_ne_regex) (by simp)

/-- What has been read of a decorator's argument. -/
lemma yields_decoratorArgument :
    Yields decoratorArgument first (Tells DecoratorArgument.words DecoratorArgument.numerals
      fun a => a.IsSpellable ∧ a.sourceForm = a) := by
  refine .peek fun t _ => ?_
  -- whole numbers and fractions are both read as doubles
  have hnumber : (t.kind = .integer ∨ t.kind = .float) → Yields (do
      let _ ← advance
      return .number (← Parser.numberValue (readDouble t.value)) none) (· = t)
        (Tells DecoratorArgument.words DecoratorArgument.numerals
          fun a => a.IsSpellable ∧ a.sourceForm = a) := by
    intro hkind
    refine .advanceOver (by rintro heq; simp [heq] at hkind) fun _ => ?_
    refine .bind (.numberValue (P := fun taken _ => taken = []) fun _ _ => rfl) ?_
    rintro d _ rfl
    exact .pure ⟨standsFor_numeral hkind (.double d) (by simp), trivial, rfl⟩
  split
  · next hkind =>
      exact .advanceOver (by simp [hkind]) fun _ =>
        .pure ⟨.single hkind rfl (by simp), trivial, rfl⟩
  · next hkind => exact hnumber (Or.inl hkind)
  · next hkind => exact hnumber (Or.inr hkind)
  · next hkind =>
      exact .advanceOver (by simp [hkind]) fun _ => .pure ⟨.keyword hkind .nil, trivial, rfl⟩
  · next hkind =>
      exact .advanceOver (by simp [hkind]) fun _ => .pure ⟨.keyword hkind .nil, trivial, rfl⟩
  · refine .bind yields_typeName ?_
    rintro n _ ⟨rfl, hn⟩
    refine .bind yields_arrayMarker ?_
    rintro b taken ⟨hstands, -⟩
    refine .pure ⟨?_, hn, rfl⟩
    rw [List.append_nil]
    exact (standsFor_name n).append hstands
  · exact .failAt _ _

lemma yields_decoratorArguments :
    Yields decoratorArguments first
      (Tells (fun as => separatedWords .comma (as.map DecoratorArgument.words))
        (List.flatMap DecoratorArgument.numerals)
        fun as => ∀ a ∈ as, a.IsSpellable ∧ a.sourceForm = a) := by
  refine .nextIs (.pure ⟨.nil, by simp⟩) ?_
  exact yields_decoratorArgument.separatedByTells.mono fun _ _ h => ⟨h.1, h.2.2⟩

lemma yields_decorator :
    Yields decorator first
      (Tells Decorator.words Decorator.numerals fun d => d.IsSpellable ∧ d.sourceForm = d) := by
  refine .symbol fun w hw => .bind yields_anyName ?_
  rintro n _ ⟨rfl, hn⟩
  refine .takeSymbol (fun w' hw' => .bind yields_decoratorArguments ?_) (.pure ⟨?_, ?_, rfl⟩)
  · rintro as taken ⟨hstands, has⟩
    refine .symbol fun w'' hw'' => .pure ⟨?_, ⟨hn, fun a ha => (has a ha).1⟩, ?_⟩
    · have hwords := StandsFor.symbol hw ((standsFor_name n).append
        (.symbol hw' (hstands.append (.symbol hw'' .nil))))
      simpa [Decorator.words, Decorator.argumentWords, Decorator.numerals] using hwords
    · have hsame : as.map DecoratorArgument.sourceForm = as := by
        rw [List.map_congr_left fun a ha => (has a ha).2, List.map_id']
      rw [Decorator.sourceForm, Option.map_some, hsame]
  · exact .symbol hw (standsFor_name n)
  · exact ⟨hn, by simp⟩

/-- What is known of decorators and of the header they will be in. -/
def TellsHeader (taken : List Word) (decorators : Option (List Decorator)) : Prop :=
  ∀ name : String, Tells Header.decoratorWords Header.numerals
    (fun h => h.IsSpellable ∧ h.sourceForm = h) taken ⟨name, decorators, none⟩

lemma yields_decorators : Yields decorators first TellsHeader := by
  refine .bind yields_decorator.manyTells ?_
  rintro ds taken ⟨hstands, hds⟩
  cases ds with
  | nil =>
      refine .pure fun name => ⟨?_, ⟨by simp, by simp⟩, rfl⟩
      simpa [Header.decoratorWords, Header.numerals] using hstands
  | cons d ds =>
      refine .pure fun name => ⟨?_, ⟨by simp, fun d' hd' => (hds d' hd').1⟩, ?_⟩
      · simpa [Header.decoratorWords, Header.numerals] using hstands
      · have hsame : (d :: ds).map Decorator.sourceForm = d :: ds := by
          rw [List.map_congr_left fun d' hd' => (hds d' hd').2, List.map_id']
        rw [Header.sourceForm, Option.map_some, hsame]

/-! ### Modifiers -/

lemma yields_integerLiteral :
    Yields integerLiteral first fun taken i => Neutral taken [.integer i] := by
  refine .expectOne (by simp) fun t hkind _ => .numberValue fun i hi => ?_
  refine .numeral (Or.inl hkind) _ ?_
  rintro _ ⟨⟩
  exact isReadable_of_readInteger hi

lemma yields_doubleLiteral :
    Yields doubleLiteral first fun taken d => Neutral taken [.double d] :=
  .expect (by simp) fun _ hkind _ => .numberValue fun d _ =>
    .numeral (by simpa using hkind) _ (by simp)

lemma yields_booleanLiteral : Yields booleanLiteral first fun taken _ => Neutral taken [] := by
  refine .expect (by simp) fun t hkind _ => .pure ?_
  simp only [List.mem_cons, List.not_mem_nil, or_false] at hkind
  rcases hkind with hkind | hkind
  · exact .kind hkind rfl rfl .nil
  · exact .kind hkind rfl rfl .nil

/-- A range whose bounds are read one by one. -/
lemma yields_range {α : Type} {number : α → Numeral} {bound : Parser α}
    (hbound : Yields bound AnyToken fun taken a => Neutral taken [number a]) :
    Yields (range bound) first fun taken b => Neutral taken (b.numerals number) := by
  -- both bounds are read in this way, with another symbol after them
  have hside : ∀ {β : Type} {closing : Symbol} {f : Option α → Parser β} {Q : List Word → β → Prop},
      (∀ (b : Option α) taken, Neutral taken (b.map number).toList →
        Yields (f b) AnyToken fun taken' c => Q (taken ++ taken') c) →
      Yields (Parser.nextIs (.symbol closing) >>= fun isNext =>
        if isNext = true then Pure.pure none >>= f else some <$> bound >>= f) AnyToken Q := by
    intro β closing f Q hf
    refine .nextIs (hf none [] .nil).of_any ?_
    have hsome : Yields (some <$> bound) AnyToken fun taken b =>
        Neutral taken (b.map number).toList := .map hbound fun taken a ha => ha
    exact .bind hsome fun b taken hb => hf b taken hb
  refine .symbol fun w hw => hside fun lower taken hlower => ?_
  refine .symbol fun w' hw' => hside fun upper taken' hupper => ?_
  refine .symbol fun w'' hw'' => .pure ?_
  have hend : Neutral [w''] [] := .kind hw'' rfl rfl .nil
  have hwords := Neutral.kind hw rfl rfl (hlower.append (.kind hw' rfl rfl (hupper.append hend)))
  simpa [Bounds.numerals] using hwords

/-- What a modifier whose value is read as `taken` makes of a kind of property: its numbers are
added, and its type stays. -/
structure Modifies (taken : List Word) (before after : PropertyKind) : Prop where
  typeWords : after.typeWords = before.typeWords
  numerals : ∃ numerals, Neutral taken numerals ∧ after.numerals.Perm (before.numerals ++ numerals)
  spellable : before.IsSpellable → after.IsSpellable
  sourceForm : before.sourceForm = before → after.sourceForm = after

/-- The value of a default. -/
lemma yields_defaultValue {kind : PropertyKind} (hnone : kind.default? = none)
    {value : Parser PropertyKind} (hvalue : defaultValue? kind = some value) :
    Yields value first fun taken kind' => Modifies taken kind kind' ∧ kind'.default?.isSome ∧
      kind'.constraint? = kind.constraint? := by
  -- a kind with no place for a default has no reader for one, and no default has been read yet
  cases kind with
  | relationship | dateTime => simp [defaultValue?] at hvalue
  | object | string =>
      cases hvalue
      refine .expectOne (by simp) fun t hkind _ => .pure ⟨⟨rfl, ?_, fun h => h, ?_⟩, rfl, rfl⟩
      · exact ⟨[], .kind hkind rfl rfl .nil, by simp [PropertyKind.numerals]⟩
      · simp [PropertyKind.sourceForm]
  | boolean =>
      cases hvalue
      refine .bind yields_booleanLiteral fun b taken hb => .pure ⟨⟨rfl, ?_, id, fun _ => rfl⟩, rfl, rfl⟩
      exact ⟨[], by simpa using hb, by simp [PropertyKind.numerals]⟩
  | double =>
      cases hvalue
      rw [PropertyKind.default?, Option.map_eq_none_iff] at hnone
      subst hnone
      refine .bind yields_doubleLiteral fun d taken hd => .pure ⟨⟨rfl, ?_, id, fun _ => rfl⟩, rfl, rfl⟩
      exact ⟨[.double d], by simpa using hd, (List.perm_append_singleton _ _).symm⟩
  | integer | long =>
      cases hvalue
      rw [PropertyKind.default?, Option.map_eq_none_iff] at hnone
      subst hnone
      refine .bind yields_integerLiteral fun d taken hd => .pure ⟨⟨rfl, ?_, id, fun _ => rfl⟩, rfl, rfl⟩
      exact ⟨[.integer d], by simpa using hd, (List.perm_append_singleton _ _).symm⟩

/-- A pattern that has been scanned can be told, no slash of it is left to escape, and its word is
the one that was scanned. -/
lemma isSpellable_splitPattern {value : String} (h : IsPatternLiteral value) :
    (splitPattern value).IsSpellable ∧ (splitPattern value).sourceForm = splitPattern value ∧
      (splitPattern value).word = ⟨.regex, value⟩ := by
  obtain ⟨body, flags, hvalue, hne, hstar, hbody, hflags⟩ := h
  have hescape := escapeSlashesFrom_of_isPatternBody hbody
  rw [splitPattern_eq hvalue hflags]
  refine ⟨⟨?_, ?_, ?_, ?_⟩, ?_, ?_⟩
  · simpa using hne
  · simpa using hstar
  · rw [String.toList_ofList, ← isPatternBody_escapeSlashesFrom, hescape, hbody]
  · simpa using hflags
  · rw [StringPattern.sourceForm, escapeSlashes, String.toList_ofList, hescape]
  · simp [StringPattern.word, escapeSlashes, hescape, String.ext_iff, hvalue]

/-- A kind of property may have constraints of one kind only. -/
lemma constraint?_eq_none {keyword : Keyword} (hkeyword : keyword = .regexKw ∨ keyword = .rangeKw)
    {kind : PropertyKind} (hne : ∀ c ∈ kind.constraint?, c.1 ≠ keyword)
    {value : Parser PropertyKind} (hvalue : modifierValue? keyword kind = some value) :
    kind.constraint? = none := by
  rcases hkeyword with rfl | rfl <;> cases kind <;>
    simp_all [PropertyKind.constraint?, modifierValue?, patternValue?, rangeValue?,
      Option.eq_none_iff_forall_ne_some]

/-- No word of a range is a pattern. -/
lemma kind_bounds_ne_regex {α : Type} (number : α → Numeral) (b : Bounds α) :
    ∀ w ∈ b.words number, w.kind ≠ .regex := by
  intro w hw
  simp only [Bounds.words, List.mem_append, List.mem_singleton, Option.mem_toList,
    Option.map_eq_some_iff] at hw
  rcases hw with (((rfl | ⟨a, -, rfl⟩) | rfl) | ⟨a, -, rfl⟩) | rfl
  · simp
  · exact Numeral.kind_word_ne_regex _
  · simp
  · exact Numeral.kind_word_ne_regex _
  · simp

/-- The value of a constraint. -/
lemma yields_constraintValue {keyword : Keyword}
    (hkeyword : keyword = .regexKw ∨ keyword = .rangeKw) {kind : PropertyKind}
    (hnone : kind.constraint? = none) {value : Parser PropertyKind}
    (hvalue : modifierValue? keyword kind = some value) :
    Yields value first fun taken kind' => Modifies taken kind kind' ∧
      kind'.default? = kind.default? ∧ ∃ words, kind'.constraint? = some (keyword, words) ∧
        ∀ w ∈ words, w.kind = .regex → w ∈ taken := by
  -- only strings have patterns, and only numbers have ranges
  rcases hkeyword with rfl | rfl
  · cases kind with
    | string default pattern =>
        cases hvalue
        refine .expectOne (by simp) fun t hkind hscanned =>
          .pure ⟨⟨rfl, ?_, ?_, ?_⟩, rfl, _, rfl, ?_⟩
        · exact ⟨[], .kind hkind rfl rfl .nil, by simp [PropertyKind.numerals]⟩
        all_goals
          rw [Word.IsScanned, Token.word_kind, hkind] at hscanned
          obtain ⟨hspellable, hsource, hword⟩ := isSpellable_splitPattern hscanned
        · rintro - p ⟨⟩
          exact hspellable
        · intro _
          rw [PropertyKind.sourceForm, Option.map_some, ← Token.word_value, hsource]
        · refine List.forall_mem_singleton.mpr fun _ => List.mem_singleton.mpr ?_
          rw [← Token.word_value, hword, ← hkind]
          rfl
    | _ => simp [modifierValue?, patternValue?] at hvalue
  · cases kind with
    | double default bounds =>
        cases hvalue
        rw [PropertyKind.constraint?, Option.map_eq_none_iff] at hnone
        subst hnone
        refine .bind (yields_range yields_doubleLiteral) fun b taken hb =>
          .pure ⟨⟨rfl, ?_, id, fun _ => rfl⟩, rfl, _, rfl,
            fun w hw hregex => absurd hregex (kind_bounds_ne_regex _ b w hw)⟩
        exact ⟨b.numerals .double, by simpa using hb, by simp [PropertyKind.numerals]⟩
    | integer default bounds | long default bounds =>
        cases hvalue
        rw [PropertyKind.constraint?, Option.map_eq_none_iff] at hnone
        subst hnone
        refine .bind (yields_range yields_integerLiteral) fun b taken hb =>
          .pure ⟨⟨rfl, ?_, id, fun _ => rfl⟩, rfl, _, rfl,
            fun w hw hregex => absurd hregex (kind_bounds_ne_regex _ b w hw)⟩
        exact ⟨b.numerals .integer, by simpa using hb, by simp [PropertyKind.numerals]⟩
    | _ => simp [modifierValue?, rangeValue?] at hvalue

/-- The modifiers read so far, from the kind of a property without any. -/
structure Modified.Reads (bare : PropertyKind) (taken : List Word) (m : Modified) : Prop where
  typeWords : m.kind.typeWords = bare.typeWords
  neutral : Neutral taken m.kind.numerals
  spellable : m.kind.IsSpellable
  sourceForm : m.kind.sourceForm = m.kind
  nil : taken = [] ↔ m.seen = []
  seen : ∀ k, k ∈ m.seen ↔ k = .defaultKw ∧ m.kind.default?.isSome ∨
    (∃ words, m.kind.constraint? = some (k, words)) ∨ k = .optionalKw ∧ m.isOptional = true
  patterns : ∀ c ∈ m.kind.constraint?, ∀ w ∈ c.2, w.kind = .regex → w ∈ taken

/-- A modifier with a value. -/
lemma Modified.Reads.modify {bare : PropertyKind} {before head taken : List Word} {m : Modified}
    (h : m.Reads bare before) (hhead : Neutral head []) (hne : head ≠ []) {kind : PropertyKind}
    (hmodifies : Modifies taken m.kind kind) {keyword : Keyword}
    (hseen : ∀ k, k ∈ keyword :: m.seen ↔ k = .defaultKw ∧ kind.default?.isSome ∨
      (∃ words, kind.constraint? = some (k, words)) ∨ k = .optionalKw ∧ m.isOptional = true)
    (hpatterns : ∀ c ∈ kind.constraint?, ∀ w ∈ c.2, w.kind = .regex → w ∈ before ++ taken) :
    Modified.Reads bare (before ++ (head ++ taken)) ⟨keyword :: m.seen, m.isOptional, kind⟩ := by
  obtain ⟨numerals, hneutral, hperm⟩ := hmodifies.numerals
  exact {
    typeWords := hmodifies.typeWords.trans h.typeWords
    neutral := (h.neutral.append (hhead.append hneutral)).perm hperm
    spellable := hmodifies.spellable h.spellable
    sourceForm := hmodifies.sourceForm h.sourceForm
    nil := by simp [hne]
    seen := hseen
    patterns := fun c hc w hw hregex => by
      rcases List.mem_append.mp (hpatterns c hc w hw hregex) with hmem | hmem
      · exact List.mem_append_left _ hmem
      · exact List.mem_append_right _ (List.mem_append_right _ hmem) }

lemma keyword_of_modifierOf? {kind : TokenKind} {keyword : Keyword}
    (h : modifierOf? kind = some keyword) :
    kind = .keyword keyword ∧ ImportMode.isNeutral kind = true := by
  unfold modifierOf? at h
  split at h <;> cases h <;> exact ⟨rfl, rfl⟩

/-- A modifier with a value is a default or a constraint. -/
lemma keyword_of_modifierValue? {keyword : Keyword} {kind : PropertyKind}
    {value : Parser PropertyKind} (h : modifierValue? keyword kind = some value) :
    keyword = .defaultKw ∨ keyword = .regexKw ∨ keyword = .rangeKw := by
  unfold modifierValue? at h
  split at h <;> simp_all

/-- One more modifier. -/
lemma yields_modifier (type : String) {bare : PropertyKind} {before : List Word} {m : Modified}
    (h : m.Reads bare before) :
    Yields (modifier type m) (fun t => (modifierOf? t.kind).isSome = true)
      fun taken m' => Modified.Reads bare (before ++ taken) m' := by
  refine .bind (.advance fun t ht heof => by simp [heof, modifierOf?] at ht) ?_
  rintro t taken ⟨rfl, ht, -⟩
  obtain ⟨keyword, hkeyword⟩ := Option.isSome_iff_exists.mp ht
  obtain ⟨hkind, hneutral⟩ := keyword_of_modifierOf? hkeyword
  have hhead : Neutral [t.word] [] := .cons hneutral (by simp [Word.isNumber, hkind]) .nil
  simp only [hkeyword]
  split
  · exact .failAt _ _
  next hseen =>
  -- a modifier that has been seen before is refused, so that what it sets is not there yet
  have hnot : keyword ∉ m.seen := by simpa using hseen
  rw [h.seen] at hnot
  simp only [not_or, not_and, not_exists] at hnot
  obtain ⟨hdefault, hconstraint, -⟩ := hnot
  split
  · next hoptional =>
      subst hoptional
      refine .pure ⟨h.typeWords, ?_, h.spellable, h.sourceForm, by simp, fun k => ?_, ?_⟩
      · simpa using h.neutral.append hhead
      · simp only [List.mem_cons, h.seen]
        grind
      · exact fun c hc w hw hregex => List.mem_append_left _ (h.patterns c hc w hw hregex)
  split
  · exact .failAt _ _
  next value hvalue =>
  refine .symbol fun w hw => ?_
  have hequals : Neutral [t.word, w] [] := hhead.append (.kind hw rfl rfl .nil)
  -- the value is that of a default or that of a constraint
  rcases keyword_of_modifierValue? hvalue with rfl | hregexOrRange
  · have hnone : m.kind.default? = none := by simpa using hdefault rfl
    refine .bind (yields_defaultValue hnone hvalue) ?_
    rintro kind taken ⟨hmodifies, hsome, hsame⟩
    refine .pure ?_
    have hreads : Modified.Reads bare _ ⟨.defaultKw :: m.seen, _, _⟩ :=
      h.modify hequals (by simp) hmodifies (fun k => by simp [h.seen, hnone, hsome, hsame])
        fun c hc w hw hregex => List.mem_append_left _ (h.patterns c (hsame ▸ hc) w hw hregex)
    simpa using hreads
  · have hnone : m.kind.constraint? = none :=
      constraint?_eq_none hregexOrRange (fun c hc heq => hconstraint c.2 (by rw [← heq]; exact hc))
        hvalue
    refine .bind (yields_constraintValue hregexOrRange hnone hvalue) ?_
    rintro kind taken ⟨hmodifies, hsame, words, hsome, hpatterns⟩
    refine .pure ?_
    have hreads : Modified.Reads bare (before ++ ([t.word, w] ++ taken))
        ⟨keyword :: m.seen, m.isOptional, kind⟩ := by
      refine h.modify hequals (by simp) hmodifies (fun k => ?_) fun c hc w hw hregex => ?_
      · simp only [List.mem_cons, h.seen, hnone, hsome, hsame, Option.some.injEq, Prod.mk.injEq,
          reduceCtorEq, exists_false, false_or, exists_and_left, exists_eq', and_true]
        grind
      · obtain rfl := Option.some.inj (hsome.symm.trans hc)
        exact List.mem_append_right _ (hpatterns w hw hregex)
    simpa using hreads

/-- The words of a default. -/
lemma isNeutral_default {kind : PropertyKind} {words : List Word} (h : kind.default? = some words) :
    ∀ w ∈ words, ImportMode.isNeutral w.kind = true ∧ w.kind ≠ .regex := by
  cases kind with
  | relationship | dateTime => simp [PropertyKind.default?] at h
  | object | boolean | string =>
      obtain ⟨value, -, rfl⟩ := Option.map_eq_some_iff.mp h
      first
        | exact List.forall_mem_singleton.mpr ⟨rfl, by simp⟩
        | (cases value <;> exact List.forall_mem_singleton.mpr ⟨rfl, by simp⟩)
  | double | integer | long =>
      obtain ⟨value, -, rfl⟩ := Option.map_eq_some_iff.mp h
      exact List.forall_mem_singleton.mpr
        ⟨Numeral.isNeutral_word _, Numeral.kind_word_ne_regex _⟩

lemma isNeutral_bounds {α : Type} (number : α → Numeral) (b : Bounds α) :
    ∀ w ∈ b.words number, ImportMode.isNeutral w.kind = true := by
  intro w hw
  simp only [Bounds.words, List.mem_append, List.mem_singleton, Option.mem_toList,
    Option.map_eq_some_iff] at hw
  rcases hw with (((rfl | ⟨a, -, rfl⟩) | rfl) | ⟨a, -, rfl⟩) | rfl
  · rfl
  · exact Numeral.isNeutral_word _
  · rfl
  · exact Numeral.isNeutral_word _
  · rfl

/-- The words of a constraint. -/
lemma isNeutral_constraint {kind : PropertyKind} {c : Keyword × List Word}
    (h : kind.constraint? = some c) :
    ∀ w ∈ modifierWords c.1 c.2, ImportMode.isNeutral w.kind = true := by
  cases kind with
  | object | relationship | boolean | dateTime => simp [PropertyKind.constraint?] at h
  | string default pattern =>
      obtain ⟨p, -, rfl⟩ := Option.map_eq_some_iff.mp h
      simp [modifierWords, StringPattern.word, ImportMode.isNeutral]
  | double | integer | long =>
      obtain ⟨b, -, rfl⟩ := Option.map_eq_some_iff.mp h
      simp only [modifierWords, List.forall_mem_append, List.forall_mem_cons]
      exact ⟨⟨rfl, rfl, by simp⟩, isNeutral_bounds _ b⟩

/-- The words of the modifiers that have been read, in their own order. -/
def Modified.words (m : Modified) : List Word :=
  (m.kind.default?.map (modifierWords .defaultKw)).getD [] ++
    ((m.kind.constraint?.map fun c => modifierWords c.1 c.2).getD [] ++
      (if m.isOptional then [.keyword .optionalKw] else []))

/-- Each of these words belongs to one of the modifiers. -/
lemma Modified.forall_mem_words {m : Modified} {P : Word → Prop}
    (hdefault : ∀ words, m.kind.default? = some words → ∀ w ∈ modifierWords .defaultKw words, P w)
    (hconstraint : ∀ c, m.kind.constraint? = some c → ∀ w ∈ modifierWords c.1 c.2, P w)
    (hoptional : P (.keyword .optionalKw)) : ∀ w ∈ m.words, P w := by
  simp only [Modified.words, List.forall_mem_append]
  refine ⟨?_, ?_, ?_⟩
  · cases hd : m.kind.default? with
    | none => simp
    | some words => exact hdefault words hd
  · cases hc : m.kind.constraint? with
    | none => simp
    | some c => exact hconstraint c hc
  · cases m.isOptional <;> simp [hoptional]

lemma Modified.words_eq_nil_iff {m : Modified} :
    m.words = [] ↔ m.kind.default? = none ∧ m.kind.constraint? = none ∧ m.isOptional = false := by
  simp only [Modified.words, List.append_eq_nil_iff]
  refine and_congr ?_ (and_congr ?_ ?_)
  · cases m.kind.default? <;> simp [modifierWords]
  · cases m.kind.constraint? <;> simp [modifierWords]
  · cases m.isOptional <;> simp

/-- Words have been read if, and only if, there are modifiers. -/
lemma Modified.Reads.eq_nil_iff {bare : PropertyKind} {taken : List Word} {m : Modified}
    (h : m.Reads bare taken) : taken = [] ↔ m.words = [] := by
  rw [h.nil, List.eq_nil_iff_forall_not_mem, Modified.words_eq_nil_iff]
  simp only [h.seen]
  constructor
  · intro hnone
    refine ⟨by simpa using (not_or.mp (hnone .defaultKw)).1, ?_, ?_⟩
    · rw [Option.eq_none_iff_forall_ne_some]
      exact fun c hc => hnone c.1 (Or.inr (Or.inl ⟨c.2, hc⟩))
    · simpa using fun ho => hnone .optionalKw (Or.inr (Or.inr ⟨rfl, ho⟩))
  · rintro ⟨hdefault, hconstraint, hoptional⟩ k
    simp [hdefault, hconstraint, hoptional]

/-- The modifiers that have been read are spelled in their own order. -/
lemma Modified.Reads.standsFor {bare : PropertyKind} {taken : List Word} {m : Modified}
    (h : m.Reads bare taken) : StandsFor taken m.words m.kind.numerals := by
  refine .neutral h.neutral (Modified.forall_mem_words (fun words hd => ?_) ?_ rfl)
    (Modified.forall_mem_words (fun words hd => ?_) (fun c hc => ?_) (by simp)) h.eq_nil_iff
  · simpa [modifierWords, ImportMode.isNeutral] using fun w hw => (isNeutral_default hd w hw).1
  · exact fun c hc => isNeutral_constraint hc
  · have hne : ∀ w ∈ words, w.kind ≠ .regex := fun w hw => (isNeutral_default hd w hw).2
    simpa [modifierWords, or_imp, forall_and] using fun w hw hregex => absurd hregex (hne w hw)
  · simpa [modifierWords, or_imp, forall_and] using h.patterns c hc

lemma typeWords_kindOfType (type : String) :
    (kindOfType type).typeWords = [.keyword .propertyKw, .name type] := by
  unfold kindOfType
  split <;> rfl

/-- The kind of a property with a type, before its modifiers. -/
lemma reads_kindOfType {type : String} (h : IsTypeName type) :
    Modified.Reads (kindOfType type) [] ⟨[], false, kindOfType type⟩ := by
  have hbare : ∀ kind : PropertyKind, kind.IsSpellable → kind.sourceForm = kind →
      kind.default? = none → kind.constraint? = none → kind.numerals = [] →
      Modified.Reads kind [] ⟨[], false, kind⟩ := by
    intro kind hspellable hsource hdefault hconstraint hnumerals
    refine ⟨rfl, ?_, hspellable, hsource, by simp, by simp [hdefault, hconstraint],
      by simp [hconstraint]⟩
    rw [hnumerals]
    exact .nil
  -- only the names of the built-in types lead to another kind than an object
  by_cases hprimitive : type ∈ primitiveNames
  · simp only [primitiveNames, List.mem_cons, List.not_mem_nil, or_false] at hprimitive
    rcases hprimitive with rfl | rfl | rfl | rfl | rfl | rfl <;>
      exact hbare _ (by simp [kindOfType, PropertyKind.IsSpellable]) rfl rfl rfl rfl
  · rw [kindOfType_eq_object hprimitive]
    exact hbare _ ⟨h, hprimitive⟩ rfl rfl rfl rfl

lemma reads_relationship {type : String} (h : IsTypeName type) :
    Modified.Reads (.relationship ⟨type, none⟩) [] ⟨[], false, .relationship ⟨type, none⟩⟩ :=
  ⟨rfl, .nil, h, rfl, by simp, by simp [PropertyKind.default?, PropertyKind.constraint?],
    by simp [PropertyKind.constraint?]⟩

lemma yields_modifiers (type : String) {bare : PropertyKind}
    (hbare : Modified.Reads bare [] ⟨[], false, bare⟩) :
    Yields (modifiers type bare) first (Modified.Reads bare) := by
  have hloop : Yields (modifiers type bare) first _ :=
    .foldWhile (I := Modified.Reads bare) (fun _ _ h => yields_modifier type h) hbare
  exact hloop

/-- The property is its own source form. -/
lemma yields_property :
    Yields property first
      (Tells Property.words Property.numerals fun p => p.IsSpellable ∧ p.sourceForm = p) := by
  refine .bind yields_decorators fun ds decorators hdecorators => ?_
  refine .expect (by simp) fun marker hmarker _ => ?_
  refine .bind yields_typeName ?_
  rintro type _ ⟨rfl, htype⟩
  refine .bind yields_arrayMarker ?_
  rintro isArray array ⟨harray, -⟩
  refine .bind yields_anyName ?_
  rintro name _ ⟨rfl, hname⟩
  obtain ⟨hheader, hspellable, hsource⟩ := hdecorators name
  -- marker and type are the words of the kind, before its modifiers
  have hbare : ∃ bare, (if marker.kind = .symbol .arrow then PropertyKind.relationship ⟨type, none⟩
      else kindOfType type) = bare ∧ Modified.Reads bare [] ⟨[], false, bare⟩ ∧
      ∃ w, bare.typeWords = [w, .name type] ∧ w.kind = marker.kind ∧ w.isNumber = false ∧
        w.kind ≠ .regex := by
    split
    · next harrow =>
        exact ⟨_, rfl, reads_relationship htype, _, rfl, harrow.symm, rfl, by simp⟩
    · next harrow =>
        have hkind : marker.kind = .keyword .propertyKw := by simpa [harrow] using hmarker
        exact ⟨_, rfl, reads_kindOfType htype, _, typeWords_kindOfType type, hkind.symm, rfl,
          by simp⟩
  obtain ⟨bare, hif, hreads, w, htypeWords, hkind, hnumber, hregex⟩ := hbare
  simp only [hif]
  refine .bind (yields_modifiers type hreads) fun m modifiers hm => .pure ⟨?_, ?_, ?_⟩
  · have hwords := hheader.append (.cons (w := marker.word) hkind.symm hnumber hregex
      ((standsFor_name type).append (harray.append ((standsFor_name name).append hm.standsFor))))
    simpa [Property.words, Modified.words, Property.numerals, hm.typeWords, htypeWords] using hwords
  · exact ⟨hname, hspellable, hm.spellable⟩
  · simp [Property.sourceForm, hsource, hm.sourceForm]

end Parser

end Concerto
