import Concerto.Proofs.Model.Words
import Concerto.Proofs.Token.Yields

/-!
Words of a source text and the words that what they were read as is spelled with.

* `StandsFor`: some words stand for others, which leave the same mode, have no other patterns, and have
  some numbers;
* `Neutral`: words that have nothing to do with imports, so that their order does not matter;
* `Parser.Tells`: what was read, its words and its numbers.

The words that are read and the words that are spelled differ: the former may have clauses and
modifiers in another order, list several names in one import, and write numbers in other ways.
-/

namespace Concerto

/-! ### Modes -/

namespace ImportMode

/-- The mode after a token that has nothing to do with imports. -/
def settled : ImportMode → ImportMode
  | outside => outside
  | _ => inside

/-- A token of the kind has nothing to do with imports. -/
def isNeutral : TokenKind → Bool
  | .keyword .importKw | .keyword .fromKw | .keyword .propertyKw | .keyword .namespaceKw => false
  | .symbol .dot | .symbol .openBrace | .symbol .arrow | .symbol .atSign => false
  | .uri => false
  | _ => true

lemma next_of_isNeutral {kind : TokenKind} (h : isNeutral kind = true) (m : ImportMode) :
    m.next kind = m.settled := by
  cases kind with
  | keyword k => cases k <;> first | (simp [isNeutral] at h; done) | (cases m <;> rfl)
  | symbol s => cases s <;> first | (simp [isNeutral] at h; done) | (cases m <;> rfl)
  | uri => simp [isNeutral] at h
  | _ => cases m <;> rfl

lemma ne_uri_of_isNeutral {kind : TokenKind} (h : isNeutral kind = true) : kind ≠ .uri := by
  rintro rfl
  simp [isNeutral] at h

/-- No location is expected after such a token. -/
lemma settled_ne_afterFrom (m : ImportMode) : m.settled ≠ .afterFrom := by
  cases m <;> simp [settled]

lemma settled_settled (m : ImportMode) : m.settled.settled = m.settled := by
  cases m <;> rfl

/-- A token that is no location may stand anywhere but after the `from` of an import. -/
lemma run_cons {kind : TokenKind} (hkind : kind ≠ .uri) (m : ImportMode) (kinds : List TokenKind) :
    m.run (kind :: kinds) = if m = .afterFrom then none else (m.next kind).run kinds := by
  by_cases hm : m = .afterFrom <;> simp [run, admits, hkind, hm]

/-- Several tokens that have nothing to do with imports are like one. -/
lemma run_neutral {kinds : List TokenKind} (h : ∀ k ∈ kinds, isNeutral k = true) (hne : kinds ≠ [])
    (m : ImportMode) : m.run kinds = if m = .afterFrom then none else some m.settled := by
  induction kinds generalizing m with
  | nil => exact absurd rfl hne
  | cons k ks ih =>
      have hk := h k (by simp)
      rw [run_cons (ne_uri_of_isNeutral hk), next_of_isNeutral hk]
      by_cases hks : ks = []
      · rw [hks]
        rfl
      · rw [ih (fun k hk => h k (by simp [hk])) hks, if_neg m.settled_ne_afterFrom, settled_settled]

/-- A location is expected right after a `from` only. -/
lemma next_ne_afterFrom {kind : TokenKind} (hkind : kind ≠ .keyword .fromKw) (m : ImportMode) :
    m.next kind ≠ .afterFrom := by
  cases kind with
  | keyword k =>
      cases k with
      | fromKw => exact absurd rfl hkind
      | _ => cases m <;> simp [next]
  | symbol s => cases s <;> cases m <;> simp [next]
  | _ => cases m <;> simp [next]

lemma ne_afterFrom_of_run {m m' : ImportMode} {kinds : List TokenKind} {kind : TokenKind}
    (hkind : kind ≠ .keyword .fromKw) (h : m.run (kinds ++ [kind]) = some m') :
    m' ≠ .afterFrom := by
  rw [run_append] at h
  obtain ⟨m₁, -, hlast⟩ := Option.bind_eq_some_iff.mp h
  simp only [run, Option.ite_none_right_eq_some, Option.some.injEq] at hlast
  rw [← hlast.2]
  exact next_ne_afterFrom hkind m₁

/-- Tokens that leave the same mode when they stand there twice do so however often they are
repeated. -/
lemma run_flatMap {γ : Type} {items : List γ} (hne : items ≠ []) {words : γ → List Word}
    {kinds : List TokenKind} (hkinds : ∀ c ∈ items, Word.kinds (words c) = kinds)
    {m m' : ImportMode} (h : m.run kinds = some m') (hagain : m'.run kinds = some m') :
    m.run (Word.kinds (items.flatMap words)) = some m' := by
  induction items generalizing m with
  | nil => exact absurd rfl hne
  | cons c cs ih =>
      rw [List.flatMap_cons, Word.kinds_append, run_append, hkinds c (by simp), h, Option.bind_some]
      by_cases hcs : cs = []
      · rw [hcs]
        rfl
      · exact ih hcs (fun d hd => hkinds d (by simp [hd])) hagain

end ImportMode

/-! ### Words that stand for others -/

namespace Word

/-- The word is a number. -/
def isNumber (w : Word) : Bool := w.kind = .integer || w.kind = .float

end Word

/-- The words have nothing to do with imports, and `numerals` are the numbers among them. -/
structure Neutral (taken : List Word) (numerals : List Numeral) : Prop where
  neutral : ∀ w ∈ taken, ImportMode.isNeutral w.kind = true
  count : taken.countP Word.isNumber = numerals.length
  readable : ∀ i, .integer i ∈ numerals → IsReadable i

namespace Neutral

variable {taken taken' : List Word} {numerals numerals' : List Numeral}

lemma nil : Neutral [] [] := ⟨by simp, rfl, by simp⟩

lemma append (h : Neutral taken numerals) (h' : Neutral taken' numerals') :
    Neutral (taken ++ taken') (numerals ++ numerals') where
  neutral := List.forall_mem_append.mpr ⟨h.neutral, h'.neutral⟩
  count := by rw [List.countP_append, List.length_append, h.count, h'.count]
  readable i hi := (List.mem_append.mp hi).elim (h.readable i) (h'.readable i)

/-- A word that is no number before others. -/
lemma cons {w : Word} (hw : ImportMode.isNeutral w.kind = true) (hnumber : w.isNumber = false)
    (h : Neutral taken numerals) : Neutral (w :: taken) numerals where
  neutral := List.forall_mem_cons.mpr ⟨hw, h.neutral⟩
  count := by rw [List.countP_cons, hnumber, h.count]; simp
  readable := h.readable

/-- A word of a kind that is no number before others. -/
lemma kind {w : Word} {kind : TokenKind} (hw : w.kind = kind)
    (hneutral : ImportMode.isNeutral kind = true)
    (hnumber : Word.isNumber ⟨kind, ""⟩ = false) (h : Neutral taken numerals) :
    Neutral (w :: taken) numerals := by
  subst hw
  exact .cons hneutral hnumber h

/-- A number. -/
lemma numeral {w : Word} (hw : w.kind = .integer ∨ w.kind = .float) (n : Numeral)
    (hreadable : ∀ i, n = .integer i → IsReadable i) : Neutral [w] [n] where
  neutral := by
    rw [List.forall_mem_singleton]
    rcases hw with h | h <;> rw [h] <;> rfl
  count := by rcases hw with h | h <;> simp [Word.isNumber, h]
  readable i hi := hreadable i (List.mem_singleton.mp hi).symm

/-- The order of the numbers does not matter. -/
lemma perm (h : Neutral taken numerals) (hperm : numerals'.Perm numerals) :
    Neutral taken numerals' where
  neutral := h.neutral
  count := by rw [h.count, hperm.length_eq]
  readable i hi := h.readable i (hperm.mem_iff.mp hi)

end Neutral

/-- What is read as `taken` is spelled as `spelled`: it leaves the same mode, its patterns are among
those of `taken`, and `numerals` are the numbers in it. -/
structure StandsFor (taken spelled : List Word) (numerals : List Numeral) : Prop where
  mode : ∀ m m' : ImportMode, m.run (Word.kinds taken) = some m' →
    m.run (Word.kinds spelled) = some m'
  patterns : ∀ w ∈ spelled, w.kind = .regex → w ∈ taken
  count : taken.countP Word.isNumber = numerals.length
  readable : ∀ i, .integer i ∈ numerals → IsReadable i

namespace StandsFor

variable {taken taken' spelled spelled' : List Word} {numerals numerals' : List Numeral}

lemma nil : StandsFor [] [] [] := ⟨fun _ _ => id, by simp, rfl, by simp⟩

lemma append (h : StandsFor taken spelled numerals) (h' : StandsFor taken' spelled' numerals') :
    StandsFor (taken ++ taken') (spelled ++ spelled') (numerals ++ numerals') where
  mode m m'' hrun := by
    rw [Word.kinds_append, ImportMode.run_append, Option.bind_eq_some_iff] at hrun ⊢
    obtain ⟨m', hfirst, hsecond⟩ := hrun
    exact ⟨m', h.mode m m' hfirst, h'.mode m' m'' hsecond⟩
  patterns := List.forall_mem_append.mpr
    ⟨fun w hw hregex => List.mem_append_left _ (h.patterns w hw hregex),
      fun w hw hregex => List.mem_append_right _ (h'.patterns w hw hregex)⟩
  count := by rw [List.countP_append, List.length_append, h.count, h'.count]
  readable i hi := by
    rcases List.mem_append.mp hi with hi | hi
    · exact h.readable i hi
    · exact h'.readable i hi

/-- A word that is no number and no pattern. -/
lemma single {w w' : Word} (hkind : w.kind = w'.kind) (hnumber : w'.isNumber = false)
    (hregex : w'.kind ≠ .regex) : StandsFor [w] [w'] [] where
  mode m m' hrun := by rwa [Word.kinds_cons, ← hkind]
  patterns := List.forall_mem_singleton.mpr fun h => absurd h hregex
  count := by
    rw [List.length_nil, List.countP_eq_zero, List.forall_mem_singleton, Word.isNumber, hkind]
    simpa [Word.isNumber] using hnumber
  readable i hi := by simp at hi

/-- A word that is no number and no pattern before others. -/
lemma cons {w w' : Word} (hkind : w.kind = w'.kind) (hnumber : w'.isNumber = false)
    (hregex : w'.kind ≠ .regex) (h : StandsFor taken spelled numerals) :
    StandsFor (w :: taken) (w' :: spelled) numerals :=
  (single hkind hnumber hregex).append h

/-- The words may be spelled in another way that leaves the same mode and has the same patterns. -/
lemma respell (h : StandsFor taken spelled numerals)
    (hmode : ∀ m m' : ImportMode, m.run (Word.kinds spelled) = some m' →
      m.run (Word.kinds spelled') = some m')
    (hpatterns : ∀ w ∈ spelled', w.kind = .regex → w ∈ spelled) :
    StandsFor taken spelled' numerals :=
  { h with
    mode := fun m m' hrun => hmode m m' (h.mode m m' hrun)
    patterns := fun w hw hregex => h.patterns w (hpatterns w hw hregex) hregex }

/-- A symbol before other words. -/
lemma symbol {w : Word} {s : Symbol} (hw : w.kind = .symbol s)
    (h : StandsFor taken spelled numerals) :
    StandsFor (w :: taken) (.symbol s :: spelled) numerals :=
  .cons hw rfl (by simp) h

/-- A keyword before other words. -/
lemma keyword {w : Word} {k : Keyword} (hw : w.kind = .keyword k)
    (h : StandsFor taken spelled numerals) :
    StandsFor (w :: taken) (.keyword k :: spelled) numerals :=
  .cons hw rfl (by simp) h

/-- Words that have nothing to do with imports, and others. -/
lemma neutral (htaken : Neutral taken numerals)
    (hspelled : ∀ w ∈ spelled, ImportMode.isNeutral w.kind = true)
    (hpatterns : ∀ w ∈ spelled, w.kind = .regex → w ∈ taken)
    (hnil : taken = [] ↔ spelled = []) : StandsFor taken spelled numerals where
  mode m m' hrun := by
    by_cases h : taken = []
    · rw [hnil.mp h]
      rwa [h] at hrun
    · have hne : ∀ words : List Word, words ≠ [] → Word.kinds words ≠ [] := by
        intro words hwords
        simpa [Word.kinds] using hwords
      rw [ImportMode.run_neutral (by simpa [Word.kinds] using hspelled)
        (hne _ fun hs => h (hnil.mpr hs))]
      rwa [ImportMode.run_neutral (by simpa [Word.kinds] using htaken.neutral) (hne _ h)] at hrun
  patterns := hpatterns
  count := htaken.count
  readable := htaken.readable

end StandsFor

/-- The kind of a number in a source text, and of the word for a double that is not finite, has
nothing to do with imports. -/
lemma Numeral.isNeutral_word (n : Numeral) : ImportMode.isNeutral n.word.kind = true := by
  cases n with
  | integer i => rfl
  | double d =>
      simp only [Numeral.word, Numeral.kind]
      split <;> rfl

/-- Nor is it the kind of a pattern. -/
lemma Numeral.kind_word_ne_regex (n : Numeral) : n.word.kind ≠ .regex := by
  cases n with
  | integer i => simp [Numeral.word, Numeral.kind]
  | double d =>
      simp only [Numeral.word, Numeral.kind]
      split <;> simp

namespace Parser

/-- What is read is spelled as `words` and has the numbers `numerals`, and `property` holds for
it. -/
def Tells {α : Type} (words : α → List Word) (numerals : α → List Numeral) (property : α → Prop)
    (taken : List Word) (a : α) : Prop :=
  StandsFor taken (words a) (numerals a) ∧ property a

namespace Yields

variable {α : Type} {first : Token → Prop} {words : α → List Word}
  {numerals : α → List Numeral} {property : α → Prop}

/-- Items that stand for others, one after another. -/
lemma manyTells {continues : TokenKind → Bool} {item : Parser α}
    (hitem : Yields item AnyToken (Tells words numerals property)) :
    Yields (Parser.many continues item) first
      (Tells (List.flatMap words) (List.flatMap numerals) (∀ a ∈ ·, property a)) := by
  refine .many hitem ⟨.nil, by simp⟩ ?_
  rintro taken taken' a as ⟨hstands, ha⟩ ⟨hstands', has⟩
  exact ⟨hstands.append hstands', List.forall_mem_cons.mpr ⟨ha, has⟩⟩

/-- Items that stand for others, with separators between them. -/
lemma separatedByTells {separator : Symbol} {item : Parser α}
    (hitem : Yields item AnyToken (Tells words numerals property)) :
    Yields (Parser.separatedBy separator item) first
      (Tells (fun as => separatedWords separator (as.map words)) (List.flatMap numerals)
        fun as => as ≠ [] ∧ ∀ a ∈ as, property a) := by
  have hlist : Yields (Parser.separatedBy separator item) first _ :=
    .separatedBy (R := Tells (List.flatMap fun a => .symbol separator :: words a)
      (List.flatMap numerals) (∀ a ∈ ·, property a)) hitem ⟨.nil, by simp⟩ (by
        rintro w taken taken' a as hw ⟨hstands, ha⟩ ⟨hstands', has⟩
        exact ⟨.symbol hw (hstands.append hstands'), List.forall_mem_cons.mpr ⟨ha, has⟩⟩)
  refine hlist.mono ?_
  rintro _ _ ⟨a, as, head, others, rfl, rfl, ⟨hstands, ha⟩, hstands', has⟩
  refine ⟨?_, by simp, List.forall_mem_cons.mpr ⟨ha, has⟩⟩
  simpa only [List.map_cons, separatedWords, List.flatMap_map, List.flatMap_cons]
    using hstands.append hstands'

end Yields

end Parser

end Concerto
