import Concerto.Proofs.Token.Scanning

/-!
Names as they are checked, and the words that are scanned.

* `isIdentifier_iff_tokenize`: a text is an identifier if and only if it is scanned as one word that is
  not reserved.

A word is scanned by its units, as it is checked, but only where nothing else begins: neither a gap nor
a symbol, a string or a number.
-/

namespace Concerto

/-- Only the two truth values are keywords that are reserved. -/
lemma not_truthValue {s : String} (h : isIdentifier s = true) {k : Keyword}
    (hk : Keyword.ofText? s = some k) : k ≠ .trueKw ∧ k ≠ .falseKw := by
  have htext := Keyword.text_of_ofText? hk
  constructor <;>
    · rintro rfl
      rw [← htext] at h
      exact absurd h (by decide +kernel)

/-- A text is an identifier if and only if it is no `null` and is scanned as a single token with the
text for its value, a name or any keyword but the two truth values. -/
theorem isIdentifier_iff_tokenize (s : String) :
    isIdentifier s = true ↔ s ≠ "null" ∧ ∃ tokens kind, tokenize s = .ok tokens ∧
      tokens.map Token.word = [⟨kind, s⟩, .eof] ∧
      (kind = .identifier ∨ ∃ k : Keyword, kind = .keyword k ∧ k ≠ .trueKw ∧ k ≠ .falseKw) := by
  constructor
  · intro h
    have hname : unitsFormName (NameUnit.ofChars s.toList) = true := by
      simp only [isIdentifier, Bool.and_eq_true] at h
      exact h.2
    refine ⟨by rintro rfl; exact absurd h (by decide +kernel), ?_⟩
    have hscans : Scans True (s.toList ++ []) [.name s] [] := .name hname (by simp [EndsName])
    rw [List.append_nil] at hscans
    cases hk : Keyword.ofText? s with
    | none =>
        rw [Word.name_of_none hk] at hscans
        obtain ⟨tokens, htokens, hwords⟩ := hscans.exists_tokenize rfl
        exact ⟨tokens, .identifier, htokens, hwords, .inl rfl⟩
    | some k =>
        have hword : Word.name s = ⟨.keyword k, s⟩ := by simp [Word.name, hk]
        rw [hword] at hscans
        obtain ⟨tokens, htokens, hwords⟩ := hscans.exists_tokenize rfl
        exact ⟨tokens, .keyword k, htokens, hwords, .inr ⟨k, rfl, not_truthValue h hk⟩⟩
  · rintro ⟨hnull, tokens, kind, htokens, hwords, hkind⟩
    have hwords : tokens.map Token.word = [⟨kind, s⟩] ++ [.eof] := hwords
    have hscanned := isScanned_of_tokenize htokens hwords ⟨kind, s⟩ (by simp)
    obtain ⟨hname, htruth⟩ : unitsFormName (NameUnit.ofChars s.toList) = true ∧
        Keyword.ofText? s ≠ some .trueKw ∧ Keyword.ofText? s ≠ some .falseKw := by
      rcases hkind with rfl | ⟨k, rfl, htrue, hfalse⟩
      · obtain ⟨hname, hnone⟩ := hscanned
        exact ⟨hname, by simp [hnone]⟩
      · have hs : s = k.text := hscanned
        rw [hs, Keyword.ofText?_text]
        exact ⟨unitsFormName_text k, by simpa using htrue, by simpa using hfalse⟩
    have hreserved : s ∉ reservedWords := by
      simp only [reservedWords, List.mem_cons, List.not_mem_nil, or_false, not_or]
      refine ⟨hnull, ?_, ?_⟩
      · rintro rfl
        exact htruth.1 rfl
      · rintro rfl
        exact htruth.2 rfl
    simp [isIdentifier, hname, hreserved]

end Concerto
