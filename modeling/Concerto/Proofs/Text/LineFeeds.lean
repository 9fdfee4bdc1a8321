import Concerto.Proofs.Outcome
import Concerto.Text.Encoding

/-!
Texts without carriage returns.

* `NoReturn`: no character is a carriage return;
* `Text.noReturn_of_ofBytes`: so it is in the text of every file;
* `Text.ofBytes_toByteArray`: and a text of that kind is the text of a file that it has been written to.
-/

namespace Concerto

/-- No character of the text is a carriage return. -/
def NoReturn (cs : List Char) : Prop := ∀ c ∈ cs, c ≠ '\r'

instance (cs : List Char) : Decidable (NoReturn cs) :=
  List.decidableBAll (· ≠ '\r') cs

lemma noReturn_append {cs ds : List Char} : NoReturn (cs ++ ds) ↔ NoReturn cs ∧ NoReturn ds :=
  List.forall_mem_append

lemma noReturn_cons {c : Char} {cs : List Char} : NoReturn (c :: cs) ↔ c ≠ '\r' ∧ NoReturn cs :=
  List.forall_mem_cons

lemma noReturn_nil : NoReturn [] := by simp [NoReturn]

namespace Text

/-- Where there were carriage returns, there are line feeds. -/
lemma noReturn_withLineFeeds (cs : List Char) : NoReturn (withLineFeeds cs) := by
  fun_induction withLineFeeds cs with
  | case1 => exact noReturn_nil
  | case2 cs ih => exact noReturn_cons.mpr ⟨by decide, ih⟩
  | case3 cs _ ih => exact noReturn_cons.mpr ⟨by decide, ih⟩
  | case4 c cs _ hc ih => exact noReturn_cons.mpr ⟨hc, ih⟩

/-- The text of a file has no carriage return. -/
lemma noReturn_of_ofBytes {bytes : ByteArray} {text : String} (h : ofBytes bytes = .ok text) :
    NoReturn text.toList := by
  obtain ⟨decoded, -, rfl⟩ := map_eq_ok.mp h
  rw [String.toList_ofList]
  exact noReturn_withLineFeeds _

/-- A text without carriage returns is read as it was written. -/
lemma ofBytes_toByteArray {text : String} (h : NoReturn text.toList) :
    ofBytes text.toByteArray = .ok text := by
  have hreturn : '\r' ∉ text.toList := fun hmem => h '\r' hmem rfl
  rw [ofBytes, decode_toByteArray]
  simp only [Except.map, withLineFeeds_of_not_mem hreturn, String.ofList_toList]

end Text

end Concerto
