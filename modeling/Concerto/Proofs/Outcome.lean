import Mathlib.Data.List.Forall2
import Mathlib.Tactic.Common

/-!
Steps that may fail, one after the other.

* `bind_eq_ok`, `mapM_eq_ok`, `forM_eq_ok`: when steps in sequence succeed;
* `bind_eq_error`, `map_eq_error`, `mapError_eq_error`: when they fail, and with which error;
* `forM_eq_map_mapM`: a check that drops what becomes of the items;
* `foldlM_congr`: steps that do the same with every item do the same in sequence;
* `exists_of_mapM_eq_error`, `exists_of_forM_eq_error`: steps in sequence fail like one of them;
* `exists_of_forall₂_right`, `exists_forall₂`, `map_eq_map_of_forall₂`: lists of related items.
-/

namespace Concerto

variable {ε ε' α β γ : Type}

/-! ### Steps in sequence -/

lemma bind_eq_ok {x : Except ε α} {f : α → Except ε β} {b : β} :
    x >>= f = .ok b ↔ ∃ a, x = .ok a ∧ f a = .ok b := by
  cases x <;> simp [bind, Except.bind]

lemma mapError_eq_ok {x : Except ε α} {f : ε → ε'} {a : α} :
    x.mapError f = .ok a ↔ x = .ok a := by
  cases x <;> simp [Except.mapError]

lemma map_eq_ok {x : Except ε α} {f : α → β} {b : β} :
    x.map f = .ok b ↔ ∃ a, x = .ok a ∧ f a = b := by
  cases x <;> simp [Except.map]

lemma bind_eq_error {x : Except ε α} {f : α → Except ε β} {e : ε} :
    x >>= f = .error e ↔ x = .error e ∨ ∃ a, x = .ok a ∧ f a = .error e := by
  cases x <;> simp [bind, Except.bind]

lemma mapError_eq_error {x : Except ε α} {f : ε → ε'} {e' : ε'} :
    x.mapError f = .error e' ↔ ∃ e, x = .error e ∧ f e = e' := by
  cases x <;> simp [Except.mapError]

lemma map_eq_error {x : Except ε α} {f : α → β} {e : ε} :
    x.map f = .error e ↔ x = .error e := by
  cases x <;> simp [Except.map]

/-- A step for every item of a list. -/
lemma mapM_eq_ok {f : α → Except ε β} {as : List α} {bs : List β} :
    as.mapM f = .ok bs ↔ List.Forall₂ (fun a b => f a = .ok b) as bs := by
  induction as generalizing bs with
  | nil =>
      rw [List.mapM_nil, List.forall₂_nil_left_iff]
      exact ⟨fun h => (Except.ok.inj h).symm, fun h => h ▸ rfl⟩
  | cons a as ih =>
      rw [List.mapM_cons, bind_eq_ok, List.forall₂_cons_left_iff]
      constructor
      · rintro ⟨b, hb, hbs⟩
        obtain ⟨bs', hbs', hcons⟩ := bind_eq_ok.mp hbs
        exact ⟨b, bs', hb, ih.mp hbs', (Except.ok.inj hcons).symm⟩
      · rintro ⟨b, bs', hb, hbs', rfl⟩
        exact ⟨b, hb, bind_eq_ok.mpr ⟨bs', ih.mpr hbs', rfl⟩⟩

/-- A check of every item of a list. -/
lemma forM_eq_ok {f : α → Except ε PUnit} {as : List α} :
    as.forM f = .ok () ↔ ∀ a ∈ as, f a = .ok () := by
  induction as with
  | nil => simp [pure, Except.pure]
  | cons a as ih =>
      show (f a >>= fun _ => as.forM f) = .ok () ↔ _
      rw [bind_eq_ok, List.forall_mem_cons, ih]
      exact ⟨fun ⟨_, h, h'⟩ => ⟨h, h'⟩, fun ⟨h, h'⟩ => ⟨(), h, h'⟩⟩

/-- A check of every item that drops what a step makes of the item. -/
lemma forM_eq_map_mapM {f : α → Except ε β} {check : α → Except ε Unit} {as : List α}
    (h : ∀ a ∈ as, check a = (f a).map fun _ => ()) :
    as.forM check = (as.mapM f).map fun _ => () := by
  induction as with
  | nil => rfl
  | cons a as ih =>
      rw [List.forall_mem_cons] at h
      calc (a :: as).forM check
          = check a >>= fun _ => as.forM check := rfl
        _ = ((f a).map fun _ => ()) >>= fun _ => (as.mapM f).map fun _ => () := by
            rw [h.1, ih h.2]
        _ = ((a :: as).mapM f).map fun _ => () := by
            rw [List.mapM_cons]
            cases f a with
            | error e => rfl
            | ok b => cases as.mapM f <;> rfl

/-- Steps that do the same with every item do the same with all of them. -/
lemma foldlM_congr {f g : β → α → Except ε β} {as : List α} {b : β}
    (h : ∀ a ∈ as, ∀ b, f b a = g b a) : as.foldlM f b = as.foldlM g b := by
  induction as generalizing b with
  | nil => rfl
  | cons a as ih =>
      rw [List.forall_mem_cons] at h
      rw [List.foldlM_cons, List.foldlM_cons, h.1 b]
      exact bind_congr fun b' => ih h.2

/-- Steps in sequence fail like the first of them that fails. -/
lemma exists_of_mapM_eq_error {f : α → Except ε β} {as : List α} {e : ε}
    (h : as.mapM f = .error e) : ∃ a ∈ as, f a = .error e := by
  induction as with
  | nil => cases h
  | cons a as ih =>
      rw [List.mapM_cons] at h
      cases hfirst : f a with
      | error e' =>
          rw [hfirst] at h
          cases h
          exact ⟨a, List.mem_cons_self, hfirst⟩
      | ok b =>
          cases hothers : as.mapM f with
          | error e' =>
              rw [hfirst, hothers] at h
              cases h
              obtain ⟨a', ha', hfail⟩ := ih hothers
              exact ⟨a', List.mem_cons_of_mem a ha', hfail⟩
          | ok bs =>
              rw [hfirst, hothers] at h
              cases h

/-- A check of every item fails like the check of one of them. -/
lemma exists_of_forM_eq_error {f : α → Except ε Unit} {as : List α} {e : ε}
    (h : as.forM f = .error e) : ∃ a ∈ as, f a = .error e := by
  have hmap : as.forM f = (as.mapM f).map fun _ => () := by
    refine forM_eq_map_mapM fun a _ => ?_
    cases f a <;> rfl
  rw [hmap, map_eq_error] at h
  exact exists_of_mapM_eq_error h

/-! ### Related items -/

/-- Every result is that of an item. -/
lemma exists_of_forall₂_right {R : α → β → Prop} {as : List α} {bs : List β}
    (h : List.Forall₂ R as bs) : ∀ b ∈ bs, ∃ a ∈ as, R a b := by
  induction h with
  | nil => simp
  | cons hab _ ih =>
      rw [List.forall_mem_cons]
      refine ⟨⟨_, List.mem_cons_self, hab⟩, fun b hb => ?_⟩
      obtain ⟨a, ha, hR⟩ := ih b hb
      exact ⟨a, List.mem_cons_of_mem _ ha, hR⟩

/-- Every item has a result. -/
lemma exists_of_forall₂_left {R : α → β → Prop} {as : List α} {bs : List β}
    (h : List.Forall₂ R as bs) : ∀ a ∈ as, ∃ b ∈ bs, R a b :=
  exists_of_forall₂_right h.flip

/-- If every item can have a result, all can have results. -/
lemma exists_forall₂ {R : α → β → Prop} {as : List α} (h : ∀ a ∈ as, ∃ b, R a b) :
    ∃ bs, List.Forall₂ R as bs := by
  induction as with
  | nil => exact ⟨[], .nil⟩
  | cons a as ih =>
      obtain ⟨⟨b, hb⟩, has⟩ := List.forall_mem_cons.mp h
      obtain ⟨bs, hbs⟩ := ih has
      exact ⟨b :: bs, .cons hb hbs⟩

/-- Related items may be mapped to the same. -/
lemma map_eq_map_of_forall₂ {f : α → γ} {g : β → γ} {as : List α} {bs : List β}
    (h : List.Forall₂ (fun a b => f a = g b) as bs) : as.map f = bs.map g := by
  induction h with
  | nil => rfl
  | cons hab _ ih => rw [List.map_cons, List.map_cons, hab, ih]

end Concerto
