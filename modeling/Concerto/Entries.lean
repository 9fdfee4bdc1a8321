/-!
Values under keys, in the order in which the keys came up.

* `Entries.set`: a key is given a value; a key that is there keeps its place;
* `lookup_set`: what is found after that;
* `lookup_of_mem`: what is found of entries with different keys;
* `set_of_notMem_keys`: the entries after that, if the key is new;
* `mem_keys_set`: the keys after that.
-/

namespace Concerto.Entries

variable {α : Type}

/-- The entries with a value put under a key, in the place of the key or else at the end. -/
def set (key : String) (value : α) : List (String × α) → List (String × α)
  | [] => [(key, value)]
  | (k, v) :: entries =>
    if k = key then (k, value) :: entries else (k, v) :: set key value entries

/-- The keys in their order. -/
def keys (entries : List (String × α)) : List String := entries.map Prod.fst

theorem lookup_set (key : String) (value : α) (entries : List (String × α)) (k : String) :
    (set key value entries).lookup k = if k = key then some value else entries.lookup k := by
  induction entries with
  | nil => by_cases h : k = key <;> simp [set, List.lookup_cons, h, beq_eq_false_iff_ne.2]
  | cons entry entries ih =>
    obtain ⟨l, v⟩ := entry
    by_cases hl : l = key
    · subst hl
      by_cases h : k = l <;> simp [set, List.lookup_cons, h, beq_eq_false_iff_ne.2]
    · by_cases h : k = l
      · subst h
        simp [set, hl]
      · simp [set, List.lookup_cons, hl, beq_eq_false_iff_ne.2 h, ih]

/-- If no key comes up twice, every entry is found under its key. -/
theorem lookup_of_mem {entries : List (String × α)} (h : (keys entries).Nodup) {key : String}
    {value : α} (hmem : (key, value) ∈ entries) : entries.lookup key = some value := by
  induction entries with
  | nil => cases hmem
  | cons entry entries ih =>
    obtain ⟨k, v⟩ := entry
    obtain ⟨hnew, hrest⟩ := List.nodup_cons.1 h
    rcases List.mem_cons.1 hmem with heq | hmem'
    · cases heq
      simp
    · have hne : key ≠ k := by
        rintro rfl
        exact hnew (List.mem_map.2 ⟨_, hmem', rfl⟩)
      simp [List.lookup_cons, beq_eq_false_iff_ne.2 hne, ih hrest hmem']

/-- A new key comes after all others. -/
theorem set_of_notMem_keys {key : String} {value : α} {entries : List (String × α)}
    (h : key ∉ keys entries) : set key value entries = entries ++ [(key, value)] := by
  induction entries with
  | nil => rfl
  | cons entry entries ih =>
    simp only [keys, List.map_cons, List.mem_cons, not_or] at h ih
    rw [set, if_neg (Ne.symm h.1), ih h.2]
    rfl

theorem mem_keys_set {key : String} {value : α} {entries : List (String × α)} {k : String} :
    k ∈ keys (set key value entries) ↔ k = key ∨ k ∈ keys entries := by
  induction entries with
  | nil => simp [set, keys]
  | cons entry entries ih =>
    obtain ⟨l, v⟩ := entry
    simp only [keys, List.map_cons, List.mem_cons] at ih ⊢
    by_cases hl : l = key
    · simp [set, hl]
    · simp only [set, hl, if_false, List.map_cons, List.mem_cons, ih]
      grind

end Concerto.Entries
