import Mathlib.Data.List.Basic
import Mathlib.Data.List.Nodup
import Mathlib.Data.List.Perm.Basic
import Mathlib.Data.Finset.Card

/-! Finite maps whose iteration order is not specified.

    A hash table iterates over its entries in an order the library does not promise. The entries
    stand here in iteration order, and a `Placement` says where an insertion leaves them: anywhere,
    with every other entry moved as the table likes. It may answer differently at every insertion, as
    a table does whose bucket count depends on its past. What is proved for every placement holds
    for every table. -/

/-- Where a table puts a new entry at its `n`-th insertion: some permutation of the entries with
    the new one. -/
structure Placement (α : Type*) where
  place : ℕ → α → List α → List α
  perm : ∀ n a l, (place n a l).Perm (a :: l)

/-- New entries go to the back. -/
def Placement.back (α : Type*) : Placement α where
  place _ a l := l ++ [a]
  perm _ a l := List.perm_append_singleton a l

@[simp] theorem Placement.mem_place {α : Type*} (p : Placement α) {n : ℕ} {a b : α} {l : List α} :
    b ∈ p.place n a l ↔ b = a ∨ b ∈ l := by
  rw [(p.perm n a l).mem_iff, List.mem_cons]

/-- A finite map: the entries in iteration order, one for each key, and the insertions so far. -/
@[ext] structure UnorderedMap (κ ν : Type*) where
  entries : List (κ × ν)
  insertions : ℕ
  nodup : (entries.map Prod.fst).Nodup

namespace UnorderedMap

variable {κ ν : Type*}

def empty : UnorderedMap κ ν := ⟨[], 0, by simp⟩

instance : Inhabited (UnorderedMap κ ν) := ⟨empty⟩

def size (m : UnorderedMap κ ν) : ℕ := m.entries.length

def keys (m : UnorderedMap κ ν) : List κ := m.entries.map Prod.fst

def values (m : UnorderedMap κ ν) : List ν := m.entries.map Prod.snd

/-- The values in place, in iteration order, each changed by `f`. -/
def mapValues (f : κ → ν → ν) (m : UnorderedMap κ ν) : UnorderedMap κ ν where
  entries := m.entries.map fun e => (e.1, f e.1 e.2)
  insertions := m.insertions
  nodup := by simpa [Function.comp_def] using m.nodup

@[simp] theorem entries_empty : (empty : UnorderedMap κ ν).entries = [] := rfl

theorem mem_keys_of_mem {m : UnorderedMap κ ν} {e : κ × ν} (h : e ∈ m.entries) : e.1 ∈ m.keys :=
  List.mem_map_of_mem h

/-- What an in-place change leaves: the same keys, each value changed by `f`. -/
theorem mem_mapValues {f : κ → ν → ν} {m : UnorderedMap κ ν} {e : κ × ν} :
    e ∈ (m.mapValues f).entries ↔ ∃ v, (e.1, v) ∈ m.entries ∧ f e.1 v = e.2 := by
  simp only [mapValues, List.mem_map, Prod.exists, Prod.ext_iff]
  constructor
  · rintro ⟨k, v, h, rfl, hv⟩; exact ⟨v, h, hv⟩
  · rintro ⟨v, h, hv⟩; exact ⟨e.1, v, h, rfl, hv⟩

@[simp] theorem keys_mapValues (f : κ → ν → ν) (m : UnorderedMap κ ν) :
    (m.mapValues f).keys = m.keys := by
  simp [keys, mapValues, Function.comp_def]

variable [DecidableEq κ]

def find? (m : UnorderedMap κ ν) (k : κ) : Option ν := m.entries.lookup k

def contains (m : UnorderedMap κ ν) (k : κ) : Bool := (m.find? k).isSome

def erase (m : UnorderedMap κ ν) (k : κ) : UnorderedMap κ ν where
  entries := m.entries.filter fun e => e.1 ≠ k
  insertions := m.insertions
  nodup := m.nodup.sublist (List.filter_sublist.map _)

theorem find?_eq_some {m : UnorderedMap κ ν} {k : κ} {v : ν} :
    m.find? k = some v ↔ (k, v) ∈ m.entries := by
  obtain ⟨es, _, hnd⟩ := m
  simp only [find?]
  induction es with
  | nil => simp
  | cons e es ih =>
    simp only [List.map_cons, List.nodup_cons] at hnd
    obtain ⟨hmem, hnd⟩ := hnd
    rw [List.lookup_cons, List.mem_cons]
    by_cases hk : k = e.1
    · have hnot : (k, v) ∉ es := fun h => hmem (hk ▸ List.mem_map_of_mem h)
      simp [hk ▸ hnot, hk, Prod.ext_iff, eq_comm]
    · have hne : (k == e.1) = false := by simpa using hk
      simp [hne, ih hnd, Prod.ext_iff, hk]

theorem contains_iff {m : UnorderedMap κ ν} {k : κ} : m.contains k ↔ k ∈ m.keys := by
  simp only [contains, Option.isSome_iff_exists, find?_eq_some, keys, List.mem_map, Prod.exists,
    exists_and_right, exists_eq_right]

theorem find?_eq_none {m : UnorderedMap κ ν} {k : κ} : m.find? k = none ↔ k ∉ m.keys := by
  rw [← contains_iff, contains]; simp

/-- `emplace`: a key that is present keeps its value. -/
def emplace (p : Placement (κ × ν)) (m : UnorderedMap κ ν) (k : κ) (v : ν) : UnorderedMap κ ν :=
  if h : m.contains k then m
  else
    { entries := p.place m.insertions (k, v) m.entries
      insertions := m.insertions + 1
      nodup := by
        have hk : k ∉ m.keys := fun hk => h (contains_iff.mpr hk)
        exact ((p.perm _ (k, v) m.entries).map Prod.fst).nodup_iff.mpr
          (List.nodup_cons.mpr ⟨hk, m.nodup⟩) }

/-- Overwrites the value of a key where it stands; nothing if the key is absent. -/
def update (m : UnorderedMap κ ν) (k : κ) (v : ν) : UnorderedMap κ ν :=
  m.mapValues fun k' v' => if k' = k then v else v'

/-- `operator[]` assignment: a key that is present is overwritten where it stands. -/
def assign (p : Placement (κ × ν)) (m : UnorderedMap κ ν) (k : κ) (v : ν) : UnorderedMap κ ν :=
  if m.contains k then m.update k v else m.emplace p k v

@[simp] theorem find?_empty (k : κ) : (empty : UnorderedMap κ ν).find? k = none := rfl

theorem mem_erase {m : UnorderedMap κ ν} {k : κ} {e : κ × ν} :
    e ∈ (m.erase k).entries ↔ e ∈ m.entries ∧ e.1 ≠ k := by
  simp [erase]

theorem mem_keys_erase {m : UnorderedMap κ ν} {k k' : κ} :
    k' ∈ (m.erase k).keys ↔ k' ∈ m.keys ∧ k' ≠ k := by
  simp only [keys, List.mem_map, mem_erase]
  constructor
  · rintro ⟨e, ⟨he, hne⟩, rfl⟩; exact ⟨⟨e, he, rfl⟩, hne⟩
  · rintro ⟨⟨e, he, rfl⟩, hne⟩; exact ⟨e, ⟨he, hne⟩, rfl⟩

theorem mem_emplace (p : Placement (κ × ν)) {m : UnorderedMap κ ν} {k : κ} {v : ν} {e : κ × ν}
    (hk : k ∉ m.keys) : e ∈ (m.emplace p k v).entries ↔ e = (k, v) ∨ e ∈ m.entries := by
  have h : ¬ m.contains k := fun h => hk (contains_iff.mp h)
  rw [emplace, dif_neg h, Placement.mem_place]

theorem find?_emplace (p : Placement (κ × ν)) {m : UnorderedMap κ ν} {k : κ} (v : ν)
    (hk : k ∉ m.keys) (k' : κ) :
    (m.emplace p k v).find? k' = if k' = k then some v else m.find? k' := by
  ext w
  rw [find?_eq_some, mem_emplace p hk, Prod.mk.injEq]
  split
  · rename_i heq
    subst heq
    have hnot : (k', w) ∉ m.entries := fun h => hk (mem_keys_of_mem h)
    simp [hnot, eq_comm]
  · rename_i hne
    simp [hne, find?_eq_some]

theorem mem_keys_emplace (p : Placement (κ × ν)) {m : UnorderedMap κ ν} {k k' : κ} {v : ν} :
    k' ∈ (m.emplace p k v).keys ↔ k' = k ∨ k' ∈ m.keys := by
  by_cases h : m.contains k
  · rw [emplace, dif_pos h]
    exact ⟨Or.inr, fun hk => hk.elim (fun e => e ▸ contains_iff.mp h) id⟩
  · have hk : k ∉ m.keys := fun hk => h (contains_iff.mpr hk)
    simp only [keys, List.mem_map, mem_emplace p hk]
    constructor
    · rintro ⟨e, rfl | he, rfl⟩
      · exact Or.inl rfl
      · exact Or.inr ⟨e, he, rfl⟩
    · rintro (rfl | ⟨e, he, rfl⟩)
      · exact ⟨(k', v), Or.inl rfl, rfl⟩
      · exact ⟨e, Or.inr he, rfl⟩

@[simp] theorem keys_update (m : UnorderedMap κ ν) (k : κ) (v : ν) : (m.update k v).keys = m.keys :=
  keys_mapValues _ m

theorem mem_update {m : UnorderedMap κ ν} {k : κ} {v : ν} {e : κ × ν} (hk : k ∈ m.keys) :
    e ∈ (m.update k v).entries ↔ e = (k, v) ∨ (e ∈ m.entries ∧ e.1 ≠ k) := by
  rw [update, mem_mapValues]
  constructor
  · rintro ⟨w, hw, hv⟩
    split at hv
    · rename_i heq; exact Or.inl (Prod.ext heq hv.symm)
    · rename_i hne; subst hv; exact Or.inr ⟨hw, hne⟩
  · rintro (rfl | ⟨he, hne⟩)
    · obtain ⟨⟨k', w⟩, hw, rfl⟩ := List.mem_map.mp hk
      exact ⟨w, hw, by simp⟩
    · exact ⟨e.2, he, by simp [hne]⟩

theorem mem_assign (p : Placement (κ × ν)) {m : UnorderedMap κ ν} {k : κ} {v : ν} {e : κ × ν} :
    e ∈ (m.assign p k v).entries ↔ e = (k, v) ∨ (e ∈ m.entries ∧ e.1 ≠ k) := by
  rw [assign]
  split
  · rename_i h
    exact mem_update (contains_iff.mp h)
  · rename_i h
    have hk : k ∉ m.keys := fun hk => h (contains_iff.mpr hk)
    rw [mem_emplace p hk]
    refine or_congr_right ⟨fun he => ⟨he, ?_⟩, And.left⟩
    rintro rfl; exact hk (mem_keys_of_mem he)

theorem mem_keys_assign (p : Placement (κ × ν)) {m : UnorderedMap κ ν} {k k' : κ} {v : ν} :
    k' ∈ (m.assign p k v).keys ↔ k' = k ∨ k' ∈ m.keys := by
  simp only [keys, List.mem_map, mem_assign]
  constructor
  · rintro ⟨e, rfl | ⟨he, _⟩, rfl⟩
    · exact Or.inl rfl
    · exact Or.inr ⟨e, he, rfl⟩
  · rintro (rfl | ⟨e, he, rfl⟩)
    · exact ⟨(k', v), Or.inl rfl, rfl⟩
    · by_cases hek : e.1 = k
      · exact ⟨(k, v), Or.inl rfl, hek.symm⟩
      · exact ⟨e, Or.inr ⟨he, hek⟩, rfl⟩

theorem find?_update {m : UnorderedMap κ ν} {k : κ} (v : ν) (hk : k ∈ m.keys) (k' : κ) :
    (m.update k v).find? k' = if k' = k then some v else m.find? k' := by
  ext w
  rw [find?_eq_some, mem_update hk, Prod.mk.injEq]
  split
  · rename_i heq
    simp [heq, eq_comm]
  · rename_i hne
    simp [hne, find?_eq_some]

theorem find?_assign (p : Placement (κ × ν)) (m : UnorderedMap κ ν) (k : κ) (v : ν) (k' : κ) :
    (m.assign p k v).find? k' = if k' = k then some v else m.find? k' := by
  rw [assign]
  split
  · rename_i h
    exact find?_update v (contains_iff.mp h) k'
  · rename_i h
    exact find?_emplace p v (fun hk => h (contains_iff.mpr hk)) k'

/-- The size of a map is determined by its keys. -/
theorem size_eq_card (m : UnorderedMap κ ν) : m.size = m.keys.toFinset.card := by
  exact (List.length_map _).symm.trans (List.toFinset_card_of_nodup m.nodup).symm

/-! ### Sweeps: entries changed in place, then erased -/

omit [DecidableEq κ] in
@[simp] theorem mapValues_id {f : κ → ν → ν} {m : UnorderedMap κ ν} (h : ∀ k v, f k v = v) :
    m.mapValues f = m := by
  ext1
  · simp [mapValues, h]
  · rfl

omit [DecidableEq κ] in
/-- The entries that a predicate keeps, where they stand. -/
def filter (keep : κ → ν → Bool) (m : UnorderedMap κ ν) : UnorderedMap κ ν where
  entries := m.entries.filter fun e => keep e.1 e.2
  insertions := m.insertions
  nodup := m.nodup.sublist (List.filter_sublist.map _)

omit [DecidableEq κ] in
theorem mem_filter {keep : κ → ν → Bool} {m : UnorderedMap κ ν} {e : κ × ν} :
    e ∈ (m.filter keep).entries ↔ e ∈ m.entries ∧ keep e.1 e.2 = true := by
  simp [filter]

omit [DecidableEq κ] in
theorem filter_congr {keep keep' : κ → ν → Bool} {m : UnorderedMap κ ν}
    (h : ∀ e ∈ m.entries, keep e.1 e.2 = keep' e.1 e.2) : m.filter keep = m.filter keep' := by
  ext1
  · exact List.filter_congr h
  · rfl

omit [DecidableEq κ] in
/-- A key has one entry. -/
theorem eq_of_mem {m : UnorderedMap κ ν} {e e' : κ × ν} (he : e ∈ m.entries) (he' : e' ∈ m.entries)
    (h : e.1 = e'.1) : e = e' :=
  List.inj_on_of_nodup_map m.nodup he he' h

theorem foldl_erase_entries : ∀ (ks : List κ) (m : UnorderedMap κ ν),
    (ks.foldl erase m).entries = m.entries.filter (fun e => e.1 ∉ ks) ∧
      (ks.foldl erase m).insertions = m.insertions
  | [], m => by simp
  | k :: ks, m => by
    obtain ⟨hentries, hinsertions⟩ := foldl_erase_entries ks (m.erase k)
    rw [List.foldl_cons, hentries, hinsertions]
    refine ⟨?_, rfl⟩
    simp only [erase, List.filter_filter]
    refine List.filter_congr fun e _ => ?_
    simp [List.mem_cons, not_or, Bool.and_comm]

/-- Erasing every key whose value was changed leaves what was not changed. -/
theorem foldl_erase_mapValues {f : κ → ν → ν} {ks : List κ} (m : UnorderedMap κ ν)
    (h : ∀ k v, k ∉ ks → f k v = v) :
    ks.foldl erase (m.mapValues f) = m.filter fun k _ => k ∉ ks := by
  obtain ⟨hentries, hinsertions⟩ := foldl_erase_entries ks (m.mapValues f)
  ext1
  · rw [hentries]
    simp only [mapValues, filter, List.filter_map, Function.comp_def]
    conv_rhs => rw [← List.map_id (m.entries.filter fun e => e.1 ∉ ks)]
    refine List.map_congr_left fun e he => ?_
    have hk : e.1 ∉ ks := by simpa using (List.mem_filter.mp he).2
    simp [h e.1 e.2 hk]
  · rw [hinsertions]; rfl

omit [DecidableEq κ] in
theorem mapValues_mapValues (f g : κ → ν → ν) (m : UnorderedMap κ ν) :
    (m.mapValues f).mapValues g = m.mapValues fun k v => g k (f k v) := by
  ext1
  · simp [mapValues, Function.comp_def]
  · rfl

/-! ### A property of every value -/

/-- Every value of the map has the property. -/
def All (p : ν → Prop) (m : UnorderedMap κ ν) : Prop := ∀ v ∈ m.values, p v

section All

variable {p : ν → Prop} {m : UnorderedMap κ ν} {k : κ} {v : ν}

omit [DecidableEq κ] in
theorem all_iff : All p m ↔ ∀ e ∈ m.entries, p e.2 := by
  rw [All, values, List.forall_mem_map]

omit [DecidableEq κ] in
theorem all_empty : All p (empty : UnorderedMap κ ν) := fun _ h => by cases h

theorem All.find? (h : All p m) (hk : m.find? k = some v) : p v :=
  all_iff.mp h (k, v) (find?_eq_some.mp hk)

theorem All.erase (h : All p m) : All p (m.erase k) :=
  all_iff.mpr fun e he => all_iff.mp h e (mem_erase.mp he).1

theorem All.foldl_erase : ∀ (ks : List κ) {m : UnorderedMap κ ν}, All p m →
    All p (ks.foldl UnorderedMap.erase m)
  | [], _, h => h
  | _ :: ks, _, h => All.foldl_erase ks h.erase

theorem All.update (h : All p m) (hv : p v) : All p (m.update k v) := by
  refine all_iff.mpr fun e he => ?_
  obtain ⟨w, hw, heq⟩ := mem_mapValues.mp he
  split at heq
  · rw [← heq]; exact hv
  · rw [← heq]; exact all_iff.mp h _ hw

theorem All.emplace (h : All p m) (hv : p v) (place : Placement (κ × ν)) :
    All p (m.emplace place k v) := by
  by_cases hk : k ∈ m.keys
  · rw [UnorderedMap.emplace, dif_pos (contains_iff.mpr hk)]
    exact h
  · refine all_iff.mpr fun e he => ?_
    rcases (mem_emplace place hk).mp he with rfl | he
    · exact hv
    · exact all_iff.mp h e he

theorem All.assign (h : All p m) (hv : p v) (place : Placement (κ × ν)) :
    All p (m.assign place k v) := by
  rw [UnorderedMap.assign]
  split
  · exact h.update hv
  · exact h.emplace hv place

end All

end UnorderedMap
