import Mathlib.Data.List.Basic
import Mathlib.Order.Lattice

/-! Finite maps iterated in key order, as a search tree does.

    The entries stand in strictly increasing key order, so a key has one entry and a loop over the
    map visits the keys in order. -/

/-- A finite map: the entries in strictly increasing key order. -/
structure OrderedMap (κ ν : Type*) [LinearOrder κ] where
  entries : List (κ × ν)
  sorted : (entries.map Prod.fst).Pairwise (· < ·)

namespace OrderedMap

variable {κ ν : Type*} [LinearOrder κ]

def empty : OrderedMap κ ν := ⟨[], by simp⟩

instance : Inhabited (OrderedMap κ ν) := ⟨empty⟩

def size (m : OrderedMap κ ν) : ℕ := m.entries.length

def keys (m : OrderedMap κ ν) : List κ := m.entries.map Prod.fst

def find? (m : OrderedMap κ ν) (k : κ) : Option ν := m.entries.lookup k

/-- Insertion in key order; the entry of a key that is present is overwritten. -/
def insertList (k : κ) (v : ν) : List (κ × ν) → List (κ × ν)
  | [] => [(k, v)]
  | e :: es => if k < e.1 then (k, v) :: e :: es
    else if k = e.1 then (k, v) :: es
    else e :: insertList k v es

theorem mem_insertList {k : κ} {v : ν} {x : κ × ν} :
    ∀ {es : List (κ × ν)}, x ∈ insertList k v es → x = (k, v) ∨ x ∈ es
  | [], h => by simpa [insertList] using h
  | e :: es, h => by
    rw [insertList] at h
    split at h
    · simpa using h
    · split at h
      · rcases List.mem_cons.mp h with rfl | h
        · exact Or.inl rfl
        · exact Or.inr (List.mem_cons_of_mem _ h)
      · rcases List.mem_cons.mp h with rfl | h
        · exact Or.inr (by simp)
        · exact (mem_insertList h).imp id (List.mem_cons_of_mem _)

theorem sorted_insertList (k : κ) (v : ν) : ∀ {es : List (κ × ν)},
    (es.map Prod.fst).Pairwise (· < ·) → ((insertList k v es).map Prod.fst).Pairwise (· < ·)
  | [], _ => by simp [insertList]
  | e :: es, h => by
    have hhead : ∀ x ∈ es, e.1 < x.1 := by simpa using (List.pairwise_cons.mp h).1
    have htail := (List.pairwise_cons.mp h).2
    rw [insertList]
    split
    · rename_i hlt
      refine List.pairwise_cons.mpr ⟨?_, h⟩
      simp only [List.map_cons, List.mem_cons, List.mem_map]
      rintro _ (rfl | ⟨x, hx, rfl⟩)
      · exact hlt
      · exact lt_trans hlt (hhead x hx)
    · split
      · rename_i heq
        refine List.pairwise_cons.mpr ⟨?_, htail⟩
        simp only [List.mem_map]
        rintro _ ⟨x, hx, rfl⟩
        exact heq ▸ hhead x hx
      · rename_i hlt hne
        refine List.pairwise_cons.mpr ⟨?_, sorted_insertList k v htail⟩
        simp only [List.mem_map]
        rintro _ ⟨x, hx, rfl⟩
        rcases mem_insertList hx with rfl | hx
        · exact lt_of_le_of_ne (not_lt.mp hlt) (Ne.symm hne)
        · exact hhead x hx

theorem lookup_cons_ite (k : κ) (e : κ × ν) (es : List (κ × ν)) :
    (e :: es).lookup k = if k = e.1 then some e.2 else es.lookup k := by
  rw [List.lookup_cons]
  by_cases hk : k = e.1
  · simp [hk]
  · have hf : (k == e.1) = false := by simpa using hk
    simp [hk, hf]

/-- Sets the value of `k`, a new entry if the key is absent. -/
def insert (m : OrderedMap κ ν) (k : κ) (v : ν) : OrderedMap κ ν :=
  ⟨insertList k v m.entries, sorted_insertList k v m.sorted⟩

theorem lookup_insertList (k k' : κ) (v : ν) : ∀ {es : List (κ × ν)},
    (es.map Prod.fst).Pairwise (· < ·) →
      (insertList k v es).lookup k' = if k' = k then some v else es.lookup k'
  | [], _ => by rw [insertList, lookup_cons_ite]
  | e :: es, h => by
    rw [insertList]
    split
    · rw [lookup_cons_ite]
    · split
      · rename_i heq
        by_cases hk : k' = k <;> simp [lookup_cons_ite, ← heq, hk]
      · rename_i hne
        have ih := lookup_insertList k k' v (List.pairwise_cons.mp h).2
        by_cases hke : k' = e.1
        · subst hke; simp [lookup_cons_ite, Ne.symm hne]
        · simp [lookup_cons_ite, hke, ih]

theorem find?_insert (m : OrderedMap κ ν) (k k' : κ) (v : ν) :
    (m.insert k v).find? k' = if k' = k then some v else m.find? k' :=
  lookup_insertList k k' v m.sorted

@[simp] theorem find?_insert_self (m : OrderedMap κ ν) (k : κ) (v : ν) :
    (m.insert k v).find? k = some v := by simp [find?_insert]

theorem find?_insert_of_ne (m : OrderedMap κ ν) {k k' : κ} (v : ν) (h : k' ≠ k) :
    (m.insert k v).find? k' = m.find? k' := by simp [find?_insert, h]

@[simp] theorem find?_empty (k : κ) : (empty : OrderedMap κ ν).find? k = none := rfl

theorem mem_keys_iff {m : OrderedMap κ ν} {k : κ} : k ∈ m.keys ↔ ∃ v, m.find? k = some v := by
  obtain ⟨es, hs⟩ := m
  simp only [keys, find?]
  clear hs
  induction es with
  | nil => simp
  | cons e es ih =>
    rw [List.map_cons, List.mem_cons, lookup_cons_ite]
    by_cases hk : k = e.1 <;> simp [hk, ih]

theorem find?_eq_some {m : OrderedMap κ ν} {k : κ} {v : ν} :
    m.find? k = some v ↔ (k, v) ∈ m.entries := by
  obtain ⟨es, hs⟩ := m
  simp only [find?]
  induction es with
  | nil => simp
  | cons e es ih =>
    have hhead : ∀ x ∈ es, e.1 < x.1 := by simpa using (List.pairwise_cons.mp hs).1
    rw [lookup_cons_ite, List.mem_cons]
    by_cases hk : k = e.1
    · have hnot : (k, v) ∉ es := fun h => ne_of_gt (hhead _ h) hk
      simp [hk ▸ hnot, hk, Prod.ext_iff, eq_comm]
    · simp [hk, ih (List.pairwise_cons.mp hs).2, Prod.ext_iff]

theorem nodup_keys (m : OrderedMap κ ν) : m.keys.Nodup :=
  m.sorted.imp fun h => ne_of_lt h

theorem map_fst_insertList {k : κ} {v w : ν} : ∀ {es : List (κ × ν)}, es.lookup k = some w →
    (es.map Prod.fst).Pairwise (· < ·) → (insertList k v es).map Prod.fst = es.map Prod.fst
  | [], h, _ => by simp at h
  | e :: es, h, hs => by
    have hhead : ∀ x ∈ es, e.1 < x.1 := by simpa using (List.pairwise_cons.mp hs).1
    rw [lookup_cons_ite] at h
    rw [insertList]
    by_cases hk : k = e.1
    · simp [hk]
    · rw [if_neg hk] at h
      have hmem : k ∈ es.map Prod.fst :=
        mem_keys_iff (m := ⟨es, (List.pairwise_cons.mp hs).2⟩).mpr ⟨w, h⟩
      obtain ⟨x, hx, rfl⟩ := List.mem_map.mp hmem
      rw [if_neg (not_lt_of_gt (hhead x hx)), if_neg hk, List.map_cons, List.map_cons,
        map_fst_insertList h (List.pairwise_cons.mp hs).2]

end OrderedMap
