import Mathlib.Data.List.Dedup
import Mathlib.Data.List.Induction
import Mathlib.Data.List.Rotate
import Mathlib.Data.Nat.ModEq

/-! Two bounded collections: a table that keeps the first keys written to it, each under the last
    value written, and a ring that keeps the last values pushed. -/

/-! ### Capped tables -/

namespace CappedTable

variable {κ ν : Type*} [DecidableEq κ] (key : ν → κ)

/-- The distinct keys of the values, in order of first appearance. -/
def firstKeys (vs : List ν) : List κ :=
  vs.foldl (fun ks v => if key v ∈ ks then ks else ks ++ [key v]) []

/-- The last value written under a key. -/
def last (vs : List ν) (k : κ) : Option ν := (vs.filter fun v => key v = k).getLast?

/-- Overwrites the value of a key that is there; a new key is added while there is room. -/
def write (cap : ℕ) (t : List ν) (v : ν) : List ν :=
  if key v ∈ t.map key then t.map fun w => if key w = key v then v else w
  else if cap ≤ t.length then t
  else t ++ [v]

theorem firstKeys_concat (vs : List ν) (v : ν) : firstKeys key (vs ++ [v]) =
    if key v ∈ firstKeys key vs then firstKeys key vs else firstKeys key vs ++ [key v] := by
  rw [firstKeys, List.foldl_append]
  rfl

theorem last_concat (vs : List ν) (v : ν) (k : κ) :
    last key (vs ++ [v]) k = if key v = k then some v else last key vs k := by
  rw [last, List.filter_append]
  by_cases h : key v = k
  · rw [List.filter_cons_of_pos (by simpa using h), List.filter_nil, List.getLast?_concat, if_pos h]
  · rw [List.filter_cons_of_neg (by simpa using h), List.filter_nil, List.append_nil, if_neg h, last]

theorem last_append (vs ws : List ν) (k : κ) :
    last key (vs ++ ws) k = (last key ws k).or (last key vs k) := by
  rw [last, List.filter_append, List.getLast?_append]
  rfl

variable {key}

theorem mem_firstKeys {vs : List ν} {k : κ} : k ∈ firstKeys key vs ↔ k ∈ vs.map key := by
  induction vs using List.reverseRecOn with
  | nil => exact Iff.rfl
  | append_singleton vs v ih =>
    rw [firstKeys_concat, List.map_append, List.mem_append, ← ih]
    by_cases h : key v ∈ firstKeys key vs
    · rw [if_pos h]
      constructor
      · exact Or.inl
      · rintro (hk | hk)
        · exact hk
        · rw [List.mem_singleton.mp hk]; exact h
    · rw [if_neg h, List.mem_append]
      rfl

theorem nodup_firstKeys (vs : List ν) : (firstKeys key vs).Nodup := by
  induction vs using List.reverseRecOn with
  | nil => exact List.nodup_nil
  | append_singleton vs v ih =>
    rw [firstKeys_concat]
    split
    · exact ih
    · rename_i h
      exact List.nodup_append'.mpr ⟨ih, List.nodup_singleton _, by simpa using h⟩

/-- Keys that never repeat are their own first appearances. -/
theorem firstKeys_of_nodup {vs : List ν} (h : (vs.map key).Nodup) : firstKeys key vs = vs.map key := by
  induction vs using List.reverseRecOn with
  | nil => rfl
  | append_singleton vs v ih =>
    rw [List.map_append, List.nodup_append'] at h
    have hnew : key v ∉ vs.map key := fun hmem => h.2.2 hmem (by simp)
    rw [firstKeys_concat, ih h.1, if_neg hnew, List.map_append, List.map_singleton]

theorem key_of_last {vs : List ν} {k : κ} {v : ν} (h : last key vs k = some v) : key v = k := by
  have hmem := List.mem_of_getLast? h
  simpa using (List.mem_filter.mp hmem).2

theorem exists_last {vs : List ν} {k : κ} (h : k ∈ vs.map key) : ∃ v, last key vs k = some v := by
  obtain ⟨v, hv, rfl⟩ := List.mem_map.mp h
  have hne : vs.filter (fun w => key w = key v) ≠ [] := by
    intro hnil
    have hmem : v ∈ vs.filter (fun w => key w = key v) := List.mem_filter.mpr ⟨hv, by simp⟩
    rw [hnil] at hmem
    cases hmem
  exact ⟨_, List.getLast?_eq_some_getLast hne⟩

theorem mem_of_last {vs : List ν} {k : κ} {v : ν} (h : last key vs k = some v) : v ∈ vs :=
  (List.mem_filter.mp (List.mem_of_getLast? h)).1

/-- Under keys that never repeat every value is the last of its key. -/
theorem last_of_nodup {vs : List ν} (h : (vs.map key).Nodup) {v : ν} (hv : v ∈ vs) :
    last key vs (key v) = some v := by
  obtain ⟨w, hw⟩ := exists_last (List.mem_map_of_mem (f := key) hv)
  rw [hw, List.inj_on_of_nodup_map h (mem_of_last hw) hv (key_of_last hw)]

/-- Keys that were written have a last value, which leads back to them. -/
theorem map_key_filterMap_last {vs : List ν} : ∀ {ks : List κ}, (∀ k ∈ ks, k ∈ vs.map key) →
    (ks.filterMap (last key vs)).map key = ks
  | [], _ => rfl
  | k :: ks, h => by
    obtain ⟨v, hv⟩ := exists_last (h k (by simp))
    rw [List.filterMap_cons_some hv, List.map_cons, key_of_last hv,
      map_key_filterMap_last fun k' hk' => h k' (List.mem_cons_of_mem _ hk')]

theorem length_firstKeys_le (vs : List ν) : (firstKeys key vs).length ≤ vs.length := by
  induction vs using List.reverseRecOn with
  | nil => exact Nat.le_refl 0
  | append_singleton vs v ih =>
    rw [firstKeys_concat, List.length_append, List.length_singleton]
    split
    · omega
    · rw [List.length_append, List.length_singleton]
      omega

/-- A write under a key that is not among those kept changes none of them. -/
theorem filterMap_last_concat {vs : List ν} {v : ν} {ks : List κ} (h : key v ∉ ks) :
    ks.filterMap (last key (vs ++ [v])) = ks.filterMap (last key vs) := by
  refine List.filterMap_congr fun k hk => ?_
  rw [last_concat, if_neg]
  rintro rfl
  exact h hk

/-- THE TABLE: the first keys, as many as there is room for, each under its last value. -/
theorem foldl_write (cap : ℕ) (vs : List ν) :
    vs.foldl (write key cap) [] = ((firstKeys key vs).take cap).filterMap (last key vs) := by
  induction vs using List.reverseRecOn with
  | nil => simp [firstKeys]
  | append_singleton vs v ih =>
    have hsub : ∀ k ∈ (firstKeys key vs).take cap, k ∈ vs.map key := fun k hk =>
      mem_firstKeys.mp (List.mem_of_mem_take hk)
    have hkeys := map_key_filterMap_last hsub
    have hlen : (((firstKeys key vs).take cap).filterMap (last key vs)).length =
        min cap (firstKeys key vs).length := by
      rw [← List.length_map (f := key), hkeys, List.length_take]
    rw [List.foldl_append, List.foldl_cons, List.foldl_nil, ih, write, hkeys, hlen,
      firstKeys_concat]
    by_cases hin : key v ∈ (firstKeys key vs).take cap
    · -- a key that is kept: its value is replaced where it stands
      rw [if_pos hin, if_pos (List.mem_of_mem_take hin), List.map_filterMap]
      refine List.filterMap_congr fun k hk => ?_
      obtain ⟨w, hw⟩ := exists_last (hsub k hk)
      rw [hw, last_concat, Option.map_some, key_of_last hw]
      by_cases hkv : key v = k
      · rw [if_pos hkv.symm, if_pos hkv]
      · rw [if_neg (Ne.symm hkv), if_neg hkv, hw]
    · rw [if_neg hin]
      by_cases hold : key v ∈ firstKeys key vs
      · -- a key that was refused before is refused again
        have hcap : cap < (firstKeys key vs).length := by
          by_contra hle
          rw [List.take_of_length_le (by omega)] at hin
          exact hin hold
        rw [if_pos hold, if_pos (by omega), filterMap_last_concat hin]
      · rw [if_neg hold]
        by_cases hcap : cap ≤ (firstKeys key vs).length
        · rw [if_pos (by omega), List.take_append_of_le_length hcap, filterMap_last_concat hin]
        · have hnew : (firstKeys key vs ++ [key v]).length ≤ cap := by
            rw [List.length_append, List.length_singleton]; omega
          rw [if_neg (by omega), List.take_of_length_le hnew,
            List.take_of_length_le (Nat.le_of_not_le hcap), List.filterMap_append,
            filterMap_last_concat hold]
          simp [last_concat]

theorem length_foldl_write (cap : ℕ) (vs : List ν) :
    (vs.foldl (write key cap) []).length ≤ cap := by
  rw [foldl_write]
  exact (List.length_filterMap_le _ _).trans (by rw [List.length_take]; exact Nat.min_le_left _ _)

variable (key) in
/-- The keys whose last value meets a condition, in order of last appearance. -/
def keysWhere (p : ν → Bool) (vs : List ν) : List κ :=
  (vs.map key).dedup.filter fun k => (last key vs k).any p

theorem mem_keysWhere {p : ν → Bool} {vs : List ν} {k : κ} :
    k ∈ keysWhere key p vs ↔ ∃ v, last key vs k = some v ∧ p v = true := by
  rw [keysWhere, List.mem_filter, List.mem_dedup, Option.any_eq_true]
  constructor
  · rintro ⟨-, h⟩
    exact h
  · rintro ⟨v, hv, hp⟩
    refine ⟨List.mem_map.mpr ⟨v, ?_, key_of_last hv⟩, v, hv, hp⟩
    exact (List.mem_filter.mp (List.mem_of_getLast? hv)).1

theorem mem_foldl_write {cap : ℕ} {vs : List ν} {v : ν} : v ∈ vs.foldl (write key cap) [] ↔
    key v ∈ (firstKeys key vs).take cap ∧ last key vs (key v) = some v := by
  rw [foldl_write, List.mem_filterMap]
  constructor
  · rintro ⟨k, hk, hv⟩
    rw [key_of_last hv]
    exact ⟨hk, hv⟩
  · rintro ⟨hk, hv⟩
    exact ⟨key v, hk, hv⟩

/-- A table with room for every value that was written holds the last under each key. -/
theorem mem_foldl_write_of_le {cap : ℕ} {vs : List ν} (h : vs.length ≤ cap) {v : ν} :
    v ∈ vs.foldl (write key cap) [] ↔ last key vs (key v) = some v := by
  rw [mem_foldl_write, List.take_of_length_le ((length_firstKeys_le vs).trans h), mem_firstKeys]
  constructor
  · exact And.right
  · intro hlast
    exact ⟨List.mem_map_of_mem (mem_of_last hlast), hlast⟩

/-- No key stands in the table twice. -/
theorem nodup_foldl_write (cap : ℕ) (vs : List ν) :
    ((vs.foldl (write key cap) []).map key).Nodup := by
  rw [foldl_write, map_key_filterMap_last fun k hk => mem_firstKeys.mp (List.mem_of_mem_take hk)]
  exact (nodup_firstKeys vs).sublist (List.take_sublist _ _)

omit [DecidableEq κ] in
theorem length_filter_filterMap (p : ν → Bool) (f : κ → Option ν) : ∀ ks : List κ,
    ((ks.filterMap f).filter p).length = ks.countP fun k => (f k).any p
  | [] => rfl
  | k :: ks => by
    have ih := length_filter_filterMap p f ks
    rw [List.countP_cons]
    cases hf : f k with
    | none => simpa [List.filterMap_cons_none hf] using ih
    | some v =>
      rw [List.filterMap_cons_some hf, List.filter_cons]
      cases hp : p v <;> simp [hp, ih]

/-- NOTHING IS LOST: the table holds as many values that meet a condition as there are keys whose last
    value meets it exactly when no such key came after the room was taken. -/
theorem length_filter_eq_iff {cap : ℕ} (p : ν → Bool) (vs : List ν) :
    ((vs.foldl (write key cap) []).filter p).length = (keysWhere key p vs).length ↔
      ∀ k ∈ (firstKeys key vs).drop cap, (last key vs k).any p = false := by
  have hperm : (vs.map key).dedup.Perm (firstKeys key vs) :=
    (List.perm_ext_iff_of_nodup (List.nodup_dedup _) (nodup_firstKeys vs)).mpr fun k => by
      rw [List.mem_dedup, mem_firstKeys]
  have hall : (keysWhere key p vs).length =
      (firstKeys key vs).countP fun k => (last key vs k).any p := by
    rw [keysWhere, ← List.countP_eq_length_filter, hperm.countP_eq]
  have hsplit : ((firstKeys key vs).take cap ++ (firstKeys key vs).drop cap).countP
      (fun k => (last key vs k).any p) = _ := List.countP_append
  rw [List.take_append_drop] at hsplit
  rw [foldl_write, length_filter_filterMap, hall, hsplit]
  constructor
  · intro h
    have hzero : ((firstKeys key vs).drop cap).countP (fun k => (last key vs k).any p) = 0 := by
      omega
    intro k hk
    have := List.countP_eq_zero.mp hzero k hk
    simpa using this
  · intro h
    have hzero : ((firstKeys key vs).drop cap).countP (fun k => (last key vs k).any p) = 0 :=
      List.countP_eq_zero.mpr fun k hk => by simp [h k hk]
    omega

end CappedTable

/-! ### Rings -/

namespace CappedRing

variable {α : Type*}

/-- Pushes into a ring of `cap` slots, whose oldest value is at the index once it is full. -/
def push (cap : ℕ) (r : List α × ℕ) (a : α) : List α × ℕ :=
  if r.1.length < cap then (r.1 ++ [a], r.2) else (r.1.set r.2 a, (r.2 + 1) % cap)

/-- Overwriting the oldest value and moving on drops it and appends the new one. -/
theorem rotate_set_succ {l : List α} {i : ℕ} (h : i < l.length) (a : α) :
    (l.set i a).rotate (i + 1) = (l.rotate i).tail ++ [a] := by
  have hlen : (l.set i a).length = l.length := List.length_set
  rw [List.rotate_eq_drop_append_take (by rw [hlen]; omega),
    List.rotate_eq_drop_append_take (Nat.le_of_lt h), List.drop_eq_getElem_cons h, List.cons_append,
    List.tail_cons, List.drop_set_of_lt (Nat.lt_succ_self i), List.append_assoc,
    List.take_succ_eq_append_getElem (by rw [hlen]; exact h), List.getElem_set_self,
    List.take_set_of_le (Nat.le_refl i)]

/-- A write `n` slots on from the oldest value lands at place `n`, seen from the oldest. -/
theorem set_rotate {l : List α} {i n : ℕ} (h : n < l.length) (a : α) :
    (l.set ((i + n) % l.length) a).rotate i = (l.rotate i).set n a := by
  refine List.ext_getElem (by simp) fun k hk _ => ?_
  have hkl : k < l.length := by simpa using hk
  rw [List.getElem_rotate, List.getElem_set, List.getElem_set, List.getElem_rotate]
  have hplace : (i + n) % l.length = (k + i) % l.length ↔ n = k := by
    rw [Nat.add_comm i]
    constructor
    · intro hmod
      exact Nat.ModEq.eq_of_lt_of_lt (Nat.ModEq.add_right_cancel' i hmod) h hkl
    · rintro rfl
      rfl
  simp only [List.length_set, hplace]

/-- The `n` values in use, oldest first, of slots whose oldest is at `i`. -/
def live (l : List α) (i n : ℕ) : List α := (l.rotate i).take n

/-- A push with a slot to spare appends. -/
theorem live_set {l : List α} {i n : ℕ} (h : n < l.length) (a : α) :
    live (l.set ((i + n) % l.length) a) i (n + 1) = live l i n ++ [a] := by
  have hn : n < ((l.rotate i).set n a).length := by simpa using h
  rw [live, set_rotate h, List.take_succ_eq_append_getElem hn, List.getElem_set_self,
    List.take_set_of_le (Nat.le_refl n), live]

/-- A push into a full ring takes the place of the oldest. -/
theorem live_set_full {l : List α} {i : ℕ} (h : i < l.length) (a : α) :
    live (l.set i a) ((i + 1) % l.length) l.length = (live l i l.length).tail ++ [a] := by
  have hmod : (l.set i a).rotate ((i + 1) % l.length) = (l.set i a).rotate (i + 1) := by
    rw [← List.rotate_mod _ (i + 1), List.length_set]
  rw [live, hmod, rotate_set_succ h, live, List.take_of_length_le (by simp; omega),
    List.take_of_length_le (by simp)]

/-- THE RING holds the last values pushed, as many as there are slots. -/
theorem rotate_foldl_push {cap : ℕ} (hcap : 0 < cap) (as : List α) :
    let r := as.foldl (push cap) ([], 0)
    r.1.rotate r.2 = as.drop (as.length - cap) ∧ r.1.length = min as.length cap ∧
      (as.length < cap → r.2 = 0) ∧ r.2 < cap := by
  induction as using List.reverseRecOn with
  | nil => exact ⟨by simp, by simp, fun _ => rfl, hcap⟩
  | append_singleton as a ih =>
    obtain ⟨hrot, hlen, hzero, hlt⟩ := ih
    rw [List.foldl_append, List.foldl_cons, List.foldl_nil]
    generalize as.foldl (push cap) ([], 0) = r at *
    rw [push, List.length_append, List.length_singleton]
    by_cases hroom : r.1.length < cap
    · have has : as.length < cap := by omega
      have h0 := hzero has
      rw [if_pos hroom]
      rw [h0, List.rotate_zero, Nat.sub_eq_zero_of_le (Nat.le_of_lt has), List.drop_zero] at hrot
      refine ⟨?_, ?_, fun _ => h0, hlt⟩
      · rw [h0, List.rotate_zero, Nat.sub_eq_zero_of_le (by omega), List.drop_zero, hrot]
      · rw [List.length_append, List.length_singleton]; omega
    · have hfull : r.1.length = cap := by omega
      have has : cap ≤ as.length := by omega
      rw [if_neg hroom]
      refine ⟨?_, by rw [List.length_set]; omega, fun h => by omega, Nat.mod_lt _ hcap⟩
      have hmod : (r.1.set r.2 a).rotate ((r.2 + 1) % cap) = (r.1.set r.2 a).rotate (r.2 + 1) := by
        rw [← List.rotate_mod _ (r.2 + 1), List.length_set, hfull]
      dsimp only
      rw [hmod, rotate_set_succ (by omega), hrot, List.tail_drop,
        show as.length + 1 - cap = as.length - cap + 1 by omega,
        List.drop_append_of_le_length (by omega)]

end CappedRing
