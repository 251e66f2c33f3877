import Mathlib.Algebra.Group.Nat.Defs
import Mathlib.Data.List.Basic

/-! Table-driven checksums: the detection of bursts.

    A byte is folded into a 32-bit register through a table entry, chosen by the byte and the low
    byte of the register:

        step s b = (s >>> 8) ^^^ entry (low byte of s ^^^ b)

    The top byte of the new register is that of the entry. Where no two entries share a top byte the
    register therefore tells which entry was taken, and what the old register was above its low byte.
    Read backwards over at most four bytes, equal registers come from equal bytes. -/

namespace TableChecksum

/-- The entry that a register and a byte choose. -/
def index (s : UInt32) (b : UInt8) : UInt8 := (s ^^^ b.toUInt32).toUInt8

/-- One byte folded into the register. -/
def step (entry : UInt8 → UInt32) (s : UInt32) (b : UInt8) : UInt32 := s >>> 8 ^^^ entry (index s b)

/-- The register after a string of bytes. -/
def fold (entry : UInt8 → UInt32) (s : UInt32) (bytes : List UInt8) : UInt32 :=
  bytes.foldl (step entry) s

/-- No two entries share a top byte. -/
def DistinctTops (entry : UInt8 → UInt32) : Prop :=
  ∀ i j, (entry i).toBitVec >>> 24 = (entry j).toBitVec >>> 24 → i = j

/-- Two registers agree above their low `k` bits. -/
def AgreeAbove (k : ℕ) (s s' : UInt32) : Prop := s.toBitVec >>> k = s'.toBitVec >>> k

variable {entry : UInt8 → UInt32} {s s' : UInt32}

theorem agreeAbove_zero : AgreeAbove 0 s s' ↔ s = s' := by
  rw [AgreeAbove, BitVec.ushiftRight_zero, BitVec.ushiftRight_zero, UInt32.toBitVec_inj]

theorem AgreeAbove.mono {k m : ℕ} (h : AgreeAbove k s s') (hkm : k ≤ m) : AgreeAbove m s s' := by
  obtain ⟨d, rfl⟩ := Nat.exists_eq_add_of_le hkm
  rw [AgreeAbove] at h ⊢
  rw [BitVec.shiftRight_add, BitVec.shiftRight_add, h]

theorem toBitVec_step (s : UInt32) (b : UInt8) :
    (step entry s b).toBitVec = s.toBitVec >>> 8 ^^^ (entry (index s b)).toBitVec := by
  rw [step, UInt32.toBitVec_xor, UInt32.toBitVec_shiftRight]
  rfl

/-- The top byte of a register is that of the entry it was made with. -/
theorem top_step (s : UInt32) (b : UInt8) :
    (step entry s b).toBitVec >>> 24 = (entry (index s b)).toBitVec >>> 24 := by
  have hzero : s.toBitVec >>> 8 >>> 24 = 0#32 := by
    rw [← BitVec.shiftRight_add]
    exact BitVec.ushiftRight_eq_zero (Nat.le_refl 32)
  rw [toBitVec_step, BitVec.ushiftRight_xor_distrib, hzero, BitVec.zero_xor]

/-- Registers that agree were made with one entry, from registers that agree above the low byte. -/
theorem agree_of_step (htops : DistinctTops entry) {k : ℕ} (hk : k ≤ 24) {b b' : UInt8}
    (h : AgreeAbove k (step entry s b) (step entry s' b')) :
    index s b = index s' b' ∧ AgreeAbove (k + 8) s s' := by
  have hindex : index s b = index s' b' := by
    have htop := h.mono hk
    rw [AgreeAbove, top_step, top_step] at htop
    exact htops _ _ htop
  refine ⟨hindex, ?_⟩
  rw [AgreeAbove, toBitVec_step, toBitVec_step, hindex, BitVec.ushiftRight_xor_distrib,
    BitVec.ushiftRight_xor_distrib, BitVec.xor_left_inj] at h
  rw [AgreeAbove, Nat.add_comm, BitVec.shiftRight_add, BitVec.shiftRight_add]
  exact h

theorem index_inj {b b' : UInt8} (h : index s b = index s b') : b = b' := by
  simpa [index] using h

/-- READ BACK: strings that fit into the bits the registers do not agree on are told apart. -/
theorem eq_of_agree (htops : DistinctTops entry) : ∀ {bytes bytes' : List UInt8} {k : ℕ} {s s' : UInt32},
    bytes.length = bytes'.length → k + 8 * bytes.length ≤ 32 →
    AgreeAbove k (fold entry s bytes) (fold entry s' bytes') →
    AgreeAbove (k + 8 * bytes.length) s s' ∧ (s = s' → bytes = bytes')
  | [], [], k, s, s', _, _, h => ⟨h, fun _ => rfl⟩
  | b :: bytes, b' :: bytes', k, s, s', hlen, hk, h => by
    simp only [List.length_cons] at hlen hk ⊢
    obtain ⟨hagree, hrest⟩ : AgreeAbove (k + 8 * bytes.length) (step entry s b) (step entry s' b') ∧
        (step entry s b = step entry s' b' → bytes = bytes') :=
      eq_of_agree htops (by omega) (by omega) h
    obtain ⟨hindex, hagree'⟩ := agree_of_step htops (by omega) hagree
    refine ⟨by rw [Nat.mul_succ, ← Nat.add_assoc]; exact hagree', ?_⟩
    rintro rfl
    obtain rfl := index_inj hindex
    rw [hrest rfl]

/-- The bytes after a difference do not hide it. -/
theorem fold_injective (htops : DistinctTops entry) : ∀ {bytes : List UInt8} {s s' : UInt32},
    fold entry s bytes = fold entry s' bytes → s = s'
  | [], _, _, h => h
  | b :: bytes, s, s', h => by
    have hstep : step entry s b = step entry s' b := fold_injective htops (show
      fold entry (step entry s b) bytes = fold entry (step entry s' b) bytes from h)
    obtain ⟨hindex, hagree⟩ := agree_of_step htops (Nat.zero_le 24) (agreeAbove_zero.mpr hstep)
    have hlow : s.toUInt8 = s'.toUInt8 := by simpa [index] using hindex
    have hlow' : s.toNat % 2 ^ 8 = s'.toNat % 2 ^ 8 := congrArg UInt8.toNat hlow
    have hhigh : s.toNat / 2 ^ 8 = s'.toNat / 2 ^ 8 := by
      simpa [Nat.shiftRight_eq_div_pow] using congrArg BitVec.toNat hagree
    exact UInt32.toNat_inj.mp (by omega)

/-- BURSTS ARE DETECTED: strings that differ within at most four consecutive bytes leave different
    registers, whatever stands before and after. -/
theorem fold_ne_of_burst (htops : DistinctTops entry) (s : UInt32) {mid mid' : List UInt8}
    (hlen : mid.length = mid'.length) (hmid : mid.length ≤ 4) (hne : mid ≠ mid')
    (before after : List UInt8) :
    fold entry s (before ++ mid ++ after) ≠ fold entry s (before ++ mid' ++ after) := by
  intro h
  simp only [fold, List.foldl_append] at h
  have hreg := fold_injective htops h
  exact hne ((eq_of_agree htops hlen (by omega) (agreeAbove_zero.mpr hreg)).2 rfl)

/-! ### Strings that differ within a run -/

/-- Two strings of one length that agree outside `n` bytes from `i` on. -/
structure DiffersWithin (i n : ℕ) (a b : List UInt8) : Prop where
  length : a.length = b.length
  same : ∀ j, j < i ∨ i + n ≤ j → a[j]? = b[j]?

/-- Such strings share what stands before and after the run. -/
theorem DiffersWithin.split {i n : ℕ} {a b : List UInt8} (h : DiffersWithin i n a b) :
    a.take i = b.take i ∧ a.drop (i + n) = b.drop (i + n) := by
  constructor
  · refine List.ext_getElem? fun j => ?_
    rw [List.getElem?_take, List.getElem?_take]
    split
    · rename_i hj
      exact h.same j (Or.inl hj)
    · rfl
  · refine List.ext_getElem? fun j => ?_
    rw [List.getElem?_drop, List.getElem?_drop]
    exact h.same _ (Or.inr (Nat.le_add_right _ _))

theorem take_append_run (a : List UInt8) (i n : ℕ) :
    a.take i ++ (a.drop i).take n ++ a.drop (i + n) = a := by
  rw [List.append_assoc, ← List.drop_drop, List.take_append_drop, List.take_append_drop]

theorem DiffersWithin.fold_ne (htops : DistinctTops entry) (s : UInt32) {i n : ℕ} {a b : List UInt8}
    (h : DiffersWithin i n a b) (hn : n ≤ 4) (hne : a ≠ b) : fold entry s a ≠ fold entry s b := by
  obtain ⟨hbefore, hafter⟩ := h.split
  rw [← take_append_run a i n, ← take_append_run b i n] at hne ⊢
  rw [hbefore, hafter] at hne ⊢
  have hlen : ((a.drop i).take n).length = ((b.drop i).take n).length := by
    rw [List.length_take, List.length_take, List.length_drop, List.length_drop, h.length]
  refine fold_ne_of_burst htops s hlen (Nat.le_trans (List.length_take_le _ _) hn) (fun hmid => ?_) _ _
  exact hne (by rw [hmid])

end TableChecksum
