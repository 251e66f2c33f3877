import MicroburstGovernor.Core.Bytes
import MicroburstGovernor.Lib.TableChecksum

/-! CRC-32C as a table-driven checksum: it tells apart what differs within four bytes. -/

namespace Mbg

namespace Crc32c

theorem low_bit (crc : UInt32) : crc &&& 1 = 0 ∨ crc &&& 1 = 1 := by
  have h : (crc &&& 1).toNat = crc.toNat % 2 := by
    rw [UInt32.toNat_and, UInt32.toNat_one, Nat.and_one_is_mod]
  rcases Nat.mod_two_eq_zero_or_one crc.toNat with h0 | h1
  · exact Or.inl (UInt32.toNat_inj.mp (h.trans h0))
  · exact Or.inr (UInt32.toNat_inj.mp (h.trans h1))

/-- Shifting out a bit is linear in exclusive or. -/
theorem tableBit_xor (a b : UInt32) : tableBit (a ^^^ b) = tableBit a ^^^ tableBit b := by
  have hshift : (a ^^^ b) >>> 1 = a >>> 1 ^^^ b >>> 1 := UInt32.shiftRight_xor
  have hlow : (a ^^^ b) &&& 1 = (a &&& 1) ^^^ (b &&& 1) := by
    apply UInt32.toNat_inj.mp
    simp only [UInt32.toNat_and, UInt32.toNat_xor, Nat.and_xor_distrib_right]
  have hcancel : ∀ x y p : UInt32, x ^^^ p ^^^ (y ^^^ p) = x ^^^ y := by
    intro x y p
    rw [UInt32.xor_comm y p, ← UInt32.xor_assoc, UInt32.xor_assoc x p p, UInt32.xor_self,
      UInt32.xor_zero]
  rw [tableBit, tableBit, tableBit, hshift, hlow]
  rcases low_bit a with ha | ha <;> rcases low_bit b with hb | hb <;> rw [ha, hb]
  · rfl
  · exact UInt32.xor_assoc _ _ _
  · rw [if_pos (by decide), if_pos (by decide), if_neg (by decide)]
    ac_rfl
  · exact (hcancel _ _ _).symm

theorem tableEntry_xor (i j : UInt8) : tableEntry (i ^^^ j) = tableEntry i ^^^ tableEntry j := by
  have hfold : ∀ (n : ℕ) (a b : UInt32),
      (List.range n).foldl (fun crc _ => tableBit crc) (a ^^^ b) =
        (List.range n).foldl (fun crc _ => tableBit crc) a ^^^
          (List.range n).foldl (fun crc _ => tableBit crc) b := by
    intro n a b
    induction n with
    | zero => rfl
    | succ n ih => simp only [List.range_succ, List.foldl_append, List.foldl_cons, List.foldl_nil, ih,
        tableBit_xor]
  rw [tableEntry, UInt8.toUInt32_xor, hfold]
  rfl

/-- No two of the 256 entries share their top byte: by linearity, none but the first has none. -/
theorem distinctTops : TableChecksum.DistinctTops tableEntry := by
  have hzero : ∀ n < 256, (tableEntry n.toUInt8).toBitVec >>> 24 = 0#32 → n = 0 := by decide +kernel
  intro i j h
  have htop : (tableEntry (i ^^^ j)).toBitVec >>> 24 = 0#32 := by
    rw [tableEntry_xor, UInt32.toBitVec_xor, BitVec.ushiftRight_xor_distrib, h, BitVec.xor_self]
  have hxor : (i ^^^ j).toNat = 0 := hzero _ (i ^^^ j).toNat_lt (by simpa using htop)
  exact UInt8.xor_eq_zero_iff.mp (UInt8.toNat_inj.mp hxor)

/-- Strings that differ within four consecutive bytes have different checksums. -/
theorem compute_ne {i n : ℕ} {a b : Bytes} (h : TableChecksum.DiffersWithin i n a b) (hn : n ≤ 4)
    (hne : a ≠ b) : compute a ≠ compute b := by
  intro heq
  rw [compute, compute, UInt32.xor_left_inj] at heq
  exact h.fold_ne distinctTops initial hn hne heq

end Crc32c

end Mbg
