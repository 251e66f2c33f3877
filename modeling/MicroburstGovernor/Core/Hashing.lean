import MicroburstGovernor.Core.Basic
import MicroburstGovernor.Lib.Mixing
import Mathlib.Data.BitVec

/-! The mixer loses nothing: `mix64` is injective, `hash_combine` in either argument, and a digest tells
    apart field lists that differ in one place. -/

namespace Mbg

open Mixing

/-- The finalizer on words of bits. -/
theorem toBitVec_mix64 (x : UInt64) : (mix64 x).toBitVec =
    (fun z : BitVec 64 => z ^^^ z >>> 31)
      ((fun z : BitVec 64 => (z ^^^ z >>> 27) * 0x94D049BB133111EB#64)
        ((fun z : BitVec 64 => (z ^^^ z >>> 30) * 0xBF58476D1CE4E5B9#64)
          (x.toBitVec + 0x9E3779B97F4A7C15#64))) := rfl

theorem mix64_injective : Function.Injective mix64 := by
  have hfirst : Function.Injective fun z : BitVec 64 => (z ^^^ z >>> 30) * 0xBF58476D1CE4E5B9#64 :=
    (mul_injective (d := 0x96DE1B173F119089#64) (by decide)).comp (xorShift_injective (by decide))
  have hsecond : Function.Injective fun z : BitVec 64 => (z ^^^ z >>> 27) * 0x94D049BB133111EB#64 :=
    (mul_injective (d := 0x319642B2D24D8EC3#64) (by decide)).comp (xorShift_injective (by decide))
  intro x y h
  have hbits := congrArg UInt64.toBitVec h
  rw [toBitVec_mix64, toBitVec_mix64] at hbits
  have hsum := hfirst (hsecond (xorShift_injective (by decide) hbits))
  exact UInt64.toBitVec_inj.mp (add_right_cancel hsum)

theorem hashCombine_injective_seed (value : UInt64) :
    Function.Injective fun seed => hashCombine seed value := by
  intro s t h
  have hxor : s ^^^ mix64 value = t ^^^ mix64 value := mix64_injective h
  refine UInt64.toBitVec_inj.mp ?_
  exact (BitVec.xor_left_inj _).mp (congrArg UInt64.toBitVec hxor)

theorem hashCombine_injective (seed : UInt64) : Function.Injective (hashCombine seed) := by
  intro a b h
  have hxor : seed ^^^ mix64 a = seed ^^^ mix64 b := mix64_injective h
  refine mix64_injective (UInt64.toBitVec_inj.mp ?_)
  exact (BitVec.xor_right_inj _).mp (congrArg UInt64.toBitVec hxor)

/-- A change of one field changes the digest. -/
theorem hashFields_ne {fields fields' : List UInt64} (h : OneChange fields fields') (seed : UInt64) :
    hashFields seed fields ≠ hashFields seed fields' :=
  foldl_ne hashCombine_injective_seed hashCombine_injective h seed

end Mbg
