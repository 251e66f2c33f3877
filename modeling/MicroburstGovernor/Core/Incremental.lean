import MicroburstGovernor.Core.Bytes

/-! Incremental readers: a reader that found its bytes finds them in any longer input.

    Every decoder is one, field by field. So an input and a strict prefix of it are never both read
    to their ends. -/

namespace Mbg

namespace ByteReader

/-- A reader that ends unlatched was unlatched before, and more input after it changes nothing. -/
structure Incremental {α : Type} (x : ReaderM α) : Prop where
  latched : ∀ r, (x r).2.ok = true → r.ok = true
  more : ∀ data rest, (x (of data)).2.ok = true →
    x (of (data ++ rest)) = ((x (of data)).1, of ((x (of data)).2.data ++ rest))

section

variable {α β : Type}

theorem incremental_pure (a : α) : Incremental (pure a) :=
  ⟨fun _ h => h, fun _ _ _ => rfl⟩

theorem eq_of_ok {r : ByteReader} (h : r.ok = true) : r = of r.data := by
  cases r
  cases h
  rfl

theorem incremental_bind {x : ReaderM α} {f : α → ReaderM β} (hx : Incremental x)
    (hf : ∀ a, Incremental (f a)) : Incremental (x >>= f) := by
  constructor
  · intro r h
    exact hx.latched r ((hf _).latched _ h)
  · intro data rest h
    have hmid : (x (of data)).2.ok = true := (hf _).latched _ h
    have hmore := hx.more data rest hmid
    have hof := eq_of_ok hmid
    rw [bind_of_eq hmore]
    have hrun : (x >>= f) (of data) = f (x (of data)).1 (x (of data)).2 := rfl
    rw [hrun] at h ⊢
    rw [hof] at h ⊢
    exact (hf _).more _ rest h

theorem incremental_ite {c : Prop} [Decidable c] {x y : ReaderM α} (hx : Incremental x)
    (hy : Incremental y) : Incremental (if c then x else y) := by
  split
  · exact hx
  · exact hy

theorem incremental_isOk : Incremental isOk :=
  ⟨fun _ h => h, fun _ _ _ => rfl⟩

/-! ### The fields -/

theorem incremental_u8 : Incremental u8 := by
  constructor
  · intro r h
    rw [u8, ensure] at h
    cases hok : r.ok with
    | true => rfl
    | false =>
      rw [hok, if_neg Bool.false_ne_true] at h
      exact hok.symm.trans h
  · intro data rest h
    cases data with
    | nil => cases h
    | cons b data =>
      have hcons : ∀ bytes, u8 (of (b :: bytes)) = (b, of bytes) := fun bytes => u8_write b bytes
      rw [List.cons_append, hcons, hcons]

theorem incremental_u16 : Incremental u16 :=
  incremental_bind incremental_u8 fun _ => incremental_bind incremental_u8 fun _ =>
    incremental_pure _

theorem incremental_u32 : Incremental u32 :=
  incremental_bind incremental_u16 fun _ => incremental_bind incremental_u16 fun _ =>
    incremental_pure _

theorem incremental_u64 : Incremental u64 :=
  incremental_bind incremental_u32 fun _ => incremental_bind incremental_u32 fun _ =>
    incremental_pure _

theorem incremental_i64 : Incremental i64 :=
  incremental_bind incremental_u64 fun _ => incremental_pure _

theorem incremental_bool : Incremental bool :=
  incremental_bind incremental_u8 fun _ => incremental_pure _

/-! ### Input that is too short or too long -/

/-- A reader that reads the whole of an input underflows on every strict prefix of it. -/
theorem Incremental.prefix_latches {x : ReaderM α} (hx : Incremental x) {p q : Bytes} {a : α}
    (h : x (of (p ++ q)) = (a, of [])) (hok : (x (of p)).2.ok = true) : q = [] := by
  have hmore := hx.more p q hok
  rw [h] at hmore
  have hrest : [] = (x (of p)).2.data ++ q := congrArg (fun r => r.2.data) hmore
  exact (List.append_eq_nil_iff.mp hrest.symm).2

end

end ByteReader

end Mbg
