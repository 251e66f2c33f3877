import MicroburstGovernor.Core.Bytes

/-! Canonical readers: what a reader read to the end of its fields was written by their writers.

    A decoder is one field after another, so the bytes it consumed are the fields it read, written one
    after another. It follows which bytes a decoder accepts: those that encoding its result gives. -/

namespace Mbg

namespace ByteReader

/-- A reader that ends unlatched was unlatched before, and has consumed bytes that stand in a relation
    to its result. -/
def Consumes {α : Type} (x : ReaderM α) (P : α → Bytes → Prop) : Prop :=
  ∀ r, (x r).2.ok = true → r.ok = true ∧ ∃ w, r.data = w ++ (x r).2.data ∧ P (x r).1 w

/-- A reader whose result is a failure, or leaves nothing unread and the latch unset. -/
def Ends {α : Type} (x : ReaderM (Except Failure α)) : Prop :=
  ∀ r a, (x r).1 = .ok a → (x r).2.atEnd = true

section

variable {α β : Type} {P : α → Bytes → Prop} {Q : β → Bytes → Prop}

/-! ### Rules -/

theorem consumes_pure {a : α} (h : P a []) : Consumes (pure a) P :=
  fun _ hok => ⟨hok, [], rfl, h⟩

theorem consumes_bind {x : ReaderM α} {f : α → ReaderM β} (hx : Consumes x P)
    (hf : ∀ a, Consumes (f a) fun b w => ∀ u, P a u → Q b (u ++ w)) : Consumes (x >>= f) Q := by
  intro r hok
  have hrun : (x >>= f) r = f (x r).1 (x r).2 := rfl
  rw [hrun] at hok ⊢
  obtain ⟨hmid, w, hdata', hQ⟩ := hf _ (x r).2 hok
  obtain ⟨hstart, u, hdata, hP⟩ := hx r hmid
  exact ⟨hstart, u ++ w, by rw [hdata, hdata', List.append_assoc], hQ u hP⟩

/-- A field in front: the rest of the decoder goes on behind its bytes. -/
theorem consumes_field {encode : α → Bytes} {x : ReaderM α} {f : α → ReaderM β}
    (hx : Consumes x fun a w => w = encode a)
    (hf : ∀ a, Consumes (f a) fun b w => Q b (encode a ++ w)) : Consumes (x >>= f) Q := by
  refine consumes_bind hx fun a r hok => ?_
  obtain ⟨hstart, w, hdata, hQ⟩ := hf a r hok
  exact ⟨hstart, w, hdata, fun u hu => hu ▸ hQ⟩

theorem consumes_ite {c : Prop} [Decidable c] {x y : ReaderM α} (hx : c → Consumes x P)
    (hy : ¬ c → Consumes y P) : Consumes (if c then x else y) P := by
  split
  · exact hx ‹_›
  · exact hy ‹_›

/-- Past a check of the latch the latch is unset. -/
theorem consumes_isOk {f : Bool → ReaderM β} (htrue : Consumes (f true) Q)
    (hfalse : Consumes (f false) fun _ _ => True) : Consumes (isOk >>= f) Q := by
  intro r hok
  have hrun : (isOk >>= f) r = f r.ok r := rfl
  rw [hrun] at hok ⊢
  cases hlatch : r.ok with
  | true =>
    rw [hlatch] at hok
    obtain ⟨-, w, hdata, hQ⟩ := htrue r hok
    exact ⟨rfl, w, hdata, hQ⟩
  | false =>
    rw [hlatch] at hok
    have hstart := (hfalse r hok).1
    rw [hlatch] at hstart
    cases hstart

theorem ends_bind {γ : Type} {x : ReaderM α} {f : α → ReaderM (Except Failure γ)}
    (hf : ∀ a, Ends (f a)) : Ends (x >>= f) := fun r => hf (x r).1 (x r).2

theorem ends_ite {γ : Type} {c : Prop} [Decidable c] {x y : ReaderM (Except Failure γ)}
    (hx : Ends x) (hy : Ends y) : Ends (if c then x else y) := by
  split
  · exact hx
  · exact hy

theorem ends_failure {γ : Type} {e : Failure} :
    Ends (pure (.error e) : ReaderM (Except Failure γ)) := fun _ _ h => by cases h

/-! The check for trailing bytes, the last one a decoder makes. -/

section

variable {γ : Type} {c : γ} {e : Failure}

theorem atEnd_run (r : ByteReader) :
    (do if !(← get).atEnd then return .error e else return .ok c : ReaderM (Except Failure γ)) r =
      (if !r.atEnd then .error e else .ok c, r) := by
  change (if !r.atEnd then pure (.error e) else pure (.ok c) : ReaderM (Except Failure γ)) r = _
  split <;> rfl

theorem consumes_atEnd {Q : Except Failure γ → Bytes → Prop} (hok : Q (.ok c) [])
    (herror : Q (.error e) []) :
    Consumes (do if !(← get).atEnd then return .error e else return .ok c) Q := by
  intro r hlatch
  rw [atEnd_run] at hlatch ⊢
  refine ⟨hlatch, [], rfl, ?_⟩
  dsimp only
  split
  · exact herror
  · exact hok

theorem ends_atEnd : Ends (do if !(← get).atEnd then return .error e else return .ok c) := by
  intro r a h
  rw [atEnd_run] at h ⊢
  cases hend : r.atEnd with
  | true => rfl
  | false =>
    rw [hend] at h
    cases h

end

/-- An accepted input is what the accepted result's relation says of it. -/
theorem Consumes.of_ends {x : ReaderM (Except Failure α)}
    (h : Consumes x fun b w => ∀ a, b = .ok a → P a w) (hends : Ends x) {data : Bytes} {a : α}
    (hok : (x (of data)).1 = .ok a) : P a data := by
  have hend := hends _ a hok
  rw [atEnd, Bool.and_eq_true, List.isEmpty_iff] at hend
  obtain ⟨-, w, hdata, hP⟩ := h (of data) hend.1
  rw [hend.2, List.append_nil] at hdata
  have hw : data = w := hdata
  rw [hw] at hok ⊢
  exact (hw ▸ hP) a hok

/-- A decoder that accepts what the encoder writes of the messages that may be sent, and nothing else. -/
structure Canonical (encode : α → Bytes) (decode : ReaderM (Except Failure α)) (may : α → Prop) :
    Prop where
  reads : ∀ a, may a → (decode (of (encode a))).1 = .ok a
  accepts : ∀ bytes a, (decode (of bytes)).1 = .ok a → may a ∧ encode a = bytes

/-! ### The fields -/

theorem consumes_u8 : Consumes u8 fun v w => w = ByteWriter.u8 v := by
  rintro ⟨data, ok⟩ hok
  cases ok with
  | false => cases hok
  | true =>
    cases data with
    | nil => cases hok
    | cons b data => exact ⟨rfl, [b], rfl, rfl⟩

theorem consumes_u16 : Consumes u16 fun v w => w = ByteWriter.u16 v := by
  refine consumes_field consumes_u8 fun hi => consumes_field consumes_u8 fun lo => consumes_pure ?_
  rw [ByteWriter.u16_split]
  rfl

theorem consumes_u32 : Consumes u32 fun v w => w = ByteWriter.u32 v := by
  refine consumes_field consumes_u16 fun hi => consumes_field consumes_u16 fun lo => consumes_pure ?_
  rw [ByteWriter.u32_split, List.append_nil]

theorem consumes_u64 : Consumes u64 fun v w => w = ByteWriter.u64 v := by
  refine consumes_field consumes_u32 fun hi => consumes_field consumes_u32 fun lo => consumes_pure ?_
  rw [ByteWriter.u64_split, List.append_nil]

theorem consumes_i64 : Consumes i64 fun v w => w = ByteWriter.i64 v := by
  refine consumes_field consumes_u64 fun v => consumes_pure ?_
  rw [ByteWriter.i64, List.append_nil, UInt64.toUInt64_toInt64]

end

end ByteReader

end Mbg
