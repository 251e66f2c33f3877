import MicroburstGovernor.Core.Basic

/-! The big-endian byte codec and CRC-32C.

    A writer is the bytes it appends. A reader is a state computation over the bytes not yet read and
    a latch: once it underflows every accessor returns a neutral value, so a decode checks the latch
    once at its end. The round trip of every width is a simp lemma; a codec's own round trip is then
    its fields', one after another. -/

namespace Mbg

abbrev Bytes := List UInt8

namespace ByteWriter

def u8 (v : UInt8) : Bytes := [v]

def u16 (v : UInt16) : Bytes := u8 (v >>> 8).toUInt8 ++ u8 v.toUInt8

def u32 (v : UInt32) : Bytes := u16 (v >>> 16).toUInt16 ++ u16 v.toUInt16

def u64 (v : UInt64) : Bytes := u32 (v >>> 32).toUInt32 ++ u32 v.toUInt32

def i64 (v : Int64) : Bytes := u64 v.toUInt64

def bool (v : Bool) : Bytes := u8 (if v then 1 else 0)

@[simp] theorem length_u8 (v) : (u8 v).length = 1 := rfl
@[simp] theorem length_u16 (v) : (u16 v).length = 2 := rfl
@[simp] theorem length_u32 (v) : (u32 v).length = 4 := rfl
@[simp] theorem length_u64 (v) : (u64 v).length = 8 := rfl
@[simp] theorem length_i64 (v) : (i64 v).length = 8 := rfl
@[simp] theorem length_bool (v) : (bool v).length = 1 := rfl

end ByteWriter

/-- What is left to read, and whether every read so far had its bytes. -/
@[ext] structure ByteReader where
  data : Bytes
  ok : Bool := true
  deriving DecidableEq, Repr

abbrev ReaderM := StateM ByteReader

namespace ByteReader

def atEnd (r : ByteReader) : Bool := r.ok && r.data.isEmpty

/-- Latches the reader when fewer than `count` bytes are left. -/
def ensure (count : ℕ) : ReaderM Bool := fun r =>
  if r.ok then
    if count > r.data.length then (false, { r with ok := false }) else (true, r)
  else (false, r)

def u8 : ReaderM UInt8 := fun r =>
  match ensure 1 r with
  | (false, r) => (0, r)
  | (true, r) => (r.data.headD 0, { r with data := r.data.tail })

def u16 : ReaderM UInt16 := do
  let hi ← u8
  let lo ← u8
  return hi.toUInt16 <<< 8 ||| lo.toUInt16

def u32 : ReaderM UInt32 := do
  let hi ← u16
  let lo ← u16
  return hi.toUInt32 <<< 16 ||| lo.toUInt32

def u64 : ReaderM UInt64 := do
  let hi ← u32
  let lo ← u32
  return hi.toUInt64 <<< 32 ||| lo.toUInt64

def i64 : ReaderM Int64 := do return (← u64).toInt64

def bool : ReaderM Bool := do return (← u8) ≠ 0

/-- The next `length` bytes; `none` on underflow. -/
def raw (length : ℕ) : ReaderM (Option Bytes) := fun r =>
  match ensure length r with
  | (false, r) => (none, r)
  | (true, r) => (some (r.data.take length), { r with data := r.data.drop length })

/-- The latch, read without consuming anything. -/
def isOk : ReaderM Bool := fun r => (r.ok, r)

end ByteReader

/-! ### Round trips -/

/-- A word is its upper half shifted up and its lower half. -/
theorem join_halves {n w : ℕ} (hn : n = w + w) (v : BitVec n) :
    ((v >>> w).setWidth w).setWidth n <<< w ||| (v.setWidth w).setWidth n = v := by
  ext i hi
  by_cases h : i < w
  · simp [h, BitVec.getLsbD_eq_getElem hi]
  · have hlt : i - w < w := by omega
    have hadd : w + (i - w) = i := by omega
    simp [h, hlt, hadd, BitVec.getLsbD_eq_getElem hi]

theorem u16_join (v : UInt16) : (v >>> 8).toUInt8.toUInt16 <<< 8 ||| v.toUInt8.toUInt16 = v :=
  UInt16.toBitVec_inj.mp (join_halves (w := 8) rfl v.toBitVec)

theorem u32_join (v : UInt32) : (v >>> 16).toUInt16.toUInt32 <<< 16 ||| v.toUInt16.toUInt32 = v :=
  UInt32.toBitVec_inj.mp (join_halves (w := 16) rfl v.toBitVec)

theorem u64_join (v : UInt64) : (v >>> 32).toUInt32.toUInt64 <<< 32 ||| v.toUInt32.toUInt64 = v :=
  UInt64.toBitVec_inj.mp (join_halves (w := 32) rfl v.toBitVec)

/-- Two halves joined are the upper and the lower half of the word. -/
theorem split_join {n w : ℕ} (hn : n = w + w) (hi lo : BitVec w) :
    ((hi.setWidth n <<< w ||| lo.setWidth n) >>> w).setWidth w = hi ∧
      (hi.setWidth n <<< w ||| lo.setWidth n).setWidth w = lo := by
  constructor
  · ext i h
    have hlt : w + i < n := by omega
    have hge : ¬ w + i < w := by omega
    simp [h, hlt, hge]
  · ext i h
    have hlt : i < n := by omega
    simp [h, hlt]

namespace ByteWriter

theorem u16_split (hi lo : UInt8) : u16 (hi.toUInt16 <<< 8 ||| lo.toUInt16) = [hi, lo] := by
  obtain ⟨hhi, hlo⟩ := split_join (n := 16) (w := 8) rfl hi.toBitVec lo.toBitVec
  simp only [u16, u8, List.singleton_append, List.cons.injEq, and_true]
  exact ⟨UInt8.toBitVec_inj.mp hhi, UInt8.toBitVec_inj.mp hlo⟩

theorem u32_split (hi lo : UInt16) :
    u32 (hi.toUInt32 <<< 16 ||| lo.toUInt32) = u16 hi ++ u16 lo := by
  obtain ⟨hhi, hlo⟩ := split_join (n := 32) (w := 16) rfl hi.toBitVec lo.toBitVec
  rw [u32]
  exact congrArg₂ (fun a b => u16 a ++ u16 b) (UInt16.toBitVec_inj.mp hhi)
    (UInt16.toBitVec_inj.mp hlo)

theorem u64_split (hi lo : UInt32) :
    u64 (hi.toUInt64 <<< 32 ||| lo.toUInt64) = u32 hi ++ u32 lo := by
  obtain ⟨hhi, hlo⟩ := split_join (n := 64) (w := 32) rfl hi.toBitVec lo.toBitVec
  rw [u64]
  exact congrArg₂ (fun a b => u32 a ++ u32 b) (UInt32.toBitVec_inj.mp hhi)
    (UInt32.toBitVec_inj.mp hlo)

/-! Whatever stands in front of a string of enough bytes was written by a word. -/

theorem exists_u16 {data : Bytes} {n : ℕ} (h : data.length = n + 2) :
    ∃ v rest, rest.length = n ∧ data = u16 v ++ rest := by
  match data, h with
  | hi :: lo :: rest, h =>
    exact ⟨hi.toUInt16 <<< 8 ||| lo.toUInt16, rest, by simpa using h, by rw [u16_split]; rfl⟩

theorem exists_u32 {data : Bytes} {n : ℕ} (h : data.length = n + 4) :
    ∃ v rest, rest.length = n ∧ data = u32 v ++ rest := by
  obtain ⟨hi, rest, hrest, rfl⟩ := exists_u16 h
  obtain ⟨lo, tail, htail, rfl⟩ := exists_u16 hrest
  exact ⟨_, tail, htail, by rw [u32_split, List.append_assoc]⟩

theorem exists_u64 {data : Bytes} {n : ℕ} (h : data.length = n + 8) :
    ∃ v rest, rest.length = n ∧ data = u64 v ++ rest := by
  obtain ⟨hi, rest, hrest, rfl⟩ := exists_u32 h
  obtain ⟨lo, tail, htail, rfl⟩ := exists_u32 hrest
  exact ⟨_, tail, htail, by rw [u64_split, List.append_assoc]⟩

end ByteWriter

namespace ByteReader

/-- A reader over `data` that has not underflowed. -/
abbrev of (data : Bytes) : ByteReader := ⟨data, true⟩

@[simp] theorem pure_apply {β : Type} (a : β) (r : ByteReader) :
    (pure a : ReaderM β) r = (a, r) := rfl

@[simp] theorem u8_write (v : UInt8) (rest : Bytes) :
    u8 (of (ByteWriter.u8 v ++ rest)) = (v, of rest) := by
  simp [u8, ensure, ByteWriter.u8]

@[simp] theorem u16_write (v : UInt16) (rest : Bytes) :
    u16 (of (ByteWriter.u16 v ++ rest)) = (v, of rest) := by
  simp only [u16, bind, StateT.bind, ByteWriter.u16, List.append_assoc, u8_write]
  simp only [pure_apply, u16_join]

@[simp] theorem u32_write (v : UInt32) (rest : Bytes) :
    u32 (of (ByteWriter.u32 v ++ rest)) = (v, of rest) := by
  simp only [u32, bind, StateT.bind, ByteWriter.u32, List.append_assoc, u16_write]
  simp only [pure_apply, u32_join]

@[simp] theorem u64_write (v : UInt64) (rest : Bytes) :
    u64 (of (ByteWriter.u64 v ++ rest)) = (v, of rest) := by
  simp only [u64, bind, StateT.bind, ByteWriter.u64, List.append_assoc, u32_write]
  simp only [pure_apply, u64_join]

@[simp] theorem i64_write (v : Int64) (rest : Bytes) :
    i64 (of (ByteWriter.i64 v ++ rest)) = (v, of rest) := by
  simp only [i64, bind, StateT.bind, ByteWriter.i64, u64_write]
  simp only [pure_apply, Int64.toInt64_toUInt64]

@[simp] theorem bool_write (v : Bool) (rest : Bytes) :
    bool (of (ByteWriter.bool v ++ rest)) = (v, of rest) := by
  simp only [bool, bind, StateT.bind, ByteWriter.bool, u8_write]
  cases v <;> rfl

@[simp] theorem raw_write (b rest : Bytes) : raw b.length (of (b ++ rest)) = (some b, of rest) := by
  have h : ¬ (b.length > (b ++ rest).length) := by rw [List.length_append]; omega
  simp [raw, ensure, h, -List.length_append]

/-! A decoder reads its fields one after another: each field written steps over its read. -/

section Step

theorem bind_of_eq {β γ : Type} {x : ReaderM β} {f : β → ReaderM γ} {r r' : ByteReader} {a : β}
    (h : x r = (a, r')) : (x >>= f) r = f a r' := by
  simp only [bind, StateT.bind, h]

variable {β : Type}

@[simp] theorem u8_bind (f : UInt8 → ReaderM β) (v : UInt8) (rest : Bytes) :
    (u8 >>= f) (of (ByteWriter.u8 v ++ rest)) = f v (of rest) := bind_of_eq (u8_write v rest)

@[simp] theorem u16_bind (f : UInt16 → ReaderM β) (v : UInt16) (rest : Bytes) :
    (u16 >>= f) (of (ByteWriter.u16 v ++ rest)) = f v (of rest) := bind_of_eq (u16_write v rest)

@[simp] theorem u32_bind (f : UInt32 → ReaderM β) (v : UInt32) (rest : Bytes) :
    (u32 >>= f) (of (ByteWriter.u32 v ++ rest)) = f v (of rest) := bind_of_eq (u32_write v rest)

@[simp] theorem u64_bind (f : UInt64 → ReaderM β) (v : UInt64) (rest : Bytes) :
    (u64 >>= f) (of (ByteWriter.u64 v ++ rest)) = f v (of rest) := bind_of_eq (u64_write v rest)

@[simp] theorem i64_bind (f : Int64 → ReaderM β) (v : Int64) (rest : Bytes) :
    (i64 >>= f) (of (ByteWriter.i64 v ++ rest)) = f v (of rest) := bind_of_eq (i64_write v rest)

@[simp] theorem bool_bind (f : Bool → ReaderM β) (v : Bool) (rest : Bytes) :
    (bool >>= f) (of (ByteWriter.bool v ++ rest)) = f v (of rest) := bind_of_eq (bool_write v rest)

theorem ite_run {c : Prop} [Decidable c] (x y : ReaderM β) (r : ByteReader) :
    (if c then x else y) r = if c then x r else y r := by split <;> rfl

theorem isOk_of (data : Bytes) : isOk (of data) = (true, of data) := rfl

@[simp] theorem isOk_bind (f : Bool → ReaderM β) (data : Bytes) :
    (isOk >>= f) (of data) = f true (of data) := bind_of_eq (isOk_of data)

end Step

/-! What holds of a decoder's result whatever the bytes are. -/

/-- Every result of the reader has the property. -/
def Always {α : Type} (P : α → Prop) (x : ReaderM α) : Prop := ∀ r, P (x r).1

theorem always_pure {α : Type} {P : α → Prop} {a : α} (h : P a) : Always P (pure a) := fun _ => h

theorem always_bind {α β : Type} {P : β → Prop} {x : ReaderM α} {f : α → ReaderM β}
    (h : ∀ a, Always P (f a)) : Always P (x >>= f) := fun r => h (x r).1 (x r).2

theorem always_bind_of {α β : Type} {Q : α → Prop} {P : β → Prop} {x : ReaderM α}
    {f : α → ReaderM β} (hx : Always Q x) (h : ∀ a, Q a → Always P (f a)) : Always P (x >>= f) :=
  fun r => h (x r).1 (hx r) (x r).2

theorem always_ite {α : Type} {P : α → Prop} {c : Prop} [Decidable c] {x y : ReaderM α}
    (hx : c → Always P x) (hy : ¬ c → Always P y) : Always P (if c then x else y) := by
  split
  · exact hx ‹_›
  · exact hy ‹_›

/-- A decoder that fails has no result to speak of. -/
theorem always_failure {α : Type} {P : α → Prop} {code : StatusCode} {detail : String} :
    Always (fun x : Except Failure α => ∀ a, x = .ok a → P a)
      (pure (Status.failure code detail)) :=
  always_pure fun a h => by simp at h

end ByteReader

/-! ### CRC-32C (Castagnoli), table driven -/

namespace Crc32c

def initial : UInt32 := 0xFFFFFFFF

/-- One bit of a table entry, reversed polynomial. -/
def tableBit (crc : UInt32) : UInt32 :=
  if crc &&& 1 ≠ 0 then crc >>> 1 ^^^ 0x82F63B78 else crc >>> 1

/-- The table entry of one byte: its eight bits shifted out. -/
def tableEntry (index : UInt8) : UInt32 :=
  (List.range 8).foldl (fun crc _ => tableBit crc) index.toUInt32

def updateByte (crc : UInt32) (raw : UInt8) : UInt32 :=
  crc >>> 8 ^^^ tableEntry (crc ^^^ raw.toUInt32).toUInt8

def update (state : UInt32) (bytes : Bytes) : UInt32 := bytes.foldl updateByte state

def compute (bytes : Bytes) : UInt32 := update initial bytes ^^^ initial

end Crc32c

/-- The check value of the Castagnoli polynomial: the digits 1 to 9. -/
example : Crc32c.compute [0x31, 0x32, 0x33, 0x34, 0x35, 0x36, 0x37, 0x38, 0x39] = 0xE3069283 := by
  decide +kernel

end Mbg
