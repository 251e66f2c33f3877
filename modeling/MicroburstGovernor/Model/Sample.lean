import Mathlib.Order.Lattice
import MicroburstGovernor.Lib.OrderedMap
import MicroburstGovernor.Model.Tick

/-! Evidence samples: stream identity, flags, structural validation and counter resolution. -/

namespace Mbg

/-- Exact rates, Q16.16: units per tick scaled by 65536. -/
abbrev RateQ16 := Int64

/-- Fraction bits of a rate. -/
def rateFractionBits : Int64 := 16

def rateFromWhole (whole : UInt64) : RateQ16 := whole.toInt64 <<< rateFractionBits

/-! ### Streams -/

/-- Identity of the evidence stream: resource and queue, refined by the path. -/
@[ext] structure StreamKey where
  resource : ResourceId
  queue : QueueId
  path : PathId
  deriving DecidableEq, Repr, Inhabited

namespace StreamKey

def valid (k : StreamKey) : Bool := k.resource.valid && k.queue.valid

/-- The key as one 192-bit number, resource first: `operator<=>` compares these. -/
def rank (k : StreamKey) : ℕ :=
  (k.resource.raw.toNat * 2 ^ 64 + k.queue.raw.toNat) * 2 ^ 64 + k.path.raw.toNat

theorem rank_injective : Function.Injective rank := by
  rintro ⟨⟨r⟩, ⟨q⟩, ⟨p⟩⟩ ⟨⟨r'⟩, ⟨q'⟩, ⟨p'⟩⟩ h
  have := p.toNat_lt
  have := p'.toNat_lt
  have := q.toNat_lt
  have := q'.toNat_lt
  simp only [rank] at h
  have hr : r.toNat = r'.toNat := by omega
  have hq : q.toNat = q'.toNat := by omega
  have hp : p.toNat = p'.toNat := by omega
  rw [UInt64.toNat_inj.mp hr, UInt64.toNat_inj.mp hq, UInt64.toNat_inj.mp hp]

instance : LinearOrder StreamKey := LinearOrder.lift' rank rank_injective

end StreamKey

/-! ### Samples -/

/-- Streaming properties of an observation; `SampleFlag` is a set of bits. -/
abbrev SampleFlags := UInt32

namespace SampleFlag

def counterReset : SampleFlags := 1
def capacityChange : SampleFlags := 2
def sparse : SampleFlags := 4
def synthetic : SampleFlags := 8

end SampleFlag

def hasFlag (value flag : SampleFlags) : Bool := value &&& flag ≠ 0

/-- A single high-resolution evidence observation. -/
structure Sample where
  stream : StreamKey := default
  tick : Tick := {}
  seq : SampleSeq := default
  resourceGeneration : ResourceGeneration := default
  depth : UInt64 := 0
  occupancyBytes : UInt64 := 0
  capacityBytes : UInt64 := 0
  ingressRateQ16 : RateQ16 := 0
  egressRateQ16 : RateQ16 := 0
  ingressTotal : UInt64 := 0
  egressTotal : UInt64 := 0
  dropTotal : UInt64 := 0
  markTotal : UInt64 := 0
  flags : SampleFlags := 0
  provenance : ProvenanceId := default
  affectedClasses : Vector ClassId 4 := Vector.replicate 4 default
  affectedClassCount : UInt8 := 0
  deriving DecidableEq, Inhabited

/-- Structural invariants of a sample before it can influence detection; contradictions are
    rejected, not repaired. -/
def validateSample (s : Sample) : Status :=
  if !s.stream.valid then
    Status.failure .invalidArgument "sample stream identity is incomplete"
  else if s.affectedClassCount.toNat > s.affectedClasses.toList.length then
    Status.failure .invalidArgument "affected class count exceeds capacity"
  else if s.capacityBytes ≠ 0 ∧ s.occupancyBytes > s.capacityBytes ∧
      !hasFlag s.flags SampleFlag.capacityChange then
    Status.failure .conflict "occupancy exceeds capacity without a declared capacity change"
  else if s.ingressRateQ16 < 0 ∨ s.egressRateQ16 < 0 then
    Status.failure .invalidArgument "negative rate is not representable"
  else if s.depth > (1 : UInt64) <<< 62 ∨ s.occupancyBytes > (1 : UInt64) <<< 62 then
    Status.failure .outOfRange "depth or occupancy exceeds supported range"
  else if (s.affectedClasses.toList.take s.affectedClassCount.toNat).any fun c => !c.valid then
    Status.failure .invalidArgument "affected class entry is invalid"
  else .ok ()

/-- A sample is validated exactly when none of the checks refuses it. -/
theorem validateSample_eq_ok {s : Sample} : validateSample s = .ok () ↔
    s.stream.valid = true ∧ s.affectedClassCount.toNat ≤ s.affectedClasses.toList.length ∧
      ¬ (s.capacityBytes ≠ 0 ∧ s.occupancyBytes > s.capacityBytes ∧
        !hasFlag s.flags SampleFlag.capacityChange) ∧
      ¬ (s.ingressRateQ16 < 0 ∨ s.egressRateQ16 < 0) ∧
      ¬ (s.depth > (1 : UInt64) <<< 62 ∨ s.occupancyBytes > (1 : UInt64) <<< 62) ∧
      ¬ (s.affectedClasses.toList.take s.affectedClassCount.toNat).any fun c => !c.valid := by
  rw [validateSample]
  split_ifs with h₁ h₂ h₃ h₄ h₅ h₆
  · exact iff_of_false Status.failure_ne_ok fun h => by simp [h.1] at h₁
  · exact iff_of_false Status.failure_ne_ok fun h => Nat.not_lt.mpr h.2.1 h₂
  · exact iff_of_false Status.failure_ne_ok fun h => h.2.2.1 h₃
  · exact iff_of_false Status.failure_ne_ok fun h => h.2.2.2.1 h₄
  · exact iff_of_false Status.failure_ne_ok fun h => h.2.2.2.2.1 h₅
  · exact iff_of_false Status.failure_ne_ok fun h => h.2.2.2.2.2 h₆
  · exact iff_of_true rfl ⟨by simpa using h₁, Nat.not_lt.mp h₂, h₃, h₄, h₅, h₆⟩

theorem valid_of_validateSample {s : Sample} (h : validateSample s = .ok ()) : s.stream.valid :=
  (validateSample_eq_ok.mp h).1

/-! ### Cumulative counters -/

inductive CounterDisposition where
  | firstObservation | advance | rollover | regression | declaredReset
  deriving DecidableEq, Repr

structure CounterResolution where
  delta : UInt64 := 0
  disposition : CounterDisposition := .firstObservation
  usable : Bool := false
  deriving DecidableEq, Repr

/-- Resolves a cumulative counter step: a modular forward step below 2^63 is a rollover and usable,
    a longer one or a declared reset is not. -/
def resolveCounter (previous current : UInt64) (resetDeclared : Bool) : CounterResolution :=
  if resetDeclared then ⟨0, .declaredReset, false⟩
  else if current ≥ previous then ⟨current - previous, .advance, true⟩
  else
    let modular := current - previous
    if modular < (1 : UInt64) <<< 63 then ⟨modular, .rollover, true⟩ else ⟨0, .regression, false⟩

end Mbg
