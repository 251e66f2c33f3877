import MicroburstGovernor.Model.Policy

/-! The bounded evidence window: derived quantities, the sample ring and its metrics. -/

namespace Mbg

/-! ### Derived quantities -/

/-- Rate of change in Q16.16 units per tick, saturated. -/
def computeSlopeQ16 (numerator : Int64) (denominator : UInt64) : RateQ16 :=
  if denominator = 0 then 0
  else
    let quotient := numerator / denominator.toInt64
    let remainder := numerator % denominator.toInt64
    let shiftLimit := Int64.maxValue >>> rateFractionBits
    if quotient > shiftLimit then Int64.maxValue
    else if quotient < -shiftLimit then Int64.minValue
    else (quotient <<< rateFractionBits) + (remainder <<< rateFractionBits) / denominator.toInt64

/-- One step of the restoring division: the remainder takes the next bit of the dividend. -/
def divideStep (hi lo divisor : UInt64) (state : UInt64 × UInt64) (bit : ℕ) : UInt64 × UInt64 :=
  let (quotient, remainder) := state
  let next := if bit ≥ 64 then (hi >>> (bit - 64).toUInt64) &&& 1 else (lo >>> bit.toUInt64) &&& 1
  let carry := remainder >>> 63
  let remainder := (remainder <<< 1) ||| next
  if carry ≠ 0 ∨ remainder ≥ divisor then
    (quotient ||| ((1 : UInt64) <<< bit.toUInt64), remainder - divisor)
  else (quotient, remainder)

/-- Quotient of a 128-bit dividend by binary restoring division, bit 127 first. -/
def divide128By64 (hi lo divisor : UInt64) : UInt64 :=
  ((List.range 128).reverse.foldl (divideStep hi lo divisor) (0, 0)).1

/-- 128-bit product of a 64-bit value and a small multiplier: high and low words. -/
def multiply128 (value multiplier : UInt64) : UInt64 × UInt64 :=
  let lowLimb := value &&& 0xFFFFFFFF
  let highLimb := value >>> 32
  let p0 := lowLimb * multiplier
  let p1 := highLimb * multiplier
  let lo := p0 + (p1 <<< 32)
  ((p1 >>> 32) + (if lo < p0 then 1 else 0), lo)

def computePermille (value limit : UInt64) : UInt32 :=
  if limit = 0 then if value = 0 then 0 else 1000
  else if value ≥ limit then 1000
  else
    let (hi, lo) := multiply128 value 1000
    let ratio := divide128By64 hi lo limit
    (if ratio > 1000 then 1000 else ratio).toUInt32

/-- Increment of a cumulative counter across the window; none when it is not usable. -/
def windowCounterDelta (first last : UInt64) (resetDeclared : Bool) : UInt64 :=
  if resetDeclared then 0
  else
    let resolution := resolveCounter first last false
    if resolution.usable then resolution.delta else 0

/-! ### The ring -/

/-- Result of offering a sample to a window. -/
inductive WindowAccept where
  | accepted | duplicate | reordered | discontinuity | capacityChanged
  deriving DecidableEq, Repr, Inhabited

theorem emptyWindow_sized : (0 : ℕ) ≤ 0 := Nat.le_refl 0

/-- The most recent accepted samples, in a ring of `capacity` slots whose oldest is at `head`. -/
structure EvidenceWindow where
  samples : List Sample := []
  capacity : ℕ := 0
  head : ℕ := 0
  size : ℕ := 0
  duplicates : UInt64 := 0
  reordered : UInt64 := 0
  discontinuities : UInt64 := 0
  counterResets : UInt64 := 0
  counterRollovers : UInt64 := 0
  capacityChanges : UInt64 := 0
  sparseSamples : UInt64 := 0
  syntheticSamples : UInt64 := 0
  acceptedTotal : UInt64 := 0
  maxObservedGap : UInt64 := 0
  lastGap : UInt64 := 0
  tickSource : TickSource := {}
  /-- The ring has exactly its slots, and never more samples than slots. -/
  slots : samples.length = capacity := by exact List.length_nil
  sized : size ≤ capacity := by exact emptyWindow_sized

namespace EvidenceWindow

instance : Inhabited EvidenceWindow := ⟨{}⟩

/-- `clear`, then `capacity` empty slots. -/
def reset (capacity : ℕ) : EvidenceWindow :=
  let capacity := max (min capacity Limits.maxWindowCapacity) Limits.minWindowCapacity
  { samples := List.replicate capacity default, capacity
    slots := List.length_replicate, sized := Nat.zero_le _ }

def empty (w : EvidenceWindow) : Bool := w.size = 0

/-- 0 is the oldest retained sample, `size - 1` the newest. -/
def sampleAt (w : EvidenceWindow) (index : ℕ) : Sample :=
  w.samples.getD ((w.head + index) % w.capacity) default

def newest (w : EvidenceWindow) : Sample := w.sampleAt (w.size - 1)

def oldest (w : EvidenceWindow) : Sample := w.sampleAt 0

/-- The retained samples, oldest first. -/
def retained (w : EvidenceWindow) : List Sample := (List.range w.size).map w.sampleAt

/-- The properties a sample declares are counted whether or not it is retained. -/
def countFlags (w : EvidenceWindow) (sample : Sample) : EvidenceWindow :=
  let count (flag : SampleFlags) (total : UInt64) :=
    if hasFlag sample.flags flag then total + 1 else total
  { w with
    sparseSamples := count SampleFlag.sparse w.sparseSamples
    syntheticSamples := count SampleFlag.synthetic w.syntheticSamples
    counterResets := count SampleFlag.counterReset w.counterResets
    capacityChanges :=
      if w.empty then w.capacityChanges else count SampleFlag.capacityChange w.capacityChanges }

/-- Stores an accepted sample: over the oldest when the ring is full. -/
def push (w : EvidenceWindow) (sample : Sample) : EvidenceWindow :=
  if full : w.size = w.capacity then
    { w with
      samples := w.samples.set w.head sample
      head := (w.head + 1) % w.capacity
      acceptedTotal := w.acceptedTotal + 1
      slots := by rw [List.length_set]; exact w.slots }
  else
    { w with
      samples := w.samples.set ((w.head + w.size) % w.capacity) sample
      size := w.size + 1
      acceptedTotal := w.acceptedTotal + 1
      slots := by rw [List.length_set]; exact w.slots
      sized := by have := w.sized; omega }

/-- The sample's capacity contradicts the newest retained one's. -/
def contradictsCapacity (w : EvidenceWindow) (sample : Sample) : Bool :=
  !w.empty && w.newest.capacityBytes ≠ sample.capacityBytes && sample.capacityBytes ≠ 0 &&
    w.newest.capacityBytes ≠ 0

/-- Offers a sample: one that does not advance the tick is counted, never stored. -/
def offer (w : EvidenceWindow) (sample : Sample) (reorderToleranceTicks : UInt64) :
    EvidenceWindow × WindowAccept :=
  let w := w.countFlags sample
  let (tickSource, step) := w.tickSource.observe sample.tick reorderToleranceTicks
  let w := { w with tickSource }
  match step.observation with
  | .duplicate => ({ w with duplicates := w.duplicates + 1 }, .duplicate)
  | .reorder => ({ w with reordered := w.reordered + 1 }, .reordered)
  | .discontinuity => ({ w with discontinuities := w.discontinuities + 1 }, .discontinuity)
  | observation =>
    let w : EvidenceWindow :=
      { w with
        counterRollovers :=
          if observation = .rollover then w.counterRollovers + 1 else w.counterRollovers
        lastGap := step.forwardTicks
        maxObservedGap :=
          if observation = .first then w.maxObservedGap else max w.maxObservedGap step.forwardTicks }
    let changed := w.contradictsCapacity sample
    let w := w.push sample
    if changed then ({ w with capacityChanges := w.capacityChanges + 1 }, .capacityChanged)
    else (w, .accepted)

/-! ### Metrics -/

structure Metrics where
  samples : UInt64 := 0
  expectedSamples : UInt64 := 0
  completenessPermille : UInt32 := 0
  spanTicks : UInt64 := 0
  latestDepth : UInt64 := 0
  peakDepth : UInt64 := 0
  latestOccupancyBytes : UInt64 := 0
  peakOccupancyBytes : UInt64 := 0
  capacityBytes : UInt64 := 0
  capacityKnown : Bool := false
  capacityChanged : Bool := false
  windowSlopeQ16 : RateQ16 := 0
  recentSlopeQ16 : RateQ16 := 0
  imbalanceQ16 : RateQ16 := 0
  dropDelta : UInt64 := 0
  markDelta : UInt64 := 0
  ingressDelta : UInt64 := 0
  egressDelta : UInt64 := 0
  maxGapTicks : UInt64 := 0
  sparse : Bool := false
  synthetic : Bool := false
  provenance : ProvenanceId := default
  provenanceCount : UInt32 := 0
  windowStart : Tick := {}
  windowEnd : Tick := {}
  deriving DecidableEq, Repr, Inhabited

/-- Samples expected over a span at the nominal cadence, below a ceiling set by the capacity. -/
def expectedSamples (spanTicks interval : UInt64) (capacity : ℕ) : UInt64 :=
  let expected := saturatingAdd (spanTicks / max interval 1) 1
  min expected (max (saturatingMul capacity.toUInt64 64) 1)

def completeness (samples expected : UInt64) : UInt32 :=
  (if expected = 0 then 1000 else min 1000 (saturatingMul samples 1000 / expected)).toUInt32

/-- Counts one sample's capacity against the first non-zero one seen. -/
def variantStep (seen : UInt64 × ℕ) (s : Sample) : UInt64 × ℕ :=
  if s.capacityBytes = 0 then seen
  else if seen.1 = 0 then (s.capacityBytes, seen.2)
  else if s.capacityBytes ≠ seen.1 then (seen.1, seen.2 + 1)
  else seen

/-- The first non-zero capacity of the samples, and how many later ones differ from it. -/
def capacityVariants (samples : List Sample) : UInt64 × ℕ := samples.foldl variantStep (0, 0)

/-- Largest positive step between adjacent samples: the gap that is still inside the window. -/
def maxGap : List Sample → UInt64
  | a :: b :: rest =>
    let step := tickDelta a.tick b.tick
    let later := maxGap (b :: rest)
    if step > 0 then max step.toUInt64 later else later
  | _ => 0

/-- Window metrics under a detection policy. -/
def metrics (w : EvidenceWindow) (policy : DetectionPolicy) : Metrics :=
  if w.size = 0 then {}
  else
    let newest := w.newest
    let oldest := w.oldest
    let samples := w.size.toUInt64
    let spanTicks := (tickDelta oldest.tick newest.tick).toUInt64
    let expected := expectedSamples spanTicks policy.nominalSampleIntervalTicks w.capacity
    let reset := hasFlag newest.flags SampleFlag.counterReset
    { samples
      windowStart := oldest.tick
      windowEnd := newest.tick
      spanTicks
      expectedSamples := expected
      completenessPermille := completeness samples expected
      latestDepth := newest.depth
      latestOccupancyBytes := newest.occupancyBytes
      peakDepth := w.retained.foldl (fun peak s => max peak s.depth) newest.depth
      peakOccupancyBytes :=
        w.retained.foldl (fun peak s => max peak s.occupancyBytes) newest.occupancyBytes
      capacityBytes := newest.capacityBytes
      capacityKnown := newest.capacityBytes ≠ 0
      capacityChanged := (capacityVariants w.retained).2 > 0 || w.capacityChanges > 0
      sparse := hasFlag newest.flags SampleFlag.sparse ||
        w.retained.any fun s => hasFlag s.flags SampleFlag.sparse
      synthetic := hasFlag newest.flags SampleFlag.synthetic ||
        w.retained.any fun s => hasFlag s.flags SampleFlag.synthetic
      provenance := newest.provenance
      provenanceCount := w.retained.foldl (fun count s =>
        if s.provenance.valid && s.provenance ≠ newest.provenance then count + 1 else count)
        (if newest.provenance.valid then 1 else 0)
      maxGapTicks := maxGap w.retained
      windowSlopeQ16 := computeSlopeQ16 (newest.depth.toInt64 - oldest.depth.toInt64) spanTicks
      recentSlopeQ16 :=
        if w.size ≥ 2 then
          let prior := w.sampleAt (w.size - 2)
          computeSlopeQ16 (newest.depth.toInt64 - prior.depth.toInt64)
            (tickDelta prior.tick newest.tick).toUInt64
        else 0
      imbalanceQ16 := newest.ingressRateQ16 - newest.egressRateQ16
      dropDelta := windowCounterDelta oldest.dropTotal newest.dropTotal reset
      markDelta := windowCounterDelta oldest.markTotal newest.markTotal reset
      ingressDelta := windowCounterDelta oldest.ingressTotal newest.ingressTotal reset
      egressDelta := windowCounterDelta oldest.egressTotal newest.egressTotal reset }

/-- Ticks between the newest sample and `now`, clamped at zero. -/
def stalenessTicks (w : EvidenceWindow) (now : Tick) : UInt64 :=
  if w.size = 0 then 0 else forwardGap w.newest.tick now

end EvidenceWindow

end Mbg
