import Mathlib.Data.List.Chain
import Mathlib.Data.List.Perm.Subperm
import MicroburstGovernor.Detect.Evidence
import MicroburstGovernor.Governor.Rings
import MicroburstGovernor.Transport.Payloads

/-! The synthetic traces: what the generator makes of a configuration, and what a window keeps of it.

    One loop over the ticks makes the plain trace, a sample at a time; a shape may lose a sample. Two
    of the shapes rearrange the plain trace afterwards.

        plain        1 2 3 4 5 6 7 8 9 10 11 12 …
        reordered    1 3 2 4 5 6 7 8 10 9 11 12 …
        duplicate    1 2 3 4 5 6 7 8 9 10 11 11 12 … -/

namespace Mbg

namespace Synthetic

/-! ### Configurations -/

inductive TraceShape where
  | steady | microburst | ramp | oscillating | noisySteady | sparseSampling | counterReset
  | capacityChange | missingSamples | reordered | duplicate | shallowNoise | longBurst
  deriving DecidableEq, Repr, Inhabited

/-- Deterministic pseudo random generator (splitmix64). -/
structure DeterministicRng where
  state : UInt64
  deriving DecidableEq, Repr, Inhabited

namespace DeterministicRng

def next (rng : DeterministicRng) : UInt64 × DeterministicRng :=
  let state := rng.state + 0x9E3779B97F4A7C15
  let z := (state ^^^ (state >>> 30)) * 0xBF58476D1CE4E5B9
  let z := (z ^^^ (z >>> 27)) * 0x94D049BB133111EB
  (z ^^^ (z >>> 31), ⟨state⟩)

/-- A draw below the bound; a bound of zero draws nothing. -/
def bounded (rng : DeterministicRng) (bound : UInt64) : UInt64 × DeterministicRng :=
  if bound = 0 then (0, rng) else (rng.next.1 % bound, rng.next.2)

end DeterministicRng

structure GeneratorConfig where
  shape : TraceShape := .microburst
  seed : UInt64 := 1
  resource : ResourceId := ⟨1⟩
  queue : QueueId := ⟨1⟩
  path : PathId := ⟨1⟩
  resourceGeneration : ResourceGeneration := ⟨1⟩
  provenance : ProvenanceId := ⟨1⟩
  startTick : UInt64 := 0
  ticks : UInt64 := 512
  sampleInterval : UInt64 := 1
  burstStart : UInt64 := 128
  burstTicks : UInt64 := 24
  baselineDepth : UInt64 := 128
  peakDepth : UInt64 := 9216
  baselineOccupancyBytes : UInt64 := (1 : UInt64) <<< 14
  peakOccupancyBytes : UInt64 := (1 : UInt64) <<< 19
  capacityBytes : UInt64 := (1 : UInt64) <<< 20
  baselineRateQ16 : UInt64 := (rateFromWhole 120).toUInt64
  peakRateQ16 : UInt64 := (rateFromWhole 9000).toUInt64
  drainRateQ16 : UInt64 := (rateFromWhole 4000).toUInt64
  deriving DecidableEq, Repr, Inhabited

/-- What the loop carries from one sample to the next. -/
structure Making where
  rng : DeterministicRng
  ingressTotal : UInt64 := 0
  egressTotal : UInt64 := 0
  dropTotal : UInt64 := 0
  markTotal : UInt64 := 0
  sequence : UInt64 := 1
  capacity : UInt64

/-- What a shape sets of one sample. -/
structure Traffic where
  depth : UInt64
  occupancy : UInt64
  ingress : UInt64
  egress : UInt64
  flags : SampleFlags := SampleFlag.synthetic

/-- The whole units of a rate; a negative rate has none. -/
def wholeRate (rate : RateQ16) : UInt64 := (max rate 0 >>> rateFractionBits).toUInt64

namespace GeneratorConfig

def interval (c : GeneratorConfig) : UInt64 := max c.sampleInterval 1

def tickCount (c : GeneratorConfig) : UInt64 := min c.ticks ((1 : UInt64) <<< 20)

/-- The burst ends where its sum wraps to, so one near the top of the range is empty. -/
def inBurst (c : GeneratorConfig) (index : UInt64) : Bool :=
  index ≥ c.burstStart && index < c.burstStart + c.burstTicks

def baseline (c : GeneratorConfig) : Traffic where
  depth := c.baselineDepth
  occupancy := c.baselineOccupancyBytes
  ingress := c.baselineRateQ16
  egress := c.baselineRateQ16

/-- The burst as most shapes set it; the queue drains at the baseline rate. -/
def peak (c : GeneratorConfig) : Traffic :=
  { c.baseline with
    depth := c.peakDepth, occupancy := c.peakOccupancyBytes, ingress := c.peakRateQ16 }

/-- The samples that a shape loses: four of five of the sparse one, the whole burst of the missing one. -/
def loses (c : GeneratorConfig) (index : UInt64) : Bool :=
  if c.shape = .sparseSampling then (index / c.interval) % 5 ≠ 0 else c.inBurst index

/-- The switch over the shapes: what one sample carries, unless the shape loses it. -/
def shaped (c : GeneratorConfig) (index : UInt64) (m : Making) : Option (Traffic × Making) :=
  match c.shape with
  | .steady => some (c.baseline, m)
  | .microburst =>
    some (if c.inBurst index then { c.peak with egress := c.drainRateQ16 } else c.baseline, m)
  | .longBurst =>
    some
      (if index ≥ c.burstStart ∧ index < c.burstStart + c.burstTicks * 4 then
        { depth := c.baselineDepth + (c.peakDepth - c.baselineDepth) / 2
          occupancy := c.baselineOccupancyBytes + 4096
          ingress := c.peakRateQ16 / 2
          egress := c.drainRateQ16 }
      else c.baseline, m)
  | .ramp =>
    some
      (if c.inBurst index then
        let span := max c.burstTicks 1
        let progress := index - c.burstStart
        let steps := c.peakDepth - c.baselineDepth
        { depth := c.baselineDepth + steps * progress / span
          occupancy := c.baselineOccupancyBytes + 4096 * progress
          ingress := c.peakRateQ16
          egress := c.baselineRateQ16 }
      else c.baseline, m)
  | .oscillating =>
    let period := max c.burstTicks 2
    some (if index % period < period / 2 then { c.peak with egress := c.drainRateQ16 }
      else c.baseline, m)
  | .noisySteady | .shallowNoise =>
    let amplitude := if c.shape = .shallowNoise then c.baselineDepth / 4 else c.baselineDepth / 2
    let (noise, rng) := m.rng.bounded (amplitude + 1)
    let (extra, rng) := rng.bounded 1024
    some
      ({ depth := c.baselineDepth + noise
         occupancy := c.baselineOccupancyBytes + noise * 16
         ingress := c.baselineRateQ16 + extra
         egress := c.baselineRateQ16 }, { m with rng })
  | .sparseSampling | .missingSamples =>
    if c.loses index then none
    else
      some
        ({ (if c.inBurst index then c.peak else c.baseline) with
           flags := SampleFlag.synthetic ||| SampleFlag.sparse }, m)
  | .counterReset =>
    let traffic := if c.inBurst index then c.peak else c.baseline
    if index = c.burstStart then
      some ({ traffic with flags := SampleFlag.synthetic ||| SampleFlag.counterReset },
        { m with ingressTotal := 0, egressTotal := 0, dropTotal := 0, markTotal := 0 })
    else some (traffic, m)
  | .capacityChange =>
    -- nothing sets the capacity back behind the burst
    if c.inBurst index then
      let capacity := c.capacityBytes / 2
      some
        ({ c.peak with
           occupancy := min c.peakOccupancyBytes capacity
           flags := SampleFlag.synthetic ||| SampleFlag.capacityChange }, { m with capacity })
    else some (c.baseline, m)
  | .reordered | .duplicate => some (if c.inBurst index then c.peak else c.baseline, m)

/-- The body of the loop: the sample of one index, and what is carried on. -/
def makeSample (c : GeneratorConfig) (index : UInt64) (m : Making) : Option Sample × Making :=
  match c.shaped index m with
  | none => (none, m)
  | some (traffic, m) =>
    let bursting := c.inBurst index && c.shape ≠ .steady
    let ingressTotal := m.ingressTotal + wholeRate traffic.ingress.toInt64
    let egressTotal := m.egressTotal + wholeRate traffic.egress.toInt64
    let dropTotal := if bursting then m.dropTotal + 3 else m.dropTotal
    let markTotal := if bursting then m.markTotal + 7 else m.markTotal
    (some
      { stream := ⟨c.resource, c.queue, c.path⟩
        resourceGeneration := c.resourceGeneration
        provenance := c.provenance
        tick := ⟨c.startTick + index⟩
        seq := ⟨m.sequence⟩
        flags := traffic.flags
        capacityBytes := m.capacity
        depth := traffic.depth
        occupancyBytes := traffic.occupancy
        ingressRateQ16 := traffic.ingress.toInt64
        egressRateQ16 := traffic.egress.toInt64
        ingressTotal, egressTotal, dropTotal, markTotal },
      { m with
        ingressTotal, egressTotal, dropTotal, markTotal
        sequence := m.sequence + 1 })

/-- The loop over the indices; `none` if the fuel runs out before the indices do. -/
def makeLoop (c : GeneratorConfig) : ℕ → UInt64 → Making → Option (List Sample)
  | 0, _, _ => none
  | fuel + 1, index, m =>
    if index ≤ c.tickCount then
      (c.makeLoop fuel (index + c.interval) (c.makeSample index m).2).map
        ((c.makeSample index m).1.toList ++ ·)
    else some []

/-- What the loop starts with. -/
def making (c : GeneratorConfig) : Making where
  rng := ⟨c.seed⟩
  capacity := c.capacityBytes

/-- The trace as the loop leaves it. -/
def plainTrace (c : GeneratorConfig) : Option (List Sample) :=
  c.makeLoop (c.tickCount.toNat + 2) 0 c.making

end GeneratorConfig

/-! ### Rearranging -/

/-- Swaps the samples at `i` and `i + 1`, and at every seventh place from there on. -/
def swapFrom (samples : Array Sample) (i : ℕ) : Array Sample :=
  if h : i + 1 < samples.size then swapFrom (samples.swap i (i + 1)) (i + 7) else samples
  termination_by samples.size - i
  decreasing_by
    rw [Array.size_swap]
    omega

/-- Sends every eleventh sample twice. -/
def duplicated (samples : List Sample) : List Sample :=
  samples.flatMap fun s => if s.seq.raw % 11 = 0 then [s, s] else [s]

def TraceShape.rearrange (shape : TraceShape) (samples : List Sample) : List Sample :=
  if shape = .reordered then (swapFrom samples.toArray 1).toList
  else if shape = .duplicate then duplicated samples
  else samples

/-- Generates a deterministic synthetic trace; the fuel of its loop never runs out. -/
def generate (c : GeneratorConfig) : Option (List Sample) := c.plainTrace.map c.shape.rearrange

/-! ### One sample -/

namespace GeneratorConfig

variable (c : GeneratorConfig)

/-- The index whose sample declares that the counters were reset. -/
def resetsAt (index : UInt64) : Bool := c.shape = .counterReset && index = c.burstStart

/-- The indices whose samples declare that the capacity changed. -/
def changesAt (index : UInt64) : Bool := c.shape = .capacityChange && c.inBurst index

/-- The labels of a sample. -/
def flagsAt (index : UInt64) : SampleFlags :=
  SampleFlag.synthetic ||| (if c.resetsAt index then SampleFlag.counterReset else 0) |||
    (if c.changesAt index then SampleFlag.capacityChange else 0) |||
      if c.shape = .sparseSampling ∨ c.shape = .missingSamples then SampleFlag.sparse else 0

/-- What names a sample, and labels it as synthetic with defined flags only. -/
structure Labelled (s : Sample) : Prop where
  stream : s.stream = ⟨c.resource, c.queue, c.path⟩
  resourceGeneration : s.resourceGeneration = c.resourceGeneration
  provenance : s.provenance = c.provenance
  synthetic : hasFlag s.flags SampleFlag.synthetic = true
  known : s.flags &&& ~~~knownFlags = 0
  declared : hasFlag s.flags SampleFlag.counterReset = c.resetsAt (s.tick.value - c.startTick)
  changed : hasFlag s.flags SampleFlag.capacityChange = c.changesAt (s.tick.value - c.startTick)
  unclassed : s.affectedClassCount = 0

/-- The counters of a sample follow from those of the one before: they restart at the one declared
    reset, and grow by what the sample says of its tick. -/
structure Follows (before s : Sample) : Prop where
  ingress : s.ingressTotal =
    (if c.resetsAt (s.tick.value - c.startTick) then 0 else before.ingressTotal) +
      wholeRate s.ingressRateQ16
  egress : s.egressTotal =
    (if c.resetsAt (s.tick.value - c.startTick) then 0 else before.egressTotal) +
      wholeRate s.egressRateQ16
  drops : s.dropTotal =
    (if c.resetsAt (s.tick.value - c.startTick) then 0 else before.dropTotal) +
      if c.inBurst (s.tick.value - c.startTick) && c.shape ≠ .steady then 3 else 0
  marks : s.markTotal =
    (if c.resetsAt (s.tick.value - c.startTick) then 0 else before.markTotal) +
      if c.inBurst (s.tick.value - c.startTick) && c.shape ≠ .steady then 7 else 0

/-- The loop carries the counters of the sample before. -/
structure Making.Behind (m : Making) (s : Sample) : Prop where
  ingress : m.ingressTotal = s.ingressTotal
  egress : m.egressTotal = s.egressTotal
  drops : m.dropTotal = s.dropTotal
  marks : m.markTotal = s.markTotal

/-- What a shape does to the loop: it changes the counters at the declared reset only. -/
structure Shaped (index : UInt64) (m : Making) (traffic : Traffic) (m' : Making) : Prop where
  flags : traffic.flags = c.flagsAt index
  sequence : m'.sequence = m.sequence
  ingress : m'.ingressTotal = if c.resetsAt index then 0 else m.ingressTotal
  egress : m'.egressTotal = if c.resetsAt index then 0 else m.egressTotal
  drops : m'.dropTotal = if c.resetsAt index then 0 else m.dropTotal
  marks : m'.markTotal = if c.resetsAt index then 0 else m.markTotal

variable {c}

theorem flags_flagsAt (index : UInt64) :
    hasFlag (c.flagsAt index) SampleFlag.synthetic = true ∧ c.flagsAt index &&& ~~~knownFlags = 0 ∧
      hasFlag (c.flagsAt index) SampleFlag.counterReset = c.resetsAt index ∧
        hasFlag (c.flagsAt index) SampleFlag.capacityChange = c.changesAt index := by
  rw [flagsAt]
  by_cases hsparse : c.shape = .sparseSampling ∨ c.shape = .missingSamples
  · rw [if_pos hsparse]
    cases c.resetsAt index <;> cases c.changesAt index <;> decide
  · rw [if_neg hsparse]
    cases c.resetsAt index <;> cases c.changesAt index <;> decide

/-- The shapes without a label of their own. -/
theorem flagsAt_of_ne {index : UInt64} (h : c.shape ∉ [.counterReset, .capacityChange,
    .sparseSampling, .missingSamples]) : c.flagsAt index = SampleFlag.synthetic := by
  simp only [List.mem_cons, not_or] at h
  simp [flagsAt, resetsAt, changesAt, h]

/-- A shape that leaves the counters alone. -/
theorem Shaped.quiet {index : UInt64} {m m' : Making} {traffic : Traffic}
    (hresets : c.resetsAt index = false) (hflags : traffic.flags = c.flagsAt index)
    (hm : m' = { m with rng := m'.rng, capacity := m'.capacity }) : c.Shaped index m traffic m' := by
  rw [hm]
  exact
    { flags := hflags
      sequence := rfl
      ingress := by simp [hresets]
      egress := by simp [hresets]
      drops := by simp [hresets]
      marks := by simp [hresets] }

/-- The declared reset. -/
theorem Shaped.reset {index : UInt64} {m : Making} {traffic : Traffic}
    (hresets : c.resetsAt index = true) (hflags : traffic.flags = c.flagsAt index) :
    c.Shaped index m traffic
      { m with ingressTotal := 0, egressTotal := 0, dropTotal := 0, markTotal := 0 } where
  flags := hflags
  sequence := rfl
  ingress := by simp [hresets]
  egress := by simp [hresets]
  drops := by simp [hresets]
  marks := by simp [hresets]

theorem resetsAt_of_ne {index : UInt64} (h : c.shape ≠ .counterReset) : c.resetsAt index = false := by
  simp [resetsAt, h]

/-- The burst and the baseline carry the same label. -/
theorem flags_burst (p : Prop) [Decidable p] {peak baseline : Traffic} {flags : SampleFlags}
    (hpeak : peak.flags = flags) (hbaseline : baseline.flags = flags) :
    (if p then peak else baseline).flags = flags := by
  split
  · exact hpeak
  · exact hbaseline

/-- Every shape, one after another. -/
theorem shaped_spec {index : UInt64} {m m' : Making} {traffic : Traffic}
    (h : c.shaped index m = some (traffic, m')) : c.Shaped index m traffic m' := by
  rw [shaped] at h
  cases hshape : c.shape <;> simp only [hshape] at h
  case counterReset =>
    split at h
    · rename_i hat
      obtain ⟨rfl, rfl⟩ := Prod.mk.inj (Option.some.inj h)
      exact .reset (by simp [resetsAt, hshape, hat]) (by simp [flagsAt, resetsAt, changesAt, hshape, hat])
    · rename_i hat
      obtain ⟨rfl, rfl⟩ := Prod.mk.inj (Option.some.inj h)
      have hflags : c.flagsAt index = SampleFlag.synthetic := by
        simp [flagsAt, resetsAt, changesAt, hshape, hat]
      exact .quiet (by simp [resetsAt, hat]) (hflags ▸ flags_burst _ rfl rfl) rfl
  case capacityChange =>
    split at h
    · rename_i hin
      obtain ⟨rfl, rfl⟩ := Prod.mk.inj (Option.some.inj h)
      exact .quiet (resetsAt_of_ne (by simp [hshape]))
        (by simp [flagsAt, resetsAt, changesAt, hshape, hin]) rfl
    · rename_i hin
      obtain ⟨rfl, rfl⟩ := Prod.mk.inj (Option.some.inj h)
      exact .quiet (resetsAt_of_ne (by simp [hshape]))
        (by simp [flagsAt, resetsAt, changesAt, hshape, hin, baseline]) rfl
  case sparseSampling | missingSamples =>
    split at h
    · cases h
    · obtain ⟨rfl, rfl⟩ := Prod.mk.inj (Option.some.inj h)
      exact .quiet (resetsAt_of_ne (by simp [hshape]))
        (by simp [flagsAt, resetsAt, changesAt, hshape]) rfl
  all_goals
    obtain ⟨rfl, rfl⟩ := Prod.mk.inj (Option.some.inj h)
    have hflags : c.flagsAt index = SampleFlag.synthetic := flagsAt_of_ne (by simp [hshape])
    refine .quiet (resetsAt_of_ne (by simp [hshape])) (Eq.trans ?_ hflags.symm) rfl
    first | rfl | exact flags_burst _ rfl rfl

/-- The body of the loop loses the sample and carries everything on, or makes the next one. -/
theorem makeSample_cases (c : GeneratorConfig) (index : UInt64) {m : Making} {before : Sample}
    (hm : Making.Behind m before) :
    c.makeSample index m = (none, m) ∨ ∃ s m', c.makeSample index m = (some s, m') ∧
      c.Labelled s ∧ s.tick = ⟨c.startTick + index⟩ ∧ s.seq = ⟨m.sequence⟩ ∧ c.Follows before s ∧
        Making.Behind m' s ∧ m'.sequence = m.sequence + 1 := by
  rw [makeSample]
  cases h : c.shaped index m with
  | none => exact Or.inl rfl
  | some made =>
    obtain ⟨traffic, m'⟩ := made
    have hspec := shaped_spec h
    have hindex : c.startTick + index - c.startTick = index := by
      rw [UInt64.add_comm, UInt64.add_sub_cancel]
    obtain ⟨hsynthetic, hknown, hdeclared, hchanged⟩ := flags_flagsAt (c := c) index
    rw [← hspec.flags] at hsynthetic hknown hdeclared hchanged
    refine Or.inr ⟨_, _, rfl, ⟨rfl, rfl, rfl, hsynthetic, hknown, ?_, ?_, rfl⟩, rfl, ?_, ?_,
      ⟨rfl, rfl, rfl, rfl⟩, ?_⟩
    · dsimp only
      rw [hindex, hdeclared]
    · dsimp only
      rw [hindex, hchanged]
    · dsimp only
      rw [hspec.sequence]
    · exact
        { ingress := by rw [hindex, ← hm.ingress, ← hspec.ingress]
          egress := by rw [hindex, ← hm.egress, ← hspec.egress]
          drops := by
            rw [hindex, ← hm.drops, ← hspec.drops]
            split <;> simp_all
          marks := by
            rw [hindex, ← hm.marks, ← hspec.marks]
            split <;> simp_all }
    · dsimp only
      rw [hspec.sequence]

/-! ### The plain trace -/

/-- What the loop makes from its `k`th index on, under these sequence numbers, behind this sample. -/
structure Lawful (c : GeneratorConfig) (k : ℕ) (sequence : UInt64) (before : Sample)
    (plain : List Sample) : Prop where
  /-- The ticks are those of a rising row of indices, all within the trace. -/
  ticks : ∃ indices : List ℕ, indices.Pairwise (· < ·) ∧
    (∀ i ∈ indices, k ≤ i ∧ i * c.interval.toNat ≤ c.tickCount.toNat) ∧
      plain.map (fun s => s.tick.value) =
        indices.map fun i => c.startTick + UInt64.ofNat (i * c.interval.toNat)
  /-- The samples are numbered without a gap, also over lost ones. -/
  numbered : plain.map Sample.seq =
    (List.range plain.length).map fun i => ⟨sequence + UInt64.ofNat i⟩
  labelled : ∀ s ∈ plain, c.Labelled s
  counted : (before :: plain).IsChain c.Follows

theorem Lawful.nil (c : GeneratorConfig) (k : ℕ) (sequence : UInt64) (before : Sample) :
    c.Lawful k sequence before [] where
  ticks := ⟨[], .nil, by simp, rfl⟩
  numbered := rfl
  labelled := by simp
  counted := .singleton _

/-- The loop loses the sample of an index. -/
theorem Lawful.lose {k : ℕ} {sequence : UInt64} {before : Sample} {plain : List Sample}
    (h : c.Lawful (k + 1) sequence before plain) : c.Lawful k sequence before plain where
  ticks := by
    obtain ⟨indices, hrise, hwithin, hticks⟩ := h.ticks
    exact ⟨indices, hrise, fun i hi => ⟨Nat.le_of_succ_le (hwithin i hi).1, (hwithin i hi).2⟩, hticks⟩
  numbered := h.numbered
  labelled := h.labelled
  counted := h.counted

/-- The loop makes the sample of an index. -/
theorem Lawful.cons {k : ℕ} {sequence : UInt64} {before s : Sample} {plain : List Sample}
    (h : c.Lawful (k + 1) (sequence + 1) s plain) (hk : k * c.interval.toNat ≤ c.tickCount.toNat)
    (htick : s.tick = ⟨c.startTick + UInt64.ofNat (k * c.interval.toNat)⟩)
    (hseq : s.seq = ⟨sequence⟩) (hlabelled : c.Labelled s) (hfollows : c.Follows before s) :
    c.Lawful k sequence before (s :: plain) where
  ticks := by
    obtain ⟨indices, hrise, hwithin, hticks⟩ := h.ticks
    refine ⟨k :: indices, List.pairwise_cons.mpr ⟨fun i hi => (hwithin i hi).1, hrise⟩, ?_, ?_⟩
    · intro i hi
      rcases List.mem_cons.mp hi with rfl | hi
      · exact ⟨Nat.le_refl _, hk⟩
      · exact ⟨Nat.le_of_succ_le (hwithin i hi).1, (hwithin i hi).2⟩
    · rw [List.map_cons, List.map_cons, hticks, htick]
  numbered := by
    rw [List.map_cons, h.numbered, List.length_cons, List.range_succ_eq_map, List.map_cons,
      List.map_map, hseq]
    simp [UInt64.add_assoc, UInt64.add_comm 1]
  labelled := by
    intro s' hs
    rcases List.mem_cons.mp hs with rfl | hs
    · exact hlabelled
    · exact h.labelled s' hs
  counted := List.isChain_cons_cons.mpr ⟨hfollows, h.counted⟩

theorem tickCount_le (c : GeneratorConfig) : c.tickCount.toNat ≤ 2 ^ 20 := by
  have h : c.tickCount ≤ (1 : UInt64) <<< 20 := Std.min_le_right
  rw [UInt64.le_iff_toNat_le] at h
  exact h

theorem interval_pos (c : GeneratorConfig) : 0 < c.interval.toNat := by
  have h : (1 : UInt64) ≤ c.interval := (EvidenceWindow.uint64_max_le.mp (UInt64.le_refl _)).2
  exact UInt64.le_iff_toNat_le.mp h

/-- No index wraps: the trace is short, and a long interval ends it at once. -/
theorem index_add {c : GeneratorConfig} {index : UInt64} {k : ℕ}
    (hindex : index.toNat = k * c.interval.toNat) (hle : index ≤ c.tickCount) :
    (index + c.interval).toNat = (k + 1) * c.interval.toNat := by
  have hcount := c.tickCount_le
  have hlt := c.interval.toNat_lt
  rw [UInt64.le_iff_toNat_le] at hle
  rw [UInt64.toNat_add, hindex, Nat.succ_mul, Nat.mod_eq_of_lt]
  cases k with
  | zero => omega
  | succ k =>
    have hinterval : c.interval.toNat ≤ (k + 1) * c.interval.toNat := Nat.le_mul_of_pos_left _ (by omega)
    omega

/-- The fuel reaches to the end of the indices. -/
theorem makeLoop_lawful (c : GeneratorConfig) : ∀ (fuel : ℕ) {k : ℕ} {index : UInt64} {m : Making}
    {before : Sample}, index.toNat = k * c.interval.toNat → k ≤ c.tickCount.toNat + 1 →
    c.tickCount.toNat + 2 ≤ k + fuel → Making.Behind m before →
    ∃ plain, c.makeLoop fuel index m = some plain ∧ c.Lawful k m.sequence before plain
  -- an index past the last one ends the loop before the fuel does
  | 0, k, _, _, _, _, hk, hfuel, _ => by omega
  | fuel + 1, k, index, m, before, hindex, hk, hfuel, hm => by
    rw [makeLoop]
    split
    · rename_i hle
      have hnext := index_add hindex hle
      have hwithin : k * c.interval.toNat ≤ c.tickCount.toNat := by
        rw [← hindex]
        exact UInt64.le_iff_toNat_le.mp hle
      have hk' : k ≤ c.tickCount.toNat :=
        Nat.le_trans (Nat.le_mul_of_pos_right k c.interval_pos) hwithin
      rcases c.makeSample_cases index hm with hlost | ⟨s, m', hmade, hlabelled, htick, hseq, hfollows,
        hm', hsequence⟩
      · obtain ⟨plain, hplain, hlawful⟩ :=
          makeLoop_lawful c fuel hnext (by omega) (by omega) hm
        refine ⟨plain, ?_, hlawful.lose⟩
        rw [hlost, hplain]
        rfl
      · obtain ⟨plain, hplain, hlawful⟩ :=
          makeLoop_lawful c fuel hnext (by omega) (by omega) hm'
        rw [hsequence] at hlawful
        refine ⟨s :: plain, ?_, hlawful.cons hwithin ?_ hseq hlabelled hfollows⟩
        · rw [hmade, hplain]
          rfl
        · rw [htick, ← hindex, UInt64.ofNat_toNat]
    · exact ⟨[], rfl, .nil c k _ before⟩

theorem plainTrace_lawful (c : GeneratorConfig) :
    ∃ plain, c.plainTrace = some plain ∧ c.Lawful 0 1 {} plain :=
  makeLoop_lawful c _ (by simp) (Nat.zero_le _) (by omega) ⟨rfl, rfl, rfl, rfl⟩

/-- One sample of the plain trace comes after the other. -/
theorem tickAfter_of_index {i j : ℕ} (h : i < j) (hj : j * c.interval.toNat ≤ c.tickCount.toNat) :
    tickAfter ⟨c.startTick + UInt64.ofNat (i * c.interval.toNat)⟩
      ⟨c.startTick + UInt64.ofNat (j * c.interval.toNat)⟩ := by
  have hcount := c.tickCount_le
  have hstep : i * c.interval.toNat < j * c.interval.toNat :=
    Nat.mul_lt_mul_of_pos_right h c.interval_pos
  by_contra hnot
  rw [not_tickAfter_iff] at hnot
  have hdistance : c.startTick + UInt64.ofNat (i * c.interval.toNat) -
      (c.startTick + UInt64.ofNat (j * c.interval.toNat)) =
        UInt64.ofNat (i * c.interval.toNat) - UInt64.ofNat (j * c.interval.toNat) := by
    grind
  rw [hdistance, UInt64.toNat_sub, UInt64.toNat_ofNat', UInt64.toNat_ofNat'] at hnot
  omega

/-- What holds of any two indices in order holds of the samples in order. -/
theorem Lawful.pairwise {k : ℕ} {sequence : UInt64} {before : Sample} {plain : List Sample}
    (h : c.Lawful k sequence before plain) {P : Tick → Tick → Prop}
    (hP : ∀ i j : ℕ, i < j → j * c.interval.toNat ≤ c.tickCount.toNat →
      P ⟨c.startTick + UInt64.ofNat (i * c.interval.toNat)⟩
        ⟨c.startTick + UInt64.ofNat (j * c.interval.toNat)⟩) :
    plain.Pairwise fun s s' => P s.tick s'.tick := by
  obtain ⟨indices, hrise, hwithin, hticks⟩ := h.ticks
  have hpair : (indices.map fun i => c.startTick + UInt64.ofNat (i * c.interval.toNat)).Pairwise
      fun a b => P ⟨a⟩ ⟨b⟩ := by
    rw [List.pairwise_map]
    exact hrise.imp_of_mem fun hi hj hlt => hP _ _ hlt (hwithin _ hj).2
  rw [← hticks, List.pairwise_map] at hpair
  exact hpair

/-- The ticks of the plain trace rise. -/
theorem Lawful.rises {k : ℕ} {sequence : UInt64} {before : Sample} {plain : List Sample}
    (h : c.Lawful k sequence before plain) :
    plain.Pairwise fun s s' => tickAfter s.tick s'.tick :=
  h.pairwise (P := fun a b => tickAfter a b) fun _ _ => tickAfter_of_index

/-- The tolerance leaves no room for a false rollover, or the trace keeps clear of the wrap. -/
def ClearOfWrap (c : GeneratorConfig) (tolerance : UInt64) : Prop :=
  tolerance = 0 ∨ c.startTick.toNat + 2 * c.tickCount.toNat ≤ 2 ^ 64

instance (c : GeneratorConfig) (tolerance : UInt64) : Decidable (c.ClearOfWrap tolerance) :=
  inferInstanceAs (Decidable (_ ∨ _))

theorem not_readAsRollover_of_index {tolerance : UInt64} (hclear : c.ClearOfWrap tolerance) {i j : ℕ}
    (h : i < j) (hj : j * c.interval.toNat ≤ c.tickCount.toNat) :
    ¬ ReadAsRollover ⟨c.startTick + UInt64.ofNat (j * c.interval.toNat)⟩
      ⟨c.startTick + UInt64.ofNat (i * c.interval.toNat)⟩ tolerance := by
  rintro ⟨hpos, -, hwrap, htolerance⟩
  rcases hclear with rfl | hclear
  · rw [UInt64.toNat_zero] at htolerance
    omega
  · have hcount := c.tickCount_le
    have hstep : i * c.interval.toNat < j * c.interval.toNat :=
      Nat.mul_lt_mul_of_pos_right h c.interval_pos
    have hdistance : c.startTick + UInt64.ofNat (j * c.interval.toNat) -
        (c.startTick + UInt64.ofNat (i * c.interval.toNat)) =
          UInt64.ofNat (j * c.interval.toNat) - UInt64.ofNat (i * c.interval.toNat) := by
      grind
    dsimp only at hwrap
    rw [hdistance, UInt64.toNat_sub, UInt64.toNat_add, UInt64.toNat_ofNat', UInt64.toNat_ofNat'] at hwrap
    omega

end GeneratorConfig

/-! ### The rearranged traces -/

/-- The place that the sample at place `j` of a reordered trace comes from. -/
def sourcePlace (n j : ℕ) : ℕ :=
  if j % 7 = 1 ∧ j + 1 < n then j + 1 else if j % 7 = 2 ∧ j < n then j - 1 else j

theorem perm_swapFrom (samples : Array Sample) (i : ℕ) :
    (swapFrom samples i).toList.Perm samples.toList := by
  fun_induction swapFrom samples i with
  | case1 samples i h ih => exact ih.trans (Array.swap_perm _ _).toList
  | case2 samples i h => exact List.Perm.refl _

/-- Every sample is at most one place from where it was. -/
theorem getElem?_swapFrom (samples : Array Sample) (i : ℕ) (hi : i % 7 = 1) (j : ℕ) :
    (swapFrom samples i)[j]? =
      if j < i then samples[j]? else samples[sourcePlace samples.size j]? := by
  fun_induction swapFrom samples i with
  | case1 samples i h ih =>
    -- the later swaps reach neither place of this pair
    rw [ih (by omega), Array.size_swap]
    simp only [Array.getElem?_swap, sourcePlace]
    grind
  | case2 samples i h =>
    split
    · rfl
    · simp only [sourcePlace]
      grind

theorem mem_duplicated {samples : List Sample} {s : Sample} : s ∈ duplicated samples ↔ s ∈ samples := by
  rw [duplicated, List.mem_flatMap]
  constructor
  · rintro ⟨s', hs', hs⟩
    split at hs <;> simp_all
  · intro hs
    exact ⟨s, hs, by split <;> simp⟩

theorem sublist_duplicated (samples : List Sample) : samples.Sublist (duplicated samples) := by
  induction samples with
  | nil => exact .slnil
  | cons s samples ih =>
    rw [duplicated, List.flatMap_cons]
    split
    · exact .cons_cons s (.cons s ih)
    · exact .cons_cons s ih

theorem length_duplicated (samples : List Sample) : (duplicated samples).length =
    samples.length + (samples.map Sample.seq).countP fun seq => seq.raw % 11 = 0 := by
  induction samples with
  | nil => rfl
  | cons s samples ih =>
    rw [duplicated, List.flatMap_cons, List.length_append, List.map_cons, List.countP_cons,
      List.length_cons]
    rw [duplicated] at ih
    rw [ih]
    split <;> simp_all <;> omega

/-- One number of eleven, of the first so many. -/
theorem countP_numbered {n : ℕ} (h : n < 2 ^ 64) :
    ((List.range n).map fun i => (⟨1 + UInt64.ofNat i⟩ : SampleSeq)).countP
      (fun seq => seq.raw % 11 = 0) = n / 11 := by
  induction n with
  | zero => rfl
  | succ n ih =>
    have hnumber : (1 + UInt64.ofNat n).toNat = n + 1 := by
      rw [UInt64.toNat_add, UInt64.toNat_ofNat', UInt64.toNat_one]
      omega
    have heleven : (1 + UInt64.ofNat n) % 11 = 0 ↔ (n + 1) % 11 = 0 := by
      rw [← UInt64.toNat_inj, UInt64.toNat_mod, hnumber]
      exact Iff.rfl
    rw [List.range_succ, List.map_append, List.countP_append, ih (by omega), List.map_singleton,
      List.countP_singleton]
    simp only [heleven, decide_eq_true_eq]
    split <;> omega

namespace GeneratorConfig

variable {c : GeneratorConfig}

/-- No more samples than indices. -/
theorem Lawful.length_le {k : ℕ} {sequence : UInt64} {before : Sample} {plain : List Sample}
    (h : c.Lawful k sequence before plain) :
    plain.length ≤ c.tickCount.toNat / c.interval.toNat + 1 := by
  obtain ⟨indices, hrise, hwithin, hticks⟩ := h.ticks
  have hlength : plain.length = indices.length := by simpa using congrArg List.length hticks
  have hsub : indices ⊆ List.range (c.tickCount.toNat / c.interval.toNat + 1) := by
    intro i hi
    rw [List.mem_range, Nat.lt_succ_iff, Nat.le_div_iff_mul_le c.interval_pos]
    exact (hwithin i hi).2
  have hnodup : indices.Nodup := hrise.imp Nat.ne_of_lt
  have hle := (hnodup.subperm hsub).length_le
  rw [List.length_range] at hle
  omega

/-- How a shape hands out its plain trace. -/
structure Arranged (c : GeneratorConfig) (plain samples : List Sample) : Prop where
  reordered : c.shape = .reordered → samples.Perm plain ∧
    ∀ j : ℕ, samples[j]? = plain[sourcePlace plain.length j]?
  duplicate : c.shape = .duplicate → plain.Sublist samples ∧ (∀ s ∈ samples, s ∈ plain) ∧
    samples.length = plain.length + plain.length / 11
  plainly : c.shape ≠ .reordered → c.shape ≠ .duplicate → samples = plain

theorem arranged_rearrange {plain : List Sample} (h : c.Lawful 0 1 {} plain) :
    c.Arranged plain (c.shape.rearrange plain) where
  reordered hshape := by
    rw [TraceShape.rearrange, if_pos hshape]
    refine ⟨by simpa using perm_swapFrom plain.toArray 1, fun j => ?_⟩
    have hplace := getElem?_swapFrom plain.toArray 1 rfl j
    rw [Array.getElem?_toList, hplace]
    simp only [List.getElem?_toArray, List.size_toArray]
    split
    · rename_i hj
      rw [Nat.lt_one_iff.mp hj]
      rfl
    · rfl
  duplicate hshape := by
    have hlength := h.length_le
    have hcount := c.tickCount_le
    have hdiv := Nat.div_le_self c.tickCount.toNat c.interval.toNat
    rw [TraceShape.rearrange, if_neg (by simp [hshape]), if_pos hshape]
    refine ⟨sublist_duplicated plain, fun s hs => mem_duplicated.mp hs, ?_⟩
    rw [length_duplicated, h.numbered, countP_numbered (by omega)]
  plainly hreordered hduplicate := by
    rw [TraceShape.rearrange, if_neg hreordered, if_neg hduplicate]

end GeneratorConfig

/-- THE GENERATOR: whatever the configuration, the loop ends, its samples are labelled as synthetic, rise
    in tick, are numbered without a gap and count on from each other; a reordered trace moves a sample
    by one place, and a duplicated one repeats one of eleven. -/
theorem generate_lawful (c : GeneratorConfig) : ∃ plain samples, c.plainTrace = some plain ∧
    generate c = some samples ∧ plain.length ≤ c.tickCount.toNat / c.interval.toNat + 1 ∧
      c.Lawful 0 1 {} plain ∧ c.Arranged plain samples := by
  obtain ⟨plain, hplain, hlawful⟩ := c.plainTrace_lawful
  refine ⟨plain, c.shape.rearrange plain, hplain, ?_, hlawful.length_le, hlawful,
    GeneratorConfig.arranged_rearrange hlawful⟩
  rw [generate, hplain]
  rfl

end Synthetic

end Mbg
