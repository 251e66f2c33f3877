import MicroburstGovernor.Synthetic.Generator

/-! What a window keeps of a synthetic trace that is replayed into it: every sample of the plain trace
    is stored, one that comes again, or after a later one, is counted and dropped. -/

namespace Mbg

namespace Synthetic

/-! ### Traces with late samples -/

/-- A trace offered sample by sample. -/
def offers (tolerance : UInt64) (samples : List Sample) : List (Sample × UInt64) :=
  samples.map fun s => (s, tolerance)

/-- A sample that a window does not take behind another one, and that declares no capacity change. -/
structure Late (tolerance : UInt64) (last s : Sample) : Prop where
  behind : ¬ tickAfter last.tick s.tick
  backwards : ¬ ReadAsRollover last.tick s.tick tolerance
  quiet : hasFlag s.flags SampleFlag.capacityChange = false

/-- One trace is the other, but for samples that come late. -/
inductive Repeats (tolerance : UInt64) : List Sample → List Sample → Prop
  | nil : Repeats tolerance [] []
  | next {kept samples : List Sample} (s : Sample) (h : Repeats tolerance kept samples) :
    Repeats tolerance (kept ++ [s]) (samples ++ [s])
  | late {kept samples : List Sample} {last s : Sample} (hlate : Late tolerance last s)
    (h : Repeats tolerance (kept ++ [last]) samples) :
    Repeats tolerance (kept ++ [last]) (samples ++ [s])

variable {tolerance : UInt64}

/-- A sample is late behind itself. -/
theorem Late.again {s : Sample} (h : hasFlag s.flags SampleFlag.capacityChange = false) :
    Late tolerance s s where
  behind := by simp [tickAfter, tickDelta]
  backwards := by
    rw [ReadAsRollover, UInt64.sub_self]
    exact fun hback => absurd hback.1 (by decide)
  quiet := h

/-! ### The swaps, one after another -/

/-- The samples that no later one overtakes, from a place of this remainder by seven on. -/
def overtaking : ℕ → List Sample → List Sample
  | 1, _ :: s :: samples => s :: overtaking 3 samples
  | place, s :: samples => s :: overtaking ((place + 1) % 7) samples
  | _, [] => []

/-- The swaps of a trace, one after another. -/
def swapEach : ℕ → List Sample → List Sample
  | 1, s :: s' :: samples => s' :: s :: swapEach 3 samples
  | place, s :: samples => s :: swapEach ((place + 1) % 7) samples
  | _, [] => []

/-- What a shape leaves of its plain trace. -/
def TraceShape.kept (shape : TraceShape) (plain : List Sample) : List Sample :=
  if shape = .reordered then overtaking 0 plain else plain

theorem sublist_overtaking (place : ℕ) (plain : List Sample) :
    (overtaking place plain).Sublist plain := by
  fun_induction overtaking place plain with
  | case1 s s' samples ih => exact .cons s (.cons_cons s' ih)
  | case2 place s samples _ ih => exact .cons_cons s ih
  | case3 => exact .slnil

theorem Repeats.refl (plain : List Sample) : Repeats tolerance plain plain := by
  induction plain using List.reverseRecOn with
  | nil => exact .nil
  | append_singleton plain s ih => exact .next s ih

theorem repeats_duplicated {plain : List Sample}
    (h : ∀ s ∈ plain, hasFlag s.flags SampleFlag.capacityChange = false) :
    Repeats tolerance plain (duplicated plain) := by
  induction plain using List.reverseRecOn with
  | nil => exact .nil
  | append_singleton plain s ih =>
    have hrest := ih fun s' hs => h s' (by simp [hs])
    rw [duplicated, List.flatMap_append, List.flatMap_singleton, ← duplicated]
    split
    · have htwice : duplicated plain ++ [s, s] = (duplicated plain ++ [s]) ++ [s] := by simp
      rw [htwice]
      exact .late (.again (h s (by simp))) (.next s hrest)
    · exact .next s hrest

/-- A swapped pair is a sample and a late one. -/
theorem repeats_swapEach (place : ℕ) {plain kept samples : List Sample}
    (hlate : plain.Pairwise fun s s' => Late tolerance s' s) (h : Repeats tolerance kept samples) :
    Repeats tolerance (kept ++ overtaking place plain) (samples ++ swapEach place plain) := by
  fun_induction swapEach place plain generalizing kept samples with
  | case1 s s' rest ih =>
    rw [List.pairwise_cons, List.pairwise_cons] at hlate
    have hpair := Repeats.late (hlate.1 s' (by simp)) (.next s' h)
    have hrest := ih hlate.2.2 hpair
    simpa [overtaking] using hrest
  | case2 place s rest hplace ih =>
    have hrest := ih (List.pairwise_cons.mp hlate).2 (.next s h)
    rw [overtaking]
    · simpa using hrest
    · exact hplace
  | case3 place => simpa [overtaking] using h

/-- The place that a sample comes from, where the first one stands at a place of this remainder. -/
def placeFrom (place n j : ℕ) : ℕ :=
  if (place + j) % 7 = 1 ∧ j + 1 < n then j + 1
  else if (place + j) % 7 = 2 ∧ j < n then j - 1 else j

theorem placeFrom_pair (n j : ℕ) : placeFrom 1 (n + 2) (j + 2) = placeFrom 3 n j + 2 := by
  simp only [placeFrom]
  split_ifs <;> omega

theorem placeFrom_succ {place n : ℕ} (h : place = 1 → n = 0) (hlt : place < 7) (j : ℕ) :
    placeFrom place (n + 1) (j + 1) = placeFrom ((place + 1) % 7) n j + 1 := by
  simp only [placeFrom]
  split_ifs <;> omega

/-- The swaps one after another are the swaps in place. -/
theorem getElem?_swapEach (place : ℕ) (samples : List Sample) (hplace : place < 7)
    (hstart : place = 2 → samples = []) (j : ℕ) :
    (swapEach place samples)[j]? = samples[placeFrom place samples.length j]? := by
  fun_induction swapEach place samples generalizing j with
  | case1 s s' rest ih =>
    rcases j with - | - | j
    · simp [placeFrom]
    · simp [placeFrom]
    · rw [List.length_cons, List.length_cons, placeFrom_pair]
      exact ih (by omega) (by omega) j
  | case2 place s rest hpair ih =>
    -- a sample at the first place of a pair that is not swapped is the last of its trace
    have hone : place = 1 → rest = [] := by
      rintro rfl
      cases rest with
      | nil => rfl
      | cons s' rest => exact (hpair _ _ rfl rfl).elim
    have hlength : place = 1 → rest.length = 0 := fun h => by rw [hone h, List.length_nil]
    rcases j with - | j
    · have hzero : placeFrom place (s :: rest).length 0 = 0 := by
        rw [placeFrom, List.length_cons, if_neg (by omega), ite_self]
      rw [hzero]
      rfl
    · rw [List.length_cons, placeFrom_succ hlength hplace]
      exact ih (Nat.mod_lt _ (by omega)) (fun h => hone (by omega)) j
  | case3 place => rfl

theorem toList_swapFrom (plain : List Sample) :
    (swapFrom plain.toArray 1).toList = swapEach 0 plain := by
  apply List.ext_getElem?
  intro j
  rw [Array.getElem?_toList, getElem?_swapFrom plain.toArray 1 rfl j,
    getElem?_swapEach 0 plain (by omega) (by omega)]
  simp only [List.getElem?_toArray, List.size_toArray, sourcePlace, placeFrom, Nat.zero_add]
  by_cases hj : j < 1
  · have hzero : j = 0 := by omega
    subst hzero
    simp
  · rw [if_neg hj]

end Synthetic

namespace EvidenceWindow

open Synthetic

/-! ### Windows that retain the same samples -/

/-- The newest sample of a window is the last one that was accepted. -/
theorem Retains.newest {w : EvidenceWindow} {samples : List Sample} {s : Sample}
    (h : w.Retains (samples ++ [s])) : w.size ≠ 0 ∧ w.newest = s := by
  have hcapacity : 0 < w.capacity := Nat.lt_of_le_of_lt (Nat.zero_le _) h.toTracked.head
  have hsize : w.size ≠ 0 := by
    rw [h.size, List.length_append, List.length_singleton]
    omega
  refine ⟨hsize, ?_⟩
  have hlast := getLast?_retained hsize
  rw [h.retained, List.drop_append_of_le_length (by rw [List.length_append, List.length_singleton]; omega),
    List.getLast?_concat] at hlast
  exact (Option.some.inj hlast).symm

/-- A sample that is after the last one that was accepted is taken. -/
theorem Retains.admits {w : EvidenceWindow} {samples : List Sample} {s : Sample} (h : w.Retains samples)
    (hrise : (samples ++ [s]).IsChain fun a b => tickAfter a.tick b.tick) (tolerance : UInt64) :
    w.Admits s tolerance := by
  cases samples using List.reverseRecOn with
  | nil => exact Or.inl (by rw [h.size, List.length_nil, Nat.zero_min])
  | append_singleton samples last =>
    rw [List.append_assoc, List.singleton_append, List.isChain_append_cons_cons] at hrise
    exact Or.inr (Or.inl (h.newest.2 ▸ hrise.2.1))

/-- A late one is not taken. -/
theorem Retains.refuses {w : EvidenceWindow} {samples : List Sample} {last s : Sample}
    {tolerance : UInt64} (h : w.Retains (samples ++ [last])) (hlate : Late tolerance last s) :
    ¬ w.Admits s tolerance := by
  obtain ⟨hsize, hnewest⟩ := h.newest
  rintro (hempty | hafter | hrollover)
  · exact hsize hempty
  · exact hlate.behind (hnewest ▸ hafter)
  · exact hlate.backwards (hnewest ▸ hrollover)

/-- What an offer counts is read off the retained samples. -/
theorem Retains.changesBy {w w' : EvidenceWindow} {samples : List Sample} (h : w.Retains samples)
    (h' : w'.Retains samples) (hcapacity : w.capacity = w'.capacity) {s : Sample} {tolerance : UInt64}
    (hin : w.Admits s tolerance) (hin' : w'.Admits s tolerance) :
    w.changesBy s tolerance = w'.changesBy s tolerance := by
  have hsize : w.size = w'.size := by rw [h.size, h'.size, hcapacity]
  have hempty : w.empty = w'.empty := by rw [empty, empty, hsize]
  have hcontradicts : w.contradictsCapacity s = w'.contradictsCapacity s := by
    rw [contradictsCapacity, contradictsCapacity, hempty]
    cases samples using List.reverseRecOn with
    | nil =>
      have hnone : w'.empty = true := by rw [empty, h'.size]; simp
      simp [hnone]
    | append_singleton samples last => rw [h.newest.2, h'.newest.2]
  rw [EvidenceWindow.changesBy, EvidenceWindow.changesBy, declaresChange, declaresChange, hempty,
    hcontradicts]
  simp [hin, hin']

/-! ### Replaying a trace -/

theorem after_offers_concat (capacity : ℕ) (tolerance : UInt64) (samples : List Sample) (s : Sample) :
    after capacity (offers tolerance (samples ++ [s])) =
      ((after capacity (offers tolerance samples)).offer s tolerance).1 := by
  rw [after, offers, List.map_append, List.map_singleton, Runs.run_concat]
  rfl

theorem capacity_after (capacity : ℕ) (offers : List (Sample × UInt64)) :
    (after capacity offers).capacity = (reset capacity).capacity :=
  (tracked_run (tracked_reset capacity) offers).2.1

/-- Both traces leave the plain one behind, and the same count of capacity changes. -/
structure Agree (capacity : ℕ) (tolerance : UInt64) (plain samples : List Sample) : Prop where
  replayed : (after capacity (offers tolerance samples)).Retains plain
  plainly : (after capacity (offers tolerance plain)).Retains plain
  changes : (after capacity (offers tolerance samples)).capacityChanges =
    (after capacity (offers tolerance plain)).capacityChanges

/-- The next sample goes into both windows. -/
theorem Agree.next {capacity : ℕ} {tolerance : UInt64} {plain samples : List Sample} {s : Sample}
    (h : Agree capacity tolerance plain samples)
    (hrise : (plain ++ [s]).IsChain fun a b => tickAfter a.tick b.tick) :
    Agree capacity tolerance (plain ++ [s]) (samples ++ [s]) := by
  have hcapacity := (capacity_after capacity (offers tolerance samples)).trans
    (capacity_after capacity (offers tolerance plain)).symm
  have hin := h.replayed.admits hrise tolerance
  have hin' := h.plainly.admits hrise tolerance
  have ho := offer_offered h.replayed.toTracked s tolerance
  have ho' := offer_offered h.plainly.toTracked s tolerance
  have hkept := h.replayed.offer s tolerance
  have hkept' := h.plainly.offer s tolerance
  rw [if_pos (ho.admitted hin).1] at hkept
  rw [if_pos (ho'.admitted hin').1] at hkept'
  refine ⟨?_, ?_, ?_⟩
  · rw [after_offers_concat]
    exact hkept
  · rw [after_offers_concat]
    exact hkept'
  · rw [after_offers_concat, after_offers_concat, ho.changes, ho'.changes, h.changes,
      h.replayed.changesBy h.plainly hcapacity hin hin']

/-- A late one goes into neither. -/
theorem Agree.late {capacity : ℕ} {tolerance : UInt64} {kept samples : List Sample} {last s : Sample}
    (h : Agree capacity tolerance (kept ++ [last]) samples) (hlate : Late tolerance last s) :
    Agree capacity tolerance (kept ++ [last]) (samples ++ [s]) := by
  have hout := h.replayed.refuses hlate
  have ho := offer_offered h.replayed.toTracked s tolerance
  have hretains := h.replayed.offer s tolerance
  have hskip : ¬ ((after capacity (offers tolerance samples)).offer s tolerance).2.stored = true := by
    rw [(ho.refused hout).1]
    exact Bool.false_ne_true
  have hcount : (after capacity (offers tolerance samples)).changesBy s tolerance = 0 := by
    rw [EvidenceWindow.changesBy, if_neg fun hboth => hout hboth.1, declaresChange, hlate.quiet,
      Bool.and_false]
    rfl
  rw [if_neg hskip, List.append_nil] at hretains
  refine ⟨?_, h.plainly, ?_⟩
  · rw [after_offers_concat]
    exact hretains
  · rw [after_offers_concat, ho.changes, hcount, ← h.changes]
    exact UInt64.add_zero _

/-- By induction on the repeating trace. -/
theorem agree_of_repeats (capacity : ℕ) {tolerance : UInt64} {kept samples : List Sample}
    (h : Repeats tolerance kept samples) (hrise : kept.IsChain fun a b => tickAfter a.tick b.tick) :
    Agree capacity tolerance kept samples := by
  induction h with
  | nil => exact ⟨retains_reset capacity, retains_reset capacity, rfl⟩
  | next s h ih => exact (ih (List.isChain_append.mp hrise).1).next hrise
  | late hlate h ih => exact (ih hrise).late hlate

/-- Windows that agree give the same metrics. -/
theorem Agree.metrics {capacity : ℕ} {tolerance : UInt64} {plain samples : List Sample}
    (h : Agree capacity tolerance plain samples) (policy : DetectionPolicy) :
    (after capacity (offers tolerance samples)).metrics policy =
      (after capacity (offers tolerance plain)).metrics policy := by
  have hcapacity := (capacity_after capacity (offers tolerance samples)).trans
    (capacity_after capacity (offers tolerance plain)).symm
  have hretained : (after capacity (offers tolerance samples)).retained =
      (after capacity (offers tolerance plain)).retained := by
    rw [h.replayed.retained, h.plainly.retained, hcapacity]
  refine (metrics_eq_of_retained hretained hcapacity policy).mpr (Or.inr ?_)
  rw [h.changes]

end EvidenceWindow

namespace Synthetic

open EvidenceWindow

/-- A tick is behind one that is after it. -/
theorem not_tickAfter_of_tickAfter {a b : Tick} (h : tickAfter a b) : ¬ tickAfter b a := by
  have hab := mt not_tickAfter_iff.mpr (not_not.mpr h)
  rw [not_tickAfter_iff]
  have hneg : (b.value - a.value).toNat = (2 ^ 64 - (a.value - b.value).toNat) % 2 ^ 64 := by
    rw [UInt64.toNat_sub, UInt64.toNat_sub]
    have ha := a.value.toNat_lt
    have hb := b.value.toNat_lt
    omega
  omega

/-- Every shape hands out what it leaves of its plain trace, and late samples. -/
theorem repeats_rearrange {c : GeneratorConfig} {plain : List Sample} (h : c.Lawful 0 1 {} plain)
    {tolerance : UInt64} (hclear : c.shape = .reordered → c.ClearOfWrap tolerance) :
    Repeats tolerance (c.shape.kept plain) (c.shape.rearrange plain) := by
  have hquiet : c.shape ≠ .capacityChange → ∀ s ∈ plain,
      hasFlag s.flags SampleFlag.capacityChange = false := by
    intro hshape s hs
    rw [(h.labelled s hs).changed]
    simp [GeneratorConfig.changesAt, hshape]
  rw [TraceShape.rearrange, TraceShape.kept]
  split
  · rename_i hreordered
    have hpast := h.pairwise (P := fun a b => ¬ ReadAsRollover b a tolerance) fun _ _ hij hj =>
      GeneratorConfig.not_readAsRollover_of_index (hclear hreordered) hij hj
    have hlate : plain.Pairwise fun s s' => Late tolerance s' s := by
      refine (h.rises.and hpast).imp_of_mem fun hs _ hboth => ?_
      exact ⟨not_tickAfter_of_tickAfter hboth.1, hboth.2, hquiet (by simp [hreordered]) _ hs⟩
    rw [toList_swapFrom]
    exact repeats_swapEach 0 hlate .nil
  · split
    · rename_i hduplicate
      exact repeats_duplicated (hquiet (by simp [hduplicate]))
    · exact .refl plain

theorem rises_kept {c : GeneratorConfig} {plain : List Sample} (h : c.Lawful 0 1 {} plain) :
    (c.shape.kept plain).IsChain fun s s' => tickAfter s.tick s'.tick := by
  rw [TraceShape.kept]
  split
  · exact (h.rises.sublist (sublist_overtaking 0 plain)).isChain
  · exact h.rises.isChain

/-- REPLAYED TRACES: a window that is offered a generated trace, whatever its shape, retains the last
    samples of what the shape leaves of its plain trace, and gives the metrics of that: neither a
    repetition, a swap, a lost sample nor a wrap of the ticks lets it take a late sample or refuse
    another. A reordered trace keeps clear of the wrap, or the tolerance is none. -/
theorem window_generate (c : GeneratorConfig) (capacity : ℕ) (tolerance : UInt64)
    (hclear : c.shape = .reordered → c.ClearOfWrap tolerance) (policy : DetectionPolicy) :
    ∃ plain samples, c.plainTrace = some plain ∧ generate c = some samples ∧
      (after capacity (offers tolerance samples)).retained =
        (c.shape.kept plain).drop ((c.shape.kept plain).length - (reset capacity).capacity) ∧
      (after capacity (offers tolerance samples)).metrics policy =
        (after capacity (offers tolerance (c.shape.kept plain))).metrics policy := by
  obtain ⟨plain, hplain, hlawful⟩ := c.plainTrace_lawful
  have hagree := agree_of_repeats capacity (repeats_rearrange hlawful hclear) (rises_kept hlawful)
  refine ⟨plain, c.shape.rearrange plain, hplain, ?_, ?_, hagree.metrics policy⟩
  · rw [generate, hplain]
    rfl
  · rw [hagree.replayed.retained, capacity_after]

/-- A reordered trace that runs over the wrap of the ticks. -/
theorem window_generate_wrapping :
    let c : GeneratorConfig := { shape := .reordered, startTick := 18446744073709551600 }
    ∃ plain samples, c.plainTrace = some plain ∧ generate c = some samples ∧
      (after 64 (offers 0 samples)).retained =
        (c.shape.kept plain).drop ((c.shape.kept plain).length - (reset 64).capacity) ∧
      (after 64 (offers 0 samples)).metrics {} =
        (after 64 (offers 0 (c.shape.kept plain))).metrics {} :=
  window_generate { shape := .reordered, startTick := 18446744073709551600 } 64 0
    (fun _ => Or.inl rfl) {}

end Synthetic

end Mbg
