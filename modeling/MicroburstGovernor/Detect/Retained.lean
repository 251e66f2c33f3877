import MicroburstGovernor.Detect.Evidence
import MicroburstGovernor.Lib.Capped
import MicroburstGovernor.Lib.Runs
import Mathlib.Data.List.GetD
import Mathlib.Data.UInt

/-! What a window retains: its ring as the list of the samples stored last, the ticks that let a
    sample in, and what its metrics depend on. -/

namespace Mbg

/-! ### The ticks a source accepts -/

/-- How the tracker takes a step back for a rollover: it is longer than the way from the newest tick
    to the wrap point, by no more than the tolerance. -/
def ReadAsRollover (newest tick : Tick) (tolerance : UInt64) : Prop :=
  let backwards := (newest.value - tick.value).toNat
  let distanceToWrap := (2 ^ 64 - newest.value.toNat) % 2 ^ 64
  0 < backwards ∧ backwards ≤ 2 ^ 63 ∧ distanceToWrap < backwards ∧
    backwards - distanceToWrap ≤ tolerance.toNat

instance (newest tick : Tick) (tolerance : UInt64) :
    Decidable (ReadAsRollover newest tick tolerance) :=
  inferInstanceAs (Decidable (_ ∧ _ ∧ _ ∧ _))

/-- The sign of a tick's distance, read off the number of the opposite one. -/
theorem not_tickAfter_iff {a b : Tick} : ¬ tickAfter a b ↔ (a.value - b.value).toNat ≤ 2 ^ 63 := by
  rw [tickAfter_iff, UInt64.toNat_sub, UInt64.toNat_sub]
  have := a.value.toNat_lt
  have := b.value.toNat_lt
  omega

theorem tickDelta_eq_zero_iff {a b : Tick} : tickDelta a b = 0 ↔ (a.value - b.value).toNat = 0 := by
  have hzero : tickDelta a b = 0 ↔ b.value - a.value = 0 := by
    rw [tickDelta]
    constructor
    · intro h
      exact (UInt64.toUInt64_toInt64 _).symm.trans (congrArg Int64.toUInt64 h)
    · intro h
      rw [h]
      rfl
  rw [hzero, ← UInt64.toNat_inj, UInt64.toNat_sub, UInt64.toNat_sub]
  have := a.value.toNat_lt
  have := b.value.toNat_lt
  simp only [UInt64.toNat_zero]
  omega

theorem backwards_eq (a b : Tick) : (-(tickDelta a b + 1)).toUInt64 + 1 = a.value - b.value := by
  have h : (-(tickDelta a b + 1)).toUInt64 = -((tickDelta a b).toUInt64 + 1) := by
    rw [Int64.toUInt64_neg, Int64.toUInt64_add]
    rfl
  rw [h, tickDelta, UInt64.toUInt64_toInt64]
  grind

theorem distanceToWrap_eq (a : Tick) : ~~~0 - a.value + 1 = 0 - a.value := by
  have h : (~~~0 : UInt64) = -1 := rfl
  rw [h]
  grind

namespace TickSource

/-- A tick the source moves on to. -/
def Advances (t : TickSource) (tick : Tick) (tolerance : UInt64) : Prop :=
  t.hasObservation = false ∨ tickAfter t.last tick ∨ ReadAsRollover t.last tick tolerance

/-- A source moves on to a tick it accepts, and stays where it is at any other. -/
theorem observe_cases (t : TickSource) (tick : Tick) (tolerance : UInt64) :
    (t.Advances tick tolerance ∧ (t.observe tick tolerance).1.last = tick ∧
        (t.observe tick tolerance).1.hasObservation = true ∧
        (t.observe tick tolerance).2.observation ∈ [.first, .advance, .rollover]) ∨
      (¬ t.Advances tick tolerance ∧ (t.observe tick tolerance).1.last = t.last ∧
        (t.observe tick tolerance).1.hasObservation = t.hasObservation ∧
        (t.observe tick tolerance).2.observation ∈ [.duplicate, .reorder, .discontinuity]) := by
  rw [observe]
  cases hobs : t.hasObservation with
  | false => exact Or.inl ⟨Or.inl hobs, by simp⟩
  | true =>
    have hseen : ¬ t.hasObservation = false := by simp [hobs]
    rw [if_neg (by simp)]
    by_cases hafter : tickDelta t.last tick > 0
    · have hafter' : tickAfter t.last tick := by simpa [tickAfter] using hafter
      exact Or.inl ⟨Or.inr (Or.inl hafter'), by simp [hafter]⟩
    · have hafter' : ¬ tickAfter t.last tick := by simpa [tickAfter] using hafter
      have hle := not_tickAfter_iff.mp hafter'
      dsimp only
      rw [if_neg hafter, backwards_eq, distanceToWrap_eq]
      by_cases hsame : tickDelta t.last tick = 0
      · refine Or.inr ⟨?_, by simp [hsame]⟩
        rintro (h | h | ⟨hpos, -⟩)
        · exact hseen h
        · exact hafter' h
        · rw [tickDelta_eq_zero_iff.mp hsame] at hpos
          omega
      · rw [if_neg hsame]
        have hback : 0 < (t.last.value - tick.value).toNat := by
          rw [tickDelta_eq_zero_iff] at hsame
          omega
        have hroll : (t.last.value - tick.value > 0 - t.last.value ∧
            t.last.value - tick.value - (0 - t.last.value) ≤ tolerance) ↔
              ReadAsRollover t.last tick tolerance := by
          have hwrap : (0 - t.last.value).toNat = (2 ^ 64 - t.last.value.toNat) % 2 ^ 64 := by
            rw [UInt64.toNat_sub, UInt64.toNat_zero, Nat.add_zero]
          have hlt := (t.last.value - tick.value).toNat_lt
          rw [gt_iff_lt, UInt64.lt_iff_toNat_lt, UInt64.le_iff_toNat_le, UInt64.toNat_sub _ (0 - _),
            hwrap, ReadAsRollover]
          have := t.last.value.toNat_lt
          omega
        by_cases hr : ReadAsRollover t.last tick tolerance
        · rw [if_pos (hroll.mpr hr)]
          exact Or.inl ⟨Or.inr (Or.inr hr), rfl, rfl, by simp⟩
        · rw [if_neg (mt hroll.mp hr)]
          refine Or.inr ⟨?_, ?_⟩
          · rintro (h | h | h)
            · exact hseen h
            · exact hafter' h
            · exact hr h
          · split <;> simp

end TickSource

/-- The results of an offer that stored its sample. -/
def WindowAccept.stored : WindowAccept → Bool
  | .accepted | .capacityChanged => true
  | .duplicate | .reordered | .discontinuity => false

namespace EvidenceWindow

/-! ### The ring as a list -/

theorem retained_eq (w : EvidenceWindow) :
    w.retained = CappedRing.live w.samples w.head w.size := by
  have hsized := w.sized
  have hslots := w.slots
  refine List.ext_getElem (by simp [retained, CappedRing.live]; omega) fun i hi _ => ?_
  have hsize : i < w.size := by simpa [retained] using hi
  simp only [retained, List.getElem_map, List.getElem_range, sampleAt, CappedRing.live,
    List.getElem_take, List.getElem_rotate]
  rw [List.getD_eq_getElem _ _ (by rw [hslots]; exact Nat.mod_lt _ (by omega))]
  simp only [hslots, Nat.add_comm i]

theorem getLast?_retained {w : EvidenceWindow} (h : w.size ≠ 0) :
    w.retained.getLast? = some w.newest := by
  obtain ⟨n, hn⟩ := Nat.exists_eq_succ_of_ne_zero h
  rw [retained, newest, hn, List.range_succ, List.map_append]
  simp

theorem retained_cons {w : EvidenceWindow} (h : w.size ≠ 0) : ∃ rest,
    w.retained = w.oldest :: rest ∧
      (w.oldest :: rest).getLast (List.cons_ne_nil w.oldest rest) = w.newest := by
  obtain ⟨n, hn⟩ := Nat.exists_eq_succ_of_ne_zero h
  have hretained : w.retained = w.oldest :: ((List.range n).map Nat.succ).map w.sampleAt := by
    rw [retained, hn, List.range_succ_eq_map]
    rfl
  refine ⟨_, hretained, ?_⟩
  have hlast := getLast?_retained h
  rw [hretained, List.getLast?_eq_some_getLast (List.cons_ne_nil _ _)] at hlast
  exact Option.some.inj hlast

theorem retained_of_empty {w : EvidenceWindow} (h : w.size = 0) : w.retained = [] := by
  simp [retained, h]

/-- A full ring lets the oldest sample go. -/
theorem retained_push {w : EvidenceWindow} (hhead : w.head < w.capacity) (sample : Sample) :
    (w.push sample).retained =
      (if w.size = w.capacity then w.retained.tail else w.retained) ++ [sample] := by
  have hslots := w.slots
  have hsized := w.sized
  rw [retained_eq, retained_eq, push]
  split
  · rename_i hfull
    have h := CappedRing.live_set_full (l := w.samples) (i := w.head) (by omega) sample
    rw [hslots] at h
    change CappedRing.live (w.samples.set w.head sample) ((w.head + 1) % w.capacity) w.size =
      (CappedRing.live w.samples w.head w.size).tail ++ [sample]
    rw [hfull]
    exact h
  · have h := CappedRing.live_set (l := w.samples) (i := w.head) (n := w.size) (by omega) sample
    rw [hslots] at h
    exact h

/-! ### One offer -/

/-- The tracker follows the newest retained sample. -/
structure Tracked (w : EvidenceWindow) : Prop where
  head : w.head < w.capacity
  observed : w.tickSource.hasObservation = !w.empty
  last : w.size ≠ 0 → w.tickSource.last = w.newest.tick

/-- The offers a window takes: the first, one after the newest tick, one read as a rollover. -/
def Admits (w : EvidenceWindow) (sample : Sample) (tolerance : UInt64) : Prop :=
  w.size = 0 ∨ tickAfter w.newest.tick sample.tick ∨
    ReadAsRollover w.newest.tick sample.tick tolerance

instance (w : EvidenceWindow) (sample : Sample) (tolerance : UInt64) :
    Decidable (w.Admits sample tolerance) :=
  inferInstanceAs (Decidable (_ ∨ _ ∨ _))

/-- A sample declares a capacity change to a window that holds a sample. -/
def declaresChange (w : EvidenceWindow) (sample : Sample) : Bool :=
  !w.empty && hasFlag sample.flags SampleFlag.capacityChange

/-- The capacity changes an offer counts: the one it declares, and the one it shows against the
    newest sample when it is stored. -/
def changesBy (w : EvidenceWindow) (sample : Sample) (tolerance : UInt64) : ℕ :=
  (w.declaresChange sample).toNat +
    if w.Admits sample tolerance ∧ w.contradictsCapacity sample then 1 else 0

theorem tracked_reset (capacity : ℕ) : (reset capacity).Tracked :=
  ⟨lt_max_of_lt_right (show 0 < Limits.minWindowCapacity by decide), rfl, fun h => (h rfl).elim⟩

theorem capacity_push (w : EvidenceWindow) (sample : Sample) :
    (w.push sample).capacity = w.capacity := by
  rw [push]
  split <;> rfl

theorem head_push {w : EvidenceWindow} (h : w.head < w.capacity) (sample : Sample) :
    (w.push sample).head < (w.push sample).capacity := by
  rw [push]
  split
  · exact Nat.mod_lt _ (by omega)
  · exact h

theorem size_push_ne_zero {w : EvidenceWindow} (h : w.head < w.capacity) (sample : Sample) :
    (w.push sample).size ≠ 0 := by
  rw [push]
  split
  · rename_i hfull
    dsimp only
    omega
  · exact Nat.succ_ne_zero _

theorem newest_push {w : EvidenceWindow} (h : w.head < w.capacity) (sample : Sample) :
    (w.push sample).newest = sample := by
  have hlast := getLast?_retained (size_push_ne_zero h sample)
  rw [retained_push h, List.getLast?_concat] at hlast
  exact (Option.some.inj hlast).symm

theorem source_push (w : EvidenceWindow) (sample : Sample) :
    (w.push sample).tickSource = w.tickSource ∧
      (w.push sample).capacityChanges = w.capacityChanges := by
  rw [push]
  split <;> exact ⟨rfl, rfl⟩

/-- What an offer does: it stores the sample or leaves the retained ones alone, and counts the
    capacity changes it sees either way. -/
structure Offered (w : EvidenceWindow) (sample : Sample) (tolerance : UInt64)
    (o : EvidenceWindow × WindowAccept) : Prop where
  tracked : o.1.Tracked
  capacity : o.1.capacity = w.capacity
  admitted : w.Admits sample tolerance → o.2.stored = true ∧ o.1.retained =
    (if w.size = w.capacity then w.retained.tail else w.retained) ++ [sample]
  refused : ¬ w.Admits sample tolerance → o.2.stored = false ∧
    o.1.retained = w.retained
  changes : o.1.capacityChanges = w.capacityChanges + (w.changesBy sample tolerance).toUInt64

theorem capacityChanges_countFlags (w : EvidenceWindow) (sample : Sample) :
    (w.countFlags sample).capacityChanges =
      w.capacityChanges + (w.declaresChange sample).toNat.toUInt64 := by
  rw [declaresChange, countFlags]
  cases w.empty <;> cases hflag : hasFlag sample.flags SampleFlag.capacityChange <;> simp [hflag]

theorem changes_add (total : UInt64) (m n : ℕ) :
    total + m.toUInt64 + n.toUInt64 = total + (m + n).toUInt64 := by
  rw [UInt64.add_assoc, Nat.toUInt64_eq, Nat.toUInt64_eq, Nat.toUInt64_eq, UInt64.ofNat_add]

/-- A refused sample leaves the ring and the tracker's tick alone. -/
theorem Offered.of_refused {w w' : EvidenceWindow} (h : w.Tracked) {sample : Sample}
    {tolerance : UInt64} {accept : WindowAccept} (hin : ¬ w.Admits sample tolerance)
    (hring : w'.samples = w.samples ∧ w'.head = w.head ∧ w'.size = w.size ∧
      w'.capacity = w.capacity)
    (hsource : w'.tickSource.last = w.tickSource.last ∧
      w'.tickSource.hasObservation = w.tickSource.hasObservation)
    (hchanges : w'.capacityChanges =
      w.capacityChanges + (w.declaresChange sample).toNat.toUInt64)
    (hstored : accept.stored = false) : w.Offered sample tolerance (w', accept) := by
  obtain ⟨hsamples, hhead, hsize, hcapacity⟩ := hring
  have hat : w'.sampleAt = w.sampleAt := by
    funext i
    rw [sampleAt, sampleAt, hsamples, hhead, hcapacity]
  have hretained : w'.retained = w.retained := by rw [retained, retained, hsize, hat]
  refine ⟨⟨?_, ?_, ?_⟩, hcapacity, fun hadmits => (hin hadmits).elim, fun _ => ⟨hstored, hretained⟩,
    ?_⟩
  · rw [hhead, hcapacity]
    exact h.head
  · rw [hsource.2, h.observed, empty, empty, hsize]
  · rw [hsize, hsource.1, newest, hsize, hat]
    exact h.last
  · rw [hchanges, changesBy, if_neg fun hboth => hin hboth.1, Nat.add_zero]

/-- A stored sample is the newest, and the tracker's tick is its tick. -/
theorem Offered.of_stored {w w' : EvidenceWindow} (h : w.Tracked) {sample : Sample}
    {tolerance : UInt64} {changed : Bool} (hin : w.Admits sample tolerance)
    (hring : w'.samples = w.samples ∧ w'.head = w.head ∧ w'.size = w.size ∧
      w'.capacity = w.capacity)
    (hsource : w'.tickSource.last = sample.tick ∧ w'.tickSource.hasObservation = true)
    (hchanges : w'.capacityChanges =
      w.capacityChanges + (w.declaresChange sample).toNat.toUInt64)
    (hchanged : w.contradictsCapacity sample = changed) :
    w.Offered sample tolerance
      (if changed then
        ({ w'.push sample with capacityChanges := (w'.push sample).capacityChanges + 1 },
          .capacityChanged)
      else (w'.push sample, .accepted)) := by
  obtain ⟨hsamples, hhead, hsize, hcapacity⟩ := hring
  have hat : w'.sampleAt = w.sampleAt := by
    funext i
    rw [sampleAt, sampleAt, hsamples, hhead, hcapacity]
  have hretained : w'.retained = w.retained := by rw [retained, retained, hsize, hat]
  have hhead' : w'.head < w'.capacity := by
    rw [hhead, hcapacity]
    exact h.head
  have hpush := retained_push hhead' sample
  rw [hsize, hcapacity, hretained] at hpush
  have hempty : (!(w'.push sample).empty) = true := by
    simpa [empty] using size_push_ne_zero hhead' sample
  have hlast : (w'.push sample).tickSource.last = (w'.push sample).newest.tick := by
    rw [(source_push w' sample).1, newest_push hhead', hsource.1]
  have hobserved : (w'.push sample).tickSource.hasObservation = !(w'.push sample).empty := by
    rw [(source_push w' sample).1, hempty, hsource.2]
  have hcap := (capacity_push w' sample).trans hcapacity
  have hlt := head_push hhead' sample
  have hcount := (source_push w' sample).2.trans hchanges
  generalize w'.push sample = pushed at *
  subst hchanged
  cases hc : w.contradictsCapacity sample with
  | true =>
    refine ⟨⟨hlt, hobserved, fun _ => hlast⟩, hcap, fun _ => ⟨rfl, hpush⟩,
      fun hout => (hout hin).elim, ?_⟩
    simp only [if_true]
    rw [hcount, changesBy, if_pos ⟨hin, hc⟩, ← changes_add]
    rfl
  | false =>
    refine ⟨⟨hlt, hobserved, fun _ => hlast⟩, hcap, fun _ => ⟨rfl, hpush⟩,
      fun hout => (hout hin).elim, ?_⟩
    simp only [Bool.false_eq_true, if_false]
    rw [hcount, changesBy, if_neg (by simp [hc]), Nat.add_zero]

theorem offer_offered {w : EvidenceWindow} (h : w.Tracked) (sample : Sample) (tolerance : UInt64) :
    w.Offered sample tolerance (w.offer sample tolerance) := by
  have hadmits : w.tickSource.Advances sample.tick tolerance ↔ w.Admits sample tolerance := by
    rw [TickSource.Advances, Admits, h.observed, empty]
    by_cases hsize : w.size = 0
    · simp [hsize]
    · simp [hsize, h.last hsize]
  have hcases := w.tickSource.observe_cases sample.tick tolerance
  rw [hadmits] at hcases
  unfold offer
  extract_lets counted
  have hcount := w.capacityChanges_countFlags sample
  have hsource : counted.tickSource = w.tickSource := rfl
  have hring : counted.samples = w.samples ∧ counted.head = w.head ∧ counted.size = w.size ∧
    counted.capacity = w.capacity := ⟨rfl, rfl, rfl, rfl⟩
  have hchanged : counted.contradictsCapacity sample = w.contradictsCapacity sample := rfl
  change counted.capacityChanges = _ at hcount
  clear_value counted
  rw [hsource]
  generalize w.tickSource.observe sample.tick tolerance = p at *
  obtain ⟨source, ⟨observation, forward⟩⟩ := p
  dsimp only at hcases ⊢
  rcases hcases with ⟨hin, hlast, hobs, hmem⟩ | ⟨hin, hlast, hobs, hmem⟩
  · cases observation with
    | first => exact .of_stored h hin hring ⟨hlast, hobs⟩ hcount hchanged.symm
    | advance => exact .of_stored h hin hring ⟨hlast, hobs⟩ hcount hchanged.symm
    | rollover => exact .of_stored h hin hring ⟨hlast, hobs⟩ hcount hchanged.symm
    | duplicate => simp at hmem
    | reorder => simp at hmem
    | discontinuity => simp at hmem
  · cases observation with
    | duplicate => exact .of_refused h hin hring ⟨hlast, hobs⟩ hcount rfl
    | reorder => exact .of_refused h hin hring ⟨hlast, hobs⟩ hcount rfl
    | discontinuity => exact .of_refused h hin hring ⟨hlast, hobs⟩ hcount rfl
    | first => simp at hmem
    | advance => simp at hmem
    | rollover => simp at hmem

theorem mem_retained_offer {w : EvidenceWindow} (h : w.Tracked) {sample : Sample}
    {tolerance : UInt64} {s : Sample} (hs : s ∈ (w.offer sample tolerance).1.retained) :
    s ∈ w.retained ∨ (s = sample ∧ (w.offer sample tolerance).2.stored = true) := by
  have hoffer := offer_offered h sample tolerance
  by_cases hin : w.Admits sample tolerance
  · obtain ⟨hstored, hretained⟩ := hoffer.admitted hin
    rw [hretained, List.mem_append, List.mem_singleton] at hs
    rcases hs with hold | hnew
    · refine Or.inl ?_
      split_ifs at hold
      · exact List.mem_of_mem_tail hold
      · exact hold
    · exact Or.inr ⟨hnew, hstored⟩
  · rw [(hoffer.refused hin).2] at hs
    exact Or.inl hs

/-! ### Monotonic ticks -/

/-- One offer, with the tolerance it is made under. -/
def step (w : EvidenceWindow) (o : Sample × UInt64) : EvidenceWindow := (w.offer o.1 o.2).1

/-- The window after a sequence of offers. -/
def after (capacity : ℕ) (offers : List (Sample × UInt64)) : EvidenceWindow :=
  Runs.run step (reset capacity) offers

/-- The contract of one offer: a tick that is not after the newest is refused and changes nothing
    retained, and the retained ticks rise. -/
structure Monotonic (w : EvidenceWindow) (o : Sample × UInt64) : Prop where
  refused : w.size ≠ 0 → ¬ tickAfter w.newest.tick o.1.tick →
    (w.offer o.1 o.2).2.stored = false ∧ (w.step o).retained = w.retained
  adjacent : (w.step o).retained.IsChain fun a b => tickAfter a.tick b.tick

/-- The condition on an offer: its tick is no step back that is read as a rollover. -/
def NoFalseRollover (w : EvidenceWindow) (o : Sample × UInt64) : Prop :=
  w.size = 0 ∨ ¬ ReadAsRollover w.newest.tick o.1.tick o.2

instance (w : EvidenceWindow) (o : Sample × UInt64) : Decidable (w.NoFalseRollover o) :=
  inferInstanceAs (Decidable (_ ∨ ¬ _))

/-- What a run of offers keeps while no step back is read as a rollover. -/
structure Rising (w : EvidenceWindow) : Prop extends w.Tracked where
  rises : w.retained.IsChain fun a b => tickAfter a.tick b.tick

theorem not_tickAfter_of_readAsRollover {newest tick : Tick} {tolerance : UInt64}
    (h : ReadAsRollover newest tick tolerance) : ¬ tickAfter newest tick :=
  not_tickAfter_iff.mpr h.2.1

/-- A sample after the newest one extends the rising ticks, whether or not the oldest one goes. -/
theorem rises_concat {w : EvidenceWindow} (h : w.Rising) {sample : Sample}
    (hin : w.size = 0 ∨ tickAfter w.newest.tick sample.tick) :
    ((if w.size = w.capacity then w.retained.tail else w.retained) ++ [sample]).IsChain
      fun a b => tickAfter a.tick b.tick := by
  have hext : (w.retained ++ [sample]).IsChain fun a b => tickAfter a.tick b.tick := by
    rw [List.isChain_append]
    refine ⟨h.rises, List.isChain_singleton _, ?_⟩
    intro a ha b hb
    rw [List.head?_cons, Option.mem_some_iff] at hb
    subst hb
    rcases hin with hempty | hafter
    · rw [retained_of_empty hempty] at ha
      cases ha
    · have hsize : w.size ≠ 0 := by
        intro hzero
        rw [retained_of_empty hzero] at ha
        cases ha
      rw [getLast?_retained hsize, Option.mem_some_iff] at ha
      subst ha
      exact hafter
  split
  · cases hr : w.retained with
    | nil => exact List.isChain_singleton _
    | cons a rest =>
      rw [hr] at hext
      exact hext.tail
  · exact hext

/-- STEP: an offer keeps the contract exactly when it is no step back read as a rollover. -/
theorem monotonic_step {w : EvidenceWindow} (h : w.Rising) (o : Sample × UInt64) :
    (w.Monotonic o ↔ w.NoFalseRollover o) ∧ (w.Monotonic o → (w.step o).Rising) := by
  have hoffer := offer_offered h.toTracked o.1 o.2
  refine ⟨⟨?_, ?_⟩, fun hmono => ⟨hoffer.tracked, hmono.adjacent⟩⟩
  · intro hmono
    by_cases hsize : w.size = 0
    · exact Or.inl hsize
    · refine Or.inr fun hroll => ?_
      have hrefused := (hmono.refused hsize (not_tickAfter_of_readAsRollover hroll)).1
      rw [(hoffer.admitted (Or.inr (Or.inr hroll))).1] at hrefused
      cases hrefused
  · intro hno
    have hadmits : w.Admits o.1 o.2 ↔ w.size = 0 ∨ tickAfter w.newest.tick o.1.tick := by
      rw [Admits]
      rcases hno with hsize | hno
      · simp [hsize]
      · simp [hno]
    refine ⟨?_, ?_⟩
    · intro hsize hbefore
      refine hoffer.refused fun hin => ?_
      rcases hadmits.mp hin with hzero | hafter
      · exact hsize hzero
      · exact hbefore hafter
    · by_cases hin : w.Admits o.1 o.2
      · rw [step, (hoffer.admitted hin).2]
        exact rises_concat h (hadmits.mp hin)
      · rw [step, (hoffer.refused hin).2]
        exact h.rises

theorem rising_reset (capacity : ℕ) : (reset capacity).Rising :=
  ⟨tracked_reset capacity, by rw [retained_of_empty rfl]; exact List.isChain_nil⟩

/-- MONOTONIC TICKS: the offers of a run all keep the contract of the window exactly when none of
    them is a step back that the tracker reads as a rollover. -/
theorem monotonic_run (capacity : ℕ) (offers : List (Sample × UInt64)) :
    Runs.Meets step Monotonic (reset capacity) offers ↔
      Runs.Meets step NoFalseRollover (reset capacity) offers :=
  Runs.meets_iff_of_guarded (I := Rising) (fun _ o h => monotonic_step h o) (rising_reset capacity)

/-- A sample two ticks before the newest, at the top of the range, is stored as a rollover. -/
theorem monotonic_violated : ¬ ∀ capacity offers,
    Runs.Meets step Monotonic (reset capacity) offers := by
  intro h
  have hmono := (h 4 [({ tick := ⟨~~~0⟩ }, 8), ({ tick := ⟨~~~0 - 2⟩ }, 8)]).2.1
  have hstored := (hmono.refused (by decide +kernel) (by decide +kernel)).1
  revert hstored
  decide +kernel

/-! ### Metrics -/

/-- The capacity changes counted over the offers of a run. -/
def changesOver : EvidenceWindow → List (Sample × UInt64) → ℕ
  | _, [] => 0
  | w, o :: offers => w.changesBy o.1 o.2 + changesOver (w.step o) offers

theorem tracked_run {w : EvidenceWindow} (h : w.Tracked) (offers : List (Sample × UInt64)) :
    (Runs.run step w offers).Tracked ∧ (Runs.run step w offers).capacity = w.capacity ∧
      (Runs.run step w offers).capacityChanges =
        w.capacityChanges + (changesOver w offers).toUInt64 := by
  induction offers generalizing w with
  | nil => exact ⟨h, rfl, by simp [changesOver]⟩
  | cons o offers ih =>
    have hoffer := offer_offered h o.1 o.2
    obtain ⟨htracked, hcapacity, hchanges⟩ := ih (w := w.step o) hoffer.tracked
    refine ⟨htracked, hcapacity.trans hoffer.capacity, hchanges.trans ?_⟩
    rw [step, hoffer.changes, changes_add]
    rfl

/-- Only what was offered is retained. -/
theorem retained_of_offers (capacity : ℕ) (P : Sample → Prop) {offers : List (Sample × UInt64)}
    (h : ∀ o ∈ offers, P o.1) : ∀ s ∈ (after capacity offers).retained, P s := by
  have hinit : (reset capacity).Tracked ∧ ∀ s ∈ (reset capacity).retained, P s := by
    refine ⟨tracked_reset capacity, fun s hs => ?_⟩
    rw [retained_of_empty rfl] at hs
    cases hs
  refine (Runs.run_invariant (I := fun w : EvidenceWindow => w.Tracked ∧ ∀ s ∈ w.retained, P s)
    (fun w o hI (ho : P o.1) => ?_) hinit (Runs.meets_of_forall_mem h)).2
  refine ⟨(offer_offered hI.1 o.1 o.2).tracked, fun s hs => ?_⟩
  rcases mem_retained_offer hI.1 hs with hold | ⟨rfl, -⟩
  · exact hI.2 s hold
  · exact ho

theorem sampleAt_of_retained {w w' : EvidenceWindow} (h : w.retained = w'.retained) :
    w.size = w'.size ∧ ∀ i < w.size, w.sampleAt i = w'.sampleAt i := by
  have hsize : w.size = w'.size := by rw [← length_retained w, h, length_retained]
  refine ⟨hsize, fun i hi => ?_⟩
  rw [retained, retained, ← hsize, List.map_inj_left] at h
  exact h i (List.mem_range.mpr hi)

/-- The metrics read the retained samples, the capacity and whether a change was ever counted. -/
theorem metrics_eq_of_retained {w w' : EvidenceWindow} (h : w.retained = w'.retained)
    (hcapacity : w.capacity = w'.capacity) (policy : DetectionPolicy) :
    w.metrics policy = w'.metrics policy ↔ w.size = 0 ∨
      ((decide ((capacityVariants w.retained).2 > 0) || decide (w.capacityChanges > 0)) =
        (decide ((capacityVariants w.retained).2 > 0) || decide (w'.capacityChanges > 0))) := by
  obtain ⟨hsize, hat⟩ := sampleAt_of_retained h
  by_cases hzero : w.size = 0
  · rw [metrics, metrics, if_pos hzero, if_pos (hsize ▸ hzero)]
    exact iff_of_true rfl (Or.inl hzero)
  · have hnewest : w.newest = w'.newest := by
      rw [newest, newest, ← hsize]
      exact hat _ (by omega)
    have holdest : w.oldest = w'.oldest := hat 0 (by omega)
    have hprior : w.size ≥ 2 → w.sampleAt (w.size - 2) = w'.sampleAt (w.size - 2) :=
      fun _ => hat _ (by omega)
    constructor
    · intro heq
      have hc := congrArg Metrics.capacityChanged heq
      rw [(metrics_of_pos policy hzero).2.2, (metrics_of_pos policy (hsize ▸ hzero)).2.2, ← h] at hc
      exact Or.inr hc
    · intro hor
      have hc := hor.resolve_left hzero
      rw [metrics, metrics, if_neg hzero, if_neg (hsize ▸ hzero), ← h, hc, ← hsize, ← hcapacity,
        hnewest, holdest]
      by_cases htwo : w.size ≥ 2
      · rw [hprior htwo]
      · simp only [htwo, if_false]

/-- An offer leaves at least one sample in the window. -/
theorem size_step_ne_zero {w : EvidenceWindow} (h : w.Tracked) (o : Sample × UInt64) :
    (w.step o).size ≠ 0 := by
  have hoffer := offer_offered h o.1 o.2
  rw [← length_retained, step]
  by_cases hin : w.Admits o.1 o.2
  · rw [(hoffer.admitted hin).2]
    simp
  · rw [(hoffer.refused hin).2, length_retained]
    intro hzero
    exact hin (Or.inl hzero)

theorem offers_of_size_eq_zero {capacity : ℕ} {offers : List (Sample × UInt64)}
    (h : (after capacity offers).size = 0) : offers = [] := by
  rcases List.eq_nil_or_concat offers with rfl | ⟨earlier, o, rfl⟩
  · rfl
  · rw [List.concat_eq_append, after, Runs.run_concat] at h
    exact (size_step_ne_zero (tracked_run (tracked_reset capacity) earlier).1 o h).elim

theorem capacityChanges_after (capacity : ℕ) (offers : List (Sample × UInt64)) :
    decide ((after capacity offers).capacityChanges > 0) =
      !decide (changesOver (reset capacity) offers % 2 ^ 64 = 0) := by
  have h := (tracked_run (tracked_reset capacity) offers).2.2
  have hzero : (reset capacity).capacityChanges = 0 := rfl
  rw [hzero, UInt64.zero_add] at h
  rw [after, h, ← decide_not, decide_eq_decide, gt_iff_lt, UInt64.lt_iff_toNat_lt,
    UInt64.toNat_zero, Nat.toUInt64_eq, UInt64.toNat_ofNat', Nat.pos_iff_ne_zero]

end EvidenceWindow

end Mbg
