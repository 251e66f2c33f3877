import MicroburstGovernor.Governor.AuthorityInForce
import MicroburstGovernor.Governor.Episodes

/-! The names in the stream table: an entry's detector carries the key the entry stands under. -/

namespace Mbg

namespace Core

open Detector (Current)

/-- The detector of each stream carries its key, and its episode the identity of its onset. -/
def NamedStreams (c : Core) : Prop := ∀ key entry, c.streams.find? key = some entry →
  entry.detector.key = key ∧ entry.detector.current.Named

section

variable {c c' : Core}

theorem NamedStreams.insert (h : c.NamedStreams) {key : StreamKey} {entry : StreamEntry}
    (hstreams : c'.streams = c.streams.insert key entry) (hkey : entry.detector.key = key)
    (hnamed : entry.detector.current.Named) : c'.NamedStreams := by
  intro key' entry' hfind
  rw [hstreams, OrderedMap.find?_insert] at hfind
  split_ifs at hfind with hk
  · cases hfind
    exact ⟨hkey.trans hk.symm, hnamed⟩
  · exact h key' entry' hfind

/-- Whatever a detector answers, it keeps its key, and the name of its episode. -/
theorem named_answer {fences : Bool} {d d' : Detector} {now : Tick} {r : DetectionDecision}
    (ha : Detector.Answer fences d now d' r) (h : d.current.Named) :
    d'.key = d.key ∧ d'.current.Named := by
  cases ha with
  | fenced _ announces => exact announces.named h
  | evaluated announces => exact announces.named h
  | cached same =>
    rw [show d'.current = d.current from same.current]
    exact ⟨congrArg Current.key same.current, h⟩

theorem NamedStreams.answer (h : c.NamedStreams) {key : StreamKey} {entry : StreamEntry}
    (hfind : c.streams.find? key = some entry) {fences : Bool} {now : Tick} {d' : Detector}
    {r : DetectionDecision} (ha : Detector.Answer fences entry.detector now d' r) (at' : Tick) :
    (c.mirrorDecision key { entry with detector := d' } r at').NamedStreams := by
  obtain ⟨hkey, hnamed⟩ := h key entry hfind
  obtain ⟨hkey', hnamed'⟩ := named_answer ha hnamed
  refine h.insert (c.streams_mirrorDecision key { entry with detector := d' } r at') ?_ ?_
  · rw [detector_mirroredEntry]
    exact hkey'.trans hkey
  · rw [detector_mirroredEntry]
    exact hnamed'

theorem NamedStreams.raiseLastTick (h : c.NamedStreams) (tick : Tick) :
    (c.raiseLastTick tick).NamedStreams := by
  rw [Core.raiseLastTick]
  split <;> exact h

theorem NamedStreams.ingest (h : c.NamedStreams) (sample : Sample) :
    (c.ingest sample).NamedStreams := by
  refine ingest_induct h (fun _ => ?_) (fun c₁ h₁ => ?_) ?_ (fun c₁ tick h₁ => h₁.raiseLastTick tick)
    fun c₁ tick _ h₁ => h₁
  · have hfresh : (c.setEntry sample.stream (c.freshEntry sample.stream)).streams =
        c.streams.insert sample.stream (c.freshEntry sample.stream) := rfl
    exact h.insert hfresh rfl (Or.inr ⟨rfl, rfl⟩)
  · obtain ⟨generations, heq⟩ := c₁.base_observeGeneration sample
    rw [heq]
    exact h₁
  · intro c₁ entry d' r _ h₁ hfind₁ _ ha _
    exact h₁.answer hfind₁ ha r.tick

theorem NamedStreams.advance (h : c.NamedStreams) (now : Tick) : (c.advance now).NamedStreams :=
  advance_induct h (fun _ _ _ _ _ h₁ hfind₁ _ _ ha _ _ => h₁.answer hfind₁ ha now)
    (fun _ h₁ => h₁.raiseLastTick now) fun _ h₁ => h₁

theorem NamedStreams.rearmStream (h : c.NamedStreams) (key : StreamKey) :
    (c.rearmStream key).NamedStreams := by
  cases hfind : c.streams.find? key with
  | none =>
    rw [Core.rearmStream, hfind]
    exact h
  | some entry =>
    obtain ⟨hkey, hnamed⟩ := h key entry hfind
    have hr := entry.detector.rearmed_rearm (c.policies.resolve entry.detector.key.resource)
      c.policies.generation c.lastTick
    refine h.insert (congrArg Base.streams (base_rearmStream hfind)) (hr.key.trans hkey) ?_
    rw [show (c.rearmedEntry entry).detector.current = _ from hr.current]
    rcases hnamed with hnamed | ⟨hunset, -⟩
    · exact Or.inl hnamed
    · exact Or.inr ⟨hunset, rfl⟩

theorem NamedStreams.rearm : ∀ (keys : List StreamKey) {c : Core}, c.NamedStreams →
    (c.rearm keys).NamedStreams
  | [], _, h => h
  | key :: keys, _, h => NamedStreams.rearm keys (h.rearmStream key)

/-- STEP: no operation loses a name. -/
theorem NamedStreams.step (h : c.NamedStreams) (op : Governor.Op) : (c.step op).NamedStreams := by
  cases op with
  | ingest sample => exact h.ingest sample
  | advance now => exact h.advance now
  | installPolicy policy =>
    rw [Core.step, Core.installPolicy]
    split
    · exact h
    · exact NamedStreams.rearm _ (c := c.adoptPolicies _) h
  | setResourcePolicy resource policy =>
    rw [Core.step, Core.setResourcePolicy]
    split
    · exact h
    · exact NamedStreams.rearm _ (c := c.adoptPolicies _) h
  | removeResourcePolicy resource =>
    rw [Core.step, Core.removeResourcePolicy]
    split <;> exact h
  | bindAuthority epoch incarnation boot =>
    rw [Core.step, Core.bindAuthority]
    split <;> exact h
  | setResourceGeneration resource generation =>
    rw [Core.step, Core.setResourceGeneration]
    split <;> exact h
  | setInterventionsEnabled enabled =>
    rw [Core.step, Core.setInterventionsEnabled]
    dsimp only
    split <;> exact h
  | bindStore store => exact h
  | checkpoint => exact h
  | restore => exact h
  | drainEmissions => exact h

end

end Core

end Mbg
