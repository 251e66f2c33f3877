import Mathlib.Data.List.Basic
import MicroburstGovernor.Detect.Evaluation

/-! Every episode a detector reports meets the checks of the event decoder. -/

namespace Mbg

/-! ### Grades and completeness -/

/-- A grade is the position of a step in the ladder. -/
theorem grade_valid (l : GradeLadder) (value : UInt64) : isValidSeverity (l.grade value).raw := by
  rw [GradeLadder.grade, GradeLadder.thresholds]
  simp only [List.zipIdx_cons, List.zipIdx_nil, List.foldl_cons, List.foldl_nil]
  repeat' split
  all_goals decide

theorem gradeRate_valid (l : GradeLadder) (value : RateQ16) :
    isValidSeverity (l.gradeRate value).raw := by
  rw [GradeLadder.gradeRate]
  split
  · rfl
  · exact grade_valid l _

theorem severityMax_valid {a b : SeverityClass} (ha : isValidSeverity a.raw)
    (hb : isValidSeverity b.raw) : isValidSeverity (severityMax a b).raw := by
  rw [severityMax]
  split
  · exact ha
  · exact hb

theorem severityMin_valid {a b : SeverityClass} (ha : isValidSeverity a.raw) :
    isValidSeverity (severityMin a b).raw := by
  rw [severityMin]
  split
  · exact ha
  · rename_i h
    rw [isValidSeverity, decide_eq_true_eq, UInt8.le_iff_toNat_le] at ha ⊢
    rw [UInt8.le_iff_toNat_le] at h
    omega

theorem classify_valid (metrics : BurstMetrics) (evidence : EvidenceSummary)
    (policy : DetectionPolicy) (tick : Tick) (explanation : Explanation) :
    isValidSeverity (classify metrics evidence policy tick explanation).1.overall.raw := by
  unfold classify
  extract_lets permille occupancy x₁ depth x₂ slope x₃ duration x₄ drops x₅ graded raised overall
  have hgraded : isValidSeverity graded.raw := by
    have h₁ := severityMax_valid (a := SeverityClass.none) rfl
      (grade_valid policy.occupancyPermilleLadder permille.toUInt64)
    have h₂ := severityMax_valid h₁ (grade_valid policy.depthLadder metrics.peakDepth)
    have h₃ := severityMax_valid h₂ (gradeRate_valid policy.slopeLadder metrics.peakSlopeQ16)
    have h₄ := severityMax_valid h₃ (grade_valid policy.durationLadder metrics.durationTicks)
    exact severityMax_valid h₄ (grade_valid policy.dropLadder metrics.dropDelta)
  have hraised : isValidSeverity raised.raw := by
    dsimp only [raised]
    split
    · rfl
    · exact hgraded
  dsimp only [overall]
  split
  · exact hraised
  · exact severityMin_valid hraised

theorem completeness_le (samples expected : UInt64) :
    EvidenceWindow.completeness samples expected ≤ 1000 := by
  rw [EvidenceWindow.completeness]
  split
  · decide
  · generalize saturatingMul samples 1000 / expected = ratio
    rw [UInt32.le_iff_toNat_le, UInt64.toNat_toUInt32]
    have hmin : min 1000 ratio ≤ 1000 := by
      change (if 1000 ≤ ratio then 1000 else ratio) ≤ 1000
      split
      · exact UInt64.le_refl _
      · rename_i h
        exact UInt64.le_of_lt (UInt64.not_le.mp h)
    rw [UInt64.le_iff_toNat_le] at hmin
    exact (Nat.mod_le _ _).trans hmin

theorem metrics_completeness_le (w : EvidenceWindow) (policy : DetectionPolicy) :
    (w.metrics policy).completenessPermille ≤ 1000 := by
  rw [EvidenceWindow.metrics]
  split
  · decide
  · exact completeness_le _ _

namespace DetectionDecision

/-- The decision is about the episode of its detector: it opened, updated or closed it. -/
def mirrors (r : DetectionDecision) : Bool := r.opened || r.updated || r.closed

end DetectionDecision

namespace Detector

/-- A detector with a decision of it: the episode that is open, or that the decision is about, is
    well formed. -/
structure Sound (d : Detector) (r : DetectionDecision) : Prop where
  key : d.key.valid
  stream : r.stream = d.key
  severity : isValidSeverity r.severity.raw
  episode : d.hasOpenEpisode ∨ r.mirrors → d.episode.WellFormed

/-! ### Episodes -/

section

variable {d : Detector} {r : DetectionDecision} (now : Tick)

theorem Sound.explain (h : Sound d r) (code : ReasonCode) (observed threshold : Int64) :
    Sound d (r.explain code observed threshold now) :=
  ⟨h.key, h.stream, h.severity, h.episode⟩

theorem Sound.explainIf (h : Sound d r) (applies : Bool) (code : ReasonCode)
    (observed threshold : Int64) : Sound d (r.explainIf applies code observed threshold now) := by
  cases applies with
  | false => exact h
  | true => exact h.explain now code observed threshold

theorem Sound.classified (h : Sound d r) (classification : Classification) :
    Sound d { r with classification } :=
  ⟨h.key, h.stream, h.severity, h.episode⟩

theorem openEpisode_decision : ∃ event explanation, (d.openEpisode now r).2 =
    { r with opened := true, event, explanation } := ⟨_, _, rfl⟩

/-- A new episode claims nothing yet. -/
theorem openEpisode_episode : (d.openEpisode now r).1.key = d.key ∧
    (d.openEpisode now r).1.episode.stream = d.key ∧
    (d.openEpisode now r).1.episode.severity = SeverityClass.none ∧
    (d.openEpisode now r).1.episode.evidence = {} :=
  ⟨rfl, rfl, rfl, rfl⟩

theorem sound_openEpisode (h : Sound d r) :
    Sound (d.openEpisode now r).1 (d.openEpisode now r).2 := by
  obtain ⟨event, explanation, hdecision⟩ := openEpisode_decision (d := d) (r := r) now
  obtain ⟨hkey, hstream, hseverity, hevidence⟩ := openEpisode_episode (d := d) (r := r) now
  rw [hdecision]
  generalize (d.openEpisode now r).1 = opened at *
  refine ⟨by rw [hkey]; exact h.key, by rw [hkey]; exact h.stream, h.severity, fun _ => ?_⟩
  refine ⟨by rw [hstream]; exact h.key, by rw [hseverity]; rfl, fun hpositive => ?_,
    by rw [hevidence]; decide⟩
  rw [BurstEvent.positive, hseverity] at hpositive
  simp at hpositive

theorem capSeverity_eq (s : SeverityClass) : ∃ severity explanation,
    d.capSeverity now s r = (severity, { r with explanation }) ∧
      (isValidSeverity s.raw → isValidSeverity severity.raw) := by
  rw [capSeverity]
  split
  · obtain ⟨explanation, h⟩ := r.explainIf_eq
      (decide (severityMin s d.policy.detection.degradedSeverityCap ≠ s)) ReasonCode.authorityDegraded
      s.raw.toUInt64.toInt64
      (severityMin s d.policy.detection.degradedSeverityCap).raw.toUInt64.toInt64 now
    exact ⟨_, explanation, by dsimp only; rw [h], severityMin_valid⟩
  · exact ⟨s, r.explanation, rfl, id⟩

/-- An update keeps the episode well formed: its evidence is admissible, its grade a severity. -/
theorem sound_updateEpisode (h : Sound d r) (m : EvidenceWindow.Metrics)
    (hauthority : r.authority ≠ .unknown) (hcomplete : r.evidence.completenessPermille ≤ 1000) :
    Sound (d.updateEpisode now m r).1 (d.updateEpisode now m r).2 := by
  by_cases hopen : d.hasOpenEpisode = true
  · have hepisode := h.episode (Or.inl hopen)
    rw [updateEpisode, if_neg (by simp [hopen])]
    dsimp only
    have hgrade := classify_valid (raiseMetrics d.episode.metrics m now) r.evidence
      d.policy.detection now r.explanation
    generalize classify (raiseMetrics d.episode.metrics m now) r.evidence d.policy.detection now
      r.explanation = graded at *
    obtain ⟨severity, explanation, hcap, hvalid⟩ := capSeverity_eq (d := d)
      (r := { r with explanation := graded.2 }) now graded.1.overall
    rw [hcap]
    exact ⟨h.key, h.stream, hvalid hgrade, fun _ =>
      ⟨hepisode.stream, hvalid hgrade, fun _ => hauthority, hcomplete⟩⟩
  · rw [updateEpisode, if_pos (by simpa using hopen)]
    exact h

theorem wellFormed_closeEpisode (hepisode : d.episode.WellFormed) (reason : CloseReason)
    (fenced : Bool) : (d.closeEpisode reason now r fenced).1.episode.WellFormed :=
  ⟨hepisode.stream, hepisode.severity, hepisode.authority, hepisode.completeness⟩

theorem sound_closeEpisode (h : Sound d r) (hepisode : d.episode.WellFormed) (reason : CloseReason)
    (fenced : Bool) :
    Sound (d.closeEpisode reason now r fenced).1 (d.closeEpisode reason now r fenced).2 := by
  have hclosed := wellFormed_closeEpisode (r := r) now hepisode reason fenced
  rw [closeEpisode] at hclosed ⊢
  refine Sound.explainIf now (Sound.explain now ?_ _ _ _) _ _ _ _
  exact ⟨h.key, h.stream, hepisode.severity, fun _ => hclosed⟩

end

/-! ### Evaluations -/

/-- A decision that may update an episode: admissible evidence, complete at most. -/
structure Admitted (r : DetectionDecision) : Prop where
  authority : r.authority ≠ .unknown
  completeness : r.evidence.completenessPermille ≤ 1000

theorem sound_transition {d : Detector} {r : DetectionDecision} (h : Sound d r) (ha : Admitted r)
    (now : Tick) (m : EvidenceWindow.Metrics) (adm : Admissibility) (cooldownOk releaseNow : Bool) :
    Sound (d.transition now m adm cooldownOk releaseNow r).1
      (d.transition now m adm cooldownOk releaseNow r).2 := by
  have hupdate := sound_updateEpisode now h m ha.authority ha.completeness
  have hupdated : d.hasOpenEpisode = true → (d.updateEpisode now m r).1.hasOpenEpisode = true :=
    fun hopen => (congrArg Current.isOpen (current_updateEpisode d now r m)).trans hopen
  rw [transition]
  cases hstate : d.state with
  | idle =>
    dsimp only
    split
    · have hopened := sound_openEpisode now h
      obtain ⟨event, explanation, hdecision⟩ := openEpisode_decision (d := d) (r := r) now
      generalize d.openEpisode now r = opened at *
      have hauthority : opened.2.authority ≠ .unknown := by rw [hdecision]; exact ha.authority
      have hcomplete : opened.2.evidence.completenessPermille ≤ 1000 := by
        rw [hdecision]
        exact ha.completeness
      exact (sound_updateEpisode now hopened m hauthority hcomplete).classified _
    · split
      · exact h.classified _
      · exact h.classified _
  | active =>
    dsimp only
    split
    · have hopen := hupdated (by rw [hasOpenEpisode, hstate]; rfl)
      have hepisode := hupdate.episode (Or.inl hopen)
      exact ⟨hupdate.key, hupdate.stream, hupdate.severity, fun _ => hepisode⟩
    · exact hupdate.classified _
  | recovering =>
    have hopen : d.hasOpenEpisode = true := by rw [hasOpenEpisode, hstate]; rfl
    dsimp only
    split
    · -- a merged onset: the episode goes on
      have hactive : Sound { d with
            state := .active, releaseSustaining := false, releaseProgressTicks := 0 }
          (r.explain ReasonCode.episodeMerged 0 0 now) :=
        ⟨h.key, h.stream, h.severity, fun _ => h.episode (Or.inl hopen)⟩
      exact (sound_updateEpisode now hactive m ha.authority ha.completeness).classified _
    · split
      · exact (sound_closeEpisode now hupdate (hupdate.episode (Or.inl (hupdated hopen))) _
          _).classified _
      · exact hupdate.classified _

theorem sound_enforceCeiling {d : Detector} {r : DetectionDecision} (h : Sound d r) (now : Tick) :
    Sound (d.enforceCeiling now r).1 (d.enforceCeiling now r).2 := by
  rw [enforceCeiling]
  dsimp only
  split
  · rename_i hover
    have hopen : d.hasOpenEpisode = true := by
      rw [Bool.and_eq_true] at hover
      exact hover.1
    exact (sound_closeEpisode now (h.explain now _ _ _) (h.episode (Or.inl hopen)) _ _).classified _
  · exact h

theorem sound_evaluateAdmissible {d : Detector} {r : DetectionDecision} (h : Sound d r)
    (hcomplete : r.evidence.completenessPermille ≤ 1000) (now : Tick) (gap : UInt64)
    (m : EvidenceWindow.Metrics) (adm : Admissibility) :
    Sound (d.evaluateAdmissible now gap m adm r).1 (d.evaluateAdmissible now gap m adm r).2 := by
  obtain ⟨d', r', cooldownOk, releaseNow, heq, hset, -, -, hv, -, -, hepisode, hstate, hevidence⟩ :=
    d.evaluateAdmissible_eq now gap m adm r
  rw [heq]
  have hkey : d'.key = d.key := congrArg Setup.key hset
  have hstream : r'.stream = r.stream := congrArg DetectionDecision.Verdict.stream hv
  have hseverity : r'.severity = r.severity := congrArg DetectionDecision.Verdict.severity hv
  have hmirrors : r'.mirrors = r.mirrors := by
    have ho : r'.opened = r.opened := congrArg DetectionDecision.Verdict.opened hv
    have hu : r'.updated = r.updated := congrArg DetectionDecision.Verdict.updated hv
    have hc : r'.closed = r.closed := congrArg DetectionDecision.Verdict.closed hv
    rw [DetectionDecision.mirrors, DetectionDecision.mirrors, ho, hu, hc]
  have hauthority : r'.authority = if adm.degradedAllowed then .degraded else .authoritative :=
    congrArg DetectionDecision.Verdict.authority hv
  have h' : Sound d' r' := by
    refine ⟨by rw [hkey]; exact h.key, by rw [hstream, hkey]; exact h.stream,
      by rw [hseverity]; exact h.severity, ?_⟩
    rw [hasOpenEpisode, hstate, hmirrors, hepisode]
    exact h.episode
  have ha : Admitted r' := by
    refine ⟨?_, by rw [hevidence]; exact hcomplete⟩
    rw [hauthority]
    split <;> decide
  exact sound_enforceCeiling (sound_transition h' ha now m adm cooldownOk releaseNow) now

theorem sound_evaluateInadmissible {d : Detector} {r : DetectionDecision} (h : Sound d r)
    (now : Tick) (adm : Admissibility) :
    Sound (d.evaluateInadmissible now adm r).1 (d.evaluateInadmissible now adm r).2 := by
  unfold evaluateInadmissible
  extract_lets dp r₁ d₁ staleExcess held reason
  have hr₁ : Sound d r₁ := ⟨h.key, h.stream, rfl, h.episode⟩
  by_cases hopen : d.hasOpenEpisode = true
  · have hepisode := h.episode (Or.inl hopen)
    have hd₁ : d₁.key = d.key ∧ d₁.episode = d.episode := by
      dsimp only [d₁]
      split <;> exact ⟨rfl, rfl⟩
    have hepisode₁ : d₁.episode.WellFormed := by
      rw [hd₁.2]
      exact hepisode
    have h₁ : Sound d₁ r₁ :=
      ⟨by rw [hd₁.1]; exact h.key, by rw [hd₁.1]; exact h.stream, rfl, fun _ => hepisode₁⟩
    rw [if_neg (by simp [hopen])]
    split
    · exact ⟨h₁.key, h₁.stream, hepisode₁.severity, fun _ => hepisode₁⟩
    · exact (sound_closeEpisode now h₁ hepisode₁ reason true).classified _
  · rw [if_pos (by simpa using hopen)]
    exact hr₁

theorem evidence_explainEvidence (d : Detector) (m : EvidenceWindow.Metrics) (adm : Admissibility)
    (now : Tick) (r : DetectionDecision) :
    (d.explainEvidence m adm now r).evidence = r.evidence := by
  rw [explainEvidence]
  dsimp only [DetectionDecision.explain]
  split
  · rfl
  · simp only [DetectionDecision.evidence_explainIf]

theorem sound_evaluateFresh {d : Detector} (hkey : d.key.valid)
    (hepisode : d.hasOpenEpisode → d.episode.WellFormed) (now : Tick) :
    Sound (d.evaluateFresh now).1 (d.evaluateFresh now).2 := by
  unfold evaluateFresh
  extract_lets gap d₁ metrics r₀ adm r₁
  have hr₁ : r₁.verdict = (d.newDecision now).verdict := verdict_explainEvidence ..
  have hcomplete : r₁.evidence.completenessPermille ≤ 1000 := by
    have hevidence : r₁.evidence = r₀.evidence := evidence_explainEvidence ..
    rw [hevidence]
    exact metrics_completeness_le d₁.window d.policy.detection
  have hstream : r₁.stream = d.key := congrArg DetectionDecision.Verdict.stream hr₁
  have hseverity : r₁.severity = SeverityClass.none :=
    congrArg DetectionDecision.Verdict.severity hr₁
  have hmirrors : r₁.mirrors = false := by
    have ho : r₁.opened = false := congrArg DetectionDecision.Verdict.opened hr₁
    have hu : r₁.updated = false := congrArg DetectionDecision.Verdict.updated hr₁
    have hc : r₁.closed = false := congrArg DetectionDecision.Verdict.closed hr₁
    rw [DetectionDecision.mirrors, ho, hu, hc]
    rfl
  have hd₁ : d₁.key = d.key ∧ d₁.hasOpenEpisode = d.hasOpenEpisode ∧ d₁.episode = d.episode :=
    ⟨rfl, rfl, rfl⟩
  clear_value d₁ r₁ adm
  have h₁ : Sound d₁ r₁ := by
    refine ⟨by rw [hd₁.1]; exact hkey, by rw [hd₁.1]; exact hstream, by rw [hseverity]; rfl,
      fun hopen => ?_⟩
    rw [hmirrors, hd₁.2.1] at hopen
    rw [hd₁.2.2]
    exact hepisode (hopen.resolve_right Bool.false_ne_true)
  cases adm.admissible with
  | false =>
    have h := sound_evaluateInadmissible h₁ now adm
    exact ⟨h.key, h.stream, h.severity, h.episode⟩
  | true =>
    have h := sound_evaluateAdmissible h₁ hcomplete now gap metrics adm
    exact ⟨h.key, h.stream, h.severity, h.episode⟩

/-! ### Calls -/

/-- Whatever the detector reports next is well formed: its open episode, and what it would repeat. -/
structure WellFormed (d : Detector) : Prop where
  key : d.key.valid
  episode : d.hasOpenEpisode → d.episode.WellFormed
  cached : d.hasEvaluated → Sound d d.lastDecision

theorem wellFormed_configure {key : StreamKey} (h : key.valid) (d : Detector) (policy : Policy)
    (generation : PolicyGeneration) : (d.configure key policy generation).WellFormed :=
  ⟨h, nofun, nofun⟩

theorem wellFormed_evaluate {d : Detector} (h : d.WellFormed) (now : Tick) :
    (d.evaluate now).1.WellFormed ∧ Sound (d.evaluate now).1 (d.evaluate now).2 := by
  cases hfresh : d.freshAt now with
  | true =>
    rw [evaluate_fresh hfresh]
    have hsound := sound_evaluateFresh h.key h.episode now
    have hcached := (d.evaluated_evaluateFresh now).cached
    refine ⟨⟨hsound.key, fun hopen => hsound.episode (Or.inl hopen), fun _ => ?_⟩, hsound⟩
    rw [hcached]
    exact hsound
  | false =>
    rw [evaluate_cached hfresh]
    have hevaluated : d.hasEvaluated = true := by
      rw [freshAt, Bool.or_eq_false_iff] at hfresh
      simpa using hfresh.1
    exact ⟨h, h.cached hevaluated⟩

/-- Fencing an open episode leaves a detector with none, and a decision about it. -/
theorem wellFormed_fenceDecision {d : Detector} (h : d.WellFormed) (hopen : d.hasOpenEpisode = true)
    (reason : CloseReason) (now : Tick) : (d.fenceDecision reason now).1.WellFormed ∧
      Sound (d.fenceDecision reason now).1 (d.fenceDecision reason now).2 := by
  have hepisode := h.episode hopen
  have hnew : Sound d (d.newDecision now) := ⟨h.key, rfl, rfl, fun _ => hepisode⟩
  have hsound := sound_closeEpisode now hnew hepisode reason true
  have hfenced := d.fenced_fenceDecision reason now
  rw [fenceDecision] at hfenced ⊢
  have hclosed := wellFormed_closeEpisode (r := d.newDecision now) now hepisode reason true
  have hevaluated : (d.closeEpisode reason now (d.newDecision now) true).1.hasEvaluated =
      d.hasEvaluated := rfl
  generalize d.closeEpisode reason now (d.newDecision now) true = e at *
  have hkey : e.1.key = d.key := congrArg Setup.key hfenced.setup
  refine ⟨⟨hsound.key, fun _ => hclosed, fun hcached => ?_⟩, hsound.classified _⟩
  have hlast := h.cached (hevaluated.symm.trans hcached)
  have hcached' : e.1.lastDecision = d.lastDecision := hfenced.cached
  dsimp only
  rw [hcached']
  exact ⟨hsound.key, by rw [hkey]; exact hlast.stream, hlast.severity, fun _ => hclosed⟩

theorem wellFormed_ingest {d : Detector} (h : d.WellFormed) {sample : Sample}
    {result : Detector × DetectionDecision} (hingest : d.ingest sample = .ok result) :
    result.1.WellFormed ∧ Sound result.1 result.2 := by
  obtain ⟨hkey, hvalid⟩ := ingest_ok hingest
  rw [ingest_eq hkey hvalid] at hingest
  obtain rfl := Except.ok.inj hingest
  by_cases hfence : (d.changesGeneration sample && d.hasOpenEpisode) = true
  · rw [if_pos hfence]
    rw [Bool.and_eq_true] at hfence
    obtain ⟨hwell, hsound⟩ := wellFormed_fenceDecision h hfence.2 CloseReason.capacityChanged
      sample.tick
    rw [fenceGeneration]
    generalize d.fenceDecision CloseReason.capacityChanged sample.tick = e at *
    refine ⟨⟨hwell.key, hwell.episode, fun hevaluated => ?_⟩,
      ⟨hsound.key, hsound.stream, hsound.severity, hsound.episode⟩⟩
    have hcached := hwell.cached hevaluated
    exact ⟨hcached.key, hcached.stream, hcached.severity, hcached.episode⟩
  · rw [if_neg hfence]
    obtain ⟨resourceGeneration, window, lastAccept, hoffer⟩ := d.offerSample_eq sample
    refine wellFormed_evaluate ?_ sample.tick
    rw [hoffer]
    refine ⟨h.key, h.episode, fun hevaluated => ?_⟩
    have hcached := h.cached hevaluated
    exact ⟨hcached.key, hcached.stream, hcached.severity, hcached.episode⟩

theorem wellFormed_rearm {d : Detector} (h : d.WellFormed) (policy : Policy)
    (generation : PolicyGeneration) (now : Tick) :
    (d.rearm policy generation now).1.WellFormed ∧
      ((d.rearm policy generation now).2.isSome →
        (d.rearm policy generation now).1.episode.WellFormed) := by
  rw [rearm]
  cases hopen : d.hasOpenEpisode with
  | false =>
    simp only [Bool.false_eq_true, if_false]
    have hidle : false ≠ true := Bool.false_ne_true
    exact ⟨⟨h.key, fun hopened => absurd hopened hidle, fun hcached => absurd hcached hidle⟩,
      fun hsome => absurd hsome hidle⟩
  | true =>
    simp only [if_true]
    obtain ⟨hwell, hsound⟩ := wellFormed_fenceDecision h hopen CloseReason.policyChanged now
    have hfenced := d.fenced_fenceDecision CloseReason.policyChanged now
    generalize d.fenceDecision CloseReason.policyChanged now = e at *
    have hmirrors : e.2.mirrors = true := by
      rw [DetectionDecision.mirrors, hfenced.closed, Bool.or_true]
    have hidle : false ≠ true := Bool.false_ne_true
    exact ⟨⟨hwell.key, fun hopened => absurd hopened hidle, fun hcached => absurd hcached hidle⟩,
      fun _ => hsound.episode (Or.inr hmirrors)⟩

end Detector

end Mbg
