import MicroburstGovernor.Governor.CoreFrame

/-! The table of intents after a step: what a sweep leaves in it and what a request puts there. -/

namespace Mbg

namespace Core

theorem mem_sweep {c : Core} {fate : InterventionIntent → Fate} {now : Tick}
    {e : InterventionId × InterventionIntent} :
    e ∈ (c.sweep fate now).interventions.entries ↔
      e ∈ c.interventions.entries ∧ fate e.2 = .keep := by
  simp [sweep, UnorderedMap.mem_filter]

theorem refreshFate_eq_keep {c : Core} {now : Tick} {onlyEvent : EventId}
    {intent : InterventionIntent} : c.refreshFate now onlyEvent intent = .keep ↔
      (onlyEvent.valid ∧ intent.event ≠ onlyEvent) ∨
        intent.live = true ∧ c.verdictFor intent now = AuthorityVerdict.valid := by
  rw [refreshFate]
  split
  · simp_all
  · rename_i h
    simp only [h, false_or]
    cases intent.live with
    | false => simp
    | true =>
      simp only [Bool.not_true, Bool.false_eq_true, if_false, true_and]
      split <;> simp_all

theorem verdictFor_eq_valid {c : Core} {intent : InterventionIntent} {now : Tick} :
    c.verdictFor intent now = AuthorityVerdict.valid ↔
      evaluateAuthority intent.authority c.context (c.observedGeneration intent.stream.resource) now =
        AuthorityVerdict.valid ∧ c.openEvents.contains intent.event = true := by
  rw [verdictFor]
  split
  · rename_i h
    simp_all [AuthorityVerdict.eventClosed, AuthorityVerdict.valid]
  · rename_i h
    simp only [not_and, Bool.not_eq_true', Bool.not_eq_false] at h
    exact ⟨fun hv => ⟨hv, h hv⟩, And.left⟩

/-- After a revalidation of all intents the table holds live ones with a valid verdict. -/
theorem mem_refresh {c : Core} {now : Tick} {e : InterventionId × InterventionIntent} :
    e ∈ (c.refresh now).interventions.entries ↔ e ∈ c.interventions.entries ∧ e.2.live = true ∧
      c.verdictFor e.2 now = AuthorityVerdict.valid := by
  have hdefault : (default : EventId).valid = false := by decide
  rw [refresh, mem_sweep, refreshFate_eq_keep]
  simp [hdefault]

section

variable (c : Core) (decision : DetectionDecision) (now : Tick) (kind : InterventionKind)
  (limit : InterventionKindLimit) (intent : InterventionIntent)

@[simp] theorem context_renew : (c.renew decision now limit intent).context = c.context := by
  rw [renew]

@[simp] theorem context_issue : (c.issue decision now kind limit).context = c.context := by
  rw [issue]

/-- A renewal moves the expiry of an intent, nothing else of its authority. -/
theorem authority_refreshedIntent : (c.shell.refreshedIntent decision now limit intent).authority =
    { intent.authority with expiryTick := addTicksSaturating now limit.ttlTicks } := by
  simp only [Governor.refreshedIntent]

theorem live_refreshedIntent : (c.shell.refreshedIntent decision now limit intent).live = true := by
  simp only [Governor.refreshedIntent, InterventionIntent.live]
  rfl

theorem live_newIntent : (c.shell.newIntent decision now kind limit).live = true := by
  simp only [Governor.newIntent, InterventionIntent.live]
  rfl

end

theorem mem_renew {c : Core} {decision : DetectionDecision} {now : Tick}
    {limit : InterventionKindLimit} {intent : InterventionIntent}
    {e : InterventionId × InterventionIntent}
    (he : e ∈ (c.renew decision now limit intent).interventions.entries) :
    e ∈ c.interventions.entries ∨
      e = (intent.id, c.shell.refreshedIntent decision now limit intent) := by
  obtain ⟨v, hv, heq⟩ := UnorderedMap.mem_mapValues.mp he
  split at heq
  · rename_i hid
    exact Or.inr (Prod.ext hid heq.symm)
  · subst heq
    exact Or.inl hv

theorem mem_issue {c : Core} {decision : DetectionDecision} {now : Tick} {kind : InterventionKind}
    {limit : InterventionKindLimit} {e : InterventionId × InterventionIntent}
    (he : e ∈ (c.issue decision now kind limit).interventions.entries) :
    e ∈ c.interventions.entries ∨
      e = ((c.shell.newIntent decision now kind limit).id,
        c.shell.newIntent decision now kind limit) := by
  dsimp only [issue] at he
  by_cases hmem : (c.shell.newIntent decision now kind limit).id ∈ c.interventions.keys
  · rw [UnorderedMap.emplace, dif_pos (UnorderedMap.contains_iff.mpr hmem)] at he
    exact Or.inl he
  · exact ((UnorderedMap.mem_emplace _ hmem).mp he).symm

theorem mem_of_liveIntentFor {c : Core} {event : EventId} {kind : InterventionKind}
    {intent : InterventionIntent} (h : c.shell.liveIntentFor event kind = some intent) :
    (∃ id, (id, intent) ∈ c.interventions.entries) ∧ intent.live = true ∧ intent.event = event ∧
      intent.kind = kind := by
  have hprop := List.find?_some h
  have hmem := List.mem_of_find?_eq_some h
  obtain ⟨e, he, rfl⟩ := List.mem_map.mp hmem
  simp only [Bool.and_eq_true, decide_eq_true_eq] at hprop
  exact ⟨⟨e.1, he⟩, hprop.1.1, hprop.1.2, hprop.2⟩

/-- Mirroring an episode adds no intent. -/
theorem mem_mirrorEpisode {c : Core} {event : BurstEvent} {decision : DetectionDecision}
    {now : Tick} {e : InterventionId × InterventionIntent}
    (he : e ∈ (c.mirrorEpisode event decision now).interventions.entries) :
    e ∈ c.interventions.entries := by
  unfold mirrorEpisode at he
  extract_lets c₁ at he
  have h₁ : c₁.interventions = c.interventions := by
    dsimp only [c₁]
    split
    · rfl
    · split <;> rfl
  rw [← h₁]
  split at he
  · have hswept : e ∈ ({ c₁ with openEvents := c₁.openEvents.erase event.id }.refresh now
        event.id).interventions.entries := he
    exact (mem_sweep.mp hswept).1
  · exact he

end Core

end Mbg
