import MicroburstGovernor.Governor.Deeds

/-! Advancing twice to one tick: what the first call leaves behind, the second finds settled.

    A stream that was advanced is at the tick, a stream that was not is at it or past it, and an intent
    that survived the sweep is valid under everything the sweep reads, none of which it writes. -/

namespace Mbg

namespace Governor

/-! ### Streams that are at the tick -/

/-- No stream has anything to evaluate at the tick. -/
def AtTick (c : Core) (now : Tick) : Prop :=
  ∀ key entry, c.streams.find? key = some entry → entry.detector.freshAt now = false

theorem freshAt_advancedEntry (now : Tick) (entry : StreamEntry) :
    (Core.advancedEntry now entry).detector.freshAt now = false := by
  rw [Core.advancedEntry]
  split
  · rw [Core.detector_mirroredEntry]
    exact (entry.detector.evaluated_evaluateFresh now).atTick
  · rename_i hstale
    exact Bool.eq_false_iff.mpr hstale

theorem atTick_advance (c : Core) (now : Tick) : AtTick (c.advance now) now := by
  intro key entry hfind
  cases hbefore : c.streams.find? key with
  | some before =>
    rw [Core.find?_advance hbefore, Option.some.injEq] at hfind
    rw [← hfind]
    exact freshAt_advancedEntry now before
  | none =>
    have hkey : key ∉ c.streams.keys := by
      intro hmem
      obtain ⟨before, hfound⟩ := OrderedMap.mem_keys_iff.mp hmem
      rw [hfound] at hbefore
      cases hbefore
    rw [Core.streams_advance, Core.find?_foldl_advanceStream now _ c c.streams.nodup_keys,
      if_neg hkey, hbefore] at hfind
    cases hfind

/-- A stream that is at the tick is passed over. -/
theorem foldl_advanceStream_atTick {g : Governor} {now : Tick} (h : AtTick g.core now)
    (result : AdvanceResult) : ∀ keys : List StreamKey,
      keys.foldl (advanceStream now) (g, result) = (g, result)
  | [] => rfl
  | key :: keys => by
    have hturn : advanceStream now (g, result) key = (g, result) := by
      rw [advanceStream]
      dsimp only
      cases hfind : g.streams.find? key with
      | none => rfl
      | some entry =>
        have hstale := h key entry hfind
        dsimp only
        rw [hstale]
        rfl
    rw [List.foldl_cons, hturn]
    exact foldl_advanceStream_atTick h result keys

/-! ### Intents that are valid at the tick -/

/-- Every intent that stands keeps standing. -/
def IntentsHold (c : Core) (now : Tick) : Prop :=
  ∀ e ∈ c.interventions.entries, c.refreshFate now default e.2 = .keep

/-- A sweep reads nothing that it writes, so what it kept it would keep again. -/
theorem intentsHold_refresh (c : Core) (now : Tick) : IntentsHold (c.refresh now) now := fun _ he =>
  of_decide_eq_true (UnorderedMap.mem_filter.mp he).2

theorem intentsHold_advance (c : Core) (now : Tick) : IntentsHold (c.advance now) now := by
  rw [Core.advance, Core.raiseLastTick]
  split
  · exact intentsHold_refresh _ now
  · exact intentsHold_refresh _ now

/-- A sweep over intents that all stand changes nothing. -/
theorem foldl_sweepTurn_hold {fate : InterventionIntent → Core.Fate} {s : Sweep} (now : Tick)
    (h : ∀ e ∈ s.governor.interventions.entries, fate e.2 = .keep) : ∀ ids : List InterventionId,
      ids.foldl (sweepTurn fate now) s = s
  | [] => rfl
  | id :: ids => by
    have hturn : sweepTurn fate now s id = s := by
      rw [sweepTurn]
      cases hfind : s.governor.interventions.find? id with
      | none => rfl
      | some intent =>
        dsimp only
        rw [h _ (UnorderedMap.find?_eq_some.mp hfind)]
    rw [List.foldl_cons, hturn]
    exact foldl_sweepTurn_hold now h ids

theorem refreshAuthorityLocked_hold {g : Governor} {now : Tick} (h : IntentsHold g.core now) :
    g.refreshAuthorityLocked now = (g, 0) := by
  have hfold : g.interventions.keys.foldl (refreshIntent now default) { governor := g } =
      ({ governor := g } : Sweep) := by
    have hstay : ∀ e ∈ ({ governor := g } : Sweep).governor.interventions.entries,
      g.core.refreshFate now default e.2 = .keep := h
    rw [foldl_refreshIntent (c := g.core) now default _ _
      ⟨g.core.interventions, g.core.retired, rfl⟩]
    exact foldl_sweepTurn_hold now hstay _
  rw [refreshAuthorityLocked, hfold]
  rfl

/-! ### The second call -/

theorem raiseLastTick_raiseLastTick (g : Governor) (now : Tick) :
    (g.raiseLastTick now).raiseLastTick now = g.raiseLastTick now := by
  by_cases h : now.value > g.lastTick.value
  · have hraised : g.raiseLastTick now = { g with lastTick := now } := if_pos h
    rw [hraised, raiseLastTick, if_neg (by simp)]
  · have hkept : g.raiseLastTick now = g := if_neg h
    rw [hkept, hkept]

/-- The last tick of a call's result is at the tick or past it. -/
theorem raiseLastTick_advance (g : Governor) (now : Tick) :
    (g.advance now).2.raiseLastTick now = (g.advance now).2 := by
  rw [advance]
  exact raiseLastTick_raiseLastTick _ now

/-- A call at a tick that everything is at already does nothing. -/
theorem advance_settled {g : Governor} {now : Tick} (hstreams : AtTick g.core now)
    (hintents : IntentsHold g.core now) (hlast : g.raiseLastTick now = g) :
    g.advance now = ({}, g) := by
  rw [advance, foldl_advanceStream_atTick hstreams]
  dsimp only
  rw [refreshAuthorityLocked_hold hintents]
  dsimp only
  rw [hlast]

/-- IDEMPOTENT: from every governor that calls can reach, a second advance to the same tick evaluates
    no stream, changes no decision and no intervention, and leaves the whole governor as it is. -/
theorem advance_advance (hashing : Hashing) (config : GovernorConfig) (ops : List Op) (now : Tick) :
    let g := ((Runs.run Governor.step (new hashing config) ops).advance now).2
    g.advance now = ({ streamsEvaluated := 0, decisionsChanged := 0, interventionsChanged := 0 }, g) := by
  have hreached := (reached_new hashing config).run ops
  dsimp only
  generalize Runs.run Governor.step (new hashing config) ops = g at hreached ⊢
  have hcore := core_advance hreached.keyed now
  refine advance_settled ?_ ?_ (raiseLastTick_advance g now)
  · rw [hcore]
    exact atTick_advance g.core now
  · rw [hcore]
    exact intentsHold_advance g.core now

end Governor

end Mbg
