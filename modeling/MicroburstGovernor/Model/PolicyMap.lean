import MicroburstGovernor.Lib.LastWrite
import MicroburstGovernor.Lib.Runs
import MicroburstGovernor.Model.Restorable

/-! The installed policy set against the map it implements: resources to policies, over a fallback.

    The calls that took effect are a history of writes. The set finds for every resource what the
    history says, and a call that fails leaves no trace. -/

namespace Mbg

namespace PolicySet

/-! ### Calls -/

/-- `clear_overrides`: nothing happens on an empty set, nor when the generation is exhausted. -/
def clearOverrides (s : PolicySet) : PolicySet :=
  if s.overrides.isEmpty then s
  else match s.bumpGeneration with
    | .ok s => recomputeDigest { s with overrides := [], index := UnorderedMap.empty }
    | .error _ => s

/-- A call that may change the set. -/
inductive Call where
  | setFallback (policy : Policy)
  | setOverride (resource : ResourceId) (policy : Policy)
  | removeOverride (resource : ResourceId)
  | clearOverrides

/-- What a call reports, and the set it leaves: its own where it fails. -/
def settle (s : PolicySet) : Except Failure PolicySet → Status × PolicySet
  | .ok s' => (.ok (), s')
  | .error e => (.error e, s)

def call (s : PolicySet) : Call → Status × PolicySet
  | .setFallback policy => s.settle (s.setFallback policy)
  | .setOverride resource policy => s.settle (s.setOverride resource policy)
  | .removeOverride resource => s.settle (s.removeOverride resource)
  | .clearOverrides => (.ok (), s.clearOverrides)

/-! ### The map -/

/-- The write a call makes to the overrides, if it makes one. -/
def Call.write : Call → Option (LastWrite.Write ResourceId Policy)
  | .setFallback _ => none
  | .setOverride resource policy => some (.set resource policy)
  | .removeOverride resource => some (.erase resource)
  | .clearOverrides => some .clear

/-- The fallback a call sets, if it sets one. -/
def Call.fallback : Call → Option Policy
  | .setFallback policy => some policy
  | _ => none

/-- The last policy set for a resource and not removed since, by calls listed newest first. -/
def lastOverride (resource : ResourceId) (calls : List Call) : Option Policy :=
  LastWrite.value resource (calls.filterMap Call.write)

/-- The last fallback set, else the one a set is made with. -/
def lastFallback : List Call → Policy
  | [] => makeDefaultPolicy
  | c :: earlier => c.fallback.getD (lastFallback earlier)

/-- A set, and the calls that took effect on it, newest first. -/
structure History where
  set : PolicySet
  effective : List Call

/-- A call took effect when it moved the generation. -/
def History.step (h : History) (c : Call) : History :=
  let s := (h.set.call c).2
  ⟨s, if s.generation = h.set.generation then h.effective else c :: h.effective⟩

def History.initial : History := ⟨PolicySet.initial, []⟩

/-- The set is the map its history makes: it resolves every resource as the history says, holds valid
    policies only, finds each override through the index and nothing else, has counted every effective
    call and digests what it holds. -/
structure Refines (h : History) : Prop where
  resolve : ∀ resource, h.set.resolve resource =
    (lastOverride resource h.effective).getD (lastFallback h.effective)
  valid : h.set.Valid
  indexed : h.set.Indexed
  generation : h.set.generation.raw.toNat = 1 + h.effective.length
  digest : h.set.digest = digestOf h.set.generation h.set.fallback h.set.overrides

/-- One call is atomic: a failed one leaves the set as it was, a successful one moves the generation
    by one, or was a clearing that had nothing to clear or no generation to move to. -/
structure Atomic (h : History) (c : Call) : Prop where
  failed : (h.set.call c).1 ≠ .ok () → (h.set.call c).2 = h.set
  moved : (h.set.call c).1 = .ok () →
    (h.set.call c).2.generation.raw.toNat = h.set.generation.raw.toNat + 1 ∨
      c = .clearOverrides ∧ (h.set.call c).2 = h.set ∧
        (h.set.overrides = [] ∨ addChecked h.set.generation.raw 1 = none)

/-! ### One call -/

theorem toNat_next {raw next : UInt32} (h : addChecked raw 1 = some next) :
    next.toNat = raw.toNat + 1 := by
  have hmax : (~~~0 - 1 : UInt32).toNat = 4294967294 := by decide
  rw [addChecked] at h
  split at h
  · cases h
  · rename_i hover
    obtain rfl := Option.some.inj h
    rw [gt_iff_lt, UInt32.lt_iff_toNat_lt, hmax] at hover
    rw [UInt32.toNat_add, UInt32.toNat_one]
    omega

/-- A set as every call expects it and leaves it. -/
structure Kept (s : PolicySet) : Prop where
  restorable : s.Restorable
  indexed : s.Indexed

/-- A call that took effect: what it did to the map, one generation further. -/
structure Took (s : PolicySet) (c : Call) (s' : PolicySet) : Prop extends Kept s' where
  generation : s'.generation.raw.toNat = s.generation.raw.toNat + 1
  overrides : overrideFor s'.overrides =
    (c.write.elim id fun w map => w.apply map) (overrideFor s.overrides)
  fallback : s'.fallback = c.fallback.getD s.fallback

section

variable {s s' : PolicySet}

theorem took_setFallback (h : s.Kept) {policy : Policy} (hs : s.setFallback policy = .ok s') :
    s.Took (.setFallback policy) s' := by
  have hrestorable := restorable_setFallback h.restorable hs
  have hindexed := indexed_setFallback h.indexed hs
  obtain ⟨-, next, hnext, rfl⟩ := setFallback_ok hs
  exact ⟨⟨hrestorable, hindexed⟩, toNat_next hnext, rfl, rfl⟩

theorem took_setOverride (h : s.Kept) {resource : ResourceId} {policy : Policy}
    (hs : s.setOverride resource policy = .ok s') : s.Took (.setOverride resource policy) s' := by
  refine ⟨⟨restorable_setOverride h.restorable h.indexed hs, indexed_setOverride h.indexed hs⟩, ?_,
    ?_, fallback_setOverride hs⟩
  · obtain ⟨-, next, hnext, ⟨i, -, rfl⟩ | ⟨-, rfl⟩⟩ := setOverride_ok hs <;> exact toNat_next hnext
  · funext resource'
    rw [overrideFor_setOverride h.indexed hs]
    exact (Function.update_apply _ _ _ _).symm

theorem took_removeOverride (h : s.Kept) {resource : ResourceId}
    (hs : s.removeOverride resource = .ok s') : s.Took (.removeOverride resource) s' := by
  have hoverrides := overrideFor_removeOverride h.indexed hs
  have hrestorable := restorable_removeOverride h.restorable hs
  have hindexed := indexed_removeOverride h.indexed hs
  obtain ⟨i, next, -, hnext, rfl⟩ := removeOverride_ok hs
  refine ⟨⟨hrestorable, hindexed⟩, toNat_next hnext, ?_, rfl⟩
  funext resource'
  rw [hoverrides]
  exact (Function.update_apply _ _ _ _).symm

/-- Clearing takes effect, or had nothing to clear or no generation to move to. -/
theorem clearOverrides_cases (h : s.Kept) : s.Took .clearOverrides s.clearOverrides ∨
    s.clearOverrides = s ∧ (s.overrides = [] ∨ addChecked s.generation.raw 1 = none) := by
  rw [clearOverrides]
  split
  · rename_i hempty
    exact Or.inr ⟨rfl, Or.inl (List.isEmpty_iff.mp hempty)⟩
  · cases hbump : s.bumpGeneration with
    | error e =>
      refine Or.inr ⟨rfl, Or.inr ?_⟩
      rw [bumpGeneration] at hbump
      split at hbump
      · assumption
      · cases hbump
    | ok bumped =>
      obtain ⟨next, hnext, rfl⟩ := bumpGeneration_ok hbump
      refine Or.inl ⟨⟨?_, ?_⟩, toNat_next hnext, rfl, rfl⟩
      · refine restorable_recomputeDigest (fun policy hp => ?_) (Nat.zero_le _)
          (fun entry he => by cases he) List.nodup_nil rfl (next_ne_zero hnext)
        obtain rfl : policy = s.fallback := by simpa [installed, recomputeDigest] using hp
        exact h.restorable.valid _ List.mem_cons_self
      · exact ⟨List.nodup_nil, fun resource i => by simp [recomputeDigest]⟩

/-- CALL: it fails and leaves the set, takes effect, or was a clearing without any. -/
theorem call_cases (h : s.Kept) (c : Call) :
    (∃ e, s.call c = (.error e, s)) ∨ ((s.call c).1 = .ok () ∧ s.Took c (s.call c).2) ∨
      (c = .clearOverrides ∧ s.call c = (.ok (), s) ∧
        (s.overrides = [] ∨ addChecked s.generation.raw 1 = none)) := by
  cases c with
  | setFallback policy =>
    rw [call]
    cases hs : s.setFallback policy with
    | error e => exact Or.inl ⟨e, rfl⟩
    | ok s' => exact Or.inr (Or.inl ⟨rfl, took_setFallback h hs⟩)
  | setOverride resource policy =>
    rw [call]
    cases hs : s.setOverride resource policy with
    | error e => exact Or.inl ⟨e, rfl⟩
    | ok s' => exact Or.inr (Or.inl ⟨rfl, took_setOverride h hs⟩)
  | removeOverride resource =>
    rw [call]
    cases hs : s.removeOverride resource with
    | error e => exact Or.inl ⟨e, rfl⟩
    | ok s' => exact Or.inr (Or.inl ⟨rfl, took_removeOverride h hs⟩)
  | clearOverrides =>
    rw [call]
    rcases clearOverrides_cases h with htook | ⟨hsame, hwhy⟩
    · exact Or.inr (Or.inl ⟨rfl, htook⟩)
    · exact Or.inr (Or.inr ⟨rfl, by rw [hsame], hwhy⟩)

end

/-! ### Runs -/

theorem lastOverride_cons (c : Call) (earlier : List Call) (resource : ResourceId) :
    lastOverride resource (c :: earlier) =
      (c.write.elim id fun w map => w.apply map) (fun r => lastOverride r earlier) resource := by
  rw [lastOverride, List.filterMap_cons]
  cases c with
  | setFallback policy => rfl
  | setOverride resource' policy => exact LastWrite.value_cons _ _ _
  | removeOverride resource' => exact LastWrite.value_cons _ _ _
  | clearOverrides => exact LastWrite.value_cons _ _ _

/-- What a history keeps: its set is kept, and holds the map the effective calls make. -/
structure Tracked (h : History) : Prop where
  kept : h.set.Kept
  overrides : ∀ resource, overrideFor h.set.overrides resource = lastOverride resource h.effective
  fallback : h.set.fallback = lastFallback h.effective
  generation : h.set.generation.raw.toNat = 1 + h.effective.length

theorem tracked_initial : Tracked .initial :=
  ⟨⟨restorable_initial, indexed_initial⟩, fun _ => rfl, rfl, rfl⟩

theorem Tracked.refines {h : History} (ht : Tracked h) : Refines h := by
  refine ⟨fun resource => ?_, ht.kept.restorable.valid, ht.kept.indexed, ht.generation,
    ht.kept.restorable.digest⟩
  rw [ht.kept.indexed.resolve_eq, ht.overrides, ht.fallback]

/-- STEP: every call is atomic and leaves a set that holds what its history says. -/
theorem tracked_step {h : History} (ht : Tracked h) (c : Call) :
    Atomic h c ∧ Tracked (h.step c) := by
  rcases call_cases ht.kept c with ⟨e, herror⟩ | ⟨hok, htook⟩ | ⟨hclear, hsame, hwhy⟩
  · refine ⟨⟨fun _ => by rw [herror], fun hok => ?_⟩, ?_⟩
    · rw [herror] at hok
      cases hok
    · rw [History.step, herror]
      simpa using ht
  · refine ⟨⟨fun hnot => (hnot hok).elim, fun _ => Or.inl htook.generation⟩, ?_⟩
    have hmoved : (h.set.call c).2.generation ≠ h.set.generation := by
      intro heq
      have := htook.generation
      rw [heq] at this
      omega
    have hmap : overrideFor h.set.overrides = fun r => lastOverride r h.effective :=
      funext ht.overrides
    rw [History.step, if_neg hmoved]
    refine ⟨htook.toKept, fun resource => ?_, ?_, ?_⟩
    · rw [htook.overrides, hmap, lastOverride_cons]
    · rw [htook.fallback, ht.fallback, lastFallback]
    · rw [htook.generation, ht.generation, List.length_cons]
      omega
  · refine ⟨⟨fun hnot => (hnot (by rw [hsame])).elim, fun _ => ?_⟩, ?_⟩
    · exact Or.inr ⟨hclear, by rw [hsame], hwhy⟩
    · rw [History.step, hsame]
      simpa using ht

/-- THE MAP: whatever calls are made, each is atomic and the set is the map of those that took
    effect. -/
theorem policies_refine (calls : List Call) :
    Runs.Meets History.step Atomic History.initial calls ∧
      Refines (Runs.run History.step History.initial calls) := by
  have hmeets : Runs.Meets History.step Atomic History.initial calls :=
    Runs.meets_of_invariant (I := Tracked) (fun h c ht (_ : True) => tracked_step ht c)
      tracked_initial fun _ _ => trivial
  refine ⟨hmeets, ?_⟩
  exact (Runs.run_invariant (I := Tracked) (fun h c ht _ => (tracked_step ht c).2) tracked_initial
    hmeets).refines

end PolicySet

end Mbg
