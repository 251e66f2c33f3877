import MicroburstGovernor.Model.Overrides

/-! Policy sets that restoring rebuilds: every set that installation and overrides lead to. -/

namespace Mbg

namespace PolicySet

/-- Restoring the policies of the set under its generation gives the set itself. -/
structure Restorable (s : PolicySet) : Prop where
  valid : s.Valid
  bounded : s.overrides.length ≤ Limits.maxPolicyOverrides
  resources : ∀ entry ∈ s.overrides, entry.resource.valid
  distinct : DistinctResources s.overrides
  index : s.index = indexOf s.overrides
  generation : s.generation.raw ≠ 0
  digest : s.digest = digestOf s.generation s.fallback s.overrides

/-- Distinct overrides of valid resources with valid policies are all admitted. -/
theorem admitOverrides_eq : ∀ (overrides : List PolicyOverride) (index : UnorderedMap ResourceId ℕ)
    (n : ℕ), DistinctResources overrides → (∀ entry ∈ overrides, entry.resource ∉ index.keys) →
    (∀ entry ∈ overrides, entry.resource.valid ∧ validate entry.policy = .ok ()) →
    admitOverrides overrides index n = .ok ((overrides.zipIdx n).foldl (fun index entry =>
      index.emplace (.back _) entry.1.resource entry.2) index)
  | [], _, _, _, _, _ => rfl
  | entry :: rest, index, n, hdistinct, hfresh, hentries => by
    obtain ⟨hnotin, hdistinct⟩ := List.nodup_cons.mp hdistinct
    obtain ⟨hresource, hvalid⟩ := hentries entry (by simp)
    have hnew : index.contains entry.resource = false := by
      rw [← Bool.not_eq_true, UnorderedMap.contains_iff]
      exact hfresh entry (by simp)
    have ih := admitOverrides_eq rest (index.emplace (.back _) entry.resource n) (n + 1) hdistinct
      (fun e he => by
        rw [UnorderedMap.mem_keys_emplace, not_or]
        refine ⟨fun heq => hnotin ?_, hfresh e (List.mem_cons_of_mem _ he)⟩
        rw [← heq]
        exact List.mem_map_of_mem he)
      (fun e he => hentries e (List.mem_cons_of_mem _ he))
    rw [admitOverrides, hresource, hnew, hvalid, List.zipIdx_cons, List.foldl_cons]
    exact ih

theorem Restorable.restore_eq {s : PolicySet} (h : s.Restorable) :
    restore s.fallback s.overrides s.generation = .ok s := by
  have hfallback := h.valid s.fallback List.mem_cons_self
  have hadmit := admitOverrides_eq s.overrides UnorderedMap.empty 0 h.distinct
    (fun _ _ => by simp [UnorderedMap.keys]) fun entry he => ⟨h.resources entry he,
      h.valid entry.policy (List.mem_cons_of_mem _ (List.mem_map_of_mem he))⟩
  rw [← indexOf, ← h.index] at hadmit
  have hset : recomputeDigest ⟨s.fallback, s.overrides, s.index, s.generation, 0⟩ = s := by
    rw [recomputeDigest, ← h.digest]
  rw [restore, hfallback, hadmit]
  simp only [require, h.bounded, h.generation, ne_eq, not_false_eq_true, decide_true, if_true, bind,
    Except.bind, hset, pure, Except.pure]

/-! ### The operations keep it -/

/-- Recomputing the digest is the last step of every operation. -/
theorem restorable_recomputeDigest {s : PolicySet} (valid : s.recomputeDigest.Valid)
    (bounded : s.overrides.length ≤ Limits.maxPolicyOverrides)
    (resources : ∀ entry ∈ s.overrides, entry.resource.valid)
    (distinct : DistinctResources s.overrides) (index : s.index = indexOf s.overrides)
    (generation : s.generation.raw ≠ 0) : s.recomputeDigest.Restorable := by
  refine ⟨valid, bounded, resources, distinct, index, generation, ?_⟩
  simp only [recomputeDigest]

theorem restorable_initial : initial.Restorable := by
  have hvalid := valid_initial
  rw [initial] at hvalid ⊢
  generalize makeDefaultPolicy = policy at hvalid ⊢
  exact restorable_recomputeDigest hvalid (Nat.zero_le _) (by simp) List.nodup_nil rfl (by simp)

/-- The next generation is not zero: the counter does not wrap. -/
theorem next_ne_zero {raw next : UInt32} (h : addChecked raw 1 = some next) : next ≠ 0 := by
  have hmax : (~~~0 - 1 : UInt32).toNat = 4294967294 := by decide
  rw [addChecked] at h
  split at h
  · cases h
  · rename_i hover
    obtain rfl := Option.some.inj h
    intro hzero
    have hnat := congrArg UInt32.toNat hzero
    rw [UInt32.toNat_add, UInt32.toNat_one, UInt32.toNat_zero] at hnat
    rw [gt_iff_lt, UInt32.lt_iff_toNat_lt, hmax] at hover
    have hlt := raw.toNat_lt
    omega

theorem restorable_setFallback {s s' : PolicySet} {policy : Policy} (h : s.Restorable)
    (hs : s.setFallback policy = .ok s') : s'.Restorable := by
  have hvalid := valid_setFallback h.valid hs
  obtain ⟨-, next, hnext, rfl⟩ := setFallback_ok hs
  exact restorable_recomputeDigest hvalid h.bounded h.resources h.distinct h.index
    (next_ne_zero hnext)

/-- The index depends on the resources alone. -/
theorem indexOf_eq (overrides : List PolicyOverride) : indexOf overrides =
    (overrides.map PolicyOverride.resource).zipIdx.foldl
      (fun index entry => index.emplace (.back _) entry.1 entry.2) UnorderedMap.empty := by
  rw [indexOf, List.zipIdx_map, List.foldl_map]
  rfl

theorem indexOf_append (overrides : List PolicyOverride) (entry : PolicyOverride) :
    indexOf (overrides ++ [entry]) =
      (indexOf overrides).emplace (.back _) entry.resource overrides.length := by
  rw [indexOf, List.zipIdx_append, List.foldl_append, ← indexOf, Nat.zero_add]
  rfl

/-- What `set_override` demanded of an override it took. -/
theorem setOverride_demands {s s' : PolicySet} {resource : ResourceId} {policy : Policy}
    (h : s.setOverride resource policy = .ok s') : resource.valid ∧
      (s.index.find? resource = none → s.overrides.length < Limits.maxPolicyOverrides) := by
  rw [setOverride] at h
  obtain ⟨_, hresource, h⟩ := Status.bind_eq_ok.mp h
  obtain ⟨_, -, h⟩ := Status.bind_eq_ok.mp h
  obtain ⟨_, hroom, -⟩ := Status.bind_eq_ok.mp h
  refine ⟨by simpa using hresource, fun hnone => ?_⟩
  rw [hnone] at hroom
  simpa using hroom

theorem restorable_setOverride {s s' : PolicySet} {resource : ResourceId} {policy : Policy}
    (h : s.Restorable) (hindexed : s.Indexed) (hs : s.setOverride resource policy = .ok s') :
    s'.Restorable := by
  have hvalid := valid_setOverride h.valid hs
  have hindexed' := indexed_setOverride hindexed hs
  obtain ⟨hresource, hroom⟩ := setOverride_demands hs
  obtain ⟨-, next, hnext, ⟨i, -, rfl⟩ | ⟨hnone, rfl⟩⟩ := setOverride_ok hs
  · have hresources := resource_replaceAt s.overrides i policy
    refine restorable_recomputeDigest hvalid ?_ (fun entry hentry => ?_) hindexed'.distinct ?_
      (next_ne_zero hnext)
    · have hlength := congrArg List.length hresources
      rw [List.length_map, List.length_map] at hlength
      exact (Nat.le_of_eq hlength).trans h.bounded
    · have hmem : entry.resource ∈ (replaceAt s.overrides i policy).map PolicyOverride.resource :=
        List.mem_map_of_mem hentry
      rw [hresources] at hmem
      obtain ⟨old, hold, hsame⟩ := List.mem_map.mp hmem
      rw [← hsame]
      exact h.resources old hold
    · refine h.index.trans ?_
      rw [indexOf_eq, indexOf_eq, hresources]
  · refine restorable_recomputeDigest hvalid ?_ (fun entry hentry => ?_) hindexed'.distinct ?_
      (next_ne_zero hnext)
    · rw [List.length_append]
      exact hroom hnone
    · rcases List.mem_append.mp hentry with hold | hnew
      · exact h.resources entry hold
      · rw [List.mem_singleton.mp hnew]
        exact hresource
    · rw [indexOf_append, h.index]

theorem restorable_removeOverride {s s' : PolicySet} {resource : ResourceId} (h : s.Restorable)
    (hs : s.removeOverride resource = .ok s') : s'.Restorable := by
  have hvalid := valid_removeOverride h.valid hs
  obtain ⟨i, next, -, hnext, rfl⟩ := removeOverride_ok hs
  have hsub := List.eraseIdx_sublist s.overrides i
  exact restorable_recomputeDigest hvalid (hsub.length_le.trans h.bounded)
    (fun entry hentry => h.resources entry (hsub.subset hentry)) (h.distinct.sublist (hsub.map _)) rfl
    (next_ne_zero hnext)

theorem resources_of_admitOverrides : ∀ (overrides : List PolicyOverride)
    (index index' : UnorderedMap ResourceId ℕ) (n : ℕ),
    admitOverrides overrides index n = .ok index' → ∀ entry ∈ overrides, entry.resource.valid
  | [], _, _, _, _ => by simp
  | entry :: rest, index, index', n, h => by
    rw [admitOverrides] at h
    obtain ⟨_, hresource, h⟩ := Status.bind_eq_ok.mp h
    obtain ⟨_, -, h⟩ := Status.bind_eq_ok.mp h
    obtain ⟨_, -, h⟩ := Status.bind_eq_ok.mp h
    rw [List.forall_mem_cons]
    exact ⟨by simpa using hresource, resources_of_admitOverrides rest _ _ _ h⟩

theorem restorable_restore {fallback : Policy} {overrides : List PolicyOverride}
    {generation : PolicyGeneration} {s : PolicySet}
    (h : restore fallback overrides generation = .ok s) : s.Restorable := by
  rw [restore] at h
  obtain ⟨_, hzero, h⟩ := Status.bind_eq_ok.mp h
  obtain ⟨_, hbounded, h⟩ := Status.bind_eq_ok.mp h
  obtain ⟨_, hfallback, h⟩ := Status.bind_eq_ok.mp h
  obtain ⟨index, hadmit, h⟩ := Status.bind_eq_ok.mp h
  obtain ⟨hdistinct, -, hpolicies, hindex⟩ := admitOverrides_ok _ _ _ _ hadmit
  obtain rfl := Except.ok.inj h
  have hlength : overrides.length ≤ Limits.maxPolicyOverrides := by simpa using hbounded
  have hgeneration : generation.raw ≠ 0 := by simpa using hzero
  refine restorable_recomputeDigest (fun policy hp => ?_) hlength
    (resources_of_admitOverrides _ _ _ _ hadmit) hdistinct hindex hgeneration
  rcases List.mem_cons.mp hp with rfl | hp
  · exact hfallback
  · obtain ⟨entry, hentry, rfl⟩ := List.mem_map.mp hp
    exact hpolicies entry hentry

end PolicySet

end Mbg
