import MicroburstGovernor.Model.Policy

/-! The installed policy set as a function: the override of each resource, else the fallback.

    The list of overrides holds each resource once and the index finds it, so an operation on the set
    changes the policy of the resource it names and of no other. -/

namespace Mbg

/-- The policy a list of overrides gives a resource. -/
def overrideFor (overrides : List PolicyOverride) (resource : ResourceId) : Option Policy :=
  (overrides.find? fun entry => entry.resource = resource).map PolicyOverride.policy

/-- Each resource has one override at most. -/
def DistinctResources (overrides : List PolicyOverride) : Prop :=
  (overrides.map PolicyOverride.resource).Nodup

theorem overrideFor_eq_some : ∀ {overrides : List PolicyOverride} {resource : ResourceId}
    {policy : Policy}, DistinctResources overrides →
    (overrideFor overrides resource = some policy ↔ ⟨resource, policy⟩ ∈ overrides)
  | [], _, _, _ => by simp [overrideFor]
  | entry :: rest, resource, policy, h => by
    have hnodup := List.nodup_cons.mp h
    have ih := @overrideFor_eq_some rest resource policy hnodup.2
    rw [overrideFor] at ih
    rw [overrideFor, List.find?_cons, List.mem_cons]
    by_cases hr : entry.resource = resource
    · have hnot : (⟨resource, policy⟩ : PolicyOverride) ∉ rest := fun hmem =>
        hnodup.1 (hr ▸ List.mem_map_of_mem (f := PolicyOverride.resource) hmem)
      simp only [hr, decide_true, Option.map_some, Option.some.injEq, hnot, or_false]
      constructor
      · rintro rfl
        rw [← hr]
      · rintro rfl
        rfl
    · simp only [hr, decide_false, ih]
      refine (or_iff_right ?_).symm
      rintro rfl
      exact hr rfl

theorem overrideFor_append (overrides : List PolicyOverride) (entry : PolicyOverride)
    (h : overrideFor overrides entry.resource = none) (resource : ResourceId) :
    overrideFor (overrides ++ [entry]) resource =
      if resource = entry.resource then some entry.policy else overrideFor overrides resource := by
  rw [overrideFor, List.find?_append]
  by_cases hr : resource = entry.resource
  · subst hr
    have hnone : overrides.find? (fun e => e.resource = entry.resource) = none := by
      simpa [overrideFor] using h
    simp [hnone]
  · have hne : (entry.resource = resource) = False := by simp [eq_comm, hr]
    simp [hr, hne, overrideFor]

namespace PolicySet

/-- The index finds every override, and nothing else. -/
structure Indexed (s : PolicySet) : Prop where
  distinct : DistinctResources s.overrides
  find : ∀ resource i, s.index.find? resource = some i ↔
    (s.overrides[i]?).map PolicyOverride.resource = some resource

/-- The policy in force for a resource is its override, else the fallback. -/
theorem Indexed.resolve_eq {s : PolicySet} (h : s.Indexed) (resource : ResourceId) :
    s.resolve resource = (overrideFor s.overrides resource).getD s.fallback := by
  rw [resolve]
  cases hfind : s.index.find? resource with
  | none =>
    have hnone : overrideFor s.overrides resource = none := by
      rw [Option.eq_none_iff_forall_not_mem]
      intro policy hp
      obtain ⟨i, hi⟩ := List.mem_iff_getElem?.mp ((overrideFor_eq_some h.distinct).mp hp)
      have := (h.find resource i).mpr (by rw [hi]; rfl)
      rw [hfind] at this
      cases this
    rw [hnone]
    rfl
  | some i =>
    have hi := (h.find resource i).mp hfind
    obtain ⟨entry, hentry, hr⟩ := Option.map_eq_some_iff.mp hi
    have hsome : overrideFor s.overrides resource = some entry.policy := by
      rw [overrideFor_eq_some h.distinct, ← hr]
      exact List.mem_of_getElem? hentry
    dsimp only
    rw [hentry, hsome]
    rfl

theorem Indexed.find_none {s : PolicySet} (h : s.Indexed) {resource : ResourceId} :
    s.index.find? resource = none ↔ overrideFor s.overrides resource = none := by
  rw [Option.eq_none_iff_forall_not_mem, Option.eq_none_iff_forall_not_mem]
  constructor
  · intro hnone policy hp
    obtain ⟨i, hi⟩ := List.mem_iff_getElem?.mp ((overrideFor_eq_some h.distinct).mp hp)
    exact hnone i ((h.find resource i).mpr (by rw [hi]; rfl))
  · intro hnone i hi
    obtain ⟨entry, hentry, hr⟩ := Option.map_eq_some_iff.mp ((h.find resource i).mp hi)
    exact hnone entry.policy ((overrideFor_eq_some h.distinct).mpr
      (hr ▸ List.mem_of_getElem? hentry))

theorem indexed_initial : initial.Indexed :=
  ⟨List.nodup_nil, fun resource i => by simp [initial, recomputeDigest]⟩

/-! ### The operations as changes of the function -/

theorem bumpGeneration_ok {s s' : PolicySet} (h : s.bumpGeneration = .ok s') :
    ∃ next, addChecked s.generation.raw 1 = some next ∧ s' = { s with generation := ⟨next⟩ } := by
  rw [bumpGeneration] at h
  split at h
  · simp at h
  · rename_i next hnext
    exact ⟨next, hnext, (Except.ok.inj h).symm⟩

theorem setFallback_ok {s s' : PolicySet} {policy : Policy} (h : s.setFallback policy = .ok s') :
    validate policy = .ok () ∧ ∃ next, addChecked s.generation.raw 1 = some next ∧
      s' = recomputeDigest { s with fallback := policy, generation := ⟨next⟩ } := by
  rw [setFallback] at h
  obtain ⟨_, hvalid, h⟩ := Status.bind_eq_ok.mp h
  obtain ⟨bumped, hbump, h⟩ := Status.bind_eq_ok.mp h
  obtain ⟨next, hnext, rfl⟩ := bumpGeneration_ok hbump
  exact ⟨hvalid, next, hnext, (Except.ok.inj h).symm⟩

/-- A replaced override stands where it stood. -/
def replaceAt (overrides : List PolicyOverride) (i : ℕ) (policy : Policy) : List PolicyOverride :=
  overrides.modify i fun entry => { entry with policy }

theorem setOverride_ok {s s' : PolicySet} {resource : ResourceId} {policy : Policy}
    (h : s.setOverride resource policy = .ok s') :
    validate policy = .ok () ∧ ∃ next, addChecked s.generation.raw 1 = some next ∧
      ((∃ i, s.index.find? resource = some i ∧ s' = recomputeDigest
          { s with overrides := replaceAt s.overrides i policy, generation := ⟨next⟩ }) ∨
        (s.index.find? resource = none ∧ s' = recomputeDigest
          { s with
            index := s.index.emplace (.back _) resource s.overrides.length
            overrides := s.overrides ++ [⟨resource, policy⟩]
            generation := ⟨next⟩ })) := by
  rw [setOverride] at h
  obtain ⟨_, -, h⟩ := Status.bind_eq_ok.mp h
  obtain ⟨_, hvalid, h⟩ := Status.bind_eq_ok.mp h
  obtain ⟨_, -, h⟩ := Status.bind_eq_ok.mp h
  obtain ⟨bumped, hbump, h⟩ := Status.bind_eq_ok.mp h
  obtain ⟨next, hnext, rfl⟩ := bumpGeneration_ok hbump
  refine ⟨hvalid, next, hnext, ?_⟩
  cases hfind : s.index.find? resource with
  | none => rw [hfind] at h; exact Or.inr ⟨rfl, (Except.ok.inj h).symm⟩
  | some i => rw [hfind] at h; exact Or.inl ⟨i, rfl, (Except.ok.inj h).symm⟩

theorem removeOverride_ok {s s' : PolicySet} {resource : ResourceId}
    (h : s.removeOverride resource = .ok s') :
    ∃ i next, s.index.find? resource = some i ∧ addChecked s.generation.raw 1 = some next ∧
      s' = recomputeDigest
        { s with
          overrides := s.overrides.eraseIdx i
          index := indexOf (s.overrides.eraseIdx i)
          generation := ⟨next⟩ } := by
  rw [removeOverride] at h
  cases hfind : s.index.find? resource with
  | none => rw [hfind] at h; cases h
  | some i =>
    rw [hfind] at h
    obtain ⟨bumped, hbump, h⟩ := Status.bind_eq_ok.mp h
    obtain ⟨next, hnext, rfl⟩ := bumpGeneration_ok hbump
    exact ⟨i, next, rfl, hnext, (Except.ok.inj h).symm⟩

/-! ### Replacing -/

theorem resource_replaceAt (overrides : List PolicyOverride) (i : ℕ) (policy : Policy) :
    (replaceAt overrides i policy).map PolicyOverride.resource =
      overrides.map PolicyOverride.resource := by
  apply List.ext_getElem?
  intro j
  rw [List.getElem?_map, List.getElem?_map, replaceAt, List.getElem?_modify]
  by_cases hij : i = j
  · subst hij
    cases overrides[i]? <;> simp
  · simp [hij]

theorem overrideFor_replaceAt {overrides : List PolicyOverride} {i : ℕ} {resource : ResourceId}
    (hdistinct : DistinctResources overrides)
    (hi : (overrides[i]?).map PolicyOverride.resource = some resource) (policy : Policy)
    (resource' : ResourceId) : overrideFor (replaceAt overrides i policy) resource' =
      if resource' = resource then some policy else overrideFor overrides resource' := by
  have hdistinct' : DistinctResources (replaceAt overrides i policy) := by
    rw [DistinctResources, resource_replaceAt]
    exact hdistinct
  obtain ⟨entry, hentry, hr⟩ := Option.map_eq_some_iff.mp hi
  by_cases hr' : resource' = resource
  · rw [if_pos hr', overrideFor_eq_some hdistinct', List.mem_iff_getElem?]
    refine ⟨i, ?_⟩
    rw [replaceAt, List.getElem?_modify, hentry, hr', ← hr]
    simp
  · rw [if_neg hr']
    ext p
    rw [overrideFor_eq_some hdistinct',
      overrideFor_eq_some hdistinct, List.mem_iff_getElem?, List.mem_iff_getElem?]
    refine exists_congr fun j => ?_
    rw [replaceAt, List.getElem?_modify]
    by_cases hij : i = j
    · subst hij
      rw [hentry]
      simp [PolicyOverride.ext_iff, hr, Ne.symm hr']
    · simp [hij]

/-! ### The index -/

/-- Indexing a list behind an index: its entries at the positions that follow. -/
theorem find?_foldl_emplace : ∀ (overrides : List PolicyOverride) (n : ℕ)
    (index : UnorderedMap ResourceId ℕ), DistinctResources overrides →
    (∀ entry ∈ overrides, entry.resource ∉ index.keys) → ∀ resource i,
    ((overrides.zipIdx n).foldl (fun index entry =>
        index.emplace (.back _) entry.1.resource entry.2) index).find? resource = some i ↔
      index.find? resource = some i ∨
        n ≤ i ∧ (overrides[i - n]?).map PolicyOverride.resource = some resource
  | [], n, index, _, _, resource, i => by simp
  | entry :: rest, n, index, hdistinct, hfresh, resource, i => by
    have hnodup := List.nodup_cons.mp hdistinct
    have hk : entry.resource ∉ index.keys := hfresh entry (by simp)
    have hfresh' : ∀ e ∈ rest, e.resource ∉ (index.emplace (.back _) entry.resource n).keys := by
      intro e he
      rw [UnorderedMap.mem_keys_emplace, not_or]
      exact ⟨fun h => hnodup.1 (h ▸ List.mem_map_of_mem he), hfresh e (by simp [he])⟩
    rw [List.zipIdx_cons, List.foldl_cons,
      find?_foldl_emplace rest (n + 1) _ hnodup.2 hfresh' resource i,
      UnorderedMap.find?_emplace _ _ hk]
    have hnone : index.find? entry.resource = none := UnorderedMap.find?_eq_none.mpr hk
    -- the head stands at position `n`, the rest behind it
    have htail : n ≤ i ∧ ((entry :: rest)[i - n]?).map PolicyOverride.resource = some resource ↔
        i = n ∧ entry.resource = resource ∨
          n + 1 ≤ i ∧ (rest[i - (n + 1)]?).map PolicyOverride.resource = some resource := by
      rcases Nat.lt_trichotomy i n with hlt | rfl | hgt
      · have h₁ : ¬ n ≤ i := by omega
        have h₂ : ¬ i = n := by omega
        have h₃ : ¬ n + 1 ≤ i := by omega
        simp [h₁, h₂, h₃]
      · simp
      · have hsub : i - n = (i - (n + 1)) + 1 := by omega
        have h₁ : n ≤ i := by omega
        have h₂ : ¬ i = n := by omega
        have h₃ : n + 1 ≤ i := by omega
        rw [hsub, List.getElem?_cons_succ]
        simp [h₁, h₂, h₃]
    rw [htail]
    by_cases hr : resource = entry.resource
    · subst hr
      simp [hnone, eq_comm]
    · simp [hr, Ne.symm hr]

theorem find?_indexOf {overrides : List PolicyOverride} (h : DistinctResources overrides)
    (resource : ResourceId) (i : ℕ) : (indexOf overrides).find? resource = some i ↔
      (overrides[i]?).map PolicyOverride.resource = some resource := by
  rw [indexOf, find?_foldl_emplace overrides 0 _ h (by simp [UnorderedMap.keys])]
  simp

/-! ### What the operations do to the function -/

theorem indexed_setFallback {s s' : PolicySet} {policy : Policy} (h : s.Indexed)
    (hs : s.setFallback policy = .ok s') : s'.Indexed := by
  obtain ⟨-, _, -, rfl⟩ := setFallback_ok hs
  exact ⟨h.distinct, h.find⟩

theorem indexed_setOverride {s s' : PolicySet} {resource : ResourceId} {policy : Policy}
    (h : s.Indexed) (hs : s.setOverride resource policy = .ok s') : s'.Indexed := by
  obtain ⟨-, _, -, ⟨i, hi, rfl⟩ | ⟨hnone, rfl⟩⟩ := setOverride_ok hs
  · refine ⟨?_, fun resource' j => ?_⟩
    · rw [DistinctResources, recomputeDigest, resource_replaceAt]
      exact h.distinct
    · rw [recomputeDigest, ← List.getElem?_map, resource_replaceAt, List.getElem?_map]
      exact h.find resource' j
  · have hfresh : resource ∉ s.index.keys := UnorderedMap.find?_eq_none.mp hnone
    have hnew : resource ∉ s.overrides.map PolicyOverride.resource := by
      intro hmem
      obtain ⟨j, hj⟩ := List.mem_iff_getElem?.mp hmem
      rw [List.getElem?_map] at hj
      rw [(h.find resource j).mpr hj] at hnone
      cases hnone
    refine ⟨?_, fun resource' j => ?_⟩
    · rw [DistinctResources, recomputeDigest, List.map_append]
      exact List.nodup_append.mpr ⟨h.distinct, by simp, by
        rintro a ha b hb rfl
        rw [List.map_singleton, List.mem_singleton] at hb
        subst hb
        exact hnew ha⟩
    · rw [recomputeDigest, UnorderedMap.find?_emplace _ _ hfresh, List.getElem?_append]
      have hlen : resource' ≠ resource → s.index.find? resource' = some j → j < s.overrides.length := by
        intro _ hfind
        obtain ⟨entry, hentry, -⟩ := Option.map_eq_some_iff.mp ((h.find resource' j).mp hfind)
        exact (List.getElem?_eq_some_iff.mp hentry).1
      by_cases hj : j < s.overrides.length
      · have hne : ¬ s.overrides.length = j := by omega
        rw [if_pos hj, ← h.find resource' j]
        by_cases hr : resource' = resource
        · subst hr
          simp [hnone, hne]
        · simp [hr]
      · rw [if_neg hj]
        by_cases hr : resource' = resource
        · subst hr
          by_cases heq : s.overrides.length = j
          · simp [heq]
          · have hpos : ¬ j - s.overrides.length = 0 := by omega
            have hnil : ([⟨resource', policy⟩] : List PolicyOverride)[j - s.overrides.length]? =
                none := by
              rw [List.getElem?_eq_none_iff, List.length_singleton]
              omega
            simp [heq, hnil]
        · have hnot : ¬ s.index.find? resource' = some j := fun h => hj (hlen hr h)
          rw [if_neg hr]
          refine iff_of_false hnot fun hmap => ?_
          obtain ⟨entry, hentry, hres⟩ := Option.map_eq_some_iff.mp hmap
          have := List.mem_of_getElem? hentry
          rw [List.mem_singleton] at this
          subst this
          exact hr hres.symm

theorem indexed_removeOverride {s s' : PolicySet} {resource : ResourceId} (h : s.Indexed)
    (hs : s.removeOverride resource = .ok s') : s'.Indexed := by
  obtain ⟨i, _, -, -, rfl⟩ := removeOverride_ok hs
  have hdistinct : DistinctResources (s.overrides.eraseIdx i) :=
    h.distinct.sublist ((List.eraseIdx_sublist _ _).map _)
  exact ⟨hdistinct, find?_indexOf hdistinct⟩

/-- Admitting overrides demands that their resources are distinct, and indexes them in order. -/
theorem admitOverrides_ok : ∀ (overrides : List PolicyOverride) (index : UnorderedMap ResourceId ℕ)
    (n : ℕ) (index' : UnorderedMap ResourceId ℕ), admitOverrides overrides index n = .ok index' →
    DistinctResources overrides ∧ (∀ entry ∈ overrides, entry.resource ∉ index.keys) ∧
      (∀ entry ∈ overrides, validate entry.policy = .ok ()) ∧
      index' = (overrides.zipIdx n).foldl (fun index entry =>
        index.emplace (.back _) entry.1.resource entry.2) index
  | [], index, n, index', h => ⟨List.nodup_nil, by simp, by simp, (Except.ok.inj h).symm⟩
  | entry :: rest, index, n, index', h => by
    rw [admitOverrides] at h
    obtain ⟨_, -, h⟩ := Status.bind_eq_ok.mp h
    obtain ⟨_, hnew, h⟩ := Status.bind_eq_ok.mp h
    obtain ⟨_, hvalid, h⟩ := Status.bind_eq_ok.mp h
    have hk : entry.resource ∉ index.keys := by
      simpa [← UnorderedMap.contains_iff] using hnew
    obtain ⟨hdistinct, hfresh, hpolicies, hindex⟩ := admitOverrides_ok rest _ _ _ h
    simp only [UnorderedMap.mem_keys_emplace, not_or] at hfresh
    refine ⟨List.nodup_cons.mpr ⟨?_, hdistinct⟩, ?_, ?_, ?_⟩
    · intro hmem
      obtain ⟨e, he, hr⟩ := List.mem_map.mp hmem
      exact (hfresh e he).1 hr
    · rw [List.forall_mem_cons]
      exact ⟨hk, fun e he => (hfresh e he).2⟩
    · rw [List.forall_mem_cons]
      exact ⟨hvalid, hpolicies⟩
    · rw [hindex, List.zipIdx_cons, List.foldl_cons]

/-- A restored set is what it was asked to be, with a generation that is not zero. -/
theorem restore_ok {fallback : Policy} {overrides : List PolicyOverride}
    {generation : PolicyGeneration} {s : PolicySet}
    (h : restore fallback overrides generation = .ok s) :
    s.Indexed ∧ s.fallback = fallback ∧ s.overrides = overrides ∧ s.generation = generation ∧
      generation.raw ≠ 0 := by
  rw [restore] at h
  obtain ⟨_, hzero, h⟩ := Status.bind_eq_ok.mp h
  obtain ⟨_, -, h⟩ := Status.bind_eq_ok.mp h
  obtain ⟨_, -, h⟩ := Status.bind_eq_ok.mp h
  obtain ⟨index, hadmit, h⟩ := Status.bind_eq_ok.mp h
  obtain ⟨hdistinct, -, -, hindex⟩ := admitOverrides_ok _ _ _ _ hadmit
  obtain rfl := Except.ok.inj h
  refine ⟨⟨hdistinct, fun resource i => ?_⟩, rfl, rfl, rfl, by simpa using hzero⟩
  subst hindex
  exact find?_indexOf hdistinct resource i

/-- Installing a fallback changes no override. -/
theorem resolve_setFallback {s s' : PolicySet} {policy : Policy} (h : s.Indexed)
    (hs : s.setFallback policy = .ok s') (resource : ResourceId) :
    s'.resolve resource = (overrideFor s.overrides resource).getD policy := by
  rw [(indexed_setFallback h hs).resolve_eq]
  obtain ⟨-, _, -, rfl⟩ := setFallback_ok hs
  rfl

theorem overrideFor_setOverride {s s' : PolicySet} {resource : ResourceId} {policy : Policy}
    (h : s.Indexed) (hs : s.setOverride resource policy = .ok s') (resource' : ResourceId) :
    overrideFor s'.overrides resource' =
      if resource' = resource then some policy else overrideFor s.overrides resource' := by
  obtain ⟨-, _, -, ⟨i, hi, rfl⟩ | ⟨hnone, rfl⟩⟩ := setOverride_ok hs
  · exact overrideFor_replaceAt h.distinct ((h.find resource i).mp hi) policy resource'
  · exact overrideFor_append s.overrides ⟨resource, policy⟩ (h.find_none.mp hnone) resource'

theorem fallback_setOverride {s s' : PolicySet} {resource : ResourceId} {policy : Policy}
    (hs : s.setOverride resource policy = .ok s') : s'.fallback = s.fallback := by
  obtain ⟨-, _, -, ⟨i, -, rfl⟩ | ⟨-, rfl⟩⟩ := setOverride_ok hs <;> rfl

/-- An override is in force for its resource and for no other. -/
theorem resolve_setOverride {s s' : PolicySet} {resource : ResourceId} {policy : Policy}
    (h : s.Indexed) (hs : s.setOverride resource policy = .ok s') (resource' : ResourceId) :
    s'.resolve resource' = if resource' = resource then policy else s.resolve resource' := by
  rw [(indexed_setOverride h hs).resolve_eq, h.resolve_eq, overrideFor_setOverride h hs,
    fallback_setOverride hs]
  split <;> rfl

theorem overrideFor_removeOverride {s s' : PolicySet} {resource : ResourceId} (h : s.Indexed)
    (hs : s.removeOverride resource = .ok s') (resource' : ResourceId) :
    overrideFor s'.overrides resource' =
      if resource' = resource then none else overrideFor s.overrides resource' := by
  obtain ⟨i, _, hi, -, rfl⟩ := removeOverride_ok hs
  have hdistinct : DistinctResources (s.overrides.eraseIdx i) :=
    h.distinct.sublist ((List.eraseIdx_sublist _ _).map _)
  have hposition : ∀ j entry, s.overrides[j]? = some entry →
      s.index.find? entry.resource = some j := fun j entry hj =>
    (h.find entry.resource j).mpr (by rw [hj]; rfl)
  ext policy
  rw [recomputeDigest, overrideFor_eq_some hdistinct, List.mem_eraseIdx_iff_getElem?]
  by_cases hr : resource' = resource
  · subst hr
    rw [if_pos rfl]
    refine iff_of_false ?_ (by simp)
    rintro ⟨j, hne, hj⟩
    have := hposition j _ hj
    rw [hi] at this
    exact hne (Option.some.inj this).symm
  · rw [if_neg hr, overrideFor_eq_some h.distinct, List.mem_iff_getElem?]
    refine exists_congr fun j => and_iff_right_of_imp ?_
    rintro hj rfl
    have hat := (h.find resource j).mp hi
    rw [hj] at hat
    exact hr (Option.some.inj hat)

/-- Removing an override puts its resource under the fallback and changes no other. -/
theorem resolve_removeOverride {s s' : PolicySet} {resource : ResourceId} (h : s.Indexed)
    (hs : s.removeOverride resource = .ok s') (resource' : ResourceId) :
    s'.resolve resource' = if resource' = resource then s.fallback else s.resolve resource' := by
  have hfallback : s'.fallback = s.fallback := by
    obtain ⟨i, _, -, -, rfl⟩ := removeOverride_ok hs
    rfl
  rw [(indexed_removeOverride h hs).resolve_eq, h.resolve_eq, overrideFor_removeOverride h hs,
    hfallback]
  split <;> rfl

/-! ### Validity -/

/-- The policies of a set: the fallback and the overrides'. -/
def installed (s : PolicySet) : List Policy := s.fallback :: s.overrides.map PolicyOverride.policy

/-- Every policy of the set passes the checks of a policy document. -/
def Valid (s : PolicySet) : Prop := ∀ policy ∈ s.installed, validate policy = .ok ()

theorem resolve_mem_installed (s : PolicySet) (resource : ResourceId) :
    s.resolve resource ∈ s.installed := by
  rw [resolve]
  split
  · exact List.mem_cons_self
  · rename_i i _
    cases h : s.overrides[i]? with
    | none => exact List.mem_cons_self
    | some entry =>
      exact List.mem_cons_of_mem _ (List.mem_map_of_mem (List.mem_of_getElem? h))

/-- The checks of a policy document include those of the limit of every kind. -/
theorem kind_of_validate {policy : Policy} (h : validate policy = .ok ()) (kind : InterventionKind) :
    validateKind (policy.intervention.kinds kind) = .ok () := by
  unfold validate at h
  extract_lets d ip at h
  -- the checks before those of the kinds
  iterate 23 obtain ⟨_, -, h⟩ := Status.bind_eq_ok.mp h
  obtain ⟨_, hkinds, -⟩ := Status.bind_eq_ok.mp h
  obtain ⟨_, h₁, hkinds⟩ := Status.bind_eq_ok.mp hkinds
  obtain ⟨_, h₂, hkinds⟩ := Status.bind_eq_ok.mp hkinds
  obtain ⟨_, h₃, hkinds⟩ := Status.bind_eq_ok.mp hkinds
  obtain ⟨_, h₄, -⟩ := Status.bind_eq_ok.mp hkinds
  cases kind
  · exact h₁
  · exact h₂
  · exact h₃
  · exact h₄

/-- An enabled kind has a positive maximum within the bound. -/
theorem magnitude_of_validate {policy : Policy} (h : validate policy = .ok ())
    {kind : InterventionKind} (henabled : (policy.intervention.kinds kind).enabled = true) :
    (policy.intervention.kinds kind).magnitudePermille ≠ 0 ∧
      (policy.intervention.kinds kind).magnitudePermille ≤ Limits.maxMagnitudePermille := by
  have hkind := kind_of_validate h kind
  rw [validateKind, henabled] at hkind
  obtain ⟨_, hmagnitude, -⟩ := Status.bind_eq_ok.mp hkind
  simpa using hmagnitude

theorem cooldown_of_validate {policy : Policy} (h : validate policy = .ok ()) :
    policy.detection.cooldownTicks ≤ Limits.maxCooldownTicks := by
  unfold validate at h
  extract_lets d ip at h
  -- the checks before that of the cooldown
  iterate 18 obtain ⟨_, -, h⟩ := Status.bind_eq_ok.mp h
  obtain ⟨_, hcooldown, -⟩ := Status.bind_eq_ok.mp h
  simpa using hcooldown

theorem valid_initial : initial.Valid := by
  intro policy hp
  obtain rfl : policy = makeDefaultPolicy := by simpa [installed, initial, recomputeDigest] using hp
  decide +kernel

theorem valid_setFallback {s s' : PolicySet} {policy : Policy} (h : s.Valid)
    (hs : s.setFallback policy = .ok s') : s'.Valid := by
  obtain ⟨hvalid, next, -, rfl⟩ := setFallback_ok hs
  intro p hp
  rcases List.mem_cons.mp hp with rfl | hp
  · exact hvalid
  · exact h p (List.mem_cons_of_mem _ hp)

theorem valid_setOverride {s s' : PolicySet} {resource : ResourceId} {policy : Policy} (h : s.Valid)
    (hs : s.setOverride resource policy = .ok s') : s'.Valid := by
  obtain ⟨hvalid, next, -, ⟨i, -, rfl⟩ | ⟨-, rfl⟩⟩ := setOverride_ok hs
  · intro p hp
    rcases List.mem_cons.mp hp with rfl | hp
    · exact h _ List.mem_cons_self
    · obtain ⟨entry, hentry, rfl⟩ := List.mem_map.mp hp
      obtain ⟨j, hj⟩ := List.mem_iff_getElem?.mp hentry
      simp only [recomputeDigest, replaceAt, List.getElem?_modify] at hj
      cases hold : s.overrides[j]? with
      | none => simp [hold] at hj
      | some old =>
        rw [hold] at hj
        have hmem := List.mem_of_getElem? hold
        by_cases hij : i = j
        · simp only [hij, if_true, Option.map_eq_map, Option.map_some, Option.some.injEq] at hj
          rw [← hj]
          exact hvalid
        · simp only [hij, if_false, Option.map_eq_map, Option.map_some, Option.some.injEq] at hj
          rw [← hj]
          exact h _ (List.mem_cons_of_mem _ (List.mem_map_of_mem hmem))
  · intro p hp
    simp only [installed, recomputeDigest, List.map_append, List.map_singleton, List.mem_cons,
      List.mem_append, List.not_mem_nil, or_false] at hp
    rcases hp with rfl | hp | rfl
    · exact h _ List.mem_cons_self
    · exact h p (List.mem_cons_of_mem _ hp)
    · exact hvalid

theorem valid_removeOverride {s s' : PolicySet} {resource : ResourceId} (h : s.Valid)
    (hs : s.removeOverride resource = .ok s') : s'.Valid := by
  obtain ⟨i, next, -, -, rfl⟩ := removeOverride_ok hs
  intro p hp
  rcases List.mem_cons.mp hp with rfl | hp
  · exact h _ List.mem_cons_self
  · refine h p (List.mem_cons_of_mem _ ?_)
    exact ((List.eraseIdx_sublist _ _).map _).subset hp

/-- Every change of the set moves its generation. -/
theorem generation_ne {s : PolicySet} {next : UInt32}
    (h : addChecked s.generation.raw 1 = some next) :
    (⟨next⟩ : PolicyGeneration) ≠ s.generation := by
  rw [addChecked] at h
  split at h
  · cases h
  · intro heq
    have hraw : s.generation.raw + 1 = s.generation.raw := by
      rw [Option.some.inj h, ← heq]
    have := congrArg UInt32.toNat hraw
    rw [UInt32.toNat_add] at this
    have := s.generation.raw.toNat_lt
    simp only [UInt32.toNat_one] at *
    omega

end PolicySet

end Mbg
