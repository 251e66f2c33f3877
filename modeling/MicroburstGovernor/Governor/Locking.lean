import MicroburstGovernor.Lib.Locks

/-! The locks of the governor and of its store, under any number of threads.

    `StateLock` takes the state mutex and then claims the mark of its owner. A public call of the
    governor runs under it and calls the store, which has a mutex of its own; nothing in the store
    calls back.

        governor   lockState ─▶ claimOwner ─▶ (lockStore ─▶ unlockStore)* ─▶ dropOwner ─▶ unlockState
        store      lockStore ─▶ unlockStore -/

namespace Mbg

/-! ### What a thread does -/

/-- One access to a lock or to the mark. -/
inductive LockStep where
  | lockState
  /-- The mark goes from nobody to this thread, or the process aborts. -/
  | claimOwner
  | dropOwner
  | unlockState
  | lockStore
  | unlockStore
  deriving DecidableEq

/-- A public call of the store, or of the governor with the public calls it makes meanwhile. -/
inductive Call where
  | store
  | governor (body : List Call)

mutual

def Call.steps : Call → List LockStep
  | .store => [.lockStore, .unlockStore]
  | .governor body => .lockState :: .claimOwner :: (callSteps body ++ [.dropOwner, .unlockState])

def callSteps : List Call → List LockStep
  | [] => []
  | call :: calls => call.steps ++ callSteps calls

end

/-- The two locks, the mark, and what every thread has left to do. -/
structure Threads (ι : Type*) where
  stateHolder : Option ι := none
  storeHolder : Option ι := none
  owner : Option ι := none
  aborted : Bool := false
  rest : ι → List LockStep

namespace Threads

variable {ι : Type*}

/-- The next access of a thread; a mutex that is held makes it wait, also one that it holds itself. -/
def step [DecidableEq ι] (s : Threads ι) (i : ι) : Threads ι :=
  if s.aborted then s
  else match s.rest i with
  | [] => s
  | .lockState :: rest =>
    if s.stateHolder = none then
      { s with stateHolder := some i, rest := Function.update s.rest i rest }
    else s
  | .claimOwner :: rest =>
    if s.owner = none then { s with owner := some i, rest := Function.update s.rest i rest }
    else { s with aborted := true }
  | .dropOwner :: rest => { s with owner := none, rest := Function.update s.rest i rest }
  | .unlockState :: rest => { s with stateHolder := none, rest := Function.update s.rest i rest }
  | .lockStore :: rest =>
    if s.storeHolder = none then
      { s with storeHolder := some i, rest := Function.update s.rest i rest }
    else s
  | .unlockStore :: rest => { s with storeHolder := none, rest := Function.update s.rest i rest }

/-- Threads that are about to make these calls. -/
def start (calls : ι → List Call) : Threads ι := { rest := fun i => callSteps (calls i) }

/-! ### Where a thread stands -/

/-- What is left of a thread this deep in scopes of `StateLock`. -/
inductive Left : ℕ → List LockStep → Prop
  | done : Left 0 []
  | enter {depth : ℕ} {rest : List LockStep} (h : Left (depth + 1) rest) :
    Left depth (.lockState :: .claimOwner :: rest)
  | leave {depth : ℕ} {rest : List LockStep} (h : Left depth rest) :
    Left (depth + 1) (.dropOwner :: .unlockState :: rest)
  | store {depth : ℕ} {rest : List LockStep} (h : Left depth rest) :
    Left depth (.lockStore :: .unlockStore :: rest)

/-- Between two calls, or in one of the store. -/
def Standing (depth : ℕ) (rest : List LockStep) : Prop :=
  Left depth rest ∨ ∃ later, rest = .unlockStore :: later ∧ Left depth later

mutual

theorem left_steps {depth : ℕ} {rest : List LockStep} (h : Left depth rest) :
    ∀ call : Call, Left depth (call.steps ++ rest)
  | .store => .store h
  | .governor body => by
    rw [Call.steps, List.cons_append, List.cons_append, List.append_assoc]
    exact .enter (left_callSteps (.leave h) body)

theorem left_callSteps {depth : ℕ} {rest : List LockStep} (h : Left depth rest) :
    ∀ calls : List Call, Left depth (callSteps calls ++ rest)
  | [] => h
  | call :: calls => by
    rw [callSteps, List.append_assoc]
    exact left_steps (left_callSteps h calls) call

end

/-- The process runs; a thread without the state mutex is outside, and one with it is about to claim
    the mark, has it, or has dropped it. -/
structure Guarded (s : Threads ι) : Prop where
  running : s.aborted = false
  outside : ∀ i, s.stateHolder ≠ some i → s.owner ≠ some i ∧ Standing 0 (s.rest i)
  inside : ∀ i, s.stateHolder = some i →
    (s.owner = none ∧ ∃ later, s.rest i = .claimOwner :: later ∧ Left 1 later) ∨
    (s.owner = some i ∧ Standing 1 (s.rest i)) ∨
    (s.owner = none ∧ ∃ later, s.rest i = .unlockState :: later ∧ Left 0 later)

variable {s : Threads ι}

theorem guarded_start (calls : ι → List Call) : (start calls).Guarded where
  running := rfl
  outside i _ := by
    have hleft := left_callSteps .done (calls i)
    rw [List.append_nil] at hleft
    exact ⟨(Option.some_ne_none i).symm, Or.inl hleft⟩
  inside i h := by cases h

theorem Guarded.not_aborted (h : s.Guarded) : ¬ s.aborted = true := by
  rw [h.running]
  exact Bool.false_ne_true

/-- Where nobody holds the state mutex nobody has the mark. -/
theorem Guarded.owner_none (h : s.Guarded) (hfree : s.stateHolder = none) : s.owner = none := by
  cases howner : s.owner with
  | none => rfl
  | some i =>
    have hnot := (h.outside i (by rw [hfree]; exact (Option.some_ne_none i).symm)).1
    exact absurd howner hnot

variable [DecidableEq ι]

/-- A thread stays outside. -/
theorem Guarded.stay (h : s.Guarded) {i : ι} (hi : s.stateHolder ≠ some i) (storeHolder : Option ι)
    {rest : List LockStep} (hrest : Standing 0 rest) :
    { s with storeHolder, rest := Function.update s.rest i rest }.Guarded where
  running := h.running
  outside j hj := by
    obtain ⟨howner, hstanding⟩ := h.outside j hj
    refine ⟨howner, ?_⟩
    by_cases heq : j = i
    · subst heq
      simpa using hrest
    · simpa [heq] using hstanding
  inside j hj := by
    have hne : j ≠ i := fun heq => hi (heq ▸ hj)
    have hbefore := h.inside j hj
    simpa [hne] using hbefore

/-- The thread inside, or the one that comes in, moves on. -/
theorem Guarded.move {i : ι} (hrunning : s.aborted = false)
    (hothers : ∀ j, j ≠ i → Standing 0 (s.rest j)) {stateHolder storeHolder owner : Option ι}
    {rest : List LockStep} (hholder : ∀ j, j ≠ i → stateHolder ≠ some j ∧ owner ≠ some j)
    (hout : stateHolder ≠ some i → owner ≠ some i ∧ Standing 0 rest)
    (hin : stateHolder = some i →
      (owner = none ∧ ∃ later, rest = .claimOwner :: later ∧ Left 1 later) ∨
      (owner = some i ∧ Standing 1 rest) ∨
      (owner = none ∧ ∃ later, rest = .unlockState :: later ∧ Left 0 later)) :
    { s with stateHolder, storeHolder, owner, rest := Function.update s.rest i rest }.Guarded where
  running := hrunning
  outside j hj := by
    by_cases heq : j = i
    · subst heq
      simpa using hout hj
    · simpa [heq] using ⟨(hholder j heq).2, hothers j heq⟩
  inside j hj := by
    by_cases heq : j = i
    · subst heq
      simpa using hin hj
    · exact absurd hj (hholder j heq).1

/-- A thread without the state mutex takes a step. -/
theorem Guarded.step_outside (h : s.Guarded) {i : ι} (hi : s.stateHolder ≠ some i) :
    (s.step i).Guarded := by
  obtain ⟨-, hstanding⟩ := h.outside i hi
  unfold step
  rw [if_neg h.not_aborted]
  rcases hstanding with hleft | ⟨later, hrest, hlater⟩
  · generalize hrest : s.rest i = rest at hleft
    cases hleft with
    | done => exact h
    | @enter _ rest hinner =>
      dsimp only
      split_ifs with hfree
      · have howner := h.owner_none hfree
        have hnobody : ∀ j, s.stateHolder ≠ some j := fun j => by rw [hfree]; exact (Option.some_ne_none j).symm
        refine Guarded.move h.running (fun j _ => (h.outside j (hnobody j)).2) (fun j hj => ?_)
          (fun hnot => absurd rfl hnot) fun _ => Or.inl ⟨howner, rest, rfl, hinner⟩
        refine ⟨fun heq => hj (Option.some.inj heq).symm, ?_⟩
        rw [howner]
        exact (Option.some_ne_none j).symm
      · exact h
    | @store _ rest hafter =>
      dsimp only
      split_ifs
      · exact h.stay hi (some i) (Or.inr ⟨rest, rfl, hafter⟩)
      · exact h
  · rw [hrest]
    exact h.stay hi none (Or.inl hlater)

/-- The thread with the state mutex takes a step; it finds the mark free, and waits for ever where
    it is to enter again. -/
theorem Guarded.step_inside (h : s.Guarded) {i : ι} (hi : s.stateHolder = some i) :
    (s.step i).Guarded := by
  have hothers : ∀ j, j ≠ i → s.stateHolder ≠ some j := fun j hj heq =>
    hj (Option.some.inj (heq.symm.trans hi))
  have hstand : ∀ j, j ≠ i → Standing 0 (s.rest j) := fun j hj => (h.outside j (hothers j hj)).2
  have hunmarked : ∀ j, j ≠ i → s.owner ≠ some j := fun j hj => (h.outside j (hothers j hj)).1
  unfold step
  rw [if_neg h.not_aborted]
  rcases h.inside i hi with ⟨howner, later, hrest, hlater⟩ | ⟨howner, hleft | ⟨later, hrest, hlater⟩⟩ |
    ⟨howner, later, hrest, hlater⟩
  · rw [hrest]
    dsimp only
    rw [if_pos howner]
    refine Guarded.move h.running hstand (fun j hj => ⟨hothers j hj, ?_⟩)
      (fun hnot => absurd hi hnot) fun _ => Or.inr (Or.inl ⟨rfl, Or.inl hlater⟩)
    exact fun heq => hj (Option.some.inj heq).symm
  · generalize hrest : s.rest i = rest at hleft
    cases hleft with
    | enter =>
      dsimp only
      rw [if_neg (by rw [hi]; exact Option.some_ne_none i)]
      exact h
    | @leave _ rest hafter =>
      exact Guarded.move h.running hstand (fun j hj => ⟨hothers j hj, (Option.some_ne_none j).symm⟩)
        (fun hnot => absurd hi hnot) fun _ => Or.inr (Or.inr ⟨rfl, rest, rfl, hafter⟩)
    | @store _ rest hafter =>
      dsimp only
      split_ifs
      · exact Guarded.move h.running hstand (fun j hj => ⟨hothers j hj, hunmarked j hj⟩)
          (fun hnot => absurd hi hnot)
          fun _ => Or.inr (Or.inl ⟨howner, Or.inr ⟨rest, rfl, hafter⟩⟩)
      · exact h
  · rw [hrest]
    exact Guarded.move h.running hstand (fun j hj => ⟨hothers j hj, hunmarked j hj⟩)
      (fun hnot => absurd hi hnot) fun _ => Or.inr (Or.inl ⟨howner, Or.inl hlater⟩)
  · rw [hrest]
    refine Guarded.move h.running hstand (fun j hj => ⟨(Option.some_ne_none j).symm, hunmarked j hj⟩)
      (fun _ => ⟨?_, Or.inl hlater⟩) fun hnot => absurd hnot ((Option.some_ne_none i).symm)
    rw [howner]
    exact (Option.some_ne_none i).symm

/-- STEP: whichever thread moves, the mark is found free by the thread that claims it. -/
theorem Guarded.step (h : s.Guarded) (i : ι) : (s.step i).Guarded := by
  by_cases hi : s.stateHolder = some i
  · exact h.step_inside hi
  · exact h.step_outside hi

theorem Guarded.run (h : s.Guarded) (schedule : List ι) :
    (Runs.run Threads.step s schedule).Guarded := by
  have hmeets : Runs.Meets Threads.step (fun _ _ => True) s schedule :=
    Runs.meets_of_forall_mem fun _ _ => trivial
  exact Runs.run_invariant (I := Guarded) (fun s i h _ => Guarded.step h i) h hmeets

/-! ### Entering again -/

/-- Nobody gets past a thread that enters again. -/
theorem Guarded.stuck (h : s.Guarded) {i : ι} {rest : List LockStep}
    (hi : s.stateHolder = some i) (hrest : s.rest i = .lockState :: rest) (j : ι) :
    (s.step j).stateHolder = some i ∧ (s.step j).rest i = s.rest i ∧
      ∀ k, .lockState ∈ s.rest k → .lockState ∈ (s.step j).rest k := by
  have hheld : ¬ s.stateHolder = none := by
    rw [hi]
    exact Option.some_ne_none i
  have hsame : s.step j = s → (s.step j).stateHolder = some i ∧ (s.step j).rest i = s.rest i ∧
      ∀ k, .lockState ∈ s.rest k → .lockState ∈ (s.step j).rest k := by
    intro heq
    rw [heq]
    exact ⟨hi, rfl, fun k hk => hk⟩
  have hpast : ∀ {a : LockStep} {later : List LockStep}, j ≠ i → s.rest j = a :: later →
      a ≠ .lockState → (Function.update s.rest j later) i = s.rest i ∧
        ∀ k, .lockState ∈ s.rest k → .lockState ∈ Function.update s.rest j later k := by
    intro a later hj hnext ha
    refine ⟨Function.update_of_ne (Ne.symm hj) _ _, fun k hk => ?_⟩
    by_cases hkj : k = j
    · subst hkj
      rw [hnext] at hk
      rw [Function.update_self]
      exact (List.mem_cons.mp hk).resolve_left (Ne.symm ha)
    · rw [Function.update_of_ne hkj]
      exact hk
  by_cases hj : j = i
  · subst hj
    refine hsame ?_
    unfold Threads.step
    rw [if_neg h.not_aborted, hrest]
    dsimp only
    rw [if_neg hheld]
  · have hother : s.stateHolder ≠ some j := fun heq => hj (Option.some.inj (heq.symm.trans hi))
    rcases (h.outside j hother).2 with hleft | ⟨later, hnext, -⟩
    · generalize hnext : s.rest j = other at hleft
      cases hleft with
      | done =>
        refine hsame ?_
        unfold Threads.step
        rw [if_neg h.not_aborted, hnext]
      | enter =>
        refine hsame ?_
        unfold Threads.step
        rw [if_neg h.not_aborted, hnext]
        dsimp only
        rw [if_neg hheld]
      | store =>
        by_cases hfree : s.storeHolder = none
        · unfold Threads.step
          rw [if_neg h.not_aborted, hnext]
          dsimp only
          rw [if_pos hfree]
          exact ⟨hi, hpast hj hnext (by simp)⟩
        · refine hsame ?_
          unfold Threads.step
          rw [if_neg h.not_aborted, hnext]
          dsimp only
          rw [if_neg hfree]
    · unfold Threads.step
      rw [if_neg h.not_aborted, hnext]
      exact ⟨hi, hpast hj hnext (by simp)⟩

/-- What `StateLock` comes to. -/
structure LockLaw (s : Threads ι) : Prop where
  /-- The mark is found free by every thread that claims it: the process is never aborted. -/
  running : s.aborted = false
  /-- The mark is the holder's. -/
  owned : ∀ i, s.owner = some i → s.stateHolder = some i
  /-- A thread that enters again holds the state mutex and waits for it for ever, and no thread that
      is still to enter ever does. -/
  reentered : ∀ i rest, s.stateHolder = some i → s.rest i = .lockState :: rest →
    ∀ schedule, (Runs.run step s schedule).stateHolder = some i ∧
      (Runs.run step s schedule).rest i = s.rest i ∧
      ∀ j, .lockState ∈ s.rest j → .lockState ∈ (Runs.run step s schedule).rest j

theorem Guarded.law (h : s.Guarded) : s.LockLaw where
  running := h.running
  owned i howner := by
    by_contra hi
    exact (h.outside i hi).1 howner
  reentered i rest hi hrest schedule := by
    induction schedule using List.reverseRecOn with
    | nil => exact ⟨hi, rfl, fun j hj => hj⟩
    | append_singleton schedule j ih =>
      obtain ⟨hholder, hsame, hentries⟩ := ih
      rw [Runs.run_concat]
      obtain ⟨hholder', hsame', hentries'⟩ :=
        (h.run schedule).stuck hholder (hsame.trans hrest) j
      exact ⟨hholder', hsame'.trans hsame, fun k hk => hentries' k (hentries k hk)⟩

/-- STATE LOCK: for any public calls, however nested, of any threads in any interleaving, the guard
    against entering twice never fires: a thread that does so waits for itself, and all others that
    are still to enter wait for it. -/
theorem stateLock_law (calls : ι → List Call) (schedule : List ι) :
    (Runs.run step (start calls) schedule).LockLaw :=
  ((guarded_start calls).run schedule).law

end Threads

/-! ### The calls of the governor -/

/-- A public operation: of the governor, with the calls it makes to its store, or of the store. -/
inductive Operation where
  | governor (storeCalls : ℕ)
  | store

def Operation.call : Operation → Call
  | .governor storeCalls => .governor (List.replicate storeCalls .store)
  | .store => .store

/-- The mutexes, in the order they are taken in. -/
inductive Mutex where
  | state
  | store
  deriving DecidableEq

namespace Mutex

def rank : Mutex → ℕ
  | state => 0
  | store => 1

instance instPreorder : Preorder Mutex := Preorder.lift rank

instance instWellFoundedGT : WellFoundedGT Mutex where
  wf := by
    have hmeasure : ∀ {a b : Mutex}, a > b → 1 - a.rank < 1 - b.rank := by
      intro a b h
      have hless : b.rank < a.rank := h
      cases a <;> cases b <;> simp [rank] at hless ⊢
    exact Subrelation.wf hmeasure (InvImage.wf (fun m : Mutex => 1 - m.rank) wellFounded_lt)

end Mutex

/-- What an access means to the mutexes. -/
def LockStep.lock : LockStep → Locks.Step Mutex
  | lockState => .acquire .state
  | claimOwner | dropOwner => .idle
  | unlockState => .release .state
  | lockStore => .acquire .store
  | unlockStore => .release .store

namespace Threads

variable {ι : Type*} {s : Threads ι}

/-- The mutexes alone. -/
def locks (s : Threads ι) : Locks.State ι Mutex where
  holder
    | .state => s.stateHolder
    | .store => s.storeHolder
  rest i := (s.rest i).map LockStep.lock

/-- The thread can take its next access at once. -/
def Enabled (s : Threads ι) (i : ι) : Prop :=
  match s.rest i with
  | [] => False
  | .lockState :: _ => s.stateHolder = none
  | .lockStore :: _ => s.storeHolder = none
  | _ => True

theorem enabled_locks (i : ι) : s.locks.Enabled i ↔ s.Enabled i := by
  have hrest : s.locks.rest i = (s.rest i).map LockStep.lock := rfl
  unfold Locks.State.Enabled Enabled
  rw [hrest]
  cases s.rest i with
  | nil => exact Iff.rfl
  | cons a rest => cases a <;> exact Iff.rfl

/-- A thread moves on, and one of the mutexes may change hands. -/
theorem locks_update [DecidableEq ι] (i : ι) (rest : List LockStep)
    {stateHolder storeHolder owner : Option ι} {holder : Mutex → Option ι} (hstate : holder .state = stateHolder)
    (hstore : holder .store = storeHolder) :
    locks { s with stateHolder, storeHolder, owner, rest := Function.update s.rest i rest } =
      { holder, rest := Function.update s.locks.rest i (rest.map LockStep.lock) } := by
  rw [locks, Locks.State.mk.injEq]
  constructor
  · funext m
    cases m with
    | state => exact hstate.symm
    | store => exact hstore.symm
  · funext j
    by_cases hj : j = i
    · subst hj
      simp
    · simp [hj, locks]

/-- SIMULATION: the process runs on, and its threads are threads that take locks. -/
theorem Guarded.locks_step [DecidableEq ι] (h : s.Guarded) (i : ι) :
    (s.step i).locks = s.locks.step i := by
  have hafter := (h.step i).running
  have hrest : s.locks.rest i = (s.rest i).map LockStep.lock := rfl
  unfold Threads.step at hafter ⊢
  rw [if_neg h.not_aborted] at hafter ⊢
  unfold Locks.State.step
  rw [hrest]
  cases hnext : s.rest i with
  | nil => rfl
  | cons a rest =>
    rw [hnext] at hafter
    cases a with
    | lockState =>
      dsimp only [List.map_cons, LockStep.lock]
      change locks (if s.stateHolder = none then _ else _) = if s.stateHolder = none then _ else _
      split_ifs with hfree
      · exact locks_update i rest (by simp) (by simp [locks])
      · rfl
    | claimOwner =>
      dsimp only at hafter ⊢
      split_ifs at hafter ⊢
      exact locks_update i rest rfl rfl
    | dropOwner => exact locks_update i rest rfl rfl
    | unlockState => exact locks_update i rest (by simp) (by simp [locks])
    | lockStore =>
      dsimp only [List.map_cons, LockStep.lock]
      change locks (if s.storeHolder = none then _ else _) = if s.storeHolder = none then _ else _
      split_ifs with hfree
      · exact locks_update i rest (by simp [locks]) (by simp)
      · rfl
    | unlockStore => exact locks_update i rest (by simp [locks]) (by simp)

theorem disciplined_storeCalls {rest : List LockStep}
    (h : Locks.Disciplined [Mutex.state] (rest.map LockStep.lock)) : ∀ n : ℕ,
      Locks.Disciplined [Mutex.state]
        ((callSteps (List.replicate n .store) ++ rest).map LockStep.lock)
  | 0 => h
  | n + 1 => by
    rw [List.replicate_succ, callSteps, Call.steps, List.append_assoc]
    refine ⟨fun m hm => ?_, [.state], rfl, disciplined_storeCalls h n⟩
    rw [List.mem_singleton.mp hm]
    exact Nat.zero_lt_one

/-- An operation takes its mutexes in order and keeps none. -/
theorem disciplined_steps (operation : Operation) {rest : List LockStep}
    (h : Locks.Disciplined ([] : List Mutex) (rest.map LockStep.lock)) :
    Locks.Disciplined ([] : List Mutex) ((operation.call.steps ++ rest).map LockStep.lock) := by
  have hnone : ∀ l : Mutex, ∀ m ∈ ([] : List Mutex), m < l := fun l m hm =>
    absurd hm List.not_mem_nil
  cases operation with
  | governor storeCalls =>
    rw [Operation.call, Call.steps, List.cons_append, List.cons_append, List.append_assoc]
    have hleave : Locks.Disciplined [Mutex.state]
        ((.dropOwner :: .unlockState :: rest).map LockStep.lock) := ⟨[], rfl, h⟩
    exact ⟨hnone .state, disciplined_storeCalls hleave storeCalls⟩
  | store => exact ⟨hnone .store, [], rfl, h⟩

theorem disciplined_operations : ∀ operations : List Operation,
    Locks.Disciplined ([] : List Mutex)
      ((callSteps (operations.map Operation.call)).map LockStep.lock)
  | [] => rfl
  | operation :: operations => disciplined_steps operation (disciplined_operations operations)

theorem orderly_start (operations : ι → List Operation) :
    Locks.Orderly (start fun i => (operations i).map Operation.call).locks := by
  refine fun i => ⟨[], disciplined_operations (operations i), List.nodup_nil, fun m => ?_⟩
  refine ⟨fun h => absurd h List.not_mem_nil, fun h => ?_⟩
  cases m <;> cases h

theorem work_locks [Fintype ι] (s : Threads ι) :
    Locks.work s.locks = ∑ i, (s.rest i).length := by
  refine Finset.sum_congr rfl fun i _ => ?_
  exact List.length_map LockStep.lock

variable [DecidableEq ι]

/-- RUN: a schedule of the threads is one of threads that take locks. -/
theorem Guarded.locks_run (h : s.Guarded) {schedule : List ι}
    (hschedule : Runs.Meets Threads.step Enabled s schedule) :
    (Runs.run Threads.step s schedule).locks = Runs.run Locks.State.step s.locks schedule ∧
      Runs.Meets Locks.State.step Locks.State.Enabled s.locks schedule := by
  induction schedule generalizing s with
  | nil => exact ⟨rfl, trivial⟩
  | cons i schedule ih =>
    obtain ⟨hi, hrest⟩ := hschedule
    obtain ⟨hrun, hmeets⟩ := ih (h.step i) hrest
    rw [h.locks_step i] at hrun hmeets
    exact ⟨hrun, (enabled_locks i).mpr hi, hmeets⟩

/-- Whatever threads go on and in whatever order, there are no more accesses than the operations ask
    for, and until the last one is made some thread goes on. -/
def Finishes [Fintype ι] (s : Threads ι) : Prop :=
  ∀ schedule, Runs.Meets step Enabled s schedule →
    ∑ i, ((Runs.run step s schedule).rest i).length + schedule.length = ∑ i, (s.rest i).length ∧
      ((∃ i, (Runs.run step s schedule).rest i ≠ []) →
        ∃ i, (Runs.run step s schedule).Enabled i)

/-- LOCK ORDER: public operations of a governor and its store never deadlock: every one of them ends,
    in any interleaving of any number of threads. -/
theorem operations_finish [Fintype ι] (operations : ι → List Operation) :
    (start fun i => (operations i).map Operation.call).Finishes := by
  intro schedule hschedule
  have hguarded := guarded_start fun i => (operations i).map Operation.call
  obtain ⟨hrun, hmeets⟩ := hguarded.locks_run hschedule
  obtain ⟨hwork, hgoes⟩ := (orderly_start operations).finishes hmeets
  rw [← hrun, work_locks, work_locks] at hwork
  refine ⟨hwork, fun ⟨i, hi⟩ => ?_⟩
  rw [← hrun, work_locks] at hgoes
  have hleft : ∑ i, ((Runs.run step (start fun i => (operations i).map Operation.call)
      schedule).rest i).length ≠ 0 := by
    intro hzero
    rw [Finset.sum_eq_zero_iff] at hzero
    exact hi (List.length_eq_zero_iff.mp (hzero i (Finset.mem_univ i)))
  obtain ⟨j, hj⟩ := hgoes hleft
  exact ⟨j, (enabled_locks j).mp hj⟩

end Threads

end Mbg
