import MicroburstGovernor.Lib.Runs
import Mathlib.Algebra.BigOperators.Group.Finset.Basic
import Mathlib.Data.Fintype.BigOperators
import Mathlib.Order.WellFounded

/-! Threads that take locks in one order never deadlock.

    A thread is what it has left to do: it takes a lock, gives one back, or does neither. Where every
    thread takes its locks in ascending order and gives back the last one it took, a thread that waits
    waits for one that holds a greater lock than any it waits with; nobody waits at the top. -/

namespace Locks

variable {ι κ : Type*}

/-- What a thread does next. -/
inductive Step (κ : Type*) where
  | acquire (l : κ)
  | release (l : κ)
  | idle

/-- Who holds a lock, and what every thread has left to do. -/
structure State (ι κ : Type*) where
  holder : κ → Option ι
  rest : ι → List (Step κ)

namespace State

/-- A thread that takes a lock waits while another holds it. -/
def Enabled (s : State ι κ) (i : ι) : Prop :=
  match s.rest i with
  | [] => False
  | .acquire l :: _ => s.holder l = none
  | _ => True

variable [DecidableEq ι] [DecidableEq κ]

def step (s : State ι κ) (i : ι) : State ι κ :=
  match s.rest i with
  | [] => s
  | .acquire l :: rest =>
    if s.holder l = none then
      { holder := Function.update s.holder l (some i), rest := Function.update s.rest i rest }
    else s
  | .release l :: rest =>
    { holder := Function.update s.holder l none, rest := Function.update s.rest i rest }
  | .idle :: rest => { s with rest := Function.update s.rest i rest }

end State

/-- With these locks held, the last one taken first: locks are taken in ascending order, the last one
    taken is given back first, and none is kept. -/
def Disciplined [LT κ] : List κ → List (Step κ) → Prop
  | held, [] => held = []
  | held, .acquire l :: rest => (∀ h ∈ held, h < l) ∧ Disciplined (l :: held) rest
  | held, .release l :: rest => ∃ others, held = l :: others ∧ Disciplined others rest
  | held, .idle :: rest => Disciplined held rest

/-- These locks are what a thread holds, and it goes on in order. -/
structure Holds [LT κ] (s : State ι κ) (i : ι) (held : List κ) : Prop where
  disciplined : Disciplined held (s.rest i)
  nodup : held.Nodup
  mem_iff : ∀ l, l ∈ held ↔ s.holder l = some i

/-- Every thread takes its locks in order. -/
def Orderly [LT κ] (s : State ι κ) : Prop := ∀ i, ∃ held, Holds s i held

section

variable [Preorder κ] {s : State ι κ}

/-- A thread goes on in order, and the others hold what they held. -/
theorem Orderly.update [DecidableEq ι] (h : Orderly s) (i : ι) {holder : κ → Option ι}
    {rest : List (Step κ)} {held : List κ} (hdisciplined : Disciplined held rest)
    (hnodup : held.Nodup) (hown : ∀ l, l ∈ held ↔ holder l = some i)
    (hothers : ∀ j, j ≠ i → ∀ l, holder l = some j ↔ s.holder l = some j) :
    Orderly { holder, rest := Function.update s.rest i rest } := by
  intro j
  by_cases hj : j = i
  · subst hj
    refine ⟨held, ⟨?_, hnodup, hown⟩⟩
    change Disciplined held (Function.update s.rest j rest j)
    rw [Function.update_self]
    exact hdisciplined
  · obtain ⟨other, hother⟩ := h j
    refine ⟨other, ⟨?_, hother.nodup, fun l => (hother.mem_iff l).trans (hothers j hj l).symm⟩⟩
    change Disciplined other (Function.update s.rest i rest j)
    rw [Function.update_of_ne hj]
    exact hother.disciplined

/-- STEP: order is kept. -/
theorem Orderly.step [DecidableEq ι] [DecidableEq κ] (h : Orderly s) (i : ι) :
    Orderly (s.step i) := by
  obtain ⟨held, hheld⟩ := h i
  have hdisciplined := hheld.disciplined
  unfold State.step
  split
  case h_1 => exact h
  case h_2 l rest hrest =>
    rw [hrest] at hdisciplined
    obtain ⟨habove, hnext⟩ := hdisciplined
    split_ifs with hfree
    · have hnew : l ∉ held := fun hmem => lt_irrefl l (habove l hmem)
      refine h.update i hnext (List.nodup_cons.mpr ⟨hnew, hheld.nodup⟩) (fun m => ?_) ?_
      · by_cases hm : m = l
        · subst hm
          simp
        · rw [Function.update_of_ne hm, ← hheld.mem_iff, List.mem_cons]
          simp [hm]
      · intro j hj m
        by_cases hm : m = l
        · subst hm
          rw [hfree, Function.update_self]
          simp [Ne.symm hj]
        · rw [Function.update_of_ne hm]
    · exact h
  case h_3 l rest hrest =>
    rw [hrest] at hdisciplined
    obtain ⟨others, rfl, hnext⟩ := hdisciplined
    obtain ⟨hgone, hnodup⟩ := List.nodup_cons.mp hheld.nodup
    have hown : s.holder l = some i := (hheld.mem_iff l).mp List.mem_cons_self
    refine h.update i hnext hnodup (fun m => ?_) ?_
    · by_cases hm : m = l
      · subst hm
        simp [hgone]
      · rw [Function.update_of_ne hm, ← hheld.mem_iff, List.mem_cons]
        simp [hm]
    · intro j hj m
      by_cases hm : m = l
      · subst hm
        rw [hown, Function.update_self]
        simp [Ne.symm hj]
      · rw [Function.update_of_ne hm]
  case h_4 rest hrest =>
    rw [hrest] at hdisciplined
    exact h.update i hdisciplined hheld.nodup hheld.mem_iff fun j _ l => Iff.rfl

/-- NO DEADLOCK: while a thread has something left to do some thread can go on. -/
theorem Orderly.exists_enabled [WellFoundedGT κ] (h : Orderly s) {i : ι} (hi : s.rest i ≠ []) :
    ∃ j, s.Enabled j := by
  by_contra hnone
  have hblocked : ∀ j, ¬ s.Enabled j := fun j hj => hnone ⟨j, hj⟩
  have hwaits : ∀ j, s.rest j ≠ [] → ∃ l rest, s.rest j = .acquire l :: rest := by
    intro j hj
    have hstuck := hblocked j
    unfold State.Enabled at hstuck
    cases hrest : s.rest j with
    | nil => exact absurd hrest hj
    | cons a rest =>
      rw [hrest] at hstuck
      cases a with
      | acquire l => exact ⟨l, rest, rfl⟩
      | release l => exact absurd trivial hstuck
      | idle => exact absurd trivial hstuck
  -- from the greatest lock downwards, nobody waits for it
  have hnever : ∀ l j rest, s.rest j ≠ .acquire l :: rest := by
    intro l
    induction l using WellFoundedGT.induction with
    | ind l ih =>
      intro j rest hrest
      have hstuck := hblocked j
      unfold State.Enabled at hstuck
      rw [hrest] at hstuck
      cases hholder : s.holder l with
      | none => exact hstuck hholder
      | some m =>
        obtain ⟨held, hheld⟩ := h m
        have hmem : l ∈ held := (hheld.mem_iff l).mpr hholder
        have hdisciplined := hheld.disciplined
        have hbusy : s.rest m ≠ [] := by
          intro hdone
          rw [hdone] at hdisciplined
          rw [hdisciplined] at hmem
          cases hmem
        obtain ⟨l', rest', hnext⟩ := hwaits m hbusy
        rw [hnext] at hdisciplined
        exact ih l' (hdisciplined.1 l hmem) m rest' hnext
  obtain ⟨l, rest, hrest⟩ := hwaits i hi
  exact hnever l i rest hrest

end

/-! ### All of it is done -/

section

variable [DecidableEq ι] [Fintype ι] {s : State ι κ}

/-- How much is left to do. -/
def work (s : State ι κ) : ℕ := ∑ i, (s.rest i).length

theorem work_update {i : ι} {a : Step κ} {rest : List (Step κ)} (hrest : s.rest i = a :: rest)
    (holder : κ → Option ι) :
    work { holder, rest := Function.update s.rest i rest } + 1 = work s := by
  have hothers : ∑ j ∈ Finset.univ.erase i, (Function.update s.rest i rest j).length =
      ∑ j ∈ Finset.univ.erase i, (s.rest j).length := by
    refine Finset.sum_congr rfl fun j hj => ?_
    rw [Function.update_of_ne (Finset.ne_of_mem_erase hj)]
  unfold work
  rw [← Finset.add_sum_erase Finset.univ (fun j => (s.rest j).length) (Finset.mem_univ i),
    ← Finset.add_sum_erase Finset.univ (fun j => (Function.update s.rest i rest j).length)
      (Finset.mem_univ i)]
  rw [hothers, Function.update_self, hrest, List.length_cons]
  omega

/-- STEP: a thread that goes on has one thing less to do. -/
theorem work_step [DecidableEq κ] {i : ι} (h : s.Enabled i) : work (s.step i) + 1 = work s := by
  unfold State.Enabled at h
  unfold State.step
  cases hrest : s.rest i with
  | nil =>
    rw [hrest] at h
    exact h.elim
  | cons a rest =>
    rw [hrest] at h
    cases a with
    | acquire l =>
      dsimp only at h ⊢
      rw [if_pos h]
      exact work_update hrest _
    | release l => exact work_update hrest _
    | idle => exact work_update hrest _

/-- RUN: a schedule of threads that go on is as long as what it leaves less to do; while something is
    left, some thread goes on. -/
theorem Orderly.finishes [DecidableEq κ] [Preorder κ] [WellFoundedGT κ] (h : Orderly s) {schedule : List ι}
    (hschedule : Runs.Meets State.step State.Enabled s schedule) :
    work (Runs.run State.step s schedule) + schedule.length = work s ∧
      (work (Runs.run State.step s schedule) ≠ 0 →
        ∃ i, (Runs.run State.step s schedule).Enabled i) := by
  induction schedule generalizing s with
  | nil =>
    refine ⟨rfl, fun hwork => ?_⟩
    obtain ⟨i, -, hi⟩ := Finset.exists_ne_zero_of_sum_ne_zero hwork
    have hbusy : s.rest i ≠ [] := fun hdone => hi (congrArg List.length hdone)
    exact h.exists_enabled hbusy
  | cons i schedule ih =>
    obtain ⟨hi, hrest⟩ := hschedule
    obtain ⟨hcount, henabled⟩ := ih (h.step i) hrest
    refine ⟨?_, henabled⟩
    have hless := work_step hi
    rw [Runs.run_cons, List.length_cons]
    omega

end

end Locks
