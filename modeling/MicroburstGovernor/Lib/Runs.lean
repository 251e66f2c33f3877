import Mathlib.Data.List.Basic
import Mathlib.Data.List.Induction
import Mathlib.Data.Set.Basic

/-! Runs of a deterministic machine and the induction that carries an invariant along them.

    A machine is a step function `σ → α → σ`. A run is the left fold of the step over a list of
    inputs; a guard `ok` that every step of the run meets is threaded through the same fold. -/

namespace Runs

variable {σ α : Type*} (step : σ → α → σ) (ok : σ → α → Prop)

/-- The state after the inputs `as`, in order. -/
def run (s : σ) (as : List α) : σ := as.foldl step s

/-- Every step of the run from `s` over `as` meets the guard in the state it is taken from. -/
def Meets : σ → List α → Prop
  | _, [] => True
  | s, a :: as => ok s a ∧ Meets (step s a) as

@[simp] theorem run_nil (s : σ) : run step s [] = s := rfl

@[simp] theorem run_cons (s : σ) (a : α) (as : List α) :
    run step s (a :: as) = run step (step s a) as := rfl

theorem run_append (s : σ) (as bs : List α) :
    run step s (as ++ bs) = run step (run step s as) bs := List.foldl_append

theorem run_concat (s : σ) (as : List α) (a : α) :
    run step s (as ++ [a]) = step (run step s as) a := by
  rw [run_append]; rfl

@[simp] theorem meets_nil (s : σ) : Meets step ok s [] := trivial

@[simp] theorem meets_cons (s : σ) (a : α) (as : List α) :
    Meets step ok s (a :: as) ↔ ok s a ∧ Meets step ok (step s a) as := Iff.rfl

theorem meets_append (s : σ) (as bs : List α) :
    Meets step ok s (as ++ bs) ↔ Meets step ok s as ∧ Meets step ok (run step s as) bs := by
  induction as generalizing s with
  | nil => simp
  | cons a as ih => simp [ih, and_assoc]

instance decidableMeets [∀ s a, Decidable (ok s a)] : ∀ s as, Decidable (Meets step ok s as)
  | _, [] => isTrue trivial
  | s, a :: as => @instDecidableAnd _ _ _ (decidableMeets (step s a) as)

variable {step ok}

/-- A guard that implies another carries a run of it over. -/
theorem meets_mono {ok' : σ → α → Prop} (himp : ∀ s a, ok s a → ok' s a) {as : List α} {s : σ}
    (h : Meets step ok s as) : Meets step ok' s as := by
  induction as generalizing s with
  | nil => exact trivial
  | cons a as ih => exact ⟨himp s a h.1, ih h.2⟩

/-- INVARIANT: what every guarded step preserves holds at the end of every guarded run. -/
theorem run_invariant {I : σ → Prop} (hstep : ∀ s a, I s → ok s a → I (step s a)) {as : List α}
    {s : σ} (hI : I s) (hok : Meets step ok s as) : I (run step s as) := by
  induction as generalizing s with
  | nil => exact hI
  | cons a as ih =>
    obtain ⟨ha, has⟩ := hok
    exact ih (hstep s a hI ha) has

/-- What an invariant gives at every step it is carried over, for inputs that meet a condition. -/
theorem meets_of_invariant {I : σ → Prop} {admits : α → Prop}
    (hstep : ∀ s a, I s → admits a → ok s a ∧ I (step s a)) {as : List α} {s : σ} (hI : I s)
    (has : ∀ a ∈ as, admits a) : Meets step ok s as := by
  induction as generalizing s with
  | nil => exact trivial
  | cons a as ih =>
    obtain ⟨hok, hI'⟩ := hstep s a hI (has a (by simp))
    exact ⟨hok, ih hI' fun b hb => has b (List.mem_cons_of_mem _ hb)⟩

/-- Two guards that agree wherever an invariant holds are met by the same runs. -/
theorem meets_iff_of_invariant {ok' : σ → α → Prop} {I : σ → Prop}
    (hstep : ∀ s a, I s → (ok s a ↔ ok' s a) ∧ I (step s a)) {s : σ} (hI : I s) {as : List α} :
    Meets step ok s as ↔ Meets step ok' s as := by
  induction as generalizing s with
  | nil => exact Iff.rfl
  | cons a as ih =>
    obtain ⟨hok, hI'⟩ := hstep s a hI
    rw [meets_cons, meets_cons, hok, ih hI']

/-- Two guards that agree wherever an invariant holds and a third guard is met, of which either keeps
    the invariant, are met by the same runs among those that meet the third. -/
theorem meets_iff_of_admitted {ok' admits : σ → α → Prop} {I : σ → Prop}
    (hstep : ∀ s a, I s → admits s a → (ok s a ↔ ok' s a) ∧ (ok s a → I (step s a))) {as : List α}
    {s : σ} (hI : I s) (hadmits : Meets step admits s as) :
    Meets step ok s as ↔ Meets step ok' s as := by
  induction as generalizing s with
  | nil => exact Iff.rfl
  | cons a as ih =>
    obtain ⟨ha, has⟩ := hadmits
    obtain ⟨hok, hI'⟩ := hstep s a hI ha
    rw [meets_cons, meets_cons, ← hok]
    constructor
    · rintro ⟨hmeets, hrest⟩
      exact ⟨hmeets, (ih (hI' hmeets) has).mp hrest⟩
    · rintro ⟨hmeets, hrest⟩
      exact ⟨hmeets, (ih (hI' hmeets) has).mpr hrest⟩

/-- Two guards that agree wherever an invariant holds, which either keeps, are met by the same runs. -/
theorem meets_iff_of_guarded {ok' : σ → α → Prop} {I : σ → Prop}
    (hstep : ∀ s a, I s → (ok s a ↔ ok' s a) ∧ (ok s a → I (step s a))) {as : List α} {s : σ}
    (hI : I s) : Meets step ok s as ↔ Meets step ok' s as := by
  have htrue : ∀ {s : σ} {as : List α}, Meets step (fun _ _ => True) s as := by
    intro s as
    induction as generalizing s with
    | nil => exact trivial
    | cons a as ih => exact ⟨trivial, ih⟩
  exact meets_iff_of_admitted (fun s a hs _ => hstep s a hs) hI htrue

/-- A condition on the inputs alone is a guard of every run over inputs that meet it. -/
theorem meets_of_forall_mem {admits : α → Prop} {as : List α} {s : σ} (h : ∀ a ∈ as, admits a) :
    Meets step (fun _ a => admits a) s as :=
  meets_of_invariant (I := fun _ => True) (fun _ _ _ ha => ⟨ha, trivial⟩) trivial h

/-- Two guards met along a run are met together. -/
theorem meets_and {ok' : σ → α → Prop} {as : List α} {s : σ} (h : Meets step ok s as)
    (h' : Meets step ok' s as) : Meets step (fun s a => ok s a ∧ ok' s a) s as := by
  induction as generalizing s with
  | nil => exact trivial
  | cons a as ih => exact ⟨⟨h.1, h'.1⟩, ih h.2 h'.2⟩

/-- A relation between the start and the current state that every step extends. -/
theorem run_relation {R : σ → σ → Prop} (hrefl : ∀ s, R s s)
    (hstep : ∀ s t a, R s t → R s (step t a)) (s : σ) (as : List α) : R s (run step s as) := by
  induction as using List.reverseRecOn with
  | nil => exact hrefl s
  | append_singleton as a ih => rw [run_concat]; exact hstep s _ a ih

/-- What only grows along a run stays within what it is at the end. -/
theorem meets_subset_run {β : Type*} {f : σ → Set β} (hmono : ∀ s a, f s ⊆ f (step s a)) {s : σ}
    {as : List α} : Meets step (fun s' a => f (step s' a) ⊆ f (run step s as)) s as := by
  induction as generalizing s with
  | nil => exact trivial
  | cons a as ih =>
    exact ⟨run_relation (R := fun s t => f s ⊆ f t) (fun _ => subset_rfl)
      (fun _ t b h => h.trans (hmono t b)) (step s a) as, ih⟩

end Runs
