import Mathlib.Data.List.Basic

/-! Machines whose inputs each belong to one of many owners, and the unwinding that isolates them.

    The machine shares one state. Each owner has a view of it; if an input is answered from its
    owner's view alone, and leaves every other view as it is, then what an owner is answered over a
    run depends on its own inputs only: it is what the view's own machine answers to them. -/

namespace Isolation

variable {σ α β κ ν : Type*} [DecidableEq κ]

/-- What the machine answers to the inputs of one owner, in order. -/
def answers (step : σ → α → β × σ) (owner : α → κ) (k : κ) : σ → List α → List β
  | _, [] => []
  | s, a :: as =>
    if owner a = k then (step s a).1 :: answers step owner k (step s a).2 as
    else answers step owner k (step s a).2 as

/-- What a machine answers to all its inputs, in order. -/
def replies (step : ν → α → β × ν) : ν → List α → List β
  | _, [] => []
  | v, a :: as => (step v a).1 :: replies step (step v a).2 as

/-- Each owner is served from its own view. -/
structure Isolated (step : σ → α → β × σ) (owner : α → κ) (view : σ → κ → ν)
    (serve : ν → α → β × ν) (I : σ → Prop) (ok : α → Prop) : Prop where
  /-- The invariant under which the views are isolated. -/
  keeps : ∀ s a, I s → ok a → I (step s a).2
  answer : ∀ s a, I s → ok a → (step s a).1 = (serve (view s (owner a)) a).1
  own : ∀ s a, I s → ok a → view (step s a).2 (owner a) = (serve (view s (owner a)) a).2
  others : ∀ s a k, I s → ok a → k ≠ owner a → view (step s a).2 k = view s k

variable {step : σ → α → β × σ} {owner : α → κ} {view : σ → κ → ν} {serve : ν → α → β × ν}
  {I : σ → Prop} {ok : α → Prop}

/-- UNWINDING: over a run an owner is answered as its view's machine answers its own inputs. -/
theorem Isolated.answers_eq (h : Isolated step owner view serve I ok) (k : κ) : ∀ {as : List α}
    {s : σ}, I s → (∀ a ∈ as, ok a) →
      answers step owner k s as = replies serve (view s k) (as.filter fun a => owner a = k)
  | [], _, _, _ => rfl
  | a :: as, s, hI, has => by
    have ha : ok a := has a List.mem_cons_self
    have hrest := h.answers_eq k (h.keeps s a hI ha) fun b hb => has b (List.mem_cons_of_mem a hb)
    rw [answers]
    split_ifs with hk
    · subst hk
      rw [List.filter_cons_of_pos (by simp), replies, hrest, h.answer s a hI ha, h.own s a hI ha]
    · rw [List.filter_cons_of_neg (by simpa using hk), hrest,
        h.others s a k hI ha fun heq => hk heq.symm]

/-- Two runs, from any states, answer an owner alike if it has the same inputs and the same view. -/
theorem Isolated.answers_congr {step' : σ → α → β × σ} {I' : σ → Prop}
    (h : Isolated step owner view serve I ok) (h' : Isolated step' owner view serve I' ok) (k : κ)
    {s s' : σ} {as as' : List α} (hI : I s) (hI' : I' s') (has : ∀ a ∈ as, ok a)
    (has' : ∀ a ∈ as', ok a) (hview : view s k = view s' k)
    (hinputs : as.filter (fun a => owner a = k) = as'.filter fun a => owner a = k) :
    answers step owner k s as = answers step' owner k s' as' := by
  rw [h.answers_eq k hI has, h'.answers_eq k hI' has', hview, hinputs]

end Isolation
