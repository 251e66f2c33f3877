import Mathlib.Data.List.Basic
import Mathlib.Data.List.Induction
import Mathlib.Data.List.TakeWhile

/-! Append-only logs: entries that what precedes them justifies, and exchanges of entries.

    A law about a log that grows by one entry at a time is kept by checking the entry that is
    appended. An exchange is an entry that begins one and what follows it up to the next. -/

namespace Log

variable {α : Type*}

/-- Every entry is justified by the entries before it. -/
def Justified (P : List α → α → Prop) (log : List α) : Prop :=
  ∀ pre a post, log = pre ++ a :: post → P pre a

/-- An entry begins no exchange, or what follows it up to the next exchange answers it. -/
def Answered (begins : α → Bool) (Q : List α → α → List α → Prop) (log : List α) : Prop :=
  ∀ pre a post, log = pre ++ a :: post → begins a → Q pre a (post.takeWhile fun b => !begins b)

/-- A place in a log that grew by one entry: the new entry, or a place in the log before. -/
theorem concat_eq {log pre post : List α} {a b : α} (h : log ++ [b] = pre ++ a :: post) :
    (post = [] ∧ pre = log ∧ a = b) ∨ ∃ post', post = post' ++ [b] ∧ log = pre ++ a :: post' := by
  rcases List.eq_nil_or_concat post with rfl | ⟨post', c, rfl⟩
  · obtain ⟨hlog, hlast⟩ := List.append_inj' h rfl
    exact Or.inl ⟨rfl, hlog.symm, (List.cons.inj hlast).1.symm⟩
  · rw [List.concat_eq_append, ← List.cons_append, ← List.append_assoc] at h
    obtain ⟨hlog, hlast⟩ := List.append_inj' h rfl
    rw [(List.cons.inj hlast).1, List.concat_eq_append]
    exact Or.inr ⟨post', rfl, hlog⟩

section

variable {P : List α → α → Prop}

theorem justified_nil : Justified P [] := by
  intro pre a post h
  cases pre <;> cases h

/-- STEP: a log stays justified when the entry appended to it is. -/
theorem justified_concat {log : List α} {a : α} :
    Justified P (log ++ [a]) ↔ Justified P log ∧ P log a := by
  constructor
  · intro h
    refine ⟨fun pre b post heq => ?_, h log a [] rfl⟩
    exact h pre b (post ++ [a]) (by rw [heq, List.append_assoc, List.cons_append])
  · rintro ⟨hlog, ha⟩ pre b post heq
    rcases concat_eq heq with ⟨-, rfl, rfl⟩ | ⟨post', -, heq'⟩
    · exact ha
    · exact hlog pre b post' heq'

/-- Entries that need no justification may follow a justified log. -/
theorem Justified.append {log tail : List α} (h : Justified P log)
    (htail : ∀ a ∈ tail, ∀ pre, P pre a) : Justified P (log ++ tail) := by
  induction tail using List.reverseRecOn with
  | nil => simpa using h
  | append_singleton tail a ih =>
    rw [← List.append_assoc, justified_concat]
    refine ⟨ih fun b hb => htail b (List.mem_append_left _ hb), htail a ?_ _⟩
    exact List.mem_append_right _ (List.mem_singleton_self a)

theorem Justified.mono {P' : List α → α → Prop} {log : List α} (h : Justified P log)
    (himp : ∀ pre a, P pre a → P' pre a) : Justified P' log :=
  fun pre a post heq => himp pre a (h pre a post heq)

end

section

variable {begins : α → Bool} {Q : List α → α → List α → Prop}

theorem takeWhile_of_none {body : List α} (h : ∀ b ∈ body, begins b = false) :
    body.takeWhile (fun b => !begins b) = body := by
  rw [List.takeWhile_eq_self_iff]
  intro b hb
  rw [h b hb]
  rfl

theorem takeWhile_append_cons {a : α} (ha : begins a = true) (l body : List α) :
    (l ++ a :: body).takeWhile (fun b => !begins b) = l.takeWhile (fun b => !begins b) := by
  induction l with
  | nil => simp [ha]
  | cons b l ih => rw [List.cons_append, List.takeWhile_cons, List.takeWhile_cons, ih]

/-- What is appended behind a beginning is not taken. -/
theorem takeWhile_append_of_begins {l m : List α} (h : ∃ b ∈ l, begins b = true) :
    (l ++ m).takeWhile (fun b => !begins b) = l.takeWhile (fun b => !begins b) := by
  obtain ⟨b, hb, hbegins⟩ := h
  obtain ⟨before, after, rfl⟩ := List.append_of_mem hb
  rw [List.append_assoc, List.cons_append, takeWhile_append_cons hbegins,
    takeWhile_append_cons hbegins]

theorem answered_nil : Answered begins Q [] := by
  intro pre a post h
  cases pre <;> cases h

/-- STEP: an exchange that is answered may follow a log of such exchanges. -/
theorem Answered.exchange {log body : List α} {a : α} (h : Answered begins Q log)
    (ha : begins a = true) (hbody : ∀ b ∈ body, begins b = false) (hanswer : Q log a body) :
    Answered begins Q (log ++ a :: body) := by
  intro pre b post heq hb
  rcases List.append_eq_append_iff.mp heq with ⟨mid, hpre, hrest⟩ | ⟨mid, hlog, hrest⟩
  · cases mid with
    | nil =>
      obtain ⟨rfl, rfl⟩ := List.cons.inj hrest
      rw [takeWhile_of_none hbody, hpre, List.append_nil]
      exact hanswer
    | cons c mid =>
      obtain ⟨-, hrest⟩ := List.cons.inj hrest
      have hmem : b ∈ body := by
        rw [hrest]
        exact List.mem_append_right _ List.mem_cons_self
      rw [hbody b hmem] at hb
      cases hb
  · cases mid with
    | nil =>
      obtain ⟨rfl, rfl⟩ := List.cons.inj hrest
      rw [List.append_nil] at hlog
      rw [takeWhile_of_none hbody, ← hlog]
      exact hanswer
    | cons c mid =>
      obtain ⟨rfl, rfl⟩ := List.cons.inj hrest
      have hbefore := h pre b mid hlog hb
      have hsame := takeWhile_append_cons ha mid body
      exact hsame ▸ hbefore

/-- STEP: an entry that begins nothing and leaves every answer an answer may follow. -/
theorem Answered.concat {log : List α} {c : α} (h : Answered begins Q log) (hc : begins c = false)
    (hkeep : ∀ pre a post, begins a = true → Q pre a post → Q pre a (post ++ [c])) :
    Answered begins Q (log ++ [c]) := by
  intro pre a post heq ha
  rcases concat_eq heq with ⟨-, -, rfl⟩ | ⟨post', rfl, heq'⟩
  · rw [hc] at ha
    cases ha
  · have hbefore := h pre a post' heq' ha
    by_cases hnext : ∃ b ∈ post', begins b = true
    · rw [takeWhile_append_of_begins hnext]
      exact hbefore
    · have hnone : ∀ b ∈ post', begins b = false := by
        intro b hb
        by_contra hbegins
        exact hnext ⟨b, hb, by simpa using hbegins⟩
      rw [takeWhile_of_none hnone] at hbefore
      rw [takeWhile_of_none]
      · exact hkeep pre a post' ha hbefore
      · intro b hb
        rcases List.mem_append.mp hb with hb | hb
        · exact hnone b hb
        · rw [List.mem_singleton.mp hb]
          exact hc

end

end Log
