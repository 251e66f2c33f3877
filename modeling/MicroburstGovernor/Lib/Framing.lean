import Mathlib.Data.List.Basic

/-! Self-delimiting frames: greedy splitting of a byte string into verified frames.

    A format reads the length of the verified frame at the front of a string, from the bytes of that
    frame alone. `split` takes frames off the front while it can; the rest, the tail, is what no
    frame begins. What follows is the algebra of `split` under appending: what was split off stays,
    and a frame appended to a string with an empty tail is split off after the others.

        frame ++ frame ++ … ++ frame ++ tail
        └──────────── split ──────────┘          -/

/-- A frame format: the length of the verified frame at the front, if there is one. -/
structure FrameFormat (α : Type*) where
  head : List α → Option ℕ
  pos : ∀ {b n}, head b = some n → 0 < n
  le : ∀ {b n}, head b = some n → n ≤ b.length
  /-- What follows the frame is not looked at. -/
  stable : ∀ {b n} x, head b = some n → head (b ++ x) = some n
  /-- The frame verifies on its own. -/
  own : ∀ {b n}, head b = some n → head (b.take n) = some n

namespace FrameFormat

variable {α : Type*} (F : FrameFormat α)

/-- `f` is one whole verified frame. -/
def IsFrame (f : List α) : Prop := F.head f = some f.length

def splitFuel : ℕ → List α → List (List α)
  | 0, _ => []
  | fuel + 1, b =>
    match F.head b with
    | none => []
    | some n => b.take n :: splitFuel fuel (b.drop n)

/-- The frames taken off the front of `b`; a frame is not empty, so `b.length` steps are enough. -/
def split (b : List α) : List (List α) := F.splitFuel b.length b

/-- What is left when no frame begins the rest. -/
def tail (b : List α) : List α := b.drop (F.split b).flatten.length

theorem splitFuel_eq : ∀ {n m : ℕ} {b : List α}, b.length ≤ n → b.length ≤ m →
    F.splitFuel n b = F.splitFuel m b
  | 0, 0, _, _, _ => rfl
  | 0, m + 1, b, hn, _ => by
    have hb : F.head b = none := by
      cases h : F.head b with
      | none => rfl
      | some k => have := F.pos h; have := F.le h; omega
    rw [splitFuel, splitFuel, hb]
  | n + 1, 0, b, _, hm => by
    have hb : F.head b = none := by
      cases h : F.head b with
      | none => rfl
      | some k => have := F.pos h; have := F.le h; omega
    rw [splitFuel, splitFuel, hb]
  | n + 1, m + 1, b, hn, hm => by
    rw [splitFuel, splitFuel]
    cases h : F.head b with
    | none => rfl
    | some k =>
      have := F.pos h
      simp only [List.cons.injEq, true_and]
      exact splitFuel_eq (by rw [List.length_drop]; omega) (by rw [List.length_drop]; omega)

theorem split_none {b : List α} (h : F.head b = none) : F.split b = [] := by
  rw [split]; cases b.length <;> simp [splitFuel, h]

theorem split_some {b : List α} {n : ℕ} (h : F.head b = some n) :
    F.split b = b.take n :: F.split (b.drop n) := by
  have hpos := F.pos h
  have hle := F.le h
  obtain ⟨k, hk⟩ : ∃ k, b.length = k + 1 := ⟨b.length - 1, by omega⟩
  rw [split, hk, splitFuel, h]
  simp only [List.cons.injEq, true_and]
  exact F.splitFuel_eq (by rw [List.length_drop]; omega) (by simp)

@[simp] theorem split_nil : F.split ([] : List α) = [] := rfl

theorem isFrame_take {b : List α} {n : ℕ} (h : F.head b = some n) : F.IsFrame (b.take n) := by
  rw [IsFrame, F.own h, List.length_take, Nat.min_eq_left (F.le h)]

/-- A frame at the front is the first to be split off. -/
theorem split_frame_append {f : List α} (hf : F.IsFrame f) (x : List α) :
    F.split (f ++ x) = f :: F.split x := by
  rw [F.split_some (F.stable x hf), List.take_left', List.drop_left'] <;> rfl

theorem split_flatten_append : ∀ {fs : List (List α)}, (∀ f ∈ fs, F.IsFrame f) → ∀ x,
    F.split (fs.flatten ++ x) = fs ++ F.split x
  | [], _, x => by simp
  | f :: fs, h, x => by
    rw [List.flatten_cons, List.append_assoc, F.split_frame_append (h f (by simp)),
      split_flatten_append (fun g hg => h g (List.mem_cons_of_mem _ hg)) x, List.cons_append]

/-- Strong induction along `split`: a string with no frame in front, or a frame and the rest. -/
theorem split_induction {P : List α → Prop} (hnone : ∀ b, F.head b = none → P b)
    (hsome : ∀ b n, F.head b = some n → P (b.drop n) → P b) (b : List α) : P b := by
  induction hlen : b.length using Nat.strongRecOn generalizing b with
  | _ k ih =>
    cases h : F.head b with
    | none => exact hnone b h
    | some n =>
      have := F.pos h
      have := F.le h
      exact hsome b n h (ih (b.drop n).length (by rw [List.length_drop]; omega) _ rfl)

theorem isFrame_of_mem_split (b : List α) : ∀ f ∈ F.split b, F.IsFrame f := by
  induction b using F.split_induction with
  | hnone b h => rw [F.split_none h]; simp
  | hsome b n h ih =>
    rw [F.split_some h]
    intro f hf
    rcases List.mem_cons.mp hf with rfl | hf
    · exact F.isFrame_take h
    · exact ih f hf

/-- The frames, joined again, and the tail are the string. -/
theorem split_flatten_tail (b : List α) : (F.split b).flatten ++ F.tail b = b := by
  induction b using F.split_induction with
  | hnone b h => rw [tail, F.split_none h]; simp
  | hsome b n h ih =>
    have hn : (b.take n).length = n := by rw [List.length_take, Nat.min_eq_left (F.le h)]
    rw [tail] at ih ⊢
    rw [F.split_some h, List.flatten_cons, List.append_assoc, List.length_append, hn,
      ← List.drop_drop, ih, List.take_append_drop]

theorem head_tail (b : List α) : F.head (F.tail b) = none := by
  induction b using F.split_induction with
  | hnone b h => rw [tail, F.split_none h]; simpa using h
  | hsome b n h ih =>
    have hn : (b.take n).length = n := by rw [List.length_take, Nat.min_eq_left (F.le h)]
    rw [tail] at ih ⊢
    rwa [F.split_some h, List.flatten_cons, List.length_append, hn, ← List.drop_drop]

theorem length_split_flatten_le (b : List α) : (F.split b).flatten.length ≤ b.length := by
  have h := congrArg List.length (F.split_flatten_tail b)
  rw [List.length_append] at h; omega

theorem take_split_flatten (b : List α) :
    b.take (F.split b).flatten.length = (F.split b).flatten := by
  have h : ((F.split b).flatten ++ F.tail b).take (F.split b).flatten.length =
      (F.split b).flatten := List.take_left' rfl
  rwa [F.split_flatten_tail] at h

/-- Appending never unsplits: the frames of `b` stay in front. -/
theorem split_append (b x : List α) : F.split (b ++ x) = F.split b ++ F.split (F.tail b ++ x) := by
  conv_lhs => rw [← F.split_flatten_tail b, List.append_assoc]
  exact F.split_flatten_append (F.isFrame_of_mem_split b) _

/-- Cutting the tail off changes no frame. -/
@[simp] theorem split_split_flatten (b : List α) : F.split (F.split b).flatten = F.split b := by
  have h := F.split_flatten_append (F.isFrame_of_mem_split b) []
  simpa using h

theorem tail_eq_nil_iff {b : List α} : F.tail b = [] ↔ (F.split b).flatten = b := by
  have h := F.split_flatten_tail b
  constructor
  · intro ht; rwa [ht, List.append_nil] at h
  · intro hs; rw [hs] at h; simpa using h

/-- A frame appended after a string of whole frames is split off after them. -/
theorem split_append_frame {b f : List α} (hb : F.tail b = []) (hf : F.IsFrame f) :
    F.split (b ++ f) = F.split b ++ [f] := by
  have hone : F.split f = [f] := by simpa using F.split_frame_append hf []
  rw [F.split_append, hb, List.nil_append, hone]

theorem tail_append_frame {b f : List α} (hb : F.tail b = []) (hf : F.IsFrame f) :
    F.tail (b ++ f) = [] := by
  rw [F.tail_eq_nil_iff, F.split_append_frame hb hf, List.flatten_append, F.tail_eq_nil_iff.mp hb,
    List.flatten_singleton]

/-- A string of frames then a tail that begins no frame splits just so. -/
theorem split_eq_of {fs : List (List α)} {t : List α} (hfs : ∀ f ∈ fs, F.IsFrame f)
    (ht : F.head t = none) : F.split (fs.flatten ++ t) = fs := by
  rw [F.split_flatten_append hfs, F.split_none ht, List.append_nil]

/-! ### Cutting -/

/-- Pieces joined and cut at `n`: the first `k` of them whole, and a strict beginning of the next. -/
theorem exists_take_flatten : ∀ (fs : List (List α)) (n : ℕ), ∃ k, k ≤ fs.length ∧
    (fs.take k).flatten.length ≤ n ∧
    (∀ f, fs[k]? = some f → n < (fs.take k).flatten.length + f.length) ∧
    fs.flatten.take n =
      (fs.take k).flatten ++ (fs[k]?.getD []).take (n - (fs.take k).flatten.length)
  | [], n => ⟨0, by simp⟩
  | f :: fs, n => by
    by_cases hn : n < f.length
    · refine ⟨0, Nat.zero_le _, by simp, ?_, ?_⟩
      · intro g hg
        obtain rfl : f = g := by simpa using hg
        simpa using hn
      · simp [List.take_append_of_le_length (Nat.le_of_lt hn)]
    · obtain ⟨m, rfl⟩ := Nat.exists_eq_add_of_le (Nat.le_of_not_lt hn)
      obtain ⟨k, hk, hle, hlt, htake⟩ := exists_take_flatten fs m
      have hlen : ((f :: fs).take (k + 1)).flatten.length =
          f.length + (fs.take k).flatten.length := by
        rw [List.take_succ_cons, List.flatten_cons, List.length_append]
      refine ⟨k + 1, by simpa using hk, by omega, ?_, ?_⟩
      · intro g hg
        have := hlt g (by simpa using hg)
        omega
      · rw [hlen, Nat.add_sub_add_left, List.take_succ_cons, List.flatten_cons, List.flatten_cons,
          List.getElem?_cons_succ, List.append_assoc, ← htake, List.take_length_add_append]

theorem take_flatten_length_mono (fs : List (List α)) {i j : ℕ} (h : i ≤ j) :
    (fs.take i).flatten.length ≤ (fs.take j).flatten.length := by
  obtain ⟨d, rfl⟩ := Nat.exists_eq_add_of_le h
  rw [List.take_add, List.flatten_append, List.length_append]
  omega

end FrameFormat
