import Mathlib.Logic.Function.Basic

/-! A map as the history of what was written to it: a key has the value of the last write that was
    about it, if no later erasure was. -/

namespace LastWrite

variable {κ ν : Type*} [DecidableEq κ]

/-- One change of a map. -/
inductive Write (κ ν : Type*) where
  | set (key : κ) (value : ν)
  | erase (key : κ)
  | clear

/-- The value of a key under a history, whose newest write comes first. -/
def value (key : κ) : List (Write κ ν) → Option ν
  | [] => none
  | .set key' new :: earlier => if key = key' then some new else value key earlier
  | .erase key' :: earlier => if key = key' then none else value key earlier
  | .clear :: _ => none

/-- What one write does to a map as a function. -/
def Write.apply (map : κ → Option ν) : Write κ ν → κ → Option ν
  | .set key value => Function.update map key (some value)
  | .erase key => Function.update map key none
  | .clear => fun _ => none

/-- WRITES: the history grows as the function changes. -/
theorem value_cons (write : Write κ ν) (earlier : List (Write κ ν)) (key : κ) :
    value key (write :: earlier) = write.apply (fun k => value k earlier) key := by
  cases write with
  | set key' new => rw [value, Write.apply, Function.update_apply]
  | erase key' => rw [value, Write.apply, Function.update_apply]
  | clear => rfl

end LastWrite
