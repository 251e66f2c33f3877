import Mathlib.Algebra.Group.Nat.Defs
import Mathlib.Data.List.Basic
import Mathlib.Data.Int.Notation
import Mathlib.Tactic.Common

/-! Status, identity domains, checked arithmetic and hashing: what every other part is written in.

    Machine words are Lean's fixed-width integers, so an addition that wraps in the code wraps here.
    A function that returns a failing `Status` returns `Except Failure`; sizes and indices of
    containers (`std::size_t`) are `ℕ`. -/

namespace Mbg

/-! ### Status -/

inductive StatusCode where
  | ok | invalidArgument | outOfRange | stale | unauthorized | corrupt | truncated | oversized
  | unsupported | notFound | conflict | capacityExceeded | protocol | io | overflow | cancelled
  | internal
  deriving DecidableEq, Repr

/-- A status other than success. -/
structure Failure where
  code : StatusCode
  detail : String
  deriving DecidableEq, Repr

/-- `Status`: success, or a failure code with its text. -/
abbrev Status := Except Failure Unit

namespace Status

def failure {α : Type} (code : StatusCode) (detail : String) : Except Failure α :=
  .error ⟨code, detail⟩

@[simp] theorem failure_ne_ok {α : Type} {code : StatusCode} {detail : String} {a : α} :
    (failure code detail : Except Failure α) ≠ .ok a := by
  simp [failure]

theorem eq_ok_of_isOk {x : Except Failure Unit} (h : x.isOk = true) : x = .ok () := by
  cases x with
  | ok u => rfl
  | error e => cases h

/-- A chain of fallible steps succeeds when each of them does. -/
theorem bind_eq_ok {α β : Type} {x : Except Failure α} {f : α → Except Failure β} {b : β} :
    x >>= f = .ok b ↔ ∃ a, x = .ok a ∧ f a = .ok b := by
  cases x with
  | error failure => simp [bind, Except.bind]
  | ok a => simp [bind, Except.bind]

end Status

/-! ### Strong identities -/

/-- The identity domains; distinct domains give distinct types. -/
inductive IdDomain where
  | resource | queue | path | trafficClass | resourceGeneration | sampleSeq | provenance
  | evidenceGeneration | event | intervention | policy | policyGeneration | decisionSeq | epoch
  | incarnation | boot | worker | attempt | frameSeq | recordSeq

/-- An opaque identifier of one domain. -/
@[ext] structure StrongId (d : IdDomain) (Rep : Type) where
  raw : Rep
  deriving DecidableEq, Repr

namespace StrongId

variable {d : IdDomain} {Rep : Type} [Complement Rep] [OfNat Rep 0]

/-- The sentinel of a default constructed identity: all bits set. -/
def invalid : StrongId d Rep := ⟨~~~0⟩

instance : Inhabited (StrongId d Rep) := ⟨invalid⟩

def valid [DecidableEq Rep] (id : StrongId d Rep) : Bool := id.raw ≠ ~~~0

theorem valid_iff [DecidableEq Rep] {id : StrongId d Rep} : id.valid ↔ id ≠ invalid := by
  simp [valid, invalid, StrongId.ext_iff]

end StrongId

abbrev ResourceId := StrongId .resource UInt64
abbrev QueueId := StrongId .queue UInt64
abbrev PathId := StrongId .path UInt64
abbrev ClassId := StrongId .trafficClass UInt64
abbrev ResourceGeneration := StrongId .resourceGeneration UInt32
abbrev SampleSeq := StrongId .sampleSeq UInt64
abbrev ProvenanceId := StrongId .provenance UInt64
abbrev EvidenceGeneration := StrongId .evidenceGeneration UInt64
abbrev EventId := StrongId .event UInt64
abbrev InterventionId := StrongId .intervention UInt64
abbrev PolicyId := StrongId .policy UInt64
abbrev PolicyGeneration := StrongId .policyGeneration UInt32
abbrev DecisionSeq := StrongId .decisionSeq UInt64
abbrev Epoch := StrongId .epoch UInt32
abbrev IncarnationId := StrongId .incarnation UInt64
abbrev BootId := StrongId .boot UInt64
abbrev WorkerId := StrongId .worker UInt64
abbrev AttemptId := StrongId .attempt UInt64
abbrev FrameSeq := StrongId .frameSeq UInt64
abbrev RecordSeq := StrongId .recordSeq UInt64

/-! ### Checked arithmetic, unsigned widths -/

section Checked

variable {T : Type} [Add T] [Sub T] [Mul T] [Div T] [LT T] [DecidableLT T] [DecidableEq T]
  [Complement T] [OfNat T 0]

def addChecked (a b : T) : Option T := if a > ~~~0 - b then none else some (a + b)

def mulChecked (a b : T) : Option T :=
  if a = 0 ∨ b = 0 then some 0
  else if a > ~~~0 / b then none
  else some (a * b)

def saturatingAdd (a b : T) : T := (addChecked a b).getD (~~~0)

def saturatingMul (a b : T) : T := (mulChecked a b).getD (~~~0)

end Checked

/-- `addChecked` at 64 bits is addition that refuses to wrap. -/
theorem addChecked_eq_some {a b c : UInt64} :
    addChecked a b = some c ↔ a.toNat + b.toNat < 2 ^ 64 ∧ c = a + b := by
  have hmax : (~~~0 : UInt64) = 18446744073709551615 := by decide
  rw [addChecked, hmax]
  split
  · rename_i h
    have := b.toNat_lt
    rw [gt_iff_lt, UInt64.lt_iff_toNat_lt, UInt64.toNat_sub] at h
    simp only [UInt64.toNat_ofNat, reduceCtorEq, false_iff, not_and] at h ⊢
    omega
  · rename_i h
    have := b.toNat_lt
    rw [gt_iff_lt, UInt64.lt_iff_toNat_lt, UInt64.toNat_sub] at h
    simp only [UInt64.toNat_ofNat, Option.some.injEq] at h ⊢
    constructor
    · rintro rfl; exact ⟨by omega, rfl⟩
    · rintro ⟨_, rfl⟩; rfl

/-! ### Hashing -/

/-- FNV-1a over the bytes of a text. -/
def fnv1a64 (text : List UInt8) : UInt64 :=
  text.foldl (fun h c => (h ^^^ c.toUInt64) * 1099511628211) 1469598103934665603

/-- splitmix64 finalizer. -/
def mix64 (x : UInt64) : UInt64 :=
  let x := x + 0x9E3779B97F4A7C15
  let x := (x ^^^ (x >>> 30)) * 0xBF58476D1CE4E5B9
  let x := (x ^^^ (x >>> 27)) * 0x94D049BB133111EB
  x ^^^ (x >>> 31)

def hashCombine (seed value : UInt64) : UInt64 := mix64 (seed ^^^ mix64 value)

/-- Folds fields into a digest one after another. -/
def hashFields (seed : UInt64) (fields : List UInt64) : UInt64 := fields.foldl hashCombine seed

/-! ### Hard resource bounds -/

namespace Limits

def maxWindowCapacity : ℕ := 4096
def minWindowCapacity : ℕ := 2
def maxStreams : ℕ := 1024
def maxReasons : ℕ := 16
def maxSustainTicks : UInt64 := 0x100000000
def maxCooldownTicks : UInt64 := 0x100000000
def maxEpisodeTicks : UInt64 := 0x10000000000
def maxWindowSpanTicks : UInt64 := 0x100000000
def maxEventHistory : ℕ := 4096
def maxRecoveredRecords : ℕ := 65536
def maxInterventions : ℕ := 1024
def maxPolicyOverrides : ℕ := 256
def maxInterventionTtlTicks : UInt64 := 0x100000000
def maxMagnitudePermille : UInt32 := 1000
def maxPendingEmissions : ℕ := 4096
def maxJournalBytes : ℕ := 67108864
def maxSnapshotBytes : ℕ := 67108864
def maxJournalRecordBytes : ℕ := 1048576
def maxEventsPersisted : ℕ := 65536
def maxFramePayloadBytes : UInt32 := 1048576
def maxConnections : ℕ := 256

end Limits

/-- Wire protocol version of a frame. -/
def wireProtocolVersion : UInt16 := 1

/-- On-disk state format version. -/
def stateFormatVersion : UInt16 := 1

end Mbg
