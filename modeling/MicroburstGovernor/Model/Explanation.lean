import MicroburstGovernor.Model.Tick

/-! The bounded explanation of a decision. -/

namespace Mbg

/-- A reason code: the number that is persisted and never renumbered. -/
@[ext] structure ReasonCode where
  raw : UInt16
  deriving DecidableEq, Repr, Inhabited

namespace ReasonCode

def none : ReasonCode := ⟨0⟩

def evidenceAccepted : ReasonCode := ⟨1⟩
def evidenceInsufficientSamples : ReasonCode := ⟨2⟩
def evidenceIncomplete : ReasonCode := ⟨3⟩
def evidenceStale : ReasonCode := ⟨4⟩
def evidenceGap : ReasonCode := ⟨5⟩
def evidenceReordered : ReasonCode := ⟨6⟩
def evidenceDuplicate : ReasonCode := ⟨7⟩
def evidenceCounterReset : ReasonCode := ⟨8⟩
def evidenceCapacityChanged : ReasonCode := ⟨9⟩
def evidenceTickRollover : ReasonCode := ⟨10⟩
def evidenceDegradedAllowed : ReasonCode := ⟨11⟩
def evidenceDegradedRefused : ReasonCode := ⟨12⟩
def evidenceNoSamples : ReasonCode := ⟨13⟩

def onsetDepthCrossed : ReasonCode := ⟨20⟩
def onsetSlopeCrossed : ReasonCode := ⟨21⟩
def onsetSustainMet : ReasonCode := ⟨22⟩
def releaseDepthCrossed : ReasonCode := ⟨23⟩
def releaseSustainMet : ReasonCode := ⟨25⟩
def occupancyGradeCrossed : ReasonCode := ⟨30⟩
def depthGradeCrossed : ReasonCode := ⟨31⟩
def slopeGradeCrossed : ReasonCode := ⟨32⟩
def durationGradeCrossed : ReasonCode := ⟨33⟩
def dropGradeCrossed : ReasonCode := ⟨34⟩

def episodeOpened : ReasonCode := ⟨40⟩
def episodeMerged : ReasonCode := ⟨41⟩
def episodeClosed : ReasonCode := ⟨42⟩
def episodeFenced : ReasonCode := ⟨43⟩
def cooldownActive : ReasonCode := ⟨44⟩
def episodeTimedOut : ReasonCode := ⟨47⟩
def episodeRecovering : ReasonCode := ⟨48⟩

def interventionRequested : ReasonCode := ⟨60⟩

def authorityDegraded : ReasonCode := ⟨81⟩
def authorityFenced : ReasonCode := ⟨86⟩

end ReasonCode

/-- One rule outcome: what was observed, against which threshold, at which tick. -/
structure Reason where
  code : ReasonCode := ReasonCode.none
  observed : Int64 := 0
  threshold : Int64 := 0
  tick : Tick := {}
  deriving DecidableEq, Repr

theorem length_noReasons : ([] : List Reason).length ≤ Limits.maxReasons := Nat.zero_le _

/-- At most `Limits.maxReasons` reasons; what did not fit is recorded, not kept. -/
structure Explanation where
  reasons : List Reason := []
  truncated : Bool := false
  bounded : reasons.length ≤ Limits.maxReasons := by exact length_noReasons
  deriving DecidableEq, Repr

namespace Explanation

instance : Inhabited Explanation := ⟨{}⟩

def add (x : Explanation) (code : ReasonCode) (observed threshold : Int64) (tick : Tick) :
    Explanation :=
  if h : x.reasons.length ≥ Limits.maxReasons then { x with truncated := true }
  else
    { x with
      reasons := x.reasons ++ [⟨code, observed, threshold, tick⟩]
      bounded := by rw [List.length_append]; simp; omega }

/-- `add(code, tick)`: a rule outcome without operands. -/
def addAt (x : Explanation) (code : ReasonCode) (tick : Tick) : Explanation := x.add code 0 0 tick

def size (x : Explanation) : ℕ := x.reasons.length

def contains (x : Explanation) (code : ReasonCode) : Bool := x.reasons.any fun r => r.code = code

/-- Stable digest of the content. -/
def digest (x : Explanation) : UInt64 :=
  let h := hashCombine 0xC0FFEE123456789 x.size.toUInt64
  let h := x.reasons.foldl (fun h r =>
    hashFields h [r.code.raw.toUInt64, r.observed.toUInt64, r.threshold.toUInt64, r.tick.value]) h
  hashCombine h (if x.truncated then 1 else 0)

end Explanation

end Mbg
