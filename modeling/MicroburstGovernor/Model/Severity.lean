import MicroburstGovernor.Core.Basic

/-! Severity vocabulary: the ordered severity, the authority of a classification, its outcome.

    A scoped enumeration of the code holds any value of its underlying byte. Where a byte read back
    from storage is not range checked the enumeration is that byte (`SeverityClass`); where the
    reader checks it, it is an inductive type. -/

namespace Mbg

/-- Ordered severity of a detected microburst; the order is that of the bytes. -/
@[ext] structure SeverityClass where
  raw : UInt8
  deriving DecidableEq, Repr, Inhabited

namespace SeverityClass

def none : SeverityClass := ⟨0⟩
def minor : SeverityClass := ⟨1⟩
def moderate : SeverityClass := ⟨2⟩
def severe : SeverityClass := ⟨3⟩
def critical : SeverityClass := ⟨4⟩

end SeverityClass

def severityMax (a b : SeverityClass) : SeverityClass := if a.raw ≥ b.raw then a else b

def severityMin (a b : SeverityClass) : SeverityClass := if a.raw ≤ b.raw then a else b

def severityAtLeast (value floor : SeverityClass) : Bool := value.raw ≥ floor.raw

def isValidSeverity (raw : UInt8) : Bool := raw ≤ SeverityClass.critical.raw

theorem severityMin_raw_le_right (a b : SeverityClass) : (severityMin a b).raw ≤ b.raw := by
  rw [severityMin]
  split
  · assumption
  · exact UInt8.le_refl _

/-- Authority of a classification: never more than the evidence that produced it. -/
inductive EvidenceAuthority where
  | authoritative | degraded | unknown
  deriving DecidableEq, Repr, Inhabited

namespace EvidenceAuthority

def raw : EvidenceAuthority → UInt8
  | authoritative => 0
  | degraded => 1
  | unknown => 2

def ofRaw? : UInt8 → Option EvidenceAuthority
  | 0 => some authoritative
  | 1 => some degraded
  | 2 => some unknown
  | _ => Option.none

@[simp] theorem ofRaw?_raw (a : EvidenceAuthority) : ofRaw? a.raw = some a := by cases a <;> rfl

end EvidenceAuthority

/-- Result of evaluating the detection rules for one stream at one tick. -/
inductive Classification where
  | unknown | quiescent | candidate | microburst | degradedMicroburst | recovering | fenced
  deriving DecidableEq, Repr, Inhabited

namespace Classification

def raw : Classification → UInt8
  | unknown => 0
  | quiescent => 1
  | candidate => 2
  | microburst => 3
  | degradedMicroburst => 4
  | recovering => 5
  | fenced => 6

def isPositive (c : Classification) : Bool := c = microburst || c = degradedMicroburst

end Classification

end Mbg
