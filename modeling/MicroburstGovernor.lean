import MicroburstGovernor.Lib.Runs
import MicroburstGovernor.Lib.Log
import MicroburstGovernor.Lib.Isolation
import MicroburstGovernor.Lib.UnorderedMap
import MicroburstGovernor.Lib.OrderedMap
import MicroburstGovernor.Lib.FixedPoint
import MicroburstGovernor.Lib.Framing
import MicroburstGovernor.Lib.LastWrite
import MicroburstGovernor.Lib.LongDivision
import MicroburstGovernor.Lib.Odometer
import MicroburstGovernor.Core.Basic
import MicroburstGovernor.Core.Bytes
import MicroburstGovernor.Model.Tick
import MicroburstGovernor.Model.Sample
import MicroburstGovernor.Model.Severity
import MicroburstGovernor.Model.Explanation
import MicroburstGovernor.Model.Event
import MicroburstGovernor.Model.Intervention
import MicroburstGovernor.Model.Policy
import MicroburstGovernor.Detect.Window
import MicroburstGovernor.Detect.Classifier
import MicroburstGovernor.Detect.Detector
import MicroburstGovernor.Persist.Journal
import MicroburstGovernor.Persist.Store
import MicroburstGovernor.Persist.Scan
import MicroburstGovernor.Persist.Replay
import MicroburstGovernor.Persist.Snapshot
import MicroburstGovernor.Governor.State
import MicroburstGovernor.Governor.Interventions
import MicroburstGovernor.Governor.Ops
import MicroburstGovernor.Governor.Recovery
import MicroburstGovernor.Persist.Append
import MicroburstGovernor.Persist.Integrity
import MicroburstGovernor.Persist.Acknowledged
import MicroburstGovernor.Detect.Evaluation
import MicroburstGovernor.Detect.Evidence
import MicroburstGovernor.Detect.Identity
import MicroburstGovernor.Model.Overrides
import MicroburstGovernor.Governor.CleanRecovery
import MicroburstGovernor.Governor.Core
import MicroburstGovernor.Governor.CoreStep
import MicroburstGovernor.Governor.CoreFrame
import MicroburstGovernor.Governor.IntentTable
import MicroburstGovernor.Governor.PoliciesInForce
import MicroburstGovernor.Governor.AuthorityInForce
import MicroburstGovernor.Governor.Episodes
import MicroburstGovernor.Governor.EpisodeLog
import MicroburstGovernor.Governor.IntentLedger
import MicroburstGovernor.Governor.IntentBounds
import MicroburstGovernor.Core.Crc
import MicroburstGovernor.Transport.Frame
import MicroburstGovernor.Transport.Payloads
import MicroburstGovernor.Lib.TableChecksum
import MicroburstGovernor.Detect.Answers
import MicroburstGovernor.Governor.NoLiveness
import MicroburstGovernor.Governor.StaleAuthority
import MicroburstGovernor.Governor.Durable
import MicroburstGovernor.Governor.Verbatim
import MicroburstGovernor.Governor.StreamIsolation
import MicroburstGovernor.Detect.Cooldown
import MicroburstGovernor.Core.Incremental
import MicroburstGovernor.Model.Restorable
import MicroburstGovernor.Persist.Checkpoint
import MicroburstGovernor.Detect.WellFormed
import MicroburstGovernor.Detect.Retained
import MicroburstGovernor.Detect.Ceiling
import MicroburstGovernor.Detect.Suppression
import MicroburstGovernor.Detect.Onset
import MicroburstGovernor.Coordinator.Authority
import MicroburstGovernor.Coordinator.Session
import MicroburstGovernor.Coordinator.Moves
import MicroburstGovernor.Coordinator.Accounting
import MicroburstGovernor.Coordinator.Registry
import MicroburstGovernor.Coordinator.Admission
import MicroburstGovernor.Coordinator.Epochs
import MicroburstGovernor.Persist.Torn
import MicroburstGovernor.Governor.NamedStreams
import MicroburstGovernor.Detect.Permille
import MicroburstGovernor.Detect.Counters
import MicroburstGovernor.Detect.Slopes
import MicroburstGovernor.Detect.Standing
import MicroburstGovernor.Detect.Generations
import MicroburstGovernor.Detect.Grace
import MicroburstGovernor.Detect.Timeline
import MicroburstGovernor.Detect.Grades
import MicroburstGovernor.Detect.Peaks
import MicroburstGovernor.Governor.Rejection
import MicroburstGovernor.Governor.Retirement
import MicroburstGovernor.Persist.Whole
import MicroburstGovernor.Governor.Deeds
import MicroburstGovernor.Governor.RecordPath
import MicroburstGovernor.Governor.ReadLimits
import MicroburstGovernor.Governor.Writes
import MicroburstGovernor.Model.PolicyMap
import MicroburstGovernor.Governor.Settled
import MicroburstGovernor.Governor.Rings
import MicroburstGovernor.Core.Checked
import MicroburstGovernor.Transport.EvidenceCodec
import MicroburstGovernor.Synthetic.Trace
import MicroburstGovernor.Governor.PoliciesRecovered
import MicroburstGovernor.Lib.Locks
import MicroburstGovernor.Lib.Mixing
import MicroburstGovernor.Core.Hashing
import MicroburstGovernor.Model.Digests
import MicroburstGovernor.Transport.Channel
import MicroburstGovernor.Transport.Messages
import MicroburstGovernor.Coordinator.Worker
import MicroburstGovernor.Coordinator.Turns
import MicroburstGovernor.Coordinator.Conversation
import MicroburstGovernor.Governor.Locking
import MicroburstGovernor.Governor.Identifiers
import MicroburstGovernor.Detect.Release
import MicroburstGovernor.Lib.Mailbox
import MicroburstGovernor.Governor.Acts
import MicroburstGovernor.Governor.Emissions
import MicroburstGovernor.Governor.Restart
import MicroburstGovernor.Synthetic.Generator
import MicroburstGovernor.Synthetic.Replayed
