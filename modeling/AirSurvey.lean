import AirSurvey.Survey.Audit
import AirSurvey.Survey.Expiry
import AirSurvey.Survey.Observation
import AirSurvey.Survey.Snapshot
import AirSurvey.SweepTimer
import AirSurvey.Proofs.Chain.Spelling
import AirSurvey.Proofs.Chain.Rewiring
import AirSurvey.Proofs.Chain.Weave
import AirSurvey.Proofs.Action
import AirSurvey.Proofs.Survey.Order
import AirSurvey.Proofs.Survey.Networks
import AirSurvey.Proofs.Survey.Channels
import AirSurvey.Proofs.Survey.Admission
import AirSurvey.Proofs.Survey.Following
import AirSurvey.Proofs.Survey.Settling
import AirSurvey.Proofs.Survey.Reserving
import AirSurvey.Proofs.Survey.Observation
import AirSurvey.Proofs.Survey.Eviction
import AirSurvey.Proofs.Survey.Sweep
import AirSurvey.Proofs.Survey.Reading
import AirSurvey.Proofs.Survey.Survivors
import AirSurvey.Proofs.Survey.Clearing
import AirSurvey.Proofs.Survey.Runs
import AirSurvey.Proofs.Survey.Records
import AirSurvey.Proofs.Survey.Tracking
import AirSurvey.Proofs.Survey.Verdict
import AirSurvey.Proofs.Survey.Lives
import AirSurvey.Proofs.Survey.Membership
import AirSurvey.Proofs.Survey.Reception
import AirSurvey.Proofs.Survey.Aiming
import AirSurvey.Proofs.Report.Length
import AirSurvey.Proofs.Report.Framing
import AirSurvey.Proofs.Report.Recovery
import AirSurvey.Proofs.Survey.Snapshot
import AirSurvey.Proofs.Survey.Recounting
import AirSurvey.Proofs.Chain.Splicing
import AirSurvey.Proofs.Chain.Walking
import AirSurvey.Proofs.Chain.Loom
import AirSurvey.Proofs.Survey.Auditing
import AirSurvey.Proofs.Survey.Safety
import AirSurvey.Proofs.Survey.Naming
import AirSurvey.Proofs.Survey.Outlook
import AirSurvey.Proofs.Survey.Foresight
import AirSurvey.Proofs.Survey.Dwindling
import AirSurvey.Proofs.Survey.Renewal
import AirSurvey.Proofs.Survey.Splitting
import AirSurvey.Proofs.Slots
import AirSurvey.Proofs.Survey.Berths
import AirSurvey.Proofs.Survey.Handles
import AirSurvey.Proofs.Survey.Portraits
import AirSurvey.Proofs.Survey.Purging
import AirSurvey.Proofs.Survey.Bystanders
import AirSurvey.Proofs.Survey.Repeats
import AirSurvey.Proofs.Survey.Averaging
import AirSurvey.Proofs.Survey.Plates
import AirSurvey.Proofs.Survey.Resweeping
import AirSurvey.Proofs.Upkeep
import AirSurvey.Proofs.Tenures
import AirSurvey.Proofs.Survey.Directory
import AirSurvey.Proofs.Survey.Journal
import AirSurvey.Proofs.Cadence
import AirSurvey.Proofs.Chain.Integrity
import AirSurvey.Proofs.Chain.Thinning
import AirSurvey.Proofs.Chain.Meeting
import AirSurvey.Proofs.Truncation
