import Encounter.Engine.Execution
import Encounter.Engine.InPlace
import Encounter.Engine.Report
import Encounter.Json.Document
import Encounter.Proofs.Acceptance
import Encounter.Proofs.Adjacency
import Encounter.Proofs.Agenda
import Encounter.Proofs.Allocation
import Encounter.Proofs.Arrival
import Encounter.Proofs.Attachment
import Encounter.Proofs.Broadcast
import Encounter.Proofs.Chains
import Encounter.Proofs.CheckOut
import Encounter.Proofs.Checks
import Encounter.Proofs.Coherence
import Encounter.Proofs.Collecting
import Encounter.Proofs.Cooldown
import Encounter.Proofs.Copying
import Encounter.Proofs.Cycle
import Encounter.Proofs.Delivery
import Encounter.Proofs.Departure
import Encounter.Proofs.Directory
import Encounter.Proofs.Duties
import Encounter.Proofs.Effects
import Encounter.Proofs.Enlisting
import Encounter.Proofs.Entering
import Encounter.Proofs.Expressions
import Encounter.Proofs.Following
import Encounter.Proofs.Grid
import Encounter.Proofs.Growth
import Encounter.Proofs.Hearing
import Encounter.Proofs.Holdings
import Encounter.Proofs.Journal
import Encounter.Proofs.Ledger
import Encounter.Proofs.Lifecycle
import Encounter.Proofs.Line
import Encounter.Proofs.Listeners
import Encounter.Proofs.Marking
import Encounter.Proofs.Moves
import Encounter.Proofs.Mutual
import Encounter.Proofs.Numbering
import Encounter.Proofs.Numerals
import Encounter.Proofs.Origins
import Encounter.Proofs.Pacing
import Encounter.Proofs.Placement
import Encounter.Proofs.Protocol
import Encounter.Proofs.Punctuality
import Encounter.Proofs.Queue
import Encounter.Proofs.Records
import Encounter.Proofs.Refusal
import Encounter.Proofs.Registration
import Encounter.Proofs.Removal
import Encounter.Proofs.Resetting
import Encounter.Proofs.Respelling
import Encounter.Proofs.Restoring
import Encounter.Proofs.Rolls
import Encounter.Proofs.Rotation
import Encounter.Proofs.RoundTrip
import Encounter.Proofs.Rounding
import Encounter.Proofs.Rounds
import Encounter.Proofs.Savable
import Encounter.Proofs.Saving
import Encounter.Proofs.SavingThrows
import Encounter.Proofs.Shelf
import Encounter.Proofs.Storing
import Encounter.Proofs.Strikes
import Encounter.Proofs.Subscriptions
import Encounter.Proofs.Tiling
import Encounter.Proofs.Traversal
import Encounter.Proofs.Turns
import Encounter.Proofs.Visibility
import Encounter.Proofs.World
import Encounter.Save.SettingsText
import Encounter.Script
import Encounter.Trigger.Directory
