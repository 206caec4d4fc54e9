import NamedContent.Bytes.Lemmas
import NamedContent.Session.Run
import NamedContent.Proofs.Encoding
import NamedContent.Proofs.HashTree.Preimages
import NamedContent.Proofs.Authenticity
import NamedContent.Proofs.Name.Segment
import NamedContent.Proofs.Segmenter.Cutting
import NamedContent.Proofs.Segmenter.Planning
import NamedContent.Proofs.Segmenter.Rising
import NamedContent.Proofs.Table
import NamedContent.Proofs.Matcher
import NamedContent.Proofs.Buffer.Waiters
import NamedContent.Proofs.Buffer.Offering
import NamedContent.Proofs.Buffer.Filing
import NamedContent.Proofs.Buffer.Recipients
import NamedContent.Proofs.Buffer.Change
import NamedContent.Proofs.Traffic.Outcome
import NamedContent.Proofs.Traffic.Calls
import NamedContent.Proofs.Traffic.Encounter
import NamedContent.Proofs.Traffic.Account
import NamedContent.Proofs.Traffic.Delivery
import NamedContent.Proofs.Traffic.Fate
import NamedContent.Proofs.Traffic.Publication
import NamedContent.Proofs.Traffic.Streaming
import NamedContent.Proofs.Traffic.Callers
import NamedContent.Proofs.Traffic.Lasting
import NamedContent.Proofs.Traffic.Reading
import NamedContent.Proofs.Traffic.Room
import NamedContent.Proofs.Network
import NamedContent.Proofs.World.Events
import NamedContent.Proofs.World.Tasks
import NamedContent.Proofs.World.Working
import NamedContent.Proofs.World.Confined
import NamedContent.Proofs.World.Putting
import NamedContent.Proofs.World.Ledger
import NamedContent.Proofs.World.Namespaces
import NamedContent.Proofs.World.Admission
import NamedContent.Proofs.World.Publishing
import NamedContent.Proofs.HashTree.Ascent
import NamedContent.Proofs.HashTree.Binding
import NamedContent.Proofs.SelfCheck
import NamedContent.Proofs.KeyRing
import NamedContent.Proofs.Ed25519.Prime
import NamedContent.Proofs.Ed25519.Field
import NamedContent.Proofs.Ed25519.Curve
import NamedContent.Proofs.Ed25519.Decoding
import NamedContent.Proofs.Ed25519.Keys
import NamedContent.Proofs.Segmenter.Verifying
import NamedContent.Proofs.World.Keys
import NamedContent.Proofs.World.Handing
import NamedContent.Proofs.Matcher.Registrations
import NamedContent.Proofs.Buffer.Registry
import NamedContent.Proofs.Buffer.Filters
import NamedContent.Proofs.Traffic.Registry
import NamedContent.Proofs.Traffic.Waiting
import NamedContent.Proofs.World.Registry
import NamedContent.Proofs.Traffic.Handover
import NamedContent.Proofs.Traffic.Occupancy
import NamedContent.Proofs.Traffic.Parting
import NamedContent.Proofs.Traffic.Keeping
import NamedContent.Proofs.Buffer.Copies
import NamedContent.Proofs.Traffic.Losses
import NamedContent.Proofs.Traffic.Closing
import NamedContent.Proofs.Matcher.Listing
import NamedContent.Proofs.Traffic.Undelivered
import NamedContent.Proofs.Traffic.Progress
import NamedContent.Proofs.Traffic.Draining
import NamedContent.Proofs.Traffic.Deadlines
import NamedContent.Proofs.Traffic.Shutdown
import NamedContent.Proofs.Segmenter.Retrying
import NamedContent.Proofs.World.GivingUp
import NamedContent.Proofs.World.Course
import NamedContent.Proofs.World.Retrying
import NamedContent.Proofs.World.Accounting
import NamedContent.Proofs.Segmenter.Continuing
import NamedContent.Proofs.World.Continuing
import NamedContent.Proofs.Traffic.Asking
import NamedContent.Proofs.Server.Aside
import NamedContent.Proofs.Server.Occurrences
import NamedContent.Proofs.Server.Looking
import NamedContent.Proofs.Server.Records
import NamedContent.Proofs.Server.Accounting
import NamedContent.Proofs.Traffic.CopiedOnly
import NamedContent.Proofs.Name.Canonical
import NamedContent.Proofs.Name.Grammar
import NamedContent.Proofs.Name.Printing
import NamedContent.Proofs.Traffic.Age
import NamedContent.Proofs.Traffic.Choosing
import NamedContent.Proofs.Traffic.Serving
import NamedContent.Proofs.Traffic.Readers
import NamedContent.Proofs.Buffer.Namespaces
import NamedContent.Proofs.Traffic.Namespaces
import NamedContent.Proofs.Traffic.Failing
import NamedContent.Proofs.Buffer.Queues
import NamedContent.Proofs.Traffic.Feeding
import NamedContent.Proofs.Traffic.Subscriptions
import NamedContent.Proofs.HashTree.Walk
import NamedContent.Proofs.Batch.Outcome
import NamedContent.Proofs.KeyRing.History
import NamedContent.Proofs.Text
import NamedContent.Proofs.Numbering
import NamedContent.Proofs.Segmenter.Settings
