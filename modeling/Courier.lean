import Courier.Interaction
import Courier.Json.Reader
import Courier.Mention.Roster
import Courier.Proofs.Attachment.Conservation
import Courier.Proofs.Attachment.OrderedMap
import Courier.Proofs.Attachment.Recovery
import Courier.Proofs.Composer.Field
import Courier.Proofs.Composer.Independence
import Courier.Proofs.Composer.TakingOver
import Courier.Proofs.Composer.WellFormed
import Courier.Proofs.FormData
import Courier.Proofs.Json.RoundTrip
import Courier.Proofs.Mention.Copying
import Courier.Proofs.Mention.History
import Courier.Proofs.Mention.NormalForm
import Courier.Proofs.Mention.Partition
import Courier.Proofs.Mention.Replay
import Courier.Proofs.Message
import Courier.Proofs.Message.Ephemeral
import Courier.Proofs.Mutator
import Courier.Proofs.Payload.Lossless
import Courier.Proofs.Refusal
import Courier.Proofs.Reordering
import Courier.Proofs.Requirement
import Courier.Proofs.Route.Address
import Courier.Proofs.Route.Query
import Courier.Proofs.Route.Redaction
import Courier.Proofs.Session.Accumulation
import Courier.Proofs.Session.Classification
import Courier.Proofs.Session.DefaultPolicy
import Courier.Proofs.Session.Exposure
import Courier.Proofs.Session.Finalization
import Courier.Proofs.Session.Limits
import Courier.Proofs.Session.Promise
import Courier.Proofs.Session.Resending
import Courier.Proofs.Session.Secrecy
import Courier.Proofs.Session.Settlement
import Courier.Proofs.Session.Verdict
import Courier.Proofs.Session.WellFormed
import Courier.Proofs.Settings.Categories
import Courier.Proofs.Settings.Level
import Courier.Proofs.Settings.Reading
import Courier.Proofs.Settings.Wire
import Courier.Proofs.Text
import Courier.Session
import Courier.Settings
import Courier.WireBody
