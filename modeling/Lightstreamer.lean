import Lightstreamer.Foundations.Machine
import Lightstreamer.Foundations.OrdMap
import Lightstreamer.Foundations.Pulling
import Lightstreamer.Foundations.Segments
import Lightstreamer.Foundations.Text
import Lightstreamer.Foundations.Utf8
import Lightstreamer.Protocol.Diff
import Lightstreamer.Protocol.Escaping
import Lightstreamer.Protocol.Encoding
import Lightstreamer.Protocol.DiffSections
import Lightstreamer.Protocol.Parameters
import Lightstreamer.Protocol.Unescaping
import Lightstreamer.Protocol.Grammar
import Lightstreamer.Protocol.Printing
import Lightstreamer.Protocol.Response
import Lightstreamer.Config.Redaction
import Lightstreamer.Subscription.Manager
import Lightstreamer.Subscription.Decoding
import Lightstreamer.Subscription.InPlace
import Lightstreamer.Subscription.Classification
import Lightstreamer.Subscription.Outdated
import Lightstreamer.Subscription.Names
import Lightstreamer.Session.Schedule
import Lightstreamer.Session.Deadlines
import Lightstreamer.Session.Vocabulary
import Lightstreamer.Session.Registry
import Lightstreamer.Session.Step
import Lightstreamer.Session.Pump
import Lightstreamer.Session.Turns
import Lightstreamer.Session.Coherence
import Lightstreamer.Session.Removal
import Lightstreamer.Session.Agreement
import Lightstreamer.Session.BindKind
import Lightstreamer.Session.Budget
import Lightstreamer.Session.Attempts
import Lightstreamer.Session.Destroy
import Lightstreamer.Session.Filing
import Lightstreamer.Session.Messages
import Lightstreamer.Session.Correlation
import Lightstreamer.Session.Reexecution
import Lightstreamer.Session.Attribution
import Lightstreamer.Session.Unsettled
import Lightstreamer.Session.Recovery
import Lightstreamer.Session.Reconfiguration
import Lightstreamer.Session.Admissible
import Lightstreamer.Session.Stream
import Lightstreamer.Session.Delivery
import Lightstreamer.Session.Position
import Lightstreamer.Session.Twin
import Lightstreamer.Session.Replacement
import Lightstreamer.Session.Conformance
import Lightstreamer.Transport.Framing
import Lightstreamer.Transport.ControlResponse
import Lightstreamer.Transport.Splitting
import Lightstreamer.Transport.Agreement
import Lightstreamer.Transport.Head
import Lightstreamer.Transport.HttpBounds
import Lightstreamer.Transport.WebSocketLines
import Lightstreamer.Client.Connecting
import Lightstreamer.Client.Unsubscribing
import Lightstreamer.Client.Replica
import Lightstreamer.Client.Announcement
import Lightstreamer.Client.Subscription
