import RemoteCache.FileTree
import RemoteCache.Main
import RemoteCache.Proofs.Session.Consistency
import RemoteCache.Proofs.Wire.PolicyRoundTrip
import RemoteCache.Server.Probe
import RemoteCache.Proofs.Wire.ReplyRoundTrip
import RemoteCache.Proofs.Network.Traffic
import RemoteCache.Proofs.Session.Outcomes
import RemoteCache.Proofs.Client.Questions
import RemoteCache.Proofs.Client.Verdicts
import RemoteCache.Proofs.Network.Delivery
import RemoteCache.Proofs.Session.Pairing
import RemoteCache.Proofs.Client.Requests
import RemoteCache.Proofs.Client.Transparency
import RemoteCache.Proofs.Client.Resending
import RemoteCache.Proofs.Server.Counting
import RemoteCache.Proofs.Server.Framing
import RemoteCache.Proofs.Client.Effects
import RemoteCache.Proofs.Network.Segments
import RemoteCache.Proofs.Session.Streams
import RemoteCache.Proofs.Network.Deadlines
import RemoteCache.Proofs.Session.Deadlines
import RemoteCache.Proofs.Wire.Canonical
import RemoteCache.Proofs.Settings.Precedence
import RemoteCache.Proofs.Session.Modes
import RemoteCache.Proofs.Console.Conversation
import RemoteCache.Proofs.Network.Endpoints
import RemoteCache.Proofs.Wire.PolicyTexts
import RemoteCache.Proofs.Client.Severed
import RemoteCache.Proofs.Network.Addresses
import RemoteCache.Proofs.Network.Waits
import RemoteCache.Proofs.Session.Opening
import RemoteCache.Proofs.Session.Timeouts
import RemoteCache.Proofs.Client.Payloads
import RemoteCache.Proofs.Settings.Files
import RemoteCache.Proofs.Settings.Numbers
import RemoteCache.Proofs.Network.Countdown
import RemoteCache.Proofs.Server.Tallies
import RemoteCache.Proofs.Client.Notes
import RemoteCache.Proofs.Wire.Sequences
