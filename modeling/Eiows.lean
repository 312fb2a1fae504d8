import Eiows.CacheLock.Exclusion
import Eiows.CacheLock.Lock
import Eiows.Handshake.Agreement
import Eiows.Handshake.Request
import Eiows.Handshake.Upgrade
import Eiows.Http.Base64
import Eiows.Http.Head
import Eiows.InPlace.Calls
import Eiows.InPlace.Exactness
import Eiows.InPlace.Lengths
import Eiows.InPlace.Parser
import Eiows.InPlace.Reachable
import Eiows.InPlace.Refinement
import Eiows.InPlace.Session
import Eiows.InPlace.Streams
import Eiows.InPlace.Unmasking
import Eiows.Interaction.Program
import Eiows.Intrusive.LinkedList
import Eiows.Lifecycle.Completion
import Eiows.Lifecycle.Finalisation
import Eiows.Lifecycle.Invariant
import Eiows.Lifecycle.Opening
import Eiows.Lifecycle.Runs
import Eiows.Lifecycle.Server
import Eiows.Lifecycle.Upgrade
import Eiows.Lifetime.Cleanup
import Eiows.Lifetime.Deletion
import Eiows.Lifetime.Environment
import Eiows.Lifetime.Methods
import Eiows.Lifetime.Ownership
import Eiows.Memory.Checked
import Eiows.Memory.Range
import Eiows.Multiplexing.Callbacks
import Eiows.Multiplexing.Isolation
import Eiows.Negotiation.Extensions
import Eiows.Negotiation.Grammar
import Eiows.Negotiation.Offers
import Eiows.Negotiation.Positions
import Eiows.Protocol.Format
import Eiows.Protocol.Frame
import Eiows.Protocol.Masking
import Eiows.Protocol.Parser
import Eiows.Protocol.Utf8
import Eiows.Protocol.Utf8Scan
import Eiows.Receiver.Chunks
import Eiows.Receiver.ClientFrames
import Eiows.Receiver.Closing
import Eiows.Receiver.Conversations
import Eiows.Receiver.Following
import Eiows.Receiver.FrameInProgress
import Eiows.Receiver.Frames
import Eiows.Receiver.Grammar
import Eiows.Receiver.Handling
import Eiows.Receiver.Parsing
import Eiows.Receiver.PayloadLimit
import Eiows.Receiver.PayloadParts
import Eiows.Receiver.Representation
import Eiows.Session.Calls
import Eiows.Session.ChunkSize
import Eiows.Session.CloseState
import Eiows.Session.Compression
import Eiows.Session.Sharing
import Eiows.Session.StreamWebSocket
import Eiows.Streaming.Decoder
import Eiows.Transition.System
import Eiows.Transport.Calls
import Eiows.Transport.Connection
import Eiows.Transport.Flushing
import Eiows.Transport.InputPart
import Eiows.Transport.Invariant
import Eiows.Transport.NativeTransport
import Eiows.Transport.Reading
import Eiows.Transport.Steps
import Eiows.Transport.Submission
import Eiows.Transport.WriteRequest
import Eiows.Transport.WriteRewriting
import Eiows.Transport.WriteSimulation
import Eiows.Transport.WriteStorage
import Eiows.Transport.WriteSubmissions
import Eiows.WebSocket.ClosePayload
import Eiows.WebSocket.Closing
import Eiows.WebSocket.Delivery
import Eiows.WebSocket.EventLoop
import Eiows.WebSocket.FrameEncoders
import Eiows.WebSocket.Promises
import Eiows.WebSocket.Receiving
import Eiows.WebSocket.Runs
import Eiows.WebSocket.Sending
import Eiows.WebSocket.WebSocket
