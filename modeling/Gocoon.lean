import Gocoon.TlTcpPacket
import Gocoon.QueryResolutionHistory
import Gocoon.InferenceStreamDelivery
import Gocoon.ProxyHandshakeSafety
import Gocoon.TopUpPaths
import Gocoon.SessionTeardown
import Gocoon.SessionLeaks
import Gocoon.ClosedSessions
import Gocoon.StoreBackends
import Gocoon.InferenceRequest
import Gocoon.ProxyAnswers
import Gocoon.DecoderIterations
import Gocoon.InferenceStreamIsolation
import Gocoon.InferenceStreamEnding
import Gocoon.TransportWriters
import Gocoon.FailedWrites
import Gocoon.ToolCallHistory
import Gocoon.ForwardedRequest
import Gocoon.RootParams
import Gocoon.ClientStorage
import Gocoon.AnswerDecoding
import Gocoon.ProxyAcceptance
import Gocoon.ChatBodyFaults
import Gocoon.BodyFidelity
import Gocoon.VisibleText
import Gocoon.PacketGrammar
import Gocoon.FlaggedParams
import Gocoon.HeaderNames
import Gocoon.WithdrawConfirmation
import Gocoon.ProofOfWork
import Gocoon.CollectedResponse
import Gocoon.ReservedCapacity
import Gocoon.ClientMessages
import Gocoon.SignedMessages
import Gocoon.CleanResponse
import Gocoon.ToolResponses
import Gocoon.NanoAmounts
import Gocoon.TlSequences
import Gocoon.StrippedReasoning
import Gocoon.RemoteCallSafety
import Gocoon.PacketLink
import Gocoon.RunnerStats
import Gocoon.ReopenedStore
