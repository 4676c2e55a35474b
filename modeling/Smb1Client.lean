import Smb1Client.Lib.RangeList
import Smb1Client.Lib.LittleEndian
import Smb1Client.Lib.Slices
import Smb1Client.Lib.Utf16
import Smb1Client.Lib.TableTotal
import Smb1Client.Lib.Trace
import Smb1Client.Lib.Dialogue
import Smb1Client.Lib.Tiling
import Smb1Client.Wire.Message
import Smb1Client.Wire.Text
import Smb1Client.Wire.File
import Smb1Client.Wire.Tree
import Smb1Client.Wire.Transaction
import Smb1Client.Wire.TransactionRead
import Smb1Client.Wire.Io
import Smb1Client.Wire.Find
import Smb1Client.Wire.Info
import Smb1Client.Wire.Negotiate
import Smb1Client.Wire.Session
import Smb1Client.Auth.Spnego
import Smb1Client.Auth.Ntlm
import Smb1Client.Rpc.Pdu
import Smb1Client.Rpc.Srvsvc
import Smb1Client.Rpc.ShareStubs
import Smb1Client.Rpc.Rap
import Smb1Client.Unc
import Smb1Client.TreeVerbs
import Smb1Client.ClientError
import Smb1Client.TreeRequest
import Smb1Client.Rpc.Pipe
import Smb1Client.Rpc.BoundPipes
import Smb1Client.Rpc.FallThrough
import Smb1Client.Rpc.Shares
import Smb1Client.Rpc.PipeHandles
import Smb1Client.Handshake
import Smb1Client.HandshakeAdmits
import Smb1Client.Resource.Listing
import Smb1Client.Resource.LaidPages
import Smb1Client.Resource.Paging
import Smb1Client.RemoveDirAll
import Smb1Client.PathsOnWire
import Smb1Client.ListedPaths
import Smb1Client.NamesOnWire
import Smb1Client.Connection.Coverage
import Smb1Client.Connection.Reassembly
import Smb1Client.Connection.ReassemblyCorrect
import Smb1Client.Connection.Types
import Smb1Client.Connection.ChunkSize
import Smb1Client.Resource.Spans
import Smb1Client.Resource.ReadSpan
import Smb1Client.Resource.ExactReads
import Smb1Client.Resource.Reader
import Smb1Client.Resource.Holes
import Smb1Client.Resource.Progress
import Smb1Client.Resource.WriteGroup
import Smb1Client.Resource.WriteSpan
import Smb1Client.Resource.Writes
import Smb1Client.Resource.Writer
import Smb1Client.Resource.WriterStreams
import Smb1Client.Connection.Table
import Smb1Client.Connection.TableAccounting
import Smb1Client.Connection.Actor
import Smb1Client.Connection.ActorRuns
import Smb1Client.Connection.CloseOrder
import Smb1Client.Connection.Outbound
import Smb1Client.Connection.MultiplexIds
import Smb1Client.Connection.Outcomes
import Smb1Client.Connection.Crosstalk
import Smb1Client.Connection.WholeReplies
import Smb1Client.SingleFlight
import Smb1Client.TreeSuccessors
import Smb1Client.Rpc.PipeExchange
import Smb1Client.Connection.Framing
import Smb1Client.Resource.ChunkLoops
import Smb1Client.Resource.SizeRefusals
import Smb1Client.Resource.FirstAnswered
import Smb1Client.Connection.CloseRun
import Smb1Client.Wire.AndxRoundTrips
import Smb1Client.Connection.CoverageCalls
import Smb1Client.Connection.ReleasedRuns
import Smb1Client.SharePaths
import Smb1Client.UncText
import Smb1Client.Timestamps
import Smb1Client.Wire.DirectoryPages
import Smb1Client.Rpc.RapReplies
import Smb1Client.Auth.SpnegoSpellings
import Smb1Client.Auth.SpnegoTokens
import Smb1Client.Auth.NtlmAnswer
import Smb1Client.Auth.AvPairLists
import Smb1Client.Auth.NtlmWellFormed
import Smb1Client.Resource.FileOffsets
import Smb1Client.Connection.Clocks
import Smb1Client.Connection.Timers
import Smb1Client.TimerRange
import Smb1Client.Lib.Peer
import Smb1Client.Disk
import Smb1Client.DiskVerbs
import Smb1Client.DiskListings
import Smb1Client.DiskRemoval
import Smb1Client.ShareVerbs
import Smb1Client.Volumes
import Smb1Client.DiskEffects
import Smb1Client.DiskSessions
import Smb1Client.Rpc.PipeServer
import Smb1Client.Rpc.ShareServer
import Smb1Client.Lib.Beside
import Smb1Client.Lib.Overlay
import Smb1Client.Lib.Tenure
import Smb1Client.Resource.FileStore
import Smb1Client.Resource.StoredWrites
import Smb1Client.Resource.WholeFile
