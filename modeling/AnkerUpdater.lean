import AnkerUpdater.Lib.Collect
import AnkerUpdater.Lib.EventLog
import AnkerUpdater.Lib.Runs
import AnkerUpdater.Lib.StopAndWait
import AnkerUpdater.Lib.UploadLog
import AnkerUpdater.Lib.AtomicFiles
import AnkerUpdater.Lib.ByteMemory
import AnkerUpdater.Protocol.Messages
import AnkerUpdater.Protocol.Wire
import AnkerUpdater.Protocol.Bounds
import AnkerUpdater.Protocol.AckCollector
import AnkerUpdater.Protocol.AckTransport
import AnkerUpdater.Protocol.SendLoop
import AnkerUpdater.Protocol.SendInvariant
import AnkerUpdater.Protocol.Rounds
import AnkerUpdater.Protocol.Interference
import AnkerUpdater.Protocol.Stay
import AnkerUpdater.Protocol.Receiver
import AnkerUpdater.Protocol.ReceiverInvariant
import AnkerUpdater.Protocol.Transfer
import AnkerUpdater.Protocol.Delivery
import AnkerUpdater.Protocol.Agreement
import AnkerUpdater.Protocol.Finalisation
import AnkerUpdater.Protocol.Phases
import AnkerUpdater.Protocol.Counts
import AnkerUpdater.Hawkbit.Download
import AnkerUpdater.Hawkbit.Artifacts
import AnkerUpdater.Hawkbit.Check
import AnkerUpdater.Hawkbit.Client
import AnkerUpdater.Hawkbit.Feedback
import AnkerUpdater.Hawkbit.Install
import AnkerUpdater.Hawkbit.Repeat
import AnkerUpdater.Hawkbit.Verdict
import AnkerUpdater.Protocol.Resend
import AnkerUpdater.Protocol.Recovery
import AnkerUpdater.Protocol.Discovery
import AnkerUpdater.Hawkbit.Stopping
import AnkerUpdater.Protocol.PollMode
import AnkerUpdater.Protocol.Sockets
import AnkerUpdater.Protocol.SocketRuns
import AnkerUpdater.Wifi.Answers
import AnkerUpdater.Wifi.Replies
import AnkerUpdater.Storage.Datastorage
import AnkerUpdater.Storage.CrashAtomic
import AnkerUpdater.Protocol.LeftOver
import AnkerUpdater.Protocol.AccessPoint
import AnkerUpdater.Protocol.Uptime
import AnkerUpdater.Protocol.Confirmation
import AnkerUpdater.Storage.Chunked
import AnkerUpdater.Storage.NvStorageMan
import AnkerUpdater.Wifi.Reconnects
import AnkerUpdater.Protocol.Credentials
import AnkerUpdater.Storage.Append
import AnkerUpdater.Lib.HandleLog
import AnkerUpdater.Storage.ChunkHandles
import AnkerUpdater.TimeController.Core
import AnkerUpdater.TimeController.Persistence
import AnkerUpdater.Lib.CText
import AnkerUpdater.Lib.Json
import AnkerUpdater.Hawkbit.JsonParse
import AnkerUpdater.Hawkbit.JsonFields
import AnkerUpdater.Hawkbit.PollInterval
import AnkerUpdater.Protocol.Kicks
import AnkerUpdater.Protocol.Slots
import AnkerUpdater.Protocol.AckArray
import AnkerUpdater.Protocol.Lockstep
import AnkerUpdater.Storage.ReadFile
import AnkerUpdater.Protocol.UpdateRecord
import AnkerUpdater.Protocol.Lifecycle
import AnkerUpdater.Protocol.Provenance
import AnkerUpdater.Protocol.Handshake
import AnkerUpdater.Protocol.Obedience
import AnkerUpdater.Protocol.Durability
import AnkerUpdater.Storage.FileHandles
import AnkerUpdater.Hawkbit.Http
import AnkerUpdater.Hawkbit.Progress
