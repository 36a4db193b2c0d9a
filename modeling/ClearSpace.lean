import ClearSpace.App.Program
import ClearSpace.Core.ClientShare
import ClearSpace.Core.CoreLevels
import ClearSpace.Core.CursorThrottle
import ClearSpace.Core.EmptiedRoom
import ClearSpace.Core.EventStream
import ClearSpace.Core.FinishedStrokes
import ClearSpace.Core.NaiveRoom
import ClearSpace.Core.RoomIsolation
import ClearSpace.Core.SnapshotOrder
import ClearSpace.Core.StrokeFrame
import ClearSpace.Persistence.FlushWakeup
import ClearSpace.Persistence.SnapshotFormat
import ClearSpace.Persistence.StoreInit
import ClearSpace.Persistence.WriterShutdown
import ClearSpace.Server.AtomicCalls
import ClearSpace.Server.Authorship
import ClearSpace.Server.Connections
import ClearSpace.Server.Quiescence
import ClearSpace.Server.RefusedRequest
import ClearSpace.Server.StayBracket
import ClearSpace.Server.StoppedSession
import ClearSpace.Server.WatchingClient
import ClearSpace.Transport.RequestFields
