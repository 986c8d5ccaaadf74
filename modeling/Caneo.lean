import Caneo.BitField
import Caneo.Containers
import Caneo.Runs
import Caneo.EventLoop
import Caneo.Numerals
import Caneo.NumeralFormat
import Caneo.Dbc
import Caneo.CanFrame
import Caneo.SendModel
import Caneo.DbcPppWrapper
import Caneo.SignalRoundTrip
import Caneo.RangeRule
import Caneo.MuxRoundTrip
import Caneo.Action
import Caneo.ActionHandler
import Caneo.ActionTimers
import Caneo.ActionRequests
import Caneo.Protobuf
import Caneo.SocketCAN
import Caneo.GraphWindow
import Caneo.GraphSeries
import Caneo.ProtoLog
import Caneo.FrameIdentity
import Caneo.McapLogger
import Caneo.McapReader
import Caneo.Interning
import Caneo.LogSchemas
import Caneo.ActionPreset
import Caneo.PresetIsolation
import Caneo.EncodeFns
import Caneo.ActionObjects
import Caneo.SendModels
import Caneo.SinPayloads
import Caneo.FrontEnd
import Caneo.PresetActions
import Caneo.Tui
import Caneo.KeyFrames
import Caneo.Gui
import Caneo.PayloadEdit
import Caneo.CanStreamService
import Caneo.FailedSends
import Caneo.TimerChains
import Caneo.SinPhase
import Caneo.SingleDelivery
import Caneo.SubscriberStreams
import Caneo.StreamShutdown
import Caneo.BufferAccess
import Caneo.SentPayloads
import Caneo.SharedModels
import Caneo.SinEncoders
import Caneo.Playback
import Caneo.PlaybackTiming
import Caneo.StopPlayback
import Caneo.DataFrameSet
import Caneo.ReplayRows
import Caneo.ReplayedContent
import Caneo.LogController
import Caneo.LogPaths
import Caneo.LogState
import Caneo.InterArrival
import Caneo.SignalStore
import Caneo.ModelEngine
import Caneo.RemoteLogControl
import Caneo.RemoteReplica
import Caneo.ReaderThread
import Caneo.Navigation
import Caneo.SendIndices
import Caneo.SinActions
import Caneo.EditTargets
import Caneo.ActionPeriods
import Caneo.GuiEdits
import Caneo.TuiEdits
import Caneo.EditSessions
import Caneo.PeriodSources
import Caneo.TraceSelection
import Caneo.EditorPrefill
import Caneo.EditedNumbers
import Caneo.RawReplay
import Caneo.PlayThread
import Caneo.ReplayedSends
import Caneo.PlaybackMenu
import Caneo.EdgeTriggered
import Caneo.FrameReceivers
import Caneo.CanReceive
import Caneo.BusToBus
import Caneo.GraphPreset
import Caneo.KeyedTable
import Caneo.ModelOutputs
import Caneo.SignalViews
import Caneo.SessionFiles
import Caneo.RemoteFrontEnd
import Caneo.Config
import Caneo.InterfaceSetup
import Caneo.SuitedActions
import Caneo.SentFrames
