import Pumpbug.Lib.Buffer
import Pumpbug.Lib.Clock
import Pumpbug.Extraction
import Pumpbug.Flow
import Pumpbug.Pour
import Pumpbug.RobustFlow
import Pumpbug.Lib.Run
import Pumpbug.Recorder
import Pumpbug.RecorderFacts
import Pumpbug.Lib.Timeline
import Pumpbug.PumpEdge
import Pumpbug.EventLog
import Pumpbug.PublishedRecord
import Pumpbug.Lib.Leb128
import Pumpbug.Encoding
import Pumpbug.Wire
import Pumpbug.WireRoundTrip
import Pumpbug.Lib.Cursor
import Pumpbug.Web.Protocol
import Pumpbug.Web.Agreement
import Pumpbug.SampleBatch
import Pumpbug.Web.BatchAgreement
import Pumpbug.ScaleClock
import Pumpbug.RecordStep
import Pumpbug.ShotSamples
import Pumpbug.PourAgreement
import Pumpbug.PourEnds
import Pumpbug.YieldDecision
import Pumpbug.ShotInvariants
import Pumpbug.PostPumpBounds
import Pumpbug.Controller
import Pumpbug.Power.RadioSafety
import Pumpbug.Net.SseServer
import Pumpbug.Net.Takeover
import Pumpbug.Power.RadioConvergence
import Pumpbug.Net.StaleEvents
import Pumpbug.AlarmEvents
import Pumpbug.Graduation
import Pumpbug.StopNow
import Pumpbug.CutDecision
import Pumpbug.History.ShotFiles
import Pumpbug.History.ShotStore
import Pumpbug.History.SaveRuns
import Pumpbug.History.ShotHistoryRoutes
import Pumpbug.Web.ShotList
import Pumpbug.Web.ListPaging
import Pumpbug.Web.StreamChain
import Pumpbug.WireSizes
import Pumpbug.DecodeSafety
import Pumpbug.DecodeRun
import Pumpbug.EvidenceGrowth
import Pumpbug.ShiftInvariance
import Pumpbug.Ble.AcaiaV2Codec
import Pumpbug.Ble.FrameScanner
import Pumpbug.Ble.FramerAgreement
import Pumpbug.Ble.EventAgreement
import Pumpbug.Net.Auth
import Pumpbug.Net.PairingWindow
import Pumpbug.Net.TokenAgreement
import Pumpbug.Ble.ScaleLink
import Pumpbug.Ble.LinkSteps
import Pumpbug.Ble.TareIsolation
import Pumpbug.Ble.StreamIsolation
import Pumpbug.Ble.SessionIsolation
import Pumpbug.Vibration.PumpSignal
import Pumpbug.Vibration.PumpWindow
import Pumpbug.Backflush.BackflushCycle
import Pumpbug.Backflush.PeriodTiling
import Pumpbug.Power.LowBatteryShutdown
import Pumpbug.Power.ShutdownLaw
import Pumpbug.Ui.Buttons
import Pumpbug.Ui.ButtonLedger
import Pumpbug.Ui.ButtonAccounts
import Pumpbug.Power.PowerEventLog
import Pumpbug.Power.PowerEventRuns
import Pumpbug.Util.TopK
import Pumpbug.Util.ClusterPeaks
import Pumpbug.Web.FlowProfile
import Pumpbug.Web.CrossingTimes
import Pumpbug.Lib.Heap
import Pumpbug.Util.TopK
import Pumpbug.Util.ClusterPeaks
import Pumpbug.Web.FlowProfile
import Pumpbug.Web.CrossingTimes
import Pumpbug.Lib.Hold
import Pumpbug.FlowSeries
import Pumpbug.Lib.Nearest
import Pumpbug.NearestSample
import Pumpbug.Web.RobustFlow
import Pumpbug.Web.FlowAgreement
import Pumpbug.Web.PeakAgreement
import Pumpbug.Lib.WakeUp
import Pumpbug.ScreenLoop
import Pumpbug.QuietTicks
import Pumpbug.WakeUps
import Pumpbug.ExtractionStream
import Pumpbug.StreamReader
import Pumpbug.WakeUpRuns
import Pumpbug.Web.LiveModel
import Pumpbug.Web.LivePackets
import Pumpbug.StreamedRecords
import Pumpbug.LiveRuns
import Pumpbug.LiveEnds
import Pumpbug.LiveBatches
import Pumpbug.LiveRest
import Pumpbug.Net.HttpServer
import Pumpbug.Net.RouteUpdates
import Pumpbug.Net.RoutesServed
import Pumpbug.Lib.Cells
import Pumpbug.Lib.Fourier
import Pumpbug.Util.Fft
import Pumpbug.Util.FftTables
import Pumpbug.Util.Spectrum
import Pumpbug.Ui.UiHost
import Pumpbug.Ui.Foreground
import Pumpbug.Lib.Json
import Pumpbug.Lib.Utf8
import Pumpbug.Net.JsonStream
import Pumpbug.Net.JsonBodies
import Pumpbug.Net.JsonDocument
import Pumpbug.Net.WifiScan
import Pumpbug.Power.PowerPages
import Pumpbug.Web.PowerHistory
import Pumpbug.Web.PowerViews
import Pumpbug.Lib.Ring
import Pumpbug.Diagnostics.HeapMonitor
import Pumpbug.Diagnostics.HeapHistory
import Pumpbug.Diagnostics.RuntimeEventLog
import Pumpbug.Web.LogViews
