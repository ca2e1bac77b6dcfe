import NetworkAnalyser.Exec
import NetworkAnalyser.CString
import NetworkAnalyser.Printf
import NetworkAnalyser.FirstOffers
import NetworkAnalyser.ServerState
import NetworkAnalyser.RadiotapIterator
import NetworkAnalyser.ParseRadioTap
import NetworkAnalyser.RadiotapLayout
import NetworkAnalyser.RadiotapHeader
import NetworkAnalyser.ParseTermination
import NetworkAnalyser.RadiotapRejection
import NetworkAnalyser.RadiotapReads
import NetworkAnalyser.RadiotapArguments
import NetworkAnalyser.ParseEthernet
import NetworkAnalyser.EtherText
import NetworkAnalyser.EthernetFrame
import NetworkAnalyser.StoredRecord
import NetworkAnalyser.Capture
import NetworkAnalyser.Deduplication
import NetworkAnalyser.DistinctBeacons
import NetworkAnalyser.CaptureStatistics
import NetworkAnalyser.SsidField
import NetworkAnalyser.FrameStart
import NetworkAnalyser.GenerateJson
import NetworkAnalyser.PacketTexts
import NetworkAnalyser.CaptureContents
import NetworkAnalyser.RadiotapDecoding
import NetworkAnalyser.CaptureOutput
import NetworkAnalyser.ServerRun
import NetworkAnalyser.ClientCommand
import NetworkAnalyser.ReadBounds
import NetworkAnalyser.Utf8
import NetworkAnalyser.JsonGrammar
import NetworkAnalyser.JsonSize
import NetworkAnalyser.JsonParser
import NetworkAnalyser.JsonText
import NetworkAnalyser.NetworkCaptureData
import NetworkAnalyser.CaptureRoundTrip
import NetworkAnalyser.JavaExec
import NetworkAnalyser.JavaTimer
import NetworkAnalyser.RpiService
import NetworkAnalyser.CompleteResponse
import NetworkAnalyser.SocketLifetime
import NetworkAnalyser.ConfigSyncJob
import NetworkAnalyser.ScheduleSync
import NetworkAnalyser.ScheduleChanges
import NetworkAnalyser.OverlappingSync
import NetworkAnalyser.SharedService
import NetworkAnalyser.OverlappingExchange
import NetworkAnalyser.BeaconEncoding
import NetworkAnalyser.BeaconSurvey
import NetworkAnalyser.RecordHistory
import NetworkAnalyser.DocumentBound
import NetworkAnalyser.CaptureExchange
import NetworkAnalyser.Deployment
import NetworkAnalyser.DeploymentRuns
import NetworkAnalyser.Base64
import NetworkAnalyser.CaptureTermination
import NetworkAnalyser.PostedData
import NetworkAnalyser.DocumentReading
import NetworkAnalyser.RequestHeaders
