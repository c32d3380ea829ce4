import BabilCors.IncrementalScanner
import BabilCors.Rtcm
import BabilCors.RtcmSegmentation
import BabilCors.PyText
import BabilCors.PyDict
import BabilCors.PyValue
import BabilCors.ExactFloat
import BabilCors.TransitionRuns
import BabilCors.CappedRefill
import BabilCors.Tiers
import BabilCors.RateLimitWait
import BabilCors.IpAddress
import BabilCors.ConnectionFilter
import BabilCors.Auth
import BabilCors.Config
import BabilCors.PasswordSafety
import BabilCors.Nmea
import BabilCors.LossyChannel
import BabilCors.ByteQueue
import BabilCors.RoverTask
import BabilCors.Caster
import BabilCors.StreamIntegrity
import BabilCors.SlotLedger
import BabilCors.RoverSlots
import BabilCors.SourceSteps
import BabilCors.HubTable
import BabilCors.SourceRelease
import BabilCors.Geofence
import BabilCors.RoverReadLoop
import BabilCors.ReadLoopSafety
import BabilCors.JwtManager
import BabilCors.ConfigDocument
import BabilCors.NtripCaster
import BabilCors.AdminRequests
import BabilCors.AdminEffects
import BabilCors.AdminGate
import BabilCors.AdminReadOnly
import BabilCors.GeofenceOwnership
import BabilCors.ConfigTransactions
import BabilCors.UpdateCalls
import BabilCors.ResponseTruth
import BabilCors.ServerRuns
import BabilCors.SourceExclusivity
import BabilCors.FixedLimits
import BabilCors.SourceLimit
import BabilCors.RoverLimits
import BabilCors.MintedTokens
import BabilCors.RefreshRotation
import BabilCors.RevocationLifetime
import BabilCors.TokenRecords
import BabilCors.Unauthenticated
import BabilCors.OrderedAssignments
import BabilCors.ReloadAtomicity
import BabilCors.ServerStart
import BabilCors.HotReload
import BabilCors.ConfigWatch
import BabilCors.BlockedRovers
import BabilCors.Conveyor
import BabilCors.ByteConservation
import BabilCors.ListSums
import BabilCors.HubTotals
import BabilCors.ConditionVariable
import BabilCors.QueueWakeups
import BabilCors.HubFanOut
import BabilCors.RoverIsolation
import BabilCors.GatedBatches
import BabilCors.EpochCuts
import BabilCors.FenceConsistency
import BabilCors.Diagnostics
import BabilCors.AlertCoverage
import BabilCors.AdminAudit
import BabilCors.TaskCancellation
import BabilCors.Shutdown
import BabilCors.RoverVerdicts
import BabilCors.DisabledMountpoints
import BabilCors.GgaHeader
import BabilCors.ValidatedStart
import BabilCors.ConflictReports
import BabilCors.ExpositionFormat
import BabilCors.MetricsPage
import BabilCors.MetricNames
import BabilCors.MergedWrites
import BabilCors.DeviceShadow
import BabilCors.IncreasingLog
import BabilCors.ShadowHistory
import BabilCors.IpListMeaning
import BabilCors.ScannerOffsets
import BabilCors.Resynchronisation
import BabilCors.BitStrings
import BabilCors.CyclicRedundancy
import BabilCors.CrcDetection
import BabilCors.ParserAccounting
import BabilCors.BucketRate
import BabilCors.EpochRate
import BabilCors.BitReader
import BabilCors.StationMessages
import BabilCors.DescriptorMessages
import BabilCors.StationInfo
import BabilCors.OrderedRuns
import BabilCors.GsvSeries
import BabilCors.PyNumbers
import BabilCors.GsvSentences
import BabilCors.Coordinates
import BabilCors.NmeaCorruption
import BabilCors.CyclicPairs
import BabilCors.PolygonEdges
import BabilCors.EvenOddRule
import BabilCors.GeojsonFences
import BabilCors.SnrThreshold
import BabilCors.RotatingLog
import BabilCors.AuditRotation
import BabilCors.TextEncodings
import BabilCors.BasicAuthentication
import BabilCors.SeparatedRecords
import BabilCors.Sourcetable
import BabilCors.MemoryHistory
import BabilCors.OverflowCounts
import BabilCors.MessageCounts
import BabilCors.WireFormat
import BabilCors.RtcmEnvelope
import BabilCors.DropOldest
import BabilCors.IotRelay
import BabilCors.StreamSubscribers
import BabilCors.StreamIndependence
import BabilCors.SourceFrames
import BabilCors.PublishedFrames
import BabilCors.KeyedGates
import BabilCors.LineSentences
import BabilCors.EventLog
import BabilCors.RoverEvents
import BabilCors.AdminRate
import BabilCors.AuditShipping
import BabilCors.PositionReports
import BabilCors.RoverShadow
import BabilCors.DeviceSearch
import BabilCors.RoverPages
import BabilCors.FenceListing
import BabilCors.AuditTrail
import BabilCors.HttpHead
import BabilCors.PercentEncoding
import BabilCors.HttpRequests
import BabilCors.RequestTarget
import BabilCors.PasswordHash
import BabilCors.WrittenSentences
import BabilCors.SentenceStream
import BabilCors.ConfigAuthority
import BabilCors.MqttManager
import BabilCors.NumberTexts
import BabilCors.JsonText
import BabilCors.JsonRoundTrip
import BabilCors.AuditLines
import BabilCors.AdminBodies
