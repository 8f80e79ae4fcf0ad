import KkLicode.Base.Streams
import KkLicode.Base.SlotRing
import KkLicode.Kcp.Connection
import KkLicode.Kcp.Routing
import KkLicode.Kcp.Replies
import KkLicode.Kcp.HandleRecUdp
import KkLicode.Kcp.OwnEntry
import KkLicode.Kcp.RelayIds
import KkLicode.Kcp.RelayHeart
import KkLicode.Kcp.StaleTraffic
import KkLicode.Kcp.ControlBytes
import KkLicode.Kcp.DatagramReads
import KkLicode.Rtp.TranslatorStream
import KkLicode.Rtp.TranslatorInverse
import KkLicode.Rtp.TranslatorUnique
import KkLicode.Rtp.TranslatorShift
import KkLicode.Rtp.LossReports
import KkLicode.Rtp.LayerSelection
import KkLicode.Rtp.Renumbering
import KkLicode.Rtp.TrackMuteFeedback
import KkLicode.Rtp.TrackMuteReuse
import KkLicode.Rtp.SlideShowFeedback
import KkLicode.Rtp.KeyframeAssembly
import KkLicode.Rtp.SwallowedFeedback
import KkLicode.Rtp.RtcpForwarder
import KkLicode.Rtp.AggregatedReports
import KkLicode.Rtp.DisabledHandlers
import KkLicode.Rtp.PaddingRemoval
import KkLicode.Rtp.RtcpWalk
import KkLicode.Rtp.PliPacing
import KkLicode.Rtp.BucketRates
import KkLicode.Rtp.QualityManager
import KkLicode.Rtp.ExtendedPacket
import KkLicode.Rtp.ConfiguredProcessor
import KkLicode.Rtp.PacketQueueStream
import KkLicode.Rtp.NackCompleteness
import KkLicode.Media.VideoInput
import KkLicode.Media.RtpVP9Parser
import KkLicode.Media.VP8Pointers
import KkLicode.Media.RateControl
import KkLicode.Media.OneToManyProcessor
import KkLicode.Media.Recording
import KkLicode.Stats.MovingIntervalRateStat
import KkLicode.Stats.MovingAverageStat
import KkLicode.Stats.RateQuery
import KkLicode.Stats.WindowedSum
import KkLicode.Stats.PartialAverage
import KkLicode.Base.Folds
import KkLicode.Base.LastWrite
import KkLicode.Base.Overwrite
import KkLicode.Sdp.Agreement
import KkLicode.Sdp.LineRuns
import KkLicode.Sdp.PayloadTypes
import KkLicode.Sdp.Renegotiation
import KkLicode.Sdp.SoleMarker
import KkLicode.Sdp.GetSdp
import KkLicode.Sdp.ReadTexts
import KkLicode.Sdp.RecoveredTexts
import KkLicode.Sdp.RoundTrip
import KkLicode.Sdp.SupportPayloadType
import KkLicode.Sdp.Readable
import KkLicode.Sdp.CandidateRoundTrip
