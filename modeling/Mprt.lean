import Mprt.AlsaFrames
import Mprt.AlsaQueueHead
import Mprt.AlsaWrite
import Mprt.AsyncTasker
import Mprt.AtomicObject
import Mprt.Base64
import Mprt.BufferedSeek
import Mprt.BulkRead
import Mprt.ByteAccounting
import Mprt.ByteOrder
import Mprt.ByteSeek
import Mprt.ByteStream
import Mprt.CacheBufferThreads
import Mprt.CacheManage
import Mprt.CacheOwnership
import Mprt.ChunkConservation
import Mprt.Circulation
import Mprt.ConvertBase64
import Mprt.Decimal
import Mprt.DecodeLoop
import Mprt.DecoderPluginsManager
import Mprt.DecoderRead
import Mprt.DsoundMemory
import Mprt.DsoundRing
import Mprt.EmbeddedPictures
import Mprt.FfmpegDecode
import Mprt.FfmpegFrames
import Mprt.FfmpegSeek
import Mprt.FileQueue
import Mprt.FileRemoval
import Mprt.FinishIsolation
import Mprt.FlacAlbumArt
import Mprt.FlacCallbacks
import Mprt.FlacPicture
import Mprt.FlacSamples
import Mprt.FlacWrite
import Mprt.HeldBytes
import Mprt.InputPluginFile
import Mprt.Interleaving
import Mprt.KeyedMoves
import Mprt.KeyedSequence
import Mprt.LabelledRuns
import Mprt.NamedValues
import Mprt.NotifiedQueue
import Mprt.NumberTags
import Mprt.OutputPluginAlsa
import Mprt.OutputPluginApi
import Mprt.OutputPluginDsound
import Mprt.PlayLoop
import Mprt.PlayRelease
import Mprt.Player
import Mprt.Playlist
import Mprt.PlaylistAgreement
import Mprt.PlaylistContents
import Mprt.JobEffects
import Mprt.PlaylistDeletion
import Mprt.PlaylistFile
import Mprt.PlaylistHandOver
import Mprt.PlaylistManagement
import Mprt.PlaylistMoves
import Mprt.PlaylistOrder
import Mprt.PlaylistPrefetch
import Mprt.PlaylistRows
import Mprt.PlaylistSkip
import Mprt.PositionTags
import Mprt.ProducerConsumerQueue
import Mprt.ReadLoop
import Mprt.RingCursors
import Mprt.QueueLifetime
import Mprt.QueueRefinement
import Mprt.RotatedRing
import Mprt.SeekHandshake
import Mprt.SeekOutput
import Mprt.SeekSamples
import Mprt.SeekWait
import Mprt.StopStart
import Mprt.TagLibParser
import Mprt.TaskerQuit
import Mprt.TimerHandles
import Mprt.TimerPool
import Mprt.TrackFlow
import Mprt.TrackOrder
import Mprt.TrackSeek
import Mprt.DsoundTrack
import Mprt.SeekSlider
import Mprt.KeyedRows
import Mprt.PlaylistNames
import Mprt.PlaylistTabs
import Mprt.TabRequests
import Mprt.PlayerControls
import Mprt.ViewCells
import Mprt.ShownTags
import Mprt.TimeFormat
import Mprt.ItemDuration
