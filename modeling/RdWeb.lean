import RdWeb.Lib.Machine
import RdWeb.Lib.OrderedMap
import RdWeb.Lib.Utf16
import RdWeb.Web.Sessions
import RdWeb.Web.Bridge
import RdWeb.Clipboard.Basic
import RdWeb.Clipboard.ServeRuns
import RdWeb.Clipboard.DescriptorCodec
import RdWeb.Clipboard.MultiClipboards
import RdWeb.Fuse.HandleSafety
import RdWeb.Fuse.ReadReplies
import RdWeb.FileTransfer.Cancel
import RdWeb.FileTransfer.Stranded
import RdWeb.FileTransfer.Download
import RdWeb.FileTransfer.JobEnds
import RdWeb.FileTransfer.UploadProtocol
import RdWeb.FileTransfer.UploadContent
import RdWeb.Host.LoginSafety
import RdWeb.Web.Handshake
import RdWeb.Web.VideoReceived
import RdWeb.Web.Websock
import RdWeb.Host.Codec
import RdWeb.Host.DesktopControl
import RdWeb.Host.Throttle
import RdWeb.Host.FrameFetched
import RdWeb.Web.ApiServer
import RdWeb.Web.InputKey
import RdWeb.Web.Lifetimes
import RdWeb.Web.PeerOptions
import RdWeb.Host.CaptureDisplays
import RdWeb.Host.PrivacyHolder
import RdWeb.Host.PortableFrames
import RdWeb.Client.WindowDisplays
import RdWeb.Client.OptionReplay
import RdWeb.Client.SharedPassword
import RdWeb.Video.RecordedFiles
import RdWeb.Clipboard.CachedOffset
import RdWeb.Fuse.TreeShape
import RdWeb.Fuse.Lookup
import RdWeb.Client.SessionRegistry
import RdWeb.Client.ConnectionRounds
import RdWeb.Host.KeyConfirmation
import RdWeb.FileTransfer.PickedFiles
import RdWeb.Host.ViewerBounds
import RdWeb.Host.VirtualDisplays
import RdWeb.Client.SoftRender
import RdWeb.Clipboard.FileListWalk
import RdWeb.Host.StuckKeys
import RdWeb.Host.DelayEstimate
import RdWeb.Host.CodecVote
import RdWeb.Host.RemoveLog
import RdWeb.Host.ServiceTmpl
import RdWeb.Client.CustomServerName
import RdWeb.Video.RecordUpload
import RdWeb.FileTransfer.UploadArrives
import RdWeb.FileTransfer.UploadProgress
import RdWeb.FileTransfer.ZipPaths
import RdWeb.Web.MessagePump
import RdWeb.Web.ReplayedOptions
import RdWeb.Web.AcceptedPassword
import RdWeb.Web.DeliberateClose
import RdWeb.Host.PrivacyAllOrNothing
import RdWeb.Client.OnlineStates
import RdWeb.Client.AudioBuffer
import RdWeb.Clipboard.Listener
import RdWeb.Host.PortablePackage
import RdWeb.Host.DisplaySync
import RdWeb.FileTransfer.SortedListing
import RdWeb.FileTransfer.FileFetcher
import RdWeb.FileTransfer.RemoveAction
import RdWeb.Host.WorseNetwork
import RdWeb.Host.TemporaryModifiers
import RdWeb.Host.CounterRuns
import RdWeb.Host.TcpRegistration
import RdWeb.Host.MouseCursor
import RdWeb.Host.CursorService
import RdWeb.FileTransfer.WireProtocol
import RdWeb.FileTransfer.WireEnvelope
import RdWeb.Client.VideoOrder
import RdWeb.Client.FpsRequests
import RdWeb.Client.SecureKey
import RdWeb.Fuse.PastedFiles
import RdWeb.Fuse.Listing
import RdWeb.Clipboard.SyncDelivery
import RdWeb.Lib.Base64
import RdWeb.Web.CustomConfig
import RdWeb.Web.SharedStorage
