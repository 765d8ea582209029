import XFerry.Security.SessionKeys
import XFerry.Http.Segmentation
import XFerry.Server.KeepAlive
import XFerry.Http.FramingAgreement
import XFerry.Security.AuthAccounting
import XFerry.Security.BruteForceBound
import XFerry.Advanced.SessionRefinement
import XFerry.WebSocket.CloseDiscipline
import XFerry.WebSocket.Segmentation
import XFerry.Storage.PublishedFiles
import XFerry.Management.UpdateTruthfulness
import XFerry.Server.TransferCapacity
import XFerry.Server.ConnectionSlots
import XFerry.Server.BodyMemoryUse
import XFerry.Encrypted.JournalRecovery
import XFerry.Storage.Capacity
import XFerry.Server.PathContainment
import XFerry.Storage.PublicationAccounting
import XFerry.Ui.TransferAgreement
import XFerry.Management.ManifestUpdates
import XFerry.Management.DedicatedFolders
import XFerry.Management.VersionOrder
import XFerry.Management.PurgeSafety
import XFerry.Management.GrantCoverage
import XFerry.Management.ChangeFaults
import XFerry.WebSocket.FrameCodec
import XFerry.Encrypted.ChunkDownloads
import XFerry.Advanced.PayloadEncodings
import XFerry.Advanced.ChunkedRequests
import XFerry.Http.MultipartRoundTrip
import XFerry.Server.AuthorityAdmission
import XFerry.Notepad.PairRestoration
import XFerry.Smuggle.ArtifactWrites
import XFerry.Notepad.NoteDeletion
import XFerry.Server.HeadRequests
import XFerry.Smuggle.RequestTotality
import XFerry.Management.ReleaseTrust
import XFerry.Storage.BasicUploads
import XFerry.Smuggle.InlineStrings
import XFerry.Smuggle.PayloadScripts
import XFerry.Server.FileInspection
import XFerry.Ui.BearerLifecycle
import XFerry.Encrypted.Base64Fields
