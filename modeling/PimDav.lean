import PimDav.Desk
import PimDav.Proofs.Client.Credentials
import PimDav.Proofs.Client.CutOff
import PimDav.Proofs.Client.Drafts
import PimDav.Proofs.Client.FailStop
import PimDav.Proofs.Client.FailedEntries
import PimDav.Proofs.Client.Folders
import PimDav.Proofs.Client.History
import PimDav.Proofs.Client.Items
import PimDav.Proofs.Client.LastHeaders
import PimDav.Proofs.Client.Multiget
import PimDav.Proofs.Client.Notifications
import PimDav.Proofs.Client.Secrets
import PimDav.Proofs.Client.Stages
import PimDav.Proofs.Client.Storing
import PimDav.Proofs.Client.Topics
import PimDav.Proofs.Client.Twins
import PimDav.Proofs.Client.Veils
import PimDav.Proofs.Folder.Updates
import PimDav.Proofs.Http.Codings
import PimDav.Proofs.Response.FailedGroups
import PimDav.Proofs.Response.Prefixes
import PimDav.Proofs.Xml.DeepElements
import PimDav.Proofs.Xml.OneElement
import PimDav.Proofs.Xml.Skeleton
import PimDav.Proofs.Uri.OneAddress
import PimDav.Proofs.Xml.OneSpace
import PimDav.Proofs.Client.Choices
import PimDav.Proofs.Client.Posting
import PimDav.Proofs.Client.Replies
import PimDav.Proofs.Client.Shares
import PimDav.Proofs.Xml.Indented
import PimDav.Proofs.Xml.PieceByPiece
import PimDav.Proofs.Client.Tags
import PimDav.Proofs.Client.Undeclared
import PimDav.Proofs.Http.Folding
import PimDav.Proofs.Xml.DocumentOrder
