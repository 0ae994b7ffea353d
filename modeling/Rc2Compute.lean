import Rc2Compute.Wire.Framing
import Rc2Compute.Wire.Rounds
import Rc2Compute.Wire.Documents
import Rc2Compute.Files.Coherence
import Rc2Compute.Files.Versions
import Rc2Compute.Files.Replication
import Rc2Compute.Files.Settling
import Rc2Compute.Files.Scheduling
import Rc2Compute.Files.Mirroring
import Rc2Compute.Files.EventLoop
import Rc2Compute.Files.Images
import Rc2Compute.Files.Batches
import Rc2Compute.Files.Transactions
import Rc2Compute.Files.Workspace
import Rc2Compute.Files.Publishing
import Rc2Compute.Files.Names
import Rc2Compute.Files.Draining
import Rc2Compute.Files.InotifyRecords
import Rc2Compute.Files.Closer
import Rc2Compute.Session.Idle
import Rc2Compute.Session.Replies
import Rc2Compute.Session.Correlation
import Rc2Compute.Session.Containment
import Rc2Compute.Session.Freshness
import Rc2Compute.Session.Opening
import Rc2Compute.Session.Directory
import Rc2Compute.Session.Variables
import Rc2Compute.Session.Quoting
import Rc2Compute.Session.Credentials
import Rc2Compute.Session.Unrecognised
import Rc2Compute.Session.Sourcing
import Rc2Compute.Session.Capture
import Rc2Compute.Session.Output
import Rc2Compute.Session.Closing
import Rc2Compute.Session.Connection
import Rc2Compute.Session.Transcript
import Rc2Compute.Environment.Delta
import Rc2Compute.Environment.DataFrames
import Rc2Compute.Environment.Arrays
import Rc2Compute.Environment.Termination
import Rc2Compute.Environment.Summaries
import Rc2Compute.Environment.Vectors
import Rc2Compute.Server.RServer
import Rc2Compute.Common.DirectoryPath
