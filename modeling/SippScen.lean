import SippScen.MediaEndpoint.Timeout
import SippScen.MediaEndpoint.Wiring
import SippScen.MediaEndpoint.Reports
import SippScen.MediaHost.Mutex
import SippScen.MediaHost.Honoured
import SippScen.MediaHost.Progress
import SippScen.MediaHost.Drain
import SippScen.MediaHost.Listing
import SippScen.Deployment.Calls
import SippScen.MediaServer.Shutdown
import SippScen.MediaServer.Entries
import SippScen.MediaServer.Registration
import SippScen.Orchestrator.Ports
import SippScen.Orchestrator.Expiry
import SippScen.Orchestrator.DnRange
import SippScen.Orchestrator.Files
import SippScen.Orchestrator.Overlap
import SippScen.Orchestrator.TimeSignature
import SippScen.Orchestrator.CallerReuse
import SippScen.Orchestrator.Stopping
import SippScen.Orchestrator.NeverPaced
import SippScen.Orchestrator.Sockets
import SippScen.SharedList.Format
