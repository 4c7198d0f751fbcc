import Nyanpasu.Guarantees.Sources
import Nyanpasu.Guarantees.Artifacts
import Nyanpasu.Guarantees.Status
import Nyanpasu.Guarantees.Commits
import Nyanpasu.Guarantees.Control
import Nyanpasu.Guarantees.Shutdown
import Nyanpasu.Guarantees.Registry
import Nyanpasu.Guarantees.Overlap
import Nyanpasu.Guarantees.Patch
import Nyanpasu.Guarantees.Restoration
import Nyanpasu.Guarantees.Dns
import Nyanpasu.Guarantees.Echo
import Nyanpasu.Guarantees.Convergence
import Nyanpasu.Guarantees.Readiness
import Nyanpasu.Guarantees.Health
import Nyanpasu.Guarantees.LogHistory
import Nyanpasu.Guarantees.LogSessions
import Nyanpasu.Guarantees.Classification
import Nyanpasu.Guarantees.Canonical
import Nyanpasu.Guarantees.Preparation
import Nyanpasu.Guarantees.Endpoints
import Nyanpasu.Guarantees.Sweep
import Nyanpasu.Guarantees.Tracker
import Nyanpasu.Guarantees.Logfmt
import Nyanpasu.Guarantees.Identity
import Nyanpasu.Guarantees.PremiumDates
