import WayRay.Session.Frame
import WayRay.Session.Freshness
import WayRay.Session.Finality
import WayRay.Session.Expiry
import WayRay.Headless.Resume
import WayRay.Headless.Secrecy
import WayRay.Headless.Launcher
import WayRay.Client.SessionLoop
import WayRay.Client.Pins
import WayRay.Client.Modifiers
import WayRay.Desktop.Focus
import WayRay.Desktop.FocusOrder
import WayRay.Desktop.Placement
import WayRay.Desktop.Order
import WayRay.Desktop.Visibility
import WayRay.Desktop.Announced
import WayRay.Protocol.PinFiles
import WayRay.Network.Probes
import WayRay.Network.Dialogue
import WayRay.Network.Inbound
import WayRay.Network.Outbound
import WayRay.Network.Shutdown
import WayRay.Cluster.Redirects
import WayRay.Server.LastWriter
import WayRay.Server.Takeover
import WayRay.Wm.Batches
import WayRay.Wm.Objects
import WayRay.Wm.Stacking
import WayRay.Frames.Agreement
import WayRay.Wm.Restacked
import WayRay.Session.Affinity
import WayRay.Clipboard.Delivery
import WayRay.Headless.Balancing
import WayRay.Headless.Borders
import WayRay.Headless.Damage
import WayRay.Client.Regions
import WayRay.Protocol.Framer
import WayRay.Desktop.Leftovers
import WayRay.Headless.Footprint
import WayRay.Session.Rows
import WayRay.Session.Timeouts
import WayRay.Session.Counter
import WayRay.Desktop.Buttons
import WayRay.Client.LetterCase
import WayRay.Clipboard.Capping
import WayRay.Protocol.Spellings
import WayRay.Session.Snapshot
import WayRay.Tiling.Tiled
import WayRay.Sessd.Login
import WayRay.Headless.LauncherLink
import WayRay.Render.Pipeline
import WayRay.Sessd.Service
import WayRay.Headless.AdminBridge
