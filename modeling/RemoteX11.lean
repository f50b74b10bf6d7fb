import RemoteX11.Lib.Register
import RemoteX11.Lib.Run
import RemoteX11.Lib.Bytes
import RemoteX11.Protocol.Messages
import RemoteX11.Protocol.Binary
import RemoteX11.Protocol.Reencode
import RemoteX11.Protocol.Frame
import RemoteX11.Transport.Recv
import RemoteX11.Lib.Calls
import RemoteX11.Queue.Lanes
import RemoteX11.Queue.System
import RemoteX11.Queue.Accounting
import RemoteX11.Queue.Close
import RemoteX11.Transport.Drain
import RemoteX11.Flow.Channel
import RemoteX11.Flow.Delivery
import RemoteX11.Flow.Advertise
import RemoteX11.Flow.Parking
import RemoteX11.Data.Chain
import RemoteX11.Data.Link
import RemoteX11.Queue.Order
import RemoteX11.Data.Fragments
import RemoteX11.Client.Uplink
import RemoteX11.Lib.Assoc
import RemoteX11.Lib.Table
import RemoteX11.Sessions.Destroy
import RemoteX11.Sessions.Manager
import RemoteX11.Server.Uplink
import RemoteX11.Server.Teardown
import RemoteX11.Sessions.Connections
import RemoteX11.Sessions.Resources
import RemoteX11.Sessions.Ownership
import RemoteX11.Sessions.Ingress
import RemoteX11.Sessions.Grace
import RemoteX11.Sessions.Expiry
import RemoteX11.Server.Relays
import RemoteX11.Sessions.Calls
import RemoteX11.Server.Egress
import RemoteX11.Channels.Agreement
import RemoteX11.Transport.Calls
import RemoteX11.Lib.Dialog
import RemoteX11.Transport.Handshake
import RemoteX11.Client.Connector
import RemoteX11.Client.Stop
import RemoteX11.Client.Supervise
import RemoteX11.Recode.Frame
import RemoteX11.Recode.Machine
import RemoteX11.Recode.Bounds
import RemoteX11.Recode.Declared
import RemoteX11.Recode.Disabled
import RemoteX11.Data.Encodable
import RemoteX11.Data.Savings
import RemoteX11.Data.Overlay
import RemoteX11.Lib.Loop
import RemoteX11.Settings.Runtime
import RemoteX11.Recode.Expansion
import RemoteX11.Audio.Captures
import RemoteX11.Server.Deadlock
import RemoteX11.Server.Dismantle
import RemoteX11.Server.Released
import RemoteX11.Flow.Gate
import RemoteX11.Flow.Race
import RemoteX11.Flow.Keepalive
import RemoteX11.Queue.Budget
import RemoteX11.Transport.Resync
import RemoteX11.Audio.Mix
import RemoteX11.Audio.Subscriptions
import RemoteX11.Audio.Applications
import RemoteX11.Audio.Attachments
import RemoteX11.Client.Outlets
import RemoteX11.Audio.Orphans
import RemoteX11.Audio.Shedding
import RemoteX11.Audio.Registry
import RemoteX11.Lib.Blocks
import RemoteX11.Audio.Format
import RemoteX11.Audio.Packets
import RemoteX11.Gui.Logs
import RemoteX11.Lib.Text
import RemoteX11.Lib.Toml
import RemoteX11.Gui.Config
import RemoteX11.Client.Opens
import RemoteX11.Server.Opens
import RemoteX11.Gui.Validate
import RemoteX11.Gui.Flat
import RemoteX11.Gui.File
import RemoteX11.Gui.Backend
import RemoteX11.Gui.Pages
import RemoteX11.Gui.Dirty
import RemoteX11.Gui.Keeping
import RemoteX11.Client.Setup
import RemoteX11.Gui.ScrollBar
import RemoteX11.Lib.Signed
import RemoteX11.Gui.LogView
import RemoteX11.Lib.Arena
import RemoteX11.Gui.Layout
import RemoteX11.Gui.FixedSizes
import RemoteX11.Lib.Ancestry
import RemoteX11.Audio.Processes
import RemoteX11.Client.Focus
import RemoteX11.Transport.Silence
import RemoteX11.Server.Lifecycle
import RemoteX11.Settings.FrontEnds
import RemoteX11.Client.Health
import RemoteX11.Gui.Sessions
import RemoteX11.Gui.Launcher
import RemoteX11.Gui.Console
import RemoteX11.Gui.SessionTable
import RemoteX11.Stats.Periods
import RemoteX11.Gui.Form
import RemoteX11.Gui.FormScroll
