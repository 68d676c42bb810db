import SwiftVpn.Lib.Machine
import SwiftVpn.Lib.Utf8
import SwiftVpn.Lib.Percent
import SwiftVpn.Lib.Uri
import SwiftVpn.Lib.Base64
import SwiftVpn.Lib.Text
import SwiftVpn.Lib.Json
import SwiftVpn.Lib.JsonLayout
import SwiftVpn.Lib.Uuid
import SwiftVpn.Lib.Sections
import SwiftVpn.Models
import SwiftVpn.VpnEngine
import SwiftVpn.WireGuard.Engine
import SwiftVpn.WireGuard.Commands
import SwiftVpn.WireGuard.Polling
import SwiftVpn.WireGuard.Transitions
import SwiftVpn.WireGuard.Stalls
import SwiftVpn.Router.App
import SwiftVpn.Router.Rows
import SwiftVpn.Router.Isolation
import SwiftVpn.Router.Attempts
import SwiftVpn.Router.Visible
import SwiftVpn.Router.Deferred
import SwiftVpn.Router.Handover
import SwiftVpn.Router.Drivers
import SwiftVpn.Router.Quiet
import SwiftVpn.Router.WgQuiet
import SwiftVpn.Router.XrayQuiet
import SwiftVpn.Router.Calm
import SwiftVpn.Router.Idle
import SwiftVpn.Xray.Service
import SwiftVpn.Xray.Resources
import SwiftVpn.Xray.Commands
import SwiftVpn.Xray.Session
import SwiftVpn.Xray.Stalls
import SwiftVpn.Xray.Remote
import SwiftVpn.Xray.Tester
import SwiftVpn.Xray.ShareLink
import SwiftVpn.Xray.Config
import SwiftVpn.Xray.RoundTrip
import SwiftVpn.Xray.Credentials
import SwiftVpn.Xray.Transport
import SwiftVpn.Xray.VMess
import SwiftVpn.Xray.Tags
import SwiftVpn.Xray.Shadowsocks
import SwiftVpn.Xray.UserInfo
import SwiftVpn.Xray.Links
import SwiftVpn.Xray.Store
import SwiftVpn.Xray.Batches
import SwiftVpn.Xray.Ownership
import SwiftVpn.Profiles.Import
import SwiftVpn.Profiles.Saved
import SwiftVpn.Profiles.Restore
import SwiftVpn.Profiles.Archives
import SwiftVpn.WireGuard.Config
import SwiftVpn.WireGuard.Rewrite
import SwiftVpn.WireGuard.Editor
import SwiftVpn.Lib.Bytes
import SwiftVpn.Lib.ChaCha20Poly1305
import SwiftVpn.Lib.Blake2s
import SwiftVpn.Lib.WireGuardHandshake
import SwiftVpn.Probe.Aead
import SwiftVpn.Probe.Blake2s
import SwiftVpn.Probe.WireGuard
import SwiftVpn.Lib.Ikev2
import SwiftVpn.Probe.Ikev2
import SwiftVpn.Probe.OpenVpn
import SwiftVpn.Xray.Editor
import SwiftVpn.Profiles.Files
import SwiftVpn.Profiles.Saves
import SwiftVpn.Xray.Custom
import SwiftVpn.Xray.Endpoints
import SwiftVpn.Xray.ProbeRoutes
import SwiftVpn.WireGuard.Restarts
import SwiftVpn.WireGuard.Samples
import SwiftVpn.Router.Watchdogs
import SwiftVpn.Lib.Calendar
import SwiftVpn.Router.Usage
import SwiftVpn.Xray.Schemes
import SwiftVpn.Xray.TestCores
import SwiftVpn.Xray.Bodies
import SwiftVpn.Profiles.Counted
import SwiftVpn.Profiles.Ikev2Mapping
import SwiftVpn.Profiles.Export
import SwiftVpn.Router.DiagnosticLog
import SwiftVpn.Profiles.Entries
import SwiftVpn.Profiles.Reimport
import SwiftVpn.Profiles.RoundTrip
import SwiftVpn.Profiles.Operations
import SwiftVpn.Screen.MainViewModel
import SwiftVpn.Screen.Stores
import SwiftVpn.Screen.Lists
import SwiftVpn.Screen.Loads
import SwiftVpn.Screen.Coroutines
import SwiftVpn.Router.Recorded
import SwiftVpn.Router.Progress
import SwiftVpn.Xray.SubscriptionList
import SwiftVpn.Lib.KeyValue
import SwiftVpn.WireGuard.HandOver
import SwiftVpn.WireGuard.Statistics
