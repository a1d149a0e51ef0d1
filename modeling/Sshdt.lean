import Sshdt.Lib.Machine
import Sshdt.Lib.FileLock
import Sshdt.Lib.NamedEvents
import Sshdt.Lib.Watch
import Sshdt.Lib.Interleave
import Sshdt.Lib.Frame
import Sshdt.Lib.Bindings
import Sshdt.Lib.Table
import Sshdt.Lib.Retention
import Sshdt.Lib.Text
import Sshdt.Lib.Ascii
import Sshdt.Lib.Numeral
import Sshdt.Lib.Occurs
import Sshdt.Lib.Json
import Sshdt.Lib.Script
import Sshdt.Lib.CrashLogic
import Sshdt.Lib.Net
import Sshdt.Lib.NetDisplay
import Sshdt.Lib.NetLiterals
import Sshdt.Lib.Path
import Sshdt.Lib.OsPath
import Sshdt.Lib.FileSystem
import Sshdt.Lib.SystemCalls
import Sshdt.Lib.FileFrame
import Sshdt.Lib.Positional
import Sshdt.Lib.OpenFiles
import Sshdt.Lib.Cursor
import Sshdt.Lib.Segments
import Sshdt.Lib.Pump
import Sshdt.Lib.Duplex
import Sshdt.Lib.Processes
import Sshdt.Lib.ChunkRelay
import Sshdt.Lib.Timespec
import Sshdt.Config.Basic
import Sshdt.Config.TunnelId
import Sshdt.Config.SshdConfig
import Sshdt.Config.Durations
import Sshdt.Config.ListenAddress
import Sshdt.Config.Meaning
import Sshdt.Config.Layout
import Sshdt.Config.Build
import Sshdt.Service.SavedArgs
import Sshdt.Service.Registry
import Sshdt.Service.StopEvent
import Sshdt.DevTunnel.Lease
import Sshdt.DevTunnel.Backoff
import Sshdt.DevTunnel.Relays
import Sshdt.DevTunnel.Network
import Sshdt.Server.Auth
import Sshdt.Server.Session
import Sshdt.Server.Quoting
import Sshdt.Server.Builder
import Sshdt.Server.Forward
import Sshdt.Server.Handler
import Sshdt.Server.AcceptLoop
import Sshdt.Server.Channel
import Sshdt.Server.Pipes
import Sshdt.Server.Pty
import Sshdt.Server.Tcpip
import Sshdt.Server.Terminal
import Sshdt.Server.Env
import Sshdt.Sftp.Session
import Sshdt.Sftp.Jail
import Sshdt.Sftp.Handles
import Sshdt.Sftp.Listing
import Sshdt.Sftp.Realpath
import Sshdt.Sftp.FileIo
import Sshdt.DevTunnel.Connector
import Sshdt.DevTunnel.Broker
import Sshdt.DevTunnel.LifeCycle
import Sshdt.DevTunnel.Serve
import Sshdt.DevTunnel.Watching
import Sshdt.DevTunnel.Gate
import Sshdt.DevTunnel.Rendezvous
import Sshdt.DevTunnel.TunnelFiles
import Sshdt.DevTunnel.Stdio
import Sshdt.DevTunnel.EndToEnd
import Sshdt.DevTunnel.Host
import Sshdt.DevTunnel.Process
import Sshdt.DevTunnel.Drain
import Sshdt.DevTunnel.Guardian
import Sshdt.DevTunnel.Banner
import Sshdt.DevTunnel.Ipc
import Sshdt.DevTunnel.Deadline
import Sshdt.DevTunnel.Logs
import Sshdt.DevTunnel.Hosting
import Sshdt.DevTunnel.Hosts
import Sshdt.DevTunnel.HostRuns
import Sshdt.DevTunnel.LogFiles
import Sshdt.DevTunnel.Follow
