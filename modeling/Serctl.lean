import Serctl.Lib.Guard
import Serctl.Lib.Text
import Serctl.Policy.Schema
import Serctl.Policy.Normalize
import Serctl.Policy.Compile
import Serctl.Policy.Evaluate
import Serctl.Lib.Act
import Serctl.Lib.Pool
import Serctl.Xfer.Fs
import Serctl.Xfer.Push
import Serctl.Xfer.PushInvariant
import Serctl.Xfer.PushRules
import Serctl.Xfer.PushStages
import Serctl.Xfer.PushStream
import Serctl.Xfer.PushSafety
import Serctl.Audit.Record
import Serctl.Audit.Ledger
import Serctl.Audit.LogSpec
import Serctl.Audit.LedgerSteps
import Serctl.Audit.Json
import Serctl.Audit.LedgerSafety
import Serctl.Audit.Journal
import Serctl.Lib.Task
import Serctl.Ipc.Frame
import Serctl.Ipc.Grant
import Serctl.Daemon.Audit
import Serctl.Daemon.Conn
import Serctl.Daemon.ConnInvariant
import Serctl.Daemon.ConnRules
import Serctl.Daemon.ConnOutcome
import Serctl.Daemon.ConnSafety
import Serctl.Daemon.GrantSafety
import Serctl.Lib.Wire
import Serctl.Remote.Frame
import Serctl.Remote.Codec
import Serctl.Policy.Compare
import Serctl.Lib.Json
import Serctl.Policy.Canonical
import Serctl.Remote.Jobs
import Serctl.Remote.Prepare
import Serctl.Remote.Session
import Serctl.Remote.Helper
import Serctl.Remote.HelperRules
import Serctl.Remote.HelperReceipts
import Serctl.Remote.HelperTraces
import Serctl.Remote.Journal
import Serctl.Lib.Input
import Serctl.Transfer.Protocol
import Serctl.Transfer.Roundtrip
import Serctl.Xfer.PushFrame
import Serctl.Xfer.PushOutcome
import Serctl.Xfer.PushResidue
import Serctl.Daemon.Quarantine
import Serctl.Daemon.Registry
import Serctl.Daemon.HelperIdentity
import Serctl.Lib.Source
import Serctl.Remote.Stream
import Serctl.Audit.Pairing
import Serctl.Daemon.GrantLife
import Serctl.Remote.SessionRuns
import Serctl.Lib.Shelf
import Serctl.Daemon.RegistryRuns
import Serctl.Daemon.Tunnels
import Serctl.Daemon.TunnelRuns
import Serctl.Audit.Outcome
import Serctl.Daemon.Timely
import Serctl.Daemon.TimelyRuns
import Serctl.Ipc.Prelude
import Serctl.Vault.RuntimeLock
import Serctl.Cli.TerminalText
import Serctl.Ipc.Seal
import Serctl.Remote.Rejection
