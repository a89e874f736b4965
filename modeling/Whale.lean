import Whale.Lib.OrdMap
import Whale.Lib.Check
import Whale.Lib.Run
import Whale.Store.Proof.Configuration
import Whale.Store.Writers
import Whale.Store.Proof.ExactlyOnce
import Whale.Store.Proof.Unrefused
import Whale.Store.Proof.Tombstone
import Whale.Core.Proof.Dispatch
import Whale.Core.Proof.Replay
import Whale.Core.Proof.Journaled
import Whale.Daemon.Management
import Whale.Daemon.Proof.Publication
import Whale.Lib.Numbered
import Whale.Daemon.Proof.Client
import Whale.Daemon.Proof.Completeness
import Whale.Lib.KeyMap
import Whale.Daemon.Proof.Settlement
import Whale.Daemon.Proof.FirstResponse
import Whale.Daemon.Proof.PendingSet
import Whale.Daemon.Proof.Lifecycle
import Whale.Protocol.Proof.Interactions
import Whale.Daemon.Proof.Metadata
import Whale.Store.Proof.Backends
import Whale.Sdk.Proof.Closing
import Whale.Daemon.Proof.Cancellation
import Whale.Store.Proof.Acknowledged
import Whale.Core.Proof.Usage
import Whale.Store.Proof.Sweep
import Whale.Store.Proof.Migration
import Whale.Core.Proof.Fallback
import Whale.Core.Proof.Grammar
import Whale.Daemon.Proof.Approvals
import Whale.Adapters.Proof.Arguments
import Whale.Adapters.Proof.Capabilities
import Whale.Core.Proof.Admission
import Whale.Daemon.Proof.Watermark
import Whale.Daemon.Proof.Catalog
import Whale.Daemon.Proof.Listing
import Whale.Daemon.Proof.Paging
import Whale.Daemon.Proof.Registration
import Whale.Daemon.Proof.Retirement
import Whale.Sdk.Proof.RunState
import Whale.Daemon.Proof.Cursors
import Whale.Daemon.Notifier
import Whale.Sdk.Proof.Tools
import Whale.Daemon.Proof.Initialization
import Whale.Daemon.Proof.Transport
import Whale.Protocol.Proof.Rpc
import Whale.Sdk.Proof.Requests
import Whale.Daemon.Proof.HostCalls
import Whale.Daemon.Proof.Notifier
