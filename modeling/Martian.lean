import Martian.Error
import Martian.Fifo.Group
import Martian.Fifo.Immutable
import Martian.Fifo.Snapshot
import Martian.Fifo.Locks
import Martian.Fifo.Verify
import Martian.Fifo.Refine
import Martian.Connmetric.InstrumentedConn
import Martian.Proxy.Basic
import Martian.Proxy.Handle
import Martian.Proxy.Exchange
import Martian.Proxy.Stream
import Martian.Proxy.Invariant
import Martian.Proxy.Deadline
import Martian.Proxy.Announce
import Martian.Proxy.Retries
import Martian.Proxy.Shutdown
import Martian.Proxy.Upgrade
import Martian.Martianlog.Logger
import Martian.Proxy.Connect
import Martian.Proxy.Config
