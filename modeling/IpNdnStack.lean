import IpNdnStack.Framework.Census
import IpNdnStack.Framework.Exchange
import IpNdnStack.Framework.Halves
import IpNdnStack.Framework.Handler
import IpNdnStack.Framework.Logged
import IpNdnStack.Framework.Numbering
import IpNdnStack.Framework.OnesComplement
import IpNdnStack.Framework.Relay
import IpNdnStack.Framework.Run
import IpNdnStack.Framework.Separated
import IpNdnStack.Framework.Stdio
import IpNdnStack.Framework.Verdict
import IpNdnStack.Framework.Window
import IpNdnStack.Impl.Tuple
import IpNdnStack.Impl.Packet
import IpNdnStack.Impl.TupleText
import IpNdnStack.Impl.Libs
import IpNdnStack.Impl.Tables
import IpNdnStack.Impl.NDNHelper
import IpNdnStack.Impl.LibPcapHelper
import IpNdnStack.Impl.RawSocketHelper
import IpNdnStack.Impl.PacketHandlers
import IpNdnStack.Impl.Tunnel
import IpNdnStack.Impl.Node
import IpNdnStack.Impl.Network
import IpNdnStack.Impl.ThreadPool
import IpNdnStack.Proof.Names
import IpNdnStack.Proof.Publisher
import IpNdnStack.Proof.Receiver
import IpNdnStack.Proof.Capture
import IpNdnStack.Proof.Header
import IpNdnStack.Proof.Checksum
import IpNdnStack.Proof.Checks
import IpNdnStack.Proof.Reads
import IpNdnStack.Proof.WellFormed
import IpNdnStack.Proof.Ports
import IpNdnStack.Proof.Fragments
import IpNdnStack.Proof.Accounting
import IpNdnStack.Proof.FirstFailure
import IpNdnStack.Proof.Guess
import IpNdnStack.Proof.GuessTable
import IpNdnStack.Proof.Sequence
import IpNdnStack.Proof.Pending
import IpNdnStack.Proof.Dispatch
import IpNdnStack.Proof.RoundTrip
import IpNdnStack.Proof.PacketHandlers
import IpNdnStack.Proof.Packets
import IpNdnStack.Proof.Tunnel
import IpNdnStack.Proof.TupleText
import IpNdnStack.Proof.Totals
import IpNdnStack.Proof.Node
import IpNdnStack.Proof.CaptureLoop
import IpNdnStack.Proof.Isolation
import IpNdnStack.Proof.Repeats
import IpNdnStack.Proof.Network
import IpNdnStack.Proof.Delivery
import IpNdnStack.Proof.Recovery
import IpNdnStack.Proof.ThreadPool
