import Bpf2Socks.Lib.Prog
import Bpf2Socks.Lib.Stream
import Bpf2Socks.Lib.DList
import Bpf2Socks.Udp.Address
import Bpf2Socks.Udp.State
import Bpf2Socks.Udp.Kernel
import Bpf2Socks.Udp.Binding
import Bpf2Socks.Udp.Downlink
import Bpf2Socks.Udp.Session
import Bpf2Socks.Udp.Release
import Bpf2Socks.Udp.Associate
import Bpf2Socks.Udp.Worker
import Bpf2Socks.Udp.Play
import Bpf2Socks.Udp.Quiet
import Bpf2Socks.Udp.SessionTable
import Bpf2Socks.Udp.BindTable
import Bpf2Socks.Udp.Within
import Bpf2Socks.Udp.Drop
import Bpf2Socks.Udp.Sessions
import Bpf2Socks.Udp.Lifecycle
import Bpf2Socks.Udp.Opening
import Bpf2Socks.Udp.Steps
import Bpf2Socks.Udp.SessionRuns
import Bpf2Socks.Udp.UplinkIsolation
import Bpf2Socks.Udp.StaleEvents
import Bpf2Socks.Udp.Closing
import Bpf2Socks.Dns.Table
import Bpf2Socks.Dns.Packet
import Bpf2Socks.Dns.State
import Bpf2Socks.Dns.Channel
import Bpf2Socks.Dns.Query
import Bpf2Socks.Dns.Steady
import Bpf2Socks.Dns.Answers
import Bpf2Socks.Dns.Overdue
import Bpf2Socks.Dns.Question
import Bpf2Socks.Dns.Responses
import Bpf2Socks.Dns.Oversized
import Bpf2Socks.Dns.Reply
import Bpf2Socks.Udp.AssociateRead
import Bpf2Socks.Dns.Handshake
import Bpf2Socks.Tcp.Connection
import Bpf2Socks.Tcp.Handshake
import Bpf2Socks.Tcp.Relay
import Bpf2Socks.Tcp.Worker
import Bpf2Socks.Tcp.Sound
import Bpf2Socks.Tcp.Local
import Bpf2Socks.Tcp.Ending
import Bpf2Socks.Tcp.Splicing
import Bpf2Socks.Tcp.Shaking
import Bpf2Socks.Tcp.Events
import Bpf2Socks.Lib.Lpm
import Bpf2Socks.Tc.Packet
import Bpf2Socks.Tc.State
import Bpf2Socks.Tc.Redirect
import Bpf2Socks.Tc.Tokens
import Bpf2Socks.Tc.Inverse
import Bpf2Socks.Tc.Answer
import Bpf2Socks.Tc.Eviction
import Bpf2Socks.Tc.Kinds
import Bpf2Socks.Tc.Readmission
import Bpf2Socks.Tc.Fragments
import Bpf2Socks.Tc.Transparent
import Bpf2Socks.Token.Machine
import Bpf2Socks.Token.Bridge
import Bpf2Socks.Token.Ownership
import Bpf2Socks.Token.Cache
import Bpf2Socks.Hooks.Reversible
import Bpf2Socks.Hooks.Starts
import Bpf2Socks.Release.Covered
import Bpf2Socks.Lib.Asm
import Bpf2Socks.Lib.Link
import Bpf2Socks.Lib.Cost
import Bpf2Socks.Lib.Watch
import Bpf2Socks.Cgroup.Machine
import Bpf2Socks.Cgroup.Program
import Bpf2Socks.Cgroup.Steps
import Bpf2Socks.Cgroup.Verdict
import Bpf2Socks.Cgroup.Linking
import Bpf2Socks.Cgroup.Blocks
import Bpf2Socks.Cgroup.BypassList
import Bpf2Socks.Cgroup.Destinations
import Bpf2Socks.Cgroup.Peers
import Bpf2Socks.Instance.Machine
import Bpf2Socks.Instance.Exclusion
import Bpf2Socks.Interfaces.Policy
import Bpf2Socks.Interfaces.Sync
import Bpf2Socks.Networks.Defaults
import Bpf2Socks.Tcp.Deadlines
import Bpf2Socks.Tcp.Listeners
import Bpf2Socks.Udp.IdleSessions
import Bpf2Socks.Udp.Released
import Bpf2Socks.Udp.Deadlines
import Bpf2Socks.Udp.Datagram
import Bpf2Socks.Udp.RawReply
import Bpf2Socks.Lib.Text
import Bpf2Socks.Lib.OnesComplement
import Bpf2Socks.Lib.Chain
import Bpf2Socks.Udp.Uplink
import Bpf2Socks.Udp.Serving
import Bpf2Socks.Udp.Ledger
import Bpf2Socks.Udp.Accounts
import Bpf2Socks.Udp.Making
import Bpf2Socks.Udp.Delivering
import Bpf2Socks.Udp.Bookkeeping
import Bpf2Socks.Udp.BindingRuns
import Bpf2Socks.Udp.DomainReplies
import Bpf2Socks.Policy.Cidr
import Bpf2Socks.Policy.Files
import Bpf2Socks.Lib.Share
import Bpf2Socks.Limits.Capacity
import Bpf2Socks.Lib.Counter
import Bpf2Socks.Udp.Budget
import Bpf2Socks.Udp.Wakeups
import Bpf2Socks.Tcp.Replies
import Bpf2Socks.Tcp.Admission
import Bpf2Socks.Tcp.Verdicts
import Bpf2Socks.Tcp.Integrity
import Bpf2Socks.Tc.Checksums
import Bpf2Socks.Tc.Intact
import Bpf2Socks.Cgroup.Connect4
import Bpf2Socks.Cgroup.Reverse4
