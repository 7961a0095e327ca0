/-
# Bpf2Socks.Dns.State — the DNS fast path of a worker: its records and its surroundings.

The fast path owns two channels to the SOCKS5 server, the transaction table, and two raw reply
sockets.  Everything else it depends on is a question `Sys`, as on the session side: the clock,
the control and relay sockets, epoll, the relay port registry, the resolver.  No contract is
assumed of the answers beyond what a result is indexed by.

The ghost part numbers the queries.  It remembers for each slot which query was put there last,
what was forwarded to a client and what a flush did with the slots it was handed.
-/
import Bpf2Socks.Lib.Prog
import Bpf2Socks.Dns.Packet
import Bpf2Socks.Dns.Table
import Bpf2Socks.Udp.Kernel

namespace Bpf2Socks.Dns

open Function (update)
open Lib (Prog Act)
open Udp (Family Sockaddr DstAddr Errno Bits ClientPacket RelayDatagram LookupMode)

/-- `BPF2SOCKS_DNS_CHANNELS_PER_WORKER`. -/
def channelsPerWorker : UInt32 := 2

/-- `BPF2SOCKS_DNS_MAX_TRANSACTIONS_PER_WORKER`. -/
def maxTransactionsPerWorker : Nat := 8192

/-- `BPF2SOCKS_DNS_CHANNEL_REBUILD_DELAY_MILLISECONDS`. -/
def channelRebuildDelayMs : Nat := 1000

/-- `BPF2SOCKS_DNS_MAX_EXPIRE_PER_LOOP`. -/
def maxExpirePerLoop : Nat := 64

/-- `BPF2SOCKS_DNS_HANDSHAKE_TIMEOUT_MILLISECONDS`. -/
def handshakeTimeoutMs : Nat := 10000

/-- The size of a channel's `write_buf`. -/
def channelWriteCap : Nat := 4 + 16 + 2

/-- The size of a channel's `read_buf`. -/
def channelReadCap : Nat := 4 + 1 + 255 + 2

/-- `enum bpf2socks_udp_dns_stage`. -/
inductive Stage where
  | idle
  | connecting
  | helloWrite
  | helloRead
  | assocWrite
  | assocRead
  | ready
  deriving DecidableEq

/-- `struct bpf2socks_udp_dns_channel`, less its index and its two epoll refs.  The buffers hold
their first `write_len` and `read_len` bytes. -/
structure Channel where
  tcpFd : Option Nat
  udpFd : Option Nat
  available : Bool
  stage : Stage
  stageStartedMs : Nat
  nextRebuildMs : Nat
  writeBuf : List UInt8
  writeOffset : Nat
  readBuf : List UInt8
  relayPort : UInt16
  relayPortClaimed : Bool
  relayPaused : Bool
  relayAddr : Sockaddr
  relayConnected : Bool
  deriving DecidableEq

/-- A channel that was never opened. -/
def Channel.zero : Channel :=
  { tcpFd := none, udpFd := none, available := false, stage := .idle, stageStartedMs := 0
    nextRebuildMs := 0, writeBuf := [], writeOffset := 0, readBuf := [], relayPort := 0
    relayPortClaimed := false, relayPaused := false, relayAddr := ⟨.unspec, []⟩
    relayConnected := false }

/-- What the fast path reads of the configuration.  `batchSize` is bounded by the stack arrays. -/
structure Config where
  enableDnsHijack : Bool
  socksAddr : Sockaddr
  transactionTimeoutMs : Nat
  batchSize : Nat
  listener4 : Nat
  listener6 : Option Nat
  batchSize_le : batchSize ≤ Udp.udpMaxBatch

/-- A message for the relay: `struct bpf2socks_udp_msg`. -/
structure Msg where
  addr : DstAddr
  payload : List UInt8
  deriving DecidableEq

/-- `dns_transactions[i]`, `dns_channel_indices[i]` and `dns_messages[i]`.  `uid` is ghost: the
query the entry was made for. -/
structure Entry where
  slot : Nat
  channel : UInt32
  msg : Msg
  uid : Nat
  deriving DecidableEq

/-- Ghost: a query taken into the table. -/
structure Query where
  client : Sockaddr
  id : UInt16
  fingerprint : UInt32
  deriving DecidableEq

/-- Ghost: a response forwarded to a client.  `arrived` is the payload as it came in on `channel`,
`tx` the transaction the lookup found and `uid` the query in its slot. -/
structure Answer where
  uid : Nat
  client : Sockaddr
  payload : List UInt8
  channel : UInt32
  arrived : List UInt8
  tx : Transaction
  deriving DecidableEq

/-- Ghost: what a flush did with an entry. -/
inductive Deed where
  | sent
  | released
  deriving DecidableEq

/-- Ghost: a deed of a flush, with the query the entry was made for and what its slot held. -/
structure Flushed where
  deed : Deed
  entry : Entry
  found : Transaction
  foundUid : Nat
  deriving DecidableEq

/-- Ghost history.  `queries` are numbered by `uid`, `owner` is the query last put in a slot.
`replies` and `relayed` are the datagrams the kernel took for clients and for the relays, latest
first. -/
structure Trace where
  queries : List Query
  owner : Nat → Nat
  answers : List Answer
  flushed : List Flushed
  replies : List (Sockaddr × List UInt8)
  relayed : List Msg

/-- The fast path of one worker. -/
structure State where
  cfg : Config
  table : Table
  channels : UInt32 → Channel
  nextDnsChannel : UInt32
  raw4Fd : Option Nat
  raw6Fd : Option Nat
  trace : Trace

/-- `init_state`, the DNS part. -/
def initState (cfg : Config) : Option State :=
  (Table.init channelsPerWorker maxTransactionsPerWorker true).map fun table =>
    { cfg, table, channels := fun _ => .zero, nextDnsChannel := 0, raw4Fd := none, raw6Fd := none
      trace := { queries := [], owner := fun _ => 0, answers := [], flushed := [], replies := []
                 relayed := [] } }

/-! ## Questions -/

/-- What the fast path asks of its surroundings. -/
inductive Sys where
  | nowMs
  | retries
  | connect
  | epollAdd (fd : Nat) (mask : Bits)
  | epollModify (fd : Nat) (mask : Bits)
  | soError (fd : Nat)
  | controlSend (fd : Nat) (bytes : Nat)
  | controlRecv (fd : Nat) (bytes : Nat)
  | controlPeek (fd : Nat)
  | resolve (host : List UInt8) (port : UInt16)
  | relaySocket (addr : Sockaddr)
  | relayConnect (fd : Nat) (addr : Sockaddr)
  | portClaim (port : UInt16)
  | portRelease (port : UInt16)
  | relaySendmmsg (fd : Nat) (messages : List Msg)
  | reserveSlots (batch : Nat)
  | releaseReservation
  | relayRecv (fd : Nat) (count : Nat)
  | rawReplySocket (family : Family)
  | replySocket (dst : DstAddr)
  | rawSend (fd : Nat) (client : Sockaddr) (dst : DstAddr) (payload : List UInt8)
  | plainSend (fd : Nat) (client : Sockaddr) (payload : List UInt8)
  | recvClients

/-- What each question is answered with. -/
abbrev Sys.Ans : Sys → Type
  | nowMs => Nat
  | retries => Nat
  | connect => Option Nat
  | epollAdd _ _ => Bool
  | epollModify _ _ => Bool
  | soError _ => Bool
  | controlSend _ _ => Except Errno Nat
  | controlRecv _ _ => Except Errno (List UInt8)
  | controlPeek _ => Except Errno Nat
  | resolve _ _ => Option Sockaddr
  | relaySocket _ => Option Nat
  | relayConnect _ _ => Bool
  | portClaim _ => Bool
  | portRelease _ => Unit
  | relaySendmmsg _ _ => Except Errno Nat
  | reserveSlots _ => Option Nat
  | releaseReservation => Unit
  | relayRecv _ _ => Except Errno (List RelayDatagram)
  | rawReplySocket _ => Option Nat
  | replySocket _ => Option (Nat × Bool)
  | rawSend _ _ _ _ => Except Errno Unit
  | plainSend _ _ _ => Except Errno Nat
  | recvClients => List ClientPacket

/-- What the kernel takes is recorded where it is asked. -/
@[simp] def State.heard (s : State) : (q : Sys) → q.Ans → State
  | .rawSend _ client _ payload, .ok _ =>
      { s with trace.replies := (client, payload) :: s.trace.replies }
  | .plainSend _ client payload, .ok (_ + 1) =>
      { s with trace.replies := (client, payload) :: s.trace.replies }
  | .relaySendmmsg _ messages, .ok n =>
      { s with trace.relayed := (messages.take n).reverse ++ s.trace.relayed }
  | _, _ => s

/-- Code of the fast path. -/
abbrev Fast := Act Sys.Ans State

namespace Fast

def get : Fast State := Act.get

/-- Change the state. -/
def modify (f : State → State) : Fast Unit := Act.modify f

/-- Ask the environment. -/
def ask (q : Sys) : Fast q.Ans := do
  let r ← Act.ask q
  Act.modify fun s => s.heard q r
  pure r

/-- A loop that never returns. -/
def diverge {α : Type} : Fast α := Act.diverge

@[simp] theorem get_run (s : State) : get s = .ret s s := rfl

@[simp] theorem modify_run (f : State → State) (s : State) : modify f s = .ret (f s) () := rfl

@[simp] theorem ask_run (q : Sys) (s : State) :
    ask q s = .ask s q fun r => .ret (s.heard q r) r := rfl

@[simp] theorem diverge_run {α : Type} (s : State) : (diverge : Fast α) s = .diverge := rfl

end Fast

/-- Change one channel. -/
def State.modChannel (s : State) (c : UInt32) (f : Channel → Channel) : State :=
  { s with channels := update s.channels c (f (s.channels c)) }

@[simp] theorem State.modChannel_table (s : State) (c : UInt32) (f : Channel → Channel) :
    (s.modChannel c f).table = s.table := rfl

@[simp] theorem State.modChannel_trace (s : State) (c : UInt32) (f : Channel → Channel) :
    (s.modChannel c f).trace = s.trace := rfl

@[simp] theorem State.modChannel_cfg (s : State) (c : UInt32) (f : Channel → Channel) :
    (s.modChannel c f).cfg = s.cfg := rfl

end Bpf2Socks.Dns
