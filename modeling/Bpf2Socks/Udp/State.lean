/-
# Bpf2Socks.Udp.State — the state of one UDP worker.

`State` is `struct bpf2socks_udp_state` together with the part of the kernel the worker talks to.
The C record of a session is split by concern, so that code which only moves, say, downlink
packets visibly leaves the session table alone: `SessCore` (what the table is keyed and ordered
by), `Assoc` (the SOCKS5 control connection and the relay socket), `Uplink` (datagrams waiting for
the association) and `Down` (replies waiting for the client).  Slots stand for pointers into the
session and binding arrays.

Singly linked chains that are only pushed, searched and unlinked (free lists, hash chains, a
session's list of bindings, packet queues) are lists.  The doubly linked LRU and handshake lists
are pointers (`Lib.DLists`).

`Trace` is ghost: the code never reads it.  It numbers sessions and datagrams, and records what
was sent where.
-/
import Bpf2Socks.Lib.DList
import Bpf2Socks.Udp.Address

namespace Bpf2Socks.Udp

open Function (update)
open Lib (DLists)

/-- `BPF2SOCKS_DNS_CHANNELS_PER_WORKER`. -/
def dnsChannelsPerWorker : Nat := 2

/-! ## Enumerations -/

/-- The error numbers the worker distinguishes (`EWOULDBLOCK` is `EAGAIN`). -/
inductive Errno where
  | eagain
  | enobufs
  | enomem
  | eintr
  | emsgsize
  | other
  deriving DecidableEq

/-- `enum bpf2socks_udp_session_stage`. -/
inductive Stage where
  | unused
  | connecting
  | assocWrite
  | assocReadHello
  | assocReadResponse
  | ready
  deriving DecidableEq

/-- `enum bpf2socks_token_lookup_mode`. -/
inductive LookupMode where
  | unknown
  | fullClient
  | zeroClient
  deriving DecidableEq

/-- The counters of `worker->udp_stats` that the modelled code updates. -/
inductive Counter where
  | udpPacketsFromClient
  | udpPacketsFromUpstream
  | udpPacketsToClient
  | udpPacketsToUpstream
  | udpCopySends
  | udpSendErrors
  | udpTokenMisses
  | udpDropsOversized
  | udpDropsMalformedSocks5
  | udpDropsPendingBudget
  | udpDropsSendBusy
  | udpSessionHits
  | udpSessionMisses
  | udpSessionEvictions
  | udpAssociateReuses
  | udpAssociateCreates
  | udpAssociateTimeouts
  | udpRelayPortCollisions
  | udpReplyBindingHits
  | udpReplyBindingCreates
  | udpFullconeBindingCreates
  | udpBindingEvictions
  | udpBindingHashLookups
  | udpReleaseEvents
  | udpReleaseEventsLost
  | udpReleaseConfirmQueries
  | udpClosedClientReleases
  deriving DecidableEq

/-! ## Datagrams -/

/-- A relay datagram after `bpf2socks_socks5_udp_recvmmsg` (`struct bpf2socks_udp_msg`).  `seq` is
ghost: the position of the datagram among all the worker has read from relays. -/
structure Msg where
  addr : DstAddr
  payload : List UInt8
  error : Option Errno
  seq : Nat
  deriving DecidableEq

/-- A client datagram on its way to the relay.  `origin` is ghost: the client that sent it. -/
structure UpMsg where
  addr : DstAddr
  payload : List UInt8
  origin : Sockaddr
  deriving DecidableEq

/-- `struct bpf2socks_udp_pending_packet`. -/
structure PendingPacket where
  originalDst : DstAddr
  payload : List UInt8
  allocationBytes : Nat
  deriving DecidableEq

/-- `struct bpf2socks_udp_downlink_packet`: the datagram and the binding slot it answers for. -/
structure DownPacket where
  binding : Nat
  msg : Msg
  allocationBytes : Nat
  deriving DecidableEq

/-- `struct bpf2socks_udp_downlink_channel`; `id` is its address. -/
structure Channel where
  id : Nat
  queue : List DownPacket
  sourceBinding : Option Nat
  fd : Nat
  sourceFd : Nat
  sourceBindingGeneration : Nat
  usePktinfo : Bool
  raw : Bool
  deriving DecidableEq

/-! ## Sessions -/

/-- What the session table is keyed and ordered by.  `uid` is ghost: it tells apart the sessions
that have used a slot one after the other. -/
structure SessCore where
  used : Bool
  stage : Stage
  clientAddr : Sockaddr
  tokenLookupMode : LookupMode
  lastSeenMs : Nat
  handshakeStartedMs : Nat
  handshakeLinked : Bool
  releaseRetryMs : Nat
  uid : Nat
  deriving DecidableEq

/-- A zeroed record. -/
def SessCore.zero : SessCore :=
  { used := false, stage := .unused, clientAddr := ⟨.unspec, []⟩, tokenLookupMode := .unknown,
    lastSeenMs := 0, handshakeStartedMs := 0, handshakeLinked := false, releaseRetryMs := 0,
    uid := 0 }

/-- The control connection, the handshake buffers and the relay socket. -/
structure Assoc where
  tcpFd : Option Nat
  udpFd : Option Nat
  relayAddr : Sockaddr
  relayConnected : Bool
  relayPort : UInt16
  relayPortClaimed : Bool
  associateRetries : Nat
  writeBuf : List UInt8
  writeOffset : Nat
  readBuf : List UInt8
  readExpected : Nat
  deriving DecidableEq

def Assoc.zero : Assoc :=
  { tcpFd := none, udpFd := none, relayAddr := ⟨.unspec, []⟩, relayConnected := false,
    relayPort := 0, relayPortClaimed := false, associateRetries := 0, writeBuf := [],
    writeOffset := 0, readBuf := [], readExpected := 0 }

/-- Client datagrams waiting for the association. -/
structure Uplink where
  pending : List PendingPacket
  pendingCount : Nat
  deriving DecidableEq

def Uplink.zero : Uplink := ⟨[], 0⟩

/-- Replies waiting for the client, and whether the relay socket is paused. -/
structure Down where
  channels : List Channel
  pendingCount : Nat
  paused : Bool
  waitingBudget : Bool
  deriving DecidableEq

def Down.zero : Down := ⟨[], 0, false, false⟩

/-- The session table: slots, free list, hash buckets, LRU, handshake list and counters. -/
structure SessTable where
  cap : Nat
  core : Nat → SessCore
  free : List Nat
  buckets : Nat → List Nat
  lru : DLists Unit Nat
  handshake : DLists Unit Nat
  count : Nat
  localCount : Nat

/-! ## Reply bindings -/

/-- `struct bpf2socks_udp_reply_binding` without its links. -/
structure Binding where
  used : Bool
  originalDst : DstAddr
  tokenAddr : List UInt8
  connectedUdpToken : Bool
  replyFd : Option Nat
  replyRaw : Bool
  replyFdGeneration : Nat
  lastSeenMs : Nat
  downlinkPendingCount : Nat
  owner : Option Nat
  deriving DecidableEq

/-- Sixteen zero bytes: no token. -/
def noToken : List UInt8 := List.replicate 16 0

/-- A zeroed record with `reply_fd = -1`. -/
def Binding.zero : Binding :=
  { used := false, originalDst := ⟨.unspec, 0, []⟩, tokenAddr := noToken,
    connectedUdpToken := false, replyFd := none, replyRaw := false, replyFdGeneration := 0,
    lastSeenMs := 0, downlinkPendingCount := 0, owner := none }

/-- The binding table.  `owned k`, `ownedLru` and `ownedCount k` are the `bindings`,
`binding_lru_head`/`tail` and `binding_count` of session slot `k`. -/
structure BindTable where
  cap : Nat
  core : Nat → Binding
  free : List Nat
  owned : Nat → List Nat
  ownedLru : DLists Nat Nat
  lru : DLists Unit Nat
  index : Nat → List Nat
  bucketCount : Nat
  ownedCount : Nat → Nat
  count : Nat

/-! ## The kernel's side -/

/-- What a datagram socket sends from: a shared listener, a socket bound to an original
destination, or a raw socket whose packets carry their own header. -/
inductive SockKind where
  | listener
  | reply (dst : DstAddr)
  | raw
  deriving DecidableEq

/-- An open socket; descriptors made by `dup` share it. -/
structure Sock where
  id : Nat
  kind : SockKind
  deriving DecidableEq

/-- Ghost: which record holds the descriptor. -/
inductive FdOwner where
  | listener
  | reply (binding : Nat)
  | channel (id : Nat)
  deriving DecidableEq

/-- An entry of the descriptor table. -/
structure OpenFd where
  sock : Sock
  owner : FdOwner
  deriving DecidableEq

/-- The `struct bpf2socks_udp_fd_ref` an epoll registration points to: a listener, one of the two
refs of a session slot, a DNS channel's ref, a downlink channel of a session, or a worker-wide
descriptor. -/
inductive Ref where
  | listener4
  | listener6
  | control (slot : Nat)
  | relay (slot : Nat)
  | dnsControl (channel : Fin dnsChannelsPerWorker)
  | dnsRelay (channel : Fin dnsChannelsPerWorker)
  | downlink (slot : Nat) (channel : Nat)
  | budgetWake
  | destroyEvents
  deriving DecidableEq

/-- Event bits, as an interest mask or as reported. -/
structure Bits where
  inp : Bool
  out : Bool
  err : Bool
  hup : Bool
  rdhup : Bool
  deriving DecidableEq

def Bits.none : Bits := ⟨false, false, false, false, false⟩
def Bits.input : Bits := { Bits.none with inp := true }
def Bits.output : Bits := { Bits.none with out := true }

/-- One element of the array `epoll_wait` fills.  `uid` is ghost: the session that held the ref's
slot when the array was filled. -/
structure Event where
  ref : Ref
  bits : Bits
  uid : Nat
  deriving DecidableEq

/-- Descriptors of datagram sockets, epoll registrations, and counters that keep socket
identities and channel addresses apart. -/
structure Kernel where
  fds : Nat → Option OpenFd
  interest : Ref → Option Bits
  nextSock : Nat
  nextChannel : Nat

/-! ## Ghost records -/

/-- The source a client sees on a reply: the address a reply socket is bound to, the source in a
raw header, the token address a listener sends from together with the original destination of the
binding it was taken from, or nothing meaningful (a bare payload on a raw socket). -/
inductive Source where
  | socket (dst : DstAddr)
  | header (dst : DstAddr)
  | token (addr : List UInt8) (dst : DstAddr)
  | bare
  deriving DecidableEq

/-- A datagram the kernel accepted for a client. -/
structure Delivery where
  uid : Nat
  sock : Nat
  source : Source
  msg : Msg
  deriving DecidableEq

/-- Why a reply was counted as dropped. -/
inductive DropReason where
  | unusable
  | noDomainBinding
  | noBinding
  | oversizedRaw
  deriving DecidableEq

/-- One call of `bpf2socks_udp_relay_send_batch` from the client handler: the slot it was made on,
the session found there, the datagrams handed over and whether the session was dropped for it. -/
structure RelaySend where
  slot : Nat
  session : SessCore
  messages : List UpMsg
  failed : Bool
  deriving DecidableEq

/-- Ghost history.  Sessions are numbered from one. -/
structure Trace where
  nextUid : Nat
  nextSeq : Nat
  clock : Nat
  inProgress : Nat
  read : List (Nat × Msg)
  delivered : List Delivery
  dropped : List (Nat × Msg × DropReason)
  relaySends : List RelaySend

/-! ## The worker -/

/-- What of a DNS channel the session side can see. -/
structure DnsChannel where
  udpFd : Option Nat
  available : Bool
  relayPaused : Bool
  deriving DecidableEq

/-- `BPF2SOCKS_UDP_BUFFER_SIZE`. -/
def udpBufferSize : Nat := 65535

/-- `BPF2SOCKS_UDP_MAX_BATCH`. -/
def udpMaxBatch : Nat := 64

/-- `sizeof(struct bpf2socks_udp_downlink_packet)` on a 64-bit machine. -/
def downlinkPacketSize : Nat := 32

/-- `bpf2socks_udp_downlink_max_allocation`. -/
def downlinkMaxAllocation : Nat := downlinkPacketSize + udpBufferSize

/-- Constants of a worker: capacities, limits, listeners and the SOCKS5 server.  `budgetCap` is
the `cap_bytes` of the shared budget.  The proofs are what `init_state` checks or establishes
before the loop is entered, and that the two listeners are two descriptors. -/
structure WorkerConfig where
  sessionCap : Nat
  bindingCap : Nat
  batchSize : Nat
  budgetCap : Nat
  idleTimeoutMs : Nat
  connectTimeoutMs : Nat
  listener4 : Nat
  listener6 : Option Nat
  enableDnsHijack : Bool
  socksAddr : Sockaddr
  sessionCap_pos : 0 < sessionCap
  bindingCap_pos : 0 < bindingCap
  batchSize_le : batchSize ≤ udpMaxBatch
  budgetCap_ge : downlinkMaxAllocation ≤ budgetCap
  listeners_ne : listener6 ≠ some listener4

/-- `refs.control`/`refs.relay` of a slot: whether its `session` pointer is set. -/
structure SessRefs where
  control : Bool
  relay : Bool
  deriving DecidableEq

/-- Release of local sessions whose client socket is gone. -/
structure Release where
  releasedPorts : UInt16 → Bool
  retryDueMs : Nat
  portDestroyedMs : UInt16 → Nat
  checkNewSessionsUntilMs : Nat
  armed : Bool

/-! ## Locals of the two batch handlers -/

/-- A control message of a received client datagram: the token address it was sent to, or the
original destination the socket still knew. -/
inductive Cmsg where
  | pktinfo4 (addr : List UInt8)
  | pktinfo6 (addr : List UInt8)
  | originalDst (dst : DstAddr)
  deriving DecidableEq

/-- A client datagram as `recvmmsg` returned it. -/
structure ClientDatagram where
  addr : Sockaddr
  payload : List UInt8
  truncated : Bool
  cmsgs : List Cmsg
  deriving DecidableEq

/-- `struct bpf2socks_udp_client_packet`. -/
structure ClientPacket where
  clientAddr : Sockaddr
  tokenFamily : Family
  tokenAddr : List UInt8
  hasOriginalDst : Bool
  originalFromSocket : Bool
  connectedUdpToken : Bool
  tokenLookupMode : LookupMode
  originalDst : DstAddr
  payload : List UInt8
  deriving DecidableEq

/-- `outgoing_sessions[i]` and `outgoing_messages[i]`.  `uid` is ghost: the session that was in
the slot when the entry was made. -/
structure Outgoing where
  slot : Nat
  msg : UpMsg
  uid : Nat
  deriving DecidableEq

/-- `struct bpf2socks_udp_downlink_batch`.  The entries are those not yet sent or queued. -/
structure Batch where
  fd : Option Nat
  usePktinfo : Bool
  session : Option Nat
  entries : List (Nat × Msg)
  deriving DecidableEq

/-- `bpf2socks_udp_downlink_batch_init`. -/
def Batch.init : Batch := ⟨none, false, none, []⟩

/-- Locals of the running handler: of `handle_udp_client_packets` its clock, the datagrams still
to look at and the outgoing arrays; of `handle_udp_upstream_packets` its session, the messages
from the current one on and the downlink batch. -/
structure Frame where
  nowMs : Nat
  incoming : List ClientDatagram
  outgoing : List Outgoing
  session : Nat
  messages : List Msg
  batch : Batch
  deriving DecidableEq

def Frame.init : Frame := ⟨0, [], [], 0, [], .init⟩

/-- `BPF2SOCKS_NO_DEADLINE`. -/
def noDeadline : Nat := UInt64.size - 1

/-- `struct bpf2socks_udp_state`, with the kernel and the ghost history. -/
structure State where
  cfg : WorkerConfig
  tbl : SessTable
  assoc : Nat → Assoc
  up : Nat → Uplink
  down : Nat → Down
  waiters : Nat
  retiring : List DownPacket
  retired : List Nat
  bind : BindTable
  refs : Nat → SessRefs
  dns : Fin dnsChannelsPerWorker → DnsChannel
  readReservation : Nat
  rel : Release
  stats : Counter → Nat
  nextDeadlineMs : Nat
  events : List Event
  frame : Frame
  kern : Kernel
  trace : Trace

/-- The smallest power of two that is at least `n` (`bpf2socks_udp_binding_index_init`). -/
def indexBuckets (n : Nat) : Nat := go n 1 n
where
  go (capacity : Nat) : Nat → Nat → Nat
    | b, 0 => b
    | b, fuel + 1 => if b < capacity then go capacity (b * 2) fuel else b

/-- `init_state`, and the registrations `bpf2socks_bridge_udp_run` makes before its loop. -/
def initState (cfg : WorkerConfig) : State :=
  { cfg
    tbl :=
      { cap := cfg.sessionCap, core := fun _ => .zero
        free := (List.range cfg.sessionCap).reverse
        buckets := fun _ => [], lru := .empty, handshake := .empty, count := 0, localCount := 0 }
    assoc := fun _ => .zero
    up := fun _ => .zero
    down := fun _ => .zero
    waiters := 0
    retiring := []
    retired := []
    bind :=
      { cap := cfg.bindingCap, core := fun _ => .zero
        free := (List.range cfg.bindingCap).reverse
        owned := fun _ => [], ownedLru := .empty, lru := .empty, index := fun _ => []
        bucketCount := indexBuckets cfg.bindingCap, ownedCount := fun _ => 0, count := 0 }
    refs := fun _ => ⟨false, false⟩
    dns := fun _ => ⟨none, false, false⟩
    readReservation := 0
    rel := { releasedPorts := fun _ => false, retryDueMs := noDeadline
             portDestroyedMs := fun _ => 0, checkNewSessionsUntilMs := 0, armed := true }
    stats := fun _ => 0
    nextDeadlineMs := noDeadline
    events := []
    frame := .init
    kern :=
      { fds := fun fd =>
          if fd = cfg.listener4 then some ⟨⟨0, .listener⟩, .listener⟩
          else if cfg.listener6 = some fd then some ⟨⟨1, .listener⟩, .listener⟩
          else none
        interest := fun r => match r with
          | .listener4 => some .input
          | .listener6 => if cfg.listener6.isSome then some .input else none
          | .budgetWake => some .input
          | .destroyEvents => some .input
          | _ => none
        nextSock := 2, nextChannel := 0 }
    trace := { nextUid := 1, nextSeq := 0, clock := 0, inProgress := 0, read := [],
               delivered := [], dropped := [], relaySends := [] } }

/-! ## Field updates -/

namespace State

def modCore (s : State) (k : Nat) (f : SessCore → SessCore) : State :=
  { s with tbl.core := update s.tbl.core k (f (s.tbl.core k)) }

def modAssoc (s : State) (k : Nat) (f : Assoc → Assoc) : State :=
  { s with assoc := update s.assoc k (f (s.assoc k)) }

def modUp (s : State) (k : Nat) (f : Uplink → Uplink) : State :=
  { s with up := update s.up k (f (s.up k)) }

def modDown (s : State) (k : Nat) (f : Down → Down) : State :=
  { s with down := update s.down k (f (s.down k)) }

def modBinding (s : State) (b : Nat) (f : Binding → Binding) : State :=
  { s with bind.core := update s.bind.core b (f (s.bind.core b)) }

def count (s : State) (c : Counter) (n : Nat := 1) : State :=
  { s with stats := update s.stats c (s.stats c + n) }

/-- `close` on a datagram socket's descriptor. -/
def closeFd (s : State) (fd : Option Nat) : State :=
  match fd with
  | some fd => { s with kern.fds := update s.kern.fds fd none }
  | none => s

/-- `bpf2socks_udp_epoll_remove` on the descriptor registered under `r`. -/
def epollRemove (s : State) (r : Ref) : State :=
  { s with kern.interest := update s.kern.interest r none }

def register (s : State) (r : Ref) (b : Bits) : State :=
  { s with kern.interest := update s.kern.interest r (some b) }

end State

/-- Unsigned 64-bit subtraction of two clock values. -/
def subMs (a b : Nat) : Nat := if b ≤ a then a - b else UInt64.size - (b - a)

end Bpf2Socks.Udp
