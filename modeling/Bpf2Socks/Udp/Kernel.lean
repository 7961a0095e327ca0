/-
# Bpf2Socks.Udp.Kernel — what the worker asks of its surroundings.

Everything outside the worker's own records is a question `Sys`: the clock, the allocator, the
shared budget, sockets, epoll, the token map, the relay port registry and the DNS fast path.  A
question is answered by the environment; `okb` is the contract every answer keeps (a new
descriptor is not one already open, no more datagrams are accepted than were offered, and so on).
Nothing else is assumed of an answer.

`IO`-free primitives follow: each asks one question and records the part of the answer that lives
in the kernel's tables or in the ghost history.
-/
import Bpf2Socks.Lib.Prog
import Bpf2Socks.Udp.State

namespace Bpf2Socks.Udp

open Function (update)
open Lib (Prog Act)

/-- What the token map says about a token: the lookup mode that matched, the `CONNECTED_UDP` flag,
and the original destination if its family is known. -/
structure TokenEntry where
  mode : LookupMode
  connected : Bool
  dst : Option DstAddr
  deriving DecidableEq

/-- A relay datagram after `parse_socks5_udp_datagram`. -/
structure RelayDatagram where
  addr : DstAddr
  payload : List UInt8
  error : Option Errno
  deriving DecidableEq

/-- The steps of the DNS fast path the session side runs between its own. -/
inductive DnsStep where
  | expireTransactions (nowMs : Nat)
  | prepareQuery (packet : ClientPacket) (nowMs : Nat)
  | flushOutgoing
  | controlEvent (channel : Fin dnsChannelsPerWorker) (bits : Bits)
  | closeChannel (channel : Fin dnsChannelsPerWorker)
  | expireHandshakes (nowMs : Nat)
  | respond (channel : Fin dnsChannelsPerWorker)

/-- What a DNS step leaves: the channels, and for `prepareQuery` whether it took the packet. -/
structure DnsResult where
  channels : Fin dnsChannelsPerWorker → DnsChannel
  taken : Bool

/-- Questions. -/
inductive Sys where
  | nowMs
  | malloc (bytes : Nat)
  | reserve (bytes : Nat)
  | release (bytes : Nat)
  | budgetUsed
  | budgetWait
  | budgetWakeRead
  | epollAdd (ref : Ref) (mask : Bits)
  | epollModify (ref : Ref) (mask : Bits)
  | replySocket (dst : DstAddr)
  | dup (fd : Nat)
  | sendmmsg (fd : Nat) (count : Nat)
  | sendto (fd : Nat) (bytes : Nat)
  | recvClients (fd : Nat) (count : Nat)
  | recvRelay (fd : Nat) (count : Nat)
  | relaySendmmsg (fd : Nat) (count : Nat)
  | errno
  | retries
  | associateOpen
  | soError (fd : Nat)
  | controlSend (fd : Nat) (bytes : Nat)
  | controlRecv (fd : Nat) (bytes : Nat)
  | controlPeek (fd : Nat)
  | resolve (host : List UInt8) (port : UInt16)
  | relaySocket (addr : Sockaddr)
  | relayConnect (fd : Nat) (addr : Sockaddr)
  | portClaim (port : UInt16)
  | portRelease (port : UInt16)
  | tokenLookup (packet : ClientPacket) (preference : LookupMode) (nowMs : Nat)
  | tokenPublish (addr : List UInt8) (dst : DstAddr)
  | tokenDelete (addr : List UInt8)
  | tokenNotify (packet : ClientPacket)
  | destroyDrain
  | portOpen (port : UInt16)
  | dns (step : DnsStep)
  | dnsDeadline

/-- What each question is answered with. -/
abbrev Sys.Ans : Sys → Type
  | nowMs => Nat
  | malloc _ => Bool
  | reserve _ => Bool
  | release _ => Bool
  | budgetUsed => Nat
  | budgetWait => Unit
  | budgetWakeRead => Unit
  | epollAdd _ _ => Bool
  | epollModify _ _ => Bool
  | replySocket _ => Option (Nat × Bool)
  | dup _ => Option Nat
  | sendmmsg _ _ => Except Errno Nat
  | sendto _ _ => Except Errno Nat
  | recvClients _ _ => Except Errno (List ClientDatagram)
  | recvRelay _ _ => Except Errno (List RelayDatagram)
  | relaySendmmsg _ _ => Except Errno Nat
  | errno => Errno
  | retries => Nat
  | associateOpen => Option (Nat × Bool)
  | soError _ => Bool
  | controlSend _ _ => Except Errno Nat
  | controlRecv _ _ => Except Errno (List UInt8)
  | controlPeek _ => Except Errno Nat
  | resolve _ _ => Option Sockaddr
  | relaySocket _ => Option Nat
  | relayConnect _ _ => Bool
  | portClaim _ => Bool
  | portRelease _ => Unit
  | tokenLookup _ _ _ => Option TokenEntry
  | tokenPublish _ _ => Bool
  | tokenDelete _ => Bool
  | tokenNotify _ => Unit
  | destroyDrain => List UInt16 × Bool
  | portOpen _ => Option Bool
  | dns _ => DnsResult
  | dnsDeadline => Nat

/-- The contract of the answers. -/
def okb (s : State) : (q : Sys) → q.Ans → Bool
  | .nowMs, (r : Nat) => r < UInt64.size
  | .replySocket _, (r : Option (Nat × Bool)) => r.all fun a => (s.kern.fds a.1).isNone
  | .dup fd, (r : Option Nat) => r.all fun a => (s.kern.fds a).isNone && (s.kern.fds fd).isSome
  | .sendmmsg fd count, (r : Except Errno Nat) =>
      match r with
      | .ok n => n ≤ count && (s.kern.fds fd).isSome
      | .error _ => true
  | .sendto fd _, (r : Except Errno Nat) =>
      match r with
      | .ok _ => (s.kern.fds fd).isSome
      | .error _ => true
  | .recvClients _ count, (r : Except Errno (List ClientDatagram)) =>
      match r with
      | .ok l => l.length ≤ count && l.all fun d => d.cmsgs.all fun c => match c with
          | .originalDst dst => validOriginal dst
          | _ => true
      | .error _ => true
  | .recvRelay _ count, (r : Except Errno (List RelayDatagram)) =>
      match r with
      | .ok l => l.length ≤ count && l.all fun d =>
          d.error.isSome || validOriginal d.addr || d.addr.family = .unspec
      | .error _ => true
  | .relaySendmmsg _ count, (r : Except Errno Nat) =>
      match r with
      | .ok n => n ≤ count
      | .error _ => true
  | .controlSend _ bytes, (r : Except Errno Nat) =>
      match r with
      | .ok n => n ≤ bytes
      | .error _ => true
  | .controlRecv _ bytes, (r : Except Errno (List UInt8)) =>
      match r with
      | .ok l => l.length ≤ bytes
      | .error _ => true
  | .tokenLookup _ _ _, (r : Option TokenEntry) => r.all fun e => e.dst.all validOriginal
  | .dns _, (r : DnsResult) =>
      (List.finRange dnsChannelsPerWorker).all fun i =>
        !(r.channels i).relayPaused || ((s.dns i).relayPaused && (r.channels i).udpFd.isSome)
  | _, _ => true

/-- Admissible answers. -/
def ok (s : State) (q : Sys) (r : q.Ans) : Prop := okb s q r = true

/-- Code of the worker. -/
abbrev Worker (α : Type) : Type := Act Sys.Ans State α

namespace Worker

/-- The current state. -/
def get : Worker State := Act.get

/-- Change the state. -/
def modify (f : State → State) : Worker Unit := Act.modify f

/-- Ask the environment. -/
def ask (q : Sys) : Worker q.Ans := Act.ask q

/-- A loop that never returns. -/
def diverge {α : Type} : Worker α := Act.diverge

@[simp] theorem get_run (s : State) : get s = .ret s s := rfl

@[simp] theorem modify_run (f : State → State) (s : State) : modify f s = .ret (f s) () := rfl

@[simp] theorem ask_run (q : Sys) (s : State) : ask q s = .ask s q fun r => .ret s r := rfl

@[simp] theorem diverge_run {α : Type} (s : State) : (diverge : Worker α) s = .diverge := rfl

/-- Count an event. -/
def count (c : Counter) (n : Nat := 1) : Worker Unit := modify fun s => s.count c n

@[simp] theorem count_run (c : Counter) (n : Nat) (s : State) :
    count c n s = .ret (s.count c n) () := rfl

/-- `bpf2socks_now_ms`.  The ghost clock is the latest time read. -/
def nowMs : Worker Nat := do
  let t : Nat ← ask .nowMs
  modify fun s => { s with trace.clock := max s.trace.clock t }
  pure t

/-- `bpf2socks_udp_budget_reserve`: the bytes are in progress until the caller accounts for them. -/
def budgetReserve (bytes : Nat) : Worker Bool := do
  let r : Bool ← ask (.reserve bytes)
  if r then modify fun s => { s with trace.inProgress := s.trace.inProgress + bytes }
  pure r

/-- `bpf2socks_udp_budget_release` of bytes in progress.  On `ERANGE` they stay so. -/
def budgetRelease (bytes : Nat) : Worker Unit := do
  let r : Bool ← ask (.release bytes)
  if r then modify fun s => { s with trace.inProgress := s.trace.inProgress - bytes }

/-- `bpf2socks_udp_epoll_add_events`. -/
def epollAdd (r : Ref) (mask : Bits) : Worker Bool := do
  let added : Bool ← ask (.epollAdd r mask)
  if added then modify fun s => s.register r mask
  pure added

/-- `bpf2socks_udp_epoll_modify`. -/
def epollModify (r : Ref) (mask : Bits) : Worker Bool := do
  let done : Bool ← ask (.epollModify r mask)
  if done then modify fun s => s.register r mask
  pure done

/-- `bpf2socks_udp_reply_socket_create`: a socket bound to the original destination, or, when the
address cannot be bound, a raw one. -/
def replySocketCreate (dst : DstAddr) (owner : FdOwner) : Worker (Option (Nat × Bool)) := do
  if validOriginal dst then
    let r : Option (Nat × Bool) ← ask (.replySocket dst)
    if let some (fd, raw) := r then
      modify fun s =>
        { s with
          kern.fds := update s.kern.fds fd
            (some ⟨⟨s.kern.nextSock, if raw then .raw else .reply dst⟩, owner⟩)
          kern.nextSock := s.kern.nextSock + 1 }
    pure r
  else pure none

/-- `dup` of a reply descriptor for a downlink channel. -/
def dup (fd : Nat) (owner : FdOwner) : Worker (Option Nat) := do
  let r : Option Nat ← ask (.dup fd)
  if let some new := r then
    modify fun s =>
      { s with kern.fds := update s.kern.fds new ((s.kern.fds fd).map fun o => ⟨o.sock, owner⟩) }
  pure r

end Worker

/-! ## What a client sees -/

/-- The token address a reply is sent from: all 16 bytes to an IPv6 client, else the first four. -/
def tokenSource (client : Sockaddr) (b : Binding) : List UInt8 :=
  b.tokenAddr.take (if client.family = .inet6 then 16 else 4)

/-- The source of a plain datagram that leaves through a socket, with or without the packet
information taken from a binding. -/
def plainSource (kind : SockKind) (usePktinfo : Bool) (client : Sockaddr) (b : Binding) : Source :=
  match kind, usePktinfo with
  | .reply dst, _ => .socket dst
  | .listener, true => .token (tokenSource client b) b.originalDst
  | _, _ => .bare

/-- The source of a datagram with its own header. -/
def rawSource (kind : SockKind) (b : Binding) : Source :=
  match kind with
  | .raw => .header b.originalDst
  | _ => .bare

/-- Record that the kernel accepted message `m` of session slot `k` on descriptor `fd`. -/
def State.deliver (s : State) (k fd : Nat) (source : SockKind → Source) (m : Msg) : State :=
  match s.kern.fds fd with
  | some o =>
      { s with trace.delivered :=
          ⟨(s.tbl.core k).uid, o.sock.id, source o.sock.kind, m⟩ :: s.trace.delivered }
  | none => s

/-- Record the plain datagrams `sendmmsg` accepted, in order. -/
def State.deliverBatch (s : State) (k fd : Nat) (usePktinfo : Bool) :
    List (Nat × Msg) → State
  | [] => s
  | (b, m) :: rest =>
      (s.deliver k fd
        (plainSource · usePktinfo (s.tbl.core k).clientAddr (s.bind.core b)) m).deliverBatch
        k fd usePktinfo rest

end Bpf2Socks.Udp
