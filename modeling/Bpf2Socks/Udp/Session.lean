/-
# Bpf2Socks.Udp.Session — the session table: lookup, drop, eviction and expiry.

One session per client address.  A used session is in the hash bucket of its address and on the
LRU, and on the handshake list until its association is complete; an unused slot is on the free
list.  `sessionDrop` is the only way out of the table; what it gives back (queued datagrams,
channels, bindings) is given back by `sessionClose`, which the failure paths of opening a session
share.
-/
import Bpf2Socks.Udp.Downlink

namespace Bpf2Socks.Udp

open Function (update)
open Lib (DLists Act)
open Worker

/-! ## The handshake list -/

/-- `bpf2socks_udp_handshake_add_tail`. -/
def SessTable.handshakeAddTail (t : SessTable) (k now : Nat) : SessTable :=
  { t with
    core := update t.core k { t.core k with handshakeStartedMs := now, handshakeLinked := true }
    handshake := t.handshake.addTail () k }

/-- `bpf2socks_udp_handshake_remove`. -/
def SessTable.handshakeRemove (t : SessTable) (k : Nat) : SessTable :=
  if (t.core k).handshakeLinked then
    { t with
      core := update t.core k { t.core k with handshakeLinked := false }
      handshake := t.handshake.remove () k }
  else t

/-! ## Lookup -/

/-- `bpf2socks_udp_session_find`. -/
def SessTable.find (t : SessTable) (addr : Sockaddr) : Option Nat :=
  (t.buckets (sessionBucket addr)).find? fun k =>
    (t.core k).used && sameSockaddr (t.core k).clientAddr addr

/-! ## Uplink datagrams waiting for the association -/

/-- `sizeof(struct bpf2socks_udp_pending_packet)`. -/
def pendingPacketSize : Nat := 56

/-- `alloc_pending_packet`, without the record itself: its bytes are left in progress. -/
def allocPendingPacket (payloadLen : Nat) : Worker (Except Errno Unit) := do
  let bytes := pendingPacketSize + payloadLen
  let reserved ← budgetReserve bytes
  if reserved then
    let allocated : Bool ← ask (.malloc bytes)
    if allocated then pure (.ok ())
    else
      budgetRelease bytes
      pure (.error .enomem)
  else pure (.error .enobufs)

/-- Append an allocated packet. -/
def pushPending (s : State) (k : Nat) (dst : DstAddr) (payload : List UInt8) : State :=
  let bytes := pendingPacketSize + payload.length
  let s := s.modUp k fun u =>
    { pending := u.pending ++ [⟨dst, payload, bytes⟩], pendingCount := u.pendingCount + 1 }
  { s with trace.inProgress := s.trace.inProgress - bytes }

/-- `bpf2socks_udp_session_queue_pending`. -/
def sessionQueuePending (k : Nat) (dst : DstAddr) (payload : List UInt8) (payloadCap : Nat) :
    Worker (Except Errno Unit) := do
  if payload.length > payloadCap then pure (.error .other)
  else
    let r ← allocPendingPacket payload.length
    match r with
    | .error e => pure (.error e)
    | .ok _ =>
        modify fun s => pushPending s k dst payload
        let now ← nowMs
        modify fun s => seenSession s k now
        pure (.ok ())

/-- Take the head packet out; its bytes are in progress. -/
def popPending (s : State) (k : Nat) (p : PendingPacket) (rest : List PendingPacket) : State :=
  let s := s.modUp k fun u => { u with pending := rest }
  { s with trace.inProgress := s.trace.inProgress + p.allocationBytes }

/-- The loop of `release_session_pending_packets`. -/
def releasePendingFrom (k : Nat) : List PendingPacket → Worker Unit
  | [] => pure ()
  | p :: rest => do
      modify fun s => popPending s k p rest
      budgetRelease p.allocationBytes
      releasePendingFrom k rest

/-- `release_session_pending_packets`. -/
def releaseSessionPendingPackets (k : Nat) : Worker Unit := do
  let s ← get
  releasePendingFrom k (s.up k).pending
  modify fun s => s.modUp k fun _ => .zero

/-! ## Closing and dropping -/

/-- Zero a session's record, links included. -/
def clearSession (s : State) (k : Nat) : State :=
  { s with
    tbl := { s.tbl with
      core := update s.tbl.core k .zero
      lru := s.tbl.lru.clearNode k
      handshake := s.tbl.handshake.clearNode k }
    assoc := update s.assoc k .zero
    up := update s.up k .zero
    down := update s.down k .zero
    bind := { s.bind with
      owned := update s.bind.owned k []
      ownedLru := s.bind.ownedLru.clearHead k
      ownedCount := update s.bind.ownedCount k 0 } }

/-- `bpf2socks_udp_session_close`. -/
def sessionClose (k : Nat) : Worker Unit := do
  let s ← get
  if (s.tbl.core k).used then
    if (s.assoc k).relayPortClaimed then
      let _ : Unit ← ask (.portRelease (s.assoc k).relayPort)
    releaseSessionPendingPackets k
    downlinkReleaseSession k
    modify fun s => clearSession (destroyBindings s k) k
  else pure ()

/-- The table part of `bpf2socks_udp_session_drop`: out of the hash, the LRU and the handshake
list, and off the local counter. -/
def SessTable.detach (t : SessTable) (k : Nat) : SessTable :=
  let addr := (t.core k).clientAddr
  let bucket := sessionBucket addr
  let t := { t with
    buckets := update t.buckets bucket ((t.buckets bucket).erase k)
    lru := t.lru.remove () k }
  let t := t.handshakeRemove k
  if sockaddrIsLoopback addr then { t with localCount := t.localCount - 1 } else t

/-- Deregister both descriptors and clear the refs. -/
def clearRefs (s : State) (k : Nat) : State :=
  let s := (s.epollRemove (.control k)).epollRemove (.relay k)
  { s with refs := update s.refs k ⟨false, false⟩ }

/-- Put a slot on the free list. -/
def SessTable.pushFree (t : SessTable) (k : Nat) : SessTable := { t with free := k :: t.free }

/-- `bpf2socks_udp_session_drop`. -/
def sessionDrop (k : Nat) : Worker Unit := do
  let s ← get
  if (s.tbl.core k).used then
    modify fun s => clearRefs s k
    modify fun s => { s with tbl := s.tbl.detach k }
    sessionClose k
    modify fun s => { s with tbl := { s.tbl.pushFree k with count := s.tbl.count - 1 } }
  else pure ()

/-! ## Allocation -/

/-- Neither queued replies nor a wait for the budget hold the session. -/
def droppable (s : State) (k : Nat) : Bool :=
  !((s.down k).pendingCount > 0 || (s.down k).waitingBudget)

/-- One pass of `alloc_session` along the LRU.  The outer `none` is a walk that never ends. -/
def victimFrom (s : State) (readyOnly : Bool) : Nat → Option Nat → Option (Option Nat)
  | 0, _ => none
  | _ + 1, none => some none
  | fuel + 1, some k =>
      if droppable s k && (!readyOnly || (s.tbl.core k).stage = .ready) then some (some k)
      else victimFrom s readyOnly fuel (s.tbl.lru.next k)

/-- The session `alloc_session` evicts: the least recently seen established one, else the least
recently seen one. -/
def evictionVictim (s : State) : Option (Option Nat) :=
  match victimFrom s true (s.tbl.cap + 1) (s.tbl.lru.head ()) with
  | none => none
  | some (some k) => some (some k)
  | some none => victimFrom s false (s.tbl.cap + 1) (s.tbl.lru.head ())

/-- `alloc_session`. -/
def allocSession : Nat → Worker (Option Nat)
  | 0 => diverge
  | fuel + 1 => do
      let s ← get
      match s.tbl.free with
      | k :: rest =>
          modify fun s => { s with tbl := { s.tbl with free := rest } }
          pure (some k)
      | [] =>
          match evictionVictim s with
          | none => diverge
          | some none => pure none
          | some (some k) =>
              sessionDrop k
              count .udpSessionEvictions
              allocSession fuel

/-! ## Control connection health -/

/-- `bpf2socks_udp_control_fd_is_healthy`: nothing to read is the only healthy answer. -/
def controlFdIsHealthy (fd : Nat) : Worker Bool := do
  let r : Except Errno Nat ← ask (.controlPeek fd)
  match r with
  | .ok _ => pure false
  | .error e => pure (e = .eagain || e = .eintr)

/-- `bpf2socks_udp_control_event_is_failure`. -/
def controlEventIsFailure (fd : Nat) (bits : Bits) : Worker Bool := do
  if bits.err || bits.hup || bits.rdhup then pure true
  else if bits.inp then
    let healthy ← controlFdIsHealthy fd
    pure !healthy
  else pure false

/-- `bpf2socks_udp_session_control_event`. -/
def sessionControlEvent (k : Nat) (bits : Bits) : Worker Unit := do
  let s ← get
  match (s.assoc k).tcpFd with
  | none => pure ()
  | some fd =>
      let failed ← controlEventIsFailure fd bits
      if failed then sessionDrop k

/-! ## Expiry -/

/-- `bpf2socks_udp_session_expire_handshakes`: every round takes the head off the list. -/
def expireHandshakesFrom (now : Nat) : Nat → Worker Unit
  | 0 => diverge
  | fuel + 1 => do
      let s ← get
      match s.tbl.handshake.head () with
      | none => pure ()
      | some k =>
          if now ≠ 0 ∧ subMs now (s.tbl.core k).handshakeStartedMs ≥ s.cfg.connectTimeoutMs then
            count .udpAssociateTimeouts
            sessionDrop k
            expireHandshakesFrom now fuel
          else pure ()

/-- `bpf2socks_udp_session_expire_handshakes`. -/
def sessionExpireHandshakes (now : Nat) : Worker Unit := do
  let s ← get
  expireHandshakesFrom now (s.tbl.cap + 1)

/-- The walk of `bpf2socks_udp_session_expire_idle`. -/
def expireIdleFrom (now : Nat) : Nat → Option Nat → Worker Unit
  | 0, _ => diverge
  | _ + 1, none => pure ()
  | fuel + 1, some k => do
      let s ← get
      let next := s.tbl.lru.next k
      if !(s.tbl.core k).used || subMs now (s.tbl.core k).lastSeenMs < s.cfg.idleTimeoutMs then
        pure ()
      else if droppable s k then
        sessionDrop k
        expireIdleFrom now fuel next
      else expireIdleFrom now fuel next

/-- `bpf2socks_udp_session_expire_idle`. -/
def sessionExpireIdle : Worker Unit := do
  let now ← nowMs
  if now = 0 then pure ()
  else
    let s ← get
    expireIdleFrom now (s.tbl.cap + 1) (s.tbl.lru.head ())

end Bpf2Socks.Udp
