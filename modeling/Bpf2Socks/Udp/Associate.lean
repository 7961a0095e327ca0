/-
# Bpf2Socks.Udp.Associate — SOCKS5 UDP ASSOCIATE for sessions, and uplink sends to the relay.

A session opens a TCP connection to the SOCKS5 server, writes the method hello and the ASSOCIATE
request in one go, reads the two answers, opens a datagram socket to the relay the server named,
and only then sends what its client sent meanwhile.  `associateAdvance` is driven by events on the
control connection.

Loops that repeat a system call on `EINTR` ask the environment beforehand how often they may, so
that every finite number of interruptions is covered.
-/
import Bpf2Socks.Udp.Release

namespace Bpf2Socks.Udp

open Function (update)
open Worker

/-! ## SOCKS5 messages -/

/-- `bpf2socks_socks5_write_addr`; `none` is its zero length. -/
def socks5WriteAddr (cap : Nat) (a : DstAddr) : Option (List UInt8) :=
  let len := if a.family = .inet then 4 else if a.family = .inet6 then 16 else 0
  if len = 0 ∨ cap < 1 + len + 2 then none
  else some ((if a.family = .inet then 1 else 4) :: a.addr.take len ++
    [(a.port >>> 8).toUInt8, a.port.toUInt8])

/-- `bpf2socks_socks5_build_hello`. -/
def socks5BuildHello (cap : Nat) : Option (List UInt8) := if cap < 3 then none else some [5, 1, 0]

/-- `bpf2socks_socks5_build_udp_associate_request`. -/
def socks5BuildUdpAssociateRequest (cap : Nat) : Option (List UInt8) :=
  if cap < 4 + 16 + 2 then none
  else (socks5WriteAddr (cap - 3) ⟨.inet, 0, noToken⟩).map ([5, 3, 0] ++ ·)

/-- The size of `associate_write_buf`. -/
def associateWriteCap : Nat := 32

/-- The size of `associate_read_buf`. -/
def associateReadCap : Nat := 4 + 255 + 2

/-- `bpf2socks_udp_associate_build_request`: the bytes for the write buffer. -/
def associateBuildRequest : Option (List UInt8) :=
  match socks5BuildHello associateWriteCap with
  | none => none
  | some hello =>
      (socks5BuildUdpAssociateRequest (associateWriteCap - hello.length)).map (hello ++ ·)

/-- `bpf2socks_socks5_reply_length`: `none` is `SIZE_MAX`, zero is not known yet. -/
def socks5ReplyLength (reply : List UInt8) : Option Nat :=
  if reply.length ≥ 2 ∧ reply.take 2 ≠ [5, 0] then none
  else if reply.length < 4 then some 0
  else
    match reply.drop 3 with
    | 1 :: _ => some (4 + 4 + 2)
    | 4 :: _ => some (4 + 16 + 2)
    | 3 :: n :: _ => some (4 + 1 + n.toNat + 2)
    | [3] => some 0
    | _ => none

/-- `bpf2socks_socks5_parse_bound_addr`: the bytes consumed and the address; `none` is any failure
or short input. -/
def socks5ParseBoundAddr (buf : List UInt8) : Worker (Option (Nat × Sockaddr)) := do
  if buf.length < 4 ∨ buf.take 2 ≠ [5, 0] then pure none
  else
    match buf.drop 3 with
    | 1 :: rest =>
        if rest.length < 4 + 2 then pure none
        else pure (some (4 + 4 + 2,
          ⟨.inet, (rest.drop 4).take 2 ++ rest.take 4 ++ List.replicate 8 0⟩))
    | 4 :: rest =>
        if rest.length < 16 + 2 then pure none
        else pure (some (4 + 16 + 2,
          ⟨.inet6, (rest.drop 16).take 2 ++ List.replicate 4 0 ++ rest.take 16 ++
            List.replicate 4 0⟩))
    | 3 :: n :: rest =>
        if n = 0 ∨ rest.length < n.toNat + 2 then pure none
        else
          let port := match rest.drop n.toNat with
            | hi :: lo :: _ => hi.toUInt16 <<< 8 ||| lo.toUInt16
            | _ => 0
          let r : Option Sockaddr ← ask (.resolve (rest.take n.toNat) port)
          pure (r.map fun a => (4 + 1 + n.toNat + 2, a))
    | _ => pure none

/-- The address bytes of a socket address. -/
def Sockaddr.addrBytes (a : Sockaddr) : List UInt8 :=
  match a.family with
  | .inet => (a.data.drop 2).take 4
  | .inet6 => (a.data.drop 6).take 16
  | _ => []

/-- `bpf2socks_socks5_replace_unspecified_relay`: an unspecified relay address of the server's
family becomes the server's own. -/
def socks5ReplaceUnspecifiedRelay (socks relay : Sockaddr) : Sockaddr :=
  match relay.family with
  | .inet =>
      if relay.addrBytes = List.replicate 4 0 ∧ socks.family = .inet then
        { relay with data := relay.data.take 2 ++ socks.addrBytes ++ relay.data.drop 6 }
      else relay
  | .inet6 =>
      if relay.addrBytes = List.replicate 16 0 ∧ socks.family = .inet6 then
        { relay with data := relay.data.take 6 ++ socks.addrBytes ++ relay.data.drop 22 }
      else relay
  | _ => relay

/-! ## The handshake -/

/-- Set a session's stage. -/
def setStage (s : State) (k : Nat) (stage : Stage) : State :=
  s.modCore k fun c => { c with stage }

/-- `bpf2socks_udp_associate_open`: the descriptor and the stage it starts in. -/
def associateOpen : Worker (Option (Nat × Stage)) := do
  let r : Option (Nat × Bool) ← ask .associateOpen
  pure (r.map fun a => (a.1, if a.2 then .assocWrite else .connecting))

/-- The loop of `flush_udp_associate_write`: `none` failed, `some false` would block. -/
def flushAssociateWriteFrom (k fd : Nat) : Nat → Worker (Option Bool)
  | 0 => diverge
  | fuel + 1 => do
      let s ← get
      let a := s.assoc k
      if a.writeOffset < a.writeBuf.length then
        let r : Except Errno Nat ← ask (.controlSend fd (a.writeBuf.length - a.writeOffset))
        match r with
        | .error .eintr => flushAssociateWriteFrom k fd fuel
        | .error .eagain => pure (some false)
        | .error _ => pure none
        | .ok 0 => pure none
        | .ok (n + 1) =>
            modify fun s => s.modAssoc k fun a => { a with writeOffset := a.writeOffset + (n + 1) }
            flushAssociateWriteFrom k fd fuel
      else
        modify fun s => setStage (s.modAssoc k fun a =>
          { a with readBuf := [], readExpected := 2 }) k .assocReadHello
        pure (some true)

/-- `flush_udp_associate_write`. -/
def flushAssociateWrite (k fd : Nat) : Worker (Option Bool) := do
  let retries : Nat ← ask .retries
  flushAssociateWriteFrom k fd (retries + associateWriteCap + 1)

/-- How much more of the response is expected once `readBuf` holds these bytes; `none` is a
protocol error. -/
def responseExpected (a : Assoc) : Option Nat :=
  match socks5ReplyLength a.readBuf with
  | none => none
  | some 0 => if a.readBuf.length ≥ 4 then some 5 else some a.readExpected
  | some total => if total > associateReadCap then none else some total

/-- The loop of `read_udp_associate_bytes`. -/
def readAssociateBytesFrom (k fd : Nat) : Nat → Worker (Option Bool)
  | 0 => diverge
  | fuel + 1 => do
      let s ← get
      let a := s.assoc k
      if a.readBuf.length < a.readExpected then
        let r : Except Errno (List UInt8) ←
          ask (.controlRecv fd (a.readExpected - a.readBuf.length))
        match r with
        | .error .eintr => readAssociateBytesFrom k fd fuel
        | .error .eagain => pure (some false)
        | .error _ => pure none
        | .ok [] => pure none
        | .ok bytes =>
            modify fun s => s.modAssoc k fun a => { a with readBuf := a.readBuf ++ bytes }
            let s ← get
            if (s.tbl.core k).stage = .assocReadResponse then
              match responseExpected (s.assoc k) with
              | none => pure none
              | some n =>
                  modify fun s => s.modAssoc k fun a => { a with readExpected := n }
                  readAssociateBytesFrom k fd fuel
            else readAssociateBytesFrom k fd fuel
      else pure (some true)

/-- `read_udp_associate_bytes`. -/
def readAssociateBytes (k fd : Nat) : Worker (Option Bool) := do
  let retries : Nat ← ask .retries
  readAssociateBytesFrom k fd (retries + associateReadCap + 1)

/-- `read_udp_associate_hello`. -/
def readAssociateHello (k fd : Nat) : Worker (Option Bool) := do
  let r ← readAssociateBytes k fd
  if r = some true then
    let s ← get
    if (s.assoc k).readBuf.take 2 = [5, 0] then
      modify fun s => setStage (s.modAssoc k fun a =>
        { a with readBuf := [], readExpected := 4 }) k .assocReadResponse
      pure (some true)
    else pure none
  else pure r

/-- `create_udp_associate_relay_socket`. -/
def createAssociateRelaySocket (k : Nat) : Worker Bool := do
  let s ← get
  let parsed ← socks5ParseBoundAddr (s.assoc k).readBuf
  match parsed with
  | none => pure false
  | some (consumed, bound) =>
      if consumed ≠ (s.assoc k).readBuf.length then pure false
      else
        let relay := socks5ReplaceUnspecifiedRelay s.cfg.socksAddr bound
        let r : Option Nat ← ask (.relaySocket relay)
        match r with
        | none => pure false
        | some fd =>
            let connected : Bool ← ask (.relayConnect fd relay)
            modify fun s => s.modAssoc k fun a =>
              { a with udpFd := some fd, relayAddr := relay, relayConnected := connected }
            pure true

/-! ## Uplink sends -/

/-- `udp_send_errno_is_transient`. -/
def sendErrnoIsTransient (e : Errno) : Bool := e = .eagain || e = .enobufs || e = .enomem

/-- `bpf2socks_socks5_udp_sendmmsg`.  Without a descriptor it fails and leaves `errno` as it was. -/
def socks5UdpSendmmsg (fd : Option Nat) (n : Nat) : Worker (Except Errno Nat) := do
  match fd with
  | none =>
      let e : Errno ← ask .errno
      pure (.error e)
  | some fd =>
      let r : Except Errno Nat ← ask (.relaySendmmsg fd n)
      pure r

/-- The loop of `bpf2socks_udp_relay_send_batch`, with what is sent or passed over so far and how
many of those were too large; `none` is a failed relay socket. -/
def relaySendFrom (k total : Nat) : Nat → Nat → Nat → Worker (Option (Nat × Nat))
  | 0, _, _ => diverge
  | fuel + 1, sentTotal, oversized => do
      if sentTotal < total then
        let s ← get
        let r ← socks5UdpSendmmsg (s.assoc k).udpFd (total - sentTotal)
        match r with
        | .ok 0 => pure none
        | .ok (n + 1) => relaySendFrom k total fuel (sentTotal + (n + 1)) oversized
        | .error e =>
            if e = .eintr then relaySendFrom k total fuel sentTotal oversized
            else if e = .emsgsize then relaySendFrom k total fuel (sentTotal + 1) (oversized + 1)
            else if sendErrnoIsTransient e then
              count .udpDropsSendBusy (total - sentTotal)
              pure (some (sentTotal, oversized))
            else pure none
      else pure (some (sentTotal, oversized))

/-- `bpf2socks_udp_relay_send_batch`: whether the relay socket is still good. -/
def relaySendBatch (k : Nat) (messages : List UpMsg) : Worker Bool := do
  let retries : Nat ← ask .retries
  let r ← relaySendFrom k messages.length (retries + messages.length + 1) 0 0
  match r with
  | none => pure false
  | some (sentTotal, oversized) =>
      count .udpDropsOversized oversized
      count .udpPacketsToUpstream (sentTotal - oversized)
      count .udpCopySends (sentTotal - oversized)
      pure true

/-- Take a sent packet out: off the list and off the counter. -/
def finishPending (s : State) (k : Nat) (p : PendingPacket) (rest : List PendingPacket) : State :=
  let s := popPending s k p rest
  s.modUp k fun u => { u with pendingCount := u.pendingCount - 1 }

/-- Give back the first `n` pending packets. -/
def releaseSent (k : Nat) : Nat → Worker Unit
  | 0 => pure ()
  | n + 1 => do
      let s ← get
      match (s.up k).pending with
      | [] => pure ()
      | p :: rest =>
          modify fun s => finishPending s k p rest
          budgetRelease p.allocationBytes
          releaseSent k n

/-- The loop of `flush_session_pending_packets`. -/
def flushPendingFrom (k : Nat) : Nat → Worker Bool
  | 0 => diverge
  | fuel + 1 => do
      let s ← get
      if (s.up k).pending = [] then pure true
      else
        let packets := (s.up k).pending.take udpMaxBatch
        let client := (s.tbl.core k).clientAddr
        let sent ← relaySendBatch k (packets.map fun p => ⟨p.originalDst, p.payload, client⟩)
        if sent then
          let now ← nowMs
          modify fun s => seenSession s k now
          releaseSent k packets.length
          flushPendingFrom k fuel
        else pure false

/-- `flush_session_pending_packets`. -/
def flushSessionPendingPackets (k : Nat) : Worker Bool := do
  let s ← get
  flushPendingFrom k ((s.up k).pending.length + 1)

/-! ## Completion -/

/-- `BPF2SOCKS_UDP_RELAY_PORT_MAX_RETRIES`. -/
def relayPortMaxRetries : Nat := 3

/-- `bpf2socks_udp_relay_port_needs_claim`. -/
def relayPortNeedsClaim (cfg : WorkerConfig) (port : UInt16) : Bool :=
  port ≠ 0 && port ≠ sockaddrPort cfg.socksAddr

/-- The interest of a control connection during the handshake. -/
def handshakeBits : Bits := { Bits.none with inp := true, out := true }

/-- The interest of an established control connection. -/
def establishedBits : Bits := { Bits.none with inp := true, rdhup := true }

/-- `bpf2socks_udp_epoll_add_session_control`: the ref points to the session before the
registration is tried. -/
def epollAddSessionControl (k : Nat) (mask : Bits) : Worker Bool := do
  modify fun s => { s with refs := update s.refs k { s.refs k with control := true } }
  epollAdd (.control k) mask

/-- `bpf2socks_udp_epoll_switch_session_to_relay`. -/
def epollSwitchSessionToRelay (k : Nat) : Worker Bool := do
  let done ← epollModify (.control k) establishedBits
  if done then
    modify fun s => { s with refs := update s.refs k { s.refs k with relay := true } }
    epollAdd (.relay k) .input
  else pure false

/-- Forget the association that came back on a taken port. -/
def resetAssociation (s : State) (k : Nat) : State :=
  (s.epollRemove (.control k)).modAssoc k fun a =>
    { a with tcpFd := none, udpFd := none, relayAddr := ⟨.unspec, []⟩, relayConnected := false }

/-- Load the write buffer. -/
def loadRequest (s : State) (k : Nat) (bytes : List UInt8) : State :=
  s.modAssoc k fun a => { a with writeBuf := bytes, writeOffset := 0 }

/-- `restart_udp_associate`. -/
def restartAssociate (k : Nat) : Worker Bool := do
  modify fun s => resetAssociation s k
  match associateBuildRequest with
  | none => pure false
  | some bytes =>
      modify fun s => loadRequest s k bytes
      let r ← associateOpen
      match r with
      | none => pure false
      | some (fd, stage) =>
          modify fun s => setStage (s.modAssoc k fun a => { a with tcpFd := some fd }) k stage
          modify fun s => { s with tbl := s.tbl.handshakeRemove k }
          let now ← nowMs
          modify fun s => { s with tbl := s.tbl.handshakeAddTail k now }
          epollAddSessionControl k handshakeBits

/-- `complete_udp_associate` from the switch to the relay on. -/
def establishAssociate (k : Nat) : Worker Bool := do
  let switched ← epollSwitchSessionToRelay k
  if switched then
    modify fun s =>
      let s := setStage s k .ready
      { s with tbl := s.tbl.handshakeRemove k }
    count .udpAssociateCreates
    flushSessionPendingPackets k
  else pure false

/-- `complete_udp_associate`. -/
def completeAssociate (k : Nat) : Worker Bool := do
  let created ← createAssociateRelaySocket k
  if created then
    let s ← get
    let port := sockaddrPort (s.assoc k).relayAddr
    if relayPortNeedsClaim s.cfg port then
      let claimed : Bool ← ask (.portClaim port)
      if claimed then
        modify fun s => s.modAssoc k fun a => { a with relayPort := port, relayPortClaimed := true }
        establishAssociate k
      else
        count .udpRelayPortCollisions
        if (s.assoc k).associateRetries < relayPortMaxRetries then
          modify fun s => s.modAssoc k fun a =>
            { a with associateRetries := a.associateRetries + 1 }
          restartAssociate k
        else establishAssociate k
    else establishAssociate k
  else pure false

/-- The response part of `bpf2socks_udp_associate_advance`. -/
def advanceResponse (k fd : Nat) (bits : Bits) : Worker Bool := do
  let s ← get
  if (s.tbl.core k).stage = .assocReadResponse ∧ bits.inp then
    let r ← readAssociateBytes k fd
    match r with
    | none => pure false
    | some false => pure true
    | some true => completeAssociate k
  else pure true

/-- The hello part of `bpf2socks_udp_associate_advance`. -/
def advanceHello (k fd : Nat) (bits : Bits) : Worker Bool := do
  let s ← get
  if (s.tbl.core k).stage = .assocReadHello ∧ bits.inp then
    let r ← readAssociateHello k fd
    match r with
    | none => pure false
    | some false => pure true
    | some true => advanceResponse k fd bits
  else advanceResponse k fd bits

/-- The write part of `bpf2socks_udp_associate_advance`. -/
def advanceWrite (k fd : Nat) (bits : Bits) : Worker Bool := do
  let s ← get
  if (s.tbl.core k).stage = .assocWrite ∧ bits.out then
    let r ← flushAssociateWrite k fd
    match r with
    | none => pure false
    | some false => advanceHello k fd bits
    | some true =>
        let done ← epollModify (.control k) .input
        if done then advanceHello k fd bits else pure false
  else advanceHello k fd bits

/-- `bpf2socks_udp_associate_advance`. -/
def associateAdvance (k : Nat) (bits : Bits) : Worker Bool := do
  let s ← get
  let fd := (s.assoc k).tcpFd.getD 0
  if bits.err || bits.hup then pure false
  else if (s.tbl.core k).stage = .connecting ∧ bits.out then
    let connected : Bool ← ask (.soError fd)
    if connected then
      modify fun s => setStage s k .assocWrite
      advanceWrite k fd bits
    else pure false
  else advanceWrite k fd bits

/-! ## Opening a session -/

/-- Fill a slot for a new client. -/
def initSession (s : State) (k : Nat) (p : ClientPacket) : State :=
  let s := clearSession s k
  let s := s.modCore k fun c =>
    { c with used := true, clientAddr := p.clientAddr, tokenLookupMode := p.tokenLookupMode
             uid := s.trace.nextUid }
  { s with trace.nextUid := s.trace.nextUid + 1 }

/-- Link a session whose connection is open into the table. -/
def SessTable.attach (t : SessTable) (k : Nat) : SessTable :=
  let c := t.core k
  let bucket := sessionBucket c.clientAddr
  let t := { t with
    buckets := update t.buckets bucket (k :: t.buckets bucket)
    lru := t.lru.addTail () k }
  let t := t.handshakeAddTail k c.lastSeenMs
  { t with
    count := t.count + 1
    localCount := if sockaddrIsLoopback c.clientAddr then t.localCount + 1 else t.localCount }

/-- Close a slot that was never linked, and put it back. -/
def abandonSession (k : Nat) : Worker Unit := do
  sessionClose k
  modify fun s => { s with tbl := s.tbl.pushFree k }

/-- `bpf2socks_udp_session_get` once the control connection is under way: link the session in and
register the connection. -/
def linkSession (k fd : Nat) (stage : Stage) : Worker (Option Nat) := do
  modify fun s => setStage (s.modAssoc k fun a => { a with tcpFd := some fd }) k stage
  modify fun s => { s with tbl := s.tbl.attach k }
  let added ← epollAddSessionControl k handshakeBits
  if added then
    modify fun s => releaseNoteNewSession s k (s.tbl.core k).lastSeenMs
    pure (some k)
  else
    sessionDrop k
    pure none

/-- `bpf2socks_udp_session_get` once the record is filled: start the control connection. -/
def connectSession (k : Nat) : Worker (Option Nat) := do
  match associateBuildRequest with
  | none =>
      abandonSession k
      pure none
  | some bytes =>
      modify fun s => loadRequest s k bytes
      let r ← associateOpen
      match r with
      | none =>
          abandonSession k
          pure none
      | some (fd, stage) => linkSession k fd stage

/-- `bpf2socks_udp_session_get` once a slot is allocated. -/
def openSession (k : Nat) (p : ClientPacket) : Worker (Option Nat) := do
  modify fun s => initSession s k p
  let now ← nowMs
  modify fun s => s.modCore k fun c => { c with lastSeenMs := now }
  connectSession k

/-- Take over the lookup mode of a packet that has one. -/
def noteLookupMode (s : State) (k : Nat) (mode : LookupMode) : State :=
  if mode = .unknown then s else s.modCore k fun c => { c with tokenLookupMode := mode }

/-- `bpf2socks_udp_session_get`. -/
def sessionGet (p : ClientPacket) (existing : Option Nat) : Worker (Option Nat) := do
  match existing with
  | some k =>
      let now ← nowMs
      modify fun s => noteLookupMode (seenSession s k now) k p.tokenLookupMode
      count .udpSessionHits
      count .udpAssociateReuses
      pure (some k)
  | none =>
      count .udpSessionMisses
      let s ← get
      if sockaddrIsLoopback p.clientAddr && !s.rel.armed then
        let now ← nowMs
        releaseArm now
      let r ← allocSession 2
      match r with
      | none => pure none
      | some k => openSession k p

end Bpf2Socks.Udp
