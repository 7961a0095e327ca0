/-
# Bpf2Socks.Udp.Worker — the event loop of a UDP worker.

`bpf2socks_bridge_udp_run` waits for events, handles each of them and then runs maintenance.  The
two handlers that work through a batch of datagrams are cut at the head of every round of their
loops, so that a run of the worker is a sequence of steps between program locations `Loc`: one
event, one client datagram (in two parts: finding out where it was meant to go, and everything
from `session_get` on), one relay datagram, one group of outgoing datagrams, one maintenance pass.

`Step` is one such step with any admissible answers, `Reach` a run from the initial state.  A run
can be restricted to steps that meet a condition on the state they start from.
-/
import Bpf2Socks.Udp.Associate

namespace Bpf2Socks.Udp

open Function (update)
open Lib (Prog Act)
open Worker

/-- Where the worker is. -/
inductive Loc where
  | wait
  | dispatch
  | clientPacket
  | clientSession (packet : ClientPacket) (existing : Option Nat)
  | clientFlush
  | upstream
  | upstreamDone (failed : Bool)
  | maintain

/-! ## Original destinations of client datagrams -/

/-- One control message of `bpf2socks_udp_token_parse_cmsgs`. -/
def parseCmsg (acc : ClientPacket × Bool) (c : Cmsg) : ClientPacket × Bool :=
  match c with
  | .pktinfo4 addr =>
      ({ acc.1 with tokenFamily := .inet, tokenAddr := copyBytes acc.1.tokenAddr addr 4 }, true)
  | .pktinfo6 addr =>
      ({ acc.1 with tokenFamily := .inet6, tokenAddr := copyBytes acc.1.tokenAddr addr 16 }, true)
  | .originalDst dst => ({ acc.1 with originalDst := dst, hasOriginalDst := true }, acc.2)

/-- The packet record of a received datagram before anything is known about it. -/
def packetOf (d : ClientDatagram) : ClientPacket :=
  { clientAddr := d.addr, tokenFamily := .unspec, tokenAddr := noToken, hasOriginalDst := false
    originalFromSocket := false, connectedUdpToken := false, tokenLookupMode := .unknown
    originalDst := ⟨.unspec, 0, []⟩, payload := d.payload }

/-- `bpf2socks_udp_token_parse_cmsgs`; `none` is its failure. -/
def tokenParseCmsgs (d : ClientDatagram) : Option ClientPacket :=
  let r := d.cmsgs.foldl parseCmsg (packetOf d, false)
  if r.2 then some r.1 else none

/-- `bpf2socks_udp_token_lookup_original`. -/
def tokenLookupOriginal (p : ClientPacket) (preference : LookupMode) (now : Nat) :
    Worker (Bool × ClientPacket) := do
  let r : Option TokenEntry ← ask (.tokenLookup p preference now)
  match r with
  | none =>
      if p.hasOriginalDst then pure (true, { p with originalFromSocket := true })
      else pure (false, p)
  | some e =>
      let p := { p with tokenLookupMode := e.mode, connectedUdpToken := e.connected }
      match e.dst with
      | some dst => pure (true, { p with originalDst := dst })
      | none => pure (false, p)

/-- `bpf2socks_udp_token_recover_connected`. -/
def tokenRecoverConnected (session : Option Nat) (p : ClientPacket) :
    Worker (Option ClientPacket) := do
  match session with
  | none => pure none
  | some k =>
      let s ← get
      let len := tokenLength p
      match (s.bind.owned k).find? fun b =>
          (s.bind.core b).used && (s.bind.core b).connectedUdpToken &&
            (s.bind.core b).tokenAddr.take len == p.tokenAddr.take len with
      | none => pure none
      | some b =>
          let dst := (s.bind.core b).originalDst
          let _ : Bool ← ask (.tokenPublish (p.tokenAddr.take len) dst)
          pure (some { p with
            originalDst := dst, connectedUdpToken := true
            tokenLookupMode := (s.tbl.core k).tokenLookupMode })

/-- `bpf2socks_udp_dns_is_candidate`. -/
def dnsIsCandidate (cfg : WorkerConfig) (p : ClientPacket) : Bool :=
  cfg.enableDnsHijack && p.originalDst.port = 53 && validOriginal p.originalDst

/-- Run a step of the DNS fast path. -/
def dnsStep (step : DnsStep) : Worker Bool := do
  let r : DnsResult ← ask (.dns step)
  modify fun s => { s with dns := r.channels }
  pure r.taken

/-! ## `handle_udp_client_packets` -/

/-- Up to the loop: receive a batch. -/
def clientReceive (fd : Nat) : Worker Loc := do
  let s ← get
  let r : Except Errno (List ClientDatagram) ← ask (.recvClients fd s.cfg.batchSize)
  match r with
  | .error _ => pure .dispatch
  | .ok datagrams =>
      let now ← nowMs
      let _ ← dnsStep (.expireTransactions now)
      modify fun s =>
        { s with frame := { s.frame with nowMs := now, incoming := datagrams, outgoing := [] } }
      pure .clientPacket

/-- A datagram without a known original destination. -/
def tokenMiss (notify : Option ClientPacket) : Worker Loc := do
  count .udpTokenMisses
  match notify with
  | some p =>
      let _ : Unit ← ask (.tokenNotify p)
      pure .clientPacket
  | none => pure .clientPacket

/-- A datagram whose original destination is known: take over the lookup mode and let the DNS fast
path have it first. -/
def clientResolved (p : ClientPacket) (existing : Option Nat) : Worker Loc := do
  match existing with
  | some k => modify fun s => noteLookupMode s k p.tokenLookupMode
  | none => pure ()
  let s ← get
  if dnsIsCandidate s.cfg p then
    let taken ← dnsStep (.prepareQuery p s.frame.nowMs)
    pure (if taken then .clientPacket else .clientSession p existing)
  else pure (.clientSession p existing)

/-- One round of the loop up to `bpf2socks_udp_session_get`. -/
def clientNext : Worker Loc := do
  let s ← get
  match s.frame.incoming with
  | [] =>
      let _ ← dnsStep .flushOutgoing
      pure .clientFlush
  | d :: rest =>
      modify fun s => { s with frame := { s.frame with incoming := rest } }
      if d.truncated || d.payload.length > udpBufferSize then
        count .udpDropsOversized
        pure .clientPacket
      else
        count .udpPacketsFromClient
        match tokenParseCmsgs d with
        | none => tokenMiss none
        | some p =>
            let existing := s.tbl.find p.clientAddr
            let preference := existing.elim .unknown fun k => (s.tbl.core k).tokenLookupMode
            let (found, p) ← tokenLookupOriginal p preference s.frame.nowMs
            if found then clientResolved p existing
            else
              let r ← tokenRecoverConnected existing p
              match r with
              | some p => clientResolved p existing
              | none => tokenMiss (some p)

/-- Copy a packet's token into an existing binding. -/
def copyToken (s : State) (b : Nat) (p : ClientPacket) : State :=
  s.modBinding b fun c =>
    { c with tokenAddr := copyBytes c.tokenAddr p.tokenAddr (tokenLength p) }

/-- The end of the update of an existing binding. -/
def noteBinding (s : State) (k b : Nat) (p : ClientPacket) : State :=
  bindingLruTouch (s.modBinding b fun c =>
    { c with connectedUdpToken := p.connectedUdpToken, lastSeenMs := s.frame.nowMs }) k b

/-- Bring an existing binding up to date with a packet; `false` is a reply socket that could not
be made. -/
def refreshBinding (k b : Nat) (p : ClientPacket) : Worker Bool := do
  count .udpReplyBindingHits
  modify fun s => copyToken s b p
  let s ← get
  if !needsReplySocket p && (s.bind.core b).replyFd.isSome then
    modify fun s => noteBinding (bindingCloseReply s b) k b p
    pure true
  else if needsReplySocket p && (s.bind.core b).replyFd.isNone then
    let r ← replySocketCreate (s.bind.core b).originalDst (.reply b)
    match r with
    | none => pure false
    | some (fd, raw) =>
        modify fun s => noteBinding (bindingSetReply s b fd raw) k b p
        pure true
  else
    modify fun s => noteBinding s k b p
    pure true

/-- Append to the outgoing arrays. -/
def pushOutgoing (s : State) (k : Nat) (p : ClientPacket) : State :=
  { s with frame := { s.frame with outgoing := s.frame.outgoing ++
      [⟨k, ⟨p.originalDst, p.payload, p.clientAddr⟩, (s.tbl.core k).uid⟩] } }

/-- Queue or collect a datagram whose session and binding are known. -/
def clientForward (k : Nat) (p : ClientPacket) : Worker Unit := do
  let s ← get
  if (s.tbl.core k).stage ≠ .ready then
    let r ← sessionQueuePending k p.originalDst p.payload udpBufferSize
    match r with
    | .ok _ => pure ()
    | .error .enobufs => count .udpDropsPendingBudget
    | .error _ => count .udpSendErrors
  else modify fun s => pushOutgoing s k p

/-- Find or make the binding of a datagram whose session is known, and pass the datagram on. -/
def clientBind (k : Nat) (p : ClientPacket) : Worker Unit := do
  let found ← bindingFind k p.originalDst
  match found with
  | none =>
      let created ← bindingCreateForPacket k p
      match created with
      | none => pure ()
      | some _ => clientForward k p
  | some b =>
      let good ← refreshBinding k b p
      if good then clientForward k p

/-- One round of the loop from `bpf2socks_udp_session_get` on. -/
def clientSession (p : ClientPacket) (existing : Option Nat) : Worker Loc := do
  let session ← sessionGet p existing
  match session with
  | none => pure .clientPacket
  | some k =>
      clientBind k p
      pure .clientPacket

/-- Record a call of `bpf2socks_udp_relay_send_batch`. -/
def logRelaySend (s : State) (r : RelaySend) : State :=
  { s with trace.relaySends := r :: s.trace.relaySends }

/-- Send the datagrams collected for the session pointer of `o`. -/
def flushGroup (o : Outgoing) : Worker Unit := do
  let s ← get
  let messages := (s.frame.outgoing.filter fun o' => o'.slot = o.slot).map (·.msg)
  modify fun s => { s with frame := { s.frame with
    outgoing := s.frame.outgoing.filter fun o' => o'.slot ≠ o.slot } }
  let sent ← relaySendBatch o.slot messages
  modify fun s => logRelaySend s ⟨o.slot, s.tbl.core o.slot, messages, !sent⟩
  if !sent then
    count .udpSendErrors
    sessionDrop o.slot

/-- After the loop: send what was collected, one session pointer after the other. -/
def clientFlush : Worker Loc := do
  let s ← get
  match s.frame.outgoing with
  | [] => pure .dispatch
  | o :: _ =>
      flushGroup o
      pure .clientFlush

/-! ## `handle_udp_upstream_packets` -/

/-- Number the messages of a batch and note that they were read. -/
def numberMessages (next : Nat) : List RelayDatagram → List Msg
  | [] => []
  | d :: rest => ⟨d.addr, d.payload, d.error, next⟩ :: numberMessages (next + 1) rest

/-- Enter the loop with a batch that was read. -/
def startUpstream (s : State) (k : Nat) (datagrams : List RelayDatagram) : State :=
  let messages := numberMessages s.trace.nextSeq datagrams
  { s with
    frame := { s.frame with session := k, messages, batch := .init }
    trace := { s.trace with
      nextSeq := s.trace.nextSeq + datagrams.length
      read := messages.map (fun m => ((s.tbl.core k).uid, m)) ++ s.trace.read } }

/-- `bpf2socks_socks5_udp_recvmmsg`. -/
def socks5UdpRecvmmsg (fd : Option Nat) (n : Nat) : Worker (Except Errno (List RelayDatagram)) := do
  match fd with
  | none => pure (.error .other)
  | some fd =>
      let r : Except Errno (List RelayDatagram) ← ask (.recvRelay fd n)
      pure r

/-- No room in the budget: wait for it. -/
def waitForBudget (k : Nat) : Worker Unit := do
  modify fun s => markWaiting s k
  let paused ← setPaused k true
  if !paused then
    count .udpSendErrors
    sessionDrop k

/-- A failed read from a relay. -/
def relayReadError (k : Nat) (e : Errno) : Worker Unit :=
  if e = .emsgsize then count .udpDropsOversized
  else if e ≠ .eagain then sessionDrop k
  else pure ()

/-- Up to the loop: reserve room and receive a batch. -/
def upstreamReceive (k : Nat) : Worker Loc := do
  let s ← get
  let reserved ← reserveSlots s.cfg.batchSize
  match reserved with
  | none =>
      waitForBudget k
      pure .dispatch
  | some n =>
      let r ← socks5UdpRecvmmsg (s.assoc k).udpFd n
      match r with
      | .error e =>
          releaseReservation
          relayReadError k e
          pure .dispatch
      | .ok [] =>
          releaseReservation
          pure .dispatch
      | .ok datagrams =>
          modify fun s => startUpstream s k datagrams
          pure .upstream

/-- Go on to the next message. -/
def popMessage (s : State) : State :=
  { s with frame := { s.frame with messages := s.frame.messages.tail } }

/-- Count the current message as dropped and go on. -/
def dropMessage (s : State) (k : Nat) (m : Msg) (why : DropReason) : State :=
  popMessage { s with trace.dropped := ((s.tbl.core k).uid, m, why) :: s.trace.dropped }

/-- A reply through the raw socket of its binding: queued behind what waits there, else sent
directly; one too large for the route is dropped alone. -/
def rawReply (k b fd : Nat) (m : Msg) : Worker Bool := do
  let flushed ← downlinkBatchFlush
  if flushed then
    let s ← get
    if (findChannel s k b fd false true).isSome then
      let queued ← downlinkQueuePacket k b m fd false true
      if queued then modify popMessage
      pure queued
    else
      let r ← rawSend fd k b m
      match r with
      | .ok _ =>
          let now ← nowMs
          modify fun s => popMessage (seenSession (seenBinding s b now) k now)
          count .udpPacketsToClient
          count .udpCopySends
          pure true
      | .error .emsgsize =>
          count .udpDropsOversized
          modify fun s => dropMessage s k m .oversizedRaw
          pure true
      | .error e =>
          if classifySendResult (.error e) 1 = .retry then
            let queued ← downlinkQueuePacket k b m fd false true
            if queued then modify popMessage
            pure queued
          else pure false
  else pure false

/-- The listener a client is answered from. -/
def replyListener (s : State) (k : Nat) : Nat :=
  if (s.tbl.core k).clientAddr.family = .inet6 then s.cfg.listener6.getD s.cfg.listener4
  else s.cfg.listener4

/-- A reply whose binding is known. -/
def sendReply (k b : Nat) (m : Msg) : Worker Bool := do
  let s ← get
  match (s.bind.core b).replyFd with
  | some fd =>
      if (s.bind.core b).replyRaw then rawReply k b fd m
      else
        let queued ← downlinkBatchQueue k b m fd false
        if queued then modify popMessage
        pure queued
  | none =>
      let queued ← downlinkBatchQueue k b m (replyListener s k) true
      if queued then modify popMessage
      pure queued

/-- A usable reply: find or make its binding. -/
def bindReply (k : Nat) (m : Msg) : Worker Bool := do
  let found ← bindingFind k m.addr
  match found with
  | some b =>
      count .udpReplyBindingHits
      modify fun s => bindingLruTouch s k b
      sendReply k b m
  | none =>
      let created ← bindingCreateFullcone k m.addr
      match created with
      | some b => sendReply k b m
      | none =>
          count .udpDropsMalformedSocks5
          modify fun s => dropMessage s k m .noBinding
          pure true

/-- Give the current message, named by domain, the address of the binding it answers. -/
def readdressMessage (s : State) (dst : DstAddr) : State :=
  match s.frame.messages with
  | [] => s
  | m :: rest => { s with frame := { s.frame with messages := { m with addr := dst } :: rest } }

/-- One round of the loop; `false` leaves it and drops the session. -/
def upstreamMessage (k : Nat) (m : Msg) : Worker Bool := do
  count .udpPacketsFromUpstream
  match m.error with
  | some e =>
      count (if e = .emsgsize then .udpDropsOversized else .udpDropsMalformedSocks5)
      modify fun s => dropMessage s k m .unusable
      pure true
  | none =>
      if m.addr.family = .unspec then
        let s ← get
        match bindingFindByDomainPort s k m.addr.port with
        | none =>
            count .udpDropsMalformedSocks5
            modify fun s => dropMessage s k m .noDomainBinding
            pure true
        | some b =>
            let dst := (s.bind.core b).originalDst
            modify fun s => readdressMessage s dst
            bindReply k { m with addr := dst }
      else bindReply k m

/-- The loop of `handle_udp_upstream_packets`, one round, and the flush after it. -/
def upstreamNext : Worker Loc := do
  let s ← get
  match s.frame.messages with
  | [] =>
      let flushed ← downlinkBatchFlush
      if !flushed then count .udpSendErrors
      pure (.upstreamDone !flushed)
  | m :: _ =>
      let good ← upstreamMessage s.frame.session m
      if good then pure .upstream
      else
        count .udpSendErrors
        pure (.upstreamDone true)

/-- `done:` give the reservation back, and drop a session that failed. -/
def upstreamDone (failed : Bool) : Worker Loc := do
  let s ← get
  releaseReservation
  if failed then sessionDrop s.frame.session
  modify fun s => { s with frame := { s.frame with messages := [], batch := .init } }
  pure .dispatch

/-! ## DNS replies -/

/-- `bpf2socks_udp_dns_handle_upstream`: the budget is only borrowed to decide whether to read. -/
def dnsHandleUpstream (i : Fin dnsChannelsPerWorker) : Worker Unit := do
  let s ← get
  let reserved ← reserveSlots s.cfg.batchSize
  match reserved with
  | none =>
      modify fun s => { s with dns := update s.dns i { s.dns i with relayPaused := true } }
      let done ← epollModify (.dnsRelay i) .none
      if !done then count .udpSendErrors
  | some n =>
      let r ← socks5UdpRecvmmsg (s.dns i).udpFd n
      releaseReservation
      match r with
      | .error e =>
          if e = .emsgsize then count .udpDropsOversized
          else if e ≠ .eagain then
            let _ ← dnsStep (.closeChannel i)
      | .ok [] => pure ()
      | .ok _ =>
          let _ ← dnsStep (.respond i)

/-! ## Dispatch -/

/-- A session's control connection. -/
def dispatchControl (k : Nat) (bits : Bits) : Worker Loc := do
  let s ← get
  if (s.refs k).control && (s.tbl.core k).used then
    if (s.tbl.core k).stage ≠ .ready then
      let good ← associateAdvance k bits
      if !good then
        count .udpSendErrors
        sessionDrop k
    else sessionControlEvent k bits
    pure .dispatch
  else pure .dispatch

/-- A session's relay socket. -/
def dispatchRelay (k : Nat) (bits : Bits) : Worker Loc := do
  let s ← get
  if (s.refs k).relay && (s.tbl.core k).used && (s.tbl.core k).stage = .ready then
    if bits.err || bits.hup then
      sessionDrop k
      pure .dispatch
    else if bits.inp then upstreamReceive k
    else pure .dispatch
  else pure .dispatch

/-- A downlink channel: its ref is good while the channel is linked. -/
def dispatchDownlink (k id : Nat) (bits : Bits) : Worker Loc := do
  let s ← get
  if ((s.down k).channels.any fun ch => ch.id = id) && (s.tbl.core k).used then
    if bits.err || bits.hup then
      count .udpSendErrors
      sessionDrop k
    else if bits.out then
      let good ← downlinkFlushChannel k id
      if !good then
        count .udpSendErrors
        sessionDrop k
    pure .dispatch
  else pure .dispatch

/-- A DNS channel's relay socket. -/
def dispatchDnsRelay (i : Fin dnsChannelsPerWorker) (bits : Bits) : Worker Loc := do
  let s ← get
  if (s.dns i).available && (s.dns i).udpFd.isSome then
    if bits.err || bits.hup then
      let _ ← dnsStep (.closeChannel i)
    else if bits.inp then dnsHandleUpstream i
    pure .dispatch
  else pure .dispatch

/-- One element of the event array. -/
def dispatchEvent (e : Event) : Worker Loc :=
  match e.ref with
  | .budgetWake => do
      let _ : Unit ← ask .budgetWakeRead
      pure .dispatch
  | .destroyEvents => do
      let now ← nowMs
      releaseHandleEvents now
      pure .dispatch
  | .listener4 => do
      let s ← get
      if e.bits.inp then clientReceive s.cfg.listener4 else pure .dispatch
  | .listener6 => do
      let s ← get
      match s.cfg.listener6 with
      | some fd => if e.bits.inp then clientReceive fd else pure .dispatch
      | none => pure .dispatch
  | .control k => dispatchControl k e.bits
  | .relay k => dispatchRelay k e.bits
  | .downlink k id => dispatchDownlink k id e.bits
  | .dnsControl i => do
      let _ ← dnsStep (.controlEvent i e.bits)
      pure .dispatch
  | .dnsRelay i => dispatchDnsRelay i e.bits

/-- The loop over the event array. -/
def dispatchNext : Worker Loc := do
  let s ← get
  match s.events with
  | [] => pure .maintain
  | e :: rest =>
      modify fun s => { s with events := rest }
      dispatchEvent e

/-! ## Maintenance -/

/-- `bpf2socks_deadline_note`. -/
def deadlineNote (next deadline : Nat) : Nat := if deadline < next then deadline else next

theorem deadlineNote_eq (next deadline : Nat) : deadlineNote next deadline = min next deadline := by
  unfold deadlineNote
  split <;> omega

/-- The session walk of `udp_next_deadline`. -/
def sessionDeadline (s : State) (now : Nat) : Nat → Option Nat → Option Nat
  | 0, _ => none
  | _ + 1, none => none
  | fuel + 1, some k =>
      let c := s.tbl.core k
      if c.used then
        if c.lastSeenMs + s.cfg.idleTimeoutMs > now || droppable s k then
          some (c.lastSeenMs + s.cfg.idleTimeoutMs)
        else sessionDeadline s now fuel (s.tbl.lru.next k)
      else none

/-- The binding walk of `udp_next_deadline`. -/
def bindingDeadline (s : State) (now : Nat) : Nat → Option Nat → Option Nat
  | 0, _ => none
  | _ + 1, none => none
  | fuel + 1, some b =>
      let c := s.bind.core b
      if c.used then
        if c.lastSeenMs + s.cfg.idleTimeoutMs > now || c.downlinkPendingCount = 0 then
          some (c.lastSeenMs + s.cfg.idleTimeoutMs)
        else bindingDeadline s now fuel (s.bind.lru.next b)
      else none

/-- `udp_next_deadline`; the earliest DNS deadline is a parameter. -/
def udpNextDeadline (s : State) (now dns : Nat) : Nat :=
  let next := noDeadline
  let next := (sessionDeadline s now (s.tbl.cap + 1) (s.tbl.lru.head ())).elim next
    (deadlineNote next)
  let next := deadlineNote next s.rel.retryDueMs
  let next := (bindingDeadline s now (s.bind.cap + 1) (s.bind.lru.head ())).elim next
    (deadlineNote next)
  let next := deadlineNote next dns
  (s.tbl.handshake.head ()).elim next fun k =>
    deadlineNote next ((s.tbl.core k).handshakeStartedMs + s.cfg.connectTimeoutMs)

/-- `udp_has_budget_waiters`. -/
def hasBudgetWaiters (s : State) : Bool :=
  s.waiters > 0 || (List.finRange dnsChannelsPerWorker).any fun i => (s.dns i).relayPaused

/-- The part of `udp_run_maintenance` before the budget waiters are looked at. -/
def expireAll : Worker Unit := do
  downlinkFreeRetired
  resumeBudgetWaiters
  bindingExpireIdle
  let now ← nowMs
  sessionExpireHandshakes now
  sessionExpireIdle
  let now ← nowMs
  releaseRetry now
  let now ← nowMs
  let _ ← dnsStep (.expireTransactions now)
  let now ← nowMs
  let _ ← dnsStep (.expireHandshakes now)
  downlinkFreeRetired

/-- Register with the budget, then look again, so that a release in between still wakes us. -/
def registerWaiters : Worker Unit := do
  let s ← get
  if hasBudgetWaiters s then
    let _ : Unit ← ask .budgetWait
    resumeBudgetWaiters
  else pure ()

/-- `udp_run_maintenance`. -/
def runMaintenance : Worker Loc := do
  expireAll
  registerWaiters
  releaseDisarmIfIdle
  let now ← nowMs
  let dns : Nat ← ask .dnsDeadline
  modify fun s => { s with nextDeadlineMs := udpNextDeadline s now dns }
  pure .wait

/-! ## Runs -/

/-- The code at each location.  At `wait` the worker is blocked. -/
def step : Loc → Worker Loc
  | .wait => diverge
  | .dispatch => dispatchNext
  | .clientPacket => clientNext
  | .clientSession p existing => clientSession p existing
  | .clientFlush => clientFlush
  | .upstream => upstreamNext
  | .upstreamDone failed => upstreamDone failed
  | .maintain => runMaintenance

/-- The session slot an event is about. -/
def Ref.slot : Ref → Option Nat
  | .control k => some k
  | .relay k => some k
  | .downlink k _ => some k
  | _ => none

/-- The contract of `epoll_wait`: one event for a registration at most, only for registrations, and
apart from errors and hangups only what was asked for. -/
def wakeOk (s : State) (evs : List (Ref × Bits)) : Bool :=
  (evs.map (·.1)).Nodup && evs.all fun e =>
    match s.kern.interest e.1 with
    | none => false
    | some mask => (!e.2.inp || mask.inp) && (!e.2.out || mask.out) && (!e.2.rdhup || mask.rdhup)

/-- Fill the event array. -/
def collect (s : State) (evs : List (Ref × Bits)) : State :=
  { s with events := evs.map fun e =>
      ⟨e.1, e.2, e.1.slot.elim 0 fun k => (s.tbl.core k).uid⟩ }

/-- One step of a worker, with answers admissible for `A`. -/
inductive Step (A : State → (q : Sys) → q.Ans → Prop) : Loc × State → Loc × State → Prop where
  | wake {s : State} (evs : List (Ref × Bits)) (h : wakeOk s evs = true) :
      Step A (.wait, s) (.dispatch, collect s evs)
  | run {l l' : Loc} {s s' : State} (h : Prog.Out A (step l s) s' l') : Step A (l, s) (l', s')

/-- The configurations a worker can reach by steps that each start in a configuration that meets
`C`. -/
inductive Reach (A : State → (q : Sys) → q.Ans → Prop) (C : Loc → State → Prop)
    (cfg : WorkerConfig) : Loc → State → Prop where
  | init : Reach A C cfg .wait (initState cfg)
  | next {l l' : Loc} {s s' : State} (h : Reach A C cfg l s) (hc : C l s)
      (hs : Step A (l, s) (l', s')) : Reach A C cfg l' s'

/-- A property of the initial configuration that admissible steps keep holds of every reachable
configuration. -/
theorem Reach.invariant {A : State → (q : Sys) → q.Ans → Prop} {C : Loc → State → Prop}
    {cfg : WorkerConfig} {I : Loc → State → Prop} (hinit : I .wait (initState cfg))
    (hwake : ∀ s evs, I .wait s → wakeOk s evs = true → I .dispatch (collect s evs))
    (hrun : ∀ l s, I l s → C l s → Prog.Sat A (fun s' l' => I l' s') (step l s))
    {l : Loc} {s : State} (h : Reach A C cfg l s) : I l s := by
  induction h with
  | init => exact hinit
  | next h hc hs ih =>
      cases hs with
      | wake evs he => exact hwake _ evs ih he
      | run ho => exact (hrun _ _ ih hc).out ho

end Bpf2Socks.Udp
