/-
# Bpf2Socks.Udp.Downlink — replies to clients: read reservations, channels, queues and batches.

A reply leaves through the reply socket of its binding or, with the token address as its source,
through the shared listener.  What the socket does not take at once waits in a *channel*: a
duplicate of the descriptor with a queue of packets, registered for writability.  While a session
has something queued, its relay is paused.

Before a batch of replies is read from a relay, room for all of it is reserved in the shared
budget, so that any of it can be queued.
-/
import Bpf2Socks.Udp.Binding

namespace Bpf2Socks.Udp

open Function (update)
open Lib (DLists Act)
open Worker

/-! ## Classification of send results -/

/-- `enum bpf2socks_udp_downlink_send_result`. -/
inductive SendResult where
  | complete
  | retry
  | fatal
  deriving DecidableEq

/-- `bpf2socks_udp_downlink_classify_send_result`. -/
def classifySendResult (sent : Except Errno Nat) (requested : Nat) : SendResult :=
  match sent with
  | .ok n =>
      if n = requested then .complete
      else if n < requested then .retry
      else .fatal
  | .error e =>
      if requested = 0 then .fatal
      else if e = .eagain ∨ e = .enobufs ∨ e = .eintr then .retry
      else .fatal

/-! ## Sessions as the downlink sees them -/

/-- `bpf2socks_udp_lru_touch`. -/
def SessTable.lruTouch (t : SessTable) (k : Nat) : SessTable :=
  { t with lru := if t.lru.tail () = some k then t.lru else (t.lru.remove () k).addTail () k }

/-- Set `last_seen_ms` and move the session to the LRU tail. -/
def seenSession (s : State) (k now : Nat) : State :=
  let s := s.modCore k fun c => { c with lastSeenMs := now }
  { s with tbl := s.tbl.lruTouch k }

/-- Set `last_seen_ms` of a binding. -/
def seenBinding (s : State) (b now : Nat) : State :=
  s.modBinding b fun c => { c with lastSeenMs := now }

/-- `bpf2socks_udp_downlink_waiter_tracker_mark_waiting`. -/
def markWaiting (s : State) (k : Nat) : State :=
  if (s.down k).waitingBudget then s
  else { s.modDown k fun d => { d with waitingBudget := true } with waiters := s.waiters + 1 }

/-- `bpf2socks_udp_downlink_waiter_tracker_mark_ready`. -/
def markReady (s : State) (k : Nat) : State :=
  if (s.down k).waitingBudget then
    { s.modDown k fun d => { d with waitingBudget := false } with waiters := s.waiters - 1 }
  else s

/-- `bpf2socks_udp_downlink_set_paused`. -/
def setPaused (k : Nat) (paused : Bool) : Worker Bool := do
  let s ← get
  if !(s.tbl.core k).used || (s.tbl.core k).stage ≠ .ready || (s.assoc k).udpFd.isNone then
    pure false
  else if (s.down k).paused = paused then pure true
  else
    let done ← epollModify (.relay k) (if paused then .none else .input)
    if done then modify fun s => s.modDown k fun d => { d with paused }
    pure done

/-! ## Read reservations -/

/-- Move bytes in progress into the read reservation. -/
def holdReservation (s : State) (bytes : Nat) : State :=
  { s with readReservation := s.readReservation + bytes
           trace.inProgress := s.trace.inProgress - bytes }

/-- Move bytes of the read reservation into progress. -/
def takeReservation (s : State) (bytes : Nat) : State :=
  { s with readReservation := s.readReservation - bytes
           trace.inProgress := s.trace.inProgress + bytes }

/-- The loop of `bpf2socks_udp_downlink_reserve_slots`: halve, rounding up, until it fits. -/
def reserveSlotsFrom : Nat → Nat → Worker (Option Nat)
  | 0, _ => diverge
  | fuel + 1, candidate => do
      let reserved ← budgetReserve (candidate * downlinkMaxAllocation)
      if reserved then
        modify fun s => holdReservation s (candidate * downlinkMaxAllocation)
        pure (some candidate)
      else if candidate = 1 then pure none
      else reserveSlotsFrom fuel ((candidate + 1) / 2)

/-- `bpf2socks_udp_downlink_reserve_slots`. -/
def reserveSlots (batch : Nat) : Worker (Option Nat) := do
  let s ← get
  if batch = 0 ∨ s.readReservation ≠ 0 then pure none else reserveSlotsFrom (batch + 1) batch

/-- `bpf2socks_udp_downlink_release_reservation`. -/
def releaseReservation : Worker Unit := do
  let s ← get
  if s.readReservation = 0 then pure ()
  else
    modify fun s => takeReservation s s.readReservation
    budgetRelease s.readReservation

/-! ## Packets -/

/-- `alloc_downlink_packet`, without the record itself: its bytes are left in progress. -/
def allocDownlinkPacket (payloadLen : Nat) : Worker Bool := do
  let s ← get
  let bytes := downlinkPacketSize + payloadLen
  if s.readReservation ≥ bytes then
    modify fun s => takeReservation s bytes
    let allocated : Bool ← ask (.malloc bytes)
    if !allocated then modify fun s => holdReservation s bytes
    pure allocated
  else
    let reserved ← budgetReserve bytes
    if reserved then
      let allocated : Bool ← ask (.malloc bytes)
      if !allocated then budgetRelease bytes
      pure allocated
    else pure false

/-- `release_downlink_packet`, of a packet that was just taken out of its queue. -/
def releaseDownlinkPacket (k : Nat) (p : DownPacket) : Worker Unit := do
  modify fun s => s.modDown k fun d => { d with pendingCount := d.pendingCount - 1 }
  modify fun s => s.modBinding p.binding fun c =>
    { c with downlinkPendingCount := c.downlinkPendingCount - 1 }
  budgetRelease p.allocationBytes

/-! ## Channels -/

/-- `bpf2socks_udp_downlink_find_channel`: by the generation of a reply socket if the descriptor
is the binding's own, else by descriptor. -/
def findChannel (s : State) (k b fd : Nat) (usePktinfo raw : Bool) : Option Channel :=
  let c := s.bind.core b
  let bindingSource := c.replyFd = some fd
  (s.down k).channels.find? fun ch =>
    ch.sourceBinding = (if bindingSource then some b else none) &&
      (!bindingSource || ch.sourceBindingGeneration = c.replyFdGeneration) &&
      ch.sourceFd = fd && ch.usePktinfo = usePktinfo && ch.raw = raw

/-- Change the channel with a given address. -/
def modChannel (s : State) (k id : Nat) (f : Channel → Channel) : State :=
  s.modDown k fun d =>
    { d with channels := d.channels.map fun ch => if ch.id = id then f ch else ch }

/-- Take a channel out of its session: unlink it, deregister and close its descriptor.  Its queue
is set aside. -/
def unlinkChannel (s : State) (k : Nat) (ch : Channel) : State :=
  let s := s.modDown k fun d => { d with channels := d.channels.filter fun c => c.id ≠ ch.id }
  let s := s.epollRemove (.downlink k ch.id)
  let s := s.closeFd (some ch.fd)
  { s with retiring := ch.queue }

/-- Take the head of the queue set aside; its bytes are in progress. -/
def popRetiring (s : State) (p : DownPacket) (rest : List DownPacket) : State :=
  { s with retiring := rest, trace.inProgress := s.trace.inProgress + p.allocationBytes }

/-- The loop of `retire_downlink_channel` over the queue. -/
def releaseQueue (k : Nat) : List DownPacket → Worker Unit
  | [] => pure ()
  | p :: rest => do
      modify fun s => popRetiring s p rest
      releaseDownlinkPacket k p
      releaseQueue k rest

/-- `retire_downlink_channel`. -/
def retireDownlinkChannel (k : Nat) (ch : Channel) (resumeSession : Bool) : Worker Unit := do
  modify fun s => unlinkChannel s k ch
  releaseQueue k ch.queue
  modify fun s => { s with retired := ch.id :: s.retired }
  let s ← get
  let d := s.down k
  if resumeSession && (s.tbl.core k).used && d.pendingCount = 0 && !d.waitingBudget && d.paused then
    let _ ← setPaused k false
    pure ()
  else pure ()

/-- `bpf2socks_udp_downlink_free_retired`. -/
def downlinkFreeRetired : Worker Unit := modify fun s => { s with retired := [] }

/-- `bpf2socks_udp_downlink_release_session`.  Retiring the head unlinks it, so the loop runs once
through the channels. -/
def downlinkReleaseSession (k : Nat) : Worker Unit := do
  let s ← get
  Act.forEach (fun ch => retireDownlinkChannel k ch false) (s.down k).channels
  modify fun s => markReady (s.modDown k fun d => { d with pendingCount := 0, paused := false }) k

/-- Link a new channel in front. -/
def linkChannel (s : State) (k : Nat) (ch : Channel) : State :=
  s.modDown k fun d => { d with channels := ch :: d.channels }

/-- `create_downlink_channel`. -/
def createDownlinkChannel (k b fd : Nat) (usePktinfo raw : Bool) : Worker (Option Channel) := do
  let s ← get
  let id := s.kern.nextChannel
  let r ← dup fd (.channel id)
  match r with
  | none => pure none
  | some new =>
      let allocated : Bool ← ask (.malloc 1)
      if !allocated then
        modify fun s => s.closeFd (some new)
        pure none
      else
        modify fun s => { s with kern.nextChannel := id + 1 }
        let s ← get
        let c := s.bind.core b
        let own := c.replyFd = some fd
        let ch : Channel :=
          { id, queue := [], sourceBinding := if own then some b else none, fd := new
            sourceFd := fd
            sourceBindingGeneration := if own then c.replyFdGeneration else 0
            usePktinfo, raw }
        let added ← epollAdd (.downlink k id) .output
        if !added then
          modify fun s => s.closeFd (some new)
          pure none
        else
          modify fun s => linkChannel s k ch
          pure (some ch)

/-- Append an allocated packet to a channel's queue and count it. -/
def pushPacket (s : State) (k b id : Nat) (m : Msg) : State :=
  let bytes := downlinkPacketSize + m.payload.length
  let s := modChannel s k id fun ch => { ch with queue := ch.queue ++ [⟨b, m, bytes⟩] }
  let s := { s with trace.inProgress := s.trace.inProgress - bytes }
  let s := s.modDown k fun d => { d with pendingCount := d.pendingCount + 1 }
  let s := s.modBinding b fun c => { c with downlinkPendingCount := c.downlinkPendingCount + 1 }
  markReady s k

/-- `bpf2socks_udp_downlink_queue_packet` once the channel is known. -/
def queueOnChannel (k b : Nat) (m : Msg) (ch : Channel) (created : Bool) : Worker Bool := do
  let allocated ← allocDownlinkPacket m.payload.length
  if allocated then
    modify fun s => pushPacket s k b ch.id m
    let now ← nowMs
    modify fun s => bindingLruTouch (seenSession (seenBinding s b now) k now) k b
    setPaused k true
  else
    if created then retireDownlinkChannel k ch false
    pure false

/-- `bpf2socks_udp_downlink_queue_packet`. -/
def downlinkQueuePacket (k b : Nat) (m : Msg) (fd : Nat) (usePktinfo raw : Bool) :
    Worker Bool := do
  let s ← get
  match findChannel s k b fd usePktinfo raw with
  | some ch => queueOnChannel k b m ch false
  | none =>
      let r ← createDownlinkChannel k b fd usePktinfo raw
      match r with
      | none => pure false
      | some ch => queueOnChannel k b m ch true

/-! ## Sending -/

/-- The address family a raw send of the binding uses. -/
def rawFamily (c : Binding) : Family := if c.originalDst.family = .inet6 then .inet6 else .inet

/-- The bytes of a raw packet: IP header, UDP header and payload. -/
def rawLength (family : Family) (payloadLen : Nat) : Nat :=
  (if family = .inet6 then 40 else 20) + 8 + payloadLen

/-- The length field that must fit 16 bits: the whole packet for IPv4, without the header for
IPv6. -/
def rawLengthField (family : Family) (payloadLen : Nat) : Nat :=
  (if family = .inet6 then 0 else 20) + 8 + payloadLen

/-- `bpf2socks_udp_raw_send4` and `bpf2socks_udp_raw_send6`, as the family of the original
destination selects them. -/
def rawSend (fd k b : Nat) (m : Msg) : Worker (Except Errno Unit) := do
  let s ← get
  let c := s.bind.core b
  let family := rawFamily c
  if (s.tbl.core k).clientAddr.family ≠ family ∨ c.originalDst.family ≠ family then
    pure (.error .other)
  else if rawLengthField family m.payload.length > 65535 ∨ m.payload.length > udpBufferSize then
    pure (.error .emsgsize)
  else
    let r : Except Errno Nat ← ask (.sendto fd (rawLength family m.payload.length))
    match r with
    | .error e => pure (.error e)
    | .ok n =>
        if n = rawLength family m.payload.length then
          modify fun s => s.deliver k fd (rawSource · (s.bind.core b)) m
          pure (.ok ())
        else pure (.error .other)

/-- `sendmmsg` of plain datagrams to the client of session `k`. -/
def sendPlain (fd k : Nat) (usePktinfo : Bool) (entries : List (Nat × Msg)) :
    Worker (Except Errno Nat) := do
  let r : Except Errno Nat ← ask (.sendmmsg fd entries.length)
  match r with
  | .error e => pure (.error e)
  | .ok n =>
      modify fun s => s.deliverBatch k fd usePktinfo (entries.take n)
      pure (.ok n)

/-- `send_downlink_channel_packet`. -/
def sendDownlinkChannelPacket (k : Nat) (ch : Channel) (p : DownPacket) : Worker SendResult := do
  if ch.raw then
    let r ← rawSend ch.fd k p.binding p.msg
    match r with
    | .ok _ => pure .complete
    | .error e => pure (classifySendResult (.error e) 1)
  else
    let r ← sendPlain ch.fd k ch.usePktinfo [(p.binding, p.msg)]
    pure (classifySendResult r 1)

/-- Take the head packet off a channel's queue; its bytes are in progress. -/
def popPacket (s : State) (k id : Nat) (p : DownPacket) : State :=
  let s := modChannel s k id fun ch => { ch with queue := ch.queue.tail }
  { s with trace.inProgress := s.trace.inProgress + p.allocationBytes }

/-- The loop of `bpf2socks_udp_downlink_flush_channel`. -/
def flushChannelFrom (k id : Nat) : Nat → Worker Bool
  | 0 => diverge
  | fuel + 1 => do
      let s ← get
      match (s.down k).channels.find? (·.id = id) with
      | none => pure false
      | some ch =>
          match ch.queue with
          | [] =>
              retireDownlinkChannel k ch true
              pure true
          | p :: _ =>
              let r ← sendDownlinkChannelPacket k ch p
              match r with
              | .retry => pure true
              | .fatal => pure false
              | .complete =>
                  let now ← nowMs
                  modify fun s => seenSession (seenBinding s p.binding now) k now
                  count .udpPacketsToClient
                  count .udpCopySends
                  modify fun s => popPacket s k id p
                  releaseDownlinkPacket k p
                  flushChannelFrom k id fuel

/-- `bpf2socks_udp_downlink_flush_channel`: the queue only shrinks while it runs. -/
def downlinkFlushChannel (k id : Nat) : Worker Bool := do
  let s ← get
  let queued := ((s.down k).channels.find? (·.id = id)).elim 0 fun ch => ch.queue.length
  flushChannelFrom k id (queued + 1)

/-! ## Batches -/

/-- Take the first `n` entries off the batch. -/
def dropBatch (s : State) (n : Nat) : State :=
  { s with frame.batch.entries := s.frame.batch.entries.drop n }

/-- Mark the bindings of accepted entries as seen. -/
def seenEntries (s : State) (now : Nat) : List (Nat × Msg) → State
  | [] => s
  | (b, _) :: rest => seenEntries (seenBinding s b now) now rest

/-- The loop of `bpf2socks_udp_downlink_batch_flush` over the entries the socket did not take. -/
def queueEntries (k fd : Nat) (usePktinfo : Bool) : List (Nat × Msg) → Worker Bool
  | [] => pure true
  | (b, m) :: rest => do
      let queued ← downlinkQueuePacket k b m fd usePktinfo false
      if queued then
        modify fun s => dropBatch s 1
        queueEntries k fd usePktinfo rest
      else pure false

/-- `bpf2socks_udp_downlink_batch_flush` of a batch that holds something.  (The packet information
always fits its buffer.) -/
def flushBatch (k fd : Nat) (batch : Batch) : Worker Bool := do
  let r ← sendPlain fd k batch.usePktinfo batch.entries
  match classifySendResult r batch.entries.length with
  | .fatal => pure false
  | result =>
      let now ← nowMs
      modify fun s => seenSession s k now
      let accepted := r.toOption.getD 0
      modify fun s => dropBatch (seenEntries s now (batch.entries.take accepted)) accepted
      count .udpPacketsToClient accepted
      count .udpCopySends accepted
      let s ← get
      if result = .retry then
        if (s.assoc k).udpFd.isNone then pure false
        else
          let queued ← queueEntries k fd batch.usePktinfo (batch.entries.drop accepted)
          if queued then modify fun s => { s with frame.batch := .init }
          pure queued
      else
        modify fun s => { s with frame.batch := .init }
        pure true

/-- `bpf2socks_udp_downlink_batch_flush`. -/
def downlinkBatchFlush : Worker Bool := do
  let s ← get
  match s.frame.batch.entries, s.frame.batch.fd, s.frame.batch.session with
  | _ :: _, some fd, some k => flushBatch k fd s.frame.batch
  | _, _, _ => pure true

/-- Put the current message at the end of the batch. -/
def appendBatch (s : State) (k b fd : Nat) (usePktinfo : Bool) (m : Msg) : State :=
  let batch := s.frame.batch
  let batch := if batch.entries = [] then ⟨some fd, usePktinfo, some k, []⟩ else batch
  { s with frame.batch := { batch with entries := batch.entries ++ [(b, m)] } }

/-- `udp_downlink_batch_matches`. -/
def batchMatches (batch : Batch) (k fd : Nat) (usePktinfo : Bool) : Bool :=
  batch.entries ≠ [] && batch.fd = some fd && batch.usePktinfo = usePktinfo && batch.session = some k

/-- The end of `bpf2socks_udp_downlink_batch_queue`. -/
def batchAppend (k b fd : Nat) (usePktinfo : Bool) (m : Msg) : Worker Bool := do
  modify fun s => appendBatch s k b fd usePktinfo m
  let s ← get
  if s.frame.batch.entries.length ≥ udpMaxBatch then downlinkBatchFlush else pure true

/-- `bpf2socks_udp_downlink_batch_queue`. -/
def downlinkBatchQueue (k b : Nat) (m : Msg) (fd : Nat) (usePktinfo : Bool) : Worker Bool := do
  let s ← get
  if (findChannel s k b fd usePktinfo false).isSome then
    let flushed ← downlinkBatchFlush
    if flushed then downlinkQueuePacket k b m fd usePktinfo false else pure false
  else if s.frame.batch.entries ≠ [] ∧ !batchMatches s.frame.batch k fd usePktinfo then
    let flushed ← downlinkBatchFlush
    if flushed then batchAppend k b fd usePktinfo m else pure false
  else batchAppend k b fd usePktinfo m

/-! ## Waiting for the budget -/

/-- The DNS half of `bpf2socks_udp_downlink_resume_budget_waiters`. -/
def resumeDnsChannel (i : Fin dnsChannelsPerWorker) : Worker Unit := do
  let s ← get
  if (s.dns i).relayPaused && (s.dns i).udpFd.isSome then
    let done ← epollModify (.dnsRelay i) .input
    if done then
      modify fun s => { s with dns := update s.dns i { s.dns i with relayPaused := false } }
  else pure ()

/-- One round of the session half. -/
def resumeSession (k : Nat) : Worker Unit := do
  let s ← get
  let d := s.down k
  if (s.tbl.core k).used && d.waitingBudget && d.pendingCount = 0 then
    let resumed ← setPaused k false
    if resumed then modify fun s => markReady s k
  else pure ()

/-- The session half, if any session waits. -/
def resumeSessions : Worker Unit := do
  let s ← get
  if s.waiters = 0 then pure ()
  else
    let used : Nat ← ask .budgetUsed
    if s.cfg.budgetCap < downlinkMaxAllocation ∨ used > s.cfg.budgetCap - downlinkMaxAllocation then
      pure ()
    else Act.forEach resumeSession (List.range s.tbl.cap)

/-- `bpf2socks_udp_downlink_resume_budget_waiters`. -/
def resumeBudgetWaiters : Worker Unit := do
  let s ← get
  let used : Nat ← ask .budgetUsed
  if downlinkMaxAllocation ≤ s.cfg.budgetCap ∧ used ≤ s.cfg.budgetCap - downlinkMaxAllocation then
    Act.forEach resumeDnsChannel (List.finRange dnsChannelsPerWorker)
  resumeSessions

end Bpf2Socks.Udp
