/-
# Bpf2Socks.Dns.Query — queries, responses and the runs of the DNS fast path.

A client batch takes each DNS query into the table under a new id and remembers the slot it got;
after the loop the batch is flushed, channel by channel.  A datagram from the relay is matched to
a transaction by the channel it came in on and the id it carries, given its old id back, and sent
to the client.

`Reach` is what any order of client batches, channel events and maintenance, with any answers of
the environment, can lead to.
-/
import Bpf2Socks.Dns.Channel

namespace Bpf2Socks.Dns

open Function (update)
open Fast
open Lib (Prog)
open Udp (Family Sockaddr DstAddr Errno Bits ClientPacket RelayDatagram)

/-! ## Client batches -/

/-- `bpf2socks_udp_dns_is_candidate`. -/
def isCandidate (cfg : Config) (p : ClientPacket) : Bool :=
  cfg.enableDnsHijack && p.originalDst.port = 53 &&
    (p.originalDst.family = .inet || p.originalDst.family = .inet6)

/-- Copy the client's side of a packet into its transaction.  The ghost part gives the query the
next number. -/
def noteQuery (s : State) (slot : Nat) (p : ClientPacket) (info : PacketInfo) : State :=
  let tx :=
    { s.table.transactions slot with
      clientAddr := p.clientAddr, originalDst := p.originalDst, tokenFamily := p.tokenFamily
      tokenAddr := p.tokenAddr.take (if p.tokenFamily = .inet6 then 16 else 4)
      connectedUdpToken := p.connectedUdpToken, originalFromSocket := p.originalFromSocket }
  { s with
    table.transactions := update s.table.transactions slot tx
    trace.queries := s.trace.queries ++ [⟨p.clientAddr, info.id, info.questionFingerprint⟩]
    trace.owner := update s.trace.owner slot s.trace.queries.length }

/-- `bpf2socks_udp_dns_prepare_query`. -/
def prepareQuery (p : ClientPacket) (info : PacketInfo) (nowMs : Nat) : Fast (Option Entry) := do
  let chosen ← selectChannel nowMs
  match chosen with
  | none => pure none
  | some c =>
      let s ← get
      let r := s.table.alloc c info.id info.questionFingerprint nowMs
      modify fun s => { s with table := r.1 }
      match r.2 with
      | .error _ => pure none
      | .ok slot =>
          let channel := (r.1.transactions slot).channelIndex
          let good ← ensureChannel channel nowMs
          if good then
            let s ← get
            modify fun s => noteQuery s slot p info
            let tx := s.table.transactions slot
            pure (some
              { slot, channel := tx.channelIndex
                msg := ⟨p.originalDst, setId p.payload tx.rewrittenId⟩
                uid := s.trace.queries.length })
          else
            modify fun s => { s with table := s.table.release slot }
            pure none

/-- The DNS part of the packet loop of `handle_udp_client_packets`; what it does not take goes the
way of ordinary datagrams. -/
def takeQueries (nowMs : Nat) : List ClientPacket → List Entry → Fast (List Entry)
  | [], entries => pure entries
  | p :: rest, entries => do
      let s ← get
      if isCandidate s.cfg p then
        match parseQuery p.payload with
        | none => takeQueries nowMs rest entries
        | some info =>
            let r ← prepareQuery p info nowMs
            match r with
            | none => takeQueries nowMs rest entries
            | some e => takeQueries nowMs rest (entries ++ [e])
      else takeQueries nowMs rest entries

/-- Record what happened to an entry. -/
def State.noteFlush (s : State) (deed : Deed) (e : Entry) : State :=
  { s with trace.flushed :=
      ⟨deed, e, s.table.transactions e.slot, s.trace.owner e.slot⟩ :: s.trace.flushed }

/-- `bpf2socks_dns_table_release` of an entry's transaction. -/
def State.releaseEntry (s : State) (e : Entry) : State :=
  let s := s.noteFlush .released e
  { s with table := s.table.release e.slot }

/-- `bpf2socks_udp_dns_flush_outgoing` for the entries of one channel. -/
def flushGroup (c : UInt32) (group : List Entry) : Fast Unit := do
  let s ← get
  let ch := s.channels c
  match ch.udpFd with
  | some fd =>
      if ch.available then
        let r : Except Errno Nat ← ask (.relaySendmmsg fd (group.map (·.msg)))
        match r with
        | .ok (n + 1) =>
            modify fun s => (group.take (n + 1)).foldl (fun s e => s.noteFlush .sent e) s
            modify fun s => (group.drop (n + 1)).foldl State.releaseEntry s
        | .error .eagain => modify fun s => group.foldl State.releaseEntry s
        | .error .enobufs => modify fun s => group.foldl State.releaseEntry s
        | _ =>
            let now : Nat ← ask .nowMs
            closeChannel c now
      else
        let now : Nat ← ask .nowMs
        closeChannel c now
  | none =>
      let now : Nat ← ask .nowMs
      closeChannel c now

/-- The loop of `bpf2socks_udp_dns_flush_outgoing`: the entries of the first one's channel, then
the rest.  Every round takes at least one entry out. -/
def flushFrom : Nat → List Entry → Fast Unit
  | 0, _ => pure ()
  | _ + 1, [] => pure ()
  | fuel + 1, e :: entries => do
      if e.channel ≥ channelsPerWorker then
        modify fun s => s.releaseEntry e
        flushFrom fuel entries
      else
        flushGroup e.channel (e :: entries.filter fun e' => e'.channel = e.channel)
        flushFrom fuel (entries.filter fun e' => e'.channel ≠ e.channel)

/-- `bpf2socks_udp_dns_flush_outgoing`. -/
def flushOutgoing (entries : List Entry) : Fast Unit := flushFrom entries.length entries

/-- `handle_udp_client_packets`, the part that concerns the fast path. -/
def handleClients : Fast Unit := do
  let packets : List ClientPacket ← ask .recvClients
  let s ← get
  let now : Nat ← ask .nowMs
  expireTransactions now
  let entries ← takeQueries now (packets.take s.cfg.batchSize) []
  flushOutgoing entries

/-! ## Responses -/

/-- `dns_transaction_needs_original_reply_socket`. -/
def needsOriginalReplySocket (tx : Transaction) : Bool :=
  !tx.connectedUdpToken && (tx.originalFromSocket || tx.originalDst.family = .inet ||
    tx.originalDst.family = .inet6)

/-- `ensure_dns_raw_reply_socket`. -/
def ensureRawReplySocket (family : Family) : Fast (Option Nat) := do
  let s ← get
  if family = .inet then
    match s.raw4Fd with
    | some fd => pure (some fd)
    | none =>
        let r : Option Nat ← ask (.rawReplySocket family)
        modify fun s => { s with raw4Fd := r }
        pure r
  else if family = .inet6 then
    match s.raw6Fd with
    | some fd => pure (some fd)
    | none =>
        let r : Option Nat ← ask (.rawReplySocket family)
        modify fun s => { s with raw6Fd := r }
        pure r
  else pure none

/-- `send_dns_response_with_binding` through a reply socket. -/
def sendThrough (tx : Transaction) (fd : Nat) (raw : Bool) (payload : List UInt8) :
    Fast (Except Errno Unit) := do
  if raw then
    let r : Except Errno Unit ← ask (.rawSend fd tx.clientAddr tx.originalDst payload)
    pure r
  else
    let r : Except Errno Nat ← ask (.plainSend fd tx.clientAddr payload)
    match r with
    | .ok (_ + 1) => pure (.ok ())
    | .ok 0 => pure (.error .other)
    | .error e => pure (.error e)

/-- `send_dns_response_to_client` through a socket made for this response. -/
def sendThroughOwn (tx : Transaction) (payload : List UInt8) : Fast Bool := do
  let r : Option (Nat × Bool) ← ask (.replySocket tx.originalDst)
  match r with
  | none => pure false
  | some (fd, raw) =>
      let sent ← sendThrough tx fd raw payload
      match sent with
      | .ok _ => pure true
      | .error _ => pure false

/-- The listener a connected client is answered from. -/
def replyListener (cfg : Config) (client : Sockaddr) : Nat :=
  if client.family = .inet6 then cfg.listener6.getD cfg.listener4 else cfg.listener4

/-- `send_dns_response_to_client`. -/
def sendResponse (tx : Transaction) (payload : List UInt8) : Fast Bool := do
  if needsOriginalReplySocket tx then
    let rawFd ← ensureRawReplySocket tx.originalDst.family
    match rawFd with
    | some fd =>
        let sent ← sendThrough tx fd true payload
        match sent with
        | .ok _ => pure true
        | .error .emsgsize => sendThroughOwn tx payload
        | .error _ => pure false
    | none => sendThroughOwn tx payload
  else
    let s ← get
    let sent ← sendThrough tx (replyListener s.cfg tx.clientAddr) false payload
    match sent with
    | .ok _ => pure true
    | .error _ => pure false

/-- Record a response that was forwarded. -/
def noteAnswer (s : State) (c : UInt32) (slot : Nat) (arrived payload : List UInt8) : State :=
  { s with trace.answers :=
      ⟨s.trace.owner slot, (s.table.transactions slot).clientAddr, payload, c, arrived,
        s.table.transactions slot⟩ :: s.trace.answers }

/-- One datagram of `bpf2socks_udp_dns_handle_upstream`. -/
def handleResponse (c : UInt32) (m : RelayDatagram) : Fast Unit := do
  if m.error.isSome then pure ()
  else
    match parseResponse m.payload with
    | none => pure ()
    | some info =>
        let s ← get
        match s.table.find c info.id with
        | none => pure ()
        | some slot =>
            let tx := s.table.transactions slot
            if info.hasQuestion ∧ info.questionFingerprint ≠ tx.questionFingerprint then pure ()
            else
              modify fun s => { s with table := s.table.noteResponse c }
              let payload := setId m.payload tx.originalId
              let sent ← sendResponse tx payload
              if sent then modify fun s => noteAnswer s c slot m.payload payload
              modify fun s => { s with table := s.table.release slot }

/-- `bpf2socks_udp_dns_handle_upstream`. -/
def handleUpstream (c : UInt32) : Fast Unit := do
  let s ← get
  let ch := s.channels c
  match ch.udpFd with
  | none => pure ()
  | some fd =>
      if ch.available then
        let slots : Option Nat ← ask (.reserveSlots s.cfg.batchSize)
        match slots with
        | none =>
            modify fun s => s.modChannel c fun ch => { ch with relayPaused := true }
            let _ : Bool ← ask (.epollModify fd .none)
            pure ()
        | some batch =>
            let r : Except Errno (List RelayDatagram) ← ask (.relayRecv fd batch)
            ask .releaseReservation
            match r with
            | .ok messages => Lib.Act.forEach (handleResponse c) messages
            | .error .emsgsize => pure ()
            | .error .eagain => pure ()
            | .error _ =>
                let now : Nat ← ask .nowMs
                closeChannel c now
      else pure ()

/-- The relay event of the worker's loop. -/
def relayEvent (c : UInt32) (bits : Bits) : Fast Unit := do
  let s ← get
  let ch := s.channels c
  if ch.available ∧ ch.udpFd.isSome then
    if bits.err || bits.hup then
      let now : Nat ← ask .nowMs
      closeChannel c now
    else if bits.inp then handleUpstream c
    else pure ()
  else pure ()

/-- The DNS part of `udp_run_maintenance`. -/
def maintain : Fast Unit := do
  let t : Nat ← ask .nowMs
  expireTransactions t
  let t : Nat ← ask .nowMs
  expireHandshakes t

/-- `bpf2socks_udp_downlink_resume_budget_waiters` for a DNS channel. -/
def resumeRelay (c : UInt32) : Fast Unit := do
  let s ← get
  match (s.channels c).udpFd with
  | none => pure ()
  | some fd =>
      if (s.channels c).relayPaused then
        let done : Bool ← ask (.epollModify fd .input)
        if done then modify fun s => s.modChannel c fun ch => { ch with relayPaused := false }

/-! ## Runs -/

/-- What the worker's loop can have the fast path do. -/
inductive Event where
  | clients
  | control (channel : UInt32) (bits : Bits)
  | relay (channel : UInt32) (bits : Bits)
  | resume (channel : UInt32)
  | maintain

/-- Handle an event. -/
def handle : Event → Fast Unit
  | .clients => handleClients
  | .control c bits => do
      let now : Nat ← ask .nowMs
      controlEvent c bits now
  | .relay c bits => relayEvent c bits
  | .resume c => resumeRelay c
  | .maintain => maintain

/-- An event of an existing channel. -/
def Event.valid : Event → Prop
  | .control c _ => c < channelsPerWorker
  | .relay c _ => c < channelsPerWorker
  | .resume c => c < channelsPerWorker
  | _ => True

/-- The states the fast path can reach, with any answers. -/
inductive Reach (cfg : Config) : State → Prop where
  | init {s : State} (h : initState cfg = some s) : Reach cfg s
  | next {s s' : State} (h : Reach cfg s) (ev : Event) (hev : ev.valid)
      (ho : Prog.Out (fun _ _ _ => True) (handle ev s) s' ()) : Reach cfg s'

end Bpf2Socks.Dns
