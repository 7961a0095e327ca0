/-
# Bpf2Socks.Udp.Uplink — sending a batch to the relay, and the datagrams that wait for it.

The batch loop hands the rest of its messages to the kernel until nothing is left.  The kernel takes
a prefix, or refuses the first one, or is interrupted, or is busy; the loop goes on by as many
messages as that settles.  Datagrams that arrive before the association is complete are kept in a
singly linked list, which is then sent in batches and freed as it goes, and a failed batch leaves
the rest of the list to the drop of the session.

Here the messages, the list's memory and its pointers are as the code has them.  Reading or freeing
a cell that is not allocated is a `fault`.  The record of calls, of batches and of releases is
ghost.
-/
import Bpf2Socks.Lib.Chain
import Bpf2Socks.Udp.Datagram

namespace Bpf2Socks.Udp.Uplink

open Function (update update_self update_of_ne)
open Lib (Cell Heap Seg Queue)

/-! ## Sending -/

/-- `struct bpf2socks_udp_msg`: the original destination and the payload. -/
abbrev UdpMsg := DstAddr × List UInt8

/-- A call of `bpf2socks_socks5_udp_sendmmsg`: what it was given and what came of it. -/
structure Call where
  messages : List UdpMsg
  result : Except Errno Nat

/-- The relay socket: what `sendmmsg` answers to the `i`-th call.  It takes no more than it is
given. -/
structure Relay where
  answer : Nat → List UdpMsg → Except Errno Nat
  bounded : ∀ i messages n, answer i messages = .ok n → n ≤ messages.length

/-- The state of one session's uplink, the memory of its pending packets and the counters. -/
structure Link where
  heap : Heap PendingPacket
  head : Option Nat
  tail : Option Nat
  pendingCount : Nat
  dropsOversized : Nat
  dropsSendBusy : Nat
  packetsToUpstream : Nat
  copySends : Nat
  /-- Calls of `bpf2socks_socks5_udp_sendmmsg`, oldest first. -/
  calls : List Call
  /-- Calls of `bpf2socks_udp_relay_send_batch`, oldest first. -/
  batches : List (List UdpMsg)
  /-- Packets freed, with the bytes given back to the budget, oldest first. -/
  released : List (Nat × Nat)

/-- The ways a run goes wrong: a read or a free of memory that is not allocated, and a loop still
running after the rounds it was given. -/
inductive Stuck where
  | fault
  | endless
  deriving DecidableEq

/-- `bpf2socks_socks5_udp_sendmmsg`: a message whose address has no SOCKS5 form fails the call
before the kernel is asked. -/
def socks5UdpSendmmsg (relay : Relay) (i : Nat) (messages : List UdpMsg) : Except Errno Nat :=
  if messages = [] then .error .other
  else if (socks5UdpDatagrams messages).isNone then .error .other
  else relay.answer i messages

/-- The loop of `bpf2socks_udp_relay_send_batch`, with what is sent or passed over so far and how
many of those were too large. -/
def sendLoop (relay : Relay) (messages : List UdpMsg) :
    Nat → Link → Nat → Nat → Except Stuck (Link × Option (Nat × Nat))
  | 0, _, _, _ => .error .endless
  | fuel + 1, s, sentTotal, oversized =>
      if sentTotal < messages.length then
        let rest := messages.drop sentTotal
        let sent := socks5UdpSendmmsg relay s.calls.length rest
        let s := { s with calls := s.calls ++ [⟨rest, sent⟩] }
        match sent with
        | .ok (n + 1) => sendLoop relay messages fuel s (sentTotal + (n + 1)) oversized
        | .ok 0 => .ok (s, none)
        | .error e =>
            if e = .eintr then sendLoop relay messages fuel s sentTotal oversized
            else if e = .emsgsize then
              sendLoop relay messages fuel s (sentTotal + 1) (oversized + 1)
            else if sendErrnoIsTransient e then
              .ok ({ s with dropsSendBusy := s.dropsSendBusy + (messages.length - sentTotal) },
                some (sentTotal, oversized))
            else .ok (s, none)
      else .ok (s, some (sentTotal, oversized))

/-- `bpf2socks_udp_relay_send_batch`: the number sent, or `none` for -1. -/
def relaySendBatch (relay : Relay) (fuel : Nat) (messages : List UdpMsg) (s : Link) :
    Except Stuck (Link × Option Nat) := do
  let (s, r) ← sendLoop relay messages fuel { s with batches := s.batches ++ [messages] } 0 0
  match r with
  | none => pure (s, none)
  | some (sentTotal, oversized) =>
      pure
        ({ s with
            dropsOversized := s.dropsOversized + oversized
            packetsToUpstream := s.packetsToUpstream + (sentTotal - oversized)
            copySends := s.copySends + (sentTotal - oversized) },
          some (sentTotal - oversized))

/-! ## Pending packets -/

/-- `bpf2socks_udp_session_queue_pending`.  `reserved` says whether the budget has room, and
`memory` is what `malloc` returns. -/
def queuePending (s : Link) (dst : DstAddr) (payload : List UInt8) (payloadCap : Nat)
    (reserved : Bool) (memory : Option Nat) : Except Stuck (Link × Except Errno Unit) :=
  if payload.length > payloadCap then .ok (s, .error .other)
  else if !reserved then .ok (s, .error .enobufs)
  else
    match memory with
    | none => .ok (s, .error .enomem)
    | some a =>
        let heap := update s.heap a (some ⟨⟨dst, payload, pendingPacketSize + payload.length⟩, none⟩)
        match s.tail with
        | none =>
            .ok ({ s with
              heap, head := some a, tail := some a, pendingCount := s.pendingCount + 1 }, .ok ())
        | some t =>
            match heap t with
            | none => .error .fault
            | some cell =>
                .ok ({ s with
                  heap := update heap t (some { cell with next := some a })
                  tail := some a
                  pendingCount := s.pendingCount + 1 }, .ok ())

/-- `bpf2socks_udp_session_release_pending`: the bytes are read before the packet is freed. -/
def releasePending (s : Link) (a : Nat) : Except Stuck Link :=
  match s.heap a with
  | none => .error .fault
  | some cell =>
      .ok { s with
        heap := update s.heap a none
        released := s.released ++ [(a, cell.val.allocationBytes)] }

/-- The inner loop of `flush_session_pending_packets`: up to so many packets from a pointer on. -/
def gather (heap : Heap PendingPacket) : Nat → Option Nat → Except Stuck (List (Nat × PendingPacket))
  | 0, _ => .ok []
  | _ + 1, none => .ok []
  | n + 1, some a =>
      match heap a with
      | none => .error .fault
      | some cell => (gather heap n cell.next).map ((a, cell.val) :: ·)

/-- One packet of a batch that was sent: unlink it if it is the head, clear the tail if it is the
tail, and free it. -/
def finishPacket (s : Link) (a : Nat) : Except Stuck Link := do
  let head ←
    if s.head = some a then
      match s.heap a with
      | none => .error .fault
      | some cell => pure cell.next
    else pure s.head
  releasePending
    { s with
      head
      tail := if s.tail = some a then none else s.tail
      pendingCount := if s.pendingCount > 0 then s.pendingCount - 1 else s.pendingCount } a

/-- The packets of a batch, in order. -/
def finishBatch (s : Link) : List Nat → Except Stuck Link
  | [] => .ok s
  | a :: rest => do
      let s ← finishPacket s a
      finishBatch s rest

/-- The outer loop of `flush_session_pending_packets`. -/
def flushLoop (relay : Relay) (fuel : Nat) : Nat → Link → Except Stuck (Link × Bool)
  | 0, _ => .error .endless
  | n + 1, s =>
      if s.head = none then .ok ({ s with tail := none }, true)
      else do
        let packets ← gather s.heap udpMaxBatch s.head
        let (s, sent) ← relaySendBatch relay fuel
          (packets.map fun p => (p.2.originalDst, p.2.payload)) s
        if sent = none then pure (s, false)
        else do
          let s ← finishBatch s (packets.map (·.1))
          flushLoop relay fuel n s

/-- `flush_session_pending_packets`. -/
def flushSessionPendingPackets (relay : Relay) (fuel : Nat) (s : Link) :
    Except Stuck (Link × Bool) := flushLoop relay fuel fuel s

/-- The loop of `release_session_pending_packets`; `next` is read before the packet is freed. -/
def releaseFrom : Nat → Link → Option Nat → Except Stuck Link
  | 0, _, _ => .error .endless
  | _ + 1, s, none => .ok s
  | n + 1, s, some a =>
      match s.heap a with
      | none => .error .fault
      | some cell => do
          let s ← releasePending s a
          releaseFrom n s cell.next

/-- `release_session_pending_packets`, which `bpf2socks_udp_session_close` runs for a dropped
session. -/
def releaseSessionPendingPackets (fuel : Nat) (s : Link) : Except Stuck Link := do
  let s ← releaseFrom fuel s s.head
  pure { s with head := none, tail := none, pendingCount := 0 }

/-! ## What becomes of the messages of a batch -/

/-- The end of a message: the kernel took it, or it was dropped and counted as too large or for a
busy socket. -/
inductive Fate where
  | sent
  | oversized
  | busy
  deriving DecidableEq

/-- The messages the kernel took in a call. -/
def Call.taken (c : Call) : List UdpMsg :=
  match c.result with
  | .ok n => c.messages.take n
  | .error _ => []

/-- What a call settles: the fates of the first messages it was given. -/
def Call.fates (c : Call) : List Fate :=
  match c.result with
  | .ok n => List.replicate n .sent
  | .error e =>
      if e = .emsgsize then [.oversized]
      else if sendErrnoIsTransient e then List.replicate c.messages.length .busy
      else []

/-- An answer that ends the batch with -1. -/
def Call.Fatal (c : Call) : Prop :=
  match c.result with
  | .ok n => n = 0
  | .error e => e ≠ .eintr ∧ e ≠ .emsgsize ∧ sendErrnoIsTransient e = false

/-- The relay socket's answers from the `i`-th call on. -/
def Answers (relay : Relay) : Nat → List Call → Prop
  | _, [] => True
  | i, c :: calls => c.result = socks5UdpSendmmsg relay i c.messages ∧ Answers relay (i + 1) calls

/-- Each call is given what the calls before it have left of the messages. -/
def Follows (messages : List UdpMsg) : List Call → Prop
  | [] => True
  | c :: calls => c.messages = messages ∧ Follows (messages.drop c.fates.length) calls

/-- A fatal answer, and none before it. -/
def EndsFatal (calls : List Call) : Prop :=
  ∃ init c, calls = init ++ [c] ∧ c.Fatal ∧ ∀ d ∈ init, ¬ d.Fatal

theorem Answers.append {relay : Relay} {i : Nat} {calls calls' : List Call}
    (h : Answers relay i calls) (h' : Answers relay (i + calls.length) calls') :
    Answers relay i (calls ++ calls') := by
  induction calls generalizing i with
  | nil => exact h'
  | cons c calls ih =>
      refine ⟨h.1, ih h.2 ?_⟩
      rwa [Nat.add_assoc, Nat.add_comm 1, ← List.length_cons]

theorem Follows.append {messages : List UdpMsg} {calls calls' : List Call}
    (h : Follows messages calls)
    (h' : Follows (messages.drop (calls.flatMap Call.fates).length) calls') :
    Follows messages (calls ++ calls') := by
  induction calls generalizing messages with
  | nil => exact h'
  | cons c calls ih =>
      refine ⟨h.1, ih h.2 ?_⟩
      rwa [List.drop_drop, ← List.length_append, ← List.flatMap_cons]

theorem EndsFatal.append {calls calls' : List Call} (h : ∀ c ∈ calls, ¬ c.Fatal)
    (h' : EndsFatal calls') : EndsFatal (calls ++ calls') := by
  obtain ⟨init, c, rfl, hc, hinit⟩ := h'
  refine ⟨calls ++ init, c, (List.append_assoc ..).symm, hc, fun d hd => ?_⟩
  rcases List.mem_append.mp hd with hd | hd
  · exact h d hd
  · exact hinit d hd

/-- The messages whose fate is to be sent, in order; a message without a fate is not among them. -/
def sentOf : List UdpMsg → List Fate → List UdpMsg
  | m :: messages, .sent :: fates => m :: sentOf messages fates
  | _ :: messages, _ :: fates => sentOf messages fates
  | _, _ => []

theorem sentOf_append {fates : List Fate} {messages : List UdpMsg}
    (h : fates.length ≤ messages.length) (more : List Fate) :
    sentOf messages (fates ++ more) =
      sentOf messages fates ++ sentOf (messages.drop fates.length) more := by
  induction fates generalizing messages with
  | nil => cases messages <;> simp [sentOf]
  | cons f fates ih =>
      rcases messages with _ | ⟨m, messages⟩
      · simp at h
      · have := @ih messages (by simpa using h)
        cases f <;> simp [sentOf, this]

/-- Fates say nothing of the messages behind them. -/
theorem sentOf_prefix {fates : List Fate} {messages : List UdpMsg}
    (h : fates.length ≤ messages.length) (more : List UdpMsg) :
    sentOf (messages ++ more) fates = sentOf messages fates := by
  induction fates generalizing messages with
  | nil => cases messages <;> cases more <;> rfl
  | cons f fates ih =>
      rcases messages with _ | ⟨m, messages⟩
      · simp at h
      · have := @ih messages (by simpa using h)
        cases f <;> simp [sentOf, this]

/-- Two batches, the first of them settled. -/
theorem sentOf_batches {fates : List Fate} {messages : List UdpMsg}
    (h : fates.length = messages.length) (messages' : List UdpMsg) (fates' : List Fate) :
    sentOf (messages ++ messages') (fates ++ fates') =
      sentOf messages fates ++ sentOf messages' fates' := by
  have hle : fates.length ≤ (messages ++ messages').length := by
    rw [List.length_append, h]
    exact Nat.le_add_right _ _
  rw [sentOf_append hle, sentOf_prefix (Nat.le_of_eq h), List.drop_left' h.symm]

theorem sentOf_sent {n : Nat} {messages : List UdpMsg} (h : n ≤ messages.length) :
    sentOf messages (List.replicate n .sent) = messages.take n := by
  induction n generalizing messages with
  | zero => cases messages <;> rfl
  | succ n ih =>
      rcases messages with _ | ⟨m, messages⟩
      · simp at h
      · rw [List.replicate_succ, sentOf, ih (by simpa using h), List.take_succ_cons]

theorem sentOf_dropped {fates : List Fate} (h : .sent ∉ fates) (messages : List UdpMsg) :
    sentOf messages fates = [] := by
  induction fates generalizing messages with
  | nil => cases messages <;> rfl
  | cons f fates ih =>
      rw [List.mem_cons, not_or] at h
      rcases messages with _ | ⟨m, messages⟩
      · rfl
      · cases f with
        | sent => exact absurd rfl h.1
        | oversized => exact ih h.2 messages
        | busy => exact ih h.2 messages

/-- A call settles no more than it was given. -/
theorem Call.fates_fit {c : Call} (hne : c.messages ≠ [])
    (hok : ∀ n, c.result = .ok n → n ≤ c.messages.length) : c.fates.length ≤ c.messages.length := by
  unfold Call.fates
  split
  · rw [List.length_replicate]
    exact hok _ ‹_›
  · split
    · exact List.length_pos_iff.mpr hne
    · split
      · exact Nat.le_of_eq List.length_replicate
      · exact Nat.zero_le _

/-- The kernel took the messages the call counts as sent. -/
theorem Call.taken_eq {c : Call} (hok : ∀ n, c.result = .ok n → n ≤ c.messages.length) :
    c.taken = sentOf c.messages c.fates := by
  unfold Call.taken Call.fates
  split
  · rw [sentOf_sent (hok _ ‹_›)]
  · split
    · exact (sentOf_dropped (by simp) _).symm
    · split
      · exact (sentOf_dropped (by simp [List.mem_replicate]) _).symm
      · exact (sentOf_dropped (by simp) _).symm

theorem socks5UdpSendmmsg_ok {relay : Relay} {i n : Nat} {messages : List UdpMsg}
    (h : socks5UdpSendmmsg relay i messages = .ok n) : n ≤ messages.length := by
  unfold socks5UdpSendmmsg at h
  split at h
  · cases h
  · split at h
    · cases h
    · exact relay.bounded i messages n h

/-- Only the kernel interrupts. -/
theorem socks5UdpSendmmsg_eintr {relay : Relay} {i : Nat} {messages : List UdpMsg}
    (h : socks5UdpSendmmsg relay i messages = .error .eintr) :
    relay.answer i messages = .error .eintr := by
  unfold socks5UdpSendmmsg at h
  split at h
  · cases h
  · split at h
    · cases h
    · exact h

/-- The calls made so far for a batch, from the `i`-th on, when the fates of its first messages are
settled: each call passed what was left of the batch at the time, the socket's answers are what
settles the fates, and the kernel took exactly the messages that count as sent, in order. -/
structure Settles (relay : Relay) (i : Nat) (messages : List UdpMsg) (calls : List Call)
    (fates : List Fate) : Prop where
  fits : fates.length ≤ messages.length
  asks : ∀ c ∈ calls, c.messages ≠ []
  answers : Answers relay i calls
  follows : Follows messages calls
  fates_eq : fates = calls.flatMap Call.fates
  taken : calls.flatMap Call.taken = sentOf messages fates

namespace Settles

variable {relay : Relay} {i : Nat} {messages : List UdpMsg} {calls : List Call} {fates : List Fate}

theorem start (relay : Relay) (i : Nat) (messages : List UdpMsg) :
    Settles relay i messages [] [] := by
  refine ⟨Nat.zero_le _, by simp, trivial, trivial, rfl, ?_⟩
  cases messages <;> rfl

/-- One more call. -/
theorem call (h : Settles relay i messages calls fates) (hlt : fates.length < messages.length)
    {r : Except Errno Nat}
    (hr : socks5UdpSendmmsg relay (i + calls.length) (messages.drop fates.length) = r) :
    Settles relay i messages (calls ++ [⟨messages.drop fates.length, r⟩])
      (fates ++ Call.fates ⟨messages.drop fates.length, r⟩) := by
  have hlen : (messages.drop fates.length).length = messages.length - fates.length :=
    List.length_drop
  have hne : messages.drop fates.length ≠ [] := by
    intro he
    rw [he, List.length_nil] at hlen
    omega
  have hok : ∀ n, r = .ok n → n ≤ (messages.drop fates.length).length := by
    rintro n rfl
    exact socks5UdpSendmmsg_ok hr
  generalize hc : (⟨messages.drop fates.length, r⟩ : Call) = c
  have hmessages : c.messages = messages.drop fates.length := by rw [← hc]
  have hresult : c.result = r := by rw [← hc]
  have hfits : c.fates.length ≤ c.messages.length :=
    Call.fates_fit (by rw [hmessages]; exact hne) (by rw [hmessages, hresult]; exact hok)
  refine ⟨?_, fun d hd => ?_, h.answers.append ⟨?_, trivial⟩, h.follows.append ⟨?_, trivial⟩, ?_, ?_⟩
  · rw [hmessages, hlen] at hfits
    rw [List.length_append]
    omega
  · rcases List.mem_append.mp hd with hd | hd
    · exact h.asks d hd
    · rw [List.mem_singleton.mp hd, hmessages]
      exact hne
  · rw [hresult, hmessages, hr]
  · rw [hmessages, ← h.fates_eq]
  · rw [List.flatMap_append, ← h.fates_eq, List.flatMap_singleton]
  · rw [List.flatMap_append, h.taken, sentOf_append h.fits, List.flatMap_singleton, ← hmessages,
      Call.taken_eq (by rw [hmessages, hresult]; exact hok)]

end Settles

/-! ## The batch loop -/

section Batch

variable {relay : Relay} {N : Nat}

/-- Every fate is one of the three. -/
theorem Fate.counts (fates : List Fate) :
    fates.count .sent + fates.count .oversized + fates.count .busy = fates.length := by
  induction fates with
  | nil => rfl
  | cons f fates ih => cases f <;> simp <;> omega

/-- With the first messages settled and enough rounds left, the loop returns.  It gives up at a
fatal answer, or settles everything: the number it returns are those sent or too large, and the rest
was counted as busy. -/
theorem sendLoop_spec (hintr : ∀ i ≥ N, ∀ messages, relay.answer i messages ≠ .error .eintr)
    (messages : List UdpMsg) (fuel : Nat) {s : Link} {before calls : List Call} {fates : List Fate}
    (hcalls : s.calls = before ++ calls) (h : Settles relay before.length messages calls fates)
    (halive : ∀ c ∈ calls, ¬ c.Fatal) (hbusy : fates.count .busy = 0)
    (hfuel : (N - s.calls.length) + (messages.length - fates.length) < fuel) :
    ∃ calls' fates', Settles relay before.length messages calls' fates' ∧
      (EndsFatal calls' ∧
        sendLoop relay messages fuel s fates.length (fates.count .oversized) =
          .ok ({ s with calls := before ++ calls' }, none) ∨
        (∀ c ∈ calls', ¬ c.Fatal) ∧ fates'.length = messages.length ∧
        sendLoop relay messages fuel s fates.length (fates.count .oversized) =
          .ok ({ s with
              calls := before ++ calls'
              dropsSendBusy := s.dropsSendBusy + fates'.count .busy },
            some (fates'.count .sent + fates'.count .oversized, fates'.count .oversized))) := by
  induction fuel generalizing s calls fates with
  | zero => omega
  | succ fuel ih =>
      rw [sendLoop]
      by_cases hlt : fates.length < messages.length
      · rw [if_pos hlt]
        have hrest : (messages.drop fates.length).length = messages.length - fates.length :=
          List.length_drop
        have hindex : s.calls.length = before.length + calls.length := by
          rw [hcalls, List.length_append]
        have hsum := Fate.counts fates
        dsimp only
        rcases hr : socks5UdpSendmmsg relay s.calls.length (messages.drop fates.length) with
          e | n
        · -- an error settles one message, the rest, or nothing
          dsimp only
          have hnext := h.call hlt (r := .error e) (by rw [← hindex]; exact hr)
          have hmore {c : Call} (hc : c = ⟨messages.drop fates.length, .error e⟩)
              (hf : ¬ Call.Fatal ⟨messages.drop fates.length, .error e⟩) :
              ∀ d ∈ calls ++ [c], ¬ d.Fatal := by
            intro d hd
            rcases List.mem_append.mp hd with hd | hd
            · exact halive d hd
            · rw [List.mem_singleton.mp hd, hc]
              exact hf
          by_cases hintr' : e = .eintr
          · subst hintr'
            rw [if_pos rfl]
            have hbefore : s.calls.length < N := by
              by_contra hge
              exact hintr _ (Nat.le_of_not_lt hge) _ (socks5UdpSendmmsg_eintr hr)
            have hnone : Call.fates ⟨messages.drop fates.length, .error .eintr⟩ = [] := rfl
            rw [hnone, List.append_nil] at hnext
            refine @ih { s with calls := s.calls ++ [⟨messages.drop fates.length, .error .eintr⟩] }
              (calls ++ [⟨messages.drop fates.length, .error .eintr⟩]) fates ?_ hnext
              (hmore rfl fun hf => hf.1 rfl) hbusy ?_
            · simp [hcalls]
            · simp only [List.length_append, List.length_singleton]
              omega
          · rw [if_neg hintr']
            by_cases hlarge : e = .emsgsize
            · subst hlarge
              rw [if_pos rfl]
              have hone : Call.fates ⟨messages.drop fates.length, .error .emsgsize⟩ =
                  [.oversized] := rfl
              rw [hone] at hnext
              have hcount : (fates ++ [Fate.oversized]).count .oversized =
                  fates.count .oversized + 1 := by simp
              have hlen : (fates ++ [Fate.oversized]).length = fates.length + 1 := by simp
              rw [← hcount, ← hlen]
              refine @ih
                { s with calls := s.calls ++ [⟨messages.drop fates.length, .error .emsgsize⟩] }
                (calls ++ [⟨messages.drop fates.length, .error .emsgsize⟩]) _ ?_ hnext
                (hmore rfl fun hf => hf.2.1 rfl) ?_ ?_
              · simp [hcalls]
              · simp [hbusy]
              · simp only [List.length_append, List.length_singleton]
                omega
            · rw [if_neg hlarge]
              by_cases htransient : sendErrnoIsTransient e = true
              · -- everything left is dropped as busy
                rw [if_pos htransient]
                have hall : Call.fates ⟨messages.drop fates.length, .error e⟩ =
                    List.replicate (messages.length - fates.length) .busy := by
                  simp only [Call.fates, if_neg hlarge, if_pos htransient, hrest]
                rw [hall] at hnext
                refine ⟨_, _, hnext, Or.inr ⟨hmore rfl fun hf => ?_, by simp; omega, ?_⟩⟩
                · rw [hf.2.2] at htransient
                  cases htransient
                have hs : (fates ++ List.replicate (messages.length - fates.length) Fate.busy).count
                    .sent = fates.count .sent := by simp [List.count_replicate]
                have ho : (fates ++ List.replicate (messages.length - fates.length) Fate.busy).count
                    .oversized = fates.count .oversized := by simp [List.count_replicate]
                have hb : (fates ++ List.replicate (messages.length - fates.length) Fate.busy).count
                    .busy = messages.length - fates.length := by simp [hbusy]
                have htotal : fates.length = fates.count .sent + fates.count .oversized := by omega
                rw [hs, ho, hb, ← htotal, hcalls]
                simp
              · rw [if_neg htransient]
                refine ⟨_, _, hnext, Or.inl ⟨⟨calls, _, rfl, ?_, halive⟩, ?_⟩⟩
                · exact ⟨hintr', hlarge, by simpa using htransient⟩
                · rw [hcalls]
                  simp
        · have hnext := h.call hlt (r := .ok n) (by rw [← hindex]; exact hr)
          rcases n with _ | n
          · refine ⟨_, _, hnext, Or.inl ⟨⟨calls, _, rfl, rfl, halive⟩, ?_⟩⟩
            dsimp only
            rw [hcalls]
            simp
          · dsimp only
            have hsent : Call.fates ⟨messages.drop fates.length, .ok (n + 1)⟩ =
                List.replicate (n + 1) .sent := rfl
            rw [hsent] at hnext
            have hcount : (fates ++ List.replicate (n + 1) Fate.sent).count .oversized =
                fates.count .oversized := by simp [List.count_replicate]
            have hlen : (fates ++ List.replicate (n + 1) Fate.sent).length =
                fates.length + (n + 1) := by simp
            rw [← hcount, ← hlen]
            refine @ih { s with calls := s.calls ++ [⟨messages.drop fates.length, .ok (n + 1)⟩] }
              (calls ++ [⟨messages.drop fates.length, .ok (n + 1)⟩]) _ ?_ hnext (fun d hd => ?_) ?_ ?_
            · simp [hcalls]
            · rcases List.mem_append.mp hd with hd | hd
              · exact halive d hd
              · rw [List.mem_singleton.mp hd]
                exact Nat.succ_ne_zero n
            · simp [hbusy, List.count_replicate]
            · simp only [List.length_append, List.length_singleton, List.length_replicate]
              omega
      · rw [if_neg hlt]
        have hlen : fates.length = messages.length := by
          have := h.fits
          omega
        have hsum := Fate.counts fates
        refine ⟨calls, fates, h, Or.inr ⟨halive, hlen, ?_⟩⟩
        have htotal : fates.length = fates.count .sent + fates.count .oversized := by omega
        rw [hbusy, ← htotal, ← hcalls]
        rfl

/-- A batch that was sent or given up, with its calls and the fates of its messages: all of them if
it was sent, with the counters moved by as many of each, and the number returned those sent.  It was
given up at a fatal answer, and sent if there was none. -/
structure BatchDone (relay : Relay) (messages : List UdpMsg) (s s' : Link) (r : Option Nat)
    (calls : List Call) (fates : List Fate) : Prop where
  settles : Settles relay s.calls.length messages calls fates
  calls_eq : s'.calls = s.calls ++ calls
  batches_eq : s'.batches = s.batches ++ [messages]
  heap_eq : s'.heap = s.heap
  head_eq : s'.head = s.head
  tail_eq : s'.tail = s.tail
  pendingCount_eq : s'.pendingCount = s.pendingCount
  released_eq : s'.released = s.released
  alive : ∀ n, r = some n → ∀ c ∈ calls, ¬ c.Fatal
  sent : ∀ n, r = some n → fates.length = messages.length ∧ n = fates.count .sent ∧
    s'.dropsOversized = s.dropsOversized + fates.count .oversized ∧
    s'.dropsSendBusy = s.dropsSendBusy + fates.count .busy ∧
    s'.packetsToUpstream = s.packetsToUpstream + n ∧ s'.copySends = s.copySends + n
  failed : r = none → EndsFatal calls ∧ s'.dropsOversized = s.dropsOversized ∧
    s'.dropsSendBusy = s.dropsSendBusy ∧ s'.packetsToUpstream = s.packetsToUpstream ∧
    s'.copySends = s.copySends

theorem relaySendBatch_spec
    (hintr : ∀ i ≥ N, ∀ messages, relay.answer i messages ≠ .error .eintr)
    (messages : List UdpMsg) (s : Link) {fuel : Nat}
    (hfuel : (N - s.calls.length) + messages.length < fuel) :
    ∃ s' r calls fates, relaySendBatch relay fuel messages s = .ok (s', r) ∧
      BatchDone relay messages s s' r calls fates := by
  obtain ⟨calls, fates, hsettles, ⟨hfatal, hrun⟩ | ⟨halive, hlen, hrun⟩⟩ :=
    @sendLoop_spec relay N hintr messages fuel { s with batches := s.batches ++ [messages] } s.calls
      [] [] (List.append_nil _).symm (.start relay _ messages) (by simp) rfl hfuel
  · refine ⟨{ s with batches := s.batches ++ [messages], calls := s.calls ++ calls }, none, calls,
      fates, ?_, ?_⟩
    · unfold relaySendBatch
      rw [show sendLoop relay messages fuel _ 0 0 = _ from hrun]
      rfl
    · exact ⟨hsettles, rfl, rfl, rfl, rfl, rfl, rfl, rfl, fun _ h => (nomatch h),
        fun _ h => (nomatch h), fun _ => ⟨hfatal, rfl, rfl, rfl, rfl⟩⟩
  · have hsub : fates.count .sent + fates.count .oversized - fates.count .oversized =
        fates.count .sent := Nat.add_sub_cancel _ _
    refine ⟨{ s with
      batches := s.batches ++ [messages]
      calls := s.calls ++ calls
      dropsSendBusy := s.dropsSendBusy + fates.count .busy
      dropsOversized := s.dropsOversized + fates.count .oversized
      packetsToUpstream := s.packetsToUpstream + fates.count .sent
      copySends := s.copySends + fates.count .sent }, some (fates.count .sent), calls, fates, ?_, ?_⟩
    · unfold relaySendBatch
      rw [show sendLoop relay messages fuel _ 0 0 = _ from hrun]
      show Except.ok _ = Except.ok _
      rw [hsub]
    · refine ⟨hsettles, rfl, rfl, rfl, rfl, rfl, rfl, rfl, fun _ _ => halive, fun n hn => ?_,
        fun h => (nomatch h)⟩
      obtain rfl := Option.some.inj hn
      exact ⟨hlen, rfl, rfl, rfl, rfl, rfl⟩

end Batch

/-! ## The queue of pending packets -/

section Pending

variable {s : Link} {L : List (Nat × PendingPacket)} {a : Nat} {p : PendingPacket}

/-- The session's list holds these packets, at these addresses, in this order. -/
structure Holds (s : Link) (L : List (Nat × PendingPacket)) : Prop where
  queue : Queue s.heap s.head s.tail L
  count : s.pendingCount = L.length

/-- The messages of packets. -/
def messagesOf (L : List (Nat × PendingPacket)) : List UdpMsg :=
  L.map fun c => (c.2.originalDst, c.2.payload)

/-- What the budget gets back for packets, with the packets it is for. -/
def bytesOf (L : List (Nat × PendingPacket)) : List (Nat × Nat) :=
  L.map fun c => (c.1, c.2.allocationBytes)

theorem gather_eq (n : Nat) {heap : Heap PendingPacket} {q : Option Nat}
    (h : Seg heap q L none) : gather heap n q = .ok (L.take n) := by
  induction n generalizing q L with
  | zero => rfl
  | succ n ih =>
      cases h with
      | nil => rfl
      | cons cell rest =>
          rw [gather, cell]
          dsimp only
          rw [ih rest]
          rfl

/-- Nothing but the queue and the record of releases changes. -/
structure OnlyQueue (s s' : Link) : Prop where
  calls : s'.calls = s.calls
  batches : s'.batches = s.batches
  dropsOversized : s'.dropsOversized = s.dropsOversized
  dropsSendBusy : s'.dropsSendBusy = s.dropsSendBusy
  packetsToUpstream : s'.packetsToUpstream = s.packetsToUpstream
  copySends : s'.copySends = s.copySends

theorem OnlyQueue.refl (s : Link) : OnlyQueue s s := ⟨rfl, rfl, rfl, rfl, rfl, rfl⟩

theorem OnlyQueue.trans {s s' s'' : Link} (h : OnlyQueue s s') (h' : OnlyQueue s' s'') :
    OnlyQueue s s'' :=
  ⟨h'.calls.trans h.calls, h'.batches.trans h.batches, h'.dropsOversized.trans h.dropsOversized,
    h'.dropsSendBusy.trans h.dropsSendBusy, h'.packetsToUpstream.trans h.packetsToUpstream,
    h'.copySends.trans h.copySends⟩

/-- A packet of a batch is the head when its turn comes. -/
theorem finishPacket_spec (h : Holds s ((a, p) :: L)) :
    ∃ s', finishPacket s a = .ok s' ∧ Holds s' L ∧
      s'.released = s.released ++ [(a, p.allocationBytes)] ∧ OnlyQueue s s' := by
  obtain ⟨hhead, next, hcell, -⟩ := h.queue.head_cell
  have hcount : s.pendingCount = L.length + 1 := h.count
  refine ⟨{ s with
    heap := update s.heap a none
    head := next
    tail := if s.tail = some a then none else s.tail
    pendingCount := if s.pendingCount > 0 then s.pendingCount - 1 else s.pendingCount
    released := s.released ++ [(a, p.allocationBytes)] }, ?_, ⟨h.queue.pop hcell, ?_⟩, rfl,
    ⟨rfl, rfl, rfl, rfl, rfl, rfl⟩⟩
  · simp only [finishPacket, releasePending, hhead, if_true, hcell]
    rfl
  · show (if s.pendingCount > 0 then s.pendingCount - 1 else s.pendingCount) = L.length
    rw [if_pos (by omega)]
    omega

theorem finishBatch_spec (done : List (Nat × PendingPacket)) {rest : List (Nat × PendingPacket)}
    (h : Holds s (done ++ rest)) :
    ∃ s', finishBatch s (done.map (·.1)) = .ok s' ∧ Holds s' rest ∧
      s'.released = s.released ++ bytesOf done ∧ OnlyQueue s s' := by
  induction done generalizing s with
  | nil => exact ⟨s, rfl, h, (List.append_nil _).symm, OnlyQueue.refl s⟩
  | cons c done ih =>
      obtain ⟨s₁, hone, hholds, hrel, honly⟩ := finishPacket_spec h
      obtain ⟨s₂, hrest, hholds', hrel', honly'⟩ := ih hholds
      refine ⟨s₂, ?_, hholds', ?_, honly.trans honly'⟩
      · rw [List.map_cons, finishBatch, hone]
        exact hrest
      · rw [hrel', hrel, bytesOf, bytesOf, List.map_cons, List.append_assoc]
        rfl

/-- The drop of a session frees the rest of its list, each packet once. -/
theorem releaseFrom_spec {n : Nat} {q : Option Nat} (h : Seg s.heap q L none)
    (hnodup : (L.map (·.1)).Nodup) (hn : L.length < n) :
    ∃ s', releaseFrom n s q = .ok s' ∧ s'.released = s.released ++ bytesOf L ∧ OnlyQueue s s' := by
  induction n generalizing s q L with
  | zero => omega
  | succ n ih =>
      cases h with
      | nil => exact ⟨s, rfl, (List.append_nil _).symm, OnlyQueue.refl s⟩
      | @cons a v next _ L cell rest =>
          rw [List.map_cons, List.nodup_cons] at hnodup
          have hrest : Seg (update s.heap a none) next L none :=
            rest.congr fun c hc => update_of_ne
              (fun he => hnodup.1 (List.mem_map.mpr ⟨c, hc, he⟩)) _ _
          obtain ⟨s', hrun, hrel, honly⟩ := @ih { s with
            heap := update s.heap a none
            released := s.released ++ [(a, v.allocationBytes)] } _ _ hrest hnodup.2
            (by simpa using hn)
          refine ⟨s', ?_, ?_, ⟨honly.calls, honly.batches, honly.dropsOversized,
            honly.dropsSendBusy, honly.packetsToUpstream, honly.copySends⟩⟩
          · rw [releaseFrom, cell]
            unfold releasePending
            rw [cell]
            exact hrun
          · rw [hrel, bytesOf, bytesOf, List.map_cons, List.append_assoc]
            rfl

theorem releaseSessionPendingPackets_spec {fuel : Nat} (h : Holds s L) (hfuel : L.length < fuel) :
    ∃ s', releaseSessionPendingPackets fuel s = .ok s' ∧ s'.head = none ∧ s'.tail = none ∧
      s'.pendingCount = 0 ∧ s'.released = s.released ++ bytesOf L ∧ OnlyQueue s s' := by
  obtain ⟨s', hrun, hrel, honly⟩ := releaseFrom_spec h.queue.seg h.queue.nodup hfuel
  refine ⟨{ s' with head := none, tail := none, pendingCount := 0 }, ?_, rfl, rfl, rfl, hrel,
    ⟨honly.calls, honly.batches, honly.dropsOversized, honly.dropsSendBusy,
      honly.packetsToUpstream, honly.copySends⟩⟩
  unfold releaseSessionPendingPackets
  rw [hrun]
  rfl

/-- A queued datagram is the last of the list; a refused one changes nothing. -/
theorem queuePending_spec (h : Holds s L) (dst : DstAddr) (payload : List UInt8) (payloadCap : Nat)
    (reserved : Bool) (memory : Option Nat) (hfresh : ∀ a, memory = some a → s.heap a = none) :
    (∃ e, queuePending s dst payload payloadCap reserved memory = .ok (s, .error e)) ∨
    ∃ a s', memory = some a ∧
      queuePending s dst payload payloadCap reserved memory = .ok (s', .ok ()) ∧
      Holds s' (L ++ [(a, ⟨dst, payload, pendingPacketSize + payload.length⟩)]) ∧
      s'.released = s.released ∧ OnlyQueue s s' := by
  unfold queuePending
  by_cases hlong : payload.length > payloadCap
  · exact Or.inl ⟨_, if_pos hlong⟩
  · rw [if_neg hlong]
    by_cases hbudget : (!reserved) = true
    · exact Or.inl ⟨_, if_pos hbudget⟩
    · rw [if_neg hbudget]
      rcases memory with _ | a
      · exact Or.inl ⟨_, rfl⟩
      · have hfree := hfresh a rfl
        have hqueue := h.queue
        refine Or.inr ⟨a, ?_⟩
        rcases htail : s.tail with _ | t
        · rw [htail] at hqueue
          obtain ⟨rfl, hpush⟩ := hqueue.push_empty (a := a)
            (v := ⟨dst, payload, pendingPacketSize + payload.length⟩)
          exact ⟨_, rfl, rfl, ⟨hpush, by simp [h.count]⟩, rfl, ⟨rfl, rfl, rfl, rfl, rfl, rfl⟩⟩
        · rw [htail] at hqueue
          obtain ⟨u, next, hcell, hpush⟩ := hqueue.push hfree
            ⟨dst, payload, pendingPacketSize + payload.length⟩
          have hne : t ≠ a := by
            rintro rfl
            rw [hfree] at hcell
            cases hcell
          refine ⟨{ s with
            heap := update (update s.heap a
              (some ⟨⟨dst, payload, pendingPacketSize + payload.length⟩, none⟩)) t
                (some ⟨u, some a⟩)
            tail := some a
            pendingCount := s.pendingCount + 1 }, rfl, ?_, ⟨hpush, by simp [h.count]⟩, rfl,
            ⟨rfl, rfl, rfl, rfl, rfl, rfl⟩⟩
          dsimp only
          rw [update_of_ne hne, hcell]

end Pending

/-! ## Flushing -/

section Flush

variable {relay : Relay} {N : Nat}

/-- What a flush leaves of the packets `L`: those sent on were freed and the others are still
queued; the batches are the packets in order; the socket's answers are what settles the fates, and
the kernel took each message at most once.  A flush that succeeds has passed on and freed everything;
one that fails ended at a fatal answer. -/
structure Flushed (relay : Relay) (L : List (Nat × PendingPacket)) (s s' : Link) (good : Bool)
    (done rest : List (Nat × PendingPacket)) (calls : List Call) (fates : List Fate) : Prop where
  split : L = done ++ rest
  holds : Holds s' rest
  released : s'.released = s.released ++ bytesOf done
  batches : ∃ passed, s'.batches = s.batches ++ passed ∧
    passed.flatten = messagesOf (done ++ if good then [] else rest.take udpMaxBatch)
  calls_eq : s'.calls = s.calls ++ calls
  answers : Answers relay s.calls.length calls
  fates_eq : fates = calls.flatMap Call.fates
  taken : calls.flatMap Call.taken = sentOf (messagesOf L) fates
  fits : fates.length ≤ L.length
  all : good = true → rest = [] ∧ (∀ c ∈ calls, ¬ c.Fatal) ∧ fates.length = L.length ∧
    s'.dropsOversized = s.dropsOversized + fates.count .oversized ∧
    s'.dropsSendBusy = s.dropsSendBusy + fates.count .busy ∧
    s'.packetsToUpstream = s.packetsToUpstream + fates.count .sent
  some_left : good = false → rest ≠ [] ∧ EndsFatal calls

theorem messagesOf_append (L M : List (Nat × PendingPacket)) :
    messagesOf (L ++ M) = messagesOf L ++ messagesOf M := List.map_append

theorem bytesOf_append (L M : List (Nat × PendingPacket)) :
    bytesOf (L ++ M) = bytesOf L ++ bytesOf M := List.map_append

theorem messagesOf_length (L : List (Nat × PendingPacket)) : (messagesOf L).length = L.length :=
  List.length_map _

theorem BatchDone.holds {messages : List UdpMsg} {s s' : Link} {r : Option Nat} {calls : List Call}
    {fates : List Fate} {L : List (Nat × PendingPacket)}
    (h : BatchDone relay messages s s' r calls fates) (hs : Holds s L) : Holds s' L := by
  refine ⟨?_, h.pendingCount_eq.trans hs.count⟩
  rw [h.heap_eq, h.head_eq, h.tail_eq]
  exact hs.queue

/-- One round of the outer loop. -/
theorem flushLoop_round {fuel n : Nat} {s s' : Link} {r : Option Nat}
    {packets : List (Nat × PendingPacket)} (hhead : s.head ≠ none)
    (hgather : gather s.heap udpMaxBatch s.head = .ok packets)
    (hsend : relaySendBatch relay fuel (messagesOf packets) s = .ok (s', r)) :
    flushLoop relay fuel (n + 1) s =
      if r = none then .ok (s', false)
      else (finishBatch s' (packets.map (·.1))).bind fun s => flushLoop relay fuel n s := by
  rw [flushLoop, if_neg hhead, hgather]
  show (relaySendBatch relay fuel (messagesOf packets) s >>= _) = _
  rw [hsend]
  rfl

/-- A batch that is sent and freed, and then the flush of the rest. -/
theorem Flushed.batch {first L done rest : List (Nat × PendingPacket)} {s s₁ s₂ s' : Link}
    {good : Bool} {m : Nat} {calls calls' : List Call} {fates fates' : List Fate}
    (hbatch : BatchDone relay (messagesOf first) s s₁ (some m) calls fates)
    (hrel : s₂.released = s₁.released ++ bytesOf first) (honly : OnlyQueue s₁ s₂)
    (h : Flushed relay L s₂ s' good done rest calls' fates') :
    Flushed relay (first ++ L) s s' good (first ++ done) rest (calls ++ calls') (fates ++ fates') where
  split := by rw [h.split, List.append_assoc]
  holds := h.holds
  released := by rw [h.released, hrel, hbatch.released_eq, bytesOf_append, List.append_assoc]
  batches := by
    obtain ⟨passed, hpassed, hflat⟩ := h.batches
    refine ⟨messagesOf first :: passed, ?_, ?_⟩
    · rw [hpassed, honly.batches, hbatch.batches_eq, List.append_assoc]
      rfl
    · rw [List.flatten_cons, hflat, List.append_assoc, messagesOf_append first]
  calls_eq := by rw [h.calls_eq, honly.calls, hbatch.calls_eq, List.append_assoc]
  answers := by
    refine hbatch.settles.answers.append ?_
    rw [← List.length_append, ← hbatch.calls_eq, ← honly.calls]
    exact h.answers
  fates_eq := by rw [List.flatMap_append, ← hbatch.settles.fates_eq, ← h.fates_eq]
  taken := by
    rw [List.flatMap_append, hbatch.settles.taken, h.taken, messagesOf_append,
      sentOf_batches (hbatch.sent m rfl).1]
  fits := by
    rw [List.length_append, List.length_append, (hbatch.sent m rfl).1, messagesOf_length]
    exact Nat.add_le_add_left h.fits _
  all hgood := by
    obtain ⟨hlen, hm, hoversized, hbusy, hsent, -⟩ := hbatch.sent m rfl
    obtain ⟨hrest, halive, hlen', hoversized', hbusy', hsent'⟩ := h.all hgood
    refine ⟨hrest, fun c hc => ?_, ?_, ?_, ?_, ?_⟩
    · rcases List.mem_append.mp hc with hc | hc
      · exact hbatch.alive m rfl c hc
      · exact halive c hc
    · rw [List.length_append, List.length_append, hlen, messagesOf_length, hlen']
    · rw [hoversized', honly.dropsOversized, hoversized, List.count_append, Nat.add_assoc]
    · rw [hbusy', honly.dropsSendBusy, hbusy, List.count_append, Nat.add_assoc]
    · rw [hsent', honly.packetsToUpstream, hsent, List.count_append, hm, Nat.add_assoc]
  some_left hgood := ⟨(h.some_left hgood).1, (h.some_left hgood).2.append (hbatch.alive m rfl)⟩

/-- A batch that fails ends the flush with its packets still queued. -/
theorem Flushed.failed {L : List (Nat × PendingPacket)} {s s' : Link} {calls : List Call}
    {fates : List Fate} (hne : L ≠ []) (h : Holds s L)
    (hbatch : BatchDone relay (messagesOf (L.take udpMaxBatch)) s s' none calls fates) :
    Flushed relay L s s' false [] L calls fates := by
  have hmessages : messagesOf L =
      messagesOf (L.take udpMaxBatch) ++ messagesOf (L.drop udpMaxBatch) := by
    rw [← messagesOf_append, List.take_append_drop]
  have hfits := hbatch.settles.fits
  refine ⟨rfl, hbatch.holds h, ?_, ⟨[messagesOf (L.take udpMaxBatch)], hbatch.batches_eq, ?_⟩,
    hbatch.calls_eq, hbatch.settles.answers, hbatch.settles.fates_eq, ?_, ?_,
    fun hgood => (nomatch hgood), fun _ => ⟨hne, (hbatch.failed rfl).1⟩⟩
  · rw [hbatch.released_eq]
    exact (List.append_nil _).symm
  · simp
  · rw [hbatch.settles.taken, hmessages, sentOf_prefix hfits]
  · rw [messagesOf_length, List.length_take] at hfits
    omega

/-- With rounds enough for the list, the flush returns, and leaves what `Flushed` says.  The
induction is on the rounds; a batch takes at least one packet off the list. -/
theorem flushLoop_spec
    (hintr : ∀ i ≥ N, ∀ messages, relay.answer i messages ≠ .error .eintr) {fuel : Nat}
    (hfuel : N + udpMaxBatch < fuel) (n : Nat) {s : Link} {L : List (Nat × PendingPacket)}
    (h : Holds s L) (hn : L.length < n) :
    ∃ s' good done rest calls fates, flushLoop relay fuel n s = .ok (s', good) ∧
      Flushed relay L s s' good done rest calls fates ∧
      (good = true → s'.head = none ∧ s'.tail = none ∧ s'.pendingCount = 0) := by
  induction n generalizing s L with
  | zero => omega
  | succ n ih =>
      by_cases hempty : L = []
      · subst hempty
        have hhead : s.head = none := h.queue.head_eq
        have hqueue : Queue s.heap s.head none [] := by
          rw [hhead]
          exact Queue.empty s.heap
        rw [flushLoop, if_pos hhead]
        exact ⟨{ s with tail := none }, true, [], [], [], [], rfl, ⟨rfl, ⟨hqueue, h.count⟩,
          (List.append_nil _).symm, ⟨[], (List.append_nil _).symm, rfl⟩, (List.append_nil _).symm,
          trivial, rfl, rfl, Nat.le_refl _, fun _ => ⟨rfl, by simp, rfl, rfl, rfl, rfl⟩,
          fun hgood => (nomatch hgood)⟩, fun _ => ⟨hhead, rfl, h.count⟩⟩
      · have hhead : s.head ≠ none := by
          rw [h.queue.head_eq]
          simpa using hempty
        have hpos : 0 < L.length := List.length_pos_iff.mpr hempty
        have hbound : (messagesOf (L.take udpMaxBatch)).length ≤ udpMaxBatch := by
          rw [messagesOf_length]
          exact List.length_take_le _ _
        -- each call either consumes a message or is one of the `N` that may be interrupted
        have hrounds : (N - s.calls.length) + (messagesOf (L.take udpMaxBatch)).length < fuel := by
          omega
        obtain ⟨s₁, r, calls, fates, hsend, hbatch⟩ :=
          relaySendBatch_spec hintr (messagesOf (L.take udpMaxBatch)) s hrounds
        rw [flushLoop_round hhead (gather_eq udpMaxBatch h.queue.seg) hsend]
        rcases r with _ | m
        · rw [if_pos rfl]
          exact ⟨s₁, false, [], L, calls, fates, rfl, .failed hempty h hbatch,
            fun hgood => (nomatch hgood)⟩
        · have hheld : Holds s₁ (L.take udpMaxBatch ++ L.drop udpMaxBatch) := by
            rw [List.take_append_drop]
            exact hbatch.holds h
          -- the packets of the batch are freed, and the list goes on behind them
          obtain ⟨s₂, hfinish, hrest, hrel, honly⟩ := finishBatch_spec _ hheld
          have hshort : (L.drop udpMaxBatch).length < n := by
            have : 0 < udpMaxBatch := by decide
            rw [List.length_drop]
            omega
          obtain ⟨s', good, done, rest, calls', fates', hrun, hflushed, hend⟩ := ih hrest hshort
          have hall := hflushed.batch hbatch hrel honly
          rw [List.take_append_drop] at hall
          refine ⟨s', good, _, rest, _, _, ?_, hall, hend⟩
          rw [if_neg (by simp), hfinish]
          exact hrun

end Flush

/-! ## From the first datagram to the end of the flush -/

/-- A session whose association is being made, and the datagrams it has kept so far, oldest first.
`malloc` returns memory that is free. -/
inductive Arrives : Link → List (Nat × PendingPacket) → Prop where
  | start (s : Link) (head : s.head = none) (tail : s.tail = none) (count : s.pendingCount = 0) :
      Arrives s []
  | queued {s s' : Link} {L : List (Nat × PendingPacket)} {dst : DstAddr} {payload : List UInt8}
      {cap a : Nat} (before : Arrives s L) (free : s.heap a = none)
      (run : queuePending s dst payload cap true (some a) = .ok (s', .ok ())) :
      Arrives s' (L ++ [(a, ⟨dst, payload, pendingPacketSize + payload.length⟩)])
  | refused {s s' : Link} {L : List (Nat × PendingPacket)} {dst : DstAddr} {payload : List UInt8}
      {cap : Nat} {reserved : Bool} {memory : Option Nat} {e : Errno} (before : Arrives s L)
      (free : ∀ a, memory = some a → s.heap a = none)
      (run : queuePending s dst payload cap reserved memory = .ok (s', .error e)) : Arrives s' L

theorem Arrives.holds {s : Link} {L : List (Nat × PendingPacket)} (h : Arrives s L) :
    Holds s L := by
  induction h with
  | start s head tail count =>
      refine ⟨?_, count⟩
      rw [head, tail]
      exact Queue.empty s.heap
  | @queued s s' L dst payload cap a before free run ih =>
      rcases queuePending_spec ih dst payload cap true (some a)
        (fun b hb => Option.some.inj hb ▸ free) with ⟨e, he⟩ | ⟨b, s₁, hb, hok, hholds, -, -⟩
      · rw [he] at run
        cases run
      · rw [hok] at run
        cases run
        cases hb
        exact hholds
  | @refused s s' L dst payload cap reserved memory e before free run ih =>
      rcases queuePending_spec ih dst payload cap reserved memory free with
        ⟨e', he⟩ | ⟨b, s₁, -, hok, -⟩
      · rw [he] at run
        cases run
        exact ih
      · rw [hok] at run
        cases run

/-- Against a relay socket that is interrupted finitely often, a batch of any messages is sent or
given up as the socket's answers say, with every message of a batch that is sent accounted for; and
the datagrams kept for an association are passed on in the order they came, all of them and each
freed once if the flush succeeds, and what is left of them freed once by the drop of the session if
it fails. -/
theorem uplink_loses_nothing {relay : Relay} {N : Nat}
    (hintr : ∀ i ≥ N, ∀ messages, relay.answer i messages ≠ .error .eintr) :
    (∀ messages s, ∃ fuel₀, ∀ fuel ≥ fuel₀, ∃ s' r calls fates,
      relaySendBatch relay fuel messages s = .ok (s', r) ∧
        BatchDone relay messages s s' r calls fates) ∧
    ∀ s L, Arrives s L → (L.map (·.1)).Nodup ∧ ∃ fuel₀, ∀ fuel ≥ fuel₀,
      ∃ s' good done rest calls fates, flushSessionPendingPackets relay fuel s = .ok (s', good) ∧
        Flushed relay L s s' good done rest calls fates ∧
        (good = true → s'.head = none ∧ s'.tail = none ∧ s'.pendingCount = 0 ∧
          s'.released = s.released ++ bytesOf L) ∧
        (good = false → ∃ s'', releaseSessionPendingPackets fuel s' = .ok s'' ∧
          s''.head = none ∧ s''.tail = none ∧ s''.pendingCount = 0 ∧
          s''.released = s.released ++ bytesOf L) := by
  refine ⟨fun messages s => ⟨N + messages.length + 1, fun fuel hfuel =>
    relaySendBatch_spec hintr messages s (by omega)⟩, fun s L h => ?_⟩
  have hholds := h.holds
  refine ⟨hholds.queue.nodup, N + L.length + udpMaxBatch + 1, fun fuel hfuel => ?_⟩
  obtain ⟨s', good, done, rest, calls, fates, hrun, hflushed, hend⟩ :=
    flushLoop_spec hintr (show N + udpMaxBatch < fuel by omega) fuel hholds
      (show L.length < fuel by omega)
  have hbytes : bytesOf L = bytesOf done ++ bytesOf rest := by
    rw [hflushed.split, bytesOf_append]
  refine ⟨s', good, done, rest, calls, fates, hrun, hflushed, fun hgood => ?_, fun _ => ?_⟩
  · obtain ⟨hhead, htail, hcount⟩ := hend hgood
    obtain ⟨hrest, -⟩ := hflushed.all hgood
    refine ⟨hhead, htail, hcount, ?_⟩
    rw [hflushed.released, hbytes, hrest]
    simp [bytesOf]
  · have hlen : rest.length < fuel := by
      have := congrArg List.length hflushed.split
      rw [List.length_append] at this
      omega
    obtain ⟨s'', hdrop, hhead, htail, hcount, hrel, -⟩ :=
      releaseSessionPendingPackets_spec hflushed.holds hlen
    refine ⟨s'', hdrop, hhead, htail, hcount, ?_⟩
    rw [hrel, hflushed.released, hbytes, List.append_assoc]

/-- A relay socket that takes one message, finds the next too large, is interrupted and then stays
busy. -/
def choppy : Relay where
  answer i messages :=
    if messages = [] then .error .other
    else if i = 0 then .ok 1
    else if i = 1 then .error .emsgsize
    else if i = 2 then .error .eintr
    else .error .eagain
  bounded i messages n h := by
    by_cases hempty : messages = []
    · rw [if_pos hempty] at h
      cases h
    · have hpos : 0 < messages.length := List.length_pos_iff.mpr hempty
      rw [if_neg hempty] at h
      split_ifs at h
      cases h
      exact hpos

theorem choppy_eintr (i : Nat) (hi : i ≥ 3) (messages : List UdpMsg) :
    choppy.answer i messages ≠ .error .eintr := by
  intro h
  simp only [choppy, if_neg (show i ≠ 0 by omega), if_neg (show i ≠ 1 by omega),
    if_neg (show i ≠ 2 by omega)] at h
  split_ifs at h <;> cases h

/-- A session with nothing queued. -/
def idleLink : Link := ⟨fun _ => none, none, none, 0, 0, 0, 0, 0, [], [], []⟩

/-- Two datagrams wait while the association is made, and are flushed to that relay; three messages
make another batch. -/
theorem uplink_loses_nothing_choppy :
    (∃ s L, Arrives s L ∧ L.map (fun c => c.2.payload) = [[1], [2, 3]] ∧ ∃ fuel₀, ∀ fuel ≥ fuel₀,
      ∃ s' good done rest calls fates, flushSessionPendingPackets choppy fuel s = .ok (s', good) ∧
        Flushed choppy L s s' good done rest calls fates) ∧
    ∃ fuel₀, ∀ fuel ≥ fuel₀, ∃ s' r calls fates,
      relaySendBatch choppy fuel [(⟨.inet, 53, [1, 2, 3, 4]⟩, [1]), (⟨.inet, 53, [1, 2, 3, 4]⟩, [2]),
        (⟨.inet, 53, [1, 2, 3, 4]⟩, [3])] idleLink = .ok (s', r) ∧
      BatchDone choppy [(⟨.inet, 53, [1, 2, 3, 4]⟩, [1]), (⟨.inet, 53, [1, 2, 3, 4]⟩, [2]),
        (⟨.inet, 53, [1, 2, 3, 4]⟩, [3])] idleLink s' r calls fates := by
  have hone := @Arrives.queued idleLink _ [] ⟨.inet, 53, [1, 2, 3, 4]⟩ [1] 16 5
    (.start idleLink rfl rfl rfl) rfl rfl
  have htwo := @Arrives.queued _ _ _ ⟨.inet, 53, [1, 2, 3, 4]⟩ [2, 3] 16 9 hone rfl rfl
  obtain ⟨hbatch, hflush⟩ := uplink_loses_nothing choppy_eintr
  obtain ⟨-, fuel₀, hall⟩ := hflush _ _ htwo
  refine ⟨⟨_, _, htwo, rfl, fuel₀, fun fuel hfuel => ?_⟩, hbatch _ _⟩
  obtain ⟨s', good, done, rest, calls, fates, hrun, hflushed, -⟩ := hall fuel hfuel
  exact ⟨s', good, done, rest, calls, fates, hrun, hflushed⟩

/-- One message is sent, one is too large, and the last finds the socket busy. -/
example : ((relaySendBatch choppy 5 [(⟨.inet, 53, [1, 2, 3, 4]⟩, [1]),
      (⟨.inet, 53, [1, 2, 3, 4]⟩, [2]), (⟨.inet, 53, [1, 2, 3, 4]⟩, [3])] idleLink).toOption.map
    fun x => (x.2, x.1.packetsToUpstream, x.1.dropsOversized, x.1.dropsSendBusy)) =
    some (some 1, 1, 1, 1) := by
  decide

end Bpf2Socks.Udp.Uplink
