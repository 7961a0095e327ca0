/-
# Bpf2Socks.Dns.Responses — responses, and the fast path over whole runs.

A response is forwarded under the transaction the lookup finds, and the transaction is released
right after.  In a `Served` state the slot is in use, so it has one query and that query has no
answer yet; after the release the query has no slot any more.  The datagrams themselves are those the
kernel was asked to send and took.
-/
import Bpf2Socks.Dns.Answers

namespace Bpf2Socks.Dns

open Function (update)
open Fast
open Lib (Prog)
open Lib.Act (Keeps keeps_get keeps_ask keeps_pure keeps_ite keeps_modify sat_ite)
open Udp (Family Sockaddr ClientPacket RelayDatagram Bits)

variable {A : State → (q : Sys) → q.Ans → Prop} {s s' : State} {c : UInt32}

/-! ## Sending a response -/

/-- The kernel took this datagram for this client, or none; for the rest only the raw reply sockets
may have changed. -/
structure Replies (client : Sockaddr) (payload : List UInt8) (s s' : State) (sent : Bool) : Prop where
  cfg : s'.cfg = s.cfg
  table : s'.table = s.table
  channels : s'.channels = s.channels
  trace : s'.trace = { s.trace with
    replies := (if sent then [(client, payload)] else []) ++ s.trace.replies }

theorem Replies.trans {client : Sockaddr} {payload : List UInt8} {t : State} {sent : Bool}
    (h : Replies client payload s t false) (h' : Replies client payload t s' sent) :
    Replies client payload s s' sent := by
  refine ⟨h'.cfg.trans h.cfg, h'.table.trans h.table, h'.channels.trans h.channels, ?_⟩
  rw [h'.trace, h.trace]
  rfl

theorem sendThrough_sat (tx : Transaction) (fd : Nat) (raw : Bool) (payload : List UInt8)
    (s : State) : Prog.Sat A (fun s' r => Replies tx.clientAddr payload s s' r.isOk)
      (sendThrough tx fd raw payload s) := by
  refine sat_ite (fun _ r _ => ?_) fun _ r _ => ?_
  · rcases r with e | u <;> exact ⟨rfl, rfl, rfl, rfl⟩
  · rcases r with e | n
    · exact ⟨rfl, rfl, rfl, rfl⟩
    · cases n <;> exact ⟨rfl, rfl, rfl, rfl⟩

theorem sendThroughOwn_sat (tx : Transaction) (payload : List UInt8) (s : State) :
    Prog.Sat A (fun s' sent => Replies tx.clientAddr payload s s' sent)
      (sendThroughOwn tx payload s) := by
  intro r _
  rcases r with _ | ⟨fd, raw⟩
  · exact ⟨rfl, rfl, rfl, rfl⟩
  · refine (sendThrough_sat tx fd raw payload s).bind fun t sent ht => ?_
    rcases sent with e | u <;> exact ht

theorem ensureRawReplySocket_sat (client : Sockaddr) (payload : List UInt8) (family : Family)
    (s : State) : Prog.Sat A (fun s' _ => Replies client payload s s' false)
      (ensureRawReplySocket family s) := by
  have hnone : Replies client payload s s false := ⟨rfl, rfl, rfl, rfl⟩
  refine sat_ite (fun _ => ?_) fun _ => sat_ite (fun _ => ?_) fun _ => hnone
  · rcases s.raw4Fd with _ | fd
    · exact fun r _ => ⟨rfl, rfl, rfl, rfl⟩
    · exact hnone
  · rcases s.raw6Fd with _ | fd
    · exact fun r _ => ⟨rfl, rfl, rfl, rfl⟩
    · exact hnone

theorem sendResponse_sat (tx : Transaction) (payload : List UInt8) (s : State) :
    Prog.Sat A (fun s' sent => Replies tx.clientAddr payload s s' sent)
      (sendResponse tx payload s) := by
  refine sat_ite (fun _ => ?_) fun _ => ?_
  · refine (ensureRawReplySocket_sat tx.clientAddr payload _ s).bind fun t rawFd ht => ?_
    have hown {u : State} (hu : Replies tx.clientAddr payload s u false) :
        Prog.Sat A (fun s' sent => Replies tx.clientAddr payload s s' sent)
          (sendThroughOwn tx payload u) :=
      (sendThroughOwn_sat tx payload u).mono fun _ _ => hu.trans
    rcases rawFd with _ | fd
    · exact hown ht
    · refine (sendThrough_sat tx fd true payload t).bind fun u sent hu => ?_
      have hall := ht.trans hu
      rcases sent with e | _
      · cases e with
        | emsgsize => exact hown hall
        | _ => exact hall
      · exact hall
  · refine (sendThrough_sat tx _ false payload s).bind fun t sent ht => ?_
    rcases sent with e | u <;> exact ht

/-! ## Handling a response -/

theorem Table.Inv.find {t : Table} {l : List Nat} (h : t.Inv none l) {id : UInt16} {slot : Nat}
    (hf : t.find c id = some slot) :
    slot < t.capacity ∧ (t.transactions slot).used = true ∧
      (t.transactions slot).channelIndex = c ∧ (t.transactions slot).rewrittenId = id := by
  unfold Table.find at hf
  split at hf
  · simp at hf
  · split at hf
    · simp at hf
    · rename_i i hlook
      split at hf
      · rename_i hi
        obtain rfl := Option.some.inj hf
        obtain ⟨-, hc, hid⟩ := h.lookup.mp hlook
        exact ⟨hi.1, hi.2, hc, hid⟩
      · simp at hf

/-- Forwarding a right answer and releasing its slot keeps the books. -/
theorem Served.answer {t : State} (h : Served s none) {slot : Nat} {arrived payload : List UInt8}
    (ht : Replies (s.table.transactions slot).clientAddr payload s t true)
    (hslot : slot < s.table.capacity) (hu : (s.table.transactions slot).used = true)
    (hright : ∀ q, s.trace.queries[s.trace.owner slot]? = some q →
      (⟨s.trace.owner slot, (s.table.transactions slot).clientAddr, payload, c, arrived,
        s.table.transactions slot⟩ : Answer).Right s.trace.queries) :
    Served { noteAnswer t c slot arrived payload with
      table := t.table.release slot } none := by
  obtain ⟨cfg, table, channels, next, raw4, raw6, trace⟩ := t
  obtain ⟨rfl, rfl, rfl, rfl⟩ := ht
  have hrel := h.shrinks (shrinks_release s slot)
  have hne : ∀ i, ((s.table.release slot).transactions i).used = true → i ≠ slot := by
    rintro i hi rfl
    rw [Table.release_self hslot] at hi
    exact Bool.false_ne_true hi
  have howner := h.owner slot hu (by simp)
  refine { hrel with
    unanswered := fun i hi hf a ha => ?_, once := ?_, right := fun a ha => ?_
    replies := congrArg (_ :: ·) h.replies }
  · rcases List.mem_cons.mp ha with rfl | ha
    · -- the answered query has no other slot
      intro heq
      have hi' : (s.table.transactions i).used = true :=
        Table.release_kept (t := s.table) hi ▸ hi
      exact hne i hi (h.apart i slot hi' hu (by simp) (by simp) heq.symm)
    · exact hrel.unanswered i hi hf a ha
  · show (s.trace.owner slot :: s.trace.answers.map (·.uid)).Nodup
    refine List.nodup_cons.mpr ⟨fun hm => ?_, h.once⟩
    obtain ⟨a, ha, heq⟩ := List.mem_map.mp hm
    exact h.unanswered slot hu (by simp) a ha heq
  · rcases List.mem_cons.mp ha with rfl | ha
    · exact hright _ howner
    · exact h.right a ha

/-- Counting a response changes nothing the table is about. -/
theorem Table.noteResponse_eq (t : Table) (c : UInt32) :
    ∃ g, t.noteResponse c = { t with responseGenerations := g } := by
  unfold Table.noteResponse
  split
  · exact ⟨t.responseGenerations, rfl⟩
  · exact ⟨_, rfl⟩

theorem shrinks_noteResponse (s : State) (c : UInt32) :
    Shrinks s { s with table := s.table.noteResponse c } := by
  obtain ⟨g, hg⟩ := s.table.noteResponse_eq c
  rw [hg]
  refine ⟨rfl, rfl, rfl, rfl, fun l hl => ⟨l, ?_, List.Sublist.refl l⟩, fun i _ => rfl⟩
  exact ⟨hl.mem, hl.rep, hl.free, hl.free_nodup, hl.channel, hl.lookup⟩

theorem handleResponse_sat (m : RelayDatagram) (h : Served s none) :
    Prog.Sat A (fun s' _ => Served s' none) (handleResponse c m s) := by
  refine sat_ite (fun _ => h) fun _ => ?_
  rcases hparse : parseResponse m.payload with _ | info
  · exact h
  · simp only [Lib.Act.bind_run, get_run, Prog.ret_bind]
    rcases hfind : s.table.find c info.id with _ | slot
    · exact h
    · obtain ⟨l, hl⟩ := h.table
      obtain ⟨hslot, hu, hc, hid⟩ := hl.find hfind
      refine sat_ite (fun _ => h) fun hfp => ?_
      simp only [Lib.Act.bind_run, modify_run, Prog.ret_bind]
      -- counting the response leaves the transaction where it is
      obtain ⟨g, hg⟩ := s.table.noteResponse_eq c
      have hserved := h.shrinks (shrinks_noteResponse s c)
      have htable : (s.table.noteResponse c).transactions = s.table.transactions := by rw [hg]
      have hcap : (s.table.noteResponse c).capacity = s.table.capacity := by rw [hg]
      refine (sendResponse_sat _ _ _).bind fun t sent ht => ?_
      rw [← htable] at hu hc hid hfp ht ⊢
      obtain ⟨hlen, hid'⟩ := parseDnsPacket_some hparse
      cases sent with
      | false =>
          have ht' : Served t none := by
            refine hserved.shrinks ⟨ht.cfg, ht.trace, ?_, ?_, fun l hl => ⟨l, ?_, .refl l⟩, ?_⟩ <;>
              rw [ht.table]
            · exact hl
            · exact fun _ _ => rfl
          exact ht'.shrinks (shrinks_release t slot)
      | true =>
          refine hserved.answer ht (by rw [← hcap] at hslot; exact hslot) hu fun q hq => ?_
          have hown := hserved.owner slot hu (by simp)
          refine ⟨q, hq, ?_⟩
          obtain rfl := Option.some.inj (hq.symm.trans hown)
          refine ⟨rfl, readBe16_setId (by simp only [headerSize] at hlen; omega) _, rfl, hu, hc,
            hid.trans hid', fun info' hinfo hq => ?_⟩
          obtain rfl := Option.some.inj (hparse.symm.trans hinfo)
          exact not_not.mp fun hne => hfp ⟨hq, hne⟩

/-! ## Every event -/

theorem handleUpstream_sat (h : Served s none) :
    Prog.Sat A (fun s' _ => Served s' none) (handleUpstream c s) := by
  simp only [handleUpstream, Lib.Act.bind_run, get_run, Prog.ret_bind]
  rcases (s.channels c).udpFd with _ | fd
  · exact h
  · refine sat_ite (fun _ => ?_) fun _ => h
    intro slots _
    rcases slots with _ | batch
    · exact fun _ _ =>
        h.shrinks (shrinks_modChannel s c fun ch => { ch with relayPaused := true })
    · intro r _ _ _
      rcases r with e | messages
      · have hclose : ∀ now, Prog.Sat A (fun s' _ => Served s' none) (closeChannel c now s) :=
          fun now => (steady_closeChannel c now s).mono fun _ _ hs => h.shrinks hs.toShrinks
        cases e with
        | emsgsize => exact h
        | eagain => exact h
        | enobufs => exact fun now _ => hclose now
        | enomem => exact fun now _ => hclose now
        | eintr => exact fun now _ => hclose now
        | other => exact fun now _ => hclose now
      · exact Lib.Act.forEach_sat (fun m t ht => handleResponse_sat m ht) messages s h

theorem relayEvent_sat (bits : Bits) (h : Served s none) :
    Prog.Sat A (fun s' _ => Served s' none) (relayEvent c bits s) := by
  refine sat_ite (fun _ => ?_) fun _ => h
  refine sat_ite (fun _ now _ => ?_) fun _ => ?_
  · exact (steady_closeChannel c now s).mono fun _ _ hs => h.shrinks hs.toShrinks
  · exact sat_ite (fun _ => handleUpstream_sat h) fun _ => h

theorem shrinks_resumeRelay (c : UInt32) : Keeps A Shrinks (resumeRelay c) := by
  refine keeps_get.bind fun s => ?_
  rcases (s.channels c).udpFd with _ | fd
  · exact keeps_pure _
  · refine keeps_ite ?_ (keeps_pure _)
    exact (keeps_ask _).bind fun done => keeps_ite (shrinks_channel c _) (keeps_pure _)

theorem shrinks_maintain : Keeps A Shrinks maintain :=
  (keeps_ask Sys.nowMs).bind fun t => (shrinks_expireTransactions t).bind fun _ =>
    (keeps_ask Sys.nowMs).bind fun t => shrinks_expireHandshakes t

/-- The step lemma. -/
theorem handle_sat (ev : Event) (h : Served s none) :
    Prog.Sat A (fun s' _ => Served s' none) (handle ev s) := by
  cases ev with
  | clients => exact handleClients_sat h
  | control c bits =>
      exact fun now _ => (shrinks_controlEvent c bits now s).mono fun _ _ hs => h.shrinks hs
  | relay c bits => exact relayEvent_sat bits h
  | resume c => exact (shrinks_resumeRelay c s).mono fun _ _ hs => h.shrinks hs
  | maintain => exact (shrinks_maintain s).mono fun _ _ hs => h.shrinks hs

/-- The run lemma. -/
theorem Reach.served {cfg : Config} (h : Reach cfg s) : Served s none := by
  induction h with
  | init h => exact served_init h
  | next _ ev _ ho ih => exact (handle_sat ev ih).out ho

/-! ## Concrete runs -/

/-- Handle events one after the other, each with the answers given in it. -/
def play : List (Event × ((q : Sys) → q.Ans)) → State → Option State
  | [], s => some s
  | (ev, answers) :: rest, s =>
      (Prog.exec (fun _ _ _ => true) (fun _ => answers) 0 (handle ev s)).bind fun r =>
        play rest r.1

/-- What `play` computes is reachable. -/
theorem play_reach {cfg : Config} {moves : List (Event × ((q : Sys) → q.Ans))}
    (hev : ∀ m ∈ moves, m.1.valid) (h : Reach cfg s) (hp : play moves s = some s') :
    Reach cfg s' := by
  induction moves generalizing s with
  | nil =>
      obtain rfl := Option.some.inj hp
      exact h
  | cons m moves ih =>
      obtain ⟨r, hr, hp⟩ := Option.bind_eq_some_iff.mp hp
      refine ih (fun m' hm' => hev m' (List.mem_cons_of_mem m hm')) (h.next m.1 ?_ ?_) hp
      · exact hev m List.mem_cons_self
      · exact Prog.exec_out (fun _ _ _ _ => trivial) hr

/-- An environment in which everything works; these are the client datagrams waiting and these the
datagrams from the relay.  The SOCKS5 server names 127.0.0.1:4660 as its relay. -/
def calmWith (packets : List ClientPacket) (replies : List RelayDatagram) : (q : Sys) → q.Ans
  | .nowMs => (1 : Nat)
  | .retries => (0 : Nat)
  | .connect => some (7 : Nat)
  | .epollAdd _ _ => true
  | .epollModify _ _ => true
  | .soError _ => true
  | .controlSend _ n => .ok n
  | .controlRecv _ n =>
      .ok (if n = 2 then [5, 0] else if n = 4 then [5, 0, 0, 1] else [127, 0, 0, 1, 18, 52])
  | .controlPeek _ => .error .eagain
  | .resolve _ _ => none
  | .relaySocket _ => some (9 : Nat)
  | .relayConnect _ _ => true
  | .portClaim _ => true
  | .portRelease _ => ()
  | .relaySendmmsg _ ms => .ok ms.length
  | .reserveSlots batch => some batch
  | .releaseReservation => ()
  | .relayRecv _ _ => .ok replies
  | .rawReplySocket _ => some (11 : Nat)
  | .replySocket _ => some ((12 : Nat), false)
  | .rawSend _ _ _ _ => .ok ()
  | .plainSend _ _ payload => .ok payload.length
  | .recvClients => packets

def calmConfig : Config :=
  { enableDnsHijack := true, socksAddr := ⟨.inet, [4, 56, 127, 0, 0, 1]⟩
    transactionTimeoutMs := 5000, batchSize := 64, listener4 := 3, listener6 := none
    batchSize_le := by decide }

/-- A DNS packet that asks for the root, under an id. -/
def rootPacket (id : UInt16) (flags : UInt8) : List UInt8 :=
  [(id >>> 8).toUInt8, id.toUInt8, flags, 0, 0, 1, 0, 0, 0, 0, 0, 0, 0, 0, 1, 0, 1]

/-- A client asks 8.8.8.8. -/
def queryFrom (client : Sockaddr) (payload : List UInt8) : ClientPacket :=
  { clientAddr := client, tokenFamily := .inet, tokenAddr := [], hasOriginalDst := true
    originalFromSocket := true, connectedUdpToken := false, tokenLookupMode := .unknown
    originalDst := ⟨.inet, 53, [8, 8, 8, 8]⟩, payload := payload }

/-- A query has both channels connect; then channel 0 goes through its handshake. -/
def openMoves : List (Event × ((q : Sys) → q.Ans)) :=
  [(.clients, calmWith [queryFrom ⟨.inet, [1]⟩ (rootPacket 7 0)] []),
    (.control 0 .output, calmWith [] []), (.control 0 .input, calmWith [] []),
    (.control 0 .output, calmWith [] []), (.control 0 .input, calmWith [] [])]

/-- A response without an error. -/
def replyWith (payload : List UInt8) : RelayDatagram :=
  ⟨⟨.inet, 53, [8, 8, 8, 8]⟩, payload, none⟩

/-- A query goes out on channel 0, and its response comes back. -/
def answerMoves : List (Event × ((q : Sys) → q.Ans)) :=
  openMoves ++
    [(.clients, calmWith [queryFrom ⟨.inet, [1]⟩ (rootPacket 7 0)] []),
      (.relay 0 .input, calmWith [] [replyWith (rootPacket 0 128)])]

/-! ## The main result -/

/-- In every run of the fast path the datagrams the kernel took for clients are answers, every answer
is right, and no query is answered twice; and the datagrams it took for the relays are those of
entries a flush sent, and whatever a flush sends or releases is the transaction of the entry it is
handed. -/
theorem dns_answers_right {cfg : Config} (h : Reach cfg s) :
    s.trace.replies = s.trace.answers.map (fun a => (a.client, a.payload)) ∧
      (∀ a ∈ s.trace.answers, a.Right s.trace.queries) ∧
      (s.trace.answers.map (·.uid)).Nodup ∧
      s.trace.relayed =
        (s.trace.flushed.filter fun f => f.deed = .sent).map (fun f => f.entry.msg) ∧
      ∀ f ∈ s.trace.flushed, f.Own :=
  ⟨h.served.replies, h.served.right, h.served.once, h.served.relayed, h.served.flushed⟩

/-- A query is answered. -/
theorem dns_answers_right_run :
    ∃ s, Reach calmConfig s ∧ (s.trace.replies = [(⟨.inet, [1]⟩, rootPacket 7 128)] ∧
        s.trace.answers.map (·.uid) = [0] ∧ s.trace.relayed.length = 1) ∧
      s.trace.replies = s.trace.answers.map (fun a => (a.client, a.payload)) ∧
      (∀ a ∈ s.trace.answers, a.Right s.trace.queries) ∧
      (s.trace.answers.map (·.uid)).Nodup ∧
      s.trace.relayed =
        (s.trace.flushed.filter fun f => f.deed = .sent).map (fun f => f.entry.msg) ∧
      ∀ f ∈ s.trace.flushed, f.Own := by
  have hrun : ((initState calmConfig).bind (play answerMoves)).any (fun s =>
      s.trace.replies = [(⟨.inet, [1]⟩, rootPacket 7 128)] ∧
        s.trace.answers.map (·.uid) = [0] ∧ s.trace.relayed.length = 1) = true := by
    decide +kernel
  obtain ⟨s, hs, hr⟩ := (Option.any_eq_true _ _).mp hrun
  obtain ⟨s₀, h₀, hp⟩ := Option.bind_eq_some_iff.mp hs
  have h : Reach calmConfig s := play_reach (by simp [answerMoves, openMoves, Event.valid, channelsPerWorker]) (.init h₀) hp
  exact ⟨s, h, of_decide_eq_true hr, dns_answers_right h⟩

end Bpf2Socks.Dns
