/-
# Bpf2Socks.Udp.Within — what handling bindings and replies leaves alone.

Everything the worker does to make bindings and to deliver replies to one client (queueing,
flushing, batching) touches the session table in one way only: it marks that session as seen.
`Beside` is the relation of code that does not touch the table at all, `Seen k` that of code that
may mark session `k` as seen, `Within k` that of code that also works on the batch of replies for
`k`; all leave alone what `Outside` lists.  The facts about the session table hold across this code
for that reason alone.
-/
import Bpf2Socks.Udp.SessionTable
import Mathlib.Logic.Relation

namespace Bpf2Socks.Udp

open Function (update)
open Lib (Prog Act)
open Lib.Prog Lib.Act
open Worker hiding get modify ask diverge

/-- What code about bindings and replies never writes. -/
structure Outside where
  cfg : WorkerConfig
  assoc : Nat → Assoc
  refs : Nat → SessRefs
  rel : Release
  events : List Event
  nowMs : Nat
  incoming : List ClientDatagram
  outgoing : List Outgoing
  session : Nat
  nextUid : Nat
  relaySends : List RelaySend

/-- That part of a state. -/
def State.outside (s : State) : Outside :=
  ⟨s.cfg, s.assoc, s.refs, s.rel, s.events, s.frame.nowMs, s.frame.incoming, s.frame.outgoing,
    s.frame.session, s.trace.nextUid, s.trace.relaySends⟩

/-! ## Code beside the session table -/

/-- From `s` to `s'` neither the session table nor the downlink batch was touched. -/
structure Beside (s s' : State) : Prop where
  outside : s'.outside = s.outside
  clock : s.trace.clock ≤ s'.trace.clock
  tbl : s'.tbl = s.tbl
  batch : s'.frame.batch = s.frame.batch

instance : IsPreorder State Beside where
  refl _ := ⟨rfl, Nat.le_refl _, rfl, rfl⟩
  trans _ _ _ h h' := ⟨h'.outside.trans h.outside, Nat.le_trans h.clock h'.clock,
    h'.tbl.trans h.tbl, h'.batch.trans h.batch⟩

variable {A : State → (q : Sys) → q.Ans → Prop} {k : Nat}

/-- A change of other fields. -/
theorem beside_of_eq {s s' : State} (ho : s'.outside = s.outside)
    (hc : s'.trace.clock = s.trace.clock) (ht : s'.tbl = s.tbl)
    (hb : s'.frame.batch = s.frame.batch) : Beside s s' := ⟨ho, hc ▸ Nat.le_refl _, ht, hb⟩

theorem Like.beside {s s' : State} (h : Like s s') : Beside s s' := by
  obtain ⟨n, rfl, hc⟩ := h
  exact ⟨rfl, hc, rfl, rfl⟩

theorem Quiet.beside {α : Type} {f : Worker α} (hf : Quiet A f) : Keeps A Beside f :=
  hf.imp Like.beside

theorem beside_modDown (s : State) (j : Nat) (f : Down → Down) : Beside s (s.modDown j f) :=
  beside_of_eq rfl rfl rfl rfl

theorem beside_modBinding (s : State) (b : Nat) (f : Binding → Binding) :
    Beside s (s.modBinding b f) := beside_of_eq rfl rfl rfl rfl

theorem beside_register (s : State) (r : Ref) (mask : Bits) : Beside s (s.register r mask) :=
  beside_of_eq rfl rfl rfl rfl

theorem beside_markReady (s : State) (j : Nat) : Beside s (markReady s j) := by
  unfold markReady
  split
  · exact beside_of_eq rfl rfl rfl rfl
  · exact refl_of Beside s

theorem beside_markWaiting (s : State) (j : Nat) : Beside s (markWaiting s j) := by
  unfold markWaiting
  split
  · exact refl_of Beside s
  · exact beside_of_eq rfl rfl rfl rfl

theorem beside_closeFd (s : State) (fd : Option Nat) : Beside s (s.closeFd fd) := by
  cases fd <;> exact beside_of_eq rfl rfl rfl rfl

theorem beside_deliver (s : State) (j fd : Nat) (src : SockKind → Source) (m : Msg) :
    Beside s (s.deliver j fd src m) := by
  unfold State.deliver
  split <;> exact beside_of_eq rfl rfl rfl rfl

theorem beside_deliverBatch (s : State) (j fd : Nat) (pk : Bool) (l : List (Nat × Msg)) :
    Beside s (s.deliverBatch j fd pk l) := by
  induction l generalizing s with
  | nil => exact refl_of Beside s
  | cons e rest ih => exact trans_of Beside (beside_deliver s j fd _ e.2) (ih _)

/-! ### Bindings -/

theorem beside_bindingCloseReply (s : State) (b : Nat) : Beside s (bindingCloseReply s b) :=
  trans_of Beside (beside_closeFd s _) (beside_modBinding _ b _)

theorem beside_releaseBinding (s : State) (b : Nat) : Beside s (releaseBinding s b) := by
  refine trans_of Beside (beside_bindingCloseReply s b) ?_
  exact beside_of_eq rfl rfl rfl rfl

theorem beside_destroyBinding (s : State) (j b : Nat) : Beside s (destroyBinding s j b) := by
  refine trans_of Beside (b := { s with bind := s.bind.detach j b }) ?_
    (beside_releaseBinding _ b)
  exact beside_of_eq rfl rfl rfl rfl

theorem beside_destroyBindings (s : State) (j : Nat) : Beside s (destroyBindings s j) :=
  foldl_of_step (fun s b => beside_destroyBinding s j b) _ s

theorem keeps_evictBinding : Keeps A Beside evictBinding := by
  refine keeps_get.bind fun s => ?_
  split
  · exact keeps_diverge
  · exact keeps_pure _
  · split
    · exact keeps_pure _
    · refine (keeps_modify fun s => ?_).bind fun _ => keeps_pure _
      exact trans_of Beside (beside_destroyBinding s _ _) (like_count _ _ _).beside

theorem keeps_ensureBindingCapacity (fuel : Nat) :
    Keeps A Beside (ensureBindingCapacity fuel) := by
  induction fuel with
  | zero => exact keeps_diverge
  | succ fuel ih =>
      exact keeps_get.bind fun s => keeps_ite
        (keeps_evictBinding.bind fun _ => keeps_ite ih (keeps_pure _)) (keeps_pure _)

theorem keeps_replySocketCreate (dst : DstAddr) (o : FdOwner) :
    Keeps A Beside (replySocketCreate dst o) := by
  refine keeps_ite ((keeps_ask _).bind fun r => ?_) (keeps_pure _)
  cases r with
  | none => exact keeps_pure _
  | some a =>
      refine (keeps_modify fun s => ?_).bind fun _ => keeps_pure _
      exact beside_of_eq rfl rfl rfl rfl

theorem keeps_finishBinding (j b : Nat) (req : BindingRequest) :
    Keeps A Beside (finishBinding j b req) := by
  refine (keeps_modify fun s => beside_modBinding s b _).bind fun _ => keeps_get.bind fun s => ?_
  split
  · exact (keeps_modify fun s => beside_releaseBinding s b).bind fun _ => keeps_pure _
  · refine (keeps_modify fun s => ?_).bind fun _ => (quiet_count _ _).beside.bind fun _ => ?_
    · exact beside_of_eq rfl rfl rfl rfl
    · split
      · exact (quiet_count _ _).beside.bind fun _ => keeps_pure _
      · exact keeps_pure _

theorem keeps_createBinding (j : Nat) (req : BindingRequest) :
    Keeps A Beside (createBinding j req) := by
  refine keeps_get.bind fun s => (keeps_ensureBindingCapacity _).bind fun _ =>
    keeps_ite (keeps_get.bind fun s => ?_) (keeps_pure _)
  split
  · exact keeps_pure _
  · refine (keeps_modify fun s => ?_).bind fun _ =>
      (keeps_modify fun s => beside_modBinding s _ _).bind fun _ =>
      quiet_nowMs.beside.bind fun now =>
      (keeps_modify fun s => beside_modBinding s _ _).bind fun _ => keeps_ite ?_ ?_
    · exact beside_of_eq rfl rfl rfl rfl
    · refine (keeps_replySocketCreate _ _).bind fun r => ?_
      split
      · exact (keeps_modify fun s => beside_releaseBinding s _).bind fun _ => keeps_pure _
      · exact (keeps_modify fun s => beside_modBinding s _ _).bind fun _ =>
          keeps_finishBinding j _ req
    · exact keeps_finishBinding j _ req

theorem keeps_bindingFind (j : Nat) (dst : DstAddr) : Keeps A Beside (bindingFind j dst) :=
  (quiet_count _ _).beside.bind fun _ => keeps_get.bind fun _ => keeps_pure _

theorem keeps_bindingExpireWalk (now fuel : Nat) (cur : Option Nat) :
    Keeps A Beside (bindingExpireWalk now fuel cur) := by
  induction fuel generalizing cur with
  | zero => exact keeps_diverge
  | succ fuel ih =>
      cases cur with
      | none => exact keeps_pure ()
      | some b =>
          refine keeps_get.bind fun s => keeps_ite (keeps_pure ()) (keeps_ite (ih _) ?_)
          split
          · exact (quiet_count _ _).beside.bind fun _ => ih _
          · refine (keeps_modify fun s => ?_).bind fun _ => ih _
            exact trans_of Beside (beside_destroyBinding s _ _) (like_count _ _ _).beside

theorem keeps_bindingExpireIdle : Keeps A Beside bindingExpireIdle :=
  quiet_nowMs.beside.bind fun _ => keeps_ite (keeps_pure ())
    (keeps_get.bind fun _ => keeps_bindingExpireWalk _ _ _)

/-! ### Channels -/

theorem keeps_epollModify (r : Ref) (mask : Bits) : Keeps A Beside (epollModify r mask) := by
  refine (keeps_ask _).bind fun done => ?_
  cases done with
  | false => exact keeps_pure _
  | true => exact (keeps_modify fun s => beside_register s r mask).bind fun _ => keeps_pure _

theorem keeps_epollAdd (r : Ref) (mask : Bits) : Keeps A Beside (epollAdd r mask) := by
  refine (keeps_ask _).bind fun added => ?_
  cases added with
  | false => exact keeps_pure _
  | true => exact (keeps_modify fun s => beside_register s r mask).bind fun _ => keeps_pure _

theorem keeps_setPaused (j : Nat) (paused : Bool) : Keeps A Beside (setPaused j paused) := by
  refine keeps_get.bind fun s => keeps_ite (keeps_pure _) (keeps_ite (keeps_pure _) ?_)
  refine (keeps_epollModify _ _).bind fun done => ?_
  cases done with
  | false => exact keeps_pure _
  | true => exact (keeps_modify fun s => beside_modDown s j _).bind fun _ => keeps_pure _

theorem keeps_releaseDownlinkPacket (j : Nat) (p : DownPacket) :
    Keeps A Beside (releaseDownlinkPacket j p) :=
  (keeps_modify fun s => beside_modDown s j _).bind fun _ =>
    (keeps_modify fun s => beside_modBinding s _ _).bind fun _ => (quiet_budgetRelease _).beside

theorem keeps_releaseQueue (j : Nat) (q : List DownPacket) :
    Keeps A Beside (releaseQueue j q) := by
  induction q with
  | nil => exact keeps_pure ()
  | cons p rest ih =>
      exact (keeps_modify fun s => (like_popRetiring s p rest).beside).bind fun _ =>
        (keeps_releaseDownlinkPacket j p).bind fun _ => ih

theorem beside_unlinkChannel (s : State) (j : Nat) (ch : Channel) :
    Beside s (unlinkChannel s j ch) := beside_of_eq rfl rfl rfl rfl

theorem keeps_retireDownlinkChannel (j : Nat) (ch : Channel) (resume : Bool) :
    Keeps A Beside (retireDownlinkChannel j ch resume) := by
  refine (keeps_modify fun s => beside_unlinkChannel s j ch).bind fun _ =>
    (keeps_releaseQueue j _).bind fun _ =>
    (keeps_modify fun s => (like_retired s _).beside).bind fun _ => keeps_get.bind fun s => ?_
  exact keeps_ite ((keeps_setPaused j false).bind fun _ => keeps_pure ()) (keeps_pure ())

theorem keeps_dup (fd : Nat) (o : FdOwner) : Keeps A Beside (dup fd o) := by
  refine (keeps_ask _).bind fun r => ?_
  cases r with
  | none => exact keeps_pure _
  | some new =>
      refine (keeps_modify fun s => ?_).bind fun _ => keeps_pure _
      exact beside_of_eq rfl rfl rfl rfl

theorem keeps_createDownlinkChannel (j b fd : Nat) (pk raw : Bool) :
    Keeps A Beside (createDownlinkChannel j b fd pk raw) := by
  refine keeps_get.bind fun s => (keeps_dup _ _).bind fun r => ?_
  cases r with
  | none => exact keeps_pure _
  | some new =>
      refine (keeps_ask _).bind fun _ => keeps_ite
        ((keeps_modify fun s => beside_closeFd s _).bind fun _ => keeps_pure _) ?_
      refine (keeps_modify fun s => ?_).bind fun _ => keeps_get.bind fun s =>
        (keeps_epollAdd _ _).bind fun _ => keeps_ite
        ((keeps_modify fun s => beside_closeFd s _).bind fun _ => keeps_pure _)
        ((keeps_modify fun s => beside_modDown s j _).bind fun _ => keeps_pure _)
      exact beside_of_eq rfl rfl rfl rfl

theorem keeps_rawSend (fd j b : Nat) (m : Msg) : Keeps A Beside (rawSend fd j b m) := by
  refine keeps_get.bind fun s => keeps_ite (keeps_pure _) (keeps_ite (keeps_pure _) ?_)
  refine (keeps_ask _).bind fun r => ?_
  cases r with
  | error e => exact keeps_pure _
  | ok n =>
      exact keeps_ite ((keeps_modify fun s => beside_deliver s j fd _ m).bind fun _ => keeps_pure _)
        (keeps_pure _)

theorem keeps_sendPlain (fd j : Nat) (pk : Bool) (l : List (Nat × Msg)) :
    Keeps A Beside (sendPlain fd j pk l) := by
  refine (keeps_ask _).bind fun r => ?_
  cases r with
  | error e => exact keeps_pure _
  | ok n => exact (keeps_modify fun s => beside_deliverBatch s j fd pk _).bind fun _ => keeps_pure _

theorem keeps_sendDownlinkChannelPacket (j : Nat) (ch : Channel) (p : DownPacket) :
    Keeps A Beside (sendDownlinkChannelPacket j ch p) := by
  refine keeps_ite ((keeps_rawSend _ _ _ _).bind fun r => ?_)
    ((keeps_sendPlain _ _ _ _).bind fun _ => keeps_pure _)
  cases r <;> exact keeps_pure _

/-! ### Waiting for the budget -/

theorem keeps_resumeDnsChannel (i : Fin dnsChannelsPerWorker) :
    Keeps A Beside (resumeDnsChannel i) := by
  refine keeps_get.bind fun s => keeps_ite ((keeps_epollModify _ _).bind fun done => ?_)
    (keeps_pure ())
  exact keeps_ite (keeps_modify fun s => (like_dns s _).beside) (keeps_pure _)

theorem keeps_resumeSession (j : Nat) : Keeps A Beside (resumeSession j) := by
  refine keeps_get.bind fun s => keeps_ite ((keeps_setPaused j false).bind fun resumed => ?_)
    (keeps_pure ())
  exact keeps_ite (keeps_modify fun s => beside_markReady s j) (keeps_pure _)

theorem keeps_resumeSessions : Keeps A Beside resumeSessions :=
  keeps_get.bind fun _ => keeps_ite (keeps_pure ()) ((keeps_ask _).bind fun _ =>
    keeps_ite (keeps_pure ()) (keeps_forEach (fun j => keeps_resumeSession j) _))

theorem keeps_resumeBudgetWaiters : Keeps A Beside resumeBudgetWaiters := by
  refine keeps_get.bind fun s => (keeps_ask _).bind fun used => keeps_ite ?_ keeps_resumeSessions
  exact (keeps_forEach (fun i => keeps_resumeDnsChannel i) _).bind fun _ => keeps_resumeSessions

/-! ## Code that marks one session as seen -/

/-- `now` is what the last question about the time was answered. -/
def Read (A : State → (q : Sys) → q.Ans → Prop) (s : State) (now : Nat) : Prop :=
  ∃ t, A t .nowMs now ∧ s.trace.clock = max t.trace.clock now

/-- Reading the clock and writing the time down. -/
theorem keeps_stamp {β : Type} {R : State → State → Prop} [IsPreorder State R]
    (hlike : ∀ {s s'}, Like s s' → R s s') {F : Nat → State → State} {g : Nat → Worker β}
    (hF : ∀ s now, Read A s now → R s (F now s)) (hg : ∀ now, Keeps A R (g now)) :
    Keeps A R (nowMs >>= fun now => Worker.modify (F now) >>= fun _ => g now) := by
  intro s now hnow
  have hread : R s { s with trace.clock := max s.trace.clock now } := hlike (like_clock s now)
  exact (hg now _).mono fun _ _ h =>
    trans_of R (trans_of R hread (hF _ now ⟨s, hnow, rfl⟩)) h

/-- A preorder that replies for session `k` stay within. -/
structure Replying (A : State → (q : Sys) → q.Ans → Prop) (k : Nat)
    (R : State → State → Prop) : Prop where
  beside : ∀ {s s'}, Beside s s' → R s s'
  seen : ∀ s now, Read A s now → R s (seenSession s k now)

theorem beside_pushPacket (s : State) (j b id : Nat) (m : Msg) :
    Beside s (pushPacket s j b id m) := by
  refine trans_of Beside ?_ (beside_markReady _ j)
  exact beside_of_eq rfl rfl rfl rfl

theorem beside_popPacket (s : State) (j id : Nat) (p : DownPacket) :
    Beside s (popPacket s j id p) := beside_of_eq rfl rfl rfl rfl

theorem beside_seenBinding (s : State) (b now : Nat) : Beside s (seenBinding s b now) :=
  beside_modBinding s b _

theorem beside_popMessage (s : State) : Beside s (popMessage s) := beside_of_eq rfl rfl rfl rfl

theorem beside_dropMessage (s : State) (j : Nat) (m : Msg) (why : DropReason) :
    Beside s (dropMessage s j m why) := beside_of_eq rfl rfl rfl rfl

theorem beside_readdressMessage (s : State) (dst : DstAddr) : Beside s (readdressMessage s dst) := by
  unfold readdressMessage
  split <;> exact beside_of_eq rfl rfl rfl rfl

theorem beside_seenEntries (s : State) (now : Nat) (l : List (Nat × Msg)) :
    Beside s (seenEntries s now l) := by
  induction l generalizing s with
  | nil => exact refl_of Beside s
  | cons e rest ih => exact trans_of Beside (beside_seenBinding s e.1 now) (ih _)

namespace Replying

variable {R : State → State → Prop} (hR : Replying A k R)

include hR

theorem keeps {α : Type} {f : Worker α} (hf : Keeps A Beside f) : Keeps A R f := hf.imp hR.beside

theorem quiet {α : Type} {f : Worker α} (hf : Quiet A f) : Keeps A R f := hR.keeps hf.beside

variable [IsPreorder State R]

theorem both (s : State) (b now : Nat) (h : Read A s now) :
    R s (seenSession (seenBinding s b now) k now) :=
  trans_of R (hR.beside (beside_seenBinding s b now)) (hR.seen (seenBinding s b now) now h)

theorem stamp {β : Type} {F : Nat → State → State} {g : Nat → Worker β}
    (hF : ∀ s now, Read A s now → R s (F now s)) (hg : ∀ now, Keeps A R (g now)) :
    Keeps A R (nowMs >>= fun now => Worker.modify (F now) >>= fun _ => g now) :=
  keeps_stamp (fun h => hR.beside h.beside) hF hg

theorem queueOnChannel (b : Nat) (m : Msg) (ch : Channel) (created : Bool) :
    Keeps A R (Udp.queueOnChannel k b m ch created) := by
  refine (hR.quiet (quiet_allocDownlinkPacket _)).bind fun allocated => keeps_ite ?_ ?_
  · refine (keeps_modify fun s => hR.beside (beside_pushPacket s k b ch.id m)).bind fun _ =>
      hR.stamp (fun s now h => ?_) fun _ => hR.keeps (keeps_setPaused k true)
    refine trans_of R (hR.both s b now h) ?_
    exact hR.beside (beside_of_eq rfl rfl rfl rfl)
  · cases created with
    | false => exact keeps_pure _
    | true =>
        exact (hR.keeps (keeps_retireDownlinkChannel k ch false)).bind fun _ => keeps_pure _

theorem downlinkQueuePacket (b : Nat) (m : Msg) (fd : Nat) (pk raw : Bool) :
    Keeps A R (Udp.downlinkQueuePacket k b m fd pk raw) := by
  refine keeps_get.bind fun s => ?_
  split
  · exact hR.queueOnChannel b m _ false
  · refine (hR.keeps (keeps_createDownlinkChannel _ _ _ _ _)).bind fun r => ?_
    split
    · exact keeps_pure _
    · exact hR.queueOnChannel b m _ true

theorem flushChannelFrom (id fuel : Nat) : Keeps A R (Udp.flushChannelFrom k id fuel) := by
  induction fuel with
  | zero => exact keeps_diverge
  | succ fuel ih =>
      refine keeps_get.bind fun s => ?_
      split
      · exact keeps_pure _
      · split
        · exact (hR.keeps (keeps_retireDownlinkChannel _ _ _)).bind fun _ => keeps_pure _
        · refine (hR.keeps (keeps_sendDownlinkChannelPacket _ _ _)).bind fun r => ?_
          cases r with
          | retry => exact keeps_pure _
          | fatal => exact keeps_pure _
          | complete =>
              exact hR.stamp (fun s now h => hR.both s _ now h) fun _ =>
                (hR.quiet (quiet_count _ _)).bind fun _ => (hR.quiet (quiet_count _ _)).bind fun _ =>
                (keeps_modify fun s => hR.beside (beside_popPacket s k id _)).bind fun _ =>
                (hR.keeps (keeps_releaseDownlinkPacket k _)).bind fun _ => ih

theorem downlinkFlushChannel (id : Nat) : Keeps A R (Udp.downlinkFlushChannel k id) :=
  keeps_get.bind fun _ => hR.flushChannelFrom id _

end Replying

/-! ### Seen -/

/-- Mark a session as seen in the table. -/
def SessTable.seen (t : SessTable) (k now : Nat) : SessTable :=
  SessTable.lruTouch { t with core := update t.core k { t.core k with lastSeenMs := now } } k

/-- The table after session `k` was seen any number of times. -/
abbrev SeenTbl (k : Nat) : SessTable → SessTable → Prop :=
  Relation.ReflTransGen fun t t' => ∃ now, t' = t.seen k now

/-- From `s` to `s'` session `k` was seen and the batch was not touched. -/
structure Seen (k : Nat) (s s' : State) : Prop where
  outside : s'.outside = s.outside
  clock : s.trace.clock ≤ s'.trace.clock
  tbl : SeenTbl k s.tbl s'.tbl
  batch : s'.frame.batch = s.frame.batch

instance (k : Nat) : IsPreorder State (Seen k) where
  refl _ := ⟨rfl, Nat.le_refl _, .refl, rfl⟩
  trans _ _ _ h h' := ⟨h'.outside.trans h.outside, Nat.le_trans h.clock h'.clock,
    h.tbl.trans h'.tbl, h'.batch.trans h.batch⟩

theorem Beside.seen {s s' : State} (h : Beside s s') : Seen k s s' :=
  ⟨h.outside, h.clock, h.tbl ▸ .refl, h.batch⟩

theorem replying_seen : Replying A k (Seen k) where
  beside := Beside.seen
  seen _ now _ := ⟨rfl, Nat.le_refl _, .single ⟨now, rfl⟩, rfl⟩

/-! ## Code about the batch of one session -/

/-- Preorders, one for each session, that handling its replies stays within, the batch included. -/
structure Batching (A : State → (q : Sys) → q.Ans → Prop)
    (R : Nat → State → State → Prop) : Prop where
  replying : ∀ k, Replying A k (R k)
  shorten : ∀ k s n, R k s (dropBatch s n)
  start : ∀ k s, R k s { s with frame.batch := .init }
  append : ∀ k s b fd pk m, R k s (appendBatch s k b fd pk m)
  /-- A batch for another session than `k` tells nothing about `k`. -/
  other : ∀ {j k s s'}, s.frame.batch.entries ≠ [] → s.frame.batch.session = some j →
    R j s s' → R k s s'

namespace Batching

variable {R : Nat → State → State → Prop} [∀ k, IsPreorder State (R k)] (hR : Batching A R)

include hR

theorem queueEntries (fd : Nat) (pk : Bool) (l : List (Nat × Msg)) :
    Keeps A (R k) (Udp.queueEntries k fd pk l) := by
  induction l with
  | nil => exact keeps_pure _
  | cons e rest ih =>
      refine ((hR.replying k).downlinkQueuePacket _ _ _ _ _).bind fun queued =>
        keeps_ite ?_ (keeps_pure _)
      exact (keeps_modify fun s => hR.shorten k s 1).bind fun _ => ih

theorem flushBatch (fd : Nat) (batch : Batch) : Keeps A (R k) (Udp.flushBatch k fd batch) := by
  have hk := hR.replying k
  have hstart : Keeps A (R k) (Worker.modify fun s => { s with frame.batch := .init }) :=
    keeps_modify fun s => hR.start k s
  refine (hk.keeps (keeps_sendPlain _ _ _ _)).bind fun r => ?_
  split
  · exact keeps_pure _
  · refine hk.stamp hk.seen fun now =>
      (keeps_modify fun s => ?_).bind fun _ => (hk.quiet (quiet_count _ _)).bind fun _ =>
      (hk.quiet (quiet_count _ _)).bind fun _ => keeps_get.bind fun s => keeps_ite
        (keeps_ite (keeps_pure _) ?_) (hstart.bind fun _ => keeps_pure _)
    · exact trans_of (R k) (hk.beside (beside_seenEntries s now _)) (hR.shorten k _ _)
    · refine (hR.queueEntries _ _ _).bind fun queued => ?_
      cases queued with
      | false => exact keeps_pure _
      | true => exact hstart.bind fun _ => keeps_pure _

theorem downlinkBatchFlush : Keeps A (R k) Udp.downlinkBatchFlush := by
  intro s
  have hret : Sat A (fun s' _ => R k s s') (.ret s true) := refl_of (R k) s
  simp only [Udp.downlinkBatchFlush, bind_run, Worker.get_run, ret_bind]
  rcases he : s.frame.batch.entries with _ | ⟨e, rest⟩
  · exact hret
  rcases s.frame.batch.fd with _ | fd
  · exact hret
  rcases hj : s.frame.batch.session with _ | j
  · exact hret
  exact (hR.flushBatch (k := j) fd s.frame.batch s).mono fun s' _ h =>
    hR.other (by simp [he]) hj h

theorem batchAppend (b fd : Nat) (pk : Bool) (m : Msg) :
    Keeps A (R k) (Udp.batchAppend k b fd pk m) :=
  (keeps_modify fun s => hR.append k s b fd pk m).bind fun _ => keeps_get.bind fun _ =>
    keeps_ite hR.downlinkBatchFlush (keeps_pure _)

theorem downlinkBatchQueue (b : Nat) (m : Msg) (fd : Nat) (pk : Bool) :
    Keeps A (R k) (Udp.downlinkBatchQueue k b m fd pk) := by
  refine keeps_get.bind fun s => keeps_ite ?_ (keeps_ite ?_ (hR.batchAppend b fd pk m))
  · exact hR.downlinkBatchFlush.bind fun _ =>
      keeps_ite ((hR.replying k).downlinkQueuePacket _ _ _ _ _) (keeps_pure _)
  · exact hR.downlinkBatchFlush.bind fun _ =>
      keeps_ite (hR.batchAppend b fd pk m) (keeps_pure _)

/-! ### Relay datagrams -/

theorem queuedMessage (queued : Bool) :
    Keeps A (R k) (do
      if queued then Worker.modify Udp.popMessage
      pure queued) := by
  cases queued with
  | false => exact keeps_pure _
  | true =>
      exact (keeps_modify fun s => (hR.replying k).beside (beside_popMessage s)).bind fun _ =>
        keeps_pure _

theorem rawReply (b fd : Nat) (m : Msg) : Keeps A (R k) (Udp.rawReply k b fd m) := by
  have hk := hR.replying k
  have hqueue : Keeps A (R k) (do
      let queued ← Udp.downlinkQueuePacket k b m fd false true
      if queued then Worker.modify Udp.popMessage
      pure queued) :=
    (hk.downlinkQueuePacket _ _ _ _ _).bind fun queued => hR.queuedMessage queued
  refine hR.downlinkBatchFlush.bind fun _ => keeps_ite ?_ (keeps_pure _)
  refine keeps_get.bind fun s => keeps_ite hqueue ?_
  refine (hk.keeps (keeps_rawSend _ _ _ _)).bind fun r => ?_
  split
  · refine hk.stamp (fun s now h => ?_) fun _ =>
      (hk.quiet (quiet_count _ _)).bind fun _ => (hk.quiet (quiet_count _ _)).bind fun _ =>
      keeps_pure _
    exact trans_of (R k) (hk.both s b now h) (hk.beside (beside_popMessage _))
  · exact (hk.quiet (quiet_count _ _)).bind fun _ =>
      (keeps_modify fun s => hk.beside (beside_dropMessage s _ _ _)).bind fun _ => keeps_pure _
  · exact keeps_ite hqueue (keeps_pure _)

theorem sendReply (b : Nat) (m : Msg) : Keeps A (R k) (Udp.sendReply k b m) := by
  refine keeps_get.bind fun s => ?_
  split
  · exact keeps_ite (hR.rawReply b _ m) ((hR.downlinkBatchQueue _ _ _ _).bind fun queued =>
      hR.queuedMessage queued)
  · exact (hR.downlinkBatchQueue _ _ _ _).bind fun queued => hR.queuedMessage queued

theorem bindReply (m : Msg) : Keeps A (R k) (Udp.bindReply k m) := by
  have hk := hR.replying k
  refine (hk.keeps (keeps_bindingFind _ _)).bind fun found => ?_
  split
  · refine (hk.quiet (quiet_count _ _)).bind fun _ => (keeps_modify fun s => ?_).bind fun _ =>
      hR.sendReply _ m
    exact hk.beside (beside_of_eq rfl rfl rfl rfl)
  · refine (hk.keeps (keeps_createBinding _ _)).bind fun created => ?_
    split
    · exact hR.sendReply _ m
    · exact (hk.quiet (quiet_count _ _)).bind fun _ =>
        (keeps_modify fun s => hk.beside (beside_dropMessage s _ _ _)).bind fun _ => keeps_pure _

theorem upstreamMessage (m : Msg) : Keeps A (R k) (Udp.upstreamMessage k m) := by
  have hk := hR.replying k
  have hdrop : ∀ why, Keeps A (R k) (Worker.modify fun s => dropMessage s k m why) :=
    fun why => keeps_modify fun s => hk.beside (beside_dropMessage s k m why)
  refine (hk.quiet (quiet_count _ _)).bind fun _ => ?_
  split
  · exact (hk.quiet (quiet_count _ _)).bind fun _ => (hdrop _).bind fun _ => keeps_pure _
  · refine keeps_ite (keeps_get.bind fun s => ?_) (hR.bindReply m)
    split
    · exact (hk.quiet (quiet_count _ _)).bind fun _ => (hdrop _).bind fun _ => keeps_pure _
    · exact (keeps_modify fun s => hk.beside (beside_readdressMessage s _)).bind fun _ =>
        hR.bindReply _

end Batching

/-! ### Within -/

/-- The downlink batch, if there is one, is for session `k`. -/
def BatchOf (k : Nat) (s : State) : Prop :=
  s.frame.batch.entries = [] ∨ s.frame.batch.session = some k

/-- From `s` to `s'` only replies for session `k` were handled. -/
structure Within (k : Nat) (s s' : State) : Prop where
  outside : s'.outside = s.outside
  clock : s.trace.clock ≤ s'.trace.clock
  seen : BatchOf k s → SeenTbl k s.tbl s'.tbl ∧ BatchOf k s'

instance (k : Nat) : IsPreorder State (Within k) where
  refl _ := ⟨rfl, Nat.le_refl _, fun h => ⟨.refl, h⟩⟩
  trans _ _ _ h h' := by
    refine ⟨h'.outside.trans h.outside, Nat.le_trans h.clock h'.clock, fun hb => ?_⟩
    obtain ⟨ht, hb⟩ := h.seen hb
    obtain ⟨ht', hb⟩ := h'.seen hb
    exact ⟨ht.trans ht', hb⟩

theorem Seen.within {s s' : State} (h : Seen k s s') : Within k s s' := by
  refine ⟨h.outside, h.clock, fun hb => ⟨h.tbl, ?_⟩⟩
  unfold BatchOf
  rw [h.batch]
  exact hb

theorem Beside.within {s s' : State} (h : Beside s s') : Within k s s' := h.seen.within

/-- A batch that is for another session is not empty. -/
theorem BatchOf.session {j : Nat} {s : State} (hb : BatchOf k s)
    (he : s.frame.batch.entries ≠ []) (hj : s.frame.batch.session = some j) : j = k :=
  Option.some.inj (hj.symm.trans (hb.resolve_left he))

theorem within_appendBatch (s : State) (b fd : Nat) (pk : Bool) (m : Msg) :
    Within k s (appendBatch s k b fd pk m) := by
  refine ⟨rfl, Nat.le_refl _, fun h => ⟨.refl, Or.inr ?_⟩⟩
  simp only [appendBatch]
  split
  · rfl
  · rename_i hne
    exact h.resolve_left hne

/-- Leaving the batch as it is or shorter. -/
theorem within_dropBatch (s : State) (n : Nat) : Within k s (dropBatch s n) := by
  refine ⟨rfl, Nat.le_refl _, fun h => ⟨.refl, h.imp (fun h => ?_) id⟩⟩
  simp only [dropBatch, h, List.drop_nil]

theorem within_initBatch (s : State) : Within k s { s with frame.batch := .init } :=
  ⟨rfl, Nat.le_refl _, fun _ => ⟨.refl, Or.inl rfl⟩⟩

theorem batching_within : Batching A Within where
  replying k := ⟨Beside.within, fun s now h => (replying_seen.seen s now h : Seen k _ _).within⟩
  shorten _ := within_dropBatch
  start _ := within_initBatch
  append _ := within_appendBatch
  other he hj h := by
    refine ⟨h.outside, h.clock, fun hb => ?_⟩
    obtain rfl := hb.session he hj
    exact h.seen hb

end Bpf2Socks.Udp
