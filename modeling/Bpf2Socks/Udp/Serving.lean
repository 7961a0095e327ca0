/-
# Bpf2Socks.Udp.Serving — code that works on replies without touching the tables.

Channels are made, drained and retired, sockets are opened and written to, relays are paused and
resumed.  All of this writes the kernel's tables, the queues, the budget waiters, the ghost record
of deliveries and, of a binding, only the count of what is queued for it.  A preorder that contains
these writes contains every run of the code.
-/
import Bpf2Socks.Udp.Quiet

namespace Bpf2Socks.Udp

open Function (update)
open Lib (Prog Act)
open Lib.Prog Lib.Act
open Worker hiding get modify ask diverge

/-- A preorder that contains the writes of code about replies. -/
structure Serving (R : State → State → Prop) : Prop where
  like : ∀ {s s'}, Like s s' → R s s'
  kern : ∀ s kern, R s { s with kern := kern }
  down : ∀ s down, R s { s with down := down }
  waiters : ∀ s n, R s { s with waiters := n }
  pending : ∀ s b (f : Nat → Nat), R s (s.modBinding b fun c =>
    { c with downlinkPendingCount := f c.downlinkPendingCount })
  delivered : ∀ s l, R s { s with trace.delivered := l }

namespace Serving

variable {A : State → (q : Sys) → q.Ans → Prop} {R : State → State → Prop} (hR : Serving R)

include hR

theorem quiet {α : Type} {f : Worker α} (hf : Quiet A f) : Keeps A R f := hf.imp hR.like

theorem modDown (s : State) (k : Nat) (f : Down → Down) : R s (s.modDown k f) := hR.down s _

theorem register (s : State) (r : Ref) (mask : Bits) : R s (s.register r mask) := hR.kern s _

variable [IsPreorder State R]

theorem closeFd (s : State) (fd : Option Nat) : R s (s.closeFd fd) := by
  cases fd with
  | none => exact refl_of R s
  | some fd => exact hR.kern s _

theorem markReady (s : State) (k : Nat) : R s (markReady s k) := by
  unfold Udp.markReady
  split
  · exact trans_of R (hR.modDown s k _) (hR.waiters _ _)
  · exact refl_of R s

theorem markWaiting (s : State) (k : Nat) : R s (markWaiting s k) := by
  unfold Udp.markWaiting
  split
  · exact refl_of R s
  · exact trans_of R (hR.modDown s k _) (hR.waiters _ _)

theorem deliver (s : State) (k fd : Nat) (src : SockKind → Source) (m : Msg) :
    R s (s.deliver k fd src m) := by
  unfold State.deliver
  split
  · exact hR.delivered s _
  · exact refl_of R s

theorem deliverBatch (s : State) (k fd : Nat) (pk : Bool) (l : List (Nat × Msg)) :
    R s (s.deliverBatch k fd pk l) := by
  induction l generalizing s with
  | nil => exact refl_of R s
  | cons e rest ih => exact trans_of R (hR.deliver s k fd _ e.2) (ih _)

/-! ## Registrations and sockets -/

theorem epollModify (r : Ref) (mask : Bits) : Keeps A R (epollModify r mask) := by
  refine (keeps_ask _).bind fun done => ?_
  cases done with
  | false => exact keeps_pure _
  | true => exact (keeps_modify fun s => hR.register s r mask).bind fun _ => keeps_pure _

theorem epollAdd (r : Ref) (mask : Bits) : Keeps A R (epollAdd r mask) := by
  refine (keeps_ask _).bind fun done => ?_
  cases done with
  | false => exact keeps_pure _
  | true => exact (keeps_modify fun s => hR.register s r mask).bind fun _ => keeps_pure _

theorem dup (fd : Nat) (o : FdOwner) : Keeps A R (dup fd o) := by
  refine (keeps_ask _).bind fun r => ?_
  cases r with
  | none => exact keeps_pure _
  | some new => exact (keeps_modify fun s => hR.kern s _).bind fun _ => keeps_pure _

theorem setPaused (k : Nat) (paused : Bool) : Keeps A R (setPaused k paused) := by
  refine keeps_get.bind fun s => keeps_ite (keeps_pure _) (keeps_ite (keeps_pure _) ?_)
  refine (hR.epollModify _ _).bind fun done => ?_
  cases done with
  | false => exact keeps_pure _
  | true => exact (keeps_modify fun s => hR.modDown s k _).bind fun _ => keeps_pure _

/-! ## Channels -/

theorem releaseDownlinkPacket (k : Nat) (p : DownPacket) :
    Keeps A R (releaseDownlinkPacket k p) :=
  (keeps_modify fun s => hR.modDown s k _).bind fun _ =>
    (keeps_modify fun s => hR.pending s p.binding fun n => n - 1).bind fun _ =>
    hR.quiet (quiet_budgetRelease _)

theorem releaseQueue (k : Nat) (q : List DownPacket) : Keeps A R (releaseQueue k q) := by
  induction q with
  | nil => exact keeps_pure ()
  | cons p rest ih =>
      exact (keeps_modify fun s => hR.like (like_popRetiring s p rest)).bind fun _ =>
        (hR.releaseDownlinkPacket k p).bind fun _ => ih

theorem unlinkChannel (s : State) (k : Nat) (ch : Channel) : R s (unlinkChannel s k ch) := by
  set t := s.modDown k fun d => { d with channels := d.channels.filter fun c => c.id ≠ ch.id }
  set u := t.epollRemove (.downlink k ch.id)
  have hlink : R s t := hR.modDown s k _
  have hkern : R t (u.closeFd (some ch.fd)) := trans_of R (b := u) (hR.kern t _) (hR.closeFd u _)
  refine trans_of R hlink (trans_of R hkern ?_)
  exact hR.like ⟨{ (u.closeFd (some ch.fd)).ownNoise with retiring := ch.queue }, rfl,
    Nat.le_refl _⟩

theorem retireDownlinkChannel (k : Nat) (ch : Channel) (resume : Bool) :
    Keeps A R (retireDownlinkChannel k ch resume) := by
  refine (keeps_modify fun s => hR.unlinkChannel s k ch).bind fun _ =>
    (hR.releaseQueue k _).bind fun _ =>
    (keeps_modify fun s => hR.like (like_retired s _)).bind fun _ => keeps_get.bind fun s => ?_
  exact keeps_ite ((hR.setPaused k false).bind fun _ => keeps_pure ()) (keeps_pure ())

theorem createDownlinkChannel (k b fd : Nat) (pk raw : Bool) :
    Keeps A R (createDownlinkChannel k b fd pk raw) := by
  refine keeps_get.bind fun s => (hR.dup _ _).bind fun r => ?_
  cases r with
  | none => exact keeps_pure _
  | some new =>
      have hclose : Keeps A R (do Worker.modify fun s => s.closeFd (some new); pure none :
          Worker (Option Channel)) :=
        (keeps_modify fun s => hR.closeFd s _).bind fun _ => keeps_pure _
      refine (keeps_ask _).bind fun _ => keeps_ite hclose ?_
      exact (keeps_modify fun s => hR.kern s _).bind fun _ => keeps_get.bind fun s =>
        (hR.epollAdd _ _).bind fun _ => keeps_ite hclose
        ((keeps_modify fun s => hR.modDown s k _).bind fun _ => keeps_pure _)

theorem pushPacket (s : State) (k b id : Nat) (m : Msg) : R s (pushPacket s k b id m) := by
  set bytes := downlinkPacketSize + m.payload.length
  set t := modChannel s k id fun ch => { ch with queue := ch.queue ++ [⟨b, m, bytes⟩] }
  set u := { t with trace.inProgress := t.trace.inProgress - bytes }
  set v := u.modDown k fun d => { d with pendingCount := d.pendingCount + 1 }
  have hqueue : R s u := trans_of R (hR.modDown s k _) (hR.like (like_inProgress t _))
  have hcount : R u v := hR.modDown u k _
  exact trans_of R hqueue (trans_of R hcount (trans_of R (hR.pending v b fun n => n + 1)
    (hR.markReady _ k)))

theorem popPacket (s : State) (k id : Nat) (p : DownPacket) : R s (popPacket s k id p) := by
  set t := modChannel s k id fun ch => { ch with queue := ch.queue.tail }
  have hqueue : R s t := hR.modDown s k _
  exact trans_of R hqueue (hR.like (like_inProgress t _))

/-! ## Sending -/

theorem rawSend (fd k b : Nat) (m : Msg) : Keeps A R (rawSend fd k b m) := by
  refine keeps_get.bind fun s => keeps_ite (keeps_pure _) (keeps_ite (keeps_pure _) ?_)
  refine (keeps_ask _).bind fun r => ?_
  cases r with
  | error e => exact keeps_pure _
  | ok n =>
      exact keeps_ite ((keeps_modify fun s => hR.deliver s k fd _ m).bind fun _ => keeps_pure _)
        (keeps_pure _)

theorem sendPlain (fd k : Nat) (pk : Bool) (l : List (Nat × Msg)) :
    Keeps A R (sendPlain fd k pk l) := by
  refine (keeps_ask _).bind fun r => ?_
  cases r with
  | error e => exact keeps_pure _
  | ok n =>
      exact (keeps_modify fun s => hR.deliverBatch s k fd pk _).bind fun _ => keeps_pure _

theorem sendDownlinkChannelPacket (k : Nat) (ch : Channel) (p : DownPacket) :
    Keeps A R (sendDownlinkChannelPacket k ch p) := by
  refine keeps_ite ((hR.rawSend _ _ _ _).bind fun r => ?_)
    ((hR.sendPlain _ _ _ _).bind fun _ => keeps_pure _)
  cases r <;> exact keeps_pure _

/-! ## Waiting for the budget -/

theorem resumeDnsChannel (i : Fin dnsChannelsPerWorker) : Keeps A R (resumeDnsChannel i) := by
  refine keeps_get.bind fun s => keeps_ite ((hR.epollModify _ _).bind fun done => ?_)
    (keeps_pure ())
  exact keeps_ite (keeps_modify fun s => hR.like (like_dns s _)) (keeps_pure _)

theorem resumeSession (k : Nat) : Keeps A R (resumeSession k) := by
  refine keeps_get.bind fun s => keeps_ite ((hR.setPaused k false).bind fun resumed => ?_)
    (keeps_pure ())
  exact keeps_ite (keeps_modify fun s => hR.markReady s k) (keeps_pure _)

theorem resumeSessions : Keeps A R resumeSessions :=
  keeps_get.bind fun _ => keeps_ite (keeps_pure ()) ((keeps_ask _).bind fun _ =>
    keeps_ite (keeps_pure ()) (keeps_forEach (fun k => hR.resumeSession k) _))

theorem resumeBudgetWaiters : Keeps A R resumeBudgetWaiters := by
  refine keeps_get.bind fun s => (keeps_ask _).bind fun used => keeps_ite ?_ hR.resumeSessions
  exact (keeps_forEach (fun i => hR.resumeDnsChannel i) _).bind fun _ => hR.resumeSessions

end Serving

end Bpf2Socks.Udp
