/-
# Bpf2Socks.Udp.Quiet — code that changes nothing the tables depend on.

Most of what the worker does between two changes of its tables is bookkeeping: it reads the clock,
counts, reserves and releases budget, moves uplink packets, steps the DNS channels.  `Like s t`
says that `t` is `s` up to such `Noise`, and `Quiet f` that running `f` changes nothing else.  The
results about the tables are stated up to `Like`, so that none of this shows up in them.
-/
import Bpf2Socks.Udp.Worker

namespace Bpf2Socks.Udp

open Lib (Prog Act)
open Lib.Prog Lib.Act
open Worker hiding get modify ask diverge

/-- The fields the tables do not depend on. -/
structure Noise where
  up : Nat → Uplink
  retiring : List DownPacket
  retired : List Nat
  dns : Fin dnsChannelsPerWorker → DnsChannel
  readReservation : Nat
  stats : Counter → Nat
  nextDeadlineMs : Nat
  clock : Nat
  inProgress : Nat

/-- Replace the noise of a state. -/
def State.noise (s : State) (n : Noise) : State :=
  { s with
    up := n.up
    retiring := n.retiring
    retired := n.retired
    dns := n.dns
    readReservation := n.readReservation
    stats := n.stats
    nextDeadlineMs := n.nextDeadlineMs
    trace := { s.trace with clock := n.clock, inProgress := n.inProgress } }

/-- `t` is `s` up to noise, and not earlier. -/
def Like (s t : State) : Prop := ∃ n, t = s.noise n ∧ s.trace.clock ≤ n.clock

/-- The noise of a state. -/
def State.ownNoise (s : State) : Noise :=
  ⟨s.up, s.retiring, s.retired, s.dns, s.readReservation, s.stats, s.nextDeadlineMs,
    s.trace.clock, s.trace.inProgress⟩

theorem Like.refl (s : State) : Like s s := ⟨s.ownNoise, rfl, Nat.le_refl _⟩

theorem Like.trans {s t u : State} (h : Like s t) (h' : Like t u) : Like s u := by
  obtain ⟨n, rfl, hn⟩ := h
  obtain ⟨m, rfl, hm⟩ := h'
  exact ⟨m, rfl, Nat.le_trans hn hm⟩

instance : IsPreorder State Like where
  refl := Like.refl
  trans _ _ _ := Like.trans

theorem like_count (s : State) (c : Counter) (n : Nat) : Like s (s.count c n) :=
  ⟨{ s.ownNoise with stats := _ }, rfl, Nat.le_refl _⟩

theorem like_modUp (s : State) (k : Nat) (f : Uplink → Uplink) : Like s (s.modUp k f) :=
  ⟨{ s.ownNoise with up := _ }, rfl, Nat.le_refl _⟩

theorem like_clock (s : State) (t : Nat) :
    Like s { s with trace.clock := max s.trace.clock t } :=
  ⟨{ s.ownNoise with clock := max s.trace.clock t }, rfl, Nat.le_max_left _ _⟩

theorem like_inProgress (s : State) (n : Nat) : Like s { s with trace.inProgress := n } :=
  ⟨{ s.ownNoise with inProgress := n }, rfl, Nat.le_refl _⟩

theorem like_dns (s : State) (d : Fin dnsChannelsPerWorker → DnsChannel) :
    Like s { s with dns := d } := ⟨{ s.ownNoise with dns := d }, rfl, Nat.le_refl _⟩

theorem like_holdReservation (s : State) (n : Nat) : Like s (holdReservation s n) :=
  ⟨{ s.ownNoise with readReservation := _, inProgress := _ }, rfl, Nat.le_refl _⟩

theorem like_takeReservation (s : State) (n : Nat) : Like s (takeReservation s n) :=
  ⟨{ s.ownNoise with readReservation := _, inProgress := _ }, rfl, Nat.le_refl _⟩

theorem like_popPending (s : State) (k : Nat) (p : PendingPacket) (rest : List PendingPacket) :
    Like s (popPending s k p rest) := (like_modUp s k _).trans (like_inProgress _ _)

theorem like_finishPending (s : State) (k : Nat) (p : PendingPacket) (rest : List PendingPacket) :
    Like s (finishPending s k p rest) :=
  ⟨{ s.ownNoise with up := _, inProgress := _ }, rfl, Nat.le_refl _⟩

theorem like_popRetiring (s : State) (p : DownPacket) (rest : List DownPacket) :
    Like s (popRetiring s p rest) :=
  ⟨{ s.ownNoise with retiring := rest, inProgress := _ }, rfl, Nat.le_refl _⟩

theorem like_retired (s : State) (l : List Nat) : Like s { s with retired := l } :=
  ⟨{ s.ownNoise with retired := l }, rfl, Nat.le_refl _⟩

/-! ## Quiet code -/

variable {A : State → (q : Sys) → q.Ans → Prop}

/-- Running `f` changes nothing but noise. -/
abbrev Quiet {α : Type} (A : State → (q : Sys) → q.Ans → Prop) (f : Worker α) : Prop :=
  Act.Keeps A Like f

theorem quiet_count (c : Counter) (n : Nat) : Quiet A (count c n) := fun s => like_count s c n

theorem quiet_nowMs : Quiet A nowMs :=
  (keeps_ask _).bind fun t => (keeps_modify fun s => like_clock s t).bind fun _ => keeps_pure t

theorem quiet_budgetReserve (n : Nat) : Quiet A (budgetReserve n) := by
  refine (keeps_ask _).bind fun r => ?_
  cases r with
  | false => exact keeps_pure _
  | true => exact (keeps_modify fun s => like_inProgress s _).bind fun _ => keeps_pure _

theorem quiet_budgetRelease (n : Nat) : Quiet A (budgetRelease n) := by
  refine (keeps_ask _).bind fun r => ?_
  cases r with
  | false => exact keeps_pure _
  | true => exact keeps_modify fun s => like_inProgress s _

theorem quiet_reserveSlotsFrom (fuel candidate : Nat) :
    Quiet A (reserveSlotsFrom fuel candidate) := by
  induction fuel generalizing candidate with
  | zero => exact keeps_diverge
  | succ fuel ih =>
      refine (quiet_budgetReserve _).bind fun r => keeps_ite ?_ (keeps_ite (keeps_pure _) (ih _))
      exact (keeps_modify fun s => like_holdReservation s _).bind fun _ => keeps_pure _

theorem quiet_reserveSlots (n : Nat) : Quiet A (reserveSlots n) :=
  keeps_get.bind fun _ => keeps_ite (keeps_pure _) (quiet_reserveSlotsFrom _ _)

theorem quiet_releaseReservation : Quiet A releaseReservation :=
  keeps_get.bind fun _ => keeps_ite (keeps_pure _)
    ((keeps_modify fun s => like_takeReservation s _).bind fun _ => quiet_budgetRelease _)

theorem quiet_allocDownlinkPacket (n : Nat) : Quiet A (allocDownlinkPacket n) := by
  refine keeps_get.bind fun s => keeps_ite ?_ ?_
  · refine (keeps_modify fun s => like_takeReservation s _).bind fun _ =>
      (keeps_ask _).bind fun r => ?_
    cases r with
    | false => exact (keeps_modify fun s => like_holdReservation s _).bind fun _ => keeps_pure _
    | true => exact keeps_pure _
  · refine (quiet_budgetReserve _).bind fun r => keeps_ite ?_ (keeps_pure _)
    refine (keeps_ask _).bind fun r => ?_
    cases r with
    | false => exact (quiet_budgetRelease _).bind fun _ => keeps_pure _
    | true => exact keeps_pure _

theorem quiet_allocPendingPacket (n : Nat) : Quiet A (allocPendingPacket n) := by
  refine (quiet_budgetReserve _).bind fun r => keeps_ite ?_ (keeps_pure _)
  refine (keeps_ask _).bind fun r => ?_
  cases r with
  | false => exact (quiet_budgetRelease _).bind fun _ => keeps_pure _
  | true => exact keeps_pure _

theorem quiet_releasePendingFrom (k : Nat) (l : List PendingPacket) :
    Quiet A (releasePendingFrom k l) := by
  induction l with
  | nil => exact keeps_pure ()
  | cons p rest ih =>
      exact (keeps_modify fun s => like_popPending s k p rest).bind fun _ =>
        (quiet_budgetRelease _).bind fun _ => ih

theorem quiet_releaseSessionPendingPackets (k : Nat) :
    Quiet A (releaseSessionPendingPackets k) :=
  keeps_get.bind fun _ => (quiet_releasePendingFrom k _).bind fun _ =>
    keeps_modify fun s => like_modUp s k _

theorem quiet_dnsStep (d : DnsStep) : Quiet A (dnsStep d) :=
  (keeps_ask _).bind fun r => (keeps_modify fun s => like_dns s r.channels).bind fun _ =>
    keeps_pure _

end Bpf2Socks.Udp
