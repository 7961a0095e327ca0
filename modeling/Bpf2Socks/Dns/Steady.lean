/-
# Bpf2Socks.Dns.Steady — code that only gives transactions up.

Apart from the one place where a query is put into its slot, the fast path changes the table only
by releasing transactions.  `Shrinks` says so: what is still in use is as it was, and the list of
used slots is a sublist of what it was.  `Steady` says more, and holds of everything a client batch
runs between two queries: no channel becomes available, and a channel that is still available has
lost no transaction.  That is why a slot remembered across a batch is still the same transaction
when its channel is still there.
-/
import Bpf2Socks.Dns.Query

namespace Bpf2Socks.Dns

open Function (update update_self update_of_ne)
open Fast
open Lib (Prog)
open Lib.Act (Keeps keeps_get keeps_ask keeps_pure keeps_ite keeps_modify keeps_diverge
  keeps_forEach)
open Udp (Bits)

variable {A : State → (q : Sys) → q.Ans → Prop} {s s' : State} {c : UInt32}

/-! ## Two preorders -/

/-- Transactions may be gone; nothing else happened to the table or to the history. -/
structure Shrinks (s s' : State) : Prop where
  cfg : s'.cfg = s.cfg
  trace : s'.trace = s.trace
  capacity : s'.table.capacity = s.table.capacity
  channelCount : s'.table.channelCount = s.table.channelCount
  inv : ∀ l, s.table.Inv none l → ∃ l', s'.table.Inv none l' ∧ l'.Sublist l
  kept : ∀ i, (s'.table.transactions i).used = true →
    s'.table.transactions i = s.table.transactions i

/-- In addition no channel became available, and available channels lost nothing. -/
structure Steady (s s' : State) : Prop extends Shrinks s s' where
  channels : ∀ c, (s'.channels c).available = true → (s.channels c).available = true ∧
    ∀ i, (s.table.transactions i).used = true → (s.table.transactions i).channelIndex = c →
      s'.table.transactions i = s.table.transactions i

theorem Shrinks.refl (s : State) : Shrinks s s :=
  ⟨rfl, rfl, rfl, rfl, fun l h => ⟨l, h, List.Sublist.refl l⟩, fun _ _ => rfl⟩

theorem Shrinks.trans {s t u : State} (h : Shrinks s t) (h' : Shrinks t u) : Shrinks s u := by
  refine ⟨h'.cfg.trans h.cfg, h'.trace.trans h.trace, h'.capacity.trans h.capacity,
    h'.channelCount.trans h.channelCount, fun l hl => ?_, fun i hi => ?_⟩
  · obtain ⟨l', hl', hsub⟩ := h.inv l hl
    obtain ⟨l'', hl'', hsub'⟩ := h'.inv l' hl'
    exact ⟨l'', hl'', hsub'.trans hsub⟩
  · have heq := h'.kept i hi
    rw [heq] at hi ⊢
    exact h.kept i hi

instance : IsPreorder State Shrinks where
  refl := Shrinks.refl
  trans := fun _ _ _ => Shrinks.trans

theorem Steady.refl (s : State) : Steady s s := ⟨.refl s, fun _ h => ⟨h, fun _ _ _ => rfl⟩⟩

theorem Steady.trans {s t u : State} (h : Steady s t) (h' : Steady t u) : Steady s u := by
  refine ⟨h.toShrinks.trans h'.toShrinks, fun c hc => ?_⟩
  obtain ⟨hc', hkept'⟩ := h'.channels c hc
  obtain ⟨hc, hkept⟩ := h.channels c hc'
  refine ⟨hc, fun i hu hi => ?_⟩
  have heq := hkept i hu hi
  rw [← heq] at hu hi ⊢
  exact hkept' i hu hi

instance : IsPreorder State Steady where
  refl := Steady.refl
  trans := fun _ _ _ => Steady.trans

/-- A change that leaves the table and the history alone and makes no channel available. -/
theorem steady_of_eq (hcfg : s'.cfg = s.cfg) (htable : s'.table = s.table)
    (htrace : s'.trace = s.trace)
    (hch : ∀ c, (s'.channels c).available = true → (s.channels c).available = true) :
    Steady s s' := by
  refine ⟨⟨hcfg, htrace, by rw [htable], by rw [htable], fun l hl => ⟨l, ?_, List.Sublist.refl l⟩,
    fun i _ => by rw [htable]⟩, fun c hc => ⟨hch c hc, fun i _ _ => by rw [htable]⟩⟩
  rw [htable]
  exact hl

theorem shrinks_modChannel (s : State) (c : UInt32) (f : Channel → Channel) :
    Shrinks s (s.modChannel c f) :=
  ⟨rfl, rfl, rfl, rfl, fun l hl => ⟨l, hl, List.Sublist.refl l⟩, fun _ _ => rfl⟩

theorem steady_modChannel {f : Channel → Channel}
    (hf : ∀ ch : Channel, (f ch).available = true → ch.available = true) (s : State) (c : UInt32) :
    Steady s (s.modChannel c f) := by
  refine steady_of_eq rfl rfl rfl fun d hd => ?_
  rcases eq_or_ne d c with rfl | hne
  · simp only [State.modChannel, update_self] at hd
    exact hf _ hd
  · simpa only [State.modChannel, update_of_ne hne] using hd

/-! ## Releasing -/

/-- A released slot is unused. -/
theorem Table.release_self {t : Table} {i : Nat} (hi : i < t.capacity) :
    ((t.release i).transactions i).used = false := by
  unfold Table.release Table.releaseIndex
  rw [if_neg (Nat.not_le.mpr hi)]
  by_cases hu : (t.transactions i).used = true
  · rw [if_pos hu]
    by_cases hpush : (true && decide ((t.clear i).free.length < (t.clear i).capacity)) = true
    · simp only [hpush, if_true]
      simp [Table.clear, Transaction.zero]
    · simp only [hpush]
      simp [Table.clear, Transaction.zero]
  · rw [if_neg hu]
    exact Bool.eq_false_of_not_eq_true hu

/-- Whatever is still used after a release was not touched by it. -/
theorem Table.release_kept {t : Table} {i j : Nat}
    (hu : ((t.release i).transactions j).used = true) :
    (t.release i).transactions j = t.transactions j := by
  rcases eq_or_ne j i with rfl | hj
  · rcases t.releaseIndex_cases j true with h | ⟨hcap, -, -⟩
    · rw [Table.release, h]
    · rw [Table.release_self hcap] at hu
      exact absurd hu Bool.false_ne_true
  · exact Table.release_transactions hj

theorem shrinks_release (s : State) (i : Nat) :
    Shrinks s { s with table := s.table.release i } :=
  ⟨rfl, rfl, s.table.release_capacity i, s.table.release_channelCount i,
    fun l hl => ⟨l.erase i, hl.release i, List.erase_sublist⟩, fun _ => Table.release_kept⟩

/-- What giving up a channel does to the table. -/
structure Table.ChannelGone (t t' : Table) (c : UInt32) : Prop where
  capacity : t'.capacity = t.capacity
  channelCount : t'.channelCount = t.channelCount
  inv : ∀ l, t.Inv none l → ∃ l', t'.Inv none l' ∧ l'.Sublist l
  kept : ∀ i, (t'.transactions i).used = true → t'.transactions i = t.transactions i
  others : ∀ i, (t.transactions i).used = true → (t.transactions i).channelIndex ≠ c →
    t'.transactions i = t.transactions i
  gone : ∀ i < t.capacity, (t'.transactions i).used = true → (t'.transactions i).channelIndex ≠ c

/-- The loop of `releaseChannel`, over any list of slots: those of `c` in it are gone. -/
theorem Table.releaseAll (slots : List Nat) {t : Table} (c : UInt32)
    (hlt : ∀ i ∈ slots, i < t.capacity) :
    let t' := slots.foldl (fun t i =>
      if (t.transactions i).used ∧ (t.transactions i).channelIndex = c then t.release i else t) t
    t'.capacity = t.capacity ∧ t'.channelCount = t.channelCount ∧
      (∀ l, t.Inv none l → ∃ l', t'.Inv none l' ∧ l'.Sublist l) ∧
      (∀ i, (t'.transactions i).used = true → t'.transactions i = t.transactions i) ∧
      (∀ i, (t.transactions i).used = true → (t.transactions i).channelIndex ≠ c →
        t'.transactions i = t.transactions i) ∧
      (∀ i ∈ slots, (t'.transactions i).used = true → (t'.transactions i).channelIndex ≠ c) := by
  induction slots generalizing t with
  | nil =>
      exact ⟨rfl, rfl, fun l hl => ⟨l, hl, List.Sublist.refl l⟩, fun _ _ => rfl, fun _ _ _ => rfl,
        by simp⟩
  | cons i slots ih =>
      simp only [List.foldl_cons]
      by_cases hi : (t.transactions i).used = true ∧ (t.transactions i).channelIndex = c
      -- the slot of `c` is freed and the rest of the loop starts from there
      · rw [if_pos hi]
        have hcap : i < t.capacity := hlt i List.mem_cons_self
        obtain ⟨h1, h2, h3, h4, h5, h6⟩ := ih (t := t.release i) fun j hj => by
          rw [t.release_capacity]
          exact hlt j (List.mem_cons_of_mem i hj)
        refine ⟨h1.trans (t.release_capacity i), h2.trans (t.release_channelCount i),
          fun l hl => ?_, fun j hj => ?_, fun j hu hc => ?_, fun j hj hu => ?_⟩
        · obtain ⟨l', hl', hsub⟩ := h3 _ (hl.release i)
          exact ⟨l', hl', hsub.trans List.erase_sublist⟩
        · have heq := h4 j hj
          rw [heq] at hj ⊢
          exact Table.release_kept hj
        · have hne : j ≠ i := by
            rintro rfl
            exact hc hi.2
          have heq : (t.release i).transactions j = t.transactions j :=
            Table.release_transactions hne
          rw [← heq] at hu hc ⊢
          exact h5 j hu hc
        · rcases List.mem_cons.mp hj with rfl | hj
          · have heq := h4 j hu
            rw [heq, Table.release_self hcap] at hu
            exact absurd hu Bool.false_ne_true
          · exact h6 j hj hu
      · rw [if_neg hi]
        obtain ⟨h1, h2, h3, h4, h5, h6⟩ := ih (t := t) fun j hj =>
          hlt j (List.mem_cons_of_mem i hj)
        refine ⟨h1, h2, h3, h4, h5, fun j hj hu => ?_⟩
        rcases List.mem_cons.mp hj with rfl | hj
        · have heq := h4 j hu
          rw [heq] at hu ⊢
          exact fun hc => hi ⟨hu, hc⟩
        · exact h6 j hj hu

theorem Table.releaseChannel_gone (t : Table) (c : UInt32) :
    t.ChannelGone (t.releaseChannel c) c := by
  obtain ⟨h1, h2, h3, h4, h5, h6⟩ := Table.releaseAll (List.range t.capacity) c
    (fun i hi => List.mem_range.mp hi)
  exact ⟨h1, h2, h3, h4, h5, fun i hi => h6 i (List.mem_range.mpr hi)⟩

/-! ## Closing a channel -/

/-- What closing channel `c` does. -/
structure Closed (s s' : State) (c : UInt32) : Prop where
  cfg : s'.cfg = s.cfg
  trace : s'.trace = s.trace
  table : s.table.ChannelGone s'.table c
  others : ∀ d, d ≠ c → s'.channels d = s.channels d
  shut : (s'.channels c).available = false

theorem Closed.steady (h : Closed s s' c) : Steady s s' := by
  refine ⟨⟨h.cfg, h.trace, h.table.capacity, h.table.channelCount, h.table.inv, h.table.kept⟩,
    fun d hd => ?_⟩
  rcases eq_or_ne d c with rfl | hne
  · rw [h.shut] at hd
    exact absurd hd Bool.false_ne_true
  · rw [h.others d hne] at hd
    exact ⟨hd, fun i hu hi => h.table.others i hu fun he => hne (hi.symm.trans he)⟩

theorem resetChannelFds_sat (c : UInt32) (s : State) :
    Prog.Sat A (fun s' _ => s' = s.modChannel c Channel.reset) (resetChannelFds c s) := by
  simp only [resetChannelFds, Lib.Act.bind_run, get_run, Prog.ret_bind]
  by_cases h : (s.channels c).relayPortClaimed = true
  · simp only [h, if_true, Lib.Act.bind_run, ask_run, Prog.ask_bind, Prog.ret_bind]
    exact fun _ _ => rfl
  · simp only [h]
    exact rfl

theorem timeOr_sat (now : Nat) (s : State) :
    Prog.Sat A (fun s' _ => s' = s) (timeOr now s) := by
  unfold timeOr
  by_cases h : now = 0
  · rw [if_pos h]
    exact fun _ _ => rfl
  · rw [if_neg h]
    exact rfl

theorem closeChannel_sat (c : UInt32) (now : Nat) (s : State) :
    Prog.Sat A (fun s' _ => Closed s s' c) (closeChannel c now s) := by
  refine (resetChannelFds_sat c { s with table := s.table.releaseChannel c }).bind fun t _ ht => ?_
  refine (timeOr_sat now t).bind fun u time hu => ?_
  subst hu ht
  refine ⟨rfl, rfl, s.table.releaseChannel_gone c, fun d hd => ?_, ?_⟩
  · simp [State.modChannel, update_of_ne hd]
  · simp [State.modChannel, Channel.reset, Channel.zero]

theorem steady_closeChannel (c : UInt32) (now : Nat) : Keeps A Steady (closeChannel c now) :=
  fun s => (closeChannel_sat c now s).mono fun _ _ h => h.steady

/-! ## Code -/

theorem Shrinking.of {α : Type} {f : Fast α} (h : Keeps A Steady f) : Keeps A Shrinks f :=
  h.imp Steady.toShrinks

theorem steady_resetChannelFds (c : UInt32) : Keeps A Steady (resetChannelFds c) := fun s =>
  (resetChannelFds_sat c s).mono fun _ _ h => by
    rw [h]
    exact steady_modChannel (fun ch h => by simp [Channel.reset, Channel.zero] at h) s c

theorem steady_timeOr (now : Nat) : Keeps A Steady (timeOr now) := fun s =>
  (timeOr_sat now s).mono fun _ _ h => h ▸ Steady.refl s

/-- Changing a channel without making it available. -/
theorem steady_channel (c : UInt32) {f : Channel → Channel}
    (hf : ∀ ch : Channel, (f ch).available = true → ch.available = true) :
    Keeps A Steady (modify fun s => s.modChannel c f) :=
  keeps_modify fun s => steady_modChannel hf s c

theorem steady_openChannel (c : UInt32) (now : Nat) : Keeps A Steady (openChannel c now) := by
  unfold openChannel
  refine keeps_get.bind fun s => keeps_ite (keeps_pure _) (keeps_ite (keeps_pure _) ?_)
  refine (steady_timeOr now).bind fun time => keeps_ite (keeps_pure _) ?_
  refine (steady_resetChannelFds c).bind fun _ => (keeps_ask Sys.connect).bind fun r => ?_
  rcases r with _ | fd
  · exact Keeps.bind (steady_channel c fun _ h => h) fun _ => keeps_pure _
  · refine Keeps.bind (steady_channel c fun _ h => h) fun _ => ?_
    refine (keeps_ask _).bind fun added => keeps_ite (keeps_pure _) ?_
    exact Keeps.bind (steady_channel c fun _ h => h) fun _ => keeps_pure _

theorem steady_controlFdIsHealthy (fd : Nat) : Keeps A Steady (controlFdIsHealthy fd) := by
  refine (keeps_ask (Sys.controlPeek fd)).bind fun r => ?_
  rcases r with e | n
  · exact keeps_pure _
  · exact keeps_pure _

theorem steady_channelIsHealthy (c : UInt32) : Keeps A Steady (channelIsHealthy c) := by
  refine keeps_get.bind fun s => ?_
  dsimp only
  rcases (s.channels c).tcpFd with _ | fd
  · exact keeps_pure _
  · exact keeps_ite (steady_controlFdIsHealthy fd) (keeps_pure _)

theorem steady_ensureChannel (c : UInt32) (now : Nat) : Keeps A Steady (ensureChannel c now) := by
  refine (steady_channelIsHealthy c).bind fun healthy => keeps_ite (keeps_pure _) ?_
  refine keeps_get.bind fun s => keeps_ite (keeps_pure _) (keeps_ite ?_ (steady_openChannel c now))
  exact (steady_closeChannel c now).bind fun _ => steady_openChannel c now

theorem steady_selectFrom (start : UInt32) (now : Nat) (attempts : List Nat) :
    Keeps A Steady (selectFrom start now attempts) := by
  induction attempts with
  | nil => exact keeps_pure _
  | cons attempt rest ih =>
      refine (steady_ensureChannel _ now).bind fun good => keeps_ite ?_ ih
      exact Keeps.bind (keeps_modify fun s => steady_of_eq rfl rfl rfl fun _ h => h)
        fun _ => keeps_pure _

theorem steady_selectChannel (now : Nat) : Keeps A Steady (selectChannel now) :=
  keeps_get.bind fun _ => steady_selectFrom _ now _

/-! ### The handshake -/

/-- Changing a channel, whatever its availability. -/
theorem shrinks_channel (c : UInt32) (f : Channel → Channel) :
    Keeps A Shrinks (modify fun s => s.modChannel c f) :=
  keeps_modify fun s => shrinks_modChannel s c f

theorem shrinks_channelWriteFrom (c : UInt32) (fd n : Nat) :
    Keeps A Shrinks (channelWriteFrom c fd n) := by
  induction n with
  | zero => exact keeps_diverge
  | succ n ih =>
      refine keeps_get.bind fun s => keeps_ite ?_ (keeps_pure _)
      refine (keeps_ask _).bind fun r => ?_
      rcases r with e | _ | n
      · cases e with
        | eintr => exact ih
        | _ => exact keeps_pure _
      · exact keeps_pure _
      · exact (shrinks_channel c _).bind fun _ => ih

theorem shrinks_channelReadFrom (c : UInt32) (fd expected n : Nat) :
    Keeps A Shrinks (channelReadFrom c fd expected n) := by
  induction n with
  | zero => exact keeps_diverge
  | succ n ih =>
      refine keeps_get.bind fun s => keeps_ite ?_ (keeps_pure _)
      refine (keeps_ask _).bind fun r => ?_
      rcases r with e | bytes
      · cases e with
        | eintr => exact ih
        | _ => exact keeps_pure _
      · cases bytes with
        | nil => exact keeps_pure _
        | cons b bytes => exact (shrinks_channel c _).bind fun _ => ih

theorem shrinks_channelDoRead (c : UInt32) (fd expected : Nat) :
    Keeps A Shrinks (channelDoRead c fd expected) :=
  (keeps_ask Sys.retries).bind fun _ => shrinks_channelReadFrom c fd expected _

theorem shrinks_parseBoundAddr (buf : List UInt8) : Keeps A Shrinks (parseBoundAddr buf) := by
  unfold parseBoundAddr
  rcases splitBoundAddr buf with _ | ⟨n, a⟩ | ⟨n, host, port⟩
  · exact keeps_pure _
  · exact keeps_pure _
  · exact (keeps_ask _).bind fun _ => keeps_pure _

theorem shrinks_openRelaySocket (c : UInt32) (fd : Nat) (relay : Udp.Sockaddr) :
    Keeps A Shrinks (openRelaySocket c fd relay) := by
  refine (keeps_ask (Sys.relaySocket relay)).bind fun r => ?_
  rcases r with _ | udpFd
  · exact keeps_pure _
  · refine (keeps_ask _).bind fun connected => (shrinks_channel c _).bind fun _ => ?_
    refine (keeps_ask _).bind fun added => keeps_ite ?_ ?_
    · exact (shrinks_channel c _).bind fun _ => keeps_ask _
    · exact (shrinks_channel c _).bind fun _ => keeps_pure _

theorem shrinks_finishAssociate (c : UInt32) (fd : Nat) :
    Keeps A Shrinks (finishAssociate c fd) := by
  refine keeps_get.bind fun s => (shrinks_parseBoundAddr _).bind fun parsed => ?_
  rcases parsed with _ | ⟨n, bound⟩
  · exact keeps_pure _
  · refine (shrinks_channel c _).bind fun _ => keeps_ite ?_ (shrinks_openRelaySocket c fd _)
    refine (keeps_ask _).bind fun claimed => keeps_ite ?_ (keeps_pure _)
    exact (shrinks_channel c _).bind fun _ => shrinks_openRelaySocket c fd _

theorem shrinks_readAssociateRest (c : UInt32) (fd : Nat) (total : Option Nat) :
    Keeps A Shrinks (readAssociateRest c fd total) := by
  rcases total with _ | total
  · exact keeps_pure _
  · refine keeps_ite (keeps_pure _) ((shrinks_channelDoRead c fd total).bind fun r => ?_)
    rcases r with _ | _ | _
    · exact keeps_pure _
    · exact keeps_pure _
    · exact shrinks_finishAssociate c fd

theorem shrinks_advanceAssocRead (c : UInt32) (fd : Nat) (bits : Bits) :
    Keeps A Shrinks (advanceAssocRead c fd bits) := by
  refine keeps_ite (keeps_pure _) (keeps_ite ?_ (keeps_pure _))
  refine (shrinks_channelDoRead c fd 4).bind fun r => ?_
  rcases r with _ | _ | _
  · exact keeps_pure _
  · exact keeps_pure _
  · refine keeps_get.bind fun s => keeps_ite ?_ (shrinks_readAssociateRest c fd _)
    refine (shrinks_channelDoRead c fd 5).bind fun r => ?_
    rcases r with _ | _ | _
    · exact keeps_pure _
    · exact keeps_pure _
    · exact keeps_get.bind fun s => shrinks_readAssociateRest c fd _

theorem shrinks_advanceWrite (c : UInt32) (fd : Nat) (next : Stage) (bits : Bits) (now : Nat) :
    Keeps A Shrinks (advanceWrite c fd next bits now) := by
  refine keeps_ite (keeps_pure _) (keeps_ite ?_ (keeps_pure _))
  refine ((keeps_ask Sys.retries).bind fun _ => shrinks_channelWriteFrom c fd _).bind fun r => ?_
  rcases r with _ | _ | _
  · exact keeps_pure _
  · exact keeps_pure _
  · exact (shrinks_channel c _).bind fun _ => keeps_ask _

theorem shrinks_advanceHelloRead (c : UInt32) (fd : Nat) (bits : Bits) (now : Nat) :
    Keeps A Shrinks (advanceHelloRead c fd bits now) := by
  refine keeps_ite (keeps_pure _) (keeps_ite ?_ (keeps_pure _))
  refine (shrinks_channelDoRead c fd 2).bind fun r => ?_
  rcases r with _ | _ | _
  · exact keeps_pure _
  · exact keeps_pure _
  · refine keeps_get.bind fun s => keeps_ite ?_ (keeps_pure _)
    rcases Udp.socks5BuildUdpAssociateRequest channelWriteCap with _ | bytes
    · exact keeps_pure _
    · exact (shrinks_channel c _).bind fun _ => keeps_ask _

theorem shrinks_finishConnect (c : UInt32) (fd : Nat) (now : Nat) :
    Keeps A Shrinks (finishConnect c fd now) := by
  refine (keeps_ask (Sys.soError fd)).bind fun connected => keeps_ite ?_ (keeps_pure _)
  rcases Udp.socks5BuildHello channelWriteCap with _ | bytes
  · exact keeps_pure _
  · exact (shrinks_channel c _).bind fun _ => shrinks_advanceWrite c fd _ _ now

theorem shrinks_advanceChannel (c : UInt32) (bits : Bits) (now : Nat) :
    Keeps A Shrinks (advanceChannel c bits now) := by
  refine keeps_get.bind fun s => ?_
  rcases (s.channels c).tcpFd with _ | fd
  · exact keeps_pure _
  · rcases (s.channels c).stage
    · exact keeps_pure _
    · exact keeps_ite (keeps_pure _) (keeps_ite (shrinks_finishConnect c fd now) (keeps_pure _))
    · exact shrinks_advanceWrite c fd _ bits now
    · exact shrinks_advanceHelloRead c fd bits now
    · exact shrinks_advanceWrite c fd _ bits now
    · exact shrinks_advanceAssocRead c fd bits
    · exact keeps_pure _

/-! ### Events -/

theorem shrinks_closeChannel (c : UInt32) (now : Nat) : Keeps A Shrinks (closeChannel c now) :=
  Shrinking.of (steady_closeChannel c now)

theorem shrinks_controlEvent (c : UInt32) (bits : Bits) (now : Nat) :
    Keeps A Shrinks (controlEvent c bits now) := by
  refine keeps_get.bind fun s => ?_
  rcases (s.channels c).tcpFd with _ | fd
  · exact keeps_pure _
  · refine keeps_ite ?_ ?_
    · exact (shrinks_advanceChannel c bits now).bind fun good =>
        keeps_ite (keeps_pure _) (shrinks_closeChannel c now)
    · have hfail : Keeps A Shrinks (controlEventIsFailure fd bits) :=
        keeps_ite (keeps_pure _) (keeps_ite
          ((Shrinking.of (steady_controlFdIsHealthy fd)).bind fun _ => keeps_pure _) (keeps_pure _))
      exact hfail.bind fun failed => keeps_ite (shrinks_closeChannel c now) (keeps_pure _)

theorem shrinks_expireHandshakes (now : Nat) : Keeps A Shrinks (expireHandshakes now) := by
  refine keeps_forEach (fun i => keeps_get.bind fun s => ?_) _
  exact keeps_ite (keeps_pure _) (keeps_ite (keeps_pure _)
    (keeps_ite (keeps_pure _) (shrinks_closeChannel _ now)))

/-- Expiry releases slots. -/
theorem Table.expireFrom_shrinks (now timeout n : Nat) (s : State) (stale : List Bool) :
    Shrinks s { s with table := (Table.expireFrom now timeout n s.table stale).1 } := by
  induction n generalizing s stale with
  | zero => exact Shrinks.refl s
  | succ n ih =>
      unfold Table.expireFrom
      rcases s.table.lru.head () with _ | i
      · exact Shrinks.refl s
      · dsimp only
        split
        · exact Shrinks.refl s
        · exact (shrinks_release s i).trans (ih { s with table := s.table.release i } _)

theorem shrinks_expireTransactions (now : Nat) : Keeps A Shrinks (expireTransactions now) := by
  intro s
  show Prog.Sat A _ (Lib.Act.forEach _ _ { s with table := _ })
  have hexp := Table.expireFrom_shrinks now s.cfg.transactionTimeoutMs maxExpirePerLoop s
    (List.replicate channelsPerWorker.toNat false)
  refine (keeps_forEach (fun i => ?_) _ _).mono fun _ _ h => hexp.trans h
  exact keeps_ite (shrinks_closeChannel _ now) (keeps_pure _)

end Bpf2Socks.Dns
