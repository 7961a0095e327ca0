/-
# Bpf2Socks.Udp.Delivering — what delivering replies does to the ledger.

Replies touch and stamp bindings.  The bindings they are for are *at hand*: those of the batch of
replies that is being collected, or those of the queue that is being flushed.  `Batched P F k` is the
invariant while replies of session `k` are handled, `Fares P F k` the relation of code that keeps it.
A reply may put one more binding at hand.
-/
import Bpf2Socks.Udp.Making

namespace Bpf2Socks.Udp

open Function (update update_self update_of_ne)
open Lib (Prog Act DLists)
open Lib.Prog Lib.Act
open Worker hiding get modify ask diverge

variable {A : State → (q : Sys) → q.Ans → Prop} {P : (Nat → Prop) → Ledger → Prop}
  {F F' : Nat → Prop} {s s' t : State} {k b : Nat}

/-- The bindings the collected replies are for. -/
def AtHand (s : State) (b : Nat) : Prop := ∃ m, (b, m) ∈ s.frame.batch.entries

/-- The bindings at hand belong to session `k`, and the replies in the batch are for them. -/
structure Batched (P : (Nat → Prop) → Ledger → Prop) (F : Nat → Prop) (k : Nat) (s : State) :
    Prop where
  accounts : Accounts P F s
  used : (s.tbl.core k).used = true
  hand : ∀ b, F b → (s.bind.core b).used = true ∧ (s.bind.core b).owner = some k
  entries : ∀ b, AtHand s b → F b
  session : BatchOf k s

/-- No more need be at hand than the batch is for. -/
theorem Batched.fewer (hP : Orderly P) (h : Batched P F k s) : Batched P (AtHand s) k s :=
  ⟨h.accounts.fewer hP h.entries, h.used, fun b hb => h.hand b (h.entries b hb), fun _ => id,
    h.session⟩

/-- One more binding at hand. -/
theorem Batched.more (h : Batched P F k s)
    (ha : Accounts P (fun x => F x ∨ x = b) s) (hu : (s.bind.core b).used = true)
    (ho : (s.bind.core b).owner = some k) : Batched P (fun x => F x ∨ x = b) k s := by
  refine ⟨ha, h.used, fun x hx => ?_, fun x hx => .inl (h.entries x hx), h.session⟩
  rcases hx with hx | rfl
  · exact h.hand x hx
  · exact ⟨hu, ho⟩

/-- From `s` to `s'` the invariant is kept. -/
def Fares (P : (Nat → Prop) → Ledger → Prop) (F : Nat → Prop) (k : Nat) (s s' : State) : Prop :=
  Batched P F k s → Batched P F k s'

instance (P : (Nat → Prop) → Ledger → Prop) (F : Nat → Prop) (k : Nat) :
    IsPreorder State (Fares P F k) where
  refl _ := id
  trans _ _ _ h h' := h' ∘ h

/-- Code whose effect depends on the invariant. -/
theorem sat_fares {α : Type} {f : Worker α}
    (h : Batched P F k s → Sat A (fun s' _ => Batched P F k s') (f s)) :
    Sat A (fun s' _ => Fares P F k s s') (f s) := by
  by_cases hb : Batched P F k s
  · exact (h hb).mono fun _ _ h' _ => h'
  · exact (sat_true (p := f s)).mono fun _ _ _ hb' => absurd hb' hb

/-- The invariant reads the batch, the records and the ledger. -/
theorem Batched.carry (h : Batched P F k s) (ha : Accounts P F s')
    (hu : (s'.tbl.core k).used = true)
    (hb : ∀ x, (s.bind.core x).used = true → (s.bind.core x).owner = some k →
      (s'.bind.core x).used = true ∧ (s'.bind.core x).owner = some k)
    (hf : s'.frame.batch = s.frame.batch) : Batched P F k s' := by
  refine ⟨ha, hu, fun x hx => ?_, fun x hx => ?_, ?_⟩
  · obtain ⟨hused, howner⟩ := h.hand x hx
    exact hb x hused howner
  · obtain ⟨m, hm⟩ := hx
    exact h.entries x ⟨m, hf ▸ hm⟩
  · have hs := h.session
    unfold BatchOf at hs ⊢
    rwa [hf]

theorem Steady.fares (hP : Orderly P) (h : Steady s s') : Fares P F k s s' := fun hb => by
  refine hb.carry (h.accounts hP hb.accounts) (h.used k hb.used) (fun x hx ho => ?_) h.batch
  have hsame := h.sameUse x
  exact ⟨hsame.used.trans hx, hsame.owner.trans ho⟩

theorem Fares.steady {α : Type} {f : Worker α} (hP : Orderly P) (hf : Keeps A Steady f) :
    Keeps A (Fares P F k) f := hf.imp fun h => h.fares hP

theorem Fares.quiet {α : Type} {f : Worker α} (hP : Orderly P) (hf : Quiet A f) :
    Keeps A (Fares P F k) f := Fares.steady hP (serving_steady.quiet hf)

/-! ## Touching and stamping -/

theorem fares_touch (hP : Orderly P) (hF : F b) : Fares P F k s (bindingLruTouch s k b) := by
  intro h
  obtain ⟨hu, ho⟩ := h.hand b hF
  obtain ⟨g, hg, hp⟩ := h.accounts.ledger
  have hb : b ∈ g.lru := hg.used.mpr hu
  refine h.carry ?_ h.used (fun _ hx hxo => ⟨hx, hxo⟩) rfl
  exact h.accounts.touched hg hb ho (hP.touch hg.whole hF hb (hg.core ▸ ho) hp)

/-- A binding at hand is stamped with the time just read. -/
theorem Accounts.stamped (hP : Orderly P) (hclock : Clock True A) (h : Accounts P F s) {now : Nat}
    (hr : Read A s now) (hF : F b) : Accounts P F (seenBinding s b now) := by
  obtain ⟨g, hg, hp⟩ := h.ledger
  have hnow := hr.clock hclock
  have hwrite : (g.stamp b now).Of (seenBinding s b now).bind := by
    show (g.write b { g.core b with lastSeenMs := now }).Of _
    rw [hg.core]
    exact hg.write rfl rfl rfl
  have hprop : P F (g.stamp b now) := by
    by_cases hb : b ∈ g.lru
    · exact hP.stamp hg.whole hF hb (fun x hx => hnow ▸ h.stamps hg x hx) hp
    · -- a slot that is not in use is in no list
      refine hP.congr hg.whole (fun x hx => ?_) hp
      rw [update_of_ne (by rintro rfl; exact hb hx)]
      exact .refl _
  refine ⟨⟨_, hwrite, hprop⟩, h.vacant, fun x hx => ?_, h.started⟩
  change (update s.bind.core b { s.bind.core b with lastSeenMs := now } x).used = true at hx
  show (update s.bind.core b { s.bind.core b with lastSeenMs := now } x).lastSeenMs ≤ s.trace.clock
  rcases eq_or_ne x b with rfl | hne
  · rw [update_self]
    exact Nat.le_of_eq hnow.symm
  · rw [update_of_ne hne] at hx ⊢
    exact h.past x hx

theorem fares_stamp (hP : Orderly P) (hclock : Clock True A) {now : Nat} (hr : Read A s now)
    (hF : F b) : Fares P F k s (seenBinding s b now) := by
  intro h
  refine h.carry (h.accounts.stamped hP hclock hr hF) h.used (fun x hx ho => ?_) rfl
  show (update s.bind.core b { s.bind.core b with lastSeenMs := now } x).used = true ∧
    (update s.bind.core b { s.bind.core b with lastSeenMs := now } x).owner = some k
  rcases eq_or_ne x b with rfl | hne
  · simp [hx, ho]
  · rw [update_of_ne hne]
    exact ⟨hx, ho⟩

theorem fares_stampBoth (hP : Orderly P) (hclock : Clock True A) {now : Nat} (hr : Read A s now)
    (hF : F b) : Fares P F k s (seenSession (seenBinding s b now) k now) :=
  trans_of (Fares P F k) (fares_stamp hP hclock hr hF)
    ((steady_seenSession (seenBinding s b now) k now).fares hP)

theorem fares_seenEntries (hP : Orderly P) (hclock : Clock True A) {now : Nat}
    (hr : Read A s now) {l : List (Nat × Msg)} (hl : ∀ e ∈ l, F e.1) :
    Fares P F k s (seenEntries s now l) := by
  induction l generalizing s with
  | nil => exact refl_of (Fares P F k) s
  | cons e rest ih =>
      have hhead : Fares P F k s (seenBinding s e.1 now) :=
        fares_stamp hP hclock hr (hl e List.mem_cons_self)
      refine trans_of (Fares P F k) hhead (ih ?_ fun e' he => hl e' (List.mem_cons_of_mem e he))
      exact hr

/-! ## The batch -/

/-- Changing the batch, to entries for bindings at hand. -/
theorem fares_batch {batch : Batch} (hentries : ∀ e ∈ batch.entries, F e.1)
    (hsession : batch.entries = [] ∨ batch.session = some k) :
    Fares P F k s { s with frame.batch := batch } := fun h =>
  ⟨⟨h.accounts.ledger, h.accounts.vacant, h.accounts.past, h.accounts.started⟩, h.used, h.hand,
    fun _ ⟨_, hm⟩ => hentries _ hm, hsession⟩

theorem fares_initBatch : Fares P F k s { s with frame.batch := .init } :=
  fares_batch (fun _ he => absurd he List.not_mem_nil) (.inl rfl)

theorem fares_dropBatch (n : Nat) : Fares P F k s (dropBatch s n) := fun h => by
  refine fares_batch (fun e he => ?_) ?_ h
  · exact h.entries e.1 ⟨e.2, List.mem_of_mem_drop he⟩
  · refine h.session.imp (fun hs => ?_) id
    show s.frame.batch.entries.drop n = []
    rw [hs, List.drop_nil]

theorem fares_appendBatch (hF : F b) (fd : Nat) (pk : Bool) (m : Msg) :
    Fares P F k s (appendBatch s k b fd pk m) := fun h => by
  refine fares_batch (fun e he => ?_) ?_ h
  · rcases List.mem_append.mp he with he | he
    · by_cases hs : s.frame.batch.entries = []
      · rw [if_pos hs] at he
        exact absurd he List.not_mem_nil
      · rw [if_neg hs] at he
        exact h.entries e.1 ⟨e.2, he⟩
    · rw [List.mem_singleton.mp he]
      exact hF
  · refine .inr ?_
    by_cases hs : s.frame.batch.entries = []
    · simp only [if_pos hs]
    · simp only [if_neg hs]
      exact h.session.resolve_left hs

/-! ## Queueing -/

/-- Reading the clock, then code that may use the time. -/
theorem keeps_read {β : Type} {R : State → State → Prop} [IsPreorder State R]
    (hlike : ∀ {s s'}, Like s s' → R s s') {g : Nat → Worker β}
    (hg : ∀ s now, Read A s now → Sat A (fun s' _ => R s s') (g now s)) :
    Keeps A R (nowMs >>= g) := by
  intro s now hnow
  have hread : R s { s with trace.clock := max s.trace.clock now } := hlike (like_clock s now)
  exact (hg _ now ⟨s, hnow, rfl⟩).mono fun _ _ h => trans_of R hread h

/-- Going on to the next message, if this one was taken. -/
theorem fares_queuedMessage (hP : Orderly P) (queued : Bool) :
    Keeps A (Fares P F k) (do
      if queued then Worker.modify popMessage
      pure queued) := by
  cases queued with
  | false => exact keeps_pure _
  | true =>
      refine (keeps_modify fun s => Steady.fares hP ?_).bind fun _ => keeps_pure _
      exact steady_of_eq rfl rfl (fun _ => rfl) rfl rfl

section Delivery

variable (hP : Orderly P) (hclock : Clock True A)

include hP hclock

theorem fares_queueOnChannel (hF : F b) (m : Msg) (ch : Channel) (created : Bool) :
    Keeps A (Fares P F k) (queueOnChannel k b m ch created) := by
  have hserve := serving_steady
  refine (Fares.quiet hP (quiet_allocDownlinkPacket _)).bind fun allocated => keeps_ite ?_ ?_
  · refine (keeps_modify fun s => (hserve.pushPacket s k b ch.id m).fares hP).bind fun _ =>
      keeps_stamp (fun h => h.steady.fares hP) (fun s now hr => ?_) fun _ =>
        Fares.steady hP (hserve.setPaused k true)
    exact trans_of (Fares P F k) (fares_stampBoth hP hclock hr hF) (fares_touch hP hF)
  · cases created with
    | false => exact keeps_pure _
    | true =>
        exact (Fares.steady hP (hserve.retireDownlinkChannel k ch false)).bind fun _ =>
          keeps_pure _

theorem fares_downlinkQueuePacket (hF : F b) (m : Msg) (fd : Nat) (pk raw : Bool) :
    Keeps A (Fares P F k) (downlinkQueuePacket k b m fd pk raw) := by
  refine keeps_get.bind fun s => ?_
  split
  · exact fares_queueOnChannel hP hclock hF m _ false
  · refine (Fares.steady hP (serving_steady.createDownlinkChannel k b fd pk raw)).bind fun r => ?_
    cases r with
    | none => exact keeps_pure _
    | some ch => exact fares_queueOnChannel hP hclock hF m ch true

theorem fares_queueEntries (fd : Nat) (pk : Bool) {l : List (Nat × Msg)}
    (hl : ∀ e ∈ l, F e.1) : Keeps A (Fares P F k) (queueEntries k fd pk l) := by
  induction l with
  | nil => exact keeps_pure _
  | cons e rest ih =>
      have hrest := ih fun e' he => hl e' (List.mem_cons_of_mem e he)
      refine (fares_downlinkQueuePacket hP hclock (hl e List.mem_cons_self) _ _ _ _).bind
        fun queued => keeps_ite ?_ (keeps_pure _)
      exact (keeps_modify fun s => fares_dropBatch 1).bind fun _ => hrest

/-! ## Sending the batch -/

theorem fares_flushBatch (fd : Nat) {batch : Batch} (hentries : ∀ e ∈ batch.entries, F e.1) :
    Keeps A (Fares P F k) (flushBatch k fd batch) := by
  have hserve := serving_steady
  have hdone : Keeps A (Fares P F k) (do
      Worker.modify fun s => { s with frame.batch := .init }
      pure true : Worker Bool) := (keeps_modify fun s => fares_initBatch).bind fun _ => keeps_pure _
  refine (Fares.steady hP (hserve.sendPlain fd k batch.usePktinfo batch.entries)).bind fun r => ?_
  -- what follows the send is one program, whether all or a part was accepted
  have hsent : ∀ result : SendResult, Keeps A (Fares P F k) (nowMs >>= fun now => do
      Worker.modify fun s => seenSession s k now
      let accepted := r.toOption.getD 0
      Worker.modify fun s =>
        dropBatch (seenEntries s now (batch.entries.take accepted)) accepted
      count .udpPacketsToClient accepted
      count .udpCopySends accepted
      let s ← Worker.get
      if result = .retry then
        if (s.assoc k).udpFd.isNone then pure false
        else
          let queued ← queueEntries k fd batch.usePktinfo (batch.entries.drop accepted)
          if queued then Worker.modify fun s => { s with frame.batch := .init }
          pure queued
      else
        Worker.modify fun s => { s with frame.batch := .init }
        pure true : Worker Bool) := by
    intro result
    refine keeps_read (fun h => h.steady.fares hP) fun s now hr => ?_
    set accepted := r.toOption.getD 0
    set t := seenSession s k now
    set u := dropBatch (seenEntries t now (batch.entries.take accepted)) accepted
    have hseen : Fares P F k s t := (steady_seenSession s k now).fares hP
    -- only accepted datagrams stamp their bindings
    have hstamps : Fares P F k t (seenEntries t now (batch.entries.take accepted)) :=
      fares_seenEntries hP hclock (show Read A t now from hr) fun e he =>
        hentries e (List.mem_of_mem_take he)
    have hu : Fares P F k s u :=
      trans_of (Fares P F k) (trans_of (Fares P F k) hseen hstamps) (fares_dropBatch accepted)
    have hrest : Keeps A (Fares P F k) (do
        count .udpPacketsToClient accepted
        count .udpCopySends accepted
        let s ← Worker.get
        if result = .retry then
          if (s.assoc k).udpFd.isNone then pure false
          else
            let queued ← queueEntries k fd batch.usePktinfo (batch.entries.drop accepted)
            if queued then Worker.modify fun s => { s with frame.batch := .init }
            pure queued
        else
          Worker.modify fun s => { s with frame.batch := .init }
          pure true : Worker Bool) := by
      refine (Fares.quiet hP (quiet_count _ _)).bind fun _ =>
        (Fares.quiet hP (quiet_count _ _)).bind fun _ => keeps_get.bind fun s =>
        keeps_ite (keeps_ite (keeps_pure _) ?_) hdone
      refine (fares_queueEntries hP hclock fd _ fun e he =>
        hentries e (List.mem_of_mem_drop he)).bind fun queued => ?_
      cases queued with
      | false => exact keeps_pure _
      | true => exact hdone
    simp only [Lib.Act.bind_run, Worker.modify_run, Prog.ret_bind]
    exact (hrest u).mono fun _ _ h => trans_of (Fares P F k) hu h
  rcases classifySendResult r batch.entries.length with _ | _ | _
  · exact hsent .complete
  · exact hsent .retry
  · exact keeps_pure _

theorem fares_downlinkBatchFlush : Keeps A (Fares P F k) downlinkBatchFlush := by
  intro s
  refine sat_fares fun hb => ?_
  have hret : Sat A (fun s' _ => Batched P F k s') (.ret s true) := hb
  simp only [downlinkBatchFlush, bind_run, Worker.get_run, ret_bind]
  rcases he : s.frame.batch.entries with _ | ⟨e, rest⟩
  · exact hret
  rcases s.frame.batch.fd with _ | fd
  · exact hret
  rcases hj : s.frame.batch.session with _ | j
  · exact hret
  obtain rfl : j = k := hb.session.session (by simp [he]) hj
  refine (fares_flushBatch hP hclock fd (fun e' he' => hb.entries e'.1 ⟨e'.2, he'⟩) s).mono
    fun _ _ h => h hb

theorem fares_batchAppend (hF : F b) (fd : Nat) (pk : Bool) (m : Msg) :
    Keeps A (Fares P F k) (batchAppend k b fd pk m) :=
  (keeps_modify fun _ => fares_appendBatch hF fd pk m).bind fun _ => keeps_get.bind fun _ =>
    keeps_ite (fares_downlinkBatchFlush hP hclock) (keeps_pure _)

theorem fares_downlinkBatchQueue (hF : F b) (m : Msg) (fd : Nat) (pk : Bool) :
    Keeps A (Fares P F k) (downlinkBatchQueue k b m fd pk) := by
  have hflush := fares_downlinkBatchFlush (F := F) (k := k) hP hclock
  refine keeps_get.bind fun s => keeps_ite ?_ (keeps_ite ?_ (fares_batchAppend hP hclock hF fd pk m))
  · exact hflush.bind fun _ =>
      keeps_ite (fares_downlinkQueuePacket hP hclock hF m fd pk false) (keeps_pure _)
  · exact hflush.bind fun _ => keeps_ite (fares_batchAppend hP hclock hF fd pk m) (keeps_pure _)

/-! ## One reply -/

theorem fares_rawReply (hF : F b) (fd : Nat) (m : Msg) :
    Keeps A (Fares P F k) (rawReply k b fd m) := by
  have hqueue : Keeps A (Fares P F k) (do
      let queued ← downlinkQueuePacket k b m fd false true
      if queued then Worker.modify popMessage
      pure queued) :=
    (fares_downlinkQueuePacket hP hclock hF m fd false true).bind fun queued =>
      fares_queuedMessage hP queued
  refine (fares_downlinkBatchFlush hP hclock).bind fun _ => keeps_ite ?_ (keeps_pure _)
  refine keeps_get.bind fun s => keeps_ite hqueue ?_
  refine (Fares.steady hP (serving_steady.rawSend fd k b m)).bind fun r => ?_
  split
  · refine keeps_stamp (fun h => h.steady.fares hP) (fun s now hr => ?_) fun _ =>
      (Fares.quiet hP (quiet_count _ _)).bind fun _ => (Fares.quiet hP (quiet_count _ _)).bind fun _ =>
      keeps_pure _
    refine trans_of (Fares P F k) (fares_stampBoth hP hclock hr hF) (Steady.fares hP ?_)
    exact steady_of_eq rfl rfl (fun _ => rfl) rfl rfl
  · refine (Fares.quiet hP (quiet_count _ _)).bind fun _ =>
      (keeps_modify fun s => Steady.fares hP ?_).bind fun _ => keeps_pure _
    exact steady_of_eq rfl rfl (fun _ => rfl) rfl rfl
  · exact keeps_ite hqueue (keeps_pure _)

theorem fares_sendReply (hF : F b) (m : Msg) : Keeps A (Fares P F k) (sendReply k b m) := by
  refine keeps_get.bind fun s => ?_
  split
  · exact keeps_ite (fares_rawReply hP hclock hF _ m)
      ((fares_downlinkBatchQueue hP hclock hF m _ _).bind fun queued =>
        fares_queuedMessage hP queued)
  · exact (fares_downlinkBatchQueue hP hclock hF m _ _).bind fun queued =>
      fares_queuedMessage hP queued

end Delivery

end Bpf2Socks.Udp
