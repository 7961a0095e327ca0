/-
# Bpf2Socks.Udp.IdleSessions — an idle session cannot hide.

The walks that look for idle sessions stop at the first one that is not overdue.  Here every step
of the worker is shown to leave the LRU in order (`Aged`), so that nothing behind that session is
overdue either.
-/
import Bpf2Socks.Udp.Ages
import Bpf2Socks.Udp.SessionRuns

namespace Bpf2Socks.Udp

open Function (update update_self update_of_ne)
open Lib (Prog Act DLists InOrder)
open Lib.Prog Lib.Act
open Worker hiding get modify ask diverge

variable {A : State → (q : Sys) → q.Ans → Prop} {C : Loc → State → Prop} {U : Nat → Prop}
  {cfg : WorkerConfig} {k : Nat} {l : Loc} {s t : State}

/-! ## Opening a session -/

/-- While a slot is filled only its own record changes, and it is not on the LRU. -/
theorem Opening.agedCongr {addr : Sockaddr} (h : Opening True k addr s) (ha : Aged s)
    (hl : ∀ lru, k ∉ lru → s.tbl.lru.Rep (fun _ => lru) → t.tbl.lru.Rep fun _ => lru)
    (hc : s.trace.clock ≤ t.trace.clock) (hcore : ∀ j, j ≠ k → t.tbl.seenAt j = s.tbl.seenAt j) :
    Aged t := by
  obtain ⟨lru, hs, hi, -⟩ := h.table
  refine aged_of_rep (hl lru hi.hole_not_mem hi.lruRep)
    (((ha lru hi.lruRep).later hc).congr fun j hj => hcore j ?_)
  rintro rfl
  exact hi.hole_not_mem hj

theorem aged_takeSlot (h : Holding Nobody s) (hk : allocTarget s = some k) :
    Aged (takeSlot s k) := by
  unfold takeSlot
  rcases hf : s.tbl.free with _ | ⟨j, rest⟩
  · have hv : evictionVictim s = some (some k) := by
      simpa [allocTarget, hf, Option.join_eq_some_iff] using hk
    have hd : Holding Nobody (dropState s k) :=
      ages_dropState (h.sessions.victim hv).1 id h
    rw [if_pos rfl]
    exact hd.aged
  · rw [if_neg (by simp)]
    exact h.aged

theorem Opening.agedClear {addr : Sockaddr} (h : Opening True k addr s) (ha : Aged s) :
    Aged (Udp.clearSession s k) :=
  h.agedCongr ha (fun _ hk hr => hr.clearNode fun _ => hk) (Nat.le_refl _) fun j hj => by
    simp [SessTable.seenAt, Udp.clearSession, hj]

theorem Opening.agedCore {addr : Sockaddr} (h : Opening True k addr s) (ha : Aged s)
    (f : SessCore → SessCore) : Aged (s.modCore k f) :=
  h.agedCongr ha (fun _ _ hr => hr) (Nat.le_refl _) fun j hj => by
    simp [SessTable.seenAt, State.modCore, hj]

theorem Opening.agedInit {p : ClientPacket} (h : Opening True k p.clientAddr s) (ha : Aged s) :
    Aged (Udp.initSession s k p) :=
  h.clearSession.agedCore (h.agedClear ha) fun c => { c with
    used := true, clientAddr := p.clientAddr, tokenLookupMode := p.tokenLookupMode
    uid := s.trace.nextUid }

variable {p : ClientPacket}

theorem Filled.abandon_aged (h : Filled True p k s t) (ha : Aged t) :
    Sat A (fun s' _ => Aged s') (abandonSession k t) := by
  refine (sessionClose_sat h.new.used).bind fun t' _ ht => ?_
  obtain ⟨u, hu, heq⟩ := closeState_beside t k
  rw [heq] at ht
  exact (Like.beside ht).still.aged ((h.opening.beside hu).agedClear (hu.still.aged ha))

/-- The new session was seen last and comes last. -/
theorem Filled.aged_attach (h : Filled True p k s t) (hs : Stamped True k t) (ha : Aged t) :
    Aged { t with tbl := t.tbl.attach k } := by
  obtain ⟨lru, l, hi, -⟩ := h.opening.table
  refine aged_of_rep (r := lru ++ [k]) (hi.lruRep.addOne hi.hole_not_mem) ?_
  have hseen : ∀ j, (t.tbl.attach k).seenAt j = t.tbl.seenAt j :=
    update_field (π := SessCore.lastSeenMs) rfl
  exact ((ha lru hi.lruRep).concat (hs.eq trivial).symm).congr fun j _ => hseen j

theorem linkSession_aged (hclock : Clock True A) (h : Filled True p k s t)
    (hs : Stamped True k t) (ha : Aged t) {stage : Stage} (hst : stage ≠ .ready) (fd : Nat) :
    Sat A (fun s' _ => Aged s') (linkSession k fd stage t) := by
  set u := setStage (t.modAssoc k fun a => { a with tcpFd := some fd }) k stage with hu
  have hfill : Filled True p k s u := (h.modAssoc _).modCore (fun _ => rfl) (fun _ _ => hst)
    (fun _ => rfl) (fun _ => rfl) fun _ => rfl
  have hstill : Still t u := by
    have h' := still_setStage (t.modAssoc k fun a => { a with tcpFd := some fd }) k stage
    exact ⟨h'.clock, h'.lru, h'.seen⟩
  have hseen : (u.tbl.core k).lastSeenMs = (t.tbl.core k).lastSeenMs := hstill.seen k
  have hstamp : Stamped True k u := ⟨hseen ▸ hs.le, hseen ▸ hs.eq⟩
  have hattach := hfill.aged_attach hstamp (hstill.aged ha)
  obtain ⟨hsess, hnew, -⟩ := hfill.attach hstamp.le hstamp.eq
  show Sat A _ ((epollAddSessionControl k handshakeBits >>= fun added => _ : Worker _)
    { u with tbl := u.tbl.attach k })
  refine (keeps_epollAddSessionControl (handshaken_shaken hclock) _ _).bind fun v added hv => ?_
  obtain ⟨hvs, -, -⟩ := hv.shake.sessions hsess hnew.used hnew.stage
  have hva : Holding Nobody v := ⟨hvs, hv.still.aged hattach, by simp⟩
  cases added with
  | true => exact (still_releaseNoteNewSession v k _).aged hva.aged
  | false => exact (ages_sessionDrop id v).bind fun w _ hw => (hw hva).aged

theorem connectSession_aged (hclock : Clock True A) (h : Filled True p k s t)
    (hs : Stamped True k t) (ha : Aged t) :
    Sat A (fun s' _ => Aged s') (connectSession k t) := by
  have hgive : ∀ u, Filled True p k s u → Aged u →
      Sat A (fun s' _ => Aged s') ((do abandonSession k; pure none : Worker (Option Nat)) u) :=
    fun u hu hau => (hu.abandon_aged hau).bind fun _ _ h => h
  unfold connectSession
  rcases associateBuildRequest with _ | bytes
  · exact hgive t h ha
  · intro r _
    rcases r with _ | ⟨fd, connected⟩
    · exact hgive _ (h.modAssoc _) ha
    · exact linkSession_aged hclock (h.modAssoc _) ⟨hs.le, hs.eq⟩ ha
        (by cases connected <;> simp) fd

theorem openSession_aged (hclock : Clock True A) (h : Opening True k p.clientAddr s)
    (ha : Aged s) : Sat A (fun s' _ => Aged s') (openSession k p s) := by
  intro now hnow
  have hfill := (filled_initSession h).like (like_clock _ now)
  have haged : Aged { initSession s k p with trace.clock := max s.trace.clock now } :=
    (Like.beside (like_clock _ now)).still.aged (h.agedInit ha)
  refine connectSession_aged hclock (hfill.modCore (fun _ => rfl) (fun _ h => h) (fun _ => rfl)
    (fun _ => rfl) fun _ => rfl) ⟨?_, fun hm => ?_⟩ (hfill.opening.agedCore haged _)
  · simp only [State.modCore, update_self]
    exact Nat.le_max_right _ _
  · simp only [State.modCore, update_self]
    exact Nat.max_eq_right (hclock hm _ now hnow)

/-- From the allocation on. -/
theorem allocOpen_aged (hclock : Clock True A) (h : Holding Nobody s)
    (hfind : s.tbl.find p.clientAddr = none)
    (hwatch : sockaddrIsLoopback p.clientAddr = true → s.rel.armed = true) :
    Sat A (fun s' _ => Aged s') (allocOpen p s) := by
  refine (allocSession_sat h.sessions).bind fun t r ⟨hr, ht⟩ => ?_
  rcases r with _ | k
  · obtain rfl : t = s := ht
    exact h.aged
  · obtain ⟨hopen, -⟩ := opening_takeSlot h.sessions hfind hr.symm hwatch
    have hbeside := Like.beside ht
    exact openSession_aged hclock (hopen.beside hbeside)
      (hbeside.still.aged (aged_takeSlot h hr.symm))

theorem Aside.still (h : Aside s t) : Still s t := by
  obtain ⟨rel, mask, -, n, rfl, hn⟩ := h
  exact ⟨hn, rfl, fun _ => rfl⟩

theorem sessionGet_none_aged (hclock : Clock True A) (h : Holding Nobody s)
    (hfind : s.tbl.find p.clientAddr = none) :
    Sat A (fun s' _ => Aged s') (sessionGet p none s) := by
  refine sessionGet_none_of h.sessions fun t ht hw => ?_
  have ht' : Holding Nobody t := ht.still.ages (W := Nobody) (D := Nobody) ht.evolve h
  obtain ⟨rel, mask, -, n, rfl, -⟩ := ht
  exact allocOpen_aged hclock ht' hfind hw

/-! ## Every step -/

/-- Changing what the sessions do not depend on. -/
theorem ages_of_tbl (htbl : t.tbl = s.tbl) (hcfg : t.cfg = s.cfg)
    (hclock : s.trace.clock ≤ t.trace.clock) (huid : t.trace.nextUid = s.trace.nextUid)
    (harmed : t.rel.armed = s.rel.armed) : Ages U s t := fun h =>
  ⟨h.sessions.congr htbl hcfg hclock huid harmed,
    Still.aged ⟨hclock, by rw [htbl], fun _ => by rw [htbl]⟩ h.aged, by rw [htbl]; exact h.used⟩

theorem Ages.quiet {α : Type} {f : Worker α} (hf : Quiet A f) : Keeps A (Ages U) f :=
  hf.imp fun h => h.beside.ages

theorem Ages.beside {α : Type} {f : Worker α} (hf : Keeps A Beside f) : Keeps A (Ages U) f :=
  hf.imp Beside.ages

theorem Still.quiet {α : Type} {f : Worker α} (hf : Quiet A f) : Keeps A Still f :=
  hf.imp fun h => h.beside.still

/-! ### Client datagrams -/

theorem still_clientReceive (fd : Nat) : Keeps A Still (clientReceive fd) := by
  refine keeps_get.bind fun s => (keeps_ask _).bind fun r => ?_
  split
  · exact keeps_pure _
  · exact (Still.quiet quiet_nowMs).bind fun now => (Still.quiet (quiet_dnsStep _)).bind fun _ =>
      (keeps_modify fun s => ⟨Nat.le_refl _, rfl, fun _ => rfl⟩).bind fun _ => keeps_pure _

theorem still_clientResolved (p : ClientPacket) (existing : Option Nat) :
    Keeps A Still (clientResolved p existing) := by
  have hrest : Keeps A Still (do
      let s ← Worker.get
      if dnsIsCandidate s.cfg p then
        let taken ← dnsStep (.prepareQuery p s.frame.nowMs)
        pure (if taken then .clientPacket else .clientSession p existing)
      else pure (.clientSession p existing) : Worker Loc) :=
    keeps_get.bind fun s => keeps_ite ((Still.quiet (quiet_dnsStep _)).bind fun _ => keeps_pure _)
      (keeps_pure _)
  cases existing with
  | none => exact hrest
  | some k => exact (keeps_modify fun s => still_noteLookupMode s k _).bind fun _ => hrest

theorem still_tokenMiss (notify : Option ClientPacket) : Keeps A Still (tokenMiss notify) := by
  refine (Still.quiet (quiet_count _ _)).bind fun _ => ?_
  cases notify with
  | none => exact keeps_pure _
  | some p => exact (keeps_ask _).bind fun _ => keeps_pure _

theorem still_clientNext : Keeps A Still clientNext := by
  refine keeps_get.bind fun s => ?_
  split
  · exact (Still.quiet (quiet_dnsStep _)).bind fun _ => keeps_pure _
  · rename_i d rest _
    refine (keeps_modify fun s => ⟨Nat.le_refl _, rfl, fun _ => rfl⟩).bind fun _ => keeps_ite
      ((Still.quiet (quiet_count _ _)).bind fun _ => keeps_pure _)
      ((Still.quiet (quiet_count _ _)).bind fun _ => ?_)
    split
    · exact still_tokenMiss none
    · -- the two lookups only ask
      have hlookup : ∀ p pref now, Keeps A Still (tokenLookupOriginal p pref now) :=
        fun p pref now s => (tokenLookupOriginal_sat p pref now s).mono fun _ _ h =>
          h.1 ▸ refl_of Still s
      have hrecover : ∀ session p, Keeps A Still (tokenRecoverConnected session p) :=
        fun session p s => (tokenRecoverConnected_sat session p s).mono fun _ _ h =>
          h.1 ▸ refl_of Still s
      refine (hlookup _ _ _).bind fun r => keeps_ite (still_clientResolved _ _)
        ((hrecover _ _).bind fun r' => ?_)
      split
      · exact still_clientResolved _ _
      · exact still_tokenMiss _

theorem ages_clientForward (hclock : Clock True A) (k : Nat) (p : ClientPacket) :
    Keeps A (Ages (Only k)) (clientForward k p) := by
  have hS : Seeing A k (Ages (Only k)) := seeing_ages hclock rfl
  refine keeps_get.bind fun s => keeps_ite ?_
    (keeps_modify fun s => ages_of_tbl rfl rfl (Nat.le_refl _) rfl rfl)
  refine (keeps_sessionQueuePending hS _ _ _).bind fun r => ?_
  rcases r with e | _
  · cases e <;> exact Ages.quiet (quiet_count _ _)
  · exact keeps_pure ()

theorem ages_clientBind (hclock : Clock True A) (k : Nat) (p : ClientPacket) :
    Keeps A (Ages (Only k)) (clientBind k p) := by
  refine (Ages.beside (keeps_bindingFind _ _)).bind fun found => ?_
  cases found with
  | none =>
      refine (Ages.beside (keeps_createBinding _ _)).bind fun created => ?_
      cases created with
      | none => exact keeps_pure ()
      | some b => exact ages_clientForward hclock k p
  | some b =>
      refine (Ages.beside (keeps_refreshBinding _ _ _)).bind fun good => ?_
      exact keeps_ite (ages_clientForward hclock k p) (keeps_pure ())

theorem sessionGet_some_ages (hclock : Clock True A) (k : Nat) (p : ClientPacket) :
    Keeps A (Ages (Only k)) (sessionGet p (some k)) := by
  refine keeps_stamp (fun hl => hl.beside.ages) (fun s now hr => ?_) fun _ =>
    (Ages.quiet (quiet_count _ _)).bind fun _ => (Ages.quiet (quiet_count _ _)).bind fun _ =>
    keeps_pure _
  refine trans_of (Ages (Only k)) (ages_seenSession hclock hr rfl) ?_
  exact (still_noteLookupMode _ k _).ages (W := Nobody) (D := Nobody)
    (evolve_noteLookupMode _ k _)

theorem clientSession_aged (hclock : Clock True A) (h : Holding Nobody s)
    {existing : Option Nat} (hat : AtLoc s (.clientSession p existing)) :
    Sat A (fun s' _ => Aged s') (clientSession p existing s) := by
  have hbind : ∀ k t, Holding (Only k) t →
      Sat A (fun s' _ => Aged s') ((do clientBind k p; pure .clientPacket : Worker Loc) t) :=
    fun k t ht => (ages_clientBind hclock k p t).bind fun _ _ h' => (h' ht).aged
  rcases existing with _ | k
  · refine ((sessionGet_none_sat hclock h.sessions hat.2).and
      (sessionGet_none_aged hclock h hat.2)).bind fun t r ⟨ht, ha⟩ => ?_
    rcases r with _ | k
    · exact ha
    · obtain ⟨-, hnew⟩ | ⟨hnone, -⟩ := ht.target k (ht.result k rfl)
      · exact hbind k t ⟨ht.sessions, ha, by rintro j rfl; exact hnew.used⟩
      · simp at hnone
  · have hfound : Sat A (fun _ r => r = some k) (sessionGet p (some k) s) := fun _ _ => rfl
    refine ((sessionGet_some_ages hclock k p s).and hfound).bind fun t r ⟨ht, hr⟩ => ?_
    subst hr
    exact hbind k t (ht (h.only hat.2.1))

theorem ages_flushGroup (o : Outgoing) : Keeps A (Ages Nobody) (flushGroup o) := by
  refine keeps_get.bind fun s => (keeps_modify fun s => ?_).bind fun _ =>
    (Ages.quiet (quiet_relaySendBatch _ _)).bind fun sent => (keeps_modify fun s => ?_).bind
      fun _ => keeps_ite ?_ (keeps_pure _)
  · exact ages_of_tbl rfl rfl (Nat.le_refl _) rfl rfl
  · exact ages_of_tbl rfl rfl (Nat.le_refl _) rfl rfl
  · exact (Ages.quiet (quiet_count _ _)).bind fun _ => ages_sessionDrop id

theorem ages_clientFlush : Keeps A (Ages Nobody) clientFlush := by
  refine keeps_get.bind fun s => ?_
  split
  · exact keeps_pure _
  · exact (ages_flushGroup _).bind fun _ => keeps_pure _

/-! ### Replies -/

theorem upstreamNext_aged (hclock : Clock True A) (h : Holding Nobody s)
    (hat : AtLoc s .upstream) : Sat A (fun s' _ => Aged s') (upstreamNext s) := by
  obtain ⟨hb, hu, -⟩ := hat
  have hR := batching_answers hclock
  have hdone : ∀ t, Answers s.frame.session s t → Aged t := fun t ht =>
    (ht ⟨h.only hu, hb⟩).1.aged
  have hcount : ∀ t c, Aged t → Aged (t.count c) := fun t c ha =>
    (like_count t c 1).beside.still.aged ha
  simp only [upstreamNext, bind_run, Worker.get_run, ret_bind]
  rcases s.frame.messages with _ | ⟨m, rest⟩
  · refine (hR.downlinkBatchFlush (k := s.frame.session) s).bind fun t flushed ht => ?_
    cases flushed with
    | true => exact hdone t ht
    | false => exact hcount t _ (hdone t ht)
  · refine (hR.upstreamMessage m s).bind fun t good ht => ?_
    cases good with
    | true => exact hdone t ht
    | false => exact hcount t _ (hdone t ht)

theorem ages_upstreamDone (failed : Bool) : Keeps A (Ages Nobody) (upstreamDone failed) := by
  have hfin : Keeps A (Ages Nobody) (Worker.modify fun s =>
      { s with frame := { s.frame with messages := [], batch := .init } }) :=
    keeps_modify fun s => ages_of_tbl rfl rfl (Nat.le_refl _) rfl rfl
  refine keeps_get.bind fun s => (Ages.quiet quiet_releaseReservation).bind fun _ => ?_
  cases failed with
  | false => exact hfin.bind fun _ => keeps_pure _
  | true => exact (ages_sessionDrop id).bind fun _ => hfin.bind fun _ => keeps_pure _

theorem ages_upstreamReceive (k : Nat) : Keeps A (Ages Nobody) (upstreamReceive k) := by
  refine keeps_get.bind fun s => (Ages.quiet (quiet_reserveSlots _)).bind fun reserved => ?_
  cases reserved with
  | none =>
      refine ((keeps_modify fun s => (beside_markWaiting s k).ages).bind fun _ =>
        (Ages.beside (keeps_setPaused k true)).bind fun _ => keeps_ite ?_ (keeps_pure _)).bind
        fun _ => keeps_pure _
      exact (Ages.quiet (quiet_count _ _)).bind fun _ => ages_sessionDrop id
  | some n =>
      refine (Ages.quiet (keeps_socks5UdpRecvmmsg _ _)).bind fun r => ?_
      split
      · refine (Ages.quiet quiet_releaseReservation).bind fun _ => Keeps.bind ?_ fun _ =>
          keeps_pure _
        exact keeps_ite (Ages.quiet (quiet_count _ _))
          (keeps_ite (ages_sessionDrop id) (keeps_pure _))
      · exact (Ages.quiet quiet_releaseReservation).bind fun _ => keeps_pure _
      · refine (keeps_modify fun s => ?_).bind fun _ => keeps_pure _
        exact ages_of_tbl rfl rfl (Nat.le_refl _) rfl rfl

/-! ### Events -/

/-- What an error on a session's sockets leads to. -/
theorem ages_dropCounted (c : Counter) (k : Nat) :
    Keeps A (Ages Nobody) (do count c; sessionDrop k : Worker Unit) :=
  (Ages.quiet (quiet_count _ _)).bind fun _ => ages_sessionDrop id

theorem dispatchControl_aged (hclock : Clock True A) (h : Holding Nobody s) (k : Nat)
    (bits : Bits) : Sat A (fun s' _ => Aged s') (dispatchControl k bits s) := by
  simp only [dispatchControl, bind_run, Worker.get_run, ret_bind, ite_run]
  split
  · rename_i hc
    simp only [Bool.and_eq_true] at hc
    split
    · rename_i hst
      have hR := handshaken_shaken (k := k) hclock
      have hE := establishing_ages (k := k) hclock
      refine (completes_associateAdvance hR hE.toCompleting
        (completes_completeAssociate hR hE) bits s hst).bind fun t good ht => ?_
      have hh : Holding Nobody t := (ht (h.only hc.2)).nobody
      cases good with
      | true => exact hh.aged
      | false => exact (ages_dropCounted .udpSendErrors k t).bind fun _ _ h' => (h' hh).aged
    · exact (keeps_sessionControlEvent tolerant_ages k bits s).bind fun _ _ h' => (h' h).aged
  · exact h.aged

theorem dispatchRelay_aged (h : Holding Nobody s) (k : Nat) (bits : Bits) :
    Sat A (fun s' _ => Aged s') (dispatchRelay k bits s) := by
  have hkeeps : Keeps A (Ages Nobody) (dispatchRelay k bits) :=
    keeps_get.bind fun s => keeps_ite (keeps_ite
      ((ages_sessionDrop id).bind fun _ => keeps_pure _)
      (keeps_ite (ages_upstreamReceive k) (keeps_pure _))) (keeps_pure _)
  exact (hkeeps s).mono fun _ _ h' => (h' h).aged

theorem dispatchDownlink_aged (hclock : Clock True A) (h : Holding Nobody s)
    (hb : s.frame.batch.entries = []) (k id : Nat) (bits : Bits) :
    Sat A (fun s' _ => Aged s') (dispatchDownlink k id bits s) := by
  simp only [dispatchDownlink, bind_run, Worker.get_run, ret_bind, ite_run]
  split
  · rename_i hc
    simp only [Bool.and_eq_true] at hc
    split
    · exact (ages_dropCounted .udpSendErrors k s).bind fun _ _ h' => (h' h).aged
    · split
      · refine (((batching_answers hclock).replying k).downlinkFlushChannel id s).bind
          fun t good ht => ?_
        have hh : Holding Nobody t := (ht ⟨h.only hc.2, Or.inl hb⟩).1.nobody
        cases good with
        | true => exact hh.aged
        | false => exact (ages_dropCounted .udpSendErrors k t).bind fun _ _ h' => (h' hh).aged
      · exact h.aged
  · exact h.aged

theorem dispatchDnsRelay_aged (h : Holding Nobody s) (i : Fin dnsChannelsPerWorker)
    (bits : Bits) : Sat A (fun s' _ => Aged s') (dispatchDnsRelay i bits s) := by
  have hkeeps : Keeps A Beside (dispatchDnsRelay i bits) := by
    refine keeps_get.bind fun s => keeps_ite (keeps_ite ?_ (keeps_ite ?_ (keeps_pure _)))
      (keeps_pure _)
    · exact (quiet_dnsStep _).beside.bind fun _ => keeps_pure _
    · exact (keeps_dnsHandleUpstream i).bind fun _ => keeps_pure _
  exact (hkeeps s).mono fun _ _ h' => h'.still.aged h.aged

theorem dispatchEvent_aged (hclock : Clock True A) (h : Holding Nobody s)
    (hb : s.frame.batch.entries = []) (e : Event) :
    Sat A (fun s' _ => Aged s') (dispatchEvent e s) := by
  obtain ⟨ref, bits, uid⟩ := e
  have hreceive : ∀ fd, Sat A (fun s' _ => Aged s') (clientReceive fd s) := fun fd =>
    (still_clientReceive fd s).mono fun _ _ h' => h'.aged h.aged
  cases ref with
  | listener4 =>
      show Sat A _ ((if _ then _ else _ : Worker Loc) _)
      split
      · exact hreceive _
      · exact h.aged
  | listener6 =>
      simp only [dispatchEvent, bind_run, Worker.get_run, ret_bind]
      rcases s.cfg.listener6 with _ | fd
      · exact h.aged
      · show Sat A _ ((if _ then _ else _ : Worker Loc) _)
        split
        · exact hreceive fd
        · exact h.aged
  | control k => exact dispatchControl_aged hclock h k bits
  | relay k => exact dispatchRelay_aged h k bits
  | downlink k id => exact dispatchDownlink_aged hclock h hb k id bits
  | dnsControl i =>
      exact (quiet_dnsStep (A := A) (.controlEvent i bits) s).bind fun _ _ h' =>
        h'.beside.still.aged h.aged
  | dnsRelay i => exact dispatchDnsRelay_aged h i bits
  | budgetWake => exact fun _ _ => h.aged
  | destroyEvents =>
      have hkeeps : Keeps A (Ages Nobody) (do let now ← nowMs; releaseHandleEvents now) :=
        (Ages.quiet quiet_nowMs).bind fun now => keeps_releaseHandleEvents tolerant_ages now
      exact (hkeeps s).bind fun _ _ h' => (h' h).aged

/-! ### Maintenance -/

/-- `udp_run_maintenance` up to `bpf2socks_udp_session_expire_idle`. -/
def beforeExpireIdle : Worker Unit := do
  downlinkFreeRetired
  resumeBudgetWaiters
  bindingExpireIdle
  let now ← nowMs
  sessionExpireHandshakes now

/-- The rest of `expireAll`. -/
def afterExpireIdle : Worker Unit := do
  let now ← nowMs
  releaseRetry now
  let now ← nowMs
  let _ ← dnsStep (.expireTransactions now)
  let now ← nowMs
  let _ ← dnsStep (.expireHandshakes now)
  downlinkFreeRetired

theorem expireAll_eq :
    expireAll = beforeExpireIdle >>= fun _ => sessionExpireIdle >>= fun _ => afterExpireIdle := by
  funext s
  simp only [expireAll, beforeExpireIdle, afterExpireIdle, bind_run, bind_assoc]

theorem ages_freeRetired : Keeps A (Ages U) downlinkFreeRetired :=
  keeps_modify fun s => (like_retired s _).beside.ages

theorem ages_beforeExpireIdle : Keeps A (Ages Nobody) beforeExpireIdle :=
  ages_freeRetired.bind fun _ => (Ages.beside keeps_resumeBudgetWaiters).bind fun _ =>
    (Ages.beside keeps_bindingExpireIdle).bind fun _ => (Ages.quiet quiet_nowMs).bind fun _ =>
    keeps_sessionExpireHandshakes tolerant_ages _

theorem ages_afterExpireIdle : Keeps A (Ages Nobody) afterExpireIdle :=
  (Ages.quiet quiet_nowMs).bind fun _ => (keeps_releaseRetry tolerant_ages (fun s => ages_rel s _ rfl) _).bind fun _ =>
    (Ages.quiet quiet_nowMs).bind fun _ => (Ages.quiet (quiet_dnsStep _)).bind fun _ =>
    (Ages.quiet quiet_nowMs).bind fun _ => (Ages.quiet (quiet_dnsStep _)).bind fun _ =>
    ages_freeRetired

theorem still_releaseDisarmIfIdle : Keeps A Still releaseDisarmIfIdle := by
  refine keeps_get.bind fun s => keeps_ite (keeps_pure _) ?_
  refine Keeps.bind ((keeps_epollModify _ _).imp Beside.still) fun done => ?_
  exact keeps_ite (keeps_modify fun s => ⟨Nat.le_refl _, rfl, fun _ => rfl⟩) (keeps_pure _)

theorem runMaintenance_aged (h : Holding Nobody s) :
    Sat A (fun s' _ => Aged s') (runMaintenance s) := by
  have hexpire : Keeps A (Ages Nobody) expireAll := by
    rw [expireAll_eq]
    exact ages_beforeExpireIdle.bind fun _ => (keeps_sessionExpireIdle tolerant_ages).bind
      fun _ => ages_afterExpireIdle
  have hregister : Keeps A (Ages Nobody) registerWaiters :=
    keeps_get.bind fun _ => keeps_ite ((keeps_ask _).bind fun _ =>
      Ages.beside keeps_resumeBudgetWaiters) (keeps_pure _)
  refine (hexpire s).bind fun t _ ht => (hregister t).bind fun u _ hu => ?_
  have ha : Aged u := (hu (ht h)).aged
  refine (still_releaseDisarmIfIdle u).bind fun v _ hv => (quiet_nowMs v).bind fun w now hw => ?_
  intro dns _
  show Aged { w with nextDeadlineMs := udpNextDeadline w now dns }
  exact hw.beside.still.aged (hv.aged ha)

/-- Every step leaves the LRU in order. -/
theorem step_aged (hclock : Clock True A) (h : Holding Nobody s) (hat : AtLoc s l) :
    Sat A (fun s' _ => Aged s') (step l s) := by
  cases l with
  | wait => trivial
  | dispatch =>
      show Sat A _ (dispatchNext s)
      simp only [dispatchNext, bind_run, Worker.get_run, ret_bind]
      rcases s.events with _ | ⟨e, rest⟩
      · exact h.aged
      · exact dispatchEvent_aged hclock (s := { s with events := rest })
          ⟨h.sessions.congr rfl rfl (Nat.le_refl _) rfl rfl, h.aged, h.used⟩ hat e
  | clientPacket => exact (still_clientNext s).mono fun _ _ h' => h'.aged h.aged
  | clientSession p existing => exact clientSession_aged hclock h hat
  | clientFlush => exact (ages_clientFlush s).mono fun _ _ h' => (h' h).aged
  | upstream => exact upstreamNext_aged hclock h hat
  | upstreamDone failed => exact (ages_upstreamDone failed s).mono fun _ _ h' => (h' h).aged
  | maintain => exact runMaintenance_aged h

/-! ## Every reachable state -/

theorem aged_init (cfg : WorkerConfig) : Aged (initState cfg) :=
  aged_of_rep (r := []) DLists.rep_empty .nil

theorem Reach.holding (hclock : Clock True A) (h : Reach A C cfg l s) : Holding Nobody s := by
  have hinv := h.invariant (I := fun l s => (Sessions True s ∧ AtLoc s l ∧ s.cfg = cfg) ∧ Aged s)
    ⟨⟨sessions_init True cfg, rfl, rfl⟩, aged_init cfg⟩ ?_ ?_
  · exact ⟨hinv.1.1, hinv.2, by simp⟩
  · rintro s evs ⟨⟨hs, hat, hcfg⟩, ha⟩ -
    exact ⟨⟨hs.congr rfl rfl (Nat.le_refl _) rfl rfl, hat, hcfg⟩, ha⟩
  · rintro l s ⟨⟨hs, hat, hcfg⟩, ha⟩ -
    refine ((step_effect hclock hs hat).and (step_aged hclock ⟨hs, ha, by simp⟩ hat)).mono
      fun s' l' ⟨he, ha'⟩ => ?_
    obtain ⟨hs', hat', hcfg'⟩ := he.sessions hs hat
    exact ⟨⟨hs', hat', hcfg'.trans hcfg⟩, ha'⟩

/-! ## Expiry -/

/-- At time `now` no session in use that holds nothing for its client has been idle for the idle
timeout. -/
def NoneOverdue (s : State) (now : Nat) : Prop :=
  ∀ k, (s.tbl.core k).used = true → droppable s k = true →
    now < s.tbl.seenAt k + s.cfg.idleTimeoutMs

theorem droppable_congr (h : t.down k = s.down k) : droppable t k = droppable s k := by
  rw [droppable, droppable, h]

/-- The walk, with the sessions in `p` behind it and those in `rest` before it. -/
theorem expireIdleFrom_returns {now fuel : Nat} {p rest : List Nat} (h : Holding Nobody s)
    (hr : s.tbl.lru.Rep fun _ => p ++ rest) (hpast : ∀ j ∈ rest, s.tbl.seenAt j ≤ now)
    (hpassed : ∀ j ∈ p, droppable s j = false) (hfuel : rest.length < fuel) :
    Returns A (fun s' _ => NoneOverdue s' now) (expireIdleFrom now fuel rest.head? s) := by
  induction fuel generalizing s p rest with
  | zero => exact absurd hfuel (Nat.not_lt_zero _)
  | succ fuel ih =>
      obtain ⟨lru, hs, hi, -⟩ := h.sessions.whole
      obtain rfl : lru = p ++ rest := hi.lruRep.unique hr ()
      have hused : ∀ j, j ∈ p ++ rest ↔ (s.tbl.core j).used = true := fun j => by
        rw [hi.mem_lru]
        simp
      cases rest with
      | nil =>
          refine Returns.ret fun j hj hd => ?_
          have := hpassed j (by simpa using (hused j).mpr hj)
          exact absurd hd (by simp [this])
      | cons k rest =>
          have hshorter : rest.length < fuel := Nat.lt_of_succ_lt_succ hfuel
          have hk : (s.tbl.core k).used = true := (hused k).mp (by simp)
          have hle : (s.tbl.core k).lastSeenMs ≤ now := hpast k List.mem_cons_self
          have hnext : s.tbl.lru.next k = rest.head? := by
            obtain ⟨_, -, hseg⟩ := DLists.seg_append.mp (hr.fwd ())
            exact hseg.2.head
          simp only [List.head?_cons, expireIdleFrom, bind_run, Worker.get_run, ret_bind, hnext]
          refine returns_ite (fun hstop => ?_) fun _ => returns_ite (fun _ => ?_) fun hd => ?_
          · -- nothing behind the first session that is not overdue is overdue
            have hfresh : now - (s.tbl.core k).lastSeenMs < s.cfg.idleTimeoutMs := by
              simpa [hk, subMs, if_pos hle] using hstop
            refine Returns.ret fun j hj hd => ?_
            rcases List.mem_append.mp ((hused j).mpr hj) with hm | hm
            · exact absurd hd (by simp [hpassed j hm])
            · have hsorted := (h.aged _ hr).sublist (List.sublist_append_right p _)
              have : (s.tbl.core k).lastSeenMs ≤ s.tbl.seenAt j := hsorted.head_le j hm
              omega
          · have hkp : k ∉ p := fun hm =>
              (List.nodup_append.mp (hr.nodup ())).2.2 k hm k (by simp) rfl
            have hkr : k ∉ rest := fun hm => by
              have := (List.nodup_append.mp (hr.nodup ())).2.1
              exact (List.nodup_cons.mp this).1 hm
            refine Returns.bind ⟨sessionDrop_sat hk, stops_sessionDrop k s⟩ fun t _ ht => ?_
            have hrep : t.tbl.lru.Rep fun _ => p ++ rest := by
              have := (hi.dropped hk).lruRep
              rwa [List.erase_append_right _ hkp, List.erase_cons_head, ← dropState_tbl,
                ← ht.beside.tbl] at this
            have hdown : ∀ j, j ≠ k → t.down j = s.down j := fun j hj => by
              obtain ⟨n, rfl, -⟩ := ht
              exact dropState_down s j hj
            have hseen : ∀ j, j ≠ k → t.tbl.seenAt j = s.tbl.seenAt j := fun j hj => by
              rw [SessTable.seenAt, ht.beside.tbl, dropState_tbl, s.tbl.dropped_core, if_neg hj]
            refine ih (ht.beside.ages (ages_dropState hk id h)) hrep (fun j hj => ?_)
              (fun j hj => ?_) hshorter
            · rw [hseen j (by rintro rfl; exact hkr hj)]
              exact hpast j (List.mem_cons_of_mem k hj)
            · rw [droppable_congr (hdown j (by rintro rfl; exact hkp hj))]
              exact hpassed j hj
          · refine ih (p := p ++ [k]) h (by simpa using hr)
              (fun j hj => hpast j (List.mem_cons_of_mem k hj)) (fun j hj => ?_) hshorter
            rcases List.mem_append.mp hj with hj | hj
            · exact hpassed j hj
            · rw [List.mem_singleton.mp hj]
              simpa using hd

/-- `bpf2socks_udp_session_expire_idle` from `s` reads the clock and then returns, whatever time was
read, and at that time no session that could be dropped is overdue any more. -/
def IdleFound (A : State → (q : Sys) → q.Ans → Prop) (s : State) : Prop :=
  ∃ walk : Nat → Prog Sys.Ans State Unit, sessionExpireIdle s = .ask s .nowMs walk ∧
    ∀ now, A s .nowMs now → Returns A (fun s' _ => NoneOverdue s' now) (walk now)

theorem Holding.idleFound (hclock : ∀ s (r : Sys.Ans .nowMs), A s .nowMs r → s.trace.clock ≤ r ∧
    r ≠ (0 : Nat)) (h : Holding Nobody s) : IdleFound A s := by
  refine ⟨_, rfl, fun now hnow => ?_⟩
  have hread := like_clock s now
  have ht : Holding Nobody { s with trace.clock := max s.trace.clock now } := hread.beside.ages h
  obtain ⟨lru, hs, hi, -⟩ := ht.sessions.whole
  show Returns A _ ((if now = 0 then pure () else _ : Worker Unit) _)
  rw [if_neg (hclock s now hnow).2]
  have hhead := hi.lruRep.head_eq ()
  show Returns A _ (expireIdleFrom now (s.tbl.cap + 1) (s.tbl.lru.head ()) _)
  rw [hhead]
  refine expireIdleFrom_returns (p := []) ht hi.lruRep (fun j hj => ?_) (by simp)
    (Nat.lt_succ_of_le hi.lru_length)
  refine Nat.le_trans ((ht.aged lru hi.lruRep).past j hj) ?_
  exact Nat.max_le.mpr ⟨(hclock s now hnow).1, Nat.le_refl _⟩

/-! ## The claims about runs -/

/-- The LRU is sorted by when its sessions were last seen. -/
def SessTable.SeenSorted (t : SessTable) : Prop :=
  t.lruList.Pairwise fun j k => t.seenAt j ≤ t.seenAt k

theorem seenSorted_of (hs : Sessions True s) (ha : Aged s) : s.tbl.SeenSorted := by
  obtain ⟨lru, l, hi, -⟩ := hs.whole
  unfold SessTable.SeenSorted
  rw [hi.lruList_eq]
  exact (ha lru hi.lruRep).sorted

/-- Whichever operation that sees or drops sessions is run next, the LRU is sorted after it. -/
structure OrderKept (A : State → (q : Sys) → q.Ans → Prop) (l : Loc) (s : State) : Prop where
  get : ∀ p, Sat A (fun s' _ => s'.tbl.SeenSorted) (sessionGet p (s.tbl.find p.clientAddr) s)
  queuePending : ∀ k dst payload cap, (s.tbl.core k).used = true →
    Sat A (fun s' _ => s'.tbl.SeenSorted) (sessionQueuePending k dst payload cap s)
  flushPending : ∀ k, (s.tbl.core k).used = true →
    Sat A (fun s' _ => s'.tbl.SeenSorted) (flushSessionPendingPackets k s)
  flushChannel : ∀ k id, (s.tbl.core k).used = true →
    Sat A (fun s' _ => s'.tbl.SeenSorted) (downlinkFlushChannel k id s)
  flushBatch : l = .upstream → Sat A (fun s' _ => s'.tbl.SeenSorted) (downlinkBatchFlush s)
  rawReply : l = .upstream → ∀ b fd m,
    Sat A (fun s' _ => s'.tbl.SeenSorted) (rawReply s.frame.session b fd m s)
  drop : ∀ k, Sat A (fun s' _ => s'.tbl.SeenSorted) (sessionDrop k s)

theorem replying_ages (hclock : Clock True A) : Replying A k (Ages (Only k)) where
  beside := Beside.ages
  seen _ _ hr := ages_seenSession hclock hr rfl

theorem Holding.seenSorted (h : Holding U s) : s.tbl.SeenSorted :=
  seenSorted_of h.sessions h.aged

theorem Holding.orderKept (hclock : Clock True A) (h : Holding Nobody s) (hat : AtLoc s l) :
    OrderKept A l s := by
  have hkeeps : ∀ {α : Type} {f : Worker α} {k}, (s.tbl.core k).used = true →
      Keeps A (Ages (Only k)) f → Sat A (fun s' _ => s'.tbl.SeenSorted) (f s) :=
    fun hu hf => (hf s).mono fun _ _ h' => (h' (h.only hu)).seenSorted
  have hanswers : l = .upstream → ∀ {α : Type} {f : Worker α},
      Keeps A (Answers s.frame.session) f → Sat A (fun s' _ => s'.tbl.SeenSorted) (f s) := by
    rintro rfl α f hf
    exact (hf s).mono fun _ _ h' => (h' ⟨h.only hat.2.1, hat.1⟩).1.seenSorted
  have hR := batching_answers hclock
  have hS : ∀ k, Seeing A k (Ages (Only k)) := fun _ => seeing_ages hclock rfl
  refine ⟨fun p => ?_, fun k dst payload cap hu => hkeeps hu (keeps_sessionQueuePending (hS k) dst
    payload cap), fun k hu => hkeeps hu (keeps_flushSessionPendingPackets (hS k)),
    fun k id hu => hkeeps hu
    ((replying_ages hclock).downlinkFlushChannel id), fun hl => hanswers hl hR.downlinkBatchFlush,
    fun hl b fd m => hanswers hl (hR.rawReply b fd m), fun k => ?_⟩
  · rcases hf : s.tbl.find p.clientAddr with _ | k
    · exact ((sessionGet_none_sat hclock h.sessions hf).and
        (sessionGet_none_aged hclock h hf)).mono fun _ _ h' => seenSorted_of h'.1.sessions h'.2
    · exact hkeeps (SessTable.of_find hf).1 (sessionGet_some_ages hclock k p)
  · exact (ages_sessionDrop id s).mono fun _ _ h' => (h' h).seenSorted

/-- With a clock that neither goes back nor reads zero, in every reachable state: the LRU is
sorted by when its sessions were last seen, and stays so across every operation that sees or drops
a session; looking for idle sessions leaves none that could be dropped and is overdue, in
particular where maintenance, which is `expireAll`, looks for them. -/
theorem idle_sessions_found
    (hclock : ∀ s (r : Sys.Ans .nowMs), A s .nowMs r → s.trace.clock ≤ r ∧ r ≠ (0 : Nat))
    (h : Reach A C cfg l s) :
    s.tbl.SeenSorted ∧ OrderKept A l s ∧ IdleFound A s ∧
      (l = .maintain → Sat A (fun t _ => IdleFound A t) (beforeExpireIdle s) ∧
        expireAll s = (beforeExpireIdle s).bind fun t _ =>
          (sessionExpireIdle t).bind fun u _ => afterExpireIdle u) := by
  have hc : Clock True A := fun _ s r hr => (hclock s r hr).1
  obtain ⟨hs, hat, -⟩ := h.sessions hc
  have hh : Holding Nobody s := h.holding hc
  refine ⟨hh.seenSorted, hh.orderKept hc hat, hh.idleFound hclock, fun _ => ⟨?_, ?_⟩⟩
  · exact (ages_beforeExpireIdle s).mono fun _ _ h' => (h' hh).idleFound hclock
  · rw [expireAll_eq]
    rfl

/-- The contract, and a clock that never goes back nor reads zero. -/
def okClock (s : State) (q : Sys) (r : q.Ans) : Bool :=
  okForward s q r && match q, r with
    | .nowMs, (t : Nat) => t ≠ 0
    | _, _ => true

/-- A run that opens a session, up to maintenance. -/
theorem idle_sessions_found_run :
    ∃ s, Reach (fun s q r => okClock s q r = true) (fun _ _ => True) calmConfig .maintain s ∧
      (s.tbl.count == 1) = true ∧ s.tbl.SeenSorted ∧
      Sat (fun s q r => okClock s q r = true)
        (fun t _ => IdleFound (fun s q r => okClock s q r = true) t) (beforeExpireIdle s) := by
  obtain ⟨l, s, h, hc⟩ := exists_reach (B := okClock) (E := fun _ _ => true)
    (A := fun s q r => okClock s q r = true) (C := fun _ _ => True)
    (g := calmConfig) (fun _ _ _ h => h) (fun _ _ _ => trivial)
    ([.wake [(.listener4, .input)], .run (receiving [datagramFrom clientA])] ++ steps 5)
    (fun l s => l.isMaintain && s.tbl.count == 1) (by decide +kernel)
  simp only [Bool.and_eq_true] at hc
  obtain rfl := Loc.eq_of_isMaintain hc.1
  have hclock : ∀ s (r : Sys.Ans .nowMs), okClock s .nowMs r = true →
      s.trace.clock ≤ r ∧ r ≠ (0 : Nat) := fun s r hr => by
    simp only [okClock, okForward, Bool.and_eq_true, decide_eq_true_eq] at hr
    exact ⟨hr.1.2, hr.2⟩
  obtain ⟨hsorted, -, -, hidle⟩ := idle_sessions_found hclock h
  exact ⟨s, h, hc.2, hsorted, (hidle rfl).1⟩

end Bpf2Socks.Udp
