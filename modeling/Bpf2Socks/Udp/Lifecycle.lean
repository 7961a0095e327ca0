/-
# Bpf2Socks.Udp.Lifecycle — the sessions across expiry, release and the handshake.

Every piece of code that works on sessions after they were opened is checked against `Evolve`:
expiry and release only drop sessions, sending what a client sent meanwhile only marks its session
as seen.  During the handshake a session is moved along the handshake list; that code is checked
against `Shake`, which in addition keeps track of the session not being established yet.
-/
import Bpf2Socks.Udp.Sessions

namespace Bpf2Socks.Udp

open Function (update update_self update_of_ne)
open Lib (Prog Act DLists)
open Lib.Prog Lib.Act
open Worker hiding get modify ask diverge

variable {A : State → (q : Sys) → q.Ans → Prop} {M : Prop} {U W D : Nat → Prop} {k : Nat}

/-! ## Expiry -/

/-- No session is due to be looked at again. -/
def forgetRetry (s : State) : State := { s with rel := { s.rel with retryDueMs := noDeadline } }

/-- A preorder that dropping sessions and the bookkeeping around it stay within. -/
structure Tolerant (A : State → (q : Sys) → q.Ans → Prop) (R : State → State → Prop) : Prop where
  like : ∀ {s s'}, Like s s' → R s s'
  rel : ∀ s (rel : Release), rel.armed = s.rel.armed → rel.retryDueMs = s.rel.retryDueMs →
    R s { s with rel := rel }
  note : ∀ s ms, R s (noteRetry s ms)
  postpone : ∀ s k ms, R s (noteRetry (setRetry s k ms) ms)
  settle : ∀ s k, R s (setRetry s k 0)
  drop : ∀ k, Keeps A R (sessionDrop k)

section Tolerant

variable {R : State → State → Prop} (hR : Tolerant A R)

include hR

theorem Tolerant.quiet {α : Type} {f : Worker α} (hf : Quiet A f) : Keeps A R f :=
  hf.imp hR.like

theorem Tolerant.flagPort (s : State) (port : UInt16) : R s (flagPort s port) :=
  hR.rel s _ rfl rfl

variable [IsPreorder State R]

theorem keeps_sessionControlEvent (k : Nat) (bits : Bits) :
    Keeps A R (sessionControlEvent k bits) := by
  have hhealthy : ∀ fd, Keeps A R (controlFdIsHealthy fd) := by
    intro fd
    refine (keeps_ask _).bind fun r => ?_
    cases r <;> exact keeps_pure _
  refine keeps_get.bind fun s => ?_
  split
  · exact keeps_pure _
  · refine Keeps.bind ?_ fun failed => keeps_ite (hR.drop k) (keeps_pure _)
    exact keeps_ite (keeps_pure _) (keeps_ite
      ((hhealthy _).bind fun _ => keeps_pure _) (keeps_pure _))

theorem keeps_expireHandshakesFrom (now fuel : Nat) :
    Keeps A R (expireHandshakesFrom now fuel) := by
  induction fuel with
  | zero => exact keeps_diverge
  | succ fuel ih =>
      refine keeps_get.bind fun s => ?_
      split
      · exact keeps_pure _
      · exact keeps_ite ((hR.quiet (quiet_count _ _)).bind fun _ =>
          (hR.drop _).bind fun _ => ih) (keeps_pure _)

theorem keeps_sessionExpireHandshakes (now : Nat) : Keeps A R (sessionExpireHandshakes now) :=
  keeps_get.bind fun _ => keeps_expireHandshakesFrom hR now _

theorem keeps_expireIdleFrom (now fuel : Nat) (cur : Option Nat) :
    Keeps A R (expireIdleFrom now fuel cur) := by
  induction fuel generalizing cur with
  | zero => exact keeps_diverge
  | succ fuel ih =>
      cases cur with
      | none => exact keeps_pure _
      | some k =>
          exact keeps_get.bind fun s => keeps_ite (keeps_pure _) (keeps_ite
            ((hR.drop k).bind fun _ => ih _) (ih _))

theorem keeps_sessionExpireIdle : Keeps A R sessionExpireIdle :=
  (hR.quiet quiet_nowMs).bind fun _ => keeps_ite (keeps_pure _)
    (keeps_get.bind fun _ => keeps_expireIdleFrom hR _ _ _)

/-! ## Release -/

theorem keeps_flagLocalFrom (fuel : Nat) (cur : Option Nat) :
    Keeps A R (flagLocalFrom fuel cur) := by
  induction fuel generalizing cur with
  | zero => exact keeps_diverge
  | succ fuel ih =>
      cases cur with
      | none => exact keeps_pure _
      | some k =>
          refine keeps_get.bind fun s => keeps_ite (keeps_ite ?_ (ih _)) (keeps_pure _)
          exact (keeps_modify fun s => hR.flagPort s _).bind fun _ => ih _

theorem keeps_releasePortHasSocket (memo : PortMemo) (port : UInt16) :
    Keeps A R (releasePortHasSocket memo port) := by
  unfold releasePortHasSocket
  split
  · exact keeps_pure _
  · exact (hR.quiet (quiet_count _ _)).bind fun _ => (keeps_ask _).bind fun _ => keeps_pure _

omit hR in
theorem keeps_tokenDeleteClosedClient (k : Nat) : Keeps A R (tokenDeleteClosedClient k) :=
  keeps_get.bind fun _ => keeps_forEach (fun _ => keeps_get.bind fun _ => keeps_ite
    ((keeps_ask _).bind fun _ => keeps_pure _) (keeps_pure _)) _

theorem keeps_releaseFlaggedFrom (now fuel : Nat) (cur : Option Nat) (memo : PortMemo) :
    Keeps A R (releaseFlaggedFrom now fuel cur memo) := by
  induction fuel generalizing cur memo with
  | zero => exact keeps_diverge
  | succ fuel ih =>
      cases cur with
      | none => exact keeps_pure _
      | some k =>
          refine keeps_get.bind fun s => keeps_ite (keeps_pure _) (keeps_ite (ih _ _)
            (keeps_ite ?_ ?_))
          · exact (keeps_modify fun s => hR.postpone s k _).bind fun _ => ih _ _
          · refine (keeps_releasePortHasSocket hR _ _).bind fun r => keeps_ite ?_ (ih _ _)
            exact (keeps_tokenDeleteClosedClient k).bind fun _ => (hR.drop k).bind fun _ =>
              (hR.quiet (quiet_count _ _)).bind fun _ => ih _ _

theorem keeps_releaseFlaggedSessions (now : Nat) : Keeps A R (releaseFlaggedSessions now) :=
  keeps_get.bind fun _ => (keeps_releaseFlaggedFrom hR _ _ _ _).bind fun _ =>
    keeps_modify fun s => hR.rel s _ rfl rfl

theorem keeps_releaseLost (now : Nat) : Keeps A R (releaseLost now) :=
  (hR.quiet (quiet_count _ _)).bind fun _ => (keeps_get.bind fun _ =>
    keeps_flagLocalFrom hR _ _).bind fun _ => keeps_modify fun s => hR.rel s _ rfl rfl

theorem keeps_releaseHandleEvents (now : Nat) : Keeps A R (releaseHandleEvents now) := by
  refine (keeps_ask _).bind fun r => (keeps_modify fun s => ?_).bind fun _ =>
    (hR.quiet (quiet_count _ _)).bind fun _ => keeps_ite (keeps_pure _)
    ((keeps_modify fun s => ?_).bind fun _ => keeps_ite ?_ (keeps_releaseFlaggedSessions hR now))
  · exact foldl_of_step (fun s p => hR.flagPort s p) _ s
  · split
    · exact hR.rel s _ rfl rfl
    · exact refl_of R s
  · exact (keeps_releaseLost hR now).bind fun _ => keeps_releaseFlaggedSessions hR now

theorem keeps_releaseRetryFrom (now fuel : Nat) (cur : Option Nat) (flagged : Bool) :
    Keeps A R (releaseRetryFrom now fuel cur flagged) := by
  induction fuel generalizing cur flagged with
  | zero => exact keeps_diverge
  | succ fuel ih =>
      cases cur with
      | none => exact keeps_pure _
      | some k =>
          refine keeps_get.bind fun s => keeps_ite (keeps_pure _) (keeps_ite (ih _ _)
            (keeps_ite ?_ ?_))
          · exact (keeps_modify fun s => hR.note s _).bind fun _ => ih _ _
          · refine (keeps_modify fun s => ?_).bind fun _ => ih _ _
            exact trans_of R (hR.settle s k) (hR.flagPort _ _)

theorem keeps_releaseRetry (hreset : ∀ s : State, R s (forgetRetry s)) (now : Nat) :
    Keeps A R (releaseRetry now) := by
  refine keeps_get.bind fun s => keeps_ite (keeps_pure _) ?_
  exact (keeps_modify hreset).bind fun _ => (keeps_releaseRetryFrom hR _ _ _ _).bind fun _ =>
    keeps_ite (keeps_releaseFlaggedSessions hR now) (keeps_pure _)

end Tolerant

theorem evolve_noteRetry (s : State) (ms : Nat) : Evolve M U W D s (noteRetry s ms) :=
  evolve_of_tbl rfl (Nat.le_refl _) rfl rfl rfl

theorem evolve_forgetRetry (s : State) : Evolve M U W D s (forgetRetry s) :=
  evolve_of_tbl rfl (Nat.le_refl _) rfl rfl rfl

theorem tolerant_evolve : Tolerant A (Evolve M Nobody Nobody Anyone) where
  like h := h.beside.evolve
  rel _ _ h _ := evolve_of_tbl rfl (Nat.le_refl _) rfl rfl h
  note := evolve_noteRetry
  postpone s k ms := (evolve_setRetry s k ms).trans (evolve_noteRetry _ ms)
  settle s k := evolve_setRetry s k 0
  drop _ := keeps_sessionDrop id id trivial

theorem keeps_releaseDisarmIfIdle : Keeps A (Evolve M U W D) releaseDisarmIfIdle := by
  intro s
  simp only [releaseDisarmIfIdle, bind_run, Worker.get_run, ret_bind, ite_run]
  split
  · exact Evolve.refl _ _ _ _ s
  · rename_i hidle
    have hlocal : s.tbl.localCount = 0 := by
      simp only [gt_iff_lt, Bool.or_eq_true, Bool.not_eq_true', decide_eq_true_eq, not_or] at hidle
      omega
    refine (keeps_epollModify (A := A) _ _ s).bind fun s' done hb => ?_
    cases done with
    | false => exact hb.evolve
    | true =>
        refine hb.evolve.trans (evolve_of_kept rfl (Nat.le_refl _) fun hs _ =>
          ⟨⟨hs.whole, hs.cap, hs.uid_lt, hs.uid_inj, Or.inr ?_⟩,
            fun _ => ⟨rfl, rfl, rfl, Iff.rfl, rfl⟩⟩)
        exact hb.tbl ▸ hlocal

/-! ## Uplink -/

/-- A preorder that marking session `k` as seen stays within, up to noise. -/
structure Seeing (A : State → (q : Sys) → q.Ans → Prop) (k : Nat)
    (R : State → State → Prop) : Prop where
  like : ∀ {s s'}, Like s s' → R s s'
  seen : ∀ s now, Read A s now → R s (seenSession s k now)

theorem seeing_evolve (hk : U k) : Seeing A k (Evolve M U W D) where
  like h := h.beside.evolve
  seen s now _ := evolve_seenSession s now hk

theorem keeps_socks5UdpSendmmsg (fd : Option Nat) (n : Nat) :
    Quiet A (socks5UdpSendmmsg fd n) := by
  cases fd <;> exact (keeps_ask _).bind fun _ => keeps_pure _

theorem quiet_relaySendFrom (j total fuel sentTotal oversized : Nat) :
    Quiet A (relaySendFrom j total fuel sentTotal oversized) := by
  induction fuel generalizing sentTotal oversized with
  | zero => exact keeps_diverge
  | succ fuel ih =>
      refine keeps_ite (keeps_get.bind fun s => (keeps_socks5UdpSendmmsg _ _).bind fun r => ?_)
        (keeps_pure _)
      split
      · exact keeps_pure _
      · exact ih _ _
      · exact keeps_ite (ih _ _) (keeps_ite (ih _ _) (keeps_ite
          ((quiet_count _ _).bind fun _ => keeps_pure _) (keeps_pure _)))

theorem quiet_relaySendBatch (j : Nat) (messages : List UpMsg) :
    Quiet A (relaySendBatch j messages) := by
  refine (keeps_ask _).bind fun _ => (quiet_relaySendFrom _ _ _ _ _).bind fun r => ?_
  split
  · exact keeps_pure _
  · exact (quiet_count _ _).bind fun _ => (quiet_count _ _).bind fun _ =>
      (quiet_count _ _).bind fun _ => keeps_pure _

theorem quiet_releaseSent (j n : Nat) : Quiet A (releaseSent j n) := by
  induction n with
  | zero => exact keeps_pure _
  | succ n ih =>
      refine keeps_get.bind fun s => ?_
      split
      · exact keeps_pure _
      · exact (keeps_modify fun s => like_finishPending s j _ _).bind fun _ =>
          (quiet_budgetRelease _).bind fun _ => ih

section Seeing

variable {R : State → State → Prop} [IsPreorder State R] (hR : Seeing A k R)

include hR

omit [IsPreorder State R] in
theorem Seeing.quiet {α : Type} {f : Worker α} (hf : Quiet A f) : Keeps A R f := hf.imp hR.like

theorem keeps_sessionQueuePending (dst : DstAddr) (payload : List UInt8) (cap : Nat) :
    Keeps A R (sessionQueuePending k dst payload cap) := by
  refine keeps_ite (keeps_pure _) ((hR.quiet (quiet_allocPendingPacket _)).bind fun r => ?_)
  cases r with
  | error e => exact keeps_pure _
  | ok _ =>
      refine (keeps_modify fun s => ?_).bind fun _ =>
        keeps_stamp hR.like hR.seen fun _ => keeps_pure _
      exact hR.like ((like_modUp s k _).trans (like_inProgress _ _))

theorem keeps_flushPendingFrom (fuel : Nat) : Keeps A R (flushPendingFrom k fuel) := by
  induction fuel with
  | zero => exact keeps_diverge
  | succ fuel ih =>
      refine keeps_get.bind fun s => keeps_ite (keeps_pure _)
        ((hR.quiet (quiet_relaySendBatch _ _)).bind fun sent => keeps_ite ?_ (keeps_pure _))
      exact keeps_stamp hR.like hR.seen fun _ => (hR.quiet (quiet_releaseSent _ _)).bind fun _ => ih

theorem keeps_flushSessionPendingPackets : Keeps A R (flushSessionPendingPackets k) :=
  keeps_get.bind fun _ => keeps_flushPendingFrom hR _

end Seeing

/-! ## The handshake -/

/-- From `s` to `s'` only the handshake of session `k` went on; it is not established yet. -/
structure Shake (M : Prop) (k : Nat) (s s' : State) : Prop where
  rest : s'.rest = s.rest
  clock : s.trace.clock ≤ s'.trace.clock
  stage : (s.tbl.core k).stage ≠ .ready → (s'.tbl.core k).stage ≠ .ready
  sessions : Sessions M s → (s.tbl.core k).used = true → (s.tbl.core k).stage ≠ .ready →
    Sessions M s' ∧ SameSession s s' k ∧ ∀ j, j ≠ k → Kept s s' j

theorem Shake.refl (M : Prop) (k : Nat) (s : State) : Shake M k s s :=
  ⟨rfl, Nat.le_refl _, id, fun h _ _ => ⟨h, ⟨rfl, rfl, rfl⟩, fun j _ => .refl s j⟩⟩

theorem Shake.trans {s t u : State} (h : Shake M k s t) (h' : Shake M k t u) :
    Shake M k s u := by
  refine ⟨h'.rest.trans h.rest, Nat.le_trans h.clock h'.clock, fun hst => h'.stage (h.stage hst),
    fun hs hu hst => ?_⟩
  obtain ⟨hs', hsame, hkept⟩ := h.sessions hs hu hst
  obtain ⟨hs'', hsame', hkept'⟩ := h'.sessions hs' (hsame.used.trans hu) (h.stage hst)
  exact ⟨hs'', hsame.trans hsame', fun j hj => (hkept j hj).trans (hkept' j hj)⟩

instance (M : Prop) (k : Nat) : IsPreorder State (Shake M k) where
  refl := Shake.refl M k
  trans _ _ _ := Shake.trans

/-- Seen from the handshake's end, its session was worked on. -/
theorem Shake.evolve {s s' : State} (h : Shake M k s s') (hst : (s.tbl.core k).stage ≠ .ready) :
    Evolve M (Only k) (Only k) D s s' := by
  refine ⟨h.rest, h.clock, fun hs hU => ?_⟩
  obtain ⟨hs', hsame, hkept⟩ := h.sessions hs (hU k rfl) hst
  exact ⟨hs', by rintro j rfl; exact hsame.used.trans (hU _ rfl), by rintro j rfl; exact hsame,
    fun j hj => Or.inl (hkept j hj)⟩

/-- Leaving the table and the other sessions' refs alone. -/
theorem shake_of_tbl {s s' : State} (hrest : s'.rest = s.rest)
    (hclock : s.trace.clock ≤ s'.trace.clock) (htbl : s'.tbl = s.tbl)
    (hrefs : ∀ j, j ≠ k → s'.refs j = s.refs j) (harmed : s'.rel.armed = s.rel.armed) :
    Shake M k s s' := by
  have hcfg : s'.cfg = s.cfg := congrArg Rest.cfg hrest
  have huid : s'.trace.nextUid = s.trace.nextUid := congrArg Rest.nextUid hrest
  refine ⟨hrest, hclock, fun hst => htbl ▸ hst, fun hs _ _ => ⟨?_, by constructor <;> rw [htbl],
    fun j hj => ⟨by rw [htbl], by rw [htbl], by rw [htbl], by rw [htbl], hrefs j hj⟩⟩⟩
  exact ⟨htbl ▸ hs.whole.later hclock, by rw [htbl, hcfg]; exact hs.cap,
    by rw [htbl, huid]; exact hs.uid_lt, by rw [htbl]; exact hs.uid_inj,
    by rw [htbl, harmed]; exact hs.armed⟩

theorem Beside.shake {s s' : State} (h : Beside s s') : Shake M k s s' := by
  have hrefs : s'.refs = s.refs := congrArg Outside.refs h.outside
  have hrel : s'.rel = s.rel := congrArg Outside.rel h.outside
  exact shake_of_tbl (Beside.evolve (M := M) (U := Nobody) (W := Nobody) (D := Nobody) h).rest h.clock h.tbl
    (fun j _ => by rw [hrefs]) (by rw [hrel])

theorem shake_modAssoc (s : State) (j : Nat) (f : Assoc → Assoc) :
    Shake M k s (s.modAssoc j f) :=
  shake_of_tbl rfl (Nat.le_refl _) rfl (fun _ _ => rfl) rfl

theorem shake_setStage (s : State) {stage : Stage} (hst : stage ≠ .ready) :
    Shake M k s (setStage s k stage) := by
  have used := update_field (c := s.tbl.core) (k := k) (a := { s.tbl.core k with stage })
    (π := SessCore.used) rfl
  have uid := update_field (c := s.tbl.core) (k := k) (a := { s.tbl.core k with stage })
    (π := SessCore.uid) rfl
  have start := update_field (c := s.tbl.core) (k := k) (a := { s.tbl.core k with stage })
    (π := SessCore.handshakeStartedMs) rfl
  refine ⟨rfl, Nat.le_refl _, fun _ => ?_, fun hs _ hold => ⟨?_, ?_, fun j hj => ?_⟩⟩
  · simp [setStage, State.modCore, hst]
  · obtain ⟨lru, l, hi, hl⟩ := hs.whole
    refine ⟨⟨lru, l, hi.setStage hold hst, ?_, ?_⟩, hs.cap, ?_, ?_, hs.armed⟩
    · exact fun j hj => (start j).symm ▸ hl.started_le j hj
    · exact fun hm => (hl.sorted hm).imp fun {a b} hab => by
        simpa only [setStage, State.modCore, start] using hab
    · intro j
      simp only [setStage, State.modCore, used, uid]
      exact hs.uid_lt
    · intro i j
      simp only [setStage, State.modCore, used, uid]
      exact hs.uid_inj
  · constructor <;> simp [setStage, State.modCore]
  · constructor <;> simp [setStage, State.modCore, hj]

/-- Moving a session to the end of the handshake list. -/
theorem shake_restart (s : State) {now : Nat} (hle : now ≤ s.trace.clock)
    (hmono : M → s.trace.clock = now) :
    Shake M k s { s with tbl := (s.tbl.handshakeRemove k).handshakeAddTail k now } := by
  have hcore : ∀ j, ((s.tbl.handshakeRemove k).handshakeAddTail k now).core j =
      if j = k then { s.tbl.core k with handshakeStartedMs := now, handshakeLinked := true }
      else s.tbl.core j := by
    intro j
    unfold SessTable.handshakeAddTail SessTable.handshakeRemove
    by_cases hj : j = k <;> split <;> simp [hj]
  have hcap : ((s.tbl.handshakeRemove k).handshakeAddTail k now).cap = s.tbl.cap := by
    unfold SessTable.handshakeAddTail SessTable.handshakeRemove
    split <;> rfl
  have hlocal : ((s.tbl.handshakeRemove k).handshakeAddTail k now).localCount =
      s.tbl.localCount := by
    unfold SessTable.handshakeAddTail SessTable.handshakeRemove
    split <;> rfl
  have hused : ∀ j, (((s.tbl.handshakeRemove k).handshakeAddTail k now).core j).used =
      (s.tbl.core j).used := fun j => by rw [hcore]; split <;> simp_all
  have huid : ∀ j, (((s.tbl.handshakeRemove k).handshakeAddTail k now).core j).uid =
      (s.tbl.core j).uid := fun j => by rw [hcore]; split <;> simp_all
  refine ⟨rfl, Nat.le_refl _, fun hold => ?_, fun hs hu hold => ⟨?_, ?_, fun j hj => ?_⟩⟩
  · simpa [hcore] using hold
  · obtain ⟨lru, l, hi, hl⟩ := hs.whole
    have hk : k ∈ l := hi.mem_hs.mpr ⟨hi.mem_lru.mpr ⟨hu, by simp⟩, hold⟩
    have hne : ∀ {j}, j ∈ l.erase k → j ≠ k := fun hj => (hi.hs_nodup.mem_erase_iff.mp hj).1
    -- the others started no later than now, so the end is the right place
    have hpast : ∀ j ∈ l.erase k, (s.tbl.core j).handshakeStartedMs ≤ s.trace.clock :=
      fun j hj => hl.started_le j (List.mem_of_mem_erase hj)
    refine ⟨⟨lru, _, hi.restart hk now, ?_, fun hm => ?_⟩, hcap.trans hs.cap, ?_, ?_, ?_⟩
    · intro j hj
      simp only [hcore]
      rcases List.mem_append.mp hj with hj | hj
      · rw [if_neg (hne hj)]
        exact hpast j hj
      · rw [if_pos (List.mem_singleton.mp hj)]
        exact hle
    · refine List.pairwise_append.mpr ⟨?_, List.pairwise_singleton _ _, ?_⟩
      · refine ((hl.sorted hm).sublist List.erase_sublist).imp_of_mem fun {a b} ha hb hab => ?_
        simp only [hcore, if_neg (hne ha), if_neg (hne hb)]
        exact hab
      · intro a ha b hb
        simp only [hcore, if_neg (hne ha), if_pos (List.mem_singleton.mp hb)]
        exact hmono hm ▸ hpast a ha
    · intro j
      simp only [hused, huid]
      exact hs.uid_lt
    · intro i j
      simp only [hused, huid]
      exact hs.uid_inj
    · exact hlocal.symm ▸ hs.armed
  · constructor <;> simp [hcore]
  · constructor <;> simp [hcore, hj]

/-- Answers of a clock that never goes back, if `M` says so. -/
def Clock (M : Prop) (A : State → (q : Sys) → q.Ans → Prop) : Prop :=
  M → ∀ s (r : Sys.Ans .nowMs), A s .nowMs r → s.trace.clock ≤ r

/-- With a clock that never goes back, the time just read is the latest. -/
theorem Read.clock (hclock : Clock True A) {s : State} {now : Nat} (h : Read A s now) :
    s.trace.clock = now := by
  obtain ⟨t, ht, hs⟩ := h
  exact hs.trans (Nat.max_eq_right (hclock trivial t now ht))

/-- Moving session `k` to the end of the handshake list, at the time just read. -/
def restartHandshake (k : Nat) : Worker Unit := do
  Worker.modify fun s => { s with tbl := s.tbl.handshakeRemove k }
  let now ← nowMs
  Worker.modify fun s => { s with tbl := s.tbl.handshakeAddTail k now }

/-- A preorder that the handshake of session `k` stays within. -/
structure Handshaken (A : State → (q : Sys) → q.Ans → Prop) (k : Nat)
    (R : State → State → Prop) : Prop where
  like : ∀ {s s'}, Like s s' → R s s'
  assoc : ∀ s f, R s (s.modAssoc k f)
  stage : ∀ s {stage}, stage ≠ .ready → R s (setStage s k stage)
  refs : ∀ s r, R s { s with refs := update s.refs k r }
  interest : ∀ s {r}, r = .control k ∨ r = .relay k → ∀ mask,
    R s { s with kern.interest := update s.kern.interest r mask }
  restart : Keeps A R (restartHandshake k)

section Handshaken

variable {R : State → State → Prop} [IsPreorder State R] (hR : Handshaken A k R)

include hR

theorem keeps_flushAssociateWriteFrom (fd fuel : Nat) :
    Keeps A R (flushAssociateWriteFrom k fd fuel) := by
  induction fuel with
  | zero => exact keeps_diverge
  | succ fuel ih =>
      refine keeps_get.bind fun s => keeps_ite ((keeps_ask _).bind fun r => ?_) ?_
      · split
        · exact ih
        · exact keeps_pure _
        · exact keeps_pure _
        · exact keeps_pure _
        · exact (keeps_modify fun s => hR.assoc s _).bind fun _ => ih
      · refine (keeps_modify fun s => ?_).bind fun _ => keeps_pure _
        exact trans_of R (hR.assoc s _) (hR.stage _ (by simp))

theorem keeps_readAssociateBytesFrom (fd fuel : Nat) :
    Keeps A R (readAssociateBytesFrom k fd fuel) := by
  induction fuel with
  | zero => exact keeps_diverge
  | succ fuel ih =>
      refine keeps_get.bind fun s => keeps_ite ((keeps_ask _).bind fun r => ?_) (keeps_pure _)
      split
      · exact ih
      · exact keeps_pure _
      · exact keeps_pure _
      · exact keeps_pure _
      · refine (keeps_modify fun s => hR.assoc s _).bind fun _ => keeps_get.bind fun s =>
          keeps_ite ?_ ih
        split
        · exact keeps_pure _
        · exact (keeps_modify fun s => hR.assoc s _).bind fun _ => ih

theorem keeps_readAssociateBytes (fd : Nat) : Keeps A R (readAssociateBytes k fd) :=
  (keeps_ask _).bind fun _ => keeps_readAssociateBytesFrom hR fd _

theorem keeps_readAssociateHello (fd : Nat) : Keeps A R (readAssociateHello k fd) := by
  refine (keeps_readAssociateBytes hR fd).bind fun r => keeps_ite (keeps_get.bind fun s =>
    keeps_ite ((keeps_modify fun s => ?_).bind fun _ => keeps_pure _) (keeps_pure _)) (keeps_pure _)
  exact trans_of R (hR.assoc s _) (hR.stage _ (by simp))

omit hR in
theorem keeps_socks5ParseBoundAddr (buf : List UInt8) : Keeps A R (socks5ParseBoundAddr buf) := by
  refine keeps_ite (keeps_pure _) ?_
  split
  · exact keeps_ite (keeps_pure _) (keeps_pure _)
  · exact keeps_ite (keeps_pure _) (keeps_pure _)
  · exact keeps_ite (keeps_pure _) ((keeps_ask _).bind fun _ => keeps_pure _)
  · exact keeps_pure _

theorem keeps_createAssociateRelaySocket : Keeps A R (createAssociateRelaySocket k) := by
  refine keeps_get.bind fun s => (keeps_socks5ParseBoundAddr _).bind fun parsed => ?_
  split
  · exact keeps_pure _
  · refine keeps_ite (keeps_pure _) ((keeps_ask _).bind fun r => ?_)
    split
    · exact keeps_pure _
    · exact (keeps_ask _).bind fun _ => (keeps_modify fun s => hR.assoc s _).bind fun _ =>
        keeps_pure _

/-- Registering or changing the registration of one of the session's descriptors. -/
theorem Handshaken.epollAdd {r : Ref} (hr : r = .control k ∨ r = .relay k) (mask : Bits) :
    Keeps A R (epollAdd r mask) := by
  refine (keeps_ask _).bind fun added => ?_
  cases added with
  | false => exact keeps_pure _
  | true => exact (keeps_modify fun s => hR.interest s hr _).bind fun _ => keeps_pure _

theorem Handshaken.epollModify {r : Ref} (hr : r = .control k ∨ r = .relay k) (mask : Bits) :
    Keeps A R (epollModify r mask) := by
  refine (keeps_ask _).bind fun done => ?_
  cases done with
  | false => exact keeps_pure _
  | true => exact (keeps_modify fun s => hR.interest s hr _).bind fun _ => keeps_pure _

theorem keeps_epollAddSessionControl (mask : Bits) :
    Keeps A R (epollAddSessionControl k mask) :=
  (keeps_modify fun s => hR.refs s _).bind fun _ => hR.epollAdd (Or.inl rfl) mask

theorem keeps_epollSwitchSessionToRelay : Keeps A R (epollSwitchSessionToRelay k) :=
  (hR.epollModify (Or.inl rfl) _).bind fun _ => keeps_ite
    ((keeps_modify fun s => hR.refs s _).bind fun _ => hR.epollAdd (Or.inr rfl) _) (keeps_pure _)

omit [IsPreorder State R] hR in
/-- A connection starts out connecting or connected, never established. -/
theorem keeps_associateOpen {α : Type} {g : Option (Nat × Stage) → Worker α}
    (hnone : Keeps A R (g none))
    (hsome : ∀ fd stage, stage ≠ .ready → Keeps A R (g (some (fd, stage)))) :
    Keeps A R (associateOpen >>= g) := by
  intro s r _
  rcases r with _ | ⟨fd, connected⟩
  · exact hnone s
  · exact hsome fd _ (by cases connected <;> simp) s

theorem keeps_restartAssociate : Keeps A R (restartAssociate k) := by
  refine (keeps_modify fun s => ?_).bind fun _ => ?_
  · exact trans_of R (hR.interest s (Or.inl rfl) none) (hR.assoc _ _)
  split
  · exact keeps_pure _
  · refine (keeps_modify fun s => hR.assoc s _).bind fun _ =>
      keeps_associateOpen (keeps_pure _) fun fd stage hst => ?_
    refine (keeps_modify fun s => ?_).bind fun _ => ?_
    · exact trans_of R (hR.assoc s _) (hR.stage _ hst)
    · intro s
      exact (hR.restart s).bind fun s' _ h =>
        (keeps_epollAddSessionControl hR _ s').mono fun _ _ h' => trans_of R h h'

end Handshaken

theorem handshaken_shake (hclock : Clock M A) : Handshaken A k (Shake M k) where
  like h := h.beside.shake
  assoc s f := shake_modAssoc s k f
  stage := shake_setStage
  refs _ _ := shake_of_tbl rfl (Nat.le_refl _) rfl (fun _ hj => update_of_ne hj _ _) rfl
  interest _ _ _ _ := shake_of_tbl rfl (Nat.le_refl _) rfl (fun _ _ => rfl) rfl
  restart := by
    intro s now hnow
    refine Shake.trans (t := { s with trace.clock := max s.trace.clock now }) ?_
      (shake_restart _ (Nat.le_max_right _ _) fun hm => ?_)
    · exact (like_clock s now).beside.shake
    · exact Nat.max_eq_right (hclock hm { s with tbl := s.tbl.handshakeRemove k } now hnow)

/-! ## Establishing the association -/

/-- Completing the association takes the session off the handshake list. -/
theorem evolve_setReady (s : State) :
    Evolve M (Only k) (Only k) D s { setStage s k .ready with
      tbl := (setStage s k .ready).tbl.handshakeRemove k } := by
  have hcore : ∀ j, ((setStage s k .ready).tbl.handshakeRemove k).core j =
      if j = k then { s.tbl.core k with stage := .ready, handshakeLinked := false }
      else s.tbl.core j := by
    intro j
    unfold SessTable.handshakeRemove
    split
    · by_cases hj : j = k <;> simp [setStage, State.modCore, hj]
    · rename_i hl
      simp only [setStage, State.modCore, update_self, Bool.not_eq_true] at hl
      by_cases hj : j = k
      · simp [setStage, State.modCore, hj, ← hl]
      · simp [setStage, State.modCore, hj]
  have hcap : ((setStage s k .ready).tbl.handshakeRemove k).cap = s.tbl.cap := by
    unfold SessTable.handshakeRemove
    split <;> rfl
  have hlocal : ((setStage s k .ready).tbl.handshakeRemove k).localCount = s.tbl.localCount := by
    unfold SessTable.handshakeRemove
    split <;> rfl
  have hused : ∀ j, (((setStage s k .ready).tbl.handshakeRemove k).core j).used =
      (s.tbl.core j).used := fun j => by rw [hcore]; split <;> simp_all
  have huid : ∀ j, (((setStage s k .ready).tbl.handshakeRemove k).core j).uid =
      (s.tbl.core j).uid := fun j => by rw [hcore]; split <;> simp_all
  have hstart : ∀ j, (((setStage s k .ready).tbl.handshakeRemove k).core j).handshakeStartedMs =
      (s.tbl.core j).handshakeStartedMs := fun j => by rw [hcore]; split <;> simp_all
  refine ⟨rfl, Nat.le_refl _, fun hs hU => ⟨?_, fun j hj => (hused j).trans (hU j hj), ?_,
    fun j hj => Or.inl ?_⟩⟩
  · obtain ⟨lru, l, hi, hl⟩ := hs.whole
    refine ⟨⟨lru, _, hi.setReady k, fun j hj => ?_, fun hm => ?_⟩, hcap.trans hs.cap, ?_, ?_,
      hlocal.symm ▸ hs.armed⟩
    · exact (hstart j).symm ▸ hl.started_le j (List.mem_of_mem_erase hj)
    · exact ((hl.sorted hm).sublist List.erase_sublist).imp fun {a b} hab => by
        simpa only [hstart] using hab
    · intro j
      simp only [hused, huid]
      exact hs.uid_lt
    · intro i j
      simp only [hused, huid]
      exact hs.uid_inj
  · rintro j rfl
    constructor <;> simp [hcore]
  · have hj' : ((setStage s k .ready).tbl.handshakeRemove k).core j = s.tbl.core j := by
      rw [hcore, if_neg hj]
    exact ⟨by rw [hj'], by rw [hj'], by rw [hj'], by rw [hj'], rfl⟩

/-- Code from a session that is not established ends `S`-above. -/
abbrev Completes {α : Type} (S : State → State → Prop) (A : State → (q : Sys) → q.Ans → Prop)
    (k : Nat) (f : Worker α) : Prop :=
  ∀ s, (s.tbl.core k).stage ≠ .ready → Sat A (fun s' _ => S s s') (f s)

/-- Handshake code within `R` that may end with the session established, within `S`. -/
structure Completing (k : Nat) (R S : State → State → Prop) : Prop where
  stage : ∀ {s s'}, R s s' → (s.tbl.core k).stage ≠ .ready → (s'.tbl.core k).stage ≠ .ready
  lift : ∀ {s s'}, R s s' → (s.tbl.core k).stage ≠ .ready → S s s'

theorem Completes.ite {α : Type} {S : State → State → Prop} {c : Prop} [Decidable c]
    {f g : Worker α} (hf : Completes S A k f) (hg : Completes S A k g) :
    Completes S A k (if c then f else g) := by
  split
  · exact hf
  · exact hg

section Completing

variable {R S : State → State → Prop} [IsPreorder State R] [IsPreorder State S]
  (hR : Handshaken A k R) (hS : Completing k R S)

include hS

omit [IsPreorder State R] [IsPreorder State S] in
theorem Completing.of_keeps {α : Type} {f : Worker α} (hf : Keeps A R f) :
    Completes S A k f := fun s hst => (hf s).mono fun _ _ h => hS.lift h hst

omit [IsPreorder State R] in
/-- Handshake code followed by more of it. -/
theorem Completing.bind {α β : Type} {f : Worker α} {g : α → Worker β} (hf : Keeps A R f)
    (hg : ∀ a, Completes S A k (g a)) : Completes S A k (f >>= g) := fun s hst =>
  (hf s).bind fun s' a h =>
    (hg a s' (hS.stage h hst)).mono fun _ _ h' => trans_of S (hS.lift h hst) h'

variable (hcomplete : Completes S A k (completeAssociate k))

include hR hcomplete

theorem completes_advanceResponse (fd : Nat) (bits : Bits) :
    Completes S A k (advanceResponse k fd bits) := by
  refine hS.bind keeps_get fun s => Completes.ite ?_ (hS.of_keeps (keeps_pure _))
  refine hS.bind (keeps_readAssociateBytes hR fd) fun r => ?_
  split
  · exact hS.of_keeps (keeps_pure _)
  · exact hS.of_keeps (keeps_pure _)
  · exact hcomplete

theorem completes_advanceHello (fd : Nat) (bits : Bits) :
    Completes S A k (advanceHello k fd bits) := by
  have hresponse := completes_advanceResponse hR hS hcomplete fd bits
  refine hS.bind keeps_get fun s => Completes.ite ?_ hresponse
  refine hS.bind (keeps_readAssociateHello hR fd) fun r => ?_
  split
  · exact hS.of_keeps (keeps_pure _)
  · exact hS.of_keeps (keeps_pure _)
  · exact hresponse

theorem completes_advanceWrite (fd : Nat) (bits : Bits) :
    Completes S A k (advanceWrite k fd bits) := by
  have hhello := completes_advanceHello hR hS hcomplete fd bits
  refine hS.bind keeps_get fun s => Completes.ite ?_ hhello
  refine hS.bind ((keeps_ask _).bind fun _ => keeps_flushAssociateWriteFrom hR fd _) fun r => ?_
  split
  · exact hS.of_keeps (keeps_pure _)
  · exact hhello
  · exact hS.bind (hR.epollModify (Or.inl rfl) _) fun _ =>
      Completes.ite hhello (hS.of_keeps (keeps_pure _))

theorem completes_associateAdvance (bits : Bits) :
    Completes S A k (associateAdvance k bits) := by
  have hwrite := fun fd => completes_advanceWrite hR hS hcomplete fd bits
  refine hS.bind keeps_get fun s => Completes.ite (hS.of_keeps (keeps_pure _))
    (Completes.ite ?_ (hwrite _))
  refine hS.bind (keeps_ask _) fun _ => Completes.ite ?_ (hS.of_keeps (keeps_pure _))
  exact hS.bind (keeps_modify fun s => hR.stage s (by simp)) fun _ => hwrite _

end Completing

/-- Handshake code within `R`, and what follows it when the association is made, within `S`. -/
structure Establishing (A : State → (q : Sys) → q.Ans → Prop) (k : Nat)
    (R S : State → State → Prop) : Prop extends Completing k R S, Seeing A k S where
  established : ∀ s, S s { setStage s k .ready with
    tbl := (setStage s k .ready).tbl.handshakeRemove k }

section Establishing

variable {R S : State → State → Prop} [IsPreorder State R] [IsPreorder State S]
  (hR : Handshaken A k R) (hS : Establishing A k R S)

include hR hS

theorem completes_establishAssociate : Completes S A k (establishAssociate k) := by
  refine hS.bind (keeps_epollSwitchSessionToRelay hR) fun _ s _ => ?_
  have hkeeps : Keeps A S _ :=
    (keeps_modify fun s => hS.established s).bind fun _ =>
      (hS.quiet (quiet_count .udpAssociateCreates 1)).bind fun _ =>
      keeps_flushSessionPendingPackets hS.toSeeing
  exact keeps_ite hkeeps (keeps_pure _) s

theorem completes_completeAssociate : Completes S A k (completeAssociate k) := by
  have hest := completes_establishAssociate hR hS
  have hC := hS.toCompleting
  refine hC.bind (keeps_createAssociateRelaySocket hR) fun _ => Completes.ite ?_
    (hC.of_keeps (keeps_pure _))
  refine hC.bind keeps_get fun s => Completes.ite ?_ hest
  refine hC.bind (keeps_ask _) fun _ => Completes.ite ?_ ?_
  · exact hC.bind (keeps_modify fun s => hR.assoc s _) fun _ => hest
  · refine hC.bind ((quiet_count _ _).imp hR.like) fun _ => Completes.ite ?_ hest
    exact hC.bind (keeps_modify fun s => hR.assoc s _) fun _ =>
      hC.of_keeps (keeps_restartAssociate hR)

end Establishing

theorem establishing_evolve : Establishing A k (Shake M k) (Evolve M (Only k) (Only k) D) where
  stage h := h.stage
  lift h := h.evolve
  toSeeing := seeing_evolve rfl
  established := evolve_setReady

end Bpf2Socks.Udp
