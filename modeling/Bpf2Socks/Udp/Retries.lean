/-
# Bpf2Socks.Udp.Retries — the time of the next retry is known.

`release_retry_due_ms` is meant to be the earliest `release_retry_ms` of any session.  It is
lowered whenever a session is given such a time, and raised only by `bpf2socks_udp_release_retry`,
which forgets it and notes every time it meets along the LRU.  In between sessions are dropped and
their slots filled again, which leaves it too early at worst.

`RetryNoted` says that it is never too late.  Every piece of code keeps it from any state; only the
walk needs to know that the LRU holds every session in use.
-/
import Bpf2Socks.Udp.IdleSessions

namespace Bpf2Socks.Udp

open Function (update update_self update_of_ne)
open Lib (Prog Act DLists)
open Lib.Prog Lib.Act
open Worker hiding get modify ask diverge

variable {A : State → (q : Sys) → q.Ans → Prop} {C : Loc → State → Prop} {cfg : WorkerConfig}
  {k : Nat} {l : Loc} {s s' t : State}

/-- A session's `release_retry_ms`. -/
abbrev State.retryAt (s : State) (k : Nat) : Nat := (s.tbl.core k).releaseRetryMs

/-- No session in use is to be looked at again earlier than the worker knows. -/
def RetryNoted (s : State) : Prop :=
  ∀ k, (s.tbl.core k).used = true → s.retryAt k ≠ 0 → s.rel.retryDueMs ≤ s.retryAt k

/-- From `s` to `s'` no retry was forgotten. -/
def NotesRetry (s s' : State) : Prop := RetryNoted s → RetryNoted s'

instance : IsPreorder State NotesRetry where
  refl _ := id
  trans _ _ _ h h' := h' ∘ h

/-- No session was given a retry time, and the worker looks no later. -/
theorem notesRetry_of (hdue : s'.rel.retryDueMs ≤ s.rel.retryDueMs)
    (hcore : ∀ j, s'.retryAt j = 0 ∨
      (s'.tbl.core j).used = (s.tbl.core j).used ∧ s'.retryAt j = s.retryAt j) :
    NotesRetry s s' := by
  intro h j hu hr
  rcases hcore j with h0 | ⟨hused, heq⟩
  · exact absurd h0 hr
  · rw [heq] at hr ⊢
    exact Nat.le_trans hdue (h j (hused ▸ hu) hr)

theorem notesRetry_of_tbl (htbl : s'.tbl = s.tbl) (hdue : s'.rel.retryDueMs ≤ s.rel.retryDueMs) :
    NotesRetry s s' := notesRetry_of hdue fun j => Or.inr ⟨by rw [htbl], by rw [State.retryAt, htbl]⟩

theorem Beside.notesRetry (h : Beside s s') : NotesRetry s s' := by
  have hrel : s'.rel = s.rel := congrArg Outside.rel h.outside
  exact notesRetry_of_tbl h.tbl (Nat.le_of_eq (by rw [hrel]))

theorem NotesRetry.quiet {α : Type} {f : Worker α} (hf : Quiet A f) : Keeps A NotesRetry f :=
  hf.imp fun h => h.beside.notesRetry

theorem NotesRetry.beside {α : Type} {f : Worker α} (hf : Keeps A Beside f) :
    Keeps A NotesRetry f := hf.imp Beside.notesRetry

/-- Changing other fields of a session's record. -/
theorem notesRetry_modCore {f : SessCore → SessCore} (hu : ∀ c, (f c).used = c.used)
    (hr : ∀ c, (f c).releaseRetryMs = c.releaseRetryMs) : NotesRetry s (s.modCore k f) :=
  notesRetry_of (Nat.le_refl _) fun j =>
    Or.inr ⟨update_field (π := SessCore.used) (hu _) j,
      update_field (π := SessCore.releaseRetryMs) (hr _) j⟩

theorem notesRetry_seenSession (s : State) (k now : Nat) :
    NotesRetry s (seenSession s k now) := by
  refine notesRetry_of (Nat.le_refl _) fun j => Or.inr ?_
  by_cases hj : j = k <;>
    simp [State.retryAt, seenSession, State.modCore, SessTable.lruTouch, hj]

theorem notesRetry_setStage (s : State) (k : Nat) (stage : Stage) :
    NotesRetry s (setStage s k stage) :=
  notesRetry_modCore (fun _ => rfl) fun _ => rfl

theorem notesRetry_noteLookupMode (s : State) (k : Nat) (mode : LookupMode) :
    NotesRetry s (noteLookupMode s k mode) := by
  unfold noteLookupMode
  split
  · exact refl_of NotesRetry s
  · exact notesRetry_modCore (fun _ => rfl) fun _ => rfl

theorem notesRetry_handshakeRemove (s : State) (k : Nat) :
    NotesRetry s { s with tbl := s.tbl.handshakeRemove k } := by
  unfold SessTable.handshakeRemove
  split
  · refine notesRetry_of (Nat.le_refl _) fun j => Or.inr ?_
    by_cases hj : j = k <;> simp [State.retryAt, hj]
  · exact refl_of NotesRetry s

theorem notesRetry_handshakeAddTail (s : State) (k now : Nat) :
    NotesRetry s { s with tbl := s.tbl.handshakeAddTail k now } := by
  refine notesRetry_of (Nat.le_refl _) fun j => Or.inr ?_
  by_cases hj : j = k <;> simp [State.retryAt, SessTable.handshakeAddTail, hj]

/-- A cleared record has no retry time. -/
theorem notesRetry_clearSession (s : State) (k : Nat) : NotesRetry s (clearSession s k) := by
  refine notesRetry_of (Nat.le_refl _) fun j => ?_
  by_cases hj : j = k
  · exact Or.inl (by simp [State.retryAt, clearSession, SessCore.zero, hj])
  · exact Or.inr (by simp [State.retryAt, clearSession, hj])

theorem notesRetry_initSession (s : State) (k : Nat) (p : ClientPacket) :
    NotesRetry s (initSession s k p) := by
  refine notesRetry_of (Nat.le_refl _) fun j => ?_
  by_cases hj : j = k
  · exact Or.inl (by simp [State.retryAt, initSession, State.modCore, clearSession, SessCore.zero, hj])
  · exact Or.inr (by simp [State.retryAt, initSession, State.modCore, clearSession, hj])

theorem notesRetry_dropState (s : State) (k : Nat) : NotesRetry s (dropState s k) := by
  refine notesRetry_of (Nat.le_of_eq (by rw [dropState_armed])) fun j => ?_
  rw [State.retryAt, dropState_tbl, s.tbl.dropped_core]
  by_cases hj : j = k
  · exact Or.inl (by rw [if_pos hj]; rfl)
  · rw [if_neg hj]
    exact Or.inr ⟨rfl, rfl⟩

theorem notesRetry_sessionDrop (k : Nat) : Keeps A NotesRetry (sessionDrop k) := by
  intro s
  by_cases hu : (s.tbl.core k).used = true
  · exact (sessionDrop_sat hu).mono fun s' _ h =>
      trans_of NotesRetry (notesRetry_dropState s k) (Like.beside h).notesRetry
  · rw [sessionDrop_unused (Bool.eq_false_iff.mpr hu)]
    exact refl_of NotesRetry s

theorem notesRetry_sessionClose (k : Nat) : Keeps A NotesRetry (sessionClose k) := by
  intro s
  by_cases hu : (s.tbl.core k).used = true
  · refine (sessionClose_sat hu).mono fun s' _ h => ?_
    obtain ⟨u, hb, heq⟩ := closeState_beside s k
    rw [heq] at h
    refine trans_of NotesRetry hb.notesRetry ?_
    exact trans_of NotesRetry (notesRetry_clearSession u k) (Like.beside h).notesRetry
  · show Sat A _ ((if (s.tbl.core k).used then _ else pure () : Worker Unit) s)
    rw [if_neg hu]
    exact refl_of NotesRetry s

/-! ## Retry times -/

theorem notesRetry_noteRetry (s : State) (ms : Nat) : NotesRetry s (noteRetry s ms) :=
  notesRetry_of_tbl rfl (Nat.min_le_left _ _)

/-- A session is given a retry time and the worker notes it. -/
theorem notesRetry_postpone (s : State) (k ms : Nat) :
    NotesRetry s (noteRetry (setRetry s k ms) ms) := by
  intro h j hu hr
  by_cases hj : j = k
  · subst hj
    have heq : (noteRetry (setRetry s j ms) ms).retryAt j = ms := by
      simp [State.retryAt, noteRetry, setRetry, State.modCore]
    rw [heq]
    exact Nat.min_le_right _ _
  · have hcore : (noteRetry (setRetry s k ms) ms).tbl.core j = s.tbl.core j := by
      simp [noteRetry, setRetry, State.modCore, hj]
    rw [State.retryAt, hcore] at hr ⊢
    rw [hcore] at hu
    exact Nat.le_trans (Nat.min_le_left _ _) (h j hu hr)

theorem notesRetry_settle (s : State) (k : Nat) : NotesRetry s (setRetry s k 0) := by
  refine notesRetry_of (Nat.le_refl _) fun j => ?_
  by_cases hj : j = k <;> simp [State.retryAt, setRetry, State.modCore, hj]

theorem notesRetry_releaseNoteNewSession (s : State) (k now : Nat) :
    NotesRetry s (releaseNoteNewSession s k now) := by
  unfold releaseNoteNewSession
  dsimp only
  split
  · split
    · exact refl_of NotesRetry s
    · exact notesRetry_postpone s k _
  · exact refl_of NotesRetry s

theorem tolerant_notesRetry : Tolerant A NotesRetry where
  like h := h.beside.notesRetry
  rel _ _ _ h := notesRetry_of_tbl rfl (Nat.le_of_eq h)
  note := notesRetry_noteRetry
  postpone := notesRetry_postpone
  settle := notesRetry_settle
  drop := notesRetry_sessionDrop

/-! ## Replies, uplink, handshake -/

theorem batching_notesRetry : Batching A fun _ => NotesRetry where
  replying k := ⟨Beside.notesRetry, fun s now _ => notesRetry_seenSession s k now⟩
  shorten _ s n := by
    show NotesRetry s (dropBatch s n)
    exact notesRetry_of_tbl rfl (Nat.le_refl _)
  start _ _ := notesRetry_of_tbl rfl (Nat.le_refl _)
  append _ s b fd pk m := by
    show NotesRetry s (appendBatch s _ b fd pk m)
    exact notesRetry_of_tbl rfl (Nat.le_refl _)
  other _ _ h := h

theorem seeing_notesRetry : Seeing A k NotesRetry where
  like h := h.beside.notesRetry
  seen s now _ := notesRetry_seenSession s k now

/-- From `s` to `s'` the handshake of session `k` went on: it is not established, and no retry was
forgotten. -/
structure Shaking (k : Nat) (s s' : State) : Prop where
  notes : NotesRetry s s'
  stage : (s.tbl.core k).stage ≠ .ready → (s'.tbl.core k).stage ≠ .ready

instance (k : Nat) : IsPreorder State (Shaking k) where
  refl _ := ⟨id, id⟩
  trans _ _ _ h h' := ⟨h'.notes ∘ h.notes, h'.stage ∘ h.stage⟩

theorem shaking_of_tbl (htbl : s'.tbl = s.tbl) (hdue : s'.rel = s.rel) : Shaking k s s' :=
  ⟨notesRetry_of_tbl htbl (Nat.le_of_eq (by rw [hdue])), by rw [htbl]; exact id⟩

theorem Beside.shaking (h : Beside s s') : Shaking k s s' :=
  shaking_of_tbl h.tbl (congrArg Outside.rel h.outside)

theorem shaking_handshakeRemove (s : State) (k : Nat) :
    Shaking k s { s with tbl := s.tbl.handshakeRemove k } := by
  refine ⟨notesRetry_handshakeRemove s k, ?_⟩
  unfold SessTable.handshakeRemove
  split
  · simp
  · exact id

theorem handshaken_shaking : Handshaken A k (Shaking k) where
  like h := h.beside.shaking
  assoc _ _ := shaking_of_tbl rfl rfl
  stage s stage hst := ⟨notesRetry_setStage s k stage, fun _ => by simpa [setStage, State.modCore]⟩
  refs _ _ := shaking_of_tbl rfl rfl
  interest _ _ _ _ := shaking_of_tbl rfl rfl
  restart := (keeps_modify fun s => shaking_handshakeRemove s k).bind fun _ =>
    (quiet_nowMs.imp fun h => h.beside.shaking).bind fun now =>
    keeps_modify fun s => ⟨notesRetry_handshakeAddTail s k now, by
      simp [SessTable.handshakeAddTail]⟩

theorem establishing_notesRetry : Establishing A k (Shaking k) NotesRetry where
  stage h := h.stage
  lift h _ := h.notes
  toSeeing := seeing_notesRetry
  established s := trans_of NotesRetry (notesRetry_setStage s k .ready)
    (notesRetry_handshakeRemove (setStage s k .ready) k)

/-! ## Opening a session -/

/-- Changing nothing but what no session depends on. -/
theorem notesRetry_modify {F : State → State} (htbl : ∀ s, (F s).tbl = s.tbl)
    (hrel : ∀ s, (F s).rel.retryDueMs = s.rel.retryDueMs) : Keeps A NotesRetry (Worker.modify F) :=
  keeps_modify fun s => notesRetry_of_tbl (htbl s) (Nat.le_of_eq (hrel s))

theorem notesRetry_releaseArm (now : Nat) : Keeps A NotesRetry (releaseArm now) := by
  refine (NotesRetry.beside (keeps_epollModify _ _)).bind fun _ => ?_
  refine Keeps.bind (notesRetry_modify (fun _ => rfl) fun _ => rfl) fun _ => ?_
  exact keeps_releaseHandleEvents tolerant_notesRetry now

theorem notesRetry_allocSession (n : Nat) : Keeps A NotesRetry (allocSession n) := by
  induction n with
  | zero => exact keeps_diverge
  | succ n ih =>
      refine keeps_get.bind fun s => ?_
      split
      · refine (keeps_modify fun s => ?_).bind fun _ => keeps_pure _
        exact notesRetry_of (Nat.le_refl _) fun _ => Or.inr ⟨rfl, rfl⟩
      · split
        · exact keeps_diverge
        · exact keeps_pure _
        · exact (notesRetry_sessionDrop _).bind fun _ =>
            (NotesRetry.quiet (quiet_count _ _)).bind fun _ => ih

theorem notesRetry_abandonSession (k : Nat) : Keeps A NotesRetry (abandonSession k) :=
  (notesRetry_sessionClose k).bind fun _ =>
    keeps_modify fun _ => notesRetry_of (Nat.le_refl _) fun _ => Or.inr ⟨rfl, rfl⟩

theorem notesRetry_attach (s : State) (k : Nat) :
    NotesRetry s { s with tbl := s.tbl.attach k } := by
  refine notesRetry_of (Nat.le_refl _) fun j => Or.inr ?_
  by_cases hj : j = k <;> simp [State.retryAt, SessTable.attach, SessTable.handshakeAddTail, hj]

theorem notesRetry_linkSession (k fd : Nat) (stage : Stage) :
    Keeps A NotesRetry (linkSession k fd stage) := by
  refine Keeps.bind (keeps_modify fun s => ?_) fun _ =>
    (keeps_modify fun s => notesRetry_attach s k).bind fun _ => ?_
  · exact notesRetry_setStage (s.modAssoc k _) k stage
  · have hadd : Keeps A NotesRetry (epollAddSessionControl k handshakeBits) :=
      (keeps_epollAddSessionControl handshaken_shaking _).imp Shaking.notes
    refine hadd.bind fun added => keeps_ite ?_ ?_
    · exact (keeps_modify fun s => notesRetry_releaseNoteNewSession s k _).bind fun _ =>
        keeps_pure _
    · exact (notesRetry_sessionDrop k).bind fun _ => keeps_pure _

theorem notesRetry_connectSession (k : Nat) : Keeps A NotesRetry (connectSession k) := by
  have hgive : Keeps A NotesRetry (do abandonSession k; pure none : Worker (Option Nat)) :=
    (notesRetry_abandonSession k).bind fun _ => keeps_pure _
  unfold connectSession
  split
  · exact hgive
  · refine Keeps.bind (notesRetry_modify (fun _ => rfl) fun _ => rfl) fun _ => ?_
    exact (keeps_ask _).bind fun r => match r with
      | none => hgive
      | some (fd, connected) => notesRetry_linkSession k fd _

theorem notesRetry_openSession (k : Nat) (p : ClientPacket) :
    Keeps A NotesRetry (openSession k p) := by
  refine Keeps.bind (keeps_modify fun s => notesRetry_initSession s k p) fun _ => ?_
  refine (NotesRetry.quiet quiet_nowMs).bind fun now => Keeps.bind (keeps_modify fun s => ?_)
    fun _ => notesRetry_connectSession k
  exact notesRetry_modCore (fun _ => rfl) fun _ => rfl

theorem notesRetry_sessionGet (p : ClientPacket) (existing : Option Nat) :
    Keeps A NotesRetry (sessionGet p existing) := by
  rcases existing with _ | k
  · have hopen : Keeps A NotesRetry (allocOpen p) := by
      refine (notesRetry_allocSession 2).bind fun r => ?_
      cases r with
      | none => exact keeps_pure _
      | some k => exact notesRetry_openSession k p
    refine (NotesRetry.quiet (quiet_count _ _)).bind fun _ => keeps_get.bind fun s => ?_
    refine keeps_ite ?_ hopen
    exact (NotesRetry.quiet quiet_nowMs).bind fun now =>
      (notesRetry_releaseArm now).bind fun _ => hopen
  · refine (NotesRetry.quiet quiet_nowMs).bind fun now => Keeps.bind (keeps_modify fun s => ?_)
      fun _ => (NotesRetry.quiet (quiet_count _ _)).bind fun _ =>
        (NotesRetry.quiet (quiet_count _ _)).bind fun _ => keeps_pure _
    exact trans_of NotesRetry (notesRetry_seenSession s k now)
      (notesRetry_noteLookupMode (seenSession s k now) k _)

/-! ## Client datagrams -/

theorem notesRetry_clientReceive (fd : Nat) : Keeps A NotesRetry (clientReceive fd) := by
  refine keeps_get.bind fun s => (keeps_ask _).bind fun r => ?_
  split
  · exact keeps_pure _
  · refine (NotesRetry.quiet quiet_nowMs).bind fun now =>
      (NotesRetry.quiet (quiet_dnsStep _)).bind fun _ => ?_
    exact Keeps.bind (notesRetry_modify (fun _ => rfl) fun _ => rfl) fun _ => keeps_pure _

theorem notesRetry_clientResolved (p : ClientPacket) (existing : Option Nat) :
    Keeps A NotesRetry (clientResolved p existing) := by
  have hrest : Keeps A NotesRetry (do
      let s ← Worker.get
      if dnsIsCandidate s.cfg p then
        let taken ← dnsStep (.prepareQuery p s.frame.nowMs)
        pure (if taken then .clientPacket else .clientSession p existing)
      else pure (.clientSession p existing) : Worker Loc) :=
    keeps_get.bind fun s => keeps_ite
      ((NotesRetry.quiet (quiet_dnsStep _)).bind fun _ => keeps_pure _) (keeps_pure _)
  cases existing with
  | none => exact hrest
  | some k =>
      exact (keeps_modify fun s => notesRetry_noteLookupMode s k _).bind fun _ => hrest

theorem notesRetry_tokenMiss (notify : Option ClientPacket) :
    Keeps A NotesRetry (tokenMiss notify) := by
  refine (NotesRetry.quiet (quiet_count _ _)).bind fun _ => ?_
  cases notify with
  | none => exact keeps_pure _
  | some p => exact (keeps_ask _).bind fun _ => keeps_pure _

theorem notesRetry_clientNext : Keeps A NotesRetry clientNext := by
  refine keeps_get.bind fun s => ?_
  split
  · exact (NotesRetry.quiet (quiet_dnsStep _)).bind fun _ => keeps_pure _
  · refine Keeps.bind (notesRetry_modify (fun _ => rfl) fun _ => rfl) fun _ => keeps_ite
      ((NotesRetry.quiet (quiet_count _ _)).bind fun _ => keeps_pure _)
      ((NotesRetry.quiet (quiet_count _ _)).bind fun _ => ?_)
    split
    · exact notesRetry_tokenMiss none
    · have hlookup : ∀ p pref now, Keeps A NotesRetry (tokenLookupOriginal p pref now) :=
        fun p pref now s => (tokenLookupOriginal_sat p pref now s).mono fun _ _ h =>
          h.1 ▸ refl_of NotesRetry s
      have hrecover : ∀ session p, Keeps A NotesRetry (tokenRecoverConnected session p) :=
        fun session p s => (tokenRecoverConnected_sat session p s).mono fun _ _ h =>
          h.1 ▸ refl_of NotesRetry s
      refine (hlookup _ _ _).bind fun r => keeps_ite (notesRetry_clientResolved _ _)
        ((hrecover _ _).bind fun r' => ?_)
      split
      · exact notesRetry_clientResolved _ _
      · exact notesRetry_tokenMiss _

theorem notesRetry_clientForward (k : Nat) (p : ClientPacket) :
    Keeps A NotesRetry (clientForward k p) := by
  refine keeps_get.bind fun s => keeps_ite ?_ (notesRetry_modify (fun _ => rfl) fun _ => rfl)
  refine (keeps_sessionQueuePending (seeing_notesRetry (k := k)) _ _ _).bind fun r => ?_
  rcases r with e | _
  · cases e <;> exact NotesRetry.quiet (quiet_count _ _)
  · exact keeps_pure ()

theorem notesRetry_clientBind (k : Nat) (p : ClientPacket) :
    Keeps A NotesRetry (clientBind k p) := by
  refine (NotesRetry.beside (keeps_bindingFind _ _)).bind fun found => ?_
  cases found with
  | none =>
      refine (NotesRetry.beside (keeps_createBinding _ _)).bind fun created => ?_
      cases created with
      | none => exact keeps_pure ()
      | some b => exact notesRetry_clientForward k p
  | some b =>
      refine (NotesRetry.beside (keeps_refreshBinding _ _ _)).bind fun good => ?_
      exact keeps_ite (notesRetry_clientForward k p) (keeps_pure ())

theorem notesRetry_clientSession (p : ClientPacket) (existing : Option Nat) :
    Keeps A NotesRetry (clientSession p existing) := by
  refine (notesRetry_sessionGet p existing).bind fun r => ?_
  cases r with
  | none => exact keeps_pure _
  | some k => exact (notesRetry_clientBind k p).bind fun _ => keeps_pure _

theorem notesRetry_clientFlush : Keeps A NotesRetry clientFlush := by
  refine keeps_get.bind fun s => ?_
  split
  · exact keeps_pure _
  · refine Keeps.bind ?_ fun _ => keeps_pure _
    refine keeps_get.bind fun s =>
      Keeps.bind (notesRetry_modify (fun _ => rfl) fun _ => rfl) fun _ =>
      (NotesRetry.quiet (quiet_relaySendBatch _ _)).bind fun sent =>
      Keeps.bind (notesRetry_modify (fun _ => rfl) fun _ => rfl) fun _ =>
      keeps_ite ?_ (keeps_pure _)
    exact (NotesRetry.quiet (quiet_count _ _)).bind fun _ => notesRetry_sessionDrop _

/-! ## Replies -/

theorem notesRetry_upstreamNext : Keeps A NotesRetry upstreamNext := by
  refine keeps_get.bind fun s => ?_
  split
  · refine (batching_notesRetry.downlinkBatchFlush (k := s.frame.session)).bind fun flushed => ?_
    cases flushed with
    | true => exact keeps_pure _
    | false => exact (NotesRetry.quiet (quiet_count _ _)).bind fun _ => keeps_pure _
  · refine (batching_notesRetry.upstreamMessage _).bind fun good => keeps_ite (keeps_pure _) ?_
    exact (NotesRetry.quiet (quiet_count _ _)).bind fun _ => keeps_pure _

theorem notesRetry_upstreamDone (failed : Bool) : Keeps A NotesRetry (upstreamDone failed) := by
  have hfin : Keeps A NotesRetry (do
      Worker.modify fun s => { s with frame := { s.frame with messages := [], batch := .init } }
      pure .dispatch : Worker Loc) :=
    Keeps.bind (notesRetry_modify (fun _ => rfl) fun _ => rfl) fun _ => keeps_pure _
  refine keeps_get.bind fun s => (NotesRetry.quiet quiet_releaseReservation).bind fun _ => ?_
  exact keeps_ite ((notesRetry_sessionDrop _).bind fun _ => hfin) hfin

/-- What an error on a session's sockets leads to. -/
theorem notesRetry_dropCounted (c : Counter) (k : Nat) :
    Keeps A NotesRetry (do count c; sessionDrop k : Worker Unit) :=
  (NotesRetry.quiet (quiet_count _ _)).bind fun _ => notesRetry_sessionDrop k

theorem notesRetry_upstreamReceive (k : Nat) : Keeps A NotesRetry (upstreamReceive k) := by
  refine keeps_get.bind fun s => (NotesRetry.quiet (quiet_reserveSlots _)).bind fun reserved => ?_
  cases reserved with
  | none =>
      refine Keeps.bind ?_ fun _ => keeps_pure _
      exact (keeps_modify fun s => (beside_markWaiting s k).notesRetry).bind fun _ =>
        (NotesRetry.beside (keeps_setPaused k true)).bind fun _ =>
        keeps_ite (notesRetry_dropCounted _ k) (keeps_pure _)
  | some n =>
      refine (NotesRetry.quiet (keeps_socks5UdpRecvmmsg _ _)).bind fun r => ?_
      split
      · refine (NotesRetry.quiet quiet_releaseReservation).bind fun _ => Keeps.bind ?_ fun _ =>
          keeps_pure _
        exact keeps_ite (NotesRetry.quiet (quiet_count _ _))
          (keeps_ite (notesRetry_sessionDrop k) (keeps_pure _))
      · exact (NotesRetry.quiet quiet_releaseReservation).bind fun _ => keeps_pure _
      · exact Keeps.bind (notesRetry_modify (fun _ => rfl) fun _ => rfl) fun _ => keeps_pure _

/-! ## Events -/

theorem notesRetry_dispatchControl (k : Nat) (bits : Bits) :
    Keeps A NotesRetry (dispatchControl k bits) := by
  intro s
  simp only [dispatchControl, bind_run, Worker.get_run, ret_bind, ite_run]
  split
  · split
    · rename_i hst
      have hE := establishing_notesRetry (A := A) (k := k)
      refine (completes_associateAdvance handshaken_shaking hE.toCompleting
        (completes_completeAssociate handshaken_shaking hE) bits s hst).bind fun t good ht => ?_
      cases good with
      | true => exact ht
      | false =>
          exact (notesRetry_dropCounted .udpSendErrors k t).bind fun _ _ h =>
            trans_of NotesRetry ht h
    · exact (keeps_sessionControlEvent tolerant_notesRetry k bits s).bind fun _ _ h => h
  · exact refl_of NotesRetry s

theorem notesRetry_dispatchRelay (k : Nat) (bits : Bits) :
    Keeps A NotesRetry (dispatchRelay k bits) :=
  keeps_get.bind fun _ => keeps_ite (keeps_ite
    ((notesRetry_sessionDrop k).bind fun _ => keeps_pure _)
    (keeps_ite (notesRetry_upstreamReceive k) (keeps_pure _))) (keeps_pure _)

theorem notesRetry_dispatchDownlink (k id : Nat) (bits : Bits) :
    Keeps A NotesRetry (dispatchDownlink k id bits) := by
  have hdrop : Keeps A NotesRetry (do
      count .udpSendErrors
      sessionDrop k
      pure .dispatch : Worker Loc) :=
    (NotesRetry.quiet (quiet_count _ _)).bind fun _ =>
      (notesRetry_sessionDrop k).bind fun _ => keeps_pure _
  refine keeps_get.bind fun s => keeps_ite (keeps_ite hdrop (keeps_ite ?_ (keeps_pure _)))
    (keeps_pure _)
  exact ((batching_notesRetry.replying k).downlinkFlushChannel id).bind fun good =>
    keeps_ite hdrop (keeps_pure _)

theorem notesRetry_dispatchDnsRelay (i : Fin dnsChannelsPerWorker) (bits : Bits) :
    Keeps A NotesRetry (dispatchDnsRelay i bits) := by
  refine keeps_get.bind fun s => keeps_ite (keeps_ite ?_ (keeps_ite ?_ (keeps_pure _)))
    (keeps_pure _)
  · exact (NotesRetry.quiet (quiet_dnsStep _)).bind fun _ => keeps_pure _
  · exact (NotesRetry.beside (keeps_dnsHandleUpstream i)).bind fun _ => keeps_pure _

theorem notesRetry_dispatchEvent (e : Event) : Keeps A NotesRetry (dispatchEvent e) := by
  obtain ⟨ref, bits, uid⟩ := e
  cases ref with
  | budgetWake => exact (keeps_ask _).bind fun _ => keeps_pure _
  | destroyEvents =>
      exact (NotesRetry.quiet quiet_nowMs).bind fun now =>
        (keeps_releaseHandleEvents tolerant_notesRetry now).bind fun _ => keeps_pure _
  | listener4 => exact keeps_get.bind fun _ => keeps_ite (notesRetry_clientReceive _) (keeps_pure _)
  | listener6 =>
      refine keeps_get.bind fun s => ?_
      split
      · exact keeps_ite (notesRetry_clientReceive _) (keeps_pure _)
      · exact keeps_pure _
  | control k => exact notesRetry_dispatchControl k bits
  | relay k => exact notesRetry_dispatchRelay k bits
  | downlink k id => exact notesRetry_dispatchDownlink k id bits
  | dnsControl i => exact (NotesRetry.quiet (quiet_dnsStep _)).bind fun _ => keeps_pure _
  | dnsRelay i => exact notesRetry_dispatchDnsRelay i bits

theorem notesRetry_dispatchNext : Keeps A NotesRetry dispatchNext := by
  refine keeps_get.bind fun s => ?_
  split
  · exact keeps_pure _
  · exact Keeps.bind (notesRetry_modify (fun _ => rfl) fun _ => rfl) fun _ =>
      notesRetry_dispatchEvent _

/-! ## Maintenance -/

/-- On the walk of `bpf2socks_udp_release_retry`, with the sessions in `passed` behind it. -/
def NotedIn (passed : List Nat) (s : State) : Prop :=
  ∀ k ∈ passed, s.retryAt k ≠ 0 → s.rel.retryDueMs ≤ s.retryAt k

theorem NotedIn.step {passed : List Nat} (h : NotedIn passed s)
    (hdue : s'.rel.retryDueMs ≤ s.rel.retryDueMs)
    (hcore : ∀ j ∈ passed, s'.retryAt j = 0 ∨ s'.retryAt j = s.retryAt j)
    (hk : s'.retryAt k ≠ 0 → s'.rel.retryDueMs ≤ s'.retryAt k) : NotedIn (passed ++ [k]) s' := by
  intro j hj hr
  rcases List.mem_append.mp hj with hj | hj
  · rcases hcore j hj with h0 | heq
    · exact absurd h0 hr
    · rw [heq] at hr ⊢
      exact Nat.le_trans hdue (h j hj hr)
  · obtain rfl := List.mem_singleton.mp hj
    exact hk hr

/-- The walk notes the retry time of every session it passes, and gives none a new one. -/
theorem releaseRetryFrom_noted {now : Nat} {flagged : Bool} {p rest lru : List Nat}
    (fuel : Nat) (hr : s.tbl.lru.Rep fun _ => lru) (hl : lru = p ++ rest)
    (hused : ∀ j, (s.tbl.core j).used = true ↔ j ∈ lru) (h : NotedIn p s) :
    Sat A (fun s' _ => RetryNoted s') (releaseRetryFrom now fuel rest.head? flagged s) := by
  induction fuel generalizing s p rest flagged with
  | zero => trivial
  | succ fuel ih =>
      cases rest with
      | nil =>
          refine fun k hu => h k ?_
          simpa [hl] using (hused k).mp hu
      | cons k rest =>
          have hk : (s.tbl.core k).used = true := (hused k).mpr (by simp [hl])
          have hl' : lru = (p ++ [k]) ++ rest := by simpa using hl
          have hnext : s.tbl.lru.next k = rest.head? := by
            obtain ⟨_, -, hseg⟩ := DLists.seg_append.mp (hl ▸ hr.fwd ())
            exact hseg.2.head
          simp only [List.head?_cons, releaseRetryFrom, bind_run, Worker.get_run, ret_bind, hnext]
          refine sat_ite (fun hc => absurd hk (by simpa using hc)) fun _ =>
            sat_ite (fun h0 => ?_) fun _ => sat_ite (fun _ => ?_) fun _ => ?_
          · exact ih hr hl' hused (h.step (Nat.le_refl _) (fun _ _ => Or.inr rfl) (absurd h0))
          · refine ih (s := noteRetry s _) hr hl' hused (h.step (Nat.min_le_left _ _)
              (fun _ _ => Or.inr rfl) fun _ => Nat.min_le_right _ _)
          · have hcore : ∀ j, (setRetry s k 0).retryAt j = 0 ∨
                (setRetry s k 0).retryAt j = s.retryAt j := fun j => by
              by_cases hj : j = k <;> simp [State.retryAt, setRetry, State.modCore, hj]
            refine ih (s := flagPort (setRetry s k 0) _) hr hl' (fun j => ?_)
              (h.step (Nat.le_refl _) (fun j _ => hcore j) fun h0 => absurd ?_ h0)
            · rw [← hused j]
              by_cases hj : j = k <;> simp [flagPort, setRetry, State.modCore, hj]
            · simp [State.retryAt, flagPort, setRetry, State.modCore]

/-- Looking at the sessions again leaves every remaining retry noted. -/
theorem releaseRetry_noted {M : Prop} (hs : Sessions M s) (h : RetryNoted s) (now : Nat) :
    Sat A (fun s' _ => RetryNoted s') (releaseRetry now s) := by
  obtain ⟨lru, l, hi, -⟩ := hs.whole
  have hhead : s.tbl.lru.head () = lru.head? := hi.lruRep.head_eq ()
  have hwalk : Sat A (fun t _ => RetryNoted t)
      (releaseRetryFrom now (s.tbl.cap + 1) (s.tbl.lru.head ()) false (forgetRetry s)) := by
    rw [hhead]
    refine releaseRetryFrom_noted (p := []) _ hi.lruRep rfl (fun j => ?_) (by simp [NotedIn])
    rw [hi.mem_lru]
    simp [forgetRetry]
  simp only [releaseRetry, bind_run, Worker.get_run, ret_bind]
  refine sat_ite (fun _ => h) fun _ => hwalk.bind fun t flagged ht => ?_
  refine sat_ite (fun _ => ?_) fun _ => ht
  exact (keeps_releaseFlaggedSessions tolerant_notesRetry now t).mono fun _ _ h' => h' ht

theorem notesRetry_beforeExpireIdle : Keeps A NotesRetry beforeExpireIdle :=
  (keeps_modify fun s => (like_retired s _).beside.notesRetry).bind fun _ =>
    (NotesRetry.beside keeps_resumeBudgetWaiters).bind fun _ =>
    (NotesRetry.beside keeps_bindingExpireIdle).bind fun _ =>
    (NotesRetry.quiet quiet_nowMs).bind fun _ =>
    keeps_sessionExpireHandshakes tolerant_notesRetry _

/-- In between the rounds of the worker's loop: the sessions are in order and their retries noted. -/
structure Settled (s : State) : Prop where
  holding : Holding Nobody s
  noted : RetryNoted s

theorem settled_of_beside (h : Beside s s') (hs : Settled s) : Settled s' :=
  ⟨h.ages hs.holding, h.notesRetry hs.noted⟩

theorem Settled.quiet {α : Type} {f : Worker α} (hs : Settled s) (hf : Quiet A f) :
    Sat A (fun s' _ => Settled s') (f s) :=
  (hf s).mono fun _ _ h => settled_of_beside h.beside hs

theorem expireAll_settled (hs : Settled s) : Sat A (fun s' _ => Settled s') (expireAll s) := by
  rw [expireAll_eq]
  have hbefore := (ages_beforeExpireIdle (A := A) s).and (notesRetry_beforeExpireIdle s)
  refine hbefore.bind fun t _ ht => ?_
  have htt : Settled t := ⟨ht.1 hs.holding, ht.2 hs.noted⟩
  have hidle := (keeps_sessionExpireIdle (A := A) tolerant_ages t).and
    (keeps_sessionExpireIdle tolerant_notesRetry t)
  refine hidle.bind fun u _ hu => ?_
  have huu : Settled u := ⟨hu.1 htt.holding, hu.2 htt.noted⟩
  show Sat A _ ((nowMs >>= fun now => _ : Worker Unit) u)
  refine (huu.quiet quiet_nowMs).bind fun v now hv => ?_
  have hretry := (keeps_releaseRetry (A := A) tolerant_ages (fun s => ages_rel s _ rfl) now v).and
    (releaseRetry_noted hv.holding.sessions hv.noted now)
  refine hretry.bind fun w _ hw => ?_
  have hww : Settled w := ⟨hw.1 hv.holding, hw.2⟩
  have hrest : Keeps A Beside (do
      let now ← nowMs
      let _ ← dnsStep (.expireTransactions now)
      let now ← nowMs
      let _ ← dnsStep (.expireHandshakes now)
      downlinkFreeRetired : Worker Unit) :=
    quiet_nowMs.beside.bind fun _ => (quiet_dnsStep _).beside.bind fun _ =>
      quiet_nowMs.beside.bind fun _ => (quiet_dnsStep _).beside.bind fun _ =>
      keeps_modify fun s => (like_retired s _).beside
  exact (hrest w).mono fun _ _ h => settled_of_beside h hww

/-- Maintenance ends by computing the next deadline from a state that is settled. -/
theorem runMaintenance_ends (hs : Settled s) :
    Sat A (fun s' _ => ∃ w now dns, A w .dnsDeadline dns ∧ Settled w ∧
      s' = { w with nextDeadlineMs := udpNextDeadline w now dns }) (runMaintenance s) := by
  refine (expireAll_settled hs).bind fun t _ ht => ?_
  have hregister : Keeps A Beside registerWaiters :=
    keeps_get.bind fun _ => keeps_ite ((keeps_ask _).bind fun _ => keeps_resumeBudgetWaiters)
      (keeps_pure _)
  refine (hregister t).bind fun u _ hu => ?_
  have huu : Settled u := settled_of_beside hu ht
  have hdisarm : Keeps A NotesRetry releaseDisarmIfIdle := by
    refine keeps_get.bind fun s => keeps_ite (keeps_pure _) ?_
    refine (NotesRetry.beside (keeps_epollModify _ _)).bind fun done => keeps_ite ?_ (keeps_pure _)
    exact notesRetry_modify (fun _ => rfl) fun _ => rfl
  have hboth := ((keeps_releaseDisarmIfIdle (A := A) (M := True) (U := Nobody) (W := Nobody)
    (D := Nobody) u).and (still_releaseDisarmIfIdle u)).and (hdisarm u)
  refine hboth.bind fun v _ hv => ?_
  have hvv : Settled v :=
    ⟨hv.1.2.ages hv.1.1 huu.holding, hv.2 huu.noted⟩
  refine (hvv.quiet quiet_nowMs).bind fun w now hw => ?_
  exact fun dns hdns => ⟨w, now, dns, hdns, hw, rfl⟩

/-! ## Every reachable state -/

/-- Every step leaves the retries noted. -/
theorem step_noted (hs : Settled s) (l : Loc) :
    Sat A (fun s' _ => RetryNoted s') (step l s) := by
  have hkeeps : ∀ {f : Worker Loc}, Keeps A NotesRetry f →
      Sat A (fun s' _ => RetryNoted s') (f s) := fun hf => (hf s).mono fun _ _ h => h hs.noted
  cases l with
  | wait => trivial
  | dispatch => exact hkeeps notesRetry_dispatchNext
  | clientPacket => exact hkeeps notesRetry_clientNext
  | clientSession p existing => exact hkeeps (notesRetry_clientSession p existing)
  | clientFlush => exact hkeeps notesRetry_clientFlush
  | upstream => exact hkeeps notesRetry_upstreamNext
  | upstreamDone failed => exact hkeeps (notesRetry_upstreamDone failed)
  | maintain =>
      refine (runMaintenance_ends hs).mono fun s' _ h => ?_
      obtain ⟨w, now, dns, -, hw, rfl⟩ := h
      exact hw.noted

theorem Reach.settled (hclock : Clock True A) (h : Reach A C cfg l s) : Settled s := by
  refine ⟨h.holding hclock, ?_⟩
  induction h with
  | init => exact fun k hu => absurd hu (by simp [initState, SessCore.zero])
  | next h _ hs ih =>
      cases hs with
      | wake evs he => exact ih
      | run ho => exact (step_noted ⟨h.holding hclock, ih⟩ _).out ho

end Bpf2Socks.Udp
