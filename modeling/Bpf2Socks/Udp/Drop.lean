/-
# Bpf2Socks.Udp.Drop — what dropping a session leaves, as a function.

`sessionDrop` asks its environment many times (every packet it gives up is a release of budget),
but nothing of what it leaves depends on the answers, up to noise.  `dropState` is that state.
Everything else that is said about a drop is read off `dropState`.
-/
import Bpf2Socks.Udp.Within

namespace Bpf2Socks.Udp

open Function (update update_of_ne)
open Lib (Prog Act)
open Lib.Prog Lib.Act
open Worker hiding get modify ask diverge

/-! ## The states -/

/-- A released packet comes off both counters. -/
def uncount (k : Nat) (s : State) (p : DownPacket) : State :=
  (s.modDown k fun d => { d with pendingCount := d.pendingCount - 1 }).modBinding p.binding
    fun c => { c with downlinkPendingCount := c.downlinkPendingCount - 1 }

/-- After a channel was retired, without the session being resumed. -/
def retireState (k : Nat) (s : State) (ch : Channel) : State :=
  ch.queue.foldl (uncount k) (unlinkChannel s k ch)

/-- After `downlinkReleaseSession`. -/
def releaseState (s : State) (k : Nat) : State :=
  markReady (((s.down k).channels.foldl (retireState k) s).modDown k fun d =>
    { d with pendingCount := 0, paused := false }) k

/-- After `sessionClose` of a used session. -/
def closeState (s : State) (k : Nat) : State :=
  clearSession (destroyBindings (releaseState s k) k) k

/-- Take a session out of the table and off the event loop. -/
def detachState (s : State) (k : Nat) : State := { clearRefs s k with tbl := s.tbl.detach k }

/-- After `sessionDrop` of a used session. -/
def dropState (s : State) (k : Nat) : State :=
  let s := closeState (detachState s k) k
  { s with tbl := { s.tbl.pushFree k with count := s.tbl.count - 1 } }

/-! ## Noise passes through -/

/-- `F` takes states alike to states alike. -/
def Smooth (F : State → State) : Prop := ∀ ⦃s t : State⦄, Like s t → Like (F s) (F t)

/-- Enough for smoothness: noise goes through `F`, possibly replaced, and the clock stays. -/
theorem smooth_of_noise {F : State → State}
    (h : ∀ s n, ∃ n' : Noise, F (s.noise n) = (F s).noise n' ∧ n'.clock = n.clock)
    (hc : ∀ s, (F s).trace.clock = s.trace.clock) : Smooth F := by
  rintro s t ⟨n, rfl, hn⟩
  obtain ⟨n', heq, hn'⟩ := h s n
  exact ⟨n', heq, by rw [hc, hn']; exact hn⟩

theorem Smooth.comp {F G : State → State} (hF : Smooth F) (hG : Smooth G) :
    Smooth fun s => F (G s) := fun _ _ h => hF (hG h)

theorem smooth_foldl {α : Type} {F : State → α → State} (hF : ∀ a, Smooth fun s => F s a)
    (l : List α) : Smooth fun s => l.foldl F s := by
  induction l with
  | nil => exact fun _ _ h => h
  | cons a l ih => exact fun _ _ h => ih (hF a h)

theorem smooth_modDown (k : Nat) (f : Down → Down) : Smooth fun s => s.modDown k f :=
  smooth_of_noise (fun _ n => ⟨n, rfl, rfl⟩) fun _ => rfl

theorem smooth_modBinding (b : Nat) (f : Binding → Binding) : Smooth fun s => s.modBinding b f :=
  smooth_of_noise (fun _ n => ⟨n, rfl, rfl⟩) fun _ => rfl

theorem smooth_uncount (k : Nat) (p : DownPacket) : Smooth fun s => uncount k s p :=
  (smooth_modBinding _ _).comp (smooth_modDown _ _)

theorem smooth_retireState (k : Nat) (ch : Channel) : Smooth fun s => retireState k s ch :=
  (smooth_foldl (smooth_uncount k) ch.queue).comp
    (smooth_of_noise (fun _ n => ⟨{ n with retiring := ch.queue }, rfl, rfl⟩) fun _ => rfl)

theorem smooth_markReady (k : Nat) : Smooth fun s => markReady s k := by
  refine smooth_of_noise (fun s n => ⟨n, ?_, rfl⟩) fun s => ?_ <;> unfold markReady
  · show (if (s.down k).waitingBudget then _ else _) = _
    split <;> rfl
  · split <;> rfl

theorem smooth_releaseState (k : Nat) : Smooth fun s => releaseState s k := by
  intro s t h
  have hch : (t.down k).channels = (s.down k).channels := by
    obtain ⟨n, rfl, -⟩ := h
    rfl
  simp only [releaseState, hch]
  exact smooth_markReady k (smooth_modDown k _ (smooth_foldl (smooth_retireState k) _ h))

theorem smooth_bindingCloseReply (b : Nat) : Smooth fun s => bindingCloseReply s b := by
  refine smooth_of_noise (fun s n => ⟨n, ?_, rfl⟩) fun s => ?_ <;> unfold bindingCloseReply
  · show (State.closeFd (s.noise n) (s.bind.core b).replyFd).modBinding b _ = _
    cases (s.bind.core b).replyFd <;> rfl
  · cases (s.bind.core b).replyFd <;> rfl

theorem smooth_destroyBinding (k b : Nat) : Smooth fun s => destroyBinding s k b := by
  have hdetach : Smooth fun s => { s with bind := s.bind.detach k b } :=
    smooth_of_noise (fun _ n => ⟨n, rfl, rfl⟩) fun _ => rfl
  have hfree : Smooth fun s => { s with bind := { s.bind.clear b with free := b :: s.bind.free } } :=
    smooth_of_noise (fun _ n => ⟨n, rfl, rfl⟩) fun _ => rfl
  exact (hfree.comp (smooth_bindingCloseReply b)).comp hdetach

theorem smooth_destroyBindings (k : Nat) : Smooth fun s => destroyBindings s k := by
  intro s t h
  have ho : t.bind.owned k = s.bind.owned k := by
    obtain ⟨n, rfl, -⟩ := h
    rfl
  simp only [destroyBindings, ho]
  exact smooth_foldl (smooth_destroyBinding k) _ h

theorem smooth_clearSession (k : Nat) : Smooth fun s => clearSession s k :=
  smooth_of_noise (fun _ n => ⟨{ n with up := update n.up k .zero }, rfl, rfl⟩) fun _ => rfl

/-! ## The code -/

variable {A : State → (q : Sys) → q.Ans → Prop} {k : Nat}

/-- Quiet code after a state: what it ends in is still like the state. -/
theorem Quiet.after {α : Type} {f : Worker α} (hf : Quiet A f) {s t : State} (h : Like s t) :
    Sat A (fun t' _ => Like s t') (f t) := (hf t).mono fun _ _ h' => h.trans h'

theorem releaseQueue_sat (q : List DownPacket) (s : State) :
    Sat A (fun s' _ => Like (q.foldl (uncount k) s) s') (releaseQueue k q s) := by
  induction q generalizing s with
  | nil => exact Like.refl s
  | cons p rest ih =>
      simp only [releaseQueue, bind_run, Worker.modify_run, ret_bind]
      refine Sat.bind (m := fun s' _ => Like (uncount k s p) s') ?_ fun s' _ h' =>
        (ih s').mono fun t _ ht => Like.trans ?_ ht
      · simp only [releaseDownlinkPacket, bind_run, Worker.modify_run, ret_bind]
        exact (quiet_budgetRelease _).after (smooth_uncount k p (like_popRetiring s p rest))
      · exact smooth_foldl (smooth_uncount k) rest h'

theorem retireDownlinkChannel_sat (ch : Channel) (s : State) :
    Sat A (fun s' _ => Like (retireState k s ch) s') (retireDownlinkChannel k ch false s) := by
  simp only [retireDownlinkChannel, bind_run, Worker.modify_run, Worker.get_run, ret_bind,
    Bool.false_and, Bool.false_eq_true, if_false, pure_run]
  refine (releaseQueue_sat ch.queue _).bind fun s' _ h => ?_
  exact h.trans (like_retired s' _)

theorem retireAll_sat (l : List Channel) (s : State) :
    Sat A (fun s' _ => Like (l.foldl (retireState k) s) s')
      (forEach (fun ch => retireDownlinkChannel k ch false) l s) := by
  induction l generalizing s with
  | nil => exact Like.refl s
  | cons ch l ih =>
      refine (retireDownlinkChannel_sat ch s).bind fun s' _ h => (ih s').mono fun t _ ht => ?_
      exact Like.trans (smooth_foldl (smooth_retireState k) l h) ht

theorem downlinkReleaseSession_sat (s : State) :
    Sat A (fun s' _ => Like (releaseState s k) s') (downlinkReleaseSession k s) := by
  simp only [downlinkReleaseSession, bind_run, Worker.get_run, ret_bind]
  refine (retireAll_sat _ s).bind fun s' _ h => ?_
  exact smooth_markReady k (smooth_modDown k _ h)

theorem sessionClose_sat {s : State} (hu : (s.tbl.core k).used = true) :
    Sat A (fun s' _ => Like (closeState s k) s') (sessionClose k s) := by
  have hbody : ∀ t, Like s t → Sat A (fun s' _ => Like (closeState s k) s')
      ((do
        releaseSessionPendingPackets k
        downlinkReleaseSession k
        Worker.modify fun s => clearSession (destroyBindings s k) k : Worker Unit) t) := by
    intro t ht
    refine ((quiet_releaseSessionPendingPackets k).after ht).bind fun t' _ ht' =>
      (downlinkReleaseSession_sat t').bind fun u _ hu => ?_
    have hlike : Like (releaseState s k) u := Like.trans (smooth_releaseState k ht') hu
    exact smooth_clearSession k (smooth_destroyBindings k hlike)
  simp only [sessionClose, bind_run, Worker.get_run, ret_bind, hu, if_true, ite_run]
  split
  · exact fun r _ => hbody s (Like.refl s)
  · exact hbody s (Like.refl s)

theorem sessionDrop_sat {s : State} (hu : (s.tbl.core k).used = true) :
    Sat A (fun s' _ => Like (dropState s k) s') (sessionDrop k s) := by
  have hused : ((detachState s k).tbl.core k).used = true := by
    show ((s.tbl.detach k).core k).used = true
    unfold SessTable.detach SessTable.handshakeRemove
    dsimp only
    split <;> split <;> simp [hu]
  simp only [sessionDrop, bind_run, Worker.get_run, ret_bind, hu, if_true, ite_run,
    Worker.modify_run]
  refine (sessionClose_sat hused).bind fun s' _ h => ?_
  obtain ⟨n, rfl, hn⟩ := h
  exact ⟨n, rfl, hn⟩

theorem sessionDrop_unused {s : State} (hu : (s.tbl.core k).used = false) :
    sessionDrop k s = .ret s () := by
  simp [sessionDrop, hu]

/-! ## Other sessions' replies -/

/-- From `s` to `s'` only session `k` let go of replies. -/
def Spares (k : Nat) (s s' : State) : Prop := ∀ j, j ≠ k → s'.down j = s.down j

instance (k : Nat) : IsPreorder State (Spares k) where
  refl _ _ _ := rfl
  trans _ _ _ h h' j hj := (h' j hj).trans (h j hj)

theorem spares_destroyBinding (s : State) (b : Nat) : Spares k s (destroyBinding s k b) := by
  intro j _
  simp only [destroyBinding, releaseBinding, bindingCloseReply, State.closeFd]
  split <;> rfl

theorem spares_retireState (s : State) (ch : Channel) : Spares k s (retireState k s ch) :=
  trans_of (Spares k) (b := unlinkChannel s k ch) (fun _ hj => update_of_ne hj _ _)
    (foldl_of_step (F := uncount k) (fun _ _ _ hj => update_of_ne hj _ _) ch.queue _)

theorem spares_markReady (s : State) : Spares k s (markReady s k) := by
  unfold markReady
  split
  · exact fun _ hj => update_of_ne hj _ _
  · exact refl_of (Spares k) s

theorem spares_releaseState (s : State) : Spares k s (releaseState s k) :=
  trans_of (Spares k) (trans_of (Spares k)
    (foldl_of_step (fun s ch => spares_retireState s ch) (s.down k).channels s)
    (fun _ hj => update_of_ne hj _ _)) (spares_markReady _)

/-- A drop leaves the other sessions' replies alone. -/
theorem dropState_down (s : State) : Spares k s (dropState s k) := by
  refine trans_of (Spares k) (b := releaseState (detachState s k) k)
    (spares_releaseState (detachState s k)) ?_
  refine trans_of (Spares k) (b := destroyBindings (releaseState (detachState s k) k) k)
    (foldl_of_step (fun s b => spares_destroyBinding s b) _ _) fun j hj => ?_
  show update _ k _ j = _
  rw [update_of_ne hj]

/-! ## A drop returns -/

theorem stops_budgetRelease (n : Nat) : Stops A (budgetRelease n) :=
  (stops_ask _).bind fun _ => stops_ite (stops_modify _) (stops_pure _)

theorem stops_releasePendingFrom (l : List PendingPacket) : Stops A (releasePendingFrom k l) := by
  induction l with
  | nil => exact stops_pure ()
  | cons p rest ih =>
      exact (stops_modify _).bind fun _ => (stops_budgetRelease _).bind fun _ => ih

theorem stops_releaseQueue (q : List DownPacket) : Stops A (releaseQueue k q) := by
  induction q with
  | nil => exact stops_pure ()
  | cons p rest ih =>
      exact (stops_modify _).bind fun _ => Stops.bind ((stops_modify _).bind fun _ =>
        (stops_modify _).bind fun _ => stops_budgetRelease _) fun _ => ih

theorem stops_setPaused (paused : Bool) : Stops A (setPaused k paused) := by
  refine stops_get.bind fun s => stops_ite (stops_pure _) (stops_ite (stops_pure _) ?_)
  refine Stops.bind ((stops_ask _).bind fun done => ?_) fun done =>
    stops_ite ((stops_modify _).bind fun _ => stops_pure _) (stops_pure _)
  exact stops_ite ((stops_modify _).bind fun _ => stops_pure _) (stops_pure _)

theorem stops_retireDownlinkChannel (ch : Channel) (resume : Bool) :
    Stops A (retireDownlinkChannel k ch resume) :=
  (stops_modify _).bind fun _ => (stops_releaseQueue _).bind fun _ =>
    (stops_modify _).bind fun _ => stops_get.bind fun _ =>
    stops_ite ((stops_setPaused _).bind fun _ => stops_pure _) (stops_pure _)

theorem stops_sessionClose (k : Nat) : Stops A (sessionClose k) := by
  have hrest : Stops A (do
      releaseSessionPendingPackets k
      downlinkReleaseSession k
      Worker.modify fun s => clearSession (destroyBindings s k) k : Worker Unit) := by
    refine Stops.bind (stops_get.bind fun _ => (stops_releasePendingFrom _).bind fun _ =>
      stops_modify _) fun _ => Stops.bind (stops_get.bind fun _ => ?_) fun _ => stops_modify _
    exact (stops_forEach (fun ch => stops_retireDownlinkChannel ch false) _).bind fun _ =>
      stops_modify _
  exact stops_get.bind fun _ => stops_ite
    (stops_ite ((stops_ask _).bind fun _ => hrest) hrest) (stops_pure _)

theorem stops_sessionDrop (k : Nat) : Stops A (sessionDrop k) :=
  stops_get.bind fun _ => stops_ite ((stops_modify _).bind fun _ => (stops_modify _).bind fun _ =>
    (stops_sessionClose k).bind fun _ => stops_modify _) (stops_pure _)

end Bpf2Socks.Udp
