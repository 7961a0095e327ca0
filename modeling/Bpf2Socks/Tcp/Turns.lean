/-
# Bpf2Socks.Tcp.Turns — a turn of the loop, as moves.

A property that every move keeps, and a pause, is kept by all that accepting clients does, whichever
of its ways out is taken.  `Steady` collects what such a property has to offer; the deadlines and the
listeners are two instances.
-/
import Mathlib.Logic.Relation
import Bpf2Socks.Tcp.Moves

namespace Bpf2Socks.Tcp

open Function (update update_self update_of_ne)
open Lib (Act Prog)
open Udp (DstAddr Bits)
open Worker

variable {s s' : State} {c t fd : Nat} {d : Side} {w w' w'' : State × Nat}

/-! ## More moves -/

/-- Code about `c` that leaves its deadline as it is. -/
theorem Moves.beside (h : Moves c w w') (a : Beside c w' w'')
    (hd : w''.1.deadline c = w'.1.deadline c) : Moves c w w'' where
  cfg := a.cfg.trans h.cfg
  accepted := Nat.le_trans h.accepted a.accepted
  pausing := a.pausing.trans h.pausing
  next := Nat.le_trans (Nat.le_of_eq a.next) h.next
  noted hc := by
    rw [hd, a.next]
    exact h.noted (a.active hc)
  active hc := h.active (a.active hc)
  conns hne := (a.conns hne).trans (h.conns hne)
  stamped hs hc := a.stamped (h.stamped hs (a.active hc))
  clock := ⟨Nat.le_trans h.clock.1 a.clock.1, a.clock.2 ∘ h.clock.2⟩
  untouched hl hu := by
    obtain ⟨hu', hi⟩ := h.untouched hl hu
    obtain ⟨hu'', hi'⟩ := a.untouched (h.cfg ▸ hl) hu'
    exact ⟨hu'', hi'.trans hi⟩

/-- The connection is closed in the end. -/
theorem Moves.ends (h : Moves c w w') (e : Ends c w' w'') (hl : Listed w'.1) : Moves c w w'' where
  cfg := e.cfg.trans h.cfg
  accepted := Nat.le_trans h.accepted e.accepted
  pausing := e.pausing.trans h.pausing
  next := Nat.le_trans (Nat.le_of_eq e.next) h.next
  noted hc := absurd hc (e.gone hl)
  active hc := h.active (e.active hc)
  conns hne := (e.conns hne).trans (h.conns hne)
  stamped _ hc := absurd hc (e.gone hl)
  clock := ⟨Nat.le_trans h.clock.1 e.clock.1, e.clock.2 ∘ h.clock.2⟩
  untouched hl hu := by
    obtain ⟨hu', hi⟩ := h.untouched hl hu
    obtain ⟨hu'', hi'⟩ := e.untouched (h.cfg ▸ hl) hu'
    exact ⟨hu'', hi'.trans hi⟩

/-- A ready record becomes an active connection. -/
theorem moves_admit (hl : Listed w.1) (b : Builds c w w') (hlt : c < w.1.accepted)
    (hnot : c ∉ w.1.active) (hclosed : c ∉ w.1.closed) (hready : Ready (w'.1.conns c) w'.2) :
    Moves c w ((w'.1.activeAdd c).noteConnectionDeadline c, w'.2) ∧
      Listed ((w'.1.activeAdd c).noteConnectionDeadline c) := by
  obtain ⟨s, t⟩ := w'
  have hl' : Listed s := hl.builds b hlt hnot
  -- a ready record is not linked yet, so it really is added
  have hadd : s.activeAdd c =
      { s.modConn c fun k => { k with activeLinked := true } with active := c :: s.active } := by
    unfold State.activeAdd
    rw [if_neg]
    exact fun h => Bool.false_ne_true (hready.activeLinked.symm.trans h)
  have hself : (s.activeAdd c).conns c = { s.conns c with activeLinked := true } := by
    rw [hadd]
    exact modConn_conns s c fun k => { k with activeLinked := true }
  have hother : ∀ {c'}, c' ≠ c → (s.activeAdd c).conns c' = s.conns c' := by
    intro c' hne
    rw [hadd]
    exact update_of_ne hne ..
  have hactive : (s.activeAdd c).active = c :: s.active := by rw [hadd]
  have huntouched : ∀ {fd}, Untouched s fd → Untouched (s.activeAdd c) fd := by
    intro fd hu
    refine ⟨?_, fun hh => hu.2 (hh.of_fewer hother ?_ ?_ ?_)⟩
    · rw [hadd]
      exact hu.1
    · rw [hself]
      exact ⟨id, id, id⟩
    · rw [hadd]
      rfl
    · rw [hadd]
      rfl
  -- the lists, before its deadline is noted
  have hadded : Listed (s.activeAdd c) := by
    have haccepted : (s.activeAdd c).accepted = s.accepted := by
      rw [hadd]
      rfl
    have hlt' : c < s.accepted := Nat.lt_of_lt_of_le hlt b.accepted
    have hnot' : c ∉ s.active := by
      have := b.lists.1
      exact this ▸ hnot
    have hclosed' : c ∉ s.closed := by
      have := b.lists.2
      exact this ▸ hclosed
    have hclosedEq : (s.activeAdd c).closed = s.closed := by
      rw [hadd]
      rfl
    refine ⟨?_, fun {c'} hc => ?_, fun {c'} hc => ?_, fun hc => ?_, fun {c'} hc => ?_,
      fun {c' d} hc => ?_, fun {fd} hf => ?_⟩
    · rw [hactive]
      exact List.nodup_cons.mpr ⟨hnot', hl'.nodup⟩
    · rw [hactive] at hc
      rcases List.mem_cons.mp hc with rfl | hc
      · rw [hself]
        exact ⟨hready.closing, rfl⟩
      · rw [hother fun h => hnot' (h ▸ hc)]
        exact hl'.live hc
    · rw [hactive] at hc
      rw [haccepted]
      rcases List.mem_cons.mp hc with rfl | hc
      · exact hlt'
      · exact hl'.activeLt hc
    · rw [haccepted]
      exact hl'.closedLt (hclosedEq ▸ hc)
    · rw [hactive] at hc
      rw [hclosedEq]
      rcases List.mem_cons.mp hc with rfl | hc
      · exact hclosed'
      · exact hl'.apart hc
    · rw [haccepted]
      by_cases hne : c' = c
      · exact hne ▸ hlt'
      · rw [hother hne] at hc
        exact hl'.known hc
    · refine huntouched (hl'.listeners ?_)
      rw [hadd] at hf
      exact hf
  obtain ⟨hcfg, hconns, hnactive, hnaccepted, hpausing, hint⟩ := note_rest (s.activeAdd c) c
  have hnext : (s.activeAdd c).nextDeadlineMs = w.1.nextDeadlineMs := by
    rw [hadd]
    exact b.next
  refine ⟨⟨?_, ?_, ?_, ?_, fun _ => ?_, fun hc => ?_, fun hne => ?_, fun _ _ => ?_, b.clock,
    fun hf hu => ?_⟩, hadded.note c⟩
  · refine hcfg.trans ?_
    rw [hadd]
    exact b.cfg
  · refine Nat.le_trans b.accepted (Nat.le_of_eq (Eq.symm (hnaccepted.trans ?_)))
    rw [hadd]
    rfl
  · refine hpausing.trans ?_
    rw [hadd]
    exact b.pausing
  -- noting the deadline only lowers the cached one, to this record's at most
  · exact hnext ▸ (next_note (s.activeAdd c) c).1
  · show ((s.activeAdd c).noteConnectionDeadline c).nextDeadlineMs ≤
      connectionDeadline ((s.activeAdd c).noteConnectionDeadline c).cfg
        (((s.activeAdd c).noteConnectionDeadline c).conns c)
    rw [hcfg, hconns]
    refine (next_note (s.activeAdd c) c).2 ?_
    rw [hself]
    exact hready.closing
  · have hc : _ ∈ ((s.activeAdd c).noteConnectionDeadline c).active := hc
    rw [hnactive, hactive] at hc
    rcases List.mem_cons.mp hc with rfl | hc
    · exact .inl rfl
    · exact .inr (b.active hc)
  · show ((s.activeAdd c).noteConnectionDeadline c).conns _ = _
    rw [hconns, hother hne]
    exact b.conns hne
  · show Stamped (((s.activeAdd c).noteConnectionDeadline c).conns c) t
    rw [hconns, hself]
    exact hready.stamped
  · obtain ⟨hu', hi⟩ := b.untouched hf hu
    refine ⟨(huntouched hu').note c, (congrFun hint _).trans ?_⟩
    rw [hadd]
    exact hi

/-! ## What the accept loop keeps -/

/-- A property that the events about one connection keep, and a pause. -/
structure Steady (A : State × Nat → (q : Sys) → q.Ans → Prop) (I : State × Nat → Prop) : Prop where
  timely : ∀ {w q r}, A w q r → timely w q r
  listed : ∀ {w}, I w → Listed w.1
  moves : ∀ {c w w'}, Moves c w w' → Listed w'.1 → I w → I w'
  pause : ∀ {w}, I w → Prog.Sat A (fun w' _ => I w') (pauseTcpListeners.watch tick w)

section steady

variable {A : State × Nat → (q : Sys) → q.Ans → Prop} {I : State × Nat → Prop}

theorem Steady.weaken (hI : Steady A I) {α : Type} {P : State × Nat → α → Prop} {m : Worker α}
    (h : Prog.Sat Tcp.timely P (m.watch tick w)) : Prog.Sat A P (m.watch tick w) :=
  Prog.Sat.weaken h fun _ _ _ => hI.timely

/-- Code about a connection that is not active. -/
theorem Steady.builds (hI : Steady A I) (h : I w) (b : Builds c w w') (hlt : c < w.1.accepted)
    (hnot : c ∉ w.1.active) : I w' := by
  have hnot' : c ∉ w'.1.active := by
    rw [b.lists.1]
    exact hnot
  exact hI.moves (b.toAround.moves hnot') ((hI.listed h).builds b hlt hnot) h

/-- Code about no connection. -/
theorem Steady.beside (hI : Steady A I) (h : I w) (a : Beside w.1.accepted w w') : I w' := by
  have hnot : w.1.accepted ∉ w'.1.active := by
    rw [a.lists.1]
    exact fun hc => Nat.lt_irrefl _ ((hI.listed h).activeLt hc)
  exact hI.moves (a.toAround.moves hnot) ((hI.listed h).beside a) h

theorem Steady.minds (hI : Steady A I) (h : I w) {α : Type} {m : Worker α} (hm : ∀ c, Minds c m) :
    Prog.Sat A (fun w' _ => I w') (m.watch tick w) :=
  (hI.weaken (hm w.1.accepted w)).mono fun _ _ a => hI.beside h a

theorem Steady.minds_bind (hI : Steady A I) (h : I w) {α β : Type} {P : State × Nat → β → Prop}
    {m : Worker α} {f : α → Worker β} (hm : ∀ c, Minds c m)
    (hf : ∀ w' a, I w' → Prog.Sat A P ((f a).watch tick w')) : Prog.Sat A P ((m >>= f).watch tick w) := by
  rw [Act.watch_bind]
  exact (hI.minds h hm).bind fun w' a h' => hf w' a h'

/-- A pause or none. -/
theorem Steady.pauseIf (hI : Steady A I) (h : I w) (b : Bool) :
    Prog.Sat A (fun w' _ => I w') ((do
      if b then
        recordFdExhaustion
        pure false
      else pure true : Worker Bool).watch tick w) := by
  cases b with
  | true =>
      show Prog.Sat A _ ((recordFdExhaustion >>= fun _ => pure false : Worker Bool).watch tick w)
      rw [Act.watch_bind]
      exact (hI.pause h).bind fun w' _ h' => h'
  | false => exact h

/-- The registration of a connection leaves its stage and its times alone. -/
theorem registerConnection_sat (c : Nat) (w : State × Nat) :
    Prog.Sat timely (fun w' _ => w'.1.deadline c = w.1.deadline c)
      ((registerConnection c).watch tick w) := by
  have hside : ∀ (d : Side) (w₀ : State × Nat),
      Prog.Sat timely (fun w' _ => w'.1.deadline c = w₀.1.deadline c) ((addSide c d).watch tick w₀) := by
    rintro d ⟨s, t⟩
    show Prog.Sat timely _ ((addSide c d s).watch tick t)
    simp only [addSide, Act.bind_run, get_run, Prog.ret_bind]
    cases (s.conns c).fd d with
    | none => rfl
    | some fd =>
        rintro (r : Option Errno) -
        cases r with
        | none =>
            show connectionDeadline s.cfg ((s.register fd (.conn c d) _).conns c) = _
            simp only [State.register, modConn_conns]
            rfl
        | some e => rfl
  show Prog.Sat timely _ (Prog.watch tick w.2 ((addSide c .client w.1).bind _))
  rw [Prog.watch_bind]
  refine (hside .client w).bind fun w₁ r h₁ => ?_
  cases r with
  | none => exact (hside .upstream w₁).mono fun _ _ h₂ => h₂.trans h₁
  | some e => exact h₁

/-- The end of `startConnection`: the connection made is registered, or closed again. -/
def registerActive (c : Nat) : Worker Bool := do
  let r ← registerConnection c
  match r with
  | none => pure true
  | some e =>
      modify fun s => s.mark c .unregistered true
      closeConnection c
      if e.exhausted then
        recordFdExhaustion
        pure false
      else pure true

/-- **A client for which a session was reserved.** -/
theorem Steady.startConnection (hI : Steady A I) (h : I w) (hlt : c < w.1.accepted)
    (hnot : c ∉ w.1.active) (hclosed : c ∉ w.1.closed) (hfd : ¬ w.1.cfg.Listener fd)
    (dst : DstAddr) : Prog.Sat A (fun w' _ => I w') ((startConnection c fd dst).watch tick w) := by
  have hl := hI.listed h
  unfold Tcp.startConnection
  rw [Act.watch_bind]
  refine (hI.weaken (createConnection_sat hfd dst)).bind fun w₁ created ⟨hb, hready⟩ => ?_
  cases created with
  | error e =>
      refine hI.minds_bind (hI.builds h hb hlt hnot) (fun _ => minds_releaseTcpSessionBudget c)
        fun w₂ _ h₂ => ?_
      exact hI.pauseIf h₂ e.exhausted
  | ok _ =>
      obtain ⟨s₁, t₁⟩ := w₁
      have hmark : Beside c (s₁, t₁) ((s₁.mark c .creating false).modConn c fun k =>
          { k with sessionReserved := true }, t₁) :=
        (beside_mark c .creating false).trans
          (beside_modConn (f := fun k => { k with sessionReserved := true }) ⟨id, id, id⟩ rfl id)
      -- it is admitted first, and closed again where `epoll_ctl` refuses it
      have hregister : ∀ {s₂ : State}, Beside c (s₁, t₁) (s₂, t₁) →
          Prog.Sat A (fun w' _ => I w') ((registerActive c).watch tick
            ((s₂.activeAdd c).noteConnectionDeadline c, t₁)) := by
        intro s₂ ha₂
        obtain ⟨hmove, hl₂⟩ := moves_admit hl (hb.trans ha₂.builds) hlt hnot hclosed
          ((hready rfl).beside ha₂)
        unfold registerActive
        rw [Act.watch_bind]
        refine (hI.weaken ((minds_registerConnection.sat _).and (registerConnection_sat c _))).bind
          fun w₃ r ⟨ha, hd⟩ => ?_
        have hmove₃ : Moves c w w₃ := hmove.beside ha hd
        have hl₃ : Listed w₃.1 := hl₂.beside ha
        cases r with
        | none => exact hI.moves hmove₃ hl₃ h
        | some e =>
            have hmark₃ : Beside c w₃ (w₃.1.mark c .unregistered true, w₃.2) :=
              beside_mark c .unregistered true
            show Prog.Sat A _ (Prog.watch tick w₃.2
              ((closeConnection c (w₃.1.mark c .unregistered true)).bind _))
            rw [Prog.watch_bind]
            refine (hI.weaken (closeConnection_ends c (w₃.1.mark c .unregistered true, w₃.2))).bind
              fun w₄ _ he => ?_
            have hlt₃ : c < w₃.1.accepted := Nat.lt_of_lt_of_le hlt hmove₃.accepted
            have hI₄ : I w₄ := hI.moves ((hmove₃.beside hmark₃ rfl).ends he (hl₃.beside hmark₃))
              (he.listed (hl₃.beside hmark₃) hlt₃) h
            exact hI.pauseIf hI₄ e.exhausted
      exact hregister hmark

/-- A client that was accepted and is in no list yet. -/
structure Guest (n fd : Nat) (s : State) : Prop where
  lt : n < s.accepted
  active : n ∉ s.active
  closed : n ∉ s.closed
  fresh : ¬ s.cfg.Listener fd

theorem Guest.beside {n : Nat} (h : Guest n fd w.1) (a : Beside c w w') : Guest n fd w'.1 :=
  ⟨Nat.lt_of_lt_of_le h.lt a.accepted, a.lists.1 ▸ h.active, a.lists.2 ▸ h.closed,
    a.cfg ▸ h.fresh⟩

/-- A new client. -/
theorem Steady.accept (hI : Steady A I) (h : I w) (listener : Nat) :
    Prog.Sat A (fun w' r => I w' ∧ ∀ n fd, r = .ok (n, fd) → Guest n fd w'.1)
      ((accept listener).watch tick w) := by
  have hl := hI.listed h
  refine (hI.weaken (accept_sat w.1.accepted listener)).mono fun w' r ⟨ha, hr⟩ => ?_
  refine ⟨hI.beside h ha, fun n fd hok => ?_⟩
  obtain ⟨hn, hlt, hfree⟩ := hr n fd hok
  refine ⟨hlt, fun hc => ?_, fun hc => ?_, fun hf => hl.fresh hfree (ha.cfg ▸ hf)⟩
  · exact absurd (hl.activeLt (ha.lists.1 ▸ hc)) (hn ▸ Nat.lt_irrefl _)
  · exact absurd (hl.closedLt (ha.lists.2 ▸ hc)) (hn ▸ Nat.lt_irrefl _)

/-- The end of a client that gets no connection. -/
theorem beside_refuse (hfd : ¬ s.cfg.Listener fd) :
    Beside c (s, t) ((s.resetOnClose (some fd)).closeFd fd, t) := by
  have hreset : Beside c (s, t) (s.resetOnClose (some fd), t) := beside_resetOnClose _
  have hcfg : (s.resetOnClose (some fd)).cfg = s.cfg := hreset.cfg
  exact hreset.trans (beside_closeFd (.inr (.inr (hcfg ▸ hfd))))

/-- **`accept_ready_clients`, for one client.** -/
theorem Steady.admitClient (hI : Steady A I) (h : I w) {n : Nat} (hg : Guest n fd w.1) :
    Prog.Sat A (fun w' _ => I w') ((admitClient n fd).watch tick w) := by
  rintro (dst : Option DstAddr) -
  cases dst with
  | none => exact hI.beside h (beside_refuse hg.fresh)
  | some dst =>
      show Prog.Sat A _ (Prog.watch tick w.2 ((reserveTcpSession n w.1).bind _))
      rw [Prog.watch_bind]
      refine Prog.Sat.bind (m := fun w' _ => I w' ∧ Guest n fd w'.1) ?_ fun w₁ reserved h₁ => ?_
      · refine (hI.weaken (minds_reserveTcpSession (c := w.1.accepted) n w)).mono
          fun w₁ _ ha => ?_
        exact ⟨hI.beside h ha, hg.beside ha⟩
      · obtain ⟨hw₁, hg₁⟩ := h₁
        cases reserved with
        | true => exact hI.startConnection hw₁ hg₁.lt hg₁.active hg₁.closed hg₁.fresh dst
        | false => exact hI.beside hw₁ (beside_refuse hg₁.fresh)

/-! ### A full descriptor table -/

/-- A change of the spare field. -/
theorem Holds.of_spare (hh : Holds s' fd) (hconns : s'.conns = s.conns) (hpool : s'.pool = s.pool) :
    Holds s fd ∨ s'.spareFd = some fd := by
  cases hh with
  | socket c' d h => exact .inl (.socket c' d (hconns ▸ h))
  | read c' d h => exact .inl (.read c' d (hconns ▸ h))
  | write c' d h => exact .inl (.write c' d (hconns ▸ h))
  | pool p hp h => exact .inl (.pool p (hpool ▸ hp) h)
  | spare h => exact .inr h

/-- The spare descriptor is opened. -/
theorem minds_openSpareFd : Minds c openSpareFd := by
  rintro ⟨s, t⟩ (r : Option Nat) ⟨hr, -⟩
  match r with
  | none => exact Beside.refl ..
  | some fd =>
      have hfree : s.fds fd = none := by simpa [ok, okb] using hr
      have hspared : Spared s fd := .inr (.inl (by rw [hfree]; simp))
      refine beside_of_spared rfl ⟨⟨rfl, rfl⟩, rfl⟩ (fun _ => rfl) rfl id (fun {e} hh => ?_)
        (fun {e} he => ?_) (.inl rfl)
      · rcases hh.of_spare (s := s) rfl rfl with hh | hh
        · exact hh.spared
        · exact Option.some.inj hh ▸ hspared
      · by_cases hne : e = fd
        · exact .inr (hne ▸ hspared)
        · exact .inl ((update_of_ne hne ..).trans he)

/-- The spare descriptor is closed. -/
theorem beside_closeSpare : Beside c (s, t) ({ s.closeOpt s.spareFd with spareFd := none }, t) := by
  refine (beside_closeOpt fun h => .spare h).trans ?_
  refine beside_of_spared rfl ⟨⟨rfl, rfl⟩, rfl⟩ (fun _ => rfl) rfl id (fun {e} hh => ?_) .inl (.inl rfl)
  rcases hh.of_spare (s := s.closeOpt s.spareFd) rfl rfl with hh | hh
  · exact hh.spared
  · cases hh

theorem Steady.acceptSpareFrom (hI : Steady A I) (listener fuel : Nat) (h : I w) :
    Prog.Sat A (fun w' _ => I w') ((acceptSpareFrom listener fuel).watch tick w) := by
  induction fuel generalizing w with
  | zero => trivial
  | succ fuel ih =>
      unfold Tcp.acceptSpareFrom
      rw [Act.watch_bind]
      refine (hI.accept h listener).bind fun w₁ r ⟨h₁, hg⟩ => ?_
      match r with
      | .ok (n, fd) =>
          have hfd : ¬ w₁.1.cfg.Listener fd := (hg n fd rfl).fresh
          refine hI.beside h₁ ((beside_mark n .spare true).trans (beside_closeFd ?_))
          exact .inr (.inr hfd)
      | .error .eintr => exact ih h₁
      | .error .eagain => exact h₁
      | .error .emfile => exact h₁
      | .error .enfile => exact h₁
      | .error .enotconn => exact h₁
      | .error .epipe => exact h₁
      | .error .other => exact h₁

/-- **`handle_accept_fd_exhaustion`.** -/
theorem Steady.handleAcceptFdExhaustion (hI : Steady A I) (listener : Nat) (h : I w) :
    Prog.Sat A (fun w' _ => I w') ((handleAcceptFdExhaustion listener).watch tick w) := by
  refine hI.minds_bind h (fun c => minds_modify fun s t => beside_closeSpare) fun w₁ _ h₁ => ?_
  refine hI.minds_bind h₁ (fun c => minds_ask _) fun w₂ retries h₂ => ?_
  rw [Act.watch_bind]
  refine (hI.acceptSpareFrom listener _ h₂).bind fun w₃ _ h₃ => ?_
  exact hI.minds_bind h₃ (fun c => minds_openSpareFd) fun w₄ _ h₄ => hI.pause h₄

/-! ### The accept loop -/

theorem Steady.acceptReadyClientsFrom (hI : Steady A I) (listener fuel : Nat) (h : I w) :
    Prog.Sat A (fun w' _ => I w') ((acceptReadyClientsFrom listener fuel).watch tick w) := by
  induction fuel generalizing w with
  | zero => trivial
  | succ fuel ih =>
      unfold Tcp.acceptReadyClientsFrom
      refine hI.minds_bind h (fun c => minds_ask _) fun w₁ (stop : Bool) h₁ => ?_
      cases stop with
      | true => exact h₁
      | false =>
          show Prog.Sat A _ (Act.watch tick (Tcp.accept listener >>= _) w₁)
          rw [Act.watch_bind]
          refine (hI.accept h₁ listener).bind fun w₂ r ⟨h₂, hg⟩ => ?_
          match r with
          | .ok (n, fd) =>
              show Prog.Sat A _ (Act.watch tick (Tcp.admitClient n fd >>= _) w₂)
              rw [Act.watch_bind]
              refine (hI.admitClient h₂ (hg n fd rfl)).bind fun w₃ more h₃ => ?_
              cases more with
              | true => exact ih h₃
              | false => exact h₃
          | .error .eintr => exact ih h₂
          | .error .eagain => exact h₂
          | .error .emfile => exact hI.handleAcceptFdExhaustion listener h₂
          | .error .enfile => exact hI.handleAcceptFdExhaustion listener h₂
          | .error .enotconn => exact h₂
          | .error .epipe => exact h₂
          | .error .other => exact h₂

/-- **`handle_connection_event`** keeps whatever every move and a pause keep. -/
theorem Steady.handleConnectionEvent (hI : Steady A I) (ref : Ref) (events : Bits) (h : I w) :
    Prog.Sat A (fun w' _ => I w') ((handleConnectionEvent ref events).watch tick w) := by
  have hlistener : ∀ fd : Option Nat,
      Prog.Sat A (fun w' _ => I w') ((handleListenerEvent fd events).watch tick w) := by
    intro fd
    show Prog.Sat A _ (Prog.watch tick w.2 (handleListenerEvent fd events w.1))
    simp only [handleListenerEvent, Act.bind_run, get_run, Prog.ret_bind]
    cases fd with
    | none => exact h
    | some fd =>
        show Prog.Sat A _ (Prog.watch tick w.2 ((if _ then _ else _ : Worker Unit) w.1))
        split
        · refine hI.minds_bind h (fun c => minds_ask _) fun w₁ retries h₁ => ?_
          exact hI.acceptReadyClientsFrom fd _ h₁
        · exact h
  show Prog.Sat A _ (Prog.watch tick w.2 (Tcp.handleConnectionEvent ref events w.1))
  simp only [Tcp.handleConnectionEvent, Act.bind_run, get_run, Prog.ret_bind]
  cases ref with
  | listener4 => exact hlistener (some w.1.cfg.listener4)
  | listener6 => exact hlistener w.1.cfg.listener6
  | conn c side =>
      refine (hI.weaken (handleSocketEvent_sat (hI.listed h) c side events)).mono fun w' _ hw' => ?_
      rcases hw' with rfl | ⟨hmove, hl⟩
      · exact h
      · exact hI.moves hmove hl h

/-- What is left of connections that are not active is freed. -/
theorem Steady.freeConnections (hI : Steady A I) (l : List Nat) (h : I (s, t))
    (hl : ∀ c ∈ l, c < s.accepted ∧ c ∉ s.active) : I (l.foldl State.freeConnection s, t) := by
  induction l generalizing s with
  | nil => exact h
  | cons c l ih =>
      have hb : Builds c (s, t) (s.freeConnection c, t) := builds_freeConnection
      obtain ⟨hlt, hnot⟩ := hl c List.mem_cons_self
      refine ih (hI.builds h hb hlt hnot) fun e he => ?_
      obtain ⟨helt, henot⟩ := hl e (List.mem_cons_of_mem c he)
      refine ⟨Nat.lt_of_lt_of_le helt hb.accepted, ?_⟩
      rw [hb.lists.1]
      exact henot

end steady

/-! ## Pausing, resuming and setting up -/

/-- Code about no connection, but maybe about the listeners. -/
structure Calm (w w' : State × Nat) : Prop where
  cfg : w'.1.cfg = w.1.cfg
  next : w'.1.nextDeadlineMs = w.1.nextDeadlineMs
  conns : w'.1.conns = w.1.conns
  active : w'.1.active = w.1.active
  closed : w'.1.closed = w.1.closed
  accepted : w.1.accepted ≤ w'.1.accepted
  clock : w.2 ≤ w'.2 ∧ (w.2 < clockEnd → w'.2 < clockEnd)
  untouched : ∀ {fd}, w.1.cfg.Listener fd → Untouched w.1 fd → Untouched w'.1 fd

theorem Calm.refl (w : State × Nat) : Calm w w :=
  ⟨rfl, rfl, rfl, rfl, rfl, Nat.le_refl _, ⟨Nat.le_refl _, id⟩, fun _ h => h⟩

theorem Calm.trans (h : Calm w w') (h' : Calm w' w'') : Calm w w'' where
  cfg := h'.cfg.trans h.cfg
  next := h'.next.trans h.next
  conns := h'.conns.trans h.conns
  active := h'.active.trans h.active
  closed := h'.closed.trans h.closed
  accepted := Nat.le_trans h.accepted h'.accepted
  clock := ⟨Nat.le_trans h.clock.1 h'.clock.1, h'.clock.2 ∘ h.clock.2⟩
  untouched hl hu := h'.untouched (h.cfg ▸ hl) (h.untouched hl hu)

instance : IsPreorder (State × Nat) Calm where
  refl := Calm.refl
  trans _ _ _ := Calm.trans

theorem Listed.calm (h : Listed w.1) (k : Calm w w') : Listed w'.1 where
  nodup := k.active ▸ h.nodup
  live hc := by
    rw [k.conns]
    exact h.live (k.active ▸ hc)
  activeLt hc := Nat.lt_of_lt_of_le (h.activeLt (k.active ▸ hc)) k.accepted
  closedLt hc := Nat.lt_of_lt_of_le (h.closedLt (k.closed ▸ hc)) k.accepted
  apart hc := by
    rw [k.closed]
    exact h.apart (k.active ▸ hc)
  known hc := Nat.lt_of_lt_of_le (h.known (k.conns ▸ hc)) k.accepted
  listeners hf := k.untouched (k.cfg ▸ hf) (h.listeners (k.cfg ▸ hf))

/-- Code about two connections is about none. -/
theorem Beside.calm (h : Beside 0 w w') (h' : Beside 1 w w') : Calm w w' where
  cfg := h.cfg
  next := h.next
  conns := by
    funext c
    by_cases hc : c = 0
    · exact h'.conns (hc ▸ Nat.zero_ne_one)
    · exact h.conns hc
  active := h.lists.1
  closed := h.lists.2
  accepted := h.accepted
  clock := h.clock
  untouched hl hu := (h.untouched hl hu).1

/-- Every run of the code is about no connection. -/
def Calms {α : Type} (m : Worker α) : Prop := Act.Keeps timely Calm (m.watch tick)

theorem calms_of_minds {α : Type} {m : Worker α} (h : ∀ c, Minds c m) : Calms m := fun w =>
  ((h 0 w).and (h 1 w)).mono fun _ _ ⟨h₀, h₁⟩ => h₀.calm h₁

theorem Calms.bind {α β : Type} {m : Worker α} {f : α → Worker β} (hm : Calms m)
    (hf : ∀ a, Calms (f a)) : Calms (m >>= f) := Act.watch_andThen hm hf

theorem calms_ite {α : Type} {p : Prop} [Decidable p] {f g : Worker α} (hf : Calms f)
    (hg : Calms g) : Calms (if p then f else g) := Act.watch_ite hf hg

theorem calms_pure {α : Type} (a : α) : Calms (pure a : Worker α) := Act.watch_pure a

theorem calms_get : Calms get := Act.watch_get

theorem calms_ask (q : Sys) : Calms (ask q) := calms_of_minds fun _ => minds_ask q

/-- A change of the fields about pausing. -/
theorem calms_modify {f : State → State}
    (h : ∀ s t, Calm (s, t) (f s, t)) : Calms (modify f) := Act.watch_modify h

/-- A listener is registered. -/
theorem calm_register {ref : Ref} (href : ref = .listener4 ∨ ref = .listener6) (fd : Nat)
    (events : Bits) : Calm (s, t) (s.register fd ref events, t) := by
  have hcongr : ∀ {e}, Untouched s e → Untouched (s.register fd ref events) e := by
    intro e hu
    rcases href with rfl | rfl <;> exact hu.congr rfl rfl rfl rfl
  rcases href with rfl | rfl <;>
    exact ⟨rfl, rfl, rfl, rfl, rfl, Nat.le_refl _, ⟨Nat.le_refl _, id⟩, fun _ => hcongr⟩

theorem calms_modFd {ref : Ref} (href : ref = .listener4 ∨ ref = .listener6) (fd : Nat)
    (events : Bits) : Calms (modFd fd ref events) := by
  have hregister : ∀ done : Bool, Calms (do
      if done then modify fun s => s.register fd ref events
      pure done : Worker Bool) := fun done =>
    calms_ite ((calms_modify fun _ _ => calm_register href fd events).bind fun _ =>
      calms_pure done) (calms_pure done)
  refine calms_get.bind fun s => calms_ite (calms_pure true) ?_
  refine calms_ite ((calms_ask _).bind hregister) (calms_ite ?_ ?_)
  · exact (calms_ask _).bind fun r => (calms_pure _).bind hregister
  · exact (calms_ask _).bind fun r => (calms_pure _).bind hregister

theorem calms_modListener {ref : Ref} (href : ref = .listener4 ∨ ref = .listener6)
    (fd : Option Nat) (events : Bits) : Calms (modListener fd ref events) := by
  refine calms_get.bind fun s => ?_
  cases fd with
  | none => exact calms_pure true
  | some fd => exact calms_ite (calms_modFd href fd events) (calms_pure true)

theorem calm_pausing (b : Bool) (n : Nat) :
    Calm (s, t) ({ s with listenersPaused := b, listenersResumeMs := n }, t) :=
  ⟨rfl, rfl, rfl, rfl, rfl, Nat.le_refl _, ⟨Nat.le_refl _, id⟩, fun _ hu => hu.congr rfl rfl rfl rfl⟩

/-- Pausing or resuming moves no connection. -/
theorem Listed.paused (h : Listed s) (b : Bool) (n : Nat) :
    Listed { s with listenersPaused := b, listenersResumeMs := n } :=
  Listed.calm (w := (s, 0)) h (calm_pausing b n)

/-- **`pause_tcp_listeners`.** -/
theorem calms_pauseTcpListeners : Calms pauseTcpListeners := by
  refine calms_get.bind fun s => calms_ite (calms_pure ()) ?_
  refine (calms_modListener (.inl rfl) _ _).bind fun paused4 => ?_
  refine (calms_modListener (.inr rfl) _ _).bind fun paused6 => calms_ite ?_ (calms_pure ())
  exact (calms_modify fun s t => calm_pausing true s.listenersResumeMs).bind fun _ =>
    (calms_ask .nowMs).bind fun now => calms_modify fun s t => calm_pausing s.listenersPaused _

/-- **`resume_tcp_listeners_if_due`.** -/
theorem calms_resumeTcpListenersIfDue : Calms resumeTcpListenersIfDue := by
  refine calms_get.bind fun s => calms_ite (calms_pure ()) ?_
  refine (calms_ask .nowMs).bind fun now => calms_ite (calms_pure ()) ?_
  have hspare : ∀ spare : Bool, Calms (do
      if spare then
        let resumed4 ← modListener (some s.cfg.listener4) .listener4 Bits.input
        let resumed6 ← modListener s.cfg.listener6 .listener6 Bits.input
        if resumed4 && resumed6 then
          modify fun s => { s with listenersPaused := false, listenersResumeMs := 0 }
        else
          modify fun s => { s with listenersResumeMs := (now + tcpFdBackoffMs) % UInt64.size }
      else modify fun s => { s with listenersResumeMs := (now + tcpFdBackoffMs) % UInt64.size }) := by
    intro spare
    refine calms_ite ?_ (calms_modify fun s t => calm_pausing s.listenersPaused _)
    refine (calms_modListener (.inl rfl) _ _).bind fun resumed4 => ?_
    refine (calms_modListener (.inr rfl) _ _).bind fun resumed6 => calms_ite ?_ ?_
    · exact calms_modify fun s t => calm_pausing false 0
    · exact calms_modify fun s t => calm_pausing s.listenersPaused _
  exact calms_ite ((calms_of_minds fun _ => minds_openSpareFd).bind hspare)
    ((calms_pure true).bind hspare)

/-- What comes before the loop. -/
theorem calms_setUp : Calms setUp := by
  have hadd : ∀ {ref : Ref}, (ref = .listener4 ∨ ref = .listener6) → ∀ fd,
      Calms (addFd fd ref Bits.input) := fun href fd =>
    (calms_ask _).bind fun r => calms_ite
      ((calms_modify fun _ _ => calm_register href fd Bits.input).bind fun _ => calms_pure r)
      (calms_pure r)
  have hend : ∀ r6 : Option Errno, Calms (if r6.isSome then pure false else openSpareFd) := fun r6 =>
    calms_ite (calms_pure false) (calms_of_minds fun _ => minds_openSpareFd)
  refine (calms_ask .epollCreate).bind fun created => calms_ite (calms_pure false) ?_
  refine calms_get.bind fun s => (hadd (.inl rfl) s.cfg.listener4).bind fun r4 =>
    calms_ite (calms_pure false) ?_
  cases s.cfg.listener6 with
  | none => exact (calms_pure none).bind hend
  | some fd => exact (hadd (.inr rfl) fd).bind hend

/-! ## The loop -/

/-- One piece of the loop of `bpf2socks_bridge_tcp_run`, beside a clock: an event, a look at the
clock or at the paused listeners, an expiry scan for a time that was read, the freeing of closed
connections. -/
inductive Piece (A : State × Nat → (q : Sys) → q.Ans → Prop) : State × Nat → State × Nat → Prop where
  | event {w w' : State × Nat} (ref : Ref) (events : Bits)
      (h : Prog.Out A ((handleConnectionEvent ref events).watch tick w) w' ()) : Piece A w w'
  | look {s : State} {t : Nat} (now : Nat) (h : A (s, t) .nowMs now) : Piece A (s, t) (s, now)
  | resume {w w' : State × Nat}
      (h : Prog.Out A (resumeTcpListenersIfDue.watch tick w) w' ()) : Piece A w w'
  | expire {w w' : State × Nat} (now : Nat) (hnow : now ≤ w.2)
      (h : Prog.Out A ((expireTcpConnections now).watch tick w) w' ()) : Piece A w w'
  | free {s : State} {t : Nat} : Piece A (s, t) (s.freeClosedConnections, t)

/-- The states between two pieces of a worker that was set up. -/
def Loop (A : State × Nat → (q : Sys) → q.Ans → Prop) (cfg : Config) (w : State × Nat) : Prop :=
  ∃ w₀, Prog.Out A (setUp.watch tick (initState cfg, 0)) w₀ true ∧
    Relation.ReflTransGen (Piece A) w₀ w

section loop

variable {A : State × Nat → (q : Sys) → q.Ans → Prop} {cfg : Config}

theorem Loop.piece (h : Loop A cfg w) (hp : Piece A w w') : Loop A cfg w' := by
  obtain ⟨w₀, hset, hrun⟩ := h
  exact ⟨w₀, hset, hrun.tail hp⟩

/-- What `bpf2socks_bridge_tcp_run` does after `epoll_wait` is a sequence of pieces. -/
theorem Loop.turn (hA : ∀ {w q r}, A w q r → timely w q r) (events : List (Ref × Bits))
    (h : Loop A cfg w) : Prog.Sat A (fun w' _ => Loop A cfg w') ((turn events).watch tick w) := by
  have hevents : ∀ {w}, Loop A cfg w → Prog.Sat A (fun w' _ => Loop A cfg w')
      ((Act.forEach (fun e : Ref × Bits => handleConnectionEvent e.1 e.2) events).watch tick w) := by
    intro w h
    induction events generalizing w with
    | nil => exact h
    | cons e events ih =>
        show Prog.Sat A _ (Act.watch tick (handleConnectionEvent e.1 e.2 >>= fun _ => _) w)
        rw [Act.watch_bind]
        refine Prog.Sat.bind (m := fun w' _ => Loop A cfg w') ?_ fun w' _ h' => ih h'
        exact Prog.sat_of_out fun w' _ ho => h.piece (.event _ _ ho)
  unfold Tcp.turn
  rw [Act.watch_bind]
  refine (hevents h).bind fun w₁ _ h₁ => fun (now : Nat) hnow => ?_
  obtain ⟨s₁, t₁⟩ := w₁
  show Prog.Sat A _ (Act.watch tick (resumeTcpListenersIfDue >>= fun _ => _) (s₁, now))
  rw [Act.watch_bind]
  refine Prog.Sat.bind (m := fun w' _ => Loop A cfg w' ∧ now ≤ w'.2) ?_ fun w₂ _ h₂ => ?_
  · refine Prog.sat_of_out fun w' _ ho => ⟨(h₁.piece (.look now hnow)).piece (.resume ho), ?_⟩
    exact ((calms_resumeTcpListenersIfDue _).out (ho.weaken fun _ _ _ => hA)).clock.1
  · show Prog.Sat A _ (Act.watch tick (expireTcpConnections now >>= fun _ => _) w₂)
    rw [Act.watch_bind]
    refine Prog.Sat.bind (m := fun w' _ => Loop A cfg w') ?_ fun w₃ _ h₃ => h₃.piece .free
    exact Prog.sat_of_out fun w' _ ho => h₂.1.piece (.expire now h₂.2 ho)

end loop

/-- No descriptor but the listeners exists at first. -/
theorem listed_initState (cfg : Config) : Listed (initState cfg) where
  nodup := List.nodup_nil
  live h := nomatch h
  activeLt h := nomatch h
  closedLt h := nomatch h
  apart h := nomatch h
  known h := nomatch h
  listeners {fd} hf := by
    refine ⟨if_pos (hf.imp_right Eq.symm), fun hh => ?_⟩
    cases hh with
    | socket c d h => cases h
    | read c d h => cases h
    | write c d h => cases h
    | pool p hp h => cases hp
    | spare h => cases h

/-! ### Runs on a script -/

/-- `Ticks`, decided. -/
def ticksb (t : Nat) : (q : Sys) → q.Ans → Bool
  | .nowMs, (r : Nat) => t ≤ r && 0 < r && r < clockEnd
  | _, _ => true

/-- `timely`, decided. -/
def timelyb (w : State × Nat) (q : Sys) (r : q.Ans) : Bool := okb w.1 q r && ticksb w.2 q r

theorem timely_of_b {q : Sys} {r : q.Ans} (h : timelyb w q r = true) : timely w q r := by
  obtain ⟨hok, hticks⟩ := Bool.and_eq_true_iff.mp h
  refine ⟨hok, ?_⟩
  cases q with
  | nowMs =>
      have hticks : (decide (w.2 ≤ r) && decide (0 < r) && decide (r < clockEnd)) = true := hticks
      simpa [Ticks, and_assoc] using hticks
  | _ => trivial

/-- Surroundings where the `n`-th question is the last before the worker is stopped, a client comes
as `client` says, and a listener is taken out of the epoll set as `deletes` says.  All else works. -/
def serve (last now : Nat) (client : Except Errno Nat) (deletes : Nat → Bool) :
    Nat → (q : Sys) → q.Ans
  | n, .stopRequested => decide (last < n)
  | _, .nowMs => now
  | _, .retries => (1 : Nat)
  | _, .errno => Errno.other
  | _, .accept _ => client
  | _, .originalDst _ => some (⟨.unspec, 0, []⟩ : DstAddr)
  | _, .budgetLoad => (0 : Nat)
  | _, .budgetCas _ _ => Except.ok ()
  | _, .budgetSub _ => ()
  | _, .calloc => none
  | _, .connect => .ok ((8 : Nat), true)
  | _, .send _ _ => .error .eagain
  | _, .recv _ _ => .error .eagain
  | _, .pipe2 => .error .other
  | _, .setPipeSize _ _ => none
  | _, .pipeWrite _ _ => .error .eagain
  | _, .spliceIn _ _ _ => SpliceIn.empty
  | _, .spliceOut _ _ _ => .error .eagain
  | _, .fionread _ => none
  | _, .shutdown _ => none
  | _, .epollCreate => true
  | _, .epollAdd _ _ _ => none
  | _, .epollMod _ _ _ => none
  | _, .epollDel fd => deletes fd
  | _, .epollWait _ => .error .eintr
  | _, .openSpare => some (9 : Nat)

end Bpf2Socks.Tcp
