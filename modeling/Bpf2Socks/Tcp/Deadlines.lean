/-
# Bpf2Socks.Tcp.Deadlines — timeouts are never missed.

The worker caches one time, a lower bound of the deadlines of its active connections, and scans them
only when that time has come.  The bound is lowered with every event about a connection and with
every new one; only the scan raises it, and it starts again from no deadline at all.  `Timed` is the
invariant: it is `Steady`, so accepting keeps it, and the scan is an induction over the list.
-/
import Bpf2Socks.Tcp.Turns

namespace Bpf2Socks.Tcp

open Function (update update_self update_of_ne)
open Lib (Act Prog)
open Worker

variable {s s' : State} {c t now : Nat} {w w' : State × Nat}

/-! ## One deadline -/

/-- The timeouts are 32 bits wide. -/
structure Config.Timeouts (cfg : Config) : Prop where
  connect : cfg.connectTimeoutMs < UInt32.size
  idle : cfg.tcpIdleTimeoutMs < UInt32.size

/-- `deadline_tcp_expired`, for a connection. -/
def State.expired (s : State) (now c : Nat) : Bool :=
  deadlineTcpExpired now (s.conns c).createdAtMs (s.conns c).lastActivityMs
    ((s.conns c).stage = .relay) s.cfg.connectTimeoutMs s.cfg.tcpIdleTimeoutMs

/-- A timeout that started at `start` is over when `start + timeout` is reached. -/
theorem timeout_over {start timeout : Nat} (hstart : start < clockEnd) (htimeout : timeout < UInt32.size)
    (hnow : now < clockEnd) :
    ((now ≠ 0 ∧ start ≠ 0 ∧ timeout ≠ 0 ∧ start ≤ now ∧ timeout ≤ now - start) ↔
      (if start = 0 ∨ timeout = 0 then noDeadline else (start + timeout) % UInt64.size) ≤ now) := by
  have hend : clockEnd + UInt32.size ≤ noDeadline := by decide
  have hsize : noDeadline < UInt64.size := by decide
  split
  · omega
  · rw [Nat.mod_eq_of_lt (by omega)]
    omega

/-- **`deadline_tcp_expired` tells whether the deadline has come.** -/
theorem expired_iff (hcfg : s.cfg.Timeouts) (hs : Stamped (s.conns c) t) (ht : t < clockEnd)
    (hnow : now < clockEnd) : s.expired now c = true ↔ s.deadline c ≤ now := by
  have hcreated := timeout_over (Nat.lt_of_le_of_lt hs.1 ht) hcfg.connect hnow
  have hactive := timeout_over (Nat.lt_of_le_of_lt hs.2 ht) hcfg.idle hnow
  unfold State.expired State.deadline deadlineTcpExpired connectionDeadline
  by_cases hstage : (s.conns c).stage = .relay
  · simp only [hstage, ne_eq, not_true_eq_false, if_false]
    rw [← hactive]
    by_cases hzero : now = 0 <;> by_cases hlast : (s.conns c).lastActivityMs = 0 <;>
      simp [hzero, hlast, and_assoc]
  · simp only [hstage, ne_eq, not_false_eq_true, if_true]
    rw [← hcreated]
    by_cases hzero : now = 0 <;> by_cases hstart : (s.conns c).createdAtMs = 0 <;>
      simp [hzero, hstart, and_assoc]

/-! ## The invariant -/

/-- The cached deadline is not later than that of any active connection. -/
structure Timed (w : State × Nat) : Prop where
  listed : Listed w.1
  timeouts : w.1.cfg.Timeouts
  clock : w.2 < clockEnd
  stamped : ∀ {c}, c ∈ w.1.active → Stamped (w.1.conns c) w.2
  next : ∀ {c}, c ∈ w.1.active → w.1.nextDeadlineMs ≤ w.1.deadline c

theorem Stamped.later {k : Conn} {t t' : Nat} (h : Stamped k t) (ht : t ≤ t') : Stamped k t' :=
  ⟨Nat.le_trans h.1 ht, Nat.le_trans h.2 ht⟩

theorem Timed.moves (h : Timed w) (m : Moves c w w') (hl : Listed w'.1) : Timed w' := by
  have hother : ∀ {e}, e ∈ w'.1.active → e ≠ c → e ∈ w.1.active ∧ w'.1.conns e = w.1.conns e :=
    fun he hne => ⟨(m.active he).resolve_left hne, m.conns hne⟩
  refine ⟨hl, m.cfg ▸ h.timeouts, m.clock.2 h.clock, fun {e} he => ?_, fun {e} he => ?_⟩
  · by_cases hne : e = c
    · subst hne
      exact m.stamped h.stamped he
    · obtain ⟨hmem, hconn⟩ := hother he hne
      rw [hconn]
      exact (h.stamped hmem).later m.clock.1
  · by_cases hne : e = c
    · subst hne
      exact m.noted he
    · obtain ⟨hmem, hconn⟩ := hother he hne
      have hdeadline : w'.1.deadline e = w.1.deadline e := by
        unfold State.deadline
        rw [m.cfg, hconn]
      exact hdeadline ▸ Nat.le_trans m.next (h.next hmem)

theorem Timed.calm (h : Timed w) (k : Calm w w') : Timed w' := by
  have hdeadline : ∀ c, w'.1.deadline c = w.1.deadline c := fun c => by
    unfold State.deadline
    rw [k.cfg, k.conns]
  refine ⟨h.listed.calm k, k.cfg ▸ h.timeouts, k.clock.2 h.clock, fun hc => ?_, fun hc => ?_⟩
  · rw [k.conns]
    exact (h.stamped (k.active ▸ hc)).later k.clock.1
  · rw [k.next, hdeadline]
    exact h.next (k.active ▸ hc)

/-- Accepting, and every event, keeps the invariant. -/
theorem steady_timed : Steady timely Timed where
  timely := id
  listed h := h.listed
  moves m hl h := h.moves m hl
  pause {w} h := (calms_pauseTcpListeners w).mono fun _ _ k => h.calm k

theorem Timed.free (h : Timed (s, t)) : Timed (s.freeClosedConnections, t) := by
  refine steady_timed.freeConnections s.closed ?_ fun c hc => ⟨h.listed.closedLt hc, fun hmem => ?_⟩
  · refine ⟨⟨h.listed.nodup, h.listed.live, h.listed.activeLt, fun hc => (nomatch hc),
      fun _ hc => (nomatch hc), h.listed.known, fun hf => ?_⟩, h.timeouts, h.clock, h.stamped, h.next⟩
    exact (h.listed.listeners hf).congr rfl rfl rfl rfl
  · exact h.listed.apart hmem hc

/-! ## The scan -/

/-- The scan at `now` has still to look at `rest`. -/
structure Scanning (now : Nat) (rest : List Nat) (w : State × Nat) : Prop where
  listed : Listed w.1
  timeouts : w.1.cfg.Timeouts
  clock : w.2 < clockEnd
  stamped : ∀ {c}, c ∈ w.1.active → Stamped (w.1.conns c) w.2
  seen : ∀ {c}, c ∈ w.1.active →
    c ∈ rest ∨ (w.1.nextDeadlineMs ≤ w.1.deadline c ∧ now < w.1.deadline c)

/-- A connection whose time has come is closed. -/
theorem Scanning.ends {rest : List Nat} (h : Scanning now (c :: rest) w) (e : Ends c w w')
    (hlt : c < w.1.accepted) : Scanning now rest w' := by
  have hother : ∀ {e}, e ∈ w'.1.active → e ≠ c := by
    rintro _ he rfl
    exact e.gone h.listed he
  refine ⟨e.listed h.listed hlt, e.cfg ▸ h.timeouts, e.clock.2 h.clock, fun hc => ?_, fun {f} hc => ?_⟩
  · rw [e.conns (hother hc)]
    exact (h.stamped (e.active hc)).later e.clock.1
  · have hdeadline : w'.1.deadline f = w.1.deadline f := by
      unfold State.deadline
      rw [e.cfg, e.conns (hother hc)]
    rw [e.next, hdeadline]
    rcases h.seen (e.active hc) with hmem | hseen
    · exact .inl ((List.mem_cons.mp hmem).resolve_left (hother hc))
    · exact .inr hseen

/-- The deadline of any other is noted. -/
theorem Scanning.note {rest : List Nat} (h : Scanning now (c :: rest) (s, t))
    (hlater : c ∈ s.active → now < s.deadline c) : Scanning now rest (s.noteConnectionDeadline c, t) := by
  obtain ⟨hcfg, hconns, hactive, -⟩ := note_rest s c
  have hdeadline : ∀ e, (s.noteConnectionDeadline c).deadline e = s.deadline e := fun e => by
    unfold State.deadline
    rw [hcfg, hconns]
  refine ⟨h.listed.note c, hcfg.symm ▸ h.timeouts, h.clock, fun {e} he => ?_, fun {e} he => ?_⟩
  · have he : e ∈ (s.noteConnectionDeadline c).active := he
    show Stamped ((s.noteConnectionDeadline c).conns e) t
    rw [hconns]
    exact h.stamped (hactive ▸ he)
  · have hmem₀ : e ∈ s.active := hactive ▸ he
    have hnext := next_note s c
    show e ∈ rest ∨ ((s.noteConnectionDeadline c).nextDeadlineMs ≤
      (s.noteConnectionDeadline c).deadline e ∧ now < (s.noteConnectionDeadline c).deadline e)
    rw [hdeadline]
    rcases h.seen hmem₀ with hmem | ⟨hle, hlt⟩
    · rcases List.mem_cons.mp hmem with rfl | hmem
      · exact .inr ⟨hnext.2 (h.listed.live hmem₀).1, hlater hmem₀⟩
      · exact .inl hmem
    · exact .inr ⟨Nat.le_trans hnext.1 hle, hlt⟩

/-- One turn of the scan. -/
theorem expireTcpConnection_sat {rest : List Nat} (hnow : now < clockEnd) (hlt : c < w.1.accepted)
    (h : Scanning now (c :: rest) w) :
    Prog.Sat timely (fun w' _ => Scanning now rest w' ∧ w.1.accepted ≤ w'.1.accepted)
      ((expireTcpConnection now c).watch tick w) := by
  obtain ⟨s, t⟩ := w
  have hdrop : ∀ {w₀ w₁ : State × Nat}, Beside c (s, t) w₀ → Ends c w₀ w₁ →
      Scanning now rest w₁ ∧ s.accepted ≤ w₁.1.accepted := fun ha he =>
    ⟨h.ends (ha.handles.ends he hlt) hlt, Nat.le_trans ha.accepted he.accepted⟩
  show Prog.Sat timely _ (Prog.watch tick t ((if s.expired now c = true then
      if (s.conns c).stage = .relay then do
        modify fun s => s.mark c .idle true
        closeConnection c
      else resetConnection c .upstream
    else modify fun s => s.noteConnectionDeadline c : Worker Unit) s))
  by_cases hexpired : s.expired now c = true
  · rw [if_pos hexpired]
    by_cases hstage : (s.conns c).stage = .relay
    · rw [if_pos hstage]
      refine (closeConnection_ends c (s.mark c .idle true, t)).mono fun w' _ he => ?_
      exact hdrop (beside_mark c .idle true) he
    · rw [if_neg hstage]
      refine (resetConnection_ends .upstream (w := (s, t)) hlt).mono fun w' _ he => ?_
      exact hdrop (Beside.refl c (s, t)) he
  · rw [if_neg hexpired]
    have haccepted := (note_rest s c).2.2.2.1
    refine ⟨h.note fun hc => Nat.lt_of_not_le fun hle => hexpired ?_, Nat.le_of_eq haccepted.symm⟩
    exact (expired_iff h.timeouts (h.stamped hc) h.clock hnow).mpr hle

theorem scan_sat (hnow : now < clockEnd) (rest : List Nat) (hlt : ∀ c ∈ rest, c < w.1.accepted)
    (h : Scanning now rest w) : Prog.Sat timely (fun w' _ => Scanning now [] w')
      ((Act.forEach (expireTcpConnection now) rest).watch tick w) := by
  induction rest generalizing w with
  | nil => exact h
  | cons c rest ih =>
      show Prog.Sat timely _ (Act.watch tick (expireTcpConnection now c >>= fun _ => _) w)
      rw [Act.watch_bind]
      refine (expireTcpConnection_sat hnow (hlt c List.mem_cons_self) h).bind fun w₁ _ ⟨h₁, hle⟩ => ?_
      exact ih (fun e he => Nat.lt_of_lt_of_le (hlt e (List.mem_cons_of_mem c he)) hle) h₁

/-- A deadline is never zero. -/
theorem deadline_pos (hcfg : s.cfg.Timeouts) (hs : Stamped (s.conns c) t) (ht : t < clockEnd) :
    0 < s.deadline c := by
  refine Nat.pos_of_ne_zero fun hzero => ?_
  have hexpired : s.expired 0 c = true :=
    (expired_iff hcfg hs ht (by decide)).mpr (Nat.le_of_eq hzero)
  exact Bool.false_ne_true hexpired

/-- **`expire_tcp_connections`**: no deadline up to `now` is left. -/
theorem expireTcpConnections_sat (h : Timed w) (hnow : now ≤ w.2) :
    Prog.Sat timely (fun w' _ => Timed w' ∧ ∀ c ∈ w'.1.active, now < w'.1.deadline c)
      ((expireTcpConnections now).watch tick w) := by
  obtain ⟨s, t⟩ := w
  have hlt : now < clockEnd := Nat.lt_of_le_of_lt hnow h.clock
  show Prog.Sat timely _ (Prog.watch tick t ((if now = 0 ∨ now < s.nextDeadlineMs then pure ()
    else do
      modify fun s => { s with nextDeadlineMs := noDeadline }
      Act.forEach (expireTcpConnection now) s.active : Worker Unit) s))
  by_cases hskip : now = 0 ∨ now < s.nextDeadlineMs
  · rw [if_pos hskip]
    refine ⟨h, fun c hc => ?_⟩
    rcases hskip with rfl | hskip
    · exact deadline_pos h.timeouts (h.stamped hc) h.clock
    · exact Nat.lt_of_lt_of_le hskip (h.next hc)
  · rw [if_neg hskip]
    have hscan : Scanning now s.active ({ s with nextDeadlineMs := noDeadline }, t) := by
      refine ⟨⟨h.listed.nodup, h.listed.live, h.listed.activeLt, h.listed.closedLt, h.listed.apart,
        h.listed.known, fun hf => ?_⟩, h.timeouts, h.clock, h.stamped, fun hc => .inl hc⟩
      exact (h.listed.listeners hf).congr rfl rfl rfl rfl
    refine (scan_sat (w := ({ s with nextDeadlineMs := noDeadline }, t)) hlt s.active
      (fun c hc => h.listed.activeLt hc) hscan).mono fun w' _ h' => ?_
    have hseen : ∀ {c}, c ∈ w'.1.active →
        w'.1.nextDeadlineMs ≤ w'.1.deadline c ∧ now < w'.1.deadline c := fun hc =>
      (h'.seen hc).resolve_left fun hmem => nomatch hmem
    exact ⟨⟨h'.listed, h'.timeouts, h'.clock, h'.stamped, fun hc => (hseen hc).1⟩,
      fun c hc => (hseen hc).2⟩

/-! ## The loop -/

theorem timed_initState {cfg : Config} (hcfg : cfg.Timeouts) : Timed (initState cfg, 0) :=
  ⟨listed_initState cfg, hcfg, (by decide : 0 < clockEnd), fun hc => (nomatch hc), fun hc => (nomatch hc)⟩

theorem Timed.piece (h : Timed w) (hp : Piece timely w w') : Timed w' := by
  cases hp with
  | event ref events ho => exact (steady_timed.handleConnectionEvent ref events h).out ho
  | look now ha =>
      obtain ⟨-, hle, -, hlt⟩ := ha
      exact ⟨h.listed, h.timeouts, hlt, fun hc => (h.stamped hc).later hle, h.next⟩
  | resume ho => exact h.calm ((calms_resumeTcpListenersIfDue w).out ho)
  | expire now hnow ho => exact ((expireTcpConnections_sat h hnow).out ho).1
  | free => exact h.free

theorem Loop.timed {cfg : Config} (hcfg : cfg.Timeouts) (h : Loop timely cfg w) : Timed w := by
  obtain ⟨w₀, hset, hrun⟩ := h
  have h₀ : Timed w₀ := (timed_initState hcfg).calm ((calms_setUp _).out hset)
  induction hrun with
  | refl => exact h₀
  | tail _ hp ih => exact ih.piece hp

/-- **Timeouts are never missed.** -/
theorem timeouts_met {cfg : Config} (hcfg : cfg.Timeouts) (h : Loop timely cfg w) :
    (∀ c ∈ w.1.active, w.1.nextDeadlineMs ≤ w.1.deadline c) ∧
      (∀ c ∈ w.1.active, ∀ now < clockEnd, w.1.expired now c = true ↔ w.1.deadline c ≤ now) ∧
      ∀ now ≤ w.2, ∀ w', Prog.Out timely ((expireTcpConnections now).watch tick w) w' () →
        ∀ c ∈ w'.1.active, now < w'.1.deadline c := by
  have ht : Timed w := h.timed hcfg
  refine ⟨fun c hc => ht.next hc, fun c hc now hnow => ?_, fun now hnow w' ho => ?_⟩
  · exact expired_iff ht.timeouts (ht.stamped hc) ht.clock hnow
  · exact ((expireTcpConnections_sat ht hnow).out ho).2

/-- A worker with one listener. -/
def lone : Config :=
  { listener4 := 3, listener6 := none, connectTimeoutMs := 5000, tcpIdleTimeoutMs := 300000
    sessionCap := 16, debugStats := false }

/-- A client came at 100, and its connection has begun. -/
theorem loop_begun : ∃ w, Loop timely lone w ∧ w.1.active = [0] ∧ w.1.deadline 0 = 5100 ∧
    w.2 = 100 := by
  have hrun : (Prog.exec timelyb (serve 1 100 (.ok 7) fun _ => true) 0
      (setUp.watch tick (initState lone, 0))).any (fun r₀ => r₀.2 &&
        (Prog.exec timelyb (serve 1 100 (.ok 7) fun _ => true) 0
          ((handleConnectionEvent .listener4 Udp.Bits.input).watch tick r₀.1)).any fun r =>
            decide (r.1.1.active = [0] ∧ r.1.1.deadline 0 = 5100 ∧ r.1.2 = 100)) = true := by
    decide +kernel
  obtain ⟨⟨w₀, b⟩, hset, hrest⟩ := (Option.any_eq_true _ _).mp hrun
  obtain ⟨hb, hrest⟩ := Bool.and_eq_true_iff.mp hrest
  obtain ⟨⟨w, _⟩, hevent, hw⟩ := (Option.any_eq_true _ _).mp hrest
  have hb : b = true := hb
  subst hb
  refine ⟨w, ⟨w₀, Prog.exec_out (fun _ _ _ => timely_of_b) hset, .tail .refl ?_⟩,
    of_decide_eq_true hw⟩
  exact .event _ _ (Prog.exec_out (fun _ _ _ => timely_of_b) hevent)

/-- Its deadline is noted. -/
theorem begun_noted : ∃ w, Loop timely lone w ∧ w.1.active = [0] ∧ w.1.nextDeadlineMs ≤ 5100 := by
  obtain ⟨w, hloop, hactive, hdeadline, -⟩ := loop_begun
  refine ⟨w, hloop, hactive, hdeadline ▸ ?_⟩
  exact (timeouts_met ⟨by decide, by decide⟩ hloop).1 0 (hactive ▸ List.mem_cons_self)

end Bpf2Socks.Tcp
