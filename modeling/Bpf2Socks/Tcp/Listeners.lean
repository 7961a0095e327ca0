/-
# Bpf2Socks.Tcp.Listeners — pausing the listeners, and when it is all or nothing.

A worker that runs out of descriptors takes its two listeners out of the epoll set, and puts them
back when a second has passed.  Each listener takes a system call of its own.  As long as the two
calls of a pause or of a resume end alike, a worker that is not paused listens on both, and one that
is paused listens on none and wakes up in time to resume.

When they end differently nothing brings the two back in line: a pause that took out one listener
only leaves the worker unpaused, and a resume concerns paused workers.
-/
import Bpf2Socks.Tcp.Turns

namespace Bpf2Socks.Tcp

open Function (update update_self update_of_ne)
open Lib (Act Prog)
open Udp (Bits)
open Worker

variable {s s' : State} {c t fd now : Nat} {events : Bits} {w w' : State × Nat}

/-! ## What is registered -/

/-- The descriptor of a listener, by its ref. -/
def Config.names (cfg : Config) : Ref → Option Nat
  | .listener4 => some cfg.listener4
  | .listener6 => cfg.listener6
  | .conn _ _ => none

/-- Every listener is registered for `events`, or for nothing. -/
def Posted (s : State) (events : Bits) : Prop :=
  ∀ ref fd, s.cfg.names ref = some fd → s.refEvents ref = events ∧
    s.interest fd = if events = Bits.none then none else some (ref, events)

theorem Config.listener_of_names {cfg : Config} {ref : Ref} (h : cfg.names ref = some fd) :
    cfg.Listener fd := by
  cases ref with
  | listener4 => exact .inl (Option.some.inj h).symm
  | listener6 => exact .inr h
  | conn c d => cases h

/-- The fields and the epoll set are as before, for the listeners. -/
theorem Posted.congr (h : Posted s events) (hcfg : s'.cfg = s.cfg)
    (h₄ : s'.listener4Events = s.listener4Events) (h₆ : s'.listener6Events = s.listener6Events)
    (hint : ∀ {fd}, s.cfg.Listener fd → s'.interest fd = s.interest fd) : Posted s' events := by
  intro ref fd href
  have href' : s.cfg.names ref = some fd := hcfg ▸ href
  obtain ⟨hev, hreg⟩ := h ref fd href'
  refine ⟨?_, (hint (Config.listener_of_names href')).trans hreg⟩
  cases ref with
  | listener4 => exact h₄.trans hev
  | listener6 => exact h₆.trans hev
  | conn c d => cases href'

/-! ## The answers -/

/-- The second call of a pause or of a resume ends as the first did: of a pause, when the first
listener is registered no more; of a resume, when it is registered again. -/
def Agree (s : State) : (q : Sys) → q.Ans → Prop
  | .epollDel fd, (r : Bool) => s.cfg.listener6 = some fd → r = decide (s.listener4Events = Bits.none)
  | .epollAdd _ .listener6 _, (r : Option Errno) => r.isNone = decide (s.listener4Events ≠ Bits.none)
  | _, _ => True

/-- Admissible answers that agree, beside a clock. -/
def agreeing (w : State × Nat) (q : Sys) (r : q.Ans) : Prop := timely w q r ∧ Agree w.1 q r

/-- Between turns, the listeners are all registered or all paused, and a pause has an end. -/
structure Guarded (w : State × Nat) : Prop where
  listed : Listed w.1
  distinct : w.1.cfg.listener6 ≠ some w.1.cfg.listener4
  posted : Posted w.1 (if w.1.listenersPaused then Bits.none else Bits.input)
  resume : w.1.listenersPaused = true → w.1.listenersResumeMs ≤ w.2 + tcpFdBackoffMs

theorem Guarded.congr (h : Guarded w) (hl : Listed w'.1) (hcfg : w'.1.cfg = w.1.cfg)
    (hpausing : w'.1.pausing = w.1.pausing) (hclock : w.2 ≤ w'.2)
    (hint : ∀ {fd}, w.1.cfg.Listener fd → w'.1.interest fd = w.1.interest fd) : Guarded w' := by
  have hpaused : w'.1.listenersPaused = w.1.listenersPaused :=
    congrArg Pausing.listenersPaused hpausing
  have hresume : w'.1.listenersResumeMs = w.1.listenersResumeMs :=
    congrArg Pausing.listenersResumeMs hpausing
  refine ⟨hl, hcfg ▸ h.distinct, ?_, fun hp => ?_⟩
  · rw [hpaused]
    exact h.posted.congr hcfg (congrArg Pausing.listener4Events hpausing)
      (congrArg Pausing.listener6Events hpausing) hint
  · rw [hresume]
    exact Nat.le_trans (h.resume (hpaused ▸ hp)) (Nat.add_le_add_right hclock _)

theorem Guarded.moves (h : Guarded w) (m : Moves c w w') (hl : Listed w'.1) : Guarded w' :=
  h.congr hl m.cfg m.pausing m.clock.1 fun hf => (m.untouched hf (h.listed.listeners hf)).2

theorem Guarded.handles (h : Guarded w) (k : Handles c w w') (hlt : c < w.1.accepted) : Guarded w' :=
  h.congr (k.listed h.listed hlt) k.cfg k.pausing k.clock.1 fun hf =>
    (k.untouched hf (h.listed.listeners hf)).2

/-! ## Pausing -/

/-- A registered listener is taken out. -/
theorem modListener_pause {ref : Ref} (href : s.refEvents ref = Bits.input) :
    modListener (some fd) ref Bits.none s = .ask s (.epollDel fd) fun r : Bool =>
      .ret (if r = true then s.register fd ref Bits.none else s) r := by
  have hne : s.refEvents ref ≠ Bits.none := by
    rw [href]
    decide
  simp only [modListener, modFd, Act.bind_run, get_run, Prog.ret_bind, hne, ne_eq, if_true, if_false,
    false_ne_true, not_false_eq_true, ask_run, Prog.ask_bind]
  congr 1
  funext r
  cases r <;> rfl

/-- A listener that was taken out is put back. -/
theorem modListener_resume {ref : Ref} (href : s.refEvents ref = Bits.none) :
    modListener (some fd) ref Bits.input s = .ask s (.epollAdd fd ref Bits.input)
      fun r : Option Errno =>
        .ret (if r.isNone = true then s.register fd ref Bits.input else s) r.isNone := by
  have hne : s.refEvents ref ≠ Bits.input := by
    rw [href]
    decide
  have hinput : Bits.input ≠ Bits.none := by decide
  simp only [modListener, modFd, Act.bind_run, get_run, Prog.ret_bind, href, hinput, hinput.symm, ne_eq,
    if_true, if_false, true_ne_false, not_false_eq_true, ask_run, Prog.ask_bind]
  congr 1
  funext r
  cases r <;> rfl

/-- What both calls of a pause or of a resume lead to, when they succeed. -/
def State.post (s : State) (events : Bits) : State :=
  let s₁ := s.register s.cfg.listener4 .listener4 events
  match s.cfg.listener6 with
  | none => s₁
  | some fd => s₁.register fd .listener6 events

theorem calm_post (s : State) (t : Nat) (events : Bits) : Calm (s, t) (s.post events, t) := by
  have h₄ : Calm (s, t) (s.register s.cfg.listener4 .listener4 events, t) :=
    calm_register (.inl rfl) _ events
  unfold State.post
  cases s.cfg.listener6 with
  | none => exact h₄
  | some fd => exact h₄.trans (calm_register (.inr rfl) fd events)

theorem posted_post (hne : s.cfg.listener6 ≠ some s.cfg.listener4) (events : Bits) :
    Posted (s.post events) events := by
  have hcfg : (s.post events).cfg = s.cfg := (calm_post s 0 events).cfg
  intro ref fd href
  rw [hcfg] at href
  unfold State.post
  cases h₆ : s.cfg.listener6 with
  | none =>
      cases ref with
      | listener4 =>
          obtain rfl : s.cfg.listener4 = fd := Option.some.inj href
          exact ⟨rfl, update_self ..⟩
      | listener6 => exact nomatch h₆.symm.trans href
      | conn c d => cases href
  | some fd6 =>
      cases ref with
      | listener4 =>
          obtain rfl : s.cfg.listener4 = fd := Option.some.inj href
          have hfd : s.cfg.listener4 ≠ fd6 := fun h => hne (h ▸ h₆)
          exact ⟨rfl, (update_of_ne hfd ..).trans (update_self ..)⟩
      | listener6 =>
          obtain rfl : fd6 = fd := Option.some.inj (h₆.symm.trans href)
          exact ⟨rfl, update_self ..⟩
      | conn c d => cases href

/-- What is left of a pause when its calls succeeded. -/
theorem park_sat (hl : Listed s) (hne : s.cfg.listener6 ≠ some s.cfg.listener4) (t : Nat)
    (hp : Posted s Bits.none) : Prog.Sat agreeing (fun w' _ => Guarded w') ((do
      modify fun s => { s with listenersPaused := true }
      let now ← nowMs
      modify fun s => { s with listenersResumeMs := (now + tcpFdBackoffMs) % UInt64.size }
        : Worker Unit).watch tick (s, t)) := by
  rintro (now : Nat) -
  refine ⟨?_, hne, hp.congr rfl rfl rfl fun _ => rfl, fun _ => Nat.mod_le _ _⟩
  exact hl.paused true _

/-- **`pause_tcp_listeners`**, when its calls end alike. -/
theorem pauseTcpListeners_sat (h : Guarded w) :
    Prog.Sat agreeing (fun w' _ => Guarded w') (pauseTcpListeners.watch tick w) := by
  obtain ⟨s, t⟩ := w
  show Prog.Sat agreeing _ (Prog.watch tick t (pauseTcpListeners s))
  simp only [pauseTcpListeners, Act.bind_run, get_run, Prog.ret_bind]
  by_cases hpaused : s.listenersPaused = true
  · rw [if_pos hpaused]
    exact h
  · rw [if_neg hpaused]
    have hposted : Posted s Bits.input := by
      have := h.posted
      rwa [if_neg hpaused] at this
    have h₄ : s.refEvents .listener4 = Bits.input := (hposted .listener4 _ rfl).1
    have hdone : Prog.Sat agreeing (fun w' _ => Guarded w') ((do
        modify fun s => { s with listenersPaused := true }
        let now ← nowMs
        modify fun s => { s with listenersResumeMs := (now + tcpFdBackoffMs) % UInt64.size }
          : Worker Unit).watch tick (s.post Bits.none, t)) := by
      have hcalm := calm_post s t Bits.none
      exact park_sat (h.listed.calm hcalm) (hcalm.cfg ▸ h.distinct) t (posted_post h.distinct _)
    rw [Act.bind_run, modListener_pause h₄]
    rintro (r₄ : Bool) -
    cases h₆ : s.cfg.listener6 with
    | none =>
        have hpost : s.post Bits.none = s.register s.cfg.listener4 .listener4 Bits.none := by
          unfold State.post
          rw [h₆]
        rw [hpost] at hdone
        cases r₄ with
        | true => exact hdone
        | false => exact h
    | some fd =>
        have hpost : s.post Bits.none =
            (s.register s.cfg.listener4 .listener4 Bits.none).register fd .listener6 Bits.none := by
          unfold State.post
          rw [h₆]
        rw [hpost] at hdone
        have hev₆ : s.refEvents .listener6 = Bits.input := (hposted .listener6 fd h₆).1
        cases r₄ with
        | true =>
            show Prog.Sat agreeing _ (Prog.watch tick t ((modListener (some fd) .listener6 Bits.none
              (s.register s.cfg.listener4 .listener4 Bits.none)).bind _))
            have hev : (s.register s.cfg.listener4 .listener4 Bits.none).refEvents .listener6 =
                Bits.input := hev₆
            rw [modListener_pause hev]
            rintro (r₆ : Bool) ⟨-, hagree⟩
            -- both calls end alike, so the second succeeds as the first did
            obtain rfl : r₆ = true := hagree h₆
            exact hdone
        | false =>
            show Prog.Sat agreeing _ (Prog.watch tick t
              ((modListener (some fd) .listener6 Bits.none s).bind _))
            rw [modListener_pause hev₆]
            rintro (r₆ : Bool) ⟨-, hagree⟩
            have hevents : ¬ s.listener4Events = Bits.none := by
              rw [show s.listener4Events = Bits.input from h₄]
              decide
            -- or fails as it did, and then neither listener was touched
            obtain rfl : r₆ = false := (hagree h₆).trans (decide_eq_false hevents)
            exact h

/-- Another time to resume at. -/
theorem Guarded.later (h : Guarded (s, t)) (n : Nat) (hn : n ≤ t + tcpFdBackoffMs) :
    Guarded ({ s with listenersResumeMs := n }, t) :=
  ⟨h.listed.paused s.listenersPaused n, h.distinct, h.posted.congr rfl rfl rfl fun _ => rfl,
    fun _ => hn⟩

/-- The calls of a resume. -/
theorem resumeListeners_sat {cfg : Config} (h : Guarded (s, t)) (hpaused : s.listenersPaused = true)
    (hcfg : s.cfg = cfg) (hnow : now ≤ t) : Prog.Sat agreeing (fun w' _ => Guarded w') ((do
      let resumed4 ← modListener (some cfg.listener4) .listener4 Bits.input
      let resumed6 ← modListener cfg.listener6 .listener6 Bits.input
      if resumed4 && resumed6 then
        modify fun s => { s with listenersPaused := false, listenersResumeMs := 0 }
      else modify fun s => { s with listenersResumeMs := (now + tcpFdBackoffMs) % UInt64.size }
        : Worker Unit).watch tick (s, t)) := by
  subst hcfg
  have hposted : Posted s Bits.none := by
    have := h.posted
    rwa [if_pos hpaused] at this
  have h₄ : s.refEvents .listener4 = Bits.none := (hposted .listener4 _ rfl).1
  have hdone : Guarded ({ s.post Bits.input with
      listenersPaused := false, listenersResumeMs := 0 }, t) := by
    have hcalm := (calm_post s t Bits.input).trans (calm_pausing false 0)
    refine ⟨h.listed.calm hcalm, hcalm.cfg ▸ h.distinct, ?_, fun hp => (nomatch hp)⟩
    exact (posted_post h.distinct Bits.input).congr rfl rfl rfl fun _ => rfl
  -- a resume that fails is tried again later
  have hlater := h.later _ (Nat.le_trans (Nat.mod_le (now + tcpFdBackoffMs) UInt64.size)
    (Nat.add_le_add_right hnow _))
  show Prog.Sat agreeing _ (Prog.watch tick t
    ((modListener (some s.cfg.listener4) .listener4 Bits.input s).bind _))
  rw [modListener_resume h₄]
  rintro (r₄ : Option Errno) -
  cases h₆ : s.cfg.listener6 with
  | none =>
      have hpost : s.post Bits.input = s.register s.cfg.listener4 .listener4 Bits.input := by
        unfold State.post
        rw [h₆]
      rw [hpost] at hdone
      cases r₄ with
      | none => exact hdone
      | some e => exact hlater
  | some fd =>
      have hpost : s.post Bits.input =
          (s.register s.cfg.listener4 .listener4 Bits.input).register fd .listener6 Bits.input := by
        unfold State.post
        rw [h₆]
      rw [hpost] at hdone
      have hev₆ : s.refEvents .listener6 = Bits.none := (hposted .listener6 fd h₆).1
      cases r₄ with
      | none =>
          show Prog.Sat agreeing _ (Prog.watch tick t ((modListener (some fd) .listener6 Bits.input
            (s.register s.cfg.listener4 .listener4 Bits.input)).bind _))
          have hev : (s.register s.cfg.listener4 .listener4 Bits.input).refEvents .listener6 =
              Bits.none := hev₆
          rw [modListener_resume hev]
          rintro (r₆ : Option Errno) ⟨-, hagree⟩
          have hok : r₆.isNone = true := hagree
          obtain rfl : r₆ = none := Option.isNone_iff_eq_none.mp hok
          exact hdone
      | some e =>
          show Prog.Sat agreeing _ (Prog.watch tick t
            ((modListener (some fd) .listener6 Bits.input s).bind _))
          rw [modListener_resume hev₆]
          rintro (r₆ : Option Errno) ⟨-, hagree⟩
          have hnone : s.listener4Events = Bits.none := h₄
          have hok : r₆.isNone = false := hagree.trans (by simp [hnone])
          cases r₆ with
          | none => cases hok
          | some e' => exact hlater

/-- **`resume_tcp_listeners_if_due`**, when its calls end alike. -/
theorem resumeTcpListenersIfDue_sat (h : Guarded w) :
    Prog.Sat agreeing (fun w' _ => Guarded w') (resumeTcpListenersIfDue.watch tick w) := by
  obtain ⟨s, t⟩ := w
  show Prog.Sat agreeing _ (Prog.watch tick t (resumeTcpListenersIfDue s))
  simp only [resumeTcpListenersIfDue, Act.bind_run, get_run, Prog.ret_bind]
  by_cases hpaused : s.listenersPaused = true
  · rw [if_neg (by simp [hpaused])]
    rintro (now : Nat) ⟨⟨-, hle, -⟩, -⟩
    have hnow : Guarded (s, now) := h.congr h.listed rfl rfl hle fun _ => rfl
    show Prog.Sat agreeing _ (Prog.watch tick now ((if now = 0 ∨ now < s.listenersResumeMs then pure ()
      else _ : Worker Unit) s))
    by_cases hearly : now = 0 ∨ now < s.listenersResumeMs
    · rw [if_pos hearly]
      exact hnow
    · rw [if_neg hearly]
      by_cases hspare : s.spareFd.isNone = true
      · rw [if_pos hspare]
        show Prog.Sat agreeing _ (Prog.watch tick now ((openSpareFd s).bind _))
        rw [Prog.watch_bind]
        refine (Prog.Sat.weaken (minds_openSpareFd.sat (c := 0) (s, now)) fun _ _ _ h => h.1).bind
          fun w₁ spare ha => ?_
        have h₁ : Guarded w₁ := hnow.congr (hnow.listed.beside ha) ha.cfg ha.pausing ha.clock.1
          fun hf => (ha.untouched hf (hnow.listed.listeners hf)).2
        have hpaused₁ : w₁.1.listenersPaused = true :=
          (congrArg Pausing.listenersPaused ha.pausing).trans hpaused
        cases spare with
        | true => exact resumeListeners_sat h₁ hpaused₁ ha.cfg ha.clock.1
        | false => exact h₁.later _ (Nat.le_trans (Nat.mod_le _ _) (Nat.add_le_add_right ha.clock.1 _))
      · rw [if_neg hspare]
        exact resumeListeners_sat hnow hpaused rfl (Nat.le_refl _)
  · rw [if_pos (by simp [hpaused])]
    exact h

/-! ## The rest of the loop -/

/-- Accepting, and every event, keeps the invariant. -/
theorem steady_guarded : Steady agreeing Guarded where
  timely h := h.1
  listed h := h.listed
  moves m hl h := h.moves m hl
  pause h := pauseTcpListeners_sat h

theorem Guarded.note (h : Guarded (s, t)) (c : Nat) : Guarded (s.noteConnectionDeadline c, t) := by
  obtain ⟨hcfg, -, -, -, hpausing, hint⟩ := note_rest s c
  exact h.congr (h.listed.note c) hcfg hpausing (Nat.le_refl _) fun _ => congrFun hint _

/-- One turn of the expiry scan. -/
theorem Guarded.expireTcpConnection (h : Guarded w) (hlt : c < w.1.accepted) :
    Prog.Sat timely (fun w' _ => Guarded w' ∧ w.1.accepted ≤ w'.1.accepted)
      ((expireTcpConnection now c).watch tick w) := by
  have hwork : ∀ {m : Worker Unit}, Works c m → Prog.Sat timely (fun w' _ => Guarded w' ∧
      w.1.accepted ≤ w'.1.accepted) (m.watch tick w) := fun hm =>
    (hm w).mono fun w' _ k => ⟨h.handles k hlt, k.accepted⟩
  show Prog.Sat timely _ (Prog.watch tick w.2 (Tcp.expireTcpConnection now c w.1))
  simp only [Tcp.expireTcpConnection, Act.bind_run, get_run, Prog.ret_bind]
  by_cases hexpired : deadlineTcpExpired now (w.1.conns c).createdAtMs (w.1.conns c).lastActivityMs
      ((w.1.conns c).stage = .relay) w.1.cfg.connectTimeoutMs w.1.cfg.tcpIdleTimeoutMs = true
  · rw [if_pos hexpired]
    by_cases hstage : (w.1.conns c).stage = .relay
    · rw [if_pos hstage]
      exact hwork (minds_mark.works.bind fun _ => works_closeConnection)
    · rw [if_neg hstage]
      exact hwork (works_resetConnection _)
  · rw [if_neg hexpired]
    exact ⟨h.note c, Nat.le_of_eq (note_rest w.1 c).2.2.2.1.symm⟩

/-- **`expire_tcp_connections`.** -/
theorem Guarded.expireTcpConnections (h : Guarded w) :
    Prog.Sat timely (fun w' _ => Guarded w') ((expireTcpConnections now).watch tick w) := by
  have hscan : ∀ (rest : List Nat) {w : State × Nat}, Guarded w → (∀ c ∈ rest, c < w.1.accepted) →
      Prog.Sat timely (fun w' _ => Guarded w')
        ((Act.forEach (Tcp.expireTcpConnection now) rest).watch tick w) := by
    intro rest
    induction rest with
    | nil => exact fun h _ => h
    | cons c rest ih =>
        intro w h hlt
        show Prog.Sat timely _ (Act.watch tick (Tcp.expireTcpConnection now c >>= fun _ => _) w)
        rw [Act.watch_bind]
        refine (h.expireTcpConnection (hlt c List.mem_cons_self)).bind fun w₁ _ ⟨h₁, hle⟩ => ?_
        exact ih h₁ fun e he => Nat.lt_of_lt_of_le (hlt e (List.mem_cons_of_mem c he)) hle
  obtain ⟨s, t⟩ := w
  show Prog.Sat timely _ (Prog.watch tick t (Tcp.expireTcpConnections now s))
  simp only [Tcp.expireTcpConnections, Act.bind_run, get_run, Prog.ret_bind]
  by_cases hskip : now = 0 ∨ now < s.nextDeadlineMs
  · rw [if_pos hskip]
    exact h
  · rw [if_neg hskip]
    have hstart : Guarded ({ s with nextDeadlineMs := noDeadline }, t) := by
      refine h.congr ?_ rfl rfl (Nat.le_refl _) fun _ => rfl
      refine ⟨h.listed.nodup, h.listed.live, h.listed.activeLt, h.listed.closedLt, h.listed.apart,
        h.listed.known, fun hf => ?_⟩
      exact (h.listed.listeners hf).congr rfl rfl rfl rfl
    exact hscan s.active hstart fun c hc => h.listed.activeLt hc

theorem Guarded.free (h : Guarded (s, t)) : Guarded (s.freeClosedConnections, t) := by
  refine steady_guarded.freeConnections s.closed ?_ fun c hc =>
    ⟨h.listed.closedLt hc, fun hmem => h.listed.apart hmem hc⟩
  refine ⟨?_, h.distinct, h.posted.congr rfl rfl rfl fun _ => rfl, fun hp => ?_⟩
  · refine ⟨h.listed.nodup, h.listed.live, h.listed.activeLt, fun hc => (nomatch hc),
      fun _ hc => (nomatch hc), h.listed.known, fun hf => ?_⟩
    exact (h.listed.listeners hf).congr rfl rfl rfl rfl
  · show (if s.closed ≠ [] ∧ s.listenersPaused = true then 0 else s.listenersResumeMs) ≤ _
    split
    · exact Nat.zero_le _
    · exact h.resume hp

/-- A worker that was set up listens. -/
theorem setUp_sat {cfg : Config} (hne : cfg.listener6 ≠ some cfg.listener4) :
    Prog.Sat timely (fun w' b => b = true → Guarded w') (setUp.watch tick (initState cfg, 0)) := by
  have hposted : Guarded ((initState cfg).post Bits.input, 0) := by
    have hcalm := calm_post (initState cfg) 0 Bits.input
    have hpaused : ((initState cfg).post Bits.input).listenersPaused = false := by
      unfold State.post
      cases (initState cfg).cfg.listener6 <;> rfl
    refine ⟨(listed_initState cfg).calm hcalm, hcalm.cfg ▸ hne, ?_, fun hp => ?_⟩
    · rw [hpaused]
      exact posted_post hne Bits.input
    · rw [hpaused] at hp
      cases hp
  have hspare : Prog.Sat timely (fun w' b => b = true → Guarded w')
      (openSpareFd.watch tick ((initState cfg).post Bits.input, 0)) := by
    refine (minds_openSpareFd.sat (c := 0) _).mono fun w' b ha _ => ?_
    exact hposted.congr (hposted.listed.beside ha) ha.cfg ha.pausing ha.clock.1
      fun hf => (ha.untouched hf (hposted.listed.listeners hf)).2
  -- the listener for IPv6, when there is one
  have hsecond : ∀ o, cfg.listener6 = o → Prog.Sat timely (fun w' b => b = true → Guarded w')
      ((do
        let r6 ← match o with
          | none => pure none
          | some fd => addFd fd .listener6 Bits.input
        if r6.isSome then pure false else openSpareFd : Worker Bool).watch tick
          ((initState cfg).register cfg.listener4 .listener4 Bits.input, 0)) := by
    intro o h₆
    have h₆' : (initState cfg).cfg.listener6 = o := h₆
    unfold State.post at hspare
    rw [h₆'] at hspare
    cases o with
    | none => exact hspare
    | some fd =>
        rintro (r₆ : Option Errno) -
        cases r₆ with
        | none => exact hspare
        | some e => exact fun hb => (nomatch hb)
  rintro (created : Bool) -
  cases created with
  | false => exact fun hb => (nomatch hb)
  | true =>
      rintro (r₄ : Option Errno) -
      cases r₄ with
      | some e => exact fun hb => (nomatch hb)
      | none => exact hsecond cfg.listener6 rfl

theorem Guarded.piece (h : Guarded w) (hp : Piece agreeing w w') : Guarded w' := by
  cases hp with
  | event ref events ho => exact (steady_guarded.handleConnectionEvent ref events h).out ho
  | look now ha => exact h.congr h.listed rfl rfl ha.1.2.1 fun _ => rfl
  | resume ho => exact (resumeTcpListenersIfDue_sat h).out ho
  | expire now hnow ho => exact h.expireTcpConnections.out (ho.weaken fun _ _ _ ha => ha.1)
  | free => exact h.free

theorem Loop.guarded {cfg : Config} (hne : cfg.listener6 ≠ some cfg.listener4)
    (h : Loop agreeing cfg w) : Guarded w := by
  obtain ⟨w₀, hset, hrun⟩ := h
  have h₀ : Guarded w₀ := (setUp_sat hne).out (hset.weaken fun _ _ _ ha => ha.1) rfl
  induction hrun with
  | refl => exact h₀
  | tail _ hp ih => exact ih.piece hp

/-! ## All or nothing -/

/-- A paused worker gets to its next attempt: it does not sleep for longer than the backoff, the
attempt is due when the backoff has passed, and it is made with a system call. -/
structure Resumes (w : State × Nat) : Prop where
  wakes : ∀ now, ∃ ms ≤ tcpFdBackoffMs, deadlineTcpWaitTimeout w.1.listenersPaused
    w.1.nextDeadlineMs now w.1.cfg.debugStats = some ms
  due : w.1.listenersResumeMs ≤ w.2 + tcpFdBackoffMs
  tries : ∃ rest : Nat → Prog Sys.Ans State Unit,
    resumeTcpListenersIfDue w.1 = .ask w.1 .nowMs rest ∧
      ∀ now, now ≠ 0 → w.1.listenersResumeMs ≤ now → ∃ (q : Sys) (k : q.Ans → Prog Sys.Ans State Unit),
        rest now = .ask w.1 q k ∧
          (q = .openSpare ∨ q = .epollAdd w.1.cfg.listener4 .listener4 Bits.input)

theorem wait_le_backoff (next now : Nat) (debugStats : Bool) :
    ∃ ms ≤ tcpFdBackoffMs, deadlineTcpWaitTimeout true next now debugStats = some ms := by
  have hcap : ∀ o : Option Nat, minWaitTimeout o tcpFdBackoffMs ≤ tcpFdBackoffMs := fun o => by
    cases o with
    | none => exact Nat.le_refl _
    | some n => exact Nat.min_le_right ..
  cases debugStats with
  | false => exact ⟨_, hcap _, rfl⟩
  | true => exact ⟨_, Nat.le_trans (Nat.min_le_left ..) (hcap (deadlineWaitTimeout next now)), rfl⟩

theorem Guarded.resumes (h : Guarded w) (hpaused : w.1.listenersPaused = true) : Resumes w := by
  have hposted : Posted w.1 Bits.none := by
    have := h.posted
    rwa [if_pos hpaused] at this
  refine ⟨fun now => hpaused ▸ wait_le_backoff .., h.resume hpaused, ?_⟩
  simp only [resumeTcpListenersIfDue, Act.bind_run, get_run, Prog.ret_bind]
  rw [if_neg (by simp [hpaused])]
  refine ⟨_, rfl, fun now hzero hdue => ?_⟩
  have hnot : ¬ (now = 0 ∨ now < w.1.listenersResumeMs) := by omega
  show ∃ (q : Sys) (k : q.Ans → Prog Sys.Ans State Unit),
    (if now = 0 ∨ now < w.1.listenersResumeMs then pure () else _ : Worker Unit) w.1 = .ask w.1 q k ∧ _
  rw [if_neg hnot]
  by_cases hspare : w.1.spareFd.isNone = true
  · rw [if_pos hspare]
    exact ⟨.openSpare, _, rfl, .inl rfl⟩
  · rw [if_neg hspare]
    have hasks := (hposted .listener4 w.1.cfg.listener4 rfl).1
    exact ⟨_, _, congrArg (Prog.bind · _) (modListener_resume hasks), .inr rfl⟩

/-- **A pause is all or nothing when the calls for the two listeners end alike.**  In every run in
which they do, a worker that is not paused listens on every listener; one that is paused listens on
none, and gets to its next attempt. -/
theorem listeners_guarded {cfg : Config} (hne : cfg.listener6 ≠ some cfg.listener4)
    (h : Loop agreeing cfg w) :
    (w.1.listenersPaused = false →
      ∀ ref fd, w.1.cfg.names ref = some fd → w.1.interest fd = some (ref, Bits.input)) ∧
    (w.1.listenersPaused = true →
      (∀ ref fd, w.1.cfg.names ref = some fd → w.1.interest fd = none) ∧ Resumes w) := by
  have hg : Guarded w := h.guarded hne
  refine ⟨fun hpaused ref fd href => ?_, fun hpaused => ⟨fun ref fd href => ?_, hg.resumes hpaused⟩⟩
  · have hreg := (hg.posted ref fd href).2
    rwa [hpaused] at hreg
  · have hreg := (hg.posted ref fd href).2
    rwa [hpaused] at hreg

/-- A worker with two listeners. -/
def twin : Config :=
  { listener4 := 3, listener6 := some 4, connectTimeoutMs := 5000, tcpIdleTimeoutMs := 300000
    sessionCap := 16, debugStats := false }

/-- `Agree`, decided. -/
def agreeb (s : State) : (q : Sys) → q.Ans → Bool
  | .epollDel fd, (r : Bool) =>
      s.cfg.listener6 ≠ some fd || r == decide (s.listener4Events = Bits.none)
  | .epollAdd _ .listener6 _, (r : Option Errno) =>
      r.isNone == decide (s.listener4Events ≠ Bits.none)
  | _, _ => true

theorem agree_of_b {q : Sys} {r : q.Ans} (h : agreeb s q r = true) : Agree s q r := by
  cases q with
  | epollDel fd =>
      intro hfd
      simpa [agreeb, hfd] using h
  | epollAdd fd ref events =>
      cases ref with
      | listener6 => exact eq_of_beq h
      | _ => trivial
  | _ => trivial

/-- The state after a client found the descriptor table full. -/
def exhausted (okb : State × Nat → (q : Sys) → q.Ans → Bool) (deletes : Nat → Bool) :
    Option (State × Nat) :=
  (Prog.exec okb (serve 1 100 (.error .emfile) deletes) 0
    (setUp.watch tick (initState twin, 0))).bind fun r₀ =>
      if r₀.2 then
        (Prog.exec okb (serve 1 100 (.error .emfile) deletes) 0
          ((handleConnectionEvent .listener4 Bits.input).watch tick r₀.1)).map Prod.fst
      else none

theorem exhausted_loop {A : State × Nat → (q : Sys) → q.Ans → Prop}
    {okb : State × Nat → (q : Sys) → q.Ans → Bool} {deletes : Nat → Bool}
    (hA : ∀ w q r, okb w q r = true → A w q r) (h : exhausted okb deletes = some w) :
    Loop A twin w := by
  obtain ⟨⟨w₀, b⟩, hset, hrest⟩ := Option.bind_eq_some_iff.mp h
  cases b with
  | false => cases hrest
  | true =>
      obtain ⟨⟨w₁, _⟩, hevent, rfl⟩ := Option.map_eq_some_iff.mp hrest
      exact ⟨w₀, Prog.exec_out hA hset, .tail .refl (.event _ _ (Prog.exec_out hA hevent))⟩

/-- A pause whose two calls succeeded leaves the worker with an attempt to make. -/
theorem twin_resumes : ∃ w, Loop agreeing twin w ∧ w.1.listenersPaused = true ∧ Resumes w := by
  have hrun : (exhausted (fun w q r => timelyb w q r && agreeb w.1 q r) fun _ => true).any
      (fun w => w.1.listenersPaused) = true := by decide +kernel
  obtain ⟨w, hw, hpaused⟩ := (Option.any_eq_true _ _).mp hrun
  have hloop : Loop agreeing twin w := exhausted_loop (fun w q r h => by
    obtain ⟨htimely, hagree⟩ := Bool.and_eq_true_iff.mp h
    exact ⟨timely_of_b htimely, agree_of_b hagree⟩) hw
  exact ⟨w, hloop, hpaused, ((listeners_guarded (by decide) hloop).2 hpaused).2⟩

/-- A pause that took out the listener for IPv4, and failed to take out the one for IPv6, leaves a
worker that is not paused and does not listen for IPv4. -/
theorem listener_lost : ¬ ∀ (cfg : Config) (w : State × Nat), cfg.listener6 ≠ some cfg.listener4 →
    Loop timely cfg w → w.1.listenersPaused = false →
      ∀ ref fd, w.1.cfg.names ref = some fd → w.1.interest fd = some (ref, Bits.input) := by
  have hrun : (exhausted timelyb fun fd => fd = 3).any (fun w => decide
      (w.1.listenersPaused = false ∧ w.1.cfg.listener4 = 3 ∧ w.1.interest 3 = none)) = true := by
    decide +kernel
  obtain ⟨w, hw, hstate⟩ := (Option.any_eq_true _ _).mp hrun
  obtain ⟨hpaused, hlistener, hnone⟩ := of_decide_eq_true hstate
  intro hclaim
  have hloop : Loop timely twin w := exhausted_loop (fun _ _ _ => timely_of_b) hw
  have hreg := hclaim twin w (by decide) hloop hpaused .listener4 3 (congrArg some hlistener)
  rw [hnone] at hreg
  cases hreg

end Bpf2Socks.Tcp
