/-
# Bpf2Socks.Tcp.Beside — what the code of one connection leaves alone.

Timeouts and listeners concern the worker as a whole, most of its code a single connection.  `Beside c`
says that a piece of code is about connection `c`: the other connections, the lists, the cached
deadline and the listeners are as before, and so is what the kernel holds for a descriptor that
nothing but a listener names.  It is a preorder, so code is checked by its state changes, one by one.

The worker runs beside a clock, which is the latest time it read.
-/
import Bpf2Socks.Lib.Watch
import Bpf2Socks.Tcp.Local
import Mathlib.Algebra.Group.Nat.Defs

namespace Bpf2Socks.Tcp

open Function (update update_self update_of_ne)
open Lib (Act Prog)
open Udp (Bits)
open Worker

/-! ## The clock -/

/-- The end of `CLOCK_MONOTONIC`, which counts nanoseconds in 63 bits. -/
def clockEnd : Nat := 2 ^ 63

/-- The latest time that was read. -/
def tick (t : Nat) : (q : Sys) → q.Ans → Nat
  | .nowMs, (r : Nat) => r
  | _, _ => t

/-- The clock never goes back and never shows zero. -/
def Ticks (t : Nat) : (q : Sys) → q.Ans → Prop
  | .nowMs, (r : Nat) => t ≤ r ∧ 0 < r ∧ r < clockEnd
  | _, _ => True

/-- Admissible answers, beside a clock. -/
def timely (w : State × Nat) (q : Sys) (r : q.Ans) : Prop := ok w.1 q r ∧ Ticks w.2 q r

/-! ## What is left alone -/

/-- The part of the state that belongs to no connection. -/
structure Desk where
  cfg : Config
  nextDeadlineMs : Nat
  listenersResumeMs : Nat
  listenersPaused : Bool
  listener4Events : Bits
  listener6Events : Bits

def State.desk (s : State) : Desk :=
  ⟨s.cfg, s.nextDeadlineMs, s.listenersResumeMs, s.listenersPaused, s.listener4Events,
    s.listener6Events⟩

/-- The descriptor of a listener. -/
def Config.Listener (cfg : Config) (fd : Nat) : Prop := fd = cfg.listener4 ∨ cfg.listener6 = some fd

/-- What says whether a connection is live. -/
structure Badge where
  closing : Bool
  activeLinked : Bool
  connection : Side → Bool

def Conn.badge (k : Conn) : Badge := ⟨k.closing, k.activeLinked, fun d => (k.ref d).connection⟩

/-- The times of a connection have been read off the clock. -/
def Stamped (k : Conn) (t : Nat) : Prop := k.createdAtMs ≤ t ∧ k.lastActivityMs ≤ t

/-- A descriptor that a connection, the pool or the spare field names. -/
inductive Holds (s : State) (fd : Nat) : Prop where
  | socket (c : Nat) (d : Side) (h : (s.conns c).fd d = some fd)
  | read (c : Nat) (d : Side) (h : ((s.conns c).pipe d).readFd = some fd)
  | write (c : Nat) (d : Side) (h : ((s.conns c).pipe d).writeFd = some fd)
  | pool (p : PoolPair) (hp : p ∈ s.pool) (h : fd = p.readFd ∨ fd = p.writeFd)
  | spare (h : s.spareFd = some fd)

/-- A listener that nothing else names. -/
def Untouched (s : State) (fd : Nat) : Prop := s.fds fd = some .listener ∧ ¬ Holds s fd

/-- Code about connection `c`, or about its place in the lists. -/
structure Around (c : Nat) (w w' : State × Nat) : Prop where
  desk : w'.1.desk = w.1.desk
  accepted : w.1.accepted ≤ w'.1.accepted
  active : ∀ {c'}, c' ∈ w'.1.active → c' ∈ w.1.active
  conns : ∀ {c'}, c' ≠ c → w'.1.conns c' = w.1.conns c'
  stamped : Stamped (w.1.conns c) w.2 → Stamped (w'.1.conns c) w'.2
  clock : w.2 ≤ w'.2 ∧ (w.2 < clockEnd → w'.2 < clockEnd)
  untouched : ∀ {fd}, w.1.cfg.Listener fd → Untouched w.1 fd →
    Untouched w'.1 fd ∧ w'.1.interest fd = w.1.interest fd

/-- Code about connection `c` that leaves it live or not, as it was. -/
structure Beside (c : Nat) (w w' : State × Nat) : Prop extends Around c w w' where
  lists : w'.1.active = w.1.active ∧ w'.1.closed = w.1.closed
  badge : (w'.1.conns c).badge = (w.1.conns c).badge

variable {s s' : State} {c t fd : Nat} {d : Side} {w w' w'' : State × Nat}

theorem Around.cfg (h : Around c w w') : w'.1.cfg = w.1.cfg := congrArg Desk.cfg h.desk

theorem Around.refl (c : Nat) (w : State × Nat) : Around c w w :=
  ⟨rfl, Nat.le_refl _, id, fun _ => rfl, id, ⟨Nat.le_refl _, id⟩, fun _ h => ⟨h, rfl⟩⟩

theorem Around.trans (h : Around c w w') (h' : Around c w' w'') : Around c w w'' where
  desk := h'.desk.trans h.desk
  accepted := Nat.le_trans h.accepted h'.accepted
  active hc := h.active (h'.active hc)
  conns hne := (h'.conns hne).trans (h.conns hne)
  stamped := h'.stamped ∘ h.stamped
  clock := ⟨Nat.le_trans h.clock.1 h'.clock.1, h'.clock.2 ∘ h.clock.2⟩
  untouched hl hu := by
    obtain ⟨hu', hi⟩ := h.untouched hl hu
    obtain ⟨hu'', hi'⟩ := h'.untouched (h.cfg ▸ hl) hu'
    exact ⟨hu'', hi'.trans hi⟩

theorem Beside.refl (c : Nat) (w : State × Nat) : Beside c w w :=
  ⟨Around.refl c w, ⟨rfl, rfl⟩, rfl⟩

theorem Beside.trans (h : Beside c w w') (h' : Beside c w' w'') : Beside c w w'' where
  toAround := h.toAround.trans h'.toAround
  lists := ⟨h'.lists.1.trans h.lists.1, h'.lists.2.trans h.lists.2⟩
  badge := h'.badge.trans h.badge

instance (c : Nat) : IsPreorder (State × Nat) (Beside c) where
  refl := Beside.refl c
  trans _ _ _ := Beside.trans

/-- Every run of the code is about connection `c`. -/
def Minds (c : Nat) {α : Type} (m : Worker α) : Prop := Act.Keeps timely (Beside c) (m.watch tick)

/-! ## State changes -/

/-- A connection names no more descriptors than before. -/
structure Fewer (k k' : Conn) : Prop where
  fd : ∀ {d fd}, k'.fd d = some fd → k.fd d = some fd
  read : ∀ {d fd}, (k'.pipe d).readFd = some fd → (k.pipe d).readFd = some fd
  write : ∀ {d fd}, (k'.pipe d).writeFd = some fd → (k.pipe d).writeFd = some fd

theorem Fewer.refl (k : Conn) : Fewer k k := ⟨id, id, id⟩

/-- A change of a connection that keeps what is left alone of it, and its times. -/
structure Akin (k k' : Conn) : Prop extends Fewer k k' where
  badge : k'.badge = k.badge
  created : k'.createdAtMs = k.createdAtMs
  lastActivity : k'.lastActivityMs = k.lastActivityMs

theorem Akin.stamped {k k' : Conn} (h : Akin k k') (hs : Stamped k t) : Stamped k' t :=
  ⟨h.created ▸ hs.1, h.lastActivity ▸ hs.2⟩

/-- A descriptor that is no listener, or has another name. -/
def Spared (s : State) (fd : Nat) : Prop :=
  Holds s fd ∨ s.fds fd ≠ some .listener ∨ ¬ s.cfg.Listener fd

theorem Holds.spared (h : Holds s fd) : Spared s fd := .inl h

theorem Spared.not_untouched (h : Spared s fd) (hl : s.cfg.Listener fd) : ¬ Untouched s fd := by
  rintro ⟨hfd, hno⟩
  rcases h with h | h | h
  · exact hno h
  · exact h hfd
  · exact h hl

/-- A change at spared descriptors only, which are all that gets a new name. -/
theorem around_of_spared (hdesk : s'.desk = s.desk) (haccepted : s.accepted ≤ s'.accepted)
    (hactive : ∀ {c'}, c' ∈ s'.active → c' ∈ s.active)
    (hconns : ∀ {c'}, c' ≠ c → s'.conns c' = s.conns c')
    (hstamped : Stamped (s.conns c) t → Stamped (s'.conns c) t)
    (hholds : ∀ {fd}, Holds s' fd → Spared s fd)
    (hfds : ∀ {fd}, s.fds fd = some .listener → s'.fds fd = some .listener ∨ Spared s fd)
    (hint : ∀ {fd}, s'.interest fd = s.interest fd ∨ Spared s fd) :
    Around c (s, t) (s', t) where
  desk := hdesk
  accepted := haccepted
  active := hactive
  conns := hconns
  stamped := hstamped
  clock := ⟨Nat.le_refl _, id⟩
  untouched := by
    intro fd hl hu
    have hno : ¬ Spared s fd := fun h => h.not_untouched hl hu
    exact ⟨⟨(hfds hu.1).resolve_right hno, fun h => hno (hholds h)⟩, hint.resolve_right hno⟩

/-- The lists and the counter are as before. -/
abbrev SameLists (s s' : State) : Prop :=
  (s'.active = s.active ∧ s'.closed = s.closed) ∧ s'.accepted = s.accepted

theorem beside_of_spared (hdesk : s'.desk = s.desk) (hlists : SameLists s s')
    (hconns : ∀ {c'}, c' ≠ c → s'.conns c' = s.conns c')
    (hbadge : (s'.conns c).badge = (s.conns c).badge)
    (hstamped : Stamped (s.conns c) t → Stamped (s'.conns c) t)
    (hholds : ∀ {fd}, Holds s' fd → Spared s fd)
    (hfds : ∀ {fd}, s.fds fd = some .listener → s'.fds fd = some .listener ∨ Spared s fd)
    (hint : ∀ {fd}, s'.interest fd = s.interest fd ∨ Spared s fd) :
    Beside c (s, t) (s', t) where
  toAround := around_of_spared hdesk (Nat.le_of_eq hlists.2.symm) (fun h => hlists.1.1 ▸ h) hconns
    hstamped hholds hfds hint
  lists := hlists.1
  badge := hbadge

/-- A change of connection `c` that names no more descriptors. -/
theorem Holds.of_fewer (hconns : ∀ {c'}, c' ≠ c → s'.conns c' = s.conns c')
    (h : Fewer (s.conns c) (s'.conns c)) (hpool : s'.pool = s.pool) (hspare : s'.spareFd = s.spareFd)
    (hh : Holds s' fd) : Holds s fd := by
  have hfewer : ∀ c', Fewer (s.conns c') (s'.conns c') := fun c' => by
    by_cases hc : c' = c
    · exact hc ▸ h
    · rw [hconns hc]
      exact Fewer.refl _
  cases hh with
  | socket c' d h => exact .socket c' d ((hfewer c').fd h)
  | read c' d h => exact .read c' d ((hfewer c').read h)
  | write c' d h => exact .write c' d ((hfewer c').write h)
  | pool p hp h => exact .pool p (hpool ▸ hp) h
  | spare h => exact .spare (hspare ▸ h)

theorem beside_modConn {f : Conn → Conn} (hnames : Fewer (s.conns c) (f (s.conns c)))
    (hbadge : (f (s.conns c)).badge = (s.conns c).badge)
    (hstamped : Stamped (s.conns c) t → Stamped (f (s.conns c)) t) :
    Beside c (s, t) (s.modConn c f, t) := by
  have hconns : ∀ {c'}, c' ≠ c → (s.modConn c f).conns c' = s.conns c' := fun hne =>
    update_of_ne hne ..
  have hself := modConn_conns s c f
  refine beside_of_spared rfl ⟨⟨rfl, rfl⟩, rfl⟩ hconns ?_ ?_ (fun hh => .inl ?_) .inl (.inl rfl)
  · rw [hself]
    exact hbadge
  · rw [hself]
    exact hstamped
  · exact hh.of_fewer hconns (hself.symm ▸ hnames) rfl rfl

/-- The names of a connection one of whose pipes changed. -/
theorem Holds.of_modPipe {f : SplicePipe → SplicePipe} (hh : Holds (s.modPipe c d f) fd) :
    Holds s fd ∨ (f ((s.conns c).pipe d)).readFd = some fd ∨
      (f ((s.conns c).pipe d)).writeFd = some fd := by
  have hpipe : ∀ c' d', ((s.modPipe c d f).conns c').pipe d' = (s.conns c').pipe d' ∨
      c' = c ∧ d' = d := by
    intro c' d'
    by_cases hc : c' = c
    · by_cases hd : d' = d
      · exact .inr ⟨hc, hd⟩
      · subst hc
        exact .inl (by simp [State.modPipe, Conn.modPipe, update_of_ne hd])
    · exact .inl (by simp [State.modPipe, State.modConn, update_of_ne hc])
  have hself : ((s.modPipe c d f).conns c).pipe d = f ((s.conns c).pipe d) := by
    simp [State.modPipe, Conn.modPipe]
  cases hh with
  | socket c' d' h =>
      refine .inl (.socket c' d' ?_)
      by_cases hc : c' = c
      · subst hc
        simpa [State.modPipe, Conn.modPipe] using h
      · simpa [State.modPipe, State.modConn, update_of_ne hc] using h
  | read c' d' h =>
      rcases hpipe c' d' with heq | ⟨rfl, rfl⟩
      · exact .inl (.read c' d' (heq ▸ h))
      · exact .inr (.inl (hself ▸ h))
  | write c' d' h =>
      rcases hpipe c' d' with heq | ⟨rfl, rfl⟩
      · exact .inl (.write c' d' (heq ▸ h))
      · exact .inr (.inr (hself ▸ h))
  | pool p hp h => exact .inl (.pool p hp h)
  | spare h => exact .inl (.spare h)

/-- A pipe gets ends that are spared. -/
theorem beside_modPipe {f : SplicePipe → SplicePipe}
    (hread : ∀ {fd}, (f ((s.conns c).pipe d)).readFd = some fd →
      ((s.conns c).pipe d).readFd = some fd ∨ Spared s fd)
    (hwrite : ∀ {fd}, (f ((s.conns c).pipe d)).writeFd = some fd →
      ((s.conns c).pipe d).writeFd = some fd ∨ Spared s fd) :
    Beside c (s, t) (s.modPipe c d f, t) := by
  have hself := modConn_conns s c fun k => k.modPipe d f
  refine beside_of_spared rfl ⟨⟨rfl, rfl⟩, rfl⟩ (fun hne => update_of_ne hne ..) ?_ (fun h => ?_)
    (fun hh => ?_) .inl (.inl rfl)
  · show ((s.modConn c fun k => k.modPipe d f).conns c).badge = _
    rw [hself]
    rfl
  · exact hself.symm ▸ h
  · rcases hh.of_modPipe with h | h | h
    · exact h.spared
    · exact (hread h).elim (fun h => .inl (.read c d h)) id
    · exact (hwrite h).elim (fun h => .inl (.write c d h)) id

/-- A change of the tables at spared descriptors. -/
theorem beside_of_conns (hdesk : s'.desk = s.desk) (hlists : SameLists s s')
    (hconns : s'.conns = s.conns) (hpool : s'.pool = s.pool) (hspare : s'.spareFd = s.spareFd)
    (hfds : ∀ {fd}, s.fds fd = some .listener → s'.fds fd = some .listener ∨ Spared s fd)
    (hint : ∀ {fd}, s'.interest fd = s.interest fd ∨ Spared s fd) : Beside c (s, t) (s', t) := by
  refine beside_of_spared hdesk hlists (fun _ => congrFun hconns _) (by rw [hconns])
    (fun h => by rw [hconns]; exact h) (fun hh => .inl ?_) hfds hint
  refine hh.of_fewer (c := c) (fun _ => congrFun hconns _) ?_ hpool hspare
  rw [hconns]
  exact Fewer.refl _

theorem beside_mark (n : Nat) (m : Mark) (b : Bool) : Beside c (s, t) (s.mark n m b, t) :=
  beside_of_conns rfl ⟨⟨rfl, rfl⟩, rfl⟩ rfl rfl rfl .inl (.inl rfl)

theorem beside_onSock (fd : Nat) (f : Sock → Sock) : Beside c (s, t) (s.onSock fd f, t) := by
  unfold State.onSock
  split
  · exact beside_of_conns rfl ⟨⟨rfl, rfl⟩, rfl⟩ rfl rfl rfl .inl (.inl rfl)
  · exact Beside.refl ..

/-- A spared descriptor gets another meaning. -/
theorem beside_setFd {x : Desc} (hfd : Spared s fd) :
    Beside c (s, t) ({ s with fds := update s.fds fd (some x) }, t) := by
  refine beside_of_conns rfl ⟨⟨rfl, rfl⟩, rfl⟩ rfl rfl rfl (fun {e} he => ?_) (.inl rfl)
  by_cases hne : e = fd
  · exact .inr (hne ▸ hfd)
  · exact .inl ((update_of_ne hne ..).trans he)

theorem beside_pushPipe (fd : Nat) (bytes : List (Nat × UInt8)) :
    Beside c (s, t) (s.pushPipe fd bytes, t) := by
  unfold State.pushPipe
  split
  · split
    · rename_i hread
      exact beside_setFd (.inr (.inl (by rw [hread]; simp)))
    · exact Beside.refl ..
  · exact Beside.refl ..

theorem beside_popPipe (fd n : Nat) : Beside c (s, t) (s.popPipe fd n, t) := by
  unfold State.popPipe
  split
  · rename_i hread
    exact beside_setFd (.inr (.inl (by rw [hread]; simp)))
  · exact Beside.refl ..

theorem beside_hold (fd : Nat) (holder : Option (Nat × Side)) :
    Beside c (s, t) (s.hold fd holder, t) := by
  unfold State.hold
  split
  · rename_i hread
    exact beside_setFd (.inr (.inl (by rw [hread]; simp)))
  · exact Beside.refl ..

/-- A change of the life of a socket. -/
theorem onSock_socks (s : State) (fd : Nat) (f : Sock → Sock) :
    ∃ socks, s.onSock fd f = { s with socks } := by
  unfold State.onSock
  split
  · exact ⟨_, rfl⟩
  · exact ⟨s.socks, rfl⟩

/-- A spared descriptor is closed. -/
theorem beside_closeFd (h : Spared s fd) : Beside c (s, t) (s.closeFd fd, t) := by
  obtain ⟨socks, hs⟩ := onSock_socks s fd fun k => { k with isOpen := false }
  have hclose : s.closeFd fd =
      { s with socks, fds := update s.fds fd none, interest := update s.interest fd none } := by
    rw [State.closeFd, hs]
  rw [hclose]
  refine beside_of_conns rfl ⟨⟨rfl, rfl⟩, rfl⟩ rfl rfl rfl (fun {e} he => ?_) (fun {e} => ?_)
  · by_cases hne : e = fd
    · exact .inr (hne ▸ h)
    · exact .inl ((update_of_ne hne ..).trans he)
  · by_cases hne : e = fd
    · exact .inr (hne ▸ h)
    · exact .inl (update_of_ne hne ..)

theorem beside_closeOpt {o : Option Nat} (h : ∀ {fd}, o = some fd → Holds s fd) :
    Beside c (s, t) (s.closeOpt o, t) := by
  cases o with
  | none => exact Beside.refl ..
  | some fd => exact beside_closeFd (.inl (h rfl))

theorem beside_resetOnClose (o : Option Nat) : Beside c (s, t) (s.resetOnClose o, t) := by
  cases o with
  | none => exact Beside.refl ..
  | some fd => exact beside_onSock fd _

/-! ### Pipes -/

theorem hold_modPipe (s : State) (fd : Nat) (holder : Option (Nat × Side)) (c : Nat) (d : Side)
    (f : SplicePipe → SplicePipe) :
    (s.hold fd holder).modPipe c d f = (s.modPipe c d f).hold fd holder := by
  simp only [State.hold, State.modPipe, State.modConn]
  split <;> rfl

/-- The pool changes, by pairs that were named. -/
theorem beside_pool {pool : List PoolPair}
    (h : ∀ p ∈ pool, ∀ {fd}, fd = p.readFd ∨ fd = p.writeFd → Holds s fd) :
    Beside c (s, t) ({ s with pool }, t) := by
  refine beside_of_spared rfl ⟨⟨rfl, rfl⟩, rfl⟩ (fun _ => rfl) rfl id (fun hh => .inl ?_) .inl
    (.inl rfl)
  cases hh with
  | socket c' d h => exact .socket c' d h
  | read c' d h => exact .read c' d h
  | write c' d h => exact .write c' d h
  | pool p hp hfd => exact h p hp hfd
  | spare h => exact .spare h

/-- A pair of the pool becomes a pipe of the connection. -/
theorem beside_poolTake {p : PoolPair} {rest : List PoolPair} (hp : s.pool = p :: rest)
    {f : SplicePipe → SplicePipe} (hread : ∀ k, (f k).readFd = some p.readFd)
    (hwrite : ∀ k, (f k).writeFd = some p.writeFd) (holder : Option (Nat × Side)) :
    Beside c (s, t) (({ s with pool := rest }.hold p.readFd holder).modPipe c d f, t) := by
  have hmem : p ∈ s.pool := hp ▸ List.mem_cons_self
  have hpipe : Beside c (s, t) (s.modPipe c d f, t) := by
    refine beside_modPipe (fun h => ?_) fun h => ?_
    · rw [hread] at h
      exact .inr (.inl (.pool p hmem (.inl (Option.some.inj h).symm)))
    · rw [hwrite] at h
      exact .inr (.inl (.pool p hmem (.inr (Option.some.inj h).symm)))
  have hpool : Beside c (s.modPipe c d f, t) ({ s.modPipe c d f with pool := rest }, t) :=
    beside_pool fun q hq _ h => .pool q (hp ▸ List.mem_cons_of_mem _ hq) h
  rw [hold_modPipe]
  exact (hpipe.trans hpool).trans (beside_hold _ _)

theorem beside_closeSplicePipe : Beside c (s, t) (s.closeSplicePipe c d, t) := by
  have hconns : ∀ o : Option Nat, (s.closeOpt o).conns = s.conns := by
    intro o
    cases o with
    | none => rfl
    | some fd =>
        obtain ⟨socks, hs⟩ := onSock_socks s fd fun k => { k with isOpen := false }
        simp only [State.closeOpt, State.closeFd, hs]
  have hread : Beside c (s, t) (s.closeOpt ((s.conns c).pipe d).readFd, t) :=
    beside_closeOpt fun h => .read c d h
  have hwrite : Beside c (s.closeOpt ((s.conns c).pipe d).readFd, t)
      ((s.closeOpt ((s.conns c).pipe d).readFd).closeOpt ((s.conns c).pipe d).writeFd, t) :=
    beside_closeOpt fun h => .write c d (by rw [hconns]; exact h)
  refine (hread.trans hwrite).trans (beside_modPipe (fun h => ?_) fun h => ?_)
  · cases h
  · cases h

theorem beside_poolPut : Beside c (s, t) (s.poolPut c d, t) := by
  unfold State.poolPut
  dsimp only
  split
  · rename_i r w hr hw
    split
    · refine Beside.trans ?_ ((beside_hold _ _).trans (beside_modPipe (fun h => ?_) fun h => ?_))
      · refine beside_pool fun p hp fd hfd => ?_
        rcases List.mem_cons.mp hp with rfl | hp
        · rcases hfd with rfl | rfl
          · exact .read c d hr
          · exact .write c d hw
        · exact .pool p hp hfd
      · cases h
      · cases h
    · exact Beside.refl ..
  · exact Beside.refl ..

theorem beside_releaseSplicePipe : Beside c (s, t) (s.releaseSplicePipe c d, t) :=
  beside_poolPut.trans beside_closeSplicePipe

/-! ## Code -/

section

variable {α β : Type}

theorem Minds.sat {m : Worker α} (hm : Minds c m) (w : State × Nat) :
    Prog.Sat timely (fun w' _ => Beside c w w') (m.watch tick w) := hm w

theorem Minds.bind {m : Worker α} {f : α → Worker β} (hm : Minds c m) (hf : ∀ a, Minds c (f a)) :
    Minds c (m >>= f) := Act.watch_andThen hm hf

theorem minds_pure (a : α) : Minds c (pure a : Worker α) := Act.watch_pure a

theorem minds_get : Minds c get := Act.watch_get

theorem minds_diverge : Minds c (diverge : Worker α) := Act.watch_diverge

theorem minds_modify {f : State → State} (h : ∀ s t, Beside c (s, t) (f s, t)) :
    Minds c (modify f) := Act.watch_modify h

theorem minds_ite {p : Prop} [Decidable p] {f g : Worker α} (hf : Minds c f) (hg : Minds c g) :
    Minds c (if p then f else g) := Act.watch_ite hf hg

/-- Time passes. -/
theorem beside_tick {now : Nat} (h : Ticks t .nowMs now) : Beside c (s, t) (s, now) := by
  obtain ⟨hle, -, hend⟩ := h
  refine ⟨⟨rfl, Nat.le_refl _, id, fun _ => rfl, fun h => ?_, ⟨hle, fun _ => hend⟩,
    fun _ h => ⟨h, rfl⟩⟩, ⟨rfl, rfl⟩, rfl⟩
  exact ⟨Nat.le_trans h.1 hle, Nat.le_trans h.2 hle⟩

theorem minds_ask (q : Sys) : Minds c (ask q) := by
  refine Act.watch_ask fun w r hr => ?_
  cases q with
  | nowMs => exact beside_tick hr.2
  | _ => exact Beside.refl ..

theorem minds_modConn {f : Conn → Conn} (h : ∀ k, Akin k (f k)) :
    Minds c (modify fun s => s.modConn c f) :=
  minds_modify fun _ _ => beside_modConn (h _).toFewer (h _).badge (h _).stamped

theorem minds_modPipe {f : SplicePipe → SplicePipe}
    (hread : ∀ {p fd}, (f p).readFd = some fd → p.readFd = some fd)
    (hwrite : ∀ {p fd}, (f p).writeFd = some fd → p.writeFd = some fd) :
    Minds c (modify fun s => s.modPipe c d f) :=
  minds_modify fun _ _ => beside_modPipe (fun h => .inl (hread h)) fun h => .inl (hwrite h)

theorem minds_mark {n : Nat} {m : Mark} {b : Bool} : Minds c (modify fun s => s.mark n m b) :=
  minds_modify fun _ _ => beside_mark n m b

theorem minds_onSock {fd : Nat} {f : Sock → Sock} : Minds c (modify fun s => s.onSock fd f) :=
  minds_modify fun _ _ => beside_onSock fd f

/-- The clock is read into the last activity. -/
theorem minds_connectionTouch : Minds c (connectionTouch c) := by
  rintro ⟨s, t⟩ (now : Nat) ⟨-, hnow⟩
  show Prog.Sat timely _ (Prog.watch tick now ((if now ≠ 0 then _ else _ : Worker Unit) s))
  rw [if_pos (Nat.pos_iff_ne_zero.mp hnow.2.1)]
  refine (beside_tick hnow).trans (beside_modConn ?_ rfl fun h => ⟨h.1, Nat.le_refl _⟩)
  exact ⟨id, id, id⟩

theorem minds_touchIf (moved : Bool) : Minds c (touchIf moved c) :=
  minds_ite minds_connectionTouch (minds_pure _)

/-! ### Opening pipes -/

/-- The ends of a new pipe are no listeners. -/
theorem beside_newPipe {r w : Nat} (hr : s.fds r = none) (hw : s.fds w = none) (x y : Desc)
    {f : SplicePipe → SplicePipe} (hread : ∀ k, (f k).readFd = some r)
    (hwrite : ∀ k, (f k).writeFd = some w) :
    Beside c (s, t)
      ({ s with fds := update (update s.fds r (some x)) w (some y) }.modPipe c d f, t) := by
  have hpipe : Beside c (s, t) (s.modPipe c d f, t) := by
    refine beside_modPipe (fun h => ?_) fun h => ?_
    · rw [hread, Option.some.injEq] at h
      exact .inr (.inr (.inl (by rw [← h, hr]; simp)))
    · rw [hwrite, Option.some.injEq] at h
      exact .inr (.inr (.inl (by rw [← h, hw]; simp)))
  refine hpipe.trans (beside_of_conns rfl ⟨⟨rfl, rfl⟩, rfl⟩ rfl rfl rfl (fun {e} he => .inl ?_) (.inl rfl))
  have hs : s.fds e = some .listener := he
  have hne : e ≠ r ∧ e ≠ w := by
    constructor <;> rintro rfl
    · rw [hr] at hs
      cases hs
    · rw [hw] at hs
      cases hs
  show update (update s.fds r (some x)) w (some y) e = _
  rw [update_of_ne hne.2, update_of_ne hne.1, hs]

theorem minds_openSplicePipe (d : Side) : Minds c (openSplicePipe c d) := by
  rintro ⟨s, t⟩
  have hinit : Beside c (s, t) (s.modPipe c d fun _ => initSplicePipe, t) :=
    beside_modPipe (fun h => nomatch h) fun h => nomatch h
  simp only [openSplicePipe, Act.watch, Act.bind_run, modify_run, Prog.ret_bind, get_run]
  cases hpool : (s.modPipe c d fun _ => initSplicePipe).pool with
  | cons p rest =>
      exact hinit.trans (beside_poolTake hpool (fun _ => rfl) (fun _ => rfl) _)
  | nil =>
      rintro (r : Except Errno (Nat × Nat)) ⟨hr, -⟩
      match r with
      | .error _ => exact hinit.trans (beside_mark ..)
      | .ok (r, w) =>
          have hfree : (s.fds r = none ∧ s.fds w = none) ∧ r ≠ w := by
            simpa [ok, okb, State.modPipe, State.modConn] using hr
          have hnew := hinit.trans (beside_newPipe (t := t) (d := d) (s := s.modPipe c d _)
            (f := fun pipe => { pipe with readFd := some r, writeFd := some w })
            hfree.1.1 hfree.1.2 (.pipeRead (some (c, d)) []) (.pipeWrite r) (fun _ => rfl)
            fun _ => rfl)
          intro capacity _
          cases capacity with
          | none => exact hnew
          | some capacity =>
              exact hnew.trans (beside_modPipe (fun h => .inl h) fun h => .inl h)

theorem minds_initConnectionSplicePipes : Minds c (initConnectionSplicePipes c) :=
  (minds_openSplicePipe _).bind fun _ => minds_ite
    ((minds_openSplicePipe _).bind fun _ => minds_ite (minds_pure _)
      ((minds_modify fun _ _ => beside_closeSplicePipe).bind fun _ => minds_pure _))
    (minds_pure _)

/-! ### The session budget -/

theorem minds_reserveTcpSessionFrom (n cap fuel used : Nat) :
    Minds c (reserveTcpSessionFrom n cap fuel used) := by
  induction fuel generalizing used with
  | zero => exact minds_diverge
  | succ fuel ih =>
      refine minds_ite ((minds_ask _).bind fun r => ?_) (minds_pure _)
      cases r with
      | ok _ => exact minds_mark.bind fun _ => minds_pure _
      | error found => exact ih found

theorem minds_reserveTcpSession (n : Nat) : Minds c (reserveTcpSession n) :=
  minds_get.bind fun _ => (minds_ask _).bind fun _ => (minds_ask _).bind fun _ =>
    minds_reserveTcpSessionFrom _ _ _ _

theorem minds_releaseTcpSessionBudget (n : Nat) : Minds c (releaseTcpSessionBudget n) :=
  (minds_ask _).bind fun _ => minds_mark

theorem minds_releaseTcpSession : Minds c (releaseTcpSession c) := by
  refine minds_get.bind fun s => minds_ite ((minds_ask _).bind fun _ => ?_) (minds_pure _)
  exact minds_modConn fun _ => ⟨⟨id, id, id⟩, rfl, rfl, rfl⟩

/-! ### The handshake -/

theorem minds_send (fd : Nat) (bytes : List UInt8) : Minds c (send fd bytes) := by
  refine (minds_ask _).bind fun r => ?_
  cases r with
  | ok n => exact minds_onSock.bind fun _ => minds_pure _
  | error e => exact minds_onSock.bind fun _ => minds_pure _

theorem minds_recv (fd room : Nat) : Minds c (recv fd room) := by
  refine (minds_ask _).bind fun r => ?_
  cases r with
  | ok l => exact minds_onSock.bind fun _ => minds_pure _
  | error e => exact minds_onSock.bind fun _ => minds_pure _

theorem minds_startHandshake : Minds c (startHandshake c) := by
  refine minds_get.bind fun s => ?_
  cases handshakeBytes (s.conns c).target with
  | none => exact minds_pure _
  | some bytes =>
      refine (minds_modConn fun k => ?_).bind fun _ => minds_pure _
      exact ⟨⟨id, id, id⟩, rfl, rfl, rfl⟩

theorem minds_flushHandshakeFrom (fuel : Nat) : Minds c (flushHandshakeFrom c fuel) := by
  induction fuel with
  | zero => exact minds_diverge
  | succ fuel ih =>
      refine minds_get.bind fun s => minds_ite ?_ ?_
      · cases (s.conns c).fd .upstream with
        | none => exact minds_pure _
        | some fd =>
            refine (minds_send fd _).bind fun r => ?_
            match r with
            | .error .eintr => exact ih
            | .error .eagain => exact minds_pure _
            | .error .emfile => exact minds_pure _
            | .error .enfile => exact minds_pure _
            | .error .enotconn => exact minds_pure _
            | .error .epipe => exact minds_pure _
            | .error .other => exact minds_pure _
            | .ok 0 => exact (minds_ask _).bind fun _ => minds_pure _
            | .ok (n + 1) =>
                refine (minds_modConn fun k => ?_).bind fun _ =>
                  minds_connectionTouch.bind fun _ => ih
                exact ⟨⟨id, id, id⟩, rfl, rfl, rfl⟩
      · refine (minds_modConn fun k => ?_).bind fun _ => minds_pure _
        exact ⟨⟨id, id, id⟩, rfl, rfl, rfl⟩

theorem minds_flushHandshake : Minds c (flushHandshake c) :=
  (minds_ask _).bind fun _ => minds_flushHandshakeFrom _

theorem minds_readPipelinedRepliesFrom (fuel : Nat) : Minds c (readPipelinedRepliesFrom c fuel) := by
  induction fuel with
  | zero => exact minds_diverge
  | succ fuel ih =>
      refine minds_get.bind fun s => minds_ite (minds_mark.bind fun _ => minds_pure _) ?_
      cases (s.conns c).fd .upstream with
      | none => exact minds_pure _
      | some fd =>
          refine (minds_recv fd _).bind fun r => ?_
          match r with
          | .error .eintr => exact ih
          | .error .eagain => exact minds_pure _
          | .error .emfile => exact minds_pure _
          | .error .enfile => exact minds_pure _
          | .error .enotconn => exact minds_pure _
          | .error .epipe => exact minds_pure _
          | .error .other => exact minds_pure _
          | .ok [] => exact minds_pure _
          | .ok (b :: bs) =>
              refine (minds_modConn fun k => ?_).bind fun _ => minds_connectionTouch.bind fun _ => ?_
              · exact ⟨⟨id, id, id⟩, rfl, rfl, rfl⟩
              cases checkReplies ((s.conns c).response ++ b :: bs) with
              | refused => exact minds_pure _
              | complete needed =>
                  refine (minds_modConn fun k => ?_).bind fun _ => minds_pure _
                  exact ⟨⟨id, id, id⟩, rfl, rfl, rfl⟩
              | incomplete => exact minds_ite (minds_pure _) ih

theorem minds_readPipelinedReplies : Minds c (readPipelinedReplies c) :=
  (minds_ask _).bind fun _ => minds_readPipelinedRepliesFrom _

theorem minds_writeEarly (bytes : List UInt8) : Minds c (writeEarly c bytes) := by
  refine minds_get.bind fun s => ?_
  cases ((s.conns c).pipe .upstream).writeFd with
  | none => exact minds_pure _
  | some fd =>
      refine (minds_ask _).bind fun r => ?_
      cases r with
      | error e => exact minds_pure _
      | ok n => exact Minds.bind (minds_modify fun _ _ => beside_pushPipe _ _) fun _ => minds_pure _

theorem minds_setRelay : Minds c (modify fun s => s.modConn c fun k => { k with stage := .relay }) :=
  minds_modConn fun _ => ⟨⟨id, id, id⟩, rfl, rfl, rfl⟩

theorem minds_finishPipelinedReplies : Minds c (finishPipelinedReplies c) := by
  refine minds_initConnectionSplicePipes.bind fun opened => minds_ite ?_ (minds_pure _)
  refine minds_get.bind fun s => minds_ite ?_ (minds_setRelay.bind fun _ => minds_pure _)
  refine (minds_writeEarly _).bind fun written => ?_
  cases written with
  | error e => exact minds_mark.bind fun _ => minds_pure _
  | ok n =>
      refine minds_ite ?_ (minds_mark.bind fun _ => minds_pure _)
      exact Minds.bind (minds_modPipe id id) fun _ => minds_setRelay.bind fun _ => minds_pure _

/-! ### Splicing -/

theorem minds_spliceIn (d : Side) : Minds c (spliceIn c d) := by
  refine minds_get.bind fun s => ?_
  dsimp only
  cases (s.conns c).fd d with
  | none => exact minds_pure _
  | some fd =>
      cases ((s.conns c).pipe d).writeFd with
      | none => exact minds_pure _
      | some w =>
          refine (minds_ask _).bind fun r => minds_mark.bind fun _ => ?_
          cases r with
          | moved l =>
              refine Minds.bind (minds_modify fun s t => ?_) fun _ => minds_pure _
              exact (beside_pushPipe _ _).trans (beside_onSock _ _)
          | eof => exact minds_onSock.bind fun _ => minds_pure _
          | failed => exact minds_onSock.bind fun _ => minds_pure _
          | full => exact minds_pure _
          | empty => exact minds_pure _
          | intr => exact minds_pure _

theorem minds_spliceOut (d : Side) (chunk : Nat) : Minds c (spliceOut c d chunk) := by
  refine minds_get.bind fun s => ?_
  cases ((s.conns c).pipe d).readFd with
  | none => exact minds_pure _
  | some r =>
      cases (s.conns c).fd d.other with
      | none => exact minds_pure _
      | some fd =>
          refine (minds_ask _).bind fun moved => ?_
          cases moved with
          | error e => exact minds_onSock.bind fun _ => minds_pure _
          | ok n =>
              refine Minds.bind (minds_modify fun s t => ?_) fun _ =>
                minds_ite (minds_mark.bind fun _ => minds_pure _) (minds_pure _)
              exact (beside_onSock _ _).trans (beside_popPipe _ _)

theorem minds_shutdownWrite (fd : Nat) : Minds c (shutdownWrite fd) :=
  (minds_ask _).bind fun _ => minds_onSock.bind fun _ => minds_pure _

theorem minds_shutdownSpliceTarget (d : Side) : Minds c (shutdownSpliceTarget c d) := by
  refine minds_get.bind fun s => minds_ite (minds_pure _) ?_
  cases (s.conns c).fd d.other with
  | none => exact minds_pure _
  | some fd =>
      exact (minds_shutdownWrite fd).bind fun _ =>
        minds_ite (Minds.bind (minds_modPipe id id) fun _ => minds_pure _) (minds_pure _)

theorem minds_socketHasUnreadBytes (d : Side) : Minds c (socketHasUnreadBytes c d) := by
  refine minds_get.bind fun s => ?_
  cases (s.conns c).fd d with
  | none => exact minds_pure _
  | some fd =>
      exact (minds_ask _).bind fun _ =>
        minds_ite (minds_mark.bind fun _ => minds_pure _) (minds_pure _)

theorem minds_spliceAgain (d : Side) (movedData : Bool) : Minds c (spliceAgain c d movedData) :=
  (minds_touchIf _).bind fun _ =>
    (minds_get.bind fun _ => minds_ite (minds_socketHasUnreadBytes d) (minds_pure _)).bind fun _ =>
      minds_ite (Minds.bind (minds_modPipe id id) fun _ => minds_pure _) (minds_pure _)

theorem minds_spliceSocketToPipeFrom (d : Side) (fuel : Nat) (movedData : Bool) :
    Minds c (spliceSocketToPipeFrom c d fuel movedData) := by
  induction fuel generalizing movedData with
  | zero => exact minds_diverge
  | succ fuel ih =>
      refine minds_get.bind fun s => (minds_spliceIn d).bind fun r => ?_
      cases r with
      | moved l =>
          exact Minds.bind (minds_modPipe id id) fun _ =>
            minds_ite (minds_connectionTouch.bind fun _ => minds_pure _) (ih _)
      | eof =>
          exact (minds_touchIf _).bind fun _ => Minds.bind (minds_modPipe id id) fun _ => minds_pure _
      | intr => exact ih _
      | failed => exact (minds_touchIf _).bind fun _ => minds_pure _
      | full => exact minds_spliceAgain _ _
      | empty => exact minds_spliceAgain _ _

theorem minds_spliceSocketToPipe (d : Side) : Minds c (spliceSocketToPipe c d) :=
  minds_get.bind fun _ => minds_ite (minds_pure _)
    ((minds_ask _).bind fun _ => minds_spliceSocketToPipeFrom _ _ _)

theorem minds_splicePipeToSocketFrom (d : Side) (fuel : Nat) (movedData : Bool) :
    Minds c (splicePipeToSocketFrom c d fuel movedData) := by
  induction fuel generalizing movedData with
  | zero => exact minds_diverge
  | succ fuel ih =>
      refine minds_get.bind fun s => minds_ite ((minds_spliceOut d _).bind fun r => ?_) (minds_pure _)
      match r with
      | .ok 0 => exact (minds_touchIf _).bind fun _ => minds_pure _
      | .ok (n + 1) => exact Minds.bind (minds_modPipe id id) fun _ => ih _
      | .error .eintr => exact ih _
      | .error .eagain => exact minds_pure _
      | .error .emfile => exact (minds_touchIf _).bind fun _ => minds_pure _
      | .error .enfile => exact (minds_touchIf _).bind fun _ => minds_pure _
      | .error .enotconn => exact (minds_touchIf _).bind fun _ => minds_pure _
      | .error .epipe => exact (minds_touchIf _).bind fun _ => minds_pure _
      | .error .other => exact (minds_touchIf _).bind fun _ => minds_pure _

theorem minds_splicePipeToSocket (d : Side) : Minds c (splicePipeToSocket c d) := by
  refine (minds_ask _).bind fun _ => (minds_splicePipeToSocketFrom _ _ _).bind fun r => ?_
  cases r with
  | none => exact minds_pure _
  | some movedData => exact (minds_touchIf _).bind fun _ => minds_shutdownSpliceTarget d

theorem minds_flushRelayPipes : Minds c (flushRelayPipes c) :=
  (minds_splicePipeToSocket _).bind fun _ => minds_ite
    ((minds_splicePipeToSocket _).bind fun _ => minds_ite (minds_pure _) (minds_pure _))
    (minds_pure _)

theorem minds_writeRequest (events : Bits) : Minds c (writeRequest c events) := by
  refine minds_get.bind fun s => minds_ite (minds_startHandshake.bind fun started => ?_) ?_
  · refine minds_ite (minds_get.bind fun s => minds_ite ?_ (minds_pure _)) (minds_pure _)
    exact minds_flushHandshake.bind fun r => minds_pure _
  · refine (minds_pure true).bind fun started =>
      minds_ite (minds_get.bind fun s => minds_ite ?_ (minds_pure _)) (minds_pure _)
    exact minds_flushHandshake.bind fun r => minds_pure _

theorem minds_readReplies (readable : Bool) : Minds c (readReplies c readable) := by
  refine minds_get.bind fun s => minds_ite (minds_readPipelinedReplies.bind fun r => ?_)
    (minds_pure _)
  match r with
  | none => exact minds_pure _
  | some false => exact minds_pure _
  | some true => exact minds_finishPipelinedReplies

/-! ### Interest -/

/-- The kernel is told the interest of a socket of the connection. -/
theorem beside_register (h : Holds s fd) (d : Side) (events : Bits) :
    Beside c (s, t) (s.register fd (.conn c d) events, t) := by
  have hint : Beside c (s, t) ({ s with
      interest := update s.interest fd
        (if events = Bits.none then none else some (.conn c d, events)) }, t) := by
    refine beside_of_conns rfl ⟨⟨rfl, rfl⟩, rfl⟩ rfl rfl rfl .inl ?_
    intro e
    by_cases he : e = fd
    · exact .inr (he ▸ h.spared)
    · exact .inl (update_of_ne he ..)
  refine hint.trans (beside_modConn
    (f := fun k => { k with ref := update k.ref d { k.ref d with events } }) ⟨id, id, id⟩ ?_ id)
  have hconn : ∀ e, (update (s.conns c).ref d { (s.conns c).ref d with events } e).connection =
      ((s.conns c).ref e).connection := by
    intro e
    by_cases he : e = d
    · subst he
      rw [update_self]
    · rw [update_of_ne he]
  show Badge.mk _ _ _ = Badge.mk _ _ _
  congr 1
  funext e
  exact hconn e

theorem beside_modFd (h : Holds w.1 fd) (d : Side) (events : Bits) :
    Prog.Sat timely (fun w' _ => Beside c w w') ((modFd fd (.conn c d) events).watch tick w) := by
  obtain ⟨s, t⟩ := w
  have hreg : ∀ done : Bool, Prog.Sat timely (fun w' _ => Beside c (s, t) w')
      (((do
        if done then modify fun s => s.register fd (.conn c d) events
        pure done : Worker Bool)).watch tick (s, t)) := by
    intro done
    cases done with
    | true => exact beside_register h d events
    | false => exact Beside.refl ..
  show Prog.Sat timely _ (((if _ then _ else _ : Worker Bool)).watch tick (s, t))
  split
  · exact Beside.refl ..
  · split
    · exact fun done _ => hreg done
    · split
      · exact fun r _ => hreg _
      · exact fun r _ => hreg _

theorem beside_addFd (h : Holds w.1 fd) (d : Side) (events : Bits) :
    Prog.Sat timely (fun w' _ => Beside c w w') ((addFd fd (.conn c d) events).watch tick w) := by
  obtain ⟨s, t⟩ := w
  intro r _
  cases r with
  | none => exact beside_register h d events
  | some e => exact Beside.refl ..

theorem minds_updateSideEvents (d : Side) : Minds c (updateSideEvents c d) := by
  intro w
  cases hfd : (w.1.conns c).fd d with
  | none =>
      have hrun : updateSideEvents c d w.1 = .ret w.1 () := by
        simp only [updateSideEvents, Act.bind_run, get_run, Prog.ret_bind, hfd, Act.pure_run]
      show Prog.Sat timely _ ((updateSideEvents c d w.1).watch tick w.2)
      rw [hrun]
      exact Beside.refl ..
  | some fd =>
      have hrun : updateSideEvents c d w.1 = (do
          let done ← modFd fd (.conn c d) (sideEvents (w.1.conns c) d)
          if !done then modify fun s => s.mark c .unchanged true : Worker Unit) w.1 := by
        simp only [updateSideEvents, Act.bind_run, get_run, Prog.ret_bind, hfd]
      show Prog.Sat timely _ ((updateSideEvents c d w.1).watch tick w.2)
      rw [hrun, Act.bind_run, Prog.watch_bind]
      refine (beside_modFd (.socket c d hfd) d _).bind fun w' done h => ?_
      refine (Minds.sat ?_ w').mono fun w'' _ h' => h.trans h'
      exact minds_ite minds_mark (minds_pure _)

theorem minds_updateConnectionEvents : Minds c (updateConnectionEvents c) :=
  minds_get.bind fun _ => minds_ite (minds_pure _)
    ((minds_updateSideEvents _).bind fun _ => minds_updateSideEvents _)

theorem minds_addSide (d : Side) : Minds c (addSide c d) := by
  intro w
  show Prog.Sat timely _ ((addSide c d w.1).watch tick w.2)
  simp only [addSide, Act.bind_run, get_run, Prog.ret_bind]
  cases hfd : (w.1.conns c).fd d with
  | none => exact Beside.refl ..
  | some fd => exact beside_addFd (.socket c d hfd) d _

theorem minds_registerConnection : Minds c (registerConnection c) := by
  refine (minds_addSide _).bind fun r => ?_
  cases r with
  | none => exact minds_addSide _
  | some e => exact minds_pure _

end

end Bpf2Socks.Tcp
