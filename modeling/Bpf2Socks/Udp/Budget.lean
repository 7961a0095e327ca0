/-
# Bpf2Socks.Udp.Budget — the memory budget the UDP workers share (`udp_budget.c`).

The workers of the bridge run in threads of their own and share `struct bpf2socks_udp_budget`.  Each
step of the model is one atomic operation of one worker: a load, a weak compare-and-swap, an exchange,
a write to an eventfd.  Between its calls a worker goes through the turns of
`bpf2socks_bridge_udp_run`: it serves events, runs `udp_run_maintenance`, and blocks in `epoll_wait`.
What the turns do to datagrams and sockets is not modelled here; what counts is that they may reserve,
release what is held, and pause relays or let them go at any time.

Memory is sequentially consistent, and `epoll_ctl` and writing to an eventfd succeed.
-/
import Mathlib.Algebra.GroupWithZero.Nat
import Bpf2Socks.Lib.Counter

namespace Bpf2Socks.Udp.Budget

open Function

/-- `BPF2SOCKS_MAX_WORKER_COUNT`. -/
def maxWorkerCount : Nat := 8

/-- The index of a worker into `wake_fds`, and its bit in `waiting_workers`. -/
abbrev WorkerId := Fin maxWorkerCount

instance : NeZero maxWorkerCount := ⟨by decide⟩

/-- Where a worker stands in a call on the budget, with what it has loaded. -/
inductive Call where
  | none
  /-- the loop of `bpf2socks_udp_budget_reserve` -/
  | reserve (bytes used : Nat)
  /-- `update_pending_budget_peak`, before and after the first load -/
  | peakLoad (used : Nat)
  | peak (used peak : Nat)
  /-- the loop of `bpf2socks_udp_budget_release` -/
  | release (bytes used : Nat)
  /-- `wake_pending_budget_waiters`: the load, the exchange, the loop from `i` on, and a write in it -/
  | wakeLoad
  | wakeExchange
  | waking (waiters : WorkerId → Bool) (i : Nat)
  | writing (waiters : WorkerId → Bool) (i : WorkerId)

/-- Where a worker stands in `bpf2socks_bridge_udp_run`. -/
inductive Turn where
  /-- before the loop -/
  | off
  | serving
  /-- the first call of `bpf2socks_udp_downlink_resume_budget_waiters` in the maintenance: the DNS
  channels, then the sessions -/
  | resumeDns
  | resumeSessions
  /-- the rest of the maintenance, up to `udp_has_budget_waiters` -/
  | expiring
  | register
  /-- the second call, after `bpf2socks_udp_budget_wait` -/
  | recheckDns
  | recheckSessions
  /-- in `epoll_wait` -/
  | waiting
  /-- after the loop, in `free_state` -/
  | closing
  deriving DecidableEq

/-- A worker.  `held` is what it has reserved and not released. -/
structure Local where
  turn : Turn
  call : Call
  held : Nat
  /-- a DNS channel is paused for want of budget -/
  dns : Bool
  /-- a session is paused for want of budget -/
  sessions : Bool

/-- `struct bpf2socks_udp_budget`, the eventfds it names, and the workers. -/
structure State where
  used : Nat
  peak : Nat
  waiting : WorkerId → Bool
  wakeFd : WorkerId → Bool
  event : WorkerId → Nat
  worker : WorkerId → Local

/-- `bpf2socks_udp_budget_init`, before any worker runs. -/
def initState : State where
  used := 0
  peak := 0
  waiting := fun _ => false
  wakeFd := fun _ => false
  event := fun _ => 0
  worker := fun _ => ⟨.off, .none, 0, false, false⟩

def State.setWorker (s : State) (w : WorkerId) (l : Local) : State :=
  { s with worker := update s.worker w l }

def State.setCall (s : State) (w : WorkerId) (c : Call) : State :=
  s.setWorker w { s.worker w with call := c }

def State.setTurn (s : State) (w : WorkerId) (t : Turn) : State :=
  s.setWorker w { s.worker w with turn := t }

section Fields

variable (s : State) {v w : WorkerId} (l : Local) (c : Call) (t : Turn)

@[simp] theorem setWorker_self : (s.setWorker w l).worker w = l := update_self _ _ _

@[simp] theorem setCall_self : (s.setCall w c).worker w = { s.worker w with call := c } :=
  update_self _ _ _

@[simp] theorem setTurn_self : (s.setTurn w t).worker w = { s.worker w with turn := t } :=
  update_self _ _ _

theorem setWorker_of_ne (h : v ≠ w) : (s.setWorker w l).worker v = s.worker v := update_of_ne h _ _

theorem setCall_of_ne (h : v ≠ w) : (s.setCall w c).worker v = s.worker v := update_of_ne h _ _

end Fields

/-! ## The calls -/

/-- Whether `bpf2socks_udp_budget_reserve` fails with `ENOBUFS`. -/
def refuses (cap bytes used : Nat) : Prop := cap < bytes ∨ cap - bytes < used

instance (cap bytes used : Nat) : Decidable (refuses cap bytes used) :=
  inferInstanceAs (Decidable (_ ∨ _))

/-- The next atomic operation of worker `w` within a call.  A weak compare-and-swap succeeds only if
it is `lucky`. -/
def advance (cap : Nat) (s : State) (w : WorkerId) (lucky : Bool) : Option State :=
  match (s.worker w).call with
  | .none => none
  | .reserve bytes used =>
      if refuses cap bytes used then some (s.setCall w .none)
      else if lucky ∧ s.used = used then
        some { s.setWorker w { s.worker w with
            call := .peakLoad (used + bytes), held := (s.worker w).held + bytes } with
          used := used + bytes }
      else some (s.setCall w (.reserve bytes s.used))
  | .peakLoad used => some (s.setCall w (.peak used s.peak))
  | .peak used peak =>
      if peak < used then
        if lucky ∧ s.peak = peak then some { s.setCall w .none with peak := used }
        else some (s.setCall w (.peak used s.peak))
      else some (s.setCall w .none)
  | .release bytes used =>
      if used < bytes then some (s.setCall w .none)
      else if lucky ∧ s.used = used then
        some { s.setWorker w { s.worker w with
            call := .wakeLoad, held := (s.worker w).held - bytes } with
          used := used - bytes }
      else some (s.setCall w (.release bytes s.used))
  | .wakeLoad =>
      if ∀ i, s.waiting i = false then some (s.setCall w .none)
      else some (s.setCall w .wakeExchange)
  | .wakeExchange =>
      some { s.setCall w (.waking s.waiting 0) with waiting := fun _ => false }
  | .waking waiters i =>
      if ∀ j, waiters j = false then some (s.setCall w .none)
      else if h : i < maxWorkerCount then
        let k : WorkerId := ⟨i, h⟩
        if waiters k = false then some (s.setCall w (.waking waiters (i + 1)))
        else if s.wakeFd k then some (s.setCall w (.writing (update waiters k false) k))
        else some (s.setCall w (.waking (update waiters k false) (i + 1)))
      else some (s.setCall w .none)
  | .writing waiters i =>
      some { s.setCall w (.waking waiters (i + 1)) with event := update s.event i (s.event i + 1) }

/-! ## The turns -/

/-- Whether one more datagram of the largest size has room, as
`bpf2socks_udp_downlink_resume_budget_waiters` finds it. -/
def roomy (cap slot used : Nat) : Prop := slot ≤ cap ∧ used ≤ cap - slot

instance (cap slot used : Nat) : Decidable (roomy cap slot used) :=
  inferInstanceAs (Decidable (_ ∧ _))

/-- `udp_has_budget_waiters`. -/
def Local.paused (l : Local) : Bool := l.dns || l.sessions

/-- The next turn of worker `w`. -/
def nextTurn (cap slot : Nat) (s : State) (w : WorkerId) : Option State :=
  let l := s.worker w
  match l.turn with
  | .off =>
      -- a new eventfd is published before the loop
      some { s.setWorker w { l with turn := .waiting, dns := false, sessions := false } with
        wakeFd := update s.wakeFd w true, event := update s.event w 0 }
  | .serving => some (s.setTurn w .resumeDns)
  | .resumeDns =>
      some (s.setWorker w { l with
        turn := .resumeSessions, dns := l.dns && !decide (roomy cap slot s.used) })
  | .resumeSessions =>
      some (s.setWorker w { l with
        turn := .expiring, sessions := l.sessions && !decide (roomy cap slot s.used) })
  | .expiring => some (s.setTurn w (if l.paused then .register else .waiting))
  | .register =>
      -- `bpf2socks_udp_budget_wait`
      some { s.setTurn w .recheckDns with waiting := update s.waiting w true }
  | .recheckDns =>
      some (s.setWorker w { l with
        turn := .recheckSessions, dns := l.dns && !decide (roomy cap slot s.used) })
  | .recheckSessions =>
      some (s.setWorker w { l with
        turn := .waiting, sessions := l.sessions && !decide (roomy cap slot s.used) })
  | .waiting => some (s.setTurn w .serving)
  | .closing => none

/-- Whether events are handled in a turn: relays are paused and let go. -/
def Turn.busy (t : Turn) : Bool := t == .serving || t == .expiring

/-- What a worker does next. -/
inductive Action where
  /-- go on with a call -/
  | advance (lucky : Bool)
  | reserve (bytes : Nat)
  | release (bytes : Nat)
  /-- relays are paused, let go or dropped -/
  | pause (dns sessions : Bool)
  /-- the worker's eventfd is read -/
  | drain
  | turn
  /-- the loop is left: `free_state` takes the eventfd back -/
  | close

/-- One step of worker `w`; only a call goes on while there is one. -/
def step (cap slot : Nat) (s : State) (w : WorkerId) (a : Action) : Option State :=
  match a, (s.worker w).call with
  | .advance lucky, _ => advance cap s w lucky
  | .reserve bytes, .none =>
      if (s.worker w).turn.busy then some (s.setCall w (.reserve bytes s.used)) else none
  | .release bytes, .none =>
      if ((s.worker w).turn.busy ∨ (s.worker w).turn = .closing) ∧ bytes ≤ (s.worker w).held then
        some (s.setCall w (.release bytes s.used))
      else none
  | .pause dns sessions, .none =>
      if (s.worker w).turn.busy then
        some (s.setWorker w { s.worker w with dns := dns, sessions := sessions })
      else none
  | .drain, .none =>
      if (s.worker w).turn = .serving then some { s with event := update s.event w 0 } else none
  | .turn, .none => nextTurn cap slot s w
  | .close, .none =>
      if (s.worker w).turn = .serving then
        some { s.setTurn w .closing with wakeFd := update s.wakeFd w false }
      else none
  | _, _ => none

/-- The states the workers can get to, in any interleaving; `high` is the most that was ever
reserved. -/
inductive Reach (cap slot : Nat) : State → Nat → Prop where
  | init : Reach cap slot initState 0
  | step {s t : State} {high : Nat} (w : WorkerId) (a : Action) :
      Reach cap slot s high → Budget.step cap slot s w a = some t →
      Reach cap slot t (max high t.used)

/-! ## The account -/

/-- What the shared counter sees of a call. -/
def Call.counter : Call → Lib.Counter.Call
  | .reserve bytes used => .take bytes used
  | .release bytes used => .give bytes used
  | _ => .idle

/-- The budget as a shared counter. -/
def State.counter (s : State) : Lib.Counter.State WorkerId :=
  ⟨s.used, fun w => (s.worker w).call.counter, fun w => (s.worker w).held⟩

variable {cap slot high : Nat} {s t : State} {v w : WorkerId}

theorem counter_setWorker (s : State) (w : WorkerId) (l : Local) :
    (s.setWorker w l).counter =
      { s.counter with
        call := update s.counter.call w l.call.counter
        held := update s.counter.held w l.held } := by
  simp only [State.counter, State.setWorker, Lib.Counter.State.mk.injEq, true_and]
  constructor
  all_goals
    funext v
    rcases eq_or_ne v w with rfl | hne
    · simp
    · simp [update_of_ne hne]

theorem counter_setCall (s : State) (w : WorkerId) (c : Call) :
    (s.setCall w c).counter =
      { s.counter with call := update s.counter.call w c.counter } := by
  have hheld : update s.counter.held w (s.worker w).held = s.counter.held :=
    update_eq_self w s.counter.held
  rw [State.setCall, counter_setWorker]
  simp only [hheld]

/-- A worker whose call and account are as before. -/
theorem counter_same {l : Local} (hc : l.call = (s.worker w).call) (hh : l.held = (s.worker w).held) :
    (s.setWorker w l).counter = s.counter := by
  rw [counter_setWorker, hc, hh]
  have hcall : update s.counter.call w (s.worker w).call.counter = s.counter.call :=
    update_eq_self w s.counter.call
  have hheld : update s.counter.held w (s.worker w).held = s.counter.held :=
    update_eq_self w s.counter.held
  rw [hcall, hheld]

/-- A call the counter does not see goes on to another one. -/
theorem counter_unseen {c : Call} (hc : c.counter = .idle)
    (hs : (s.worker w).call.counter = .idle) : (s.setCall w c).counter = s.counter := by
  rw [counter_setCall, hc]
  have hcall : update s.counter.call w (s.worker w).call.counter = s.counter.call :=
    update_eq_self w s.counter.call
  rw [← hs, hcall]

/-- The counter is stored with the worker that stored it. -/
theorem counter_store (s : State) (w : WorkerId) (l : Local) (n : Nat) :
    State.counter { s.setWorker w l with used := n } =
      ⟨n, update s.counter.call w l.call.counter, update s.counter.held w l.held⟩ := by
  show { (s.setWorker w l).counter with used := n } = _
  rw [counter_setWorker]

/-- **A call** moves the counter as its operations do, or not at all. -/
theorem counter_advance (h : Lib.Counter.Sound cap s.counter) {lucky : Bool}
    (hst : advance cap s w lucky = some t) :
    t.counter = s.counter ∨ Lib.Counter.Step cap s.counter t.counter := by
  have hidle : ∀ {c c' : Call}, (s.worker w).call = c → c.counter = .idle → c'.counter = .idle →
      (s.setCall w c').counter = s.counter := by
    intro c c' hcall hc hc'
    exact counter_unseen hc' (hcall ▸ hc)
  unfold advance at hst
  split at hst
  · cases hst
  · rename_i bytes used hcall
    have hc : s.counter.call w = .take bytes used := by simp [State.counter, hcall, Call.counter]
    split at hst
    · rename_i hr
      cases hst
      rw [counter_setCall]
      exact .inr (.refuse w hc hr)
    · rename_i hr
      split at hst
      · rename_i hl
        cases hst
        rw [counter_store]
        exact .inr (.take w hc hr hl.2)
      · cases hst
        rw [counter_setCall]
        exact .inr (.reloadTake w hc)
  · rename_i hcall
    cases hst
    exact .inl (hidle hcall rfl rfl)
  · rename_i hcall
    split at hst
    · split at hst
      · cases hst
        exact .inl (hidle hcall rfl rfl)
      · cases hst
        exact .inl (hidle hcall rfl rfl)
    · cases hst
      exact .inl (hidle hcall rfl rfl)
  · rename_i bytes used hcall
    have hc : s.counter.call w = .give bytes used := by simp [State.counter, hcall, Call.counter]
    split at hst
    · -- `ERANGE` is for those who give back more than there is
      rename_i hrange
      have := (h.given w bytes used hc).2
      omega
    · split at hst
      · rename_i hl
        cases hst
        rw [counter_store]
        exact .inr (.give w hc hl.2)
      · cases hst
        rw [counter_setCall]
        exact .inr (.reloadGive w hc)
  · rename_i hcall
    split at hst
    · cases hst
      exact .inl (hidle hcall rfl rfl)
    · cases hst
      exact .inl (hidle hcall rfl rfl)
  · rename_i hcall
    cases hst
    exact .inl (hidle hcall rfl rfl)
  · rename_i hcall
    split at hst
    · cases hst
      exact .inl (hidle hcall rfl rfl)
    · split at hst
      · dsimp only at hst
        split at hst
        · cases hst
          exact .inl (hidle hcall rfl rfl)
        · split at hst
          · cases hst
            exact .inl (hidle hcall rfl rfl)
          · cases hst
            exact .inl (hidle hcall rfl rfl)
      · cases hst
        exact .inl (hidle hcall rfl rfl)
  · rename_i hcall
    cases hst
    exact .inl (hidle hcall rfl rfl)

/-- The turns leave the account alone. -/
theorem counter_nextTurn (hst : nextTurn cap slot s w = some t) : t.counter = s.counter := by
  unfold nextTurn at hst
  dsimp only at hst
  split at hst
  · cases hst
    exact counter_same (l := { s.worker w with turn := .waiting, dns := false, sessions := false })
      rfl rfl
  · cases hst
    exact counter_same rfl rfl
  · cases hst
    exact counter_same rfl rfl
  · cases hst
    exact counter_same rfl rfl
  · cases hst
    exact counter_same rfl rfl
  · cases hst
    exact counter_same (l := { s.worker w with turn := .recheckDns }) rfl rfl
  · cases hst
    exact counter_same rfl rfl
  · cases hst
    exact counter_same rfl rfl
  · cases hst
    exact counter_same rfl rfl
  · cases hst

/-- **A step** moves the counter as its operations do, or not at all. -/
theorem counter_step (h : Lib.Counter.Sound cap s.counter) {a : Action}
    (hst : step cap slot s w a = some t) :
    t.counter = s.counter ∨ Lib.Counter.Step cap s.counter t.counter := by
  unfold step at hst
  split at hst
  · exact counter_advance h hst
  · rename_i bytes hcall
    have hc : s.counter.call w = .idle := by simp [State.counter, hcall, Call.counter]
    split at hst
    · cases hst
      rw [counter_setCall]
      exact .inr (.loadTake w bytes hc)
    · cases hst
  · rename_i bytes hcall
    have hc : s.counter.call w = .idle := by simp [State.counter, hcall, Call.counter]
    split at hst
    · rename_i hg
      cases hst
      rw [counter_setCall]
      exact .inr (.loadGive w bytes hc hg.2)
    · cases hst
  · split at hst
    · cases hst
      exact .inl (counter_same rfl rfl)
    · cases hst
  · split at hst
    · cases hst
      exact .inl rfl
    · cases hst
  · exact .inl (counter_nextTurn hst)
  · split at hst
    · cases hst
      exact .inl (counter_same (l := { s.worker w with turn := .closing }) rfl rfl)
    · cases hst
  · cases hst

/-- The account of the shared counter is kept. -/
theorem Reach.sound (h : Reach cap slot s high) : Lib.Counter.Sound cap s.counter := by
  induction h with
  | init => exact Lib.Counter.sound_zero cap
  | step w a _ hst ih =>
      rcases counter_step ih hst with he | hs
      · exact he ▸ ih
      · exact ih.step hs

/-- **The budget is conserved.**  In every interleaving the counter is what the workers hold together
and never above the bound, and no release finds less than it gives back. -/
theorem budget_conserved (h : Reach cap slot s high) :
    s.used = ∑ w, (s.worker w).held ∧ s.used ≤ cap ∧
      ∀ w bytes used, (s.worker w).call = .release bytes used → bytes ≤ used := by
  have hsound := h.sound
  refine ⟨hsound.sum, hsound.within, ?_⟩
  intro w bytes used hcall
  exact (hsound.given w bytes used (by simp [State.counter, hcall, Call.counter])).2

/-! ## The peak -/

/-- What a call still has to enter into the peak. -/
def Call.entering : Call → Option Nat
  | .peakLoad used => some used
  | .peak used _ => some used
  | _ => Option.none

/-- Every amount is in the peak or on its way there. -/
structure Peaked (s : State) (high : Nat) : Prop where
  used : s.used ≤ high
  le : s.peak ≤ high
  entered : high ≤ s.peak ∨ ∃ w, (s.worker w).call.entering = some high
  entering : ∀ w n, (s.worker w).call.entering = some n → n ≤ high
  seen : ∀ w used peak, (s.worker w).call = .peak used peak → peak ≤ s.peak

/-- Only worker `w` has moved, and has the same to enter as before. -/
theorem Peaked.move (h : Peaked s high) (hothers : ∀ v, v ≠ w → t.worker v = s.worker v)
    (hused : t.used ≤ high) (hpeak : t.peak = s.peak)
    (hself : (t.worker w).call.entering = (s.worker w).call.entering)
    (hseen : ∀ used peak, (t.worker w).call = .peak used peak → peak ≤ s.peak) :
    Peaked t high := by
  have hsame : ∀ v, (t.worker v).call.entering = (s.worker v).call.entering := by
    intro v
    rcases eq_or_ne v w with rfl | hne
    · exact hself
    · rw [hothers v hne]
  refine ⟨hused, hpeak ▸ h.le, ?_, ?_, ?_⟩
  · rcases h.entered with hle | ⟨v, hv⟩
    · exact .inl (hpeak ▸ hle)
    · exact .inr ⟨v, (hsame v).trans hv⟩
  · intro v n hv
    exact h.entering v n ((hsame v).symm.trans hv)
  · intro v used peak hv
    rw [hpeak]
    rcases eq_or_ne v w with rfl | hne
    · exact hseen used peak hv
    · exact h.seen v used peak (hothers v hne ▸ hv)

/-- Worker `w` has called and the peak is as before. -/
theorem Peaked.setCall (h : Peaked s high) {c : Call}
    (hself : c.entering = (s.worker w).call.entering)
    (hseen : ∀ used peak, c = .peak used peak → peak ≤ s.peak) : Peaked (s.setCall w c) high := by
  refine h.move (fun v hv => setCall_of_ne s c hv) h.used rfl ?_ ?_
  · rw [setCall_self]
    exact hself
  · intro used peak hc
    rw [setCall_self] at hc
    exact hseen used peak hc

/-- A successful reservation is the worker's to enter. -/
theorem Peaked.reserved (h : Peaked s high) {n : Nat} {l : Local} (hl : l.call = .peakLoad n)
    (hw : (s.worker w).call.entering = none) :
    Peaked { s.setWorker w l with used := n } (max high n) := by
  have hself : ((s.setWorker w l).worker w).call.entering = some n := by
    rw [setWorker_self, hl]
    rfl
  refine ⟨Nat.le_max_right _ _, Nat.le_trans h.le (Nat.le_max_left _ _), ?_, ?_, ?_⟩
  · rcases Nat.le_total high n with hle | hle
    · exact .inr ⟨w, by rw [Nat.max_eq_right hle]; exact hself⟩
    · rw [Nat.max_eq_left hle]
      refine h.entered.imp id ?_
      rintro ⟨v, hv⟩
      have hne : v ≠ w := by
        rintro rfl
        simp [hw] at hv
      exact ⟨v, by rw [← hv]; exact congrArg _ (congrArg _ (setWorker_of_ne s l hne))⟩
  · intro v k hv
    rcases eq_or_ne v w with rfl | hne
    · have : n = k := Option.some.inj (hself.symm.trans hv)
      omega
    · have hv' : ((s.setWorker w l).worker v).call.entering = some k := hv
      rw [setWorker_of_ne s l hne] at hv'
      have := h.entering v k hv'
      omega
  · intro v used peak hv
    rcases eq_or_ne v w with rfl | hne
    · have hv' : ((s.setWorker v l).worker v).call = .peak used peak := hv
      rw [setWorker_self, hl] at hv'
      cases hv'
    · have hv' : ((s.setWorker w l).worker v).call = .peak used peak := hv
      rw [setWorker_of_ne s l hne] at hv'
      exact h.seen v used peak hv'

/-- The worker has entered its amount, or found a peak that is as high. -/
theorem Peaked.enter (h : Peaked s high) {n p : Nat} (hw : (s.worker w).call.entering = some n)
    (hs : s.peak ≤ p) (hn : n ≤ p) (hp : p ≤ high) :
    Peaked { s.setCall w .none with peak := p } high := by
  refine ⟨h.used, hp, ?_, ?_, ?_⟩
  · rcases h.entered with hle | ⟨v, hv⟩
    · exact .inl (Nat.le_trans hle hs)
    · rcases eq_or_ne v w with rfl | hne
      · have : n = high := Option.some.inj (hw.symm.trans hv)
        exact .inl (this ▸ hn)
      · refine .inr ⟨v, ?_⟩
        rw [← hv]
        exact congrArg _ (congrArg _ (setCall_of_ne s .none hne))
  · intro v k hv
    rcases eq_or_ne v w with rfl | hne
    · have hv' : ((s.setCall v .none).worker v).call.entering = some k := hv
      rw [setCall_self] at hv'
      cases hv'
    · have hv' : ((s.setCall w .none).worker v).call.entering = some k := hv
      rw [setCall_of_ne s .none hne] at hv'
      exact h.entering v k hv'
  · intro v used peak hv
    rcases eq_or_ne v w with rfl | hne
    · have hv' : ((s.setCall v .none).worker v).call = .peak used peak := hv
      rw [setCall_self] at hv'
      cases hv'
    · have hv' : ((s.setCall w .none).worker v).call = .peak used peak := hv
      rw [setCall_of_ne s .none hne] at hv'
      exact Nat.le_trans (h.seen v used peak hv') hs

/-- **A call** enters what it reserved. -/
theorem Peaked.advance (h : Peaked s high) {lucky : Bool}
    (hst : Budget.advance cap s w lucky = some t) : Peaked t (max high t.used) := by
  have hcalm : ∀ {t'}, Peaked t' high → Peaked t' (max high t'.used) := by
    intro t' ht
    rwa [Nat.max_eq_left ht.used]
  -- a call that has nothing to enter goes on to another one
  have hidle : ∀ {c c' : Call}, (s.worker w).call = c → c.entering = none → c'.entering = none →
      Peaked (s.setCall w c') high := by
    intro c c' hcall hc hc'
    refine h.setCall (hc'.trans (hcall ▸ hc).symm) ?_
    rintro used peak rfl
    cases hc'
  unfold Budget.advance at hst
  split at hst
  · cases hst
  · rename_i bytes used hcall
    split at hst
    · cases hst
      exact hcalm (hidle hcall rfl rfl)
    · split at hst
      · cases hst
        exact h.reserved (l := { s.worker w with
          call := .peakLoad (used + bytes), held := (s.worker w).held + bytes }) rfl (hcall ▸ rfl)
      · cases hst
        exact hcalm (hidle hcall rfl rfl)
  · rename_i used hcall
    cases hst
    refine hcalm (h.setCall (hcall ▸ rfl) ?_)
    rintro _ _ ⟨⟩
    exact Nat.le_refl _
  · rename_i used peak hcall
    have hentering : (s.worker w).call.entering = some used := hcall ▸ rfl
    have hseen := h.seen w used peak hcall
    split at hst
    · rename_i hlt
      split at hst
      · rename_i hl
        cases hst
        exact hcalm (h.enter hentering (hl.2 ▸ Nat.le_of_lt hlt) (Nat.le_refl _)
          (h.entering w used hentering))
      · cases hst
        refine hcalm (h.setCall (hcall ▸ rfl) ?_)
        rintro _ _ ⟨⟩
        exact Nat.le_refl _
    · rename_i hge
      cases hst
      exact hcalm (h.enter hentering (Nat.le_refl _)
        (Nat.le_trans (Nat.le_of_not_lt hge) hseen) h.le)
  · rename_i bytes used hcall
    split at hst
    · cases hst
      exact hcalm (hidle hcall rfl rfl)
    · split at hst
      · rename_i hl
        cases hst
        refine hcalm (h.move (w := w) (fun v hv => setWorker_of_ne s _ hv) ?_ rfl ?_ ?_)
        · have := h.used
          show used - bytes ≤ high
          omega
        · show ((s.setWorker w _).worker w).call.entering = _
          rw [setWorker_self, hcall]
          rfl
        · intro u k hu
          have hu' : ((s.setWorker w _).worker w).call = .peak u k := hu
          rw [setWorker_self] at hu'
          cases hu'
      · cases hst
        exact hcalm (hidle hcall rfl rfl)
  · rename_i hcall
    split at hst
    · cases hst
      exact hcalm (hidle hcall rfl rfl)
    · cases hst
      exact hcalm (hidle hcall rfl rfl)
  · rename_i hcall
    cases hst
    have ht := @hidle _ (.waking s.waiting 0) hcall rfl rfl
    exact hcalm ⟨ht.used, ht.le, ht.entered, ht.entering, ht.seen⟩
  · rename_i hcall
    split at hst
    · cases hst
      exact hcalm (hidle hcall rfl rfl)
    · split at hst
      · dsimp only at hst
        split at hst
        · cases hst
          exact hcalm (hidle hcall rfl rfl)
        · split at hst
          · cases hst
            exact hcalm (hidle hcall rfl rfl)
          · cases hst
            exact hcalm (hidle hcall rfl rfl)
      · cases hst
        exact hcalm (hidle hcall rfl rfl)
  · rename_i waiters i hcall
    cases hst
    have ht := @hidle _ (.waking waiters (i + 1)) hcall rfl rfl
    exact hcalm ⟨ht.used, ht.le, ht.entered, ht.entering, ht.seen⟩

/-! ## Steps between the calls -/

/-- A call that was not there, or has loaded the counter and done nothing yet. -/
def Call.Fresh : Call → Prop
  | .none | .reserve _ _ | .release _ _ => True
  | _ => False

/-- What worker `w` can do between its calls: nothing to the counter and the peak, nothing to another
worker and its eventfd, and nothing to take a bit out of `waiting_workers`. -/
structure Plain (s : State) (w : WorkerId) (t : State) : Prop where
  used : t.used = s.used
  peak : t.peak = s.peak
  others : ∀ v, v ≠ w → t.worker v = s.worker v
  event : ∀ v, v ≠ w → t.event v = s.event v
  wakeFd : ∀ v, v ≠ w → t.wakeFd v = s.wakeFd v
  waiting : ∀ v, s.waiting v = true → t.waiting v = true
  before : (s.worker w).call = .none
  after : (t.worker w).call.Fresh

/-- Only the record of worker `w` was written. -/
theorem plain_setWorker {l : Local} (hw : (s.worker w).call = .none) (hl : l.call.Fresh) :
    Plain s w (s.setWorker w l) :=
  ⟨rfl, rfl, fun _ hv => setWorker_of_ne s l hv, fun _ _ => rfl, fun _ _ => rfl, fun _ => id, hw,
    by rw [setWorker_self]; exact hl⟩

theorem plain_nextTurn (hw : (s.worker w).call = .none) (hst : nextTurn cap slot s w = some t) :
    Plain s w t := by
  have hl : ∀ {l : Local}, l.call = (s.worker w).call → Plain s w (s.setWorker w l) := fun hl =>
    plain_setWorker hw (by rw [hl, hw]; trivial)
  unfold nextTurn at hst
  dsimp only at hst
  split at hst
  · cases hst
    have ht := hl (l := { s.worker w with turn := .waiting, dns := false, sessions := false }) rfl
    exact ⟨rfl, rfl, ht.others, fun v hv => update_of_ne hv _ _, fun v hv => update_of_ne hv _ _,
      fun _ => id, hw, ht.after⟩
  · cases hst
    exact hl rfl
  · cases hst
    exact hl rfl
  · cases hst
    exact hl rfl
  · cases hst
    exact hl rfl
  · cases hst
    have ht := hl (l := { s.worker w with turn := .recheckDns }) rfl
    refine ⟨rfl, rfl, ht.others, fun _ _ => rfl, fun _ _ => rfl, ?_, hw, ht.after⟩
    intro v hv
    rcases eq_or_ne v w with rfl | hne
    · exact update_self _ _ _
    · exact (update_of_ne hne _ _).trans hv
  · cases hst
    exact hl rfl
  · cases hst
    exact hl rfl
  · cases hst
    exact hl rfl
  · cases hst

/-- **Between the calls.** -/
theorem plain_step {a : Action} (ha : ∀ lucky, a ≠ .advance lucky)
    (hst : step cap slot s w a = some t) : Plain s w t := by
  unfold step at hst
  split at hst
  · exact absurd rfl (ha _)
  · rename_i hw
    split at hst
    · cases hst
      exact plain_setWorker hw trivial
    · cases hst
  · rename_i hw
    split at hst
    · cases hst
      exact plain_setWorker hw trivial
    · cases hst
  · rename_i hw
    split at hst
    · cases hst
      exact plain_setWorker hw (by rw [hw]; trivial)
    · cases hst
  · rename_i hw
    split at hst
    · cases hst
      exact ⟨rfl, rfl, fun _ _ => rfl, fun v hv => update_of_ne hv _ _, fun _ _ => rfl, fun _ => id,
        hw, by rw [hw]; trivial⟩
    · cases hst
  · rename_i hw
    exact plain_nextTurn hw hst
  · rename_i hw
    split at hst
    · cases hst
      have ht := plain_setWorker (l := { s.worker w with turn := .closing }) hw
        (by rw [hw]; trivial)
      exact ⟨rfl, rfl, ht.others, fun _ _ => rfl, fun v hv => update_of_ne hv _ _, fun _ => id, hw,
        ht.after⟩
    · cases hst
  · cases hst

theorem entering_of_fresh {c : Call} (h : c.Fresh) : c.entering = none := by
  cases c <;> first | rfl | exact absurd h id

/-- Every amount reserved is in the peak or on its way there. -/
theorem Reach.peaked (h : Reach cap slot s high) : Peaked s high := by
  induction h with
  | init => exact ⟨Nat.le_refl _, Nat.le_refl _, .inl (Nat.le_refl _), by simp [initState, Call.entering],
      by simp [initState]⟩
  | @step s t high w a _ hst ih =>
      rcases em (∃ lucky, a = .advance lucky) with ⟨lucky, rfl⟩ | ha
      · have hadv : advance cap s w lucky = some t := by simpa [Budget.step] using hst
        exact ih.advance hadv
      · have hp := plain_step (fun lucky he => ha ⟨lucky, he⟩) hst
        have hused : t.used ≤ high := hp.used ▸ ih.used
        rw [Nat.max_eq_left hused]
        refine ih.move hp.others hused hp.peak ?_ ?_
        · rw [entering_of_fresh hp.after, hp.before]
          rfl
        · intro used peak hc
          have := hp.after
          rw [hc] at this
          exact absurd this id

/-- **The peak is exact.**  When no worker is still entering what it reserved, the recorded peak is
the most that was ever reserved at one time; until then it is no more than that. -/
theorem peak_exact (h : Reach cap slot s high) :
    s.peak ≤ high ∧ ((∀ w, (s.worker w).call.entering = none) → s.peak = high) := by
  have hp := h.peaked
  refine ⟨hp.le, ?_⟩
  intro hnone
  refine Nat.le_antisymm hp.le ?_
  rcases hp.entered with hle | ⟨w, hw⟩
  · exact hle
  · rw [hnone w] at hw
    cases hw

/-! ## A run -/

/-- The steps of a run, each with the worker that makes it. -/
def run (cap slot : Nat) : List (WorkerId × Action) → State → Option State
  | [], s => some s
  | (w, a) :: rest, s => (step cap slot s w a).bind (run cap slot rest)

theorem reach_run {l : List (WorkerId × Action)} (h : Reach cap slot s high)
    (hst : run cap slot l s = some t) : ∃ high', Reach cap slot t high' := by
  induction l generalizing s high with
  | nil =>
      cases hst
      exact ⟨high, h⟩
  | cons x rest ih =>
      obtain ⟨u, hu, hrest⟩ := Option.bind_eq_some_iff.mp hst
      exact ih (h.step x.1 x.2 hu) hrest

/-- Worker 1 reserves everything, worker 0 pauses a session and blocks, and worker 1 releases. -/
def contested : List (WorkerId × Action) :=
  [(0, .turn), (1, .turn), (1, .turn), (1, .reserve 100), (1, .advance true), (1, .advance true),
    (1, .advance true), (0, .turn), (0, .pause false true), (0, .turn), (0, .turn), (0, .turn),
    (0, .turn), (0, .turn), (0, .turn), (0, .turn), (1, .release 100), (1, .advance true)]

/-- What a reader of `contested` looks at in its last state. -/
def State.view (s : State) : Turn × Bool × Nat × Nat × Bool :=
  ((s.worker 0).turn, (s.worker 0).paused, s.used, s.event 0,
    decide (∀ w, (s.worker w).call.entering = none))

theorem exists_contested : ∃ s high, Reach 100 40 s high ∧ s.view = (.waiting, true, 0, 0, true) := by
  have hview : (run 100 40 contested initState).map State.view = some (.waiting, true, 0, 0, true) := by
    decide
  obtain ⟨s, hs, hs'⟩ := Option.map_eq_some_iff.mp hview
  obtain ⟨high, h⟩ := reach_run .init hs
  exact ⟨s, high, h, hs'⟩

theorem budget_conserved_contested :
    ∃ s high, Reach 100 40 s high ∧ s.view = (.waiting, true, 0, 0, true) ∧
      s.used = ∑ w, (s.worker w).held := by
  obtain ⟨s, high, h, hview⟩ := exists_contested
  exact ⟨s, high, h, hview, (budget_conserved h).1⟩

theorem peak_exact_contested :
    ∃ s high, Reach 100 40 s high ∧ s.view = (.waiting, true, 0, 0, true) ∧ s.peak = high := by
  obtain ⟨s, high, h, hview⟩ := exists_contested
  have hnone : ∀ w, (s.worker w).call.entering = none := by
    simp only [State.view, Prod.mk.injEq, decide_eq_true_eq] at hview
    exact hview.2.2.2.2
  exact ⟨s, high, h, hview, (peak_exact h).2 hnone⟩

end Bpf2Socks.Udp.Budget
