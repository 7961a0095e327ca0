/-
# Bpf2Socks.Udp.StaleEvents — events of a session that has gone meanwhile.

`epoll_wait` fills an array; each element names a slot's control or relay ref, not a session.
When an earlier element leads to the session being dropped and its slot taken by a new one, the
ref names the new session.  A relay event does no harm: a new session has no relay socket before
its handshake completes.  A control event is handed to the new session as if it were its own.

As long as no slot with a control event still to be handled is taken for a new session, an event
whose session has gone does nothing at all.
-/
import Bpf2Socks.Udp.SessionRuns

namespace Bpf2Socks.Udp

open Lib (Prog)
open Lib.Prog Lib.Act

variable {A : State → (q : Sys) → q.Ans → Prop} {C : Loc → State → Prop}
  {cfg : WorkerConfig} {l l' : Loc} {s s' : State}

/-- The event was collected for the session that is in slot `k` now. -/
def Event.Fresh (s : State) (e : Event) (k : Nat) : Prop :=
  (s.tbl.core k).used = true ∧ (s.tbl.core k).uid = e.uid

/-- If the next event is for the control or relay descriptor of a session that is no longer there,
then handling it changes nothing but the position in the array. -/
def StaleHarmless (A : State → (q : Sys) → q.Ans → Prop) (s : State) : Prop :=
  ∀ e rest k, s.events = e :: rest → e.ref = .control k ∨ e.ref = .relay k → ¬e.Fresh s k →
    ∀ l' s', Step A (.dispatch, s) (l', s') → l' = .dispatch ∧ s' = { s with events := rest }

/-- The datagram at hand does not make `alloc_session` take a slot for whose control descriptor an
event of the array is still to be handled. -/
def sparesPending (l : Loc) (s : State) : Bool :=
  match l with
  | .clientSession _ none => s.events.all fun e => match e.ref with
      | .control k => allocTarget s ≠ some k
      | _ => true
  | _ => true

/-! ## The invariant -/

/-- The session in slot `k`, if any, is the one the event was collected for. -/
def Event.Mine (s : State) (e : Event) (k : Nat) : Prop :=
  (s.tbl.core k).used = true → (s.tbl.core k).uid = e.uid

/-- Slot `k` is not ready, and nothing in the rest of the array can make it so. -/
structure Dormant (s : State) (k : Nat) : Prop where
  stage : (s.tbl.core k).stage ≠ .ready
  control : ∀ e ∈ s.events, e.ref ≠ .control k

/-- What is known of every event still to be handled. -/
structure Pending (s : State) (e : Event) : Prop where
  control : ∀ k, e.ref = .control k → e.Mine s k
  relay : ∀ k, e.ref = .relay k → e.Mine s k ∨ Dormant s k

def EventsInv (s : State) : Prop := ∀ e ∈ s.events, Pending s e

theorem Event.Mine.same {e : Event} {k : Nat} (h : e.Mine s k) (hk : SameSession s s' k) :
    e.Mine s' k := fun hu => hk.uid.trans (h (hk.used.symm.trans hu))

theorem Event.mine_unused {e : Event} {k : Nat} (h : (s.tbl.core k).used = false) : e.Mine s k :=
  fun hu => by simp [h] at hu

theorem Dormant.kept {k : Nat} (h : Dormant s k) (hk : Kept s s' k)
    (hev : ∀ e ∈ s'.events, e ∈ s.events) : Dormant s' k :=
  ⟨fun hr => h.stage (hk.ready.mp hr), fun e he => h.control e (hev e he)⟩

/-- Slots whose sessions were kept, dropped, or, with a control event for them at the head of the
array, worked on. -/
theorem EventsInv.of_slots (h : EventsInv s) (hev : ∀ e ∈ s'.events, e ∈ s.events)
    (hslots : ∀ j, Fate Anyone s s' j ∨ Handshaking s j ∧ SameSession s s' j) : EventsInv s' := by
  have hmine : ∀ e k, Event.Mine s e k → Event.Mine s' e k := by
    intro e k hm
    rcases hslots k with (hk | ⟨-, hg⟩) | ⟨-, hk⟩
    · exact hm.same hk.same
    · exact Event.mine_unused hg.used
    · exact hm.same hk
  intro e he
  refine ⟨fun k hk => hmine e k ((h e (hev e he)).control k hk), fun k hk => ?_⟩
  rcases (h e (hev e he)).relay k hk with hm | hd
  · exact Or.inl (hmine e k hm)
  · rcases hslots k with (hkept | ⟨-, hg⟩) | ⟨⟨e', rest, hhead, href, -⟩, -⟩
    · exact Or.inr (hd.kept hkept hev)
    · exact Or.inl (Event.mine_unused hg.used)
    · exact absurd href (hd.control e' (hhead ▸ List.mem_cons_self))

theorem EventsInv.of_fate (h : EventsInv s) (hev : s'.events = s.events)
    (hslots : ∀ j, Fate Anyone s s' j) : EventsInv s' :=
  h.of_slots (fun _ he => hev ▸ he) fun j => Or.inl (hslots j)

/-- A datagram is served; a slot that is taken has no control event to come. -/
theorem EventsInv.served {p : ClientPacket} {existing : Option Nat} {M : Prop}
    (h : EventsInv s) (hc : sparesPending (.clientSession p existing) s = true)
    (hs : Served M p existing s s') : EventsInv s' := by
  obtain ⟨n, out, -, hr, -⟩ := hs.rest
  have hev : s'.events = s.events := congrArg Rest.events hr
  by_cases htarget : ∃ k, existing = none ∧ allocTarget s = some k
  · obtain ⟨k, rfl, hk⟩ := htarget
    have hkept : ∀ j, j ≠ k → Kept s s' j := fun j hj =>
      hs.kept j fun _ he => hj (Option.some.inj (he.symm.trans hk))
    have hcontrol : ∀ e ∈ s.events, e.ref ≠ .control k := by
      intro e he href
      have := List.all_eq_true.mp hc e he
      simp [href, hk] at this
    intro e he
    have he' := hev ▸ he
    refine ⟨fun j hj => ?_, fun j hj => ?_⟩
    · have hjk : j ≠ k := by
        rintro rfl
        exact hcontrol e he' hj
      exact ((h e he').control j hj).same (hkept j hjk).same
    · rcases eq_or_ne j k with rfl | hjk
      · rcases hs.target rfl j hk with hnew | hu
        · exact Or.inr ⟨hnew.stage, fun e he => hcontrol e (hev ▸ he)⟩
        · exact Or.inl (Event.mine_unused hu)
      · rcases (h e he').relay j hj with hm | hd
        · exact Or.inl (hm.same (hkept j hjk).same)
        · exact Or.inr (hd.kept (hkept j hjk) fun e he => hev ▸ he)
  · refine h.of_fate hev fun j => Or.inl (hs.kept j fun he hk => htarget ⟨j, he, hk⟩)

theorem eventsInv_step {M : Prop} (hs : Sessions M s) (hc : sparesPending l s = true)
    (h : EventsInv s) (he : Effect M l s l' s') : EventsInv s' := by
  cases he with
  | arrayDone => exact h
  | event hd =>
      obtain ⟨_, _, _, _, _, hr⟩ := hd.rest
      have hev : s'.events = s.events.tail := congrArg Rest.events hr
      exact h.of_slots (fun e he => List.mem_of_mem_tail (hev ▸ he)) hd.slots
  | looked hd =>
      obtain ⟨_, hr⟩ := hd.1.rest
      exact h.of_fate (congrArg Rest.events hr) fun j => Or.inl (hd.1.kept j)
  | served hd => exact h.served hc hd
  | flushDone => exact h
  | flushed _ hd =>
      obtain ⟨_, hr⟩ := hd.rest
      exact h.of_fate (congrArg Rest.events hr) fun j =>
        (hd.slots j).imp id fun hg => ⟨trivial, hg.2⟩
  | replied hd =>
      exact h.of_fate (congrArg Rest.events hd.rest) fun j => Or.inl (hd.kept j)
  | repliesDone hd =>
      exact h.of_fate (congrArg Rest.events hd.rest) fun j =>
        (hd.slots j).imp id fun hg => ⟨trivial, hg.2⟩
  | maintained hd =>
      obtain ⟨-, -, -, hfate⟩ := hd.sessions hs (by simp)
      exact h.of_fate (congrArg Rest.events hd.rest) fun j => hfate j id

theorem eventsInv_collect (s : State) (evs : List (Ref × Bits)) : EventsInv (collect s evs) := by
  intro e he
  obtain ⟨⟨ref, bits⟩, -, rfl⟩ := List.mem_map.mp he
  refine ⟨fun k hk _ => ?_, fun k hk => Or.inl fun _ => ?_⟩
  · obtain rfl : ref = .control k := hk
    rfl
  · obtain rfl : ref = .relay k := hk
    rfl

theorem Reach.eventsInv (h : Reach A (fun l s => sparesPending l s = true) cfg l s) :
    EventsInv s := by
  refine h.induct (I := fun _ s => EventsInv s) ?_ ?_ ?_
  · simp [EventsInv, initState]
  · intro s evs _ _ _
    exact eventsInv_collect s evs
  · intro l s l' s' hs _ hc hi he
    exact eventsInv_step hs hc hi he

/-! ## The next event -/

/-- A control event is not handled for a slot without a session. -/
theorem dispatchControl_unused {k : Nat} (h : (s.tbl.core k).used = false) (bits : Bits) :
    dispatchControl k bits s = .ret s .dispatch := by
  simp [dispatchControl, h]

/-- Nor is a relay event, nor for a session that is not ready. -/
theorem dispatchRelay_idle {k : Nat}
    (h : ¬((s.tbl.core k).used = true ∧ (s.tbl.core k).stage = .ready)) (bits : Bits) :
    dispatchRelay k bits s = .ret s .dispatch := by
  simp only [dispatchRelay, bind_run, Worker.get_run, ret_bind, ite_run, Bool.and_eq_true,
    decide_eq_true_eq]
  rw [if_neg fun hc => h ⟨hc.1.2, hc.2⟩]
  rfl

/-- In every run in which no slot with a control event to come is taken for a new session, an
event for a session that has gone does nothing. -/
theorem stale_events_harmless (h : Reach A (fun l s => sparesPending l s = true) cfg l s) :
    StaleHarmless A s := by
  intro e rest k hev href hstale l' s' hstep
  have hp : Pending s e := h.eventsInv e (hev ▸ List.mem_cons_self)
  have hunused : e.Mine s k → (s.tbl.core k).used = false := fun hm =>
    Bool.eq_false_iff.mpr fun hu => hstale ⟨hu, hm hu⟩
  have hrun : step .dispatch s = .ret { s with events := rest } .dispatch := by
    show (dispatchNext s : Prog Sys.Ans State Loc) = _
    simp only [dispatchNext, bind_run, Worker.get_run, ret_bind, hev, Worker.modify_run]
    rcases href with href | href
    · simp only [dispatchEvent, href]
      exact dispatchControl_unused (s := { s with events := rest }) (hunused (hp.control k href)) _
    · simp only [dispatchEvent, href]
      refine dispatchRelay_idle (s := { s with events := rest }) ?_ _
      rintro ⟨hu, hr⟩
      rcases hp.relay k href with hm | hd
      · exact hstale ⟨hu, hm hu⟩
      · exact hd.stage hr
  cases hstep with
  | run ho =>
      rw [hrun] at ho
      cases ho
      exact ⟨rfl, rfl⟩

/-! ## Runs -/

/-- A hangup. -/
def hangup : Bits := { Bits.none with hup := true }

/-- The session of `clientA` is established; then one array holds these events, and the listener,
whose event is the first, has these datagrams.  Up to the next event. -/
def arrayMoves (events : List (Ref × Bits)) (batch : List ClientDatagram) (n : Nat) : List Move :=
  openMoves clientA ++ establishMoves ++ [.wake events, .run (receiving batch)] ++ steps n

/-- The relay and the control connection hang up together: the first event drops the session, the
second is for a session that has gone. -/
theorem stale_events_harmless_run :
    ∃ l s, Reach ok (fun l s => sparesPending l s = true) calmConfig l s ∧
      (s.events.map (·.ref) = [.control 0] ∧ (s.tbl.core 0).used = false) ∧
      StaleHarmless ok s := by
  obtain ⟨l, s, h, hr⟩ := exists_reach (B := okb) (E := sparesPending) (A := ok)
    (C := fun l s => sparesPending l s = true) (g := calmConfig) (fun _ _ _ h => h)
    (fun _ _ h => h) (arrayMoves [(.relay 0, hangup), (.control 0, hangup)] [] 0)
    (fun _ s => s.events.map (·.ref) = [.control 0] ∧ (s.tbl.core 0).used = false)
    (by decide +kernel)
  exact ⟨l, s, h, of_decide_eq_true hr, stale_events_harmless h⟩

/-- With room for one session: the listener's event brings a datagram of a second client, which
evicts the first client's session and takes its slot; the hangup collected for the first client's
control connection then drops the second client's session. -/
theorem stale_event_drops_new_session :
    ∃ l s l' s', Reach ok (fun _ _ => True) calmConfig l s ∧ Step ok (l, s) (l', s') ∧
      (l = .dispatch ∧ (∃ e, s.events = [e] ∧ e.ref = .control 0 ∧ ¬e.Fresh s 0) ∧
        (s.tbl.core 0).used = true ∧ (s.tbl.core 0).clientAddr = clientB ∧
        (s'.tbl.core 0).used = false) ∧ ¬StaleHarmless ok s := by
  obtain ⟨l, s, l', s', h, hstep, hr⟩ := exists_step (B := okb) (E := fun _ _ => true)
    (A := ok) (C := fun _ _ => True) (g := calmConfig) (fun _ _ _ h => h)
    (fun _ _ _ => trivial)
    (arrayMoves [(.listener4, .input), (.control 0, hangup)] [datagramFrom clientB] 4)
    (.run calm)
    (fun c c' => c.1.isDispatch && c.2.events.map (fun e => (e.ref, e.uid)) = [(.control 0, 1)] &&
      (c.2.tbl.core 0).uid = 2 && (c.2.tbl.core 0).used && (c.2.tbl.core 0).clientAddr = clientB &&
      !(c'.2.tbl.core 0).used) (by decide +kernel)
  simp only [Bool.and_eq_true, decide_eq_true_eq, Bool.not_eq_true'] at hr
  obtain ⟨⟨⟨⟨⟨hl, hev⟩, huid⟩, hu⟩, ha⟩, hd⟩ := hr
  obtain rfl := Loc.eq_of_isDispatch hl
  obtain ⟨e, he, hpair⟩ := List.map_eq_singleton_iff.mp hev
  obtain ⟨href, hold⟩ := Prod.mk.inj hpair
  have hstale : ¬e.Fresh s 0 := by
    intro hf
    have := hf.2
    omega
  refine ⟨.dispatch, s, l', s', h, hstep, ⟨rfl, ⟨e, he, href, hstale⟩, hu, ha, hd⟩,
    fun hsafe => ?_⟩
  obtain ⟨-, hs'⟩ := hsafe e [] 0 he (Or.inl href) hstale l' s' hstep
  rw [hs'] at hd
  exact Bool.false_ne_true (hd.symm.trans hu)

end Bpf2Socks.Udp
