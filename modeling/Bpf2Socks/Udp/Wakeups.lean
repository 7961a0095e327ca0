/-
# Bpf2Socks.Udp.Wakeups — no worker sleeps on a budget that has room.

A worker that finds no budget pauses relays and blocks.  Before it does it sets its bit in
`waiting_workers` and looks at the budget again; whoever releases lowers the budget first and looks at
the bits afterwards.  So one of the two sees the other.  The releasing worker takes all bits at once
and writes to the eventfds one by one, which leaves a state in which a bit is gone and the write has
not come yet: `Brings` says that it will.
-/
import Bpf2Socks.Udp.Budget

namespace Bpf2Socks.Udp.Budget

open Function

variable {cap slot high : Nat} {s t : State} {v w : WorkerId}

/-! ## What is on its way -/

/-- The call is going to write to the eventfd of worker `w`, unless it has none. -/
def Call.Brings (c : Call) (w : WorkerId) : Prop :=
  match c with
  | .waking waiters i => waiters w = true ∧ i ≤ w.val
  | .writing waiters i => i = w ∨ (waiters w = true ∧ i.val < w.val)
  | _ => False

/-- Something was released, and the call has yet to take the bits of `waiting_workers`. -/
def Call.Scans : Call → Prop
  | .wakeLoad | .wakeExchange => True
  | _ => False

/-- The eventfd of worker `w` is readable or about to be. -/
def Noticed (s : State) (w : WorkerId) : Prop :=
  0 < s.event w ∨ ∃ v, (s.worker v).call.Brings w

/-- A release from now on wakes worker `w`. -/
def Covered (s : State) (w : WorkerId) : Prop := Noticed s w ∨ s.waiting w = true

/-- Worker `w` may block: it is about to be woken, or there is no room and a release will wake it. -/
def Watched (cap slot : Nat) (s : State) (w : WorkerId) : Prop :=
  Noticed s w ∨ (s.waiting w = true ∧
    (¬roomy cap slot s.used ∨ ∃ v, (s.worker v).call.Scans))

theorem Watched.of_covered (h : Covered s w) (hfull : ¬roomy cap slot s.used) :
    Watched cap slot s w := h.imp id fun hw => ⟨hw, .inl hfull⟩

theorem roomy_mono {a b : Nat} (h : a ≤ b) (hb : roomy cap slot b) : roomy cap slot a :=
  ⟨hb.1, Nat.le_trans h hb.2⟩

/-- What a step of a call of worker `v` does to wake-ups: none is lost, and room is made only by who
looks for waiting workers next. -/
structure Moved (s : State) (v : WorkerId) (t : State) : Prop where
  others : ∀ u, u ≠ v → t.worker u = s.worker u
  turn : (t.worker v).turn = (s.worker v).turn
  dns : (t.worker v).dns = (s.worker v).dns
  sessions : (t.worker v).sessions = (s.worker v).sessions
  wakeFd : t.wakeFd = s.wakeFd
  event : ∀ u, s.event u ≤ t.event u
  brings : ∀ u, s.wakeFd u = true → (s.worker v).call.Brings u →
    0 < t.event u ∨ (t.worker v).call.Brings u
  waiting : ∀ u, s.waiting u = true → t.waiting u = true ∨ (t.worker v).call.Brings u
  used : s.used ≤ t.used ∨ (t.worker v).call.Scans
  scans : (s.worker v).call.Scans → (t.worker v).call.Scans ∨
    ∀ u, s.waiting u = true → (t.worker v).call.Brings u

/-- A call that has nothing to do with wake-ups. -/
def Call.Silent (c : Call) : Prop := (∀ u, ¬c.Brings u) ∧ ¬c.Scans

theorem silent_of_fresh {c : Call} (h : c.Fresh) : c.Silent := by
  cases c <;> first | exact ⟨fun _ => id, id⟩ | exact absurd h id

theorem silent_peakLoad (n : Nat) : (Call.peakLoad n).Silent := ⟨fun _ => id, id⟩

theorem silent_peak (n p : Nat) : (Call.peak n p).Silent := ⟨fun _ => id, id⟩

/-- A silent call goes on, and takes no room away without looking for those who wait. -/
theorem moved_silent {l : Local} {n p : Nat} (hs : (s.worker v).call.Silent)
    (hl : l.turn = (s.worker v).turn ∧ l.dns = (s.worker v).dns ∧ l.sessions = (s.worker v).sessions)
    (hu : s.used ≤ n ∨ l.call.Scans) :
    Moved s v { s.setWorker v l with used := n, peak := p } := by
  have hself : (s.setWorker v l).worker v = l := setWorker_self s l
  refine ⟨fun u hu => setWorker_of_ne s l hu, ?_, ?_, ?_, rfl, fun _ => Nat.le_refl _,
    fun u _ hb => absurd hb (hs.1 u), fun _ => .inl, ?_, fun h => absurd h hs.2⟩
  · exact (congrArg Local.turn hself).trans hl.1
  · exact (congrArg Local.dns hself).trans hl.2.1
  · exact (congrArg Local.sessions hself).trans hl.2.2
  · refine hu.imp id ?_
    intro hc
    show ((s.setWorker v l).worker v).call.Scans
    rwa [hself]

/-- A scanning or waking call goes on to call `c`. -/
theorem moved_wake {c : Call} {waiting : WorkerId → Bool} {event : WorkerId → Nat}
    (hevent : ∀ u, s.event u ≤ event u)
    (hbrings : ∀ u, s.wakeFd u = true → (s.worker v).call.Brings u → 0 < event u ∨ c.Brings u)
    (hwaiting : ∀ u, s.waiting u = true → waiting u = true ∨ c.Brings u)
    (hscans : (s.worker v).call.Scans → c.Scans ∨ ∀ u, s.waiting u = true → c.Brings u) :
    Moved s v { s.setCall v c with waiting := waiting, event := event } := by
  have hself : State.worker { s.setCall v c with waiting := waiting, event := event } v =
      { s.worker v with call := c } := setCall_self s c
  refine ⟨fun u hu => setCall_of_ne s c hu, by rw [hself], by rw [hself], by rw [hself], rfl, hevent,
    ?_, ?_, .inl (Nat.le_refl _), ?_⟩
  · intro u hu hb
    rw [hself]
    exact hbrings u hu hb
  · intro u hu
    rw [hself]
    exact hwaiting u hu
  · intro h
    rw [hself]
    exact hscans h

/-- The loop over the bits takes one step, from `i`. -/
theorem moved_waking {waiters : WorkerId → Bool} {i : Nat} {c : Call}
    (hcall : (s.worker v).call = .waking waiters i)
    (hc : ∀ u, s.wakeFd u = true → waiters u = true → i ≤ u.val → c.Brings u) :
    Moved s v (s.setCall v c) := by
  refine moved_wake (fun _ => Nat.le_refl _) ?_ (fun _ => .inl) ?_
  · intro u hu hb
    rw [hcall] at hb
    exact .inr (hc u hu hb.1 hb.2)
  · intro h
    rw [hcall] at h
    exact absurd h id

/-- **A call** loses no wake-up. -/
theorem moved_advance {lucky : Bool} (hst : advance cap s v lucky = some t) : Moved s v t := by
  have hquiet : ∀ {c c' : Call}, (s.worker v).call = c → c.Silent → (p : Nat) →
      Moved s v { s.setCall v c' with peak := p } := by
    intro c c' hcall hc p
    exact moved_silent (hcall ▸ hc) ⟨rfl, rfl, rfl⟩ (.inl (Nat.le_refl _))
  unfold advance at hst
  split at hst
  · cases hst
  · rename_i bytes used hcall
    have hs : (Call.reserve bytes used).Silent := silent_of_fresh trivial
    split at hst
    · cases hst
      exact hquiet hcall hs s.peak
    · split at hst
      · rename_i hl
        cases hst
        refine moved_silent (hcall ▸ hs) ⟨rfl, rfl, rfl⟩ (.inl ?_)
        omega
      · cases hst
        exact hquiet hcall hs s.peak
  · rename_i used hcall
    cases hst
    exact hquiet hcall (silent_peakLoad used) s.peak
  · rename_i used peak hcall
    split at hst
    · split at hst
      · cases hst
        exact hquiet hcall (silent_peak used peak) used
      · cases hst
        exact hquiet hcall (silent_peak used peak) s.peak
    · cases hst
      exact hquiet hcall (silent_peak used peak) s.peak
  · rename_i bytes used hcall
    have hs : (Call.release bytes used).Silent := silent_of_fresh trivial
    split at hst
    · cases hst
      exact hquiet hcall hs s.peak
    · split at hst
      · cases hst
        exact moved_silent (hcall ▸ hs) ⟨rfl, rfl, rfl⟩ (.inr trivial)
      · cases hst
        exact hquiet hcall hs s.peak
  · rename_i hcall
    have hnone : ∀ u, ¬(s.worker v).call.Brings u := fun u hb => by rw [hcall] at hb; exact hb
    split at hst
    · -- nobody waits
      rename_i hall
      cases hst
      refine moved_wake (fun _ => Nat.le_refl _) (fun u _ hb => absurd hb (hnone u)) (fun _ => .inl) ?_
      intro _
      refine .inr fun u hu => ?_
      rw [hall u] at hu
      cases hu
    · cases hst
      exact moved_wake (fun _ => Nat.le_refl _) (fun u _ hb => absurd hb (hnone u)) (fun _ => .inl)
        fun _ => .inl trivial
  · rename_i hcall
    have hnone : ∀ u, ¬(s.worker v).call.Brings u := fun u hb => by rw [hcall] at hb; exact hb
    have htaken : ∀ u, s.waiting u = true → (Call.waking s.waiting 0).Brings u := fun u hu =>
      ⟨hu, Nat.zero_le _⟩
    cases hst
    exact moved_wake (fun _ => Nat.le_refl _) (fun u _ hb => absurd hb (hnone u))
      (fun u hu => .inr (htaken u hu)) fun _ => .inr htaken
  · rename_i waiters i hcall
    split at hst
    · rename_i hall
      cases hst
      refine moved_waking hcall ?_
      intro u _ hu _
      rw [hall u] at hu
      cases hu
    · split at hst
      · rename_i hi
        dsimp only at hst
        -- the bits from `i` on, without that of `i`
        have hrest : ∀ u : WorkerId, u.val ≠ i → waiters u = true →
            update waiters ⟨i, hi⟩ false u = true := by
          intro u hne hu
          rwa [update_of_ne (fun h => hne (congrArg Fin.val h))]
        split at hst
        · rename_i hclear
          cases hst
          refine moved_waking hcall ?_
          intro u _ hu hle
          refine ⟨hu, ?_⟩
          have hne : u.val ≠ i := by
            rintro rfl
            rw [hclear] at hu
            cases hu
          omega
        · split at hst
          · cases hst
            refine moved_waking hcall ?_
            intro u _ hu hle
            by_cases hne : u.val = i
            · exact .inl (Fin.ext hne.symm)
            · refine .inr ⟨hrest u hne hu, ?_⟩
              show i < u.val
              omega
          · rename_i hfd
            cases hst
            refine moved_waking hcall ?_
            intro u hu' hu hle
            have hne : u.val ≠ i := by
              rintro rfl
              exact hfd hu'
            exact ⟨hrest u hne hu, by omega⟩
      · rename_i hi
        cases hst
        refine moved_waking hcall ?_
        intro u _ _ hle
        exact absurd (Nat.lt_of_le_of_lt hle u.isLt) hi
  · rename_i waiters i hcall
    cases hst
    refine moved_wake ?_ ?_ (fun _ => .inl) ?_
    · intro u
      rcases eq_or_ne u i with rfl | hne
      · rw [update_self]
        exact Nat.le_succ _
      · rw [update_of_ne hne]
    · intro u _ hb
      rw [hcall] at hb
      rcases hb with rfl | ⟨hu, hlt⟩
      · rw [update_self]
        exact .inl (Nat.succ_pos _)
      · exact .inr ⟨hu, hlt⟩
    · intro h
      rw [hcall] at h
      exact absurd h id

/-! ## No wake-up is lost -/

/-- What protects worker `w` still does. -/
structure Carries (cap slot : Nat) (w : WorkerId) (s t : State) : Prop where
  covered : Covered s w → Covered t w
  watched : Watched cap slot s w → Watched cap slot t w

/-- A wake-up that is on its way, or has come, is not lost in a call. -/
theorem Moved.noticed (h : Moved s v t) (hfd : s.wakeFd w = true) (hn : Noticed s w) :
    Noticed t w := by
  rcases hn with he | ⟨u, hb⟩
  · exact .inl (Nat.lt_of_lt_of_le he (h.event w))
  · rcases eq_or_ne u v with rfl | hne
    · exact (h.brings w hfd hb).imp id fun hb => ⟨u, hb⟩
    · exact .inr ⟨u, by rw [h.others u hne]; exact hb⟩

/-- Nor between the calls, unless the eventfd is read. -/
theorem Plain.noticed (h : Plain s v t) (hevent : t.event w = s.event w) (hn : Noticed s w) :
    Noticed t w := by
  rcases hn with he | ⟨u, hb⟩
  · exact .inl (hevent ▸ he)
  · have hne : u ≠ v := by
      rintro rfl
      rw [h.before] at hb
      exact hb
    exact .inr ⟨u, by rw [h.others u hne]; exact hb⟩

theorem carries_advance (h : Moved s v t) (hfd : s.wakeFd w = true) : Carries cap slot w s t := by
  have hbrought : (t.worker v).call.Brings w → Noticed t w := fun hb => .inr ⟨v, hb⟩
  refine ⟨?_, ?_⟩
  · rintro (hn | hw)
    · exact .inl (h.noticed hfd hn)
    · exact (h.waiting w hw).symm.imp hbrought id
  · rintro (hn | ⟨hw, hfull⟩)
    · exact .inl (h.noticed hfd hn)
    · rcases h.waiting w hw with hw' | hb
      · -- the bit is still there
        rcases hfull with hfull | ⟨u, hu⟩
        · refine .inr ⟨hw', ?_⟩
          exact h.used.imp (fun hle hr => hfull (roomy_mono hle hr)) fun hs => ⟨v, hs⟩
        · rcases eq_or_ne u v with rfl | hne
          · rcases h.scans hu with hs | hall
            · exact .inr ⟨hw', .inr ⟨u, hs⟩⟩
            · exact .inl (hbrought (hall w hw))
          · exact .inr ⟨hw', .inr ⟨u, by rw [h.others u hne]; exact hu⟩⟩
      · exact .inl (hbrought hb)

theorem carries_plain (h : Plain s v t) (hevent : t.event w = s.event w) :
    Carries cap slot w s t := by
  refine ⟨fun hc => hc.imp (h.noticed hevent) (h.waiting w), ?_⟩
  rintro (hn | ⟨hw, hfull⟩)
  · exact .inl (h.noticed hevent hn)
  · refine .inr ⟨h.waiting w hw, ?_⟩
    rw [h.used]
    refine hfull.imp id ?_
    rintro ⟨u, hu⟩
    have hne : u ≠ v := by
      rintro rfl
      rw [h.before] at hu
      exact hu
    exact ⟨u, by rw [h.others u hne]; exact hu⟩

/-- A step goes on with a call, or comes between two. -/
theorem moved_or_plain {a : Action} (hst : step cap slot s v a = some t) :
    Moved s v t ∨ Plain s v t := by
  rcases em (∃ lucky, a = .advance lucky) with ⟨lucky, rfl⟩ | ha
  · have hadv : advance cap s v lucky = some t := by simpa [step] using hst
    exact .inl (moved_advance hadv)
  · exact .inr (plain_step (fun lucky he => ha ⟨lucky, he⟩) hst)

/-- Whether a worker's eventfd is published. -/
def Turn.live : Turn → Bool
  | .off | .closing => false
  | _ => true

/-- What protects worker `w` at each point of its turn. -/
structure Safe (cap slot : Nat) (s : State) (w : WorkerId) : Prop where
  fd : (s.worker w).turn.live = true → s.wakeFd w = true
  recheck : (s.worker w).turn = .recheckDns → Covered s w
  resuming : (s.worker w).turn = .recheckSessions →
    Covered s w ∧ ((s.worker w).dns = true → Watched cap slot s w)
  blocked : (s.worker w).turn = .waiting → (s.worker w).paused = true → Watched cap slot s w

/-- The worker stays where it is. -/
theorem Safe.carry (h : Safe cap slot s w) (hc : Carries cap slot w s t)
    (hfd : (s.worker w).turn.live = true → t.wakeFd w = s.wakeFd w)
    (hturn : (t.worker w).turn = (s.worker w).turn) (hdns : (t.worker w).dns = (s.worker w).dns)
    (hsessions : (t.worker w).sessions = (s.worker w).sessions) : Safe cap slot t w := by
  refine ⟨?_, ?_, ?_, ?_⟩
  · intro hl
    rw [hturn] at hl
    rw [hfd hl]
    exact h.fd hl
  · intro ht
    exact hc.covered (h.recheck (hturn ▸ ht))
  · intro ht
    obtain ⟨hcov, hwat⟩ := h.resuming (hturn ▸ ht)
    exact ⟨hc.covered hcov, fun hd => hc.watched (hwat (hdns ▸ hd))⟩
  · intro ht hp
    refine hc.watched (h.blocked (hturn ▸ ht) ?_)
    rw [Local.paused, hdns, hsessions] at hp
    exact hp

/-- A turn in which nothing is asked of the others. -/
theorem Safe.of_busy (hfd : (t.worker w).turn.live = true → t.wakeFd w = true)
    (hd : (t.worker w).turn ≠ .recheckDns) (hs : (t.worker w).turn ≠ .recheckSessions)
    (hw : (t.worker w).turn = .waiting → (t.worker w).paused = false) : Safe cap slot t w := by
  refine ⟨hfd, fun h => absurd h hd, fun h => absurd h hs, ?_⟩
  intro h hp
  rw [hw h] at hp
  cases hp

/-- The paused relays are let go when there is room, and only then. -/
theorem kept_of_let_go {b : Bool} (h : (b && !decide (roomy cap slot s.used)) = true) :
    b = true ∧ ¬roomy cap slot s.used := by
  simpa using h

/-- **The turns** of the worker itself: it registers, and looks again before it blocks. -/
theorem Safe.nextTurn (h : Safe cap slot s w) (hcall : (s.worker w).call = .none)
    (hst : Budget.nextTurn cap slot s w = some t) : Safe cap slot t w := by
  have hplain := plain_nextTurn hcall hst
  unfold Budget.nextTurn at hst
  dsimp only at hst
  split at hst
  · cases hst
    have hself : State.worker { s.setWorker w { s.worker w with
          turn := .waiting, dns := false, sessions := false } with
        wakeFd := update s.wakeFd w true, event := update s.event w 0 } w =
        { s.worker w with turn := .waiting, dns := false, sessions := false } := setWorker_self s _
    refine Safe.of_busy (fun _ => update_self _ _ _) ?_ ?_ fun _ => ?_ <;> rw [hself]
    · simp
    · simp
    · rfl
  · rename_i hturn
    cases hst
    refine Safe.of_busy (fun _ => h.fd (by rw [hturn]; rfl)) ?_ ?_ ?_ <;> simp
  · rename_i hturn
    cases hst
    refine Safe.of_busy (fun _ => h.fd (by rw [hturn]; rfl)) ?_ ?_ ?_ <;> simp
  · rename_i hturn
    cases hst
    refine Safe.of_busy (fun _ => h.fd (by rw [hturn]; rfl)) ?_ ?_ ?_ <;> simp
  · rename_i hturn
    cases hst
    refine Safe.of_busy (fun _ => h.fd (by rw [hturn]; rfl)) ?_ ?_ ?_
    · rw [setTurn_self]
      dsimp only
      split <;> simp
    · rw [setTurn_self]
      dsimp only
      split <;> simp
    · -- it blocks at once only when nothing is paused
      rw [setTurn_self]
      dsimp only
      intro hw
      split at hw
      · cases hw
      · rename_i hp
        exact Bool.eq_false_iff.mpr hp
  · rename_i hturn
    cases hst
    have hself : State.worker { s.setTurn w .recheckDns with waiting := update s.waiting w true } w =
        { s.worker w with turn := .recheckDns } := setTurn_self s _
    refine ⟨fun _ => h.fd (by rw [hturn]; rfl), fun _ => .inr (update_self _ _ _), ?_, ?_⟩
    · rw [hself]
      simp
    · rw [hself]
      simp
  · rename_i hturn
    cases hst
    have hc : Carries cap slot w s _ := carries_plain hplain rfl
    refine ⟨fun _ => h.fd (by rw [hturn]; rfl), ?_, ?_, ?_⟩
    · rw [setWorker_self]
      simp
    · intro _
      have hcov := h.recheck hturn
      refine ⟨hc.covered hcov, ?_⟩
      intro hd
      rw [setWorker_self] at hd
      exact hc.watched (.of_covered hcov (kept_of_let_go hd).2)
    · rw [setWorker_self]
      simp
  · rename_i hturn
    cases hst
    have hc : Carries cap slot w s _ := carries_plain hplain rfl
    obtain ⟨hcov, hdns⟩ := h.resuming hturn
    refine ⟨fun _ => h.fd (by rw [hturn]; rfl), ?_, ?_, ?_⟩
    · rw [setWorker_self]
      simp
    · rw [setWorker_self]
      simp
    · intro _ hp
      rw [setWorker_self, Local.paused, Bool.or_eq_true] at hp
      rcases hp with hd | hs
      · exact hc.watched (hdns hd)
      · exact hc.watched (.of_covered hcov (kept_of_let_go hs).2)
  · rename_i hturn
    cases hst
    refine Safe.of_busy (fun _ => h.fd (by rw [hturn]; rfl)) ?_ ?_ ?_ <;> simp
  · cases hst

/-- **A step of another worker.** -/
theorem Safe.other {a : Action} (h : Safe cap slot s w) (hne : w ≠ v)
    (hst : step cap slot s v a = some t) : Safe cap slot t w := by
  rcases moved_or_plain hst with hm | hp
  · have hw := hm.others w hne
    by_cases hl : (s.worker w).turn.live = true
    · exact h.carry (carries_advance hm (h.fd hl)) (fun _ => congrFun hm.wakeFd w)
        (by rw [hw]) (by rw [hw]) (by rw [hw])
    · refine Safe.of_busy ?_ ?_ ?_ ?_ <;> rw [hw]
      · exact fun h => absurd h hl
      · exact fun h => hl (by rw [h]; rfl)
      · exact fun h => hl (by rw [h]; rfl)
      · exact fun h => absurd (by rw [h]; rfl) hl
  · have hw := hp.others w hne
    exact h.carry (carries_plain hp (hp.event w hne)) (fun _ => hp.wakeFd w hne)
      (by rw [hw]) (by rw [hw]) (by rw [hw])

/-- A worker that handles events, or is gone, asks nothing of the others. -/
theorem Safe.of_idle (hfd : (t.worker w).turn.live = true → t.wakeFd w = true)
    (hidle : (t.worker w).turn.busy = true ∨ (t.worker w).turn = .closing) : Safe cap slot t w := by
  refine Safe.of_busy hfd ?_ ?_ ?_
  all_goals
    intro h
    rw [h] at hidle
    rcases hidle with hb | hc
    · cases hb
    · cases hc

/-- **A step of the worker itself.** -/
theorem Safe.self {a : Action} (h : Safe cap slot s w) (hst : step cap slot s w a = some t) :
    Safe cap slot t w := by
  unfold step at hst
  split at hst
  · have hm : Moved s w t := moved_advance hst
    -- a worker that is not live is at none of the points that `Safe` speaks of
    by_cases hl : (s.worker w).turn.live = true
    · exact h.carry (carries_advance hm (h.fd hl)) (fun _ => congrFun hm.wakeFd w) hm.turn hm.dns
        hm.sessions
    · refine Safe.of_busy ?_ ?_ ?_ ?_ <;> rw [hm.turn]
      · exact fun h => absurd h hl
      · exact fun h => hl (by rw [h]; rfl)
      · exact fun h => hl (by rw [h]; rfl)
      · exact fun h => absurd (by rw [h]; rfl) hl
  · split at hst
    · rename_i hb
      cases hst
      exact Safe.of_idle (fun hl => h.fd (by simpa using hl)) (.inl (by simpa using hb))
    · cases hst
  · split at hst
    · rename_i hb
      cases hst
      exact Safe.of_idle (fun hl => h.fd (by simpa using hl)) (by simpa using hb.1)
    · cases hst
  · split at hst
    · rename_i hb
      cases hst
      exact Safe.of_idle (fun hl => h.fd (by simpa using hl)) (.inl (by simpa using hb))
    · cases hst
  · split at hst
    · rename_i hb
      cases hst
      exact Safe.of_idle (fun hl => h.fd hl) (.inl (by rw [hb]; rfl))
    · cases hst
  · rename_i hcall
    exact h.nextTurn hcall hst
  · split at hst
    · cases hst
      have hself : State.worker { s.setTurn w .closing with wakeFd := update s.wakeFd w false } w =
          { s.worker w with turn := .closing } := setTurn_self s _
      refine Safe.of_idle ?_ (.inr (by rw [hself]))
      rw [hself]
      intro hl
      cases hl
    · cases hst
  · cases hst

/-- Every worker is protected in every run. -/
theorem Reach.safe (h : Reach cap slot s high) (w : WorkerId) : Safe cap slot s w := by
  induction h with
  | init => exact ⟨by simp [initState, Turn.live], by simp [initState], by simp [initState],
      by simp [initState]⟩
  | step v a _ hst ih =>
      rcases eq_or_ne w v with rfl | hne
      · exact ih.self hst
      · exact ih.other hne hst

/-! ## The wake-up comes -/

/-- A turn leaves the call alone. -/
theorem nextTurn_call (hst : nextTurn cap slot s w = some t) :
    (t.worker w).call = (s.worker w).call := by
  have hself : ∀ {l : Local}, l.call = (s.worker w).call →
      (update s.worker w l w).call = (s.worker w).call := fun hl => by rw [update_self, hl]
  unfold nextTurn at hst
  dsimp only at hst
  split at hst <;> cases hst
  all_goals exact hself rfl

/-- A worker calls only while it handles events, and after its loop. -/
theorem Reach.idle (h : Reach cap slot s high) (w : WorkerId) (hb : (s.worker w).turn.busy = false)
    (hc : (s.worker w).turn ≠ .closing) : (s.worker w).call = .none := by
  induction h with
  | init => rfl
  | @step s t _ v a _ hst ih =>
      rcases eq_or_ne w v with rfl | hne
      · unfold Budget.step at hst
        split at hst
        · -- a call that goes on was there before
          have hm : Moved s w t := moved_advance hst
          rw [hm.turn] at hb hc
          simp [advance, ih hb hc] at hst
        · split at hst
          · rename_i hbusy
            cases hst
            rw [setCall_self] at hb
            simp [hb] at hbusy
          · cases hst
        · split at hst
          · rename_i hbusy
            cases hst
            rw [setCall_self] at hb hc
            simp [hb, hc] at hbusy
          · cases hst
        · rename_i hcall
          split at hst
          · cases hst
            rw [setWorker_self]
            exact hcall
          · cases hst
        · rename_i hcall
          split at hst
          · cases hst
            exact hcall
          · cases hst
        · rename_i hcall
          exact (nextTurn_call hst).trans hcall
        · rename_i hcall
          split at hst
          · cases hst
            exact (congrArg Local.call (setTurn_self s .closing)).trans hcall
          · cases hst
        · cases hst
      · rcases moved_or_plain hst with hm | hp
        · rw [hm.others w hne] at hb hc ⊢
          exact ih hb hc
        · rw [hp.others w hne] at hb hc ⊢
          exact ih hb hc

theorem Call.Brings.call_ne {c : Call} (h : c.Brings w) : c ≠ .none := by
  rintro rfl
  exact h

theorem Call.Scans.call_ne {c : Call} (h : c.Scans) : c ≠ .none := by
  rintro rfl
  exact h

/-- How many of the operations of a run are those of worker `v`. -/
def own (v : WorkerId) (l : List (WorkerId × Action)) : Nat := l.countP fun x => x.1 = v

/-- Whatever the other workers do and in whatever order, `P` holds once worker `v` has made `n`
operations; but worker `w` stays where it is. -/
def Within (cap slot n : Nat) (v w : WorkerId) (P : State → Prop) (s : State) : Prop :=
  ∀ l t, run cap slot l s = some t → (∀ x ∈ l, x.1 ≠ w) → n ≤ own v l → P t

/-- The worker is in a call and can go on. -/
def Goes (cap : Nat) (s : State) (v : WorkerId) : Prop := ∀ lucky, (advance cap s v lucky).isSome

theorem goes_of_call (h : (s.worker v).call ≠ .none) : Goes cap s v := by
  intro lucky
  unfold advance
  cases hcall : (s.worker v).call with
  | none => exact absurd hcall h
  | peakLoad _ => rfl
  | wakeExchange => rfl
  | writing _ _ => rfl
  | _ =>
      dsimp only
      split_ifs <;> rfl

/-- While a worker is in a call its steps go on with it. -/
theorem advance_of_step {a : Action} (hst : step cap slot s v a = some t)
    (h : (s.worker v).call ≠ .none) : ∃ lucky, advance cap s v lucky = some t := by
  rcases em (∃ lucky, a = .advance lucky) with ⟨lucky, rfl⟩ | ha
  · exact ⟨lucky, by simpa [step] using hst⟩
  · exact absurd (plain_step (fun lucky he => ha ⟨lucky, he⟩) hst).before h

/-- A step of a worker other than `w`. -/
theorem noticed_step {a : Action} (hst : step cap slot s v a = some t) (hne : v ≠ w)
    (hfd : s.wakeFd w = true) (hn : Noticed s w) : Noticed t w := by
  rcases moved_or_plain hst with hm | hp
  · exact hm.noticed hfd hn
  · exact hp.noticed (hp.event w hne.symm) hn

/-- Only worker `w` reads its eventfd and takes it back. -/
theorem event_step {a : Action} (hst : step cap slot s v a = some t) (hne : v ≠ w) :
    s.event w ≤ t.event w ∧ t.wakeFd w = s.wakeFd w := by
  rcases moved_or_plain hst with hm | hp
  · exact ⟨hm.event w, congrFun hm.wakeFd w⟩
  · exact ⟨Nat.le_of_eq (hp.event w hne.symm).symm, hp.wakeFd w hne.symm⟩

/-- What is on its way to worker `w` stays so, or has come. -/
theorem noticed_run {l : List (WorkerId × Action)} (hst : run cap slot l s = some t)
    (hw : ∀ x ∈ l, x.1 ≠ w) (hfd : s.wakeFd w = true) (hn : Noticed s w) : Noticed t w := by
  induction l generalizing s with
  | nil =>
      cases hst
      exact hn
  | cons x rest ih =>
      obtain ⟨s₁, hs₁, hrest⟩ := Option.bind_eq_some_iff.mp hst
      have hne := hw x List.mem_cons_self
      exact ih hrest (fun y hy => hw y (List.mem_cons_of_mem x hy))
        ((event_step hs₁ hne).2.trans hfd) (noticed_step hs₁ hne hfd hn)

/-- An eventfd that is readable stays so. -/
theorem event_run {l : List (WorkerId × Action)} (hst : run cap slot l s = some t)
    (hw : ∀ x ∈ l, x.1 ≠ w) : s.event w ≤ t.event w := by
  induction l generalizing s with
  | nil =>
      cases hst
      exact Nat.le_refl _
  | cons x rest ih =>
      obtain ⟨s₁, hs₁, hrest⟩ := Option.bind_eq_some_iff.mp hst
      exact Nat.le_trans (event_step hs₁ (hw x List.mem_cons_self)).1
        (ih hrest fun y hy => hw y (List.mem_cons_of_mem x hy))

theorem own_cons_self (v : WorkerId) (a : Action) (rest : List (WorkerId × Action)) :
    own v ((v, a) :: rest) = own v rest + 1 := List.countP_cons_of_pos (by simp)

theorem own_cons_of_ne {x : WorkerId × Action} (h : x.1 ≠ v) (rest : List (WorkerId × Action)) :
    own v (x :: rest) = own v rest := List.countP_cons_of_neg (by simpa using h)

/-- How many operations are left of the loop over the bits. -/
def Call.left : Call → Nat
  | .waking _ i => 2 * (maxWorkerCount - i)
  | .writing _ i => 2 * (maxWorkerCount - i) - 1
  | _ => 0

theorem Call.left_le (c : Call) : c.left ≤ 2 * maxWorkerCount := by
  cases c <;> simp only [Call.left] <;> omega

/-- The loop over the bits comes closer to its end. -/
theorem left_lt_of_brings {lucky : Bool} (hst : advance cap s v lucky = some t)
    (h : (s.worker v).call.Brings w) :
    (t.worker v).call.left < (s.worker v).call.left ∨ ¬(t.worker v).call.Brings w := by
  cases hcall : (s.worker v).call with
  | waking waiters i =>
      rw [hcall] at h
      obtain ⟨hw, hle⟩ := h
      have hall : ¬∀ j, waiters j = false := fun hall => by simp [hall w] at hw
      have hi : i < maxWorkerCount := Nat.lt_of_le_of_lt hle w.isLt
      simp only [advance, hcall, if_neg hall, dif_pos hi] at hst
      split at hst
      · cases hst
        rw [setCall_self]
        refine .inl ?_
        show 2 * (maxWorkerCount - (i + 1)) < 2 * (maxWorkerCount - i)
        omega
      · split at hst
        · cases hst
          rw [setCall_self]
          refine .inl ?_
          show 2 * (maxWorkerCount - i) - 1 < 2 * (maxWorkerCount - i)
          omega
        · cases hst
          rw [setCall_self]
          refine .inl ?_
          show 2 * (maxWorkerCount - (i + 1)) < 2 * (maxWorkerCount - i)
          omega
  | writing waiters i =>
      simp only [advance, hcall] at hst
      cases hst
      refine .inl ?_
      show ((s.setCall v _).worker v).call.left < _
      rw [setCall_self]
      have := i.isLt
      show 2 * (maxWorkerCount - (i.val + 1)) < 2 * (maxWorkerCount - i.val) - 1
      omega
  | _ => rw [hcall] at h; exact absurd h id

/-- **A wake-up that is on its way** comes with the operations of the worker that brings it. -/
theorem brought (hfd : s.wakeFd w = true) (h : (s.worker v).call.Brings w) :
    Within cap slot ((s.worker v).call.left + 1) v w (fun t => 0 < t.event w) s := by
  intro l
  induction l generalizing s with
  | nil =>
      intro t _ _ hn
      exact absurd hn (Nat.not_succ_le_zero _)
  | cons x rest ih =>
      obtain ⟨u, a⟩ := x
      intro t hst hw hn
      obtain ⟨s₁, hs₁, hrest⟩ := Option.bind_eq_some_iff.mp hst
      have hw' : ∀ y ∈ rest, y.1 ≠ w := fun y hy => hw y (List.mem_cons_of_mem _ hy)
      have hfd₁ := (event_step hs₁ (hw _ List.mem_cons_self)).2.trans hfd
      rcases eq_or_ne u v with rfl | hne
      · -- its own operation: the bit of `w` is reached, or the loop is closer to it
        rw [own_cons_self] at hn
        obtain ⟨lucky, hadv⟩ := advance_of_step hs₁ h.call_ne
        have hm : Moved s u s₁ := moved_advance hadv
        rcases hm.brings w hfd h with he | hb
        · exact Nat.lt_of_lt_of_le he (event_run hrest hw')
        · have hlt := (left_lt_of_brings hadv h).resolve_right fun hno => hno hb
          exact ih hfd₁ hb t hrest hw' (by omega)
      · -- another worker's
        have hsame : s₁.worker v = s.worker v := by
          rcases moved_or_plain hs₁ with hm | hp
          · exact hm.others v hne.symm
          · exact hp.others v hne.symm
        rw [own_cons_of_ne hne, ← hsame] at hn
        exact ih hfd₁ (hsame.symm ▸ h) t hrest hw' hn

/-- How many operations are left until the bits are taken. -/
def Call.ahead : Call → Nat
  | .wakeLoad => 2
  | .wakeExchange => 1
  | _ => 0

/-- Whoever looks for waiting workers takes the bits, or has come closer to it. -/
theorem scans_advance {lucky : Bool} (hst : advance cap s v lucky = some t)
    (hw : s.waiting w = true) (h : (s.worker v).call.Scans) : (t.worker v).call.Brings w ∨
      (t.worker v).call.Scans ∧ (t.worker v).call.ahead < (s.worker v).call.ahead := by
  cases hcall : (s.worker v).call with
  | wakeLoad =>
      have hall : ¬∀ j, s.waiting j = false := fun hall => by simp [hall w] at hw
      simp only [advance, hcall, if_neg hall] at hst
      cases hst
      rw [setCall_self]
      exact .inr ⟨trivial, Nat.lt_succ_self 1⟩
  | wakeExchange =>
      simp only [advance, hcall] at hst
      cases hst
      refine .inl ?_
      show ((s.setCall v (.waking s.waiting 0)).worker v).call.Brings w
      rw [setCall_self]
      exact ⟨hw, Nat.zero_le _⟩
  | _ => rw [hcall] at h; exact absurd h id

/-- **A release** finds the workers that have registered, or another one does. -/
theorem scanned (hfd : s.wakeFd w = true) (hw : s.waiting w = true) (h : (s.worker v).call.Scans) :
    Within cap slot (s.worker v).call.ahead v w (Noticed · w) s := by
  intro l
  induction l generalizing s with
  | nil =>
      intro t _ _ hn
      have hpos : 0 < (s.worker v).call.ahead := by
        cases hcall : (s.worker v).call <;> rw [hcall] at h <;> first | exact absurd h id | decide
      exact absurd hn (Nat.not_le_of_lt hpos)
  | cons x rest ih =>
      obtain ⟨u, a⟩ := x
      intro t hst hother hn
      obtain ⟨s₁, hs₁, hrest⟩ := Option.bind_eq_some_iff.mp hst
      have hother' : ∀ y ∈ rest, y.1 ≠ w := fun y hy => hother y (List.mem_cons_of_mem _ hy)
      have hfd₁ := (event_step hs₁ (hother _ List.mem_cons_self)).2.trans hfd
      have hcome : Noticed s₁ w → Noticed t w := noticed_run hrest hother' hfd₁
      rcases moved_or_plain hs₁ with hm | hp
      · rcases hm.waiting w hw with hw₁ | hb
        · rcases eq_or_ne u v with rfl | hne
          · -- its own operation
            rw [own_cons_self] at hn
            obtain ⟨lucky, hadv⟩ := advance_of_step hs₁ h.call_ne
            rcases scans_advance hadv hw h with hb | ⟨hs, hlt⟩
            · exact hcome (.inr ⟨u, hb⟩)
            · exact ih hfd₁ hw₁ hs t hrest hother' (by omega)
          · -- another worker's, which leaves the bit
            have hsame := hm.others v hne.symm
            rw [own_cons_of_ne hne, ← hsame] at hn
            exact ih hfd₁ hw₁ (hsame.symm ▸ h) t hrest hother' hn
        · -- another worker was faster
          exact hcome (.inr ⟨u, hb⟩)
      · have hne : u ≠ v := by
          rintro rfl
          exact h.call_ne hp.before
        have hsame := hp.others v hne.symm
        rw [own_cons_of_ne hne, ← hsame] at hn
        exact ih hfd₁ (hp.waiting w hw) (hsame.symm ▸ h) t hrest hother' hn

/-- A worker that none of the operations is of stays as it is. -/
theorem worker_run {l : List (WorkerId × Action)} (hst : run cap slot l s = some t)
    (hw : ∀ x ∈ l, x.1 ≠ w) : t.worker w = s.worker w := by
  induction l generalizing s with
  | nil =>
      cases hst
      rfl
  | cons x rest ih =>
      obtain ⟨s₁, hs₁, hrest⟩ := Option.bind_eq_some_iff.mp hst
      have hne := (hw x List.mem_cons_self).symm
      have hsame : s₁.worker w = s.worker w := by
        rcases moved_or_plain hs₁ with hm | hp
        · exact hm.others w hne
        · exact hp.others w hne
      exact (ih hrest fun y hy => hw y (List.mem_cons_of_mem x hy)).trans hsame

/-- The eventfd of worker `w` is readable, or some other worker's next operations write to it. -/
def Coming (cap slot : Nat) (w : WorkerId) (s : State) : Prop :=
  0 < s.event w ∨ ∃ v, v ≠ w ∧ Goes cap s v ∧
    Within cap slot (2 * maxWorkerCount + 1) v w (fun t => 0 < t.event w) s

theorem Noticed.coming (h : Noticed s w) (hfd : s.wakeFd w = true)
    (hidle : (s.worker w).call = .none) : Coming cap slot w s := by
  refine h.imp id ?_
  rintro ⟨v, hb⟩
  have hne : v ≠ w := by
    rintro rfl
    exact hb.call_ne hidle
  refine ⟨v, hne, goes_of_call hb.call_ne, fun l t hst hw hn => ?_⟩
  have hleft := (s.worker v).call.left_le
  exact brought hfd hb l t hst hw (by omega)

/-- **No wake-up is lost.**  In every interleaving, when a worker has blocked in `epoll_wait` with a
relay paused for want of budget and there is room for a datagram again, its eventfd is readable or some
other worker is releasing: once that one has made two more operations, whatever the others do meanwhile,
the eventfd is readable or about to be written to, by this worker or by one that was faster. -/
theorem wakeup_comes (h : Reach cap slot s high) (hturn : (s.worker w).turn = .waiting)
    (hpaused : (s.worker w).paused = true) (hroom : roomy cap slot s.used) :
    Coming cap slot w s ∨ ∃ v, v ≠ w ∧ Goes cap s v ∧ Within cap slot 2 v w (Coming cap slot w) s := by
  have hsafe := h.safe w
  have hfd : s.wakeFd w = true := hsafe.fd (by rw [hturn]; rfl)
  have hidle : (s.worker w).call = .none := h.idle w (by rw [hturn]; rfl) (by rw [hturn]; decide)
  rcases hsafe.blocked hturn hpaused with hn | ⟨hw, hfull | ⟨v, hs⟩⟩
  · exact .inl (hn.coming hfd hidle)
  · exact absurd hroom hfull
  · have hne : v ≠ w := by
      rintro rfl
      exact hs.call_ne hidle
    refine .inr ⟨v, hne, goes_of_call hs.call_ne, fun l t hst hother hn => ?_⟩
    have hahead : (s.worker v).call.ahead ≤ 2 := by
      cases (s.worker v).call <;> simp [Call.ahead]
    have hnoticed := scanned hfd hw hs l t hst hother (Nat.le_trans hahead hn)
    have hsame := worker_run hst hother
    have hfd' : t.wakeFd w = true := by
      obtain ⟨high', ht⟩ := reach_run h hst
      exact (ht.safe w).fd (by rw [hsame, hturn]; rfl)
    exact hnoticed.coming hfd' (hsame ▸ hidle)

/-- Nothing was written to the eventfd of worker 0 yet, but worker 1 is releasing. -/
theorem wakeup_comes_contested :
    ∃ s high, Reach 100 40 s high ∧ s.event 0 = 0 ∧ (Coming 100 40 0 s ∨
      ∃ v, v ≠ 0 ∧ Goes 100 s v ∧ Within 100 40 2 v 0 (Coming 100 40 0) s) := by
  obtain ⟨s, high, h, hview⟩ := exists_contested
  simp only [State.view, Prod.mk.injEq] at hview
  obtain ⟨hturn, hpaused, hused, hevent, -⟩ := hview
  exact ⟨s, high, h, hevent, wakeup_comes h hturn hpaused ⟨by decide, by omega⟩⟩

end Bpf2Socks.Udp.Budget
