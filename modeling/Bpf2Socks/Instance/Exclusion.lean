/-
# Bpf2Socks.Instance.Exclusion — one instance at a time, and whom `--stop` signals.

The lock excludes two instances as long as both lock the same inode.  A returning instance unlinks
the lock file after it has given up the lock, and takes the name from under a process that opened
the file in between: that one and the next starter then hold the locks of two inodes.  Where no
process is in that position at an `unlink`, every process that may take the lock has the named inode
open, and there is at most one instance.

`--stop` opens and reads the PID file after it saw the lock taken, and signals whoever the file names.
That is the holder of the lock only if the holder has written this very file: a file left by a killed
instance stays until the next instance writes its own, and a file that was open when its instance
removed it still has the number in it when the next instance has made another.
-/
import Bpf2Socks.Instance.Machine

namespace Bpf2Socks.Instance

/-! ## Exclusion -/

/-- At most one process is in `start_with_config_unlocked`. -/
def Exclusive (s : State) : Prop :=
  ∀ p q, (s.phase p).isInside = true → (s.phase q).isInside = true → p = q

/-- When the lock file is unlinked, nobody runs under its lock or may still take it. -/
def QuietUnlink (s : State) (a : Action) : Prop :=
  ∀ p, a = .unlink p → ∀ q i, s.name = some i → (s.phase q).contends ≠ some i

/-- Whoever may take a lock has the named inode, and who has taken it is its owner. -/
structure Named (s : State) : Prop where
  contends : ∀ q i, (s.phase q).contends = some i → s.name = some i
  holds : ∀ q i, (s.phase q).holds = some i → s.locks i = some (.starter q)

theorem Phase.of_isInside {ph : Phase} (h : ph.isInside = true) :
    ∃ i, ph.contends = some i ∧ ph.holds = some i := by
  cases ph with
  | inside i v => exact ⟨i, rfl, rfl⟩
  | _ => cases h

theorem Named.exclusive {s : State} (h : Named s) : Exclusive s := by
  intro p q hp hq
  obtain ⟨i, hpc, hph⟩ := Phase.of_isInside hp
  obtain ⟨j, hqc, hqh⟩ := Phase.of_isInside hq
  have hij : i = j := Option.some.inj ((h.contends p i hpc).symm.trans (h.contends q j hqc))
  subst hij
  have howner := (h.holds p i hph).symm.trans (h.holds q i hqh)
  exact Owner.starter.inj (Option.some.inj howner)

theorem named_initial : Named initial := ⟨fun _ _ h => (nomatch h), fun _ _ h => (nomatch h)⟩

/-- A process moves on, with the name and the locks as they are. -/
theorem Named.goto {s : State} (h : Named s) {p : Pid} {ph : Phase}
    (hc : ∀ i, ph.contends = some i → s.name = some i)
    (hh : ∀ i, ph.holds = some i → s.locks i = some (.starter p)) : Named (s.goto p ph) := by
  refine ⟨fun q i hq => ?_, fun q i hq => ?_⟩
  · by_cases hqp : q = p
    · subst hqp
      exact hc i (by simpa [State.goto] using hq)
    · exact h.contends q i (by simpa [State.goto, hqp] using hq)
  · by_cases hqp : q = p
    · subst hqp
      exact hh i (by simpa [State.goto] using hq)
    · exact h.holds q i (by simpa [State.goto, hqp] using hq)

/-- A free lock is taken. -/
theorem Named.acquire {s : State} (h : Named s) {i : Inode} (hfree : s.locks i = none) (o : Owner) :
    Named { s with locks := Function.update s.locks i (some o) } := by
  refine ⟨h.contends, fun q j hq => ?_⟩
  have hj := h.holds q j hq
  by_cases hji : j = i
  · subst hji
    rw [hfree] at hj
    cases hj
  · exact (Function.update_of_ne hji _ _).trans hj

/-- A lock of someone who is not an instance is given up. -/
theorem Named.release {s : State} (h : Named s) {o : Owner} (i : Inode)
    (ho : ∀ q j, (s.phase q).holds = some j → o ≠ .starter q) : Named (s.release o i) := by
  refine ⟨h.contends, fun q j hq => ?_⟩
  have hj := h.holds q j hq
  by_cases hji : j = i
  · subst hji
    have hne : s.locks j ≠ some o := fun he => ho q j hq (Option.some.inj (he.symm.trans hj))
    simpa [State.release, hne] using hj
  · exact (Function.update_of_ne hji _ _).trans hj

theorem Named.die {s : State} (h : Named s) (p : Pid) : Named (s.die p) := by
  refine ⟨fun q i hq => ?_, fun q i hq => ?_⟩
  · by_cases hqp : q = p
    · subst hqp
      simp [State.die, Phase.contends] at hq
    · exact h.contends q i (by simpa [State.die, hqp] using hq)
  · by_cases hqp : q = p
    · subst hqp
      simp [State.die, Phase.holds] at hq
    · have hi := h.holds q i (by simpa [State.die, hqp] using hq)
      have hne : s.locks i ≠ some (.starter p) := by
        rw [hi]
        exact fun he => hqp (Owner.starter.inj (Option.some.inj he))
      exact (if_neg hne).trans hi

/-- Nothing but the PID file and the process of `--stop` changes. -/
theorem Named.congr {s s' : State} (h : Named s) (hname : s'.name = s.name)
    (hlocks : s'.locks = s.locks) (hphase : s'.phase = s.phase) : Named s' := by
  refine ⟨fun q i hq => ?_, fun q i hq => ?_⟩
  · rw [hname]
    exact h.contends q i (hphase ▸ hq)
  · rw [hlocks]
    exact h.holds q i (hphase ▸ hq)

/-- A step of a starter. -/
theorem Named.moves {s s' : State} (h : Named s) {p : Pid} {a : Action} (hq : QuietUnlink s a)
    (hm : Moves s p a s') : Named s' := by
  have stays : ∀ {i ph}, s.phase p = ph → ph.contends = some i → ph.holds = some i →
      s.name = some i ∧ s.locks i = some (.starter p) :=
    fun hph hc hh => ⟨h.contends p _ (hph ▸ hc), h.holds p _ (hph ▸ hh)⟩
  cases hm with
  | start hph => exact h.goto (fun i hi => nomatch hi) (fun i hi => nomatch hi)
  | openFails hph => exact h.goto (fun i hi => nomatch hi) (fun i hi => nomatch hi)
  | opens hph hname =>
      refine h.goto (fun i hi => ?_) (fun i hi => nomatch hi)
      cases hi
      exact hname
  | creates hph hname =>
      -- without a name nobody contends
      have hnone : ∀ q i, (s.phase q).contends ≠ some i := by
        intro q i hi
        have := h.contends q i hi
        rw [hname] at this
        cases this
      refine ⟨fun q i hi => ?_, fun q i hi => ?_⟩
      · by_cases hqp : q = p
        · subst hqp
          simpa [State.goto, Phase.contends] using hi
        · exact (hnone q i (by simpa [State.goto, hqp] using hi)).elim
      · by_cases hqp : q = p
        · subst hqp
          simp [State.goto, Phase.holds] at hi
        · exact h.holds q i (by simpa [State.goto, hqp] using hi)
  | @locks i hph hfree =>
      have hname := h.contends p i (by rw [hph]; rfl)
      refine (h.acquire hfree (.starter p)).goto (fun j hj => ?_) (fun j hj => ?_) |>.congr rfl rfl rfl
      · cases hj
        exact hname
      · cases hj
        exact Function.update_self ..
  | isRefused hph => exact h.goto (fun i hi => nomatch hi) (fun i hi => nomatch hi)
  | givesUp hph => exact h.goto (fun i hi => nomatch hi) (fun i hi => nomatch hi)
  | emptiesPid hph _ | createsPid hph _ | writesPid hph | writeFails hph | removesPid hph =>
      refine (h.goto (fun i hi => ?_) (fun i hi => ?_)).congr rfl rfl rfl
      · cases hi
        exact (stays hph rfl rfl).1
      · cases hi
        exact (stays hph rfl rfl).2
  | finishes hph hv =>
      refine h.goto (fun i hi => nomatch hi) (fun i hi => ?_)
      cases hi
      exact (stays hph rfl rfl).2
  | @unlocks i hph =>
      -- the process itself no longer counts as a holder
      refine ⟨fun q j hj => ?_, fun q j hj => ?_⟩
      · by_cases hqp : q = p
        · subst hqp
          simp [State.goto, State.release, Phase.contends] at hj
        · exact h.contends q j (by simpa [State.goto, State.release, hqp] using hj)
      · by_cases hqp : q = p
        · subst hqp
          simp [State.goto, State.release, Phase.holds] at hj
        · have hj' := h.holds q j (by simpa [State.goto, State.release, hqp] using hj)
          have hne : s.locks j ≠ some (.starter p) := by
            rw [hj']
            exact fun he => hqp (Owner.starter.inj (Option.some.inj he))
          by_cases hji : j = i
          · subst hji
            simpa [State.goto, State.release, hne] using hj'
          · simpa [State.goto, State.release, hji] using hj'
  | closes hph => exact h.goto (fun i hi => nomatch hi) (fun i hi => nomatch hi)
  | unlinks hph =>
      -- whoever contends has the named inode, and nobody does
      refine ⟨fun q i hi => ?_, fun q i hi => ?_⟩
      · by_cases hqp : q = p
        · subst hqp
          simp [State.goto, Phase.contends] at hi
        · have hi' : (s.phase q).contends = some i := by simpa [State.goto, hqp] using hi
          exact (hq p rfl q i (h.contends q i hi') hi').elim
      · by_cases hqp : q = p
        · subst hqp
          simp [State.goto, Phase.holds] at hi
        · exact h.holds q i (by simpa [State.goto, hqp] using hi)

/-- A step of `--stop`. -/
theorem Named.stopMoves {s s' : State} (h : Named s) {a : Action} (hm : StopMoves s a s') :
    Named s' := by
  cases hm with
  | moves ph _ => exact h.congr rfl rfl rfl
  | takes ph hfree _ => exact (h.acquire hfree .stopper).congr rfl rfl rfl
  | closes i => exact (h.release i fun _ _ _ he => by cases he).congr rfl rfl rfl
  | aims _ _ => exact h.congr rfl rfl rfl
  | signals _ => exact h.congr rfl rfl rfl

theorem Named.step {s s' : State} (h : Named s) {a : Action} (hq : QuietUnlink s a)
    (hs : Instance.step s a = some s') : Named s' := by
  obtain ⟨p, rfl, rfl⟩ | ⟨p, hm⟩ | hm := step_cases hs
  · exact h.die p
  · exact h.moves hq hm
  · exact h.stopMoves hm

theorem Reach.named {C : State → Action → Prop} (hC : ∀ s a, C s a → QuietUnlink s a) {s : State}
    (h : Reach C s) : Named s := by
  induction h with
  | init => exact named_initial
  | next _ a hc hs ih => exact ih.step (hC _ a hc) hs

/-- **One instance at a time**, in every run in which the lock file is unlinked only when no process
runs under its lock or may still take it. -/
theorem exclusive_of_quiet (s : State) (h : Reach QuietUnlink s) : Exclusive s :=
  (h.named fun _ _ hq => hq).exclusive

/-- Three starters: the second opens the lock file between the first one's `unlock` and `unlink`. -/
def threeStarters : List Action :=
  [.start 2, .open 2 true, .lock 2, .finish 2, .unlock 2, .start 3, .open 3 true, .lock 3, .close 2,
    .unlink 2, .start 4, .open 4 true, .lock 4]

/-- Two of them are inside at once. -/
theorem two_inside : ¬∀ s, Reach (fun _ _ => True) s → Exclusive s := by
  intro h
  obtain ⟨s, hs⟩ : ∃ s, play initial threeStarters = some s := ⟨_, rfl⟩
  have hp : (play initial threeStarters).map (fun s => ((s.phase 3).isInside, (s.phase 4).isInside)) =
      some (true, true) := by decide
  rw [hs, Option.map_some, Option.some.injEq, Prod.mk.injEq] at hp
  exact absurd (h s (Reach.init.play (fun _ _ _ => trivial) hs) 3 4 hp.1 hp.2) (by decide)

/-- A starter that is refused while another is inside. -/
def twoStarters : List Action :=
  [.start 2, .open 2 true, .start 3, .open 3 true, .lock 2, .lock 3, .giveUp 3]

theorem quiet_twoStarters (s : State) : ∀ a ∈ twoStarters, QuietUnlink s a := by
  intro a ha p hp
  subst hp
  simp [twoStarters] at ha

theorem exclusive_twoStarters : ∃ s, play initial twoStarters = some s ∧
    (s.phase 2).isInside = true ∧ Exclusive s :=
  ⟨_, rfl, by decide, exclusive_of_quiet _ (Reach.init.play quiet_twoStarters rfl)⟩

/-! ## Whom `--stop` signals -/

/-- Every signal went to the process that had the lock when the PID file was read. -/
def SignalsHolder (s : State) : Prop := ∀ x ∈ s.signals, x.2 = true

/-- When `--stop` reads a number, the file it has open is still the one under the PID path, and an
instance is running that has written its PID file and has not removed it. -/
def SettledRead (s : State) (a : Action) : Prop :=
  a = .stopRead → ∀ i j p, s.stop = .reading i j → s.text j = some p →
    s.pidName = some j ∧ ∃ q i, s.phase q = .inside i .serving

/-- The PID file of an instance that writes or has written it. -/
structure Filed (s : State) : Prop where
  named : Named s
  opened : ∀ q i j, s.phase q = .inside i (.writing j) → s.pidName = some j
  written : ∀ q i, s.phase q = .inside i .serving → ∃ j, s.pidName = some j ∧ s.text j = some q
  aims : ∀ i p held, s.stop = .aiming i p held → held = true
  signals : SignalsHolder s

theorem filed_initial : Filed initial where
  named := named_initial
  opened _ _ _ h := nomatch h
  written _ _ h := nomatch h
  aims _ _ _ h := nomatch h
  signals _ h := nomatch h

/-- While a process is inside, another one has nothing to do with the PID file. -/
theorem Filed.others {s : State} (h : Filed s) {p q : Pid} (hp : (s.phase p).isInside = true) {i : Inode}
    {v : Serving} (hq : s.phase q = .inside i v) : q = p :=
  h.named.exclusive q p (by rw [hq]; rfl) hp

/-- A starter leaves the PID file alone, or is the one instance. -/
theorem Filed.file_moves {s s' : State} (h : Filed s) {p q : Pid} {a : Action} (hm : Moves s p a s')
    (hqp : q ≠ p) {i : Inode} {v : Serving} (hq : s.phase q = .inside i v) :
    s'.pidName = s.pidName ∧ s'.text = s.text := by
  cases hm with
  | emptiesPid hph _ | createsPid hph _ | writesPid hph | writeFails hph | removesPid hph =>
      exact (hqp (h.others (by rw [hph]; rfl) hq)).elim
  | _ => exact ⟨rfl, rfl⟩

/-- Another process stays where it is. -/
theorem Moves.others {s s' : State} {p q : Pid} {a : Action} (hm : Moves s p a s') (hqp : q ≠ p) :
    s'.phase q = s.phase q := by
  cases hm <;> simp [State.goto, State.release, hqp]

theorem Filed.opened_moves {s s' : State} (h : Filed s) {p : Pid} {a : Action} (hm : Moves s p a s')
    (q : Pid) (i j : Inode) (hq : s'.phase q = .inside i (.writing j)) : s'.pidName = some j := by
  by_cases hqp : q = p
  · subst hqp
    cases hm with
    | @emptiesPid _ j' hph hname =>
        obtain ⟨-, rfl⟩ : _ ∧ j' = j := by simpa [State.goto] using hq
        exact hname
    | createsPid hph hname =>
        obtain ⟨-, rfl⟩ : _ ∧ s.fresh = j := by simpa [State.goto] using hq
        rfl
    | _ => simp [State.goto, State.release] at hq
  · rw [hm.others hqp] at hq
    rw [(h.file_moves hm hqp hq).1]
    exact h.opened q i j hq

theorem Filed.written_moves {s s' : State} (h : Filed s) {p : Pid} {a : Action} (hm : Moves s p a s')
    (q : Pid) (i : Inode) (hq : s'.phase q = .inside i .serving) :
    ∃ j, s'.pidName = some j ∧ s'.text j = some q := by
  by_cases hqp : q = p
  · subst hqp
    cases hm with
    | @writesPid i₀ j hph => exact ⟨j, h.opened q i₀ j hph, Function.update_self ..⟩
    | _ => simp [State.goto, State.release] at hq
  · rw [hm.others hqp] at hq
    rw [(h.file_moves hm hqp hq).1, (h.file_moves hm hqp hq).2]
    exact h.written q i hq

theorem Filed.die {s : State} (h : Filed s) (p : Pid) : Filed (s.die p) := by
  have hold : ∀ {q ph}, (s.die p).phase q = ph → ph ≠ .away → s.phase q = ph := by
    intro q ph hq hph
    by_cases hqp : q = p
    · subst hqp
      exact (hph (by simpa [State.die] using hq.symm)).elim
    · simpa [State.die, hqp] using hq
  exact ⟨h.named.die p, fun q i j hq => h.opened q i j (hold hq (by simp)),
    fun q i hq => h.written q i (hold hq (by simp)), h.aims, h.signals⟩

/-- The number that is read is the one the running instance has written. -/
theorem Filed.read_holds {s : State} (h : Filed s) (hread : SettledRead s .stopRead) {i j : Inode}
    {p : Pid} (hstop : s.stop = .reading i j) (htext : s.text j = some p) :
    (s.phase p).holds.isSome = true := by
  obtain ⟨hname, q, i', hq⟩ := hread rfl i j p hstop htext
  obtain ⟨j', hname', htext'⟩ := h.written q i' hq
  have hj : j' = j := Option.some.inj (hname'.symm.trans hname)
  have hp : p = q := Option.some.inj (htext.symm.trans (hj ▸ htext'))
  rw [hp, hq]
  rfl

theorem Filed.step {s s' : State} (h : Filed s) {a : Action} (hquiet : QuietUnlink s a)
    (hread : SettledRead s a) (hs : Instance.step s a = some s') : Filed s' := by
  have hnamed := h.named.step hquiet hs
  obtain ⟨p, rfl, rfl⟩ | ⟨p, hm⟩ | hm := step_cases hs
  · exact h.die p
  · refine ⟨hnamed, h.opened_moves hm, h.written_moves hm, ?_, ?_⟩
    · cases hm <;> exact h.aims
    · cases hm <;> exact h.signals
  · cases hm with
    | moves ph ha =>
        exact ⟨hnamed, h.opened, h.written, fun i p held hi => (ha i p held hi).elim, h.signals⟩
    | takes ph hfree ha =>
        exact ⟨hnamed, h.opened, h.written, fun i p held hi => (ha i p held hi).elim, h.signals⟩
    | closes i => exact ⟨hnamed, h.opened, h.written, fun _ _ _ hi => (nomatch hi), h.signals⟩
    | @aims i j p hstop htext =>
        refine ⟨hnamed, h.opened, h.written, fun _ _ _ hi => ?_, h.signals⟩
        cases hi
        exact h.read_holds hread hstop htext
    | @signals i p held hstop =>
        refine ⟨hnamed, h.opened, h.written, fun _ _ _ hi => (nomatch hi), fun x hx => ?_⟩
        rcases List.mem_append.mp hx with hx | hx
        · exact h.signals x hx
        · rw [List.mem_singleton.mp hx]
          exact h.aims i p held hstop

/-- **`--stop` signals the running instance**, in every run in which the lock file is unlinked only
when nobody needs it, and a number is read only from the file that is under the PID path, while an
instance runs that has written its own. -/
theorem signals_of_settled (s : State)
    (h : Reach (fun s a => QuietUnlink s a ∧ SettledRead s a) s) : SignalsHolder s := by
  suffices Filed s from this.signals
  induction h with
  | init => exact filed_initial
  | next _ a hc hs ih => exact ih.step hc.1 hc.2 hs

/-- An instance is killed, and `--stop` comes while the next one has not yet written its PID file. -/
def stalePidFile : List Action :=
  [.start 2, .open 2 true, .lock 2, .createPid 2, .writePid 2 true, .kill 2, .start 3, .open 3 true,
    .lock 3, .stopOpen, .stopTest, .stopFind, .stopRead, .stopSignal]

/-- The dead process' number is signalled. -/
theorem stale_signalled : ¬∀ s, Reach (fun _ _ => True) s → SignalsHolder s := by
  intro h
  obtain ⟨s, hs⟩ : ∃ s, play initial stalePidFile = some s := ⟨_, rfl⟩
  have hp : (play initial stalePidFile).map State.signals = some [(2, false)] := by decide
  rw [hs, Option.map_some, Option.some.injEq] at hp
  have hsent : (2, false) ∈ s.signals := by
    rw [hp]
    exact List.mem_singleton_self _
  cases h s (Reach.init.play (fun _ _ _ => trivial) hs) _ hsent

/-- A plain `--stop` of a running instance. -/
def plainStop : List Action :=
  [.start 2, .open 2 true, .lock 2, .createPid 2, .writePid 2 true, .stopOpen, .stopTest, .stopFind]

theorem settled_plainStop (s : State) : ∀ a ∈ plainStop, QuietUnlink s a ∧ SettledRead s a := by
  intro a ha
  refine ⟨fun p hp => ?_, fun hr => ?_⟩
  · subst hp
    simp [plainStop] at ha
  · subst hr
    simp [plainStop] at ha

theorem signals_plainStop : ∃ s, play initial (plainStop ++ [.stopRead, .stopSignal]) = some s ∧
    s.signals = [(2, true)] ∧ SignalsHolder s := by
  obtain ⟨s₀, hs₀⟩ : ∃ s, play initial plainStop = some s := ⟨_, rfl⟩
  have h₀ := Reach.init.play settled_plainStop hs₀
  cases hs₀
  have h₁ := h₀.next .stopRead
    ⟨fun _ hp => (nomatch hp), fun _ _ _ _ hi _ => by cases hi; exact ⟨rfl, 2, 0, rfl⟩⟩ rfl
  have h₂ := h₁.next .stopSignal ⟨fun _ hp => (nomatch hp), fun hr => (nomatch hr)⟩ rfl
  exact ⟨_, rfl, rfl, signals_of_settled _ h₂⟩

end Bpf2Socks.Instance
