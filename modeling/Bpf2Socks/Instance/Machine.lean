/-
# Bpf2Socks.Instance.Machine — starters, the lock file and one `--stop`.

Any number of processes run `start_with_config` with one PID path, and one runs
`stop_running_instance`.  They meet in the file system: the names of the lock file and of the PID file
refer to an inode or to none, an inode's lock has at most one owner, and a PID file is empty or has a
number in it.  A step is one system call of one process, the death of a process, or nothing but the
passage from one part of the program to the next.

`unlink` takes the name away and leaves the inode to whoever has it open; a later `open` with
`O_CREAT` then makes a new one.
-/
import Mathlib.Logic.Function.Basic
import Mathlib.Order.Basic

namespace Bpf2Socks.Instance

abbrev Pid := Nat
abbrev Inode := Nat

/-! ## Processes -/

/-- How far an instance is with its PID file. -/
inductive Serving where
  /-- Before `write_pid_file`. -/
  | starting
  /-- The file is open for writing, and empty. -/
  | writing (j : Inode)
  /-- The number is in the file; before `unlink`, with all that the instance does in between. -/
  | serving
  /-- The number could not be written; before `unlink`. -/
  | failed
  /-- After `unlink`. -/
  | ending
  deriving DecidableEq

/-- Where a process is in `start_with_config`. -/
inductive Phase where
  /-- Not there: never started, returned, or dead. -/
  | away
  /-- Before `open`. -/
  | begun
  /-- Before `flock(LOCK_EX | LOCK_NB)`. -/
  | opened (i : Inode)
  /-- The lock was refused; before `close`. -/
  | refused (i : Inode)
  /-- In `start_with_config_unlocked`. -/
  | inside (i : Inode) (v : Serving)
  /-- Before `flock(LOCK_UN)`. -/
  | returned (i : Inode)
  /-- Before `close`. -/
  | unlocked (i : Inode)
  /-- Before `unlink`. -/
  | closed
  deriving DecidableEq

/-- In `start_with_config_unlocked`. -/
def Phase.isInside : Phase → Bool
  | .inside _ _ => true
  | _ => false

/-- The inode whose lock the process may still take, or runs under. -/
def Phase.contends : Phase → Option Inode
  | .opened i => some i
  | .inside i _ => some i
  | _ => none

/-- The inode whose lock the process has. -/
def Phase.holds : Phase → Option Inode
  | .inside i _ => some i
  | .returned i => some i
  | _ => none

/-- Where the process of `--stop` is in `stop_running_instance`. -/
inductive StopPhase where
  /-- Before `open`. -/
  | begun
  /-- Before the first `flock`. -/
  | opened (i : Inode)
  /-- The lock was free; before `close`. -/
  | stale (i : Inode)
  /-- The lock is held; before `fopen`. -/
  | finding (i : Inode)
  /-- The PID file is open; before `fscanf`. -/
  | reading (i j : Inode)
  /-- A number was read; before `kill`.  `held` says whether that process had the lock then. -/
  | aiming (i : Inode) (pid : Pid) (held : Bool)
  /-- In the loop that waits for the lock. -/
  | waiting (i : Inode) (attempts : Nat)
  /-- The lock came free; before `close`. -/
  | locked (i : Inode)
  | done
  deriving DecidableEq

/-- `BPF2SOCKS_STOP_WAIT_ATTEMPTS`. -/
def stopWaitAttempts : Nat := 200

/-! ## The file system -/

/-- Who has a lock. -/
inductive Owner where
  | starter (p : Pid)
  | stopper
  deriving DecidableEq

structure State where
  /-- The inode the lock file's name refers to. -/
  name : Option Inode
  /-- Inodes from here on are new. -/
  fresh : Inode
  locks : Inode → Option Owner
  /-- The inode the PID file's name refers to. -/
  pidName : Option Inode
  /-- The number in a PID file, if there is one. -/
  text : Inode → Option Pid
  phase : Pid → Phase
  stop : StopPhase
  /-- The processes signalled, with whether each had the lock when the PID file was read. -/
  signals : List (Pid × Bool)

/-- Nothing was ever started. -/
def initial : State where
  name := none
  fresh := 0
  locks _ := none
  pidName := none
  text _ := none
  phase _ := .away
  stop := .begun
  signals := []

def State.goto (s : State) (p : Pid) (ph : Phase) : State :=
  { s with phase := Function.update s.phase p ph }

/-- The lock of an inode as it is without this owner. -/
def State.release (s : State) (o : Owner) (i : Inode) : State :=
  { s with locks := Function.update s.locks i (if s.locks i = some o then none else s.locks i) }

/-- A process dies, and every lock it had is free. -/
def State.die (s : State) (p : Pid) : State :=
  { s with
    phase := Function.update s.phase p .away
    locks := fun i => if s.locks i = some (.starter p) then none else s.locks i }

/-! ## Steps -/

inductive Action where
  /-- A process calls `start_with_config`; its number may have been another's. -/
  | start (p : Pid)
  /-- `open(lock_path, O_CREAT | O_RDWR)`. -/
  | open (p : Pid) (ok : Bool)
  /-- `flock(lock_fd, LOCK_EX | LOCK_NB)`. -/
  | lock (p : Pid)
  /-- `close` after a refused lock. -/
  | giveUp (p : Pid)
  /-- `fopen(pid_path, "w")`. -/
  | createPid (p : Pid)
  /-- `fprintf` and `fclose` write the number. -/
  | writePid (p : Pid) (ok : Bool)
  /-- `unlink(pid_path)`, after a failed write or at the end of `bpf2socks_bridge_run`. -/
  | removePid (p : Pid)
  /-- `start_with_config_unlocked` returns. -/
  | finish (p : Pid)
  | unlock (p : Pid)
  | close (p : Pid)
  /-- `unlink(lock_path)`. -/
  | unlink (p : Pid)
  /-- The process is killed. -/
  | kill (p : Pid)
  /-- `open(lock_path, O_RDWR)` of `--stop`. -/
  | stopOpen
  | stopTest
  /-- `fopen(pid_path, "r")`. -/
  | stopFind
  /-- `fscanf`. -/
  | stopRead
  | stopSignal
  | stopWait
  | stopClose
  deriving DecidableEq

/-- The steps of `start_with_config`. -/
def startStep (s : State) (p : Pid) (ph : Phase) (a : Action) : Option State :=
  match ph, a with
  -- numbers up to 1 are the system's
  | .away, .start _ => if 1 < p then some (s.goto p .begun) else none
  | .begun, .open _ ok =>
      if !ok then some (s.goto p .away)
      else
        match s.name with
        | some i => some (s.goto p (.opened i))
        | none =>
            some { s.goto p (.opened s.fresh) with name := some s.fresh, fresh := s.fresh + 1 }
  | .opened i, .lock _ =>
      if s.locks i = none then
        some { s.goto p (.inside i .starting) with
          locks := Function.update s.locks i (some (.starter p)) }
      else some (s.goto p (.refused i))
  | .refused _, .giveUp _ => some (s.goto p .away)
  | .inside i .starting, .createPid _ =>
      match s.pidName with
      | some j =>
          some { s.goto p (.inside i (.writing j)) with text := Function.update s.text j none }
      | none =>
          some { s.goto p (.inside i (.writing s.fresh)) with
            pidName := some s.fresh
            fresh := s.fresh + 1
            text := Function.update s.text s.fresh none }
  | .inside i (.writing j), .writePid _ ok =>
      if ok then
        some { s.goto p (.inside i .serving) with text := Function.update s.text j (some p) }
      else some (s.goto p (.inside i .failed))
  | .inside i .serving, .removePid _ => some { s.goto p (.inside i .ending) with pidName := none }
  | .inside i .failed, .removePid _ => some { s.goto p (.inside i .ending) with pidName := none }
  -- any failure before the PID file is written returns too
  | .inside i .starting, .finish _ => some (s.goto p (.returned i))
  | .inside i .ending, .finish _ => some (s.goto p (.returned i))
  | .returned i, .unlock _ => some ((s.release (.starter p) i).goto p (.unlocked i))
  | .unlocked _, .close _ => some (s.goto p .closed)
  | .closed, .unlink _ => some { s.goto p .away with name := none }
  | _, _ => none

/-- The steps of `stop_running_instance`. -/
def stopStep (s : State) (a : Action) : Option State :=
  match s.stop, a with
  | .begun, .stopOpen =>
      match s.name with
      | some i => some { s with stop := .opened i }
      | none => some { s with stop := .done }
  | .opened i, .stopTest =>
      if s.locks i = none then
        some { s with stop := .stale i, locks := Function.update s.locks i (some .stopper) }
      else some { s with stop := .finding i }
  | .stale i, .stopClose => some { s.release .stopper i with stop := .done }
  | .finding i, .stopFind =>
      match s.pidName with
      | some j => some { s with stop := .reading i j }
      | none => some { s with stop := .waiting i 0 }
  | .reading i j, .stopRead =>
      match s.text j with
      | some p =>
          if 1 < p then some { s with stop := .aiming i p (s.phase p).holds.isSome }
          else some { s with stop := .waiting i 0 }
      | none => some { s with stop := .waiting i 0 }
  | .aiming i p held, .stopSignal =>
      some { s with stop := .waiting i 0, signals := s.signals ++ [(p, held)] }
  | .waiting i n, .stopWait =>
      if stopWaitAttempts ≤ n then some { s with stop := .locked i }
      else if s.locks i = none then
        some { s with stop := .locked i, locks := Function.update s.locks i (some .stopper) }
      else some { s with stop := .waiting i (n + 1) }
  | .locked i, .stopClose => some { s.release .stopper i with stop := .done }
  | _, _ => none

/-- The process that acts, if it is a starter. -/
def Action.starter : Action → Option Pid
  | .start p | .open p _ | .lock p | .giveUp p | .createPid p | .writePid p _ | .removePid p
  | .finish p | .unlock p | .close p | .unlink p => some p
  | _ => none

def step (s : State) (a : Action) : Option State :=
  match a with
  | .kill p => if s.phase p = .away then none else some (s.die p)
  | a =>
      match a.starter with
      | some p => startStep s p (s.phase p) a
      | none => stopStep s a

/-! ## What a step can do -/

/-- The steps of a starter, with where it was and what is different afterwards. -/
inductive Moves (s : State) (p : Pid) : Action → State → Prop where
  | start (hph : s.phase p = .away) : Moves s p (.start p) (s.goto p .begun)
  | openFails (hph : s.phase p = .begun) : Moves s p (.open p false) (s.goto p .away)
  | opens {i : Inode} (hph : s.phase p = .begun) (hname : s.name = some i) :
      Moves s p (.open p true) (s.goto p (.opened i))
  | creates (hph : s.phase p = .begun) (hname : s.name = none) : Moves s p (.open p true)
      { s.goto p (.opened s.fresh) with name := some s.fresh, fresh := s.fresh + 1 }
  | locks {i : Inode} (hph : s.phase p = .opened i) (hfree : s.locks i = none) :
      Moves s p (.lock p) { s.goto p (.inside i .starting) with
        locks := Function.update s.locks i (some (.starter p)) }
  | isRefused {i : Inode} (hph : s.phase p = .opened i) : Moves s p (.lock p) (s.goto p (.refused i))
  | givesUp {i : Inode} (hph : s.phase p = .refused i) : Moves s p (.giveUp p) (s.goto p .away)
  | emptiesPid {i j : Inode} (hph : s.phase p = .inside i .starting) (hname : s.pidName = some j) :
      Moves s p (.createPid p)
        { s.goto p (.inside i (.writing j)) with text := Function.update s.text j none }
  | createsPid {i : Inode} (hph : s.phase p = .inside i .starting) (hname : s.pidName = none) :
      Moves s p (.createPid p) { s.goto p (.inside i (.writing s.fresh)) with
        pidName := some s.fresh
        fresh := s.fresh + 1
        text := Function.update s.text s.fresh none }
  | writesPid {i j : Inode} (hph : s.phase p = .inside i (.writing j)) :
      Moves s p (.writePid p true)
        { s.goto p (.inside i .serving) with text := Function.update s.text j (some p) }
  | writeFails {i j : Inode} (hph : s.phase p = .inside i (.writing j)) :
      Moves s p (.writePid p false) (s.goto p (.inside i .failed))
  | removesPid {i : Inode} {v : Serving} (hph : s.phase p = .inside i v) :
      Moves s p (.removePid p) { s.goto p (.inside i .ending) with pidName := none }
  | finishes {i : Inode} {v : Serving} (hph : s.phase p = .inside i v) (hv : v ≠ .serving) :
      Moves s p (.finish p) (s.goto p (.returned i))
  | unlocks {i : Inode} (hph : s.phase p = .returned i) :
      Moves s p (.unlock p) ((s.release (.starter p) i).goto p (.unlocked i))
  | closes {i : Inode} (hph : s.phase p = .unlocked i) : Moves s p (.close p) (s.goto p .closed)
  | unlinks (hph : s.phase p = .closed) : Moves s p (.unlink p) { s.goto p .away with name := none }

theorem moves_of_startStep {s s' : State} {p : Pid} {a : Action} (ha : a.starter = some p)
    (hs : startStep s p (s.phase p) a = some s') : Moves s p a s' := by
  rcases hph : s.phase p with _ | _ | i | i | ⟨i, _ | j | _ | _ | _⟩ | i | i | _ <;>
    rw [hph] at hs <;> cases a <;> simp only [startStep, reduceCtorEq] at hs <;> cases ha
  case away.start =>
    split at hs <;> cases hs
    exact .start hph
  case begun.open ok =>
    cases ok
    · cases hs
      exact .openFails hph
    · rcases hname : s.name with _ | i <;> simp [hname] at hs <;> subst hs
      · exact .creates hph hname
      · exact .opens hph hname
  case opened.lock =>
    split at hs <;> cases hs
    · exact .locks hph ‹_›
    · exact .isRefused hph
  case refused.giveUp => cases hs; exact .givesUp hph
  case inside.starting.createPid =>
    rcases hname : s.pidName with _ | j <;> simp only [hname] at hs <;> cases hs
    · exact .createsPid hph hname
    · exact .emptiesPid hph hname
  case inside.starting.finish => cases hs; exact .finishes hph (by decide)
  case inside.writing.writePid ok =>
    cases ok <;> cases hs
    · exact .writeFails hph
    · exact .writesPid hph
  case inside.serving.removePid => cases hs; exact .removesPid hph
  case inside.failed.removePid => cases hs; exact .removesPid hph
  case inside.ending.finish => cases hs; exact .finishes hph (by decide)
  case returned.unlock => cases hs; exact .unlocks hph
  case unlocked.close => cases hs; exact .closes hph
  case closed.unlink => cases hs; exact .unlinks hph

/-- The steps of `--stop`, as far as the locks, the PID it takes and the signals go. -/
inductive StopMoves (s : State) : Action → State → Prop where
  | moves {a : Action} (ph : StopPhase) (ha : ∀ i p held, ph ≠ .aiming i p held) :
      StopMoves s a { s with stop := ph }
  | takes {a : Action} {i : Inode} (ph : StopPhase) (hfree : s.locks i = none)
      (ha : ∀ i p held, ph ≠ .aiming i p held) :
      StopMoves s a { s with stop := ph, locks := Function.update s.locks i (some .stopper) }
  | closes {a : Action} (i : Inode) : StopMoves s a { s.release .stopper i with stop := .done }
  | aims {i j : Inode} {p : Pid} (hstop : s.stop = .reading i j) (htext : s.text j = some p) :
      StopMoves s .stopRead { s with stop := .aiming i p (s.phase p).holds.isSome }
  | signals {i : Inode} {p : Pid} {held : Bool} (hstop : s.stop = .aiming i p held) :
      StopMoves s .stopSignal
        { s with stop := .waiting i 0, signals := s.signals ++ [(p, held)] }

theorem moves_of_stopStep {s s' : State} {a : Action} (hs : stopStep s a = some s') :
    StopMoves s a s' := by
  rcases hph : s.stop with _ | i | i | i | ⟨i, j⟩ | ⟨i, p, held⟩ | ⟨i, n⟩ | i | _ <;>
    cases a <;> simp only [stopStep, hph, reduceCtorEq] at hs
  case begun.stopOpen =>
    split at hs <;> cases hs <;> exact .moves _ (by simp)
  case opened.stopTest =>
    split at hs <;> cases hs
    · exact .takes _ ‹_› (by simp)
    · exact .moves _ (by simp)
  case stale.stopClose => cases hs; exact .closes i
  case finding.stopFind =>
    split at hs <;> cases hs <;> exact .moves _ (by simp)
  case reading.stopRead =>
    split at hs
    · split at hs <;> cases hs
      · exact .aims hph ‹_›
      · exact .moves _ (by simp)
    · cases hs
      exact .moves _ (by simp)
  case aiming.stopSignal => cases hs; exact .signals hph
  case waiting.stopWait =>
    split at hs
    · cases hs
      exact .moves _ (by simp)
    · split at hs <;> cases hs
      · exact .takes _ ‹_› (by simp)
      · exact .moves _ (by simp)
  case locked.stopClose => cases hs; exact .closes i

/-- **What a step does**: a process dies, a starter moves, or `--stop` does. -/
theorem step_cases {s s' : State} {a : Action} (hs : step s a = some s') :
    (∃ p, a = .kill p ∧ s' = s.die p) ∨ (∃ p, Moves s p a s') ∨ StopMoves s a s' := by
  by_cases hk : ∃ p, a = .kill p
  · obtain ⟨p, rfl⟩ := hk
    simp only [step] at hs
    split at hs <;> cases hs
    exact .inl ⟨p, rfl, rfl⟩
  · have hstep : step s a = match a.starter with
        | some p => startStep s p (s.phase p) a
        | none => stopStep s a := by
      cases a <;> first | rfl | exact (hk ⟨_, rfl⟩).elim
    rw [hstep] at hs
    rcases ha : a.starter with _ | p <;> rw [ha] at hs
    · exact .inr (.inr (moves_of_stopStep hs))
    · exact .inr (.inl ⟨p, moves_of_startStep ha hs⟩)

/-! ## Runs -/

/-- A run of steps that all meet a condition on the state before them. -/
inductive Reach (C : State → Action → Prop) : State → Prop where
  | init : Reach C initial
  | next {s s' : State} (h : Reach C s) (a : Action) (hc : C s a) (hs : step s a = some s') :
      Reach C s'

/-- Run a list of steps. -/
def play : State → List Action → Option State
  | s, [] => some s
  | s, a :: as => (step s a).bind fun s' => play s' as

theorem Reach.play {C : State → Action → Prop} {s s' : State} {as : List Action} (h : Reach C s)
    (hC : ∀ s, ∀ a ∈ as, C s a) (hp : play s as = some s') : Reach C s' := by
  induction as generalizing s with
  | nil =>
      cases hp
      exact h
  | cons a as ih =>
      rw [Instance.play, Option.bind_eq_some_iff] at hp
      obtain ⟨s₁, hs, hp⟩ := hp
      exact ih (h.next a (hC s a List.mem_cons_self) hs)
        (fun s a ha => hC s a (List.mem_cons_of_mem _ ha)) hp

end Bpf2Socks.Instance
