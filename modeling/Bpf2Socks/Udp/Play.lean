/-
# Bpf2Socks.Udp.Play — concrete runs of a worker.

A run is given as a list of moves: an event array to wake up with, or one step with the answers
the environment gives in it.  `play` computes where the run ends, checking the contract of every
answer and a condition on every configuration it goes through; what it computes is reachable.

`calm` is an environment in which everything works and nothing is waiting.  The runs in the later
modules answer a few questions differently.
-/
import Bpf2Socks.Udp.Worker

namespace Bpf2Socks.Udp

open Lib (Prog)

/-- One move of a run. -/
inductive Move where
  | wake (events : List (Ref × Bits))
  | run (answers : (q : Sys) → q.Ans)

variable (B : State → (q : Sys) → q.Ans → Bool) (E : Loc → State → Bool)

/-- Make a move, if it is admissible. -/
def playMove (m : Move) (c : Loc × State) : Option (Loc × State) :=
  if E c.1 c.2 then
    match m, c.1 with
    | .wake evs, .wait => if wakeOk c.2 evs then some (.dispatch, collect c.2 evs) else none
    | .wake _, _ => none
    | .run answers, l =>
        (Prog.exec B (fun _ => answers) 0 (step l c.2)).map fun r => (r.2, r.1)
  else none

/-- Make moves one after the other. -/
def play : List Move → Loc × State → Option (Loc × State)
  | [], c => some c
  | m :: ms, c => (playMove B E m c).bind (play ms)

variable {B E} {A : State → (q : Sys) → q.Ans → Prop} {C : Loc → State → Prop}
  (hadm : ∀ s q r, B s q r = true → A s q r) (hcond : ∀ l s, E l s = true → C l s)

include hadm hcond

theorem playMove_step {m : Move} {c c' : Loc × State} (hm : playMove B E m c = some c') :
    C c.1 c.2 ∧ Step A c c' := by
  obtain ⟨l, s⟩ := c
  unfold playMove at hm
  split at hm
  · rename_i hc
    refine ⟨hcond _ _ hc, ?_⟩
    split at hm
    · rename_i evs hl
      obtain rfl : l = .wait := hl
      split at hm
      · rename_i hw
        obtain rfl := Option.some.inj hm
        exact .wake evs hw
      · simp at hm
    · simp at hm
    · rename_i answers
      obtain ⟨⟨s', l'⟩, he, rfl⟩ := Option.map_eq_some_iff.mp hm
      exact .run (Prog.exec_out hadm he)
  · simp at hm

/-- What `play` computes is reachable. -/
theorem play_reach {cfg : WorkerConfig} {ms : List Move} {c c' : Loc × State}
    (h : Reach A C cfg c.1 c.2) (hp : play B E ms c = some c') :
    Reach A C cfg c'.1 c'.2 := by
  induction ms generalizing c with
  | nil =>
      obtain rfl := Option.some.inj hp
      exact h
  | cons m ms ih =>
      obtain ⟨d, hd, hp⟩ := Option.bind_eq_some_iff.mp hp
      obtain ⟨hc, hstep⟩ := playMove_step hadm hcond hd
      exact ih (h.next hc hstep) hp

/-- A property of where a run ends holds of some reachable configuration. -/
theorem exists_reach {g : WorkerConfig} (ms : List Move) (P : Loc → State → Bool)
    (h : (play B E ms (.wait, initState g)).any (fun c => P c.1 c.2) = true) :
    ∃ l s, Reach A C g l s ∧ P l s = true := by
  rcases hp : play B E ms (.wait, initState g) with _ | c
  · simp [hp] at h
  · exact ⟨c.1, c.2, play_reach hadm hcond (c := (.wait, initState g)) .init hp,
      by simpa [hp] using h⟩

/-- The same for where a run ends and one more step. -/
theorem exists_step {g : WorkerConfig} (ms : List Move) (m : Move)
    (P : Loc × State → Loc × State → Bool)
    (h : (play B E ms (.wait, initState g)).any (fun c =>
      (playMove B E m c).any fun c' => P c c') = true) :
    ∃ l s l' s', Reach A C g l s ∧ Step A (l, s) (l', s') ∧
      P (l, s) (l', s') = true := by
  rcases hp : play B E ms (.wait, initState g) with _ | c
  · simp [hp] at h
  · rcases hm : playMove B E m c with _ | c'
    · simp [hp, hm] at h
    · exact ⟨c.1, c.2, c'.1, c'.2,
        play_reach hadm hcond (c := (.wait, initState g)) .init hp,
        (playMove_step hadm hcond hm).2, by simpa [hp, hm] using h⟩

omit hadm hcond

/-- The worker is between two events. -/
def Loc.isDispatch : Loc → Bool
  | .dispatch => true
  | _ => false

theorem Loc.eq_of_isDispatch {l : Loc} (h : l.isDispatch = true) : l = .dispatch := by
  cases l with
  | dispatch => rfl
  | _ => simp [isDispatch] at h

/-- The worker is about to run maintenance. -/
def Loc.isMaintain : Loc → Bool
  | .maintain => true
  | _ => false

theorem Loc.eq_of_isMaintain {l : Loc} (h : l.isMaintain = true) : l = .maintain := by
  cases l with
  | maintain => rfl
  | _ => simp [isMaintain] at h

/-! ## A calm environment -/

/-- Everything works, nothing is waiting, and every token stands for 1.2.3.4:80.  The SOCKS5
server accepts, and names 127.0.0.1:4660 as its relay. -/
def calm : (q : Sys) → q.Ans
  | .nowMs => (1 : Nat)
  | .malloc _ => true
  | .reserve _ => true
  | .release _ => true
  | .budgetUsed => (0 : Nat)
  | .budgetWait => ()
  | .budgetWakeRead => ()
  | .epollAdd _ _ => true
  | .epollModify _ _ => true
  | .replySocket _ => (none : Option (Nat × Bool))
  | .dup _ => (none : Option Nat)
  | .sendmmsg _ n => (.ok n : Except Errno Nat)
  | .sendto _ n => (.ok n : Except Errno Nat)
  | .recvClients _ _ => (.ok [] : Except Errno (List ClientDatagram))
  | .recvRelay _ _ => (.ok [] : Except Errno (List RelayDatagram))
  | .relaySendmmsg _ n => (.ok n : Except Errno Nat)
  | .errno => Errno.other
  | .retries => (0 : Nat)
  | .associateOpen => (some (50, true) : Option (Nat × Bool))
  | .soError _ => true
  | .controlSend _ n => (.ok n : Except Errno Nat)
  | .controlRecv _ n => (.ok (if n = 2 then [5, 0] else if n = 4 then [5, 0, 0, 1]
      else [127, 0, 0, 1, 18, 52]) : Except Errno (List UInt8))
  | .controlPeek _ => (.error .eagain : Except Errno Nat)
  | .resolve _ _ => (none : Option Sockaddr)
  | .relaySocket _ => (some 60 : Option Nat)
  | .relayConnect _ _ => true
  | .portClaim _ => true
  | .portRelease _ => ()
  | .tokenLookup _ _ _ =>
      (some ⟨.fullClient, true, some ⟨.inet, 80, [1, 2, 3, 4]⟩⟩ : Option TokenEntry)
  | .tokenPublish _ _ => true
  | .tokenDelete _ => true
  | .tokenNotify _ => ()
  | .destroyDrain => (([], false) : List UInt16 × Bool)
  | .portOpen _ => (none : Option Bool)
  | .dns _ => (⟨fun _ => ⟨none, false, false⟩, false⟩ : DnsResult)
  | .dnsDeadline => noDeadline

/-- A worker with room for one session. -/
def calmConfig : WorkerConfig :=
  { sessionCap := 1, bindingCap := 4, batchSize := 4, budgetCap := 100000, idleTimeoutMs := 1000
    connectTimeoutMs := 1000, listener4 := 3, listener6 := none, enableDnsHijack := false
    socksAddr := ⟨.inet, [4, 56, 127, 0, 0, 1]⟩, sessionCap_pos := by decide
    bindingCap_pos := by decide, batchSize_le := by decide, budgetCap_ge := by decide
    listeners_ne := by decide }

/-- 10.0.0.1:10. -/
def clientA : Sockaddr := ⟨.inet, [0, 10, 10, 0, 0, 1, 0, 0, 0, 0, 0, 0, 0, 0]⟩

/-- 10.0.0.2:11. -/
def clientB : Sockaddr := ⟨.inet, [0, 11, 10, 0, 0, 2, 0, 0, 0, 0, 0, 0, 0, 0]⟩

/-- A datagram of three bytes to a token. -/
def datagramFrom (a : Sockaddr) : ClientDatagram := ⟨a, [1, 2, 3], false, [.pktinfo4 [198, 18, 0, 1]]⟩

/-- A listener has these datagrams. -/
def receiving (l : List ClientDatagram) : (q : Sys) → q.Ans
  | .recvClients _ _ => (.ok l : Except Errno (List ClientDatagram))
  | q => calm q

/-- Undisturbed steps. -/
def steps (n : Nat) : List Move := List.replicate n (.run calm)

/-- A client sends its first datagram, up to the next wait. -/
def openMoves (a : Sockaddr) : List Move :=
  [.wake [(.listener4, .input)], .run (receiving [datagramFrom a])] ++ steps 6

/-- The handshake of the session in slot 0 completes, up to the next wait. -/
def establishMoves : List Move := .wake [(.control 0, handshakeBits)] :: steps 3

end Bpf2Socks.Udp
