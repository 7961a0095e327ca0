/-
# Bpf2Socks.Udp.Deadlines — the worker never oversleeps.

After each round of maintenance the worker computes when it has to be up again, from the heads of
its lists: the session LRU, the handshake list, the transactions of the DNS fast path, and the
cached time of the next retry.  `udp_next_deadline` says that it mirrors the expiry walks.

A list's head stands for the whole list while the list is in order, and the cached time for all
retry times while it is a lower bound.  Both hold in every reachable state, so nobody's deadline is
missed, and what is passed to `epoll_wait` does not sleep past it.
-/
import Bpf2Socks.Dns.Deadlines
import Bpf2Socks.Udp.Retries

namespace Bpf2Socks.Udp

open Function (update update_self update_of_ne)
open Lib (Prog Act DLists InOrder)
open Lib.Prog Lib.Act
open Worker hiding get modify ask diverge

variable {A : State → (q : Sys) → q.Ans → Prop} {C : Loc → State → Prop} {cfg : WorkerConfig}
  {k : Nat} {l : Loc} {s s' t : State}

/-! ## The timeout of `epoll_wait` -/

/-- `INT_MAX`. -/
def intMax : Nat := 2147483647

/-- `BPF2SOCKS_WORKER_TIMED_WAIT_MILLISECONDS`. -/
def workerTimedWaitMilliseconds : Int := 1000

/-- `deadline_wait_timeout`. -/
def deadlineWaitTimeout (nextDeadlineMs nowMs : Nat) : Int :=
  if nextDeadlineMs = noDeadline then -1
  else if nowMs = 0 ∨ nextDeadlineMs ≤ nowMs then 0
  else
    let remaining := nextDeadlineMs - nowMs
    if remaining > intMax then intMax else remaining

/-- `min_wait_timeout`. -/
def minWaitTimeout (timeout cap : Int) : Int := if timeout < 0 ∨ timeout > cap then cap else timeout

/-- `bpf2socks_deadline_udp_wait_timeout`. -/
def udpWaitTimeout (nextDeadlineMs nowMs : Nat) (debugStats : Bool) : Int :=
  let timeout := deadlineWaitTimeout nextDeadlineMs nowMs
  if debugStats then minWaitTimeout timeout workerTimedWaitMilliseconds else timeout

/-- What a timeout asked for at time `now` does: an endless sleep only without a deadline, a sleep
never past it, and a sleep at all while it is still to come. -/
structure SleepsUntil (deadline now : Nat) (timeout : Int) : Prop where
  endless : timeout < 0 → deadline = noDeadline
  bounded : deadline ≠ noDeadline → 0 < timeout → (now : Int) + timeout ≤ deadline
  sleeps : now < deadline → timeout ≠ 0

theorem sleepsUntil_deadline {now : Nat} (hnow : now ≠ 0) (deadline : Nat) :
    SleepsUntil deadline now (deadlineWaitTimeout deadline now) := by
  unfold deadlineWaitTimeout
  by_cases hnone : deadline = noDeadline
  · rw [if_pos hnone]
    exact ⟨fun _ => hnone, by omega, by omega⟩
  · rw [if_neg hnone]
    by_cases hdue : deadline ≤ now
    · rw [if_pos (Or.inr hdue)]
      exact ⟨by omega, by omega, by omega⟩
    · rw [if_neg (by omega)]
      dsimp only
      by_cases hbig : deadline - now > intMax
      · rw [if_pos hbig]
        simp only [intMax] at hbig ⊢
        exact ⟨by omega, by omega, by omega⟩
      · rw [if_neg hbig]
        exact ⟨by omega, by omega, by omega⟩

/-- A cap only wakes the worker earlier. -/
theorem SleepsUntil.capped {deadline now : Nat} {timeout cap : Int}
    (h : SleepsUntil deadline now timeout) (hcap : 0 < cap) :
    SleepsUntil deadline now (minWaitTimeout timeout cap) := by
  unfold minWaitTimeout
  by_cases hc : timeout < 0 ∨ timeout > cap
  · rw [if_pos hc]
    refine ⟨by omega, fun hsome _ => ?_, by omega⟩
    rcases hc with hneg | hlong
    · exact absurd (h.endless hneg) hsome
    · have := h.bounded hsome (by omega)
      omega
  · rw [if_neg hc]
    exact h

theorem sleepsUntil_udp {now : Nat} (hnow : now ≠ 0) (deadline : Nat) (debugStats : Bool) :
    SleepsUntil deadline now (udpWaitTimeout deadline now debugStats) := by
  have h := sleepsUntil_deadline hnow deadline
  cases debugStats with
  | false => exact h
  | true => exact h.capped (by decide)

/-! ## The earliest deadline -/

/-- The session walk: behind the first session that is not passed over nothing is due earlier, and
those passed over are waiting for their client. -/
theorem sessionDeadline_le {lru : List Nat} (now fuel : Nat) (rest : List Nat)
    (hr : s.tbl.lru.Rep fun _ => lru) (hsuffix : rest.IsSuffix lru)
    (hused : ∀ j ∈ lru, (s.tbl.core j).used = true)
    (hsorted : rest.Pairwise fun i j => s.tbl.seenAt i ≤ s.tbl.seenAt j)
    (hfuel : rest.length < fuel) (hk : k ∈ rest) (hd : droppable s k = true) :
    ∃ m, sessionDeadline s now fuel rest.head? = some m ∧
      m ≤ s.tbl.seenAt k + s.cfg.idleTimeoutMs := by
  induction fuel generalizing rest with
  | zero => exact absurd hfuel (Nat.not_lt_zero _)
  | succ fuel ih =>
      cases rest with
      | nil => simp at hk
      | cons j rest =>
          obtain ⟨passed, hl⟩ := hsuffix
          have hj : (s.tbl.core j).used = true := hused j (by simp [← hl])
          have hnext : s.tbl.lru.next j = rest.head? := by
            obtain ⟨_, -, hseg⟩ := DLists.seg_append.mp (hl.symm ▸ hr.fwd ())
            exact hseg.2.head
          simp only [List.head?_cons, sessionDeadline, hj, if_true, hnext]
          by_cases hstop : ((s.tbl.core j).lastSeenMs + s.cfg.idleTimeoutMs > now ||
              droppable s j) = true
          · rw [if_pos hstop]
            refine ⟨_, rfl, Nat.add_le_add_right ?_ _⟩
            rcases List.mem_cons.mp hk with rfl | hk
            · exact Nat.le_refl _
            · exact (List.pairwise_cons.mp hsorted).1 k hk
          · rw [if_neg hstop]
            have hne : k ≠ j := by
              rintro rfl
              simp [hd] at hstop
            exact ih rest ⟨passed ++ [j], by simpa using hl⟩ (List.pairwise_cons.mp hsorted).2
              (Nat.lt_of_succ_lt_succ hfuel) ((List.mem_cons.mp hk).resolve_left hne)

theorem deadlineNote_le (next deadline : Nat) :
    deadlineNote next deadline ≤ next ∧ deadlineNote next deadline ≤ deadline := by
  rw [deadlineNote_eq]
  omega

/-- Noting the deadline of an element, if there is one. -/
theorem elim_deadlineNote_le {α : Type} (o : Option α) (f : α → Nat) (next : Nat) :
    o.elim next (fun a => deadlineNote next (f a)) ≤ next ∧
      ∀ a, o = some a → o.elim next (fun a => deadlineNote next (f a)) ≤ f a := by
  cases o with
  | none => exact ⟨Nat.le_refl _, fun _ h => nomatch h⟩
  | some a =>
      refine ⟨(deadlineNote_le next (f a)).1, fun b hb => ?_⟩
      obtain rfl := Option.some.inj hb
      exact (deadlineNote_le next (f a)).2

/-- The next deadline is not later than what it is made of. -/
structure NextOf (s : State) (now dns next : Nat) : Prop where
  session : ∀ m, sessionDeadline s now (s.tbl.cap + 1) (s.tbl.lru.head ()) = some m → next ≤ m
  retry : next ≤ s.rel.retryDueMs
  dns : next ≤ dns
  handshake : ∀ k, s.tbl.handshake.head () = some k →
    next ≤ (s.tbl.core k).handshakeStartedMs + s.cfg.connectTimeoutMs

theorem nextOf_udpNextDeadline (s : State) (now dns : Nat) :
    NextOf s now dns (udpNextDeadline s now dns) := by
  let next₁ := (sessionDeadline s now (s.tbl.cap + 1) (s.tbl.lru.head ())).elim noDeadline
    fun m => deadlineNote noDeadline m
  let next₂ := deadlineNote next₁ s.rel.retryDueMs
  let next₃ := (bindingDeadline s now (s.bind.cap + 1) (s.bind.lru.head ())).elim next₂
    fun m => deadlineNote next₂ m
  let next₄ := deadlineNote next₃ dns
  have h₁ := elim_deadlineNote_le (sessionDeadline s now (s.tbl.cap + 1) (s.tbl.lru.head ()))
    (fun m => m) noDeadline
  have h₂ := deadlineNote_le next₁ s.rel.retryDueMs
  have h₃ := elim_deadlineNote_le (bindingDeadline s now (s.bind.cap + 1) (s.bind.lru.head ()))
    (fun m => m) next₂
  have h₄ := deadlineNote_le next₃ dns
  have h₅ := elim_deadlineNote_le (s.tbl.handshake.head ())
    (fun k => (s.tbl.core k).handshakeStartedMs + s.cfg.connectTimeoutMs) next₄
  have h₅₃ := Nat.le_trans h₅.1 h₄.1
  have h₅₂ := Nat.le_trans h₅₃ h₃.1
  refine ⟨fun m hm => ?_, Nat.le_trans h₅₂ h₂.2, Nat.le_trans h₅.1 h₄.2, h₅.2⟩
  exact Nat.le_trans (Nat.le_trans h₅₂ h₂.1) (h₁.2 m hm)

/-! ## Nobody's deadline is missed -/

/-- The worker `s`, with the fast path `d`, wakes up in time for everyone. -/
structure InTime (s : State) (d : Dns.State) : Prop where
  idle : ∀ k, (s.tbl.core k).used = true → droppable s k = true →
    s.nextDeadlineMs ≤ s.tbl.seenAt k + s.cfg.idleTimeoutMs
  handshake : ∀ k, (s.tbl.core k).used = true → (s.tbl.core k).stage ≠ .ready →
    s.nextDeadlineMs ≤ (s.tbl.core k).handshakeStartedMs + s.cfg.connectTimeoutMs
  retry : ∀ k, (s.tbl.core k).used = true → s.retryAt k ≠ 0 → s.nextDeadlineMs ≤ s.retryAt k
  transaction : ∀ i < d.table.capacity, (d.table.transactions i).used = true →
    s.nextDeadlineMs ≤ (d.table.transactions i).sentAtMs + d.cfg.transactionTimeoutMs
  channel : ∀ c < Dns.channelsPerWorker, (d.channels c).Shaking →
    s.nextDeadlineMs ≤ (d.channels c).stageStartedMs + Dns.handshakeTimeoutMs

/-- In a state whose lists are in order and whose retries are noted. -/
theorem Settled.inTime {d : Dns.State} {u : Nat} (h : Settled s) (hd : Dns.AgedBy u d) (now : Nat) :
    InTime { s with nextDeadlineMs := udpNextDeadline s now d.nextDeadline } d := by
  obtain ⟨lru, hs, hi, hl⟩ := h.holding.sessions.whole
  have hnext := nextOf_udpNextDeadline s now d.nextDeadline
  refine ⟨fun k hu hdrop => ?_, fun k hu hst => ?_, fun k hu hne => ?_, fun i hi hu => ?_,
    fun c hc hs => ?_⟩
  · have hmem : k ∈ lru := hi.mem_lru.mpr ⟨hu, by simp⟩
    obtain ⟨m, hm, hle⟩ := sessionDeadline_le now (s.tbl.cap + 1) lru hi.lruRep
      (List.suffix_refl _) (fun j hj => (hi.mem_lru.mp hj).1) (h.holding.aged lru hi.lruRep).sorted
      (Nat.lt_succ_of_le hi.lru_length) hmem hdrop
    rw [← hi.lruRep.head_eq ()] at hm
    exact Nat.le_trans (hnext.session m hm) hle
  · have hmem : k ∈ hs := hi.mem_hs.mpr ⟨hi.mem_lru.mpr ⟨hu, by simp⟩, hst⟩
    obtain ⟨j, rest, rfl⟩ := List.exists_cons_of_ne_nil (List.ne_nil_of_mem hmem)
    have hfirst : (s.tbl.core j).handshakeStartedMs ≤ (s.tbl.core k).handshakeStartedMs := by
      rcases List.mem_cons.mp hmem with rfl | hmem
      · exact Nat.le_refl _
      · exact (List.pairwise_cons.mp (hl.sorted trivial)).1 k hmem
    refine Nat.le_trans (hnext.handshake j ?_) (Nat.add_le_add_right hfirst _)
    rw [hi.hsRep.head_eq ()]
    rfl
  · exact Nat.le_trans hnext.retry (h.noted k hu hne)
  · exact Nat.le_trans hnext.dns (hd.nextDeadline_le hi hu)
  · exact Nat.le_trans hnext.dns (Dns.nextDeadline_le_channel hc hs)

/-- The fast path's part of the next deadline is computed from `d`. -/
def AnsweredFrom (d : Dns.State) : (q : Sys) → q.Ans → Prop
  | .dnsDeadline, (dns : Nat) => dns = d.nextDeadline
  | _, _ => True

/-- With a clock that does not go back, in every reachable state and for every state the fast path
can be in: after maintenance the next deadline is not later than anybody's, and the timeout
computed from it neither sleeps past it nor returns at once while it is still to come. -/
theorem worker_never_oversleeps {d : Dns.State} {dcfg : Dns.Config} {u : Nat}
    (hclock : ∀ s (r : Sys.Ans .nowMs), A s .nowMs r → s.trace.clock ≤ r)
    (h : Reach A C cfg .maintain s) (hd : Dns.ReachAt dcfg u d) :
    Sat (fun s q r => A s q r ∧ AnsweredFrom d q r)
      (fun s' _ => InTime s' d ∧ ∀ now debugStats, now ≠ 0 →
        SleepsUntil s'.nextDeadlineMs now (udpWaitTimeout s'.nextDeadlineMs now debugStats))
      (step .maintain s) := by
  have hs : Settled s := h.settled fun _ => hclock
  refine (runMaintenance_ends hs).mono fun s' _ hend => ?_
  obtain ⟨w, now, dns, ⟨-, hdns⟩, hw, rfl⟩ := hend
  have heq : dns = d.nextDeadline := hdns
  subst heq
  exact ⟨hw.inTime hd.aged now, fun now debugStats hnow => sleepsUntil_udp hnow _ debugStats⟩

/-- A run that opens a session, up to maintenance, while both channels of the fast path connect. -/
theorem worker_never_oversleeps_run :
    ∃ s d, Reach (fun s q r => okClock s q r = true) (fun _ _ => True) calmConfig .maintain s ∧
      (s.tbl.count == 1) = true ∧ (d.channels 0).stage = .connecting ∧
      Sat (fun s q r => okClock s q r = true ∧ AnsweredFrom d q r)
        (fun s' _ => InTime s' d ∧ ∀ now debugStats, now ≠ 0 →
          SleepsUntil s'.nextDeadlineMs now (udpWaitTimeout s'.nextDeadlineMs now debugStats))
        (step .maintain s) := by
  obtain ⟨l, s, h, hc⟩ := exists_reach (B := okClock) (E := fun _ _ => true)
    (A := fun s q r => okClock s q r = true) (C := fun _ _ => True)
    (g := calmConfig) (fun _ _ _ h => h) (fun _ _ _ => trivial)
    ([.wake [(.listener4, .input)], .run (receiving [datagramFrom clientA])] ++ steps 5)
    (fun l s => l.isMaintain && s.tbl.count == 1) (by decide +kernel)
  simp only [Bool.and_eq_true] at hc
  obtain rfl := Loc.eq_of_isMaintain hc.1
  obtain ⟨d, hd, hstage, -⟩ := Dns.exists_shaking
  have hclock : ∀ s (r : Sys.Ans .nowMs), okClock s .nowMs r = true → s.trace.clock ≤ r :=
    fun s r hr => by
      simp only [okClock, okForward, Bool.and_eq_true, decide_eq_true_eq] at hr
      exact hr.1.2
  exact ⟨s, d, h, hc.2, hstage, worker_never_oversleeps hclock h hd⟩

end Bpf2Socks.Udp
