/-
# Bpf2Socks.Udp.SessionRuns — the session table in every reachable state.

`SessTable.Valid` states what the table is for in its own terms: where each slot is, what the
counters count, that no two sessions share a client.  It holds in every state a worker reaches,
whatever it is answered and whichever events it is woken for; the handshake list is sorted as long
as the clock does not go back.
-/
import Bpf2Socks.Udp.Steps
import Bpf2Socks.Udp.Play
import Mathlib.Data.List.Perm.Subperm

namespace Bpf2Socks.Udp

open Lib (Prog Act DLists)
open Lib.Prog Lib.Act

variable {A : State → (q : Sys) → q.Ans → Prop} {C : Loc → State → Prop} {M : Prop}
  {cfg : WorkerConfig} {l : Loc} {s : State}

/-! ## The invariant of a run -/

theorem sessions_init (M : Prop) (cfg : WorkerConfig) : Sessions M (initState cfg) := by
  refine ⟨⟨[], [], ?_, by simp, by simp⟩, rfl, ?_, ?_, Or.inl rfl⟩
  · refine ⟨DLists.rep_empty, DLists.rep_empty, ?_, ?_, ?_, ?_, by simp, fun i => List.nodup_nil, ?_,
      ?_, ?_, ?_, rfl, rfl⟩
    · exact List.nodup_reverse.mpr List.nodup_range
    · intro k
      simp [initState, SessCore.zero]
    · intro k
      simp [initState, SessCore.zero]
    · intro k
      simp [initState, SessCore.zero]
    · intro i k
      simp [initState]
    · intro k k'
      simp
    · intro k
      simp
    · intro k
      simp [initState, SessCore.zero]
  · intro k
    simp [initState, SessCore.zero]
  · intro j k
    simp [initState, SessCore.zero]

theorem Sessions.congr {s t : State} (h : Sessions M s) (htbl : t.tbl = s.tbl) (hcfg : t.cfg = s.cfg)
    (hclock : s.trace.clock ≤ t.trace.clock) (huid : t.trace.nextUid = s.trace.nextUid)
    (harmed : t.rel.armed = s.rel.armed) : Sessions M t :=
  ⟨htbl ▸ h.whole.later hclock, by rw [htbl, hcfg]; exact h.cap,
    by rw [htbl, huid]; exact h.uid_lt, by rw [htbl]; exact h.uid_inj,
    by rw [htbl, harmed]; exact h.armed⟩

/-- The sessions and the handler's locals, in every reachable configuration. -/
theorem Reach.sessions (hclock : Clock M A) (h : Reach A C cfg l s) :
    Sessions M s ∧ AtLoc s l ∧ s.cfg = cfg := by
  refine h.invariant (I := fun l s => Sessions M s ∧ AtLoc s l ∧ s.cfg = cfg)
    ⟨sessions_init M cfg, rfl, rfl⟩ ?_ ?_
  · rintro s evs ⟨hs, hat, hcfg⟩ -
    exact ⟨⟨hs.whole, hs.cap, hs.uid_lt, hs.uid_inj, hs.armed⟩, hat, hcfg⟩
  · rintro l s ⟨hs, hat, hcfg⟩ -
    refine (step_effect hclock hs hat).mono fun s' l' he => ?_
    obtain ⟨hs', hat', hcfg'⟩ := he.sessions hs hat
    exact ⟨hs', hat', hcfg'.trans hcfg⟩

/-- An invariant of the run, from what each step does to the sessions. -/
theorem Reach.induct {I : Loc → State → Prop} (hinit : I .wait (initState cfg))
    (hwake : ∀ s evs, Sessions False s → I .wait s → wakeOk s evs = true →
      I .dispatch (collect s evs))
    (hstep : ∀ l s l' s', Sessions False s → AtLoc s l → C l s → I l s →
      Effect False l s l' s' → I l' s')
    (h : Reach A C cfg l s) : I l s := by
  refine (h.invariant (I := fun l s => (Sessions False s ∧ AtLoc s l) ∧ I l s)
    ⟨⟨sessions_init False cfg, rfl⟩, hinit⟩ ?_ ?_).2
  · rintro s evs ⟨⟨hs, hat⟩, hi⟩ hw
    exact ⟨⟨⟨hs.whole, hs.cap, hs.uid_lt, hs.uid_inj, hs.armed⟩, hat⟩, hwake s evs hs hi hw⟩
  · rintro l s ⟨⟨hs, hat⟩, hi⟩ hc
    refine (step_effect False.elim hs hat).mono fun s' l' he => ?_
    obtain ⟨hs', hat', -⟩ := he.sessions hs hat
    exact ⟨⟨hs', hat'⟩, hstep l s l' s' hs hat hc hi he⟩

/-! ## The table -/

/-- The sessions on the LRU, read off its pointers. -/
def SessTable.lruList (t : SessTable) : List Nat :=
  DLists.walk t.lru.next (t.cap + 1) (t.lru.head ())

/-- The sessions on the handshake list, read off its pointers. -/
def SessTable.handshakeList (t : SessTable) : List Nat :=
  DLists.walk t.handshake.next (t.cap + 1) (t.handshake.head ())

/-- Slot `k` is on the free list, once, and nowhere else. -/
structure SessTable.Free (t : SessTable) (k : Nat) : Prop where
  used : (t.core k).used = false
  free : t.free.count k = 1
  buckets : ∀ i, (t.buckets i).count k = 0
  lru : t.lruList.count k = 0

/-- Slot `k` is in the bucket of its client address and on the LRU, once each, and nowhere else. -/
structure SessTable.InUse (t : SessTable) (k : Nat) : Prop where
  used : (t.core k).used = true
  free : t.free.count k = 0
  buckets : ∀ i, (t.buckets i).count k =
    if i = sessionBucket (t.core k).clientAddr then 1 else 0
  lru : t.lruList.count k = 1

/-- The representation invariant of the session table. -/
structure SessTable.Valid (t : SessTable) : Prop where
  lruRep : t.lru.Rep fun _ => t.lruList
  handshakeRep : t.handshake.Rep fun _ => t.handshakeList
  place : ∀ k, k < t.cap → t.Free k ∨ t.InUse k
  bounds : ∀ k, t.cap ≤ k → k ∉ t.free ∧ (∀ i, k ∉ t.buckets i) ∧ k ∉ t.lruList ∧
    k ∉ t.handshakeList
  count : t.count = (List.range t.cap).countP fun k => (t.core k).used
  localCount : t.localCount = (List.range t.cap).countP fun k =>
    (t.core k).used && sockaddrIsLoopback (t.core k).clientAddr
  keys : ∀ j k, (t.core j).used = true → (t.core k).used = true →
    sameSockaddr (t.core j).clientAddr (t.core k).clientAddr = true → j = k
  handshake : ∀ k, t.handshakeList.count k =
    if (t.core k).used = true ∧ (t.core k).stage ≠ .ready then 1 else 0

section Valid

variable {t : SessTable} {lru hs : List Nat}

theorem SessTable.Inv.lru_perm (h : t.Inv none lru hs) :
    lru.Perm ((List.range t.cap).filter fun k => (t.core k).used) := by
  refine (List.perm_ext_iff_of_nodup h.lru_nodup (List.nodup_range.filter _)).mpr fun k => ?_
  rw [h.mem_lru]
  simp only [List.mem_filter, List.mem_range]
  exact ⟨fun hk => ⟨h.used_lt hk.1, hk.1⟩, fun hk => ⟨hk.2, by simp⟩⟩

theorem SessTable.Inv.lru_length (h : t.Inv none lru hs) : lru.length ≤ t.cap := by
  rw [h.lru_perm.length_eq]
  exact Nat.le_trans (List.length_filter_le _ _) (by simp)

theorem SessTable.Inv.lruList_eq (h : t.Inv none lru hs) : t.lruList = lru :=
  h.lruRep.walk_eq () (Nat.le_succ_of_le h.lru_length)

theorem SessTable.Inv.handshakeList_eq (h : t.Inv none lru hs) : t.handshakeList = hs := by
  refine h.hsRep.walk_eq () (Nat.le_trans ?_ (Nat.le_succ_of_le h.lru_length))
  exact (List.subperm_of_subset h.hs_nodup fun k hk => (h.mem_hs.mp hk).1).length_le

theorem SessTable.Inv.valid (h : t.Inv none lru hs) : t.Valid := by
  have hl := h.lruList_eq
  have hh := h.handshakeList_eq
  refine ⟨hl ▸ h.lruRep, hh ▸ h.hsRep, fun k hk => ?_, fun k hk => ?_, ?_, ?_, fun j k hj hk => ?_,
    fun k => ?_⟩
  · by_cases hu : (t.core k).used = true
    · have hmem : k ∈ lru := h.mem_lru.mpr ⟨hu, by simp⟩
      refine Or.inr ⟨hu, ?_, fun i => ?_, ?_⟩
      · exact List.count_eq_zero.mpr fun hf => by simp [(h.mem_free.mp hf).2.1] at hu
      · rw [(h.bucket_nodup i).count]
        simp only [h.mem_bucket, hmem, true_and]
      · rw [hl]
        exact List.count_eq_one_of_mem h.lru_nodup hmem
    · have hu' : (t.core k).used = false := by simpa using hu
      have hmem : k ∉ lru := fun hm => hu (h.mem_lru.mp hm).1
      refine Or.inl ⟨hu', ?_, fun i => ?_, ?_⟩
      · exact List.count_eq_one_of_mem h.free_nodup (h.mem_free.mpr ⟨hk, hu', by simp⟩)
      · exact List.count_eq_zero.mpr fun hb => hmem (h.mem_bucket.mp hb).1
      · rw [hl]
        exact List.count_eq_zero.mpr hmem
  · have hmem : k ∉ lru := fun hm => by
      have := h.used_lt (h.mem_lru.mp hm).1
      omega
    refine ⟨fun hf => ?_, fun i hb => hmem (h.mem_bucket.mp hb).1, hl ▸ hmem,
      hh ▸ fun hm => hmem (h.mem_hs.mp hm).1⟩
    have := (h.mem_free.mp hf).1
    omega
  · rw [h.count_eq, h.lru_perm.length_eq, List.countP_eq_length_filter]
  · rw [h.local_eq, h.lru_perm.countP_eq, List.countP_filter]
    exact List.countP_congr fun k _ => by simp [and_comm]
  · exact h.keys (h.mem_lru.mpr ⟨hj, by simp⟩) (h.mem_lru.mpr ⟨hk, by simp⟩)
  · rw [hh, h.hs_nodup.count]
    simp only [h.mem_hs, h.mem_lru]
    simp

end Valid

/-- The handshake list is sorted by the time the handshakes started. -/
def SessTable.HandshakesSorted (t : SessTable) : Prop :=
  t.handshakeList.Pairwise fun j k =>
    (t.core j).handshakeStartedMs ≤ (t.core k).handshakeStartedMs

/-- In every reachable state, between any two steps and whatever the environment answers, the
session table is whole; with a clock that never goes back the handshake list is sorted. -/
theorem session_table_valid (h : Reach A C cfg l s) :
    s.tbl.Valid ∧ s.tbl.cap = cfg.sessionCap ∧
      ((∀ s (r : Sys.Ans .nowMs), A s .nowMs r → s.trace.clock ≤ r) →
        s.tbl.HandshakesSorted) := by
  obtain ⟨hs, -, hcfg⟩ := h.sessions
    (M := ∀ s (r : Sys.Ans .nowMs), A s .nowMs r → s.trace.clock ≤ r) fun hm => hm
  obtain ⟨lru, l, hi, hl⟩ := hs.whole
  refine ⟨hi.valid, by rw [hs.cap, hcfg], fun hm => ?_⟩
  unfold SessTable.HandshakesSorted
  rw [hi.handshakeList_eq]
  exact hl.sorted hm

/-- The contract, and a clock that never goes back. -/
def okForward (s : State) (q : Sys) (r : q.Ans) : Bool :=
  okb s q r && match q, r with
    | .nowMs, (t : Nat) => s.trace.clock ≤ t
    | _, _ => true

/-- A run that opens a session, with such a clock. -/
theorem session_table_valid_run :
    ∃ l s, Reach (fun s q r => okForward s q r = true) (fun _ _ => True) calmConfig l s ∧
      (s.tbl.count == 1) = true ∧ s.tbl.Valid ∧ s.tbl.HandshakesSorted := by
  obtain ⟨l, s, h, hc⟩ := exists_reach (B := okForward) (E := fun _ _ => true)
    (A := fun s q r => okForward s q r = true) (C := fun _ _ => True)
    (g := calmConfig) (fun _ _ _ h => h) (fun _ _ _ => trivial)
    (openMoves clientA) (fun _ s => s.tbl.count == 1) (by decide +kernel)
  obtain ⟨hv, -, hs⟩ := session_table_valid h
  refine ⟨l, s, h, hc, hv, hs fun s r hr => ?_⟩
  simp only [okForward, Bool.and_eq_true, decide_eq_true_eq] at hr
  exact hr.2

end Bpf2Socks.Udp
