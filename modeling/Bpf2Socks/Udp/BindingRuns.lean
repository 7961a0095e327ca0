/-
# Bpf2Socks.Udp.BindingRuns — the binding table in every reachable state.

`BindTable.Valid` states what the table is for in its own terms: where each slot is, what the
counters count, that a session has at most one binding for a destination and that it is found.

A batch of replies holds on to its bindings by their addresses, and making room for the binding of a
later reply may evict one of them.  If the new binding then cannot be made, the batch holds a free
slot, and queueing its reply puts that slot on the LRUs.  The table is whole in every run in which
no reply evicts a binding of the batch it is collected into.
-/
import Bpf2Socks.Udp.Bookkeeping

namespace Bpf2Socks.Udp

open Function (update)
open Lib (Prog Act DLists)
open Lib.Prog Lib.Act

variable {A : State → (q : Sys) → q.Ans → Prop} {C : Loc → State → Prop}
  {P : (Nat → Prop) → Ledger → Prop} {cfg : WorkerConfig} {l : Loc} {s : State} {k b : Nat}

/-! ## The table -/

/-- The bindings on the worker's LRU, read off its pointers. -/
def BindTable.lruList (t : BindTable) : List Nat :=
  DLists.walk t.lru.next (t.cap + 1) (t.lru.head ())

/-- The bindings on the LRU of a session, read off its pointers. -/
def BindTable.ownedLruList (t : BindTable) (k : Nat) : List Nat :=
  DLists.walk t.ownedLru.next (t.cap + 1) (t.ownedLru.head k)

/-- Slot `b` is on the free list, once, and nowhere else. -/
structure BindTable.Free (t : BindTable) (b : Nat) : Prop where
  used : (t.core b).used = false
  free : t.free.count b = 1
  owned : ∀ k, (t.owned k).count b = 0
  ownedLru : ∀ k, (t.ownedLruList k).count b = 0
  lru : t.lruList.count b = 0
  index : ∀ i, (t.index i).count b = 0

/-- Slot `b` is a binding of session `k`: once on the session's list, on the session's LRU, on the
worker's LRU and in the hash chain of its key, and nowhere else. -/
structure BindTable.InUse (t : BindTable) (k b : Nat) : Prop where
  used : (t.core b).used = true
  owner : (t.core b).owner = some k
  free : t.free.count b = 0
  owned : ∀ j, (t.owned j).count b = if j = k then 1 else 0
  ownedLru : ∀ j, (t.ownedLruList j).count b = if j = k then 1 else 0
  lru : t.lruList.count b = 1
  index : ∀ i, (t.index i).count b = if i = t.bucket k (t.core b).originalDst then 1 else 0

/-- The representation invariant of the binding table. -/
structure BindTable.Valid (t : BindTable) : Prop where
  place : ∀ b, b < t.cap → t.Free b ∨ ∃ k, t.InUse k b
  bounds : ∀ b, t.cap ≤ b → (t.core b).used = false ∧ b ∉ t.free ∧ (∀ k, b ∉ t.owned k) ∧
    (∀ k, b ∉ t.ownedLruList k) ∧ b ∉ t.lruList ∧ ∀ i, b ∉ t.index i
  count : t.count = (List.range t.cap).countP fun b => (t.core b).used
  count_le : t.count ≤ t.cap
  ownedCount : ∀ k, t.ownedCount k = (List.range t.cap).countP fun b =>
    (t.core b).used && (t.core b).owner = some k
  ownedCount_le : ∀ k, t.ownedCount k ≤ t.cap
  keys : ∀ b b', (t.core b).used = true → (t.core b').used = true →
    (t.core b).owner = (t.core b').owner →
    sameDst (t.core b).originalDst (t.core b').originalDst = true → b = b'
  find : ∀ k dst b, t.indexFind k dst = some b ↔ (t.core b).used = true ∧
    (t.core b).owner = some k ∧ sameDst (t.core b).originalDst dst = true

section Valid

variable {t : BindTable} {lru : List Nat} {olru : Nat → List Nat}

theorem BindTable.Inv.lru_perm (h : t.Inv none lru olru) :
    lru.Perm ((List.range t.cap).filter fun b => (t.core b).used) := by
  refine (List.perm_ext_iff_of_nodup h.lru_nodup (List.nodup_range.filter _)).mpr fun b => ?_
  rw [h.mem_lru]
  simp only [List.mem_filter, List.mem_range]
  exact ⟨fun hb => ⟨h.used_lt hb.1, hb.1⟩, fun hb => ⟨hb.2, by simp⟩⟩

theorem BindTable.Inv.lru_length (h : t.Inv none lru olru) : lru.length ≤ t.cap := by
  rw [← h.count_eq]
  exact h.count_le

theorem BindTable.Inv.lruList_eq (h : t.Inv none lru olru) : t.lruList = lru :=
  h.lruRep.walk_eq () (Nat.le_succ_of_le h.lru_length)

theorem BindTable.Inv.olru_nodup (h : t.Inv none lru olru) (k : Nat) : (olru k).Nodup :=
  h.olruRep.nodup k

theorem BindTable.Inv.ownedLruList_eq (h : t.Inv none lru olru) (k : Nat) :
    t.ownedLruList k = olru k := by
  refine h.olruRep.walk_eq k (Nat.le_trans ?_ (Nat.le_succ_of_le h.lru_length))
  exact (List.subperm_of_subset (h.olru_nodup k) fun b hb => (h.mem_olru.mp hb).1).length_le

theorem BindTable.Inv.owned_perm (h : t.Inv none lru olru) (k : Nat) :
    (t.owned k).Perm ((List.range t.cap).filter fun b =>
      (t.core b).used && (t.core b).owner = some k) := by
  refine (List.perm_ext_iff_of_nodup (h.owned_nodup k) (List.nodup_range.filter _)).mpr fun b => ?_
  rw [h.mem_owned, h.mem_lru]
  simp only [List.mem_filter, List.mem_range, Bool.and_eq_true, decide_eq_true_eq]
  exact ⟨fun ⟨⟨hu, _⟩, ho⟩ => ⟨h.used_lt hu, hu, ho⟩, fun ⟨_, hu, ho⟩ => ⟨⟨hu, by simp⟩, ho⟩⟩

theorem BindTable.Inv.free (h : t.Inv none lru olru) (hb : b < t.cap)
    (hu : (t.core b).used = false) : t.Free b := by
  have hmem : b ∉ lru := fun hm => by simp [(h.mem_lru.mp hm).1] at hu
  refine ⟨hu, ?_, fun k => ?_, fun k => ?_, ?_, fun i => ?_⟩
  · exact List.count_eq_one_of_mem h.free_nodup (h.mem_free.mpr ⟨hb, hu, by simp⟩)
  · exact List.count_eq_zero.mpr fun hm => hmem (h.mem_owned.mp hm).1
  · rw [h.ownedLruList_eq]
    exact List.count_eq_zero.mpr (h.not_mem_olru hmem k)
  · rw [h.lruList_eq]
    exact List.count_eq_zero.mpr hmem
  · exact List.count_eq_zero.mpr fun hm => hmem (h.mem_index.mp hm).1

theorem BindTable.Inv.inUse (h : t.Inv none lru olru) (hu : (t.core b).used = true) :
    ∃ k, t.InUse k b := by
  have hmem : b ∈ lru := h.mem_lru.mpr ⟨hu, by simp⟩
  obtain ⟨k, ho⟩ := h.owner hmem
  have hone : ∀ j, (t.core b).owner = some j ↔ j = k := fun j => by
    rw [ho]
    exact ⟨fun e => (Option.some.inj e).symm, fun e => e ▸ rfl⟩
  refine ⟨k, hu, ho, ?_, fun j => ?_, fun j => ?_, ?_, fun i => ?_⟩
  · exact List.count_eq_zero.mpr fun hf => by simp [(h.mem_free.mp hf).2.1] at hu
  · rw [(h.owned_nodup j).count]
    simp only [h.mem_owned, hmem, true_and, hone]
  · rw [h.ownedLruList_eq, (h.olru_nodup j).count]
    simp only [h.mem_olru, hmem, true_and, hone]
  · rw [h.lruList_eq]
    exact List.count_eq_one_of_mem h.lru_nodup hmem
  · rw [(h.index_nodup i).count]
    simp only [h.mem_index, hmem, true_and, hone, exists_eq_left]

/-- The invariant the proofs are about says that the table is valid. -/
theorem BindTable.valid_of_inv (h : t.Inv none lru olru) : t.Valid := by
  have hl := h.lruList_eq
  refine ⟨fun b hb => ?_, fun b hb => ?_, ?_, h.count_le, fun k => ?_, fun k => ?_,
    fun b b' hu hu' => ?_, fun k dst b => ?_⟩
  · by_cases hu : (t.core b).used = true
    · exact .inr (h.inUse hu)
    · exact .inl (h.free hb (by simpa using hu))
  · have hu : (t.core b).used = false := Bool.eq_false_iff.mpr fun hu => by
      have := h.used_lt hu
      omega
    have hmem : b ∉ lru := fun hm => by simp [(h.mem_lru.mp hm).1] at hu
    refine ⟨hu, fun hf => ?_, fun k hm => hmem (h.mem_owned.mp hm).1, fun k => ?_, hl ▸ hmem,
      fun i hm => hmem (h.mem_index.mp hm).1⟩
    · have := (h.mem_free.mp hf).1
      omega
    · rw [h.ownedLruList_eq]
      exact h.not_mem_olru hmem k
  · rw [h.count_eq, h.lru_perm.length_eq, List.countP_eq_length_filter]
  · rw [h.ownedCount_eq, (h.owned_perm k).length_eq, List.countP_eq_length_filter]
  · rw [h.ownedCount_eq, (h.owned_perm k).length_eq]
    exact Nat.le_trans (List.length_filter_le _ _) (by simp)
  · exact h.unique (h.mem_lru.mpr ⟨hu, by simp⟩) (h.mem_lru.mpr ⟨hu', by simp⟩)
  · rw [h.indexFind_some, h.mem_lru]
    simp

end Valid

/-! ## Runs -/

/-- The next reply, if a binding has to be made for it, evicts none that a collected reply is for. -/
def sparesBatch : Loc → State → Bool
  | .upstream, s =>
      match s.frame.messages with
      | [] => true
      | m :: _ =>
          m.error.isSome || m.addr.family = .unspec ||
            (s.bind.indexFind s.frame.session m.addr).isSome ||
            s.frame.batch.entries.all fun e => !s.evicts e.1
  | _, _ => true

theorem sparesBatch_spare {m : Msg} {rest : List Msg} (h : sparesBatch .upstream s = true)
    (hm : s.frame.messages = m :: rest) (he : m.error = none) (hf : m.addr.family ≠ .unspec)
    (hi : s.bind.indexFind s.frame.session m.addr = none) (hb : AtHand s b) :
    s.evicts b = false := by
  obtain ⟨msg, hmem⟩ := hb
  simp only [sparesBatch, hm, he, hi, hf, Option.isSome_none, decide_false, Bool.or_false,
    Bool.false_or, List.all_eq_true, Bool.not_eq_true'] at h
  exact h (b, msg) hmem

/-- Nothing is asked of the ledger but that it is one. -/
def Anything (_ : Nat → Prop) (_ : Ledger) : Prop := True

theorem orderly_anything : Orderly Anything where
  congr _ _ _ := trivial
  fewer _ _ := trivial
  welcome _ _ := trivial
  drop _ _ _ _ := trivial
  add _ _ _ _ _ _ _ := trivial
  touch _ _ _ _ _ := trivial
  stamp _ _ _ _ _ := trivial

theorem meets_anything (h : sparesBatch l s = true) : Meets Anything l s := by
  refine ⟨fun _ _ _ _ _ => ⟨fun _ _ _ => trivial, fun _ _ _ _ _ => trivial⟩,
    fun m rest hl hm => ⟨fun _ _ _ _ _ _ _ => trivial, fun he hf hi b hb => ?_,
      fun _ _ _ _ _ _ _ => trivial⟩, fun _ _ _ _ _ _ _ => trivial⟩
  subst hl
  exact sparesBatch_spare h hm he hf hi hb

/-- In every run in which no reply evicts a binding of the batch it is collected into, the binding
table is whole between any two steps. -/
theorem binding_table_valid (hclock : Clock True A)
    (h : Reach A (fun l s => sparesBatch l s = true) cfg l s) : s.bind.Valid := by
  obtain ⟨⟨⟨g, hg, -⟩, -⟩, -⟩ := h.booked orderly_anything hclock (fun _ _ _ => trivial)
    fun l s hc _ _ => meets_anything hc
  exact BindTable.valid_of_inv hg.inv

/-- A worker with room for one binding. -/
def oneBinding : WorkerConfig := { calmConfig with bindingCap := 1, bindingCap_pos := Nat.one_pos }

/-- The relay has replies from 1.2.3.4:80 and from 5.6.7.8:80. -/
def twoReplies : (q : Sys) → q.Ans
  | .recvRelay _ _ => (.ok [⟨⟨.inet, 80, [1, 2, 3, 4]⟩, [7], none⟩, ⟨⟨.inet, 80, [5, 6, 7, 8]⟩, [8], none⟩] :
      Except Errno (List RelayDatagram))
  | q => calm q

/-- A socket can be bound to the address a reply comes from. -/
def boundReply : (q : Sys) → q.Ans
  | .replySocket _ => (some (80, false) : Option (Nat × Bool))
  | q => calm q

/-- The client's listener takes no datagram now. -/
def fullSocket : (q : Sys) → q.Ans
  | .sendmmsg _ _ => (.error .eagain : Except Errno Nat)
  | .dup _ => (some 70 : Option Nat)
  | q => calm q

theorem clock_okForward : Clock True fun s q r => okForward s q r = true := by
  intro _ s r hr
  simp only [okForward, Bool.and_eq_true, decide_eq_true_eq] at hr
  exact hr.2

/-- The session of `clientA`, which has the only binding, is established; then its relay has both
replies.  The second evicts the binding the first was collected for. -/
def evictingMoves : List Move :=
  openMoves clientA ++ establishMoves ++
    [.wake [(.relay 0, .input)], .run twoReplies, .run calm, .run calm, .run fullSocket] ++ steps 3

/-- A run in which one reply is collected and delivered. -/
theorem binding_table_valid_run :
    ∃ l s, Reach (fun s q r => okForward s q r = true) (fun l s => sparesBatch l s = true)
      calmConfig l s ∧ (s.bind.count == 2) = true ∧ s.bind.Valid := by
  obtain ⟨l, s, h, hc⟩ := exists_reach (B := okForward) (E := sparesBatch)
    (A := fun s q r => okForward s q r = true) (C := fun l s => sparesBatch l s = true)
    (g := calmConfig) (fun _ _ _ h => h) (fun _ _ h => h)
    (openMoves clientA ++ establishMoves ++ [.wake [(.relay 0, .input)], .run twoReplies,
      .run calm, .run boundReply]) (fun _ s => s.bind.count == 2) (by decide +kernel)
  exact ⟨l, s, h, hc, binding_table_valid clock_okForward h⟩

/-- With room for one binding: the second reply evicts the binding of the first, whose new one
cannot have a reply socket; the first reply is then queued for the free slot, which puts it on the
LRUs.  The next binding is made in that slot and added to them again. -/
theorem evicted_binding_listed_twice :
    ∃ l s, Reach (fun s q r => okForward s q r = true) (fun _ _ => True) oneBinding l s ∧
      ((s.bind.core 0).used = true ∧ s.bind.lruList.count 0 = 2) ∧ ¬s.bind.Valid := by
  obtain ⟨l, s, h, hc⟩ := exists_reach (B := okForward) (E := fun _ _ => true)
    (A := fun s q r => okForward s q r = true) (C := fun _ _ => True)
    (g := oneBinding) (fun _ _ _ h => h) (fun _ _ _ => trivial)
    (evictingMoves ++ [.wake [(.listener4, .input)], .run (receiving [datagramFrom clientA])] ++ steps 2)
    (fun _ s => s.bind.cap == 1 && (s.bind.core 0).used && s.bind.lruList.count 0 == 2)
    (by decide +kernel)
  simp only [Bool.and_eq_true, beq_iff_eq] at hc
  obtain ⟨⟨hcap, hu⟩, htwice⟩ := hc
  refine ⟨l, s, h, ⟨hu, htwice⟩, fun hv => ?_⟩
  rcases hv.place 0 (by omega) with hfree | ⟨k, hin⟩
  · exact Bool.false_ne_true (hfree.used.symm.trans hu)
  · have hone := hin.lru
    omega

end Bpf2Socks.Udp
