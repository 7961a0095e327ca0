/-
# Bpf2Socks.Dns.Overdue — which transactions expire, and which channels are blamed.

Expiry walks the list of transactions from its oldest end, releases at most a given number of those
that have waited as long as the timeout, and marks the channel of a released transaction whose
generation is still the channel's: nothing was answered there since it was sent.  The marked
channels are then closed, to be rebuilt.

A `History` runs beside the table and counts, for each slot, the responses noted on its channel
since it was last filled, and numbers the allocations.  It says which transactions are oldest
without the list, and what the generations stand for: a count of responses modulo 2^64.
-/
import Mathlib.Data.List.Perm.Basic
import Bpf2Socks.Dns.Answers

namespace Bpf2Socks.Dns

open Function (update update_self update_of_ne)
open Lib (Prog)
open Udp (ClientPacket)
open Fast

/-! ## What is overdue -/

/-- In use, and sent at least the timeout ago. -/
def Transaction.overdue (tx : Transaction) (nowMs timeoutMs : Nat) : Bool :=
  tx.used && decide (tx.sentAtMs + timeoutMs ≤ nowMs)

/-- The number of overdue transactions of a table. -/
def Table.overdueCount (t : Table) (nowMs timeoutMs : Nat) : Nat :=
  (List.range t.capacity).countP fun i => (t.transactions i).overdue nowMs timeoutMs

/-- The list holds every transaction in use, so it holds the overdue ones. -/
theorem Table.Inv.overdueCount {t : Table} {hole : Option Nat} {l : List Nat} (h : t.Inv hole l)
    (now timeout : Nat) :
    t.overdueCount now timeout = l.countP fun i => (t.transactions i).overdue now timeout := by
  have hperm : ((List.range t.capacity).filter fun i => (t.transactions i).used).Perm l := by
    refine (List.perm_ext_iff_of_nodup (List.nodup_range.filter _) h.nodup).mpr fun i => ?_
    rw [List.mem_filter, List.mem_range, h.mem]
  rw [← hperm.countP_eq, List.countP_filter]
  refine List.countP_congr fun i _ => ?_
  rcases hu : (t.transactions i).used <;> simp [Transaction.overdue, hu]

/-! ## One expiry -/

section Expire

variable {t : Table} {l : List Nat} {now timeout last : Nat}

/-- The transaction at the end of the walk is not overdue, or it is and is released. -/
theorem Table.expireFrom_cons {i n : Nat} {rest : List Nat} {stale : List Bool}
    (h : t.Inv none (i :: rest)) (ha : t.Aged (i :: rest) last) (hlast : last ≤ now) :
    Table.expireFrom now timeout (n + 1) t stale =
      if (t.transactions i).overdue now timeout then
        let r := Table.expireFrom now timeout n (t.release i)
          (if (t.transactions i).channelIndex < t.channelCount ∧ (t.transactions i).responseGeneration =
              t.responseGenerations (t.transactions i).channelIndex
            then stale.set (t.transactions i).channelIndex.toNat true else stale)
        (r.1, r.2.1 + 1, r.2.2)
      else (t, 0, stale) := by
  have hu := (h.mem.mp (List.mem_cons_self (a := i) (l := rest))).2
  have hpast : (t.transactions i).sentAtMs ≤ now :=
    Nat.le_trans (ha.past i List.mem_cons_self) hlast
  have hhead : t.lru.head () = some i := h.head_eq
  rw [Table.expireFrom, hhead]
  simp only [hu, Transaction.overdue, Bool.true_and, decide_eq_true_eq, Table.release]
  by_cases hdue : (t.transactions i).sentAtMs + timeout ≤ now
  · rw [if_neg (by simp; omega), if_pos hdue]
  · rw [if_pos (by simp; omega), if_neg hdue]

/-- What an expiry does: the first `k` of the list are zeroed, and a flag is set by each of them
that still has its channel's generation. -/
structure Table.Expired (t : Table) (l : List Nat) (stale : List Bool) (k : Nat) (t' : Table)
    (stale' : List Bool) : Prop where
  inv : t'.Inv none (l.drop k)
  gone : ∀ i ∈ l.take k, t'.transactions i = .zero
  kept : ∀ i, i ∉ l.take k → t'.transactions i = t.transactions i
  generations : t'.responseGenerations = t.responseGenerations
  size : t.SameSize t'
  length : stale'.length = stale.length
  flags : ∀ c : UInt32, c.toNat < stale.length → (stale'.getD c.toNat false = true ↔
    stale.getD c.toNat false = true ∨ ∃ i ∈ l.take k, (t.transactions i).channelIndex = c ∧
      (t.transactions i).responseGeneration = t.responseGenerations c)

theorem Table.Expired.nothing (h : t.Inv none l) (stale : List Bool) :
    t.Expired l stale 0 t stale :=
  ⟨h, by simp, fun _ _ => rfl, rfl, ⟨rfl, rfl⟩, rfl, by simp⟩

theorem Table.releaseIndex_generations (t : Table) (i : Nat) (b : Bool) :
    (t.releaseIndex i b).responseGenerations = t.responseGenerations := by
  rcases t.releaseIndex_cases i b with h | ⟨-, -, free, h⟩
  · rw [h]
  · rw [h]
    rfl

theorem Table.release_zero {i : Nat} (hi : i < t.capacity) (hu : (t.transactions i).used = true) :
    (t.release i).transactions i = .zero := by
  rcases t.releaseIndex_cases i true with h | ⟨-, -, free, h⟩
  · have hgone := Table.release_self hi
    rw [Table.release, h, hu] at hgone
    exact absurd hgone.symm Bool.false_ne_true
  · rw [Table.release, h]
    exact update_self _ _ _

/-- One more at the front. -/
theorem Table.Expired.cons {i k : Nat} {rest : List Nat} {stale stale' : List Bool} {t' : Table}
    (h : t.Inv none (i :: rest))
    (hrest : (t.release i).Expired rest
      (if (t.transactions i).channelIndex < t.channelCount ∧ (t.transactions i).responseGeneration =
          t.responseGenerations (t.transactions i).channelIndex
        then stale.set (t.transactions i).channelIndex.toNat true else stale) k t' stale') :
    t.Expired (i :: rest) stale (k + 1) t' stale' := by
  obtain ⟨hlt, hu⟩ := h.mem.mp (List.mem_cons_self (a := i) (l := rest))
  have hnot : i ∉ rest := (List.nodup_cons.mp h.nodup).1
  have hch := h.channel i List.mem_cons_self
  have hne : ∀ j ∈ rest.take k, j ≠ i := fun j hj he => hnot (he ▸ List.mem_of_mem_take hj)
  have hsame : ∀ j ∈ rest.take k, (t.release i).transactions j = t.transactions j :=
    fun j hj => Table.release_transactions (hne j hj)
  have hlen : ∀ (b : Prop) [Decidable b] (m : Nat),
      (if b then stale.set m true else stale).length = stale.length := by
    intro b _ m
    split <;> simp
  refine ⟨hrest.inv, fun j hj => ?_, fun j hj => ?_,
    hrest.generations.trans (t.releaseIndex_generations i true),
    ⟨hrest.size.capacity.trans (t.release_capacity i),
      hrest.size.channelCount.trans (t.release_channelCount i)⟩,
    hrest.length.trans (hlen _ _), fun c hc => ?_⟩
  · rcases List.mem_cons.mp hj with rfl | hj
    · rw [hrest.kept j fun hmem => hnot (List.mem_of_mem_take hmem)]
      exact Table.release_zero hlt hu
    · exact hrest.gone j hj
  · have hj : j ∉ i :: rest.take k := hj
    rw [List.mem_cons, not_or] at hj
    rw [hrest.kept j hj.2]
    exact Table.release_transactions hj.1
  · -- the flags of the rest, and the flag of the first
    rw [hrest.flags c (by rwa [hlen]), Table.release, t.releaseIndex_generations i true,
      ← Table.release]
    simp only [hch, true_and]
    show _ ↔ _ ∨ ∃ j ∈ i :: rest.take k, _
    rw [List.exists_mem_cons_iff]
    have hlater : (∃ j ∈ rest.take k, ((t.release i).transactions j).channelIndex = c ∧
        ((t.release i).transactions j).responseGeneration = t.responseGenerations c) ↔
        ∃ j ∈ rest.take k, (t.transactions j).channelIndex = c ∧
          (t.transactions j).responseGeneration = t.responseGenerations c := by
      refine exists_congr fun j => and_congr_right fun hj => ?_
      rw [hsame j hj]
    rw [hlater, ← or_assoc]
    refine or_congr ?_ Iff.rfl
    by_cases hown : (t.transactions i).channelIndex = c
    · subst hown
      by_cases hgen : (t.transactions i).responseGeneration =
          t.responseGenerations (t.transactions i).channelIndex
      · rw [if_pos hgen]
        simp [hgen, List.getD_eq_getElem?_getD, List.getElem?_set_self hc]
      · rw [if_neg hgen]
        simp [hgen]
    · have hoff : (t.transactions i).channelIndex.toNat ≠ c.toNat :=
        fun he => hown (UInt32.toNat_inj.mp he)
      simp only [hown, false_and, or_false]
      split
      · rw [List.getD_eq_getElem?_getD, List.getElem?_set_ne hoff, ← List.getD_eq_getElem?_getD]
      · exact Iff.rfl

/-- An expiry takes the overdue ones from the front of the list, as many as it may. -/
theorem Table.expireFrom_spec (timeout n : Nat) (h : t.Inv none l) (ha : t.Aged l last)
    (hlast : last ≤ now) (stale : List Bool) :
    ∃ k, k = min n (l.countP fun i => (t.transactions i).overdue now timeout) ∧
      (Table.expireFrom now timeout n t stale).2.1 = k ∧
      t.Expired l stale k (Table.expireFrom now timeout n t stale).1
        (Table.expireFrom now timeout n t stale).2.2 ∧
      ∀ i ∈ l.take k, (t.transactions i).overdue now timeout = true := by
  induction n generalizing t l stale with
  | zero => exact ⟨0, by simp, rfl, .nothing h stale, by simp⟩
  | succ n ih =>
      rcases l with _ | ⟨i, rest⟩
      · have hhead : t.lru.head () = none := h.head_eq
        rw [Table.expireFrom, hhead]
        exact ⟨0, by simp, rfl, .nothing h stale, by simp⟩
      · rw [Table.expireFrom_cons h ha hlast]
        have hnot : i ∉ rest := (List.nodup_cons.mp h.nodup).1
        by_cases hdue : (t.transactions i).overdue now timeout = true
        · rw [if_pos hdue]
          have hrel : (t.release i).Inv none rest := by
            have := h.release i
            rwa [List.erase_cons_head] at this
          have hage : (t.release i).Aged rest last := by
            have := ha.erase h.nodup fun j hj => Table.release_transactions (t := t) (i := i) hj
            rwa [List.erase_cons_head] at this
          have hsame : ∀ j ∈ rest, (t.release i).transactions j = t.transactions j :=
            fun j hj => Table.release_transactions fun he => hnot (he ▸ hj)
          obtain ⟨k, hk, hcount, hexp, hall⟩ := ih hrel hage _
          refine ⟨k + 1, ?_, by rw [← hcount], hexp.cons h, fun j hj => ?_⟩
          · have hfirst : (i :: rest).countP (fun j => (t.transactions j).overdue now timeout) =
                rest.countP (fun j => (t.transactions j).overdue now timeout) + 1 :=
              List.countP_cons_of_pos hdue
            rw [hk, hfirst, Nat.add_min_add_right,
              List.countP_congr fun j hj => by rw [hsame j hj]]
          · rcases List.mem_cons.mp hj with rfl | hj
            · exact hdue
            · rw [← hsame j (List.mem_of_mem_take hj)]
              exact hall j hj
        · -- nothing after it is older
          rw [if_neg hdue]
          have hnone : (i :: rest).countP
              (fun i => (t.transactions i).overdue now timeout) = 0 := by
            refine List.countP_eq_zero.mpr fun j hj hjdue => hdue ?_
            rcases List.mem_cons.mp hj with rfl | hj
            · exact hjdue
            · have hle := (List.pairwise_cons.mp ha.sorted).1 j hj
              have hu := (h.mem.mp (List.mem_cons_self (a := i) (l := rest))).2
              simp only [Transaction.overdue, Bool.and_eq_true, decide_eq_true_eq] at hjdue ⊢
              exact ⟨hu, by omega⟩
          exact ⟨0, by rw [hnone]; simp, rfl, .nothing h stale, by simp⟩

end Expire

/-! ## Histories -/

/-- What a table does not record: `filled` numbers the allocation that last filled a slot, and
`responses` counts those noted on its channel since. -/
structure History where
  allocations : Nat
  filled : Nat → Nat
  responses : Nat → Nat

/-- Nothing has happened. -/
def History.start : History := ⟨0, fun _ => 0, fun _ => 0⟩

/-- The fields a caller writes into the transaction it was given. -/
def Table.address (t : Table) (slot : Nat) (p : ClientPacket) : Table :=
  { t with
    transactions := update t.transactions slot
      { t.transactions slot with
        clientAddr := p.clientAddr, originalDst := p.originalDst, tokenFamily := p.tokenFamily
        tokenAddr := p.tokenAddr.take (if p.tokenFamily = .inet6 then 16 else 4)
        connectedUdpToken := p.connectedUdpToken, originalFromSocket := p.originalFromSocket } }

/-- What a worker does to its table: a call, or naming the client of a transaction. -/
inductive Use where
  | call (op : Op)
  | address (slot : Nat) (p : ClientPacket)

/-- The time a use is given. -/
def Use.nowMs : Use → Option Nat
  | .call op => op.nowMs
  | .address _ _ => none

/-- The table after a use. -/
def Table.use (t : Table) : Use → Table
  | .call op => t.apply op
  | .address slot p => t.address slot p

/-- The history after a use of `t`. -/
def Table.record (t : Table) (h : History) : Use → History
  | .call (.alloc preferred originalId fingerprint now) =>
      match (t.alloc preferred originalId fingerprint now).2 with
      | .ok slot =>
          { allocations := h.allocations + 1, filled := update h.filled slot h.allocations
            responses := update h.responses slot 0 }
      | .error _ => h
  | .call (.noteResponse c) =>
      { h with
        responses := fun i =>
          if (t.transactions i).channelIndex = c then h.responses i + 1 else h.responses i }
  | _ => h

/-- The table and its history after a sequence of uses. -/
def Table.recorded (t : Table) (h : History) : List Use → Table × History
  | [] => (t, h)
  | u :: us => (t.use u).recorded (t.record h u) us

/-- The list is in the order of the allocations, and a transaction is as many generations behind
its channel as responses were noted there since it was filled. -/
structure Table.Recorded (t : Table) (h : History) (l : List Nat) : Prop where
  order : l.Pairwise fun i j => h.filled i < h.filled j
  recent : ∀ i ∈ l, h.filled i < h.allocations
  counted : ∀ i ∈ l, t.responseGenerations (t.transactions i).channelIndex =
    (t.transactions i).responseGeneration + UInt64.ofNat (h.responses i)

/-- A table in use, with its list and its history. -/
structure Table.Live (t : Table) (h : History) (l : List Nat) (last : Nat) : Prop where
  inv : t.Inv none l
  aged : t.Aged l last
  recorded : t.Recorded h l
  nonempty : 0 < t.capacity

/-- Fewer transactions, none changed. -/
theorem Table.Recorded.sublist {t t' : Table} {h : History} {l l' : List Nat}
    (hr : t.Recorded h l) (hsub : l'.Sublist l)
    (htx : ∀ i ∈ l', t'.transactions i = t.transactions i)
    (hgen : t'.responseGenerations = t.responseGenerations) : t'.Recorded h l' :=
  ⟨hr.order.sublist hsub, fun i hi => hr.recent i (hsub.mem hi), fun i hi => by
    rw [htx i hi, hgen]
    exact hr.counted i (hsub.mem hi)⟩

theorem Table.Aged.sublist {t t' : Table} {l l' : List Nat} {last : Nat} (ha : t.Aged l last)
    (hsub : l'.Sublist l) (htx : ∀ i ∈ l', t'.transactions i = t.transactions i) :
    t'.Aged l' last := by
  refine ⟨(ha.sorted.sublist hsub).imp_of_mem fun hi hj hij => ?_, fun i hi => ?_⟩
  · rw [htx _ hi, htx _ hj]
    exact hij
  · rw [htx i hi]
    exact ha.past i (hsub.mem hi)

/-- A generation is the channel's when the responses since are a multiple of 2^64. -/
theorem Table.Recorded.generation_iff {t : Table} {h : History} {l : List Nat} {i : Nat}
    (hr : t.Recorded h l) (hi : i ∈ l) :
    (t.transactions i).responseGeneration = t.responseGenerations (t.transactions i).channelIndex ↔
      2 ^ 64 ∣ h.responses i := by
  rw [hr.counted i hi, eq_comm, UInt64.add_eq_left, ← UInt64.toNat_inj, UInt64.toNat_ofNat']
  exact (Nat.dvd_iff_mod_eq_zero ..).symm

/-! ## Allocation at any capacity -/

section Alloc

variable {t t' : Table} {l : List Nat} {slot last now : Nat} {channel preferred : UInt32}
  {id : UInt16}

theorem Table.takeSlot_generations (h : t.takeSlot = some (t', slot)) :
    t'.responseGenerations = t.responseGenerations := by
  unfold Table.takeSlot at h
  rcases hf : t.free with _ | ⟨i, rest⟩
  · rw [hf] at h
    obtain ⟨i, -, hi⟩ := Option.map_eq_some_iff.mp h
    obtain ⟨rfl, rfl⟩ := Prod.mk.inj hi
    exact t.releaseIndex_generations i false
  · rw [hf] at h
    obtain ⟨rfl, rfl⟩ := Prod.mk.inj (Option.some.inj h)
    rfl

/-- Whatever channel is selected exists, and the id is free there. -/
theorem Table.selectId_some (hch : preferred < t.channelCount)
    (h : t.selectId preferred = some (t', channel, id)) :
    channel < t.channelCount ∧ t.lookup (lookupOffset channel id) = none ∧
      ∃ next, t' = { t with nextIds := next } := by
  obtain ⟨attempt, -, hfound⟩ := List.exists_of_findSome?_eq_some h
  obtain ⟨⟨u, id'⟩, halloc, heq⟩ := Option.map_eq_some_iff.mp hfound
  obtain ⟨rfl, hrest⟩ := Prod.mk.inj heq
  obtain ⟨rfl, rfl⟩ := Prod.mk.inj hrest
  obtain ⟨id', hscan, hid⟩ := Option.map_eq_some_iff.mp halloc
  obtain ⟨rfl, rfl⟩ := Prod.mk.inj hid
  refine ⟨?_, Table.scanId_some hscan, _, rfl⟩
  rw [UInt32.lt_iff_toNat_lt, UInt32.toNat_mod]
  exact Nat.mod_lt _ (Nat.lt_of_le_of_lt (Nat.zero_le _) (UInt32.lt_iff_toNat_lt.mp hch))

/-- What a successful allocation leaves, as far as expiry is concerned. -/
structure Table.Filled (t : Table) (l : List Nat) (now : Nat) (t' : Table) (slot : Nat) :
    Prop where
  inv : t'.Inv none (l.erase slot ++ [slot])
  size : t.SameSize t'
  generations : t'.responseGenerations = t.responseGenerations
  others : ∀ j, j ≠ slot → t'.transactions j = t.transactions j
  sent : (t'.transactions slot).sentAtMs = now
  generation : (t'.transactions slot).responseGeneration =
    t.responseGenerations (t'.transactions slot).channelIndex

/-- A table that lost transactions at most. -/
structure Table.Fewer (t : Table) (l : List Nat) (t' : Table) (l' : List Nat) : Prop where
  inv : t'.Inv none l'
  sublist : l'.Sublist l
  size : t.SameSize t'
  generations : t'.responseGenerations = t.responseGenerations
  kept : ∀ i ∈ l', t'.transactions i = t.transactions i

theorem Table.Expired.fewer {k : Nat} {stale stale' : List Bool}
    (he : t.Expired l stale k t' stale') (h : t.Inv none l) : t.Fewer l t' (l.drop k) := by
  refine ⟨he.inv, List.drop_sublist k l, he.size, he.generations, fun i hi => he.kept i fun hm => ?_⟩
  have hnd := h.nodup
  rw [← List.take_append_drop k l] at hnd
  exact (List.nodup_append.mp hnd).2.2 i hm i hi rfl

/-- At any capacity an allocation fills a slot, or fails and has evicted a transaction at most. -/
theorem Table.Inv.alloc_outcome (h : t.Inv none l) (hpos : 0 < t.capacity) (preferred : UInt32)
    (originalId : UInt16) (fingerprint : UInt32) (now : Nat) :
    (∃ slot, (t.alloc preferred originalId fingerprint now).2 = .ok slot ∧
      t.Filled l now (t.alloc preferred originalId fingerprint now).1 slot) ∨
    ∃ e l', (t.alloc preferred originalId fingerprint now).2 = .error e ∧
      t.Fewer l (t.alloc preferred originalId fingerprint now).1 l' := by
  unfold Table.alloc
  by_cases hch : preferred ≥ t.channelCount
  · rw [if_pos hch]
    exact Or.inr ⟨_, l, rfl, h, List.Sublist.refl l, ⟨rfl, rfl⟩, rfl, fun _ _ => rfl⟩
  · rw [if_neg hch]
    obtain ⟨u, slot, htake, hinv, hlt, hu, hcap, hcount, hothers, -⟩ := h.takeSlot hpos
    have hgen := Table.takeSlot_generations htake
    have hslot : slot < u.capacity := hcap.symm ▸ hlt
    have hnot : slot ∉ l.erase slot := fun hs => (h.nodup.mem_erase_iff.mp hs).1 rfl
    rw [htake]
    rcases hsel : u.selectId preferred with _ | ⟨v, channel, id⟩
    · -- no id on any channel: the slot goes back to the free stack
      simp only [hsel, hinv.free_lt hslot, if_true]
      refine Or.inr ⟨_, l.erase slot, rfl, hinv.pushFree hslot hu, List.erase_sublist,
        ⟨hcap, hcount⟩, hgen, fun i hi => hothers i fun he => hnot (he ▸ hi)⟩
    · simp only [hsel]
      obtain ⟨hchan, hfree, next, rfl⟩ :=
        Table.selectId_some (hcount.symm ▸ UInt32.not_le.mp hch) hsel
      have hinv' : Table.Inv { u with nextIds := next } (some slot) (l.erase slot) :=
        hinv.congr rfl rfl rfl rfl rfl rfl
      refine Or.inl ⟨slot, rfl, hinv'.fill hslot hu hchan hfree originalId fingerprint now,
        ⟨hcap, hcount⟩, hgen, fun j hj => (update_of_ne hj _ _).trans (hothers j hj), ?_, ?_⟩
      · simp [Table.fill]
      · simp [Table.fill, hgen]

end Alloc

/-! ## Runs -/

section Runs

variable {t t' : Table} {hist : History} {l l' : List Nat} {last now : Nat}

theorem Table.Fewer.live (hf : t.Fewer l t' l') (h : t.Live hist l last) :
    t'.Live hist l' last :=
  ⟨hf.inv, h.aged.sublist hf.sublist hf.kept, h.recorded.sublist hf.sublist hf.kept hf.generations,
    hf.size.capacity.symm ▸ h.nonempty⟩

theorem Table.Live.later (h : t.Live hist l last) (hle : last ≤ now) : t.Live hist l now :=
  { h with aged := h.aged.later hle }

/-- A filled slot is the youngest, and nothing was answered since. -/
theorem Table.Filled.live {slot : Nat} (hf : t.Filled l now t' slot) (h : t.Live hist l last)
    (hle : last ≤ now) :
    t'.Live
      { allocations := hist.allocations + 1, filled := update hist.filled slot hist.allocations
        responses := update hist.responses slot 0 } (l.erase slot ++ [slot]) now := by
  have hne : ∀ i ∈ l.erase slot, i ∈ l ∧ i ≠ slot := fun i hi =>
    (h.inv.nodup.mem_erase_iff.mp hi).symm
  have hage := h.aged.erase h.inv.nodup hf.others
  refine ⟨hf.inv, ⟨List.pairwise_append.mpr ⟨hage.sorted, by simp, fun i hi j hj => ?_⟩,
    fun i hi => ?_⟩, ⟨List.pairwise_append.mpr ⟨?_, by simp, fun i hi j hj => ?_⟩,
    fun i hi => ?_, fun i hi => ?_⟩, hf.size.capacity.symm ▸ h.nonempty⟩
  · obtain rfl := List.mem_singleton.mp hj
    rw [hf.sent]
    exact Nat.le_trans (hage.past i hi) hle
  · rcases List.mem_append.mp hi with hi | hi
    · exact Nat.le_trans (hage.past i hi) hle
    · obtain rfl := List.mem_singleton.mp hi
      exact Nat.le_of_eq hf.sent
  · refine (h.recorded.order.sublist List.erase_sublist).imp_of_mem fun hi hj hij => ?_
    show update hist.filled slot _ _ < update hist.filled slot _ _
    rw [update_of_ne (hne _ hi).2, update_of_ne (hne _ hj).2]
    exact hij
  · obtain rfl := List.mem_singleton.mp hj
    show update hist.filled _ _ _ < update hist.filled _ _ _
    rw [update_of_ne (hne i hi).2, update_self]
    exact h.recorded.recent i (hne i hi).1
  · show update hist.filled slot _ i < hist.allocations + 1
    rcases List.mem_append.mp hi with hi | hi
    · rw [update_of_ne (hne i hi).2]
      exact Nat.lt_succ_of_lt (h.recorded.recent i (hne i hi).1)
    · obtain rfl := List.mem_singleton.mp hi
      rw [update_self]
      exact Nat.lt_succ_self _
  · show _ = _ + UInt64.ofNat (update hist.responses slot 0 i)
    rw [hf.generations]
    rcases List.mem_append.mp hi with hi | hi
    · rw [update_of_ne (hne i hi).2, hf.others i (hne i hi).2]
      exact h.recorded.counted i (hne i hi).1
    · obtain rfl := List.mem_singleton.mp hi
      rw [update_self, ← hf.generation]
      simp

/-- A response on a channel takes every transaction there one generation further away. -/
theorem Table.Live.noteResponse (h : t.Live hist l last) (c : UInt32) :
    (t.noteResponse c).Live (t.record hist (.call (.noteResponse c))) l last := by
  unfold Table.noteResponse
  by_cases hc : c ≥ t.channelCount
  · -- no transaction is on a channel that does not exist
    rw [if_pos hc]
    have hne : ∀ i ∈ l, (t.transactions i).channelIndex ≠ c := fun i hi he =>
      absurd (he ▸ h.inv.channel i hi) (UInt32.not_lt.mpr hc)
    refine ⟨h.inv, h.aged, ⟨h.recorded.order, h.recorded.recent, fun i hi => ?_⟩, h.nonempty⟩
    simp only [Table.record, if_neg (hne i hi)]
    exact h.recorded.counted i hi
  · rw [if_neg hc]
    refine ⟨h.inv.congr rfl rfl rfl rfl rfl rfl, ⟨h.aged.sorted, h.aged.past⟩,
      ⟨h.recorded.order, h.recorded.recent, fun i hi => ?_⟩, h.nonempty⟩
    have hcount := h.recorded.counted i hi
    simp only [Table.record]
    by_cases hi : (t.transactions i).channelIndex = c
    · rw [if_pos hi, hi, update_self, ← hi, hcount, UInt64.ofNat_add, UInt64.add_assoc]
      rfl
    · rw [if_neg hi, update_of_ne hi]
      exact hcount

/-- Naming a client changes nothing that counts. -/
theorem Table.Live.address (h : t.Live hist l last) (slot : Nat) (p : ClientPacket) :
    (t.address slot p).Live hist l last := by
  have hfield : ∀ {α : Type} (f : Transaction → α),
      (∀ tx a d fam tok con sock, f { tx with
        clientAddr := a, originalDst := d, tokenFamily := fam, tokenAddr := tok
        connectedUdpToken := con, originalFromSocket := sock } = f tx) →
      ∀ i, f ((t.address slot p).transactions i) = f (t.transactions i) := by
    intro α f hf i
    rcases eq_or_ne i slot with rfl | hi
    · exact (congrArg f (update_self ..)).trans (hf ..)
    · exact congrArg f (update_of_ne hi ..)
  have hsent := hfield Transaction.sentAtMs fun _ _ _ _ _ _ _ => rfl
  have hchannel := hfield Transaction.channelIndex fun _ _ _ _ _ _ _ => rfl
  have hgeneration := hfield Transaction.responseGeneration fun _ _ _ _ _ _ _ => rfl
  refine ⟨h.inv.update_tx rfl rfl rfl, ⟨?_, fun i hi => ?_⟩,
    ⟨h.recorded.order, h.recorded.recent, fun i hi => ?_⟩, h.nonempty⟩
  · refine h.aged.sorted.imp fun {i j} hij => ?_
    rw [hsent i, hsent j]
    exact hij
  · rw [hsent i]
    exact h.aged.past i hi
  · rw [hchannel i, hgeneration i]
    exact h.recorded.counted i hi

/-- One use. -/
theorem Table.Live.use (h : t.Live hist l last) (u : Use)
    (hu : ∀ now, u.nowMs = some now → last ≤ now) :
    ∃ l', (t.use u).Live (t.record hist u) l' (u.nowMs.getD last) ∧ t.SameSize (t.use u) := by
  rcases u with op | ⟨slot, p⟩
  · cases op with
    | alloc preferred originalId fingerprint now =>
        have hle := hu now rfl
        rcases h.inv.alloc_outcome h.nonempty preferred originalId fingerprint now with
          ⟨slot, hok, hf⟩ | ⟨e, l', herr, hf⟩
        · have hlive := hf.live h hle
          refine ⟨l.erase slot ++ [slot], ?_, hf.size⟩
          simp only [Table.record, hok]
          exact hlive
        · refine ⟨l', ?_, hf.size⟩
          simp only [Table.record, herr]
          exact (hf.live h).later hle
    | release slot =>
        have hne : ∀ i ∈ l.erase slot, i ≠ slot := fun i hi =>
          (h.inv.nodup.mem_erase_iff.mp hi).1
        have hf : t.Fewer l (t.release slot) (l.erase slot) :=
          ⟨h.inv.release slot, List.erase_sublist,
            ⟨t.release_capacity slot, t.release_channelCount slot⟩,
            t.releaseIndex_generations slot true,
            fun i hi => Table.release_transactions (hne i hi)⟩
        exact ⟨_, hf.live h, hf.size⟩
    | expire now timeout max stale =>
        have hle := hu now rfl
        obtain ⟨k, -, -, hexp, -⟩ :=
          Table.expireFrom_spec timeout max h.inv h.aged hle stale
        have hf := hexp.fewer h.inv
        exact ⟨_, (hf.live h).later hle, hf.size⟩
    | noteResponse c =>
        refine ⟨l, h.noteResponse c, ?_⟩
        show t.SameSize (t.noteResponse c)
        unfold Table.noteResponse
        split <;> exact ⟨rfl, rfl⟩
  · exact ⟨l, h.address slot p, rfl, rfl⟩

/-- A run at nondecreasing times. -/
theorem Table.Live.run (us : List Use) (h : t.Live hist l last)
    (htimes : (last :: us.filterMap Use.nowMs).Pairwise (· ≤ ·)) :
    ∃ l' last', (t.recorded hist us).1.Live (t.recorded hist us).2 l' last' ∧
      last' ∈ last :: us.filterMap Use.nowMs ∧ t.SameSize (t.recorded hist us).1 := by
  induction us generalizing t hist l last with
  | nil => exact ⟨l, last, h, List.mem_singleton_self _, rfl, rfl⟩
  | cons u us ih =>
      have hu : ∀ now, u.nowMs = some now → last ≤ now := fun now hnow =>
        (List.pairwise_cons.mp htimes).1 now (by simp [hnow])
      obtain ⟨l', hlive, hsize⟩ := h.use u hu
      obtain ⟨l'', last', hlive', hmem, hsize'⟩ := ih hlive (by
        rcases hnow : u.nowMs with _ | now
        · simpa [List.filterMap_cons, hnow] using htimes
        · have := (List.pairwise_cons.mp htimes).2
          simpa [List.filterMap_cons, hnow] using this)
      refine ⟨l'', last', hlive', ?_, hsize'.capacity.trans hsize.capacity,
        hsize'.channelCount.trans hsize.channelCount⟩
      rcases hnow : u.nowMs with _ | now
      · simpa [List.filterMap_cons, hnow] using hmem
      · rw [hnow] at hmem
        simp only [List.filterMap_cons, hnow]
        exact List.mem_cons_of_mem _ hmem

end Runs

/-! ## Closing the blamed channels -/

section Closing

variable {A : State → (q : Sys) → q.Ans → Prop}

/-- The loop over the flags closes the flagged channels and leaves the others alone. -/
theorem closeFlagged_sat (flags : List Bool) (now : Nat) (xs : List Nat)
    (hlt : ∀ i ∈ xs, i < 2 ^ 32) (s : State) :
    Prog.Sat A
      (fun s' _ => ∀ c : UInt32,
        (flags.getD c.toNat false = true → c.toNat ∈ xs → (s'.channels c).available = false) ∧
        (flags.getD c.toNat false = false ∨ c.toNat ∉ xs → s'.channels c = s.channels c))
      (Lib.Act.forEach (fun i => if flags.getD i false then closeChannel (UInt32.ofNat i) now
        else pure ()) xs s) := by
  induction xs generalizing s with
  | nil => exact fun c => ⟨fun _ hc => absurd hc List.not_mem_nil, fun _ => rfl⟩
  | cons i xs ih =>
      -- the loop counter is a 32-bit channel index
      have hi : (UInt32.ofNat i).toNat = i := by
        rw [UInt32.toNat_ofNat']
        exact Nat.mod_eq_of_lt (hlt i List.mem_cons_self)
      have hrest := ih fun j hj => hlt j (List.mem_cons_of_mem i hj)
      have hfirst : Prog.Sat A
          (fun t _ => if flags.getD i false then Closed s t (UInt32.ofNat i) else t = s)
          ((if flags.getD i false then closeChannel (UInt32.ofNat i) now else pure () : Fast Unit)
            s) := by
        by_cases hf : flags.getD i false = true
        · simp only [hf, if_true]
          exact closeChannel_sat _ now s
        · simp only [hf]
          exact rfl
      refine hfirst.bind fun t _ ht => (hrest t).mono fun u _ hu c => ?_
      obtain ⟨hshut, hsame⟩ := hu c
      by_cases hc : c = UInt32.ofNat i
      · subst hc
        rw [hi] at hshut hsame ⊢
        by_cases hf : flags.getD i false = true
        · simp only [hf, if_true] at ht
          refine ⟨fun _ _ => ?_, fun h => ?_⟩
          · by_cases hmem : i ∈ xs
            · exact hshut hf hmem
            · rw [hsame (Or.inr hmem)]
              exact ht.shut
          · rcases h with h | h
            · exact absurd (hf.symm.trans h) Bool.true_eq_false.mp
            · exact absurd List.mem_cons_self h
        · simp only [hf] at ht
          refine ⟨fun h => absurd h hf, fun _ => ?_⟩
          rw [hsame (Or.inl (Bool.eq_false_of_not_eq_true hf)), show t = s from ht]
      · have hne : c.toNat ≠ i := fun he => hc (UInt32.toNat_inj.mp (he.trans hi.symm))
        have hmid : t.channels c = s.channels c := by
          by_cases hf : flags.getD i false = true
          · simp only [hf, if_true] at ht
            exact ht.others c hc
          · simp only [hf] at ht
            rw [show t = s from ht]
        rw [List.mem_cons, or_iff_right hne, ← hmid]
        exact ⟨hshut, hsame⟩

/-- The flags an expiry of the worker raises. -/
def State.blamed (s : State) (nowMs : Nat) : List Bool :=
  (s.table.expire nowMs s.cfg.transactionTimeoutMs maxExpirePerLoop
    (List.replicate channelsPerWorker.toNat false)).2.2

theorem expireTransactions_sat (now : Nat) (s : State) :
    Prog.Sat A
      (fun s' _ => ∀ c < channelsPerWorker,
        ((s.blamed now).getD c.toNat false = true → (s'.channels c).available = false) ∧
        ((s.blamed now).getD c.toNat false = false → s'.channels c = s.channels c))
      (expireTransactions now s) := by
  refine (closeFlagged_sat (s.blamed now) now (List.range channelsPerWorker.toNat) (fun i hi => ?_)
    { s with table := _ }).mono fun s' _ h c hc => ?_
  · have := List.mem_range.mp hi
    have := channelsPerWorker.toNat_lt
    omega
  · obtain ⟨hshut, hsame⟩ := h c
    exact ⟨fun hf => hshut hf (List.mem_range.mpr (UInt32.lt_iff_toNat_lt.mp hc)),
      fun hf => hsame (Or.inl hf)⟩

end Closing

/-! ## Expiry in a run -/

/-- What the expiry of `t` at `nowMs` releases and whom it blames, told from the history alone. -/
structure Table.ExpiresOldest (t : Table) (hist : History) (nowMs timeoutMs max : Nat)
    (out : List Nat) : Prop where
  nodup : out.Nodup
  /-- As many as it may of those that are overdue. -/
  count : out.length = min max (t.overdueCount nowMs timeoutMs)
  overdue : ∀ i ∈ out, i < t.capacity ∧ (t.transactions i).overdue nowMs timeoutMs = true
  /-- Every other transaction in use was allocated later. -/
  oldest : ∀ i ∈ out, ∀ j < t.capacity, (t.transactions j).used = true → j ∉ out →
    hist.filled i < hist.filled j
  released : ∀ i, (t.expire nowMs timeoutMs max
    (List.replicate t.channelCount.toNat false)).1.transactions i =
      if i ∈ out then .zero else t.transactions i
  returned : (t.expire nowMs timeoutMs max
    (List.replicate t.channelCount.toNat false)).2.1 = out.length
  blamed : ∀ c < t.channelCount, ((t.expire nowMs timeoutMs max
    (List.replicate t.channelCount.toNat false)).2.2.getD c.toNat false = true ↔
      ∃ i ∈ out, (t.transactions i).channelIndex = c ∧ 2 ^ 64 ∣ hist.responses i)

theorem Table.Live.expires {t : Table} {hist : History} {l : List Nat} {last now : Nat}
    (h : t.Live hist l last) (hle : last ≤ now) (timeout max : Nat) :
    ∃ out, t.ExpiresOldest hist now timeout max out := by
  obtain ⟨k, hk, hcount, hexp, hdue⟩ := Table.expireFrom_spec timeout max h.inv h.aged hle
    (List.replicate t.channelCount.toNat false)
  have hkl : k ≤ l.length := hk ▸ Nat.le_trans (Nat.min_le_right ..) List.countP_le_length
  have hmem : ∀ i ∈ l.take k, i ∈ l := fun i hi => List.mem_of_mem_take hi
  refine ⟨l.take k, h.inv.nodup.sublist (List.take_sublist k l), ?_, fun i hi => ?_,
    fun i hi j hj hu hout => ?_, fun i => ?_, ?_, fun c hc => ?_⟩
  · rw [List.length_take, Nat.min_eq_left hkl, hk, h.inv.overdueCount]
  · exact ⟨(h.inv.mem.mp (hmem i hi)).1, hdue i hi⟩
  · have hj : j ∈ l.drop k := by
      have := h.inv.mem.mpr ⟨hj, hu⟩
      rw [← List.take_append_drop k l] at this
      exact (List.mem_append.mp this).resolve_left hout
    have horder := h.recorded.order
    rw [← List.take_append_drop k l] at horder
    exact (List.pairwise_append.mp horder).2.2 i hi j hj
  · show (Table.expireFrom ..).1.transactions i = _
    by_cases hi : i ∈ l.take k
    · rw [if_pos hi]
      exact hexp.gone i hi
    · rw [if_neg hi]
      exact hexp.kept i hi
  · rw [List.length_take, Nat.min_eq_left hkl]
    exact hcount
  · show (Table.expireFrom ..).2.2.getD _ _ = true ↔ _
    have hlt : c.toNat < t.channelCount.toNat := UInt32.lt_iff_toNat_lt.mp hc
    rw [hexp.flags c (by rwa [List.length_replicate])]
    simp only [List.getD_eq_getElem?_getD, List.getElem?_replicate, hlt, if_true,
      Option.getD_some, Bool.false_eq_true, false_or]
    refine exists_congr fun i => and_congr_right fun hi => and_congr_right fun hch => ?_
    rw [← h.recorded.generation_iff (hmem i hi), hch]

/-- In every run, an expiry releases the oldest of the overdue transactions, as many as it may, and
no other; it blames exactly the channels of a released transaction since whose allocation a multiple
of 2^64 responses was noted there; and the worker rebuilds no channel where that is true of no
overdue transaction. -/
theorem dns_expire_oldest {channelCount : UInt32} {capacity : Nat} {memory : Bool} {t₀ : Table}
    (hinit : Table.init channelCount capacity memory = some t₀) (us : List Use)
    (nowMs timeoutMs max : Nat)
    (htimes : (us.filterMap Use.nowMs ++ [nowMs]).Pairwise (· ≤ ·)) :
    (t₀.recorded .start us).1.capacity = capacity ∧
    (t₀.recorded .start us).1.channelCount = channelCount ∧
    (∃ out, (t₀.recorded .start us).1.ExpiresOldest (t₀.recorded .start us).2 nowMs timeoutMs max
      out) ∧
    ∀ s : State, s.table = (t₀.recorded .start us).1 → s.cfg.transactionTimeoutMs = timeoutMs →
      channelCount = channelsPerWorker → ∀ c < channelCount,
      (∀ i < capacity, (s.table.transactions i).overdue nowMs timeoutMs = true →
        (s.table.transactions i).channelIndex = c →
        ¬ 2 ^ 64 ∣ (t₀.recorded .start us).2.responses i) →
      Prog.Sat (fun _ _ _ => True) (fun s' _ => s'.channels c = s.channels c)
        (expireTransactions nowMs s) := by
  obtain ⟨hinv, hcap, hcount, hpos⟩ := Table.inv_init hinit
  have hstart : t₀.Live .start [] 0 :=
    ⟨hinv, ⟨by simp, by simp⟩, ⟨by simp, by simp, by simp⟩, hcap ▸ hpos⟩
  obtain ⟨hpast, -, hnow⟩ := List.pairwise_append.mp htimes
  obtain ⟨l, last, hlive, hlast, hsize⟩ := hstart.run us
    (List.pairwise_cons.mpr ⟨fun _ _ => Nat.zero_le _, hpast⟩)
  have hle : last ≤ nowMs := by
    rcases List.mem_cons.mp hlast with rfl | hmem
    · exact Nat.zero_le _
    · exact hnow last hmem nowMs (List.mem_singleton_self _)
  have hcap' := hsize.capacity.trans hcap
  have hcount' := hsize.channelCount.trans hcount
  refine ⟨hcap', hcount', hlive.expires hle timeoutMs max, fun s hs htimeout hch c hc hquiet => ?_⟩
  obtain ⟨out, hout⟩ := hlive.expires hle timeoutMs maxExpirePerLoop
  have hflag : (s.blamed nowMs).getD c.toNat false = false := by
    refine Bool.eq_false_of_not_eq_true fun hset => ?_
    unfold State.blamed at hset
    rw [hs, htimeout, ← hch, ← hcount'] at hset
    obtain ⟨i, hi, hic, hdvd⟩ := (hout.blamed c (hcount'.symm ▸ hc)).mp hset
    obtain ⟨hlt, hdue⟩ := hout.overdue i hi
    rw [hs] at hquiet
    exact hquiet i (hcap' ▸ hlt) hdue hic hdvd
  exact (expireTransactions_sat nowMs s).mono fun s' _ h => (h c (hch ▸ hc)).2 hflag

/-- Two channels.  The query on channel 0 was answered nothing since, the one on channel 1 was sent
before a response there; both are overdue, and a third is not. -/
theorem dns_expire_oldest_run : ∃ t, Table.init 2 4 true = some t ∧
    ((t.recorded .start [.call (.alloc 0 7 9 0), .call (.alloc 1 8 9 1),
      .call (.noteResponse 1), .call (.alloc 0 9 9 5)]).1.expire 6 5 64 [false, false]).2 =
        (2, [true, false]) ∧
    ∃ out, (t.recorded .start [.call (.alloc 0 7 9 0), .call (.alloc 1 8 9 1),
      .call (.noteResponse 1), .call (.alloc 0 9 9 5)]).1.ExpiresOldest
        (t.recorded .start [.call (.alloc 0 7 9 0), .call (.alloc 1 8 9 1),
          .call (.noteResponse 1), .call (.alloc 0 9 9 5)]).2 6 5 64 out :=
  ⟨_, rfl, by decide, (dns_expire_oldest (show Table.init 2 4 true = some _ from rfl)
    [.call (.alloc 0 7 9 0), .call (.alloc 1 8 9 1), .call (.noteResponse 1),
      .call (.alloc 0 9 9 5)] 6 5 64 (by decide)).2.2.1⟩

/-! ## The generations run out -/

/-- Many responses in a row. -/
theorem Table.recorded_responses {t : Table} {hist : History} {c : UInt32}
    (hc : c < t.channelCount) (n : Nat) :
    t.recorded hist (List.replicate n (.call (.noteResponse c))) =
      ({ t with
          responseGenerations :=
            update t.responseGenerations c (t.responseGenerations c + UInt64.ofNat n) },
        { hist with
          responses := fun i =>
            if (t.transactions i).channelIndex = c then hist.responses i + n
            else hist.responses i }) := by
  induction n generalizing t hist with
  | zero => simp [Table.recorded]
  | succ n ih =>
      have hnote : t.use (.call (.noteResponse c)) =
          { t with
            responseGenerations :=
              update t.responseGenerations c (t.responseGenerations c + 1) } :=
        if_neg (UInt32.not_le.mpr hc)
      have hc' : c < (t.use (.call (.noteResponse c))).channelCount := hnote ▸ hc
      rw [List.replicate_succ, Table.recorded, ih hc', hnote]
      simp only [Table.record, update_self, Function.update_idem]
      congr 2
      · rw [UInt64.add_assoc, Nat.add_comm n 1, UInt64.ofNat_add]
        rfl
      · funext i
        split <;> omega

/-- When the count of responses comes back to its start, a channel that answered is blamed. -/
theorem dns_expire_after (n : Nat) (hn : UInt64.ofNat n = 0) :
    ∃ t, Table.init 1 1 true = some t ∧
      ((t.recorded .start (.call (.alloc 0 7 9 0) ::
        List.replicate n (.call (.noteResponse 0)))).1.expire 10 10 1 [false]).2 = (1, [true]) ∧
      (t.recorded .start (.call (.alloc 0 7 9 0) ::
        List.replicate n (.call (.noteResponse 0)))).2.responses 0 = n := by
  refine ⟨_, rfl, ?_⟩
  rw [Table.recorded, Table.recorded_responses (by decide) n, hn, UInt64.add_zero,
    Function.update_eq_self]
  refine ⟨rfl, ?_⟩
  show (if (0 : UInt32) = 0 then 0 + n else 0) = n
  rw [if_pos rfl, Nat.zero_add]

/-- 2^64 responses after the query was sent. -/
theorem dns_expire_wraps : ∃ t, Table.init 1 1 true = some t ∧
    ((t.recorded .start (.call (.alloc 0 7 9 0) ::
      List.replicate (2 ^ 64) (.call (.noteResponse 0)))).1.expire 10 10 1 [false]).2 =
        (1, [true]) ∧
    (t.recorded .start (.call (.alloc 0 7 9 0) ::
      List.replicate (2 ^ 64) (.call (.noteResponse 0)))).2.responses 0 = 2 ^ 64 :=
  dns_expire_after (2 ^ 64) (by decide)

end Bpf2Socks.Dns
