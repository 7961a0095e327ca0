/-
# Bpf2Socks.Dns.Table — the table of DNS transactions in flight.

A worker multiplexes the DNS queries of all its clients over a few shared channels.  Every query
in flight is a *transaction*: a slot of a fixed array, found again by the channel and the 16-bit
id the query was rewritten to.  Four representations of the same set have to agree: the `used`
flags, the stack of free slots, the doubly linked list of used slots in order of age, and the
direct lookup array indexed by channel and id.

`Table.Inv` says that they do.  Every operation keeps it, from any state that has it; and under it
`alloc` cannot fail, because a table of at most 65536 slots always leaves one of the 65536 ids of
a channel free.
-/
import Mathlib.Data.Finset.Card
import Mathlib.Data.Fintype.Basic
import Bpf2Socks.Lib.DList
import Bpf2Socks.Udp.Address
import Mathlib.Algebra.Group.Nat.Defs

namespace Bpf2Socks.Dns

open Function (update update_self update_of_ne)
open Lib (DLists)
open Udp (Family Sockaddr DstAddr)

/-! ## Transactions and the table -/

/-- `struct bpf2socks_dns_transaction`, less its two list links. -/
structure Transaction where
  used : Bool
  channelIndex : UInt32
  rewrittenId : UInt16
  originalId : UInt16
  questionFingerprint : UInt32
  sentAtMs : Nat
  responseGeneration : UInt64
  clientAddr : Sockaddr
  originalDst : DstAddr
  tokenFamily : Family
  tokenAddr : List UInt8
  connectedUdpToken : Bool
  originalFromSocket : Bool
  deriving DecidableEq

/-- A record of zero bytes. -/
def Transaction.zero : Transaction :=
  { used := false, channelIndex := 0, rewrittenId := 0, originalId := 0, questionFingerprint := 0
    sentAtMs := 0, responseGeneration := 0, clientAddr := ⟨.unspec, []⟩
    originalDst := ⟨.unspec, 0, []⟩, tokenFamily := .unspec, tokenAddr := []
    connectedUdpToken := false, originalFromSocket := false }

/-- `struct bpf2socks_dns_table`.  `free` is `free_indices` up to `free_count`, its top first;
`lookup` is `none` where the array holds -1; `lru` holds `lru_head`, `lru_tail` and the links of
the transactions. -/
structure Table where
  transactions : Nat → Transaction
  lookup : Nat → Option Nat
  nextIds : UInt32 → UInt16
  responseGenerations : UInt32 → UInt64
  free : List Nat
  capacity : Nat
  channelCount : UInt32
  lru : DLists Unit Nat

/-- `lookup_offset`. -/
def lookupOffset (channel : UInt32) (id : UInt16) : Nat := channel.toNat * 65536 + id.toNat

/-- `bpf2socks_dns_table_init`; `memory` says whether all its allocations succeed. -/
def Table.init (channelCount : UInt32) (capacity : Nat) (memory : Bool) : Option Table :=
  if channelCount = 0 ∨ capacity = 0 then none
  else if memory then
    some
      { transactions := fun _ => .zero, lookup := fun _ => none, nextIds := fun _ => 0
        responseGenerations := fun _ => 0, free := List.range capacity, capacity, channelCount
        lru := .empty }
  else none

/-- Unlink a used slot from everything and zero it. -/
def Table.clear (t : Table) (i : Nat) : Table :=
  let tx := t.transactions i
  let offset := lookupOffset tx.channelIndex tx.rewrittenId
  { t with
    lookup := if t.lookup offset = some i then update t.lookup offset none else t.lookup
    lru := t.lru.detach () i
    transactions := update t.transactions i .zero }

/-- `release_index`. -/
def Table.releaseIndex (t : Table) (i : Nat) (returnToFreeStack : Bool) : Table :=
  if i ≥ t.capacity then t
  else if (t.transactions i).used then
    let t := t.clear i
    if returnToFreeStack && t.free.length < t.capacity then { t with free := i :: t.free } else t
  else t

/-- The loop of `allocate_id`, with the number of ids it can still try. -/
def Table.scanId (t : Table) (channel : UInt32) (start : UInt16) : Nat → UInt16 → Option UInt16
  | 0, _ => none
  | n + 1, id =>
      if t.lookup (lookupOffset channel id) = none then some id
      else if id + 1 = start then none
      else t.scanId channel start n (id + 1)

/-- `allocate_id`. -/
def Table.allocateId (t : Table) (channel : UInt32) : Option (Table × UInt16) :=
  let start := t.nextIds channel
  (t.scanId channel start 65536 start).map fun id =>
    ({ t with nextIds := update t.nextIds channel (id + 1) }, id)

/-- The ways `bpf2socks_dns_table_alloc` can fail. -/
inductive AllocError where
  | einval
  | enomem
  | enospc
  deriving DecidableEq

/-- The slot an allocation takes: the top of the free stack, or the oldest transaction's. -/
def Table.takeSlot (t : Table) : Option (Table × Nat) :=
  match t.free with
  | slot :: rest => some ({ t with free := rest }, slot)
  | [] => (t.lru.head ()).map fun slot => (t.releaseIndex slot false, slot)

/-- The channel loop of `bpf2socks_dns_table_alloc`: the preferred channel, then the others. -/
def Table.selectId (t : Table) (preferred : UInt32) : Option (Table × UInt32 × UInt16) :=
  (List.range t.channelCount.toNat).findSome? fun attempt =>
    let channel := (preferred + UInt32.ofNat attempt) % t.channelCount
    (t.allocateId channel).map fun r => (r.1, channel, r.2)

/-- Fill a slot and link it in.  Attaching sets both links of the slot. -/
def Table.fill (t : Table) (slot : Nat) (channel : UInt32) (id originalId : UInt16)
    (fingerprint : UInt32) (nowMs : Nat) : Table :=
  { t with
    transactions := update t.transactions slot
      { Transaction.zero with
        used := true, channelIndex := channel, rewrittenId := id, originalId := originalId
        questionFingerprint := fingerprint, sentAtMs := nowMs
        responseGeneration := t.responseGenerations channel }
    lookup := update t.lookup (lookupOffset channel id) (some slot)
    lru := t.lru.attachTail () slot }

/-- `bpf2socks_dns_table_alloc`. -/
def Table.alloc (t : Table) (preferred : UInt32) (originalId : UInt16) (fingerprint : UInt32)
    (nowMs : Nat) : Table × Except AllocError Nat :=
  if preferred ≥ t.channelCount then (t, .error .einval)
  else
    match t.takeSlot with
    | none => (t, .error .enomem)
    | some (t, slot) =>
        match t.selectId preferred with
        | none =>
            (if t.free.length < t.capacity then { t with free := slot :: t.free } else t,
              .error .enospc)
        | some (t, channel, id) =>
            (t.fill slot channel id originalId fingerprint nowMs, .ok slot)

/-- `bpf2socks_dns_table_find`. -/
def Table.find (t : Table) (channel : UInt32) (id : UInt16) : Option Nat :=
  if channel ≥ t.channelCount then none
  else
    match t.lookup (lookupOffset channel id) with
    | none => none
    | some i => if i < t.capacity ∧ (t.transactions i).used then some i else none

/-- `bpf2socks_dns_table_note_response`. -/
def Table.noteResponse (t : Table) (channel : UInt32) : Table :=
  if channel ≥ t.channelCount then t
  else
    { t with
      responseGenerations :=
        update t.responseGenerations channel (t.responseGenerations channel + 1) }

/-- `bpf2socks_dns_table_release`. -/
def Table.release (t : Table) (i : Nat) : Table := t.releaseIndex i true

/-- The loop of `bpf2socks_dns_table_expire`, with how many transactions it may still expire.
`stale` is the array of stale channels; a null array is an empty one. -/
def Table.expireFrom (nowMs timeoutMs : Nat) : Nat → Table → List Bool → Table × Nat × List Bool
  | 0, t, stale => (t, 0, stale)
  | n + 1, t, stale =>
      match t.lru.head () with
      | none => (t, 0, stale)
      | some i =>
          let tx := t.transactions i
          if !tx.used ∨ nowMs < tx.sentAtMs ∨ nowMs - tx.sentAtMs < timeoutMs then (t, 0, stale)
          else
            let channel := tx.channelIndex
            let stale :=
              if channel < t.channelCount ∧ tx.responseGeneration = t.responseGenerations channel
              then stale.set channel.toNat true else stale
            let r := Table.expireFrom nowMs timeoutMs n (t.releaseIndex i true) stale
            (r.1, r.2.1 + 1, r.2.2)

/-- `bpf2socks_dns_table_expire`. -/
def Table.expire (t : Table) (nowMs timeoutMs maxExpire : Nat) (stale : List Bool) :
    Table × Nat × List Bool := Table.expireFrom nowMs timeoutMs maxExpire t stale

/-- `bpf2socks_dns_table_oldest`. -/
def Table.oldest (t : Table) : Option Nat :=
  match t.lru.head () with
  | none => none
  | some i => if (t.transactions i).used then some (t.transactions i).sentAtMs else none

/-! ## The invariant -/

/-- The four representations agree.  `l` is the list of used slots, oldest first; a slot that an
allocation has taken and not yet filled is the `hole`. -/
structure Table.Inv (t : Table) (hole : Option Nat) (l : List Nat) : Prop where
  mem : ∀ {i}, i ∈ l ↔ i < t.capacity ∧ (t.transactions i).used = true
  rep : t.lru.Rep fun _ => l
  free : ∀ {i}, i ∈ t.free ↔ i < t.capacity ∧ (t.transactions i).used = false ∧ hole ≠ some i
  free_nodup : t.free.Nodup
  channel : ∀ i ∈ l, (t.transactions i).channelIndex < t.channelCount
  lookup : ∀ {c id i}, t.lookup (lookupOffset c id) = some i ↔
    i ∈ l ∧ (t.transactions i).channelIndex = c ∧ (t.transactions i).rewrittenId = id

/-- The slots of `l` were filled in order, the last of them not after `now`. -/
structure Table.Aged (t : Table) (l : List Nat) (now : Nat) : Prop where
  sorted : l.Pairwise fun i j => (t.transactions i).sentAtMs ≤ (t.transactions j).sentAtMs
  past : ∀ i ∈ l, (t.transactions i).sentAtMs ≤ now

theorem lookupOffset_inj {c c' : UInt32} {id id' : UInt16} :
    lookupOffset c id = lookupOffset c' id' ↔ c = c' ∧ id = id' := by
  constructor
  · intro h
    unfold lookupOffset at h
    have hid := id.toNat_lt
    have hid' := id'.toNat_lt
    exact ⟨UInt32.toNat_inj.mp (by omega), UInt16.toNat_inj.mp (by omega)⟩
  · rintro ⟨rfl, rfl⟩
    rfl

theorem Table.inv_init {channelCount : UInt32} {capacity : Nat} {memory : Bool} {t : Table}
    (h : Table.init channelCount capacity memory = some t) :
    t.Inv none [] ∧ t.capacity = capacity ∧ t.channelCount = channelCount ∧ 0 < capacity := by
  unfold Table.init at h
  split at h
  · simp at h
  · rename_i hpos
    split at h
    · obtain rfl := Option.some.inj h
      refine ⟨⟨by simp [Transaction.zero], DLists.rep_empty, ?_, List.nodup_range, by simp,
        by simp⟩, rfl, rfl, by omega⟩
      intro i
      simp [Transaction.zero]
    · simp at h

namespace Table.Inv

variable {t : Table} {hole : Option Nat} {l : List Nat} {i : Nat}

theorem nodup (h : t.Inv hole l) : l.Nodup := h.rep.nodup ()

theorem head_eq (h : t.Inv hole l) : t.lru.head () = l.head? := h.rep.head_eq ()

/-- Only the slots' own fields count. -/
theorem congr {t' : Table} (h : t.Inv hole l) (htx : t'.transactions = t.transactions)
    (hlookup : t'.lookup = t.lookup) (hfree : t'.free = t.free) (hcap : t'.capacity = t.capacity)
    (hcount : t'.channelCount = t.channelCount) (hlru : t'.lru = t.lru) : t'.Inv hole l := by
  constructor
  · rw [hcap, htx]
    exact h.mem
  · rw [hlru]
    exact h.rep
  · rw [hfree, hcap, htx]
    exact h.free
  · rw [hfree]
    exact h.free_nodup
  · rw [htx, hcount]
    exact h.channel
  · rw [hlookup, htx]
    exact h.lookup

/-- Zeroing a used slot leaves a hole there. -/
theorem clear (h : t.Inv none l) (hi : i ∈ l) : (t.clear i).Inv (some i) (l.erase i) := by
  obtain ⟨hcap, hused⟩ := h.mem.mp hi
  have hmem : ∀ {j}, j ∈ l.erase i ↔ j ∈ l ∧ j ≠ i := by
    intro j
    rw [h.nodup.mem_erase_iff, and_comm]
  have hlook := h.lookup.mpr ⟨hi, rfl, rfl⟩
  refine ⟨?_, ?_, ?_, h.free_nodup, ?_, ?_⟩
  · intro j
    show _ ↔ j < t.capacity ∧ (update t.transactions i .zero j).used = true
    rcases eq_or_ne j i with rfl | hj
    · simp [hmem, Transaction.zero]
    · simp [hmem, hj, h.mem]
  · show DLists.Rep (t.lru.detach () i) _
    rw [h.rep.detach_eq hi]
    exact h.rep.removeOne hi
  · intro j
    show _ ↔ j < t.capacity ∧ (update t.transactions i .zero j).used = false ∧ some i ≠ some j
    rcases eq_or_ne j i with rfl | hj
    · have : j ∉ t.free := fun hf => by simp [(h.free.mp hf).2.1] at hused
      simp [Table.clear, this]
    · simp [Table.clear, h.free, hj, Ne.symm hj]
  · intro j hj
    obtain ⟨hj, hne⟩ := hmem.mp hj
    show (update t.transactions i .zero j).channelIndex < t.channelCount
    rw [update_of_ne hne]
    exact h.channel j hj
  · intro c id j
    have hnew : (t.clear i).lookup = update t.lookup
        (lookupOffset (t.transactions i).channelIndex (t.transactions i).rewrittenId) none :=
      if_pos hlook
    rw [hnew, hmem]
    show _ ↔ _ ∧ (update t.transactions i .zero j).channelIndex = c ∧
      (update t.transactions i .zero j).rewrittenId = id
    by_cases hoff : lookupOffset c id =
        lookupOffset (t.transactions i).channelIndex (t.transactions i).rewrittenId
    · rw [hoff, update_self]
      obtain ⟨rfl, rfl⟩ := lookupOffset_inj.mp hoff
      refine ⟨by simp, fun ⟨⟨hj, hne⟩, hc, hid⟩ => ?_⟩
      rw [update_of_ne hne] at hc hid
      have := h.lookup.mpr ⟨hj, hc, hid⟩
      exact absurd (Option.some.inj (this.symm.trans hlook)) hne
    · rw [update_of_ne hoff, h.lookup]
      constructor
      · rintro ⟨hj, hc, hid⟩
        have hne : j ≠ i := by
          rintro rfl
          exact hoff (by rw [hc, hid])
        exact ⟨⟨hj, hne⟩, by rwa [update_of_ne hne], by rwa [update_of_ne hne]⟩
      · rintro ⟨⟨hj, hne⟩, hc, hid⟩
        rw [update_of_ne hne] at hc hid
        exact ⟨hj, hc, hid⟩

/-- The free stack has room for the hole. -/
theorem free_lt (h : t.Inv (some i) l) (hi : i < t.capacity) : t.free.length < t.capacity := by
  have hnd : (i :: t.free).Nodup :=
    List.nodup_cons.mpr ⟨fun hf => (h.free.mp hf).2.2 rfl, h.free_nodup⟩
  have hsub : i :: t.free ⊆ List.range t.capacity := by
    intro j hj
    rcases List.mem_cons.mp hj with rfl | hj
    · exact List.mem_range.mpr hi
    · exact List.mem_range.mpr (h.free.mp hj).1
  have := (hnd.subperm hsub).length_le
  simp only [List.length_cons, List.length_range] at this
  omega

/-- Pushing the hole on the free stack closes it. -/
theorem pushFree (h : t.Inv (some i) l) (hi : i < t.capacity)
    (hu : (t.transactions i).used = false) : Inv { t with free := i :: t.free } none l := by
  refine ⟨h.mem, h.rep, ?_, List.nodup_cons.mpr ⟨fun hf => (h.free.mp hf).2.2 rfl, h.free_nodup⟩,
    h.channel, h.lookup⟩
  intro j
  show j ∈ i :: t.free ↔ _
  rw [List.mem_cons, h.free]
  rcases eq_or_ne j i with rfl | hj
  · simp [hi, hu]
  · simp [hj, Ne.symm hj]

/-- Releasing a slot, used or not. -/
theorem release (h : t.Inv none l) (i : Nat) : (t.release i).Inv none (l.erase i) := by
  unfold Table.release Table.releaseIndex
  by_cases hcap : i ≥ t.capacity
  · rw [if_pos hcap, List.erase_of_not_mem fun hi => absurd (h.mem.mp hi).1 (by omega)]
    exact h
  · rw [if_neg hcap]
    by_cases hu : (t.transactions i).used = true
    · have hc := h.clear (h.mem.mpr ⟨by omega, hu⟩)
      have hlt : i < (t.clear i).capacity := Nat.lt_of_not_le hcap
      have hroom := hc.free_lt hlt
      simp only [hu, if_true, Bool.true_and, decide_eq_true_eq, hroom]
      exact hc.pushFree hlt (by simp [Table.clear, Transaction.zero])
    · rw [if_neg hu, List.erase_of_not_mem fun hi => hu (h.mem.mp hi).2]
      exact h

end Table.Inv

/-- Releasing does nothing, or clears the slot and may push it on the free stack. -/
theorem Table.releaseIndex_cases (t : Table) (i : Nat) (b : Bool) :
    t.releaseIndex i b = t ∨ i < t.capacity ∧ (t.transactions i).used = true ∧
      ∃ free, t.releaseIndex i b = { t.clear i with free := free } := by
  unfold Table.releaseIndex
  by_cases hcap : i ≥ t.capacity
  · exact Or.inl (if_pos hcap)
  · rw [if_neg hcap]
    by_cases hu : (t.transactions i).used = true
    · refine Or.inr ⟨Nat.lt_of_not_le hcap, hu, ?_⟩
      rw [if_pos hu]
      by_cases hpush : (b && decide ((t.clear i).free.length < (t.clear i).capacity)) = true
      · exact ⟨i :: (t.clear i).free, if_pos hpush⟩
      · exact ⟨(t.clear i).free, if_neg hpush⟩
    · exact Or.inl (if_neg hu)

/-- Releasing a slot leaves the others alone. -/
theorem Table.release_transactions {t : Table} {i j : Nat} (hj : j ≠ i) :
    (t.release i).transactions j = t.transactions j := by
  rcases t.releaseIndex_cases i true with h | ⟨-, -, free, h⟩
  · rw [Table.release, h]
  · rw [Table.release, h]
    exact update_of_ne hj _ _

@[simp] theorem Table.release_capacity (t : Table) (i : Nat) :
    (t.release i).capacity = t.capacity := by
  rcases t.releaseIndex_cases i true with h | ⟨-, -, free, h⟩
  · rw [Table.release, h]
  · rw [Table.release, h]
    rfl

@[simp] theorem Table.release_channelCount (t : Table) (i : Nat) :
    (t.release i).channelCount = t.channelCount := by
  rcases t.releaseIndex_cases i true with h | ⟨-, -, free, h⟩
  · rw [Table.release, h]
  · rw [Table.release, h]
    rfl

theorem Table.Aged.erase {t t' : Table} {l : List Nat} {now i : Nat} (h : t.Aged l now)
    (hnd : l.Nodup) (heq : ∀ j, j ≠ i → t'.transactions j = t.transactions j) :
    t'.Aged (l.erase i) now := by
  have hne : ∀ j ∈ l.erase i, t'.transactions j = t.transactions j :=
    fun j hj => heq j (hnd.mem_erase_iff.mp hj).1
  refine ⟨(h.sorted.sublist List.erase_sublist).imp_of_mem fun ha hb hab => ?_, fun j hj => ?_⟩
  · rw [hne _ ha, hne _ hb]
    exact hab
  · rw [hne j hj]
    exact h.past j (List.mem_of_mem_erase hj)

theorem Table.Aged.later {t : Table} {l : List Nat} {now now' : Nat} (h : t.Aged l now)
    (hle : now ≤ now') : t.Aged l now' :=
  ⟨h.sorted, fun i hi => Nat.le_trans (h.past i hi) hle⟩

/-! ## Allocation -/

section Alloc

variable {t : Table} {l : List Nat} {slot now : Nat} {channel : UInt32} {id : UInt16}

theorem Table.scanId_some {start id' : UInt16} {n : Nat}
    (h : t.scanId channel start n id' = some id) : t.lookup (lookupOffset channel id) = none := by
  induction n generalizing id' with
  | zero => simp [Table.scanId] at h
  | succ n ih =>
      unfold Table.scanId at h
      split at h
      · rename_i hfree
        obtain rfl := Option.some.inj h
        exact hfree
      · split at h
        · simp at h
        · exact ih h

/-- A scan that finds nothing has seen every id from where it was to the start, all in use. -/
theorem Table.scanId_none {start : UInt16} {n k : Nat} (hnk : n + k = 65536)
    (h : t.scanId channel start n (start + UInt16.ofNat k) = none) :
    ∀ j, k ≤ j → j < 65536 → t.lookup (lookupOffset channel (start + UInt16.ofNat j)) ≠ none := by
  induction n generalizing k with
  | zero =>
      intro j hj hlt
      omega
  | succ n ih =>
      have hnext : start + UInt16.ofNat k + 1 = start + UInt16.ofNat (k + 1) := by
        apply UInt16.toNat_inj.mp
        simp only [UInt16.toNat_add, UInt16.toNat_ofNat', UInt16.reduceToNat]
        omega
      unfold Table.scanId at h
      rw [hnext] at h
      intro j hj hlt
      split at h
      · simp at h
      · rename_i hused
        rcases Nat.eq_or_lt_of_le hj with rfl | hj
        · exact hused
        · split at h
          · rename_i hwrap
            have := congrArg UInt16.toNat hwrap
            simp only [UInt16.toNat_add, UInt16.toNat_ofNat'] at this
            have := start.toNat_lt
            omega
          · exact ih (by omega) h j hj hlt

/-- Fewer than 65536 transactions besides the hole leave an id free on every channel. -/
theorem Table.Inv.exists_id (h : t.Inv (some slot) l) (hslot : slot < t.capacity)
    (hu : (t.transactions slot).used = false) (hcap : t.capacity ≤ 65536) (channel : UInt32) :
    ∃ id, t.lookup (lookupOffset channel id) = none := by
  by_contra hno
  push Not at hno
  choose f hf using fun id => Option.ne_none_iff_exists'.mp (hno id)
  have hinj : ∀ id id', f id = f id' → id = id' := by
    intro id id' heq
    have h1 := (h.lookup.mp (hf id)).2.2
    have h2 := (h.lookup.mp (hf id')).2.2
    rw [← h1, ← h2, heq]
  have hmaps : ∀ n ∈ Finset.range 65536, f (UInt16.ofNat n) ∈ (Finset.range t.capacity).erase slot := by
    intro n _
    obtain ⟨hlt, hused⟩ := h.mem.mp (h.lookup.mp (hf (UInt16.ofNat n))).1
    refine Finset.mem_erase.mpr ⟨fun he => ?_, Finset.mem_range.mpr hlt⟩
    rw [he, hu] at hused
    exact Bool.false_ne_true hused
  have hcard := Finset.card_le_card_of_injOn (fun n => f (UInt16.ofNat n)) hmaps (by
    intro a ha b hb hab
    have := congrArg UInt16.toNat (hinj _ _ hab)
    simp only [UInt16.toNat_ofNat', Finset.coe_range, Set.mem_Iio] at this ha hb
    omega)
  rw [Finset.card_erase_of_mem (Finset.mem_range.mpr hslot), Finset.card_range,
    Finset.card_range] at hcard
  omega

/-- So the scan of any channel finds one. -/
theorem Table.Inv.allocateId (h : t.Inv (some slot) l) (hslot : slot < t.capacity)
    (hu : (t.transactions slot).used = false) (hcap : t.capacity ≤ 65536) (channel : UInt32) :
    ∃ id, t.lookup (lookupOffset channel id) = none ∧ t.allocateId channel =
      some ({ t with nextIds := update t.nextIds channel (id + 1) }, id) := by
  unfold Table.allocateId
  rcases hs : t.scanId channel (t.nextIds channel) 65536 (t.nextIds channel) with _ | id
  · obtain ⟨id, hid⟩ := h.exists_id hslot hu hcap channel
    have hs' : t.scanId channel (t.nextIds channel) 65536
        (t.nextIds channel + UInt16.ofNat 0) = none := by
      rw [show t.nextIds channel + UInt16.ofNat 0 = t.nextIds channel from UInt16.add_zero _]
      exact hs
    have hall := Table.scanId_none rfl hs' (id - t.nextIds channel).toNat (Nat.zero_le _)
      (id - t.nextIds channel).toNat_lt
    rw [UInt16.ofNat_toNat, UInt16.add_comm, UInt16.sub_add_cancel] at hall
    exact absurd hid hall
  · exact ⟨id, Table.scanId_some hs, by simp only [hs, Option.map_some]⟩

/-- The first channel tried is the preferred one, and it is enough. -/
theorem Table.Inv.selectId (h : t.Inv (some slot) l) (hslot : slot < t.capacity)
    (hu : (t.transactions slot).used = false) (hcap : t.capacity ≤ 65536)
    (hch : channel < t.channelCount) :
    ∃ id, t.lookup (lookupOffset channel id) = none ∧ t.selectId channel =
      some ({ t with nextIds := update t.nextIds channel (id + 1) }, channel, id) := by
  obtain ⟨id, hfree, halloc⟩ := h.allocateId hslot hu hcap channel
  refine ⟨id, hfree, ?_⟩
  have hpos : ∃ n, t.channelCount.toNat = n + 1 :=
    Nat.exists_eq_add_one_of_ne_zero (by
      have := UInt32.lt_iff_toNat_lt.mp hch
      omega)
  obtain ⟨n, hn⟩ := hpos
  have hfirst : (channel + UInt32.ofNat 0) % t.channelCount = channel := by
    apply UInt32.toNat_inj.mp
    rw [show channel + UInt32.ofNat 0 = channel from UInt32.add_zero _, UInt32.toNat_mod]
    exact Nat.mod_eq_of_lt (UInt32.lt_iff_toNat_lt.mp hch)
  unfold Table.selectId
  rw [hn, List.range_succ_eq_map, List.findSome?_cons]
  simp only [hfirst, halloc, Option.map_some]

/-- The slot taken is the top of the free stack while there is one, and the oldest otherwise. -/
theorem Table.Inv.takeSlot (h : t.Inv none l) (hpos : 0 < t.capacity) :
    ∃ t' slot, t.takeSlot = some (t', slot) ∧ t'.Inv (some slot) (l.erase slot) ∧
      slot < t.capacity ∧ (t'.transactions slot).used = false ∧ t'.capacity = t.capacity ∧
      t'.channelCount = t.channelCount ∧
      (∀ j, j ≠ slot → t'.transactions j = t.transactions j) ∧
      (slot ∉ l ∧ t.free ≠ [] ∨ l.head? = some slot ∧ t.free = []) := by
  unfold Table.takeSlot
  rcases hf : t.free with _ | ⟨slot, rest⟩
  · -- every slot is in use, so the list is not empty
    have h0 : 0 ∈ l := by
      refine h.mem.mpr ⟨hpos, ?_⟩
      by_contra hu
      have := h.free.mpr ⟨hpos, Bool.eq_false_of_not_eq_true hu, by simp⟩
      simp [hf] at this
    obtain ⟨slot, rest, rfl⟩ := List.exists_cons_of_ne_nil (List.ne_nil_of_mem h0)
    have hmem : slot ∈ slot :: rest := List.mem_cons_self
    obtain ⟨hlt, hu⟩ := h.mem.mp hmem
    have hrel : t.releaseIndex slot false = t.clear slot := by
      unfold Table.releaseIndex
      rw [if_neg (Nat.not_le.mpr hlt), if_pos hu]
      rfl
    refine ⟨t.clear slot, slot, ?_, h.clear hmem, hlt, ?_, rfl, rfl,
      fun j hj => update_of_ne hj _ _, Or.inr ⟨rfl, rfl⟩⟩
    · simp only [h.head_eq, List.head?_cons, Option.map_some, hrel]
    · simp [Table.clear, Transaction.zero]
  · have hmem : slot ∈ t.free := by simp [hf]
    have hnd : (slot :: rest).Nodup := hf ▸ h.free_nodup
    obtain ⟨hlt, hu, -⟩ := h.free.mp hmem
    have hnot : slot ∉ l := fun hl => by simp [(h.mem.mp hl).2] at hu
    refine ⟨{ t with free := rest }, slot, rfl, ?_, hlt, hu, rfl, rfl, fun _ _ => rfl,
      Or.inl ⟨hnot, by simp⟩⟩
    rw [List.erase_of_not_mem hnot]
    refine ⟨h.mem, h.rep, ?_, (List.nodup_cons.mp hnd).2, h.channel, h.lookup⟩
    intro j
    have hj : j ∈ slot :: rest ↔ _ := hf ▸ h.free
    show j ∈ rest ↔ j < t.capacity ∧ (t.transactions j).used = false ∧ some slot ≠ some j
    rcases eq_or_ne j slot with rfl | hne
    · simp [(List.nodup_cons.mp hnd).1]
    · rw [List.mem_cons, or_iff_right hne] at hj
      simp [hj, Ne.symm hne]

/-- Filling the hole. -/
theorem Table.Inv.fill (h : t.Inv (some slot) l) (hslot : slot < t.capacity)
    (hu : (t.transactions slot).used = false) (hch : channel < t.channelCount)
    (hid : t.lookup (lookupOffset channel id) = none) (originalId : UInt16)
    (fingerprint : UInt32) (now : Nat) :
    (t.fill slot channel id originalId fingerprint now).Inv none (l ++ [slot]) := by
  have hnot : slot ∉ l := fun hl => by simp [(h.mem.mp hl).2] at hu
  have hne : ∀ j ∈ l, j ≠ slot := fun j hj he => hnot (he ▸ hj)
  refine ⟨?_, ?_, ?_, h.free_nodup, ?_, ?_⟩
  · intro j
    rw [List.mem_append, List.mem_singleton, h.mem]
    show _ ↔ j < t.capacity ∧ (update t.transactions slot _ j).used = true
    rcases eq_or_ne j slot with rfl | hj
    · simp [hslot]
    · simp [hj]
  · show DLists.Rep (t.lru.attachTail () slot) _
    rw [h.rep.attachTail_eq]
    exact h.rep.addOne hnot
  · intro j
    show j ∈ t.free ↔ j < t.capacity ∧ (update t.transactions slot _ j).used = false ∧ none ≠ some j
    rw [h.free]
    rcases eq_or_ne j slot with rfl | hj
    · simp
    · simp [hj, Ne.symm hj]
  · intro j hj
    show (update t.transactions slot _ j).channelIndex < t.channelCount
    rcases List.mem_append.mp hj with hj | hj
    · rw [update_of_ne (hne j hj)]
      exact h.channel j hj
    · obtain rfl := List.mem_singleton.mp hj
      rw [update_self]
      exact hch
  · intro c id' j
    show update t.lookup (lookupOffset channel id) (some slot) (lookupOffset c id') = some j ↔
      _ ∧ (update t.transactions slot _ j).channelIndex = c ∧
      (update t.transactions slot _ j).rewrittenId = id'
    rw [List.mem_append, List.mem_singleton]
    -- each channel and id have an offset of their own
    by_cases hoff : lookupOffset c id' = lookupOffset channel id
    · obtain ⟨rfl, rfl⟩ := lookupOffset_inj.mp hoff
      rw [update_self, Option.some.injEq]
      constructor
      · rintro rfl
        simp
      · rintro ⟨hj | rfl, hc, hi⟩
        · rw [update_of_ne (hne j hj)] at hc hi
          rw [h.lookup.mpr ⟨hj, hc, hi⟩] at hid
          simp at hid
        · rfl
    · rw [update_of_ne hoff, h.lookup]
      constructor
      · rintro ⟨hj, hc, hi⟩
        rw [update_of_ne (hne j hj)]
        exact ⟨Or.inl hj, hc, hi⟩
      · rintro ⟨hj | rfl, hc, hi⟩
        · rw [update_of_ne (hne j hj)] at hc hi
          exact ⟨hj, hc, hi⟩
        · rw [update_self] at hc hi
          exact absurd (by rw [← hc, ← hi]) hoff

/-- What an allocation on an existing channel does: it succeeds on that very channel, in a free
slot while there is one and in place of the oldest transaction otherwise, and touches no other
transaction. -/
structure Table.Allocated (t : Table) (l : List Nat) (channel : UInt32) (originalId : UInt16)
    (fingerprint : UInt32) (now : Nat) (t' : Table) (slot : Nat) : Prop where
  inv : t'.Inv none (l.erase slot ++ [slot])
  capacity : t'.capacity = t.capacity
  channelCount : t'.channelCount = t.channelCount
  slot_lt : slot < t.capacity
  filled : (t'.transactions slot).used = true ∧ (t'.transactions slot).channelIndex = channel ∧
    (t'.transactions slot).originalId = originalId ∧
    (t'.transactions slot).questionFingerprint = fingerprint ∧
    (t'.transactions slot).sentAtMs = now
  others : ∀ j, j ≠ slot → t'.transactions j = t.transactions j
  origin : slot ∉ l ∧ t.free ≠ [] ∨ l.head? = some slot ∧ t.free = []

theorem Table.Inv.alloc (h : t.Inv none l) (hpos : 0 < t.capacity) (hcap : t.capacity ≤ 65536)
    (hch : channel < t.channelCount) (originalId : UInt16) (fingerprint : UInt32) (now : Nat) :
    ∃ t' slot, t.alloc channel originalId fingerprint now = (t', .ok slot) ∧
      t.Allocated l channel originalId fingerprint now t' slot := by
  obtain ⟨t', slot, htake, hinv, hlt, hu, hcap', hcount, hothers, horigin⟩ := h.takeSlot hpos
  have hch' : channel < t'.channelCount := hcount ▸ hch
  obtain ⟨id, hid, hsel⟩ := hinv.selectId (hcap' ▸ hlt) hu (hcap' ▸ hcap) hch'
  have hinv' : Table.Inv { t' with nextIds := update t'.nextIds channel (id + 1) } (some slot)
      (l.erase slot) := hinv.congr rfl rfl rfl rfl rfl rfl
  refine ⟨_, slot, ?_, hinv'.fill (hcap' ▸ hlt) hu hch' hid originalId fingerprint now, hcap',
    hcount, hlt, ?_, fun j hj => ?_, horigin⟩
  · unfold Table.alloc
    rw [if_neg (UInt32.not_le.mpr hch), htake]
    simp only [hsel]
  · simp [Table.fill]
  · exact (update_of_ne hj _ _).trans (hothers j hj)

end Alloc

/-- A filled slot is the youngest. -/
theorem Table.Allocated.aged {t t' : Table} {l : List Nat} {channel : UInt32} {originalId : UInt16}
    {fingerprint : UInt32} {now last slot : Nat} {hole : Option Nat}
    (h : t.Allocated l channel originalId fingerprint now t' slot) (hinv : t.Inv hole l)
    (haged : t.Aged l last) (hle : last ≤ now) : t'.Aged (l.erase slot ++ [slot]) now := by
  have he := haged.erase hinv.nodup h.others
  have hnow : (t'.transactions slot).sentAtMs = now := h.filled.2.2.2.2
  refine ⟨List.pairwise_append.mpr ⟨he.sorted, by simp, fun i hi j hj => ?_⟩, fun i hi => ?_⟩
  · obtain rfl := List.mem_singleton.mp hj
    rw [hnow]
    exact Nat.le_trans (he.past i hi) hle
  · rcases List.mem_append.mp hi with hi | hi
    · exact Nat.le_trans (he.past i hi) hle
    · obtain rfl := List.mem_singleton.mp hi
      exact Nat.le_of_eq hnow

/-! ## Expiry -/

/-- The sizes a table is created with. -/
structure Table.SameSize (t t' : Table) : Prop where
  capacity : t'.capacity = t.capacity
  channelCount : t'.channelCount = t.channelCount

theorem Table.expireFrom_inv {now timeout last : Nat} (n : Nat) {t : Table} {l : List Nat}
    {stale : List Bool} (h : t.Inv none l) (ha : t.Aged l last) :
    ∃ l', (Table.expireFrom now timeout n t stale).1.Inv none l' ∧
      (Table.expireFrom now timeout n t stale).1.Aged l' last ∧
      t.SameSize (Table.expireFrom now timeout n t stale).1 := by
  induction n generalizing t l stale with
  | zero => exact ⟨l, h, ha, rfl, rfl⟩
  | succ n ih =>
      unfold Table.expireFrom
      rcases t.lru.head () with _ | i
      · exact ⟨l, h, ha, rfl, rfl⟩
      · dsimp only
        split
        · exact ⟨l, h, ha, rfl, rfl⟩
        · obtain ⟨l', hinv, haged, hcap, hcount⟩ :=
            ih (h.release i) (ha.erase h.nodup fun j hj => Table.release_transactions hj)
          exact ⟨l', hinv, haged, hcap.trans (t.release_capacity i),
            hcount.trans (t.release_channelCount i)⟩

/-! ## Runs -/

/-- A call on the table. -/
inductive Op where
  | alloc (preferred : UInt32) (originalId : UInt16) (fingerprint : UInt32) (nowMs : Nat)
  | release (slot : Nat)
  | expire (nowMs timeoutMs maxExpire : Nat) (stale : List Bool)
  | noteResponse (channel : UInt32)

/-- The time a call is given. -/
def Op.nowMs : Op → Option Nat
  | .alloc _ _ _ now => some now
  | .expire now _ _ _ => some now
  | .release _ => none
  | .noteResponse _ => none

/-- The table after a call. -/
def Table.apply (t : Table) : Op → Table
  | .alloc preferred originalId fingerprint now => (t.alloc preferred originalId fingerprint now).1
  | .release slot => t.release slot
  | .expire now timeout max stale => (t.expire now timeout max stale).1
  | .noteResponse channel => t.noteResponse channel

/-- The table after a sequence of calls. -/
def Table.run (t : Table) (ops : List Op) : Table := ops.foldl Table.apply t

/-- One call keeps the invariant. -/
theorem Table.apply_inv {t : Table} {l : List Nat} {last : Nat} (h : t.Inv none l)
    (ha : t.Aged l last) (hpos : 0 < t.capacity) (hcap : t.capacity ≤ 65536) (op : Op)
    (hop : ∀ now, op.nowMs = some now → last ≤ now) :
    ∃ l', (t.apply op).Inv none l' ∧ (t.apply op).Aged l' (op.nowMs.getD last) ∧
      t.SameSize (t.apply op) := by
  cases op with
  | alloc preferred originalId fingerprint now =>
      have hle := hop now rfl
      by_cases hch : preferred < t.channelCount
      · obtain ⟨t', slot, heq, hdone⟩ := h.alloc hpos hcap hch originalId fingerprint now
        simp only [Table.apply, heq]
        exact ⟨_, hdone.inv, hdone.aged h ha hle, hdone.capacity, hdone.channelCount⟩
      · have heq : t.alloc preferred originalId fingerprint now = (t, .error .einval) :=
          if_pos (UInt32.not_lt.mp hch)
        simp only [Table.apply, heq]
        exact ⟨l, h, ha.later hle, rfl, rfl⟩
  | release slot =>
      exact ⟨_, h.release slot, ha.erase h.nodup fun j hj => Table.release_transactions hj,
        t.release_capacity slot, t.release_channelCount slot⟩
  | expire now timeout max stale =>
      obtain ⟨l', hinv, haged, hsize⟩ := Table.expireFrom_inv max h ha
      exact ⟨l', hinv, haged.later (hop now rfl), hsize⟩
  | noteResponse channel =>
      simp only [Table.apply, Table.noteResponse]
      split
      · exact ⟨l, h, ha, rfl, rfl⟩
      · exact ⟨l, h.congr rfl rfl rfl rfl rfl rfl, ⟨ha.sorted, ha.past⟩, rfl, rfl⟩

/-- A sequence of calls with nondecreasing times keeps it. -/
theorem Table.run_inv (ops : List Op) {t : Table} {l : List Nat} {last : Nat} (h : t.Inv none l)
    (ha : t.Aged l last) (hpos : 0 < t.capacity) (hcap : t.capacity ≤ 65536)
    (htimes : (last :: ops.filterMap Op.nowMs).Pairwise (· ≤ ·)) :
    ∃ l' last', (t.run ops).Inv none l' ∧ (t.run ops).Aged l' last' ∧ t.SameSize (t.run ops) := by
  induction ops generalizing t l last with
  | nil => exact ⟨l, last, h, ha, rfl, rfl⟩
  | cons op ops ih =>
      have hop : ∀ now, op.nowMs = some now → last ≤ now := fun now hnow =>
        (List.pairwise_cons.mp htimes).1 now (by simp [hnow])
      obtain ⟨l', hinv, haged, hsize⟩ := Table.apply_inv h ha hpos hcap op hop
      obtain ⟨l'', last', hinv', haged', hsize'⟩ := ih hinv haged (hsize.capacity ▸ hpos)
        (hsize.capacity ▸ hcap) (by
          rcases hnow : op.nowMs with _ | now
          · simpa [List.filterMap_cons, hnow] using htimes
          · have := (List.pairwise_cons.mp htimes).2
            simpa [List.filterMap_cons, hnow] using this)
      exact ⟨l'', last', hinv', haged', hsize'.capacity.trans hsize.capacity,
        hsize'.channelCount.trans hsize.channelCount⟩

/-- A transaction is evicted exactly when every slot is in use, and then it is the oldest. -/
theorem Table.Allocated.evicts {t t' : Table} {l : List Nat} {channel : UInt32}
    {originalId : UInt16} {fingerprint : UInt32} {now last slot : Nat}
    (h : t.Allocated l channel originalId fingerprint now t' slot) (hinv : t.Inv none l)
    (haged : t.Aged l last) :
    ((t.transactions slot).used = true ↔ ∀ j < t.capacity, (t.transactions j).used = true) ∧
    ((t.transactions slot).used = true → t.lru.head () = some slot ∧
      ∀ j < t.capacity, (t.transactions slot).sentAtMs ≤ (t.transactions j).sentAtMs) := by
  have hslot : (t.transactions slot).used = true ↔ slot ∈ l :=
    ⟨fun hu => hinv.mem.mpr ⟨h.slot_lt, hu⟩, fun hl => (hinv.mem.mp hl).2⟩
  have hfull : t.free = [] → ∀ j < t.capacity, (t.transactions j).used = true := by
    intro hnil j hj
    by_contra hu
    have := hinv.free.mpr ⟨hj, Bool.eq_false_of_not_eq_true hu, by simp⟩
    simp [hnil] at this
  rcases h.origin with ⟨hnot, hne⟩ | ⟨hhead, hnil⟩
  · obtain ⟨i, hi⟩ := List.exists_mem_of_ne_nil _ hne
    obtain ⟨hlt, hu, -⟩ := hinv.free.mp hi
    refine ⟨⟨fun hs => absurd (hslot.mp hs) hnot, fun hall => ?_⟩,
      fun hs => absurd (hslot.mp hs) hnot⟩
    exact absurd (hall i hlt) (by simp [hu])
  · obtain ⟨rest, rfl⟩ : ∃ rest, l = slot :: rest := List.head?_eq_some_iff.mp hhead
    refine ⟨⟨fun _ => hfull hnil, fun hall => hall slot h.slot_lt⟩, fun _ => ⟨?_, fun j hj => ?_⟩⟩
    · rw [hinv.head_eq]
      rfl
    · rcases List.mem_cons.mp (hinv.mem.mpr ⟨hj, hfull hnil j hj⟩) with rfl | hmem
      · exact Nat.le_refl _
      · exact (List.pairwise_cons.mp haged.sorted).1 j hmem

/-- After initialisation and any calls at nondecreasing times the four representations agree and
the list is in order of age; and the next allocation on an existing channel succeeds on that
channel, evicting the oldest transaction when the table is full and none otherwise. -/
theorem dns_table_invariant {channelCount : UInt32} {capacity : Nat} {memory : Bool} {t : Table}
    (hinit : Table.init channelCount capacity memory = some t) (hcap : capacity ≤ 65536)
    (ops : List Op) (htimes : (ops.filterMap Op.nowMs).Pairwise (· ≤ ·)) :
    (∃ l, (t.run ops).Inv none l ∧ l.Pairwise fun i j =>
      ((t.run ops).transactions i).sentAtMs ≤ ((t.run ops).transactions j).sentAtMs) ∧
    (t.run ops).capacity = capacity ∧ (t.run ops).channelCount = channelCount ∧
    ∀ preferred < channelCount, ∀ originalId fingerprint nowMs, ∃ t' slot,
      (t.run ops).alloc preferred originalId fingerprint nowMs = (t', .ok slot) ∧
      (t'.transactions slot).used = true ∧ (t'.transactions slot).channelIndex = preferred ∧
      (∀ j, j ≠ slot → t'.transactions j = (t.run ops).transactions j) ∧
      (((t.run ops).transactions slot).used = true ↔
        ∀ j < capacity, ((t.run ops).transactions j).used = true) ∧
      (((t.run ops).transactions slot).used = true → (t.run ops).lru.head () = some slot ∧
        ∀ j < capacity, ((t.run ops).transactions slot).sentAtMs ≤
          ((t.run ops).transactions j).sentAtMs) := by
  obtain ⟨hinv, hc, hch, hpos⟩ := Table.inv_init hinit
  obtain ⟨l, last, hrun, haged, hc', hch'⟩ := Table.run_inv ops hinv
    (⟨by simp, by simp⟩ : t.Aged [] 0) (hc ▸ hpos) (hc ▸ hcap)
    (List.pairwise_cons.mpr ⟨fun _ _ => Nat.zero_le _, htimes⟩)
  rw [hc] at hc'
  rw [hch] at hch'
  refine ⟨⟨l, hrun, haged.sorted⟩, hc', hch', fun preferred hpre originalId fingerprint nowMs => ?_⟩
  obtain ⟨t', slot, heq, hdone⟩ := hrun.alloc (hc'.symm ▸ hpos) (hc'.symm ▸ hcap)
    (hch'.symm ▸ hpre) originalId fingerprint nowMs
  have hev := hdone.evicts hrun haged
  rw [hc'] at hev
  exact ⟨t', slot, heq, hdone.filled.1, hdone.filled.2.1, hdone.others, hev.1, hev.2⟩

/-- Two channels and one slot: the second allocation evicts the first, the release empties the
table, and the expiry finds nothing. -/
theorem dns_table_invariant_run : ∃ t, Table.init 2 1 true = some t ∧
    (t.run [.alloc 1 7 9 5, .alloc 0 8 9 6, .release 0, .expire 7 1 64 [], .noteResponse 1,
      .alloc 1 9 9 7]).lookup (lookupOffset 1 1) = some 0 ∧
    ∃ l, (t.run [.alloc 1 7 9 5, .alloc 0 8 9 6, .release 0, .expire 7 1 64 [], .noteResponse 1,
      .alloc 1 9 9 7]).Inv none l := by
  obtain ⟨l, hl, -⟩ := (dns_table_invariant (show Table.init 2 1 true = some _ from rfl)
    (by decide) [.alloc 1 7 9 5, .alloc 0 8 9 6, .release 0, .expire 7 1 64 [],
      .noteResponse 1, .alloc 1 9 9 7] (by decide)).1
  exact ⟨_, rfl, by decide, l, hl⟩

end Bpf2Socks.Dns
