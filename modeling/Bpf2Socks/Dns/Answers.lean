/-
# Bpf2Socks.Dns.Answers — every answer goes to the client that asked.

`Served` is the invariant of the fast path: each slot in use belongs to one query, no query has two
slots, and no answered query has one.  It makes every forwarded response right.

`Holding` is about the slots a client batch remembers.  While the channel of an entry is available
its slot still holds the entry's own transaction.  Releases cannot break this (`Steady`); an
allocation could only by evicting one, but it evicts the oldest of 8192 transactions and the
entries of a batch are among the last 64 (`Recent`).
-/
import Bpf2Socks.Dns.Steady

namespace Bpf2Socks.Dns

open Function (update update_self update_of_ne)
open Fast
open Lib (Prog)
open Lib.Act (Keeps keeps_get keeps_ask keeps_pure keeps_ite keeps_modify sat_ite)
open Udp (ClientPacket RelayDatagram)

variable {A : State → (q : Sys) → q.Ans → Prop} {s s' : State} {c : UInt32} {fresh : Option Nat}

/-! ## The invariant -/

/-- An answer is right: it went to the client of its query with that query's id and is otherwise as
it arrived; the query was live, on the channel and under the id the response came in with; and a
question in it has the query's fingerprint. -/
def Answer.Right (queries : List Query) (a : Answer) : Prop :=
  ∃ q, queries[a.uid]? = some q ∧ a.client = q.client ∧ readBe16 a.payload 0 = q.id ∧
    a.payload = setId a.arrived q.id ∧ a.tx.used = true ∧ a.tx.channelIndex = a.channel ∧
    a.tx.rewrittenId = readBe16 a.arrived 0 ∧
    ∀ info, parseResponse a.arrived = some info → info.hasQuestion = true →
      info.questionFingerprint = q.fingerprint

/-- A flush dealt with the transaction of the entry itself. -/
def Flushed.Own (f : Flushed) : Prop :=
  f.found.used = true ∧ f.found.channelIndex = f.entry.channel ∧ f.foundUid = f.entry.uid

/-- The invariant.  A slot that is allocated and not yet given to its query is `fresh`.  What the
kernel took for clients are the answers, and what it took for the relays are the entries sent. -/
structure Served (s : State) (fresh : Option Nat) : Prop where
  table : ∃ l, s.table.Inv none l
  capacity : s.table.capacity = maxTransactionsPerWorker
  channelCount : s.table.channelCount = channelsPerWorker
  bounded : ∀ i, (s.table.transactions i).used = true → i < s.table.capacity
  owner : ∀ i, (s.table.transactions i).used = true → fresh ≠ some i →
    s.trace.queries[s.trace.owner i]? = some ⟨(s.table.transactions i).clientAddr,
      (s.table.transactions i).originalId, (s.table.transactions i).questionFingerprint⟩
  apart : ∀ i j, (s.table.transactions i).used = true → (s.table.transactions j).used = true →
    fresh ≠ some i → fresh ≠ some j → s.trace.owner i = s.trace.owner j → i = j
  unanswered : ∀ i, (s.table.transactions i).used = true → fresh ≠ some i →
    ∀ a ∈ s.trace.answers, a.uid ≠ s.trace.owner i
  once : (s.trace.answers.map (·.uid)).Nodup
  right : ∀ a ∈ s.trace.answers, a.Right s.trace.queries
  flushed : ∀ f ∈ s.trace.flushed, f.Own
  replies : s.trace.replies = s.trace.answers.map fun a => (a.client, a.payload)
  relayed : s.trace.relayed =
    (s.trace.flushed.filter fun f => f.deed = .sent).map fun f => f.entry.msg

theorem Served.shrinks (h : Served s fresh) (hs : Shrinks s s') : Served s' fresh := by
  obtain ⟨l, hl⟩ := h.table
  obtain ⟨l', hl', -⟩ := hs.inv l hl
  refine ⟨⟨l', hl'⟩, hs.capacity.trans h.capacity, hs.channelCount.trans h.channelCount,
    fun i hu => ?_, fun i hu hf => ?_, fun i j hu hu' hf hf' he => ?_, fun i hu hf => ?_, ?_, ?_,
    ?_, ?_, ?_⟩
  · rw [hs.capacity]
    exact h.bounded i (hs.kept i hu ▸ hu)
  · have heq := hs.kept i hu
    rw [heq] at hu ⊢
    rw [hs.trace]
    exact h.owner i hu hf
  · rw [hs.kept i hu] at hu
    rw [hs.kept j hu'] at hu'
    rw [hs.trace] at he
    exact h.apart i j hu hu' hf hf' he
  · rw [hs.kept i hu] at hu
    rw [hs.trace]
    exact h.unanswered i hu hf
  · rw [hs.trace]
    exact h.once
  · rw [hs.trace]
    exact h.right
  · rw [hs.trace]
    exact h.flushed
  · rw [hs.trace]
    exact h.replies
  · rw [hs.trace]
    exact h.relayed

/-- A fresh slot that was given up is no exception any more. -/
theorem Served.settle {slot : Nat} (h : Served s (some slot))
    (hu : (s.table.transactions slot).used = false) : Served s none := by
  have hne : ∀ i, (s.table.transactions i).used = true → some slot ≠ some i := by
    rintro i hi he
    rw [← Option.some.inj he, hu] at hi
    exact Bool.false_ne_true hi
  exact { h with
    owner := fun i hi _ => h.owner i hi (hne i hi)
    apart := fun i j hi hj _ _ => h.apart i j hi hj (hne i hi) (hne j hj)
    unanswered := fun i hi _ => h.unanswered i hi (hne i hi) }

theorem served_init {cfg : Config} (h : initState cfg = some s) : Served s none := by
  unfold initState at h
  obtain ⟨t, ht, rfl⟩ := Option.map_eq_some_iff.mp h
  obtain ⟨hinv, hcap, hcount, -⟩ := Table.inv_init ht
  have hzero : ∀ i, (t.transactions i).used = false := by
    intro i
    by_contra hu
    have := hinv.mem.mpr ⟨?_, Bool.eq_true_of_not_eq_false hu⟩
    · simp at this
    · unfold Table.init at ht
      simp only [channelsPerWorker, maxTransactionsPerWorker] at ht
      obtain rfl := Option.some.inj ht
      simp [Transaction.zero] at hu
  refine ⟨⟨[], hinv⟩, hcap, hcount, fun i hu => ?_, fun i hu => ?_, fun i j hu => ?_,
    fun i hu => ?_, by simp, by simp, by simp, rfl, rfl⟩
  all_goals simp [hzero] at hu

/-! ## The entries of a batch -/

/-- The slot of an entry still holds the entry's own transaction. -/
def Entry.Holds (s : State) (e : Entry) : Prop :=
  (s.table.transactions e.slot).used = true ∧
    (s.table.transactions e.slot).channelIndex = e.channel ∧ s.trace.owner e.slot = e.uid

/-- It does so as long as the entry's channel is available. -/
structure Holding (s : State) (entries : List Entry) : Prop where
  channel : ∀ e ∈ entries, e.channel < channelsPerWorker
  holds : ∀ e ∈ entries, (s.channels e.channel).available = true → e.Holds s
  uids : (entries.map (·.uid)).Nodup

/-- The slots of the entries and the fresh one are among the youngest, of which there are `n`
besides the fresh one. -/
def Recent (s : State) (entries : List Entry) (fresh : Option Nat) (n : Nat) : Prop :=
  ∃ old young, s.table.Inv none (old ++ young) ∧
    (young.filter fun i => fresh ≠ some i).length ≤ n ∧
    (∀ e ∈ entries, e.Holds s → e.slot ∈ young) ∧
    ∀ i, fresh = some i → (s.table.transactions i).used = true → i ∈ young

theorem Entry.Holds.shrinks {e : Entry} (hs : Shrinks s s') (h : e.Holds s') : e.Holds s := by
  obtain ⟨hu, hc, ho⟩ := h
  have heq := hs.kept _ hu
  rw [heq] at hu hc
  rw [hs.trace] at ho
  exact ⟨hu, hc, ho⟩

theorem Holding.steady {entries : List Entry} (h : Holding s entries) (hs : Steady s s') :
    Holding s' entries := by
  refine ⟨h.channel, fun e he ha => ?_, h.uids⟩
  obtain ⟨ha', hkept⟩ := hs.channels _ ha
  obtain ⟨hu, hc, ho⟩ := h.holds e he ha'
  have heq := hkept e.slot hu hc
  exact ⟨heq ▸ hu, heq ▸ hc, hs.trace ▸ ho⟩

theorem Recent.shrinks {entries : List Entry} {n : Nat} (h : Recent s entries fresh n)
    (hs : Shrinks s s') : Recent s' entries fresh n := by
  obtain ⟨old, young, hinv, hn, hent, hfresh⟩ := h
  obtain ⟨l', hinv', hsub⟩ := hs.inv _ hinv
  obtain ⟨old', young', rfl, hold, hyoung⟩ := List.sublist_append_iff.mp hsub
  have hstay : ∀ i ∈ young, (s'.table.transactions i).used = true → i ∈ young' := by
    intro i hi hu
    have hlt : i < s'.table.capacity := by
      rw [hs.capacity]
      exact (hinv.mem.mp (List.mem_append_right _ hi)).1
    rcases List.mem_append.mp (hinv'.mem.mpr ⟨hlt, hu⟩) with ho | hy
    · exact absurd hi (List.disjoint_of_nodup_append hinv.nodup (hold.mem ho))
    · exact hy
  refine ⟨old', young', hinv', Nat.le_trans (hyoung.filter _).length_le hn, fun e he hh => ?_,
    fun i hi hu => ?_⟩
  · exact hstay _ (hent e he (hh.shrinks hs)) hh.1
  · refine hstay i (hfresh i hi ?_) hu
    rw [← hs.kept i hu]
    exact hu

theorem Recent.settle {entries : List Entry} {n slot : Nat} (h : Recent s entries (some slot) n)
    (hu : (s.table.transactions slot).used = false) : Recent s entries none n := by
  obtain ⟨old, young, hinv, hn, hent, -⟩ := h
  have hall : young.filter (fun i => some slot ≠ some i) = young :=
    List.filter_eq_self.mpr fun i hi => by
      simp only [ne_eq, Option.some.injEq, decide_not, Bool.not_eq_true', decide_eq_false_iff_not]
      rintro rfl
      rw [(hinv.mem.mp (List.mem_append_right _ hi)).2] at hu
      exact Bool.false_ne_true hu.symm
  rw [hall] at hn
  exact ⟨old, young, hinv, by simpa using hn, hent, by simp⟩

/-! ## Taking a query -/

/-- A full list is as long as the table. -/
theorem Table.Inv.length_of_full {t : Table} {l : List Nat} (h : t.Inv none l)
    (hnil : t.free = []) : t.capacity ≤ l.length := by
  have hsub : List.range t.capacity ⊆ l := by
    intro i hi
    refine h.mem.mpr ⟨List.mem_range.mp hi, ?_⟩
    by_contra hu
    have := h.free.mpr ⟨List.mem_range.mp hi, Bool.eq_false_of_not_eq_true hu, by simp⟩
    simp [hnil] at this
  simpa using (List.nodup_range.subperm hsub).length_le

/-- Changing the fields of a slot that the table does not look at. -/
theorem Table.Inv.update_tx {t : Table} {hole : Option Nat} {l : List Nat} {slot : Nat}
    {tx : Transaction} (h : t.Inv hole l) (hu : tx.used = (t.transactions slot).used)
    (hc : tx.channelIndex = (t.transactions slot).channelIndex)
    (hr : tx.rewrittenId = (t.transactions slot).rewrittenId) :
    Table.Inv { t with transactions := update t.transactions slot tx } hole l := by
  have heq : ∀ {β : Type} (f : Transaction → β), f tx = f (t.transactions slot) →
      ∀ i, f (update t.transactions slot tx i) = f (t.transactions i) := by
    intro β f hf i
    rcases eq_or_ne i slot with rfl | hi
    · rw [update_self, hf]
    · rw [update_of_ne hi]
  refine ⟨?_, h.rep, ?_, h.free_nodup, ?_, ?_⟩
  · intro i
    show _ ↔ _ ∧ (update t.transactions slot tx i).used = true
    rw [heq (·.used) hu]
    exact h.mem
  · intro i
    show _ ↔ _ ∧ (update t.transactions slot tx i).used = false ∧ _
    rw [heq (·.used) hu]
    exact h.free
  · intro i hi
    show (update t.transactions slot tx i).channelIndex < _
    rw [heq (·.channelIndex) hc]
    exact h.channel i hi
  · intro c id i
    show _ ↔ _ ∧ (update t.transactions slot tx i).channelIndex = c ∧
      (update t.transactions slot tx i).rewrittenId = id
    rw [heq (·.channelIndex) hc, heq (·.rewrittenId) hr]
    exact h.lookup

/-- What an allocation leaves: the new slot is fresh, the entries of the batch are where they
were. -/
theorem allocated_served {entries : List Entry} {n slot : Nat} {id : UInt16} {fp : UInt32}
    {now : Nat} {t' : Table} (h : Served s none) (hh : Holding s entries)
    (hr : Recent s entries none n) (hn : n < maxTransactionsPerWorker)
    (hch : c < channelsPerWorker)
    (halloc : s.table.alloc c id fp now = (t', .ok slot)) :
    Served { s with table := t' } (some slot) ∧ Holding { s with table := t' } entries ∧
      Recent { s with table := t' } entries (some slot) n ∧
      (t'.transactions slot).used = true ∧ (t'.transactions slot).channelIndex = c ∧
      (t'.transactions slot).originalId = id ∧
      (t'.transactions slot).questionFingerprint = fp ∧
      slot < s.table.capacity ∧
      ∀ e ∈ entries, (s.channels e.channel).available = true → e.slot ≠ slot := by
  obtain ⟨old, young, hinv, hlen, hent, -⟩ := hr
  simp only [ne_eq, reduceCtorEq, not_false_eq_true, decide_true, List.filter_true] at hlen
  obtain ⟨t'', slot', heq, hdone⟩ := hinv.alloc (h.capacity ▸ by decide) (h.capacity ▸ by decide)
    (h.channelCount ▸ hch) id fp now
  obtain ⟨rfl, hslot⟩ := Prod.mk.inj (halloc.symm.trans heq)
  obtain rfl := Except.ok.inj hslot
  -- the slot is new or the oldest of all, so it is not one of the young ones
  have hnot : slot ∉ young := by
    rcases hdone.origin with ⟨hnew, -⟩ | ⟨hhead, hfull⟩
    · exact fun hm => hnew (List.mem_append_right _ hm)
    · have hcap := hinv.length_of_full hfull
      rw [h.capacity, List.length_append] at hcap
      obtain ⟨x, old, rfl⟩ : ∃ x o, old = x :: o :=
        List.exists_cons_of_ne_nil fun hnil => by simp [hnil] at hcap; omega
      obtain rfl : x = slot := by simpa using hhead
      exact fun hm => List.disjoint_of_nodup_append hinv.nodup List.mem_cons_self hm
  have herase : (old ++ young).erase slot = old.erase slot ++ young := by
    by_cases ho : slot ∈ old
    · exact List.erase_append_left young ho
    · rw [List.erase_append_right young ho, List.erase_of_not_mem ho, List.erase_of_not_mem hnot]
  have hother : ∀ e ∈ entries, e.Holds s → e.slot ≠ slot :=
    fun e he hh heq => hnot (heq ▸ hent e he hh)
  have hne : ∀ i, some slot ≠ some i → t'.transactions i = s.table.transactions i :=
    fun i hi => hdone.others i fun e => hi (congrArg some e.symm)
  refine ⟨⟨⟨_, hdone.inv⟩, hdone.capacity.trans h.capacity,
    hdone.channelCount.trans h.channelCount, fun i hu => ?_, fun i hu hi => ?_,
    fun i j hu hu' hi hj => ?_, fun i hu hi => ?_, h.once, h.right, h.flushed, h.replies,
    h.relayed⟩, ⟨hh.channel, fun e he ha => ?_, hh.uids⟩,
    ⟨old.erase slot, young ++ [slot], ?_, ?_, fun e he hh => ?_, fun i hi _ => ?_⟩,
    hdone.filled.1, hdone.filled.2.1, hdone.filled.2.2.1, hdone.filled.2.2.2.1,
    hdone.slot_lt, fun e he ha => hother e he (hh.holds e he ha)⟩
  · show i < t'.capacity
    rw [hdone.capacity]
    rcases eq_or_ne i slot with rfl | hi
    · exact hdone.slot_lt
    · exact h.bounded i (hdone.others i hi ▸ hu)
  · have hi' := hne i hi
    simp only [hi'] at hu ⊢
    exact h.owner i hu (by simp)
  · simp only [hne i hi] at hu
    simp only [hne j hj] at hu'
    exact h.apart i j hu hu' (by simp) (by simp)
  · simp only [hne i hi] at hu
    exact h.unanswered i hu (by simp)
  · have hold := hh.holds e he ha
    have hi := hdone.others _ (hother e he hold)
    exact ⟨hi ▸ hold.1, hi ▸ hold.2.1, hold.2.2⟩
  · have := hdone.inv
    rwa [herase, List.append_assoc] at this
  · have hall : young.filter (fun i => some slot ≠ some i) = young :=
      List.filter_eq_self.mpr fun i hi => by
        simp only [ne_eq, Option.some.injEq, decide_not, Bool.not_eq_true', decide_eq_false_iff_not]
        rintro rfl
        exact hnot hi
    rw [List.filter_append, hall]
    simpa using hlen
  · by_cases hi : e.slot = slot
    · rw [hi]
      simp
    · have heq := hdone.others _ hi
      obtain ⟨hu, hc, ho⟩ := hh
      simp only [heq] at hu hc
      exact List.mem_append_left _ (hent e he ⟨hu, hc, ho⟩)
  · obtain rfl := Option.some.inj hi
    simp

/-- The query takes over its fresh slot. -/
theorem noteQuery_served {entries : List Entry} {n slot : Nat} {p : ClientPacket}
    {info : PacketInfo} (h : Served s (some slot)) (hh : Holding s entries)
    (hr : Recent s entries (some slot) n) (hu : (s.table.transactions slot).used = true)
    (hc : (s.table.transactions slot).channelIndex = c) (hch : c < channelsPerWorker)
    (hid : (s.table.transactions slot).originalId = info.id)
    (hfp : (s.table.transactions slot).questionFingerprint = info.questionFingerprint)
    (hlt : ∀ e ∈ entries, e.uid < s.trace.queries.length)
    (hapart : ∀ e ∈ entries, (s.channels e.channel).available = true → e.slot ≠ slot) (msg : Msg) :
    Served (noteQuery s slot p info) none ∧
      Holding (noteQuery s slot p info) (entries ++ [⟨slot, c, msg, s.trace.queries.length⟩]) ∧
      Recent (noteQuery s slot p info) (entries ++ [⟨slot, c, msg, s.trace.queries.length⟩])
        none (n + 1) := by
  obtain ⟨old, young, hinv, hlen, hent, hfresh⟩ := hr
  have hyoung : slot ∈ young := hfresh slot rfl hu
  have hlen' : young.length ≤ n + 1 := by
    have hnd : young.Nodup := (List.nodup_append.mp hinv.nodup).2.1
    have heq : young.filter (fun i => some slot ≠ some i) = young.erase slot := by
      rw [hnd.erase_eq_filter]
      refine List.filter_congr fun i _ => ?_
      rcases eq_or_ne i slot with rfl | hi
      · simp
      · simp [hi, Ne.symm hi]
    rw [heq, List.length_erase_of_mem hyoung] at hlen
    omega
  have htx : ∀ i, i ≠ slot → (noteQuery s slot p info).table.transactions i =
      s.table.transactions i := fun i hi => update_of_ne hi _ _
  have hown : ∀ i, i ≠ slot → (noteQuery s slot p info).trace.owner i = s.trace.owner i :=
    fun i hi => update_of_ne hi _ _
  have hown' : (noteQuery s slot p info).trace.owner slot = s.trace.queries.length :=
    update_self _ _ _
  have hused : ∀ i, ((noteQuery s slot p info).table.transactions i).used =
      (s.table.transactions i).used := by
    intro i
    rcases eq_or_ne i slot with rfl | hi
    · simp [noteQuery]
    · rw [htx i hi]
  have hchan : ∀ i, ((noteQuery s slot p info).table.transactions i).channelIndex =
      (s.table.transactions i).channelIndex := by
    intro i
    rcases eq_or_ne i slot with rfl | hi
    · simp [noteQuery]
    · rw [htx i hi]
  have hqueries : (noteQuery s slot p info).trace.queries =
      s.trace.queries ++ [⟨p.clientAddr, info.id, info.questionFingerprint⟩] := rfl
  have hsome : ∀ i, i ≠ slot → some slot ≠ some i := fun i hi e => hi (Option.some.inj e).symm
  have hold : ∀ i, i ≠ slot → (s.table.transactions i).used = true →
      s.trace.owner i < s.trace.queries.length := fun i hi hu =>
    (List.getElem?_eq_some_iff.mp (h.owner i hu (hsome i hi))).1
  have hinv' : (noteQuery s slot p info).table.Inv none (old ++ young) := hinv.update_tx rfl rfl rfl
  -- an entry that holds its slot after the note is the new one or held it before
  have hback : ∀ e ∈ entries, e.Holds (noteQuery s slot p info) → e.slot ≠ slot ∧ e.Holds s := by
    intro e he ⟨hu', hc', ho'⟩
    have hne : e.slot ≠ slot := by
      intro heq
      rw [heq, hown'] at ho'
      exact absurd (hlt e he) (by omega)
    exact ⟨hne, hused _ ▸ hu', hchan _ ▸ hc', hown _ hne ▸ ho'⟩
  refine ⟨⟨⟨_, hinv'⟩, h.capacity, h.channelCount, fun i hi => h.bounded i (hused i ▸ hi),
    fun i hi _ => ?_, fun i j hi hj _ _ he => ?_, fun i hi _ a ha => ?_, h.once, fun a ha => ?_,
    h.flushed, h.replies, h.relayed⟩,
    ⟨fun e he => ?_, fun e he ha => ?_, ?_⟩,
    ⟨old, young, hinv', by simpa using hlen', fun e he hhold => ?_, by simp⟩⟩
  · rw [hqueries]
    rcases eq_or_ne i slot with rfl | hne
    · rw [hown']
      simp [noteQuery, hid, hfp]
    · rw [hown i hne, htx i hne, List.getElem?_append_left (hold i hne (hused i ▸ hi))]
      exact h.owner i (hused i ▸ hi) (hsome i hne)
  · rw [hused] at hi hj
    rcases eq_or_ne i slot with rfl | hni
    · rcases eq_or_ne j i with rfl | hnj
      · rfl
      · rw [hown', hown j hnj] at he
        exact absurd (hold j hnj hj) (by omega)
    · rcases eq_or_ne j slot with rfl | hnj
      · rw [hown', hown i hni] at he
        exact absurd (hold i hni hi) (by omega)
      · rw [hown i hni, hown j hnj] at he
        exact h.apart i j hi hj (hsome i hni) (hsome j hnj) he
  · obtain ⟨q, hq, -⟩ := h.right a ha
    have hlt' := (List.getElem?_eq_some_iff.mp hq).1
    rcases eq_or_ne i slot with rfl | hne
    · rw [hown']
      omega
    · rw [hown i hne]
      exact h.unanswered i (hused i ▸ hi) (hsome i hne) a ha
  · obtain ⟨q, hq, hrest⟩ := h.right a ha
    refine ⟨q, ?_, hrest⟩
    rw [hqueries, List.getElem?_append_left (List.getElem?_eq_some_iff.mp hq).1]
    exact hq
  · rcases List.mem_append.mp he with he | he
    · exact hh.channel e he
    · rw [List.mem_singleton.mp he]
      exact hch
  · rcases List.mem_append.mp he with he | he
    · obtain ⟨hu', hc', ho'⟩ := hh.holds e he ha
      have hne : e.slot ≠ slot := hapart e he ha
      exact ⟨(hused _).trans hu', (hchan _).trans hc', (hown _ hne).trans ho'⟩
    · rw [List.mem_singleton.mp he]
      exact ⟨(hused _).trans hu, (hchan _).trans hc, hown'⟩
  · rw [List.map_append, List.nodup_append]
    refine ⟨hh.uids, by simp, fun a ha b hb => ?_⟩
    obtain ⟨e, he, rfl⟩ := List.mem_map.mp ha
    have := hlt e he
    simp only [List.map_cons, List.map_nil, List.mem_singleton] at hb
    omega
  · rcases List.mem_append.mp he with he | he
    · exact hent e he (hback e he hhold).2
    · rw [List.mem_singleton.mp he]
      exact hyoung

/-! ## Client batches -/

/-- A channel that is used is available. -/
theorem openChannel_sat (c : UInt32) (now : Nat) (s : State) :
    Prog.Sat A (fun s' r => Steady s s' ∧ (r = true → (s'.channels c).available = true))
      (openChannel c now s) := by
  refine ((steady_openChannel c now s).and ?_).mono fun _ _ h => h
  refine sat_ite (fun ha _ => ha.1) fun _ => ?_
  refine sat_ite (fun _ h => absurd h Bool.false_ne_true) fun _ => ?_
  refine (timeOr_sat now s).bind fun t time _ => ?_
  refine sat_ite (fun _ h => absurd h Bool.false_ne_true) fun _ => ?_
  refine (steady_resetChannelFds c t).bind fun u _ _ => fun r _ => ?_
  rcases r with _ | fd
  · exact fun h => absurd h Bool.false_ne_true
  · intro added _
    exact sat_ite (fun _ h => absurd h Bool.false_ne_true) fun _ h => absurd h Bool.false_ne_true

theorem channelIsHealthy_sat (c : UInt32) (s : State) :
    Prog.Sat A (fun s' r => s' = s ∧ (r = true → (s.channels c).available = true))
      (channelIsHealthy c s) := by
  simp only [channelIsHealthy, Lib.Act.bind_run, get_run, Prog.ret_bind]
  rcases (s.channels c).tcpFd with _ | fd
  · exact ⟨rfl, fun h => absurd h Bool.false_ne_true⟩
  · refine sat_ite (fun ha => ?_) fun _ => ⟨rfl, fun h => absurd h Bool.false_ne_true⟩
    intro r _
    rcases r with e | n
    · exact ⟨rfl, fun _ => ha.1⟩
    · exact ⟨rfl, fun _ => ha.1⟩

theorem ensureChannel_sat (c : UInt32) (now : Nat) (s : State) :
    Prog.Sat A (fun s' r => Steady s s' ∧ (r = true → (s'.channels c).available = true))
      (ensureChannel c now s) := by
  refine (channelIsHealthy_sat c s).bind fun t healthy ⟨ht, ha⟩ => ?_
  subst ht
  refine sat_ite (fun hh => ⟨Steady.refl t, fun _ => ha hh⟩) fun _ => ?_
  refine sat_ite (fun _ => ⟨Steady.refl t, fun h => absurd h Bool.false_ne_true⟩) fun _ => ?_
  refine sat_ite (fun _ => ?_) fun _ => openChannel_sat c now t
  refine (steady_closeChannel c now t).bind fun u _ hu => ?_
  exact (openChannel_sat c now u).mono fun v r ⟨hv, hr⟩ => ⟨hu.trans hv, hr⟩

theorem selectFrom_sat (start : UInt32) (now : Nat) (attempts : List Nat) (s : State) :
    Prog.Sat A (fun s' r => Steady s s' ∧ ∀ c, r = some c → c < channelsPerWorker)
      (selectFrom start now attempts s) := by
  refine ((steady_selectFrom start now attempts s).and ?_).mono fun _ _ h => h
  induction attempts generalizing s with
  | nil => exact fun _ h => absurd h (by simp)
  | cons attempt rest ih =>
      refine (steady_ensureChannel _ now s).bind fun t good _ => ?_
      refine sat_ite (fun _ c hc => ?_) fun _ => ih t
      obtain rfl := Option.some.inj hc
      apply UInt32.lt_iff_toNat_lt.mpr
      rw [UInt32.toNat_mod]
      exact Nat.mod_lt _ (by decide)

/-- The state of a batch between two packets. -/
structure Batching (s : State) (entries : List Entry) : Prop where
  served : Served s none
  holding : Holding s entries
  recent : Recent s entries none entries.length
  uid_lt : ∀ e ∈ entries, e.uid < s.trace.queries.length

theorem Batching.steady {entries : List Entry} (h : Batching s entries) (hs : Steady s s') :
    Batching s' entries :=
  ⟨h.served.shrinks hs.toShrinks, h.holding.steady hs, h.recent.shrinks hs.toShrinks,
    fun e he => hs.trace ▸ h.uid_lt e he⟩

theorem prepareQuery_sat (p : ClientPacket) (info : PacketInfo) (now : Nat)
    {entries : List Entry} (h : Batching s entries)
    (hn : entries.length < maxTransactionsPerWorker) :
    Prog.Sat A (fun s' r => Batching s' (entries ++ r.toList)) (prepareQuery p info now s) := by
  refine (selectFrom_sat _ now _ s).bind fun t chosen ⟨ht, hchosen⟩ => ?_
  replace h := h.steady ht
  rcases chosen with _ | c
  · simpa using h
  · have hc := hchosen c rfl
    obtain ⟨old, young, hinv, -, -⟩ := h.recent
    obtain ⟨t', slot, halloc, -⟩ := hinv.alloc (h.served.capacity ▸ by decide)
      (h.served.capacity ▸ by decide) (h.served.channelCount ▸ hc) info.id
      info.questionFingerprint now
    obtain ⟨hserved, hholding, hrecent, hu, hch, hid, hfp, hslot, hapart⟩ :=
      allocated_served h.served h.holding h.recent hn hc halloc
    simp only [Lib.Act.bind_run, get_run, Prog.ret_bind, modify_run, halloc]
    refine (ensureChannel_sat _ now { t with table := t' }).bind fun u good ⟨hus, hgood⟩ => ?_
    have hserved' := hserved.shrinks hus.toShrinks
    have hholding' := hholding.steady hus
    have hrecent' := hrecent.shrinks hus.toShrinks
    have huid : ∀ e ∈ entries, e.uid < u.trace.queries.length := by
      rw [hus.trace]
      exact h.uid_lt
    have hapart' : ∀ e ∈ entries, (u.channels e.channel).available = true → e.slot ≠ slot :=
      fun e he ha => hapart e he (hus.channels _ ha).1
    refine sat_ite (fun hg => ?_) fun _ => ?_
    · -- the channel is still there, so the slot is as it was filled
      obtain ⟨-, hkept⟩ := hus.channels _ (hgood hg)
      have heq : u.table.transactions slot = t'.transactions slot := hkept slot hu rfl
      obtain ⟨h1, h2, h3⟩ := noteQuery_served (p := p) hserved' hholding' hrecent' (heq ▸ hu)
        (heq ▸ hch) hc (heq ▸ hid) (heq ▸ hfp) huid hapart'
        ⟨p.originalDst, setId p.payload (u.table.transactions slot).rewrittenId⟩
      have hchan : (u.table.transactions slot).channelIndex = c := heq ▸ hch
      simp only [Lib.Act.bind_run, get_run, Prog.ret_bind, modify_run, Lib.Act.pure_run,
        Prog.sat_ret, Option.toList_some, hchan]
      refine ⟨h1, h2, ?_, fun e he => ?_⟩
      · rw [List.length_append]
        exact h3
      · show e.uid < (u.trace.queries ++ _).length
        rw [List.length_append]
        rcases List.mem_append.mp he with he | he
        · exact Nat.lt_add_right 1 (huid e he)
        · rw [List.mem_singleton.mp he]
          exact Nat.lt_succ_self _
    · have hlt : slot < u.table.capacity := by
        rw [hserved'.capacity, ← h.served.capacity]
        exact hslot
      have hrel := shrinks_release u slot
      simp only [Lib.Act.bind_run, modify_run, Prog.ret_bind, Lib.Act.pure_run, Prog.sat_ret,
        Option.toList_none, List.append_nil]
      refine ⟨(hserved'.shrinks hrel).settle (Table.release_self hlt),
        ⟨hholding'.channel, fun e he ha => ?_, hholding'.uids⟩,
        (hrecent'.shrinks hrel).settle (Table.release_self hlt), huid⟩
      obtain ⟨hu', hc', ho'⟩ := hholding'.holds e he ha
      have heq : (u.table.release slot).transactions e.slot = u.table.transactions e.slot :=
        Table.release_transactions (hapart' e he ha)
      exact ⟨heq ▸ hu', heq ▸ hc', ho'⟩

/-- The whole packet loop. -/
theorem takeQueries_sat (now : Nat) (packets : List ClientPacket) {entries : List Entry}
    (h : Batching s entries) (hn : entries.length + packets.length < maxTransactionsPerWorker) :
    Prog.Sat A (fun s' r => Batching s' r) (takeQueries now packets entries s) := by
  induction packets generalizing s entries with
  | nil => exact h
  | cons p rest ih =>
      simp only [List.length_cons] at hn
      have hskip : Prog.Sat A (fun s' r => Batching s' r) (takeQueries now rest entries s) :=
        ih h (by omega)
      refine sat_ite (fun _ => ?_) fun _ => hskip
      rcases parseQuery p.payload with _ | info
      · exact hskip
      · refine (prepareQuery_sat p info now h (by omega)).bind fun t r ht => ?_
        rcases r with _ | e
        · rw [Option.toList_none, List.append_nil] at ht
          exact ih ht (by omega)
        · refine ih ht ?_
          rw [List.length_append]
          simp only [List.length_singleton]
          omega

/-! ## Flushing -/

theorem Served.noteReleased {e : Entry} (h : Served s none) (he : e.Holds s) :
    Served (s.noteFlush .released e) none := by
  refine { h with flushed := fun f hf => ?_ }
  rcases List.mem_cons.mp hf with rfl | hf
  · exact ⟨he.1, he.2.1, he.2.2⟩
  · exact h.flushed f hf

/-- An entry the kernel took for the relay. -/
theorem Served.noteSent {e : Entry} (h : Served s none) (he : e.Holds s) :
    Served (State.noteFlush { s with trace.relayed := e.msg :: s.trace.relayed } .sent e) none := by
  refine { h with flushed := fun f hf => ?_, relayed := congrArg (e.msg :: ·) h.relayed }
  rcases List.mem_cons.mp hf with rfl | hf
  · exact ⟨he.1, he.2.1, he.2.2⟩
  · exact h.flushed f hf

/-- Noting the entries the kernel took changes the history only. -/
theorem noteSent_served {entries : List Entry} (h : Served s none)
    (he : ∀ e ∈ entries, e.Holds s) (relayed : List Msg)
    (hr : relayed = (entries.map (·.msg)).reverse ++ s.trace.relayed) :
    ∀ s', s' = entries.foldl (fun (s : State) e => s.noteFlush .sent e)
        { s with trace.relayed := relayed } →
      Served s' none ∧ s'.table = s.table ∧ s'.channels = s.channels ∧
        s'.trace.owner = s.trace.owner := by
  rintro _ rfl
  induction entries generalizing s with
  | nil =>
      subst hr
      exact ⟨h, rfl, rfl, rfl⟩
  | cons e entries ih =>
      refine ih (s := State.noteFlush { s with trace.relayed := e.msg :: s.trace.relayed } .sent e)
        (h.noteSent (he e List.mem_cons_self)) (fun e' he' => he e' (List.mem_cons_of_mem e he')) ?_
      rw [hr, List.map_cons, List.reverse_cons, List.append_assoc]
      rfl

/-- What releasing the entries of a channel does to the rest. -/
structure ReleasedOn (s s' : State) (c : UInt32) : Prop where
  served : Served s' none
  channels : s'.channels = s.channels
  owner : s'.trace.owner = s.trace.owner
  others : ∀ i, (s.table.transactions i).used = true →
    (s.table.transactions i).channelIndex ≠ c → s'.table.transactions i = s.table.transactions i

/-- Each entry releases its own transaction: the slots are different because the queries are. -/
theorem releaseEntries_served {entries : List Entry} (h : Served s none)
    (he : ∀ e ∈ entries, e.Holds s) (hc : ∀ e ∈ entries, e.channel = c)
    (huid : (entries.map (·.uid)).Nodup) : ReleasedOn s (entries.foldl State.releaseEntry s) c := by
  induction entries generalizing s with
  | nil => exact ⟨h, rfl, rfl, fun _ _ _ => rfl⟩
  | cons e entries ih =>
      obtain ⟨hnew, huid'⟩ := List.nodup_cons.mp huid
      have hown := he e List.mem_cons_self
      have hserved : Served (s.releaseEntry e) none :=
        (h.noteReleased hown).shrinks (shrinks_release _ e.slot)
      have hstay : ∀ i, i ≠ e.slot →
          (s.releaseEntry e).table.transactions i = s.table.transactions i :=
        fun i hi => Table.release_transactions hi
      have hrest : ∀ e' ∈ entries, e'.Holds (s.releaseEntry e) := by
        intro e' he'
        obtain ⟨hu, hch, ho⟩ := he e' (List.mem_cons_of_mem e he')
        have hne : e'.slot ≠ e.slot := by
          intro heq
          rw [heq, hown.2.2] at ho
          exact hnew (List.mem_map.mpr ⟨e', he', ho.symm⟩)
        have heq := hstay _ hne
        exact ⟨heq ▸ hu, heq ▸ hch, ho⟩
      obtain ⟨h1, h2, h3, h4⟩ := ih hserved hrest
        (fun e' he' => hc e' (List.mem_cons_of_mem e he')) huid'
      refine ⟨h1, h2, h3, fun i hu hi => ?_⟩
      have hne : i ≠ e.slot := by
        rintro rfl
        exact hi (hown.2.1.trans (hc e List.mem_cons_self))
      have heq := hstay i hne
      rw [← heq] at hu hi ⊢
      exact h4 i hu hi

/-- Releases on one channel do not concern the entries of another. -/
theorem ReleasedOn.holding {entries : List Entry} (hr : ReleasedOn s s' c)
    (h : Holding s entries) (hne : ∀ e ∈ entries, e.channel ≠ c) : Holding s' entries := by
  refine ⟨h.channel, fun e he ha => ?_, h.uids⟩
  rw [hr.channels] at ha
  obtain ⟨hu, hch, ho⟩ := h.holds e he ha
  have heq := hr.others e.slot hu (hch.symm ▸ hne e he)
  exact ⟨heq ▸ hu, heq ▸ hch, hr.owner ▸ ho⟩

theorem flushGroup_sat {group rest : List Entry} (h : Served s none) (hh : Holding s group)
    (hc : ∀ e ∈ group, e.channel = c) (hrest : Holding s rest)
    (hne : ∀ e ∈ rest, e.channel ≠ c) :
    Prog.Sat A (fun s' _ => Served s' none ∧ Holding s' rest) (flushGroup c group s) := by
  have hclose : ∀ now, Prog.Sat A (fun s' _ => Served s' none ∧ Holding s' rest)
      (closeChannel c now s) := fun now =>
    (steady_closeChannel c now s).mono fun _ _ hs => ⟨h.shrinks hs.toShrinks, hrest.steady hs⟩
  simp only [flushGroup, Lib.Act.bind_run, get_run, Prog.ret_bind]
  rcases (s.channels c).udpFd with _ | fd
  · exact fun now _ => hclose now
  · refine sat_ite (fun ha => ?_) fun _ now _ => hclose now
    have hold : ∀ e ∈ group, e.Holds s := fun e he => hh.holds e he (hc e he ▸ ha)
    -- giving the whole group back
    have hback : Prog.Sat A (fun s' _ => Served s' none ∧ Holding s' rest)
        ((modify fun s => group.foldl State.releaseEntry s) s) := by
      have hr := releaseEntries_served h hold hc hh.uids
      exact ⟨hr.served, hr.holding hrest hne⟩
    intro r _
    rcases r with e | n
    · cases e with
      | eagain => exact hback
      | enobufs => exact hback
      | enomem => exact fun now _ => hclose now
      | eintr => exact fun now _ => hclose now
      | emsgsize => exact fun now _ => hclose now
      | other => exact fun now _ => hclose now
    · cases n with
      | zero => exact fun now _ => hclose now
      | succ n =>
          have htake : ∀ e ∈ group.take (n + 1), e.Holds s :=
            fun e he => hold e (List.mem_of_mem_take he)
          have hall : ∀ s₁, s₁ = (group.take (n + 1)).foldl (fun (s : State) e => s.noteFlush .sent e)
              { s with
                trace.relayed := ((group.map (·.msg)).take (n + 1)).reverse ++ s.trace.relayed } →
              Served ((group.drop (n + 1)).foldl State.releaseEntry s₁) none ∧
                Holding ((group.drop (n + 1)).foldl State.releaseEntry s₁) rest := by
            intro s₁ hs₁
            obtain ⟨hserved, htab, hchan, howner⟩ :=
              noteSent_served h htake _ (by rw [List.map_take]) s₁ hs₁
            have hold' : ∀ e : Entry, e.Holds s → e.Holds s₁ := by
              rintro e ⟨hu, hch, ho⟩
              exact ⟨htab ▸ hu, htab ▸ hch, howner ▸ ho⟩
            have hr := releaseEntries_served (c := c) hserved
              (fun e he => hold' e (hold e (List.mem_of_mem_drop (i := n + 1) he)))
              (fun e he => hc e (List.mem_of_mem_drop he))
              (hh.uids.sublist ((List.drop_sublist _ _).map _))
            refine ⟨hr.served, hr.holding ⟨hrest.channel, fun e he ha => ?_, hrest.uids⟩ hne⟩
            exact hold' e (hrest.holds e he (hchan ▸ ha))
          exact hall _ rfl

theorem Holding.sublist {entries entries' : List Entry} (h : Holding s entries)
    (hs : entries'.Sublist entries) : Holding s entries' :=
  ⟨fun e he => h.channel e (hs.mem he), fun e he => h.holds e (hs.mem he),
    h.uids.sublist (hs.map _)⟩

theorem flushFrom_sat (n : Nat) {entries : List Entry} (h : Served s none)
    (hh : Holding s entries) :
    Prog.Sat A (fun s' _ => Served s' none) (flushFrom n entries s) := by
  induction n generalizing s entries with
  | zero => exact h
  | succ n ih =>
      cases entries with
      | nil => exact h
      | cons e entries =>
          refine sat_ite (fun hbad => ?_) fun _ => ?_
          · exact absurd (hh.channel e List.mem_cons_self) (UInt32.not_lt.mpr hbad)
          · have hgroup : Holding s (e :: entries.filter fun e' => e'.channel = e.channel) :=
              hh.sublist (List.filter_sublist.cons_cons e)
            have hrest : Holding s (entries.filter fun e' => e'.channel ≠ e.channel) :=
              hh.sublist (List.filter_sublist.cons e)
            refine (flushGroup_sat h hgroup ?_ hrest ?_).bind fun t _ ht => ih ht.1 ht.2
            · intro e' he'
              rcases List.mem_cons.mp he' with rfl | he'
              · rfl
              · simpa using (List.mem_filter.mp he').2
            · intro e' he'
              simpa using (List.mem_filter.mp he').2

/-- Before the first packet. -/
theorem Served.batching (h : Served s none) : Batching s [] := by
  obtain ⟨l, hl⟩ := h.table
  exact ⟨h, ⟨by simp, by simp, by simp⟩, ⟨l, [], by simpa using hl, by simp, by simp, by simp⟩,
    by simp⟩

/-- A batch is small next to the table. -/
theorem batch_lt (cfg : Config) (packets : List ClientPacket) :
    ([] : List Entry).length + (packets.take cfg.batchSize).length < maxTransactionsPerWorker := by
  have hb := cfg.batchSize_le
  have := List.length_take_le cfg.batchSize packets
  simp only [Udp.udpMaxBatch, maxTransactionsPerWorker, List.length_nil] at hb ⊢
  omega

theorem handleClients_sat (h : Served s none) :
    Prog.Sat A (fun s' _ => Served s' none) (handleClients s) := by
  intro packets _ now _
  refine (shrinks_expireTransactions now s).bind fun t _ ht => ?_
  exact (takeQueries_sat now _ (h.shrinks ht).batching (batch_lt s.cfg packets)).bind
    fun u entries hu => flushFrom_sat _ hu.served hu.holding

end Bpf2Socks.Dns
