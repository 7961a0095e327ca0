/-
# Bpf2Socks.Dns.Deadlines — when the DNS fast path has to be woken.

`udp_next_deadline` takes the oldest transaction from the head of the table's list and the channels
one by one.  The head stands for the whole list only while the list is in order of age, and that
rests on the clock: every query of a client batch is stamped with the time the batch began, and no
batch begins before an earlier one.

`ReachAt cfg t` is a run with a clock that does not go back, up to time `t`.
-/
import Bpf2Socks.Dns.Responses
import Bpf2Socks.Udp.Worker

namespace Bpf2Socks.Dns

open Function (update update_self update_of_ne)
open Fast
open Lib (Prog)
open Lib.Act (Keeps keeps_get keeps_ask keeps_pure keeps_ite keeps_modify keeps_forEach)
open Udp (Sockaddr ClientPacket RelayDatagram Bits deadlineNote deadlineNote_eq noDeadline)

variable {A : State → (q : Sys) → q.Ans → Prop} {cfg : Config} {s s' : State} {c : UInt32}
  {now t t' : Nat}

/-! ## The deadline -/

/-- One round of the channel loop of `udp_next_deadline`. -/
def noteChannel (s : State) (next : Nat) (c : UInt32) : Nat :=
  let ch := s.channels c
  if ch.stage = .idle ∨ ch.stage = .ready ∨ ch.stageStartedMs = 0 then next
  else deadlineNote next (ch.stageStartedMs + handshakeTimeoutMs)

/-- The part of `udp_next_deadline` about the fast path, from no deadline at all on. -/
def State.nextDeadline (s : State) : Nat :=
  let next := s.table.oldest.elim noDeadline fun sentAt =>
    deadlineNote noDeadline (sentAt + s.cfg.transactionTimeoutMs)
  ((List.range channelsPerWorker.toNat).map UInt32.ofNat).foldl (noteChannel s) next

theorem noteChannel_le (s : State) (next : Nat) (c : UInt32) : noteChannel s next c ≤ next := by
  unfold noteChannel
  dsimp only
  split
  · exact Nat.le_refl _
  · rw [deadlineNote_eq]
    exact Nat.min_le_left _ _

theorem foldl_noteChannel_le (s : State) (cs : List UInt32) (next : Nat) :
    cs.foldl (noteChannel s) next ≤ next := by
  induction cs generalizing next with
  | nil => exact Nat.le_refl _
  | cons c cs ih => exact Nat.le_trans (ih _) (noteChannel_le s next c)

/-- A channel in the middle of its handshake. -/
def Channel.Shaking (ch : Channel) : Prop :=
  ch.stage ≠ .idle ∧ ch.stage ≠ .ready ∧ ch.stageStartedMs ≠ 0

theorem foldl_noteChannel_mem {cs : List UInt32} {next : Nat} (hc : c ∈ cs)
    (hs : (s.channels c).Shaking) :
    cs.foldl (noteChannel s) next ≤ (s.channels c).stageStartedMs + handshakeTimeoutMs := by
  induction cs generalizing next with
  | nil => simp at hc
  | cons d cs ih =>
      rcases List.mem_cons.mp hc with rfl | hc
      · refine Nat.le_trans (foldl_noteChannel_le s cs _) ?_
        have hgo : ¬((s.channels c).stage = .idle ∨ (s.channels c).stage = .ready ∨
            (s.channels c).stageStartedMs = 0) := by
          simpa only [Channel.Shaking, not_or] using hs
        unfold noteChannel
        rw [if_neg hgo, deadlineNote_eq]
        exact Nat.min_le_right _ _
      · exact ih hc

/-- The deadline of a channel's handshake is not missed. -/
theorem nextDeadline_le_channel (hc : c < channelsPerWorker) (hs : (s.channels c).Shaking) :
    s.nextDeadline ≤ (s.channels c).stageStartedMs + handshakeTimeoutMs := by
  refine foldl_noteChannel_mem (List.mem_map.mpr ⟨c.toNat, List.mem_range.mpr ?_, ?_⟩) hs
  · exact UInt32.lt_iff_toNat_lt.mp hc
  · exact UInt32.ofNat_toNat

/-! ## Transactions in order of age -/

/-- The table is sound and its list is in order, up to time `now`. -/
structure AgedBy (now : Nat) (s : State) : Prop where
  table : ∃ l, s.table.Inv none l ∧ s.table.Aged l now
  pos : 0 < s.table.capacity
  small : s.table.capacity ≤ 65536

theorem AgedBy.later (h : AgedBy t s) (hle : t ≤ now) : AgedBy now s := by
  obtain ⟨l, hi, ha⟩ := h.table
  exact ⟨⟨l, hi, ha.later hle⟩, h.pos, h.small⟩

theorem agedBy_init (h : initState cfg = some s) : AgedBy 0 s := by
  obtain ⟨table, htable, rfl⟩ := Option.map_eq_some_iff.mp h
  obtain ⟨hinv, hcap, -, hpos⟩ := Table.inv_init htable
  refine ⟨⟨[], hinv, by simp, by simp⟩, hcap ▸ hpos, ?_⟩
  show table.capacity ≤ 65536
  rw [hcap]
  decide

/-- The head of the list is as old as any transaction. -/
theorem AgedBy.nextDeadline_le (h : AgedBy now s) {i : Nat} (hi : i < s.table.capacity)
    (hu : (s.table.transactions i).used = true) :
    s.nextDeadline ≤ (s.table.transactions i).sentAtMs + s.cfg.transactionTimeoutMs := by
  obtain ⟨l, hinv, haged⟩ := h.table
  have hmem : i ∈ l := hinv.mem.mpr ⟨hi, hu⟩
  refine Nat.le_trans (foldl_noteChannel_le s _ _) ?_
  obtain ⟨j, rest, rfl⟩ := List.exists_cons_of_ne_nil (List.ne_nil_of_mem hmem)
  have hold : (s.table.transactions j).sentAtMs ≤ (s.table.transactions i).sentAtMs := by
    rcases List.mem_cons.mp hmem with rfl | hmem
    · exact Nat.le_refl _
    · exact (List.pairwise_cons.mp haged.sorted).1 i hmem
  have holdest : s.table.oldest = some (s.table.transactions j).sentAtMs := by
    have hj : (s.table.transactions j).used = true := (hinv.mem.mp List.mem_cons_self).2
    simp [Table.oldest, hinv.head_eq, hj]
  rw [holdest]
  show deadlineNote _ _ ≤ _
  rw [deadlineNote_eq]
  omega

/-! ## The code -/

/-- From `s` to `s'` the table stayed in order. -/
def Ages (now : Nat) (s s' : State) : Prop := AgedBy now s → AgedBy now s'

instance (now : Nat) : IsPreorder State (Ages now) where
  refl _ := id
  trans _ _ _ h h' := h' ∘ h

/-- Giving transactions up leaves the others in order. -/
theorem Shrinks.ages (h : Shrinks s s') : Ages now s s' := by
  intro ha
  obtain ⟨l, hinv, haged⟩ := ha.table
  obtain ⟨l', hinv', hsub⟩ := h.inv l hinv
  have hsent : ∀ i ∈ l', (s'.table.transactions i).sentAtMs =
      (s.table.transactions i).sentAtMs := fun i hi => by rw [h.kept i (hinv'.mem.mp hi).2]
  refine ⟨⟨l', hinv', ?_, fun i hi => ?_⟩, h.capacity ▸ ha.pos, h.capacity ▸ ha.small⟩
  · refine (haged.sorted.sublist hsub).imp_of_mem fun {i j} hi hj hij => ?_
    rw [hsent i hi, hsent j hj]
    exact hij
  · rw [hsent i hi]
    exact haged.past i (hsub.subset hi)

theorem Ages.shrinks {α : Type} {f : Fast α} (hf : Keeps A Shrinks f) : Keeps A (Ages now) f :=
  hf.imp Shrinks.ages

theorem Ages.steady {α : Type} {f : Fast α} (hf : Keeps A Steady f) : Keeps A (Ages now) f :=
  hf.imp fun h => h.toShrinks.ages

/-- A transaction is stamped with the time of its batch. -/
theorem ages_alloc (s : State) (c : UInt32) (id : UInt16) (fingerprint : UInt32) (now : Nat) :
    Ages now s { s with table := (s.table.alloc c id fingerprint now).1 } := by
  intro ha
  obtain ⟨l, hinv, haged⟩ := ha.table
  obtain ⟨l', hinv', haged', hcap, -⟩ :=
    Table.apply_inv hinv haged ha.pos ha.small (.alloc c id fingerprint now) fun t ht => by
      obtain rfl := Option.some.inj ht
      exact Nat.le_refl _
  exact ⟨⟨l', hinv', haged'⟩, hcap ▸ ha.pos, hcap ▸ ha.small⟩

theorem ages_noteQuery (s : State) (slot : Nat) (p : ClientPacket) (info : PacketInfo) :
    Ages now s (noteQuery s slot p info) := by
  intro ha
  obtain ⟨l, hinv, haged⟩ := ha.table
  have hsent : ∀ i, ((noteQuery s slot p info).table.transactions i).sentAtMs =
      (s.table.transactions i).sentAtMs := by
    intro i
    by_cases hi : i = slot <;> simp [noteQuery, hi]
  refine ⟨⟨l, hinv.update_tx rfl rfl rfl, ?_, fun i hi => ?_⟩, ha.pos, ha.small⟩
  · refine haged.sorted.imp fun {i j} hij => ?_
    rw [hsent i, hsent j]
    exact hij
  · rw [hsent i]
    exact haged.past i hi

/-- Changing neither the table nor its slots. -/
theorem ages_of_table (h : s'.table = s.table) : Ages now s s' := fun ha =>
  ⟨h ▸ ha.table, h ▸ ha.pos, h ▸ ha.small⟩

theorem ages_prepareQuery (p : ClientPacket) (info : PacketInfo) (now : Nat) :
    Keeps A (Ages now) (prepareQuery p info now) := by
  intro s
  refine (steady_selectChannel now s).bind fun t chosen ht => ?_
  have hst : Ages now s t := ht.toShrinks.ages
  rcases chosen with _ | c
  · exact hst
  · simp only [Lib.Act.bind_run, get_run, Prog.ret_bind, modify_run]
    have halloc := trans_of (Ages now) hst (ages_alloc t c info.id info.questionFingerprint now)
    rcases hr : t.table.alloc c info.id info.questionFingerprint now with ⟨table, e | slot⟩
    · rw [hr] at halloc
      exact halloc
    · rw [hr] at halloc
      refine (steady_ensureChannel _ now _).bind fun u good hu => ?_
      have hsu : Ages now s u := trans_of (Ages now) halloc hu.toShrinks.ages
      cases good with
      | true => exact trans_of (Ages now) hsu (ages_noteQuery u slot p info)
      | false => exact trans_of (Ages now) hsu (shrinks_release u slot).ages

theorem ages_takeQueries (now : Nat) (packets : List ClientPacket) (entries : List Entry) :
    Keeps A (Ages now) (takeQueries now packets entries) := by
  induction packets generalizing entries with
  | nil => exact keeps_pure _
  | cons p rest ih =>
      refine keeps_get.bind fun s => keeps_ite ?_ (ih entries)
      rcases parseQuery p.payload with _ | info
      · exact ih entries
      · refine (ages_prepareQuery p info now).bind fun r => ?_
        cases r with
        | none => exact ih entries
        | some e => exact ih _

/-! ### Flushing -/

theorem ages_noteFlush (s : State) (deed : Deed) (e : Entry) :
    Ages now s (s.noteFlush deed e) := ages_of_table rfl

theorem ages_releaseEntry (s : State) (e : Entry) : Ages now s (s.releaseEntry e) :=
  trans_of (Ages now) (ages_noteFlush s .released e)
    (shrinks_release (s.noteFlush .released e) e.slot).ages

theorem ages_foldl {β : Type} {F : State → β → State} (hF : ∀ s x, Ages now s (F s x))
    (xs : List β) (s : State) : Ages now s (xs.foldl F s) := by
  induction xs generalizing s with
  | nil => exact id
  | cons x xs ih => exact trans_of (Ages now) (hF s x) (ih (F s x))

theorem ages_closeChannel (c : UInt32) (time : Nat) :
    Keeps A (Ages now) (closeChannel c time) := Ages.steady (steady_closeChannel c time)

theorem ages_flushGroup (c : UInt32) (group : List Entry) :
    Keeps A (Ages now) (flushGroup c group) := by
  have hclose : Keeps A (Ages now) (do
      let time : Nat ← ask .nowMs
      closeChannel c time : Fast Unit) :=
    (keeps_ask Sys.nowMs).bind fun time => ages_closeChannel c time
  have hrelease : Keeps A (Ages now) (modify fun s => group.foldl State.releaseEntry s) :=
    keeps_modify fun s => ages_foldl ages_releaseEntry group s
  refine keeps_get.bind fun s => ?_
  dsimp only
  rcases (s.channels c).udpFd with _ | fd
  · exact hclose
  · refine keeps_ite ((keeps_ask _).bind fun r => ?_) hclose
    rcases r with e | n
    · cases e with
      | eagain => exact hrelease
      | enobufs => exact hrelease
      | _ => exact hclose
    · cases n with
      | zero => exact hclose
      | succ n =>
          have hheard (s : State) : Ages now s
              (s.heard (.relaySendmmsg fd (group.map (·.msg))) (Except.ok (n + 1))) :=
            ages_of_table rfl
          refine Keeps.bind (keeps_modify fun s => trans_of (Ages now) (hheard s) ?_) fun _ =>
            keeps_modify fun s => ?_
          · exact ages_foldl (fun s e => ages_noteFlush s .sent e) (group.take (n + 1)) _
          · exact ages_foldl ages_releaseEntry _ s

theorem ages_flushFrom (n : Nat) (entries : List Entry) :
    Keeps A (Ages now) (flushFrom n entries) := by
  induction n generalizing entries with
  | zero => exact keeps_pure _
  | succ n ih =>
      cases entries with
      | nil => exact keeps_pure _
      | cons e entries =>
          exact keeps_ite ((keeps_modify fun s => ages_releaseEntry s e).bind fun _ => ih entries)
            ((ages_flushGroup _ _).bind fun _ => ih _)

/-! ### Responses -/

theorem ages_sendResponse (tx : Transaction) (payload : List UInt8) :
    Keeps A (Ages now) (sendResponse tx payload) := fun s =>
  (sendResponse_sat tx payload s).mono fun _ _ h => ages_of_table h.table

theorem ages_handleResponse (c : UInt32) (m : RelayDatagram) :
    Keeps A (Ages now) (handleResponse c m) := by
  refine keeps_ite (keeps_pure _) ?_
  rcases parseResponse m.payload with _ | info
  · exact keeps_pure _
  · refine keeps_get.bind fun s => ?_
    rcases s.table.find c info.id with _ | slot
    · exact keeps_pure _
    · refine keeps_ite (keeps_pure _) (Keeps.bind (keeps_modify fun s => ?_) fun _ =>
        (ages_sendResponse _ _).bind fun sent => ?_)
      · exact (shrinks_noteResponse s c).ages
      · have hrelease : Keeps A (Ages now)
            (modify fun s => { s with table := s.table.release slot }) :=
          keeps_modify fun s => (shrinks_release s slot).ages
        exact keeps_ite (Keeps.bind (keeps_modify fun s => ages_of_table rfl) fun _ => hrelease)
          hrelease

theorem ages_handleUpstream (c : UInt32) : Keeps A (Ages now) (handleUpstream c) := by
  refine keeps_get.bind fun s => ?_
  dsimp only
  rcases (s.channels c).udpFd with _ | fd
  · exact keeps_pure _
  · refine keeps_ite ((keeps_ask _).bind fun slots => ?_) (keeps_pure _)
    cases slots with
    | none => exact (Ages.shrinks (shrinks_channel c _)).bind fun _ => (keeps_ask _).bind fun _ =>
        keeps_pure _
    | some batch =>
        refine (keeps_ask _).bind fun r => (keeps_ask _).bind fun _ => ?_
        have hclose : Keeps A (Ages now) (do
            let time : Nat ← ask .nowMs
            closeChannel c time : Fast Unit) :=
          (keeps_ask Sys.nowMs).bind fun time => ages_closeChannel c time
        rcases r with e | messages
        · cases e with
          | emsgsize => exact keeps_pure _
          | eagain => exact keeps_pure _
          | _ => exact hclose
        · exact keeps_forEach (fun m => ages_handleResponse c m) messages

theorem ages_relayEvent (c : UInt32) (bits : Bits) : Keeps A (Ages now) (relayEvent c bits) := by
  refine keeps_get.bind fun s => keeps_ite (keeps_ite ?_ (keeps_ite (ages_handleUpstream c)
    (keeps_pure _))) (keeps_pure _)
  exact (keeps_ask Sys.nowMs).bind fun time => ages_closeChannel c time

/-! ## Runs -/

/-- Answers of a clock that reads between `t` and `t'`. -/
def Between (t t' : Nat) : State → (q : Sys) → q.Ans → Prop
  | _, .nowMs, (now : Nat) => t ≤ now ∧ now ≤ t'
  | _, _, _ => True

/-- The states the fast path can reach by time `t`, with a clock that does not go back. -/
inductive ReachAt (cfg : Config) : Nat → State → Prop where
  | init {s : State} (h : initState cfg = some s) : ReachAt cfg 0 s
  | next {t t' : Nat} {s s' : State} (h : ReachAt cfg t s) (ht : t ≤ t') (ev : Event)
      (hev : ev.valid) (ho : Prog.Out (Between t t') (handle ev s) s' ()) : ReachAt cfg t' s'

/-- The step lemma. -/
theorem handle_aged (ev : Event) (ht : t ≤ t') (h : AgedBy t s) :
    Prog.Sat (Between t t') (fun s' _ => AgedBy t' s') (handle ev s) := by
  have hlater : AgedBy t' s := h.later ht
  cases ev with
  | clients =>
      intro packets _ now ⟨hle, hle'⟩
      have hbatch : Keeps (Between t t') (Ages now) (do
          expireTransactions now
          let entries ← takeQueries now (packets.take s.cfg.batchSize) []
          flushOutgoing entries : Fast Unit) :=
        (Ages.shrinks (shrinks_expireTransactions now)).bind fun _ =>
          (ages_takeQueries now _ _).bind fun entries => ages_flushFrom _ entries
      exact (hbatch s).mono fun _ _ hs => (hs (h.later hle)).later hle'
  | control c bits =>
      exact fun now _ => (shrinks_controlEvent c bits now s).mono fun _ _ hs => hs.ages hlater
  | relay c bits => exact (ages_relayEvent c bits s).mono fun _ _ hs => hs hlater
  | resume c => exact (shrinks_resumeRelay c s).mono fun _ _ hs => hs.ages hlater
  | maintain => exact (shrinks_maintain s).mono fun _ _ hs => hs.ages hlater

/-- The run lemma. -/
theorem ReachAt.aged (h : ReachAt cfg t s) : AgedBy t s := by
  induction h with
  | init h => exact agedBy_init h
  | next _ ht ev _ ho ih => exact (handle_aged ev ht ih).out ho

/-- The contract of a clock that reads between `t` and `t'`, as a test. -/
def okBetween (t t' : Nat) (_ : State) : (q : Sys) → q.Ans → Bool
  | .nowMs, (now : Nat) => t ≤ now ∧ now ≤ t'
  | _, _ => true

theorem between_of_ok (s : State) (q : Sys) (r : q.Ans) (h : okBetween t t' s q r = true) :
    Between t t' s q r := by
  cases q with
  | nowMs =>
      have hb : t ≤ r ∧ r ≤ t' := of_decide_eq_true h
      exact hb
  | _ => trivial

/-- A first query has both channels connect at time 1. -/
theorem exists_shaking :
    ∃ d, ReachAt calmConfig 1 d ∧ (d.channels 0).stage = .connecting ∧
      (d.channels 0).stageStartedMs = 1 := by
  have hrun : ((initState calmConfig).bind fun s => Prog.exec (okBetween 0 1)
      (fun _ => calmWith [queryFrom ⟨.inet, [1]⟩ (rootPacket 7 0)] []) 0 (handle .clients s)).any
      (fun r => (r.1.channels 0).stage = .connecting ∧ (r.1.channels 0).stageStartedMs = 1) =
        true := by
    decide +kernel
  obtain ⟨⟨d, _⟩, hd, hc⟩ := (Option.any_eq_true _ _).mp hrun
  obtain ⟨s₀, h₀, he⟩ := Option.bind_eq_some_iff.mp hd
  have ho := Prog.exec_out between_of_ok he
  exact ⟨d, .next (.init h₀) (Nat.zero_le 1) .clients trivial ho, of_decide_eq_true hc⟩

end Bpf2Socks.Dns
