/-
# Bpf2Socks.Dns.Oversized — queries the relay socket refuses as too large.

`sendmmsg` sends the messages up to the first one it refuses and says how many; it reports the
refusal itself only for the first message.  The session side skips such a message and goes on with
the next one.  `bpf2socks_udp_dns_flush_outgoing` does not: a refusal of the first message closes
the channel with everything in flight on it, and a short count gives up the rest of the group.

Here the outcome of a flush is worked out for every position of the oversized queries, and with it
the batches in which nothing but them is lost.
-/
import Bpf2Socks.Dns.Responses

namespace Bpf2Socks.Dns

open Function (update)
open Fast
open Lib (Prog)
open Lib.Act (Keeps keeps_ask keeps_pure sat_ite)
open Udp (Sockaddr Errno ClientPacket)

variable {s s' t : State} {c d : UInt32} {big : Msg → Bool}

/-! ## The relay socket -/

/-- `sendmmsg` on a socket that takes every message except those that are too large. -/
def sendmmsgTooLarge (big : Msg → Bool) (messages : List Msg) : Except Errno Nat :=
  if messages.head?.any big then .error .emsgsize
  else .ok (messages.takeWhile fun m => !big m).length

/-- The relay socket refuses the messages that are too large and nothing else. -/
def Refusing (big : Msg → Bool) : State → (q : Sys) → q.Ans → Prop
  | _, .relaySendmmsg _ messages, r => r = sendmmsgTooLarge big messages
  | _, _, _ => True

/-! ## What is left of a channel -/

/-- The channel has a relay socket. -/
def Channel.Up (ch : Channel) : Prop := ch.available = true ∧ ch.udpFd.isSome = true

/-- The entry was sent on the way from `s` to `s'`. -/
def Sent (s s' : State) (e : Entry) : Prop :=
  ∃ new, s'.trace.flushed = new ++ s.trace.flushed ∧ ∃ f ∈ new, f.deed = .sent ∧ f.entry = e

/-- Nothing has happened on the channel `d`, and no slot has been taken. -/
structure Elsewhere (d : UInt32) (s s' : State) : Prop where
  channel : s'.channels d = s.channels d
  kept : ∀ i, (s.table.transactions i).used = true →
    (s.table.transactions i).channelIndex = d → s'.table.transactions i = s.table.transactions i
  old : ∀ i, (s'.table.transactions i).used = true →
    s'.table.transactions i = s.table.transactions i
  deeds : ∃ new, s'.trace.flushed = new ++ s.trace.flushed ∧ ∀ f ∈ new, f.entry.channel ≠ d

theorem Elsewhere.refl (d : UInt32) (s : State) : Elsewhere d s s :=
  ⟨rfl, fun _ _ _ => rfl, fun _ _ => rfl, [], rfl, by simp⟩

theorem Elsewhere.trans (h : Elsewhere d s t) (h' : Elsewhere d t s') : Elsewhere d s s' := by
  obtain ⟨new, hnew, hd⟩ := h.deeds
  obtain ⟨new', hnew', hd'⟩ := h'.deeds
  refine ⟨h'.channel.trans h.channel, fun i hu hi => ?_, fun i hu => ?_, new' ++ new, ?_, ?_⟩
  · have heq := h.kept i hu hi
    rw [← heq] at hu hi ⊢
    exact h'.kept i hu hi
  · have heq := h'.old i hu
    rw [heq] at hu ⊢
    exact h.old i hu
  · rw [hnew', hnew, List.append_assoc]
  · intro f hf
    rcases List.mem_append.mp hf with hf | hf
    · exact hd' f hf
    · exact hd f hf

theorem sent_iff {new : List Flushed} (h : s'.trace.flushed = new ++ s.trace.flushed) {e : Entry} :
    Sent s s' e ↔ ∃ f ∈ new, f.deed = .sent ∧ f.entry = e := by
  constructor
  · rintro ⟨new', h', hf⟩
    rwa [List.append_cancel_right (h.symm.trans h')]
  · exact fun hf => ⟨new, h, hf⟩

/-- What was sent on a channel was not sent while something happened elsewhere. -/
theorem Elsewhere.sent_before {e : Entry} {new : List Flushed} (h : Elsewhere d s t)
    (h' : s'.trace.flushed = new ++ t.trace.flushed) (he : e.channel = d) :
    Sent s s' e ↔ Sent t s' e := by
  obtain ⟨old, hold, hd⟩ := h.deeds
  have hall : s'.trace.flushed = (new ++ old) ++ s.trace.flushed := by
    rw [h', hold, List.append_assoc]
  rw [sent_iff h', sent_iff hall]
  constructor
  · rintro ⟨f, hf, hdeed, rfl⟩
    rcases List.mem_append.mp hf with hf | hf
    · exact ⟨f, hf, hdeed, rfl⟩
    · exact absurd he (hd f hf)
  · rintro ⟨f, hf, hdeed, rfl⟩
    exact ⟨f, List.mem_append_left _ hf, hdeed, rfl⟩

theorem Elsewhere.sent_after {e : Entry} {new : List Flushed} (h : Elsewhere d t s')
    (h' : t.trace.flushed = new ++ s.trace.flushed) (he : e.channel = d) :
    Sent s s' e ↔ Sent s t e := by
  obtain ⟨late, hlate, hd⟩ := h.deeds
  have hall : s'.trace.flushed = (late ++ new) ++ s.trace.flushed := by
    rw [hlate, h', List.append_assoc]
  rw [sent_iff h', sent_iff hall]
  constructor
  · rintro ⟨f, hf, hdeed, rfl⟩
    rcases List.mem_append.mp hf with hf | hf
    · exact absurd he (hd f hf)
    · exact ⟨f, hf, hdeed, rfl⟩
  · rintro ⟨f, hf, hdeed, rfl⟩
    exact ⟨f, List.mem_append_right _ hf, hdeed, rfl⟩

/-! ## One group -/

/-- What the flush of a channel's group does on the channel: the messages before the first one
that is too large are sent; a transaction stays unless the first of all is too large, or it is that
of an entry from the first such message on. -/
structure Outcome (big : Msg → Bool) (c : UInt32) (group : List Entry) (s s' : State) : Prop where
  deeds : ∃ new, s'.trace.flushed = new ++ s.trace.flushed
  sent : ∀ e, e.channel = c → (Sent s s' e ↔ e ∈ group.takeWhile fun e => !big e.msg)
  kept : ∀ i, (s.table.transactions i).used = true →
    (s.table.transactions i).channelIndex = c →
    (s'.table.transactions i = s.table.transactions i ↔
      group.head?.any (fun e => big e.msg) = false ∧
        ∀ e ∈ group.dropWhile fun e => !big e.msg, e.slot ≠ i)

theorem Outcome.before {group : List Entry} (h : Elsewhere c s t) (ho : Outcome big c group t s') :
    Outcome big c group s s' := by
  obtain ⟨new, hnew⟩ := ho.deeds
  obtain ⟨old, hold, -⟩ := h.deeds
  refine ⟨⟨new ++ old, by rw [hnew, hold, List.append_assoc]⟩, fun e he => ?_, fun i hu hi => ?_⟩
  · rw [h.sent_before hnew he]
    exact ho.sent e he
  · have heq := h.kept i hu hi
    rw [← heq] at hu hi ⊢
    exact ho.kept i hu hi

theorem Outcome.after {group : List Entry} (ho : Outcome big c group s t) (h : Elsewhere c t s') :
    Outcome big c group s s' := by
  obtain ⟨new, hnew⟩ := ho.deeds
  obtain ⟨late, hlate, -⟩ := h.deeds
  refine ⟨⟨late ++ new, by rw [hlate, hnew, List.append_assoc]⟩, fun e he => ?_,
    fun i hu hi => ?_⟩
  · rw [h.sent_after hnew he]
    exact ho.sent e he
  · rw [← ho.kept i hu hi]
    constructor
    · intro heq
      have hold := h.old i (heq ▸ hu)
      rw [← hold, heq]
    · intro heq
      rw [h.kept i (heq ▸ hu) (heq ▸ hi), heq]

/-- Nothing to send. -/
theorem Outcome.nil (h : Elsewhere c s s') : Outcome big c [] s s' := by
  obtain ⟨new, hnew, hd⟩ := h.deeds
  refine ⟨⟨new, hnew⟩, fun e he => ?_, fun i hu hi => ?_⟩
  · rw [sent_iff hnew]
    constructor
    · rintro ⟨f, hf, -, rfl⟩
      exact absurd he (hd f hf)
    · simp
  · simpa using h.kept i hu hi

theorem Closed.elsewhere (h : Closed s s' c) (hne : d ≠ c) : Elsewhere d s s' :=
  ⟨h.others d hne, fun i hu hi => h.table.others i hu (hi.symm ▸ hne), h.table.kept, [],
    by rw [h.trace]; rfl, by simp⟩

/-- The deeds of a release. -/
theorem releaseEntries_flushed (entries : List Entry) (s : State) :
    ∃ new, (entries.foldl State.releaseEntry s).trace.flushed = new ++ s.trace.flushed ∧
      ∀ f ∈ new, f.deed = .released ∧ f.entry ∈ entries := by
  induction entries generalizing s with
  | nil => exact ⟨[], rfl, by simp⟩
  | cons e entries ih =>
      obtain ⟨new, hnew, hf⟩ := ih (s.releaseEntry e)
      refine ⟨new ++ [⟨.released, e, s.table.transactions e.slot, s.trace.owner e.slot⟩], ?_,
        fun f hm => ?_⟩
      · rw [List.foldl_cons, hnew, List.append_assoc]
        rfl
      · rcases List.mem_append.mp hm with hm | hm
        · exact ⟨(hf f hm).1, List.mem_cons_of_mem e (hf f hm).2⟩
        · rw [List.mem_singleton.mp hm]
          exact ⟨rfl, List.mem_cons_self⟩

theorem releaseEntries_channels (entries : List Entry) (s : State) :
    (entries.foldl State.releaseEntry s).channels = s.channels := by
  induction entries generalizing s with
  | nil => rfl
  | cons e entries ih => exact ih (s.releaseEntry e)

/-- The deeds of a send. -/
theorem noteSent_flushed (entries : List Entry) (s : State) :
    ∃ new, (entries.foldl (fun s e => s.noteFlush .sent e) s).trace.flushed =
        new ++ s.trace.flushed ∧
      (∀ f ∈ new, f.deed = .sent) ∧ ∀ e, (∃ f ∈ new, f.entry = e) ↔ e ∈ entries := by
  induction entries generalizing s with
  | nil => exact ⟨[], rfl, by simp, by simp⟩
  | cons e entries ih =>
      obtain ⟨new, hnew, hdeed, hmem⟩ := ih (s.noteFlush .sent e)
      refine ⟨new ++ [⟨.sent, e, s.table.transactions e.slot, s.trace.owner e.slot⟩], ?_,
        fun f hm => ?_, fun e' => ?_⟩
      · rw [List.foldl_cons, hnew, List.append_assoc]
        rfl
      · rcases List.mem_append.mp hm with hm | hm
        · exact hdeed f hm
        · rw [List.mem_singleton.mp hm]
      · rw [List.mem_cons, ← hmem e']
        constructor
        · rintro ⟨f, hm, rfl⟩
          rcases List.mem_append.mp hm with hm | hm
          · exact Or.inr ⟨f, hm, rfl⟩
          · rw [List.mem_singleton.mp hm]
            exact Or.inl rfl
        · rintro (rfl | ⟨f, hm, rfl⟩)
          · exact ⟨_, List.mem_append_right _ (List.mem_singleton_self _), rfl⟩
          · exact ⟨f, List.mem_append_left _ hm, rfl⟩

/-- Where a release ends: the slots of the entries are free, the others as they were. -/
theorem releaseEntries_transactions (entries : List Entry) (s : State) (i : Nat) :
    ((∀ e ∈ entries, e.slot ≠ i) →
      (entries.foldl State.releaseEntry s).table.transactions i = s.table.transactions i) ∧
    ((∃ e ∈ entries, e.slot = i) → i < s.table.capacity →
      ((entries.foldl State.releaseEntry s).table.transactions i).used = false) ∧
    (((entries.foldl State.releaseEntry s).table.transactions i).used = true →
      (entries.foldl State.releaseEntry s).table.transactions i = s.table.transactions i) := by
  induction entries generalizing s with
  | nil => exact ⟨fun _ => rfl, by simp, fun _ => rfl⟩
  | cons e entries ih =>
      obtain ⟨hkept, hgone, hold⟩ := ih (s.releaseEntry e)
      have hcap : (s.releaseEntry e).table.capacity = s.table.capacity :=
        s.table.release_capacity e.slot
      rw [List.foldl_cons]
      refine ⟨fun hne => ?_, fun ⟨e', he', hi⟩ hlt => ?_, fun hu => ?_⟩
      · rw [hkept fun e' he' => hne e' (List.mem_cons_of_mem e he')]
        exact Table.release_transactions fun h => hne e List.mem_cons_self h.symm
      · by_cases hm : ∃ e' ∈ entries, e'.slot = i
        · exact hgone hm (hcap ▸ hlt)
        · -- the slot was freed by the first entry, and stays free
          obtain rfl : e' = e := by
            rcases List.mem_cons.mp he' with h | h
            · exact h
            · exact absurd ⟨e', h, hi⟩ hm
          rw [hkept fun e' he' h => hm ⟨e', he', h⟩, ← hi]
          exact Table.release_self (hi ▸ hlt)
      · have heq := hold hu
        rw [heq] at hu ⊢
        exact Table.release_kept (t := s.table) hu

theorem take_takeWhile (p : Entry → Bool) (l : List Entry) :
    l.take (l.takeWhile p).length = l.takeWhile p :=
  (List.prefix_iff_eq_take.mp (List.takeWhile_prefix p)).symm

theorem drop_takeWhile (p : Entry → Bool) (l : List Entry) :
    l.drop (l.takeWhile p).length = l.dropWhile p := by
  have h := @List.drop_left _ (l.takeWhile p) (l.dropWhile p)
  rwa [List.takeWhile_append_dropWhile] at h

/-- A short count sends the messages before the first that is too large and gives up the rest. -/
theorem outcome_short {group : List Entry} (h : Served s none)
    (hc : ∀ e ∈ group, e.channel = c) (hu : ∀ e ∈ group, e.Holds s)
    (hhead : group.head?.any (fun e => big e.msg) = false) (relayed : List Msg)
    (hr : relayed = ((group.takeWhile fun e => !big e.msg).map (·.msg)).reverse ++
      s.trace.relayed) :
    let sent := group.takeWhile fun e => !big e.msg
    let rest := group.dropWhile fun e => !big e.msg
    let s' := rest.foldl State.releaseEntry
      (sent.foldl (fun (s : State) e => s.noteFlush .sent e) { s with trace.relayed := relayed })
    Outcome big c group s s' ∧ ∀ d, d ≠ c → Elsewhere d s s' := by
  intro sent rest s'
  have hsub : ∀ e ∈ sent, e ∈ group := fun e he => (List.takeWhile_prefix _).subset he
  have hsub' : ∀ e ∈ rest, e ∈ group := fun e he => (List.dropWhile_suffix _).subset he
  obtain ⟨hserved, htab, hchan, -⟩ :=
    noteSent_served h (fun e he => hu e (hsub e he)) relayed hr _ rfl
  obtain ⟨new, hnew, hdeed, hmem⟩ := noteSent_flushed sent { s with trace.relayed := relayed }
  obtain ⟨new', hnew', hdeed'⟩ := releaseEntries_flushed rest
    (sent.foldl (fun (s : State) e => s.noteFlush .sent e) { s with trace.relayed := relayed })
  have hall : s'.trace.flushed = (new' ++ new) ++ s.trace.flushed := by
    rw [hnew', hnew, List.append_assoc]
  -- a transaction is gone exactly when its message is among those given up
  have htx := releaseEntries_transactions rest
    (sent.foldl (fun (s : State) e => s.noteFlush .sent e) { s with trace.relayed := relayed })
  rw [htab] at htx
  have hchan' : s'.channels = s.channels := by
    rw [← hchan]
    exact releaseEntries_channels rest _
  refine ⟨⟨⟨_, hall⟩, fun e he => ?_, fun i hui hi => ?_⟩, fun d hd => ⟨?_, fun i hui hi => ?_,
    fun i hui => ?_, _, hall, fun f hf => ?_⟩⟩
  · rw [sent_iff hall, ← hmem e]
    constructor
    · rintro ⟨f, hf, hs, rfl⟩
      rcases List.mem_append.mp hf with hf | hf
      · rw [(hdeed' f hf).1] at hs
        exact absurd hs (by simp)
      · exact ⟨f, hf, rfl⟩
    · rintro ⟨f, hf, rfl⟩
      exact ⟨f, List.mem_append_right _ hf, hdeed f hf, rfl⟩
  · constructor
    · refine fun heq => ⟨hhead, fun e he hslot => ?_⟩
      have := (htx i).2.1 ⟨e, he, hslot⟩ (h.bounded i hui)
      rw [heq, hui] at this
      exact Bool.false_ne_true this.symm
    · exact fun hne => (htx i).1 hne.2
  · rw [hchan']
  · refine (htx i).1 fun e he hslot => ?_
    have hch := (hu e (hsub' e he)).2.1
    rw [hslot, hi, hc e (hsub' e he)] at hch
    exact hd hch
  · exact (htx i).2.2 hui
  · rcases List.mem_append.mp hf with hf | hf
    · rw [hc _ (hsub' _ (hdeed' f hf).2)]
      exact hd.symm
    · rw [hc _ (hsub _ ((hmem f.entry).mp ⟨f, hf, rfl⟩))]
      exact hd.symm

/-- Closing the channel loses everything on it. -/
theorem outcome_closed {group : List Entry} (h : Served s none) (hcl : Closed s s' c)
    (hhead : group.head?.any (fun e => big e.msg) = true) : Outcome big c group s s' := by
  have hall : s'.trace.flushed = [] ++ s.trace.flushed := by rw [hcl.trace]; rfl
  refine ⟨⟨[], hall⟩, fun e _ => ?_, fun i hu hi => ?_⟩
  · rw [sent_iff hall]
    cases group with
    | nil => simp at hhead
    | cons e' group =>
        simp only [List.head?_cons, Option.any_some] at hhead
        simp [hhead]
  · rw [hhead]
    refine iff_of_false (fun heq => ?_) (by simp)
    have := hcl.table.gone i (h.bounded i hu)
    rw [heq] at this
    exact this hu hi

/-- The answer for a group, and what it says about the group. -/
theorem sendmmsgTooLarge_cases (big : Msg → Bool) {group : List Entry} (hne : group ≠ []) :
    (sendmmsgTooLarge big (group.map (·.msg)) = .error .emsgsize ∧
      group.head?.any (fun e => big e.msg) = true) ∨
    ∃ n, sendmmsgTooLarge big (group.map (·.msg)) = .ok (n + 1) ∧
      group.head?.any (fun e => big e.msg) = false ∧
      n + 1 = (group.takeWhile fun e => !big e.msg).length := by
  cases group with
  | nil => exact absurd rfl hne
  | cons e group =>
      cases hb : big e.msg with
      | true => exact Or.inl (by simp [sendmmsgTooLarge, hb])
      | false =>
          refine Or.inr ⟨(group.takeWhile fun e => !big e.msg).length, ?_, by simp [hb],
            by simp [hb]⟩
          simp [sendmmsgTooLarge, hb, List.takeWhile_map, Function.comp_def]

theorem flushGroup_outcome (big : Msg → Bool) {group : List Entry} (h : Served s none) (hh : Holding s group)
    (hc : ∀ e ∈ group, e.channel = c) (hne : group ≠ []) :
    Prog.Sat (Refusing big)
      (fun s' _ => ((s.channels c).Up → Outcome big c group s s') ∧ ∀ d, d ≠ c → Elsewhere d s s')
      (flushGroup c group s) := by
  have hclose : ((s.channels c).Up → group.head?.any (fun e => big e.msg) = true) → ∀ now,
      Prog.Sat (Refusing big)
        (fun s' _ => ((s.channels c).Up → Outcome big c group s s') ∧
          ∀ d, d ≠ c → Elsewhere d s s') (closeChannel c now s) := fun hhead now =>
    (closeChannel_sat c now s).mono fun s' _ hcl =>
      ⟨fun hup => outcome_closed h hcl (hhead hup), fun d hd => hcl.elsewhere hd⟩
  simp only [flushGroup, Lib.Act.bind_run, get_run, Prog.ret_bind]
  rcases hfd : (s.channels c).udpFd with _ | fd
  · exact fun now _ => hclose (fun hup => by simp [Channel.Up, hfd] at hup) now
  · refine sat_ite (fun ha => ?_) fun ha now _ => hclose (fun hup => absurd hup.1 ha) now
    rintro r (rfl : r = sendmmsgTooLarge big (group.map (·.msg)))
    rcases sendmmsgTooLarge_cases big hne with ⟨hr, hhead⟩ | ⟨n, hr, hhead, hn⟩
    · rw [hr]
      exact fun now _ => hclose (fun _ => hhead) now
    · rw [hr]
      obtain ⟨h1, h2⟩ := outcome_short h hc (fun e he => hh.holds e he (hc e he ▸ ha)) hhead
        (((group.map (·.msg)).take (n + 1)).reverse ++ s.trace.relayed)
        (by rw [hn, ← List.map_take, take_takeWhile])
      rw [← take_takeWhile, ← drop_takeWhile, ← hn] at h1 h2
      exact ⟨fun _ => h1, h2⟩

theorem closeChannel_total (c : UInt32) (now : Nat) (s : State) :
    Prog.Total (Refusing big) (closeChannel c now s) := by
  have htime : ∀ s, Prog.Total (Refusing big) (timeOr now s) := by
    intro s
    unfold timeOr
    split
    · exact ⟨⟨(0 : Nat), trivial⟩, fun _ _ => trivial⟩
    · trivial
  have hreset : ∀ s, Prog.Total (Refusing big) (resetChannelFds c s) := by
    intro s
    simp only [resetChannelFds, Lib.Act.bind_run, get_run, Prog.ret_bind]
    by_cases hp : (s.channels c).relayPortClaimed = true
    · simp only [hp, if_true, Lib.Act.bind_run, ask_run, Prog.ask_bind, Prog.ret_bind]
      exact ⟨⟨(), trivial⟩, fun _ _ => trivial⟩
    · simp only [hp]
      trivial
  refine (hreset _).bind (resetChannelFds_sat c _) fun t _ _ => ?_
  exact (htime t).bind (timeOr_sat now t) fun _ _ _ => trivial

theorem flushGroup_total (c : UInt32) {group : List Entry} (hne : group ≠ []) (s : State) :
    Prog.Total (Refusing big) (flushGroup c group s) := by
  have hclose : Prog.Total (Refusing big) ((do
      let now : Nat ← ask .nowMs
      closeChannel c now : Fast Unit) s) :=
    ⟨⟨(0 : Nat), trivial⟩, fun now _ => closeChannel_total c now s⟩
  simp only [flushGroup, Lib.Act.bind_run, get_run, Prog.ret_bind]
  rcases (s.channels c).udpFd with _ | fd
  · exact hclose
  · dsimp only
    split
    · refine ⟨⟨_, rfl⟩, ?_⟩
      rintro r (rfl : r = sendmmsgTooLarge big (group.map (·.msg)))
      rcases sendmmsgTooLarge_cases big hne with ⟨hr, -⟩ | ⟨n, hr, -⟩
      · rw [hr]
        exact hclose
      · rw [hr]
        trivial
    · exact hclose

/-! ## The whole flush -/

/-- What a flush does, channel by channel. -/
def FlushOutcome (big : Msg → Bool) (entries : List Entry) (s s' : State) : Prop :=
  (∀ c, (∀ e ∈ entries, e.channel ≠ c) → Elsewhere c s s') ∧
    ∀ c, (s.channels c).Up → Outcome big c (entries.filter fun e => e.channel = c) s s'

theorem flushFrom_outcome (big : Msg → Bool) (n : Nat) {entries : List Entry} (hn : entries.length ≤ n)
    (h : Served s none) (hh : Holding s entries) :
    Prog.Sat (Refusing big) (fun s' _ => FlushOutcome big entries s s') (flushFrom n entries s) ∧
      Prog.Total (Refusing big) (flushFrom n entries s) := by
  have hnil : ∀ s, FlushOutcome big [] s s := fun s =>
    ⟨fun c _ => .refl c s, fun c _ => .nil (.refl c s)⟩
  induction n generalizing s entries with
  | zero =>
      obtain rfl := List.eq_nil_of_length_eq_zero (Nat.le_zero.mp hn)
      exact ⟨hnil s, trivial⟩
  | succ n ih =>
      cases entries with
      | nil => exact ⟨hnil s, trivial⟩
      | cons e entries =>
          have hlt := hh.channel e List.mem_cons_self
          -- one round sends the group of the first entry's channel
          have hgo : flushFrom (n + 1) (e :: entries) s =
              (flushGroup e.channel (e :: entries.filter fun e' => e'.channel = e.channel) s).bind
                fun t _ => flushFrom n (entries.filter fun e' => e'.channel ≠ e.channel) t := by
            simp only [flushFrom, Lib.Act.ite_run, if_neg (UInt32.not_le.mpr hlt)]
            rfl
          have hgroup : Holding s (e :: entries.filter fun e' => e'.channel = e.channel) :=
            hh.sublist (List.filter_sublist.cons_cons e)
          have hrest : Holding s (entries.filter fun e' => e'.channel ≠ e.channel) :=
            hh.sublist (List.filter_sublist.cons e)
          have hgc : ∀ e' ∈ e :: entries.filter (fun e' => e'.channel = e.channel),
              e'.channel = e.channel := by
            intro e' he'
            rcases List.mem_cons.mp he' with rfl | he'
            · rfl
            · simpa using (List.mem_filter.mp he').2
          have hrc : ∀ e' ∈ entries.filter (fun e' => e'.channel ≠ e.channel),
              e'.channel ≠ e.channel := by
            intro e' he'
            simpa using (List.mem_filter.mp he').2
          have hlen : (entries.filter fun e' => e'.channel ≠ e.channel).length ≤ n :=
            Nat.le_trans (List.length_filter_le _ _) (Nat.le_of_succ_le_succ hn)
          have hfirst := (flushGroup_outcome big h hgroup hgc (by simp)).and
            (flushGroup_sat h hgroup hgc hrest hrc)
          rw [hgo]
          refine ⟨hfirst.bind fun t _ ⟨⟨hout, helse⟩, hserved, hholding⟩ => ?_,
            (flushGroup_total e.channel (by simp) s).bind hfirst
              fun t _ ⟨_, hserved, hholding⟩ => (ih hlen hserved hholding).2⟩
          refine (ih hlen hserved hholding).1.mono fun s' _ ⟨hnone, hall⟩ => ⟨fun c hc => ?_,
            fun c hup => ?_⟩
          · refine (helse c (hc e List.mem_cons_self).symm).trans (hnone c fun e' he' => ?_)
            exact hc e' (List.mem_cons_of_mem e (List.mem_of_mem_filter he'))
          -- the channel of this round is left alone by the later ones, any other by this one
          · rcases eq_or_ne c e.channel with rfl | hce
            · rw [List.filter_cons_of_pos (by simp)]
              exact (hout hup).after (hnone _ hrc)
            · have hsame := helse c hce
              have hfilter : (entries.filter fun e' => e'.channel ≠ e.channel).filter
                  (fun e' => e'.channel = c) = (e :: entries).filter fun e' => e'.channel = c := by
                rw [List.filter_cons_of_neg (by simpa using hce.symm), List.filter_filter]
                refine List.filter_congr fun e' _ => ?_
                by_cases heq : e'.channel = c
                · simp [heq, hce]
                · simp [heq]
              rw [← hfilter]
              exact .before hsame (hall c (hsame.channel ▸ hup))

/-! ## Isolation -/

/-- On every channel with a relay socket, every query of the batch that is not too large is sent,
and every transaction stays that is not the one of an oversized query of the batch. -/
def Isolated (big : Msg → Bool) (entries : List Entry) (s s' : State) : Prop :=
  ∀ c, (s.channels c).Up →
    (∀ e ∈ entries, e.channel = c → big e.msg = false → Sent s s' e) ∧
    ∀ i, (s.table.transactions i).used = true → (s.table.transactions i).channelIndex = c →
      (∀ e ∈ entries, e.channel = c → big e.msg = true → e.slot ≠ i) →
        s'.table.transactions i = s.table.transactions i

/-- On every channel with a relay socket, the oversized queries are the last of its group, and if
they are the whole group nothing else is in flight. -/
def OversizedLast (big : Msg → Bool) (entries : List Entry) (s : State) : Prop :=
  ∀ c, (s.channels c).Up →
    let group := entries.filter fun e => e.channel = c
    (∀ e ∈ group.dropWhile fun e => !big e.msg, big e.msg = true) ∧
      (group.head?.any (fun e => big e.msg) = true → ∀ i, (s.table.transactions i).used = true →
        (s.table.transactions i).channelIndex = c → ∃ e ∈ group, e.slot = i)

/-- Where the first is too large nothing is dropped. -/
theorem dropWhile_of_head {group : List Entry}
    (h : group.head?.any (fun e => big e.msg) = true) :
    group.dropWhile (fun e => !big e.msg) = group := by
  cases group with
  | nil => rfl
  | cons e group =>
      simp only [List.head?_cons, Option.any_some] at h
      simp [h]

theorem FlushOutcome.isolated_iff {entries : List Entry} (h : FlushOutcome big entries s s')
    (huid : (entries.map (·.uid)).Nodup) :
    Isolated big entries s s' ↔ OversizedLast big entries s := by
  refine forall_congr' fun c => forall_congr' fun hup => ?_
  have ho := h.2 c hup
  have hmem : ∀ e, e ∈ entries.filter (fun e => e.channel = c) ↔ e ∈ entries ∧ e.channel = c :=
    fun e => by simp
  -- no entry is in both parts of the group
  have hdisj : ∀ e, e ∈ (entries.filter fun e => e.channel = c).takeWhile (fun e => !big e.msg) →
      e ∉ (entries.filter fun e => e.channel = c).dropWhile fun e => !big e.msg := by
    have hnd : ((entries.filter fun e => e.channel = c).takeWhile (fun e => !big e.msg) ++
        (entries.filter fun e => e.channel = c).dropWhile fun e => !big e.msg).Nodup := by
      rw [List.takeWhile_append_dropWhile]
      exact (huid.of_map _).filter _
    exact fun e he he' => List.disjoint_of_nodup_append hnd he he'
  constructor
  · rintro ⟨hsent, hkept⟩
    refine ⟨fun e he => ?_, fun hhead i hu hi => ?_⟩
    · obtain ⟨hin, hec⟩ := (hmem e).mp ((List.dropWhile_suffix _).subset he)
      by_contra hb
      have hs := hsent e hin hec (Bool.eq_false_of_not_eq_true hb)
      exact hdisj e ((ho.sent e hec).mp hs) he
    · by_contra hnone
      have hstay := hkept i hu hi fun e he hec _ heq =>
        hnone ⟨e, (hmem e).mpr ⟨he, hec⟩, heq⟩
      have := ((ho.kept i hu hi).mp hstay).1
      rw [hhead] at this
      exact Bool.false_ne_true this.symm
  · rintro ⟨hlast, halone⟩
    refine ⟨fun e he hec hb => (ho.sent e hec).mpr ?_, fun i hu hi hother => ?_⟩
    · have hin := (hmem e).mpr ⟨he, hec⟩
      rw [← List.takeWhile_append_dropWhile (p := fun e => !big e.msg)
        (l := entries.filter fun e => e.channel = c)] at hin
      rcases List.mem_append.mp hin with hin | hin
      · exact hin
      · rw [hlast e hin] at hb
        exact absurd hb (by simp)
    · have hslot : ∀ e ∈ (entries.filter fun e => e.channel = c).dropWhile (fun e => !big e.msg),
          e.slot ≠ i := by
        intro e he
        obtain ⟨hin, hec⟩ := (hmem e).mp ((List.dropWhile_suffix _).subset he)
        exact hother e hin hec (hlast e he)
      refine (ho.kept i hu hi).mpr ⟨Bool.eq_false_of_not_eq_true fun hhead => ?_, hslot⟩
      obtain ⟨e, he, heq⟩ := halone hhead i hu hi
      rw [← dropWhile_of_head hhead] at he
      exact hslot e he heq

/-! ## Runs -/

/-- The fast path is about to flush `entries`: a reachable state, then the loop over the packets of
some batch. -/
def Flushing (cfg : Config) (s : State) (entries : List Entry) : Prop :=
  ∃ s₀ s₁ now, ∃ packets : List ClientPacket, Reach cfg s₀ ∧
    Prog.Out (fun _ _ _ => True) (expireTransactions now s₀) s₁ () ∧
    Prog.Out (fun _ _ _ => True) (takeQueries now (packets.take s₀.cfg.batchSize) [] s₁) s entries

theorem Flushing.batching {cfg : Config} {entries : List Entry} (h : Flushing cfg s entries) :
    Batching s entries := by
  obtain ⟨s₀, s₁, now, packets, hreach, hexp, htake⟩ := h
  have hserved := hreach.served.shrinks ((shrinks_expireTransactions now s₀).out hexp)
  exact (takeQueries_sat now _ hserved.batching (batch_lt s₀.cfg packets)).out htake

/-! ### A healthy channel -/

/-- The channel is up and its control connection is open. -/
def Channel.Healthy (ch : Channel) : Prop := ch.Up ∧ ch.tcpFd.isSome = true

theorem ensureChannel_out (h : (s.channels c).Healthy) (now : Nat) :
    Prog.Out (fun _ _ _ => True) (ensureChannel c now s) s true := by
  obtain ⟨fd, hfd⟩ := Option.isSome_iff_exists.mp h.2
  have hhealthy : Prog.Out (fun _ _ _ => True) (channelIsHealthy c s) s true := by
    simp only [channelIsHealthy, Lib.Act.bind_run, get_run, Prog.ret_bind, hfd, Lib.Act.ite_run,
      if_pos (show (s.channels c).available = true ∧ (s.channels c).udpFd.isSome = true from h.1)]
    exact .ask (.error .eagain) trivial (.ret s true)
  exact hhealthy.bind (.ret s true)

/-- A query is taken when the channel whose turn it is is healthy: it goes on that channel, and
with a free slot the transactions that are there stay. -/
theorem prepareQuery_out (h : Served s none) (hc : s.nextDnsChannel % channelsPerWorker = c)
    (hup : (s.channels c).Healthy) (hfree : s.table.free ≠ []) (p : ClientPacket)
    (info : PacketInfo) (now : Nat) :
    ∃ s' e, Prog.Out (fun _ _ _ => True) (prepareQuery p info now s) s' (some e) ∧
      e.channel = c ∧ (∃ id, e.msg = ⟨p.originalDst, setId p.payload id⟩) ∧
      s'.channels = s.channels ∧ ∀ i, (s.table.transactions i).used = true →
        s'.table.transactions i = s.table.transactions i ∧ e.slot ≠ i := by
  have hlt : c < channelsPerWorker := by
    rw [← hc, UInt32.lt_iff_toNat_lt, UInt32.toNat_mod]
    exact Nat.mod_lt _ (by decide)
  obtain ⟨l, hl⟩ := h.table
  obtain ⟨t, slot, halloc, hdone⟩ := hl.alloc (h.capacity ▸ by decide) (h.capacity ▸ by decide)
    (h.channelCount ▸ hlt) info.id info.questionFingerprint now
  have hnew : ∀ i, (s.table.transactions i).used = true → slot ≠ i := by
    rintro i hu rfl
    rcases hdone.origin with ⟨hnot, -⟩ | ⟨-, hnil⟩
    · exact hnot (hl.mem.mpr ⟨h.bounded _ hu, hu⟩)
    · exact hfree hnil
  let s₁ : State := { s with nextDnsChannel := (c + 1) % channelsPerWorker }
  have hselect : Prog.Out (fun _ _ _ => True) (selectChannel now s) s₁ (some c) := by
    have hidx : (s.nextDnsChannel % channelsPerWorker + UInt32.ofNat 0) % channelsPerWorker = c := by
      rw [hc]
      apply UInt32.toNat_inj.mp
      rw [UInt32.toNat_mod, show c + UInt32.ofNat 0 = c from UInt32.add_zero c]
      exact Nat.mod_eq_of_lt (UInt32.lt_iff_toNat_lt.mp hlt)
    show Prog.Out _ (selectFrom (s.nextDnsChannel % channelsPerWorker) now
      [0, 1] s) s₁ (some c)
    simp only [selectFrom, hidx]
    exact (ensureChannel_out hup now).bind (.ret s₁ (some c))
  have hch : (t.transactions slot).channelIndex = c := hdone.filled.2.1
  let s₂ : State := { s₁ with table := t }
  refine ⟨noteQuery s₂ slot p info, ⟨slot, c, ⟨p.originalDst,
    setId p.payload (t.transactions slot).rewrittenId⟩, s.trace.queries.length⟩,
    hselect.bind ?_, rfl, ⟨_, rfl⟩, rfl, fun i hu => ⟨?_, hnew i hu⟩⟩
  · simp only [Lib.Act.bind_run, get_run, Prog.ret_bind, modify_run]
    have halloc' : s₁.table.alloc c info.id info.questionFingerprint now = (t, .ok slot) := halloc
    simp only [halloc', hch]
    refine (ensureChannel_out (s := s₂) hup now).bind ?_
    simp only [if_true, Lib.Act.bind_run, get_run, Prog.ret_bind, modify_run, Lib.Act.pure_run]
    rw [show (s₂.table.transactions slot).channelIndex = c from hch]
    exact .ret _ _
  · exact (Function.update_of_ne (hnew i hu).symm _ _).trans (hdone.others i (hnew i hu).symm)

/-! ### A large query -/

/-- The SOCKS5 header and the payload do not fit into a UDP datagram over IPv4. -/
def exceedsDatagram (m : Msg) : Bool :=
  65507 < 3 + (if m.addr.family = .inet6 then 1 + 16 + 2 else 1 + 4 + 2) + m.payload.length

/-- As much as a client can send: a short question and padding. -/
def largePayload : List UInt8 := rootPacket 9 0 ++ List.replicate 65490 0

/-- Bytes after the question do not matter. -/
theorem parseQuery_rootPacket (pad : List UInt8) :
    ∃ info, parseQuery (rootPacket 9 0 ++ pad) = some info := by
  have hname : fingerprintName (rootPacket 9 0 ++ pad) headerSize 2166136261 =
      some (13, fnv1aUpdate 2166136261 0) := by
    have hlen : (rootPacket 9 0 ++ pad).length - headerSize = (pad.length + 4) + 1 := by
      simp [rootPacket, headerSize]
    unfold fingerprintName
    rw [maxPointerHops, nameFrom, hlen, labels]
    simp [rootPacket, byteAt, headerSize]
  have hlen : (rootPacket 9 0 ++ pad).length = 17 + pad.length := by
    simp [rootPacket]
    omega
  unfold parseQuery parseDnsPacket
  rw [if_neg (by rw [hlen, headerSize]; omega), if_neg (by simp [rootPacket, byteAt])]
  dsimp only
  rw [if_neg (by simp [rootPacket, byteAt, readBe16]), hname]
  dsimp only
  rw [if_neg (by rw [hlen]; omega)]
  exact ⟨_, rfl⟩

theorem setId_length (packet : List UInt8) (id : UInt16) :
    (setId packet id).length = packet.length := by
  match packet with
  | [] => rfl
  | [_] => rfl
  | _ :: _ :: _ => rfl

theorem exceedsDatagram_large (dst : Udp.DstAddr) (id : UInt16) :
    exceedsDatagram ⟨dst, setId largePayload id⟩ = true := by
  have hlen : largePayload.length = 65507 := by
    rw [largePayload, List.length_append, List.length_replicate]
    rfl
  simp only [exceedsDatagram, setId_length, hlen, decide_eq_true_eq]
  split <;> omega

/-- A batch of one query that is prepared. -/
theorem takeQueries_one {p : ClientPacket} {info : PacketInfo} {e : Entry} {now : Nat}
    (hcand : isCandidate s.cfg p = true) (hinfo : parseQuery p.payload = some info)
    (ho : Prog.Out (fun _ _ _ => True) (prepareQuery p info now s) s' (some e)) :
    Prog.Out (fun _ _ _ => True) (takeQueries now [p] [] s) s' [e] := by
  simp only [takeQueries, Lib.Act.bind_run, get_run, Prog.ret_bind, Lib.Act.ite_run, hcand, if_true]
  rw [hinfo]
  exact ho.bind (.ret s' [e])

/-- Taking the large query alone. -/
theorem takeLarge_out (client : Sockaddr) (h : Served s none)
    (hcfg : s.cfg.enableDnsHijack = true) (hc : s.nextDnsChannel % channelsPerWorker = c)
    (hup : (s.channels c).Healthy) (hfree : s.table.free ≠ []) (now : Nat) :
    ∃ s' e, Prog.Out (fun _ _ _ => True)
        (takeQueries now [queryFrom client largePayload] [] s) s' [e] ∧
      e.channel = c ∧ exceedsDatagram e.msg = true ∧ s'.channels = s.channels ∧
      ∀ i, (s.table.transactions i).used = true →
        s'.table.transactions i = s.table.transactions i ∧ e.slot ≠ i := by
  obtain ⟨info, hinfo⟩ : ∃ info, parseQuery largePayload = some info := parseQuery_rootPacket _
  obtain ⟨s', e, ho, hch, ⟨id, hmsg⟩, hchans, hkept⟩ :=
    prepareQuery_out h hc hup hfree (queryFrom client largePayload) info now
  have hcand : isCandidate s.cfg (queryFrom client largePayload) = true := by
    simp [isCandidate, hcfg, queryFrom]
  exact ⟨s', e, takeQueries_one hcand hinfo ho, hch, hmsg ▸ exceedsDatagram_large _ id, hchans, hkept⟩

/-- Both channels are up; a query of one client goes out on channel 0 and one of another on
channel 1. -/
def inFlightMoves : List (Event × ((q : Sys) → q.Ans)) :=
  openMoves ++
    [(.control 1 .output, calmWith [] []), (.control 1 .input, calmWith [] []),
      (.control 1 .output, calmWith [] []), (.control 1 .input, calmWith [] []),
      (.clients, calmWith [queryFrom ⟨.inet, [1]⟩ (rootPacket 7 0),
        queryFrom ⟨.inet, [3]⟩ (rootPacket 7 0)] [])]

/-- What is used of the state after that. -/
def inFlight (s : State) : Bool :=
  s.cfg.enableDnsHijack && s.cfg.batchSize = 64 && s.nextDnsChannel = 0 &&
    (s.channels 0).available && (s.channels 0).udpFd.isSome && (s.channels 0).tcpFd.isSome &&
    !s.table.free.isEmpty && (s.table.transactions 0).used &&
    (s.table.transactions 0).channelIndex = 0 &&
    (s.table.transactions 0).clientAddr = ⟨.inet, [1]⟩

theorem inFlight_reach :
    ∃ s s₁, Reach calmConfig s ∧ s.cfg.batchSize = 64 ∧ inFlight s₁ = true ∧
      Prog.Out (fun _ _ _ => True) (expireTransactions 1 s) s₁ () := by
  have hrun : ((initState calmConfig).bind (play inFlightMoves)).any (fun s =>
      s.cfg.batchSize = 64 && (Prog.exec (fun _ _ _ => true) (fun _ => calmWith [] []) 0
        (expireTransactions 1 s)).any fun r => inFlight r.1) = true := by
    decide +kernel
  obtain ⟨s, hs, hr⟩ := (Option.any_eq_true _ _).mp hrun
  obtain ⟨s₀, h₀, hp⟩ := Option.bind_eq_some_iff.mp hs
  obtain ⟨hb, hr⟩ := Bool.and_eq_true_iff.mp hr
  obtain ⟨r, hexec, hr⟩ := (Option.any_eq_true _ _).mp hr
  refine ⟨s, r.1, play_reach ?_ (.init h₀) hp, of_decide_eq_true hb, hr,
    Prog.exec_out (fun _ _ _ _ => trivial) hexec⟩
  simp [inFlightMoves, openMoves, Event.valid, channelsPerWorker]

/-- A client's query is in flight on channel 0, and another client's, which is too large, is about
to be flushed. -/
theorem largeQuery_flushing :
    ∃ s e, Flushing calmConfig s [e] ∧ e.channel = 0 ∧ e.slot ≠ 0 ∧
      exceedsDatagram e.msg = true ∧ (s.channels 0).Up ∧ (s.table.transactions 0).used = true ∧
      (s.table.transactions 0).channelIndex = 0 ∧
      (s.table.transactions 0).clientAddr = ⟨.inet, [1]⟩ := by
  obtain ⟨s₀, s₁, hreach, hbatch, hin, hexp⟩ := inFlight_reach
  simp only [inFlight, Bool.and_eq_true, decide_eq_true_eq, Bool.not_eq_true',
    List.isEmpty_eq_false_iff] at hin
  obtain ⟨⟨⟨⟨⟨⟨⟨⟨⟨hcfg, -⟩, hnext⟩, hav⟩, hudp⟩, htcp⟩, hfree⟩, hu⟩, hch⟩, hclient⟩ := hin
  have hserved := hreach.served.shrinks ((shrinks_expireTransactions 1 s₀).out hexp)
  obtain ⟨s, e, ho, hec, hbig, hchans, hkept⟩ := takeLarge_out (c := 0) ⟨.inet, [2]⟩
    hserved hcfg (by rw [hnext]; decide) ⟨⟨hav, hudp⟩, htcp⟩ hfree 1
  obtain ⟨htx, hslot⟩ := hkept 0 hu
  rw [← htx] at hu hch hclient
  exact ⟨s, e, ⟨s₀, s₁, 1, [queryFrom ⟨.inet, [2]⟩ largePayload], hreach, hexp,
    by simpa [hbatch] using ho⟩, hec, hslot, hbig, hchans ▸ ⟨hav, hudp⟩, hu, hch, hclient⟩

/-! ## The main results -/

/-- For every batch and every set of messages that are too large, the flush returns; and nothing
but the oversized queries is lost exactly when these are the last of their group and, if they are
the whole group, alone on the channel. -/
theorem dns_flush_isolated (big : Msg → Bool) {cfg : Config} {entries : List Entry}
    (h : Flushing cfg s entries) :
    (∃ s', Prog.Out (Refusing big) (flushOutgoing entries s) s' ()) ∧
      ∀ s', Prog.Out (Refusing big) (flushOutgoing entries s) s' () →
        (Isolated big entries s s' ↔ OversizedLast big entries s) := by
  have hb := h.batching
  obtain ⟨hsat, htotal⟩ :=
    flushFrom_outcome big entries.length (Nat.le_refl _) hb.served hb.holding
  obtain ⟨s', _, ho⟩ := htotal.out
  exact ⟨⟨s', ho⟩, fun s'' ho' => (hsat.out ho').isolated_iff hb.holding.uids⟩

/-- At a batch with one large query. -/
theorem dns_flush_isolated_large :
    ∃ s e, Flushing calmConfig s [e] ∧ exceedsDatagram e.msg = true ∧
      (∃ s', Prog.Out (Refusing exceedsDatagram) (flushOutgoing [e] s) s' ()) ∧
      ∀ s', Prog.Out (Refusing exceedsDatagram) (flushOutgoing [e] s) s' () →
        (Isolated exceedsDatagram [e] s s' ↔ OversizedLast exceedsDatagram [e] s) := by
  obtain ⟨s, e, hflush, -, -, hbig, -⟩ := largeQuery_flushing
  exact ⟨s, e, hflush, hbig, dns_flush_isolated exceedsDatagram hflush⟩

/-- A client's query is in flight on channel 0.  Another client sends one that is too large: the
channel is closed, and the first client's transaction is released. -/
theorem dns_flush_drops_other_client :
    ∃ s e s', Flushing calmConfig s [e] ∧
      Prog.Out (Refusing exceedsDatagram) (flushOutgoing [e] s) s' () ∧
      ((s.table.transactions 0).used = true ∧
        (s.table.transactions 0).clientAddr = ⟨.inet, [1]⟩ ∧ e.slot ≠ 0 ∧
        (s'.table.transactions 0).used = false) ∧ ¬Isolated exceedsDatagram [e] s s' := by
  obtain ⟨s, e, hflush, hec, hslot, hbig, hup, hu, hch, hclient⟩ := largeQuery_flushing
  have hb := hflush.batching
  have hlen : [e].length ≤ 1 := Nat.le_refl 1
  obtain ⟨hsat, htotal⟩ :=
    flushFrom_outcome exceedsDatagram 1 hlen hb.served hb.holding
  obtain ⟨s', _, hout⟩ := htotal.out
  obtain ⟨hnone, hall⟩ := hsat.out hout
  have hhead : ([e].filter fun e => e.channel = 0).head?.any (fun e => exceedsDatagram e.msg) =
      true := by
    simp [hec, hbig]
  refine ⟨s, e, s', hflush, hout, ⟨hu, hclient, hslot, Bool.eq_false_of_not_eq_true fun hused => ?_⟩,
    fun hiso => ?_⟩
  · have heq := (hnone 1 (by simp [hec])).old 0 hused
    have := (((hall 0 hup).kept 0 hu hch).mp heq).1
    rw [hhead] at this
    exact Bool.false_ne_true this.symm
  · obtain ⟨-, halone⟩ := (FlushOutcome.isolated_iff ⟨hnone, hall⟩ (by simp)).mp hiso 0 hup
    obtain ⟨e', he', hslot'⟩ := halone hhead 0 hu hch
    obtain rfl : e' = e := List.mem_singleton.mp (List.mem_of_mem_filter he')
    exact hslot hslot'

end Bpf2Socks.Dns
