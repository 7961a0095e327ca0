/-
# Bpf2Socks.Udp.Ages — the session LRU is in order of when its sessions were last seen.

`last_seen_ms` and the place on the LRU are written by separate statements, each with a clock read
of its own.  `Aged` says that the two agree: going along the LRU the sessions were seen later and
later.  `Still` is the relation of code that touches neither, `Ages U` that of code that may move
sessions and needs those in `U` to be in use.

As in the modules about the sessions themselves, every piece of code is checked against the
preorder that fits it; all of it rests on the clock not going back.
-/
import Bpf2Socks.Lib.Recency
import Bpf2Socks.Udp.Steps

namespace Bpf2Socks.Udp

open Function (update update_self update_of_ne)
open Lib (Prog Act DLists InOrder)
open Lib.Prog Lib.Act
open Worker hiding get modify ask diverge

variable {A : State → (q : Sys) → q.Ans → Prop} {U W D : Nat → Prop} {k : Nat}

/-- When the session in a slot was last seen. -/
abbrev SessTable.seenAt (t : SessTable) (k : Nat) : Nat := (t.core k).lastSeenMs

/-- The LRU is in order of when its sessions were last seen. -/
def Aged (s : State) : Prop :=
  ∀ lru, s.tbl.lru.Rep (fun _ => lru) → InOrder s.tbl.seenAt lru s.trace.clock

/-- What the pointers of the LRU stand for is in order. -/
theorem aged_of_rep {s : State} {r : List Nat} (hr : s.tbl.lru.Rep fun _ => r)
    (h : InOrder s.tbl.seenAt r s.trace.clock) : Aged s := fun _ hr' =>
  (hr'.unique hr ()).symm ▸ h

/-! ## Code that leaves the LRU alone -/

/-- From `s` to `s'` no session was seen and none moved. -/
structure Still (s s' : State) : Prop where
  clock : s.trace.clock ≤ s'.trace.clock
  lru : s'.tbl.lru = s.tbl.lru
  seen : ∀ j, s'.tbl.seenAt j = s.tbl.seenAt j

instance : IsPreorder State Still where
  refl _ := ⟨Nat.le_refl _, rfl, fun _ => rfl⟩
  trans _ _ _ h h' := ⟨Nat.le_trans h.clock h'.clock, h'.lru.trans h.lru,
    fun j => (h'.seen j).trans (h.seen j)⟩

theorem Still.aged {s s' : State} (h : Still s s') (ha : Aged s) : Aged s' := fun lru hr =>
  ((ha lru (h.lru ▸ hr)).later h.clock).congr fun j _ => h.seen j

theorem Beside.still {s s' : State} (h : Beside s s') : Still s s' :=
  ⟨h.clock, by rw [h.tbl], fun j => by rw [h.tbl]⟩

theorem still_modCore {s : State} {f : SessCore → SessCore}
    (hf : ∀ c, (f c).lastSeenMs = c.lastSeenMs) : Still s (s.modCore k f) :=
  ⟨Nat.le_refl _, rfl, update_field (π := SessCore.lastSeenMs) (hf _)⟩

theorem still_setRetry (s : State) (j ms : Nat) : Still s (setRetry s j ms) :=
  still_modCore fun _ => rfl

theorem still_setStage (s : State) (j : Nat) (stage : Stage) : Still s (setStage s j stage) :=
  still_modCore fun _ => rfl

theorem still_noteLookupMode (s : State) (j : Nat) (mode : LookupMode) :
    Still s (noteLookupMode s j mode) := by
  unfold noteLookupMode
  split
  · exact refl_of Still s
  · exact still_modCore fun _ => rfl

theorem still_handshakeRemove (s : State) (j : Nat) :
    Still s { s with tbl := s.tbl.handshakeRemove j } := by
  unfold SessTable.handshakeRemove
  split
  · exact ⟨Nat.le_refl _, rfl, update_field (π := SessCore.lastSeenMs) rfl⟩
  · exact refl_of Still s

theorem still_handshakeAddTail (s : State) (j now : Nat) :
    Still s { s with tbl := s.tbl.handshakeAddTail j now } :=
  ⟨Nat.le_refl _, rfl, update_field (π := SessCore.lastSeenMs) rfl⟩

theorem still_releaseNoteNewSession (s : State) (j now : Nat) :
    Still s (releaseNoteNewSession s j now) := by
  unfold releaseNoteNewSession
  dsimp only
  split
  · split
    · exact refl_of Still s
    · refine trans_of Still (b := setRetry s j (now + releaseRetryMilliseconds)) ?_ ?_
      · exact still_setRetry s j _
      · exact ⟨Nat.le_refl _, rfl, fun _ => rfl⟩
  · exact refl_of Still s

/-- Handshake code sees no session. -/
theorem handshaken_still : Handshaken A k Still where
  like h := h.beside.still
  assoc _ _ := ⟨Nat.le_refl _, rfl, fun _ => rfl⟩
  stage s stage _ := still_setStage s k stage
  refs _ _ := ⟨Nat.le_refl _, rfl, fun _ => rfl⟩
  interest _ _ _ _ := ⟨Nat.le_refl _, rfl, fun _ => rfl⟩
  restart := (keeps_modify fun s => still_handshakeRemove s k).bind fun _ =>
    (quiet_nowMs.imp fun h => h.beside.still).bind fun now =>
    keeps_modify fun s => still_handshakeAddTail s k now

/-! ## Code that may move sessions -/

/-- The sessions are in order, and those in `U` are in use. -/
structure Holding (U : Nat → Prop) (s : State) : Prop where
  sessions : Sessions True s
  aged : Aged s
  used : ∀ k, U k → (s.tbl.core k).used = true

theorem Holding.only {s : State} (h : Holding U s) (hu : (s.tbl.core k).used = true) :
    Holding (Only k) s := ⟨h.sessions, h.aged, by rintro j rfl; exact hu⟩

theorem Holding.nobody {s : State} (h : Holding U s) : Holding Nobody s :=
  ⟨h.sessions, h.aged, by simp⟩

/-- From `s` to `s'` the LRU stayed in order, and the sessions in `U` stayed. -/
def Ages (U : Nat → Prop) (s s' : State) : Prop := Holding U s → Holding U s'

instance (U : Nat → Prop) : IsPreorder State (Ages U) where
  refl _ := id
  trans _ _ _ h h' := h' ∘ h

theorem Evolve.ages {s s' : State} (he : Evolve True U W D s s')
    (ha : Sessions True s → (∀ k, U k → (s.tbl.core k).used = true) → Aged s → Aged s') :
    Ages U s s' := fun h =>
  have := he.sessions h.sessions h.used
  ⟨this.1, ha h.sessions h.used h.aged, this.2.1⟩

theorem Still.ages {s s' : State} (h : Still s s') (he : Evolve True U W D s s') : Ages U s s' :=
  he.ages fun _ _ => h.aged

theorem Beside.ages {s s' : State} (h : Beside s s') : Ages U s s' :=
  h.still.ages (W := Nobody) (D := Nobody) h.evolve

/-- Marking a session in use as seen at the time just read. -/
theorem ages_seenSession (hclock : Clock True A) {s : State} {now : Nat} (hr : Read A s now)
    (hk : U k) : Ages U s (seenSession s k now) := by
  refine (evolve_seenSession (W := Nobody) (D := Nobody) s now hk).ages fun hs hU ha => ?_
  obtain ⟨lru, l, hi, -⟩ := hs.whole
  have hmem : k ∈ lru := hi.mem_lru.mpr ⟨hU k hk, by simp⟩
  refine aged_of_rep (r := lru.erase k ++ [k]) (hi.lruRep.touch hmem) ?_
  have hseen : (seenSession s k now).tbl.seenAt = update s.tbl.seenAt k now := by
    funext j
    by_cases hj : j = k <;>
      simp [SessTable.seenAt, seenSession, State.modCore, SessTable.lruTouch, hj]
  rw [hseen, ← hr.clock hclock]
  exact (ha lru hi.lruRep).touch hi.lru_nodup

theorem seeing_ages (hclock : Clock True A) (hk : U k) : Seeing A k (Ages U) where
  like h := h.beside.ages
  seen _ _ hr := ages_seenSession hclock hr hk

/-! ### Drops -/

theorem ages_dropState {s : State} (hu : (s.tbl.core k).used = true) (hU : ¬U k) :
    Ages U s (dropState s k) := by
  refine (evolve_dropState (W := Nobody) (D := Only k) hu hU id rfl).ages fun hs _ ha => ?_
  obtain ⟨lru, l, hi, -⟩ := hs.whole
  have hrep := dropState_tbl s k ▸ (hi.dropped hu).lruRep
  refine aged_of_rep hrep ?_
  refine (((ha lru hi.lruRep).sublist List.erase_sublist).later (dropState_clock s k)).congr
    fun j hj => ?_
  have hne : j ≠ k := (hi.lru_nodup.mem_erase_iff.mp hj).1
  rw [SessTable.seenAt, dropState_tbl, s.tbl.dropped_core, if_neg hne]

theorem ages_sessionDrop (hU : ¬U k) : Keeps A (Ages U) (sessionDrop k) := by
  intro s
  by_cases hu : (s.tbl.core k).used = true
  · exact (sessionDrop_sat hu).mono fun s' _ h =>
      trans_of (Ages U) (ages_dropState hu hU) (Like.beside h).ages
  · rw [sessionDrop_unused (Bool.eq_false_iff.mpr hu)]
    exact refl_of (Ages U) s

theorem ages_rel (s : State) (rel : Release) (h : rel.armed = s.rel.armed) :
    Ages U s { s with rel := rel } :=
  Still.ages (W := Nobody) (D := Nobody) ⟨Nat.le_refl _, rfl, fun _ => rfl⟩
    (evolve_of_tbl rfl (Nat.le_refl _) rfl rfl h)

theorem ages_setRetry (s : State) (j ms : Nat) : Ages U s (setRetry s j ms) :=
  (still_setRetry s j ms).ages (W := Nobody) (D := Nobody) (evolve_setRetry s j ms)

theorem tolerant_ages : Tolerant A (Ages Nobody) where
  like h := h.beside.ages
  rel s rel h _ := ages_rel s rel h
  note s ms := ages_rel s (noteRetry s ms).rel rfl
  postpone s j ms := trans_of (Ages Nobody) (ages_setRetry s j ms)
    (ages_rel (setRetry s j ms) (noteRetry (setRetry s j ms) ms).rel rfl)
  settle s j := ages_setRetry s j 0
  drop _ := ages_sessionDrop id

/-! ### The handshake -/

/-- From `s` to `s'` only the handshake of session `k` went on, and no session was seen. -/
structure Shaken (k : Nat) (s s' : State) : Prop where
  shake : Shake True k s s'
  still : Still s s'

instance (k : Nat) : IsPreorder State (Shaken k) where
  refl s := ⟨Shake.refl True k s, refl_of Still s⟩
  trans _ _ _ h h' := ⟨h.shake.trans h'.shake, trans_of Still h.still h'.still⟩

theorem handshaken_shaken (hclock : Clock True A) : Handshaken A k (Shaken k) := by
  have h := handshaken_shake (k := k) hclock
  have h' := handshaken_still (A := A) (k := k)
  exact ⟨fun hl => ⟨h.like hl, h'.like hl⟩, fun s f => ⟨h.assoc s f, h'.assoc s f⟩,
    fun s _ hst => ⟨h.stage s hst, h'.stage s hst⟩, fun s r => ⟨h.refs s r, h'.refs s r⟩,
    fun s _ hr mask => ⟨h.interest s hr mask, h'.interest s hr mask⟩,
    fun s => ((h.restart s).and (h'.restart s)).mono fun _ _ hb => ⟨hb.1, hb.2⟩⟩

theorem establishing_ages (hclock : Clock True A) :
    Establishing A k (Shaken k) (Ages (Only k)) where
  stage h := h.shake.stage
  lift h hst := h.still.ages (W := Only k) (D := Nobody) (h.shake.evolve hst)
  toSeeing := seeing_ages hclock rfl
  established s := by
    refine Still.ages (W := Only k) (D := Nobody) ?_ (evolve_setReady s)
    exact trans_of Still (still_setStage s k .ready) (still_handshakeRemove _ k)

/-! ### Replies -/

/-- From `s` to `s'` replies for session `k` were handled, and the LRU stayed in order. -/
def Answers (k : Nat) (s s' : State) : Prop :=
  Holding (Only k) s ∧ BatchOf k s → Holding (Only k) s' ∧ BatchOf k s'

instance (k : Nat) : IsPreorder State (Answers k) where
  refl _ := id
  trans _ _ _ h h' := h' ∘ h

theorem Still.answers {s s' : State} (h : Still s s') (hw : Within k s s') (hc : s'.tbl = s.tbl) :
    Answers k s s' := by
  rintro ⟨hh, hb⟩
  obtain ⟨hs, -, hb'⟩ := hw.sessions hb hh.sessions (hh.used k rfl)
  exact ⟨⟨hs, h.aged hh.aged, by rw [hc]; exact hh.used⟩, hb'⟩

theorem batching_answers (hclock : Clock True A) : Batching A Answers where
  replying k := by
    refine ⟨fun h => h.still.answers h.within h.tbl, fun s now hr ⟨hh, hb⟩ => ?_⟩
    exact ⟨ages_seenSession hclock hr rfl hh, hb⟩
  shorten _ s n := Still.answers ⟨Nat.le_refl _, rfl, fun _ => rfl⟩ (within_dropBatch s n) rfl
  start _ s := Still.answers ⟨Nat.le_refl _, rfl, fun _ => rfl⟩ (within_initBatch s) rfl
  append _ s b fd pk m := Still.answers ⟨Nat.le_refl _, rfl, fun _ => rfl⟩
    (within_appendBatch s b fd pk m) rfl
  other he hj h := by
    rintro ⟨hh, hb⟩
    obtain rfl := hb.session he hj
    exact h ⟨hh, hb⟩

end Bpf2Socks.Udp
