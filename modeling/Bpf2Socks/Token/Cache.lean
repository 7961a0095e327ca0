/-
# Bpf2Socks.Token.Cache — how old an answer of the token cache may be.

A worker looks a datagram's token up in the token map, at most twice, and keeps what it found in a
direct-mapped table for a second.  The second counts from the time of the batch, which is read
before the lookups, so an entry is never kept longer than a second after the map was read.

The machine here is one worker and a clock.  The map is changed by anybody at any moment, between
the two reads of one call as well; a run is the list of its states, so that a moment is a state.
-/
import Bpf2Socks.Token.Machine

namespace Bpf2Socks.Token.Cache

open Function (update update_self update_of_ne)
open Tc (TokenKey OriginalDst)
open Udp (ClientPacket DstAddr Family LookupMode)

/-! ## The call -/

/-- The key `bpf2socks_udp_token_lookup_original` builds. -/
def lookupKey (listenPort : UInt16) (p : ClientPacket) : TokenKey where
  family := p.tokenFamily.code.toUInt8
  protocol := 17
  tokenPort := listenPort
  tokenAddr := pad16 (p.tokenAddr.take (if p.tokenFamily = .inet6 then 16 else 4))
  clientPort := (clientOf p.clientAddr).1
  clientAddr := (clientOf p.clientAddr).2

/-- An entry of zero bytes. -/
def zeroEntry : CacheEntry where
  key := ⟨0, 0, 0, pad16 [], 0, pad16 []⟩
  original := ⟨0, 0, 0, pad16 [], 0⟩
  expiresMs := 0
  mode := .unknown

/-- Where a call is between two accesses to the map. -/
inductive Stage where
  | idle
  | first (p : ClientPacket) (preference : LookupMode)
  | second (p : ClientPacket) (preference : LookupMode)
  deriving DecidableEq

/-- The worker, the map and the clock.  `cache` is `none` before its table could be allocated, and
`now` is the `now_ms` of the batch. -/
structure State where
  map : TokenKey → Option OriginalDst
  clock : Nat
  cache : Option (Nat → CacheEntry)
  now : Nat
  stage : Stage

/-- How a call ends: with a destination from the cache or the map, with the one of the control
message, or with an error. -/
inductive Outcome where
  | taken
  | fromSocket
  | failed
  deriving DecidableEq

/-- A call that returned: the datagram it was given, and what it made of it. -/
structure Returned where
  asked : ClientPacket
  outcome : Outcome
  packet : ClientPacket
  deriving DecidableEq

/-- `bpf2socks_original_dst_to_sockaddr` of another family: the family and the port alone. -/
def strangeDst (v : OriginalDst) : DstAddr where
  family := if v.family = 0 then .unspec else .other v.family.toUInt16
  port := v.port
  addr := pad16 []

/-- The end of a call that has a value. -/
def answer (p : ClientPacket) (v : OriginalDst) (mode : LookupMode) : Returned :=
  let q := { p with tokenLookupMode := mode, connectedUdpToken := isConnected v }
  match dstOf v with
  | some d => ⟨p, .taken, { q with originalDst := d }⟩
  | none => ⟨p, .failed, { q with originalDst := strangeDst v }⟩

/-- The end of a call whose lookups both missed. -/
def missed (p : ClientPacket) : Returned :=
  if p.hasOriginalDst then ⟨p, .fromSocket, { p with originalFromSocket := true }⟩
  else ⟨p, .failed, p⟩

/-- The end of a call whose lookup hit: the slot of its key is overwritten. -/
def State.found (cfg : Config) (s : State) (p : ClientPacket) (v : OriginalDst)
    (mode : LookupMode) : State × Option Returned :=
  let k := lookupKey cfg.listenPort p
  let cache :=
    if s.now ≠ 0 then
      s.cache.map fun c => update c (cfg.slot k) ⟨k, v, s.now + cacheTtl, mode⟩
    else s.cache
  ({ s with cache, stage := .idle }, some (answer p v mode))

/-- `udp_token_cache_slot`, the allocation; `memory` says whether it succeeds. -/
def State.withTable (s : State) (memory : Bool) : State :=
  { s with
    cache := s.cache.or (if memory then some fun _ => zeroEntry else none) }

/-- The cached entry that answers for a datagram. -/
def State.hit (cfg : Config) (s : State) (p : ClientPacket) : Option CacheEntry :=
  (s.cache.map fun c => c (cfg.slot (lookupKey cfg.listenPort p))).filter fun e =>
    e.expiresMs > s.now ∧ e.key = lookupKey cfg.listenPort p

inductive Action where
  /-- Anybody changes the map. -/
  | change (map : TokenKey → Option OriginalDst)
  /-- Time passes. -/
  | pass (ms : Nat)
  /-- The worker begins a batch and reads the clock. -/
  | batch
  /-- It calls `bpf2socks_udp_token_lookup_original` for a datagram of the batch. -/
  | call (p : ClientPacket) (preference : LookupMode) (memory : Bool)
  /-- The call's next lookup in the map; it may fail for other reasons than a missing entry. -/
  | read (works : Bool)

/-- `bpf2socks_token_lookup`. -/
def State.lookup (s : State) (k : TokenKey) (works : Bool) : Option OriginalDst :=
  if works then s.map k else none

/-- A lookup of the call: it answers, or goes on as `miss` says. -/
def State.readNext (cfg : Config) (s : State) (p : ClientPacket) (zero works : Bool)
    (miss : State × Option Returned) : State × Option Returned :=
  let k := lookupKey cfg.listenPort p
  match s.lookup (tried zero k).1 works with
  | some v => s.found cfg p v (tried zero k).2
  | none => miss

/-- One step, with the call that returns in it. -/
def step (cfg : Config) (s : State) : Action → Option (State × Option Returned)
  | .change map => some ({ s with map }, none)
  | .pass ms => some ({ s with clock := s.clock + ms }, none)
  | .batch => if s.stage = .idle then some ({ s with now := s.clock }, none) else none
  | .call p preference memory =>
      if s.stage = .idle then
        let s := s.withTable memory
        match s.hit cfg p with
        | some e => some (s, some (answer p e.original e.mode))
        | none => some ({ s with stage := .first p preference }, none)
      else none
  | .read works =>
      match s.stage with
      | .idle => none
      | .first p preference =>
          let zero := zeroFirst preference (lookupKey cfg.listenPort p)
          some (s.readNext cfg p zero works ({ s with stage := .second p preference }, none))
      | .second p preference =>
          let zero := !zeroFirst preference (lookupKey cfg.listenPort p)
          some (s.readNext cfg p zero works ({ s with stage := .idle }, some (missed p)))

/-- The states of a run, the latest first.  It starts with any map, at any time, before the first
batch. -/
inductive Run (cfg : Config) : List State → Prop where
  | start (map : TokenKey → Option OriginalDst) (clock : Nat) :
      Run cfg [⟨map, clock, none, 0, .idle⟩]
  | step {s s' : State} {past : List State} {a : Action} {r : Option Returned}
      (run : Run cfg (s :: past)) (step : step cfg s a = some (s', r)) : Run cfg (s' :: s :: past)

/-! ## The invariant -/

/-- In one of the states, not before `stamp`, the map held the value for the key or for the key
without its client, as the mode says. -/
def HeldSince (us : List State) (stamp : Nat) (k : TokenKey) (v : OriginalDst)
    (mode : LookupMode) : Prop :=
  ∃ u ∈ us, stamp ≤ u.clock ∧ ∃ zero, mode = (tried zero k).2 ∧ u.map (tried zero k).1 = some v

theorem HeldSince.cons {us : List State} {stamp : Nat} {k : TokenKey} {v : OriginalDst}
    {mode : LookupMode} (h : HeldSince us stamp k v mode) (s : State) :
    HeldSince (s :: us) stamp k v mode := by
  obtain ⟨u, hu, hrest⟩ := h
  exact ⟨u, List.mem_cons_of_mem s hu, hrest⟩

/-- An entry of the cache is of zero bytes, or was held by the map since its batch. -/
def EntryOk (us : List State) (e : CacheEntry) : Prop :=
  e.expiresMs = 0 ∨ ∃ stamp, e.expiresMs = stamp + cacheTtl ∧
    HeldSince us stamp e.key e.original e.mode

theorem EntryOk.cons {us : List State} {e : CacheEntry} (h : EntryOk us e) (s : State) :
    EntryOk (s :: us) e := by
  rcases h with h | ⟨stamp, hexp, hheld⟩
  · exact Or.inl h
  · exact Or.inr ⟨stamp, hexp, hheld.cons s⟩

/-- The worker's state, after the states in `us`. -/
structure Sound (us : List State) (s : State) : Prop where
  stamped : s.now ≤ s.clock
  cached : ∀ c, s.cache = some c → ∀ i, EntryOk us (c i)

/-- A change of the map, of the stage or of the clock keeps the entries. -/
theorem Sound.cons {us : List State} {s s' : State} (h : Sound us s) (hcache : s'.cache = s.cache)
    (hstamp : s'.now ≤ s'.clock) : Sound (s' :: us) s' :=
  ⟨hstamp, fun c hc i => (h.cached c (hcache ▸ hc) i).cons s'⟩

section Step

variable {cfg : Config} {us : List State} {s : State} {p : ClientPacket}

theorem Sound.withTable (h : Sound us s) (memory : Bool) : Sound us (s.withTable memory) := by
  refine ⟨h.stamped, fun c hc i => ?_⟩
  unfold State.withTable at hc
  rcases hs : s.cache with _ | c'
  · simp only [hs, Option.none_or] at hc
    split at hc
    · obtain rfl := Option.some.inj hc
      exact Or.inl rfl
    · cases hc
  · simp only [hs, Option.some_or] at hc
    exact h.cached c (hs.trans hc) i

/-- A lookup that hits: what is stored is held now. -/
theorem Sound.found (h : Sound (s :: us) s) (v : OriginalDst) (zero : Bool)
    (hmap : s.map (tried zero (lookupKey cfg.listenPort p)).1 = some v) :
    Sound ((s.found cfg p v (tried zero (lookupKey cfg.listenPort p)).2).1 :: s :: us)
      (s.found cfg p v (tried zero (lookupKey cfg.listenPort p)).2).1 := by
  refine ⟨h.stamped, fun c hc i => EntryOk.cons ?_ _⟩
  simp only [State.found] at hc
  by_cases hnow : s.now ≠ 0
  · rw [if_pos hnow] at hc
    obtain ⟨c', hc', rfl⟩ := Option.map_eq_some_iff.mp hc
    rcases eq_or_ne i (cfg.slot (lookupKey cfg.listenPort p)) with rfl | hi
    · rw [update_self]
      exact Or.inr ⟨s.now, rfl, s, List.mem_cons_self, h.stamped, zero, rfl, hmap⟩
    · rw [update_of_ne hi]
      exact h.cached c' hc' i
  · rw [if_neg hnow] at hc
    exact h.cached c hc i

/-- A cached answer. -/
theorem Sound.hit (h : Sound us s) {e : CacheEntry} (he : s.hit cfg p = some e) :
    ∃ stamp, s.now < stamp + cacheTtl ∧
      HeldSince us stamp (lookupKey cfg.listenPort p) e.original e.mode := by
  unfold State.hit at he
  obtain ⟨hmap, hgood⟩ := Option.filter_eq_some_iff.mp he
  obtain ⟨c, hc, rfl⟩ := Option.map_eq_some_iff.mp hmap
  obtain ⟨hexp, hkey⟩ := of_decide_eq_true hgood
  rcases h.cached c hc (cfg.slot (lookupKey cfg.listenPort p)) with h0 | ⟨stamp, hstamp, hheld⟩
  · omega
  · rw [hkey] at hheld
    exact ⟨stamp, hstamp ▸ hexp, hheld⟩

/-- What a call that took a destination made of its datagram: the three results come from one value
that the map held less than the lifetime before the batch, or later. -/
def FromMap (cfg : Config) (us : List State) (now : Nat) (r : Returned) : Prop :=
  ∃ u ∈ us, now < u.clock + cacheTtl ∧ ∃ zero v d,
    u.map (tried zero (lookupKey cfg.listenPort r.asked)).1 = some v ∧ dstOf v = some d ∧
    r.packet = { r.asked with
      tokenLookupMode := (tried zero (lookupKey cfg.listenPort r.asked)).2
      connectedUdpToken := isConnected v
      originalDst := d }

theorem HeldSince.fromMap {now stamp : Nat} {v : OriginalDst} {mode : LookupMode}
    (h : HeldSince us stamp (lookupKey cfg.listenPort p) v mode) (hnow : now < stamp + cacheTtl)
    (ht : (answer p v mode).outcome = .taken) : FromMap cfg us now (answer p v mode) := by
  obtain ⟨u, hu, hclock, zero, rfl, hmap⟩ := h
  unfold answer at ht ⊢
  rcases hd : dstOf v with _ | d
  · simp [hd] at ht
  · exact ⟨u, hu, by omega, zero, v, d, hmap, hd, rfl⟩

/-- Whichever of the two lookups it is. -/
theorem Sound.readNext (h : Sound (s :: us) s) {zero works : Bool}
    (miss : State × Option Returned) (hcache : miss.1.cache = s.cache)
    (hstamp : miss.1.now ≤ miss.1.clock) (hmiss : ∀ r', miss.2 = some r' → r'.outcome ≠ .taken)
    {s' : State} {r : Option Returned} (heq : s.readNext cfg p zero works miss = (s', r)) :
    Sound (s' :: s :: us) s' ∧
      ∀ r', r = some r' → r'.outcome = .taken → FromMap cfg (s :: us) s.now r' := by
  unfold State.readNext at heq
  rcases hv : s.lookup (tried zero (lookupKey cfg.listenPort p)).1 works with _ | v
  · simp only [hv] at heq
    subst heq
    exact ⟨h.cons hcache hstamp, fun r' hr ht => absurd ht (hmiss r' hr)⟩
  · simp only [hv] at heq
    have hmap : s.map (tried zero (lookupKey cfg.listenPort p)).1 = some v := by
      unfold State.lookup at hv
      split at hv
      · exact hv
      · cases hv
    have hsound := h.found v zero hmap
    have hheld : HeldSince (s :: us) s.now (lookupKey cfg.listenPort p) v
        (tried zero (lookupKey cfg.listenPort p)).2 :=
      ⟨s, List.mem_cons_self, h.stamped, zero, rfl, hmap⟩
    have hs' := congrArg Prod.fst heq
    have hr := congrArg Prod.snd heq
    simp only at hs' hr
    rw [hs'] at hsound
    refine ⟨hsound, fun r' hr' ht => ?_⟩
    obtain rfl := Option.some.inj (hr.trans hr')
    exact hheld.fromMap (by simp [cacheTtl]) ht

/-- One step keeps the entries sound, and a call that takes a destination in it has it from the
map. -/
theorem Sound.step (h : Sound (s :: us) s) {s' : State} {a : Action} {r : Option Returned}
    (hstep : step cfg s a = some (s', r)) :
    Sound (s' :: s :: us) s' ∧
      ∀ r', r = some r' → r'.outcome = .taken → FromMap cfg (s :: us) s.now r' := by
  cases a with
  | change map =>
      obtain ⟨rfl, rfl⟩ := Prod.mk.inj (Option.some.inj hstep)
      exact ⟨h.cons rfl h.stamped, fun _ hr => (nomatch hr)⟩
  | pass ms =>
      obtain ⟨rfl, rfl⟩ := Prod.mk.inj (Option.some.inj hstep)
      exact ⟨h.cons rfl (Nat.le_trans h.stamped (Nat.le_add_right _ _)), fun _ hr => (nomatch hr)⟩
  | batch =>
      simp only [Cache.step] at hstep
      split at hstep
      · obtain ⟨rfl, rfl⟩ := Prod.mk.inj (Option.some.inj hstep)
        exact ⟨h.cons rfl (Nat.le_refl _), fun _ hr => (nomatch hr)⟩
      · cases hstep
  | call p preference memory =>
      simp only [Cache.step] at hstep
      split at hstep
      · have htable := h.withTable memory
        -- a hit returns an entry that the map held at a time within its life
        rcases hhit : (s.withTable memory).hit cfg p with _ | e
        · rw [hhit] at hstep
          obtain ⟨rfl, rfl⟩ := Prod.mk.inj (Option.some.inj hstep)
          exact ⟨htable.cons rfl htable.stamped, fun _ hr => (nomatch hr)⟩
        · rw [hhit] at hstep
          obtain ⟨rfl, rfl⟩ := Prod.mk.inj (Option.some.inj hstep)
          obtain ⟨stamp, hlt, hheld⟩ := htable.hit hhit
          refine ⟨htable.cons rfl htable.stamped, fun r' hr ht => ?_⟩
          obtain rfl := Option.some.inj hr
          exact hheld.fromMap hlt ht
      · cases hstep
  | read works =>
      simp only [Cache.step] at hstep
      rcases hstage : s.stage with _ | ⟨p, preference⟩ | ⟨p, preference⟩
      · simp [hstage] at hstep
      · rw [hstage] at hstep
        exact h.readNext ({ s with stage := .second p preference }, none) rfl h.stamped
          (fun _ hr => (nomatch hr)) (Option.some.inj hstep)
      · rw [hstage] at hstep
        refine h.readNext ({ s with stage := .idle }, some (missed p)) rfl h.stamped
          (fun r' hr => ?_) (Option.some.inj hstep)
        obtain rfl := Option.some.inj hr
        unfold missed
        split <;> simp

end Step

theorem Run.sound {cfg : Config} {s : State} {past : List State} (h : Run cfg (s :: past)) :
    Sound (s :: past) s := by
  generalize hl : s :: past = l at h
  induction h generalizing s past with
  | start map clock =>
      obtain ⟨rfl, rfl⟩ := List.cons.inj hl
      exact ⟨Nat.zero_le _, fun _ hc => (nomatch hc)⟩
  | step run hstep ih =>
      obtain ⟨rfl, rfl⟩ := List.cons.inj hl
      exact ((ih rfl).step hstep).1

/-- In every run, a call that takes a destination from the cache or the map gives the destination,
the mode and the flag of one value that the map held for the datagram's own key, or that key without
its client, in a state of the run no later than the call and less than a second before its batch. -/
theorem tokenLookup_held {cfg : Config} {s s' : State} {past : List State} {a : Action}
    {r : Returned} (hrun : Run cfg (s :: past)) (hstep : step cfg s a = some (s', some r))
    (htaken : r.outcome = .taken) : FromMap cfg (s :: past) s.now r :=
  (hrun.sound.step hstep).2 r rfl htaken

/-- A datagram of a local client. -/
def somePacket : ClientPacket where
  clientAddr := ⟨.inet, [0, 9, 127, 0, 0, 1] ++ List.replicate 8 0⟩
  tokenFamily := .inet
  tokenAddr := [198, 18, 0, 1]
  hasOriginalDst := false
  originalFromSocket := false
  connectedUdpToken := false
  tokenLookupMode := .unknown
  originalDst := ⟨.unspec, 0, []⟩
  payload := []

/-- The client-less entry is read in the first batch and deleted; a second batch, 999 ms later, has
the cached answer. -/
theorem tokenLookup_held_cached : ∃ (s s' : State) (past : List State) (r : Returned),
    Run ⟨fun _ => 0, 1080, fun _ => true⟩ (s :: past) ∧
    step ⟨fun _ => 0, 1080, fun _ => true⟩ s (.call somePacket .unknown true) =
      some (s', some r) ∧
    s.map = (fun _ => none) ∧ s.now = 1004 ∧
    r.packet.originalDst = ⟨.inet, 53, pad16 [8, 8, 8, 8]⟩ ∧
    FromMap ⟨fun _ => 0, 1080, fun _ => true⟩ (s :: past) s.now r := by
  have hstart : Run ⟨fun _ => 0, 1080, fun _ => true⟩ _ := Run.start
    (fun k => if k.clientPort = 0 then some ⟨2, 17, 53, pad16 [8, 8, 8, 8], 1⟩ else none) 5
  have hbatch := hstart.step (a := .batch) rfl
  have hcall := hbatch.step (a := .call somePacket .unknown true) rfl
  have hread := hcall.step (a := .read true) rfl
  have hdeleted := hread.step (a := .change fun _ => none) rfl
  have hlater := hdeleted.step (a := .pass 999) rfl
  have hnext := hlater.step (a := .batch) rfl
  have hhit : ∀ s : State, s.cache = some (update (fun _ => zeroEntry) 0
      ⟨lookupKey 1080 somePacket, ⟨2, 17, 53, pad16 [8, 8, 8, 8], 1⟩, 1005, .zeroClient⟩) →
      s.now = 1004 → s.stage = .idle →
      step ⟨fun _ => 0, 1080, fun _ => true⟩ s (.call somePacket .unknown true) =
        some (s, some (answer somePacket ⟨2, 17, 53, pad16 [8, 8, 8, 8], 1⟩ .zeroClient)) := by
    rintro ⟨map, clock, cache, now, stage⟩ hcache hnow hstage
    simp only at hcache hnow hstage
    subst hcache hnow hstage
    simp [step, State.withTable, State.hit, Option.filter]
  exact ⟨_, _, _, _, hnext, hhit _ rfl rfl rfl, rfl, rfl, by decide,
    tokenLookup_held hnext (hhit _ rfl rfl rfl) (by decide)⟩

end Bpf2Socks.Token.Cache
