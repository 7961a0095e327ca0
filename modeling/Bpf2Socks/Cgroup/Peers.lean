/-
# Bpf2Socks.Cgroup.Peers — the cache of UDP peers.

A UDP `connect` records its destination under the socket cookie, and a `sendmsg` without a complete
destination takes it from there.  Recording changes no map but the cache, so whatever is decided
afterwards is decided as before.
-/
import Bpf2Socks.Cgroup.Destinations

namespace Bpf2Socks.Cgroup

open Lib (Line Outcome)
open Lib.Asm (Ends Halts Takes andThen branch labels onward run run_append)

/-! ## Maps but for the cache -/

/-- The maps agree but for the cache of UDP peers. -/
structure AgreeOffPeers (t t' : Maps) : Prop where
  lpm : t'.lpm = t.lpm
  table : ∀ m, m ≠ .udpPeer → t'.table m = t.table m

namespace AgreeOffPeers

variable {t t' t'' : Maps}

theorem refl (t : Maps) : AgreeOffPeers t t := ⟨rfl, fun _ _ => rfl⟩

theorem trans (h : AgreeOffPeers t t') (h' : AgreeOffPeers t' t'') : AgreeOffPeers t t'' :=
  ⟨h'.lpm.trans h.lpm, fun m hm => (h'.table m hm).trans (h.table m hm)⟩

theorem evict (t : Maps) (evicts : List Byte → Bool) : AgreeOffPeers t (t.evict .udpPeer evicts) := by
  refine ⟨rfl, fun m hm => ?_⟩
  funext key
  exact if_neg fun hc => hm hc.1

theorem put (t : Maps) (key value : List Byte) (h : value.length = MapId.udpPeer.valueSize) :
    AgreeOffPeers t (t.put .udpPeer key value h) := by
  refine ⟨rfl, fun m hm => ?_⟩
  funext key'
  exact if_neg fun hc => hm hc.1

theorem found_eq (h : AgreeOffPeers t t') {m : MapId} (hm : m ≠ .udpPeer) (key : List Byte) :
    t'.found m key = t.found m key := by
  rw [Maps.found, Maps.found, h.lpm, h.table m hm]

theorem covers_eq (h : AgreeOffPeers t t') (present : MapId → Bool) {m : MapId} (hm : m ≠ .udpPeer)
    (key : List Byte) : covers present t' m key = covers present t m key := by
  rw [covers, covers, h.found_eq hm]

theorem uidPolicy_eq (h : AgreeOffPeers t t') (present : MapId → Bool) (who : Who) (mode : Mode) :
    uidPolicy present t' who mode = uidPolicy present t who mode := by
  have hflags : uidFlags t' who.uid = uidFlags t who.uid := by
    rw [uidFlags, uidFlags, h.table .uid (by decide)]
  rw [uidPolicy, uidPolicy, hflags]

theorem ignoredInterface_eq (h : AgreeOffPeers t t') (present : MapId → Bool) (c : Context) :
    ignoredInterface present t' c = ignoredInterface present t c := by
  simp only [ignoredInterface, h.covers_eq present (m := .ignoredIfindex) (by decide)]

end AgreeOffPeers

/-- Like `Keeps`, after `n` counted helper calls that may have changed the cache. -/
structure Went (n : Nat) (rs : List Reg) (s s' : State) : Prop where
  ctx : s'.ctx = s.ctx
  maps : AgreeOffPeers s.maps s'.maps
  calls : s'.calls = s.calls + n
  stack : ∀ i < (-192 : Int), s'.stack i = s.stack i
  reg : ∀ r ∈ rs, s'.reg r = s.reg r

theorem Keeps.went {rs : List Reg} {s s' : State} (h : Keeps rs s s') : Went 0 rs s s' :=
  ⟨h.ctx, h.maps ▸ AgreeOffPeers.refl _, h.calls, h.stack, h.reg⟩

/-- An update of the cache. -/
theorem Keeps.updated {rs : List Reg} {s s' : State} (env : Env) (h : Keeps rs s s')
    (hr : ∀ r ∈ rs, r ∉ [Reg.r0, .r1, .r2, .r3, .r4, .r5]) (off valueOff : Int) (flags : Word) :
    Went 1 rs s (s'.updated env .udpPeer off valueOff flags).clobber where
  ctx := by simp [h.ctx]
  maps := by
    rw [← h.maps, State.clobber_maps, State.updated]
    split
    · exact AgreeOffPeers.evict _ _
    · exact (AgreeOffPeers.evict _ _).trans (AgreeOffPeers.put _ _ _ (length_readAt ..))
  calls := by simp [h.calls]
  stack i hi := by simpa using h.stack i hi
  reg r hmem := by
    have hne := hr r hmem
    rw [← h.reg r hmem, ← State.updated_reg env s' .udpPeer off valueOff flags (r := r) (by aesop)]
    cases r <;> first | rfl | simp at hne

/-! ## Recording -/

section Recording

variable {env : Env} {policy : Policy} {present : MapId → Bool} {s : State}

/-- An address and a port of a context that can be recorded. -/
def complete (env : Env) (zero : Prop) (port : BitVec 16) : Prop :=
  ¬(zero ∨ port = 0 ∨ env.cookie = 0)

instance (env : Env) (zero : Prop) [Decidable zero] (port : BitVec 16) :
    Decidable (complete env zero port) :=
  inferInstanceAs (Decidable (¬_))

/-- Recording an IPv4 peer. -/
theorem takes_emitUdpPeerCacheUpdate4 {off : Int} {addr : Word} (hs : Ready s)
    (hload : s.ctx.load .w off = some (word addr)) (h7 : s.reg .r7 = word addr)
    (h8 : s.reg .r8 = half s.ctx.userPort) :
    Takes (isa env) (emitUdpPeerCacheUpdate4 present off) s
      (choose (present .udpPeer ∧ ¬complete env (addr = 0) s.ctx.userPort) .bypass).exit
      (Went (if present .udpPeer ∧ complete env (addr = 0) s.ctx.userPort then 1 else 0)
        [.r6, .r7, .r8, .r9, .r10] s) := by
  have hset7 : s.set .r7 (word addr) = s := State.set_eq_self h7
  have hset8 : s.set .r8 (half s.ctx.userPort) = s := State.set_eq_self h8
  unfold Takes
  by_cases hp : present .udpPeer
  · by_cases ha : addr = 0#32
    · rw [ha] at hset7 hload h7
      simp [emitUdpPeerCacheUpdate4, emitPeerKeyAndHead, hp, hs.r6, hload, choose, complete, ha, hset7,
        hset8, h7]
      exact Keeps.went Keeps.refl
    · by_cases hport : s.ctx.userPort = 0#16
      · rw [hport] at hset8 h8
        simp [emitUdpPeerCacheUpdate4, emitPeerKeyAndHead, hp, hs.r6, hload, choose, complete, ha,
          hset7, hset8, h7, h8, hport]
        exact Keeps.went Keeps.refl
      · by_cases hcookie : env.cookie = 0#64
        · simp [emitUdpPeerCacheUpdate4, emitPeerKeyAndHead, hp, hs.r6, hload, choose, complete, ha,
            hport, hcookie, hset7, hset8, h7, h8]
          exact Keeps.went (by simp)
        · simp [emitUdpPeerCacheUpdate4, emitPeerKeyAndHead, hp, hs.r6, hs.r10, hload, choose,
            complete, ha, hport, hcookie, hset7, hset8, h7, h8, run_emitZeroRegion, Stack.udpPeerKey,
            Stack.udpPeerValue, run_emitUpdate_nil]
          exact Keeps.updated env (by simp) (by decide) ..
  · simp [emitUdpPeerCacheUpdate4, hp, choose]
    exact Keeps.went Keeps.refl

end Recording

end Bpf2Socks.Cgroup
