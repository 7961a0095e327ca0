/-
# Bpf2Socks.Cgroup.Connect4 — the IPv4 `connect` program as a whole.

Twelve blocks come before the place where every proxied socket arrives.  A block either gives its
verdict and leaves by a jump, or goes on; while it goes on, and when it jumps to that place, the
destination is in `r7` and `r8`.  `Stage` is the specification of such a block, and stages in a row
are a stage.  What is behind the place, a token published and the context rewritten, is
`Cgroup.Publish`.
-/
import Bpf2Socks.Cgroup.Publish

namespace Bpf2Socks.Cgroup

open Lib (Line Outcome)
open Lib.Asm (Ends Halts Takes andThen branch exec build labels onward run run_append)

/-! ## Stages -/

/-- The socket is still to be proxied as far as the choice says. -/
def Choice.live (d : Choice) : Prop := d = none ∨ d = some .proxy

/-- A block gives a verdict in a state of `part`; unless it refuses to proxy, the state is one of
`full` besides. -/
def Stage (env : Env) (code : Code) (s : State) (d : Choice) (part full : State → Prop) : Prop :=
  Takes (isa env) code s d.exit fun s' => part s' ∧ (d.live → full s')

namespace Stage

variable {env : Env} {A B : Code} {s : State} {d e : Choice} {part full full' : State → Prop}

/-- **Stages in a row**, where the first one only ever refuses. -/
theorem guard (h : Stage env A s d part full) (hd : d ≠ some .proxy)
    (hB : ∀ s', part s' → full s' → Stage env B s' e part full') (hopen : Open B) :
    Stage env (A ++ B) s (d.or e) part full' := by
  have hexit : (d.or e).map Verdict.jumps = d.exit.or e.exit := by cases d <;> rfl
  unfold Stage
  rw [Choice.exit, hexit]
  refine Takes.append h (fun s' hnone hs' => ?_) (fun l hl => ?_) fun s' l hl hs' => ⟨hs'.1, ?_⟩
  · have hnone : d = none := by cases d <;> simp_all
    subst hnone
    exact hB s' hs'.1 (hs'.2 (.inl rfl))
  · cases d with
    | none => cases hl
    | some v =>
        cases hl
        exact hopen v
  · cases d with
    | none => cases hl
    | some v =>
        rintro (hlive | hlive)
        · cases hlive
        · exact (hd hlive).elim

/-- Stages in a row that hand the same on. -/
theorem append (h : Stage env A s d part full)
    (hB : ∀ s', part s' → full s' → Stage env B s' e part full) (hopen : Open B) :
    Stage env (A ++ B) s (d.or e) part full := by
  by_cases hd : d = some .proxy
  · subst hd
    refine Takes.append (d := some _) (e := none) h (fun s' hnone _ => by cases hnone)
      (fun l hl => ?_) fun s' l _ hs' => hs'
    cases hl
    exact hopen .proxy
  · exact h.guard hd hB hopen

/-- A stage after some instructions that only prepare it. -/
theorem through {P : State → Prop} (h : Takes (isa env) A s none P)
    (hB : ∀ s', P s' → Stage env B s' d part full) : Stage env (A ++ B) s d part full :=
  Takes.through h hB

/-- A block of the ordered list whose frame keeps what the stages hand on. -/
theorem of_decides {rs : List Reg} (h : Decides env A s d rs)
    (hpart : ∀ s', Keeps rs s s' → part s') (hfull : ∀ s', Keeps rs s s' → full s') :
    Stage env A s d part full :=
  Takes.mono h fun s' hk => ⟨hpart s' hk, fun _ => hfull s' hk⟩

end Stage

/-! ## On the way -/

section Connect

variable {env : Env} {policy : Policy} {present : MapId → Bool} {c : Context} {maps : Maps} {s : State}

/-- What holds all the way: the context is as it came, and no map but the cache has changed. -/
structure Way (c : Context) (maps : Maps) (s : State) : Prop where
  ready : Ready s
  ctx : s.ctx = c
  maps : AgreeOffPeers maps s.maps

/-- The same entries dropped from both. -/
theorem AgreeOffPeers.evict_both {t t' : Maps} (h : AgreeOffPeers t t') (m : MapId)
    (evicts : List Byte → Bool) : AgreeOffPeers (t.evict m evicts) (t'.evict m evicts) := by
  refine ⟨h.lpm, fun m' hm' => ?_⟩
  funext key
  show (if m' = m ∧ m.kind = .lruHash ∧ evicts key then none else t'.table m' key) =
    if m' = m ∧ m.kind = .lruHash ∧ evicts key then none else t.table m' key
  rw [h.table m' hm']

/-- The same entry put in both. -/
theorem AgreeOffPeers.put_both {t t' : Maps} (h : AgreeOffPeers t t') (m : MapId)
    (key value : List Byte) (hlen : value.length = m.valueSize) :
    AgreeOffPeers (t.put m key value hlen) (t'.put m key value hlen) := by
  refine ⟨h.lpm, fun m' hm' => ?_⟩
  funext key'
  show (if m' = m ∧ key' = key then some value else t'.table m' key') =
    if m' = m ∧ key' = key then some value else t.table m' key'
  rw [h.table m' hm']

/-- What a socket to be proxied arrives with. -/
structure Arrives (c : Context) (n : Nat) (s : State) : Prop where
  r7 : s.reg .r7 = word c.userIp4
  r8 : s.reg .r8 = half c.userPort
  calls : s.calls = n

theorem Way.of_keeps {rs : List Reg} {s' : State} (h : Way c maps s) (hk : Keeps rs s s')
    (h6 : .r6 ∈ rs) (h10 : .r10 ∈ rs) : Way c maps s' :=
  ⟨h.ready.of_keeps hk h6 h10, hk.ctx.trans h.ctx, hk.maps ▸ h.maps⟩

theorem Arrives.of_keeps {rs : List Reg} {n : Nat} {s' : State} (h : Arrives c n s)
    (hk : Keeps rs s s') (h7 : .r7 ∈ rs) (h8 : .r8 ∈ rs) : Arrives c n s' :=
  ⟨(hk.reg _ h7).trans h.r7, (hk.reg _ h8).trans h.r8, hk.calls.trans h.calls⟩

/-- A block of the list among the stages. -/
theorem stage_of_decides {A : Code} {d : Choice} {rs : List Reg} {n : Nat} (h : Decides env A s d rs)
    (hrs : ∀ r ∈ [Reg.r6, .r7, .r8, .r10], r ∈ rs) (hw : Way c maps s) (ha : Arrives c n s) :
    Stage env A s d (Way c maps) (Arrives c n) :=
  .of_decides h (fun _ hk => hw.of_keeps hk (hrs _ (by simp)) (hrs _ (by simp)))
    fun _ hk => ha.of_keeps hk (hrs _ (by simp)) (hrs _ (by simp))

/-- How many updates a `connect` makes before it draws its token. -/
def cached (policy : Policy) (present : MapId → Bool) (c : Context) : Nat :=
  if caches policy present .connect c c.userPort then 1 else 0

theorem labels_emitUdpPeerCacheUpdate4 (off : Int) :
    labels (emitUdpPeerCacheUpdate4 present off) = [] := by
  rw [emitUdpPeerCacheUpdate4]
  split
  · simp [emitPeerKeyAndHead, labels]
  · rfl

@[simp] theorem seek_emitUdpPeerCacheUpdateV4 (k : Code) (l : Jumps) :
    run (isa env) (emitUdpPeerCacheUpdateV4 present ++ k) (some l) s = run (isa env) k (some l) s :=
  seek_append env s k (labels_emitUdpPeerCacheUpdate4 _) l

/-- The block that lets only TCP and UDP on, and caches the peer of a UDP socket. -/
def emitConnectProtocol (policy : Policy) (present : MapId → Bool) : Code :=
  [ldxMem .w .r2 .r6 Off.protocol, jeqImm .r2 protoTcp .tcpConnect, jneImm .r2 protoUdp .bypass] ++
  (emitConnectedUdpDnsContinue policy .r8 ++ (emitUdpPeerCacheUpdateV4 present ++
    [.label .dnsContinue, .label .tcpConnect]))

/-- Caching the peer, and the two places that lie behind it. -/
theorem stage_cachePeer (hcaches : cached policy present c = if present .udpPeer then 1 else 0)
    (hw : Way c maps s) (ha : Arrives c 0 s) :
    Stage env (emitUdpPeerCacheUpdateV4 present ++ [.label .dnsContinue, .label .tcpConnect]) s
      (choose (present .udpPeer ∧ ¬complete env (c.userIp4 = 0) c.userPort) .bypass)
      (Way c maps) (Arrives c (cached policy present c)) := by
  have hport : s.reg .r8 = half s.ctx.userPort := by rw [hw.ctx, ha.r8]
  have hload : s.ctx.load .w Off.userIp4 = some (word c.userIp4) := by rw [hw.ctx]; rfl
  have hupdate := @takes_emitUdpPeerCacheUpdate4 env present s _ _ hw.ready hload ha.r7 hport
  rw [hw.ctx] at hupdate
  have hland := Takes.append hupdate (B := [.label .dnsContinue, .label .tcpConnect]) (e := none)
    (fun s' _ hwent => ⟨rfl, hwent⟩) (fun l hl => by
      simp only [choose] at hl
      split at hl <;> cases hl
      simp [labels]) fun s' _ _ hwent => hwent
  rw [Option.or_none] at hland
  refine Takes.mono hland fun s' hwent => ⟨⟨⟨?_, ?_⟩, hwent.ctx.trans hw.ctx,
    hw.maps.trans hwent.maps⟩, fun hlive => ⟨?_, ?_, ?_⟩⟩
  · exact (hwent.reg _ (by simp)).trans hw.ready.r6
  · exact (hwent.reg _ (by simp)).trans hw.ready.r10
  · exact (hwent.reg _ (by simp)).trans ha.r7
  · exact (hwent.reg _ (by simp)).trans ha.r8
  · have hgo : ¬(present .udpPeer ∧ ¬complete env (c.userIp4 = 0) c.userPort) := fun h => by
      rw [choose, if_pos h] at hlive
      rcases hlive with hlive | hlive <;> cases hlive
    have hcalls := hwent.calls
    rw [ha.calls, Nat.zero_add] at hcalls
    rw [hcalls, hcaches]
    by_cases hp : present .udpPeer
    · have hc : complete env (c.userIp4 = 0) c.userPort := by
        by_contra hc
        exact hgo ⟨hp, hc⟩
      rw [if_pos ⟨hp, hc⟩, if_pos hp]
    · simp [hp]

theorem stage_emitConnectProtocol (hw : Way c maps s) (ha : Arrives c 0 s) :
    Stage env (emitConnectProtocol policy present) s ((connectProtocol .connect c).or
      (incompletePeer policy present env .connect c c.userPort (c.userIp4 = 0)))
      (Way c maps) (Arrives c (cached policy present c)) := by
  have hproto : s.ctx.protocol = c.protocol := by rw [hw.ctx]
  have hw' : ∀ v, Way c maps (s.set .r2 v) := fun v =>
    ⟨⟨hw.ready.r6, hw.ready.r10⟩, hw.ctx, hw.maps⟩
  have ha' : ∀ v, Arrives c 0 (s.set .r2 v) := fun v => ⟨ha.r7, ha.r8, ha.calls⟩
  have htu : protoTcp ≠ protoUdp := by decide
  by_cases ht : c.protocol = protoTcp
  · -- TCP passes over the cache
    have hn : cached policy present c = 0 := by simp [cached, caches, ht, htu]
    have hnone : (connectProtocol .connect c).or (incompletePeer policy present env .connect c
        c.userPort (c.userIp4 = 0)) = none := by
      simp [connectProtocol, incompletePeer, caches, choose, ht, htu]
    rw [hn, hnone]
    by_cases hh : policy.enableDnsHijack <;>
      simp [Stage, Takes, emitConnectProtocol, emitConnectedUdpDnsContinue, hh, hw.ready.r6, hproto, ht]
    all_goals exact ⟨hw' _, fun _ => ha' _⟩
  · by_cases hu : c.protocol = protoUdp
    · have hnone : connectProtocol .connect c = none := by simp [connectProtocol, choose, hu]
      rw [hnone, Option.none_or]
      have hload : Takes (isa env) [ldxMem .w .r2 .r6 Off.protocol, jeqImm .r2 protoTcp .tcpConnect,
          jneImm .r2 protoUdp .bypass] s none (fun s' => Way c maps s' ∧ Arrives c 0 s') := by
        simp [Takes, hw.ready.r6, hproto, hu, htu.symm]
        exact ⟨hw' _, ha' _⟩
      refine Stage.through hload fun s₁ h₁ => ?_
      obtain ⟨hw₁, ha₁⟩ := h₁
      by_cases hd : policy.enableDnsHijack ∧ c.userPort = swap16 dnsPort
      · -- the peer of a DNS socket is not cached
        have hn : cached policy present c = 0 := by simp [cached, caches, hd]
        have hnone : incompletePeer policy present env .connect c c.userPort (c.userIp4 = 0) = none := by
          simp [incompletePeer, caches, choose, hd]
        rw [hn, hnone]
        simp [Stage, Takes, emitConnectedUdpDnsContinue, hd, ha₁.r8]
        exact ⟨hw₁, fun _ => ha₁⟩
      · have hcaches : cached policy present c = if present .udpPeer then 1 else 0 := by
          simp [cached, caches, hu, hd]
        have hchoice : incompletePeer policy present env .connect c c.userPort (c.userIp4 = 0) =
            choose (present .udpPeer ∧ ¬complete env (c.userIp4 = 0) c.userPort) .bypass := by
          have hiff : caches policy present .connect c c.userPort ↔ present .udpPeer :=
            ⟨fun h => h.2.2.2, fun h => ⟨rfl, hu, hd, h⟩⟩
          exact if_congr (and_congr hiff not_not.symm) rfl rfl
        rw [hchoice]
        refine Stage.through (P := fun s' => s' = s₁) ?_ fun s' h' => ?_
        · by_cases hh : policy.enableDnsHijack
          · have hp : c.userPort ≠ swap16 dnsPort := fun hp => hd ⟨hh, hp⟩
            simp [Takes, emitConnectedUdpDnsContinue, hh, ha₁.r8, hp]
          · simp [Takes, emitConnectedUdpDnsContinue, hh]
        · subst h'
          exact stage_cachePeer hcaches hw₁ ha₁
    · have hrefused : (connectProtocol .connect c).or (incompletePeer policy present env .connect c
          c.userPort (c.userIp4 = 0)) = some .bypass := by
        simp [connectProtocol, choose, ht, hu]
      rw [hrefused]
      by_cases hh : policy.enableDnsHijack <;>
        simp [Stage, Takes, emitConnectProtocol, emitConnectedUdpDnsContinue, hh, hw.ready.r6, hproto,
          ht, hu]
      all_goals exact ⟨hw' _, by simp [Choice.live]⟩

/-! ## Verdicts that never proxy -/

/-- The first of two choices is not to proxy when neither is. -/
theorem or_ne_proxy {d e : Choice} (hd : d ≠ some .proxy) (he : e ≠ some .proxy) :
    d.or e ≠ some .proxy := by
  cases d with
  | none => exact he
  | some v => exact hd

theorem choose_ne_proxy (p : Prop) [Decidable p] {v : Verdict} (hv : v ≠ .proxy) :
    choose p v ≠ some .proxy := by
  rw [choose]
  split
  · exact fun h => hv (Option.some.inj h)
  · simp

theorem uidPolicy_ne_proxy (who : Who) (mode : Mode) :
    uidPolicy present maps who mode ≠ some .proxy := by
  have hmode : ∀ flags, modeBypass mode flags ≠ some .proxy := fun flags => by
    cases mode
    · simp [modeBypass]
    · exact choose_ne_proxy _ (by decide)
    · exact choose_ne_proxy _ (by decide)
  rw [uidPolicy]
  refine or_ne_proxy (choose_ne_proxy _ (by decide)) ?_
  split
  · exact or_ne_proxy (choose_ne_proxy _ (by decide)) (hmode _)
  · exact choose_ne_proxy _ (by decide)

theorem headPolicy_ne_proxy (hook : Hook) (who : Who) :
    headPolicy policy present maps hook c who ≠ some .proxy := by
  have hforced : forcedBypass policy present maps hook c who ≠ some .proxy := by
    rw [forcedBypass]
    split
    · exact uidPolicy_ne_proxy who .global
    · simp
  exact or_ne_proxy (choose_ne_proxy _ (by decide)) (or_ne_proxy
    (or_ne_proxy (choose_ne_proxy _ (by decide)) (choose_ne_proxy _ (by decide))) hforced)

/-! ## The blocks -/

/-- A port that was stored as a word. -/
theorem setWidth_port (x : BitVec 16) : (x.setWidth 32).setWidth 64 = x.setWidth 64 := by
  apply BitVec.eq_of_toNat_eq
  have hx : x.toNat < 65536 := x.isLt
  simp only [BitVec.toNat_setWidth]
  omega

/-- The destination is kept in the stack frame while the user is looked up. -/
theorem stage_emitUidPolicy {n : Nat} (hw : Way c maps s) (ha : Arrives c n s) :
    Stage env ([stxMem .w .r10 .r7 Stack.savedV4Addr, stxMem .w .r10 .r8 Stack.savedV4Port] ++
      (emitUidPolicy policy present ++
      [ldxMem .w .r7 .r10 Stack.savedV4Addr, ldxMem .w .r8 .r10 Stack.savedV4Port])) s
      (uidPolicy present maps (Who.compared policy env) policy.mode) (Way c maps) (Arrives c n) := by
  have hsave : Takes (isa env) [stxMem .w .r10 .r7 Stack.savedV4Addr,
      stxMem .w .r10 .r8 Stack.savedV4Port] s none (fun s' => Way c maps s' ∧ s'.calls = n ∧
        readAt s'.stack (-220) 4 = leBytes 4 c.userIp4 ∧
        readAt s'.stack (-224) 4 = leBytes 4 (c.userPort.setWidth 32)) := by
    simp [Takes, hw.ready.r10, ha.r7, ha.r8, Stack.savedV4Addr, Stack.savedV4Port]
    refine ⟨⟨⟨hw.ready.r6, hw.ready.r10⟩, hw.ctx, hw.maps⟩, ha.calls, ?_, ?_⟩
    · rw [readAt_writeAt_of_disjoint _ (by simp), readAt_writeAt_self _ _ (by simp)]
    · rw [readAt_writeAt_self _ _ (by simp)]
  refine Stage.through hsave fun s₁ h₁ => ?_
  obtain ⟨hw₁, hn₁, haddr, hport⟩ := h₁
  have huser := @decides_emitUidPolicy env policy present s₁ hw₁.ready
  rw [hw₁.maps.uidPolicy_eq] at huser
  have hstage : Stage env (emitUidPolicy policy present) s₁ _ (Way c maps)
      (Keeps [.r6, .r9, .r10] s₁) :=
    .of_decides huser (fun _ hk => hw₁.of_keeps hk (by simp) (by simp)) fun _ hk => hk
  rw [← Option.or_none (o := uidPolicy _ _ _ _)]
  refine hstage.guard (uidPolicy_ne_proxy _ _) (fun s₂ hw₂ hk => ?_) (fun v => by simp [labels])
  have haddr₂ : Val.num (joinBytes (readAt s₂.stack (-220) 4)) = word c.userIp4 := by
    rw [hk.readAt_eq (by decide), haddr, joinBytes_leBytes 4 (by decide), word, BitVec.setWidth_eq]
  have hport₂ : Val.num (joinBytes (readAt s₂.stack (-224) 4)) = half c.userPort := by
    rw [hk.readAt_eq (by decide), hport, joinBytes_leBytes 4 (by decide), half, BitVec.setWidth_eq,
      setWidth_port]
  simp [Stage, Takes, hw₂.ready.r10, Stack.savedV4Addr, Stack.savedV4Port, Size.bytes, haddr₂, hport₂]
  exact ⟨⟨⟨hw₂.ready.r6, hw₂.ready.r10⟩, hw₂.ctx, hw₂.maps⟩,
    fun _ => ⟨rfl, rfl, hk.calls.trans hn₁⟩⟩

/-! No verdict lands before the place where proxied sockets arrive. -/

theorem open_emitConnectProtocol : Open (emitConnectProtocol policy present) := by
  have hd : Open (emitConnectedUdpDnsContinue policy .r8) := fun v => by
    rw [emitConnectedUdpDnsContinue]
    split <;> cases v <;> simp [labels]
  have hu : Open (emitUdpPeerCacheUpdateV4 present) := fun v => by
    rw [emitUdpPeerCacheUpdateV4, labels_emitUdpPeerCacheUpdate4]
    simp
  exact Open.append (fun v => by simp [labels]) (hd.append (hu.append fun v => by
    cases v <;> simp [labels]))

theorem open_emitIpv4DnsForceProxyPolicy (hook : Hook) :
    Open (emitIpv4DnsForceProxyPolicy policy hook.protocol hook.fromContext) := by
  intro v
  rw [emitIpv4DnsForceProxyPolicy]
  split
  · simp [labels]
  · split
    · cases v <;> simp [emitDnsEnhancementPolicy, labels]
    · rw [emitLegacyDns]
      cases hook <;> cases v <;> simp [labels, Hook.fromContext, Hook.protocol]

theorem open_emitIpsecUdpBypass (hook : Hook) (r : Reg) :
    Open (emitIpsecUdpBypass hook.protocol hook.fromContext r) := by
  intro v
  rw [emitIpsecUdpBypass]
  cases hook <;> cases v <;> simp [labels, Hook.fromContext, Hook.protocol]

theorem open_emitEnhancedDns (r : Reg) : Open (emitEnhancedDns policy r) := by
  intro v
  rw [emitEnhancedDns]
  split <;> simp [labels]

theorem open_emitIpv4PolicyChecks : Open (emitIpv4PolicyChecks present) := by
  rw [emitIpv4PolicyChecks]
  refine Open.append (Open.append (Open.append (Open.append (Open.append (Open.append
    (fun v => by simp [labels]) ?_) ?_) ?_) open_emitIgnoredIfindexCheck) ?_) ?_
  all_goals exact open_emitCidr4Check _ _

theorem AgreeOffPeers.cidr4_eq {t t' : Maps} (h : AgreeOffPeers t t') (c : Context) (addr : Word) :
    cidr4 present t' c addr = cidr4 present t c addr := by
  simp only [cidr4, h.ignoredInterface_eq,
    h.covers_eq present (m := .localInterfaceCidr4) (by decide),
    h.covers_eq present (m := .proxyCidr4) (by decide),
    h.covers_eq present (m := .bypassPrivateCidr4) (by decide),
    h.covers_eq present (m := .ignoredRouteCidr4) (by decide),
    h.covers_eq present (m := .directCidr4) (by decide)]

/-- Everything before the place where proxied sockets arrive. -/
def emitBefore4 (policy : Policy) (present : MapId → Bool) : Code :=
  emitHead policy present protoTcp true .inet4Connect ++
  ([ldxMem .w .r7 .r6 Off.userIp4, ldxMem .w .r8 .r6 Off.userPort] ++
  (emitIpsecUdpBypass protoTcp true .r8 ++ (emitConnectProtocol policy present ++
  (emitIpv4DnsForceProxyPolicy policy protoTcp true ++
  (([stxMem .w .r10 .r7 Stack.savedV4Addr, stxMem .w .r10 .r8 Stack.savedV4Port] ++
    (emitUidPolicy policy present ++
    [ldxMem .w .r7 .r10 Stack.savedV4Addr, ldxMem .w .r8 .r10 Stack.savedV4Port])) ++
  (emitEnhancedDns policy .r8 ++ emitIpv4PolicyChecks present))))))

/-- The whole list of a `connect` to an IPv4 destination. -/
def decisions4 (policy : Policy) (present : MapId → Bool) (maps : Maps) (env : Env) (c : Context) :
    Choice :=
  (headPolicy policy present maps .connect c (Who.compared policy env)).or
    ((ipsecBypass .connect c c.userPort).or (((connectProtocol .connect c).or
      (incompletePeer policy present env .connect c c.userPort (c.userIp4 = 0))).or
      (policy4 policy present maps .connect c (Who.compared policy env) c.userPort c.userIp4)))

/-- The destination is decided on, wherever the socket stands. -/
theorem stage_policy4 {n : Nat} (hw : Way c maps s) (ha : Arrives c n s) :
    Stage env (emitIpv4DnsForceProxyPolicy policy protoTcp true ++
      (([stxMem .w .r10 .r7 Stack.savedV4Addr, stxMem .w .r10 .r8 Stack.savedV4Port] ++
        (emitUidPolicy policy present ++
        [ldxMem .w .r7 .r10 Stack.savedV4Addr, ldxMem .w .r8 .r10 Stack.savedV4Port])) ++
      (emitEnhancedDns policy .r8 ++ emitIpv4PolicyChecks present))) s
      (policy4 policy present maps .connect c (Who.compared policy env) c.userPort c.userIp4)
      (Way c maps) (Arrives c n) := by
  have huser : Open ([stxMem .w .r10 .r7 Stack.savedV4Addr, stxMem .w .r10 .r8 Stack.savedV4Port] ++
      (emitUidPolicy policy present ++
      [ldxMem .w .r7 .r10 Stack.savedV4Addr, ldxMem .w .r8 .r10 Stack.savedV4Port])) :=
    Open.append (fun v => by simp [labels]) (open_emitUidPolicy.append fun v => by simp [labels])
  have hlast : Open (emitEnhancedDns policy .r8 ++ emitIpv4PolicyChecks present) :=
    (open_emitEnhancedDns .r8).append open_emitIpv4PolicyChecks
  have hdns : Decides env (emitIpv4DnsForceProxyPolicy policy protoTcp true) s
      (dnsPolicy policy .connect s.ctx (Who.compared policy env) c.userPort) kept :=
    decides_emitIpv4DnsForceProxyPolicy .connect hw.ready ha.r8
  rw [hw.ctx] at hdns
  refine (stage_of_decides hdns (by simp) hw ha).append (fun s₁ hw₁ ha₁ => ?_) (huser.append hlast)
  refine (stage_emitUidPolicy hw₁ ha₁).append (fun s₂ hw₂ ha₂ => ?_) hlast
  refine (stage_of_decides (decides_emitEnhancedDns ha₂.r8) (by simp) hw₂ ha₂).append
    (fun s₃ hw₃ ha₃ => ?_) open_emitIpv4PolicyChecks
  have hchecks : Decides env (emitIpv4PolicyChecks present) s₃
      ((zeroOrLoopback4 c.userIp4).or (cidr4 present s₃.maps s₃.ctx c.userIp4)) kept :=
    decides_emitIpv4PolicyChecks hw₃.ready ha₃.r7
  rw [hw₃.maps.cidr4_eq, hw₃.ctx] at hchecks
  exact stage_of_decides hchecks (by simp) hw₃ ha₃

/-- **The whole list is decided** before the place where proxied sockets arrive. -/
theorem stage_emitBefore4 (stack : Int → Byte) :
    Stage env (emitBefore4 policy present) (start c maps stack) (decisions4 policy present maps env c)
      (Way c maps) (Arrives c (cached policy present c)) := by
  have hpolicy : Open (emitIpv4DnsForceProxyPolicy policy protoTcp true ++
      (([stxMem .w .r10 .r7 Stack.savedV4Addr, stxMem .w .r10 .r8 Stack.savedV4Port] ++
        (emitUidPolicy policy present ++
        [ldxMem .w .r7 .r10 Stack.savedV4Addr, ldxMem .w .r8 .r10 Stack.savedV4Port])) ++
      (emitEnhancedDns policy .r8 ++ emitIpv4PolicyChecks present))) :=
    (open_emitIpv4DnsForceProxyPolicy .connect).append ((Open.append (fun v => by simp [labels])
      (open_emitUidPolicy.append fun v => by simp [labels])).append
      ((open_emitEnhancedDns .r8).append open_emitIpv4PolicyChecks))
  have hproto : Open (emitConnectProtocol policy present ++ _) :=
    open_emitConnectProtocol.append hpolicy
  have hipsec := (open_emitIpsecUdpBypass .connect .r8).append hproto
  have hhead : Stage env (emitHead policy present protoTcp true .inet4Connect) (start c maps stack)
      (headPolicy policy present maps .connect c (Who.compared policy env)) (Way c maps)
      (fun s' => s'.calls = 0) := by
    refine Takes.mono (takes_emitHead .connect (.inl rfl) c maps stack) fun s' h => ?_
    obtain ⟨hready, hctx, hmaps, hcalls⟩ := h
    exact ⟨⟨hready, hctx, hmaps ▸ AgreeOffPeers.refl _⟩, fun _ => hcalls⟩
  refine hhead.guard (headPolicy_ne_proxy _ _) (fun s₁ hw₁ hn₁ => ?_)
    (Open.append (fun v => by simp [labels]) hipsec)
  -- the destination is loaded
  have hload : Takes (isa env) [ldxMem .w .r7 .r6 Off.userIp4, ldxMem .w .r8 .r6 Off.userPort] s₁ none
      (fun s' => Way c maps s' ∧ Arrives c 0 s') := by
    simp [Takes, hw₁.ready.r6]
    refine ⟨⟨⟨hw₁.ready.r6, hw₁.ready.r10⟩, hw₁.ctx, hw₁.maps⟩, ?_, ?_, hn₁⟩
    · exact congrArg (fun c : Context => word c.userIp4) hw₁.ctx
    · exact congrArg (fun c : Context => half c.userPort) hw₁.ctx
  refine Stage.through hload fun s₂ h₂ => ?_
  obtain ⟨hw₂, ha₂⟩ := h₂
  have hike : Decides env (emitIpsecUdpBypass protoTcp true .r8) s₂
      (ipsecBypass .connect s₂.ctx c.userPort) keptAll :=
    decides_emitIpsecUdpBypass .connect (by decide) hw₂.ready ha₂.r8
  rw [hw₂.ctx] at hike
  refine (stage_of_decides hike (by simp) hw₂ ha₂).guard (choose_ne_proxy _ (by decide))
    (fun s₃ hw₃ ha₃ => ?_) hproto
  refine (stage_emitConnectProtocol hw₃ ha₃).guard (or_ne_proxy (choose_ne_proxy _ (by decide))
    (choose_ne_proxy _ (by decide))) (fun s₄ hw₄ ha₄ => ?_) hpolicy
  exact stage_policy4 hw₄ ha₄

/-! ## What is left -/

/-- The program has returned `result`, with this context and, but for the cache, these maps. -/
structure Leaves (result : Word) (c : Context) (maps : Maps) (s : State) : Prop where
  r0 : s.reg .r0 = word result
  ctx : s.ctx = c
  maps : AgreeOffPeers maps s.maps

/-- The context of a socket that was given a token. -/
def Context.proxied4 (c : Context) (token : Word) (bridgePort : BitVec 16) : Context :=
  { c with userIp4 := token, userPort := swap16 bridgePort }

/-- The maps after a `connect` that made `n` updates before it drew its token.  Before each of the two
updates its map may lose entries, which makes room. -/
def Maps.connected4 (env : Env) (present : MapId → Bool) (bridgePort : BitVec 16) (c : Context)
    (n : Nat) (maps : Maps) : Maps :=
  ((maps.evict .token (env.evicts (n + 1))).publish c.transport bridgePort (tokenOf (env.random n))
    (swap16 c.userPort) c.userIp4 c.connectedFlag).tellPeer env present c (n + 2) c.userPort c.userIp4

/-- What a `connect` to an IPv4 destination leaves under a verdict. -/
def connectLeaves4 (env : Env) (present : MapId → Bool) (bridgePort : BitVec 16) (c : Context)
    (maps : Maps) (n : Nat) (s : State) : Verdict → Prop
  | .bypass => Leaves 1 c maps s
  | .drop => Leaves 0 c maps s
  | .proxy =>
      -- without room for the token there is no connection
      if env.refuses (n + 1) then Leaves 0 c (maps.evict .token (env.evicts (n + 1))) s
      else Leaves 1 (c.proxied4 (tokenOf (env.random n)) bridgePort)
        (maps.connected4 env present bridgePort c n) s

/-- Nothing but the result is set on the way out. -/
theorem Leaves.exit {result : Word} {c' : Context} {maps' : Maps} (hctx : s.ctx = c')
    (hmaps : AgreeOffPeers maps' s.maps) : Leaves result c' maps' (s.set .r0 (word result)) :=
  ⟨rfl, hctx, hmaps⟩

theorem halts_emitExits {c' : Context} {maps' : Maps} (hctx : s.ctx = c')
    (hmaps : AgreeOffPeers maps' s.maps) :
    Halts (isa env) emitExits none s (Leaves 1 c' maps') ∧
      Halts (isa env) emitExits (some .bypass) s (Leaves 1 c' maps') ∧
      Halts (isa env) emitExits (some .drop) s (Leaves 0 c' maps') := by
  refine ⟨⟨s.set .r0 (word 1), ?_, .exit hctx hmaps⟩, ⟨s.set .r0 (word 1), ?_, .exit hctx hmaps⟩,
    ⟨s.set .r0 (word 0), ?_, .exit hctx hmaps⟩⟩
  · simp [emitExits, emitExit, immVal_eq_word]
  · simp [emitExits, emitExit, immVal_eq_word]
  · simp [emitExits, emitExit]
    rfl

theorem labels_emitTcpPeerRecord {l : Jumps} (h : l ∈ labels (emitTcpPeerRecord present)) :
    l = .notTcp ∨ l = .noCookie := by
  rw [emitTcpPeerRecord] at h
  split at h
  · simpa [labels] using h
  · cases h

theorem labels_emitTokenUpdateAndRewrite (bridgePort : BitVec 16) :
    labels (emitTokenUpdateAndRewrite protoTcp true bridgePort false) = [.notUdp, .notUdp, .done] := by
  simp [emitTokenUpdateAndRewrite, emitToken4, emitRandomTokenV4, emitTokenBits, emitProtocol,
    emitConnectedUdpOriginalFlag, emitPublishToken, emitCtxSt32, labels]

/-- The context is rewritten to the token in `r9`. -/
theorem takes_rewrite4 {token : Word} {bridgePort : BitVec 16} (hs : Ready s)
    (h9 : s.reg .r9 = word token) :
    Takes (isa env) ([stxMem .w .r6 .r9 Off.userIp4] ++ emitCtxSt32 Off.userPort (htons bridgePort)) s
      none (fun s' => Ready s' ∧ s'.ctx = s.ctx.proxied4 token bridgePort ∧ s'.maps = s.maps ∧
        s'.calls = s.calls ∧ s'.stack = s.stack) := by
  have haddr : ∀ s' : State, s'.storeVal .w .ctx Off.userIp4 (word token) =
      some { s' with ctx := { s'.ctx with userIp4 := token } } := by
    intro s'
    rw [word, State.storeVal, State.store, Context.store, if_pos rfl, setWidth_word]
    rfl
  have hport : ∀ s' : State, s'.storeVal .w .ctx Off.userPort (half (swap16 bridgePort)) =
      some { s' with ctx := { s'.ctx with userPort := swap16 bridgePort } } := by
    intro s'
    have h : Context.store s'.ctx .w Off.userPort ((swap16 bridgePort).setWidth 64) =
        some { s'.ctx with userPort := ((swap16 bridgePort).setWidth 64).setWidth 16 } := rfl
    rw [half, State.storeVal, State.store, h, setWidth_half]
    rfl
  simp [Takes, emitCtxSt32, hs.r6, h9, haddr, hport]
  exact ⟨⟨hs.r6, hs.r10⟩, rfl⟩

/-- **A proxied socket** is given a token, or dropped. -/
theorem halts_rewrite4 {n : Nat} (bridgePort : BitVec 16) (hw : Way c maps s) (ha : Arrives c n s) :
    Halts (isa env) (emitTokenUpdateAndRewrite protoTcp true bridgePort false ++
      (emitTcpPeerRecord present ++ emitExits)) none s
      (fun s' => connectLeaves4 env present bridgePort c maps n s' .proxy) := by
  have hover : ∀ {l : Jumps}, l ∈ [Jumps.bypass, .drop] → l ∉ labels
      ([stxMem .w .r6 .r9 Off.userIp4] ++ (emitCtxSt32 Off.userPort (htons bridgePort) ++
        emitTcpPeerRecord present)) := by
    intro l hl hmem
    simp only [Lib.Asm.labels_append, List.mem_append, emitCtxSt32, labels, List.not_mem_nil,
      false_or] at hmem
    rcases labels_emitTcpPeerRecord hmem with rfl | rfl <;> simp at hl
  rw [emitTokenUpdateAndRewrite, List.append_assoc, List.append_assoc]
  refine Takes.halts (takes_emitToken4 hw.ready ha.r7 ha.r8) fun s₁ h₁ => ?_
  have hmaps₁ := h₁.maps
  rw [ha.calls] at hmaps₁ ⊢
  -- where the map refuses the token the connection is dropped, with no address rewritten
  by_cases hrefuse : env.refuses (n + 1)
  · rw [if_pos hrefuse] at hmaps₁ ⊢
    simp only [connectLeaves4, hrefuse, if_true]
    have hagree : AgreeOffPeers (maps.evict .token (env.evicts (n + 1))) s₁.maps := by
      rw [hmaps₁]
      exact hw.maps.evict_both ..
    have hexit := (@halts_emitExits env s₁ c _ (h₁.ctx.trans hw.ctx) hagree).2.2
    have hskip := Halts.over (hover (l := .drop) (by simp)) hexit
    simpa only [List.append_assoc] using hskip
  · rw [if_neg hrefuse] at hmaps₁ ⊢
    simp only [connectLeaves4, hrefuse, if_false, Bool.false_eq_true]
    have hrewrite := @takes_rewrite4 env s₁ _ bridgePort h₁.ready h₁.r9
    rw [← List.append_assoc]
    refine Takes.halts hrewrite fun s₂ h₂ => ?_
    obtain ⟨hs₂, hctx₂, hb₂⟩ := h₂
    have hvalue₂ := h₁.value
    rw [← hb₂.2.2] at hvalue₂
    refine Takes.halts (takes_emitTcpPeerRecord hs₂ hvalue₂) fun s₃ h₃ => ?_
    obtain ⟨hctx₃, hmaps₃⟩ := h₃
    have hctx : s₃.ctx = c.proxied4 (tokenOf (env.random n)) bridgePort := by
      rw [hctx₃, hctx₂, h₁.ctx, hw.ctx, ha.calls]
    have hcalls : s₂.calls = n + 2 := by rw [hb₂.2.1, h₁.calls, ha.calls]
    -- whether the peer is recorded depends on fields that the rewrite leaves alone
    have hrecording : recording env present s₂.ctx ↔ recording env present c := by
      rw [hctx₂, h₁.ctx, hw.ctx]
      rfl
    have hagree : AgreeOffPeers (maps.connected4 env present bridgePort c n) s₃.maps := by
      have hpublished := (hw.maps.evict_both .token (env.evicts (n + 1))).put_both .token
        (tokenKey4 c.transport bridgePort (tokenOf (env.random n)))
        (originalDst4 c.transport (swap16 c.userPort) c.userIp4 c.connectedFlag)
        (length_originalDst4 ..)
      rw [hmaps₃, hb₂.1, hmaps₁, hcalls, hw.ctx, swap16_swap16, Maps.connected4, Maps.tellPeer,
        Maps.tellPeer]
      simp only [hrecording]
      split
      · split
        · exact hpublished.evict_both ..
        · exact (hpublished.evict_both ..).put_both ..
      · exact hpublished
    exact (halts_emitExits hctx hagree).1

/-- **From the place where proxied sockets arrive on**, each verdict leaves what it should. -/
theorem halts_after4 {n : Nat} {d : Choice} (bridgePort : BitVec 16) (hw : Way c maps s)
    (ha : d.live → Arrives c n s) :
    Halts (isa env) ([.label .forceProxy] ++
      (emitTokenUpdateAndRewrite protoTcp true bridgePort false ++
      (emitTcpPeerRecord present ++ emitExits))) d.exit s
      (fun s' => connectLeaves4 env present bridgePort c maps n s' (d.getD .proxy)) := by
  have hover : ∀ {l : Jumps}, l ∈ [Jumps.bypass, .drop] → l ∉ labels ([.label .forceProxy] ++
      (emitTokenUpdateAndRewrite protoTcp true bridgePort false ++ emitTcpPeerRecord present)) := by
    intro l hl hmem
    rw [Lib.Asm.labels_append, Lib.Asm.labels_append, labels_emitTokenUpdateAndRewrite] at hmem
    simp only [labels, List.mem_append, List.mem_cons, List.not_mem_nil, or_false] at hmem
    rcases hmem with rfl | (rfl | rfl | rfl) | hmem
    · simp at hl
    · simp at hl
    · simp at hl
    · simp at hl
    · rcases labels_emitTcpPeerRecord hmem with rfl | rfl <;> simp at hl
  obtain ⟨-, hbypass, hdrop⟩ := @halts_emitExits env s c maps hw.ctx hw.maps
  rcases d with _ | v
  · have hgo : Halts (isa env) (emitTokenUpdateAndRewrite protoTcp true bridgePort false ++
        (emitTcpPeerRecord present ++ emitExits)) none s
        (fun s' => connectLeaves4 env present bridgePort c maps n s' .proxy) :=
      halts_rewrite4 bridgePort hw (ha (.inl rfl))
    exact hgo
  · cases v with
    | bypass =>
        have h := Halts.over (hover (l := .bypass) (by simp)) hbypass
        rw [List.append_assoc, List.append_assoc] at h
        exact h
    | drop =>
        have h := Halts.over (hover (l := .drop) (by simp)) hdrop
        rw [List.append_assoc, List.append_assoc] at h
        exact h
    | proxy => exact Halts.land (halts_rewrite4 bridgePort hw (ha (.inr rfl)))

/-- **The IPv4 `connect` program.**  The first verdict of the list counts.  A socket that is bypassed
keeps its context and one that is dropped too; a socket that is proxied goes to a fresh token at the
port of the bridge, which the map translates to its destination.  The map of the tokens and that of
the TCP peers may lose other entries where an update of theirs needs room. -/
theorem connect4_correct (policy : Policy) (present : MapId → Bool) (bridgePort : BitVec 16)
    (env : Env) (c : Context) (maps : Maps) (stack : Int → Byte) :
    ∃ s, exec (isa env) (build (build4 policy present Hook.connect.protocol Hook.connect.fromContext
        bridgePort Hook.connect.attach4)) 0 (start c maps stack) = .halt s ∧
      connectLeaves4 env present bridgePort c maps (cached policy present c) s
        ((decisions4 policy present maps env c).getD .proxy) := by
  have hcode : build4 policy present Hook.connect.protocol Hook.connect.fromContext bridgePort
      Hook.connect.attach4 = emitBefore4 policy present ++ ([.label .forceProxy] ++
        (emitTokenUpdateAndRewrite protoTcp true bridgePort false ++
        (emitTcpPeerRecord present ++ emitExits))) := by
    simp [build4, Hook.protocol, Hook.fromContext, Hook.attach4, emitBefore4, emitConnectProtocol,
      flowTokenOf, AttachType.isSendmsg]
  rw [hcode]
  refine Halts.exec (Takes.halts (stage_emitBefore4 stack) fun s h => ?_)
  exact halts_after4 bridgePort h.1 h.2

end Connect

end Bpf2Socks.Cgroup
