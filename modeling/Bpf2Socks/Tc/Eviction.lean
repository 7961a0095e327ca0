/-
# Bpf2Socks.Tc.Eviction — what eviction leaves resolvable.

The three token maps are independent LRU maps.  A packet of a known flow is rewritten on the strength
of the forward entry alone; only a TCP SYN writes the bridge entry again, and nothing writes the way
back again.  So the bridge can resolve every rewritten datagram and SYN, and egress can translate the
answer, in every run whose removals spare what the flows with a forward entry rely on: `Spares`.
A removal of a UDP flow's bridge entry alone makes its next datagram unresolvable.

Packets and removals are interleaved here; a packet itself runs undisturbed.
-/
import Bpf2Socks.Tc.Answer

namespace Bpf2Socks.Tc

open Function (update update_self update_of_ne)
open Lib (Act Prog)

/-- No entry is taken while a packet is handled. -/
def Undisturbed (_ : Vanish) : Prop := False

theorem undisturbed_onlyBridge : OnlyBridge Undisturbed := nofun

/-- A removal that leaves every flow with a forward entry its way back, and every such UDP flow its
bridge entry. -/
def Spares (s : State) : Vanish → Prop
  | .forward _ => True
  | .fragment _ => True
  | .reverse k => ∀ o t, s.originalToToken o = some t → fillReverseKey o t ≠ k
  | .bridge k => ∀ o t, s.originalToToken o = some t → o.protocol = protoUdp →
      fillBridgeKey o t ≠ k

/-- The forward map implies the other two: the way back of every flow, and the bridge entry of every
UDP flow. -/
structure Backed (hash : OriginalKey → UInt32 → UInt32) (c : RuntimeControl) (s : State) :
    Prop extends Inverse hash c s where
  bridged : ∀ {o t}, s.originalToToken o = some t → o.protocol = protoUdp →
    s.bridgeTokens (fillBridgeKey o t) = some (fillBridgeValue o)

section

variable {s s' : State} {hash : OriginalKey → UInt32 → UInt32} {c : RuntimeControl}

/-- The invariant speaks of the three token maps only. -/
theorem Backed.congr (h : Backed hash c s) (hf : s'.originalToToken = s.originalToToken)
    (hr : s'.tokenToOriginal = s.tokenToOriginal) (hb : s'.bridgeTokens = s.bridgeTokens) :
    Backed hash c s' := by
  refine ⟨h.toInverse.congr hf hr, fun {o t} ht hu => ?_⟩
  rw [hb]
  exact h.bridged (hf ▸ ht) hu

/-- What remains of the bridge map when nothing is taken. -/
theorem bridge_eq {m m' : TokenKey → Option OriginalDst} {k : TokenKey}
    (h : m' k = m k ∨ (m' k = none ∧ Undisturbed (.bridge k))) : m' k = m k :=
  h.resolve_right fun h => h.2

theorem SameTokens.bridgeTokens_eq (h : SameTokens Undisturbed s s') :
    s'.bridgeTokens = s.bridgeTokens :=
  funext fun k => bridge_eq (h.bridge k)

/-- A forward entry less is a flow less; the other entries are spared. -/
theorem Backed.vanish (h : Backed hash c s) {v : Vanish} (hv : Spares s v) :
    Backed hash c (s.vanish v) := by
  cases v with
  | forward key =>
      have hsub : ∀ {o t}, (s.vanish (.forward key)).originalToToken o = some t →
          s.originalToToken o = some t := by
        intro o t ht
        have ht' : update s.originalToToken key none o = some t := ht
        by_cases hk : o = key
        · subst hk
          rw [update_self] at ht'
          cases ht'
        · rwa [update_of_ne hk] at ht'
      exact ⟨⟨fun ht => h.wellFormed (hsub ht), fun ht => h.token (hsub ht),
        fun ht => h.back (hsub ht)⟩, fun ht hu => h.bridged (hsub ht) hu⟩
  | reverse key =>
      refine ⟨⟨h.wellFormed, h.token, fun {o t} ht => ?_⟩, h.bridged⟩
      have hne : fillReverseKey o t ≠ key := hv o t ht
      show ∃ v, update s.tokenToOriginal key none (fillReverseKey o t) = some v ∧ _
      rw [update_of_ne hne]
      exact h.back ht
  | bridge key =>
      refine ⟨⟨h.wellFormed, h.token, h.back⟩, fun {o t} ht hu => ?_⟩
      have hne : fillBridgeKey o t ≠ key := hv o t ht hu
      show update s.bridgeTokens key none (fillBridgeKey o t) = _
      rw [update_of_ne hne]
      exact h.bridged ht hu
  | fragment key => exact h.congr rfl rfl rfl

/-- Publishing a TCP entry leaves those of UDP flows alone. -/
theorem Backed.publishes (h : Backed hash c s) {o : OriginalKey} {token : TokenValue}
    (htcp : o.protocol = protoTcp) (hp : Publishes Undisturbed o token s s') :
    Backed hash c s' := by
  refine ⟨h.toInverse.congr hp.forward hp.reverse, fun {o' t} ht hu => ?_⟩
  have hne : fillBridgeKey o' t ≠ fillBridgeKey o token := by
    intro he
    have hproto : o'.protocol = o.protocol := congrArg TokenKey.protocol he
    rw [hu, htcp] at hproto
    exact absurd hproto (by decide)
  rw [bridge_eq (hp.bridge _), update_of_ne hne]
  exact h.bridged (hp.forward ▸ ht) hu

/-- A reservation takes a bridge entry that was free, so no flow loses its own. -/
theorem Backed.reserves (h : Backed hash c s) {o : OriginalKey} {token : TokenValue}
    (ho : o.WellFormed) (hc : Candidate hash c o token)
    (hr : Reserves Undisturbed c o token s s') : Backed hash c s' := by
  refine ⟨h.toInverse.reserves ho hc hr, fun {o' t} ht hu => ?_⟩
  rw [bridge_eq (hr.bridge _)]
  rw [hr.forward] at ht
  by_cases he : o' = o
  · subst he
    rw [update_self] at ht
    cases ht
    exact update_self ..
  · rw [update_of_ne he] at ht
    have hheld := h.bridged ht hu
    have hne : fillBridgeKey o' t ≠ fillBridgeKey o token := by
      intro hk
      rw [hk, hr.unclaimed.resolve_right id] at hheld
      cases hheld
    rw [update_of_ne hne]
    exact hheld

theorem Backed.move (h : Backed hash c s) (hm : Move Undisturbed hash c s s') :
    Backed hash c s' := by
  cases hm with
  | same hs => exact h.congr hs.forward hs.reverse hs.bridgeTokens_eq
  | sent ho hsyn hs =>
      cases hs with
      | kept _ _ _ he =>
          exact h.congr he.forward he.reverse he.toSameTokens.bridgeTokens_eq
      | renewed _ _ hs hp => exact h.publishes (hsyn hs) hp
      | fresh hc hr => exact h.reserves ho hc hr
  | touched ht =>
      refine ⟨h.toInverse.touched ht, fun {o t} hf hu => ?_⟩
      obtain ⟨-, -, hfwd, -, hb, -⟩ := ht
      rw [bridge_eq (hb _)]
      exact h.bridged (hfwd ▸ hf) hu

theorem Backed.moves (h : Backed hash c s) (hm : Moves Undisturbed hash c s s') :
    Backed hash c s' := by
  induction hm with
  | refl => exact h
  | tail _ hm ih => exact ih.move hm

theorem Backed.packet (h : Backed hash c s) {dir : Direction} {skb : Skb} {v : Verdict}
    (run : Prog.Out (admissible Undisturbed) (classify hash c dir { s with skb := skb }) s' v) :
    Backed hash c s' := by
  have hskb : Backed hash c { s with skb := skb } := h.congr rfl rfl rfl
  exact hskb.moves ((classify_keeps undisturbed_onlyBridge dir _).out run)

theorem Backed.step (h : Backed hash c s) (hs : Step Undisturbed Spares hash c s s') :
    Backed hash c s' := by
  cases hs with
  | packet dir skb v run => exact h.packet run
  | vanish v allowed => exact h.vanish allowed
  | policy cidr4 cidr6 => exact h.congr rfl rfl rfl

/-- **Runs**: as long as the removals spare what the flows rely on, the forward map implies the other
two. -/
theorem backed_reach (h : Reach Undisturbed Spares hash c s) : Backed hash c s := by
  obtain ⟨cidr4, cidr6, skb, hs⟩ := h
  induction hs with
  | refl => exact ⟨inverse_initial cidr4 cidr6 skb, nofun⟩
  | tail _ hs ih => exact ih.step hs

end

/-! ## Rewritten packets -/

/-- What the bridge reads for a packet to this destination. -/
def destinationOf (e : Endpoints) : OriginalDst where
  family := e.family
  protocol := e.protocol
  port := e.destinationPort
  addr := copyBytes e.destination (addressSize e.family)
  flags := 0

theorem fillBridgeValue_flowOf (ifindex : UInt32) (e : Endpoints) :
    fillBridgeValue (flowOf ifindex e) = destinationOf e := by
  simp only [fillBridgeValue, flowOf, destinationOf]
  rw [copyBytes_copyBytes _ (addressSize_le _)]

/-- **Rewritten packets are resolvable** in every run whose removals spare the way back of the flows
with a forward entry and the bridge entry of such UDP flows: a UDP datagram or a TCP SYN that leaves
ingress rewritten finds its original destination in the bridge map, under the token it was sent to,
and the reverse map has the way back of its answer. -/
theorem rewritten_resolvable (hash : OriginalKey → UInt32 → UInt32)
    (enableIpv6 enableDnsHijack bypassDirect : Bool) (listenPort : UInt16)
    (tokenIpv6 : Fin 16 → UInt8) (c : RuntimeControl)
    (hc : c = controlOf enableIpv6 enableDnsHijack bypassDirect listenPort tokenIpv6) (s : State)
    (hs : Reach Undisturbed Spares hash c s) (skb : Skb) (s₁ : State) (e : Endpoints)
    (hrun : Prog.Out (admissible Undisturbed) (classify hash c .ingress { s with skb := skb }) s₁ .ok)
    (he : endpoints skb.data = some e)
    (hkind : e.protocol = protoUdp ∨
      (e.protocol = protoTcp ∧ isTcpSyn skb (transport skb.data) = true)) :
    ∃ e', endpoints s₁.skb.data = some e' ∧
      s₁.bridgeTokens (bridgeKey e') = some (destinationOf e) ∧
      Recorded c (answerKey c skb.ifindex e') (copyBytes e.destination (addressSize e.family))
        e.destinationPort s₁ := by
  have hback := backed_reach hs
  have hskb : Inverse hash c { s with skb := skb } := hback.toInverse.congr rfl rfl
  have h6 : 8 ≤ c.tokenIpv6Prefix.length := by
    rw [hc]
    simp [controlOf, startControl]
  obtain ⟨e', he', -, hret, token, htoken, hkey, hpub⟩ :=
    (classify_ingress_sat hskb undisturbed_onlyBridge h6).out hrun rfl e he
  refine ⟨e', he', ?_, hret.recorded⟩
  rw [hkey, ← fillBridgeValue_flowOf skb.ifindex e]
  rcases hkind with hudp | htcp
  · exact (hback.packet hrun).bridged htoken hudp
  · exact (hpub (decide_eq_true htcp)).resolve_right id

/-- The first datagram of a flow. -/
theorem query_rewritten_resolvable :
    ∃ s₁ e', Prog.Out (admissible Undisturbed)
        (classify hashOriginal sampleControl .ingress { sampleStart with skb := query }) s₁ .ok ∧
      endpoints s₁.skb.data = some e' ∧
      s₁.bridgeTokens (bridgeKey e') =
        some ⟨afInet, protoUdp, 53, copyBytes [8, 8, 8, 8] 4, 0⟩ := by
  have hrun : queryRun.map Prod.snd = some .ok := by decide +kernel
  obtain ⟨⟨s₁, v⟩, hs, rfl⟩ := Option.map_eq_some_iff.mp hrun
  obtain ⟨e', he', hb, -⟩ := rewritten_resolvable hashOriginal true true true 1088 (fun _ => 0xfd)
    sampleControl rfl sampleStart sampleStart_reach query s₁
    ⟨afInet, 17, [192, 168, 43, 2], 40000, [8, 8, 8, 8], 53⟩ (queryRun_out hs) (by decide +kernel)
    (.inl rfl)
  exact ⟨s₁, e', queryRun_out hs, he', hb⟩

/-! ### An evicted bridge entry -/

/-- The key of the query's bridge entry. -/
def queryBridgeKey : TokenKey :=
  bridgeKey ⟨afInet, 17, [192, 168, 43, 2], 40000, [127, 171, 145, 176], 1088⟩

/-- The query's flow is admitted, its bridge entry is evicted, and the query comes again. -/
def queryAgain : Option (State × State × Verdict) :=
  queryRun.bind fun r =>
    (Prog.exec untaken (quiet true) 0 (classify hashOriginal sampleControl .ingress
      { r.1.vanish (.bridge queryBridgeKey) with skb := query })).map fun r' => (r.1, r')

/-- After an eviction from the bridge map alone, the next datagram is rewritten to a token that the
bridge cannot resolve. -/
theorem evicted_query_unresolvable :
    ∃ s s₁ e e', Reach Undisturbed (fun _ _ => True) hashOriginal sampleControl s ∧
      Prog.Out (admissible Undisturbed)
        (classify hashOriginal sampleControl .ingress { s with skb := query }) s₁ .ok ∧
      endpoints query.data = some e ∧ e.protocol = protoUdp ∧ endpoints s₁.skb.data = some e' ∧
      s₁.bridgeTokens (bridgeKey e') = none := by
  have hrun : queryAgain.map (fun r =>
      (endpoints r.2.1.skb.data, r.2.1.bridgeTokens queryBridgeKey, r.2.2)) =
      some (some ⟨afInet, 17, [192, 168, 43, 2], 40000, [127, 171, 145, 176], 1088⟩, none, .ok) := by
    decide +kernel
  obtain ⟨⟨s₀, s₁, v⟩, hs, heq⟩ := Option.map_eq_some_iff.mp hrun
  obtain ⟨⟨s₀', v₀⟩, hfirst, hsecond⟩ := Option.bind_eq_some_iff.mp hs
  obtain ⟨⟨s₁', v₁⟩, hexec, hpair⟩ := Option.map_eq_some_iff.mp hsecond
  cases hpair
  obtain ⟨he', hrest⟩ := Prod.mk.inj heq
  obtain ⟨hnone, rfl⟩ := Prod.mk.inj hrest
  refine ⟨State.vanish _ (.bridge queryBridgeKey), s₁,
    ⟨afInet, 17, [192, 168, 43, 2], 40000, [8, 8, 8, 8], 53⟩, _, ?_,
    Prog.exec_out (fun s q r => untaken_admissible s q r) hexec, by decide +kernel, rfl, he', hnone⟩
  refine ⟨_, _, _, .tail (.single (Step.packet (s := sampleStart) .ingress query v₀
    (queryRun_out hfirst))) (.vanish _ trivial)⟩

end Bpf2Socks.Tc
