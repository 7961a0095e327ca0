/-
# Bpf2Socks.Tc.Readmission — a flow that lost its forward entry.

`allocate_token` tries two tokens, which are functions of the flow, and takes one whose bridge entry
and way back are both free.  When the forward entry of a flow is evicted its other two entries stay,
so the flow cannot have the same token again: it moves to its second token, and after another
eviction to none.  Ingress then passes it on unproxied.

A run of one flow consists of its packets, of answers to them, of removals and of policy changes.
`Leaves` is what an eviction of the forward entry has to leave: one token of the flow that is clear
of the flow's own entries.  In runs of such evictions the flow is never passed on.
-/
import Bpf2Socks.Tc.Eviction
import Bpf2Socks.Tc.Kinds

namespace Bpf2Socks.Tc

open Function (update update_self update_of_ne)
open Lib (Act Prog)
open Lib.Act (keeps_pure keeps_get keeps_ask keeps_ite)

/-! ## The tokens of a flow -/

/-- A token that `allocate_token` tries for the flow. -/
def Attempted (hash : OriginalKey → UInt32 → UInt32) (c : RuntimeControl) (o : OriginalKey)
    (token : TokenValue) : Prop :=
  ∃ i < maxTokenAttempts, ∃ addr, tokenCandidate hash o c (UInt32.ofNat i) = some addr ∧
    token = ⟨addr, c.bridgePort, c.generation⟩

/-- Neither the bridge entry nor the way back of the token is there. -/
def Unused (o : OriginalKey) (token : TokenValue) (s : State) : Prop :=
  s.bridgeTokens (fillBridgeKey o token) = none ∧
    s.tokenToOriginal (fillReverseKey o token) = none

/-- The flow has a token of this generation. -/
def HasToken (c : RuntimeControl) (o : OriginalKey) (s : State) : Prop :=
  ∃ token, s.originalToToken o = some token ∧ token.generation = c.generation

/-- The flow has a token or can get one. -/
def Ready (hash : OriginalKey → UInt32 → UInt32) (c : RuntimeControl) (o : OriginalKey)
    (s : State) : Prop :=
  HasToken c o s ∨ ∃ token, Attempted hash c o token ∧ Unused o token s

/-! ## Answers that grant everything -/

/-- Nothing is taken while the packet is handled, insertions find memory and the headers can be
read. -/
def granted : State → (q : Sys) → q.Answer → Prop
  | _, .preempt, gone => gone = []
  | _, .room, room => room = true
  | _, .now, _ => True
  | _, .pullData, pulled => pulled = true
  | _, .helper, _ => True

theorem granted_admissible {inside : Vanish → Prop} (s : State) (q : Sys) (r : q.Answer)
    (h : granted s q r) : admissible inside s q r := by
  cases q with
  | preempt =>
      have hr : r = [] := h
      subst hr
      exact fun v hv => by cases hv
  | _ => trivial

section Granted

variable {s s' : State} {hash : OriginalKey → UInt32 → UInt32} {c : RuntimeControl}
  {o : OriginalKey} {token : TokenValue}

theorem preempt_granted : Prog.Sat granted (fun s' _ => s' = s) (preempt s) := by
  intro gone hgone
  have hnil : gone = [] := hgone
  subst hnil
  rfl

variable {K V : Type} {t : Table K V} {key : K}

theorem Table.lookup_granted :
    Prog.Sat granted (fun s' r => s' = s ∧ r = t.entry s key) (t.lookup key s) := by
  refine preempt_granted.bind fun s₁ _ h => ?_
  subst h
  exact ⟨rfl, rfl⟩

/-- An insertion fails only on an entry that is there. -/
theorem Table.update_granted {value : V} {noexist : Bool} :
    Prog.Sat granted
      (fun s' r => (r = false ∧ s' = s ∧ noexist = true ∧ (t.entry s key).isSome) ∨
        (r = true ∧ s' = t.put s key (some value)))
      (t.update key value noexist s) := by
  refine preempt_granted.bind fun s₁ _ h => ?_
  subst h
  intro room hroom
  have hroom : room = true := hroom
  subst hroom
  refine Act.sat_ite (fun hc => ?_) fun _ => .inr ⟨rfl, rfl⟩
  rcases hc with hc | ⟨hn, hs⟩
  · cases hc
  · exact .inl ⟨rfl, rfl, hn, hs⟩

/-- An attempt that goes on to the next found the token in use. -/
theorem attemptToken_granted (attempt : UInt32) :
    Prog.Sat granted
      (fun _ r => r ≠ .failed ∧ (r = .next → ∀ addr, tokenCandidate hash o c attempt = some addr →
        ¬Unused o ⟨addr, c.bridgePort, c.generation⟩ s))
      (attemptToken hash o c attempt s) := by
  unfold attemptToken
  rcases hcand : tokenCandidate hash o c attempt with _ | addr
  · exact ⟨nofun, fun _ _ h => nomatch h⟩
  refine Table.update_granted.bind fun s₁ r hr => ?_
  obtain ⟨rfl, rfl, -, hs⟩ | ⟨rfl, rfl⟩ := hr
  · refine ⟨nofun, fun _ a ha hu => ?_⟩
    cases ha
    have hnone : bridgeTable.entry s₁ _ = none := hu.1
    rw [hnone] at hs
    cases hs
  intro now _
  refine Table.update_granted.bind fun s₂ r hr => ?_
  obtain ⟨rfl, rfl, -, hs⟩ | ⟨rfl, rfl⟩ := hr
  · refine Prog.sat_true.bind fun _ _ _ => ⟨nofun, fun _ a ha hu => ?_⟩
    cases ha
    have hnone : s.tokenToOriginal _ = none := hu.2
    have hsome : (s.tokenToOriginal _).isSome := hs
    rw [hnone] at hsome
    cases hsome
  refine Table.update_granted.bind fun s₃ r hr => ?_
  obtain ⟨-, -, hn, -⟩ | ⟨rfl, rfl⟩ := hr
  · cases hn
  · exact ⟨nofun, nofun⟩

/-- Use of a token is a matter of the bridge and the reverse map. -/
theorem Unused.congr (h : Unused o token s) (hb : s'.bridgeTokens = s.bridgeTokens)
    (hr : s'.tokenToOriginal = s.tokenToOriginal) : Unused o token s' := by
  unfold Unused
  rw [hb, hr]
  exact h

theorem allocateFrom_granted (left : Nat) :
    Prog.Sat granted
      (fun _ r => r = none → ∀ i, maxTokenAttempts - left ≤ i → i < maxTokenAttempts →
        ∀ addr, tokenCandidate hash o c (UInt32.ofNat i) = some addr →
          ¬Unused o ⟨addr, c.bridgePort, c.generation⟩ s)
      (allocateFrom hash o c left s) := by
  induction left generalizing s with
  | zero =>
      intro _ i hi hi'
      omega
  | succ left ih =>
      refine ((attemptToken_granted _).and ((attemptToken_sat undisturbed_onlyBridge _).weaken
        fun s q r => granted_admissible s q r)).bind fun s₁ r ⟨hr, hspec⟩ => ?_
      cases r with
      | reserved token => exact nofun
      | failed => exact absurd rfl hr.1
      | next =>
          have hs₁ : Eroded Undisturbed s s₁ := hspec
          refine ih.mono fun s₂ r hr' hnone i hi hi' addr haddr hu => ?_
          by_cases hfirst : i = maxTokenAttempts - (left + 1)
          · subst hfirst
            exact hr.2 rfl addr haddr hu
          · exact hr' hnone i (by omega) hi' addr haddr
              (hu.congr hs₁.toSameTokens.bridgeTokens_eq hs₁.reverse)

/-- **`allocate_token`** with everything granted fails only when every token it tries is in use. -/
theorem allocateToken_granted :
    Prog.Sat granted (fun _ r => r = none → ∀ token, Attempted hash c o token → ¬Unused o token s)
      (allocateToken hash o c s) := by
  refine (allocateFrom_granted _).mono fun _ r hr hnone token ht => ?_
  obtain ⟨i, hi, addr, haddr, rfl⟩ := ht
  exact hr hnone i (by omega) hi addr haddr

theorem findReservedToken_granted :
    Prog.Sat granted (fun s' r => s' = s ∧ (r = none → ¬HasToken c o s)) (findReservedToken o c s) := by
  refine Table.lookup_granted.bind fun s₁ r ⟨hs, hr⟩ => ?_
  have hentry : r = s.originalToToken o := hr
  subst hs
  cases r with
  | none =>
      refine ⟨rfl, fun _ ⟨token, ht, _⟩ => ?_⟩
      rw [← hentry] at ht
      cases ht
  | some token =>
      refine Act.sat_ite (fun hg => ⟨rfl, fun _ ⟨token', ht, hg'⟩ => ?_⟩) fun _ => ⟨rfl, nofun⟩
      rw [← hentry] at ht
      cases ht
      exact hg hg'

/-- A flow that policy admits and that is ready is sent to a token. -/
theorem admitFlow_granted (syn : Bool) (h : Ready hash c o s) :
    Prog.Sat granted (fun _ r => ∃ token, r = .rewrite token) (admitFlow hash c o true syn s) := by
  refine findReservedToken_granted.bind fun s₁ r ⟨hs, hr⟩ => ?_
  subst hs
  cases r with
  | none =>
      obtain ⟨token, ht, hu⟩ := h.resolve_left (hr rfl)
      refine Act.sat_ite (fun hp => ?_) fun _ => ?_
      · cases hp
      · refine allocateToken_granted.bind fun s₂ r hr => ?_
        cases r with
        | none => exact absurd hu (hr rfl token ht)
        | some token => exact ⟨token, rfl⟩
  | some token =>
      refine Act.sat_ite (fun _ => ⟨token, rfl⟩) fun _ => ?_
      refine Table.update_granted.bind fun s₂ r hr => ?_
      obtain ⟨-, -, hn, -⟩ | ⟨rfl, rfl⟩ := hr
      · cases hn
      · exact ⟨token, rfl⟩

end Granted

/-! ## Packets of the flow -/

section Packets

variable {inside : Vanish → Prop} {s s' : State} {hash : OriginalKey → UInt32 → UInt32}
  {c : RuntimeControl} {o : OriginalKey}

theorem endpoints_kind4 {e : Endpoints} {l4 : Nat} {fragment : Option FragmentKey} {skb : Skb}
    (hv : be16 skb.data 12 = 0x0800) (h : kind4 skb = .flow e l4 fragment) :
    endpoints skb.data = some e := by
  dsimp only [kind4] at h
  split_ifs at h with hver hlater
  all_goals
    obtain ⟨rfl, -⟩ := Kind.flow.inj h
    rw [endpoints, if_pos hv, if_neg]
    rw [not_or] at hver
    exact fun hc => hc.elim hver.1 fun hc => hc.elim hver.2 hlater

theorem endpoints_kind6Transport {e : Endpoints} {l4 l4' : Nat} {fragment f : Option FragmentKey}
    {skb : Skb} {protocol : UInt8} (h : kind6Transport c skb protocol l4' f = .flow e l4 fragment) :
    e = endpoints6 skb.data protocol l4' := by
  unfold kind6Transport at h
  split_ifs at h
  exact (Kind.flow.inj h).1.symm

theorem endpoints_kind6 {e : Endpoints} {l4 : Nat} {fragment : Option FragmentKey} {skb : Skb}
    (hv : be16 skb.data 12 = 0x86dd) (h : kind6 c skb = .flow e l4 fragment) :
    endpoints skb.data = some e := by
  have hne : ¬be16 skb.data 12 = 0x0800 := by rw [hv]; decide
  dsimp only [kind6] at h
  split_ifs at h with hver hnf _ _ hoff
  · rw [endpoints, if_neg hne, if_pos hv, if_neg hver, if_pos hnf, endpoints_kind6Transport h]
  · rw [endpoints, if_neg hne, if_pos hv, if_neg hver, if_neg hnf, if_neg hoff,
      endpoints_kind6Transport h]

/-- A packet of a flow shows the ends of the flow. -/
theorem endpoints_kind {e : Endpoints} {l4 : Nat} {fragment : Option FragmentKey} {skb : Skb}
    (h : kind c skb = .flow e l4 fragment) : endpoints skb.data = some e := by
  unfold kind at h
  split_ifs at h with _ h4 _ h6
  · exact endpoints_kind4 h4 h
  · exact endpoints_kind6 h6 h

theorem rewriteTo_keeps {ok : State → (q : Sys) → q.Answer → Prop} {R : State → State → Prop}
    [IgnoresPacket R] (skb : Skb) (e : Endpoints) (l4 : Nat) (token : List UInt8) :
    Act.Keeps ok R (rewriteTo c skb e l4 token) :=
  keeps_ite (rewriteIpv4_keeps _ _ _ _ _ _ _ _) (rewriteIpv6_keeps _ _ _ _ _ _ _ _)

theorem redirectLater_keeps {ok : State → (q : Sys) → q.Answer → Prop} {R : State → State → Prop}
    [IgnoresPacket R] (skb : Skb) (key : FragmentKey) (token : List UInt8) :
    Act.Keeps ok R (redirectLater skb key token) := by
  refine keeps_ite (rewriteAll_keeps fun f hf => ?_) (rewriteAll_keeps fun f hf => ?_)
  · simp only [List.mem_cons, List.not_mem_nil, or_false] at hf
    rcases hf with rfl | rfl
    · exact replaceChecksum_keeps _ _ _ _
    · exact skbStoreBytes_keeps _ _
  · rw [List.mem_singleton] at hf
    subst hf
    exact skbStoreBytes_keeps _ _

theorem followFirst_keeps (hin : OnlyBridge inside) (skb : Skb) (key : FragmentKey) :
    Act.Keeps (admissible inside) (SameTokens inside) (followFirst c skb key) := by
  refine (fragmentRecord_keeps hin _).bind fun r => ?_
  cases r with
  | none => exact keeps_pure _
  | some value => exact keeps_ite (keeps_pure _) (redirectLater_keeps _ _ _)

/-- What a packet does to the token maps: nothing, or its flow is sent to a token. -/
def FlowMove (inside : Vanish → Prop) (hash : OriginalKey → UInt32 → UInt32) (c : RuntimeControl)
    (s s' : State) : Prop :=
  SameTokens inside s s' ∨ ∃ e syn token s₁, endpoints s.skb.data = some e ∧
    Sends inside hash c (flowOf s.skb.ifindex e) syn s s₁ token ∧ SameTokens inside s₁ s'

theorem classify_flowMove (hin : OnlyBridge inside) :
    Prog.Sat (admissible inside) (fun s' _ => FlowMove inside hash c s s')
      (classify hash c .ingress s) := by
  have hrefl : SameTokens inside s s := ⟨rfl, rfl, fun _ => .inl rfl⟩
  refine Act.sat_ite (fun _ => .inl hrefl) fun _ => ?_
  intro pulled _
  refine Act.sat_ite (fun _ => .inl hrefl) fun _ => ?_
  rw [classifyPulled_ingress]
  rcases hk : kind c s.skb with _ | _ | key | fragment | ⟨e, l4, fragment⟩
  · exact .inl hrefl
  · exact .inl hrefl
  · exact (followFirst_keeps hin _ _ s).mono fun _ _ h => .inl h
  · refine (finishIngress_keeps (c := c) hin fragment (fun _ => keeps_pure .pipe) .pass s).mono
      fun _ _ h => ?_
    exact .inl h
  · refine (admitFlow_sat hin _).bind fun s₁ r hr => ?_
    refine (finishIngress_keeps hin _ (fun _ => rewriteTo_keeps _ _ _ _) r s₁).mono
      fun s₂ _ h₂ => ?_
    cases r with
    | pass => exact .inl (hr.toSameTokens.trans h₂)
    | unpublished => exact .inl (hr.toSameTokens.trans h₂)
    | rewrite token => exact .inr ⟨e, _, token, s₁, endpoints_kind hk, hr, h₂⟩

/-- A rewrite ends with `TC_ACT_OK` or `TC_ACT_SHOT`. -/
theorem rewriteAll_ne_pipe {ok : State → (q : Sys) → q.Answer → Prop} (fs : List (Code Bool)) :
    Prog.Sat ok (fun _ v => v ≠ .pipe) (rewriteAll fs s) :=
  Prog.sat_true.bind fun _ _ _ => Act.sat_ite (fun _ => nofun) fun _ => nofun

theorem rewriteTo_ne_pipe {ok : State → (q : Sys) → q.Answer → Prop} (skb : Skb) (e : Endpoints)
    (l4 : Nat) (token : List UInt8) :
    Prog.Sat ok (fun _ v => v ≠ .pipe) (rewriteTo c skb e l4 token s) :=
  Act.sat_ite (fun _ => rewriteAll_ne_pipe _) fun _ => rewriteAll_ne_pipe _

/-- Does policy let in a packet with these ends: TCP or UDP, of a family that is served, and to be
proxied? -/
def admitted (c : RuntimeControl) (s : State) (e : Endpoints) : Bool :=
  isTransport e.protocol ∧
    (e.family = afInet ∨ flagSet c.flags runtimeIpv6 ∨
      (flagSet c.flags runtimeDnsHijack ∧ e.destinationPort = 53)) ∧
    policyAdmits c s e

theorem kind4_transport {e : Endpoints} {skb : Skb} (hv : be16 skb.data 12 = 0x0800)
    (he : endpoints skb.data = some e) (ht : isTransport e.protocol = true) :
    kind4 skb = .dropped ∨ ∃ l4 fragment, kind4 skb = .flow e l4 fragment := by
  rw [endpoints, if_pos hv] at he
  split_ifs at he with hbad
  rw [not_or, not_or] at hbad
  cases he
  have ht' : isTransport (byteAt skb.data 23) = true := ht
  dsimp only [kind4]
  rw [if_neg (not_or.mpr ⟨hbad.1, hbad.2.1⟩), if_neg hbad.2.2]
  simp only [ht', Bool.not_true, Bool.false_eq_true, ↓reduceIte]
  split
  · exact .inl rfl
  split
  · exact .inl rfl
  · exact .inr ⟨_, _, rfl⟩

theorem kind6Transport_served {protocol : UInt8} {l4 : Nat} {skb : Skb}
    (fragment : Option FragmentKey) (ht : isTransport protocol = true)
    (hs : flagSet c.flags runtimeIpv6 ∨
      (flagSet c.flags runtimeDnsHijack ∧ be16 skb.data (l4 + 2) = 53)) :
    kind6Transport c skb protocol l4 fragment = .dropped ∨
      kind6Transport c skb protocol l4 fragment =
        .flow (endpoints6 skb.data protocol l4) l4 fragment := by
  unfold kind6Transport
  simp only [ht, Bool.not_true, Bool.false_eq_true, ↓reduceIte]
  split
  · exact .inl rfl
  split
  · exact .inl rfl
  · rw [if_neg]
    · exact .inr rfl
    · rintro ⟨h6, hd | hd⟩
      · rcases hs with hs | hs
        · simp [hs] at h6
        · simp [hs.1] at hd
      · rcases hs with hs | hs
        · simp [hs] at h6
        · exact hd hs.2

theorem kind6_served {e : Endpoints} {skb : Skb} (hv : be16 skb.data 12 = 0x86dd)
    (he : endpoints skb.data = some e) (ht : isTransport e.protocol = true)
    (hs : flagSet c.flags runtimeIpv6 ∨
      (flagSet c.flags runtimeDnsHijack ∧ e.destinationPort = 53)) :
    kind6 c skb = .dropped ∨ ∃ l4 fragment, kind6 c skb = .flow e l4 fragment := by
  have hne : ¬be16 skb.data 12 = 0x0800 := by rw [hv]; decide
  rw [endpoints, if_neg hne, if_pos hv] at he
  dsimp only [kind6]
  split_ifs at he with hver hnf hoff
  · cases he
    rw [if_neg hver, if_pos hnf]
    exact (kind6Transport_served _ ht hs).imp_right fun h => ⟨_, _, h⟩
  · cases he
    have ht' : isTransport (byteAt skb.data 54) = true := ht
    rw [if_neg hver, if_neg hnf]
    simp only [ht', hoff, Bool.not_true, Bool.false_eq_true, ↓reduceIte]
    split
    · exact .inl rfl
    · exact (kind6Transport_served _ ht hs).imp_right fun h => ⟨_, _, h⟩

/-- The headers of an admitted packet make it a packet of its flow, unless it is malformed. -/
theorem kind_admitted {e : Endpoints} (he : endpoints s.skb.data = some e)
    (ha : admitted c s e = true) :
    kind c s.skb = .dropped ∨ ∃ l4 fragment, kind c s.skb = .flow e l4 fragment := by
  obtain ⟨ht, hs, -⟩ := decide_eq_true_iff.mp ha
  unfold kind
  split
  · exact .inl rfl
  by_cases h4 : be16 s.skb.data 12 = 0x0800
  · rw [if_pos h4]
    split
    · exact .inl rfl
    · exact kind4_transport h4 he ht
  rw [if_neg h4]
  by_cases h6 : be16 s.skb.data 12 = 0x86dd
  · rw [if_pos h6]
    split
    · exact .inl rfl
    · refine kind6_served h6 he ht (hs.resolve_left fun hf => ?_)
      rw [endpoints, if_neg h4, if_pos h6] at he
      split_ifs at he <;> cases he <;> exact absurd hf (by show ¬afInet6 = afInet; decide)
  · rw [endpoints, if_neg h4, if_neg h6] at he
    cases he

/-- A packet of a ready flow that policy admits is not passed on. -/
theorem classify_ne_pipe {e : Endpoints} (hc : c.enabled ≠ 0) (he : endpoints s.skb.data = some e)
    (ha : admitted c s e = true) (h : Ready hash c (flowOf s.skb.ifindex e) s) :
    Prog.Sat granted (fun _ v => v ≠ .pipe) (classify hash c .ingress s) := by
  refine Act.sat_ite (fun h0 => absurd h0 hc) fun _ => ?_
  intro pulled hp
  have hp : pulled = true := hp
  subst hp
  show Prog.Sat _ _ (classifyPulled hash c .ingress s)
  rw [classifyPulled_ingress]
  obtain hk | ⟨l4, fragment, hk⟩ := kind_admitted he ha
  · rw [hk]
    exact nofun
  rw [hk]
  have hpol : policyAdmits c s e = true := (decide_eq_true_iff.mp ha).2.2
  show Prog.Sat _ _ (handleFlow hash c s e l4 fragment s)
  unfold handleFlow
  rw [hpol]
  refine (admitFlow_granted _ h).bind fun s₁ r hr => ?_
  obtain ⟨token, rfl⟩ := hr
  cases fragment with
  | none => exact rewriteTo_ne_pipe _ _ _ _
  | some key => exact Prog.sat_true.bind fun _ _ _ => rewriteTo_ne_pipe _ _ _ _

/-! ### Answers -/

/-- `s'` has the forward map of `s`, and no entry of the other two where `s` has none. -/
structure OnlyTouches (s s' : State) : Prop where
  forward : s'.originalToToken = s.originalToToken
  reverse : ∀ k, s.tokenToOriginal k = none → s'.tokenToOriginal k = none
  bridge : ∀ k, s.bridgeTokens k = none → s'.bridgeTokens k = none

instance : IgnoresPacket OnlyTouches where
  refl _ := ⟨rfl, fun _ h => h, fun _ h => h⟩
  trans _ _ _ h h' := ⟨h'.forward.trans h.forward, fun k hk => h'.reverse k (h.reverse k hk),
    fun k hk => h'.bridge k (h.bridge k hk)⟩
  skb _ _ := ⟨rfl, fun _ h => h, fun _ h => h⟩

theorem SameTokens.onlyTouches (h : SameTokens inside s s') : OnlyTouches s s' := by
  refine ⟨h.forward, fun k hk => by rw [h.reverse, hk], fun k hk => ?_⟩
  rcases h.bridge k with hb | hb
  · rw [hb, hk]
  · exact hb.1

theorem findOriginal_onlyTouches (hin : OnlyBridge inside) (key : ReverseKey) :
    Act.Keeps (admissible inside) OnlyTouches (findOriginal key c) := by
  intro s
  refine (findOriginal_sat hin key).mono fun s' r ⟨hr, _⟩ => ?_
  cases r with
  | none => exact hr.toSameTokens.onlyTouches
  | some v =>
      obtain ⟨hv, -, hf, -, hb, now, hrev⟩ := hr
      refine ⟨hf, fun k hk => ?_, fun k hk => ?_⟩
      · have hne : k ≠ key := by
          rintro rfl
          rw [hv] at hk
          cases hk
        rw [hrev, update_of_ne hne, hk]
      · rcases hb k with hb | hb
        · rw [hb, hk]
        · exact hb.1

/-- Egress puts no entry into the token maps. -/
theorem classify_egress_onlyTouches (hin : OnlyBridge inside) :
    Act.Keeps (admissible inside) OnlyTouches (classify hash c .egress) :=
  classify_egress_keeps (findOriginal_onlyTouches hin)

end Packets

/-! ## Runs of one flow -/

/-- One step of a run of the flow `o`: an ingress packet, which belongs to the flow if it has ports;
an answer on egress; an entry another party removes; or a change of the CIDR maps. -/
inductive FlowStep (between : State → Vanish → Prop) (hash : OriginalKey → UInt32 → UInt32)
    (c : RuntimeControl) (o : OriginalKey) : State → State → Prop where
  | packet {s s' : State} (skb : Skb) (v : Verdict)
      (own : ∀ e, endpoints skb.data = some e → flowOf skb.ifindex e = o)
      (run : Prog.Out (admissible Undisturbed) (classify hash c .ingress { s with skb := skb }) s' v) :
      FlowStep between hash c o s s'
  | answer {s s' : State} (skb : Skb) (v : Verdict)
      (run : Prog.Out (admissible Undisturbed) (classify hash c .egress { s with skb := skb }) s' v) :
      FlowStep between hash c o s s'
  | vanish {s : State} (v : Vanish) (allowed : between s v) : FlowStep between hash c o s (s.vanish v)
  | policy {s : State} (cidr4 cidr6 : CidrMaps) :
      FlowStep between hash c o s { s with cidr4 := cidr4, cidr6 := cidr6 }

/-- The states of all runs of the flow from the empty maps. -/
def FlowReach (between : State → Vanish → Prop) (hash : OriginalKey → UInt32 → UInt32)
    (c : RuntimeControl) (o : OriginalKey) (s : State) : Prop :=
  ∃ cidr4 cidr6 skb,
    Relation.ReflTransGen (FlowStep between hash c o) (initial cidr4 cidr6 skb) s

/-- An eviction of the flow's forward entry leaves it a token that is clear of its own entries;
every other removal is allowed. -/
def Leaves (hash : OriginalKey → UInt32 → UInt32) (c : RuntimeControl) (o : OriginalKey)
    (s : State) (v : Vanish) : Prop :=
  v = .forward o → ∃ token, Attempted hash c o token ∧ Unused o token s

section Runs

variable {s s' : State} {hash : OriginalKey → UInt32 → UInt32} {c : RuntimeControl}
  {o : OriginalKey}

theorem Ready.congr (h : Ready hash c o s) (hf : s'.originalToToken = s.originalToToken)
    (hr : s'.tokenToOriginal = s.tokenToOriginal) (hb : s'.bridgeTokens = s.bridgeTokens) :
    Ready hash c o s' := by
  rcases h with ⟨token, ht, hg⟩ | ⟨token, ht, hu⟩
  · exact .inl ⟨token, hf ▸ ht, hg⟩
  · exact .inr ⟨token, ht, hu.congr hb hr⟩

/-- A removal frees tokens, and takes the flow's own only where one is left. -/
theorem Ready.vanish (h : Ready hash c o s) {v : Vanish} (hv : Leaves hash c o s v) :
    Ready hash c o (s.vanish v) := by
  have none_of_none : ∀ {K V : Type} [DecidableEq K] {m : K → Option V} {k key : K},
      m k = none → update m key none k = none := by
    intro K V _ m k key hm
    by_cases hk : k = key
    · subst hk
      exact update_self ..
    · rw [update_of_ne hk]
      exact hm
  rcases h with ⟨token, ht, hg⟩ | ⟨token, ht, hu⟩
  · cases v with
    | forward key =>
        by_cases hk : o = key
        · subst hk
          exact .inr (hv rfl)
        · exact .inl ⟨token, (update_of_ne hk ..).trans ht, hg⟩
    | reverse key => exact .inl ⟨token, ht, hg⟩
    | bridge key => exact .inl ⟨token, ht, hg⟩
    | fragment key => exact .inl ⟨token, ht, hg⟩
  · refine .inr ⟨token, ht, ?_⟩
    cases v with
    | forward key => exact hu
    | reverse key => exact ⟨hu.1, none_of_none hu.2⟩
    | bridge key => exact ⟨none_of_none hu.1, hu.2⟩
    | fragment key => exact hu

/-- A flow that was sent to a token has one of this generation. -/
theorem Sends.hasToken {syn : Bool} {token : TokenValue}
    (h : Sends Undisturbed hash c o syn s s' token) : HasToken c o s' := by
  refine ⟨token, h.found, ?_⟩
  cases h with
  | kept _ hg _ _ => exact hg
  | renewed _ hg _ _ => exact hg
  | fresh hc _ =>
      obtain ⟨_, _, _, rfl⟩ := hc
      rfl

theorem Ready.flowMove (h : Ready hash c o s)
    (own : ∀ e, endpoints s.skb.data = some e → flowOf s.skb.ifindex e = o)
    (hm : FlowMove Undisturbed hash c s s') : Ready hash c o s' := by
  rcases hm with hs | ⟨e, syn, token, s₁, he, hsend, hs⟩
  · exact h.congr hs.forward hs.reverse hs.bridgeTokens_eq
  · rw [own e he] at hsend
    obtain ⟨t, ht, hg⟩ := hsend.hasToken
    exact .inl ⟨t, hs.forward ▸ ht, hg⟩

theorem Ready.onlyTouches (h : Ready hash c o s) (ht : OnlyTouches s s') : Ready hash c o s' := by
  rcases h with ⟨token, hf, hg⟩ | ⟨token, ha, hu⟩
  · exact .inl ⟨token, ht.forward ▸ hf, hg⟩
  · exact .inr ⟨token, ha, ht.bridge _ hu.1, ht.reverse _ hu.2⟩

theorem Ready.step (h : Ready hash c o s) (hs : FlowStep (Leaves hash c o) hash c o s s') :
    Ready hash c o s' := by
  cases hs with
  | packet skb v own run =>
      have hskb : Ready hash c o { s with skb := skb } := h.congr rfl rfl rfl
      exact hskb.flowMove own ((classify_flowMove undisturbed_onlyBridge).out run)
  | answer skb v run =>
      have hskb : Ready hash c o { s with skb := skb } := h.congr rfl rfl rfl
      exact hskb.onlyTouches ((classify_egress_onlyTouches undisturbed_onlyBridge _).out run)
  | vanish v allowed => exact h.vanish allowed
  | policy cidr4 cidr6 => exact h.congr rfl rfl rfl

/-- **Runs**: a flow that has a token to try stays ready as long as each eviction leaves it one. -/
theorem ready_reach (hcand : ∃ token, Attempted hash c o token)
    (h : FlowReach (Leaves hash c o) hash c o s) : Ready hash c o s := by
  obtain ⟨cidr4, cidr6, skb, hs⟩ := h
  induction hs with
  | refl =>
      obtain ⟨token, ht⟩ := hcand
      exact .inr ⟨token, ht, rfl, rfl⟩
  | tail _ hs ih => exact ih.step hs

/-- **A flow is not pushed past the proxy by its own leftovers** in any run in which each eviction of
its forward entry leaves it a token clear of its own entries: an admitted packet of the flow whose
insertions find memory and whose headers can be read is never passed on. -/
theorem readmitted_of_leaves (hash : OriginalKey → UInt32 → UInt32)
    (enableIpv6 enableDnsHijack bypassDirect : Bool) (listenPort : UInt16)
    (tokenIpv6 : Fin 16 → UInt8) (c : RuntimeControl)
    (hc : c = controlOf enableIpv6 enableDnsHijack bypassDirect listenPort tokenIpv6)
    (o : OriginalKey) (hcand : ∃ token, Attempted hash c o token) (s : State)
    (hs : FlowReach (Leaves hash c o) hash c o s) (skb : Skb) (e : Endpoints)
    (he : endpoints skb.data = some e) (ho : flowOf skb.ifindex e = o)
    (ha : admitted c { s with skb := skb } e = true) (s₁ : State) (v : Verdict)
    (hrun : Prog.Out granted (classify hash c .ingress { s with skb := skb }) s₁ v) :
    v ≠ .pipe := by
  have hready : Ready hash c (flowOf skb.ifindex e) { s with skb := skb } := by
    rw [ho]
    exact (ready_reach hcand hs).congr rfl rfl rfl
  have hen : c.enabled ≠ 0 := by
    have hone : c.enabled = 1 := by rw [hc]; rfl
    rw [hone]
    decide
  exact (classify_ne_pipe (s := { s with skb := skb }) hen he ha hready).out hrun

end Runs

/-! ### One flow -/

/-- The query's flow. -/
def queryFlow : OriginalKey := originalOf query afInet 17 34 26 30 4

/-- The query comes to these maps and everything is granted. -/
def queryOn (s : State) : Option (State × Verdict) :=
  Prog.exec untaken (quiet true) 0
    (classify hashOriginal sampleControl .ingress { s with skb := query })

/-- Its script grants everything. -/
theorem exec_granted {α : Type} {p : Prog Sys.Answer State α} {n : Nat} {s : State} {a : α}
    (h : Prog.exec untaken (quiet true) n p = some (s, a)) : Prog.Out granted p s a := by
  induction p generalizing n with
  | ret s' a' =>
      obtain ⟨rfl, rfl⟩ := Prod.mk.inj (Option.some.inj h)
      exact .ret _ _
  | ask s' q k ih =>
      have hq : granted s' q (quiet true n q) := by cases q <;> first | exact rfl | trivial
      rw [Prog.exec] at h
      split at h
      · exact .ask _ hq (ih _ h)
      · cases h
  | diverge => cases h

theorem query_attempted : ∃ token, Attempted hashOriginal sampleControl queryFlow token :=
  ⟨_, 0, by decide, copyBytes [127, 171, 145, 176] 4, by decide +kernel, rfl⟩

/-- The first packet of the flow is not passed on. -/
theorem query_readmitted : ∃ s₁ v, Prog.Out granted
    (classify hashOriginal sampleControl .ingress { sampleStart with skb := query }) s₁ v ∧
    v ≠ .pipe := by
  have hrun : (queryOn sampleStart).isSome := by decide +kernel
  obtain ⟨⟨s₁, v⟩, hs⟩ := Option.isSome_iff_exists.mp hrun
  refine ⟨s₁, v, exec_granted hs, ?_⟩
  exact readmitted_of_leaves hashOriginal true true true 1088 (fun _ => 0xfd) sampleControl rfl
    queryFlow query_attempted sampleStart ⟨_, _, _, .refl⟩ query
    ⟨afInet, 17, [192, 168, 43, 2], 40000, [8, 8, 8, 8], 53⟩ (by decide +kernel) rfl
    (by decide +kernel) s₁ v (exec_granted hs)

/-- The maps after the query was admitted and its forward entry evicted, once and twice. -/
def queryEvicted (s : State) : Option State :=
  (queryOn s).map fun r => r.1.vanish (.forward queryFlow)

/-- The evictions of the flow's forward entry and the bridge's consumption. -/
def OwnRemovals (o : OriginalKey) (_ : State) (v : Vanish) : Prop :=
  v = .forward o ∨ ∃ k, v = .bridge k

theorem queryEvicted_reach {s s' : State}
    (h : FlowReach (OwnRemovals queryFlow) hashOriginal sampleControl queryFlow s)
    (he : queryEvicted s = some s') :
    FlowReach (OwnRemovals queryFlow) hashOriginal sampleControl queryFlow s' := by
  obtain ⟨cidr4, cidr6, skb, hs⟩ := h
  obtain ⟨⟨s₁, v⟩, hrun, rfl⟩ := Option.map_eq_some_iff.mp he
  refine ⟨cidr4, cidr6, skb, (hs.tail (.packet query v ?_ ?_)).tail (.vanish _ (.inl rfl))⟩
  · intro e hq
    have hq' : endpoints query.data =
        some ⟨afInet, 17, [192, 168, 43, 2], 40000, [8, 8, 8, 8], 53⟩ := by decide +kernel
    obtain rfl := Option.some.inj (hq'.symm.trans hq)
    rfl
  · exact (exec_granted hrun).weaken fun s q r => granted_admissible s q r

/-- After two evictions of its forward entry the flow is passed on: both of its tokens are held by
its own entries. -/
theorem evicted_twice_passes :
    ∃ s s₁ e, FlowReach (OwnRemovals queryFlow) hashOriginal sampleControl queryFlow s ∧
      (∃ token, Attempted hashOriginal sampleControl queryFlow token) ∧
      endpoints query.data = some e ∧ flowOf query.ifindex e = queryFlow ∧
      admitted sampleControl { s with skb := query } e = true ∧
      Prog.Out granted (classify hashOriginal sampleControl .ingress { s with skb := query })
        s₁ .pipe := by
  have hrun : ((queryEvicted sampleStart).bind queryEvicted).bind (fun s =>
      (queryOn s).map fun r => (r.2, admitted sampleControl { s with skb := query }
        ⟨afInet, 17, [192, 168, 43, 2], 40000, [8, 8, 8, 8], 53⟩)) = some (.pipe, true) := by
    decide +kernel
  obtain ⟨s, htwice, hlast⟩ := Option.bind_eq_some_iff.mp hrun
  obtain ⟨s₀, hfirst, hsecond⟩ := Option.bind_eq_some_iff.mp htwice
  obtain ⟨⟨s₁, v⟩, hexec, heq⟩ := Option.map_eq_some_iff.mp hlast
  obtain ⟨rfl, hadm⟩ := Prod.mk.inj heq
  exact ⟨s, s₁, _, queryEvicted_reach (queryEvicted_reach ⟨_, _, _, .refl⟩ hfirst) hsecond,
    query_attempted, by decide +kernel, rfl, hadm, exec_granted hexec⟩

end Bpf2Socks.Tc
