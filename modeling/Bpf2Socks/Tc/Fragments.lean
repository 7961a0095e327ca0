/-
# Bpf2Socks.Tc.Fragments — later fragments follow their first fragment.

Only the first fragment of a datagram carries ports.  Ingress decides it as it decides any packet,
and leaves a record of the verdict for the other fragments, which look it up by the datagram's key.
A record may be evicted at any time; a later fragment without one is dropped.

A `History` is a run together with the ingress packets it has seen and what became of them.
`Faithful` ties each record to the first fragment that left it.  The record is written before the
packet is, so a first fragment that is dropped because its own rewrite fails has left a record too,
and its datagram's other fragments are still sent to the token.
-/
import Bpf2Socks.Tc.Readmission
import Mathlib.Data.List.Pairwise

namespace Bpf2Socks.Tc

open Function (update update_self update_of_ne)
open Lib (Act Prog)
open Lib.Act (keeps_pure keeps_get keeps_ask keeps_modify keeps_ite)

/-! ## Fragments by their headers -/

/-- The key of a first fragment of a TCP or UDP datagram. -/
def firstFragment (skb : Skb) : Option FragmentKey :=
  let d := skb.data
  if be16 d 12 = 0x0800 then
    if isTransport (byteAt d 23) ∧ be16 d 20 &&& 0x3fff &&& 0x1fff = 0 ∧ be16 d 20 &&& 0x3fff ≠ 0 then
      some (fragmentKey4 skb)
    else none
  else if be16 d 12 = 0x86dd then
    if byteAt d 20 = 44 ∧ isTransport (byteAt d 54) ∧ be16 d 56 &&& 0xfff8 = 0 then
      some (fragmentKey6 skb)
    else none
  else none

/-- The key of a later fragment of a TCP or UDP datagram. -/
def laterFragment (skb : Skb) : Option FragmentKey :=
  let d := skb.data
  if be16 d 12 = 0x0800 then
    if isTransport (byteAt d 23) ∧ be16 d 20 &&& 0x3fff &&& 0x1fff ≠ 0 then some (fragmentKey4 skb)
    else none
  else if be16 d 12 = 0x86dd then
    if byteAt d 20 = 44 ∧ isTransport (byteAt d 54) ∧ be16 d 56 &&& 0xfff8 ≠ 0 then
      some (fragmentKey6 skb)
    else none
  else none

/-- The destination address in a packet of the family. -/
def destinationAddress (family : UInt8) (skb : Skb) : List UInt8 :=
  if family = afInet then slice skb.data ip4Destination 4 else slice skb.data ip6Destination 16

section Headers

variable {c : RuntimeControl} {skb : Skb} {key : FragmentKey}

/-- A later fragment is malformed or follows its key. -/
theorem kind_laterFragment (h : laterFragment skb = some key) :
    kind c skb = .dropped ∨ kind c skb = .later key := by
  dsimp only [laterFragment] at h
  unfold kind
  split
  · exact .inl rfl
  split_ifs at h with h4 hl h6 hl
  · cases h
    rw [if_pos h4]
    split
    · exact .inl rfl
    dsimp only [kind4]
    split
    · exact .inl rfl
    rw [if_pos hl.2, if_pos hl.1]
    exact .inr rfl
  · cases h
    rw [if_neg h4, if_pos h6]
    split
    · exact .inl rfl
    dsimp only [kind6]
    split
    · exact .inl rfl
    rw [if_neg (not_not.mpr hl.1)]
    split
    · exact .inl rfl
    simp only [hl.2.1, Bool.not_true, Bool.false_eq_true, ↓reduceIte]
    rw [if_pos hl.2.2]
    exact .inr rfl

/-- Where the ports of a packet may stand. -/
structure FlowShape (e : Endpoints) (l4 : Nat) : Prop where
  l4_v4 : e.family = afInet → 34 ≤ l4
  l4_v6 : e.family ≠ afInet → 54 ≤ l4

theorem kind4_flow {e : Endpoints} {l4 : Nat} {fragment : Option FragmentKey}
    (hv : be16 skb.data 12 = 0x0800) (h : kind4 skb = .flow e l4 fragment) :
    e.family = afInet ∧ 34 ≤ l4 ∧
      ∀ key, fragment = some key → firstFragment skb = some key ∧ key.family = afInet := by
  dsimp only [kind4] at h
  split_ifs at h with hver hlater _ _ hp _ hfrag
  all_goals
    obtain ⟨rfl, rfl, rfl⟩ := Kind.flow.inj h
    rw [not_or, not_lt] at hver
    refine ⟨rfl, by show 34 ≤ 14 + _; omega, fun key hkey => ?_⟩
    cases hkey
  have hp' : isTransport (byteAt skb.data 23) = true := by simpa using hp
  refine ⟨?_, rfl⟩
  dsimp only [firstFragment]
  rw [if_pos hv, if_pos ⟨hp', not_not.mp hlater, hfrag⟩]

theorem kind6Transport_flow {e : Endpoints} {l4 l4' : Nat} {fragment f : Option FragmentKey}
    {protocol : UInt8} (h : kind6Transport c skb protocol l4' f = .flow e l4 fragment) :
    e.family = afInet6 ∧ l4 = l4' ∧ fragment = f := by
  unfold kind6Transport at h
  split_ifs at h
  obtain ⟨rfl, rfl, rfl⟩ := Kind.flow.inj h
  exact ⟨rfl, rfl, rfl⟩

theorem kind6Transport_unserved {l4' : Nat} {fragment f : Option FragmentKey} {protocol : UInt8}
    (h : kind6Transport c skb protocol l4' f = .unserved fragment) : fragment = f := by
  unfold kind6Transport at h
  split_ifs at h
  exact (Kind.unserved.inj h).symm

theorem firstFragment_six (hv : be16 skb.data 12 = 0x86dd) (hnf : ¬byteAt skb.data 20 ≠ 44)
    (hp : ¬(!isTransport (byteAt skb.data 54)) = true) (hoff : ¬be16 skb.data 56 &&& 0xfff8 ≠ 0) :
    firstFragment skb = some (fragmentKey6 skb) := by
  have hne : ¬be16 skb.data 12 = 0x0800 := by rw [hv]; decide
  dsimp only [firstFragment]
  rw [if_neg hne, if_pos hv, if_pos ⟨not_not.mp hnf, by simpa using hp, not_not.mp hoff⟩]

/-- The record a packet leaves is under the key of the first fragment it is. -/
theorem kind6_flow {e : Endpoints} {l4 : Nat} {fragment : Option FragmentKey}
    (hv : be16 skb.data 12 = 0x86dd) (h : kind6 c skb = .flow e l4 fragment) :
    e.family = afInet6 ∧ 54 ≤ l4 ∧
      ∀ key, fragment = some key → firstFragment skb = some key ∧ key.family = afInet6 := by
  dsimp only [kind6] at h
  split_ifs at h with hver hnf _ hp hoff
  · obtain ⟨hf, rfl, rfl⟩ := kind6Transport_flow h
    exact ⟨hf, le_refl _, fun _ h => nomatch h⟩
  · obtain ⟨hf, rfl, rfl⟩ := kind6Transport_flow h
    refine ⟨hf, by omega, fun key hkey => ?_⟩
    cases hkey
    exact ⟨firstFragment_six hv hnf hp hoff, rfl⟩

theorem kind_flow {e : Endpoints} {l4 : Nat} {fragment : Option FragmentKey}
    (h : kind c skb = .flow e l4 fragment) :
    FlowShape e l4 ∧
      ∀ key, fragment = some key → firstFragment skb = some key ∧ key.family = e.family := by
  unfold kind at h
  split_ifs at h with _ h4 _ h6
  · obtain ⟨hf, hl, hk⟩ := kind4_flow h4 h
    rw [hf]
    exact ⟨⟨fun _ => hl, fun hne => absurd hf hne⟩, hk⟩
  · obtain ⟨hf, hl, hk⟩ := kind6_flow h6 h
    rw [hf]
    refine ⟨⟨fun he => ?_, fun _ => hl⟩, hk⟩
    rw [hf] at he
    exact absurd he (by decide)

theorem kind_unserved {fragment : Option FragmentKey} (h : kind c skb = .unserved fragment) :
    ∀ key, fragment = some key → firstFragment skb = some key := by
  unfold kind at h
  split_ifs at h with _ h4 _ h6
  · dsimp only [kind4] at h
    split_ifs at h
  · dsimp only [kind6] at h
    split_ifs at h with hver hnf _ hp hoff
    · rw [kind6Transport_unserved h]
      exact fun _ h => nomatch h
    · rw [kind6Transport_unserved h]
      intro key hkey
      cases hkey
      exact firstFragment_six h6 hnf hp hoff

end Headers

/-! ## What code leaves of the records -/

/-- Records were at most lost, and flows got tokens of sixteen bytes only. -/
structure Fewer (s s' : State) : Prop where
  fragments : ∀ k, s'.fragments k = s.fragments k ∨ s'.fragments k = none
  forward : ∀ o t, s'.originalToToken o = some t →
    s.originalToToken o = some t ∨ t.tokenAddr.length = 16

/-- The same, and the packet is as it was. -/
structure Drifts (s s' : State) : Prop extends Fewer s s' where
  skb : s'.skb = s.skb

instance : IgnoresPacket Fewer where
  skb _ _ := ⟨fun _ => .inl rfl, fun _ _ h => .inl h⟩
  refl _ := ⟨fun _ => .inl rfl, fun _ _ h => .inl h⟩
  trans s s' s'' h h' := by
    refine ⟨fun k => ?_, fun o t ht => ?_⟩
    · rcases h'.fragments k with hk | hk
      · rw [hk]
        exact h.fragments k
      · exact .inr hk
    · rcases h'.forward o t ht with ht | ht
      · exact h.forward o t ht
      · exact .inr ht

instance : IsPreorder State Drifts where
  refl s := ⟨refl_of Fewer s, rfl⟩
  trans _ _ _ h h' := ⟨trans_of Fewer h.toFewer h'.toFewer, h'.skb.trans h.skb⟩

/-- Every token in the forward map has its sixteen bytes. -/
def Sized (s : State) : Prop := ∀ o t, s.originalToToken o = some t → t.tokenAddr.length = 16

section Operations

variable {s s' : State} {hash : OriginalKey → UInt32 → UInt32} {c : RuntimeControl}

theorem Sized.fewer (h : Sized s) (hd : Fewer s s') : Sized s' := fun o t ht =>
  (hd.forward o t ht).elim (h o t) id

theorem drifts_vanish (s : State) (v : Vanish) : Drifts s (s.vanish v) := by
  cases v with
  | forward key =>
      refine ⟨⟨fun _ => .inl rfl, fun o t ht => .inl ?_⟩, rfl⟩
      have ht' : update s.originalToToken key none o = some t := ht
      by_cases hk : o = key
      · subst hk
        rw [update_self] at ht'
        cases ht'
      · rwa [update_of_ne hk] at ht'
  | reverse key => exact ⟨⟨fun _ => .inl rfl, fun _ _ h => .inl h⟩, rfl⟩
  | bridge key => exact ⟨⟨fun _ => .inl rfl, fun _ _ h => .inl h⟩, rfl⟩
  | fragment key =>
      refine ⟨⟨fun k => ?_, fun _ _ h => .inl h⟩, rfl⟩
      by_cases hk : k = key
      · subst hk
        exact .inr (update_self ..)
      · exact .inl (update_of_ne hk ..)

theorem preempt_drifts : Act.Keeps (admissible Anything) Drifts preempt :=
  (keeps_ask _).bind fun gone => keeps_modify fun s => Act.foldl_of_step drifts_vanish gone s

variable {K V : Type} {t : Table K V}

theorem Table.update_drifts (key : K) (value : V) (noexist : Bool)
    (h : ∀ s, Drifts s (t.put s key (some value))) :
    Act.Keeps (admissible Anything) Drifts (t.update key value noexist) :=
  preempt_drifts.bind fun _ => (keeps_ask _).bind fun _ => keeps_get.bind fun _ =>
    keeps_ite (keeps_pure _) ((keeps_modify h).bind fun _ => keeps_pure _)

theorem Table.delete_drifts (key : K) (h : ∀ s, Drifts s (t.put s key none)) :
    Act.Keeps (admissible Anything) Drifts (t.delete key) :=
  preempt_drifts.bind fun _ => keeps_modify h

theorem Table.lookup_drifts (key : K) :
    Prog.Sat (admissible Anything) (fun s' r => Drifts s s' ∧ r = t.entry s' key)
      (t.lookup key s) :=
  (preempt_drifts s).bind fun _ _ h => ⟨h, rfl⟩

theorem drifts_putBridge (key : TokenKey) (value : Option OriginalDst) (s : State) :
    Drifts s (bridgeTable.put s key value) := ⟨⟨fun _ => .inl rfl, fun _ _ h => .inl h⟩, rfl⟩

theorem drifts_putReverse (key : ReverseKey) (value : Option OriginalValue) (s : State) :
    Drifts s (reverseTable.put s key value) := ⟨⟨fun _ => .inl rfl, fun _ _ h => .inl h⟩, rfl⟩

theorem drifts_putForward {o : OriginalKey} {token : TokenValue} (h : token.tokenAddr.length = 16)
    (s : State) : Drifts s (forwardTable.put s o (some token)) := by
  refine ⟨⟨fun _ => .inl rfl, fun o' t ht => ?_⟩, rfl⟩
  have ht' : update s.originalToToken o (some token) o' = some t := ht
  by_cases hk : o' = o
  · subst hk
    rw [update_self] at ht'
    cases ht'
    exact .inr h
  · rw [update_of_ne hk] at ht'
    exact .inl ht'

/-- Each attempt drifts, and a token it reserves has its sixteen bytes. -/
theorem attemptToken_drifts (o : OriginalKey) (attempt : UInt32) :
    Prog.Sat (admissible Anything)
      (fun s' r => Drifts s s' ∧ ∀ token, r = .reserved token → token.tokenAddr.length = 16)
      (attemptToken hash o c attempt s) := by
  unfold attemptToken
  rcases hcand : tokenCandidate hash o c attempt with _ | addr
  · exact ⟨refl_of Drifts s, nofun⟩
  have hlen : (TokenValue.mk addr c.bridgePort c.generation).tokenAddr.length = 16 :=
    have hcandidate : Candidate hash c o ⟨addr, c.bridgePort, c.generation⟩ :=
      ⟨attempt, addr, hcand, rfl⟩
    hcandidate.tokenAddr_length
  have hput := drifts_putBridge (fillBridgeKey o ⟨addr, c.bridgePort, c.generation⟩)
  have hputR := drifts_putReverse (fillReverseKey o ⟨addr, c.bridgePort, c.generation⟩)
  refine (Table.update_drifts _ _ _ (hput _) s).bind fun s₁ r h₁ => ?_
  refine Act.sat_ite (fun _ => ⟨h₁, nofun⟩) fun _ => ?_
  intro now _
  refine (Table.update_drifts _ _ _ (hputR _) s₁).bind fun s₂ r h₂ => ?_
  have h₂' := trans_of Drifts h₁ h₂
  refine Act.sat_ite (fun _ => ?_) fun _ => ?_
  · exact (Table.delete_drifts _ (hput _) s₂).bind fun s₃ _ h₃ =>
      ⟨trans_of Drifts h₂' h₃, nofun⟩
  refine (Table.update_drifts _ _ _ (drifts_putForward hlen) s₂).bind fun s₃ r h₃ => ?_
  have h₃' := trans_of Drifts h₂' h₃
  refine Act.sat_ite (fun _ => ?_) fun _ => ⟨h₃', fun token ht => by cases ht; exact hlen⟩
  refine (Table.delete_drifts _ (hputR _) s₃).bind fun s₄ _ h₄ => ?_
  exact (Table.delete_drifts _ (hput _) s₄).bind fun s₅ _ h₅ =>
    ⟨trans_of Drifts (trans_of Drifts h₃' h₄) h₅, nofun⟩

theorem allocateFrom_drifts (o : OriginalKey) (left : Nat) :
    Prog.Sat (admissible Anything)
      (fun s' r => Drifts s s' ∧ ∀ token, r = some token → token.tokenAddr.length = 16)
      (allocateFrom hash o c left s) := by
  induction left generalizing s with
  | zero => exact ⟨refl_of Drifts s, nofun⟩
  | succ left ih =>
      refine (attemptToken_drifts o _).bind fun s₁ r ⟨h₁, hr⟩ => ?_
      cases r with
      | reserved token => exact ⟨h₁, fun t ht => by cases ht; exact hr _ rfl⟩
      | failed => exact ⟨h₁, nofun⟩
      | next => exact ih.mono fun s₂ r h => ⟨trans_of Drifts h₁ h.1, h.2⟩

theorem findReservedToken_drifts (o : OriginalKey) (h : Sized s) :
    Prog.Sat (admissible Anything)
      (fun s' r => Drifts s s' ∧ ∀ token, r = some token → token.tokenAddr.length = 16)
      (findReservedToken o c s) := by
  refine (Table.lookup_drifts o).bind fun s₁ r ⟨h₁, hr⟩ => ?_
  cases r with
  | none => exact ⟨h₁, nofun⟩
  | some token =>
      have hlen : token.tokenAddr.length = 16 := h.fewer h₁.toFewer o token hr.symm
      exact Act.sat_ite (fun _ => ⟨h₁, nofun⟩) fun _ => ⟨h₁, fun t ht => by cases ht; exact hlen⟩

/-- Admitting a flow drifts, and a token it comes to has its sixteen bytes. -/
theorem admitFlow_drifts (o : OriginalKey) (proxied syn : Bool) (h : Sized s) :
    Prog.Sat (admissible Anything)
      (fun s' r => Drifts s s' ∧ ∀ token, r = .rewrite token → token.tokenAddr.length = 16)
      (admitFlow hash c o proxied syn s) := by
  refine (findReservedToken_drifts o h).bind fun s₁ r ⟨h₁, hr⟩ => ?_
  cases r with
  | none =>
      refine Act.sat_ite (fun _ => ⟨h₁, nofun⟩) fun _ => ?_
      refine (allocateFrom_drifts o _).bind fun s₂ r ⟨h₂, hr⟩ => ?_
      cases r with
      | none => exact ⟨trans_of Drifts h₁ h₂, nofun⟩
      | some token => exact ⟨trans_of Drifts h₁ h₂, fun t ht => by cases ht; exact hr _ rfl⟩
  | some token =>
      refine Act.sat_ite (fun _ => ⟨h₁, fun t ht => by cases ht; exact hr _ rfl⟩) fun _ => ?_
      refine (Table.update_drifts _ _ _ (drifts_putBridge _ _) s₁).bind fun s₂ r h₂ => ?_
      exact Act.sat_ite (fun _ => ⟨trans_of Drifts h₁ h₂, nofun⟩) fun _ =>
        ⟨trans_of Drifts h₁ h₂, fun t ht => by cases ht; exact hr _ rfl⟩

end Operations

/-! ## The record of a first fragment -/

/-- The token a flow was admitted with. -/
def Admission.token : Admission → Option (List UInt8)
  | .rewrite token => some token.tokenAddr
  | _ => none

/-- What ingress does with a packet of a kind, and the token of its flow if it is sent to one. -/
def handleAdmitting (hash : OriginalKey → UInt32 → UInt32) (c : RuntimeControl) (s : State) :
    Kind → Code (Verdict × Option (List UInt8))
  | .flow e l4 fragment => do
      let admission ← admitFlow hash c (flowOf s.skb.ifindex e) (policyAdmits c s e)
        (e.protocol = protoTcp ∧ isTcpSyn s.skb l4)
      let v ← finishIngress c fragment (fun token => rewriteTo c s.skb e l4 token.tokenAddr) admission
      pure (v, admission.token)
  | k => do
      let v ← handle hash c s k
      pure (v, none)

/-- The ingress classifier, with the token of the flow beside its verdict. -/
def classifyAdmitting (hash : OriginalKey → UInt32 → UInt32) (c : RuntimeControl) :
    Code (Verdict × Option (List UInt8)) := do
  if c.enabled = 0 then pure (.pipe, none)
  else do
    let pulled ← ask .pullData
    if pulled = false then pure (.pipe, none)
    else do
      let s ← Act.get
      handleAdmitting hash c s (kind c s.skb)

theorem handle_admitting (hash : OriginalKey → UInt32 → UInt32) (c : RuntimeControl) (s : State)
    (k : Kind) : handle hash c s k s = (handleAdmitting hash c s k s).bind fun s' r => .ret s' r.1 := by
  have hpair : ∀ p : Prog Sys.Answer State Verdict,
      p = (p.bind fun s' v => .ret s' (v, (none : Option (List UInt8)))).bind fun s' r => .ret s' r.1 := by
    intro p
    rw [Prog.bind_assoc]
    exact p.bind_ret.symm
  cases k with
  | flow e l4 fragment =>
      show handleFlow hash c s e l4 fragment s = _
      simp only [handleFlow, handleAdmitting, Act.bind_run, Prog.bind_assoc]
      congr 1
      funext s₁ admission
      exact (Prog.bind_ret _).symm
  | _ => exact hpair _

/-- The token beside the verdict changes nothing. -/
theorem classify_admitting (hash : OriginalKey → UInt32 → UInt32) (c : RuntimeControl) (s : State) :
    classify hash c .ingress s = (classifyAdmitting hash c s).bind fun s' r => .ret s' r.1 := by
  unfold classify classifyAdmitting
  split
  · rfl
  show Prog.ask s Sys.pullData _ = Prog.ask s Sys.pullData _
  congr 1
  funext pulled
  cases pulled with
  | false => rfl
  | true =>
      show classifyPulled hash c .ingress s = _
      rw [classifyPulled_ingress]
      exact handle_admitting hash c s (kind c s.skb)

/-- An ingress packet, what became of it, and the token of its flow if it was sent to one. -/
structure Passage where
  packet : Skb
  left : Skb
  verdict : Verdict
  token : Option (List UInt8)

/-- The bytes of a token that a packet of the family carries. -/
def tokenBytes (family : UInt8) (token : List UInt8) : List UInt8 :=
  if family = afInet then token.take 4 else token

/-- The record says what became of the packet: it passed, or it was to be rewritten to the token and
carries it unless it was dropped in the rewrite. -/
def Tells (family : UInt8) (value : FragmentValue) (p : Passage) : Prop :=
  (value.verdict = .pass ∧ p.verdict = .pipe) ∨
    (value.verdict = .rewrite ∧ value.tokenAddr.length = 16 ∧ p.verdict ≠ .pipe ∧
      p.token = some value.tokenAddr ∧
      (p.verdict = .ok → destinationAddress family p.left = tokenBytes family value.tokenAddr))

/-- What a packet leaves of the records: some may be gone, and it may have left its own. -/
structure Records (s s' : State) (v : Verdict) (token : Option (List UInt8)) : Prop where
  fragments : ∀ k, s'.fragments k = s.fragments k ∨ s'.fragments k = none ∨
    ∃ value, s'.fragments k = some value ∧ firstFragment s.skb = some k ∧
      Tells k.family value ⟨s.skb, s'.skb, v, token⟩
  forward : ∀ o t, s'.originalToToken o = some t →
    s.originalToToken o = some t ∨ t.tokenAddr.length = 16

/-- Only the packet changed. -/
structure SameMaps (s s' : State) : Prop where
  fragments : s'.fragments = s.fragments
  forward : s'.originalToToken = s.originalToToken

instance : IgnoresPacket SameMaps where
  skb _ _ := ⟨rfl, rfl⟩
  refl _ := ⟨rfl, rfl⟩
  trans _ _ _ h h' := ⟨h'.fragments.trans h.fragments, h'.forward.trans h.forward⟩

section Packets

variable {inside : Vanish → Prop} {s s' : State} {hash : OriginalKey → UInt32 → UInt32}
  {c : RuntimeControl} {v : Verdict} {token : Option (List UInt8)}

theorem Fewer.records (h : Fewer s s') : Records s s' v token :=
  ⟨fun k => (h.fragments k).imp_right .inl, h.forward⟩

theorem SameMaps.fewer (h : SameMaps s s') : Fewer s s' :=
  ⟨fun k => .inl (by rw [h.fragments]), fun o t ht => .inl (by rw [← h.forward, ht])⟩

/-- A packet that is rewritten to a token carries it. -/
theorem rewriteTo_destination {skb : Skb} {e : Endpoints} {l4 : Nat} {token : List UInt8}
    (hshape : FlowShape e l4) (hlen : token.length = 16) :
    Prog.Sat (admissible inside)
      (fun s' v => v ≠ .pipe ∧ (v = .ok →
        destinationAddress e.family s'.skb = tokenBytes e.family token))
      (rewriteTo c skb e l4 token s) := by
  by_cases hf : e.family = afInet
  · have hl := hshape.l4_v4 hf
    unfold rewriteTo
    rw [if_pos hf]
    have htake : (token.take 4).length = 4 := by simp [hlen]
    refine (rewriteIpv4_sat htake rfl (by show 30 + 4 ≤ l4 + 2; omega)).mono fun s' v hv => ?_
    rcases hv with rfl | ⟨rfl, hr⟩
    · exact ⟨nofun, nofun⟩
    · refine ⟨nofun, fun _ => ?_⟩
      rw [destinationAddress, if_pos hf, tokenBytes, if_pos hf]
      have ha := hr.address
      rwa [htake] at ha
  · have hl := hshape.l4_v6 hf
    unfold rewriteTo
    rw [if_neg hf]
    refine (rewriteIpv6_sat hlen rfl (by show 38 + 16 ≤ l4 + 2; omega)).mono fun s' v hv => ?_
    rcases hv with rfl | ⟨rfl, hr⟩
    · exact ⟨nofun, nofun⟩
    · refine ⟨nofun, fun _ => ?_⟩
      rw [destinationAddress, if_neg hf, tokenBytes, if_neg hf]
      have ha := hr.address
      rwa [hlen] at ha

/-- What `remember_fragment` leaves: records may be gone, and its own may be there. -/
theorem rememberFragment_drifts (key : FragmentKey) (token : Option (List UInt8))
    (verdict : FragmentVerdict) (generation : UInt32) :
    Prog.Sat (admissible Anything)
      (fun s' _ => (∀ k, s'.fragments k = s.fragments k ∨ s'.fragments k = none ∨
          (k = key ∧ s'.fragments k = some ⟨copyBytes (token.getD []) 16, generation, verdict⟩)) ∧
        (∀ o t, s'.originalToToken o = some t →
          s.originalToToken o = some t ∨ t.tokenAddr.length = 16) ∧ s'.skb = s.skb)
      (rememberFragment key token verdict generation s) := by
  refine Prog.Sat.bind (m := fun s' _ => _) ?_ fun s' _ h => h
  refine (preempt_drifts s).bind fun s₁ _ h₁ => ?_
  intro room _
  refine Act.sat_ite (fun _ => ?_) fun _ => ?_
  · exact ⟨fun k => (h₁.fragments k).imp_right .inl, h₁.forward, h₁.skb⟩
  · refine ⟨fun k => ?_, h₁.forward, h₁.skb⟩
    by_cases hk : k = key
    · subst hk
      exact .inr (.inr ⟨rfl, update_self ..⟩)
    · have hput : (fragmentTable.put s₁ key (some ⟨copyBytes (token.getD []) 16, generation,
          verdict⟩)).fragments k = s₁.fragments k := update_of_ne hk ..
      show (fragmentTable.put s₁ key _).fragments k = _ ∨ (fragmentTable.put s₁ key _).fragments k = _ ∨ _
      rw [hput]
      exact (h₁.fragments k).imp_right .inl

/-- A copy of sixteen bytes is the bytes. -/
theorem copyBytes_sixteen {token : List UInt8} (h : token.length = 16) :
    copyBytes token 16 = token := by
  have htake : token.take 16 = token := List.take_of_length_le (by omega)
  rw [copyBytes, htake, List.take_left' h]

/-- The end of an ingress program: the record tells what becomes of the packet. -/
theorem finishIngress_records {fragment : Option FragmentKey} {rewrite : TokenValue → Code Verdict}
    {family : UInt8}
    (hfirst : ∀ key, fragment = some key → firstFragment s.skb = some key ∧ key.family = family)
    (hkeeps : ∀ token, Act.Keeps (admissible Anything) SameMaps (rewrite token))
    (hrw : ∀ token s₁, token.tokenAddr.length = 16 → Prog.Sat (admissible Anything)
      (fun s' v => v ≠ .pipe ∧ (v = .ok →
        destinationAddress family s'.skb = tokenBytes family token.tokenAddr)) (rewrite token s₁))
    (admission : Admission)
    (hadm : ∀ token, admission = .rewrite token → token.tokenAddr.length = 16) :
    Prog.Sat (admissible Anything) (fun s' v => Records s s' v admission.token)
      (finishIngress c fragment rewrite admission s) := by
  cases admission with
  | pass =>
      cases fragment with
      | none => exact (refl_of Fewer s).records
      | some key =>
          refine (rememberFragment_drifts key none .pass c.generation).bind fun s₁ _ h₁ => ?_
          refine ⟨fun k => ?_, h₁.2.1⟩
          refine (h₁.1 k).imp_right (Or.imp_right fun ⟨hk, hv⟩ => ?_)
          subst hk
          exact ⟨_, hv, (hfirst k rfl).1, .inl ⟨rfl, rfl⟩⟩
  | unpublished => exact (refl_of Fewer s).records
  | rewrite token =>
      have hlen := hadm token rfl
      cases fragment with
      | none => exact (hkeeps token s).mono fun s' v h => h.fewer.records
      | some key =>
          refine (rememberFragment_drifts key (some token.tokenAddr) .rewrite c.generation).bind
            fun s₁ _ h₁ => ?_
          refine ((hkeeps token s₁).and (hrw token s₁ hlen)).mono fun s₂ v ⟨h₂, hv⟩ => ?_
          refine ⟨fun k => ?_, fun o t ht => h₁.2.1 o t (by rw [← h₂.forward, ht])⟩
          rw [h₂.fragments]
          refine (h₁.1 k).imp_right (Or.imp_right fun ⟨hk, hval⟩ => ?_)
          subst hk
          obtain ⟨hk, hfam⟩ := hfirst k rfl
          have hcopy : copyBytes ((some token.tokenAddr).getD []) 16 = token.tokenAddr := by
            rw [Option.getD_some, copyBytes_sixteen hlen]
          refine ⟨_, hval, hk, .inr ⟨rfl, copyBytes_length _ _, hv.1, congrArg some hcopy.symm,
            fun hok => ?_⟩⟩
          rw [hfam, hcopy]
          exact hv.2 hok

/-- The record a later fragment finds was there before. -/
theorem fragmentRecord_drifts (key : FragmentKey) :
    Prog.Sat (admissible Anything)
      (fun s' r => Drifts s s' ∧ ∀ value, r = some value → s.fragments key = some value)
      (fragmentRecord key c s) := by
  refine (Table.lookup_drifts key).bind fun s₁ r ⟨h₁, hr⟩ => ?_
  cases r with
  | none => exact ⟨h₁, nofun⟩
  | some value =>
      refine Act.sat_ite (fun _ => ⟨h₁, nofun⟩) fun _ => ⟨h₁, fun value' hv => ?_⟩
      cases hv
      have hval : s₁.fragments key = some value := hr.symm
      rcases h₁.fragments key with hk | hk
      · rw [← hk, hval]
      · rw [hk] at hval
        cases hval

/-- A later fragment leaves the records alone. -/
theorem followFirst_fewer (skb : Skb) (key : FragmentKey) :
    Act.Keeps (admissible Anything) Fewer (followFirst c skb key) := by
  refine Act.Keeps.bind (fun s => (fragmentRecord_drifts key).mono fun _ _ h => h.1.toFewer) ?_
  intro r
  cases r with
  | none => exact keeps_pure _
  | some value =>
      exact keeps_ite (keeps_pure _) (redirectLater_keeps _ _ _)

/-- **An ingress packet** leaves a record of itself at most. -/
theorem classify_records (h : Sized s) :
    Prog.Sat (admissible Anything) (fun s' r => Records s s' r.1 r.2)
      (classifyAdmitting hash c s) := by
  have hrefl : ∀ v token, Records s s v token := fun v token => (refl_of Fewer s).records
  refine Act.sat_ite (fun _ => hrefl _ _) fun _ => ?_
  intro pulled _
  refine Act.sat_ite (fun _ => hrefl _ _) fun _ => ?_
  show Prog.Sat _ _ (handleAdmitting hash c s (kind c s.skb) s)
  rcases hk : kind c s.skb with _ | _ | key | fragment | ⟨e, l4, fragment⟩
  · exact hrefl _ _
  · exact hrefl _ _
  · refine Prog.Sat.bind (m := fun s' _ => Fewer s s') (followFirst_fewer _ _ s) fun s₁ v h₁ => ?_
    exact h₁.records
  · refine Prog.Sat.bind (m := fun s' v => Records s s' v none) ?_ fun _ _ h => h
    show Prog.Sat _ _ (finishIngress c fragment (fun _ => pure .pipe) .pass s)
    cases fragment with
    | none => exact hrefl _ _
    | some key =>
        refine (rememberFragment_drifts key none .pass c.generation).bind fun s₁ _ h₁ => ?_
        refine ⟨fun k => ?_, h₁.2.1⟩
        refine (h₁.1 k).imp_right (Or.imp_right fun ⟨hkey, hv⟩ => ?_)
        subst hkey
        exact ⟨_, hv, kind_unserved hk k rfl, .inl ⟨rfl, rfl⟩⟩
  · obtain ⟨hshape, hfirst⟩ := kind_flow hk
    refine (admitFlow_drifts _ _ _ h).bind fun s₁ r ⟨h₁, hr⟩ => ?_
    rw [← h₁.skb] at hfirst
    refine (finishIngress_records hfirst (fun _ => rewriteTo_keeps _ _ _ _)
      (fun token s₂ hlen => rewriteTo_destination hshape hlen) r hr).bind fun s₂ v h₂ => ?_
    refine ⟨fun k => ?_, fun o t ht => ?_⟩
    · rcases h₂.fragments k with hk | hk | hk
      · rw [hk]
        exact (h₁.fragments k).imp_right .inl
      · exact .inr (.inl hk)
      · rw [h₁.skb] at hk
        exact .inr (.inr hk)
    · exact (h₂.forward o t ht).elim (h₁.forward o t) .inr

theorem findOriginal_fewer (key : ReverseKey) :
    Act.Keeps (admissible Anything) Fewer (findOriginal key c) := by
  refine Act.Keeps.bind (fun s => (Table.lookup_drifts key).mono fun _ _ h => h.1.toFewer) ?_
  intro r
  cases r with
  | none => exact keeps_pure _
  | some value =>
      refine keeps_ite (keeps_pure _) ((keeps_ask _).bind fun now => ?_)
      exact (keeps_modify fun s => (drifts_putReverse _ _ s).toFewer).bind fun _ => keeps_pure _

/-- Egress leaves the records alone. -/
theorem classify_egress_fewer :
    Act.Keeps (admissible Anything) Fewer (classify hash c .egress) :=
  classify_egress_keeps findOriginal_fewer

/-- A later fragment that is redirected carries the token. -/
theorem redirectLater_destination {skb : Skb} {key : FragmentKey} {token : List UInt8}
    (hlen : token.length = 16) :
    Prog.Sat (admissible Anything)
      (fun s' v => v = .shot ∨ (v = .ok ∧
        destinationAddress key.family s'.skb = tokenBytes key.family token))
      (redirectLater skb key token s) := by
  by_cases hf : key.family = afInet
  · unfold redirectLater destinationAddress tokenBytes
    simp only [if_pos hf]
    have htake : (token.take 4).length = 4 := by simp [hlen]
    refine Prog.Sat.bind (m := fun s' r => r = true →
      slice s'.skb.data ip4Destination 4 = token.take 4) ?_ fun s₂ r hr => ?_
    · refine Prog.sat_true.bind fun s₁ r _ => Act.sat_ite (fun _ h => nomatch h) fun _ => ?_
      refine (skbStoreBytes_sat _ _).bind fun s₂ r hr =>
        Act.sat_ite (fun _ h => nomatch h) fun hnr _ => ?_
      obtain ⟨hl, hd⟩ := hr (by simpa using hnr)
      have hstored := @slice_storeBytes s₁.skb.data ip4Destination (token.take 4) (by omega)
      rw [htake] at hstored
      rw [hd, hstored]
    · exact Act.sat_ite (fun _ => .inl rfl) fun hnr => .inr ⟨rfl, hr (by simpa using hnr)⟩
  · unfold redirectLater destinationAddress tokenBytes
    simp only [if_neg hf]
    refine Prog.Sat.bind (m := fun s' r => r = true →
      slice s'.skb.data ip6Destination 16 = token) ?_ fun s₂ r hr => ?_
    · refine (skbStoreBytes_sat _ _).bind fun s₂ r hr =>
        Act.sat_ite (fun _ h => nomatch h) fun hnr _ => ?_
      obtain ⟨hl, hd⟩ := hr (by simpa using hnr)
      have hstored := @slice_storeBytes s.skb.data ip6Destination token (by omega)
      rw [hlen] at hstored
      rw [hd, hstored]
    · exact Act.sat_ite (fun _ => .inl rfl) fun hnr => .inr ⟨rfl, hr (by simpa using hnr)⟩

end Packets

/-! ## Histories -/

/-- The states of all runs from the empty maps, with the ingress packets of the run, the last one
first.  Entries of every map may go at any time. -/
inductive History (hash : OriginalKey → UInt32 → UInt32) (c : RuntimeControl) :
    List Passage → State → Prop where
  | start (cidr4 cidr6 : CidrMaps) (skb : Skb) : History hash c [] (initial cidr4 cidr6 skb)
  | ingress {h : List Passage} {s s' : State} (skb : Skb) (v : Verdict) (token : Option (List UInt8))
      (past : History hash c h s)
      (run : Prog.Out (admissible Anything) (classifyAdmitting hash c { s with skb := skb }) s'
        (v, token)) :
      History hash c (⟨skb, s'.skb, v, token⟩ :: h) s'
  | egress {h : List Passage} {s s' : State} (skb : Skb) (v : Verdict) (past : History hash c h s)
      (run : Prog.Out (admissible Anything) (classify hash c .egress { s with skb := skb }) s' v) :
      History hash c h s'
  | vanish {h : List Passage} {s : State} (v : Vanish) (past : History hash c h s) :
      History hash c h (s.vanish v)
  | policy {h : List Passage} {s : State} (cidr4 cidr6 : CidrMaps) (past : History hash c h s) :
      History hash c h { s with cidr4 := cidr4, cidr6 := cidr6 }

/-- Every record was left by a first fragment of the history, and tells what became of it. -/
def Faithful (h : List Passage) (s : State) : Prop :=
  ∀ key value, s.fragments key = some value →
    ∃ p ∈ h, firstFragment p.packet = some key ∧ Tells key.family value p

section Histories

variable {hash : OriginalKey → UInt32 → UInt32} {c : RuntimeControl} {h : List Passage}
  {s s' : State}

theorem Faithful.fewer (hs : Faithful h s) (hf : Fewer s s') : Faithful h s' := by
  intro key value hv
  rcases hf.fragments key with hk | hk
  · exact hs key value (hk ▸ hv)
  · rw [hk] at hv
    cases hv

theorem Faithful.records {v : Verdict} {token : Option (List UInt8)} (hs : Faithful h s)
    (hr : Records s s' v token) : Faithful (⟨s.skb, s'.skb, v, token⟩ :: h) s' := by
  intro key value hv
  rcases hr.fragments key with hk | hk | ⟨value', hk, hfirst, htells⟩
  · obtain ⟨p, hp, hrest⟩ := hs key value (hk ▸ hv)
    exact ⟨p, List.mem_cons_of_mem _ hp, hrest⟩
  · rw [hk] at hv
    cases hv
  · rw [hk] at hv
    cases hv
    exact ⟨_, List.mem_cons_self .., hfirst, htells⟩

/-- **Runs**: records are faithful in every history. -/
theorem faithful_history (hh : History hash c h s) : Faithful h s ∧ Sized s := by
  induction hh with
  | start cidr4 cidr6 skb => exact ⟨nofun, nofun⟩
  | @ingress h s s' skb v token past run ih =>
      have hsized : Sized { s with skb := skb } := ih.2
      have hfaith : Faithful h { s with skb := skb } := ih.1
      have hr := (classify_records hsized).out run
      exact ⟨hfaith.records hr, fun o t ht => (hr.forward o t ht).elim (ih.2 o t) id⟩
  | @egress h s s' skb v past run ih =>
      have hsized : Sized { s with skb := skb } := ih.2
      have hfaith : Faithful h { s with skb := skb } := ih.1
      have hf := (classify_egress_fewer _).out run
      exact ⟨hfaith.fewer hf, hsized.fewer hf⟩
  | @vanish h s v past ih =>
      have hf := (drifts_vanish s v).toFewer
      exact ⟨ih.1.fewer hf, ih.2.fewer hf⟩
  | policy cidr4 cidr6 past ih => exact ih

/-- How a later fragment may fare after the passage of its first fragment. -/
inductive Follows (key : FragmentKey) (p : Passage) (packet left : Skb) : Verdict → Prop where
  /-- It passes unchanged as the first fragment passed. -/
  | passes (first : p.verdict = .pipe) (same : left = packet) : Follows key p packet left .pipe
  /-- It is sent to the token of the first fragment's flow, where the first fragment is, unless that
  one was dropped while it was rewritten. -/
  | redirected (token : List UInt8) (first : p.verdict ≠ .pipe) (given : p.token = some token)
      (sent : destinationAddress key.family left = tokenBytes key.family token)
      (same : p.verdict = .ok →
        destinationAddress key.family left = destinationAddress key.family p.left) :
      Follows key p packet left .ok

/-- A later fragment is dropped or follows its first fragment. -/
theorem followFirst_sat {key : FragmentKey} {skb : Skb} (hs : Faithful h s) (hskb : s.skb = skb)
    (h6 : key.family = afInet ∨ flagSet c.flags runtimeIpv6 = true) :
    Prog.Sat (admissible Anything)
      (fun s' v => v = .shot ∨ ∃ p ∈ h, firstFragment p.packet = some key ∧
        Follows key p skb s'.skb v)
      (followFirst c skb key s) := by
  refine (fragmentRecord_drifts key).bind fun s₁ r hrecord => ?_
  obtain ⟨h₁, hr⟩ := hrecord
  cases r with
  | none =>
      refine .inl ?_
      rw [verdictUnseen, if_pos h6]
  | some value =>
      obtain ⟨p, hp, hfirst, htells⟩ := hs key value (hr value rfl)
      refine Act.sat_ite (fun hv => .inr ⟨p, hp, hfirst, ?_⟩) fun hv => ?_
      · rcases htells with ⟨-, hpass⟩ | ⟨hrw, -⟩
        · exact .passes hpass (h₁.skb.trans hskb)
        · exact absurd hrw hv
      · rcases htells with ⟨hpass, -⟩ | ⟨-, hlen, hne, hgiven, hok⟩
        · rw [hpass] at hv
          exact absurd (by simp) hv
        · refine (redirectLater_destination hlen).mono fun s₂ v hv => ?_
          rcases hv with rfl | ⟨rfl, hd⟩
          · exact .inl rfl
          · exact .inr ⟨p, hp, hfirst, .redirected value.tokenAddr hne hgiven hd fun hpok =>
              hd.trans (hok hpok).symm⟩

/-- Two passages of a history whose first fragments have distinct keys are the same if their keys
are. -/
theorem passage_unique {key : FragmentKey} {p q : Passage}
    (hd : (h.filterMap fun p => firstFragment p.packet).Nodup) (hp : p ∈ h) (hq : q ∈ h)
    (hpk : firstFragment p.packet = some key) (hqk : firstFragment q.packet = some key) : q = p := by
  have hpair := List.pairwise_filterMap.mp hd
  by_contra hne
  have hsymm : Std.Symm fun a a' : Passage => ∀ b, firstFragment a.packet = some b →
      ∀ b', firstFragment a'.packet = some b' → b ≠ b' :=
    ⟨fun _ _ h b hb b' hb' he => h b' hb' b hb he.symm⟩
  exact hpair.forall hq hp hne key hqk key hpk rfl

theorem flagSet_startControl (enableDnsHijack bypassDirect : Bool) :
    flagSet ((if true then runtimeIpv6 else 0) ||| (if enableDnsHijack then runtimeDnsHijack else 0)
      ||| (if bypassDirect then runtimeBypassDirect else 0)) runtimeIpv6 = true := by
  revert enableDnsHijack bypassDirect
  decide

/-- Every run of the classifier is a passage of a history. -/
theorem History.classified (past : History hash c h s) {skb : Skb} {v : Verdict}
    (run : Prog.Out (admissible Anything) (classify hash c .ingress { s with skb := skb }) s' v) :
    ∃ token, History hash c (⟨skb, s'.skb, v, token⟩ :: h) s' := by
  rw [classify_admitting] at run
  obtain ⟨s₁, r, hrun, hret⟩ := Prog.out_bind run
  cases hret with
  | ret => exact ⟨r.2, .ingress skb r.1 r.2 past hrun⟩

/-- **Later fragments follow their first fragment**, in every run of any datagrams with distinct keys
and with any records evicted.  Once its headers can be read, a later fragment is dropped, or the first
fragment of its datagram has been seen and it fares as that one did: it passes unchanged only if the
first fragment passed, and is otherwise sent to the token the first fragment's flow was given.  Where
`skb_pull_data` fails it passes unchanged. -/
theorem later_follows_first (hash : OriginalKey → UInt32 → UInt32)
    (enableIpv6 enableDnsHijack bypassDirect : Bool) (listenPort : UInt16)
    (tokenIpv6 : Fin 16 → UInt8) (c : RuntimeControl)
    (hc : c = controlOf enableIpv6 enableDnsHijack bypassDirect listenPort tokenIpv6)
    (h : List Passage) (s : State) (hh : History hash c h s)
    (hd : (h.filterMap fun p => firstFragment p.packet).Nodup) (skb : Skb) (key : FragmentKey)
    (hl : laterFragment skb = some key) (h6 : key.family = afInet ∨ enableIpv6 = true) (s' : State)
    (v : Verdict) :
    (Prog.Out (admissible Anything) (classifyPulled hash c .ingress { s with skb := skb }) s' v →
      v = .shot ∨ ∃ p ∈ h, firstFragment p.packet = some key ∧
        (∀ q ∈ h, firstFragment q.packet = some key → q = p) ∧ Follows key p skb s'.skb v) ∧
    (Prog.Out unpulled (classify hash c .ingress { s with skb := skb }) s' v →
      v = .pipe ∧ s'.skb = skb) := by
  refine ⟨fun run => ?_, fun run => ?_⟩
  swap
  · obtain ⟨hv, hs⟩ := classify_unpulled.out run
    exact ⟨hv, congrArg State.skb hs⟩
  have hflag : enableIpv6 = true → flagSet c.flags runtimeIpv6 = true := by
    intro he
    rw [hc, he]
    exact flagSet_startControl enableDnsHijack bypassDirect
  rw [classifyPulled_ingress] at run
  obtain hk | hk : kind c skb = .dropped ∨ kind c skb = .later key := kind_laterFragment hl
  · rw [show kind c ({ s with skb := skb } : State).skb = .dropped from hk] at run
    cases run with
    | ret => exact .inl rfl
  · rw [show kind c ({ s with skb := skb } : State).skb = .later key from hk] at run
    have hfaith : Faithful h { s with skb := skb } := (faithful_history hh).1
    refine ((followFirst_sat hfaith rfl (h6.imp_right hflag)).out run).imp_right ?_
    rintro ⟨p, hp, hpk, hf⟩
    exact ⟨p, hp, hpk, fun q hq hqk => passage_unique hd hp hq hpk hqk, hf⟩

end Histories

/-! ### Two fragments -/

/-- The first fragment of a UDP datagram from `192.168.43.2:40000` to `8.8.8.8:53`. -/
def queryFirst : Skb :=
  { query with data := (query.data.take 20) ++ [0x20, 0] ++ query.data.drop 22 }

/-- Its second fragment. -/
def queryLater : Skb :=
  { query with data := (query.data.take 20) ++ [0, 1] ++ query.data.drop 22 }

/-- A first fragment of a TCP segment with eight bytes of its header, and the next fragment. -/
def tinyFirst : Skb :=
  { queryFirst with data := (queryFirst.data.take 23) ++ [6] ++ queryFirst.data.drop 24 }
@[inherit_doc tinyFirst] def tinyLater : Skb :=
  { queryLater with data := (queryLater.data.take 23) ++ [6] ++ queryLater.data.drop 24 }

/-- A packet comes to these maps and everything is granted. -/
def ingressOn (s : State) (skb : Skb) : Option (State × Verdict) :=
  Prog.exec untaken (quiet true) 0
    (classify hashOriginal sampleControl .ingress { s with skb := skb })

theorem ingressOn_out {s s' : State} {skb : Skb} {v : Verdict} (h : ingressOn s skb = some (s', v)) :
    Prog.Out (admissible Anything)
      (classify hashOriginal sampleControl .ingress { s with skb := skb }) s' v :=
  Prog.exec_out (fun s q r => untaken_admissible s q r) h

/-- The second fragment of the query after the first: it goes to the same token. -/
theorem queryLater_follows :
    ∃ s s' p, History hashOriginal sampleControl [p] s ∧ firstFragment p.packet ≠ none ∧
      Prog.Out (admissible Anything)
        (classifyPulled hashOriginal sampleControl .ingress { s with skb := queryLater }) s' .ok ∧
      p.verdict = .ok ∧ destinationAddress afInet s'.skb = destinationAddress afInet p.left := by
  have hrun : (ingressOn sampleStart queryFirst).bind (fun r =>
      (Prog.exec untaken (quiet true) 0 (classifyPulled hashOriginal sampleControl .ingress
        { r.1 with skb := queryLater })).map fun r' => (r.2, r'.2)) = some (.ok, .ok) := by
    decide +kernel
  obtain ⟨⟨s, v⟩, hfirst, hrest⟩ := Option.bind_eq_some_iff.mp hrun
  obtain ⟨⟨s', v'⟩, hlater, heq⟩ := Option.map_eq_some_iff.mp hrest
  obtain ⟨rfl, rfl⟩ := Prod.mk.inj heq
  have hout : Prog.Out (admissible Anything)
      (classifyPulled hashOriginal sampleControl .ingress { s with skb := queryLater }) s' .ok :=
    Prog.exec_out (fun s q r => untaken_admissible s q r) hlater
  have hstart : History hashOriginal sampleControl [] sampleStart := .start _ _ _
  obtain ⟨token, hhist⟩ := hstart.classified (ingressOn_out hfirst)
  have hkey : firstFragment queryFirst = some (fragmentKey4 queryFirst) := by decide +kernel
  have hnodup : ([⟨queryFirst, s.skb, .ok, token⟩].filterMap fun p : Passage =>
      firstFragment p.packet).Nodup := by
    simp [hkey]
  refine ⟨s, s', ⟨queryFirst, s.skb, .ok, token⟩, hhist, fun hnone => ?_, hout, rfl, ?_⟩
  · rw [show firstFragment queryFirst = none from hnone] at hkey
    cases hkey
  obtain hshot | ⟨p, hp, -, -, hf⟩ := (later_follows_first hashOriginal true true true 1088
    (fun _ => 0xfd) sampleControl rfl _ s hhist hnodup queryLater
    (fragmentKey4 queryLater) (by decide +kernel) (.inl rfl) s' .ok).1 hout
  · cases hshot
  · rw [List.mem_singleton] at hp
    subst hp
    cases hf with
    | redirected _ _ _ _ same => exact same rfl

/-- A later fragment passes before its first fragment is seen when its headers cannot be read, and a
later fragment is redirected though its first fragment was dropped: a first fragment too short for
the TCP checksum leaves its record before the rewrite fails. -/
theorem later_not_following :
    (∃ s', History hashOriginal sampleControl [] sampleStart ∧
      laterFragment queryLater = some (fragmentKey4 queryLater) ∧
      Prog.Out (admissible Anything)
        (classify hashOriginal sampleControl .ingress { sampleStart with skb := queryLater })
        s' .pipe ∧ s'.skb = queryLater) ∧
    ∃ s s' p, History hashOriginal sampleControl [p] s ∧ p.packet = tinyFirst ∧
      firstFragment p.packet = laterFragment tinyLater ∧ laterFragment tinyLater ≠ none ∧
      p.verdict = .shot ∧
      Prog.Out (admissible Anything)
        (classify hashOriginal sampleControl .ingress { s with skb := tinyLater }) s' .ok := by
  refine ⟨⟨{ sampleStart with skb := queryLater }, .start _ _ _, by decide +kernel,
    .ask false trivial (.ret _ _), rfl⟩, ?_⟩
  have hrun : (ingressOn sampleStart tinyFirst).bind (fun r =>
      (ingressOn r.1 tinyLater).map fun r' => (r.2, r'.2)) = some (.shot, .ok) := by
    decide +kernel
  obtain ⟨⟨s, v⟩, hfirst, hrest⟩ := Option.bind_eq_some_iff.mp hrun
  obtain ⟨⟨s', v'⟩, hlater, heq⟩ := Option.map_eq_some_iff.mp hrest
  obtain ⟨rfl, rfl⟩ := Prod.mk.inj heq
  have hkey : firstFragment tinyFirst = laterFragment tinyLater := by decide +kernel
  have hstart : History hashOriginal sampleControl [] sampleStart := .start _ _ _
  obtain ⟨token, hhist⟩ := hstart.classified (ingressOn_out hfirst)
  exact ⟨s, s', ⟨tinyFirst, s.skb, .shot, token⟩, hhist, rfl, hkey, by decide +kernel, rfl,
    ingressOn_out hlater⟩

end Bpf2Socks.Tc
