/-
# Bpf2Socks.Tc.Inverse — the inverse relation, through every packet.

The specifications of `Tc.Tokens` are put together: what admitting a flow does, what the rest of a
packet leaves alone, and from these that `Inverse` holds in every state a run reaches.  A run is a
sequence of ingress and egress packets, of removals by other parties and of policy changes; which
removals are allowed, while a packet is handled (`inside`) and between packets (`between`), is a
parameter.
-/
import Bpf2Socks.Tc.Tokens

namespace Bpf2Socks.Tc

open Function (update update_self update_of_ne)
open Lib (Act Prog)
open Lib.Act (keeps_pure keeps_get keeps_ask keeps_modify keeps_ite)

/-! ## Keys as the programs build them -/

theorem copyBytes_length (source : List UInt8) (size : Nat) : (copyBytes source size).length = 16 := by
  simp [copyBytes]

/-- A copy keeps its bytes when it is copied again. -/
theorem copyBytes_copyBytes (source : List UInt8) {size : Nat} (h : size ≤ 16) :
    copyBytes (copyBytes source size) size = copyBytes source size := by
  apply List.ext_getElem?
  intro i
  simp only [copyBytes, List.getElem?_take, List.getElem?_append, List.length_take,
    List.length_append, List.length_replicate, List.getElem?_replicate]
  split_ifs <;> first | rfl | omega

theorem addressSize_le (family : UInt8) : addressSize family ≤ 16 := by
  unfold addressSize
  split <;> omega

/-- A key as `ingress4` and `ingress6` fill it: a known family, and addresses that are zero beyond
their size. -/
structure OriginalKey.WellFormed (o : OriginalKey) : Prop where
  family : o.family = afInet ∨ o.family = afInet6
  client : copyBytes o.clientAddr (addressSize o.family) = o.clientAddr
  original : copyBytes o.originalAddr (addressSize o.family) = o.originalAddr

theorem originalOf_wellFormed (skb : Skb) {family : UInt8} (protocol : UInt8)
    (l4 source destination : Nat) (hf : family = afInet ∨ family = afInet6) :
    (originalOf skb family protocol l4 source destination (addressSize family)).WellFormed :=
  ⟨hf, copyBytes_copyBytes _ (addressSize_le _), copyBytes_copyBytes _ (addressSize_le _)⟩

/-! ## Admitting a flow -/

section Admission

variable {inside : Vanish → Prop} {s s' : State} {hash : OriginalKey → UInt32 → UInt32}
  {c : RuntimeControl} {o : OriginalKey} {token : TokenValue} {syn : Bool}

/-- `s'` is `s` with the bridge entry of the flow written again. -/
structure Publishes (inside : Vanish → Prop) (o : OriginalKey) (token : TokenValue) (s s' : State) :
    Prop where
  forward : s'.originalToToken = s.originalToToken
  reverse : s'.tokenToOriginal = s.tokenToOriginal
  bridge : ∀ k, s'.bridgeTokens k =
      update s.bridgeTokens (fillBridgeKey o token) (some (fillBridgeValue o)) k ∨
    (s'.bridgeTokens k = none ∧ inside (.bridge k))
  skb : s'.skb = s.skb

/-- How a flow comes to its token: it had one, whose bridge entry a new connection writes again, or
it gets a new one. -/
inductive Sends (inside : Vanish → Prop) (hash : OriginalKey → UInt32 → UInt32)
    (c : RuntimeControl) (o : OriginalKey) (syn : Bool) (s s' : State) (token : TokenValue) : Prop
    where
  | kept (found : s.originalToToken o = some token) (current : token.generation = c.generation)
      (silent : syn = false) (same : Eroded inside s s')
  | renewed (found : s.originalToToken o = some token) (current : token.generation = c.generation)
      (isSyn : syn = true) (published : Publishes inside o token s s')
  | fresh (candidate : Candidate hash c o token) (reserved : Reserves inside c o token s s')

/-- How admitting a flow may end. -/
def AdmitSpec (inside : Vanish → Prop) (hash : OriginalKey → UInt32 → UInt32) (c : RuntimeControl)
    (o : OriginalKey) (syn : Bool) (s s' : State) : Admission → Prop
  | .rewrite token => Sends inside hash c o syn s s' token
  | .pass => Eroded inside s s'
  | .unpublished => Eroded inside s s'

theorem findReservedToken_sat (hin : OnlyBridge inside) :
    Prog.Sat (admissible inside)
      (fun s' r => Eroded inside s s' ∧
        ∀ token, r = some token → s.originalToToken o = some token ∧
          token.generation = c.generation)
      (findReservedToken o c s) := by
  refine (Table.lookup_sat hin).bind fun s₁ r ⟨h₁, hr⟩ => ?_
  have hentry : r = s.originalToToken o := by
    rw [hr, ← h₁.forward]
    rfl
  cases r with
  | none => exact ⟨h₁, fun _ h => by cases h⟩
  | some token =>
      refine Act.sat_ite (fun _ => ⟨h₁, fun _ h => by cases h⟩) fun hg => ⟨h₁, fun t ht => ?_⟩
      cases ht
      exact ⟨hentry.symm, by simpa using hg⟩

theorem admitFlow_sat (hin : OnlyBridge inside) (proxied : Bool) :
    Prog.Sat (admissible inside) (fun s' r => AdmitSpec inside hash c o syn s s' r)
      (admitFlow hash c o proxied syn s) := by
  refine (findReservedToken_sat hin).bind fun s₁ r ⟨h₁, hr⟩ => ?_
  cases r with
  | none =>
      refine Act.sat_ite (fun _ => h₁) fun _ => ?_
      refine (allocateToken_sat hin).bind fun s₂ r hr => ?_
      cases r with
      | none => exact h₁.trans hr
      | some token => exact .fresh hr.1 (h₁.reserves hr.2)
  | some token =>
      obtain ⟨hfound, hcur⟩ := hr token rfl
      refine Act.sat_ite (fun hs => .kept hfound hcur (by simpa using hs) h₁) fun hs => ?_
      refine (Table.update_sat hin).bind fun s₂ r hr => ?_
      obtain ⟨s₀, h₀, ⟨rfl, rfl⟩ | ⟨rfl, -, rfl⟩⟩ := hr
      · exact h₁.trans h₀
      · have h := h₁.trans h₀
        refine .renewed hfound hcur (by simpa using hs) ⟨h.forward, h.reverse, fun k => ?_, h.skb⟩
        show update s₀.bridgeTokens _ _ k = _ ∨ (update s₀.bridgeTokens _ _ k = none ∧ _)
        by_cases hk : k = fillBridgeKey o token
        · subst hk
          exact .inl (by rw [update_self, update_self])
        · rw [update_of_ne hk, update_of_ne hk]
          exact h.bridge k

end Admission

/-! ## The invariant -/

/-- Every flow with a token has a token `allocate_token` would build, and the way back is recorded
under it. -/
structure Inverse (hash : OriginalKey → UInt32 → UInt32) (c : RuntimeControl) (s : State) :
    Prop where
  wellFormed : ∀ {o t}, s.originalToToken o = some t → o.WellFormed
  token : ∀ {o t}, s.originalToToken o = some t → Candidate hash c o t
  back : ∀ {o t}, s.originalToToken o = some t →
    ∃ v, s.tokenToOriginal (fillReverseKey o t) = some v ∧ v.originalAddr = o.originalAddr ∧
      v.originalPort = o.originalPort ∧ v.generation = c.generation

section Invariant

variable {inside : Vanish → Prop} {s s' : State} {hash : OriginalKey → UInt32 → UInt32}
  {c : RuntimeControl} {o : OriginalKey} {token : TokenValue} {syn : Bool}

/-- The invariant speaks of the forward and reverse maps only. -/
theorem Inverse.congr (h : Inverse hash c s) (hf : s'.originalToToken = s.originalToToken)
    (hr : s'.tokenToOriginal = s.tokenToOriginal) : Inverse hash c s' := by
  refine ⟨fun {o t} ht => h.wellFormed (hf ▸ ht), fun {o t} ht => h.token (hf ▸ ht), ?_⟩
  intro o t ht
  rw [hr]
  exact h.back (hf ▸ ht)

theorem Inverse.same (h : Inverse hash c s) (hs : SameTokens inside s s') : Inverse hash c s' :=
  h.congr hs.forward hs.reverse

/-- A reservation adds a way back under a free key, so no other is lost. -/
theorem Inverse.reserves (h : Inverse hash c s) (ho : o.WellFormed) (hc : Candidate hash c o token)
    (hr : Reserves inside c o token s s') : Inverse hash c s' := by
  obtain ⟨now, hrev⟩ := hr.reverse
  have hcases : ∀ {o' t}, s'.originalToToken o' = some t →
      (o' = o ∧ t = token) ∨ s.originalToToken o' = some t := by
    intro o' t ht
    rw [hr.forward] at ht
    by_cases he : o' = o
    · subst he
      rw [update_self] at ht
      exact .inl ⟨rfl, (Option.some.inj ht).symm⟩
    · rw [update_of_ne he] at ht
      exact .inr ht
  refine ⟨?_, ?_, ?_⟩
  · intro o' t ht
    rcases hcases ht with ⟨rfl, rfl⟩ | ht
    · exact ho
    · exact h.wellFormed ht
  · intro o' t ht
    rcases hcases ht with ⟨rfl, rfl⟩ | ht
    · exact hc
    · exact h.token ht
  · intro o' t ht
    rcases hcases ht with ⟨rfl, rfl⟩ | ht
    · rw [hrev, update_self]
      exact ⟨_, rfl, ho.original, rfl, rfl⟩
    · obtain ⟨v, hv, hrest⟩ := h.back ht
      -- the new key was free, the old one was not
      have hne : fillReverseKey o' t ≠ fillReverseKey o token := by
        intro he
        rw [he, hr.free] at hv
        cases hv
      rw [hrev, update_of_ne hne]
      exact ⟨v, hv, hrest⟩

theorem Inverse.sends (h : Inverse hash c s) (ho : o.WellFormed)
    (hs : Sends inside hash c o syn s s' token) : Inverse hash c s' := by
  cases hs with
  | kept _ _ _ hs => exact h.same hs.toSameTokens
  | renewed _ _ _ hs => exact h.congr hs.forward hs.reverse
  | fresh hc hr => exact h.reserves ho hc hr

/-- Two originals of one client endpoint never have the same token. -/
theorem Inverse.injective (h : Inverse hash c s) {o o' : OriginalKey} {t t' : TokenValue}
    (ho : s.originalToToken o = some t) (ho' : s.originalToToken o' = some t')
    (hif : o.ifindex = o'.ifindex) (hfam : o.family = o'.family) (hproto : o.protocol = o'.protocol)
    (haddr : o.clientAddr = o'.clientAddr) (hport : o.clientPort = o'.clientPort)
    (htok : t.tokenAddr = t'.tokenAddr) (htp : t.tokenPort = t'.tokenPort) : o = o' := by
  have hkey : fillReverseKey o t = fillReverseKey o' t' := by
    simp only [fillReverseKey, hif, hfam, hproto, haddr, hport, htok, htp]
  obtain ⟨v, hv, ha, hp, -⟩ := h.back ho
  obtain ⟨v', hv', ha', hp', -⟩ := h.back ho'
  rw [hkey, hv'] at hv
  cases hv
  cases o
  cases o'
  simp_all

end Invariant

/-! ## Code that leaves the token maps alone -/

section Frame

variable {inside : Vanish → Prop} {c : RuntimeControl}

/-- A relation between states that does not look at the packet. -/
class IgnoresPacket (R : State → State → Prop) : Prop extends IsPreorder State R where
  skb : ∀ s x, R s { s with skb := x }

instance : IgnoresPacket (SameTokens inside) where
  skb _ _ := ⟨rfl, rfl, fun _ => .inl rfl⟩

section Rewrites

variable {ok : State → (q : Sys) → q.Answer → Prop} {R : State → State → Prop} [IgnoresPacket R]

theorem replaceChecksum_keeps (off : Nat) (mangled : Bool) (old new : List UInt8) :
    Act.Keeps ok R (replaceChecksum off mangled old new) :=
  (keeps_ask _).bind fun _ => keeps_get.bind fun _ => keeps_ite (keeps_pure _)
    ((keeps_modify fun s => IgnoresPacket.skb s _).bind fun _ => keeps_pure _)

theorem skbStoreBytes_keeps (off : Nat) (bytes : List UInt8) :
    Act.Keeps ok R (skbStoreBytes off bytes) :=
  (keeps_ask _).bind fun _ => keeps_get.bind fun _ => keeps_ite (keeps_pure _)
    ((keeps_modify fun s => IgnoresPacket.skb s _).bind fun _ => keeps_pure _)

theorem allOk_keeps {fs : List (Code Bool)} (h : ∀ f ∈ fs, Act.Keeps ok R f) :
    Act.Keeps ok R (allOk fs) := by
  induction fs with
  | nil => exact keeps_pure _
  | cons f fs ih =>
      refine (h f (List.mem_cons_self ..)).bind fun _ => keeps_ite (keeps_pure _) ?_
      exact ih fun g hg => h g (List.mem_cons_of_mem _ hg)

theorem rewriteAll_keeps {fs : List (Code Bool)} (h : ∀ f ∈ fs, Act.Keeps ok R f) :
    Act.Keeps ok R (rewriteAll fs) :=
  (allOk_keeps h).bind fun _ => keeps_ite (keeps_pure _) (keeps_pure _)

theorem rewriteIpv4_keeps (addressOff portOff checksumOff : Nat) (oldA newA oldP newP : List UInt8)
    (protocol : UInt8) : Act.Keeps ok R
      (rewriteIpv4 addressOff portOff checksumOff oldA newA oldP newP protocol) := by
  refine rewriteAll_keeps fun f hf => ?_
  simp only [List.mem_cons, List.not_mem_nil, or_false] at hf
  rcases hf with rfl | rfl | rfl | rfl | rfl
  all_goals first
    | exact replaceChecksum_keeps _ _ _ _
    | exact skbStoreBytes_keeps _ _

theorem rewriteIpv6_keeps (addressOff portOff checksumOff : Nat) (oldA newA oldP newP : List UInt8)
    (protocol : UInt8) : Act.Keeps ok R
      (rewriteIpv6 addressOff portOff checksumOff oldA newA oldP newP protocol) := by
  refine rewriteAll_keeps fun f hf => ?_
  rcases List.mem_append.mp hf with hf | hf
  · obtain ⟨off, -, rfl⟩ := List.mem_map.mp hf
    exact replaceChecksum_keeps _ _ _ _
  · simp only [List.mem_cons, List.not_mem_nil, or_false] at hf
    rcases hf with rfl | rfl | rfl
    all_goals first
      | exact replaceChecksum_keeps _ _ _ _
      | exact skbStoreBytes_keeps _ _

end Rewrites

theorem rememberFragment_keeps (hin : OnlyBridge inside) (key : FragmentKey)
    (token : Option (List UInt8)) (verdict : FragmentVerdict) (generation : UInt32) :
    Act.Keeps (admissible inside) (SameTokens inside)
      (rememberFragment key token verdict generation) := by
  refine Act.Keeps.bind (fun s => ?_) fun _ => keeps_pure _
  refine (Table.update_sat hin).mono fun s' r hr => ?_
  obtain ⟨s₁, h₁, ⟨-, rfl⟩ | ⟨-, -, rfl⟩⟩ := hr
  · exact h₁.toSameTokens
  · exact ⟨h₁.forward, h₁.reverse, h₁.bridge⟩

theorem fragmentRecord_keeps (hin : OnlyBridge inside) (key : FragmentKey) :
    Act.Keeps (admissible inside) (SameTokens inside) (fragmentRecord key c) := by
  refine Act.Keeps.bind (fun s => (Table.lookup_sat hin).mono fun _ _ h => h.1.toSameTokens) ?_
  intro r
  cases r with
  | none => exact keeps_pure _
  | some value => exact keeps_ite (keeps_pure _) (keeps_pure _)

theorem ingress4LaterFragment_keeps (hin : OnlyBridge inside) :
    Act.Keeps (admissible inside) (SameTokens inside) (ingress4LaterFragment c) := by
  refine keeps_get.bind fun s => keeps_ite (keeps_pure _) ?_
  refine (fragmentRecord_keeps hin _).bind fun r => ?_
  cases r with
  | none => exact keeps_pure _
  | some value =>
      refine keeps_ite (keeps_pure _) (rewriteAll_keeps fun f hf => ?_)
      simp only [List.mem_cons, List.not_mem_nil, or_false] at hf
      rcases hf with rfl | rfl
      · exact replaceChecksum_keeps _ _ _ _
      · exact skbStoreBytes_keeps _ _

theorem ingress6LaterFragment_keeps (hin : OnlyBridge inside) (key : FragmentKey) :
    Act.Keeps (admissible inside) (SameTokens inside) (ingress6LaterFragment key c) := by
  refine (fragmentRecord_keeps hin _).bind fun r => ?_
  cases r with
  | none => exact keeps_ite (keeps_pure _) (keeps_pure _)
  | some value =>
      refine keeps_ite (keeps_pure _) (rewriteAll_keeps fun f hf => ?_)
      rw [List.mem_singleton] at hf
      subst hf
      exact skbStoreBytes_keeps _ _

/-- The end of an ingress program: only the bridge takes tokens there. -/
theorem finishIngress_keeps (hin : OnlyBridge inside) (fragment : Option FragmentKey)
    {rewrite : TokenValue → Code Verdict}
    (hr : ∀ token, Act.Keeps (admissible inside) (SameTokens inside) (rewrite token))
    (admission : Admission) :
    Act.Keeps (admissible inside) (SameTokens inside)
      (finishIngress c fragment rewrite admission) := by
  cases admission with
  | pass =>
      cases fragment with
      | none => exact keeps_pure Verdict.pipe
      | some key => exact (rememberFragment_keeps hin _ _ _ _).bind fun _ => keeps_pure _
  | unpublished => exact keeps_pure _
  | rewrite token =>
      cases fragment with
      | none => exact hr token
      | some key => exact (rememberFragment_keeps hin _ _ _ _).bind fun _ => hr token

end Frame

/-! ## Packets -/

/-- What egress finds, and the entry it touches. -/
def FoundSpec (inside : Vanish → Prop) (c : RuntimeControl) (key : ReverseKey) (s s' : State) :
    Option OriginalValue → Prop
  | none => Eroded inside s s'
  | some v => s.tokenToOriginal key = some v ∧ v.generation = c.generation ∧
      s'.originalToToken = s.originalToToken ∧ s'.skb = s.skb ∧
      (∀ k, s'.bridgeTokens k = s.bridgeTokens k ∨
        (s'.bridgeTokens k = none ∧ inside (.bridge k))) ∧
      ∃ now, s'.tokenToOriginal = update s.tokenToOriginal key (some { v with lastSeenNs := now })

/-- What code of the classifiers can do to the token maps. -/
inductive Move (inside : Vanish → Prop) (hash : OriginalKey → UInt32 → UInt32)
    (c : RuntimeControl) : State → State → Prop where
  | same {s s' : State} (h : SameTokens inside s s') : Move inside hash c s s'
  | sent {s s' : State} {o : OriginalKey} {syn : Bool} {token : TokenValue} (ho : o.WellFormed)
      (hsyn : syn = true → o.protocol = protoTcp) (h : Sends inside hash c o syn s s' token) :
      Move inside hash c s s'
  | touched {s s' : State} {key : ReverseKey} {v : OriginalValue}
      (h : FoundSpec inside c key s s' (some v)) : Move inside hash c s s'

/-- Several moves. -/
abbrev Moves (inside : Vanish → Prop) (hash : OriginalKey → UInt32 → UInt32)
    (c : RuntimeControl) : State → State → Prop :=
  Relation.ReflTransGen (Move inside hash c)

section Packets

variable {inside : Vanish → Prop} {s s' : State} {hash : OriginalKey → UInt32 → UInt32}
  {c : RuntimeControl}

instance : IgnoresPacket (Moves inside hash c) where
  refl _ := .refl
  trans _ _ _ := .trans
  skb s x := .single (.same (IgnoresPacket.skb s x))

theorem findOriginal_sat (hin : OnlyBridge inside) (key : ReverseKey) :
    Prog.Sat (admissible inside)
      (fun s' r => FoundSpec inside c key s s' r ∧
        (r = none → ∀ v, s.tokenToOriginal key = some v → v.generation ≠ c.generation))
      (findOriginal key c s) := by
  refine (Table.lookup_sat hin).bind fun s₁ r ⟨h₁, hr⟩ => ?_
  have hentry : r = s.tokenToOriginal key := by
    rw [hr, ← h₁.reverse]
    rfl
  cases r with
  | none => exact ⟨h₁, fun _ v hv => by rw [← hentry] at hv; cases hv⟩
  | some v =>
      refine Act.sat_ite (fun hg => ⟨h₁, fun _ v' hv' => ?_⟩) fun hg => ?_
      · rw [← hentry] at hv'
        cases hv'
        exact hg
      · intro now _
        refine ⟨⟨hentry.symm, not_not.mp hg, h₁.forward, h₁.skb, h₁.bridge, now, ?_⟩,
          fun h => by cases h⟩
        show update s₁.tokenToOriginal _ _ = _
        rw [h₁.reverse]

theorem findOriginal_keeps (hin : OnlyBridge inside) (key : ReverseKey) :
    Act.Keeps (admissible inside) (Moves inside hash c) (findOriginal key c) := by
  intro s
  refine (findOriginal_sat hin key).mono fun s' r ⟨hr, _⟩ => ?_
  cases r with
  | none => exact .single (.same hr.toSameTokens)
  | some v => exact .single (.touched hr)

theorem admitFlow_keeps (hin : OnlyBridge inside) {o : OriginalKey} (ho : o.WellFormed)
    (proxied : Bool) {syn : Bool} (hsyn : syn = true → o.protocol = protoTcp) :
    Act.Keeps (admissible inside) (Moves inside hash c) (admitFlow hash c o proxied syn) := by
  intro s
  refine (admitFlow_sat hin proxied).mono fun s' r hr => ?_
  cases r with
  | rewrite token => exact .single (.sent ho hsyn hr)
  | pass => exact .single (.same hr.toSameTokens)
  | unpublished => exact .single (.same hr.toSameTokens)

/-- Code that leaves the token maps alone makes a move. -/
theorem keeps_moves {α : Type} {f : Code α}
    (hf : Act.Keeps (admissible inside) (SameTokens inside) f) :
    Act.Keeps (admissible inside) (Moves inside hash c) f :=
  hf.imp fun h => .single (.same h)

theorem ingress4_keeps (hin : OnlyBridge inside) :
    Act.Keeps (admissible inside) (Moves inside hash c) (ingress4 hash c) := by
  refine keeps_get.bind fun s => keeps_ite (keeps_pure _) (keeps_ite ?_ (keeps_ite (keeps_pure _)
    (keeps_ite (keeps_pure _) (keeps_ite (keeps_pure _) ?_))))
  · exact keeps_moves (ingress4LaterFragment_keeps hin)
  · refine keeps_get.bind fun s => ?_
    refine (admitFlow_keeps hin (originalOf_wellFormed _ _ _ _ _ (.inl rfl)) _
      fun h => (decide_eq_true_eq.mp h).1).bind fun r => ?_
    exact keeps_moves (finishIngress_keeps hin _ (fun _ => rewriteIpv4_keeps _ _ _ _ _ _ _ _) r)

theorem ingress6Transport_keeps (hin : OnlyBridge inside) (protocol : UInt8) (l4 : Nat)
    (fragment : Option FragmentKey) :
    Act.Keeps (admissible inside) (Moves inside hash c)
      (ingress6Transport hash c protocol l4 fragment) := by
  refine keeps_get.bind fun s => keeps_ite (keeps_pure _) (keeps_ite (keeps_pure _)
    (keeps_ite (keeps_pure _) (keeps_get.bind fun s => keeps_ite ?_ ?_)))
  · exact keeps_moves (finishIngress_keeps hin _ (fun _ => keeps_pure _) _)
  · refine (admitFlow_keeps hin (originalOf_wellFormed _ _ _ _ _ (.inr rfl)) _
      fun h => (decide_eq_true_eq.mp h).1).bind fun r => ?_
    exact keeps_moves (finishIngress_keeps hin _ (fun _ => rewriteIpv6_keeps _ _ _ _ _ _ _ _) r)

theorem ingress6_keeps (hin : OnlyBridge inside) :
    Act.Keeps (admissible inside) (Moves inside hash c) (ingress6 hash c) := by
  refine keeps_get.bind fun s => keeps_ite (keeps_pure _) (keeps_ite ?_ (keeps_ite (keeps_pure _)
    (keeps_ite (keeps_pure _) (keeps_ite ?_ ?_))))
  · exact ingress6Transport_keeps hin _ _ _
  · exact keeps_moves (ingress6LaterFragment_keeps hin _)
  · exact ingress6Transport_keeps hin _ _ _

section Egress

variable {ok : State → (q : Sys) → q.Answer → Prop} {R : State → State → Prop} [IgnoresPacket R]

theorem egress4_keeps (hfind : ∀ key, Act.Keeps ok R (findOriginal key c)) :
    Act.Keeps ok R (egress4 c) := by
  refine keeps_get.bind fun s => keeps_ite (keeps_pure _) (keeps_ite (keeps_pure _)
    (keeps_ite (keeps_pure _) (keeps_ite (keeps_pure _) (keeps_ite (keeps_pure _)
      (keeps_ite (keeps_pure _) ((hfind _).bind fun r => ?_))))))
  cases r with
  | none => exact keeps_pure _
  | some v => exact rewriteIpv4_keeps _ _ _ _ _ _ _ _

theorem egress6_keeps (hfind : ∀ key, Act.Keeps ok R (findOriginal key c)) :
    Act.Keeps ok R (egress6 c) := by
  refine keeps_get.bind fun s => keeps_ite (keeps_pure _) (keeps_ite (keeps_pure _)
    (keeps_ite (keeps_pure _) (keeps_ite (keeps_pure _) (keeps_ite (keeps_pure _)
      (keeps_ite (keeps_pure _) ((hfind _).bind fun r => ?_))))))
  cases r with
  | none => exact keeps_pure _
  | some v => exact rewriteIpv6_keeps _ _ _ _ _ _ _ _

/-- A packet goes through the classifier of its family. -/
theorem classify_keeps_of {dir : Direction} (h4 : Act.Keeps ok R (classify4 hash c dir))
    (h6 : Act.Keeps ok R (classify6 hash c dir)) : Act.Keeps ok R (classify hash c dir) := by
  refine keeps_ite (keeps_pure _) ((keeps_ask _).bind fun pulled => keeps_ite (keeps_pure _) ?_)
  exact keeps_get.bind fun s => keeps_ite (keeps_pure _) (keeps_ite (keeps_ite (keeps_pure _) h4)
    (keeps_ite (keeps_ite (keeps_pure _) h6) (keeps_pure _)))

/-- Egress changes the maps as its lookup does. -/
theorem classify_egress_keeps (hfind : ∀ key, Act.Keeps ok R (findOriginal key c)) :
    Act.Keeps ok R (classify hash c .egress) :=
  classify_keeps_of (egress4_keeps hfind) (egress6_keeps hfind)

end Egress

/-- **A packet** changes the token maps by moves only. -/
theorem classify_keeps (hin : OnlyBridge inside) (dir : Direction) :
    Act.Keeps (admissible inside) (Moves inside hash c) (classify hash c dir) := by
  cases dir with
  | ingress => exact classify_keeps_of (ingress4_keeps hin) (ingress6_keeps hin)
  | egress => exact classify_egress_keeps (findOriginal_keeps hin)

/-- Touching an entry keeps what it says. -/
theorem Inverse.touched (h : Inverse hash c s) {key : ReverseKey} {v : OriginalValue}
    (hr : FoundSpec inside c key s s' (some v)) : Inverse hash c s' := by
  obtain ⟨hv, hg, hf, -, -, now, hrev⟩ := hr
  refine ⟨fun {o t} ht => h.wellFormed (hf ▸ ht), fun {o t} ht => h.token (hf ▸ ht), ?_⟩
  intro o t ht
  obtain ⟨w, hw, hrest⟩ := h.back (hf ▸ ht)
  rw [hrev]
  by_cases hk : fillReverseKey o t = key
  · rw [hk, hv] at hw
    cases hw
    rw [hk, update_self]
    exact ⟨_, rfl, hrest⟩
  · rw [update_of_ne hk]
    exact ⟨w, hw, hrest⟩

theorem Inverse.move (h : Inverse hash c s) (hm : Move inside hash c s s') : Inverse hash c s' := by
  cases hm with
  | same hs => exact h.same hs
  | sent ho _ hs => exact h.sends ho hs
  | touched ht => exact h.touched ht

theorem Inverse.moves (h : Inverse hash c s) (hm : Moves inside hash c s s') :
    Inverse hash c s' := by
  induction hm with
  | refl => exact h
  | tail _ hm ih => exact ih.move hm

end Packets

/-! ## Runs -/

/-- The empty maps, with any policy. -/
def initial (cidr4 cidr6 : CidrMaps) (skb : Skb) : State where
  originalToToken _ := none
  tokenToOriginal _ := none
  bridgeTokens _ := none
  fragments _ := none
  cidr4 := cidr4
  cidr6 := cidr6
  skb := skb

/-- One step of a run: a packet through a classifier, an entry another party removes, or a change
of the CIDR maps. -/
inductive Step (inside : Vanish → Prop) (between : State → Vanish → Prop)
    (hash : OriginalKey → UInt32 → UInt32) (c : RuntimeControl) : State → State → Prop where
  | packet {s s' : State} (dir : Direction) (skb : Skb) (v : Verdict)
      (run : Prog.Out (admissible inside) (classify hash c dir { s with skb := skb }) s' v) :
      Step inside between hash c s s'
  | vanish {s : State} (v : Vanish) (allowed : between s v) : Step inside between hash c s (s.vanish v)
  | policy {s : State} (cidr4 cidr6 : CidrMaps) :
      Step inside between hash c s { s with cidr4 := cidr4, cidr6 := cidr6 }

/-- The states of all runs from the empty maps. -/
def Reach (inside : Vanish → Prop) (between : State → Vanish → Prop)
    (hash : OriginalKey → UInt32 → UInt32) (c : RuntimeControl) (s : State) : Prop :=
  ∃ cidr4 cidr6 skb, Relation.ReflTransGen (Step inside between hash c) (initial cidr4 cidr6 skb) s

/-- The bridge takes an entry of its map. -/
def Consumes (v : Vanish) : Prop := ∃ k, v = .bridge k

/-- Steps without eviction: only the bridge takes entries, and it may do so at any time. -/
abbrev StepWithoutEviction := Step Consumes fun _ => Consumes

section Runs

variable {s s' : State} {hash : OriginalKey → UInt32 → UInt32} {c : RuntimeControl}

theorem Inverse.step (h : Inverse hash c s) (hs : StepWithoutEviction hash c s s') :
    Inverse hash c s' := by
  have hin : OnlyBridge Consumes := fun _ h => h
  cases hs with
  | packet dir skb v run =>
      have hskb : Inverse hash c { s with skb := skb } := h.congr rfl rfl
      exact hskb.moves ((classify_keeps hin dir _).out run)
  | vanish v allowed =>
      obtain ⟨k, rfl⟩ := allowed
      exact h.congr rfl rfl
  | policy cidr4 cidr6 => exact h.congr rfl rfl

theorem Inverse.run (h : Inverse hash c s)
    (hs : Relation.ReflTransGen (StepWithoutEviction hash c) s s') : Inverse hash c s' := by
  induction hs with
  | refl => exact h
  | tail _ hs ih => exact ih.step hs

theorem inverse_initial (cidr4 cidr6 : CidrMaps) (skb : Skb) :
    Inverse hash c (initial cidr4 cidr6 skb) :=
  ⟨nofun, nofun, nofun⟩

theorem inverse_reach (h : Reach Consumes (fun _ => Consumes) hash c s) : Inverse hash c s := by
  obtain ⟨cidr4, cidr6, skb, hs⟩ := h
  exact (inverse_initial cidr4 cidr6 skb).run hs

end Runs

end Bpf2Socks.Tc
