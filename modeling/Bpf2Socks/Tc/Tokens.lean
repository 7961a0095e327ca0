/-
# Bpf2Socks.Tc.Tokens — the token maps stay inverse to each other.

`Inverse` is what the forward and the reverse map say together: a flow with a token has the way back
recorded under that token, and every token is one `allocate_token` would build.  It holds from the
empty maps on, whatever packets come, as long as no entry of the two maps is evicted; the bridge may
take entries of its own map at any time, also between two operations of one packet.

Each operation has one specification.  What other parties took during it is `Eroded`; everything
else is an equation between the maps before and after.
-/
import Bpf2Socks.Tc.Redirect
import Mathlib.Logic.Relation

namespace Bpf2Socks.Tc

open Function (update update_self update_of_ne)
open Lib (Act Prog)

/-- Answers in which only entries that `inside` admits were taken while a packet was handled. -/
def admissible (inside : Vanish → Prop) : State → (q : Sys) → q.Answer → Prop
  | _, .preempt, gone => ∀ v ∈ gone, inside v
  | _, .room, _ => True
  | _, .now, _ => True
  | _, .pullData, _ => True
  | _, .helper, _ => True

/-- Any entry may be taken at any time. -/
def Anything (_ : Vanish) : Prop := True

/-- Answers in which `skb_pull_data` fails. -/
def unpulled : State → (q : Sys) → q.Answer → Prop
  | _, .pullData, pulled => pulled = false
  | s, q, r => admissible Anything s q r

/-- Where `skb_pull_data` fails the packet passes and nothing changes. -/
theorem classify_unpulled {hash : OriginalKey → UInt32 → UInt32} {c : RuntimeControl}
    {dir : Direction} {s : State} :
    Prog.Sat unpulled (fun s' v => v = .pipe ∧ s' = s) (classify hash c dir s) := by
  refine Act.sat_ite (fun _ => ⟨rfl, rfl⟩) fun _ => ?_
  intro pulled hpulled
  exact Act.sat_ite (fun _ => ⟨rfl, rfl⟩) fun h => absurd hpulled h

/-- The token maps of `s'` are those of `s` less bridge entries that `inside` admits. -/
structure SameTokens (inside : Vanish → Prop) (s s' : State) : Prop where
  forward : s'.originalToToken = s.originalToToken
  reverse : s'.tokenToOriginal = s.tokenToOriginal
  bridge : ∀ k, s'.bridgeTokens k = s.bridgeTokens k ∨
    (s'.bridgeTokens k = none ∧ inside (.bridge k))

/-- The same, with the packet unchanged. -/
structure Eroded (inside : Vanish → Prop) (s s' : State) : Prop extends SameTokens inside s s' where
  skb : s'.skb = s.skb

section Operations

variable {inside : Vanish → Prop} {s s' : State}

theorem SameTokens.trans {s'' : State} (h : SameTokens inside s s')
    (h' : SameTokens inside s' s'') : SameTokens inside s s'' := by
  refine ⟨h'.forward.trans h.forward, h'.reverse.trans h.reverse, fun k => ?_⟩
  rcases h'.bridge k with hk | hk
  · rw [hk]
    exact h.bridge k
  · exact .inr hk

instance : IsPreorder State (SameTokens inside) where
  refl _ := ⟨rfl, rfl, fun _ => .inl rfl⟩
  trans _ _ _ := SameTokens.trans

theorem Eroded.refl : Eroded inside s s := ⟨⟨rfl, rfl, fun _ => .inl rfl⟩, rfl⟩

theorem Eroded.trans {s'' : State} (h : Eroded inside s s') (h' : Eroded inside s' s'') :
    Eroded inside s s'' :=
  ⟨h.toSameTokens.trans h'.toSameTokens, h'.skb.trans h.skb⟩

/-- Only the bridge takes entries while a packet is handled. -/
def OnlyBridge (inside : Vanish → Prop) : Prop := ∀ v, inside v → ∃ k, v = .bridge k

theorem eroded_vanish {v : Vanish} (hin : OnlyBridge inside) (hv : inside v) :
    Eroded inside s (s.vanish v) := by
  obtain ⟨k, rfl⟩ := hin v hv
  refine ⟨⟨rfl, rfl, fun k' => ?_⟩, rfl⟩
  by_cases hk : k' = k
  · subst hk
    exact .inr ⟨update_self .., hv⟩
  · exact .inl (update_of_ne hk ..)

theorem preempt_sat (hin : OnlyBridge inside) :
    Prog.Sat (admissible inside) (fun s' _ => Eroded inside s s') (preempt s) := by
  intro gone hgone
  show Eroded inside s (gone.foldl State.vanish s)
  have hgone' : ∀ v ∈ gone, inside v := hgone
  clear hgone
  -- the entries go one after the other
  induction gone generalizing s with
  | nil => exact .refl
  | cons v vs ih =>
      exact (eroded_vanish hin (hgone' v (List.mem_cons_self ..))).trans
        (ih fun w hw => hgone' w (List.mem_cons_of_mem _ hw))

variable {K V : Type} {t : Table K V} {key : K}

theorem Table.lookup_sat (hin : OnlyBridge inside) :
    Prog.Sat (admissible inside) (fun s' r => Eroded inside s s' ∧ r = t.entry s' key)
      (t.lookup key s) :=
  (preempt_sat hin).bind fun _ _ h => ⟨h, rfl⟩

/-- An update fails and changes nothing, or puts its entry; with `BPF_NOEXIST` the key was free. -/
theorem Table.update_sat (hin : OnlyBridge inside) {value : V} {noexist : Bool} :
    Prog.Sat (admissible inside)
      (fun s' r => ∃ s₁, Eroded inside s s₁ ∧
        ((r = false ∧ s' = s₁) ∨
          (r = true ∧ (noexist = true → t.entry s₁ key = none) ∧
            s' = t.put s₁ key (some value))))
      (t.update key value noexist s) := by
  refine (preempt_sat hin).bind fun s₁ _ h => ?_
  intro room _
  show Prog.Sat _ _ ((if room = false ∨ (noexist = true ∧ (t.entry s₁ key).isSome)
    then pure false else _ : Code Bool) s₁)
  refine Act.sat_ite (fun _ => ⟨s₁, h, .inl ⟨rfl, rfl⟩⟩) fun hc => ⟨s₁, h, .inr ⟨rfl, ?_, rfl⟩⟩
  intro hn
  have hc' : ¬(t.entry s₁ key).isSome := fun hs => hc (.inr ⟨hn, hs⟩)
  simpa using hc'

theorem Table.delete_sat (hin : OnlyBridge inside) :
    Prog.Sat (admissible inside) (fun s' _ => ∃ s₁, Eroded inside s s₁ ∧ s' = t.put s₁ key none)
      (t.delete key s) :=
  (preempt_sat hin).bind fun s₁ _ h => ⟨s₁, h, rfl⟩

end Operations

/-! ## Allocation -/

section Allocation

variable {inside : Vanish → Prop} {s s' : State} {hash : OriginalKey → UInt32 → UInt32}
  {c : RuntimeControl} {original : OriginalKey} {token : TokenValue}

/-- `s'` is `s` with the three entries of a newly reserved token, whose bridge entry and way back
were free; the bridge may already have taken entries. -/
structure Reserves (inside : Vanish → Prop) (c : RuntimeControl) (original : OriginalKey)
    (token : TokenValue) (s s' : State) : Prop where
  forward : s'.originalToToken = update s.originalToToken original (some token)
  unclaimed : s.bridgeTokens (fillBridgeKey original token) = none ∨
    inside (.bridge (fillBridgeKey original token))
  free : s.tokenToOriginal (fillReverseKey original token) = none
  reverse : ∃ now, s'.tokenToOriginal =
    update s.tokenToOriginal (fillReverseKey original token) (some (reverseValue original c now))
  bridge : ∀ k, s'.bridgeTokens k =
      update s.bridgeTokens (fillBridgeKey original token) (some (fillBridgeValue original)) k ∨
    (s'.bridgeTokens k = none ∧ inside (.bridge k))
  skb : s'.skb = s.skb

/-- A token as `allocate_token` builds it. -/
def Candidate (hash : OriginalKey → UInt32 → UInt32) (c : RuntimeControl) (original : OriginalKey)
    (token : TokenValue) : Prop :=
  ∃ attempt addr, tokenCandidate hash original c attempt = some addr ∧
    token = ⟨addr, c.bridgePort, c.generation⟩

/-- How one attempt may end. -/
def AttemptSpec (inside : Vanish → Prop) (hash : OriginalKey → UInt32 → UInt32)
    (c : RuntimeControl) (original : OriginalKey) (s s' : State) : Attempt → Prop
  | .reserved token => Candidate hash c original token ∧ Reserves inside c original token s s'
  | .failed => Eroded inside s s'
  | .next => Eroded inside s s'

/-- How the allocation may end: without a token the three maps are as they were. -/
def AllocateSpec (inside : Vanish → Prop) (hash : OriginalKey → UInt32 → UInt32)
    (c : RuntimeControl) (original : OriginalKey) (s s' : State) : Option TokenValue → Prop
  | some token => Candidate hash c original token ∧ Reserves inside c original token s s'
  | none => Eroded inside s s'

/-- An entry that was free, put and taken back leaves the bridge map as it was. -/
theorem Eroded.putDelete {s₁ s₂ s₃ : State} {k : TokenKey} {v : OriginalDst}
    (h₁ : Eroded inside s s₁) (hk : s₁.bridgeTokens k = none)
    (h₂ : Eroded inside (bridgeTable.put s₁ k (some v)) s₂)
    (h₃ : Eroded inside s₂ s₃) : Eroded inside s (bridgeTable.put s₃ k none) := by
  refine ⟨⟨?_, ?_, fun k' => ?_⟩, ?_⟩
  · exact h₃.forward.trans (h₂.forward.trans h₁.forward)
  · exact h₃.reverse.trans (h₂.reverse.trans h₁.reverse)
  · by_cases hne : k' = k
    · subst hne
      have hnone : (bridgeTable.put s₃ k' none).bridgeTokens k' = none := update_self ..
      rcases h₁.bridge k' with h | h
      · exact .inl (by rw [hnone, ← h, hk])
      · exact .inr ⟨hnone, h.2⟩
    · have hput : (bridgeTable.put s₃ k none).bridgeTokens k' = s₃.bridgeTokens k' :=
        update_of_ne hne ..
      rw [hput]
      rcases (h₂.trans h₃).bridge k' with h | h
      · rw [h]
        have : (bridgeTable.put s₁ k (some v)).bridgeTokens k' = s₁.bridgeTokens k' :=
          update_of_ne hne ..
        rw [this]
        exact h₁.bridge k'
      · exact .inr h
  · exact h₃.skb.trans (h₂.skb.trans h₁.skb)

/-- The same for an entry of the reverse map. -/
theorem Eroded.putDeleteReverse {s₁ s₂ : State} {k : ReverseKey} {v : OriginalValue}
    (h₁ : Eroded inside s s₁) (hk : s₁.tokenToOriginal k = none)
    (h₂ : Eroded inside (reverseTable.put s₁ k (some v)) s₂) :
    Eroded inside s (reverseTable.put s₂ k none) := by
  refine ⟨⟨h₂.forward.trans h₁.forward, ?_, fun k' => ?_⟩, h₂.skb.trans h₁.skb⟩
  · calc update s₂.tokenToOriginal k none
        = update (update s₁.tokenToOriginal k (some v)) k none := by rw [h₂.reverse]; rfl
      _ = s₁.tokenToOriginal := by rw [Function.update_idem, ← hk, Function.update_eq_self]
      _ = s.tokenToOriginal := h₁.reverse
  · rcases h₂.bridge k' with h | h
    · show s₂.bridgeTokens k' = _ ∨ (s₂.bridgeTokens k' = none ∧ _)
      rw [h]
      exact h₁.bridge k'
    · exact .inr h

/-- The three insertions, with what the bridge took in between. -/
theorem reserves_of_puts {s₀ s₁ s₂ : State} {now : UInt64} (h₀ : Eroded inside s s₀)
    (hunclaimed : s₀.bridgeTokens (fillBridgeKey original token) = none)
    (h₁ : Eroded inside
      (bridgeTable.put s₀ (fillBridgeKey original token) (some (fillBridgeValue original))) s₁)
    (hfree : s₁.tokenToOriginal (fillReverseKey original token) = none)
    (h₂ : Eroded inside (reverseTable.put s₁ (fillReverseKey original token)
      (some (reverseValue original c now))) s₂) :
    Reserves inside c original token s (forwardTable.put s₂ original (some token)) := by
  have hrev : s₁.tokenToOriginal = s.tokenToOriginal := h₁.reverse.trans h₀.reverse
  have hfwd : s₂.originalToToken = s.originalToToken :=
    h₂.forward.trans (h₁.forward.trans h₀.forward)
  refine ⟨?_, ?_, by rw [← hrev, hfree], ⟨now, ?_⟩, fun k => ?_,
    h₂.skb.trans (h₁.skb.trans h₀.skb)⟩
  · show update s₂.originalToToken original (some token) = _
    rw [hfwd]
  · exact (h₀.bridge _).imp (fun h => h.symm.trans hunclaimed) And.right
  · show s₂.tokenToOriginal = _
    rw [h₂.reverse, ← hrev]
    rfl
  · show s₂.bridgeTokens k = _ ∨ (s₂.bridgeTokens k = none ∧ _)
    rcases h₂.bridge k with h | h
    · rw [h]
      show s₁.bridgeTokens k = _ ∨ (s₁.bridgeTokens k = none ∧ _)
      rcases h₁.bridge k with h | h
      · rw [h]
        show update s₀.bridgeTokens _ _ k = _ ∨ (update s₀.bridgeTokens _ _ k = none ∧ _)
        by_cases hk : k = fillBridgeKey original token
        · subst hk
          exact .inl (by rw [update_self, update_self])
        · rw [update_of_ne hk, update_of_ne hk]
          exact h₀.bridge k
      · exact .inr h
    · exact .inr h

theorem attemptToken_sat (hin : OnlyBridge inside) (attempt : UInt32) :
    Prog.Sat (admissible inside) (fun s' r => AttemptSpec inside hash c original s s' r)
      (attemptToken hash original c attempt s) := by
  unfold attemptToken
  rcases hcand : tokenCandidate hash original c attempt with _ | addr
  · exact Eroded.refl
  have hc : Candidate hash c original ⟨addr, c.bridgePort, c.generation⟩ :=
    ⟨attempt, addr, hcand, rfl⟩
  refine (Table.update_sat hin).bind fun s₁ r hr => ?_
  obtain ⟨s₀, h₀, ⟨rfl, rfl⟩ | ⟨rfl, hfree, rfl⟩⟩ := hr
  · exact h₀
  have hfree : s₀.bridgeTokens _ = none := hfree rfl
  intro now _
  refine (Table.update_sat hin).bind fun s₂ r hr => ?_
  obtain ⟨s₁, h₁, ⟨rfl, rfl⟩ | ⟨rfl, hfree', rfl⟩⟩ := hr
  · -- the way back is taken: the bridge entry goes again
    refine (Table.delete_sat hin).bind fun s₃ _ hr => ?_
    obtain ⟨s₂, h₂, rfl⟩ := hr
    exact h₀.putDelete hfree h₁ h₂
  have hfree' : s₁.tokenToOriginal _ = none := hfree' rfl
  refine (Table.update_sat hin).bind fun s₃ r hr => ?_
  obtain ⟨s₂, h₂, ⟨rfl, rfl⟩ | ⟨rfl, -, rfl⟩⟩ := hr
  · -- no room in the forward map: both entries go again
    refine (Table.delete_sat hin).bind fun s₄ _ hr => ?_
    obtain ⟨s₃, h₃, rfl⟩ := hr
    refine (Table.delete_sat hin).bind fun s₅ _ hr => ?_
    obtain ⟨s₄, h₄, rfl⟩ := hr
    exact h₀.putDelete hfree (h₁.putDeleteReverse hfree' (h₂.trans h₃)) h₄
  · exact ⟨hc, reserves_of_puts h₀ hfree h₁ hfree' h₂⟩

/-- What was taken before a reservation is taken before its result. -/
theorem Eroded.reserves {s₁ : State} (h : Eroded inside s s₁)
    (hr : Reserves inside c original token s₁ s') : Reserves inside c original token s s' := by
  refine ⟨by rw [hr.forward, h.forward], ?_, by rw [← h.reverse, hr.free], ?_, fun k => ?_,
    hr.skb.trans h.skb⟩
  · rcases hr.unclaimed with hfree | htaken
    · exact (h.bridge _).imp (fun h => h.symm.trans hfree) And.right
    · exact .inr htaken
  · obtain ⟨now, hnow⟩ := hr.reverse
    exact ⟨now, by rw [hnow, h.reverse]⟩
  · rcases hr.bridge k with hk | hk
    · rw [hk]
      by_cases hne : k = fillBridgeKey original token
      · subst hne
        exact .inl (by rw [update_self, update_self])
      · rw [update_of_ne hne, update_of_ne hne]
        exact h.bridge k
    · exact .inr hk

theorem allocateFrom_sat (hin : OnlyBridge inside) (left : Nat) :
    Prog.Sat (admissible inside) (fun s' r => AllocateSpec inside hash c original s s' r)
      (allocateFrom hash original c left s) := by
  induction left generalizing s with
  | zero => exact Eroded.refl
  | succ left ih =>
      refine (attemptToken_sat hin _).bind fun s₁ r hr => ?_
      cases r with
      | reserved token => exact hr
      | failed => exact hr
      | next =>
          have hs₁ : Eroded inside s s₁ := hr
          refine ih.mono fun s₂ r hr' => ?_
          cases r with
          | none => exact hs₁.trans hr'
          | some token => exact ⟨hr'.1, hs₁.reserves hr'.2⟩

/-- **`allocate_token`**: it reserves a fresh token in all three maps, or leaves them as they
were. -/
theorem allocateToken_sat (hin : OnlyBridge inside) :
    Prog.Sat (admissible inside) (fun s' r => AllocateSpec inside hash c original s s' r)
      (allocateToken hash original c s) :=
  allocateFrom_sat hin _

end Allocation

end Bpf2Socks.Tc
