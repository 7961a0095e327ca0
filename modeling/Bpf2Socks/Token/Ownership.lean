/-
# Bpf2Socks.Token.Ownership — whose entries the bridge changes.

The bridge changes the map on the strength of what its bindings remember, long after they learned it.
`Memory` collects everything in the bridge that will act on a destination for a token: bindings,
cache entries that have not expired, and datagrams under way.  `Coherent` says that the map and the
memories agree.  A publication breaks it when it gives a remembered token to another destination, and
the bridge itself when a connected socket's binding gets another token and keeps its flag because no
reply socket could be made.  `Careful` runs have no such step, and there the bridge touches only
entries that are absent or its own.
-/
import Bpf2Socks.Token.Machine

namespace Bpf2Socks.Token

open Function (update update_self update_of_ne)
open Tc (TokenKey OriginalDst)
open Udp (DstAddr Family LookupMode Sockaddr sameSockaddr sockaddrIsLoopback)

/-! ## Keys -/

theorem sockaddrPort_congr {a b : Sockaddr} (h : a.data.take 6 = b.data.take 6) :
    Udp.sockaddrPort a = Udp.sockaddrPort b := by
  have htwo : a.data.take 2 = b.data.take 2 := by
    have := congrArg (List.take 2) h
    rwa [List.take_take, List.take_take] at this
  unfold Udp.sockaddrPort
  rcases ha : a.data with _ | ⟨x, _ | ⟨y, as⟩⟩ <;>
    rcases hb : b.data with _ | ⟨x', _ | ⟨y', bs⟩⟩ <;> rw [ha, hb] at htwo <;> simp_all

/-- Addresses that `same_sockaddr` identifies have the same keys. -/
theorem fullKey_congr {a b : Sockaddr} (h : sameSockaddr a b = true) (port : UInt16)
    (token : List UInt8) : fullKey port a token = fullKey port b token := by
  have hk := Udp.sameSockaddr_iff.mp h
  simp only [Udp.sockaddrKey, Prod.mk.injEq] at hk
  obtain ⟨hf, -, hd⟩ := hk
  have hclient : clientOf a = clientOf b := by
    unfold clientOf
    rw [← hf] at hd ⊢
    rcases hfam : a.family with _ | _ | _ | code
    · rfl
    · rw [hfam, if_pos rfl, if_pos rfl] at hd
      have haddr : (a.data.drop 2).take 4 = (b.data.drop 2).take 4 := by
        have := congrArg (List.drop 2) hd
        rwa [List.drop_take, List.drop_take] at this
      simp only [haddr, sockaddrPort_congr hd]
    · rw [hfam, if_neg (by decide), if_neg (by decide)] at hd
      simp only [Udp.sockaddrPort, hd]
    · rfl
  simp only [fullKey, hclient, hf]

/-- The client of the key is on this host. -/
def keyIsLocal (k : TokenKey) : Bool :=
  if k.family = 2 then k.clientAddr.take 1 == [127]
  else k.family = 10 && (k.clientAddr == List.replicate 15 0 ++ [1] ||
    (k.clientAddr.take 12 == List.replicate 10 0 ++ [255, 255] &&
      (k.clientAddr.drop 12).take 1 == [127]))

theorem keyIsLocal_fullKey {a : Sockaddr} (h : sockaddrIsLoopback a = true) (port : UInt16)
    (token : List UInt8) : keyIsLocal (fullKey port a token) = true := by
  unfold sockaddrIsLoopback at h
  rcases hfam : a.family with _ | _ | _ | code <;> rw [hfam] at h
  · cases h
  · have hfirst : (a.data.drop 2).take 1 = [127] := by simpa using h
    have hpad : (pad16 ((a.data.drop 2).take 4)).take 1 = [127] := by
      rw [pad16, List.take_take, ← hfirst, List.take_append_of_le_length]
      · rw [List.take_take]
        rfl
      · have := congrArg List.length hfirst
        simp only [List.length_take, List.length_cons, List.length_nil] at this ⊢
        omega
    simp [keyIsLocal, fullKey, clientOf, hfam, Family.code, hpad]
  · have hlong : ∀ {n : Nat}, n ≤ ((a.data.drop 6).take 16).length →
        (pad16 ((a.data.drop 6).take 16)).take n = ((a.data.drop 6).take 16).take n := by
      intro n hn
      have hle : ((a.data.drop 6).take 16).length ≤ 16 := List.length_take_le ..
      rw [pad16, List.take_take, Nat.min_eq_left (by omega), List.take_append_of_le_length hn]
    simp only [keyIsLocal, fullKey, clientOf, hfam, Family.code]
    simp only [Bool.or_eq_true, Bool.and_eq_true, beq_iff_eq] at h
    rcases h with h | ⟨h12, h13⟩
    · have hfull := hlong (n := 16) (by rw [h]; decide)
      have hpad : pad16 ((a.data.drop 6).take 16) = List.replicate 15 0 ++ [1] := by
        rw [← h]
        have hlen : (pad16 ((a.data.drop 6).take 16)).length ≤ 16 := List.length_take_le ..
        rw [List.take_of_length_le hlen, List.take_take] at hfull
        exact hfull
      rw [hpad]
      decide
    · have hlen : 13 ≤ ((a.data.drop 6).take 16).length := by
        have := congrArg List.length h13
        simp only [List.length_take, List.length_drop, List.length_cons, List.length_nil] at this ⊢
        omega
      have h12' := (hlong (n := 12) (by omega)).trans h12
      have h13' : ((pad16 ((a.data.drop 6).take 16)).drop 12).take 1 = [127] := by
        have := hlong hlen
        have := congrArg (List.drop 12) this
        rw [List.drop_take, List.drop_take] at this
        exact this.trans h13
      simp [h12', h13']
  · cases h

theorem pad16_pad16 {bytes : List UInt8} {n : Nat} (hn : n ≤ 16) (hb : bytes.length ≤ n) :
    pad16 ((pad16 bytes).take n) = pad16 bytes := by
  apply List.ext_getElem?
  intro i
  simp only [pad16, List.getElem?_take, List.getElem?_append, List.length_take, List.length_append,
    List.length_replicate, List.getElem?_replicate]
  split_ifs <;> first | rfl | omega

/-- A destination of the map can be written again. -/
theorem dstOf_recovered {v : OriginalDst} {d : DstAddr} (h : dstOf v = some d) :
    dstOf (recoveredOriginal d) = some d := by
  unfold dstOf at h
  split_ifs at h
  · cases h
    show some (DstAddr.mk _ _ (pad16 ((pad16 _).take 4))) = _
    rw [pad16_pad16 (by decide) (List.length_take_le ..)]
    rfl
  · cases h
    show some (DstAddr.mk _ _ (pad16 ((pad16 _).take 16))) = _
    rw [pad16_pad16 (by decide) (List.length_take_le ..)]
    rfl

/-! ## What the bridge remembers -/

/-- The datagram whose destination a worker has at hand. -/
def Job.pending : Job → Option (Packet × Resolved)
  | .resolved p r => some (p, r)
  | .republishing p b mode => some (p, ⟨b.originalDst, true, mode⟩)
  | .deleting _ _ after => after
  | _ => none

/-- A worker will act on a destination for the token and client of a key; the flag says whether it
takes the token for a connected socket's. -/
inductive Remembers (cfg : Config) (x : Worker) : TokenKey → DstAddr → Bool → Prop where
  | binding {k : Session} {b : Binding} (hk : k ∈ x.sessions) (hb : b ∈ k.bindings)
      (acts : b.hasToken = true ∨ b.connectedUdpToken = true) :
      Remembers cfg x (fullKey cfg.listenPort k.client b.tokenAddr) b.originalDst
        b.connectedUdpToken
  | cached {i : Nat} {e : CacheEntry} {d : DstAddr} (he : x.cache i = some e)
      (live : e.expiresMs > x.now) (hd : dstOf e.original = some d) :
      Remembers cfg x e.key d (isConnected e.original)
  | pending {p : Packet} {r : Resolved} (hj : x.job.pending = some (p, r)) :
      Remembers cfg x (fullKey cfg.listenPort p.client p.tokenAddr) r.originalDst r.connectedUdpToken
  | deleting {client : Sockaddr} {rest : List Binding} {after : Option (Packet × Resolved)}
      {b : Binding} (hj : x.job = .deleting client rest after) (hb : b ∈ rest)
      (acts : b.hasToken = true) :
      Remembers cfg x (fullKey cfg.listenPort client b.tokenAddr) b.originalDst b.connectedUdpToken

/-- Some worker does. -/
def Memory (cfg : Config) (s : State) (k : TokenKey) (d : DstAddr) (c : Bool) : Prop :=
  ∃ w, Remembers cfg (s.worker w) k d c

/-- A memory the bridge changes the map for: a connected socket's, which it may publish again, or a
local client's, which it deletes. -/
def Relevant (cfg : Config) (k : TokenKey) (connected : Bool) : Prop :=
  cfg.isToken k.tokenAddr = true ∧ (connected = true ∨ keyIsLocal k = true)

/-- The map, the ghost record and what the bridge remembers (`M`) agree. -/
structure Coherent (cfg : Config) (map : TokenKey → Option OriginalDst)
    (lastHeld : TokenKey → Option DstAddr) (M : TokenKey → DstAddr → Bool → Prop) : Prop where
  /-- Entries are of the token prefixes and have an address. -/
  published : ∀ k v, map k = some v → cfg.isToken k.tokenAddr = true ∧ (dstOf v).isSome
  /-- Entries with a client are hotspot flows'. -/
  hotspot : ∀ k v, map k = some v → k ≠ zeroKey k → keyIsLocal k = false ∧ isConnected v = false
  /-- The client-less entry of a remembered token is what is remembered. -/
  zero : ∀ k d conn, M k d conn → Relevant cfg k conn → ∀ v, map (zeroKey k) = some v →
    dstOf v = some d
  /-- So is the entry of the client, for a connected socket's token. -/
  full : ∀ k d, M k d true → ∀ v, map k = some v → dstOf v = some d
  /-- Memories of one token agree. -/
  agree : ∀ k k' d d' conn conn', M k d conn → M k' d' conn' → Relevant cfg k conn →
    Relevant cfg k' conn' → zeroKey k = zeroKey k' → d = d'
  /-- A connected socket's token was last seen with the destination that is remembered. -/
  held : ∀ k d, M k d true → lastHeld k = some d
  /-- It is a token, and its destination can be written again. -/
  token : ∀ k d, M k d true → cfg.isToken k.tokenAddr = true ∧ dstOf (recoveredOriginal d) = some d

section Coherence

variable {cfg : Config} {map : TokenKey → Option OriginalDst}
  {lastHeld : TokenKey → Option DstAddr} {M M' : TokenKey → DstAddr → Bool → Prop}

theorem Coherent.mono (h : Coherent cfg map lastHeld M) (hM : ∀ k d c, M' k d c → M k d c) :
    Coherent cfg map lastHeld M' where
  published := h.published
  hotspot := h.hotspot
  zero k d c hm := h.zero k d c (hM _ _ _ hm)
  full k d hm := h.full k d (hM _ _ _ hm)
  agree k k' d d' c c' hm hm' := h.agree k k' d d' c c' (hM _ _ _ hm) (hM _ _ _ hm')
  held k d hm := h.held k d (hM _ _ _ hm)
  token k d hm := h.token k d (hM _ _ _ hm)

theorem Coherent.evict (h : Coherent cfg map lastHeld M) (key : TokenKey) :
    Coherent cfg (update map key none) lastHeld M := by
  have hsub : ∀ {k v}, update map key none k = some v → map k = some v := by
    intro k v hv
    by_cases hk : k = key
    · subst hk
      rw [update_self] at hv
      cases hv
    · rwa [update_of_ne hk] at hv
  exact ⟨fun k v hv => h.published k v (hsub hv), fun k v hv => h.hotspot k v (hsub hv),
    fun k d c hm hr v hv => h.zero k d c hm hr v (hsub hv),
    fun k d hm v hv => h.full k d hm v (hsub hv), h.agree, h.held, h.token⟩

/-- An entry that every memory it concerns agrees with may be written. -/
theorem Coherent.put (h : Coherent cfg map lastHeld M) {key : TokenKey} {v : OriginalDst}
    (hp : cfg.isToken key.tokenAddr = true ∧ (dstOf v).isSome)
    (hhot : key ≠ zeroKey key → keyIsLocal key = false ∧ isConnected v = false)
    (hzero : ∀ k d c, M k d c → Relevant cfg k c → zeroKey k = key → dstOf v = some d)
    (hfull : ∀ d, M key d true → dstOf v = some d) :
    Coherent cfg (update map key (some v)) lastHeld M := by
  have hcases : ∀ {k w}, update map key (some v) k = some w →
      (k = key ∧ w = v) ∨ map k = some w := by
    intro k w hw
    by_cases hk : k = key
    · subst hk
      rw [update_self] at hw
      cases hw
      exact .inl ⟨rfl, rfl⟩
    · rw [update_of_ne hk] at hw
      exact .inr hw
  refine ⟨fun k w hw => ?_, fun k w hw hne => ?_, fun k d c hm hr w hw => ?_,
    fun k d hm w hw => ?_, h.agree, h.held, h.token⟩
  · rcases hcases hw with ⟨rfl, rfl⟩ | hw
    · exact hp
    · exact h.published k w hw
  · rcases hcases hw with ⟨rfl, rfl⟩ | hw
    · exact hhot hne
    · exact h.hotspot k w hw hne
  · rcases hcases hw with ⟨hk, rfl⟩ | hw
    · exact hzero k d c hm hr hk
    · exact h.zero k d c hm hr w hw
  · rcases hcases hw with ⟨rfl, rfl⟩ | hw
    · exact hfull d hm
    · exact h.full k d hm w hw

/-- The bridge writes a connected socket's entry again. -/
theorem Coherent.republish (h : Coherent cfg map lastHeld M) {k : TokenKey} {d : DstAddr}
    (hm : M k d true) :
    Coherent cfg (update map (zeroKey k) (some (recoveredOriginal d))) lastHeld M := by
  obtain ⟨htoken, hd⟩ := h.token k d hm
  have hrel : Relevant cfg k true := ⟨htoken, .inl rfl⟩
  refine h.put ⟨htoken, by rw [hd]; rfl⟩ (fun hne => absurd rfl hne) ?_ ?_
  · intro k' d' c hm' hr' hk
    rw [hd, h.agree k k' d d' true c hm hm' hrel hr' hk.symm]
  · intro d' hm'
    have hr' : Relevant cfg (zeroKey k) true := ⟨htoken, .inl rfl⟩
    rw [hd, h.agree k (zeroKey k) d d' true true hm hm' hrel hr' rfl]

/-- A client uses its token while the map holds a value for it. -/
theorem Coherent.note (h : Coherent cfg map lastHeld M) {k : TokenKey} {d : DstAddr}
    (hd : ∀ d', M k d' true → d' = d) :
    Coherent cfg map (update lastHeld k (some d)) M := by
  refine ⟨h.published, h.hotspot, h.zero, h.full, h.agree, fun k' d' hm => ?_, h.token⟩
  by_cases hk : k' = k
  · subst hk
    rw [update_self, hd d' hm]
  · rw [update_of_ne hk]
    exact h.held k' d' hm

/-- Whatever the map holds for a connected socket's token is what is remembered. -/
theorem Coherent.found (h : Coherent cfg map lastHeld M) {k : TokenKey} {d : DstAddr}
    {v : OriginalDst} {zero : Bool} (hm : M k d true) (hv : map (tried zero k).1 = some v) :
    dstOf v = some d := by
  cases zero with
  | true => exact h.zero k d true hm ⟨(h.token k d hm).1, .inl rfl⟩ v hv
  | false => exact h.full k d hm v hv

/-- A destination found in the map is a memory that agrees. -/
theorem Coherent.learn (h : Coherent cfg map lastHeld M) {k : TokenKey} {v : OriginalDst}
    {d : DstAddr} {zero : Bool} (hv : map (tried zero k).1 = some v) (hd : dstOf v = some d)
    (hheld : lastHeld k = some d)
    (hclash : ∀ v₀ v₁, map (zeroKey k) = some v₀ → isConnected v₀ = true → map k = some v₁ →
      dstOf v₁ = dstOf v₀)
    (hM : ∀ k' d' c, M' k' d' c → M k' d' c ∨ (k' = k ∧ d' = d ∧ c = isConnected v)) :
    Coherent cfg map lastHeld M' := by
  have htoken : cfg.isToken k.tokenAddr = true := by
    have hp := (h.published _ v hv).1
    cases zero <;> exact hp
  -- an entry with a client is neither local nor connected, so a relevant find is the client-less entry
  have hz : Relevant cfg k (isConnected v) → map (zeroKey k) = some v := by
    intro hr
    cases zero with
    | true => exact hv
    | false =>
        by_cases hk : k = zeroKey k
        · rw [← hk]
          exact hv
        · obtain ⟨hloc, hconn⟩ := h.hotspot k v hv hk
          rcases hr.2 with hr | hr
          · rw [hconn] at hr
            cases hr
          · rw [hloc] at hr
            cases hr
  have hrel : isConnected v = true → Relevant cfg k (isConnected v) := fun hc => ⟨htoken, .inl hc⟩
  have hagree : ∀ k' d' c', M k' d' c' → Relevant cfg k' c' → Relevant cfg k (isConnected v) →
      zeroKey k' = zeroKey k → d' = d := by
    intro k' d' c' hm hr' hr hk
    have := h.zero k' d' c' hm hr' v (by rw [hk]; exact hz hr)
    exact Option.some.inj (this.symm.trans hd)
  refine ⟨h.published, h.hotspot, fun k' d' c hm hr v' hv' => ?_, fun k' d' hm v' hv' => ?_,
    fun k₁ k₂ d₁ d₂ c₁ c₂ hm₁ hm₂ hr₁ hr₂ hk => ?_, fun k' d' hm => ?_, fun k' d' hm => ?_⟩
  · rcases hM k' d' c hm with hm | ⟨rfl, rfl, rfl⟩
    · exact h.zero k' d' c hm hr v' hv'
    · rw [hz hr] at hv'
      cases hv'
      exact hd
  · rcases hM k' d' true hm with hm | ⟨rfl, rfl, hc⟩
    · exact h.full k' d' hm v' hv'
    · rw [hclash v v' (hz (hrel hc.symm)) hc.symm hv', hd]
  · rcases hM k₁ d₁ c₁ hm₁ with hm₁ | ⟨rfl, rfl, rfl⟩ <;>
      rcases hM k₂ d₂ c₂ hm₂ with hm₂ | ⟨rfl, rfl, rfl⟩
    · exact h.agree k₁ k₂ d₁ d₂ c₁ c₂ hm₁ hm₂ hr₁ hr₂ hk
    · exact hagree k₁ d₁ c₁ hm₁ hr₁ hr₂ hk
    · exact (hagree k₂ d₂ c₂ hm₂ hr₂ hr₁ hk.symm).symm
    · rfl
  · rcases hM k' d' true hm with hm | ⟨rfl, rfl, -⟩
    · exact h.held k' d' hm
    · exact hheld
  · rcases hM k' d' true hm with hm | ⟨rfl, rfl, -⟩
    · exact h.token k' d' hm
    · exact ⟨htoken, dstOf_recovered hd⟩

/-- A destination that came with the datagram is for an address that is no token. -/
theorem Coherent.learnSocket (h : Coherent cfg map lastHeld M) {k : TokenKey} {d : DstAddr}
    (hk : cfg.isToken k.tokenAddr = false)
    (hM : ∀ k' d' c, M' k' d' c → M k' d' c ∨ (k' = k ∧ d' = d ∧ c = false)) :
    Coherent cfg map lastHeld M' := by
  have hold : ∀ k' d' c, M' k' d' c → Relevant cfg k' c → M k' d' c := by
    intro k' d' c hm hr
    rcases hM k' d' c hm with hm | ⟨rfl, rfl, rfl⟩
    · exact hm
    · have hr₁ := hr.1
      rw [hk] at hr₁
      cases hr₁
  have hconn : ∀ k' d', M' k' d' true → M k' d' true := fun k' d' hm =>
    (hM k' d' true hm).resolve_right fun h => nomatch h.2.2
  exact ⟨h.published, h.hotspot, fun k d c hm hr => h.zero k d c (hold k d c hm hr) hr,
    fun k d hm => h.full k d (hconn k d hm),
    fun k k' d d' c c' hm hm' hr hr' =>
      h.agree k k' d d' c c' (hold k d c hm hr) (hold k' d' c' hm' hr') hr hr',
    fun k d hm => h.held k d (hconn k d hm), fun k d hm => h.token k d (hconn k d hm)⟩

end Coherence

/-! ## What workers come to remember -/

section Workers

variable {cfg : Config} {s : State} {w : Nat} {x : Worker} {k : TokenKey} {d : DstAddr} {c : Bool}

theorem memory_setWorker (h : Memory cfg (s.setWorker w x) k d c) :
    Memory cfg s k d c ∨ Remembers cfg x k d c := by
  obtain ⟨w', hw⟩ := h
  have hw' : Remembers cfg (update s.worker w x w') k d c := hw
  by_cases he : w' = w
  · subst he
    rw [update_self] at hw'
    exact .inr hw'
  · rw [update_of_ne he] at hw'
    exact .inl ⟨w', hw'⟩

/-- A job that has no datagram at hand and deletes nothing adds no memory. -/
theorem Remembers.ofJob {job : Job} (h : Remembers cfg { x with job := job } k d c) :
    Remembers cfg x k d c ∨
      (∃ p r, job.pending = some (p, r) ∧ k = fullKey cfg.listenPort p.client p.tokenAddr ∧
        d = r.originalDst ∧ c = r.connectedUdpToken) ∨
      ∃ client rest after b, job = .deleting client rest after ∧ b ∈ rest ∧ b.hasToken = true ∧
        k = fullKey cfg.listenPort client b.tokenAddr ∧ d = b.originalDst ∧
        c = b.connectedUdpToken := by
  cases h with
  | binding hk hb acts => exact .inl (.binding hk hb acts)
  | cached he live hd => exact .inl (.cached he live hd)
  | pending hj => exact .inr (.inl ⟨_, _, hj, rfl, rfl, rfl⟩)
  | deleting hj hb acts => exact .inr (.inr ⟨_, _, _, _, hj, hb, acts, rfl, rfl, rfl⟩)

/-- Other sessions whose bindings were there before add no memory. -/
theorem Remembers.ofSessions {sessions : List Session} {job : Job}
    (hjob : job.pending = none ∨ job.pending = x.job.pending)
    (hdel : ∀ client rest after, job ≠ .deleting client rest after)
    (hs : ∀ k' ∈ sessions, ∀ b ∈ k'.bindings, (b.hasToken = true ∨ b.connectedUdpToken = true) →
      Remembers cfg x (fullKey cfg.listenPort k'.client b.tokenAddr) b.originalDst
        b.connectedUdpToken)
    (h : Remembers cfg { x with sessions := sessions, job := job } k d c) :
    Remembers cfg x k d c := by
  cases h with
  | binding hk hb acts => exact hs _ hk _ hb acts
  | cached he live hd => exact .cached he live hd
  | pending hj =>
      rcases hjob with hn | hn
      · exact nomatch hn.symm.trans hj
      · exact .pending (hn.symm.trans hj)
  | deleting hj hb acts => exact absurd hj (hdel _ _ _)

/-- What a lookup stores is a memory. -/
theorem Remembers.ofStore {key : TokenKey} {v : OriginalDst} {mode : LookupMode} {room : Bool}
    {job : Job} (h : Remembers cfg { x.store cfg key v mode room with job := job } k d c) :
    Remembers cfg { x with job := job } k d c ∨
      (k = key ∧ dstOf v = some d ∧ c = isConnected v) := by
  unfold Worker.store at h
  split at h
  · cases h with
    | binding hk hb acts => exact .inl (.binding hk hb acts)
    | @cached i e d he live hd =>
        have he' : update x.cache (cfg.slot key) (some _) i = some e := he
        by_cases hi : i = cfg.slot key
        · rw [hi, update_self] at he'
          cases he'
          exact .inr ⟨rfl, hd, rfl⟩
        · rw [update_of_ne hi] at he'
          exact .inl (.cached (x := { x with job := job }) he' live hd)
    | pending hj => exact .inl (.pending (x := { x with job := job }) hj)
    | deleting hj hb acts => exact .inl (.deleting (x := { x with job := job }) hj hb acts)
  · exact .inl h

theorem Session.mem_bind {k : Session} {p : Packet} {r : Resolved} {b : Binding}
    (h : b ∈ (k.bind p r).bindings) :
    b ∈ k.bindings ∨ b = ⟨r.originalDst, p.tokenAddr, r.connectedUdpToken⟩ := by
  unfold Session.bind at h
  dsimp only at h
  split at h
  · obtain ⟨b', hb', he⟩ := List.mem_map.mp h
    split at he
    · exact .inr he.symm
    · exact .inl (he ▸ hb')
  · exact (List.mem_cons.mp h).symm

/-- No connected socket's binding for the datagram's destination has another token. -/
def Session.Retains (k : Session) (p : Packet) (r : Resolved) : Prop :=
  ∀ b ∈ k.bindings, b.originalDst = r.originalDst → b.connectedUdpToken = true →
    b.tokenAddr = p.tokenAddr

/-- A binding that got the datagram's token is as it was, or is not taken for a connected socket's. -/
theorem Session.mem_retoken {k : Session} {p : Packet} {r : Resolved} {b : Binding}
    (hr : r.connectedUdpToken = false) (hkeeps : k.Retains p r)
    (h : b ∈ (k.retoken p r).bindings) :
    b ∈ k.bindings ∨ b = ⟨r.originalDst, p.tokenAddr, r.connectedUdpToken⟩ := by
  obtain ⟨b', hb', he⟩ := List.mem_map.mp h
  split at he
  · rename_i hd
    subst he
    by_cases hc : b'.connectedUdpToken = true
    · have hsame : { b' with tokenAddr := p.tokenAddr } = b' := by rw [← hkeeps b' hb' hd hc]
      exact .inl (hsame ▸ hb')
    · have hfalse : b'.connectedUdpToken = false := by simpa using hc
      exact .inr (by rw [hr, ← hd, hfalse])
  · exact .inl (he ▸ hb')

/-- A binding of the datagram's session remembers what the datagram came with. -/
theorem remembers_settle (k' : Session) {p : Packet} {r : Resolved} {o : Outcome} {b : Binding}
    (hj : x.job = .resolved p r) (hclient : sameSockaddr k'.client p.client = true)
    (hkeeps : o = .unanswered → r.connectedUdpToken = false ∧ k'.Retains p r)
    (hold : ∀ b ∈ k'.bindings, (b.hasToken = true ∨ b.connectedUdpToken = true) →
      Remembers cfg x (fullKey cfg.listenPort k'.client b.tokenAddr) b.originalDst
        b.connectedUdpToken)
    (hb : b ∈ (k'.settle p r o).bindings) (acts : b.hasToken = true ∨ b.connectedUdpToken = true) :
    Remembers cfg x (fullKey cfg.listenPort k'.client b.tokenAddr) b.originalDst
      b.connectedUdpToken := by
  have hcases : b ∈ k'.bindings ∨ b = ⟨r.originalDst, p.tokenAddr, r.connectedUdpToken⟩ := by
    cases o with
    | bound => exact Session.mem_bind hb
    | unanswered => exact Session.mem_retoken (hkeeps rfl).1 (hkeeps rfl).2 hb
    | unbound | dropped => exact .inl hb
  rcases hcases with hb | rfl
  · exact hold b hb acts
  · rw [fullKey_congr hclient]
    exact .pending (by rw [hj]; rfl)

/-- **Settling** a datagram adds no memory. -/
theorem Remembers.ofSettled {p : Packet} {r : Resolved} {o : Outcome}
    (hj : x.job = .resolved p r)
    (hkeeps : o = .unanswered → r.connectedUdpToken = false ∧
      ∀ k ∈ x.sessions, sameSockaddr k.client p.client = true → k.Retains p r)
    (h : Remembers cfg (x.settled p r o) k d c) : Remembers cfg x k d c := by
  -- the part of it where the client is new
  have hnew : ∀ k' ∈ Session.settle ⟨p.client, r.mode, []⟩ p r o :: x.sessions, ∀ b ∈ k'.bindings,
      (b.hasToken = true ∨ b.connectedUdpToken = true) →
      Remembers cfg x (fullKey cfg.listenPort k'.client b.tokenAddr) b.originalDst
        b.connectedUdpToken := by
    intro k' hk' b hb acts
    rcases List.mem_cons.mp hk' with rfl | hk'
    · rw [Session.settle_client]
      exact remembers_settle ⟨p.client, r.mode, []⟩ hj (Udp.sameSockaddr_refl _)
        (fun ho => ⟨(hkeeps ho).1, fun b hb => nomatch hb⟩) (fun b hb => nomatch hb) hb acts
    · exact .binding hk' hb acts
  have hidle : Remembers cfg { x with job := .idle } k d c → Remembers cfg x k d c := by
    intro h
    rcases h.ofJob with h | ⟨_, _, hp, -⟩ | ⟨_, _, _, _, hd, -⟩
    · exact h
    · cases hp
    · cases hd
  unfold Worker.settled at h
  split at h
  · refine Remembers.ofSessions (.inl rfl) (by rintro _ _ _ ⟨⟩) (fun k' hk' b hb acts => ?_) h
    obtain ⟨k₀, hk₀, rfl⟩ := List.mem_map.mp hk'
    have hmode := Session.keepMode_eq k₀ r.mode
    split at hb
    · rename_i hc
      rw [if_pos hc, Session.settle_client]
      refine remembers_settle _ hj (by rw [hmode.1]; exact hc) (fun ho => ⟨(hkeeps ho).1, ?_⟩)
        (fun b hb acts => ?_) hb acts
      · unfold Session.Retains
        rw [hmode.2]
        exact (hkeeps ho).2 k₀ hk₀ hc
      · rw [hmode.2] at hb
        rw [hmode.1]
        exact .binding hk₀ hb acts
    · rename_i hc
      rw [if_neg hc]
      exact .binding hk₀ hb acts
  · cases o with
    | bound | unbound => exact Remembers.ofSessions (.inl rfl) (by rintro _ _ _ ⟨⟩) hnew h
    | unanswered | dropped => exact hidle h

/-- Losing sessions adds no memory. -/
theorem Remembers.ofFilter {keep : Session → Bool} {job : Job}
    (hjob : job.pending = none ∨ job.pending = x.job.pending)
    (hdel : ∀ client rest after, job ≠ .deleting client rest after)
    (h : Remembers cfg { x with sessions := x.sessions.filter keep, job := job } k d c) :
    Remembers cfg x k d c :=
  Remembers.ofSessions hjob hdel
    (fun _ hk _ hb acts => .binding (List.mem_of_mem_filter hk) hb acts) h

/-- Changing sessions without new tokens adds no memory. -/
theorem Remembers.ofMap {f : Session → Session} (hj : x.job = .idle)
    (hf : ∀ k', (f k').client = k'.client ∧ ∀ b ∈ (f k').bindings,
      (b.hasToken = true ∨ b.connectedUdpToken = true) → b ∈ k'.bindings)
    (h : Remembers cfg { x with sessions := x.sessions.map f } k d c) : Remembers cfg x k d c := by
  have hold : Remembers cfg { x with sessions := x.sessions.map f, job := x.job } k d c := h
  refine hold.ofSessions (.inr rfl) (fun _ _ _ h => nomatch hj.symm.trans h)
    fun k' hk' b hb acts => ?_
  obtain ⟨k₀, hk₀, rfl⟩ := List.mem_map.mp hk'
  rw [(hf k₀).1]
  exact .binding hk₀ ((hf k₀).2 b hb acts) acts

theorem Remembers.ofUnbound {client : Sockaddr} {dst : DstAddr} (hj : x.job = .idle)
    (h : Remembers cfg (x.unbound client dst) k d c) : Remembers cfg x k d c := by
  refine Remembers.ofMap hj (fun k' => ?_) h
  split
  · exact ⟨rfl, fun b hb _ => List.mem_of_mem_filter hb⟩
  · exact ⟨rfl, fun b hb _ => hb⟩

theorem Remembers.ofFullcone {client : Sockaddr} {dst : DstAddr} (hj : x.job = .idle)
    (h : Remembers cfg (x.fullcone client dst) k d c) : Remembers cfg x k d c := by
  refine Remembers.ofMap hj (fun k' => ?_) h
  split
  · dsimp only
    split
    · exact ⟨rfl, fun b hb _ => hb⟩
    · refine ⟨rfl, fun b hb acts => (List.mem_cons.mp hb).resolve_left fun he => ?_⟩
      subst he
      rcases acts with acts | acts
      · simp [Binding.hasToken] at acts
      · cases acts
  · exact ⟨rfl, fun b hb _ => hb⟩

/-- A recovered destination is a binding's. -/
theorem Remembers.ofRecover {p : Packet} {r : Resolved} {p' : Packet}
    (h : (recoverJob x p).pending = some (p', r)) :
    Remembers cfg x (fullKey cfg.listenPort p'.client p'.tokenAddr) r.originalDst
      r.connectedUdpToken := by
  unfold recoverJob at h
  split at h
  · rename_i k' b hfind
    cases h
    obtain ⟨k₀, hk, hrest⟩ := Option.bind_eq_some_iff.mp hfind
    obtain ⟨b₀, hb, heq⟩ := Option.map_eq_some_iff.mp hrest
    cases heq
    have hmem := List.mem_of_find?_eq_some hk
    have hsame := List.find?_some hk
    have hbmem := List.mem_of_find?_eq_some hb
    have hprops := List.find?_some hb
    simp only [Bool.and_eq_true, beq_iff_eq] at hprops
    have hrem : Remembers cfg x _ _ _ := .binding hmem hbmem (.inr hprops.1)
    rw [fullKey_congr hsame, hprops.1, hprops.2] at hrem
    exact hrem
  · cases h

end Workers

/-! ## Careful runs -/

/-- A publication does not give a token the bridge remembers to another destination, entries with a
client are for clients elsewhere, a client uses no token that stands for one destination with its
address and for another, a connected socket's, without, and no datagram that needs a reply socket and
does not get one brings another token to a connected socket's binding. -/
def Careful (cfg : Config) (s : State) : Action → Prop
  | .publish k v =>
      (k ≠ zeroKey k → keyIsLocal k = false) ∧
      (∀ k' d c, Memory cfg s k' d c → Relevant cfg k' c → zeroKey k' = k → dstOf v = some d) ∧
      ∀ d, Memory cfg s k d true → dstOf v = some d
  | .datagram _ p _ => Unambiguous s (fullKey cfg.listenPort p.client p.tokenAddr)
  | .second w _ =>
      ∀ p preference, (s.worker w).job = .looking p preference →
        Unambiguous s (fullKey cfg.listenPort p.client p.tokenAddr)
  | .settle w .unanswered =>
      ∀ p r, (s.worker w).job = .resolved p r →
        ∀ k ∈ (s.worker w).sessions, sameSockaddr k.client p.client = true → k.Retains p r
  | _ => True
where
  /-- The two entries for a key agree when one is a connected socket's. -/
  Unambiguous (s : State) (k : TokenKey) : Prop :=
    ∀ v₀ v₁, s.map (zeroKey k) = some v₀ → isConnected v₀ = true → s.map k = some v₁ →
      dstOf v₁ = dstOf v₀

/-- What holds in the states of careful runs. -/
structure Sound (cfg : Config) (s : State) : Prop where
  coherent : Coherent cfg s.map s.lastHeld (Memory cfg s)
  /-- A control message's destination is for an address that is no token. -/
  looking : ∀ w p preference, (s.worker w).job = .looking p preference →
    p.socketOriginal = none ∨ cfg.isToken p.tokenAddr = false
  /-- Tokens are deleted for local clients. -/
  loopback : ∀ w client rest after, (s.worker w).job = .deleting client rest after →
    sockaddrIsLoopback client = true

section Steps

variable {cfg : Config} {s : State} {w : Nat} {x : Worker}

theorem memory_initial {k : TokenKey} {d : DstAddr} {c : Bool} : ¬ Memory cfg initial k d c := by
  rintro ⟨w, h⟩
  cases h with
  | binding hk => cases hk
  | cached he => cases he
  | pending hj => cases hj
  | deleting hj => cases hj

theorem sound_initial : Sound cfg initial where
  coherent := by
    have hno : ∀ {k d c}, ¬ Memory cfg initial k d c := memory_initial
    exact ⟨by nofun, by nofun, fun _ _ _ hm => absurd hm hno, fun _ _ hm => absurd hm hno,
      fun _ _ _ _ _ _ hm => absurd hm hno, fun _ _ hm => absurd hm hno,
      fun _ _ hm => absurd hm hno⟩
  looking := fun _ _ _ h => nomatch h
  loopback := fun _ _ _ _ h => nomatch h

/-- A worker's own part of `Sound`: how its job may look. -/
def Job.Fits (cfg : Config) (job : Job) : Prop :=
  (∀ p preference, job = .looking p preference →
    p.socketOriginal = none ∨ cfg.isToken p.tokenAddr = false) ∧
  ∀ client rest after, job = .deleting client rest after → sockaddrIsLoopback client = true

theorem Sound.fits (h : Sound cfg s) (w : Nat) : (s.worker w).job.Fits cfg :=
  ⟨h.looking w, h.loopback w⟩

/-- A worker moves: the map, the record and all memories must agree again, and its job must fit. -/
theorem Sound.setWorker {s' : State} (h : Sound cfg s) (hworker : s'.worker = s.worker)
    (hjob : x.job.Fits cfg)
    (hco : Coherent cfg s'.map s'.lastHeld (Memory cfg (s'.setWorker w x))) :
    Sound cfg (s'.setWorker w x) := by
  have hfits : ∀ w', ((s'.setWorker w x).worker w').job.Fits cfg := by
    intro w'
    show (update s'.worker w x w').job.Fits cfg
    by_cases hw : w' = w
    · subst hw
      rwa [update_self]
    · rw [update_of_ne hw, hworker]
      exact h.fits w'
  exact ⟨hco, fun w' => (hfits w').1, fun w' => (hfits w').2⟩

/-- A worker that comes to remember nothing new. -/
theorem Sound.keeps (h : Sound cfg s) (hjob : x.job.Fits cfg)
    (hx : ∀ k d c, Remembers cfg x k d c → Remembers cfg (s.worker w) k d c) :
    Sound cfg (s.setWorker w x) := by
  refine h.setWorker rfl hjob (h.coherent.mono fun k d c hm => ?_)
  rcases memory_setWorker hm with hm | hm
  · exact hm
  · exact ⟨w, hx k d c hm⟩

/-- Only the map and the record change. -/
theorem Sound.ofMap {map : TokenKey → Option OriginalDst} {lastHeld : TokenKey → Option DstAddr}
    (h : Sound cfg s) (hco : Coherent cfg map lastHeld (Memory cfg s)) :
    Sound cfg { s with map := map, lastHeld := lastHeld } :=
  ⟨hco, h.looking, h.loopback⟩

theorem fits_idle : Job.idle.Fits cfg := ⟨(fun _ _ h => nomatch h), (fun _ _ _ h => nomatch h)⟩

theorem fits_resolved (p : Packet) (r : Resolved) : (Job.resolved p r).Fits cfg :=
  ⟨(fun _ _ h => nomatch h), (fun _ _ _ h => nomatch h)⟩

theorem fits_recoverJob (x : Worker) (p : Packet) : (recoverJob x p).Fits cfg := by
  unfold recoverJob
  split
  · exact ⟨(fun _ _ h => nomatch h), (fun _ _ _ h => nomatch h)⟩
  · exact fits_idle

theorem fits_resolvedJob (x : Worker) (p : Packet) (v : OriginalDst) (mode : LookupMode) :
    (resolvedJob x p v mode).Fits cfg := by
  unfold resolvedJob
  split
  · exact fits_resolved _ _
  · exact fits_recoverJob x p

/-- A worker that goes on with a binding's destination remembers nothing new. -/
theorem remembers_recoverJob {p : Packet} {k : TokenKey} {d : DstAddr} {c : Bool}
    (h : Remembers cfg { x with job := recoverJob x p } k d c) : Remembers cfg x k d c := by
  rcases h.ofJob with h | ⟨_, _, hp, rfl, rfl, rfl⟩ | ⟨_, _, _, _, hd, -⟩
  · exact h
  · exact Remembers.ofRecover hp
  · unfold recoverJob at hd
    split at hd <;> cases hd

/-- A worker that has a value for its datagram remembers that. -/
theorem remembers_resolvedJob {p : Packet} {v : OriginalDst} {mode : LookupMode} {k : TokenKey}
    {d : DstAddr} {c : Bool} (h : Remembers cfg { x with job := resolvedJob x p v mode } k d c) :
    Remembers cfg x k d c ∨ (k = fullKey cfg.listenPort p.client p.tokenAddr ∧ dstOf v = some d ∧
      c = isConnected v) := by
  unfold resolvedJob at h
  split at h
  · rename_i d' hd'
    rcases h.ofJob with h | ⟨_, _, hp, rfl, rfl, rfl⟩ | ⟨_, _, _, _, hdel, -⟩
    · exact .inl h
    · cases hp
      exact .inr ⟨rfl, hd', rfl⟩
    · cases hdel
  · exact .inl (remembers_recoverJob h)

/-- The record of a client that uses its token while the map holds `v`. -/
theorem Sound.noted (h : Sound cfg s) {k : TokenKey} {v : OriginalDst} {d : DstAddr} {zero : Bool}
    (hv : s.map (tried zero k).1 = some v) (hd : dstOf v = some d) :
    Sound cfg { s with lastHeld := update s.lastHeld k (some d) } := by
  refine h.ofMap (h.coherent.note fun d' hm => ?_)
  exact Option.some.inj ((h.coherent.found hm hv).symm.trans hd)

/-- **A lookup.**  What it finds becomes a memory, and the record must already have it. -/
theorem sound_lookedUp (h : Sound cfg s) {p : Packet} {zero room : Bool} {miss : Job}
    (hclash : Careful.Unambiguous s (fullKey cfg.listenPort p.client p.tokenAddr))
    (hheld : ∀ v d, s.map (tried zero (fullKey cfg.listenPort p.client p.tokenAddr)).1 = some v →
      dstOf v = some d → s.lastHeld (fullKey cfg.listenPort p.client p.tokenAddr) = some d)
    (hmiss : Sound cfg (s.setWorker w { s.worker w with job := miss })) :
    Sound cfg (lookedUp cfg s w p zero room miss) := by
  unfold lookedUp
  dsimp only
  split
  · exact hmiss
  · rename_i v hv
    obtain ⟨d, hd⟩ := Option.isSome_iff_exists.mp (h.coherent.published _ v hv).2
    refine h.setWorker rfl (fits_resolvedJob _ p v _) ?_
    refine h.coherent.learn hv hd (hheld v d hv hd) hclash fun k' d' c hm => ?_
    rcases memory_setWorker hm with hm | hm
    · exact .inl hm
    · have hvalue : ∀ {d'}, dstOf v = some d' → d' = d := fun hd' =>
        Option.some.inj (hd'.symm.trans hd)
      rcases hm.ofStore with hm | ⟨rfl, hd', rfl⟩
      · rcases remembers_resolvedJob hm with hm | ⟨rfl, hd', rfl⟩
        · exact .inl ⟨w, hm⟩
        · exact .inr ⟨rfl, hvalue hd', rfl⟩
      · exact .inr ⟨rfl, hvalue hd', rfl⟩

theorem lookedUp_map {p : Packet} {zero room : Bool} {miss : Job} :
    (lookedUp cfg s w p zero room miss).map = s.map := by
  unfold lookedUp
  dsimp only
  split <;> rfl

theorem takeDatagram_map {p : Packet} {room : Bool} :
    (takeDatagram cfg s w p room).map = s.map := by
  unfold takeDatagram State.note
  dsimp only
  split <;> split <;> first | rfl | exact lookedUp_map

/-- The record after a client used its token. -/
theorem note_cases (hpub : ∀ k v, s.map k = some v → (dstOf v).isSome) (preference : LookupMode)
    (k : TokenKey) :
    (s.note preference k = s ∧ s.map (tried (zeroFirst preference k) k).1 = none) ∨
      ∃ zero v d, s.map (tried zero k).1 = some v ∧ dstOf v = some d ∧
        s.note preference k = { s with lastHeld := update s.lastHeld k (some d) } ∧
        ∀ v', s.map (tried (zeroFirst preference k) k).1 = some v' → v' = v := by
  have hfound : ∀ {v}, s.holds preference k = some v → (∃ zero, s.map (tried zero k).1 = some v) →
      ∃ zero v' d, s.map (tried zero k).1 = some v' ∧ dstOf v' = some d ∧
        s.note preference k = { s with lastHeld := update s.lastHeld k (some d) } ∧ v' = v := by
    rintro v hh ⟨zero, hv⟩
    obtain ⟨d, hd⟩ := Option.isSome_iff_exists.mp (hpub _ v hv)
    refine ⟨zero, v, d, hv, hd, ?_, rfl⟩
    simp only [State.note, hh, Option.bind_some, hd]
  cases h₁ : s.map (tried (zeroFirst preference k) k).1 with
  | some v =>
      obtain ⟨zero, v', d, hv, hd, hn, rfl⟩ := hfound (by simp [State.holds, h₁]) ⟨_, h₁⟩
      exact .inr ⟨zero, v', d, hv, hd, hn, fun _ h => (Option.some.inj h).symm⟩
  | none =>
      cases h₂ : s.map (tried (!zeroFirst preference k) k).1 with
      | some v =>
          obtain ⟨zero, v', d, hv, hd, hn, -⟩ := hfound (by simp [State.holds, h₁, h₂]) ⟨_, h₂⟩
          exact .inr ⟨zero, v', d, hv, hd, hn, by nofun⟩
      | none => exact .inl ⟨by simp [State.note, State.holds, h₁, h₂], rfl⟩

theorem remembers_cached {k : TokenKey} {e : CacheEntry} {d : DstAddr}
    (he : x.cached cfg k = some e) (hd : dstOf e.original = some d) :
    Remembers cfg x k d (isConnected e.original) := by
  unfold Worker.cached at he
  split at he
  · rename_i e' hslot
    split at he
    · rename_i hlive
      cases he
      rw [← hlive.2]
      exact .cached hslot hlive.1 hd
    · cases he
  · cases he

/-- **A worker takes a datagram.** -/
theorem sound_takeDatagram (h : Sound cfg s) {p : Packet} {room : Bool}
    (hp : p.socketOriginal = none ∨ cfg.isToken p.tokenAddr = false)
    (hclash : Careful.Unambiguous s (fullKey cfg.listenPort p.client p.tokenAddr)) :
    Sound cfg (takeDatagram cfg s w p room) := by
  unfold takeDatagram
  dsimp only
  generalize hk : fullKey cfg.listenPort p.client p.tokenAddr = k
  generalize (s.worker w).preference p.client = preference
  -- the record first; the map and the workers are as they were
  have hnote : Sound cfg (s.note preference k) ∧ (s.note preference k).map = s.map ∧
      (s.note preference k).worker = s.worker ∧
      ∀ v d, s.map (tried (zeroFirst preference k) k).1 = some v → dstOf v = some d →
        (s.note preference k).lastHeld k = some d := by
    rcases note_cases (fun k v hv => (h.coherent.published k v hv).2) preference k with
      ⟨hn, hnone⟩ | ⟨zero, v, d, hv, hd, hn, hfirst⟩
    · rw [hn]
      exact ⟨h, rfl, rfl, fun v d hv => nomatch hnone.symm.trans hv⟩
    · rw [hn]
      refine ⟨h.noted hv hd, rfl, rfl, fun v' d' hv' hd' => ?_⟩
      rw [hfirst v' hv', hd] at hd'
      show update s.lastHeld k (some d) k = some d'
      rw [update_self, hd']
  obtain ⟨hsound, hmap, hworker, hheld⟩ := hnote
  generalize s.note preference k = s' at hsound hmap hworker hheld ⊢
  rw [← hworker]
  split
  · rename_i e he
    refine hsound.keeps (fits_resolvedJob _ p _ _) fun k' d c hm => ?_
    rcases remembers_resolvedJob hm with hm | ⟨rfl, hd, rfl⟩
    · exact hm
    · rw [hk]
      exact remembers_cached he hd
  · refine sound_lookedUp hsound ?_ ?_ ?_
    · rw [Careful.Unambiguous, hmap]
      exact hclash
    · rw [hk, hmap]
      exact hheld
    · refine hsound.keeps ⟨?_, (fun _ _ _ h => nomatch h)⟩ fun k' d c hm => ?_
      · intro p' pref' he
        cases he
        exact hp
      · rcases hm.ofJob with hm | ⟨_, _, hp, -⟩ | ⟨_, _, _, _, hd, -⟩
        · exact hm
        · cases hp
        · cases hd

/-- **The second lookup.** -/
theorem sound_second (h : Sound cfg s) {p : Packet} {preference : LookupMode} {zero room : Bool}
    (hj : (s.worker w).job = .looking p preference)
    (hclash : Careful.Unambiguous s (fullKey cfg.listenPort p.client p.tokenAddr))
    (hheld : ∀ v d, s.map (tried zero (fullKey cfg.listenPort p.client p.tokenAddr)).1 = some v →
      dstOf v = some d → s.lastHeld (fullKey cfg.listenPort p.client p.tokenAddr) = some d) :
    Sound cfg (lookedUp cfg s w p zero room (afterMiss (s.worker w) p)) := by
  refine sound_lookedUp h hclash hheld ?_
  unfold afterMiss
  split
  · rename_i d hd
    have htoken : cfg.isToken p.tokenAddr = false :=
      (h.looking w p preference hj).resolve_left fun hn => nomatch hn.symm.trans hd
    refine h.setWorker rfl (fits_resolved _ _) (h.coherent.learnSocket
      (k := fullKey cfg.listenPort p.client p.tokenAddr) (d := d) htoken fun k' d' c hm => ?_)
    rcases memory_setWorker hm with hm | hm
    · exact .inl hm
    · rcases hm.ofJob with hm | ⟨_, _, hp, rfl, rfl, rfl⟩ | ⟨_, _, _, _, hdel, -⟩
      · exact .inl ⟨w, hm⟩
      · cases hp
        exact .inr ⟨rfl, rfl, rfl⟩
      · cases hdel
  · exact h.keeps (fits_recoverJob _ p) fun _ _ _ hm => remembers_recoverJob hm

/-- **The update of a recovery.** -/
theorem sound_republish (h : Sound cfg s) {p : Packet} {b : Binding} {mode : LookupMode}
    {map : TokenKey → Option OriginalDst} (hj : (s.worker w).job = .republishing p b mode)
    (hmap : map = s.map ∨
      map = update s.map (zeroKey (fullKey cfg.listenPort p.client p.tokenAddr))
        (some (recoveredOriginal b.originalDst))) :
    Sound cfg ({ s with map := map }.setWorker w
      { s.worker w with job := .resolved p ⟨b.originalDst, true, mode⟩ }) := by
  have hm : Memory cfg s (fullKey cfg.listenPort p.client p.tokenAddr) b.originalDst true :=
    ⟨w, .pending (by rw [hj]; rfl)⟩
  have hco : Coherent cfg map s.lastHeld (Memory cfg s) := by
    rcases hmap with rfl | rfl
    · exact h.coherent
    · exact h.coherent.republish hm
  refine (h.ofMap hco).keeps (fits_resolved _ _) fun k d c hm => ?_
  rcases hm.ofJob with hm | ⟨_, _, hp, rfl, rfl, rfl⟩ | ⟨_, _, _, _, hd, -⟩
  · exact hm
  · cases hp
    exact .pending (by rw [hj]; rfl)
  · cases hd

/-- **A closed client is found.** -/
theorem sound_begin (h : Sound cfg s) {client : Sockaddr} {after : Option (Packet × Resolved)}
    (hafter : after = (s.worker w).job.pending)
    (hb : (s.worker w).begin client after = some x) : Sound cfg (s.setWorker w x) := by
  unfold Worker.begin at hb
  split at hb
  · rename_i k hk
    split at hb
    · rename_i hloop
      cases hb
      refine h.keeps ⟨(fun _ _ h => nomatch h), ?_⟩ fun k' d c hm => ?_
      · intro client' rest' after' he
        cases he
        exact hloop
      · rcases hm.ofJob with hm | ⟨p, r, hp, rfl, rfl, rfl⟩ | ⟨_, _, _, b, hd, hb, acts, rfl, rfl, rfl⟩
        · exact hm
        · exact .pending (hafter.symm.trans hp)
        · cases hd
          exact .binding (List.mem_of_find?_eq_some hk) hb (.inl acts)
    · cases hb
  · cases hb

/-- **A token of a closed client is deleted.** -/
theorem sound_delete (h : Sound cfg s) {client : Sockaddr} {b : Binding} {rest : List Binding}
    {after : Option (Packet × Resolved)} {map : TokenKey → Option OriginalDst}
    (hj : (s.worker w).job = .deleting client (b :: rest) after)
    (hmap : map = s.map ∨ ∃ k, map = update s.map k none) :
    Sound cfg ({ s with map := map }.setWorker w
      { s.worker w with job := .deleting client rest after }) := by
  have hco : Coherent cfg map s.lastHeld (Memory cfg s) := by
    rcases hmap with rfl | ⟨k, rfl⟩
    · exact h.coherent
    · exact h.coherent.evict k
  refine (h.ofMap hco).keeps ⟨(fun _ _ h => nomatch h), ?_⟩ fun k d c hm => ?_
  · intro client' rest' after' he
    cases he
    exact h.loopback w _ _ _ hj
  · rcases hm.ofJob with hm | ⟨p, r, hp, rfl, rfl, rfl⟩ | ⟨_, _, _, b', hd, hb, acts, rfl, rfl, rfl⟩
    · exact hm
    · exact .pending (by rw [hj]; exact hp)
    · cases hd
      exact .deleting hj (List.mem_cons_of_mem _ hb) acts

/-- **The session of a closed client goes.** -/
theorem sound_finish (h : Sound cfg s) {client : Sockaddr} {after : Option (Packet × Resolved)}
    (hj : (s.worker w).job = .deleting client [] after) :
    Sound cfg (s.setWorker w ((s.worker w).finish client after)) := by
  unfold Worker.finish
  rcases after with _ | ⟨p, r⟩
  · exact h.keeps fits_idle fun _ _ _ hm => hm.ofFilter (.inl rfl) (by rintro _ _ _ ⟨⟩)
  · exact h.keeps (fits_resolved p r) fun _ _ _ hm =>
      hm.ofFilter (.inr (by rw [hj]; rfl)) (by rintro _ _ _ ⟨⟩)

/-- A batch begins; cache entries may expire. -/
theorem sound_tick (h : Sound cfg s) {now : Nat} (hnow : (s.worker w).now ≤ now) :
    Sound cfg (s.setWorker w { s.worker w with now := now }) := by
  refine h.keeps (h.fits w) fun k d c hm => ?_
  cases hm with
  | binding hk hb acts => exact .binding hk hb acts
  | cached he live hd => exact .cached he (Nat.lt_of_le_of_lt hnow live) hd
  | pending hj => exact .pending hj
  | deleting hj hb acts => exact .deleting hj hb acts

theorem sound_settle (h : Sound cfg s) {p : Packet} {r : Resolved} {o : Outcome}
    (hj : (s.worker w).job = .resolved p r) (hc : Careful cfg s (.settle w o))
    (hneeds : o ≠ .unanswered ∨ r.needsOriginalReplySocket = true) :
    Sound cfg (s.setWorker w ((s.worker w).settled p r o)) := by
  refine h.keeps ?_ fun _ _ _ hm => hm.ofSettled hj fun ho => ?_
  · have hidle : ((s.worker w).settled p r o).job = .idle := by
      unfold Worker.settled
      split
      · rfl
      · cases o <;> rfl
    rw [hidle]
    exact fits_idle
  · subst ho
    have hr := hneeds.resolve_left fun hn => hn rfl
    simp only [Resolved.needsOriginalReplySocket, Bool.and_eq_true, Bool.not_eq_true'] at hr
    exact ⟨hr.1, hc p r hj⟩

/-- **Careful steps keep the map and the memories in agreement.** -/
theorem sound_step {s' : State} {a : Action} (h : Sound cfg s) (hc : Careful cfg s a)
    (run : step cfg s a = some s') : Sound cfg s' := by
  cases a with
  | publish k v =>
      simp only [step, Option.ite_none_right_eq_some, Option.some.injEq] at run
      obtain ⟨hp, rfl⟩ := run
      obtain ⟨hlocal, hzero, hfull⟩ := hc
      simp only [publishable, decide_eq_true_eq] at hp
      obtain ⟨htoken, hd, hflags⟩ := hp
      refine h.ofMap (h.coherent.put ⟨htoken, hd⟩ (fun hne => ⟨hlocal hne, ?_⟩) hzero hfull)
      rcases hflags with he | he
      · exact absurd he hne
      · simp [isConnected, he]
  | evict k =>
      cases run
      exact h.ofMap (h.coherent.evict k)
  | tick w now =>
      simp only [step, Option.ite_none_right_eq_some, Option.some.injEq] at run
      obtain ⟨⟨-, hnow⟩, rfl⟩ := run
      exact sound_tick h hnow
  | datagram w p room =>
      simp only [step, Option.ite_none_right_eq_some, Option.some.injEq] at run
      obtain ⟨⟨-, hp⟩, rfl⟩ := run
      exact sound_takeDatagram h hp hc
  | second w room =>
      simp only [step] at run
      split at run
      · rename_i p preference hj
        have hclash := hc p preference hj
        cases run
        split
        · rename_i d hfind
          obtain ⟨v, hv, hd⟩ := Option.bind_eq_some_iff.mp hfind
          -- the second key held a destination, which is noted as the last one held
          refine sound_second (h.noted hv hd) hj hclash fun v' d' hv' hd' => ?_
          cases hv.symm.trans hv'
          rw [← hd, hd']
          exact update_self ..
        · rename_i hfind
          refine sound_second h hj hclash fun v d hv hd => ?_
          rw [hv, Option.bind_some, hd] at hfind
          cases hfind
      · cases run
  | republish w ok =>
      simp only [step] at run
      split at run
      · rename_i p b mode hj
        cases run
        cases ok with
        | true => exact sound_republish h hj (.inr rfl)
        | false => exact sound_republish h hj (.inl rfl)
      · cases run
  | settle w o =>
      simp only [step] at run
      split at run
      · rename_i p r hj
        simp only [Option.ite_none_right_eq_some, Option.some.injEq] at run
        -- without a reply socket, no connected socket's binding was given another token
        obtain ⟨hneeds, rfl⟩ := run
        exact sound_settle h hj hc hneeds
      · cases run
  | release w client =>
      simp only [step] at run
      split at run
      · rename_i hj
        obtain ⟨x, hx, rfl⟩ := Option.map_eq_some_iff.mp run
        exact sound_begin h (by rw [hj]; rfl) hx
      · rename_i p r hj
        simp only [Option.ite_none_right_eq_some] at run
        obtain ⟨x, hx, rfl⟩ := Option.map_eq_some_iff.mp run.2
        exact sound_begin h (by rw [hj]; rfl) hx
      · cases run
  | delete w =>
      simp only [step] at run
      split at run
      · rename_i client after hj
        cases run
        exact sound_finish h hj
      · rename_i client b rest after hj
        cases run
        split
        · exact sound_delete h hj (.inr ⟨_, rfl⟩)
        · exact sound_delete h hj (.inl rfl)
      · cases run
  | drop w client =>
      simp only [step, Option.ite_none_right_eq_some, Option.some.injEq] at run
      obtain ⟨hj, rfl⟩ := run
      exact h.keeps (h.fits w) fun _ _ _ hm => hm.ofFilter (.inr rfl) 
        fun _ _ _ h => nomatch hj.symm.trans h
  | unbind w client d =>
      simp only [step, Option.ite_none_right_eq_some, Option.some.injEq] at run
      obtain ⟨hj, rfl⟩ := run
      exact h.keeps (h.fits w) fun _ _ _ hm => hm.ofUnbound hj
  | fullcone w client d =>
      simp only [step, Option.ite_none_right_eq_some, Option.some.injEq] at run
      obtain ⟨hj, rfl⟩ := run
      exact h.keeps (h.fits w) fun _ _ _ hm => hm.ofFullcone hj

theorem sound_reach (h : Reach cfg (Careful cfg) s) : Sound cfg s := by
  induction h with
  | initial => exact sound_initial
  | step past meets run ih => exact sound_step ih meets run

end Steps

/-! ## What the bridge touches -/

/-- The key a worker's next map access changes, and the binding it acts for. -/
def Job.touches (cfg : Config) : Job → Option (TokenKey × Binding)
  | .republishing p b _ => some (zeroKey (fullKey cfg.listenPort p.client p.tokenAddr), b)
  | .deleting client (b :: _) _ =>
      if b.hasToken then some (zeroKey (fullKey cfg.listenPort client b.tokenAddr), b) else none
  | _ => none

/-- Every change the bridge is about to make is to a key that is absent or holds the destination of
the binding it is made for, its next step changes no other key, and a recovered destination is the
one the map last held for the token when the client used it. -/
structure TouchesOwn (cfg : Config) (s : State) : Prop where
  own : ∀ w k b, (s.worker w).job.touches cfg = some (k, b) →
    s.map k = none ∨ (s.map k).bind dstOf = some b.originalDst
  only : ∀ a s' k, step cfg s a = some s' → (∀ k v, a ≠ .publish k v) → (∀ k, a ≠ .evict k) →
    s'.map k = s.map k ∨ ∃ w b, (s.worker w).job.touches cfg = some (k, b)
  recovered : ∀ w p b mode, (s.worker w).job = .republishing p b mode →
    s.lastHeld (fullKey cfg.listenPort p.client p.tokenAddr) = some b.originalDst

/-- The bridge changes the map nowhere else. -/
theorem step_map {cfg : Config} {s s' : State} {a : Action} (run : step cfg s a = some s')
    (hpublish : ∀ k v, a ≠ .publish k v) (hevict : ∀ k, a ≠ .evict k) (k : TokenKey) :
    s'.map k = s.map k ∨ ∃ w b, (s.worker w).job.touches cfg = some (k, b) := by
  have hput : ∀ {w key b v}, (s.worker w).job.touches cfg = some (key, b) →
      update s.map key v k = s.map k ∨ ∃ w b, (s.worker w).job.touches cfg = some (k, b) := by
    intro w key b v ht
    by_cases hk : k = key
    · exact .inr ⟨w, b, hk ▸ ht⟩
    · exact .inl (update_of_ne hk ..)
  cases a with
  | publish k v => exact absurd rfl (hpublish k v)
  | evict k => exact absurd rfl (hevict k)
  | republish w ok =>
      simp only [step] at run
      split at run
      · rename_i p b mode hj
        cases run
        cases ok with
        | true => exact hput (w := w) (b := b) (by rw [hj]; rfl)
        | false => exact .inl rfl
      · cases run
  | delete w =>
      simp only [step] at run
      split at run
      · cases run
        exact .inl rfl
      · rename_i client b rest after hj
        cases run
        split
        · rename_i ht
          exact hput (w := w) (b := b) (by rw [hj, Job.touches, if_pos ht])
        · exact .inl rfl
      · cases run
  | tick | drop | unbind | fullcone =>
      simp only [step, Option.ite_none_right_eq_some, Option.some.injEq] at run
      obtain ⟨-, rfl⟩ := run
      exact .inl rfl
  | datagram w p room =>
      simp only [step, Option.ite_none_right_eq_some, Option.some.injEq] at run
      obtain ⟨-, rfl⟩ := run
      exact .inl (by rw [takeDatagram_map])
  | second w room =>
      simp only [step] at run
      split at run
      · cases run
        rw [lookedUp_map]
        split <;> exact .inl rfl
      · cases run
  | settle w o =>
      simp only [step] at run
      split at run
      · simp only [Option.ite_none_right_eq_some, Option.some.injEq] at run
        obtain ⟨-, rfl⟩ := run
        exact .inl rfl
      · cases run
  | release w client =>
      simp only [step] at run
      split at run
      · obtain ⟨x, -, rfl⟩ := Option.map_eq_some_iff.mp run
        exact .inl rfl
      · simp only [Option.ite_none_right_eq_some] at run
        obtain ⟨x, -, rfl⟩ := Option.map_eq_some_iff.mp run.2
        exact .inl rfl
      · cases run

/-- **In careful runs the bridge touches only its own entries.** -/
theorem touchesOwn_reach (cfg : Config) (s : State) (h : Reach cfg (Careful cfg) s) :
    TouchesOwn cfg s := by
  have hs := sound_reach h
  have hvalue : ∀ {k d}, (∀ v, s.map k = some v → dstOf v = some d) →
      s.map k = none ∨ (s.map k).bind dstOf = some d := by
    intro k d hv
    cases hm : s.map k with
    | none => exact .inl rfl
    | some v => exact .inr (hv v hm)
  refine ⟨fun w k b ht => hvalue fun v hv => ?_,
    fun _ _ k run hpublish hevict => step_map run hpublish hevict k, fun w p b mode hj => ?_⟩
  · unfold Job.touches at ht
    split at ht
    · rename_i p b' mode hj
      cases ht
      have hm : Memory cfg s (fullKey cfg.listenPort p.client p.tokenAddr) b.originalDst true :=
        ⟨w, .pending (by rw [hj]; rfl)⟩
      exact hs.coherent.zero _ _ _ hm ⟨(hs.coherent.token _ _ hm).1, .inl rfl⟩ v hv
    · rename_i client b' rest after hj
      split at ht
      · rename_i hb
        cases ht
        have hm : Memory cfg s (fullKey cfg.listenPort client b.tokenAddr) b.originalDst
            b.connectedUdpToken := ⟨w, .deleting hj List.mem_cons_self hb⟩
        refine hs.coherent.zero _ _ _ hm ⟨(hs.coherent.published _ v hv).1, .inr ?_⟩ v hv
        exact keyIsLocal_fullKey (hs.loopback w _ _ _ hj) ..
      · cases ht
    · cases ht
  · exact hs.coherent.held _ _ ⟨w, .pending (by rw [hj]; rfl)⟩

/-! ## A local client -/

/-- A cache of one slot, and the prefix 198.18.0.0/16 for tokens. -/
def oneSlot : Config where
  slot _ := 0
  listenPort := 1080
  isToken addr := addr.take 2 == [198, 18]

/-- 127.0.0.1, port 40000. -/
def localClient : Sockaddr := ⟨.inet, [0x9c, 0x40, 127, 0, 0, 1]⟩

def query : Packet := ⟨localClient, pad16 [198, 18, 0, 1], none⟩

def queryKey : TokenKey := fullKey 1080 localClient query.tokenAddr

/-- Port 53 of 8.8.8.8, for a connected socket. -/
def firstDst : OriginalDst := ⟨2, 17, 53, pad16 [8, 8, 8, 8], 1⟩

/-- Port 53 of 9.9.9.9. -/
def otherDst : OriginalDst := ⟨2, 17, 53, pad16 [9, 9, 9, 9], 1⟩

def firstPublished : State :=
  { initial with map := update initial.map (zeroKey queryKey) (some firstDst) }

/-- The client writes once, and then its token is evicted. -/
def evicted : List Action :=
  [.datagram 0 query true, .settle 0 .bound, .evict (zeroKey queryKey)]

/-- It writes again, and the worker is about to write its token again. -/
def missed : List Action := evicted ++ [.tick 0 2000, .datagram 0 query true, .second 0 true]

theorem step_firstPublished :
    step oneSlot initial (.publish (zeroKey queryKey) firstDst) = some firstPublished := by
  have hp : publishable oneSlot (zeroKey queryKey) firstDst = true := by decide
  simp [step, firstPublished, hp]

theorem careful_of_none {s : State} {k : TokenKey} (h : s.map k = none) :
    Careful.Unambiguous s k :=
  fun _ _ _ _ h' => nomatch h.symm.trans h'

/-- The run is careful. -/
theorem reach_missed :
    ∃ s, play oneSlot firstPublished missed = some s ∧ Reach oneSlot (Careful oneSlot) s := by
  have h₀ : Reach oneSlot (Careful oneSlot) firstPublished :=
    Reach.initial.step (a := .publish (zeroKey queryKey) firstDst)
      ⟨fun h => absurd rfl h, fun _ _ _ h => absurd h memory_initial,
        fun _ h => absurd h memory_initial⟩ step_firstPublished
  have h₁ := h₀.step (a := .datagram 0 query true) (careful_of_none (by decide)) rfl
  have h₂ := h₁.step (a := .settle 0 .bound) trivial rfl
  have h₃ := h₂.step (a := .evict (zeroKey queryKey)) trivial rfl
  have h₄ := h₃.step (a := .tick 0 2000) trivial rfl
  have h₅ := h₄.step (a := .datagram 0 query true) (careful_of_none (by decide)) rfl
  have h₆ := h₅.step (a := .second 0 true)
    (fun _ _ h => by cases h; exact careful_of_none (by decide)) rfl
  exact ⟨_, rfl, h₆⟩

/-- The worker is about to write the client's token again, and that is its own. -/
theorem missed_touchesOwn :
    ∃ s, play oneSlot firstPublished missed = some s ∧
      (((s.worker 0).job.touches oneSlot).map Prod.fst) = some (zeroKey queryKey) ∧
      TouchesOwn oneSlot s := by
  obtain ⟨s, hplay, hreach⟩ := reach_missed
  have hkey : (play oneSlot firstPublished missed).map (fun s =>
      ((s.worker 0).job.touches oneSlot).map Prod.fst) = some (some (zeroKey queryKey)) := by
    decide +kernel
  rw [hplay] at hkey
  exact ⟨s, hplay, Option.some.inj hkey, touchesOwn_reach oneSlot s hreach⟩

/-- **Others' entries are deleted and overwritten.**  The evicted token is published for another
socket: when the first client's socket closes, and when the publication comes between the lookups of
a datagram and its recovery. -/
theorem others_touched :
    (∃ s, Reach oneSlot (fun _ _ => True) s ∧
      (∃ client rest after, (s.worker 0).job = .deleting client rest after) ∧
      ¬ TouchesOwn oneSlot s) ∧
    ∃ s, Reach oneSlot (fun _ _ => True) s ∧
      (∃ p b mode, (s.worker 0).job = .republishing p b mode) ∧ ¬ TouchesOwn oneSlot s := by
  have h₀ : Reach oneSlot (fun _ _ => True) firstPublished :=
    Reach.initial.step trivial step_firstPublished
  have hfails : ∀ {s : State} {b : Binding}, (s.worker 0).job.touches oneSlot =
      some (zeroKey queryKey, b) → s.map (zeroKey queryKey) = some otherDst →
      dstOf otherDst ≠ some b.originalDst → ¬ TouchesOwn oneSlot s := by
    intro s b ht hm hne hown
    rcases hown.own 0 _ b ht with h | h
    · exact nomatch hm.symm.trans h
    · rw [hm] at h
      exact hne h
  constructor
  · have h₁ := h₀.play (evicted ++ [.publish (zeroKey queryKey) otherDst, .release 0 localClient])
      rfl
    exact ⟨_, h₁, ⟨_, _, _, rfl⟩, hfails rfl (by decide) (by decide)⟩
  · have h₁ := h₀.play (missed ++ [.publish (zeroKey queryKey) otherDst]) rfl
    exact ⟨_, h₁, ⟨_, _, _, rfl⟩, hfails rfl (by decide) (by decide)⟩

end Bpf2Socks.Token
