/-
# Bpf2Socks.Cgroup.Publish — how a forward program publishes a token.

A `connect` that is proxied draws a random token, stores the original destination under it and rewrites
the context.  A TCP socket's original peer is recorded under its cookie besides.  Both records are built
on the stack field by field; what is in them is read off the writes.
-/
import Bpf2Socks.Cgroup.Peers

namespace Bpf2Socks.Cgroup

open Lib (Line Outcome)
open Lib.Asm (Ends Halts Takes andThen branch labels onward run run_append)

/-! ## Records -/

/-- `struct bpf2socks_token_key_bpf` of an IPv4 token; the port in host order. -/
def tokenKey4 (protocol : Word) (port : BitVec 16) (addr : Word) : List Byte :=
  leBytes 1 afInet ++ (leBytes 1 protocol ++ (leBytes 2 port ++ (leBytes 4 addr ++
    List.replicate 32 0)))

/-- `struct bpf2socks_original_dst_bpf` of an IPv4 destination; the port in host order. -/
def originalDst4 (protocol : Word) (port : BitVec 16) (addr : Word) (flags : Word) : List Byte :=
  leBytes 1 afInet ++ (leBytes 1 protocol ++ (leBytes 2 port ++ (leBytes 4 addr ++
    (List.replicate 12 0 ++ (leBytes 1 flags ++ List.replicate 3 0)))))

/-- `struct bpf2socks_udp_peer_key_bpf` without a family, which is how TCP sockets are told. -/
def cookieKey (cookie : BitVec 64) : List Byte := leBytes 8 cookie ++ List.replicate 8 0

/-- `struct bpf2socks_udp_peer_bpf` of an IPv4 peer of a TCP socket; the port in network order. -/
def tcpPeer4 (port : BitVec 16) (addr : Word) : List Byte :=
  leBytes 1 afInet ++ (leBytes 1 protoTcp ++ (leBytes 2 port ++ (leBytes 4 addr ++
    List.replicate 12 0)))

theorem length_originalDst4 (protocol : Word) (port : BitVec 16) (addr flags : Word) :
    (originalDst4 protocol port addr flags).length = MapId.token.valueSize := by
  simp [originalDst4, MapId.valueSize]

theorem length_tcpPeer4 (port : BitVec 16) (addr : Word) :
    (tcpPeer4 port addr).length = MapId.tcpPeer.valueSize := by simp [tcpPeer4, MapId.valueSize]

/-- A part of what was written is read. -/
theorem readAt_writeAt_within (f : Int → Byte) {off off' : Int} {bytes : List Byte} {n : Nat}
    (h : off ≤ off') (h' : off' + n ≤ off + bytes.length) :
    readAt (writeAt f off bytes) off' n = (bytes.drop (off' - off).toNat).take n := by
  apply List.ext_getElem
  · rw [length_readAt, List.length_take, List.length_drop]
    omega
  intro i h₁ h₂
  have hi : i < n := by simpa using h₁
  simp only [readAt, List.getElem_map, List.getElem_range, writeAt, List.getElem_take,
    List.getElem_drop]
  have hk : (off' + (i : Int) - off).toNat = (off' - off).toNat + i := by omega
  rw [if_pos (by omega), hk]
  exact (List.getElem_eq_getD 0).symm

/-! ## Random tokens -/

/-- A draw made a token: in `127.128.0.0/9`, in network order. -/
def tokenOf (draw : Word) : Word := swap32 (draw &&& tokenHostMask ||| tokenPrefix)

/-- The state after a draw, but for `r1` to `r5`. -/
def State.drawn (env : Env) (s : State) : State :=
  { s.set .r0 (word (env.random s.calls)) with calls := s.calls + 1 }

section Draw

variable (env : Env) (s : State)

@[simp] theorem State.drawn_reg (r : Reg) :
    (s.drawn env).reg r = if r = .r0 then word (env.random s.calls) else s.reg r := rfl
@[simp] theorem State.drawn_stack : (s.drawn env).stack = s.stack := rfl
@[simp] theorem State.drawn_ctx : (s.drawn env).ctx = s.ctx := rfl
@[simp] theorem State.drawn_maps : (s.drawn env).maps = s.maps := rfl
@[simp] theorem State.drawn_calls : (s.drawn env).calls = s.calls + 1 := rfl

@[simp] theorem helper_getPrandomU32 : helper env .getPrandomU32 s = some (s.drawn env) := rfl

end Draw

/-- Like `Keeps`, after `n` counted helper calls. -/
structure Drew (n : Nat) (rs : List Reg) (s s' : State) : Prop where
  ctx : s'.ctx = s.ctx
  maps : s'.maps = s.maps
  calls : s'.calls = s.calls + n
  stack : s'.stack = s.stack
  reg : ∀ r ∈ rs, s'.reg r = s.reg r

section Publish

variable {env : Env} {present : MapId → Bool} {s : State} {addr : Word} {port bridgePort : BitVec 16}

theorem immVal_tokenHostMask : immVal tokenHostMask = word tokenHostMask := rfl
theorem immVal_tokenPrefix : immVal tokenPrefix = word tokenPrefix := rfl

/-- The token is drawn into `r9`. -/
theorem takes_emitRandomTokenV4 :
    Takes (isa env) emitRandomTokenV4 s none (fun s' => Drew 1 [.r6, .r7, .r8, .r10] s s' ∧
      s'.reg .r9 = word (tokenOf (env.random s.calls))) := by
  unfold Takes
  simp [emitRandomTokenV4, emitTokenBits, immVal_tokenHostMask, immVal_tokenPrefix, Alu.apply,
    tokenOf]
  refine ⟨rfl, rfl, rfl, rfl, fun r hr => ?_⟩
  simp only [List.mem_cons, List.not_mem_nil, or_false] at hr
  rcases hr with rfl | rfl | rfl | rfl <;> rfl

/-- The transport protocol of a `connect`. -/
def Context.transport (c : Context) : Word := if c.type = sockDgram then protoUdp else protoTcp

/-- The flag of an entry that a connected UDP socket made. -/
def Context.connectedFlag (c : Context) : Word := if c.type = sockDgram then flagConnectedUdp else 0

theorem takes_emitProtocol (hs : Ready s) :
    Takes (isa env) (emitProtocol protoTcp true) s none
      (fun s' => Drew 0 [.r6, .r7, .r8, .r9, .r10] s s' ∧ s'.reg .r5 = word s.ctx.transport) := by
  unfold Takes
  by_cases ht : s.ctx.type = sockDgram
  all_goals
    simp [emitProtocol, hs.r6, ht, Context.transport]
    refine ⟨rfl, rfl, rfl, rfl, fun r hr => ?_⟩
    simp only [List.mem_cons, List.not_mem_nil, or_false] at hr
    rcases hr with rfl | rfl | rfl | rfl | rfl <;> rfl

/-- The fields of the two records, as `emitToken4` writes them. -/
def emitRecords4 (bridgePort : BitVec 16) : Code :=
  emitZeroRegion Stack.tokenKey 10 ++ (emitZeroRegion Stack.originalDst 6 ++
  ([stMem .b .r10 Stack.tokenKey afInet, stxMem .b .r10 .r5 (Stack.tokenKey + 1),
    stMem .h .r10 (Stack.tokenKey + 2) (bridgePort.setWidth 32),
    stxMem .w .r10 .r9 (Stack.tokenKey + 4), stMem .b .r10 Stack.originalDst afInet,
    stxMem .b .r10 .r5 (Stack.originalDst + 1), endianOp .r8 16,
    stxMem .h .r10 .r8 (Stack.originalDst + 2), stxMem .w .r10 .r7 (Stack.originalDst + 4)] ++
  emitConnectedUdpOriginalFlag true))

/-- Both records stand on the stack. -/
structure Recorded (protocol : Word) (bridgePort : BitVec 16) (token : Word) (port : BitVec 16)
    (addr flags : Word) (s : State) : Prop where
  key : readAt s.stack Stack.tokenKey MapId.token.keySize = tokenKey4 protocol bridgePort token
  value : readAt s.stack Stack.originalDst MapId.token.valueSize =
    originalDst4 protocol (swap16 port) addr flags

/-- The rest of a state is as it was. -/
structure Beside (rs : List Reg) (s s' : State) : Prop where
  ctx : s'.ctx = s.ctx
  maps : s'.maps = s.maps
  calls : s'.calls = s.calls
  reg : ∀ r ∈ rs, s'.reg r = s.reg r

/-- The stack after the writes of both records. -/
def recordStack (protocol : Word) (bridgePort : BitVec 16) (token : Word) (port : BitVec 16)
    (addr : Word) (f : Int → Byte) : Int → Byte :=
  writeAt (writeAt (writeAt (writeAt (writeAt (writeAt (writeAt (writeAt (writeAt (writeAt f (-96)
    (List.replicate 40 0)) (-144) (List.replicate 24 0)) (-96) (leBytes 1 afInet)) (-95)
    (leBytes 1 protocol)) (-94) (leBytes 2 bridgePort)) (-92) (leBytes 4 token)) (-144)
    (leBytes 1 afInet)) (-143) (leBytes 1 protocol)) (-142) (leBytes 2 (swap16 port))) (-140)
    (leBytes 4 addr)

theorem readAt_recordStack_key (protocol : Word) (token : Word) (f : Int → Byte) :
    readAt (recordStack protocol bridgePort token port addr f) (-96) 40 =
      tokenKey4 protocol bridgePort token := by
  rw [show 40 = 1 + (1 + (2 + (4 + 32))) from rfl, readAt_add, readAt_add, readAt_add, readAt_add]
  simp (disch := simp) [recordStack, tokenKey4, readAt_writeAt_of_disjoint, readAt_writeAt_self,
    readAt_writeAt_within, -List.reduceReplicate]

theorem readAt_recordStack_value (protocol : Word) (token : Word) (f : Int → Byte) :
    readAt (recordStack protocol bridgePort token port addr f) (-144) 24 =
      originalDst4 protocol (swap16 port) addr 0 := by
  rw [show 24 = 1 + (1 + (2 + (4 + (12 + (1 + 3))))) from rfl, readAt_add, readAt_add, readAt_add,
    readAt_add, readAt_add, readAt_add]
  simp (disch := simp) [recordStack, originalDst4, readAt_writeAt_of_disjoint, readAt_writeAt_self,
    readAt_writeAt_within, -List.reduceReplicate]
  rfl

/-- The flag changes one byte of a record. -/
theorem readAt_flagged {f : Int → Byte} {protocol : Word}
    (h : readAt f (-144) 24 = originalDst4 protocol port addr 0) (flags : Word) :
    readAt (writeAt f (-124) (leBytes 1 flags)) (-144) 24 = originalDst4 protocol port addr flags := by
  rw [show 24 = 20 + (1 + 3) from rfl, readAt_add, readAt_add] at h ⊢
  have hsplit : ∀ flags, originalDst4 protocol port addr flags = (leBytes 1 afInet ++
      (leBytes 1 protocol ++ (leBytes 2 port ++ (leBytes 4 addr ++ List.replicate 12 0)))) ++
      (leBytes 1 flags ++ List.replicate 3 0) := fun flags => by
    simp only [originalDst4, List.append_assoc]
  rw [hsplit] at h ⊢
  obtain ⟨hfirst, hrest⟩ := List.append_inj h (by simp)
  obtain ⟨-, hlast⟩ := List.append_inj hrest (by simp)
  rw [show (-144 : Int) + (20 : Nat) = -124 from rfl] at hlast ⊢
  rw [readAt_writeAt_of_disjoint _ (.inr (by simp)), hfirst, readAt_writeAt_self _ _ (by simp),
    readAt_writeAt_of_disjoint _ (.inl (by simp)), hlast]

theorem takes_emitRecords4 {token : Word} (hs : Ready s) (h5 : s.reg .r5 = word s.ctx.transport)
    (h7 : s.reg .r7 = word addr) (h8 : s.reg .r8 = half port) (h9 : s.reg .r9 = word token) :
    Takes (isa env) (emitRecords4 bridgePort) s none (fun s' => Beside [.r6, .r9, .r10] s s' ∧
      Recorded s.ctx.transport bridgePort token port addr s.ctx.connectedFlag s') := by
  have hport : leBytes 2 (bridgePort.setWidth 32) = leBytes 2 bridgePort :=
    leBytes_setWidth 2 32 (by decide) bridgePort
  have hvalue : readAt (recordStack s.ctx.transport bridgePort token port addr s.stack) (-144) 24 =
      originalDst4 s.ctx.transport (swap16 port) addr 0 :=
    readAt_recordStack_value s.ctx.transport token s.stack
  have hkey : readAt (recordStack s.ctx.transport bridgePort token port addr s.stack) (-96) 40 =
      tokenKey4 s.ctx.transport bridgePort token :=
    readAt_recordStack_key s.ctx.transport token s.stack
  have hregs : ∀ {s' : State}, s'.reg .r6 = s.reg .r6 → s'.reg .r9 = s.reg .r9 →
      s'.reg .r10 = s.reg .r10 → ∀ r ∈ [Reg.r6, .r9, .r10], s'.reg r = s.reg r := by
    intro s' h6 h9 h10 r hr
    simp only [List.mem_cons, List.not_mem_nil, or_false] at hr
    rcases hr with rfl | rfl | rfl
    · exact h6
    · exact h9
    · exact h10
  unfold Takes
  by_cases ht : s.ctx.type = sockDgram
  · simp [emitRecords4, emitConnectedUdpOriginalFlag, run_emitZeroRegion, hs.r6, hs.r10, h5, h7, h8,
      h9, ht, hport, -List.reduceReplicate]
    refine ⟨⟨by simp, by simp, by simp, hregs (by simp) (by simp) (by simp)⟩, ?_, ?_⟩
    · rw [← hkey]
      exact readAt_writeAt_of_disjoint _ (.inl (by simp [Stack.originalDst, Stack.tokenKey]))
    · have hflag : s.ctx.connectedFlag = flagConnectedUdp := if_pos ht
      rw [hflag]
      exact readAt_flagged hvalue flagConnectedUdp
  · simp [emitRecords4, emitConnectedUdpOriginalFlag, run_emitZeroRegion, hs.r6, hs.r10, h5, h7, h8,
      h9, ht, hport, -List.reduceReplicate]
    refine ⟨⟨by simp, by simp, by simp, hregs (by simp) (by simp) (by simp)⟩, hkey, ?_⟩
    have hflag : s.ctx.connectedFlag = 0 := if_neg ht
    rw [hflag]
    exact hvalue

/-- The maps with a token recorded. -/
def Maps.publish (t : Maps) (protocol : Word) (bridgePort : BitVec 16) (token : Word)
    (port : BitVec 16) (addr flags : Word) : Maps :=
  t.put .token (tokenKey4 protocol bridgePort token) (originalDst4 protocol port addr flags)
    (length_originalDst4 ..)

/-- An entry is put under a key in the bytes of a record. -/
theorem Maps.put_congr (t : Maps) (m : MapId) {key key' value value' : List Byte}
    (hk : key = key') (hv : value = value') (h : value.length = m.valueSize)
    (h' : value'.length = m.valueSize) : t.put m key value h = t.put m key' value' h' := by
  subst hk hv
  rfl

/-- What has happened once a token is published, or refused. -/
structure Published (env : Env) (bridgePort port : BitVec 16) (addr : Word) (s s' : State) : Prop where
  ready : Ready s'
  r9 : s'.reg .r9 = word (tokenOf (env.random s.calls))
  ctx : s'.ctx = s.ctx
  calls : s'.calls = s.calls + 2
  maps : s'.maps = if env.refuses (s.calls + 1) then s.maps.evict .token (env.evicts (s.calls + 1)) else
    (s.maps.evict .token (env.evicts (s.calls + 1))).publish s.ctx.transport bridgePort
      (tokenOf (env.random s.calls)) (swap16 port) addr s.ctx.connectedFlag
  value : readAt s'.stack Stack.originalDst MapId.token.valueSize =
    originalDst4 s.ctx.transport (swap16 port) addr s.ctx.connectedFlag

/-- Publishing what stands on the stack. -/
theorem takes_emitPublishToken {protocol token flags : Word} (hs : Ready s)
    (hr : Recorded protocol bridgePort token port addr flags s) :
    Takes (isa env) (emitPublishToken false false) s
      (if env.refuses s.calls then some .drop else none) (fun s' => s'.ctx = s.ctx ∧
        s'.calls = s.calls + 1 ∧ s'.stack = s.stack ∧ Ready s' ∧ s'.reg .r9 = s.reg .r9 ∧
        s'.maps = if env.refuses s.calls then s.maps.evict .token (env.evicts s.calls) else
          (s.maps.evict .token (env.evicts s.calls)).publish protocol bridgePort token (swap16 port)
            addr flags) := by
  unfold Takes
  rw [emitPublishToken, if_neg Bool.false_ne_true, List.nil_append]
  rw [run_emitUpdate env s _ (by decide) (by decide) (by decide) (by decide) rfl hs.r10]
  have hne : bpfAny ≠ bpfNoexist := by decide
  by_cases hrefuse : env.refuses s.calls
  · simp [State.updated, hrefuse]
    exact ⟨hs.r6, hs.r10⟩
  · simp [State.updated, hrefuse, hne]
    refine ⟨⟨hs.r6, hs.r10⟩, ?_⟩
    exact Maps.put_congr _ _ hr.key hr.value (length_value ..) (length_originalDst4 ..)

/-- **A token is drawn and published**, or the update is refused and the socket dropped. -/
theorem takes_emitToken4 (hs : Ready s) (h7 : s.reg .r7 = word addr) (h8 : s.reg .r8 = half port) :
    Takes (isa env) (emitToken4 protoTcp true bridgePort false) s
      (if env.refuses (s.calls + 1) then some .drop else none)
      (Published env bridgePort port addr s) := by
  have hcode : emitToken4 protoTcp true bridgePort false = emitRandomTokenV4 ++
      (emitProtocol protoTcp true ++ (emitRecords4 bridgePort ++ emitPublishToken false false)) := by
    simp [emitToken4, emitRecords4]
  rw [hcode]
  refine Takes.through takes_emitRandomTokenV4 fun s₁ h₁ => ?_
  obtain ⟨hd₁, h9⟩ := h₁
  have hs₁ : Ready s₁ := ⟨(hd₁.reg _ (by simp)).trans hs.r6, (hd₁.reg _ (by simp)).trans hs.r10⟩
  refine Takes.through (takes_emitProtocol hs₁) fun s₂ h₂ => ?_
  obtain ⟨hd₂, h5⟩ := h₂
  have hs₂ : Ready s₂ := ⟨(hd₂.reg _ (by simp)).trans hs₁.r6, (hd₂.reg _ (by simp)).trans hs₁.r10⟩
  rw [← hd₂.ctx] at h5
  have h7₂ : s₂.reg .r7 = word addr :=
    (hd₂.reg _ (by simp)).trans ((hd₁.reg _ (by simp)).trans h7)
  have h8₂ : s₂.reg .r8 = half port :=
    (hd₂.reg _ (by simp)).trans ((hd₁.reg _ (by simp)).trans h8)
  have h9₂ : s₂.reg .r9 = word (tokenOf (env.random s.calls)) := (hd₂.reg _ (by simp)).trans h9
  refine Takes.through (takes_emitRecords4 hs₂ h5 h7₂ h8₂ h9₂) fun s₃ h₃ => ?_
  obtain ⟨hb, hrec⟩ := h₃
  have hs₃ : Ready s₃ := ⟨(hb.reg _ (by simp)).trans hs₂.r6, (hb.reg _ (by simp)).trans hs₂.r10⟩
  -- two calls were counted: the draw and the update
  have hcalls : s₃.calls = s.calls + 1 := by rw [hb.calls, hd₂.calls, hd₁.calls]
  have hctx : s₂.ctx = s.ctx := hd₂.ctx.trans hd₁.ctx
  have hmaps : s₃.maps = s.maps := hb.maps.trans (hd₂.maps.trans hd₁.maps)
  rw [hctx] at hrec
  rw [← hcalls]
  refine Takes.mono (takes_emitPublishToken hs₃ hrec) fun s₄ h₄ => ?_
  obtain ⟨hc₄, hn₄, hst₄, hready, h9₄, hm₄⟩ := h₄
  refine ⟨hready, h9₄.trans ((hb.reg _ (by simp)).trans h9₂), hc₄.trans (hb.ctx.trans hctx), ?_, ?_,
    ?_⟩
  · rw [hn₄, hcalls]
  · rw [hm₄, hmaps, hcalls]
  · rw [hst₄]
    exact hrec.value

/-! ## The peer of a TCP socket -/

/-- The maps with the original peer of a TCP socket recorded. -/
def Maps.recordPeer (t : Maps) (cookie : BitVec 64) (port : BitVec 16) (addr : Word) : Maps :=
  t.put .tcpPeer (cookieKey cookie) (tcpPeer4 port addr) (length_tcpPeer4 ..)

/-- Is the original peer to be recorded? -/
def recording (env : Env) (present : MapId → Bool) (c : Context) : Prop :=
  present .tcpPeer ∧ c.protocol = protoTcp ∧ env.cookie ≠ 0

instance (env : Env) (present : MapId → Bool) (c : Context) : Decidable (recording env present c) :=
  inferInstanceAs (Decidable (_ ∧ _ ∧ _))

/-- Is the original peer recorded? -/
def records (env : Env) (present : MapId → Bool) (c : Context) (calls : Nat) : Prop :=
  present .tcpPeer ∧ c.protocol = protoTcp ∧ env.cookie ≠ 0 ∧ ¬env.refuses calls

instance (env : Env) (present : MapId → Bool) (c : Context) (calls : Nat) :
    Decidable (records env present c calls) := inferInstanceAs (Decidable (_ ∧ _ ∧ _ ∧ ¬_))

/-- The maps after the update, if there is one, that is to record the original peer. -/
def Maps.tellPeer (env : Env) (present : MapId → Bool) (c : Context) (calls : Nat) (port : BitVec 16)
    (addr : Word) (t : Maps) : Maps :=
  if recording env present c then
    if env.refuses calls then t.evict .tcpPeer (env.evicts calls)
    else (t.evict .tcpPeer (env.evicts calls)).recordPeer env.cookie port addr
  else t

/-- The parts of a record on the stack that are copied. -/
theorem readAt_parts {f : Int → Byte} {protocol flags : Word}
    (h : readAt f (-144) 24 = originalDst4 protocol port addr flags) :
    readAt f (-144) 1 = leBytes 1 afInet ∧ readAt f (-142) 2 = leBytes 2 port ∧
      readAt f (-140) 4 = leBytes 4 addr ∧ readAt f (-136) 4 = leBytes 4 (0 : Word) ∧
      readAt f (-132) 4 = leBytes 4 (0 : Word) ∧ readAt f (-128) 4 = leBytes 4 (0 : Word) := by
  rw [originalDst4, show 24 = 1 + (1 + (2 + (4 + ((4 + (4 + 4)) + (1 + 3))))) from rfl, readAt_add,
    readAt_add, readAt_add, readAt_add, readAt_add] at h
  obtain ⟨h0, h⟩ := List.append_inj h (by simp)
  obtain ⟨-, h⟩ := List.append_inj h (by simp)
  obtain ⟨h2, h⟩ := List.append_inj h (by simp)
  obtain ⟨h4, h⟩ := List.append_inj h (by simp)
  obtain ⟨h8, -⟩ := List.append_inj h (by simp)
  have hz : List.replicate 12 (0 : Byte) =
      leBytes 4 (0 : Word) ++ (leBytes 4 (0 : Word) ++ leBytes 4 (0 : Word)) := by
    rw [leBytes_zero]
    rfl
  rw [hz, readAt_add, readAt_add] at h8
  obtain ⟨h8, h⟩ := List.append_inj h8 (by simp)
  obtain ⟨h12, h16⟩ := List.append_inj h (by simp)
  exact ⟨h0, h2, h4, h8, h12, h16⟩

/-- The stack with the peer record. -/
def peerStack (cookie : BitVec 64) (port : BitVec 16) (addr : Word) (f : Int → Byte) : Int → Byte :=
  writeAt (writeAt (writeAt (writeAt (writeAt (writeAt (writeAt (writeAt (writeAt (writeAt f (-168)
    (List.replicate 16 0)) (-192) (List.replicate 20 0)) (-168) (leBytes 8 cookie)) (-192)
    (leBytes 1 afInet)) (-191) (leBytes 1 protoTcp)) (-190) (leBytes 2 port)) (-188)
    (leBytes 4 addr)) (-184) (leBytes 4 (0 : Word))) (-180) (leBytes 4 (0 : Word))) (-176)
    (leBytes 4 (0 : Word))

theorem readAt_peerStack_key (cookie : BitVec 64) (f : Int → Byte) :
    readAt (peerStack cookie port addr f) (-168) 16 = cookieKey cookie := by
  rw [show 16 = 8 + 8 from rfl, readAt_add]
  simp (disch := simp) [peerStack, cookieKey, readAt_writeAt_of_disjoint, readAt_writeAt_self,
    readAt_writeAt_within, -List.reduceReplicate]

theorem readAt_peerStack_value (cookie : BitVec 64) (f : Int → Byte) :
    readAt (peerStack cookie port addr f) (-192) 20 = tcpPeer4 port addr := by
  have hz : List.replicate 12 (0 : Byte) =
      leBytes 4 (0 : Word) ++ (leBytes 4 (0 : Word) ++ leBytes 4 (0 : Word)) := by
    rw [leBytes_zero]
    rfl
  rw [show 20 = 1 + (1 + (2 + (4 + (4 + (4 + 4))))) from rfl, readAt_add, readAt_add, readAt_add,
    readAt_add, readAt_add, readAt_add, tcpPeer4, hz]
  simp (disch := simp) [peerStack, readAt_writeAt_of_disjoint, readAt_writeAt_self]

/-- On the way from `s`: the stack is `f`, which leaves the record of the token alone. -/
structure Copying (f : Int → Byte) (s s' : State) : Prop where
  ctx : s'.ctx = s.ctx
  maps : s'.maps = s.maps
  calls : s'.calls = s.calls
  ready : Ready s'
  stack : s'.stack = f
  record : ∀ i ≥ (-144 : Int), f i = s.stack i

theorem Copying.readAt_eq {f : Int → Byte} {s s' : State} (h : Copying f s s') {off : Int} {n : Nat}
    (hoff : -144 ≤ off) : readAt s'.stack off n = readAt s.stack off n := by
  rw [h.stack]
  exact readAt_congr fun i hi _ => h.record i (by omega)

/-- A write below the record. -/
theorem Copying.write {f : Int → Byte} {s s' : State} (h : Copying f s s') {off : Int}
    {bytes : List Byte} (hoff : off + bytes.length ≤ -144) :
    Copying (writeAt f off bytes) s (s'.write off bytes) := by
  refine ⟨h.ctx, h.maps, h.calls, ⟨h.ready.r6, h.ready.r10⟩, ?_, fun i hi => ?_⟩
  · rw [State.write_stack, h.stack]
  · rw [writeAt, if_neg (by omega)]
    exact h.record i hi

theorem Copying.set {f : Int → Byte} {s s' : State} (h : Copying f s s') {r : Reg} (v : Val)
    (h6 : r ≠ .r6) (h10 : r ≠ .r10) : Copying f s (s'.set r v) :=
  ⟨h.ctx, h.maps, h.calls, ⟨(if_neg h6.symm).trans h.ready.r6, (if_neg h10.symm).trans h.ready.r10⟩,
    h.stack, h.record⟩

/-- The bytes of a number that was read are the bytes that were read. -/
theorem leBytes_joinBytes {bytes : List Byte} {n : Nat} (h : bytes.length = n) (hn : n ≤ 8) :
    leBytes n (joinBytes bytes) = bytes := by
  apply List.ext_getElem (by simp [h])
  intro i h₁ h₂
  apply BitVec.eq_of_getLsbD_eq
  intro j hj
  have hlt : 8 * i + j < 8 * bytes.length := by omega
  have hdiv : (8 * i + j) / 8 = i := by omega
  have hmod : (8 * i + j) % 8 = j := by omega
  simp only [leBytes, List.getElem_map, List.getElem_range, byteOf, BitVec.getLsbD_extractLsb']
  rw [getLsbD_joinBytes _ (by omega), hdiv, hmod]
  simp [hj, hlt, List.getD, h₂]

/-- A part of the record is copied. -/
theorem takes_copy {f : Int → Byte} {s s' : State} (h : Copying f s s') {size : Size} {off off' : Int}
    {bytes : List Byte} (hbytes : readAt s.stack off size.bytes = bytes) (hoff : -144 ≤ off)
    (hoff' : off' + size.bytes ≤ -144) :
    Takes (isa env) [ldxMem size .r2 .r10 off, stxMem size .r10 .r2 off'] s' none
      (Copying (writeAt f off' bytes) s) := by
  have hlen : bytes.length = size.bytes := by rw [← hbytes, length_readAt]
  have hsize : size.bytes ≤ 8 := by cases size <;> decide
  have hread : readAt s'.stack off size.bytes = bytes := by rw [h.readAt_eq hoff, hbytes]
  unfold Takes
  simp only [run_op, step_ldx, h.ready.r10, load_fp, hread, Option.map_some, toEffect_some,
    onward_next, step_stx, State.set_reg, reduceCtorEq, if_false, if_true, State.storeVal, store_fp,
    Int.zero_add, leBytes_joinBytes hlen hsize, run_nil, Lib.Asm.ends_fall, true_and]
  exact (h.set (r := .r2) _ (by decide) (by decide)).write (by omega)

/-- The port of the record is copied in network order. -/
theorem takes_copyPort {f : Int → Byte} {s s' : State} (h : Copying f s s')
    (hport : readAt s.stack (-142) 2 = leBytes 2 port) :
    Takes (isa env) [ldxMem .h .r2 .r10 (-142), endianOp .r2 16, stxMem .h .r10 .r2 (-190)] s' none
      (Copying (writeAt f (-190) (leBytes 2 (swap16 port))) s) := by
  have hread : Val.num (joinBytes (readAt s'.stack (-142) Size.h.bytes)) = half port := by
    rw [h.readAt_eq (by decide), Size.bytes, hport, joinBytes_leBytes 2 (by decide), half,
      BitVec.setWidth_eq]
  unfold Takes
  simp only [run_op, step_ldx, h.ready.r10, load_fp, hread, Option.map_some, toEffect_some,
    onward_next, step_stx, step_be, beVal_half, State.set_reg, reduceCtorEq, if_false, if_true,
    storeVal_fp_half, Int.zero_add, run_nil, Lib.Asm.ends_fall, true_and]
  exact ((h.set (r := .r2) _ (by decide) (by decide)).set (r := .r2) _ (by decide)
    (by decide)).write (by simp)

/-- The key of the peer record, and a cleared value. -/
theorem takes_peerKey {cookie : BitVec 64} (hs : Ready s) (h0 : s.reg .r0 = .num cookie) :
    Takes (isa env) (emitZeroRegion Stack.udpPeerKey 4 ++ (emitZeroRegion Stack.udpPeerValue 5 ++
      [stxMem .dw .r10 .r0 Stack.udpPeerKey])) s none
      (Copying (writeAt (writeAt (writeAt s.stack (-168) (List.replicate 16 0)) (-192)
        (List.replicate 20 0)) (-168) (leBytes 8 cookie)) s) := by
  have hstart : Copying s.stack s s := ⟨rfl, rfl, rfl, hs, rfl, fun _ _ => rfl⟩
  unfold Takes
  simp [run_emitZeroRegion, hs.r10, h0, Stack.udpPeerKey, Stack.udpPeerValue, -List.reduceReplicate]
  exact ((hstart.write (by simp)).write (by simp)).write (by simp)

/-- The head of the value: the family as it was recorded, and TCP. -/
theorem takes_peerHead {f : Int → Byte} {s s' : State} (h : Copying f s s') :
    Takes (isa env) [stMem .b .r10 (-191) protoTcp] s' none
      (Copying (writeAt f (-191) (leBytes 1 protoTcp)) s) := by
  unfold Takes
  simp only [run_op, step_st, h.ready.r10, storeImm_fp_byte, toEffect_some, onward_next, Int.zero_add,
    run_nil, Lib.Asm.ends_fall, true_and]
  exact h.write (by simp)

/-- The writes of `emit_tcp_peer_record`. -/
def emitPeerRecord : Code :=
  (emitZeroRegion Stack.udpPeerKey 4 ++ (emitZeroRegion Stack.udpPeerValue 5 ++
    [stxMem .dw .r10 .r0 Stack.udpPeerKey])) ++
  ([ldxMem .b .r2 .r10 (-144), stxMem .b .r10 .r2 (-192)] ++
  ([stMem .b .r10 (-191) protoTcp] ++
  ([ldxMem .h .r2 .r10 (-142), endianOp .r2 16, stxMem .h .r10 .r2 (-190)] ++
  ([ldxMem .w .r2 .r10 (-140), stxMem .w .r10 .r2 (-188)] ++
  ([ldxMem .w .r2 .r10 (-136), stxMem .w .r10 .r2 (-184)] ++
  ([ldxMem .w .r2 .r10 (-132), stxMem .w .r10 .r2 (-180)] ++
  [ldxMem .w .r2 .r10 (-128), stxMem .w .r10 .r2 (-176)]))))))

/-- The peer record on the stack. -/
theorem takes_emitPeerRecord {protocol flags : Word} {cookie : BitVec 64} (hs : Ready s)
    (h0 : s.reg .r0 = .num cookie)
    (hvalue : readAt s.stack (-144) 24 = originalDst4 protocol port addr flags) :
    Takes (isa env) emitPeerRecord s none
      (Copying (peerStack cookie (swap16 port) addr s.stack) s) := by
  obtain ⟨hf, hport, h4, h8, h12, h16⟩ := readAt_parts hvalue
  refine Takes.through (takes_peerKey hs h0) fun s₁ h₁ => ?_
  refine Takes.through (takes_copy h₁ hf (by decide) (by decide)) fun s₂ h₂ => ?_
  refine Takes.through (takes_peerHead h₂) fun s₃ h₃ => ?_
  refine Takes.through (takes_copyPort h₃ hport) fun s₄ h₄ => ?_
  refine Takes.through (takes_copy h₄ h4 (by decide) (by decide)) fun s₅ h₅ => ?_
  refine Takes.through (takes_copy h₅ h8 (by decide) (by decide)) fun s₆ h₆ => ?_
  refine Takes.through (takes_copy h₆ h12 (by decide) (by decide)) fun s₇ h₇ => ?_
  exact takes_copy h₇ h16 (by decide) (by decide)

/-- The cookie of a TCP socket. -/
theorem takes_cookie (hs : Ready s) (ht : s.ctx.protocol = protoTcp) (hc : env.cookie ≠ 0#64) :
    Takes (isa env) [ldxMem .w .r2 .r6 Off.protocol, jneImm .r2 protoTcp .notTcp, mov64Reg .r1 .r6,
      callFunc .getSocketCookie, jeqImm .r0 0 .noCookie] s none
      (fun s' => Beside [.r6, .r10] s s' ∧ s'.stack = s.stack ∧ s'.reg .r0 = .num env.cookie) := by
  unfold Takes
  simp [hs.r6, ht, hc]
  refine ⟨rfl, rfl, rfl, fun r hr => ?_⟩
  simp only [List.mem_cons, List.not_mem_nil, or_false] at hr
  rcases hr with rfl | rfl
  · exact hs.r6 ▸ rfl
  · rfl

/-- **The original peer of a TCP socket** is recorded under its cookie; but for what is dropped to make
room, nothing else changes. -/
theorem takes_emitTcpPeerRecord {protocol flags : Word} (hs : Ready s)
    (hvalue : readAt s.stack (-144) 24 = originalDst4 protocol port addr flags) :
    Takes (isa env) (emitTcpPeerRecord present) s none (fun s' => s'.ctx = s.ctx ∧
      s'.maps = s.maps.tellPeer env present s.ctx s.calls (swap16 port) addr) := by
  by_cases hp : present .tcpPeer
  · by_cases ht : s.ctx.protocol = protoTcp
    · by_cases hc : env.cookie = 0#64
      · simp [Takes, emitTcpPeerRecord, Maps.tellPeer, recording, hp, ht, hc, hs.r6]
      · have hcode : emitTcpPeerRecord present = [ldxMem .w .r2 .r6 Off.protocol,
            jneImm .r2 protoTcp .notTcp, mov64Reg .r1 .r6, callFunc .getSocketCookie,
            jeqImm .r0 0 .noCookie] ++ (emitPeerRecord ++
            (emitUpdate .tcpPeer (-168) (-192) bpfAny ++ [.label .notTcp, .label .noCookie])) := by
          simp [emitTcpPeerRecord, hp, emitPeerRecord, Stack.udpPeerKey, Stack.udpPeerValue,
            Stack.originalDst]
        rw [hcode]
        refine Takes.through (takes_cookie hs ht hc) fun s₁ h₁ => ?_
        obtain ⟨hb, hst, h0⟩ := h₁
        have hs₁ : Ready s₁ := ⟨(hb.reg _ (by simp)).trans hs.r6, (hb.reg _ (by simp)).trans hs.r10⟩
        rw [← hst] at hvalue
        refine Takes.through (takes_emitPeerRecord hs₁ h0 hvalue) fun s₂ h₂ => ?_
        have hkey : readAt s₂.stack (-168) MapId.tcpPeer.keySize = cookieKey env.cookie := by
          rw [h₂.stack]
          exact readAt_peerStack_key _ _
        have hval : readAt s₂.stack (-192) MapId.tcpPeer.valueSize = tcpPeer4 (swap16 port) addr := by
          rw [h₂.stack]
          exact readAt_peerStack_value _ _
        have hcalls : s₂.calls = s.calls := h₂.calls.trans hb.calls
        have hmaps : s₂.maps = s.maps := h₂.maps.trans hb.maps
        unfold Takes
        rw [run_emitUpdate env s₂ _ (by decide) (by decide) (by decide) (by decide) rfl h₂.ready.r10]
        have hne : bpfAny ≠ bpfNoexist := by decide
        by_cases hrefuse : env.refuses s.calls
        · simp [State.updated, hcalls, hrefuse, Maps.tellPeer, recording, hmaps, h₂.ctx, hb.ctx, hp, ht,
            hc]
        · simp [State.updated, hcalls, hrefuse, hne, Maps.tellPeer, recording, hmaps, h₂.ctx, hb.ctx, hp,
            ht, hc]
          exact Maps.put_congr _ _ hkey hval (length_value ..) (length_tcpPeer4 ..)
    · simp [Takes, emitTcpPeerRecord, Maps.tellPeer, recording, hp, ht, hs.r6]
  · simp [Takes, emitTcpPeerRecord, Maps.tellPeer, recording, hp]

end Publish

end Bpf2Socks.Cgroup
