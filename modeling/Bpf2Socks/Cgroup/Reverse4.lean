/-
# Bpf2Socks.Cgroup.Reverse4 — the IPv4 programs that translate back.

`getpeername` and `recvmsg` hand an application an address the kernel knows: a token, where a socket
was proxied.  A stream socket gets the peer that was recorded under its cookie; a datagram socket on a
token address gets what the token stands for; any other address stays.  Together with the `connect`
program that is a round trip: after a proxied `connect` the application sees where it meant to go.
-/
import Bpf2Socks.Cgroup.BypassList
import Bpf2Socks.Cgroup.Connect4

namespace Bpf2Socks.Cgroup

open Lib (Line Outcome)
open Lib.Asm (Ends Halts Takes andThen branch exec build labels onward run run_append)

/-! ## What an address is translated to -/

/-- A word of an entry. -/
def wordAt (value : List Byte) (off : Nat) : Word := (joinBytes ((value.drop off).take 4)).setWidth 32

/-- A half word of an entry. -/
def halfAt (value : List Byte) (off : Nat) : BitVec 16 :=
  (joinBytes ((value.drop off).take 2)).setWidth 16

/-- The recorded IPv4 peer of a stream socket, with its port in network order. -/
def recordedPeer4 (maps : Maps) (cookie : BitVec 64) : Option (Word × BitVec 16) :=
  (maps.table .tcpPeer (cookieKey cookie)).bind fun value =>
    if joinBytes (value.take 1) = afInet.setWidth 64 then some (wordAt value 4, halfAt value 2) else none

/-- An address of `127.128.0.0/9`. -/
def inTokenPrefix (addr : Word) : Prop := swap32 addr &&& ~~~tokenHostMask = tokenPrefix

instance (addr : Word) : Decidable (inTokenPrefix addr) := inferInstanceAs (Decidable (_ = _))

/-- What a UDP token stands for. -/
def tokenTarget4 (maps : Maps) (addr : Word) (port : BitVec 16) : Option (Word × BitVec 16) :=
  if inTokenPrefix addr then
    (maps.table .token (tokenKey4 protoUdp (swap16 port) addr)).map fun value =>
      (wordAt value 4, swap16 (halfAt value 2))
  else none

/-- What the address of a context is translated to. -/
def translation4 (tcpPeer : Bool) (env : Env) (maps : Maps) (c : Context) :
    Option (Word × BitVec 16) :=
  if c.type = sockStream then
    if tcpPeer ∧ env.cookie ≠ 0 then recordedPeer4 maps env.cookie else none
  else if c.type = sockDgram then tokenTarget4 maps c.userIp4 c.userPort
  else none

/-- A context with another address. -/
def Context.redirected4 (c : Context) (dst : Option (Word × BitVec 16)) : Context :=
  match dst with
  | none => c
  | some (addr, port) => { c with userIp4 := addr, userPort := port }

/-! ## The blocks -/

section Reverse

variable {env : Env} {s : State} {c : Context} {maps : Maps}

/-- The key on the stack, after the cookie is written over a cleared region. -/
theorem readAt_cookieKey (f : Int → Byte) (cookie : BitVec 64) :
    readAt (writeAt (writeAt f (-168) (List.replicate 16 0#8)) (-168) (leBytes 8 cookie)) (-168) 16 =
      cookieKey cookie := by
  rw [show 16 = 8 + 8 from rfl, readAt_add]
  simp (disch := simp) [cookieKey, readAt_writeAt_of_disjoint, readAt_writeAt_self,
    readAt_writeAt_within, -List.reduceReplicate]

/-- The context is as translated; the program goes on with these registers. -/
structure Restored (c : Context) (maps : Maps) (s : State) : Prop where
  ready : Ready s
  ctx : s.ctx = c
  maps : s.maps = maps

theorem storeVal_userIp4 (x : Word) :
    s.storeVal .w .ctx Off.userIp4 (word x) = some { s with ctx := { s.ctx with userIp4 := x } } := by
  rw [word, State.storeVal, State.store, Context.store, if_pos rfl, setWidth_word]
  rfl

theorem storeVal_userPort (x : BitVec 16) :
    s.storeVal .w .ctx Off.userPort (half x) = some { s with ctx := { s.ctx with userPort := x } } := by
  have h : Context.store s.ctx .w Off.userPort (x.setWidth 64) =
      some { s.ctx with userPort := (x.setWidth 64).setWidth 16 } := rfl
  rw [half, State.storeVal, State.store, h, setWidth_half]
  rfl

/-- **A stream socket** gets the peer that was recorded. -/
theorem takes_emitTcpPeerRestore (hs : Ready s) :
    Takes (isa env) (emitTcpPeerRestore false) s (some .tcpDone)
      (Restored (s.ctx.redirected4 (if env.cookie ≠ 0 then recordedPeer4 s.maps env.cookie else none))
        s.maps) := by
  have hkey := readAt_cookieKey s.stack env.cookie
  have himm : immVal afInet = .num (afInet.setWidth 64) := rfl
  unfold Takes
  by_cases hc : env.cookie = 0#64
  · -- a socket without a cookie has no record
    simp [emitTcpPeerRestore, hs.r6, hc, Context.redirected4]
    exact ⟨⟨hs.r6, hs.r10⟩, rfl, rfl⟩
  · rcases hv : s.maps.table .tcpPeer (cookieKey env.cookie) with _ | value
    · -- nothing was recorded under the cookie
      have hentry := Maps.entry_none (m := .tcpPeer) (by decide) hv
      simp [emitTcpPeerRestore, hs.r6, hs.r10, hc, run_emitZeroRegion, run_emitLookup,
        Stack.udpPeerKey, MapId.keySize, hkey, hentry, recordedPeer4, hv, Context.redirected4,
        -List.reduceReplicate]
      exact ⟨⟨hs.r6, hs.r10⟩, rfl, rfl⟩
    · have hentry := Maps.entry_some (m := .tcpPeer) (by decide) hv
      have hfamily : s.maps.load .b .tcpPeer (cookieKey env.cookie) 0 =
          some (.num (joinBytes (value.take 1))) := Maps.load_eq hv .b 0 (by decide)
      have haddr : s.maps.load .w .tcpPeer (cookieKey env.cookie) 4 = some (word (wordAt value 4)) :=
        Maps.load_word hv 4 (by decide)
      have hport : s.maps.load .h .tcpPeer (cookieKey env.cookie) 2 = some (half (halfAt value 2)) :=
        Maps.load_half hv 2 (by decide)
      by_cases hf : joinBytes (value.take 1) = afInet.setWidth 64
      · simp [emitTcpPeerRestore, hs.r6, hs.r10, hc, run_emitZeroRegion, run_emitLookup,
          Stack.udpPeerKey, MapId.keySize, hkey, hentry, recordedPeer4, hv, Context.redirected4, hfamily,
          haddr, hport, hf, himm, sameVal_num, storeVal_userIp4, storeVal_userPort,
          -List.reduceReplicate]
        exact ⟨⟨hs.r6, hs.r10⟩, rfl, rfl⟩
      · -- the record is of an IPv6 peer
        simp [emitTcpPeerRestore, hs.r6, hs.r10, hc, run_emitZeroRegion, run_emitLookup,
          Stack.udpPeerKey, MapId.keySize, hkey, hentry, recordedPeer4, hv, Context.redirected4, hfamily,
          hf, himm, sameVal_num, -List.reduceReplicate]
        exact ⟨⟨hs.r6, hs.r10⟩, rfl, rfl⟩

/-- The key of a UDP token on the stack. -/
theorem readAt_reverseKey (f : Int → Byte) (port : BitVec 16) (addr : Word) :
    readAt (writeAt (writeAt (writeAt (writeAt (writeAt f (-96) (List.replicate 40 0#8)) (-96)
      (leBytes 1 afInet)) (-95) (leBytes 1 protoUdp)) (-94) (leBytes 2 port)) (-92)
      (leBytes 4 addr)) (-96) 40 = tokenKey4 protoUdp port addr := by
  rw [show 40 = 1 + (1 + (2 + (4 + 32))) from rfl, readAt_add, readAt_add, readAt_add, readAt_add]
  simp (disch := simp) [tokenKey4, readAt_writeAt_of_disjoint, readAt_writeAt_self,
    readAt_writeAt_within, -List.reduceReplicate]

/-- The rest of the program, for a datagram socket. -/
def emitTranslate4 : Code :=
  [ldxMem .w .r7 .r6 Off.userIp4, ldxMem .w .r8 .r6 Off.userPort, mov64Reg .r2 .r7] ++
  emitInTokenPrefix ++ emitReverseLookup4 .r7 .r8 ++
  [stxMem .w .r6 .r7 Off.userIp4, stxMem .w .r6 .r8 Off.userPort, .label .nonUdp, .label .tcpDone,
    .label .bypass]

/-- **A datagram socket** on a token address gets what the token stands for. -/
theorem takes_emitTranslate4 (hs : Ready s) :
    Takes (isa env) emitTranslate4 s none
      (Restored (s.ctx.redirected4 (tokenTarget4 s.maps s.ctx.userIp4 s.ctx.userPort)) s.maps) := by
  have himm : immVal tokenPrefix = word tokenPrefix := rfl
  have hkey := readAt_reverseKey s.stack (swap16 s.ctx.userPort) s.ctx.userIp4
  unfold Takes
  by_cases hp : swap32 s.ctx.userIp4 &&& ~~~tokenHostMask = tokenPrefix
  · have hin : inTokenPrefix s.ctx.userIp4 := hp
    rcases hv : s.maps.table .token (tokenKey4 protoUdp (swap16 s.ctx.userPort) s.ctx.userIp4) with
      _ | value
    · -- a token that is not, or no longer, in the map
      have hentry := Maps.entry_none (m := .token) (by decide) hv
      simp [emitTranslate4, emitInTokenPrefix, emitReverseLookup4, hs.r6, hs.r10, himm, hp,
        run_emitZeroRegion, run_emitLookup, Stack.tokenKey, MapId.keySize, hkey, hentry, tokenTarget4,
        hin, hv, Context.redirected4, -List.reduceReplicate]
      exact ⟨⟨hs.r6, hs.r10⟩, rfl, rfl⟩
    · have hentry := Maps.entry_some (m := .token) (by decide) hv
      have haddr : s.maps.load .w .token
          (tokenKey4 protoUdp (swap16 s.ctx.userPort) s.ctx.userIp4) 4 = some (word (wordAt value 4)) :=
        Maps.load_word hv 4 (by decide)
      have hport : s.maps.load .h .token
          (tokenKey4 protoUdp (swap16 s.ctx.userPort) s.ctx.userIp4) 2 = some (half (halfAt value 2)) :=
        Maps.load_half hv 2 (by decide)
      simp [emitTranslate4, emitInTokenPrefix, emitReverseLookup4, hs.r6, hs.r10, himm, hp,
        run_emitZeroRegion, run_emitLookup, Stack.tokenKey, MapId.keySize, hkey, hentry, tokenTarget4,
        hin, hv, Context.redirected4, haddr, hport, storeVal_userIp4, storeVal_userPort,
        -List.reduceReplicate]
      exact ⟨⟨hs.r6, hs.r10⟩, rfl, rfl⟩
  · have hout : ¬inTokenPrefix s.ctx.userIp4 := hp
    simp [emitTranslate4, emitInTokenPrefix, emitReverseLookup4, hs.r6, himm, hp, tokenTarget4, hout,
      Context.redirected4]
    exact ⟨⟨hs.r6, hs.r10⟩, rfl, rfl⟩

/-- Any jump over the rest of the program lands at its end. -/
theorem seek_emitTranslate4 {l : Jumps} (h : l ∈ [Jumps.nonUdp, .tcpDone]) (k : Code) :
    run (isa env) (emitTranslate4 ++ k) (some l) s = run (isa env) k none s := by
  simp only [List.mem_cons, List.not_mem_nil, or_false] at h
  rcases h with rfl | rfl <;>
    simp [emitTranslate4, emitInTokenPrefix, emitReverseLookup4]

/-- The program has let the socket pass, with this context. -/
structure Passed (c : Context) (maps : Maps) (s : State) : Prop where
  r0 : s.reg .r0 = word 1
  ctx : s.ctx = c
  maps : s.maps = maps

theorem halts_emitExit (h : Restored c maps s) :
    Halts (isa env) (emitExit 1) none s (Passed c maps) := by
  refine ⟨s.set .r0 (word 1), ?_, rfl, h.ctx, h.maps⟩
  simp [emitExit, immVal_eq_word]

theorem translation4_datagram {tcpPeer : Bool} (hd : c.type = sockDgram) :
    translation4 tcpPeer env maps c = tokenTarget4 maps c.userIp4 c.userPort := by
  have hns : c.type ≠ sockStream := by
    rw [hd]
    decide
  rw [translation4, if_neg hns, if_pos hd]

/-- What comes after the stream sockets. -/
theorem halts_datagram4 {dst : Option (Word × BitVec 16)} (hr : Restored c maps s)
    (h2 : s.reg .r2 = word c.type)
    (hdatagram : c.type = sockDgram → dst = tokenTarget4 maps c.userIp4 c.userPort)
    (hother : c.type ≠ sockDgram → dst = none) :
    Halts (isa env) ([jneImm .r2 sockDgram .nonUdp] ++ (emitTranslate4 ++ emitExit 1)) none s
      (Passed (c.redirected4 dst) maps) := by
  by_cases hd : c.type = sockDgram
  · -- the address is looked up
    have hgo : Takes (isa env) [jneImm .r2 sockDgram .nonUdp] s none (· = s) := by
      simp [Takes, h2, hd]
    refine Takes.halts hgo fun t ht => ?_
    subst ht
    refine Takes.halts (takes_emitTranslate4 hr.ready) fun t h₁ => ?_
    rw [hr.ctx, hr.maps, ← hdatagram hd] at h₁
    exact halts_emitExit h₁
  · -- raw sockets and the like jump over it
    obtain ⟨t, hrun, hpassed⟩ := @halts_emitExit env s c maps hr
    rw [hother hd]
    refine ⟨t, ?_, hpassed⟩
    simp only [List.cons_append, List.nil_append, run_jump, holds_jne, h2, operand_imm,
      immVal_sockDgram, sameVal_word, hd, decide_false, Option.map_some, Bool.not_false, branch_true]
    rw [seek_emitTranslate4 (by simp)]
    exact hrun

/-- **The reverse program** writes the translation of the address, and nothing else. -/
theorem reverse4_correct (tcpPeer : Bool) (env : Env) (c : Context) (maps : Maps)
    (stack : Int → Byte) :
    ∃ s, exec (isa env) (build (buildReverse4 tcpPeer)) 0 (start c maps stack) = .halt s ∧
      Passed (c.redirected4 (translation4 tcpPeer env maps c)) maps s := by
  have hcode : buildReverse4 tcpPeer = [mov64Reg .r6 .r1, ldxMem .w .r2 .r6 Off.type] ++
      ((if tcpPeer then [jneImm .r2 sockStream .notStream] ++ (emitTcpPeerRestore false ++
        [.label .notStream]) else []) ++
      ([jneImm .r2 sockDgram .nonUdp] ++ (emitTranslate4 ++ emitExit 1))) := by
    cases tcpPeer <;> simp [buildReverse4, emitReverseHead, emitTranslate4]
  have hload : Takes (isa env) [mov64Reg .r6 .r1, ldxMem .w .r2 .r6 Off.type] (start c maps stack) none
      (fun s => Restored c maps s ∧ s.reg .r2 = word c.type) := by
    simp [Takes, start]
    exact ⟨⟨rfl, rfl⟩, rfl, rfl⟩
  rw [hcode]
  refine Halts.exec (Takes.halts hload fun s h => ?_)
  obtain ⟨hr, h2⟩ := h
  cases tcpPeer with
  | false =>
      have hother : c.type ≠ sockDgram → translation4 false env maps c = none := by
        intro hd
        simp [translation4, hd]
      exact halts_datagram4 hr h2 translation4_datagram hother
  | true =>
      simp only [if_true, List.append_assoc]
      by_cases hs : c.type = sockStream
      · -- restored or not, a stream socket is done after its block
        have hgo : Takes (isa env) [jneImm .r2 sockStream .notStream] s none (· = s) := by
          simp [Takes, h2, hs]
        refine Takes.halts hgo fun t ht => ?_
        subst ht
        refine Takes.halts (takes_emitTcpPeerRestore hr.ready) fun t h₁ => ?_
        have htranslation : translation4 true env maps c =
            if env.cookie ≠ 0 then recordedPeer4 maps env.cookie else none := by
          simp [translation4, hs]
        rw [hr.ctx, hr.maps, ← htranslation] at h₁
        obtain ⟨t', hrun, hpassed⟩ := @halts_emitExit env t _ maps h₁
        refine ⟨t', ?_, hpassed⟩
        simp only [List.cons_append, List.nil_append, seek_label, seek_jump, reduceCtorEq, if_false]
        rw [seek_emitTranslate4 (by simp)]
        exact hrun
      · have hover : Takes (isa env) ([jneImm .r2 sockStream .notStream] ++ (emitTcpPeerRestore false ++
            [.label .notStream])) s none (· = s) := by
          simp [Takes, h2, hs, emitTcpPeerRestore]
        have hother : c.type ≠ sockDgram → translation4 true env maps c = none := by
          intro hd
          simp [translation4, hs, hd]
        have hall : Halts (isa env) (([jneImm .r2 sockStream .notStream] ++
            (emitTcpPeerRestore false ++ [.label .notStream])) ++
            ([jneImm .r2 sockDgram .nonUdp] ++ (emitTranslate4 ++ emitExit 1))) none s
            (Passed (c.redirected4 (translation4 true env maps c)) maps) := by
          refine Takes.halts hover fun t ht => ?_
          subst ht
          exact halts_datagram4 hr h2 translation4_datagram hother
        simpa only [List.append_assoc] using hall

/-! ## The round trip -/

theorem wordAt_tcpPeer4 (port : BitVec 16) (addr : Word) : wordAt (tcpPeer4 port addr) 4 = addr := by
  have hbytes : ((tcpPeer4 port addr).drop 4).take 4 = leBytes 4 addr := by
    simp [tcpPeer4, List.drop_append, List.drop_eq_nil_of_le]
  rw [wordAt, hbytes, joinBytes_leBytes 4 (by decide), BitVec.setWidth_eq, setWidth_word]

theorem halfAt_tcpPeer4 (port : BitVec 16) (addr : Word) : halfAt (tcpPeer4 port addr) 2 = port := by
  have hbytes : ((tcpPeer4 port addr).drop 2).take 2 = leBytes 2 port := by
    simp [tcpPeer4, List.drop_append, List.drop_eq_nil_of_le]
  rw [halfAt, hbytes, joinBytes_leBytes 2 (by decide), BitVec.setWidth_eq, setWidth_half]

theorem wordAt_originalDst4 (protocol : Word) (port : BitVec 16) (addr flags : Word) :
    wordAt (originalDst4 protocol port addr flags) 4 = addr := by
  have hbytes : ((originalDst4 protocol port addr flags).drop 4).take 4 = leBytes 4 addr := by
    simp [originalDst4, List.drop_append, List.drop_eq_nil_of_le]
  rw [wordAt, hbytes, joinBytes_leBytes 4 (by decide), BitVec.setWidth_eq, setWidth_word]

theorem halfAt_originalDst4 (protocol : Word) (port : BitVec 16) (addr flags : Word) :
    halfAt (originalDst4 protocol port addr flags) 2 = port := by
  have hbytes : ((originalDst4 protocol port addr flags).drop 2).take 2 = leBytes 2 port := by
    simp [originalDst4, List.drop_append, List.drop_eq_nil_of_le]
  rw [halfAt, hbytes, joinBytes_leBytes 2 (by decide), BitVec.setWidth_eq, setWidth_half]

/-- Every token is in the prefix. -/
theorem inTokenPrefix_tokenOf (draw : Word) : inTokenPrefix (tokenOf draw) := by
  have hmask : tokenHostMask &&& ~~~tokenHostMask = 0#32 := by decide
  have hprefix : tokenPrefix &&& ~~~tokenHostMask = tokenPrefix := by decide
  rw [inTokenPrefix, tokenOf, swap32_swap32, BitVec.and_or_distrib_right, BitVec.and_assoc, hmask, hprefix,
    BitVec.and_zero, BitVec.zero_or]

/-- After a proxied `connect` the map translates the token to the destination. -/
theorem connected4_token (present : MapId → Bool) (bridgePort : BitVec 16) (n : Nat) :
    (maps.connected4 env present bridgePort c n).table .token
        (tokenKey4 c.transport bridgePort (tokenOf (env.random n))) =
      some (originalDst4 c.transport (swap16 c.userPort) c.userIp4 c.connectedFlag) := by
  rw [Maps.connected4, Maps.tellPeer]
  split
  · split
    · simp [Maps.evict, Maps.publish, Maps.put]
    · simp [Maps.recordPeer, Maps.evict, Maps.publish, Maps.put]
  · simp [Maps.publish, Maps.put]

/-- The peer of a TCP socket is recorded besides. -/
theorem connected4_peer {present : MapId → Bool} {n : Nat} (h : records env present c (n + 2))
    (bridgePort : BitVec 16) :
    (maps.connected4 env present bridgePort c n).table .tcpPeer (cookieKey env.cookie) =
      some (tcpPeer4 c.userPort c.userIp4) := by
  have hrecording : recording env present c := ⟨h.1, h.2.1, h.2.2.1⟩
  rw [Maps.connected4, Maps.tellPeer, if_pos hrecording, if_neg h.2.2.2]
  simp [Maps.recordPeer, Maps.put]

theorem redirected4_proxied4 (token : Word) (bridgePort : BitVec 16) :
    (c.proxied4 token bridgePort).redirected4 (some (c.userIp4, c.userPort)) = c := rfl

/-- A token that the map knows is translated back. -/
theorem translation4_token {tcpPeer : Bool} {bridgePort : BitVec 16} {token flags : Word}
    (hd : c.type = sockDgram) (htoken : inTokenPrefix token)
    (hentry : maps.table .token (tokenKey4 protoUdp bridgePort token) =
      some (originalDst4 protoUdp (swap16 c.userPort) c.userIp4 flags)) :
    translation4 tcpPeer env maps (c.proxied4 token bridgePort) = some (c.userIp4, c.userPort) := by
  have hd' : (c.proxied4 token bridgePort).type = sockDgram := hd
  have haddr : (c.proxied4 token bridgePort).userIp4 = token := rfl
  have hport : (c.proxied4 token bridgePort).userPort = swap16 bridgePort := rfl
  rw [translation4_datagram hd', tokenTarget4, haddr, hport, if_pos htoken, swap16_swap16, hentry,
    Option.map_some, wordAt_originalDst4, halfAt_originalDst4, swap16_swap16]

/-- A recorded peer is given back. -/
theorem translation4_peer {tcpPeer : Bool} {bridgePort : BitVec 16} {token : Word}
    (hs : c.type = sockStream) (htcp : tcpPeer = true) (hcookie : env.cookie ≠ 0)
    (hentry : maps.table .tcpPeer (cookieKey env.cookie) = some (tcpPeer4 c.userPort c.userIp4)) :
    translation4 tcpPeer env maps (c.proxied4 token bridgePort) = some (c.userIp4, c.userPort) := by
  have hs' : (c.proxied4 token bridgePort).type = sockStream := hs
  have hfamily : joinBytes ((tcpPeer4 c.userPort c.userIp4).take 1) = afInet.setWidth 64 := by
    have hbyte : (tcpPeer4 c.userPort c.userIp4).take 1 = leBytes 1 afInet := by
      simp [tcpPeer4]
    rw [hbyte]
    decide
  rw [translation4, if_pos hs', if_pos ⟨htcp, hcookie⟩, recordedPeer4, hentry, Option.bind_some,
    if_pos hfamily, wordAt_tcpPeer4, halfAt_tcpPeer4]

/-- **The round trip.**  After a proxied `connect`, whatever happens to the other entries of the maps,
`getpeername` gives an application the address it meant, and so does `recvmsg` for a datagram socket. -/
theorem peer_restored (policy : Policy) (present : MapId → Bool) (bridgePort : BitVec 16) (env : Env)
    (c : Context) (maps : Maps) (stack : Int → Byte)
    (hproxied : (decisions4 policy present maps env c).getD .proxy = .proxy)
    (hroom : env.refuses (cached policy present c + 1) = false)
    (htold : c.type = sockDgram ∨
      (c.type = sockStream ∧ records env present c (cached policy present c + 2))) :
    ∃ s, exec (isa env) (build (build4 policy present Hook.connect.protocol Hook.connect.fromContext
        bridgePort Hook.connect.attach4)) 0 (start c maps stack) = .halt s ∧ s.reg .r0 = word 1 ∧
      inTokenPrefix s.ctx.userIp4 ∧ s.ctx.userPort = swap16 bridgePort ∧
      ∀ (tcpPeer : Bool) (env' : Env) (maps' : Maps) (stack' : Int → Byte),
        (c.type = sockStream → tcpPeer = true) → env'.cookie = env.cookie →
        maps'.table .token (tokenKey4 c.transport bridgePort s.ctx.userIp4) =
          s.maps.table .token (tokenKey4 c.transport bridgePort s.ctx.userIp4) →
        maps'.table .tcpPeer (cookieKey env.cookie) = s.maps.table .tcpPeer (cookieKey env.cookie) →
        ∃ s', exec (isa env') (build (buildReverse4 tcpPeer)) 0 (start s.ctx maps' stack') = .halt s' ∧
          s'.reg .r0 = word 1 ∧ s'.ctx = c := by
  obtain ⟨s, hrun, hleaves⟩ := connect4_correct policy present bridgePort env c maps stack
  rw [hproxied] at hleaves
  simp only [connectLeaves4, hroom, Bool.false_eq_true, if_false] at hleaves
  refine ⟨s, hrun, hleaves.r0, ?_, ?_, fun tcpPeer env' maps' stack' hstream hcookie htoken hpeer => ?_⟩
  · rw [hleaves.ctx]
    exact inTokenPrefix_tokenOf _
  · rw [hleaves.ctx]
    rfl
  obtain ⟨s', hrun', hpassed⟩ := reverse4_correct tcpPeer env' s.ctx maps' stack'
  refine ⟨s', hrun', hpassed.r0, ?_⟩
  have hctx := hleaves.ctx
  have htokens := hleaves.maps.table .token (by decide)
  have hpeers := hleaves.maps.table .tcpPeer (by decide)
  rw [htokens, hctx] at htoken
  rw [hpeers] at hpeer
  have hback : translation4 tcpPeer env' maps' s.ctx = some (c.userIp4, c.userPort) := by
    rw [hctx]
    rcases htold with hd | ⟨hs, hrecords⟩
    · -- a datagram socket: its token is in the map
      have hentry := htoken.trans (connected4_token present bridgePort (cached policy present c))
      have hudp : c.transport = protoUdp := if_pos hd
      rw [hudp] at hentry
      exact translation4_token hd (inTokenPrefix_tokenOf _) hentry
    · -- a stream socket: its peer is recorded
      have hentry := hpeer.trans (connected4_peer hrecords bridgePort)
      rw [← hcookie] at hentry
      exact translation4_peer hs (hstream hs) (hcookie ▸ hrecords.2.2.1) hentry
  rw [hpassed.ctx, hback, hctx, redirected4_proxied4]

end Reverse

/-- A policy that proxies every user. -/
def plainPolicy : Policy :=
  { highPolicy with bypassUids := [], selfBypassGidEnabled := false }

/-- A datagram socket on its way to port 443 of `1.2.3.4`. -/
def datagram : Context :=
  { (default : Context) with
    userIp4 := 0x04030201, userPort := 0xbb01, type := sockDgram, protocol := protoUdp }

theorem datagram_peer_restored :
    ∃ s, exec (isa highUser) (build (build4 plainPolicy (fun _ => false) Hook.connect.protocol
        Hook.connect.fromContext 7890 Hook.connect.attach4)) 0
        (start datagram Maps.empty fun _ => 0) = .halt s ∧ s.reg .r0 = word 1 ∧
      inTokenPrefix s.ctx.userIp4 ∧ s.ctx.userPort = swap16 7890 ∧
      ∃ s', exec (isa highUser) (build (buildReverse4 false)) 0
          (start s.ctx s.maps fun _ => 0) = .halt s' ∧
        s'.reg .r0 = word 1 ∧ s'.ctx = datagram := by
  obtain ⟨s, hrun, hr0, htoken, hport, hback⟩ :=
    peer_restored plainPolicy (fun _ => false) 7890 highUser datagram Maps.empty (fun _ => 0)
      (by decide) rfl (.inl rfl)
  exact ⟨s, hrun, hr0, htoken, hport, hback false highUser s.maps (fun _ => 0)
    (fun hstream => absurd hstream (by decide)) rfl rfl rfl⟩

end Bpf2Socks.Cgroup
