/-
# Bpf2Socks.Cgroup.Blocks — what the blocks of the generated code decide.

Each emitter takes one place of the ordered list: its code leaves by the jump of the place's verdict
or falls through, and changes nothing but scratch registers and the scratch part of the stack.
`Keeps` is that frame; `Decides` the specification of a block.
-/
import Bpf2Socks.Cgroup.Steps
import Bpf2Socks.Cgroup.Verdict

namespace Bpf2Socks.Cgroup

open Lib (Line Outcome)
open Lib.Asm (Ends Halts Takes andThen branch labels onward run run_append)

/-! ## The frame -/

/-- The context, the maps, some registers and the saved part of the stack are as they were.  What the
programs save is below every key and value they build. -/
structure Keeps (rs : List Reg) (s s' : State) : Prop where
  ctx : s'.ctx = s.ctx
  maps : s'.maps = s.maps
  calls : s'.calls = s.calls
  stack : ∀ i < (-192 : Int), s'.stack i = s.stack i
  reg : ∀ r ∈ rs, s'.reg r = s.reg r

namespace Keeps

variable {rs : List Reg} {s s' s'' : State} {r : Reg} {v : Val}

@[simp] theorem refl : Keeps rs s s := ⟨rfl, rfl, rfl, fun _ _ => rfl, fun _ _ => rfl⟩

theorem trans (h : Keeps rs s s') (h' : Keeps rs s' s'') : Keeps rs s s'' where
  ctx := h'.ctx.trans h.ctx
  maps := h'.maps.trans h.maps
  calls := h'.calls.trans h.calls
  stack i hi := (h'.stack i hi).trans (h.stack i hi)
  reg r hr := (h'.reg r hr).trans (h.reg r hr)

theorem mono {rs' : List Reg} (h : Keeps rs s s') (hrs : ∀ r ∈ rs', r ∈ rs) : Keeps rs' s s' :=
  { h with reg := fun r hr => h.reg r (hrs r hr) }

@[simp] theorem set_iff (hr : r ∉ rs) : Keeps rs s (s'.set r v) ↔ Keeps rs s s' := by
  have hreg : ∀ r' ∈ rs, (s'.set r v).reg r' = s'.reg r' := by
    intro r' hr'
    rw [State.set_reg, if_neg]
    rintro rfl
    exact hr hr'
  refine ⟨fun h => ⟨h.ctx, h.maps, h.calls, h.stack, fun r' hr' => ?_⟩,
    fun h => ⟨h.ctx, h.maps, h.calls, h.stack, fun r' hr' => ?_⟩⟩
  · rw [← hreg r' hr']
    exact h.reg r' hr'
  · rw [hreg r' hr']
    exact h.reg r' hr'

@[simp] theorem clobber_iff (hr : ∀ r ∈ rs, r ∉ [Reg.r1, .r2, .r3, .r4, .r5]) :
    Keeps rs s s'.clobber ↔ Keeps rs s s' := by
  have hreg : ∀ r ∈ rs, s'.clobber.reg r = s'.reg r := by
    intro r hr'
    have := hr r hr'
    cases r <;> first | rfl | simp at this
  refine ⟨fun h => ⟨h.ctx, h.maps, h.calls, h.stack, fun r' hr' => ?_⟩,
    fun h => ⟨h.ctx, h.maps, h.calls, h.stack, fun r' hr' => ?_⟩⟩
  · rw [← hreg r' hr']
    exact h.reg r' hr'
  · rw [hreg r' hr']
    exact h.reg r' hr'

@[simp] theorem write_iff {off : Int} {bytes : List Byte} (hoff : (-192 : Int) ≤ off) :
    Keeps rs s (s'.write off bytes) ↔ Keeps rs s s' := by
  have hstack : ∀ i < (-192 : Int), (s'.write off bytes).stack i = s'.stack i := by
    intro i hi
    rw [State.write_stack, writeAt, if_neg (by omega)]
  refine ⟨fun h => ⟨h.ctx, h.maps, h.calls, fun i hi => ?_, h.reg⟩,
    fun h => ⟨h.ctx, h.maps, h.calls, fun i hi => ?_, h.reg⟩⟩
  · rw [← hstack i hi]
    exact h.stack i hi
  · rw [hstack i hi]
    exact h.stack i hi

/-- What was saved is still there. -/
theorem readAt_eq (h : Keeps rs s s') {off : Int} {n : Nat} (hoff : off + n ≤ -192) :
    readAt s'.stack off n = readAt s.stack off n :=
  readAt_congr fun i _ hi => h.stack i (by omega)

end Keeps

/-- The registers every program needs throughout: the context and the stack frame. -/
structure Ready (s : State) : Prop where
  r6 : s.reg .r6 = .ctx
  r10 : s.reg .r10 = .fp 0

theorem Ready.of_keeps {rs : List Reg} {s s' : State} (h : Ready s) (hk : Keeps rs s s')
    (h6 : .r6 ∈ rs) (h10 : .r10 ∈ rs) : Ready s' :=
  ⟨(hk.reg _ h6).trans h.r6, (hk.reg _ h10).trans h.r10⟩

/-- A block takes a place on the list. -/
def Decides (env : Env) (code : Code) (s : State) (d : Choice) (rs : List Reg) : Prop :=
  Takes (isa env) code s d.exit (Keeps rs s)

/-- No verdict lands inside the block. -/
def Open (code : Code) : Prop := ∀ v : Verdict, v.jumps ∉ labels code

namespace Decides

variable {env : Env} {A B : Code} {s : State} {d e : Choice} {rs : List Reg}

theorem nil : Decides env [] s none rs := Takes.nil Keeps.refl

theorem mono {rs' : List Reg} (h : Decides env A s d rs) (hrs : ∀ r ∈ rs', r ∈ rs) :
    Decides env A s d rs' :=
  Takes.mono h fun _ hk => hk.mono hrs

/-- **Blocks in a row** take their places in order. -/
theorem append {rs' : List Reg} (h : Decides env A s d rs)
    (hB : ∀ s', Keeps rs s s' → Decides env B s' e rs') (hopen : Open B)
    (hrs : ∀ r ∈ rs', r ∈ rs) : Decides env (A ++ B) s (d.or e) rs' := by
  have hexit : (d.or e).map Verdict.jumps = (d.exit).or e.exit := by
    cases d <;> rfl
  unfold Decides
  rw [Choice.exit, hexit]
  refine Takes.append h (fun s' _ hk => ?_) ?_ fun s' _ _ hk => hk.mono hrs
  · exact Takes.mono (hB s' hk) fun s'' hk' => (hk.mono hrs).trans hk'
  · intro l hl
    cases d with
    | none => cases hl
    | some v =>
        cases hl
        exact hopen v

/-- The same, where both blocks keep the same registers. -/
theorem seq (h : Decides env A s d rs) (hB : ∀ s', Keeps rs s s' → Decides env B s' e rs)
    (hopen : Open B) : Decides env (A ++ B) s (d.or e) rs :=
  h.append hB hopen fun _ hr => hr

/-- A block after some instructions that only prepare it. -/
theorem after {P : State → Prop} (h : Takes (isa env) A s none P)
    (hB : ∀ s', P s' → Keeps rs s s' ∧ Decides env B s' d rs) : Decides env (A ++ B) s d rs := by
  refine Takes.through h fun s' hp => ?_
  obtain ⟨hk, hb⟩ := hB s' hp
  exact Takes.mono hb fun s'' hk' => hk.trans hk'

end Decides

theorem Open.append {A B : Code} (hA : Open A) (hB : Open B) : Open (A ++ B) := by
  intro v
  rw [Lib.Asm.labels_append, List.mem_append, not_or]
  exact ⟨hA v, hB v⟩

/-- From any state of an invariant the block takes its place and keeps the invariant; no verdict
lands inside it. -/
structure Stably (env : Env) (I : State → Prop) (rs : List Reg) (code : Code) (d : Choice) :
    Prop where
  isOpen : Open code
  takes : ∀ s, I s → Takes (isa env) code s d.exit (fun s' => Keeps rs s s' ∧ I s')

/-- Blocks in a row. -/
theorem Stably.append {env : Env} {I : State → Prop} {rs : List Reg} {A B : Code} {d e : Choice}
    (hA : Stably env I rs A d) (hB : Stably env I rs B e) : Stably env I rs (A ++ B) (d.or e) := by
  refine ⟨hA.isOpen.append hB.isOpen, fun s hI => ?_⟩
  have hexit : (d.or e).map Verdict.jumps = (d.exit).or e.exit := by
    cases d <;> rfl
  rw [Choice.exit, hexit]
  refine Takes.append (hA.takes s hI) (fun s' _ h => ?_) ?_ fun s' _ _ h => h
  · exact Takes.mono (hB.takes s' h.2) fun s'' h' => ⟨h.1.trans h'.1, h'.2⟩
  · intro l hl
    cases d with
    | none => cases hl
    | some v =>
        cases hl
        exact hB.isOpen v

/-- A block whose frame keeps the invariant. -/
theorem Stably.of_decides {env : Env} {I : State → Prop} {rs : List Reg} {code : Code} {d : Choice}
    (hI : ∀ s s', I s → Keeps rs s s' → I s') (hopen : Open code)
    (h : ∀ s, I s → Decides env code s d rs) : Stably env I rs code d :=
  ⟨hopen, fun s hs => Takes.mono (h s hs) fun s' hk => ⟨hk, hI s s' hs hk⟩⟩

/-! ## Comparisons -/

section Comparisons

/-- A comparison with an immediate. -/
theorem sameVal_imm (x imm : Word) : sameVal (word x) (immVal imm) = some (comparesEqual x imm) := by
  rw [word, immVal, sameVal_num, comparesEqual]
  rfl

/-- The group, in the upper half of `get_current_uid_gid`. -/
theorem uidGid_shift (env : Env) : env.uidGid >>> 32 = env.gid.setWidth 64 := by
  rw [Env.gid]
  ext i hi
  by_cases h : i < 32
  · simp [h]
  · have hge : 64 ≤ 32 + i := by omega
    simp [h, BitVec.getLsbD_of_ge _ _ hge]

@[simp] theorem alu64_gid (env : Env) :
    alu64 .rsh (.num env.uidGid) (immVal 32#32) = some (word env.gid) := by
  rw [immVal, alu64_num, word, ← uidGid_shift]
  rfl

@[simp] theorem setWidth_uidGid (env : Env) : env.uidGid.setWidth 32 = env.uid := rfl

theorem branch_bool (b : Bool) (yes no : Outcome Jumps State) :
    branch (some b) yes no = if b then yes else no := by
  cases b <;> rfl

end Comparisons

/-! ## The head -/

section Head

variable {env : Env} {policy : Policy} {present : MapId → Bool} {s : State}

theorem decides_emitSelfBypassPolicy :
    Decides env (emitSelfBypassPolicy policy) s (ownGroup (Who.compared policy env)) [.r6, .r10] := by
  unfold Decides Takes
  by_cases he : policy.selfBypassGidEnabled
  · simp [emitSelfBypassPolicy, emitSelfGidBypassCheck, he, ownGroup, Who.compared, choose,
      sameVal_imm, branch_bool]
    split <;> simp_all
  · simp [emitSelfBypassPolicy, he, ownGroup, Who.compared, choose]


@[simp] theorem load_ctx (size : Size) (off : Int) : s.load size .ctx off = s.ctx.load size off := rfl

/-! Loads from the context. -/

@[simp] theorem ctx_load_protocol (c : Context) :
    c.load .w Off.protocol = some (word c.protocol) := rfl
@[simp] theorem ctx_load_type (c : Context) : c.load .w Off.type = some (word c.type) := rfl
@[simp] theorem ctx_load_sk (c : Context) :
    c.load .dw Off.sk = some (if c.sk.isSome then .sock else .num 0) := rfl
@[simp] theorem ctx_load_userIp4 (c : Context) :
    c.load .w Off.userIp4 = some (word c.userIp4) := rfl
@[simp] theorem ctx_load_userPort (c : Context) :
    c.load .w Off.userPort = some (half c.userPort) := rfl

theorem load_sock {k : Sock} (hk : s.ctx.sk = some k) (size : Size) (off : Int) :
    s.load size .sock off = k.load size off := by
  rw [State.load, hk, Option.bind_some]

@[simp] theorem sock_load_boundDevIf (k : Sock) :
    k.load .w Off.boundDevIf = some (word k.boundDevIf) := rfl
@[simp] theorem sock_load_mark (k : Sock) : k.load .w Off.mark = some (word k.mark) := rfl

/-- `IPPROTO_UDPLITE`, on the hooks of `sendmsg`. -/
theorem decides_udpLite (hs : Ready s) :
    Decides env [ldxMem .w .r2 .r6 Off.protocol, jneImm .r2 protoUdp .bypass] s
      (choose (s.ctx.protocol ≠ protoUdp) .bypass) [.r6, .r10] := by
  unfold Decides Takes
  by_cases hp : s.ctx.protocol = protoUdp <;>
    simp [hs.r6, hp, choose]

/-- Sockets bound to a device other than the loopback. -/
theorem decides_boundDevice (hs : Ready s) :
    Decides env [ldxMem .dw .r2 .r6 Off.sk, jeqImm .r2 0 .noSock, ldxMem .w .r3 .r2 Off.boundDevIf,
      jeqImm .r3 0 .unbound, jneImm .r3 loopbackIfindex .bypass, .label .noSock, .label .unbound] s
      (choose (s.ctx.boundDevIf ≠ 0 ∧ s.ctx.boundDevIf ≠ loopbackIfindex) .bypass) [.r6, .r10] := by
  unfold Decides Takes
  rcases hk : s.ctx.sk with _ | k
  · simp [hs.r6, hk, choose, Context.boundDevIf]
  · by_cases h0 : k.boundDevIf = 0#32
    · simp [hs.r6, hk, choose, Context.boundDevIf, load_sock, h0]
    · by_cases h1 : k.boundDevIf = loopbackIfindex <;>
        simp [hs.r6, hk, choose, Context.boundDevIf, load_sock, h0, h1]

theorem decides_emitExplicitNetworkBypass (hs : Ready s) :
    Decides env (emitExplicitNetworkBypass present) s (explicitNetworkBypass present s.maps s.ctx)
      [.r6, .r10] := by
  unfold Decides Takes
  by_cases hp : present .defaultNetwork
  · rcases hk : s.ctx.sk with _ | k
    · simp [emitExplicitNetworkBypass, hp, hs.r6, hk, explicitNetworkBypass, choose,
        Context.explicitNetwork, Context.mark]
    · have hnetwork : s.ctx.explicitNetwork =
          if k.mark &&& fwmarkExplicit = 0 then 0 else k.mark &&& 0xffff := by
        simp [Context.explicitNetwork, Context.mark, hk]
      by_cases he : k.mark &&& fwmarkExplicit = 0#32
      · simp [emitExplicitNetworkBypass, hp, hs.r6, hk, explicitNetworkBypass, choose, hnetwork,
          load_sock, Alu.apply, he]
      · by_cases hn : k.mark &&& 0xffff#32 = 0#32
        · simp [emitExplicitNetworkBypass, hp, hs.r6, hk, explicitNetworkBypass, choose, hnetwork,
            load_sock, Alu.apply, he, hn]
        · by_cases hr : s.maps.found .defaultNetwork (leBytes 4 defaultNetworkReadyKey) <;>
          by_cases hf : s.maps.found .defaultNetwork (leBytes 4 (k.mark &&& 0xffff#32)) <;>
          simp [emitExplicitNetworkBypass, hp, hs.r6, hs.r10, hk, explicitNetworkBypass, choose,
            hnetwork, load_sock, Alu.apply, he, hn, run_emitLookup, Stack.uidKey, Stack.ifindexKey,
            readAt_writeAt_self, readAt_writeAt_of_disjoint, MapId.keySize, hr,
            hf]
  · simp [emitExplicitNetworkBypass, hp, explicitNetworkBypass, choose]

theorem open_emitExplicitNetworkBypass : Open (emitExplicitNetworkBypass present) := by
  intro v
  rw [emitExplicitNetworkBypass]
  split <;> cases v <;> simp [labels, emitLookup, emitLdMapFd, emitStackPointer]

theorem choose_or (p q : Prop) [Decidable p] [Decidable q] (v : Verdict) :
    choose (p ∨ q) v = (choose p v).or (choose q v) := by
  by_cases hp : p <;> by_cases hq : q <;> simp [choose, hp, hq]

theorem decides_emitSocketShapeBypass {a : AttachType} (hook : Hook)
    (ha : a = hook.attach4 ∨ a = hook.attach6) (hs : Ready s) :
    Decides env (emitSocketShapeBypass a present) s
      ((socketShape hook s.ctx).or (explicitNetworkBypass present s.maps s.ctx)) [.r6, .r10] := by
  have ha' : a.isSendmsg = decide (hook = .sendmsg) := by
    rcases ha with rfl | rfl <;> cases hook <;> rfl
  rw [emitSocketShapeBypass, ha', socketShape, choose_or]
  refine Decides.seq (Decides.seq ?_ (fun s' hk => ?_) ?_) (fun s' hk => ?_)
    open_emitExplicitNetworkBypass
  · cases hook with
    | connect => simpa [choose] using Decides.nil
    | sendmsg => simpa [choose] using decides_udpLite hs
  · rw [← hk.ctx]
    exact decides_boundDevice (hs.of_keeps hk (by simp) (by simp))
  · intro v
    cases v <;> simp [labels]
  · rw [← hk.ctx, ← hk.maps]
    exact decides_emitExplicitNetworkBypass (hs.of_keeps hk (by simp) (by simp))

end Head

/-! ## The user -/

section User

variable {env : Env} {policy : Policy} {present : MapId → Bool} {s : State}

/-- The inline comparisons. -/
theorem decides_inlineUids {uid : Word} (uids : List Word) (rs : List Reg)
    (h7 : s.reg .r7 = word uid) :
    Decides env (uids.map fun x => jeqImm .r7 x .bypass) s
      (choose (uids.any (comparesEqual uid)) .bypass) rs := by
  induction uids with
  | nil => simpa [choose] using Decides.nil
  | cons x uids ih =>
      unfold Decides Takes at ih ⊢
      simp only [List.map_cons, run_jump, holds_jeq, operand_imm, h7, sameVal_imm, branch_bool]
      by_cases hx : comparesEqual uid x
      · have hover : run (isa env) (uids.map fun x => jeqImm .r7 x .bypass) (some .bypass) s =
            .goto .bypass s := by
          refine Lib.Asm.run_over _ ?_ s
          clear ih
          induction uids with
          | nil => simp [labels]
          | cons x uids ih => exact ih
        simp [hx, hover, choose]
      · simpa [hx, choose] using ih

/-- The flags of the user, where the lookup found them. -/
theorem decides_emitUidMapPolicy (mode : Mode) {uid : Word} (hs : Ready s)
    (h7 : s.reg .r7 = word uid) :
    Decides env (emitUidMapPolicy mode) s
      ((choose (uidFlags s.maps uid &&& uidBypass ≠ 0) .bypass).or
        (modeBypass mode (uidFlags s.maps uid))) [.r6, .r9, .r10] := by
  have hkey : readAt (writeAt s.stack (-4) (leBytes 4 uid)) (-4) MapId.uid.keySize = leBytes 4 uid :=
    readAt_writeAt_self _ _ (by simp [MapId.keySize])
  unfold Decides Takes
  rcases hv : s.maps.table .uid (leBytes 4 uid) with _ | value
  · have hflags : uidFlags s.maps uid = 0 := by simp [uidFlags, hv]
    have hentry := Maps.entry_none (m := .uid) (by decide) hv
    cases mode <;>
      simp [emitUidMapPolicy, hs.r10, h7, run_emitLookup, Stack.uidKey, hkey, hentry, hflags, choose,
        modeBypass]
  · have hflags : uidFlags s.maps uid = (joinBytes (value.take 4)).setWidth 32 := by
      simp [uidFlags, hv]
    have hentry := Maps.entry_some (m := .uid) (by decide) hv
    have hload : s.maps.load .w .uid (leBytes 4 uid) 0 = some (word (uidFlags s.maps uid)) := by
      rw [hflags]
      exact Maps.load_word hv 0 (by decide)
    by_cases hb : uidFlags s.maps uid &&& uidBypass = 0#32 <;>
    by_cases hsel : uidFlags s.maps uid &&& uidSelected = 0#32 <;>
    cases mode <;>
      simp [emitUidMapPolicy, hs.r10, h7, run_emitLookup, Stack.uidKey, hkey, hentry, hload, hb, hsel,
        choose, modeBypass]

theorem open_emitUidMapPolicy (mode : Mode) : Open (emitUidMapPolicy mode) := by
  intro v
  cases v <;> cases mode <;> decide

/-- **The user policy.** -/
theorem decides_emitUidPolicy (hs : Ready s) :
    Decides env (emitUidPolicy policy present) s
      (uidPolicy present s.maps (Who.compared policy env) policy.mode) [.r6, .r9, .r10] := by
  have hhead : Takes (isa env) [callFunc .getCurrentUidGid, mov32Reg .r7 .r0] s none
      (fun s' => Keeps [.r6, .r9, .r10] s s' ∧ s'.reg .r7 = word env.uid) := by
    simp [Takes]
  rw [emitUidPolicy]
  split
  · rename_i hnone
    obtain ⟨hinline, habsent, hmode⟩ := hnone
    simp only [Bool.not_eq_true'] at habsent
    simpa [uidPolicy, Who.compared, hinline, habsent, hmode, choose] using Decides.nil
  · rw [List.append_assoc]
    refine Decides.after hhead fun s₁ h₁ => ?_
    obtain ⟨hk, h7⟩ := h₁
    refine ⟨hk, ?_⟩
    have hs₁ := hs.of_keeps hk (by simp) (by simp)
    rw [uidPolicy, ← hk.maps]
    refine (decides_inlineUids _ [.r6, .r7, .r9, .r10] h7).append (fun s₂ hk₂ => ?_) ?_ (by simp)
    · have hs₂ := hs₁.of_keeps hk₂ (by simp) (by simp)
      have h7₂ : s₂.reg .r7 = word env.uid := (hk₂.reg _ (by simp)).trans h7
      by_cases hp : present .uid
      · simp only [hp, Bool.not_true, Bool.false_eq_true, if_false, if_true]
        rw [← hk₂.maps]
        exact decides_emitUidMapPolicy policy.mode hs₂ h7₂
      · simp only [hp, Bool.not_false, if_true]
        by_cases hm : policy.mode = .global
        · simpa [hm, choose] using Decides.nil
        · simp [hm, choose, Decides, Takes]
    · split
      · split
        · intro v
          cases v <;> simp [labels]
        · intro v
          simp [labels]
      · exact open_emitUidMapPolicy policy.mode

theorem labels_inlineUids (uids : List Word) :
    labels (uids.map fun x => jeqImm .r7 x .bypass) = [] := by
  induction uids with
  | nil => rfl
  | cons x uids ih => exact ih

theorem labels_emitUidMapPolicy (mode : Mode) : labels (emitUidMapPolicy mode) = [.uidNotFound] := by
  cases mode <;> rfl

/-- The user policy patches one jump of its own. -/
theorem labels_emitUidPolicy {l : Jumps} (h : l ∈ labels (emitUidPolicy policy present)) :
    l = .uidNotFound := by
  rw [emitUidPolicy] at h
  split at h
  · cases h
  · rw [Lib.Asm.labels_append, Lib.Asm.labels_append, labels_inlineUids] at h
    simp only [labels, List.nil_append] at h
    split at h
    · split at h <;> cases h
    · rw [labels_emitUidMapPolicy] at h
      simpa using h

theorem open_emitUidPolicy : Open (emitUidPolicy policy present) := by
  intro v hv
  have := labels_emitUidPolicy hv
  cases v <;> cases this

/-- The bypass list before hijacked DNS. -/
theorem decides_emitTcpDnsForcedBypass (hook : Hook) (hs : Ready s) :
    Decides env (emitTcpDnsForcedBypass policy present hook.protocol hook.fromContext) s
      (forcedBypass policy present s.maps hook s.ctx (Who.compared policy env)) [.r6, .r10] := by
  have hbypass : ∀ s' : State, Ready s' → s'.maps = s.maps →
      Decides env (emitUidPolicy { policy with mode := .global } present) s'
        (uidPolicy present s.maps (Who.compared policy env) .global) [.r6, .r10] := by
    intro s' hs' hm
    rw [← hm]
    exact Decides.mono (@decides_emitUidPolicy env { policy with mode := .global } present s' hs')
      (by simp)
  have hskip : Jumps.skip ∉ labels (emitUidPolicy { policy with mode := .global } present) :=
    fun h => nomatch labels_emitUidPolicy h
  rw [emitTcpDnsForcedBypass, forcedBypass]
  generalize emitUidPolicy { policy with mode := .global } present = bypassOnly at hbypass hskip ⊢
  by_cases hh : policy.enableDnsHijack
  · by_cases he : policy.enableDnsEnhancement
    · simpa [hh, he] using hbypass s hs rfl
    · cases hook with
      | sendmsg => simpa [hh, he, Hook.protocol, Hook.fromContext, protoUdp, protoTcp] using Decides.nil
      | connect =>
          have hcode : ∀ P Q : Code, (if (!policy.enableDnsHijack) = true then []
              else if !policy.enableDnsEnhancement ∧ Hook.connect.fromContext then P else Q) = P := by
            simp [hh, he, Hook.fromContext]
          rw [hcode]
          by_cases ht : s.ctx.type = sockStream
          · have hlist : (policy.enableDnsHijack ∧ (policy.enableDnsEnhancement ∨
                (Hook.connect = .connect ∧ s.ctx.type = sockStream))) := ⟨hh, .inr ⟨rfl, ht⟩⟩
            have hload : Takes (isa env) [ldxMem .w .r2 .r6 Off.type, jneImm .r2 sockStream .skip]
                s none (Keeps [.r6, .r10] s) := by
              simp [Takes, hs.r6, ht]
            rw [if_pos hlist, List.append_assoc]
            refine Decides.after hload fun s' hk => ⟨hk, ?_⟩
            rw [← Option.or_none (o := uidPolicy _ _ _ _)]
            refine Decides.seq (hbypass s' (hs.of_keeps hk (by simp) (by simp)) hk.maps)
              (fun s'' _ => ⟨rfl, Keeps.refl⟩) ?_
            intro v
            cases v <;> simp [labels]
          · simp [Decides, Takes, ht, hs.r6, he, run_append, Lib.Asm.run_over _ hskip, andThen]
  · simpa [hh] using Decides.nil

theorem open_emitTcpDnsForcedBypass (hook : Hook) :
    Open (emitTcpDnsForcedBypass policy present hook.protocol hook.fromContext) := by
  intro v hv
  have hmem : ∀ l ∈ labels
      (emitTcpDnsForcedBypass policy present hook.protocol hook.fromContext),
      l = .uidNotFound ∨ l = .skip := by
    intro l hl
    rw [emitTcpDnsForcedBypass] at hl
    split at hl
    · cases hl
    · split at hl
      · simp only [Lib.Asm.labels_append, labels, List.nil_append, List.mem_append,
          List.mem_singleton] at hl
        exact hl.imp labels_emitUidPolicy id
      · split at hl
        · cases hl
        · exact .inl (labels_emitUidPolicy hl)
  rcases hmem _ hv with h | h <;> cases v <;> cases h

theorem open_emitSocketShapeBypass (a : AttachType) : Open (emitSocketShapeBypass a present) := by
  intro v
  rw [emitSocketShapeBypass, Lib.Asm.labels_append, List.mem_append, not_or]
  refine ⟨?_, open_emitExplicitNetworkBypass v⟩
  cases v <;> cases a <;> decide

/-- **The head** of the forward programs. -/
theorem takes_emitHead (hook : Hook) {a : AttachType} (ha : a = hook.attach4 ∨ a = hook.attach6)
    (c : Context) (maps : Maps) (stack : Int → Byte) :
    Takes (isa env) (emitHead policy present hook.protocol hook.fromContext a) (start c maps stack)
      (headPolicy policy present maps hook c (Who.compared policy env)).exit
      (fun s => Ready s ∧ s.ctx = c ∧ s.maps = maps ∧ s.calls = 0) := by
  have hmov : Takes (isa env) [mov64Reg .r6 .r1] (start c maps stack) none
      (fun s => Ready s ∧ s.ctx = c ∧ s.maps = maps ∧ s.calls = 0) := by
    simp only [Takes, run_op, step_alu64, operand_reg, alu64_mov, Option.map_some, toEffect_some,
      onward_next, run_nil, Lib.Asm.ends_fall]
    exact ⟨trivial, ⟨rfl, rfl⟩, rfl, rfl, rfl⟩
  have hrest : ∀ s, Ready s → Decides env (emitSelfBypassPolicy policy ++
      (emitSocketShapeBypass a present ++
        emitTcpDnsForcedBypass policy present hook.protocol hook.fromContext)) s
      (headPolicy policy present s.maps hook s.ctx (Who.compared policy env)) [.r6, .r10] := by
    intro s hs
    rw [headPolicy]
    refine Decides.seq decides_emitSelfBypassPolicy (fun s₁ hk₁ => ?_) ?_
    · have hs₁ := hs.of_keeps hk₁ (by simp) (by simp)
      rw [← hk₁.ctx, ← hk₁.maps]
      refine Decides.seq (decides_emitSocketShapeBypass hook ha hs₁) (fun s₂ hk₂ => ?_)
        (open_emitTcpDnsForcedBypass hook)
      rw [← hk₂.ctx, ← hk₂.maps]
      exact decides_emitTcpDnsForcedBypass hook (hs₁.of_keeps hk₂ (by simp) (by simp))
    · intro v
      rw [Lib.Asm.labels_append, List.mem_append, not_or]
      exact ⟨open_emitSocketShapeBypass a v, open_emitTcpDnsForcedBypass hook v⟩
  rw [emitHead, List.append_assoc, List.append_assoc]
  refine Takes.through hmov fun s ⟨hs, hc, hm, hn⟩ => ?_
  have hd := hrest s hs
  rw [hc, hm] at hd
  exact Takes.mono hd fun s' hk => ⟨hs.of_keeps hk (by simp) (by simp), hk.ctx.trans hc,
    hk.maps.trans hm, hk.calls.trans hn⟩

end User

end Bpf2Socks.Cgroup
