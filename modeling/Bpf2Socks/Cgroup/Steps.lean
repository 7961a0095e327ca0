/-
# Bpf2Socks.Cgroup.Steps — symbolic execution of the generated code.

Small facts about the machine, stated so that `simp` runs straight-line code: what a write leaves of
the registers and of the stack, how a number comes back from the bytes it was stored as, and what
the two pieces every program is full of do, a map lookup and a map update.
-/
import Bpf2Socks.Cgroup.Program
import Mathlib.Tactic.IntervalCases
import Mathlib.Tactic.NormNum

namespace Bpf2Socks.Cgroup

open Lib (Line Outcome)
open Lib.Asm (branch labels onward run run_append run_over)

/-! ## Registers -/

section Registers

variable (s : State) (r : Reg) (v : Val)

@[simp] theorem State.set_reg (r' : Reg) : (s.set r v).reg r' = if r' = r then v else s.reg r' := rfl
@[simp] theorem State.set_stack : (s.set r v).stack = s.stack := rfl
@[simp] theorem State.set_ctx : (s.set r v).ctx = s.ctx := rfl
@[simp] theorem State.set_maps : (s.set r v).maps = s.maps := rfl
@[simp] theorem State.set_calls : (s.set r v).calls = s.calls := rfl

/-- Setting a register to what it holds. -/
theorem State.set_eq_self {s : State} {r : Reg} {v : Val} (h : s.reg r = v) : s.set r v = s := by
  rw [State.set]
  congr 1
  funext r'
  by_cases hr : r' = r
  · rw [if_pos hr, hr, h]
  · rw [if_neg hr]

variable (off : Int) (bytes : List Byte)

@[simp] theorem State.write_reg : (s.write off bytes).reg = s.reg := rfl
@[simp] theorem State.write_stack : (s.write off bytes).stack = writeAt s.stack off bytes := rfl
@[simp] theorem State.write_ctx : (s.write off bytes).ctx = s.ctx := rfl
@[simp] theorem State.write_maps : (s.write off bytes).maps = s.maps := rfl
@[simp] theorem State.write_calls : (s.write off bytes).calls = s.calls := rfl

@[simp] theorem State.clobber_stack : s.clobber.stack = s.stack := rfl
@[simp] theorem State.clobber_ctx : s.clobber.ctx = s.ctx := rfl
@[simp] theorem State.clobber_maps : s.clobber.maps = s.maps := rfl
@[simp] theorem State.clobber_calls : s.clobber.calls = s.calls := rfl
@[simp] theorem State.clobber_r0 : s.clobber.reg .r0 = s.reg .r0 := rfl
@[simp] theorem State.clobber_r6 : s.clobber.reg .r6 = s.reg .r6 := rfl
@[simp] theorem State.clobber_r7 : s.clobber.reg .r7 = s.reg .r7 := rfl
@[simp] theorem State.clobber_r8 : s.clobber.reg .r8 = s.reg .r8 := rfl
@[simp] theorem State.clobber_r9 : s.clobber.reg .r9 = s.reg .r9 := rfl
@[simp] theorem State.clobber_r10 : s.clobber.reg .r10 = s.reg .r10 := rfl

/-- A helper call leaves nothing of what was in `r1` to `r5`. -/
theorem State.clobber_congr {s s' : State} (hstack : s'.stack = s.stack) (hctx : s'.ctx = s.ctx)
    (hmaps : s'.maps = s.maps) (hcalls : s'.calls = s.calls)
    (hreg : ∀ r ∈ [Reg.r0, .r6, .r7, .r8, .r9, .r10], s'.reg r = s.reg r) :
    s'.clobber = s.clobber := by
  cases s
  cases s'
  simp only at hstack hctx hmaps hcalls hreg
  subst hstack hctx hmaps hcalls
  simp only [State.clobber, State.mk.injEq, and_true]
  funext r
  cases r <;> first | rfl | exact hreg _ (by simp)

end Registers

/-! ## Bytes -/

section Bytes

@[simp] theorem length_leBytes {w : Nat} (n : Nat) (x : BitVec w) : (leBytes n x).length = n := by
  simp [leBytes]

@[simp] theorem length_readAt (f : Int → Byte) (off : Int) (n : Nat) :
    (readAt f off n).length = n := by
  simp [readAt]

theorem readAt_congr {f g : Int → Byte} {off : Int} {n : Nat}
    (h : ∀ i, off ≤ i → i < off + n → f i = g i) : readAt f off n = readAt g off n := by
  refine List.map_congr_left fun i hi => h _ (by omega) ?_
  have := List.mem_range.mp hi
  omega

/-- What was written is read. -/
theorem readAt_writeAt (f : Int → Byte) (off : Int) (bytes : List Byte) :
    readAt (writeAt f off bytes) off bytes.length = bytes := by
  apply List.ext_getElem (by simp)
  intro i h₁ h₂
  have hi : i < bytes.length := by simpa using h₁
  simp only [readAt, List.getElem_map, List.getElem_range, writeAt]
  rw [if_pos (by omega)]
  rw [show off + (i : Int) - off = i by omega, Int.toNat_natCast]
  simp [List.getD, hi]

theorem readAt_writeAt_self (f : Int → Byte) (off : Int) {bytes : List Byte} {n : Nat}
    (h : bytes.length = n) : readAt (writeAt f off bytes) off n = bytes := by
  rw [← h, readAt_writeAt]

/-- A write elsewhere is not read. -/
theorem readAt_writeAt_of_disjoint (f : Int → Byte) {off off' : Int} {bytes : List Byte} {n : Nat}
    (h : off + bytes.length ≤ off' ∨ off' + n ≤ off) :
    readAt (writeAt f off bytes) off' n = readAt f off' n := by
  refine readAt_congr fun i h₁ h₂ => ?_
  rw [writeAt, if_neg (by omega)]

/-- A longer read in two parts. -/
theorem readAt_add (f : Int → Byte) (off : Int) (m n : Nat) :
    readAt f off (m + n) = readAt f off m ++ readAt f (off + m) n := by
  simp only [readAt, List.range_add, List.map_append, List.map_map]
  congr 1
  refine List.map_congr_left fun i _ => ?_
  simp only [Function.comp]
  congr 1
  push_cast
  omega

theorem leBytes_zero {w : Nat} (n : Nat) : leBytes n (0 : BitVec w) = List.replicate n 0 := by
  apply List.ext_getElem (by simp)
  intro i _ _
  simp [leBytes, byteOf]

/-- The low bytes of a number are those of a wider one. -/
theorem leBytes_setWidth {w : Nat} (n v : Nat) (hv : 8 * n ≤ v) (x : BitVec w) :
    leBytes n (x.setWidth v) = leBytes n x := by
  refine List.map_congr_left fun i hi => ?_
  have hi' := List.mem_range.mp hi
  apply BitVec.eq_of_getLsbD_eq
  intro j hj
  rw [byteOf, byteOf, BitVec.getLsbD_extractLsb', BitVec.getLsbD_extractLsb',
    BitVec.getLsbD_setWidth]
  have : 8 * i + j < v := by omega
  simp [this]

/-- The low bytes of an immediate. -/
theorem leBytes_signExtend (n : Nat) (h : n ≤ 4) (i : Word) :
    leBytes n (i.signExtend 64) = leBytes n i := by
  refine List.map_congr_left fun k hk => ?_
  have hk' := List.mem_range.mp hk
  apply BitVec.eq_of_getLsbD_eq
  intro j hj
  have h₁ : 8 * k + j < 64 := by omega
  have h₂ : 8 * k + j < 32 := by omega
  rw [byteOf, byteOf, BitVec.getLsbD_extractLsb', BitVec.getLsbD_extractLsb',
    BitVec.getLsbD_signExtend]
  simp [h₁, h₂]

theorem joinBytes_cons (b : Byte) (bytes : List Byte) :
    joinBytes (b :: bytes) = joinBytes bytes <<< 8 ||| b.setWidth 64 := rfl

/-- Bit `i` of a number is in byte `i / 8`. -/
theorem getLsbD_joinBytes (bytes : List Byte) (h : bytes.length ≤ 8) (i : Nat) :
    (joinBytes bytes).getLsbD i =
      (decide (i < 8 * bytes.length) && (bytes.getD (i / 8) 0).getLsbD (i % 8)) := by
  induction bytes generalizing i with
  | nil => simp [joinBytes]
  | cons b bytes ih =>
      have hlen : bytes.length ≤ 8 := by simp at h; omega
      rw [joinBytes_cons, BitVec.getLsbD_or, BitVec.getLsbD_shiftLeft, BitVec.getLsbD_setWidth]
      simp only [List.length_cons] at h ⊢
      by_cases hi : i < 8
      · have : i / 8 = 0 := by omega
        have hlt : i < 8 * (bytes.length + 1) := by omega
        have h64 : i < 64 := by omega
        simp [hi, this, hlt, h64, Nat.mod_eq_of_lt hi]
      · rw [ih hlen]
        have hdiv : i / 8 = (i - 8) / 8 + 1 := by omega
        have hmod : (i - 8) % 8 = i % 8 := by omega
        have hb : b.getLsbD i = false := BitVec.getLsbD_of_ge _ _ (by omega)
        rw [hdiv, List.getD_cons_succ, hmod, hb]
        by_cases hlt : i < 8 * (bytes.length + 1)
        · have h1 : i < 64 := by omega
          have h2 : i - 8 < 8 * bytes.length := by omega
          simp [hi, hlt, h1, h2]
        · have h2 : ¬i - 8 < 8 * bytes.length := by omega
          simp [hlt, h2]

/-- A number comes back from its low bytes. -/
theorem joinBytes_leBytes {w : Nat} (n : Nat) (hn : n ≤ 8) (x : BitVec w) :
    joinBytes (leBytes n x) = (x.setWidth (8 * n)).setWidth 64 := by
  apply BitVec.eq_of_getLsbD_eq
  intro i hi
  rw [getLsbD_joinBytes _ (by simpa using hn), length_leBytes, BitVec.getLsbD_setWidth,
    BitVec.getLsbD_setWidth]
  by_cases hlt : i < 8 * n
  · have hdiv : i / 8 < n := by omega
    have hbyte : (leBytes n x).getD (i / 8) 0 = byteOf x (i / 8) := by
      simp [leBytes, List.getD, hdiv]
    have hidx : 8 * (i / 8) + i % 8 = i := by omega
    have hmod : i % 8 < 8 := by omega
    rw [hbyte, byteOf, BitVec.getLsbD_extractLsb', hidx]
    simp [hlt, hi, hmod]
  · simp [hlt]

/-- A number of few bytes is a word. -/
theorem num_joinBytes_word (bytes : List Byte) (h : bytes.length ≤ 4) :
    Val.num (joinBytes bytes) = word ((joinBytes bytes).setWidth 32) := by
  rw [word]
  congr 1
  apply BitVec.eq_of_getLsbD_eq
  intro i hi
  rw [BitVec.getLsbD_setWidth, BitVec.getLsbD_setWidth, getLsbD_joinBytes _ (by omega)]
  by_cases hlt : i < 8 * bytes.length
  · have h32 : i < 32 := by omega
    simp [hlt, hi, h32]
  · simp [hlt]

/-- A number of two bytes is a port. -/
theorem num_joinBytes_half (bytes : List Byte) (h : bytes.length ≤ 2) :
    Val.num (joinBytes bytes) = half ((joinBytes bytes).setWidth 16) := by
  rw [half]
  congr 1
  apply BitVec.eq_of_getLsbD_eq
  intro i hi
  rw [BitVec.getLsbD_setWidth, BitVec.getLsbD_setWidth, getLsbD_joinBytes _ (by omega)]
  by_cases hlt : i < 8 * bytes.length
  · have h16 : i < 16 := by omega
    simp [hlt, hi, h16]
  · simp [hlt]

/-- The bits of a word by its bytes. -/
theorem getLsbD_bytes (a b c d : Byte) (i : Nat) :
    BitVec.getLsbD (w := 32) (a ++ b ++ c ++ d) i =
      if i < 8 then d.getLsbD i else if i < 16 then c.getLsbD (i - 8)
      else if i < 24 then b.getLsbD (i - 16) else a.getLsbD (i - 24) := by
  refine (BitVec.getLsbD_append (x := a ++ b ++ c) (y := d) (i := i)).trans ?_
  rw [BitVec.getLsbD_append, BitVec.getLsbD_append]
  have e₁ : (i - 8 < 8) = (i < 8 ∨ i < 16) := by simp only [eq_iff_iff]; omega
  have e₂ : (i - 8 - 8 < 8) = (i < 16 ∨ i < 24) := by simp only [eq_iff_iff]; omega
  rw [show i - 8 - 8 = i - 16 by omega] at *
  rw [show i - 16 - 8 = i - 24 by omega]
  by_cases h₁ : i < 8 <;> by_cases h₂ : i < 16 <;> by_cases h₃ : i < 24 <;> simp [h₁, h₂, h₃, e₁, e₂]

theorem byteOf_swap32 (x : Word) {k : Nat} (hk : k < 4) :
    byteOf (swap32 x) k = byteOf x (3 - k) := by
  apply BitVec.eq_of_getLsbD_eq
  intro i hi
  have hi' : i < 8 := hi
  rw [byteOf, BitVec.getLsbD_extractLsb', swap32, getLsbD_bytes]
  simp only [hi, byteOf, BitVec.getLsbD_extractLsb', decide_true, Bool.true_and]
  interval_cases k <;> interval_cases i <;> simp

theorem bytes_append (x : Word) : byteOf x 3 ++ byteOf x 2 ++ byteOf x 1 ++ byteOf x 0 = x := by
  apply BitVec.eq_of_getLsbD_eq
  intro i hi
  refine (getLsbD_bytes _ _ _ _ i).trans ?_
  simp only [byteOf, BitVec.getLsbD_extractLsb']
  interval_cases i <;> simp

/-- Swapping twice. -/
theorem swap32_swap32 (x : Word) : swap32 (swap32 x) = x := by
  rw [swap32, byteOf_swap32 x (by decide), byteOf_swap32 x (by decide), byteOf_swap32 x (by decide),
    byteOf_swap32 x (by decide)]
  exact bytes_append x

theorem getLsbD_swap16 (x : BitVec 16) (i : Nat) :
    (swap16 x).getLsbD i =
      if i < 8 then (byteOf x 1).getLsbD i else (byteOf x 0).getLsbD (i - 8) := by
  refine (BitVec.getLsbD_append (x := byteOf x 0) (y := byteOf x 1) (i := i)).trans ?_
  by_cases h : i < 8 <;> simp [h]

theorem swap16_swap16 (x : BitVec 16) : swap16 (swap16 x) = x := by
  apply BitVec.eq_of_getLsbD_eq
  intro i hi
  rw [getLsbD_swap16]
  simp only [byteOf, BitVec.getLsbD_extractLsb', getLsbD_swap16]
  interval_cases i <;> simp

end Bytes

/-! ## Values -/

section Values

@[simp] theorem immVal_zero : immVal 0#32 = .num 0#64 := rfl

/-- An immediate that is not negative. -/
theorem immVal_eq_word {i : Word} (h : i.msb = false) : immVal i = word i := by
  rw [immVal, word, BitVec.signExtend_eq_setWidth_of_msb_false h]

@[simp] theorem immVal_protoTcp : immVal protoTcp = word protoTcp := rfl
@[simp] theorem immVal_protoUdp : immVal protoUdp = word protoUdp := rfl
@[simp] theorem msb_bpfAny : BitVec.msb bpfAny = false := by decide
@[simp] theorem msb_bpfNoexist : BitVec.msb bpfNoexist = false := by decide
@[simp] theorem immVal_sockStream : immVal sockStream = word sockStream := rfl
@[simp] theorem immVal_sockDgram : immVal sockDgram = word sockDgram := rfl
@[simp] theorem immVal_established : immVal established = word established := rfl
@[simp] theorem immVal_loopbackIfindex : immVal loopbackIfindex = word loopbackIfindex := rfl
@[simp] theorem immVal_fwmarkExplicit : immVal fwmarkExplicit = word fwmarkExplicit := rfl
@[simp] theorem immVal_dnsTetherUid : immVal dnsTetherUid = word dnsTetherUid := rfl
@[simp] theorem immVal_dnsMarkMask : immVal dnsMarkMask = word dnsMarkMask := rfl
@[simp] theorem immVal_dnsDirectMark : immVal dnsDirectMark = word dnsDirectMark := rfl
@[simp] theorem immVal_dnsProxyDecision : immVal dnsProxyDecision = word dnsProxyDecision := rfl
@[simp] theorem immVal_uidBypass : immVal uidBypass = word uidBypass := rfl
@[simp] theorem immVal_uidSelected : immVal uidSelected = word uidSelected := rfl
@[simp] theorem immVal_ffff : immVal 0xffff#32 = word 0xffff#32 := rfl

/-- A port in network order. -/
@[simp] theorem immVal_htons (port : BitVec 16) : immVal (htons port) = half (swap16 port) := by
  have hmsb : (htons port).msb = false := by
    rw [htons, BitVec.msb_setWidth]
    simp
  rw [immVal_eq_word hmsb, word, half, htons]
  congr 1

theorem setWidth_word (x : Word) : (x.setWidth 64).setWidth 32 = x := by
  rw [BitVec.setWidth_setWidth_of_le _ (by decide), BitVec.setWidth_eq]

theorem setWidth_half (x : BitVec 16) : (x.setWidth 64).setWidth 16 = x := by
  rw [BitVec.setWidth_setWidth_of_le _ (by decide), BitVec.setWidth_eq]

theorem word_inj {a b : Word} : word a = word b ↔ a = b := by
  refine ⟨fun h => ?_, fun h => by rw [h]⟩
  rw [← setWidth_word a, ← setWidth_word b, Val.num.inj h]

theorem half_inj {a b : BitVec 16} : half a = half b ↔ a = b := by
  refine ⟨fun h => ?_, fun h => by rw [h]⟩
  rw [← setWidth_half a, ← setWidth_half b, Val.num.inj h]

/-- Two numbers are the same when the values are. -/
theorem sameVal_num (a b : BitVec 64) : sameVal (.num a) (.num b) = some (decide (a = b)) := rfl

@[simp] theorem sameVal_word (a b : Word) : sameVal (word a) (word b) = some (decide (a = b)) := by
  rw [word, word, sameVal_num]
  simp only [Option.some.injEq, decide_eq_decide]
  exact ⟨fun h => word_inj.mp (congrArg Val.num h), fun h => by rw [h]⟩

@[simp] theorem sameVal_half (a b : BitVec 16) :
    sameVal (half a) (half b) = some (decide (a = b)) := by
  rw [half, half, sameVal_num]
  simp only [Option.some.injEq, decide_eq_decide]
  exact ⟨fun h => half_inj.mp (congrArg Val.num h), fun h => by rw [h]⟩

@[simp] theorem sameVal_word_zero (a : Word) : sameVal (word a) (.num 0#64) = some (decide (a = 0#32)) :=
  sameVal_word a 0

@[simp] theorem sameVal_half_zero (a : BitVec 16) :
    sameVal (half a) (.num 0#64) = some (decide (a = 0#16)) :=
  sameVal_half a 0

@[simp] theorem sameVal_num_zero (x : BitVec 64) :
    sameVal (.num x) (.num 0#64) = some (decide (x = 0#64)) := rfl
@[simp] theorem sameVal_sock : sameVal .sock (.num 0#64) = some false := rfl
@[simp] theorem sameVal_elem (m : MapId) (key : List Byte) :
    sameVal (.elem m key) (.num 0#64) = some false := rfl

@[simp] theorem alu64_mov (a b : Val) : alu64 .mov a b = some b := rfl

theorem alu64_num (op : Alu) (a b : BitVec 64) :
    alu64 op (.num a) (.num b) = some (.num (op.apply a b)) := by
  cases op <;> rfl

@[simp] theorem alu64_add_fp (off : Int) (b : BitVec 64) :
    alu64 .add (.fp off) (.num b) = some (.fp (off + b.toInt)) := rfl

@[simp] theorem alu64_and_word (a b : Word) :
    alu64 .and (word a) (word b) = some (word (a &&& b)) := by
  rw [word, word, alu64_num, word, Alu.apply, BitVec.setWidth_and]

/-- A mask reaches only the lower half, whatever its sign. -/
@[simp] theorem alu64_and_imm (a i : Word) :
    alu64 .and (word a) (immVal i) = some (word (a &&& i)) := by
  rw [word, immVal, alu64_num, word, Alu.apply]
  congr 2
  apply BitVec.eq_of_getLsbD_eq
  intro k hk
  simp only [BitVec.getLsbD_and, BitVec.getLsbD_setWidth, BitVec.getLsbD_signExtend]
  by_cases h : k < 32
  · simp [hk, h]
  · simp [BitVec.getLsbD_of_ge a k (by omega)]

@[simp] theorem alu64_and_zero (b : Word) :
    alu64 .and (.num 0#64) (word b) = some (.num 0#64) := by
  rw [word, alu64_num, Alu.apply, BitVec.zero_and]

@[simp] theorem alu64_or_word (a b : Word) :
    alu64 .or (word a) (word b) = some (word (a ||| b)) := by
  rw [word, word, alu64_num, word, Alu.apply, BitVec.setWidth_or]

@[simp] theorem alu32_mov (a : Val) (b : BitVec 64) :
    alu32 .mov a (.num b) = some (word (b.setWidth 32)) := by
  cases a <;> rfl

@[simp] theorem alu32_mov_word (a : Val) (b : Word) : alu32 .mov a (word b) = some (word b) := by
  rw [word, alu32_mov, setWidth_word]
  rfl

@[simp] theorem alu32_word (op : Alu) (a b : Word) :
    alu32 op (word a) (word b) = some (word (op.apply a b)) := by
  rw [word, word]
  cases op <;> simp only [alu32, setWidth_word, word, Alu.apply]

@[simp] theorem beVal_word (a : Word) : beVal 32 (word a) = some (word (swap32 a)) := by
  show some (word (swap32 ((a.setWidth 64).setWidth 32))) = _
  rw [setWidth_word]

@[simp] theorem beVal_half (a : BitVec 16) : beVal 16 (half a) = some (half (swap16 a)) := by
  show some (half (swap16 ((a.setWidth 64).setWidth 16))) = _
  rw [setWidth_half]

end Values

/-! ## Instructions -/

section Instructions

variable (env : Env) (s : State) (k : Code)

@[simp] theorem run_nil : run (isa env) ([] : Code) none s = .fall s := rfl

@[simp] theorem run_op (i : Insn) :
    run (isa env) (.op i :: k) none s =
      onward (step env i s) fun s' => run (isa env) k none s' := rfl

@[simp] theorem run_jump (c : Cond) (l : Jumps) :
    run (isa env) (.jump c l :: k) none s =
      branch (holds c s) (run (isa env) k (some l) s) (run (isa env) k none s) := rfl

@[simp] theorem run_label (l : Jumps) :
    run (isa env) (.label l :: k) none s = run (isa env) k none s := rfl

@[simp] theorem seek_nil (l : Jumps) : run (isa env) ([] : Code) (some l) s = .goto l s := rfl

@[simp] theorem seek_op (i : Insn) (l : Jumps) :
    run (isa env) (.op i :: k) (some l) s = run (isa env) k (some l) s := rfl

@[simp] theorem seek_jump (c : Cond) (l l' : Jumps) :
    run (isa env) (.jump c l' :: k) (some l) s = run (isa env) k (some l) s := rfl

@[simp] theorem seek_label (l l' : Jumps) :
    run (isa env) (.label l' :: k) (some l) s =
      if l' = l then run (isa env) k none s else run (isa env) k (some l) s := rfl

@[simp] theorem onward_next (f : State → Outcome Jumps State) : onward (.next s) f = f s := rfl
@[simp] theorem onward_halt (f : State → Outcome Jumps State) :
    onward (.halt s) f = .halt s := rfl

@[simp] theorem branch_some (p : Prop) [Decidable p] (yes no : Outcome Jumps State) :
    branch (some (decide p)) yes no = if p then yes else no := by
  by_cases h : p <;> simp [h, branch]

@[simp] theorem branch_not (p : Prop) [Decidable p] (yes no : Outcome Jumps State) :
    branch (some (!decide p)) yes no = if p then no else yes := by
  by_cases h : p <;> simp [h, branch]

@[simp] theorem branch_true (yes no : Outcome Jumps State) : branch (some true) yes no = yes := rfl
@[simp] theorem branch_false (yes no : Outcome Jumps State) : branch (some false) yes no = no := rfl

@[simp] theorem toEffect_some : toEffect (some s) = .next s := rfl

@[simp] theorem operand_reg (r : Reg) : s.operand (.reg r) = s.reg r := rfl
@[simp] theorem operand_imm (i : Word) : s.operand (.imm i) = immVal i := rfl

@[simp] theorem step_alu64 (op : Alu) (dst : Reg) (src : Src) :
    step env (.alu64 op dst src) s =
      toEffect ((alu64 op (s.reg dst) (s.operand src)).map (s.set dst)) := rfl
@[simp] theorem step_alu32 (op : Alu) (dst : Reg) (src : Src) :
    step env (.alu32 op dst src) s =
      toEffect ((alu32 op (s.reg dst) (s.operand src)).map (s.set dst)) := rfl
@[simp] theorem step_be (dst : Reg) (bits : Nat) :
    step env (.be dst bits) s = toEffect ((beVal bits (s.reg dst)).map (s.set dst)) := rfl
/-- A store of an immediate. -/
def State.storeImm (size : Size) (base : Val) (off : Int) (imm : Word) : Option State :=
  s.store size base off (imm.signExtend 64)

@[simp] theorem step_st (size : Size) (dst : Reg) (off : Int) (imm : Word) :
    step env (.st size dst off imm) s = toEffect (s.storeImm size (s.reg dst) off imm) := rfl
@[simp] theorem step_ldx (size : Size) (dst src : Reg) (off : Int) :
    step env (.ldx size dst src off) s =
      toEffect ((s.load size (s.reg src) off).map (s.set dst)) := rfl
@[simp] theorem step_ldMapFd (dst : Reg) (m : MapId) :
    step env (.ldMapFd dst m) s = .next (s.set dst (.map m)) := rfl
@[simp] theorem step_ldMapHigh : step env .ldMapHigh s = .next s := rfl
@[simp] theorem step_call (f : Func) :
    step env (.call f) s = toEffect ((helper env f s).map State.clobber) := rfl
@[simp] theorem step_exit : step env .exit s = .halt s := rfl

/-- A store of a register. -/
def State.storeVal (size : Size) (base : Val) (off : Int) (v : Val) : Option State :=
  match v with
  | .num x => s.store size base off x
  | _ => none

@[simp] theorem step_stx (size : Size) (dst src : Reg) (off : Int) :
    step env (.stx size dst src off) s =
      toEffect (s.storeVal size (s.reg dst) off (s.reg src)) := by
  rcases hv : s.reg src with _ | _ | _ | _ | _ | _ | _ <;> simp only [step, hv] <;> rfl

@[simp] theorem holds_ja : holds .ja s = some true := rfl
@[simp] theorem holds_jeq (dst : Reg) (src : Src) :
    holds (.jeq dst src) s = sameVal (s.reg dst) (s.operand src) := rfl
@[simp] theorem holds_jne (dst : Reg) (src : Src) :
    holds (.jne dst src) s = (sameVal (s.reg dst) (s.operand src)).map not := rfl

@[simp] theorem helper_getSocketCookie :
    helper env .getSocketCookie s =
      if s.reg .r1 = .ctx then some (s.set .r0 (.num env.cookie)) else none := rfl

@[simp] theorem helper_getCurrentUidGid :
    helper env .getCurrentUidGid s = some (s.set .r0 (.num env.uidGid)) := rfl

/-- What a lookup returns. -/
def Maps.entry (t : Maps) (m : MapId) (key : List Byte) : Val :=
  if t.found m key then .elem m key else .num 0

/-- A hash map of either kind finds what its table holds. -/
theorem Maps.found_hash {t : Maps} {m : MapId} (hm : m.kind ≠ .lpm) (key : List Byte) :
    t.found m key = (t.table m key).isSome := by
  rw [Maps.found]
  cases hk : m.kind with
  | hash => rfl
  | lruHash => rfl
  | lpm => exact absurd hk hm

theorem Maps.entry_some {t : Maps} {m : MapId} {key value : List Byte} (hm : m.kind ≠ .lpm)
    (h : t.table m key = some value) : t.entry m key = .elem m key := by
  rw [Maps.entry, Maps.found_hash hm, h, Option.isSome_some, if_pos rfl]

theorem Maps.entry_none {t : Maps} {m : MapId} {key : List Byte} (hm : m.kind ≠ .lpm)
    (h : t.table m key = none) : t.entry m key = .num 0 := by
  rw [Maps.entry, Maps.found_hash hm, h, Option.isSome_none, if_neg Bool.false_ne_true]

/-- A load from a map entry. -/
def Maps.load (t : Maps) (size : Size) (m : MapId) (key : List Byte) (off : Int) : Option Val :=
  (t.table m key).bind fun value =>
    if 0 ≤ off ∧ off.toNat + size.bytes ≤ m.valueSize then
      some (.num (joinBytes ((value.drop off.toNat).take size.bytes)))
    else none

@[simp] theorem load_elem (size : Size) (m : MapId) (key : List Byte) (off : Int) :
    s.load size (.elem m key) off = s.maps.load size m key off := rfl

theorem Maps.load_eq {t : Maps} {m : MapId} {key value : List Byte} (h : t.table m key = some value)
    (size : Size) (off : Nat) (hoff : off + size.bytes ≤ m.valueSize) :
    t.load size m key off = some (.num (joinBytes ((value.drop off).take size.bytes))) := by
  rw [Maps.load, h, Option.bind_some, if_pos ⟨by omega, by simpa using hoff⟩, Int.toNat_natCast]

/-- A word of a map entry. -/
theorem Maps.load_word {t : Maps} {m : MapId} {key value : List Byte}
    (h : t.table m key = some value) (off : Nat) (hoff : off + 4 ≤ m.valueSize) :
    t.load .w m key off = some (word ((joinBytes ((value.drop off).take 4)).setWidth 32)) := by
  rw [Maps.load_eq h .w off hoff, Size.bytes, num_joinBytes_word _ (by simp)]

/-- A half word of a map entry. -/
theorem Maps.load_half {t : Maps} {m : MapId} {key value : List Byte}
    (h : t.table m key = some value) (off : Nat) (hoff : off + 2 ≤ m.valueSize) :
    t.load .h m key off = some (half ((joinBytes ((value.drop off).take 2)).setWidth 16)) := by
  rw [Maps.load_eq h .h off hoff, Size.bytes, num_joinBytes_half _ (by simp)]

/-- Is there an entry? -/
@[simp] theorem sameVal_entry (t : Maps) (m : MapId) (key : List Byte) :
    sameVal (t.entry m key) (.num 0#64) = some (decide (t.found m key = false)) := by
  rw [Maps.entry]
  rcases t.found m key with _ | _ <;> rfl

/-- An offset as an immediate. -/
theorem signExtend_ofInt {off : Int} (h₁ : -2147483648 ≤ off) (h₂ : off < 2147483648) :
    ((BitVec.ofInt 32 off).signExtend 64).toInt = off := by
  have h32 : (BitVec.ofInt 32 off).toInt = off := by
    rw [BitVec.toInt_ofInt]
    exact Int.bmod_eq_of_le (by norm_num; omega) (by norm_num; omega)
  rw [BitVec.toInt_signExtend, h32]
  exact Int.bmod_eq_of_le (by norm_num; omega) (by norm_num; omega)

/-- **A lookup** leaves the entry, or zero, in `r0`. -/
theorem run_emitLookup {m : MapId} {off : Int} (h₁ : -512 ≤ off) (h₂ : off < 0)
    (h10 : s.reg .r10 = .fp 0) :
    run (isa env) (emitLookup m off ++ k) none s =
      run (isa env) k none (s.set .r0 (s.maps.entry m (readAt s.stack off m.keySize))).clobber := by
  have hoff : ((BitVec.ofInt 32 off).signExtend 64).toInt = off :=
    signExtend_ofInt (by omega) (by omega)
  simp only [emitLookup, emitLdMapFd, emitStackPointer, List.cons_append, List.nil_append, run_op,
    step_ldMapFd, onward_next, step_ldMapHigh, step_alu64, operand_reg, operand_imm, immVal,
    State.set_reg, h10, alu64_mov, Option.map_some, toEffect_some, reduceCtorEq, if_false, if_true,
    alu64_add_fp, hoff, step_call, helper, Int.zero_add]
  congr 1
  refine State.clobber_congr (by rfl) (by rfl) (by rfl) (by rfl) fun r hr => ?_
  simp only [List.mem_cons, List.not_mem_nil, or_false] at hr
  rcases hr with rfl | rfl | rfl | rfl | rfl | rfl <;> rfl

@[simp] theorem seek_emitLookup (m : MapId) (off : Int) (l : Jumps) :
    run (isa env) (emitLookup m off ++ k) (some l) s = run (isa env) k (some l) s := rfl

theorem length_value (m : MapId) (s : State) (off : Int) :
    (readAt s.stack off m.valueSize).length = m.valueSize := length_readAt ..

/-- The state after an update, but for `r1` to `r5`. -/
def State.updated (m : MapId) (off valueOff : Int) (flags : Word) : State :=
  let key := readAt s.stack off m.keySize
  let room := s.maps.evict m (env.evicts s.calls)
  if env.refuses s.calls ∨ (flags = bpfNoexist ∧ room.found m key) then
    { s.set .r0 (.num (-1)) with calls := s.calls + 1, maps := room }
  else
    { s.set .r0 (.num 0) with
      calls := s.calls + 1
      maps := room.put m key (readAt s.stack valueOff m.valueSize) (length_value m s valueOff) }

@[simp] theorem State.updated_ctx (m : MapId) (off valueOff : Int) (flags : Word) :
    (s.updated env m off valueOff flags).ctx = s.ctx := by
  rw [State.updated]
  split <;> rfl

@[simp] theorem State.updated_stack (m : MapId) (off valueOff : Int) (flags : Word) :
    (s.updated env m off valueOff flags).stack = s.stack := by
  rw [State.updated]
  split <;> rfl

@[simp] theorem State.updated_calls (m : MapId) (off valueOff : Int) (flags : Word) :
    (s.updated env m off valueOff flags).calls = s.calls + 1 := by
  rw [State.updated]
  split <;> rfl

theorem State.updated_reg (m : MapId) (off valueOff : Int) (flags : Word) {r : Reg} (hr : r ≠ .r0) :
    (s.updated env m off valueOff flags).reg r = s.reg r := by
  rw [State.updated]
  split <;> exact if_neg hr

/-- What `map_update_elem` does. -/
theorem helper_mapUpdateElem (m : MapId) (off valueOff : Int) {flags : Word}
    (hf : flags.msb = false) (h1 : s.reg .r1 = .map m) (h2 : s.reg .r2 = .fp off)
    (h3 : s.reg .r3 = .fp valueOff) (h4 : s.reg .r4 = immVal flags) :
    helper env .mapUpdateElem s = some (s.updated env m off valueOff flags) := by
  have hflags : flags.signExtend 64 = 1 ↔ flags = bpfNoexist := by
    rw [BitVec.signExtend_eq_setWidth_of_msb_false hf]
    refine ⟨fun h => ?_, fun h => by rw [h]; rfl⟩
    rw [← setWidth_word flags, h]
    rfl
  rw [immVal] at h4
  simp only [helper, h1, h2, h3, h4, State.updated]
  by_cases hr : env.refuses s.calls ∨
      (flags = bpfNoexist ∧
        (s.maps.evict m (env.evicts s.calls)).found m (readAt s.stack off m.keySize))
  · rw [if_pos hr, if_pos (hr.imp_right fun h => ⟨hflags.mpr h.1, h.2⟩)]
  · rw [if_neg hr, if_neg fun h => hr (h.imp_right fun h => ⟨hflags.mp h.1, h.2⟩)]

/-- An update reads only the stack, the maps and the number of calls. -/
theorem State.updated_clobber_congr {s s' : State} (hstack : s'.stack = s.stack)
    (hctx : s'.ctx = s.ctx) (hmaps : s'.maps = s.maps) (hcalls : s'.calls = s.calls)
    (hreg : ∀ r ∈ [Reg.r6, .r7, .r8, .r9, .r10], s'.reg r = s.reg r) (m : MapId)
    (off valueOff : Int) (flags : Word) :
    (s'.updated env m off valueOff flags).clobber = (s.updated env m off valueOff flags).clobber := by
  cases s
  cases s'
  simp only at hstack hctx hmaps hcalls hreg
  subst hstack hctx hmaps hcalls
  simp only [State.updated]
  split
  all_goals
    refine State.clobber_congr (by rfl) (by rfl) (by rfl) (by rfl) fun r hr => ?_
    simp only [List.mem_cons, List.not_mem_nil, or_false] at hr
    rcases hr with rfl | rfl | rfl | rfl | rfl | rfl
    · rfl
    all_goals exact hreg _ (by simp)

/-- **An update** leaves zero in `r0` when it was made. -/
theorem run_emitUpdate {m : MapId} {off valueOff : Int} {flags : Word} (h₁ : -512 ≤ off)
    (h₂ : off < 0) (h₃ : -512 ≤ valueOff) (h₄ : valueOff < 0) (hf : flags.msb = false)
    (h10 : s.reg .r10 = .fp 0) :
    run (isa env) (emitUpdate m off valueOff flags ++ k) none s =
      run (isa env) k none (s.updated env m off valueOff flags).clobber := by
  have hoff : ((BitVec.ofInt 32 off).signExtend 64).toInt = off :=
    signExtend_ofInt (by omega) (by omega)
  have hvoff : ((BitVec.ofInt 32 valueOff).signExtend 64).toInt = valueOff :=
    signExtend_ofInt (by omega) (by omega)
  have himm : ∀ i : Word, alu64 .add (.fp 0) (immVal i) = some (.fp (i.signExtend 64).toInt) := by
    intro i
    rw [immVal, alu64_add_fp, Int.zero_add]
  simp only [emitUpdate, emitLdMapFd, emitStackPointer, List.cons_append, List.nil_append, run_op,
    step_ldMapFd, onward_next, step_ldMapHigh, step_alu64, operand_reg, operand_imm,
    State.set_reg, h10, alu64_mov, Option.map_some, toEffect_some, reduceCtorEq, if_false, if_true,
    himm, hoff, hvoff, step_call]
  rw [helper_mapUpdateElem env _ m off valueOff hf (by rfl) (by rfl) (by rfl) (by rfl),
    Option.map_some, toEffect_some, onward_next]
  congr 1
  refine State.updated_clobber_congr env (by rfl) (by rfl) (by rfl) (by rfl) (fun r hr => ?_) ..
  simp only [List.mem_cons, List.not_mem_nil, or_false] at hr
  rcases hr with rfl | rfl | rfl | rfl | rfl <;> rfl

/-- The same at the end of a block. -/
theorem run_emitUpdate_nil {m : MapId} {off valueOff : Int} {flags : Word} (h₁ : -512 ≤ off)
    (h₂ : off < 0) (h₃ : -512 ≤ valueOff) (h₄ : valueOff < 0) (hf : flags.msb = false)
    (h10 : s.reg .r10 = .fp 0) :
    run (isa env) (emitUpdate m off valueOff flags) none s =
      .fall (s.updated env m off valueOff flags).clobber := by
  rw [← List.append_nil (emitUpdate m off valueOff flags), run_emitUpdate env s [] h₁ h₂ h₃ h₄ hf h10,
    run_nil]

theorem store_fp (size : Size) (b off : Int) (x : BitVec 64) :
    s.store size (.fp b) off x = some (s.write (b + off) (leBytes size.bytes x)) := rfl

@[simp] theorem load_fp (size : Size) (b off : Int) :
    s.load size (.fp b) off = some (.num (joinBytes (readAt s.stack (b + off) size.bytes))) := rfl

/-! Stores into the stack frame. -/

@[simp] theorem storeVal_fp_word (b off : Int) (x : Word) :
    s.storeVal .w (.fp b) off (word x) = some (s.write (b + off) (leBytes 4 x)) := by
  rw [word, State.storeVal, store_fp, Size.bytes, leBytes_setWidth 4 64 (by decide)]

@[simp] theorem storeVal_fp_port (b off : Int) (x : BitVec 16) :
    s.storeVal .w (.fp b) off (half x) = some (s.write (b + off) (leBytes 4 (x.setWidth 32))) := by
  have hx : (x.setWidth 64) = (x.setWidth 32).setWidth 64 := by
    ext i hi
    simp only [BitVec.getElem_setWidth, BitVec.getLsbD_setWidth]
    by_cases h : i < 32
    · simp [h]
    · simp [h, BitVec.getLsbD_of_ge x i (by omega)]
  rw [half, State.storeVal, store_fp, Size.bytes, hx,
    leBytes_setWidth 4 64 (by decide)]

@[simp] theorem storeVal_fp_half (b off : Int) (x : BitVec 16) :
    s.storeVal .h (.fp b) off (half x) = some (s.write (b + off) (leBytes 2 x)) := by
  rw [half, State.storeVal, store_fp, Size.bytes, leBytes_setWidth 2 64 (by decide)]

@[simp] theorem storeVal_fp_byte (b off : Int) (x : Word) :
    s.storeVal .b (.fp b) off (word x) = some (s.write (b + off) (leBytes 1 x)) := by
  rw [word, State.storeVal, store_fp, Size.bytes, leBytes_setWidth 1 64 (by decide)]

@[simp] theorem storeVal_fp_num (b off : Int) (x : BitVec 64) :
    s.storeVal .dw (.fp b) off (.num x) = some (s.write (b + off) (leBytes 8 x)) := rfl

@[simp] theorem storeImm_fp_word (b off : Int) (i : Word) :
    s.storeImm .w (.fp b) off i = some (s.write (b + off) (leBytes 4 i)) := by
  rw [State.storeImm, store_fp, Size.bytes, leBytes_signExtend 4 (by decide)]

@[simp] theorem storeImm_fp_half (b off : Int) (i : Word) :
    s.storeImm .h (.fp b) off i = some (s.write (b + off) (leBytes 2 i)) := by
  rw [State.storeImm, store_fp, Size.bytes, leBytes_signExtend 2 (by decide)]

@[simp] theorem storeImm_fp_byte (b off : Int) (i : Word) :
    s.storeImm .b (.fp b) off i = some (s.write (b + off) (leBytes 1 i)) := by
  rw [State.storeImm, store_fp, Size.bytes, leBytes_signExtend 1 (by decide)]

theorem writeAt_append (f : Int → Byte) (off : Int) (a b : List Byte) :
    writeAt (writeAt f off a) (off + a.length) b = writeAt f off (a ++ b) := by
  funext i
  simp only [writeAt, List.length_append, Nat.cast_add]
  by_cases h₁ : off + a.length ≤ i ∧ i < off + a.length + b.length
  · have h₂ : off ≤ i ∧ i < off + (a.length + b.length) := by omega
    rw [if_pos h₁, if_pos h₂]
    simp only [List.getD]
    rw [List.getElem?_append_right (by omega)]
    congr 2
    omega
  · rw [if_neg h₁]
    by_cases h₂ : off ≤ i ∧ i < off + a.length
    · have h₃ : off ≤ i ∧ i < off + (a.length + b.length) := by omega
      rw [if_pos h₂, if_pos h₃]
      simp only [List.getD]
      rw [List.getElem?_append_left (by omega)]
    · have h₃ : ¬(off ≤ i ∧ i < off + (a.length + b.length)) := by omega
      rw [if_neg h₂, if_neg h₃]

theorem State.write_append (off : Int) (a b : List Byte) :
    (s.write off a).write (off + a.length) b = s.write off (a ++ b) := by
  show ({ s with stack := _ } : State) = { s with stack := _ }
  rw [State.write_stack, writeAt_append]

/-- **A zeroed region.** -/
theorem run_emitZeroRegion (base : Int) (words : Nat) (h10 : s.reg .r10 = .fp 0) :
    run (isa env) (emitZeroRegion base words ++ k) none s =
      run (isa env) k none (s.write base (List.replicate (4 * words) 0)) := by
  induction words generalizing k with
  | zero =>
      have : s.write base [] = s := by
        show ({ s with stack := _ } : State) = s
        have hw : writeAt s.stack base [] = s.stack := by
          funext i
          rw [writeAt, if_neg (by simp)]
        rw [hw]
      simp [emitZeroRegion, this]
  | succ n ih =>
      have hsplit : emitZeroRegion base (n + 1) ++ k =
          emitZeroRegion base n ++ (stMem .w .r10 (base + 4 * (n : Int)) 0 :: k) := by
        simp [emitZeroRegion, List.range_succ]
      have hz : leBytes 4 (0 : Word) = List.replicate 4 0 := leBytes_zero 4
      have hoff : base + 4 * (n : Int) = base + (List.replicate (4 * n) (0 : Byte)).length := by
        simp
      rw [hsplit, ih, run_op, step_st, State.write_reg, h10, storeImm_fp_word, toEffect_some, onward_next,
        Int.zero_add, hoff]
      rw [hz, State.write_append, ← List.replicate_add]
      rfl

/-! ## Code without patched lists -/

@[simp] theorem labels_emitLookup (m : MapId) (off : Int) : labels (emitLookup m off) = [] := rfl

@[simp] theorem labels_emitUpdate (m : MapId) (off valueOff : Int) (flags : Word) :
    labels (emitUpdate m off valueOff flags) = [] := rfl

@[simp] theorem labels_emitZeroRegion (base : Int) (words : Nat) :
    labels (emitZeroRegion base words) = [] := by
  rw [emitZeroRegion]
  generalize List.range words = is
  induction is with
  | nil => rfl
  | cons i is ih => exact ih

/-- A jump passes over them. -/
theorem seek_append {A : Code} (h : labels A = []) (l : Jumps) :
    run (isa env) (A ++ k) (some l) s = run (isa env) k (some l) s := by
  rw [run_append, run_over _ (by simp [h])]
  rfl

@[simp] theorem seek_emitUpdate (m : MapId) (off valueOff : Int) (flags : Word) (l : Jumps) :
    run (isa env) (emitUpdate m off valueOff flags ++ k) (some l) s =
      run (isa env) k (some l) s :=
  seek_append env s k (labels_emitUpdate m off valueOff flags) l

@[simp] theorem seek_emitUpdate_nil (m : MapId) (off valueOff : Int) (flags : Word) (l : Jumps) :
    run (isa env) (emitUpdate m off valueOff flags) (some l) s = .goto l s :=
  run_over _ (by simp) s

@[simp] theorem seek_emitZeroRegion (base : Int) (words : Nat) (l : Jumps) :
    run (isa env) (emitZeroRegion base words ++ k) (some l) s = run (isa env) k (some l) s :=
  seek_append env s k (labels_emitZeroRegion base words) l

end Instructions

end Bpf2Socks.Cgroup
