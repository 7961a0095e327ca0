/-
# Bpf2Socks.Cgroup.BypassList — two ways to find a user on the bypass list.

The first sixteen users of `bypassUids` are compared inline; the UID map, where there is one, flags
all of them.  The map is left out when the list is short and the mode is `global`.  The inline
comparison is a 64-bit one with a sign-extended immediate, so without the map a user of 2^31 or more
is not found; the check of the own group compares in the same way.
-/
import Bpf2Socks.Cgroup.Blocks

namespace Bpf2Socks.Cgroup

open Lib.Asm (Takes run)

/-! ## The UID map -/

/-- `BPF2SOCKS_MAX_UIDS`. -/
def maxUids : Nat := 8192

/-- `bpf2socks_cgroup_prog_inline_bypass_uid_count`. -/
def inlineBypassUidCount (policy : Policy) : Nat := min policy.bypassUids.length maxInlineBypassUids

/-- `uid_map_required`. -/
def uidMapRequired (policy : Policy) : Bool :=
  policy.mode ≠ .global || policy.bypassUids.length > inlineBypassUidCount policy

/-- One `bpf2socks_bpf_map_update` of `bpf2socks_policy_load_uids`. -/
def putUid (flags : Word) (t : Maps) (uid : Word) : Maps :=
  t.put .uid (leBytes 4 uid) (leBytes 4 flags) (length_leBytes 4 flags)

/-- `bpf2socks_policy_load_uids`: the selected users first, then the bypass list over them. -/
def loadUids (policy : Policy) (t : Maps) : Maps :=
  (policy.bypassUids.take maxUids).foldl (putUid uidBypass)
    ((policy.uids.take maxUids).foldl (putUid uidSelected) t)

theorem leBytes_word (x : Word) : (joinBytes (leBytes 4 x)).setWidth 32 = x := by
  rw [joinBytes_leBytes 4 (by decide) x, BitVec.setWidth_eq, setWidth_word]

theorem leBytes_inj {x y : Word} : leBytes 4 x = leBytes 4 y ↔ x = y := by
  refine ⟨fun h => ?_, fun h => by rw [h]⟩
  rw [← leBytes_word x, ← leBytes_word y, h]

theorem uidFlags_putUid (flags uid x : Word) (t : Maps) :
    uidFlags (putUid flags t uid) x = if x = uid then flags else uidFlags t x := by
  simp only [uidFlags, putUid, Maps.put, true_and, leBytes_inj]
  by_cases hx : x = uid
  · rw [if_pos hx, if_pos hx, Option.map_some, Option.getD_some,
      List.take_of_length_le (by simp), leBytes_word]
  · rw [if_neg hx, if_neg hx]

/-- The last update of a user counts. -/
theorem uidFlags_foldl (flags x : Word) (uids : List Word) (t : Maps) :
    uidFlags (uids.foldl (putUid flags) t) x = if x ∈ uids then flags else uidFlags t x := by
  induction uids generalizing t with
  | nil => simp
  | cons uid uids ih =>
      rw [List.foldl_cons, ih, uidFlags_putUid]
      by_cases h₁ : x ∈ uids <;> by_cases h₂ : x = uid <;> simp [h₁, h₂]

/-- **The flags of a user** after the lists are loaded into an empty map. -/
theorem uidFlags_loadUids (policy : Policy) {t : Maps} (ht : ∀ key, t.table .uid key = none)
    (x : Word) :
    uidFlags (loadUids policy t) x =
      if x ∈ policy.bypassUids.take maxUids then uidBypass
      else if x ∈ policy.uids.take maxUids then uidSelected else 0 := by
  rw [loadUids, uidFlags_foldl, uidFlags_foldl]
  have h0 : uidFlags t x = 0 := by simp [uidFlags, ht]
  rw [h0]

/-! ## The comparison -/

/-- A comparison with an immediate is right below 2^31 and fails above. -/
theorem comparesEqual_iff (x imm : Word) : comparesEqual x imm = true ↔ x = imm ∧ imm.msb = false := by
  rw [comparesEqual, beq_iff_eq]
  constructor
  · intro h
    have hx : x = imm := by
      rw [← setWidth_word x, h]
      ext i hi
      have h64 : i < 64 := by omega
      simp [BitVec.getElem_setWidth, BitVec.getElem_signExtend, hi, h64]
    have h63 := congrArg (fun v => v.getLsbD 63) h
    simp only [BitVec.getLsbD_setWidth, BitVec.getLsbD_signExtend] at h63
    refine ⟨hx, ?_⟩
    simpa using h63.symm
  · rintro ⟨h, hm⟩
    rw [h, BitVec.signExtend_eq_setWidth_of_msb_false hm]

/-! ## The checks -/

/-- The code leaves for the bypass exit. -/
def Bypasses (env : Env) (code : Code) (s : State) : Prop :=
  ∃ s', run (isa env) code none s = .goto .bypass s'

theorem Decides.bypasses_iff {env : Env} {code : Code} {s : State} {d : Choice} {rs : List Reg}
    (h : Decides env code s d rs) : Bypasses env code s ↔ d = some .bypass := by
  unfold Decides Takes at h
  rcases hr : run (isa env) code none s with s' | ⟨l, s'⟩ | s' | _ <;> rw [hr] at h
  · obtain ⟨hd, _⟩ := h
    cases d with
    | none => simp [Bypasses, hr]
    | some v => cases hd
  · obtain ⟨hd, _⟩ := h
    cases d with
    | none => cases hd
    | some v =>
        cases v <;> cases hd <;> simp [Bypasses, hr]
  · exact h.elim
  · exact h.elim

/-- The maps of a started runtime, as far as users go. -/
def startMaps (policy : Policy) (t : Maps) : Maps :=
  if uidMapRequired policy then loadUids policy t else t

/-- A mode lets a user past the proxy. -/
def modePasses (policy : Policy) (uid : Word) : Prop :=
  match policy.mode with
  | .global => False
  | .whitelist => uid ∉ policy.uids.take maxUids
  | .blacklist => uid ∈ policy.uids.take maxUids

theorem uidMapRequired_eq_false {policy : Policy} (h : uidMapRequired policy = false) :
    policy.mode = .global ∧ policy.bypassUids.take maxInlineBypassUids = policy.bypassUids := by
  simp only [uidMapRequired, inlineBypassUidCount, Bool.or_eq_false_iff, decide_eq_false_iff_not,
    not_not, gt_iff_lt, min_lt_iff, lt_irrefl, false_or, not_lt] at h
  exact ⟨h.1, List.take_of_length_le h.2⟩

theorem listed_iff (policy : Policy) (env : Env) :
    (Who.compared policy env).listed = true ↔
      env.uid ∈ policy.bypassUids.take maxInlineBypassUids ∧ env.uid.msb = false := by
  simp only [Who.compared, List.any_eq_true, comparesEqual_iff]
  constructor
  · rintro ⟨x, hx, rfl, hm⟩
    exact ⟨hx, hm⟩
  · rintro ⟨hx, hm⟩
    exact ⟨_, hx, rfl, hm⟩

section Checks

variable {policy : Policy} {present : MapId → Bool} {t : Maps} {env : Env} {s : State}

/-- What the user check does, by the exact comparison. -/
theorem bypasses_uid_iff (hlen : policy.bypassUids.length ≤ maxUids)
    (ht : ∀ key, t.table .uid key = none) (hp : present .uid = uidMapRequired policy)
    (hs : Ready s) (hm : s.maps = startMaps policy t) :
    Bypasses env (emitUidPolicy policy present) s ↔
      (env.uid ∈ policy.bypassUids ∧ (uidMapRequired policy = true ∨ env.uid.msb = false)) ∨
        modePasses policy env.uid := by
  rw [decides_emitUidPolicy hs |>.bypasses_iff, uidPolicy, hp, hm, startMaps]
  have hlisted := listed_iff policy env
  have huid : (Who.compared policy env).uid = env.uid := rfl
  rcases hreq : uidMapRequired policy with _ | _
  · obtain ⟨hmode, htake⟩ := uidMapRequired_eq_false hreq
    rw [htake] at hlisted
    simp only [hmode, modePasses, choose, hlisted]
    by_cases h : env.uid ∈ policy.bypassUids ∧ env.uid.msb = false <;> simp [h]
  · have hflags := uidFlags_loadUids policy ht env.uid
    rw [List.take_of_length_le hlen] at hflags
    rw [if_pos rfl, if_pos rfl, huid, hflags]
    have hsub : env.uid ∈ policy.bypassUids.take maxInlineBypassUids → env.uid ∈ policy.bypassUids :=
      fun h => List.mem_of_mem_take h
    by_cases hb : env.uid ∈ policy.bypassUids
    · rw [if_pos hb]
      by_cases hl : (Who.compared policy env).listed = true <;> simp [choose, hl, hb, uidBypass]
    · have hl : ¬(Who.compared policy env).listed = true := fun h => hb (hsub (hlisted.mp h).1)
      rw [if_neg hb]
      simp only [choose, hl, hb, modePasses]
      by_cases hu : env.uid ∈ policy.uids.take maxUids <;> cases hmode : policy.mode <;>
        simp [hu, modeBypass, choose, uidSelected, uidBypass]

/-- What the check of the own group does, by the exact comparison. -/
theorem bypasses_gid_iff :
    Bypasses env (emitSelfBypassPolicy policy) s ↔
      policy.selfBypassGidEnabled = true ∧ env.gid = policy.selfBypassGid ∧ env.gid.msb = false := by
  rw [decides_emitSelfBypassPolicy.bypasses_iff, ownGroup, Who.compared, choose]
  simp only [Bool.and_eq_true, comparesEqual_iff]
  by_cases h : policy.selfBypassGidEnabled = true ∧ env.gid = policy.selfBypassGid ∧
      policy.selfBypassGid.msb = false
  · rw [if_pos h]
    exact ⟨fun _ => ⟨h.1, h.2.1, h.2.1 ▸ h.2.2⟩, fun _ => rfl⟩
  · rw [if_neg h]
    constructor
    · intro hb
      cases hb
    · rintro ⟨he, hg, hm⟩
      exact absurd ⟨he, hg, hg ▸ hm⟩ h

theorem msb_eq_false_iff (x : Word) : x.msb = false ↔ x.toNat < 2 ^ 31 := by
  rw [BitVec.msb_eq_decide]
  simp

/-- **The two checks and the lists.**  The user check bypasses exactly the users of the bypass list
and those the mode lets past, and the check of the own group exactly that group, if and only if the
user is not one of 2^31 or more that only the inline comparison could find, and the own group is not
2^31 or more. -/
theorem bypassList_agrees (policy : Policy) (present : MapId → Bool) (t : Maps) (env : Env)
    (s : State) (hlen : policy.bypassUids.length ≤ maxUids) (ht : ∀ key, t.table .uid key = none)
    (hp : present .uid = uidMapRequired policy) (hs : Ready s) (hm : s.maps = startMaps policy t) :
    ((Bypasses env (emitUidPolicy policy present) s ↔
        env.uid ∈ policy.bypassUids ∨ modePasses policy env.uid) ∧
      (policy.selfBypassGidEnabled = true → (Bypasses env (emitSelfBypassPolicy policy) s ↔
        env.gid = policy.selfBypassGid))) ↔
      (env.uid ∈ policy.bypassUids → uidMapRequired policy = true ∨ env.uid.toNat < 2 ^ 31) ∧
      (policy.selfBypassGidEnabled = true → env.gid = policy.selfBypassGid →
        env.gid.toNat < 2 ^ 31) := by
  rw [bypasses_uid_iff hlen ht hp hs hm, bypasses_gid_iff, ← msb_eq_false_iff, ← msb_eq_false_iff]
  have hmode : modePasses policy env.uid → uidMapRequired policy = true := by
    intro h
    by_contra hreq
    rw [modePasses, (uidMapRequired_eq_false (Bool.eq_false_of_not_eq_true hreq)).1] at h
    exact h
  refine and_congr ⟨fun h hu => ?_, fun h => ?_⟩ ⟨fun h he hg => ?_, fun h he => ?_⟩
  · rcases h.mpr (.inl hu) with h' | h'
    · exact h'.2
    · exact .inl (hmode h')
  · exact or_congr_left ⟨And.left, fun hu => ⟨hu, h hu⟩⟩
  · exact ((h he).mpr hg).2.2
  · exact ⟨fun h' => h'.2.1, fun hg => ⟨he, hg, h he hg⟩⟩

end Checks

/-! ## A user of 2^31 -/

/-- Maps without entries. -/
def Maps.empty : Maps where
  table _ _ := none
  lpm _ := []
  sized _ _ _ h := nomatch h

/-- A short bypass list in `global` mode, and an own group of 2^31. -/
def highPolicy : Policy where
  mode := .global
  enableIpv6 := false
  enableDnsHijack := false
  enableDnsEnhancement := false
  bypassUids := [0x80000000]
  uids := []
  selfBypassGidEnabled := true
  selfBypassGid := 0x80000000

/-- A task of that user, in another group. -/
def highUser : Env := ⟨0x80000000, 0, fun _ => 0, fun _ => false, fun _ _ => false⟩

/-- The state before the checks. -/
def checking : State := (start default Maps.empty fun _ => 0).set .r6 .ctx

theorem ready_checking : Ready checking := ⟨rfl, rfl⟩

/-- The user is on the list and is not bypassed. -/
theorem highUser_not_bypassed : ¬(Bypasses highUser (emitUidPolicy highPolicy fun _ => false)
    checking ↔ highUser.uid ∈ highPolicy.bypassUids ∨ modePasses highPolicy highUser.uid) := by
  rw [bypasses_uid_iff (t := Maps.empty) (by decide) (fun _ => rfl) (by decide) ready_checking
    (by rfl)]
  have hmsb : highUser.uid.msb = true := by decide
  simp [highPolicy, uidMapRequired, inlineBypassUidCount, maxInlineBypassUids, modePasses, hmsb]
  decide

/-- A list of seventeen users, so that there is a UID map. -/
def longPolicy : Policy :=
  { highPolicy with bypassUids := 0x80000000 :: (List.range 16).map (BitVec.ofNat 32) }

theorem bypassList_agrees_long : longPolicy.bypassUids.length = 17 ∧
    (Bypasses highUser (emitUidPolicy longPolicy fun m => m == .uid)
      { checking with maps := startMaps longPolicy Maps.empty } ↔
        highUser.uid ∈ longPolicy.bypassUids ∨ modePasses longPolicy highUser.uid) :=
  ⟨by decide, ((bypassList_agrees longPolicy (fun m => m == .uid) Maps.empty highUser
    { checking with maps := startMaps longPolicy Maps.empty } (by decide) (fun _ => rfl) (by decide)
    ⟨rfl, rfl⟩ rfl).mpr ⟨fun _ => .inl (by decide), fun _ h => absurd h (by decide)⟩).1⟩

end Bpf2Socks.Cgroup
