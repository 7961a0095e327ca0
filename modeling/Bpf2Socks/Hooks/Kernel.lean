/-
# Bpf2Socks.Hooks.Kernel — cgroup hooks, programs and descriptors.

What the kernel keeps for the programs of cgroup hooks, as far as the helper can see it: which
programs a hook has and how they were attached, the programs by number, the pins of the BPF file
system, and what the descriptors of the process stand for.

A system call is a question.  The environment may let it fail with any error; otherwise the kernel
does it, or refuses it by its own rules.  Attaching with `BPF_F_ALLOW_MULTI` needs a hook that is
empty or has that mode, attaching without flags replaces the program of a hook without flags, and a
hook of another mode refuses both.
-/
import Bpf2Socks.Lib.Prog
import Mathlib.Data.List.FinRange

namespace Bpf2Socks.Hooks

open Function (update)
open Lib

abbrev Fd := Int
abbrev Cgroup := Nat
abbrev ProgId := Nat

/-! ## Values -/

/-- The hooks the program names. -/
inductive AttachType where
  | inet4Connect
  | inet6Connect
  | udp4Sendmsg
  | udp6Sendmsg
  | udp4Recvmsg
  | udp6Recvmsg
  | inet4Getpeername
  | inet6Getpeername
  | other (n : Nat)
  deriving DecidableEq

inductive Errno where
  | eperm
  | enoent
  | ebadf
  | ebusy
  | eexist
  | einval
  | enospc
  | e2big
  | estale
  | eopnotsupp
  | other (n : Nat)
  deriving DecidableEq

/-- `struct bpf_insn`. -/
structure Insn where
  code : UInt8
  dst : UInt8
  src : UInt8
  off : UInt16
  imm : UInt32
  deriving DecidableEq

/-- `r0 = 1; exit`. -/
def allowOnly : List Insn := [⟨0xb7, 0, 0, 0, 1⟩, ⟨0x95, 0, 0, 0, 0⟩]

/-- The pins of the catalog, which are also the names of the programs. -/
inductive Leaf where
  | connect4
  | sendmsg4
  | recvmsg4
  | connect6
  | sendmsg6
  | recvmsg6
  | connect6Mapped
  | sendmsg6Mapped
  | recvmsg6Mapped
  | peerCap4
  | peerCap6
  | peer4
  | peer6
  deriving DecidableEq

/-- A loaded program. -/
structure Program where
  /-- The entry of the catalog its name is of. -/
  name : Option Leaf
  /-- Its type is `BPF_PROG_TYPE_CGROUP_SOCK_ADDR`. -/
  sockAddr : Bool
  insns : List Insn
  /-- The kernel shows its instructions. -/
  readable : Bool
  /-- The directory for the pins of the start that loaded it, if one did.  Ghost. -/
  owner : Option Nat
  deriving DecidableEq

/-- The instructions as `BPF_OBJ_GET_INFO_BY_FD` copies them into a zeroed buffer. -/
def Program.xlated (p : Program) : List Insn :=
  if p.readable then p.insns else p.insns.map fun _ => ⟨0, 0, 0, 0, 0⟩

/-- The programs of a hook, and the flags of their attachment. -/
structure Hook where
  flags : UInt32
  progs : List ProgId
  deriving DecidableEq

/-- `BPF_F_ALLOW_MULTI`. -/
def allowMulti : UInt32 := 2

/-- What a descriptor stands for.  A program's may be one that `bpf2socks_bpf_prog_attach` opened for
the original of a hook; it then has a number. -/
inductive Descriptor where
  | cgroup (c : Cgroup)
  | program (id : ProgId) (original : Option Nat)
  deriving DecidableEq

/-- `struct exclusive_attachment`. -/
structure Record where
  active : Bool
  cgroupFd : Fd
  progFd : Fd
  originalFd : Fd
  type : AttachType
  deriving DecidableEq

/-- A directory for pins. -/
abbrev Dir := Nat

/-- The descriptors of `struct bpf2socks_bpf_runtime` for cgroup hooks. -/
structure Runtime where
  cgroupFd : Fd
  progFd : Leaf → Fd

structure State where
  hooks : Cgroup → AttachType → Hook
  programs : ProgId → Option Program
  pins : Dir → Leaf → Option ProgId
  fds : Fd → Option Descriptor
  /-- `exclusive_attachments`. -/
  slots : Fin 6 → Record
  runtime : Runtime
  /-- The cgroup descriptor and the program each original was opened for.  Ghost. -/
  opened : List (Fd × ProgId)
  /-- What each close of an original closed.  Ghost. -/
  closed : List (Option Nat)

def State.setHook (s : State) (c : Cgroup) (t : AttachType) (h : Hook) : State :=
  { s with hooks := update s.hooks c (update (s.hooks c) t h) }

def State.setFd (s : State) (fd : Fd) (d : Option Descriptor) : State :=
  { s with fds := update s.fds fd d }

def State.setSlot (s : State) (i : Fin 6) (r : Record) : State :=
  { s with slots := update s.slots i r }

/-! ## The kernel's rules -/

/-- `BPF_PROG_ATTACH`. -/
def State.attach (s : State) (cg prog : Fd) (t : AttachType) (flags : UInt32) :
    Except Errno State :=
  match s.fds cg, s.fds prog with
  | some (.cgroup c), some (.program id _) =>
      let h := s.hooks c t
      if h.progs ≠ [] ∧ h.flags ≠ flags then .error .eperm
      else if flags = allowMulti then
        if id ∈ h.progs then .error .einval
        else .ok (s.setHook c t ⟨flags, h.progs ++ [id]⟩)
      else .ok (s.setHook c t ⟨flags, [id]⟩)
  | _, _ => .error .ebadf

/-- A hook without one of its programs; the last one takes the flags with it. -/
def Hook.without (h : Hook) (id : ProgId) : Hook :=
  let rest := h.progs.erase id
  ⟨if rest = [] then 0 else h.flags, rest⟩

/-- `BPF_PROG_DETACH`: the descriptor matters to hooks of several programs only. -/
def State.detach (s : State) (cg prog : Fd) (t : AttachType) : Except Errno State :=
  match s.fds cg, s.fds prog with
  | some (.cgroup c), some (.program id _) =>
      let h := s.hooks c t
      if h.flags = allowMulti then
        if id ∈ h.progs then .ok (s.setHook c t (h.without id)) else .error .enoent
      else if h.progs = [] then .error .enoent
      else .ok (s.setHook c t ⟨0, []⟩)
  | _, _ => .error .ebadf

/-- `BPF_PROG_QUERY` with room for so many programs. -/
def State.query (s : State) (cg : Fd) (t : AttachType) (room : Nat) : Except Errno Hook :=
  match s.fds cg with
  | some (.cgroup c) =>
      if (s.hooks c t).progs.length > room then .error .enospc else .ok (s.hooks c t)
  | _ => .error .ebadf

/-- `BPF_OBJ_GET_INFO_BY_FD`. -/
def State.info (s : State) (fd : Fd) : Except Errno (ProgId × Program) :=
  match s.fds fd with
  | some (.program id _) =>
      match s.programs id with
      | some p => .ok (id, p)
      | none => .error .ebadf
  | _ => .error .ebadf

/-! ## System calls -/

/-- What a system call does when the environment lets it. -/
inductive Call where
  /-- It succeeds or fails. -/
  | acts
  /-- It returns a descriptor. -/
  | opens
  /-- It returns a descriptor of a new program. -/
  | loads
  /-- `BPF_OBJ_GET`. -/
  | gets (dir : Dir) (leaf : Leaf)
  /-- `unlink`. -/
  | unlinks (dir : Dir) (leaf : Leaf)
  /-- The bridge runs, and others load programs and change hooks. -/
  | serves

def Answer : Call → Type
  | .acts => Option Errno
  | .opens => Except Errno Fd
  | .loads => Except Errno (Fd × ProgId)
  | .gets _ _ => Except Errno Fd
  | .unlinks _ _ => Option Errno
  | .serves => (Cgroup → AttachType → Hook) × (ProgId → Option Program)

/-- A descriptor that is not in use. -/
def State.isFree (s : State) (fd : Fd) : Bool := 0 ≤ fd ∧ s.fds fd = none

/-- What others may make of hooks and programs: new programs are theirs, and hooks get no program of
a start. -/
structure State.Elsewhere (s : State) (hooks : Cgroup → AttachType → Hook)
    (programs : ProgId → Option Program) : Prop where
  extend : ∀ id p, s.programs id = some p → programs id = some p
  new : ∀ id p, programs id = some p → s.programs id = some p ∨ p.owner = none
  hooks : ∀ c t, ∀ id ∈ (hooks c t).progs, id ∈ (s.hooks c t).progs ∨
    ∃ p, programs id = some p ∧ p.owner = none

/-- Descriptors and program numbers are new, and `ENOENT` is the answer for pins that are not
there. -/
def admissibleb (s : State) : (q : Call) → Answer q → Bool
  | .acts, _ => true
  | .opens, .ok fd => s.isFree fd
  | .opens, .error _ => true
  | .loads, .ok (fd, id) => s.isFree fd && (s.programs id).isNone && id ≠ 0
  | .loads, .error _ => true
  | .gets _ _, .ok fd => s.isFree fd
  | .gets dir leaf, .error e => e ≠ .enoent || (s.pins dir leaf).isNone
  | .unlinks _ _, none => true
  | .unlinks dir leaf, some e => e ≠ .enoent || (s.pins dir leaf).isNone
  | .serves, _ => false

/-- The answers the environment may give. -/
def admissible (s : State) : (q : Call) → Answer q → Prop
  | .serves, (hooks, programs) => s.Elsewhere hooks programs
  | .acts, r => admissibleb s .acts r = true
  | .opens, r => admissibleb s .opens r = true
  | .loads, r => admissibleb s .loads r = true
  | .gets dir leaf, r => admissibleb s (.gets dir leaf) r = true
  | .unlinks dir leaf, r => admissibleb s (.unlinks dir leaf) r = true

theorem admissible_of_b {s : State} {q : Call} {r : Answer q} (h : admissibleb s q r = true) :
    admissible s q r := by
  cases q with
  | serves => exact absurd h Bool.false_ne_true
  | _ => exact h

abbrev Code (α : Type) : Type := Act Answer State α

/-- A system call that changes the kernel's state. -/
def acts (f : State → Except Errno State) : Code (Option Errno) := fun s =>
  .ask s .acts fun
    | some e => .ret s (some e)
    | none =>
        match f s with
        | .ok s' => .ret s' none
        | .error e => .ret s (some e)

/-- A system call that reads it. -/
def reads {α : Type} (f : State → Except Errno α) : Code (Except Errno α) := fun s =>
  .ask s .acts fun
    | some e => .ret s (.error e)
    | none => .ret s (f s)

section Calls

variable {α : Type} {s : State}

theorem acts_always {f : State → Except Errno State} {I : State → Prop}
    {post : State → Option Errno → Prop} (hI : I s) (hfail : ∀ e, post s (some e))
    (hdone : ∀ s', f s = .ok s' → post s' none) :
    Prog.Always admissible I post (acts f s) := by
  refine ⟨hI, fun r _ => ?_⟩
  cases r with
  | some e => exact hfail e
  | none =>
      show Prog.Always _ _ _ (match f s with | .ok s' => Prog.ret s' none | .error e => .ret s (some e))
      cases hf : f s with
      | ok s' => exact hdone s' hf
      | error e => exact hfail e

theorem reads_always {f : State → Except Errno α} {I : State → Prop}
    {post : State → Except Errno α → Prop} (hI : I s) (hfail : ∀ e, post s (.error e))
    (hdone : ∀ a, f s = .ok a → post s (.ok a)) :
    Prog.Always admissible I post (reads f s) := by
  refine ⟨hI, fun r _ => ?_⟩
  cases r with
  | some e => exact hfail e
  | none =>
      show post s (f s)
      cases hf : f s with
      | ok a => exact hdone a hf
      | error e => exact hfail e

end Calls

end Bpf2Socks.Hooks
