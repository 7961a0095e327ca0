/-
# Bpf2Socks.Hooks.Exclusive — replacing the program of an exclusive hook, and putting it back.

`bpf2socks_bpf_prog_attach` first attaches beside the programs that are there.  Where the hook is
exclusive it looks at its program, and if that does nothing but allow, takes its place and keeps a
descriptor of it in one of six records.  `bpf2socks_bpf_prog_detach` puts it back, and
`bpf2socks_bpf_cgroup_restore` does so for all records of a cgroup and gives them up.
-/
import Bpf2Socks.Hooks.Kernel

namespace Bpf2Socks.Hooks

open Function (update update_self update_of_ne)
open Lib

/-! ## The code -/

/-- `exclusive_hook`. -/
def exclusiveHook : AttachType → Bool
  | .inet4Connect | .inet6Connect | .udp4Sendmsg | .udp6Sendmsg | .udp4Recvmsg | .udp6Recvmsg => true
  | _ => false

/-- `attach_with_flags`. -/
def attachWithFlags (cg prog : Fd) (t : AttachType) (flags : UInt32) : Code (Option Errno) :=
  acts fun s => s.attach cg prog t flags

/-- `query_exclusive`. -/
def queryExclusive (cg : Fd) (t : AttachType) : Code (Except Errno ProgId) :=
  reads fun s => do
    match ← s.query cg t 1 with
    | ⟨flags, [id]⟩ => if flags ≠ 0 ∨ id = 0 then .error .ebusy else .ok id
    | _ => .error .ebusy

/-- `BPF_PROG_GET_FD_BY_ID` for the original of a hook. -/
def openOriginal (cg : Fd) (id : ProgId) : Code (Except Errno Fd) := fun s =>
  .ask s .opens fun
    | .error e => .ret s (.error e)
    | .ok fd =>
        match s.programs id with
        | some _ =>
            .ret { s.setFd fd (some (.program id (some s.opened.length))) with
              opened := s.opened ++ [(cg, id)] } (.ok fd)
        | none => .ret s (.error .enoent)

/-- `close` of an original. -/
def State.closeOriginal (s : State) (fd : Fd) : State :=
  { s.setFd fd none with
    closed := s.closed ++ [match s.fds fd with
      | some (.program _ n) => n
      | _ => none] }

/-- `unconditional_allow`. -/
def unconditionalAllow (fd : Fd) (id : ProgId) : Code Bool := do
  match ← reads fun s => s.info fd with
  | .ok (id', p) => pure (id' = id && p.sockAddr && p.xlated = allowOnly)
  | .error _ => pure false

/-- The two checks between opening the original and replacing it. -/
def verified (cg : Fd) (t : AttachType) (original : Fd) (id : ProgId) : Code Bool := do
  if ← unconditionalAllow original id then
    match ← queryExclusive cg t with
    | .ok checked => pure (checked = id)
    | .error _ => pure false
  else pure false

/-- Attach over the verified original, and record it. -/
def replaceVerified (cg prog : Fd) (t : AttachType) (slot : Fin 6) (original : Fd) :
    Code (Option Errno) := do
  match ← attachWithFlags cg prog t 0 with
  | some e =>
      Act.modify fun s => s.closeOriginal original
      pure (some e)
  | none =>
      Act.modify fun s => s.setSlot slot ⟨true, cg, prog, original, t⟩
      pure none

/-- The record of a hook. -/
def Record.isFor (r : Record) (cg : Fd) (t : AttachType) : Bool :=
  r.active && r.cgroupFd = cg && r.type = t

/-- The free record the loop ends with: the last. -/
def State.freeSlot (s : State) : Option (Fin 6) :=
  (List.finRange 6).reverse.find? fun i => !(s.slots i).active

/-- What follows once the original is open. -/
def attachOver (cg prog : Fd) (t : AttachType) (saved : Errno) (slot : Fin 6) (id : ProgId)
    (original : Fd) : Code (Option Errno) := do
  if ← verified cg t original id then replaceVerified cg prog t slot original
  else
    Act.modify fun s => s.closeOriginal original
    pure (some saved)

/-- The part of `bpf2socks_bpf_prog_attach` for exclusive hooks; every conflict gives the error of the
first attempt. -/
def attachExclusive (cg prog : Fd) (t : AttachType) (saved : Errno) : Code (Option Errno) := do
  let s ← Act.get
  if (List.finRange 6).any fun i => (s.slots i).isFor cg t then pure (some .ebusy)
  else
    match s.freeSlot with
    | none => pure (some saved)
    | some slot =>
        match ← queryExclusive cg t with
        | .error _ => pure (some saved)
        | .ok id =>
            match ← openOriginal cg id with
            | .error _ => pure (some saved)
            | .ok original => attachOver cg prog t saved slot id original

/-- `bpf2socks_bpf_prog_attach`. -/
def progAttach (cg prog : Fd) (t : AttachType) : Code (Option Errno) := do
  match ← attachWithFlags cg prog t allowMulti with
  | none => pure none
  | some saved =>
      if (saved ≠ .eperm ∧ saved ≠ .einval ∧ saved ≠ .ebusy) ∨ exclusiveHook t = false then
        pure (some saved)
      else attachExclusive cg prog t saved

/-- The record `bpf2socks_bpf_prog_detach` finds. -/
def State.recordOf (s : State) (cg prog : Fd) (t : AttachType) : Option (Fin 6) :=
  (List.finRange 6).find? fun i => (s.slots i).isFor cg t && (s.slots i).progFd = prog

/-- A record is given up, with its descriptor. -/
def State.giveUp (s : State) (i : Fin 6) : State :=
  (s.closeOriginal (s.slots i).originalFd).setSlot i { s.slots i with active := false }

/-- What `bpf2socks_bpf_prog_detach` does with a record. -/
def detachRecorded (cg : Fd) (t : AttachType) (i : Fin 6) (id : ProgId) (h : Hook) :
    Code (Option Errno) := do
  if id ∉ h.progs ∨ h.progs.length ≠ 1 ∨ h.flags ≠ 0 then
    Act.modify fun s => s.giveUp i
    pure (some .ebusy)
  else
    let s ← Act.get
    match ← attachWithFlags cg (s.slots i).originalFd t 0 with
    | some e => pure (some e)
    | none =>
        Act.modify fun s => s.giveUp i
        pure none

/-- What `bpf2socks_bpf_prog_detach` does once it knows the program and the hook. -/
def detachFrom (cg prog : Fd) (t : AttachType) (id : ProgId) (h : Hook) : Code (Option Errno) := do
  let s ← Act.get
  match s.recordOf cg prog t with
  | some i => detachRecorded cg t i id h
  | none =>
      if id ∉ h.progs then pure none
      else if h.flags ≠ allowMulti then pure (some .eperm)
      else acts fun s => s.detach cg prog t

/-- `bpf2socks_bpf_prog_detach`. -/
def progDetach (cg prog : Fd) (t : AttachType) : Code (Option Errno) := do
  if cg < 0 ∨ prog < 0 then pure (some .ebadf)
  else
    match ← reads fun s => s.info prog with
    | .error e => pure (some e)
    | .ok (id, p) =>
        if id = 0 ∨ p.sockAddr = false then pure (some .einval)
        else
          match ← reads fun s => s.query cg t 64 with
          | .error e => pure (some e)
          | .ok h => if h.progs.length > 64 then pure (some .e2big) else detachFrom cg prog t id h

/-- One record of `bpf2socks_bpf_cgroup_restore`. -/
def restoreSlot (cg : Fd) (i : Fin 6) : Code Bool := do
  let s ← Act.get
  if (s.slots i).active = false ∨ (s.slots i).cgroupFd ≠ cg then pure true
  else
    let r ← progDetach cg (s.slots i).progFd (s.slots i).type
    Act.modify fun s => if (s.slots i).active then s.giveUp i else s
    pure (r = none)

def restoreSlots (cg : Fd) : List (Fin 6) → Code Bool
  | [] => pure true
  | i :: is => do
      let r ← restoreSlot cg i
      let rest ← restoreSlots cg is
      pure (r && rest)

/-- `bpf2socks_bpf_cgroup_restore`. -/
def cgroupRestore (cg : Fd) : Code Bool := restoreSlots cg (List.finRange 6)

/-! ## Runs -/

/-- Descriptors of originals stay as they are. -/
def SameOriginals (fds fds' : Fd → Option Descriptor) : Prop :=
  ∀ fd id n, fds fd = some (.program id (some n)) ↔ fds' fd = some (.program id (some n))

/-- A program that an attach has taken the place of. -/
structure Replacement where
  cgroupFd : Fd
  type : AttachType
  progFd : Fd
  original : ProgId
  deriving DecidableEq

/-- The program that was on the hook before an attach that succeeded and left it without flags. -/
def displaced (s s' : State) (cg : Fd) (t : AttachType) : Option Errno → Option ProgId
  | some _ => none
  | none =>
      match s.fds cg with
      | some (.cgroup c) =>
          if (s'.hooks c t).flags = 0 then (s.hooks c t).progs.head? else none
      | _ => none

/-- The last program that was replaced on a hook. -/
def latest (log : List Replacement) (cg : Fd) (t : AttachType) : Option Replacement :=
  log.find? fun x => x.cgroupFd = cg && x.type = t

/-- Any hooks, programs and descriptors, no record and no original. -/
structure Fresh (s : State) : Prop where
  slots : ∀ i, (s.slots i).active = false
  fds : ∀ fd id n, s.fds fd ≠ some (.program id (some n))
  opened : s.opened = []
  closed : s.closed = []

/-- The states of all runs, with the programs that were replaced, the last one first.  Between the
calls others do what they like: change hooks, load programs, open and close descriptors of their
own. -/
inductive Reach : List Replacement → State → Prop where
  | initial {s : State} (h : Fresh s) : Reach [] s
  | attach {log : List Replacement} {s s' : State} (past : Reach log s) (cg prog : Fd)
      (t : AttachType) {r : Option Errno}
      (h : Prog.Out admissible (progAttach cg prog t s) s' r) :
      Reach (((displaced s s' cg t r).map fun id => ⟨cg, t, prog, id⟩).toList ++ log) s'
  | detach {log : List Replacement} {s s' : State} (past : Reach log s) (cg prog : Fd)
      (t : AttachType) {r : Option Errno}
      (h : Prog.Out admissible (progDetach cg prog t s) s' r) : Reach log s'
  | restore {log : List Replacement} {s s' : State} (past : Reach log s) (cg : Fd) {r : Bool}
      (h : Prog.Out admissible (cgroupRestore cg s) s' r) : Reach log s'
  | external {log : List Replacement} {s : State} (past : Reach log s)
      (hooks : Cgroup → AttachType → Hook) (programs : ProgId → Option Program)
      (pins : Dir → Leaf → Option ProgId) (fds : Fd → Option Descriptor)
      (originals : SameOriginals s.fds fds) :
      Reach log { s with hooks := hooks, programs := programs, pins := pins, fds := fds }

end Bpf2Socks.Hooks
