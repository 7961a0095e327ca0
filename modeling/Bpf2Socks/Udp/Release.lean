/-
# Bpf2Socks.Udp.Release — sessions whose client socket the kernel reported destroyed.

The kernel reports the port of every destroyed UDP socket.  A local session on such a port is
released once no socket holds the port any more; one that still delivers replies is looked at
again a little later.  With no local session at all, the notifications are not watched.
-/
import Bpf2Socks.Udp.Session

namespace Bpf2Socks.Udp

open Function (update)
open Worker

/-- `BPF2SOCKS_UDP_RELEASE_RETRY_MILLISECONDS`. -/
def releaseRetryMilliseconds : Nat := 100

/-- `BPF2SOCKS_UDP_RELEASE_RECENT_MILLISECONDS`. -/
def releaseRecentMilliseconds : Nat := 2000

/-- `BPF2SOCKS_UDP_RELEASE_PORT_MEMO_SLOTS`. -/
def releasePortMemoSlots : Nat := 256

/-- `session_client_is_local`. -/
def sessionClientIsLocal (s : State) (k : Nat) : Bool :=
  sockaddrIsLoopback (s.tbl.core k).clientAddr

/-- `session_client_port`. -/
def sessionClientPort (s : State) (k : Nat) : UInt16 := sockaddrPort (s.tbl.core k).clientAddr

/-- `bpf2socks_udp_port_bitmap_set` on `released_ports`. -/
def flagPort (s : State) (port : UInt16) : State :=
  { s with rel := { s.rel with releasedPorts := update s.rel.releasedPorts port true } }

/-- `bpf2socks_deadline_note` on `release_retry_due_ms`. -/
def noteRetry (s : State) (deadline : Nat) : State :=
  { s with rel := { s.rel with retryDueMs := min s.rel.retryDueMs deadline } }

/-- Set a session's `release_retry_ms`. -/
def setRetry (s : State) (k ms : Nat) : State :=
  s.modCore k fun c => { c with releaseRetryMs := ms }

/-- The walk of `flag_all_local_sessions`. -/
def flagLocalFrom : Nat → Option Nat → Worker Unit
  | 0, _ => diverge
  | _ + 1, none => pure ()
  | fuel + 1, some k => do
      let s ← get
      if (s.tbl.core k).used then
        if sessionClientIsLocal s k then modify fun s => flagPort s (sessionClientPort s k)
        flagLocalFrom fuel (s.tbl.lru.next k)
      else pure ()

/-- `flag_all_local_sessions`. -/
def flagAllLocalSessions : Worker Unit := do
  let s ← get
  flagLocalFrom (s.tbl.cap + 1) (s.tbl.lru.head ())

/-- The ports asked about in one pass (`struct release_port_results`). -/
abbrev PortMemo := List (UInt16 × Option Bool)

/-- `release_port_has_socket`: `none` is a failed query. -/
def releasePortHasSocket (memo : PortMemo) (port : UInt16) : Worker (Option Bool × PortMemo) := do
  match memo.lookup port with
  | some r => pure (r, memo)
  | none =>
      count .udpReleaseConfirmQueries
      let r : Option Bool ← ask (.portOpen port)
      pure (r, if memo.length < releasePortMemoSlots then memo ++ [(port, r)] else memo)

/-- The tokens a session's bindings hold (`bpf2socks_udp_token_delete_closed_client`). -/
def tokenDeleteClosedClient (k : Nat) : Worker Unit := do
  let s ← get
  Lib.Act.forEach (fun b => do
    let s ← get
    if (s.bind.core b).used && bindingHasToken (s.bind.core b) then
      let _ : Bool ← ask (.tokenDelete (tokenSource (s.tbl.core k).clientAddr (s.bind.core b)))
      pure ()
    else pure ()) (s.bind.owned k)

/-- The walk of `release_flagged_sessions`; the next pointer is read before the session goes. -/
def releaseFlaggedFrom (now : Nat) : Nat → Option Nat → PortMemo → Worker Unit
  | 0, _, _ => diverge
  | _ + 1, none, _ => pure ()
  | fuel + 1, some k, memo => do
      let s ← get
      let next := s.tbl.lru.next k
      let port := sessionClientPort s k
      if !(s.tbl.core k).used then pure ()
      else if !sessionClientIsLocal s k || !s.rel.releasedPorts port then
        releaseFlaggedFrom now fuel next memo
      else if !droppable s k then
        modify fun s => noteRetry (setRetry s k (now + releaseRetryMilliseconds))
          (now + releaseRetryMilliseconds)
        releaseFlaggedFrom now fuel next memo
      else
        let (isOpen, memo) ← releasePortHasSocket memo port
        if isOpen = some false then
          tokenDeleteClosedClient k
          sessionDrop k
          count .udpClosedClientReleases
        releaseFlaggedFrom now fuel next memo

/-- `release_flagged_sessions`. -/
def releaseFlaggedSessions (now : Nat) : Worker Unit := do
  let s ← get
  releaseFlaggedFrom now (s.tbl.cap + 1) (s.tbl.lru.head ()) []
  modify fun s => { s with rel := { s.rel with releasedPorts := fun _ => false } }

/-- The low 32 bits of a time, never zero. -/
def destroyStamp (now : Nat) : Nat := if now % UInt32.size = 0 then 1 else now % UInt32.size

/-- `stamp_destroyed_ports`. -/
def stampDestroyedPorts (s : State) (now : Nat) : State :=
  let stamped := fun port =>
    if s.rel.releasedPorts port then destroyStamp now else s.rel.portDestroyedMs port
  { s with rel := { s.rel with portDestroyedMs := stamped } }

/-- Notifications were lost: look at every local session, and at those opened soon. -/
def releaseLost (now : Nat) : Worker Unit := do
  count .udpReleaseEventsLost
  flagAllLocalSessions
  modify fun s => { s with rel :=
    { s.rel with checkNewSessionsUntilMs := now + releaseRecentMilliseconds } }

/-- `bpf2socks_udp_release_handle_events`. -/
def releaseHandleEvents (now : Nat) : Worker Unit := do
  let r : List UInt16 × Bool ← ask .destroyDrain
  let (ports, lost) := r
  modify fun s => ports.foldl flagPort s
  count .udpReleaseEvents ports.length
  if ports.length = 0 ∧ !lost then pure ()
  else
    modify fun s => if ports.length > 0 then stampDestroyedPorts s now else s
    if lost then releaseLost now
    releaseFlaggedSessions now

/-- `bpf2socks_udp_release_arm`. -/
def releaseArm (now : Nat) : Worker Unit := do
  let _ ← epollModify .destroyEvents .input
  modify fun s => { s with rel := { s.rel with armed := true } }
  releaseHandleEvents now

/-- `bpf2socks_udp_release_disarm_if_idle`. -/
def releaseDisarmIfIdle : Worker Unit := do
  let s ← get
  if !s.rel.armed || s.tbl.localCount > 0 then pure ()
  else
    let done ← epollModify .destroyEvents .none
    if done then modify fun s => { s with rel := { s.rel with armed := false } }

/-- `bpf2socks_udp_release_note_new_session`. -/
def releaseNoteNewSession (s : State) (k now : Nat) : State :=
  if sessionClientIsLocal s k then
    let destroyed := s.rel.portDestroyedMs (sessionClientPort s k)
    let recent := destroyed ≠ 0 ∧
      (now % UInt32.size + (UInt32.size - destroyed)) % UInt32.size < releaseRecentMilliseconds
    if ¬recent ∧ now ≥ s.rel.checkNewSessionsUntilMs then s
    else noteRetry (setRetry s k (now + releaseRetryMilliseconds)) (now + releaseRetryMilliseconds)
  else s

/-- The walk of `bpf2socks_udp_release_retry`; it says whether it flagged a port. -/
def releaseRetryFrom (now : Nat) : Nat → Option Nat → Bool → Worker Bool
  | 0, _, _ => diverge
  | _ + 1, none, flagged => pure flagged
  | fuel + 1, some k, flagged => do
      let s ← get
      let c := s.tbl.core k
      let next := s.tbl.lru.next k
      if !c.used then pure flagged
      else if c.releaseRetryMs = 0 then releaseRetryFrom now fuel next flagged
      else if c.releaseRetryMs > now then
        modify fun s => noteRetry s c.releaseRetryMs
        releaseRetryFrom now fuel next flagged
      else
        modify fun s => flagPort (setRetry s k 0) (sessionClientPort s k)
        releaseRetryFrom now fuel next true

/-- `bpf2socks_udp_release_retry`. -/
def releaseRetry (now : Nat) : Worker Unit := do
  let s ← get
  if now = 0 ∨ now < s.rel.retryDueMs then pure ()
  else
    modify fun s => { s with rel := { s.rel with retryDueMs := noDeadline } }
    let flagged ← releaseRetryFrom now (s.tbl.cap + 1) (s.tbl.lru.head ()) false
    if flagged then releaseFlaggedSessions now

end Bpf2Socks.Udp
