/-
# Bpf2Socks.Limits.Capacity — how many sessions the descriptor limit leaves room for.

The configuration asks for a number of workers, of TCP and UDP sessions and of UDP bindings.
`fitSessionCapacity` cuts the three numbers down to the descriptors there are, by one factor and
rounding down, and gives the bindings what rounding left over.  `workerQuota` deals a number out to
the workers: UDP sessions and bindings are kept apart so, while TCP sessions come out of one budget
that all workers share.

The source computes with 32 and 64 bit words.  The equations here say that no product or sum wraps
around, so that the words stand for the numbers of `Lib.Share`.
-/
import Bpf2Socks.Lib.Share

namespace Bpf2Socks.Limits

open Lib (quota scaled spending)

/-! ## The functions -/

/-- The error numbers the functions set. -/
inductive Errno where
  | einval | emfile
  deriving DecidableEq

/-- `struct bpf2socks_limits_capacity`. -/
structure Capacity where
  workerCount : UInt32
  maxTcpSessions : UInt32
  maxUdpSessions : UInt32
  maxUdpBindings : UInt32
  deriving DecidableEq

/-- `BPF2SOCKS_TCP_FDS_PER_SESSION`. -/
def tcpFdsPerSession : UInt64 := 6
/-- `BPF2SOCKS_UDP_FDS_PER_SESSION`. -/
def udpFdsPerSession : UInt64 := 2
/-- `BPF2SOCKS_UDP_FDS_PER_BINDING`. -/
def udpFdsPerBinding : UInt64 := 1

/-- `bpf2socks_limits_worker_quota`. -/
def workerQuota (total workerId workerCount : UInt32) : UInt32 :=
  if workerCount = 0 ∨ workerCount ≤ workerId then 0
  else total / workerCount + if workerId < total % workerCount then 1 else 0

/-- `session_fd_demand`. -/
def sessionFdDemand (maxTcpSessions maxUdpSessions maxUdpBindings : UInt32) : UInt64 :=
  maxTcpSessions.toUInt64 * tcpFdsPerSession + maxUdpSessions.toUInt64 * udpFdsPerSession +
    maxUdpBindings.toUInt64 * udpFdsPerBinding

/-- The raise of the bindings to the sessions, which is made in place. -/
def raiseBindings (c : Capacity) : Capacity :=
  if c.maxUdpBindings < c.maxUdpSessions then { c with maxUdpBindings := c.maxUdpSessions } else c

/-- One of the three numbers, cut by the factor the available descriptors allow. -/
def cut (n : UInt32) (available requested : UInt64) : UInt32 :=
  (n.toUInt64 * available / requested).toUInt32

/-- What rounding left over goes to the bindings, up to those asked for. -/
def grown (used available : UInt64) (udpBindings maxUdpBindings : UInt32) : UInt32 :=
  if used < available then
    let grow := available - used
    let bindingRoom := maxUdpBindings.toUInt64 - udpBindings.toUInt64
    udpBindings + (if grow > bindingRoom then bindingRoom else grow).toUInt32
  else udpBindings

/-- `bpf2socks_limits_fit_session_capacity`: what it leaves in the structure it is given, and
whether it succeeds. -/
def fitSessionCapacity (nofileLimit reserveFds : UInt64) (capacity : Capacity) :
    Capacity × Except Errno Unit :=
  if capacity.workerCount = 0 ∨ capacity.maxTcpSessions = 0 then (capacity, .error .einval)
  else if capacity.maxUdpSessions = 0 then (capacity, .error .einval)
  else
    let c := raiseBindings capacity
    if nofileLimit = UInt64.ofNat (2 ^ 64 - 1) then (c, .ok ())
    else if nofileLimit = 0 ∨ nofileLimit ≤ reserveFds then (c, .error .emfile)
    else
      let available := nofileLimit - reserveFds
      let requested := sessionFdDemand c.maxTcpSessions c.maxUdpSessions c.maxUdpBindings
      if requested ≤ available then (c, .ok ())
      else
        let tcpSessions := cut c.maxTcpSessions available requested
        let udpSessions := cut c.maxUdpSessions available requested
        let udpBindings := cut c.maxUdpBindings available requested
        if tcpSessions < c.workerCount ∨ udpSessions < c.workerCount ∨ udpBindings < udpSessions then
          (c, .error .emfile)
        else
          let used := sessionFdDemand tcpSessions udpSessions udpBindings
          ({ c with
              maxTcpSessions := tcpSessions
              maxUdpSessions := udpSessions
              maxUdpBindings := grown used available udpBindings c.maxUdpBindings }, .ok ())

/-! ## The words stand for numbers -/

theorem workerQuota_toNat {total workerId workerCount : UInt32} (h : workerId < workerCount) :
    (workerQuota total workerId workerCount).toNat =
      quota total.toNat workerId.toNat workerCount.toNat := by
  have hlt : workerId.toNat < workerCount.toNat := UInt32.lt_iff_toNat_lt.mp h
  have hne : ¬(workerCount = 0 ∨ workerCount ≤ workerId) := by
    rintro (rfl | hle)
    · exact Nat.not_lt_zero _ hlt
    · exact Nat.not_lt.mpr (UInt32.le_iff_toNat_le.mp hle) hlt
  have hmod : workerId < total % workerCount ↔ workerId.toNat < total.toNat % workerCount.toNat := by
    rw [UInt32.lt_iff_toNat_lt, UInt32.toNat_mod]
  rw [workerQuota, if_neg hne, UInt32.toNat_add, UInt32.toNat_div, quota]
  have htotal := total.toNat_lt
  by_cases hx : workerId < total % workerCount
  · -- there is an extra unit, so the quotient is not the whole number
    rw [if_pos hx, if_pos (hmod.mp hx)]
    have hq := Nat.div_add_mod total.toNat workerCount.toNat
    have hle : total.toNat / workerCount.toNat ≤ workerCount.toNat * (total.toNat / workerCount.toNat) :=
      Nat.le_mul_of_pos_left _ (by omega)
    have hpos := hmod.mp hx
    exact Nat.mod_eq_of_lt (by simp; omega)
  · rw [if_neg hx, if_neg (mt hmod.mpr hx)]
    have hle : total.toNat / workerCount.toNat ≤ total.toNat := Nat.div_le_self _ _
    exact Nat.mod_eq_of_lt (by simp; omega)

/-- The parts of a demand: what one costs, and how many there are. -/
def parts (tcp udp bindings : Nat) : List (Nat × Nat) := [(6, tcp), (2, udp), (1, bindings)]

theorem sessionFdDemand_toNat (tcp udp bindings : UInt32) :
    (sessionFdDemand tcp udp bindings).toNat =
      spending (parts tcp.toNat udp.toNat bindings.toNat) := by
  have ht := tcp.toNat_lt
  have hu := udp.toNat_lt
  have hb := bindings.toNat_lt
  simp [sessionFdDemand, tcpFdsPerSession, udpFdsPerSession, udpFdsPerBinding, parts]
  omega

/-- A cut number is the scaled one, when the product fits the word it is computed in. -/
theorem cut_toNat {n : UInt32} {available requested : UInt64} (ha : available.toNat < 2 ^ 31)
    (h : available.toNat ≤ requested.toNat) :
    (cut n available requested).toNat = scaled available.toNat requested.toNat n.toNat := by
  have hn := n.toNat_lt
  have hproduct : n.toNat * available.toNat < 2 ^ 64 :=
    calc n.toNat * available.toNat ≤ 2 ^ 32 * 2 ^ 31 :=
          Nat.mul_le_mul (Nat.le_of_lt hn) (Nat.le_of_lt ha)
      _ < 2 ^ 64 := by decide
  have hle : scaled available.toNat requested.toNat n.toNat ≤ n.toNat := Lib.scaled_le _ h
  rw [cut, UInt64.toNat_toUInt32, UInt64.toNat_div, UInt64.toNat_mul, UInt32.toNat_toUInt64,
    Nat.mod_eq_of_lt hproduct]
  exact Nat.mod_eq_of_lt (Nat.lt_of_le_of_lt hle hn)

/-- The bindings grow by what is left over, and no further than asked for. -/
theorem grown_toNat {used available : UInt64} {b m : UInt32} (hu : used.toNat ≤ available.toNat)
    (hb : b.toNat ≤ m.toNat) :
    (grown used available b m).toNat =
      b.toNat + min (available.toNat - used.toNat) (m.toNat - b.toNat) := by
  have hm := m.toNat_lt
  have hgrow : (available - used).toNat = available.toNat - used.toNat :=
    UInt64.toNat_sub_of_le _ _ (UInt64.le_iff_toNat_le.mpr hu)
  have hroom : (m.toUInt64 - b.toUInt64).toNat = m.toNat - b.toNat := by
    have hle : b.toUInt64 ≤ m.toUInt64 := UInt64.le_iff_toNat_le.mpr hb
    rw [UInt64.toNat_sub_of_le _ _ hle]
    rfl
  unfold grown
  by_cases hlt : used < available
  · rw [if_pos hlt]
    simp only [UInt32.toNat_add, UInt64.toNat_toUInt32]
    by_cases hg : available - used > m.toUInt64 - b.toUInt64
    · have hg' := UInt64.lt_iff_toNat_lt.mp hg
      rw [if_pos hg, hroom]
      rw [hroom, hgrow] at hg'
      omega
    · have hg' := mt UInt64.lt_iff_toNat_lt.mpr hg
      rw [if_neg hg, hgrow]
      rw [hroom, hgrow] at hg'
      omega
  · have hlt' := mt UInt64.lt_iff_toNat_lt.mpr hlt
    rw [if_neg hlt]
    omega

/-! ## Fitting -/

/-- What `c'` must be for `c`, where `available` descriptors may be used. -/
structure Fits (available : Nat) (c c' : Capacity) : Prop where
  demand : spending (parts c'.maxTcpSessions.toNat c'.maxUdpSessions.toNat c'.maxUdpBindings.toNat) ≤
    available
  workers : c'.workerCount = c.workerCount
  tcp_le : c'.maxTcpSessions ≤ c.maxTcpSessions
  udp_le : c'.maxUdpSessions ≤ c.maxUdpSessions
  bindings_le : c'.maxUdpBindings.toNat ≤ max c.maxUdpBindings.toNat c.maxUdpSessions.toNat
  tcp_ge : c'.workerCount ≤ c'.maxTcpSessions
  udp_ge : c'.workerCount ≤ c'.maxUdpSessions
  bindings_ge : c'.maxUdpSessions ≤ c'.maxUdpBindings

/-- What is asked for: a worker, and a session of each kind for every worker. -/
structure Requested (c : Capacity) : Prop where
  worker : 1 ≤ c.workerCount.toNat
  tcp : c.workerCount ≤ c.maxTcpSessions
  udp : c.workerCount ≤ c.maxUdpSessions

theorem raiseBindings_bindings (c : Capacity) :
    (raiseBindings c).maxUdpBindings.toNat = max c.maxUdpBindings.toNat c.maxUdpSessions.toNat := by
  unfold raiseBindings
  by_cases h : c.maxUdpBindings < c.maxUdpSessions
  · rw [if_pos h]
    exact (Nat.max_eq_right (Nat.le_of_lt (UInt32.lt_iff_toNat_lt.mp h))).symm
  · rw [if_neg h]
    exact (Nat.max_eq_left (Nat.not_lt.mp (mt UInt32.lt_iff_toNat_lt.mpr h))).symm

theorem raiseBindings_keeps (c : Capacity) : (raiseBindings c).workerCount = c.workerCount ∧
    (raiseBindings c).maxTcpSessions = c.maxTcpSessions ∧
    (raiseBindings c).maxUdpSessions = c.maxUdpSessions := by
  unfold raiseBindings
  split <;> exact ⟨rfl, rfl, rfl⟩

/-- Nothing is cut when the demand fits. -/
theorem fits_raiseBindings {available : Nat} {c : Capacity} (h : Requested c)
    (hdemand : spending (parts (raiseBindings c).maxTcpSessions.toNat
      (raiseBindings c).maxUdpSessions.toNat (raiseBindings c).maxUdpBindings.toNat) ≤ available) :
    Fits available c (raiseBindings c) := by
  obtain ⟨hworkers, htcp, hudp⟩ := raiseBindings_keeps c
  have hbindings := raiseBindings_bindings c
  refine ⟨hdemand, hworkers, ?_, ?_, ?_, ?_, ?_, ?_⟩
  · exact htcp ▸ UInt32.le_refl _
  · exact hudp ▸ UInt32.le_refl _
  · exact Nat.le_of_eq hbindings
  · rw [hworkers, htcp]
    exact h.tcp
  · rw [hworkers, hudp]
    exact h.udp
  · rw [UInt32.le_iff_toNat_le, hbindings, hudp]
    exact Nat.le_max_right _ _

/-- The numbers cut to fewer descriptors than they would need. -/
theorem fits_cut {available : UInt64} {c r : Capacity} (hr : r = raiseBindings c)
    (ha : available.toNat < 2 ^ 31) {requested : UInt64}
    (hq : requested = sessionFdDemand r.maxTcpSessions r.maxUdpSessions r.maxUdpBindings)
    (hlt : available.toNat < requested.toNat) {tcp udp bindings : UInt32}
    (htcp : tcp = cut r.maxTcpSessions available requested)
    (hudp : udp = cut r.maxUdpSessions available requested)
    (hbindings : bindings = cut r.maxUdpBindings available requested)
    (hw : r.workerCount ≤ tcp) (hw' : r.workerCount ≤ udp) (hge : udp ≤ bindings) :
    Fits available.toNat c { r with
      maxTcpSessions := tcp
      maxUdpSessions := udp
      maxUdpBindings :=
        grown (sessionFdDemand tcp udp bindings) available bindings r.maxUdpBindings } := by
  have hle := Nat.le_of_lt hlt
  have hspend : requested.toNat =
      spending (parts r.maxTcpSessions.toNat r.maxUdpSessions.toNat r.maxUdpBindings.toNat) := by
    rw [hq, sessionFdDemand_toNat]
  have ht : tcp.toNat = scaled available.toNat requested.toNat r.maxTcpSessions.toNat := by
    rw [htcp, cut_toNat ha hle]
  have hu : udp.toNat = scaled available.toNat requested.toNat r.maxUdpSessions.toNat := by
    rw [hudp, cut_toNat ha hle]
  have hb : bindings.toNat = scaled available.toNat requested.toNat r.maxUdpBindings.toNat := by
    rw [hbindings, cut_toNat ha hle]
  -- the cut numbers fit, and the bindings grow by no more than what is left over
  have hused : spending (parts tcp.toNat udp.toNat bindings.toNat) ≤ available.toNat := by
    have hpos : 0 < spending (parts r.maxTcpSessions.toNat r.maxUdpSessions.toNat
        r.maxUdpBindings.toNat) := by omega
    rw [ht, hu, hb, hspend]
    exact Lib.spending_scaled_le hpos
  have hbm : bindings.toNat ≤ r.maxUdpBindings.toNat := hb ▸ Lib.scaled_le _ hle
  have hgrown : (grown (sessionFdDemand tcp udp bindings) available bindings
      r.maxUdpBindings).toNat = _ := grown_toNat (by rw [sessionFdDemand_toNat]; exact hused) hbm
  rw [sessionFdDemand_toNat] at hgrown
  obtain ⟨hworkers, hkeepTcp, hkeepUdp⟩ := raiseBindings_keeps c
  have hmax := raiseBindings_bindings c
  rw [← hr] at hworkers hkeepTcp hkeepUdp hmax
  refine ⟨?_, hworkers, ?_, ?_, ?_, hw, hw', ?_⟩
  · simp only [parts, Lib.spending_cons, Lib.spending_nil] at hused hgrown ⊢
    omega
  · rw [UInt32.le_iff_toNat_le, ← hkeepTcp, ht]
    exact Lib.scaled_le _ hle
  · rw [UInt32.le_iff_toNat_le, ← hkeepUdp, hu]
    exact Lib.scaled_le _ hle
  · rw [← hmax]
    show (grown _ _ _ _).toNat ≤ _
    omega
  · have := UInt32.le_iff_toNat_le.mp hge
    show udp.toNat ≤ (grown _ _ _ _).toNat
    omega

/-- A successful call fits the capacities into the descriptors there are. -/
theorem fitSessionCapacity_fits {limit reserve : UInt64} (hlimit : limit.toNat < 2 ^ 31)
    {c c' : Capacity} (hc : Requested c)
    (h : fitSessionCapacity limit reserve c = (c', .ok ())) :
    reserve.toNat < limit.toNat ∧ Fits (limit.toNat - reserve.toNat) c c' := by
  unfold fitSessionCapacity at h
  split at h
  · simp at h
  split at h
  · simp at h
  dsimp only at h
  split at h
  · -- the descriptors are limited
    rename_i hmax
    rw [hmax] at hlimit
    exact absurd hlimit (by decide)
  split at h
  · simp at h
  rename_i hroom
  have hlt : reserve.toNat < limit.toNat := by
    by_contra hle
    exact hroom (.inr (UInt64.le_iff_toNat_le.mpr (Nat.not_lt.mp hle)))
  have havailable : (limit - reserve).toNat = limit.toNat - reserve.toNat :=
    UInt64.toNat_sub_of_le _ _ (UInt64.le_iff_toNat_le.mpr (Nat.le_of_lt hlt))
  refine ⟨hlt, ?_⟩
  split at h
  · rename_i hdemand
    have hdemand := UInt64.le_iff_toNat_le.mp hdemand
    rw [sessionFdDemand_toNat, havailable] at hdemand
    obtain rfl := (Prod.mk.inj h).1
    exact fits_raiseBindings hc hdemand
  rename_i hdemand
  have hdemand := Nat.not_le.mp (mt UInt64.le_iff_toNat_le.mpr hdemand)
  split at h
  · simp at h
  rename_i hsmall
  simp only [not_or, UInt32.not_lt] at hsmall
  obtain rfl := (Prod.mk.inj h).1
  rw [← havailable]
  refine fits_cut rfl ?_ rfl hdemand rfl rfl rfl hsmall.1 hsmall.2.1 hsmall.2.2
  omega

/-! ## Shares -/

/-- What the workers get of a capacity is all of it, and something for each of them. -/
structure Dealt (total workers : UInt32) : Prop where
  sum : ((List.range workers.toNat).map fun i =>
    (workerQuota total (UInt32.ofNat i) workers).toNat).sum = total.toNat
  each : ∀ i : UInt32, i < workers → 1 ≤ workerQuota total i workers

theorem dealt {total workers : UInt32} (hw : 1 ≤ workers.toNat) (h : workers ≤ total) :
    Dealt total workers := by
  refine ⟨?_, fun i hi => ?_⟩
  · have hquota : ∀ i ∈ List.range workers.toNat,
        (workerQuota total (UInt32.ofNat i) workers).toNat = quota total.toNat i workers.toNat := by
      intro i hi
      have hi := List.mem_range.mp hi
      have hlt : i < 2 ^ 32 := Nat.lt_trans hi workers.toNat_lt
      have hnat : (UInt32.ofNat i).toNat = i := UInt32.toNat_ofNat_of_lt' hlt
      rw [workerQuota_toNat (UInt32.lt_iff_toNat_lt.mpr (hnat.symm ▸ hi)), hnat]
    rw [List.map_congr_left hquota]
    exact Lib.sum_quota _ hw
  · rw [UInt32.le_iff_toNat_le, workerQuota_toNat hi]
    exact Lib.quota_pos _ hw (UInt32.le_iff_toNat_le.mp h)

/-- A worker gets at least as much of the larger capacity. -/
theorem workerQuota_mono {a b i workers : UInt32} (hi : i < workers) (h : a ≤ b) :
    workerQuota a i workers ≤ workerQuota b i workers := by
  rw [UInt32.le_iff_toNat_le, workerQuota_toNat hi, workerQuota_toNat hi]
  exact Lib.quota_mono _ _ (UInt32.le_iff_toNat_le.mp h)

/-- The quotas of some capacities.  `bpf2socks_bridge_run` hands out those of UDP sessions and
bindings. -/
structure Shared (c : Capacity) : Prop where
  tcp : Dealt c.maxTcpSessions c.workerCount
  udp : Dealt c.maxUdpSessions c.workerCount
  bindings : Dealt c.maxUdpBindings c.workerCount
  enough : ∀ i : UInt32, i < c.workerCount →
    workerQuota c.maxUdpSessions i c.workerCount ≤ workerQuota c.maxUdpBindings i c.workerCount

theorem Fits.shared {available : Nat} {c c' : Capacity} (h : Fits available c c')
    (hc : Requested c) : Shared c' := by
  have hw : 1 ≤ c'.workerCount.toNat := h.workers ▸ hc.worker
  exact ⟨dealt hw h.tcp_ge, dealt hw h.udp_ge, dealt hw (UInt32.le_trans h.udp_ge h.bindings_ge),
    fun _ hi => workerQuota_mono hi h.bindings_ge⟩

/-- Fitted capacities are within the descriptors there are and within what was asked for, and every
worker gets sessions of each kind and a binding for every session. -/
theorem session_capacity_fitted {limit reserve : UInt64} (hlimit : limit.toNat < 2 ^ 31)
    {c c' : Capacity} (hc : Requested c)
    (h : fitSessionCapacity limit reserve c = (c', .ok ())) :
    (reserve.toNat < limit.toNat ∧ Fits (limit.toNat - reserve.toNat) c c') ∧ Shared c' := by
  obtain ⟨hlt, hf⟩ := fitSessionCapacity_fits hlimit hc h
  exact ⟨⟨hlt, hf⟩, hf.shared hc⟩

/-- Four workers and the default capacities in a process that may have 4096 descriptors. -/
theorem session_capacity_fitted_default :
    fitSessionCapacity 4096 600 ⟨4, 4096, 4096, 16384⟩ = (⟨4, 291, 291, 1168⟩, .ok ()) ∧
      Shared ⟨4, 291, 291, 1168⟩ :=
  have h : fitSessionCapacity 4096 600 ⟨4, 4096, 4096, 16384⟩ = (⟨4, 291, 291, 1168⟩, .ok ()) := by
    decide +kernel
  ⟨h, (session_capacity_fitted (by decide) ⟨by decide, by decide, by decide⟩ h).2⟩

/-! ## Starting -/

/-- The fields of `struct bpf2socks_runtime_config` the capacities depend on. -/
structure Tunables where
  workerCount : UInt32
  maxTcpSessions : UInt32
  maxUdpSessions : UInt32
  maxUdpBindings : UInt32
  enableIpv6 : Bool
  enableDnsHijack : Bool
  deriving DecidableEq

/-- `auto_worker_count`, of the processors `sysconf` counts. -/
def autoWorkerCount (cpuCount : Int) : UInt32 := if cpuCount ≥ 8 then 4 else 2

/-- `normalize_runtime_tunables`, on these fields. -/
def normalizeRuntimeTunables (cpuCount : Int) (config : Tunables) : Tunables :=
  let workers := if config.workerCount = 0 then autoWorkerCount cpuCount else config.workerCount
  let workers := if workers > 8 then 8 else workers
  let tcp := if config.maxTcpSessions = 0 then 4096 else config.maxTcpSessions
  let tcp := if tcp > 8192 then 8192 else tcp
  let udp := if config.maxUdpSessions = 0 then 4096 else config.maxUdpSessions
  let bindings := if config.maxUdpBindings = 0 then 16384 else config.maxUdpBindings
  let bindings := if bindings < udp then udp else bindings
  let workers := if tcp < workers then tcp else workers
  let workers := if udp < workers then udp else workers
  let workers := if bindings < workers then bindings else workers
  { config with
    workerCount := workers, maxTcpSessions := tcp, maxUdpSessions := udp, maxUdpBindings := bindings }

/-- `static_fd_reserve`. -/
def staticFdReserve (config : Tunables) (workerCount : UInt32) : UInt64 :=
  let perWorker : UInt64 := 3 + 7 + 4 * 16
  let perWorker := if config.enableIpv6 || config.enableDnsHijack then perWorker + 1 + 2 else perWorker
  32 + 256 + perWorker * workerCount.toUInt64

/-- The capacities a configuration asks for, for a number of workers. -/
def Tunables.capacity (config : Tunables) (workerCount : UInt32) : Capacity :=
  ⟨workerCount, config.maxTcpSessions, config.maxUdpSessions, config.maxUdpBindings⟩

/-- The loop of `apply_nofile_session_capacity`: fewer and fewer workers. -/
def applyFrom (nofileLimit openFds : UInt64) (config : Tunables) : Nat → Except Errno Tunables
  | 0 => .error .emfile
  | n + 1 =>
      let workerCount := UInt32.ofNat (n + 1)
      let reserve := openFds + staticFdReserve config workerCount
      match fitSessionCapacity nofileLimit reserve (config.capacity workerCount) with
      | (effective, .ok _) => .ok { config with
          workerCount := effective.workerCount
          maxTcpSessions := effective.maxTcpSessions
          maxUdpSessions := effective.maxUdpSessions
          maxUdpBindings := effective.maxUdpBindings }
      | (_, .error _) => applyFrom nofileLimit openFds config n

/-- `apply_nofile_session_capacity`, where the limit and the number of open descriptors are read. -/
def applyNofileSessionCapacity (nofileLimit openFds : UInt64) (config : Tunables) :
    Except Errno Tunables :=
  applyFrom nofileLimit openFds config config.workerCount.toNat

theorem orDefault_pos {x d : UInt32} (hd : 1 ≤ d.toNat) : 1 ≤ (if x = 0 then d else x).toNat := by
  split
  · exact hd
  · rename_i hx
    exact Nat.pos_of_ne_zero fun h => hx (UInt32.toNat_inj.mp h)

theorem lower_toNat (a x : UInt32) : (if a < x then a else x).toNat = min a.toNat x.toNat := by
  split
  · rename_i h
    exact (Nat.min_eq_left (Nat.le_of_lt (UInt32.lt_iff_toNat_lt.mp h))).symm
  · rename_i h
    exact (Nat.min_eq_right (Nat.not_lt.mp (mt UInt32.lt_iff_toNat_lt.mpr h))).symm

/-- A normalized configuration has a worker, and a session of each kind for every worker. -/
theorem normalizeRuntimeTunables_requested (cpuCount : Int) (config : Tunables) :
    Requested ((normalizeRuntimeTunables cpuCount config).capacity
      (normalizeRuntimeTunables cpuCount config).workerCount) := by
  have hauto : 1 ≤ (autoWorkerCount cpuCount).toNat := by
    unfold autoWorkerCount
    split <;> decide
  unfold normalizeRuntimeTunables Tunables.capacity
  dsimp only
  set workers := if config.workerCount = 0 then autoWorkerCount cpuCount else config.workerCount
  set tcp := if config.maxTcpSessions = 0 then (4096 : UInt32) else config.maxTcpSessions
  set udp := if config.maxUdpSessions = 0 then (4096 : UInt32) else config.maxUdpSessions
  set bindings := if config.maxUdpBindings = 0 then (16384 : UInt32) else config.maxUdpBindings
  have hworkers : 1 ≤ workers.toNat := orDefault_pos hauto
  have htcp : 1 ≤ tcp.toNat := orDefault_pos (by decide)
  have hudp : 1 ≤ udp.toNat := orDefault_pos (by decide)
  have hbindings : 1 ≤ bindings.toNat := orDefault_pos (by decide)
  have height : (8 : UInt32).toNat = 8 := rfl
  have hcap : (8192 : UInt32).toNat = 8192 := rfl
  have hraised : 1 ≤ (if bindings < udp then udp else bindings).toNat := by
    split
    · exact hudp
    · exact hbindings
  constructor
  · simp only [gt_iff_lt, lower_toNat]
    omega
  · rw [UInt32.le_iff_toNat_le]
    simp only [gt_iff_lt, lower_toNat]
    omega
  · rw [UInt32.le_iff_toNat_le]
    simp only [gt_iff_lt, lower_toNat]
    omega

/-- Capacities without a limit on descriptors are those asked for. -/
theorem fitSessionCapacity_unlimited {reserve : UInt64} {c c' : Capacity} (hc : Requested c)
    (h : fitSessionCapacity (UInt64.ofNat (2 ^ 64 - 1)) reserve c = (c', .ok ())) :
    c' = raiseBindings c := by
  have hw : c.workerCount ≠ 0 := fun h0 => by
    have := hc.worker
    rw [h0] at this
    exact absurd this (by decide)
  have hpos : ∀ x : UInt32, c.workerCount ≤ x → x ≠ 0 := fun x hx h0 => by
    have := UInt32.le_iff_toNat_le.mp hx
    have := hc.worker
    rw [h0] at *
    exact absurd (Nat.le_trans ‹1 ≤ _› ‹_›) (by decide)
  rw [fitSessionCapacity, if_neg (by simp [hw, hpos _ hc.tcp]), if_neg (hpos _ hc.udp)] at h
  exact (Prod.mk.inj h).1.symm

/-- A limit as `bpf2socks_limits_nofile_soft` reads it: none, or a number below 2^31. -/
def LimitOk (limit : UInt64) : Prop := limit = UInt64.ofNat (2 ^ 64 - 1) ∨ limit.toNat < 2 ^ 31

/-- What a start leaves in the configuration, of what it found there. -/
structure Started (config config' : Tunables) : Prop where
  workers : config'.workerCount ≤ config.workerCount
  tcp : config'.maxTcpSessions ≤ config.maxTcpSessions
  udp : config'.maxUdpSessions ≤ config.maxUdpSessions
  bindings : config'.maxUdpBindings.toNat ≤
    max config.maxUdpBindings.toNat config.maxUdpSessions.toNat
  shared : Shared (config'.capacity config'.workerCount)

/-- A successful call keeps the worker count, raises nothing else, and can be dealt out. -/
theorem fitSessionCapacity_shared {limit reserve : UInt64} (hlimit : LimitOk limit) {c c' : Capacity}
    (hc : Requested c) (h : fitSessionCapacity limit reserve c = (c', .ok ())) :
    (∃ available, Fits available c c') ∧ Shared c' := by
  rcases hlimit with rfl | hlt
  · obtain rfl := fitSessionCapacity_unlimited hc h
    have hf := fits_raiseBindings hc (Nat.le_refl _)
    exact ⟨⟨_, hf⟩, hf.shared hc⟩
  · obtain ⟨-, hf⟩ := fitSessionCapacity_fits hlt hc h
    exact ⟨⟨_, hf⟩, hf.shared hc⟩

/-- The loop succeeds with some number of workers it tried. -/
theorem applyFrom_started {limit openFds : UInt64} (hlimit : LimitOk limit) {config config' : Tunables}
    (hc : Requested (config.capacity config.workerCount)) {n : Nat} (hn : n ≤ config.workerCount.toNat)
    (h : applyFrom limit openFds config n = .ok config') : Started config config' := by
  induction n with
  | zero => simp [applyFrom] at h
  | succ n ih =>
      have hlt : n + 1 < 2 ^ 32 := Nat.lt_of_le_of_lt hn config.workerCount.toNat_lt
      have hnat : (UInt32.ofNat (n + 1)).toNat = n + 1 := UInt32.toNat_ofNat_of_lt' hlt
      have hle : UInt32.ofNat (n + 1) ≤ config.workerCount :=
        UInt32.le_iff_toNat_le.mpr (hnat.symm ▸ hn)
      have hreq : Requested (config.capacity (UInt32.ofNat (n + 1))) :=
        ⟨by show 1 ≤ (UInt32.ofNat (n + 1)).toNat; omega, UInt32.le_trans hle hc.tcp,
          UInt32.le_trans hle hc.udp⟩
      rw [applyFrom] at h
      split at h
      · rename_i effective u hfit
        obtain ⟨⟨_, hf⟩, hs⟩ := fitSessionCapacity_shared hlimit hreq hfit
        obtain rfl := Except.ok.inj h
        have hworkers : effective.workerCount = UInt32.ofNat (n + 1) := hf.workers
        exact ⟨hworkers ▸ hle, hf.tcp_le, hf.udp_le, hf.bindings_le, hs⟩
      · exact ih (Nat.le_of_succ_le hn) h

/-- A start that succeeds runs no more workers and sessions than the normalized configuration asks
for, and gives every worker sessions of each kind and a binding for every session. -/
theorem applyNofileSessionCapacity_started {limit openFds : UInt64} (hlimit : LimitOk limit)
    (cpuCount : Int) {config config' : Tunables}
    (h : applyNofileSessionCapacity limit openFds (normalizeRuntimeTunables cpuCount config) =
      .ok config') : Started (normalizeRuntimeTunables cpuCount config) config' := by
  rw [applyNofileSessionCapacity] at h
  exact applyFrom_started hlimit (normalizeRuntimeTunables_requested cpuCount config)
    (Nat.le_refl _) h

end Bpf2Socks.Limits
