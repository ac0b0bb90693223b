import ScanService.Proofs.Quotients
import ScanService.Proofs.Validation
import ScanService.Server
/-! How a server is built from a configuration that is accepted. There is one, or there is a reason
why there is none, except for a rate so low that its period takes more than 64 bits of nanoseconds,
and for a queue too long to be held: the checks let both pass, and the process stops. -/
namespace ScanService

namespace RateGate

open Machine Decimal

variable {x y s t : Float} {v w : ℚ} {n : ℕ}

/-! ### The period -/

theorem nanoseconds_of_stands (h : Stands (Shape.of x) v) :
    (nanoseconds x = none ∧ 2 ^ (1024 : ℤ) ≤ v) ∨
      (v < 2 ^ (1024 : ℤ) ∧ ∃ n, nanoseconds x = some n ∧ IsNearest n (v * 1000000000)) := by
  unfold nanoseconds
  generalize Shape.of x = s at h
  cases h with
  | infinite h => exact Or.inl ⟨rfl,h⟩
  | @finite m e h =>
    refine Or.inr ⟨h,_,rfl,?_⟩
    have hn := isNearest_roundDiv (scaled (m * 1000000000) 1 e).1
      (scaled_snd_pos (m * 1000000000) Nat.one_pos e)
    have hv : (m : ℚ) * 2 ^ e * 1000000000 = (m * 1000000000 : ℕ) / (1 : ℕ) * 2 ^ e := by
      push_cast
      ring
    rwa [hv,← scaled_eq]

theorem nanoseconds_mono (hx : Stands (Shape.of x) v) (hy : Stands (Shape.of y) w) (hwv : w ≤ v)
    (hn : nanoseconds x = some n) : ∃ k, nanoseconds y = some k ∧ k ≤ n := by
  rcases nanoseconds_of_stands hx with ⟨hnone,_⟩ | ⟨hv,l,hl,hnear⟩
  · rw [hnone] at hn
    cases hn
  obtain rfl : l = n := Option.some.inj (hl.symm.trans hn)
  rcases nanoseconds_of_stands hy with ⟨_,hw⟩ | ⟨_,k,hk,hnear'⟩
  · exact absurd (lt_of_le_of_lt (le_trans hw hwv) hv) (lt_irrefl _)
  · exact ⟨k,hk,hnear'.mono hnear (mul_le_mul_of_nonneg_right hwv (by norm_num))⟩

theorem digits_of_checked (h : Config.positive t = true) : ∃ m e, digits? t = some (m,e) := by
  simp only [Config.positive,Bool.and_eq_true,decide_eq_true_eq] at h
  exact digits_of_positive h.1 h.2

theorem period_antitone (hs : Config.positive s = true)
    (ht : Config.positive t = true) (hst : s ≤ t) (hn : nanoseconds (1.0 / s) = some n) :
    ∃ k, nanoseconds (1.0 / t) = some k ∧ k ≤ n := by
  obtain ⟨_,_,hds⟩ := digits_of_checked hs
  obtain ⟨_,_,hdt⟩ := digits_of_checked ht
  obtain ⟨v,w,hwv,hv,hw⟩ := reciprocal_antitone hds hdt hst
  exact nanoseconds_mono hv hw hwv hn

/-! ### Too slow and too fast -/

def slowest : Float := 1e9 / 18446744073709551616.0

def fastest : Float := 2e9

def aboveSlowest : Float := 5.421010862427523e-11

def aboveFastest : Float := 2000000000.0000002

theorem positive_marks : Config.positive slowest = true ∧ Config.positive aboveSlowest = true ∧
    Config.positive fastest = true ∧ Config.positive aboveFastest = true := by decide +kernel

theorem digits_marks : digits? slowest = some (0x1dcd6500000000,-87) ∧
    digits? aboveSlowest = some (0x1dcd6500000001,-87) ∧
    digits? fastest = some (0x1dcd6500000000,-22) ∧
    digits? aboveFastest = some (0x1dcd6500000001,-22) := by decide +kernel

/-- The nearest reciprocal of the slowest rate is some nanoseconds longer than the exact one. -/
theorem period_marks : nanoseconds (1.0 / slowest) = some 18446744073709552765 ∧
    nanoseconds (1.0 / aboveSlowest) = some 18446744073709548950 ∧
    nanoseconds (1.0 / fastest) = some 1 ∧ nanoseconds (1.0 / aboveFastest) = some 0 := by
      decide +kernel

theorem le_slowest_or (h : Config.positive t = true) : t ≤ slowest ∨ aboveSlowest ≤ t := by
  obtain ⟨_,_,hd⟩ := digits_of_checked h
  exact le_or_next_le digits_marks.1 digits_marks.2.1 hd

theorem le_fastest_or (h : Config.positive t = true) : t ≤ fastest ∨ aboveFastest ≤ t := by
  obtain ⟨_,_,hd⟩ := digits_of_checked h
  exact le_or_next_le digits_marks.2.2.1 digits_marks.2.2.2 hd

theorem period_lt_iff (h : Config.positive t = true) :
    (∃ n, nanoseconds (1.0 / t) = some n ∧ n < 0x10000000000000000) ↔ ¬ t ≤ slowest := by
  obtain ⟨hs,ha,_⟩ := positive_marks
  obtain ⟨hps,hpa,_⟩ := period_marks
  constructor
  · rintro ⟨n,hn,hlt⟩ hle
    obtain ⟨k,hk,hkn⟩ := period_antitone h hs hle hn
    obtain rfl := Option.some.inj (hps.symm.trans hk)
    omega
  · intro hle
    obtain ⟨k,hk,hkn⟩ := period_antitone ha h ((le_slowest_or h).resolve_left hle) hpa
    exact ⟨k,hk,by omega⟩

theorem period_eq_zero_iff (h : Config.positive t = true) :
    nanoseconds (1.0 / t) = some 0 ↔ ¬ t ≤ fastest := by
  obtain ⟨_,_,hf,ha⟩ := positive_marks
  obtain ⟨_,_,hpf,hpa⟩ := period_marks
  constructor
  · intro hn hle
    obtain ⟨k,hk,hkn⟩ := period_antitone h hf hle hn
    obtain rfl := Option.some.inj (hpf.symm.trans hk)
    omega
  · intro hle
    obtain ⟨k,hk,hkn⟩ := period_antitone ha h ((le_fastest_or h).resolve_left hle) hpa
    rw [hk,Nat.le_zero.mp hkn]

/-- A rate that passes the check gives a gate, or is refused for being too high, or stops the
process. -/
theorem perSecond_cases (h : Config.positive t = true) :
    (t ≤ slowest ∧ perSecond t = .crashed) ∨
      (¬ t ≤ fastest ∧ perSecond t = .refused (.config "ticks_per_second is too large")) ∨
      (¬ t ≤ slowest ∧ t ≤ fastest ∧ ∃ n, 0 < n ∧ n < 0x10000000000000000 ∧
        perSecond t = .ready ⟨n⟩) := by
  have hlt := period_lt_iff h
  have hzero := period_eq_zero_iff h
  have hc : (t.isFinite && decide (0.0 < t)) = true := h
  rw [perSecond,if_pos hc]
  cases hn : nanoseconds (1.0 / t) with
  | none =>
    rw [hn] at hlt
    exact Or.inl ⟨Classical.not_not.mp fun hle => by simpa using hlt.mpr hle,rfl⟩
  | some n =>
    rw [hn] at hlt hzero
    cases n with
    | zero => exact Or.inr (Or.inl ⟨hzero.mp rfl,rfl⟩)
    | succ n =>
      by_cases hlarge : n + 1 < 0x10000000000000000
      · have hfast : t ≤ fastest := Classical.not_not.mp fun hle => by simpa using hzero.mpr hle
        exact Or.inr (Or.inr ⟨hlt.mp ⟨_,rfl,hlarge⟩,hfast,n + 1,Nat.succ_pos n,hlarge,
          if_pos hlarge⟩)
      · refine Or.inl ⟨Classical.not_not.mp fun hle => ?_,if_neg hlarge⟩
        obtain ⟨k,hk,hlt⟩ := hlt.mpr hle
        exact hlarge (Option.some.inj hk ▸ hlt)

theorem slowest_le_fastest (h : t ≤ slowest) : t ≤ fastest := by
  have hle : slowest ≤ fastest := by decide +kernel
  have hn := isNaN_eq_false_of_le h
  have hs : slowest.isNaN = false := isNaN_of_digits digits_marks.1
  have hf : fastest.isNaN = false := isNaN_of_digits digits_marks.2.2.1
  rw [le_iff_rank hn hf]
  exact le_trans ((le_iff_rank hn hs).mp h) ((le_iff_rank hs hf).mp hle)

end RateGate

namespace Server

variable {c : Config}

open RateGate

/-- What cannot be held: the period of the rate, or the queue. -/
inductive Overflows (c : Config) : Prop
  | period (h : c.scan.ticksPerSecond ≤ slowest)
  | queue (h : c.scan.ticksPerSecond ≤ fastest) (hq : Pool.maxCapacity < c.pool.capacity)

/-- How a server is built: it stops the process exactly where something cannot be held, it is
refused exactly for a rate that is too high, and otherwise it is there, with its configuration and
an empty queue of the wanted length. -/
structure Builds (c : Config) (store : Store) (clock : ℤ) : Prop where
  crashes : build c store clock = .crashed ↔ Overflows c
  refused : ∀ e, build c store clock = .refused e ↔
    e = .setup (.config "ticks_per_second is too large") ∧ ¬ c.scan.ticksPerSecond ≤ fastest
  ready : ∀ s, build c store clock = .ready s ↔ ¬ Overflows c ∧ c.scan.ticksPerSecond ≤ fastest ∧
    s = { config := c, service := .fresh (.ofConfig c) store ⟨c.pool.capacity,[],[],[],[],0⟩ clock }

theorem build_of_sound (h : c.fault? = none) (store : Store) (clock : ℤ) : build c store clock =
    ((RateGate.perSecond c.scan.ticksPerSecond).bind fun _ =>
      (Pool.ofCapacity c.pool.capacity).bind fun pool =>
        .ready { config := c, service := .fresh (.ofConfig c) store pool clock }).mapCause
      .setup := by
  rw [build,h]

theorem ofCapacity_of_le {n : ℕ} (h0 : n ≠ 0) (h : n ≤ Pool.maxCapacity) :
    Pool.ofCapacity n = .ready ⟨n,[],[],[],[],0⟩ := by
  rw [Pool.ofCapacity,if_neg (Nat.not_lt.mpr h),Nat.max_eq_left (Nat.pos_of_ne_zero h0)]

theorem ofCapacity_of_lt {n : ℕ} (h : Pool.maxCapacity < n) :
    Pool.ofCapacity n = .crashed := if_pos h

theorem Overflows.le_fastest (h : Overflows c) : c.scan.ticksPerSecond ≤ fastest := by
  cases h with
  | period h => exact slowest_le_fastest h
  | queue h _ => exact h

theorem Builds.of_crashed {store : Store} {clock : ℤ} (hc : build c store clock = .crashed)
    (ho : Overflows c) :
    Builds c store clock := by
  constructor
  · simp [hc,ho]
  · simp [hc,ho.le_fastest]
  · simp [hc,ho]

/-- Whatever the checks accept, a server is built from it, or refused, unless something cannot be
held. -/
theorem builds_unless_overflow (h : c.fault? = none) (store : Store) (clock : ℤ) :
    Builds c store clock := by
  have hs := Config.fault?_eq_none_iff.mp h
  have hb := build_of_sound h store clock
  rcases perSecond_cases hs.ticks with ⟨hslow,hp⟩ | ⟨hfast,hp⟩ | ⟨hslow,hfast,n,_,_,hp⟩
  · have hc : build c store clock = .crashed := by
      rw [hb,hp]
      rfl
    exact .of_crashed hc (.period hslow)
  · have hr : build c store clock = .refused
        (.setup (.config "ticks_per_second is too large")) := by
      rw [hb,hp]
      rfl
    have ho : ¬ Overflows c := fun ho => hfast ho.le_fastest
    constructor
    · simp [hr,ho]
    · simp [hr,hfast,eq_comm]
    · simp [hr,hfast]
  · rw [hp] at hb
    rcases Nat.lt_or_ge Pool.maxCapacity c.pool.capacity with hlong | hcap
    · have hc : build c store clock = .crashed := by
        rw [hb,Setup.bind,ofCapacity_of_lt hlong]
        rfl
      exact .of_crashed hc (.queue hfast hlong)
    · have hr : build c store clock =
          .ready {
            config := c
            service := .fresh (.ofConfig c) store ⟨c.pool.capacity,[],[],[],[],0⟩ clock } := by
        rw [hb,Setup.bind,ofCapacity_of_le hs.capacity hcap]
        rfl
      have ho : ¬ Overflows c := by
        rintro (hle | ⟨_,hlong⟩)
        · exact hslow hle
        · exact absurd hlong (Nat.not_lt.mpr hcap)
      constructor
      · simp [hr,ho]
      · simp [hr,hfast]
      · simp [hr,ho,hfast,eq_comm]

def ticking (rate : Float) : Config := { scan := { ticksPerSecond := rate } }

/-- A tick in thirty years is well above the slowest rate, and one in six centuries below it. -/
theorem builds_unless_overflow_ticking :
    (ticking 1e-9).fault? = none ∧ Builds (ticking 1e-9) .empty 0 ∧
      ¬ (ticking 1e-9).scan.ticksPerSecond ≤ slowest ∧
      (ticking 5e-11).scan.ticksPerSecond ≤ slowest :=
  ⟨by decide +kernel,builds_unless_overflow (by decide +kernel) .empty 0,by decide +kernel,
    by decide +kernel⟩

/-- The checks do not keep the process from stopping: they accept every rate above zero. -/
theorem not_built_or_refused : ¬ ∀ (c : Config) (store : Store) (clock : ℤ), c.fault? = none →
    build c store clock ≠ .crashed := by
  intro h
  have hf : (ticking 1e-300).fault? = none := by decide +kernel
  have hp : perSecond (ticking 1e-300).scan.ticksPerSecond = .crashed := by
    rcases perSecond_cases (t := 1e-300) (by decide +kernel) with ⟨_,hp⟩ | ⟨hfast,_⟩ | ⟨hslow,_⟩
    · exact hp
    · exact absurd (by decide +kernel) hfast
    · exact absurd (by decide +kernel) hslow
  refine h (ticking 1e-300) .empty 0 hf ?_
  rw [build_of_sound hf,hp]
  rfl

end Server

end ScanService
