import Mathlib.Logic.Basic
import ScanService.Config.Basic
/-! Which configurations are accepted: what each check asks for, and nothing else. -/
namespace ScanService.Config

structure Sound (c : Config) : Prop where
  capacity : c.pool.capacity ≠ 0
  queryTimeout : c.scan.queryTimeout ≠ 0
  ticks : positive c.scan.ticksPerSecond = true
  radius : positive c.cache.radius = true
  purgeInterval : c.cache.purgeInterval ≠ 0
  gateway : c.remote.gatewayUrl.isEmpty = false
  template : ∀ t ∈ c.remote.proxyTemplate, occurs placeholder t.toList = true
  format : c.log.format = "text" ∨ c.log.format = "json"

theorem checked_eq_none_iff {p : Prop} [Decidable p] {text : String} {rest : Option String} :
    (if p then some text else rest) = none ↔ ¬ p ∧ rest = none := by
  split <;> simp [*]

/-- A configuration has no fault if it passes all checks. -/
theorem fault?_eq_none_iff {c : Config} : c.fault? = none ↔ c.Sound := by
  have ht : ¬ (c.remote.proxyTemplate.map fun t => !occurs placeholder t.toList).getD false = true ↔
      ∀ t ∈ c.remote.proxyTemplate, occurs placeholder t.toList = true := by
    cases c.remote.proxyTemplate <;> simp
  simp only [fault?,checked_eq_none_iff,ht,Bool.not_eq_true',Bool.not_eq_false,
    Bool.not_eq_true,not_and_or,ne_eq,Classical.not_not,and_true]
  constructor
  · rintro ⟨h1,h2,h3,h4,h5,h6,h7,h8⟩
    exact ⟨h1,h2,h3,h4,h5,h6,h7,h8⟩
  · rintro ⟨h1,h2,h3,h4,h5,h6,h7,h8⟩
    exact ⟨h1,h2,h3,h4,h5,h6,h7,h8⟩

end ScanService.Config
