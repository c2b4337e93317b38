import HubDevice.Agent.Reading
import HubDevice.Proofs.Agent.Random
import HubDevice.Proofs.Config.Failure

/-!
# How many readings can be drawn

A reading is drawn from two spreads, and the simulator after it has the settings it had before. So either every
reading of a run can be drawn, or the first one cannot. Validation keeps the spreads from being negative and does not
bound them otherwise: what it accepts can be drawn from when both spreads are at most the widest one, and else there
is no reading at all.
-/

namespace HubDevice.Simulator

open HubDevice.Random

/-- The next `n` readings, with the simulator after them; nothing when one of them cannot be drawn. -/
def readings? : Nat → Simulator → Option (List Reading × Simulator)
  | 0, s => some ([], s)
  | n + 1, s => do
    let (r, s) ← s.next?
    let (rs, s) ← readings? n s
    return (r :: rs, s)

/-- Whether both spreads can be drawn from. -/
def Drawable (t : Config.Telemetry) : Prop :=
  drawable t.temperatureSpread = true ∧ drawable t.humiditySpread = true

/-! ## One reading -/

variable {t : Config.Telemetry}

theorem next?_of_drawable (h : Drawable t) (source : Source) :
    ∃ r source', next? ⟨t, source⟩ = some (r, ⟨t, source'⟩) := by
  obtain ⟨x, source₁, drawnFirst⟩ := symmetric?_of_drawable h.1 source
  obtain ⟨y, source₂, drawnSecond⟩ := symmetric?_of_drawable h.2 source₁
  simp only [next?, drawnFirst, drawnSecond, Option.bind_eq_bind, Option.bind_some]
  exact ⟨_, _, rfl⟩

theorem next?_of_not_drawable (h : ¬Drawable t) (source : Source) : next? ⟨t, source⟩ = none := by
  by_cases first : drawable t.temperatureSpread = true
  · have second : ¬drawable t.humiditySpread = true := fun second => h ⟨first, second⟩
    obtain ⟨x, source₁, drawnFirst⟩ := symmetric?_of_drawable first source
    simp only [next?, drawnFirst, symmetric?_of_not_drawable second, Option.bind_eq_bind, Option.bind_some,
      Option.bind_none]
  · simp only [next?, symmetric?_of_not_drawable first, Option.bind_eq_bind, Option.bind_none]

/-! ## A run -/

theorem readings?_of_drawable (h : Drawable t) (source : Source) (n : Nat) :
    ∃ rs source', readings? n ⟨t, source⟩ = some (rs, ⟨t, source'⟩) ∧ rs.length = n := by
  induction n generalizing source with
  | zero => exact ⟨[], source, rfl, rfl⟩
  | succ n ih =>
    obtain ⟨r, source₁, first⟩ := next?_of_drawable h source
    obtain ⟨rs, source₂, rest, length⟩ := ih source₁
    refine ⟨r :: rs, source₂, ?_, congrArg (· + 1) length⟩
    simp only [readings?, first, rest, Option.bind_eq_bind, Option.bind_some]
    rfl

theorem readings?_of_not_drawable (h : ¬Drawable t) (source : Source) (n : Nat) :
    readings? (n + 1) ⟨t, source⟩ = none := by
  simp only [readings?, next?_of_not_drawable h, Option.bind_eq_bind, Option.bind_none]

/-! ## Validated settings -/

theorem nonnegative_of_valid (valid : t.failures = []) : ¬t.temperatureSpread < 0 ∧ ¬t.humiditySpread < 0 := by
  simp only [Config.Telemetry.failures, Config.checkSection_eq_nil, List.append_eq_nil_iff, Config.checkBounds,
    Config.check_eq_nil] at valid
  obtain ⟨⟨⟨⟨-, temperature⟩, -⟩, humidity⟩, -⟩ := valid
  constructor
  · simpa using temperature
  · simpa using humidity

theorem drawable_of_valid (valid : t.failures = []) :
    Drawable t ↔ t.temperatureSpread ≤ widest ∧ t.humiditySpread ≤ widest := by
  obtain ⟨temperature, humidity⟩ := nonnegative_of_valid valid
  exact and_congr (drawable_iff temperature) (drawable_iff humidity)

/-- From validated settings any number of readings can be drawn, if no spread is wider than the widest one, and
else not a single one. -/
theorem readings_drawn_iff (valid : t.failures = []) (source : Source) (n : Nat) :
    (∃ rs s, readings? n ⟨t, source⟩ = some (rs, s) ∧ rs.length = n) ↔
      n = 0 ∨ t.temperatureSpread ≤ widest ∧ t.humiditySpread ≤ widest := by
  rw [← drawable_of_valid valid]
  constructor
  · rintro ⟨rs, s, drawn, -⟩
    by_cases h : Drawable t
    · exact .inr h
    · left
      cases n with
      | zero => rfl
      | succ n => simp [readings?_of_not_drawable h] at drawn
  · rintro (rfl | h)
    · exact ⟨[], ⟨t, source⟩, rfl, rfl⟩
    · obtain ⟨rs, source', drawn, length⟩ := readings?_of_drawable h source n
      exact ⟨rs, ⟨t, source'⟩, drawn, length⟩

/-- Settings with the widest spreads. -/
def widely : Config.Telemetry := { temperatureSpread := widest, humiditySpread := widest }

theorem readings_drawn_widely : widely.failures = [] ∧
    ∃ rs s, readings? 1000 (ofSeed widely 42) = some (rs, s) ∧ rs.length = 1000 := by
  have valid : widely.failures = [] := by decide +kernel
  have narrow : widely.temperatureSpread ≤ widest ∧ widely.humiditySpread ≤ widest := by decide +kernel
  exact ⟨valid, (readings_drawn_iff valid _ 1000).mpr (.inr narrow)⟩

/-- A spread of `1e308` is valid, and nothing can be drawn from it. -/
theorem valid_undrawable : ({ temperatureSpread := 1e308 } : Config.Telemetry).failures = [] ∧
    readings? 1 (ofSeed { temperatureSpread := 1e308 } 7) = none := by
  have wide : ¬Drawable { temperatureSpread := 1e308 } := by
    rw [Drawable]
    decide +kernel
  exact ⟨by decide +kernel, readings?_of_not_drawable wide _ 0⟩

end HubDevice.Simulator
