set_option autoImplicit false

/-! # Time

Instants and durations are counted in nanoseconds. Timers go off at whole milliseconds only: a
deadline between two of them takes effect at the later one.
-/

namespace TabPilot

abbrev Duration : Type := Nat

/-- A point in time, in nanoseconds since the start. -/
abbrev Instant : Type := Nat

def nanosPerMilli : Nat := 1000000

def Duration.ofMillis (ms : Nat) : Duration := ms * nanosPerMilli

def Duration.millis (d : Duration) : Nat := d / nanosPerMilli

/-- When a timer set for an instant goes off: at the first whole millisecond from then on. -/
def Instant.tick (t : Instant) : Instant :=
  (t + (nanosPerMilli - 1)) / nanosPerMilli * nanosPerMilli

theorem Instant.le_tick (t : Instant) : t ≤ t.tick := by
  unfold Instant.tick nanosPerMilli
  grind

theorem Instant.tick_le_tick {t u : Instant} (h : t ≤ u) : t.tick ≤ u.tick :=
  Nat.mul_le_mul_right _ (Nat.div_le_div_right (Nat.add_le_add_right h _))

/-- No whole millisecond from an instant on is earlier than its tick. -/
theorem Instant.tick_le {t u : Instant} (h : t ≤ u) (whole : nanosPerMilli ∣ u) : t.tick ≤ u := by
  obtain ⟨k, rfl⟩ := whole
  unfold Instant.tick nanosPerMilli at *
  grind

end TabPilot
