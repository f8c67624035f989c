/-!
# Instants and durations

Time is counted in nanoseconds. The clock shows a count of 63 bits, so
there is a **last instant**, and an instant beyond it never comes: adding
a duration to the clock yields an instant only when the sum is one the
clock can show. Since `none` also stands for "no limit was asked for", an
optional instant reads the same either way – as a moment that may never
come.

Instants are integers and not machine words. The sums below stay within
the clock's range because `Instant.after?` asks first, not because a word
would wrap; a negative duration leads into the past, and there is room for
it below zero.
-/

namespace AdvisoryStore

/-- **A reading of the clock**, in nanoseconds. -/
abbrev Instant := Int

/-- **A length of time**, in nanoseconds; a negative one leads into the past. -/
abbrev Duration := Int

/-- The last instant the clock can show: the greatest count of 63 bits. -/
def Instant.last : Instant := 0x7fffffffffffffff

/-- **The instant a duration after `now`**, absent when the clock cannot
show it. The comparison subtracts on the side where the difference is in
range, so that the sum is formed only once it is known to be. -/
def Instant.after? (now : Instant) (d : Duration) : Option Instant :=
  if 0 < d ∧ Instant.last - now < d then none else some (now + d)

/-- **Adding a duration gives the sum, or nothing if the clock cannot show
it.** -/
theorem Instant.after?_eq_some_iff {now t : Instant} (le : now ≤ Instant.last) (d : Duration) :
    now.after? d = some t ↔ t = now + d ∧ t ≤ Instant.last := by
  unfold Instant.after?
  split <;> grind

/-- The earlier of two moments, either of which may never come. -/
def sooner : Option Instant → Option Instant → Option Instant
  | none, b => b
  | a, none => a
  | some a, some b => some (min a b)

/-- **The first instant after `now` at which a moment is to be looked at.**
A moment that has come already is looked at one nanosecond on, and at the
last instant there is no such thing as later. -/
def upcoming (now : Instant) : Option Instant → Option Instant
  | none => none
  | some t => if now < t then some t else if now < Instant.last then some (now + 1) else none

/-- What is to be looked at lies ahead. -/
theorem lt_of_upcoming {now t : Instant} {moment : Option Instant}
    (h : upcoming now moment = some t) : now < t := by
  unfold upcoming at h
  split at h <;> grind

/-- Whether a moment that may never come has come. -/
def reached (now : Instant) : Option Instant → Bool
  | none => false
  | some t => t ≤ now

namespace Duration

/-- Nanoseconds in a millisecond. -/
def perMillisecond : Nat := 1000000

/-- A number of milliseconds. -/
def milliseconds (n : Nat) : Duration := (n * perMillisecond : Nat)

/-- A number of seconds. -/
def seconds (n : Nat) : Duration := milliseconds (1000 * n)

/-- **Whole milliseconds left**, counted toward zero and never fewer than none. -/
def wholeMilliseconds (d : Duration) : Nat := (d.tdiv perMillisecond).toNat

end Duration

end AdvisoryStore
