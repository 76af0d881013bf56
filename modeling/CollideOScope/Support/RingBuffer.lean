import Mathlib.Data.List.Basic
import Mathlib.Data.List.Induction
import Mathlib.Data.Nat.ModEq

/-!
# Ring buffers

A fixed array of slots written round and round keeps the last values written.
The array, the next slot to write and the number of slots in use are separate;
the invariant `Holds` ties them to the whole sequence of writes, and reading
the buffer from its oldest slot gives the last writes in order.
-/

namespace CollideOScope

open List Nat

universe u

/-- An array of slots, the next one to write and how many are in use. -/
structure RingBuffer (α : Type u) where
  slots : List (Option α)
  (next count : ℕ)

namespace RingBuffer

variable {α : Type u} {ring : RingBuffer α} {capacity : ℕ} {values : List α}

def empty (capacity : ℕ) : RingBuffer α where
  slots := replicate capacity none
  next := 0
  count := 0

/-- Write the next slot, which is the oldest one when all are in use. -/
def push (ring : RingBuffer α) (value : α) : RingBuffer α where
  slots := ring.slots.set ring.next (some value)
  next := (ring.next + 1) % ring.slots.length
  count := min (ring.count + 1) ring.slots.length

def oldest (ring : RingBuffer α) : ℕ := if ring.count = ring.slots.length then ring.next else 0

/-- The values of the slots in use, from the oldest. -/
def toList (ring : RingBuffer α) : List α :=
  (range ring.count).filterMap fun offset =>
    (ring.slots[(ring.oldest + offset) % ring.slots.length]?).join

/-- The buffer after writing the given values: each of the last `capacity` of
them stands in the slot of its index modulo the capacity. -/
structure Holds (ring : RingBuffer α) (capacity : ℕ) (values : List α) : Prop where
  length : ring.slots.length = capacity
  next : ring.next = values.length % capacity
  count : ring.count = min values.length capacity
  slot : ∀ j < values.length, values.length ≤ j + capacity →
    ring.slots[j % capacity]? = some values[j]?

theorem holds_empty (capacity : ℕ) : (empty capacity : RingBuffer α).Holds capacity [] where
  length := length_replicate
  next := (Nat.zero_mod capacity).symm
  count := (Nat.zero_min capacity).symm
  slot := fun j hj => absurd hj (Nat.not_lt_zero j)

theorem mod_ne_mod_of_lt {j n capacity : ℕ} (hlt : j < n)
    (hnear : n < j + capacity) : j % capacity ≠ n % capacity := by
  intro heq
  have hdvd : capacity ∣ n - j := (modEq_iff_dvd' hlt.le).mp heq
  have hle : capacity ≤ n - j := le_of_dvd (by omega) hdvd
  omega

theorem Holds.push (h : ring.Holds capacity values) (hcap : 0 < capacity)
    (value : α) : (ring.push value).Holds capacity (values ++ [value]) := by
  obtain ⟨hlen, hnext, hcnt, hslot⟩ := h
  refine ⟨?_, ?_, ?_, ?_⟩
  · simpa [RingBuffer.push] using hlen
  · simp [RingBuffer.push, hnext, hlen, add_mod]
  · simp only [RingBuffer.push, hcnt, hlen, length_append, length_singleton]
    omega
  · intro j hj hnear
    rw [length_append, length_singleton] at hj hnear
    simp only [RingBuffer.push, hnext]
    rcases Nat.lt_succ_iff_lt_or_eq.mp hj with hold | rfl
    · have hne : values.length % capacity ≠ j % capacity := (mod_ne_mod_of_lt hold (by omega)).symm
      rw [getElem?_set_ne hne, hslot j hold (by omega), getElem?_append_left hold]
    · have hbd : values.length % capacity < ring.slots.length := by
        rw [hlen]
        exact mod_lt _ hcap
      rw [getElem?_set_self hbd, getElem?_concat_length]

theorem filterMap_range_getElem? (values : List α) :
    (range values.length).filterMap (fun i => values[i]?) = values := by
  induction values using reverseRecOn with
  | nil => simp
  | append_singleton values value ih =>
    have hfront : (range values.length).filterMap (fun i => (values ++ [value])[i]?) = values := by
      refine Eq.trans (filterMap_congr fun i hi => ?_) ih
      exact getElem?_append_left (mem_range.mp hi)
    rw [length_append, length_singleton, range_succ, filterMap_append, hfront]
    simp

theorem Holds.oldest_add_mod (h : ring.Holds capacity values) (offset : ℕ) :
    (ring.oldest + offset) % capacity = (values.length - capacity + offset) % capacity := by
  obtain ⟨hlen, hnext, hcnt, -⟩ := h
  unfold oldest
  rw [hcnt, hlen]
  split
  · next hfull =>
      have hle : capacity ≤ values.length := by omega
      have hturn : values.length = values.length - capacity + capacity := by omega
      rw [hnext, mod_add_mod]
      conv_lhs => rw [hturn, add_right_comm, add_mod_right]
  · next hpart =>
      have hzero : values.length - capacity = 0 := by omega
      rw [hzero]

theorem Holds.toList_eq (h : ring.Holds capacity values) (hcap : 0 < capacity) :
    ring.toList = values.drop (values.length - capacity) := by
  have hcnt : ring.count = (values.drop (values.length - capacity)).length := by
    rw [h.count, length_drop]
    omega
  unfold toList
  rw [hcnt]
  refine Eq.trans (filterMap_congr fun offset hoff => ?_) (filterMap_range_getElem? _)
  have hlt := mem_range.mp hoff
  rw [length_drop] at hlt
  rw [h.length, h.oldest_add_mod, h.slot _ (by omega) (by omega), getElem?_drop]
  rfl

variable {age : ℕ}

/-- The slot `age` before the next one holds what was written `age` writes
ago. -/
theorem Holds.slot_of_age (h : ring.Holds capacity values) (hpos : 0 < age)
    (hlen : age ≤ values.length) (hcap : age ≤ capacity) :
    ring.slots[(ring.next + capacity - age) % capacity]? = some values[values.length - age]? := by
  have hslot : (ring.next + capacity - age) % capacity = (values.length - age) % capacity := by
    have hturn : values.length + (capacity - age) = values.length - age + capacity := by omega
    rw [h.next, Nat.add_sub_assoc hcap, Nat.mod_add_mod, hturn, add_mod_right]
  rw [hslot]
  exact h.slot _ (by omega) (by omega)

theorem Holds.age_ne_next (h : ring.Holds capacity values) (hpos : 0 < age)
    (hcap : age < capacity) :
    (ring.next + capacity - age) % capacity ≠ ring.next := by
  have hnext : ring.next % capacity = ring.next := by rw [h.next, mod_mod]
  have hne : (ring.next + capacity - age) % capacity ≠ (ring.next + capacity) % capacity :=
    mod_ne_mod_of_lt (by omega) (by omega)
  rwa [add_mod_right, hnext] at hne

end RingBuffer

end CollideOScope
