import Mathlib.Data.List.Basic
import Mathlib.Data.List.Induction

/-!
# Keys by recency of access

From a list of accesses, the earliest first, `recency` makes the list of the distinct keys, the most
recently accessed first. The reuse distance of a key is the number of distinct other keys accessed
since it was accessed last, and that is its position in the list.
-/

namespace FrameKeep

variable {κ : Type} [DecidableEq κ]

/-- The distinct keys of a list of accesses, the most recently accessed first. -/
def recency (accessed : List κ) : List κ := accessed.reverse.eraseDups

/-- The number of distinct other keys accessed since the last access to a key, if there was one. -/
def reuseDistance (accessed : List κ) (key : κ) : Option Nat :=
  if key ∈ accessed then some (accessed.reverse.takeWhile (· ≠ key)).eraseDups.length else none

/-- Which keys are kept may be decided before or after repetitions are dropped. -/
theorem eraseDups_filter (keep : κ → Bool) (keys : List κ) :
    (keys.filter keep).eraseDups = keys.eraseDups.filter keep := by
  match keys with
  | [] => rfl
  | key :: rest =>
    have ih := eraseDups_filter keep (rest.filter (!· == key))
    rw [List.filter_filter] at ih
    by_cases kept : keep key
    · rw [List.filter_cons_of_pos kept, List.eraseDups_cons, List.eraseDups_cons,
        List.filter_cons_of_pos kept, List.filter_filter, ← ih]
      simp only [Bool.and_comm]
    · have apart : ∀ other ∈ rest, (keep other && !other == key) = keep other := by
        intro other _
        by_cases same : other = key
        · subst same
          simp [kept]
        · simp [same]
      rw [List.filter_cons_of_neg kept, List.eraseDups_cons, List.filter_cons_of_neg kept, ← ih,
        List.filter_congr apart]
termination_by keys.length
decreasing_by exact Nat.lt_succ_of_le (List.length_filter_le ..)

@[simp] theorem mem_recency {accessed : List κ} {key : κ} :
    key ∈ recency accessed ↔ key ∈ accessed := by
  simp [recency]

/-- An access puts its key first and leaves the others in their order. -/
theorem recency_concat (accessed : List κ) (key : κ) :
    recency (accessed ++ [key]) = key :: (recency accessed).filter (· ≠ key) := by
  simp only [recency, List.reverse_append, List.reverse_singleton, List.singleton_append,
    List.eraseDups_cons, eraseDups_filter]
  simp [beq_eq_decide]

/-- By recency each key stands once. -/
theorem recency_nodup (accessed : List κ) : (recency accessed).Nodup := by
  induction accessed using List.reverseRecOn with
  | nil => exact List.nodup_nil
  | append_singleton earlier key ih =>
    rw [recency_concat]
    exact List.nodup_cons.mpr ⟨by simp, ih.filter _⟩

/-- Only a key that was accessed has a reuse distance. -/
theorem mem_of_reuseDistance_eq_some {accessed : List κ} {key : κ} {distance : Nat}
    (found : reuseDistance accessed key = some distance) : key ∈ accessed := by
  unfold reuseDistance at found
  split at found
  next member => exact member
  next => simp at found

/-- The reuse distance of a key is its position by recency. -/
theorem reuseDistance_eq_idxOf (accessed : List κ) (key : κ) :
    reuseDistance accessed key =
      if key ∈ accessed then some ((recency accessed).idxOf key) else none := by
  unfold reuseDistance
  split
  next member =>
    obtain ⟨later, earlier, first, fresh⟩ :=
      List.eq_append_cons_of_mem (List.mem_reverse.mpr member)
    have since : accessed.reverse.takeWhile (· ≠ key) = later := by
      rw [first, List.takeWhile_append_of_pos, List.takeWhile_cons_of_neg (by simp),
        List.append_nil]
      intro other inLater
      have apart : other ≠ key := fun same => fresh (same ▸ inLater)
      simpa using apart
    have recent : recency accessed =
        later.eraseDups ++ key :: ((earlier.removeAll later).filter (· ≠ key)).eraseDups := by
      rw [recency, first, List.eraseDups_append, List.cons_removeAll]
      simp [fresh, List.eraseDups_cons, beq_eq_decide]
    rw [since, recent, List.idxOf_append_of_notMem (by simpa using fresh), List.idxOf_cons_self,
      Nat.add_zero]
  next => rfl

example : recency [1, 2, 1, 3] = [3, 1, 2] ∧ reuseDistance [1, 2, 1, 3] 2 = some 2 := by decide

end FrameKeep
