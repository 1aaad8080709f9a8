import Mathlib.Data.List.DropRight
import Mathlib.Data.List.Nodup

/-!
# Least recently served first

A list keeps those who wait for service in the order in which they were served last: whoever is served
goes to its end. `lastAt` reads off a history when an event happened last, and `Ranked` says that a
list is ordered by such times. Serving keeps a list ranked (`Ranked.serve`), so the first of a ranked
list is one whose last service is the longest ago.
-/

namespace Lib.Recency

variable {α ο : Type}

/-- How much of a history there is up to the last event, that event included: 0 if there was none. -/
def lastAt (event : ο → Bool) (history : List ο) : Nat :=
  (history.rdropWhile fun o => !event o).length

theorem lastAt_le (event : ο → Bool) (history : List ο) : lastAt event history ≤ history.length :=
  (List.rdropWhile_prefix _ history).length_le

/-- An event is the last one so far. -/
theorem lastAt_event {event : ο → Bool} {o : ο} (happens : event o = true) (history : List ο) :
    lastAt event (history ++ [o]) = history.length + 1 := by
  rw [lastAt, List.rdropWhile_concat_neg _ _ _ (by simp [happens])]
  simp

/-- Whatever is no event leaves the last one the last. -/
theorem lastAt_other {event : ο → Bool} {o : ο} (other : event o = false) (history : List ο) :
    lastAt event (history ++ [o]) = lastAt event history := by
  rw [lastAt, List.rdropWhile_concat_pos _ _ _ (by simp [other]), lastAt]

/-- Nobody is listed twice, and whoever comes earlier was served earlier. -/
structure Ranked (stamp : α → Nat) (order : List α) : Prop where
  once : order.Nodup
  sorted : order.Pairwise fun a b => stamp a ≤ stamp b

variable {stamp stamp' : α → Nat} {order before after : List α} {a : α}

/-- Only the times of those listed matter. -/
theorem Ranked.congr (ranked : Ranked stamp order) (same : ∀ b ∈ order, stamp' b = stamp b) :
    Ranked stamp' order :=
  ⟨ranked.once, ranked.sorted.imp_of_mem fun hb hc le => by rwa [same _ hb, same _ hc]⟩

/-- **Whoever is served goes to the end.** -/
theorem Ranked.serve (ranked : Ranked stamp (before ++ a :: after))
    (others : ∀ b ∈ before ++ after, stamp' b = stamp b)
    (latest : ∀ b ∈ before ++ after, stamp b ≤ stamp' a) :
    Ranked stamp' (before ++ after ++ [a]) := by
  have middle : (before ++ a :: after).Perm (a :: (before ++ after)) := List.perm_middle
  obtain ⟨fresh, once⟩ := List.nodup_cons.mp (middle.nodup_iff.mp ranked.once)
  have sorted : (before ++ after).Pairwise fun b c => stamp b ≤ stamp c :=
    ranked.sorted.sublist (List.Sublist.append_left (List.sublist_cons_self a after) before)
  have rest := Ranked.congr ⟨once, sorted⟩ others
  refine ⟨?_, List.pairwise_append.mpr ⟨rest.sorted, List.pairwise_singleton _ a, ?_⟩⟩
  · exact List.nodup_append_comm.mp (List.nodup_cons.mpr ⟨fresh, once⟩)
  · intro b hb c hc
    rw [List.mem_singleton.mp hc, others b hb]
    exact latest b hb

/-- In a ranked list, what stands at an element or behind it was served no earlier. -/
theorem Ranked.le (ranked : Ranked stamp (before ++ a :: after)) {b : α} (behind : b ∈ a :: after) :
    stamp a ≤ stamp b := by
  rcases List.mem_cons.mp behind with rfl | behind
  · exact Nat.le_refl _
  · exact (List.pairwise_cons.mp (List.pairwise_append.mp ranked.sorted).2.1).1 b behind

end Lib.Recency
