import Mathlib.Data.Multiset.AddSub
import Mathlib.Data.Multiset.MapFold
/-! Lists whose items have distinct keys, and numbers that are given out once. -/
namespace ScanService

section Keys

variable {α κ : Type} [DecidableEq κ] {key : α → κ} {l : List α} {k : κ} {x : α}

theorem find?_eq_none_of_not_mem (h : k ∉ l.map key) : l.find? (fun y => key y = k) = none := by
  apply List.find?_eq_none.mpr
  intro y hy he
  exact h (List.mem_map.mpr ⟨y,hy,by simpa using he⟩)

theorem filter_ne_of_not_mem (h : k ∉ l.map key) : l.filter (fun y => key y ≠ k) = l := by
  apply List.filter_eq_self.mpr
  intro y hy
  simpa using fun he => h (List.mem_map.mpr ⟨y,hy,he⟩)

theorem map_replace_of_not_mem (h : k ∉ l.map key) (c : α) :
    (l.map fun y => if key y = k then c else y) = l := by
  apply (List.map_congr_left ?_).trans (List.map_id l)
  intro y hy
  have hn : key y ≠ k := fun he => h (List.mem_map.mpr ⟨y,hy,he⟩)
  simp [hn]

theorem find?_of_mem (h : (l.map key).Nodup) (hx : x ∈ l) (hk : key x = k) :
    l.find? (fun y => key y = k) = some x := by
  induction l with
  | nil => simp at hx
  | cons y l ih =>
    have hn := List.nodup_cons.mp h
    rcases List.mem_cons.mp hx with rfl | hx
    · simp [hk]
    · have hy : key y ≠ k := fun he => hn.1 (List.mem_map.mpr ⟨x,hx,hk.trans he.symm⟩)
      simpa [List.find?_cons,hy] using ih hn.2 hx

/-- One item has a key that an item has. -/
theorem filter_of_mem (h : (l.map key).Nodup) (hx : x ∈ l) (hk : key x = k) :
    l.filter (fun y => key y = k) = [x] := by
  induction l with
  | nil => simp at hx
  | cons y l ih =>
    have hn := List.nodup_cons.mp h
    rcases List.mem_cons.mp hx with rfl | hx
    · rw [List.filter_cons_of_pos (by simpa using hk),List.filter_eq_nil_iff.mpr]
      intro y hy he
      exact hn.1 (List.mem_map.mpr ⟨y,hy,(of_decide_eq_true he).trans hk.symm⟩)
    · have hy : key y ≠ k := fun he => hn.1 (List.mem_map.mpr ⟨x,hx,hk.trans he.symm⟩)
      rw [List.filter_cons_of_neg (by simpa using hy),ih hn.2 hx]

/-- A list with distinct keys is the item of one key and the others. -/
theorem perm_cons_filter (h : (l.map key).Nodup) (hx : l.find? (fun y => key y = k) = some x) :
    (x :: l.filter fun y => key y ≠ k).Perm l := by
  induction l with
  | nil => simp at hx
  | cons y l ih =>
    have hn := List.nodup_cons.mp h
    by_cases hy : key y = k
    · simp only [List.find?_cons,hy,decide_true,Option.some.injEq] at hx
      subst hx hy
      rw [List.filter_cons_of_neg (by simp),filter_ne_of_not_mem hn.1]
    · simp only [List.find?_cons,hy,decide_false] at hx
      simpa [List.filter_cons,hy] using (List.Perm.swap y x _).trans ((ih hn.2 hx).cons y)

/-- Putting an item in the place of the one of its key. -/
theorem perm_map_replace (h : (l.map key).Nodup) (hx : l.find? (fun y => key y = k) = some x)
    (c : α) : (l.map fun y => if key y = k then c else y).Perm (c :: l.filter fun y =>
      key y ≠ k) := by
  induction l with
  | nil => simp at hx
  | cons y l ih =>
    have hn := List.nodup_cons.mp h
    by_cases hy : key y = k
    · subst hy
      rw [List.filter_cons_of_neg (by simp),filter_ne_of_not_mem hn.1]
      simp [map_replace_of_not_mem hn.1]
    · simp only [List.find?_cons,hy,decide_false] at hx
      simpa [List.filter_cons,hy] using ((ih hn.2 hx).cons y).trans (List.Perm.swap c y _)

end Keys

/-- Numbers that differ from each other and lie below the next one. -/
structure Fresh (numbers : Multiset ℕ) (next : ℕ) : Prop where
  nodup : numbers.Nodup
  lt : ∀ n ∈ numbers, n < next

namespace Fresh

variable {numbers fewer : Multiset ℕ} {next : ℕ}

theorem zero (next : ℕ) : Fresh 0 next := ⟨Multiset.nodup_zero,by simp⟩

theorem of_le (h : Fresh numbers next) (hl : fewer ≤ numbers) : Fresh fewer next :=
  ⟨Multiset.nodup_of_le hl h.nodup,fun n hn => h.lt n (Multiset.mem_of_le hl hn)⟩

theorem succ (h : Fresh numbers next) : Fresh numbers (next + 1) :=
  ⟨h.nodup,fun n hn => Nat.lt_succ_of_lt (h.lt n hn)⟩

theorem cons (h : Fresh numbers next) : Fresh (next ::ₘ numbers) (next + 1) := by
  refine ⟨Multiset.nodup_cons.mpr ⟨fun hm => lt_irrefl next (h.lt next hm),h.nodup⟩,?_⟩
  intro n hn
  rcases Multiset.mem_cons.mp hn with rfl | hn
  · exact Nat.lt_succ_self n
  · exact Nat.lt_succ_of_lt (h.lt n hn)

end Fresh

end ScanService
