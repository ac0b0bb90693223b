import Mathlib.Data.List.Basic
import ScanService.RetryBudget
/-! What a sequence of failures is met with. The budget knows of the past which categories have
failed that a retry is granted for, and no more: a failure is met by its category and by whether one
of the same category went before it, whatever failed in between. So a category is met as though it
were alone, and no retry is granted twice. -/
namespace ScanService

/-! ### The table -/

namespace Category

def onFirst : Category → Decision
  | transport => .substituteEgress
  | credential => .banIdentity
  | transientProtocol => .retryQuery
  | _ => .giveUp

def onRepeat : Category → Decision
  | transport => .killEgress
  | credential => .banIdentity
  | _ => .giveUp

def afterOthers (k : Category) (before : List Category) :
    Decision := if k ∈ before then k.onRepeat else k.onFirst

variable {j k : Category} {before : List Category}

theorem afterOthers_congr {before' : List Category} (h : k ∈ before ↔ k ∈ before') :
    k.afterOthers before = k.afterOthers before' := by
  simp only [afterOthers,h]

theorem retries_onRepeat (k : Category) : k.onRepeat.retries = false := by
  cases k <;> rfl

theorem onFirst_inj (hk : k.onFirst.retries = true) : j.onFirst = k.onFirst ↔ j = k := by
  cases j <;> cases k <;> first | decide | exact absurd hk (by decide)

theorem afterOthers_eq_iff (hk : k.onFirst.retries = true) :
    j.afterOthers before = k.onFirst ↔ j = k ∧ k ∉ before := by
  by_cases hj : j ∈ before
  · have hne : j.onRepeat ≠ k.onFirst := fun he => by simp [← he,retries_onRepeat] at hk
    have hn : ¬ (j = k ∧ k ∉ before) := fun ⟨he,hk⟩ => hk (he ▸ hj)
    simp only [afterOthers,if_pos hj,hne,hn]
  · rw [afterOthers,if_neg hj,onFirst_inj hk]
    exact ⟨fun he => ⟨he,he ▸ hj⟩,fun h => h.1⟩

end Category

namespace RetryBudget

open Category (afterOthers)

variable {k : Category} {before cs : List Category}

/-! ### The budget and the past -/

def afterAll (before : List Category) : RetryBudget where
  transportSpent := before.contains .transport
  transientSpent := before.contains .transientProtocol

theorem afterAll_nil : afterAll [] = full := rfl

/-- One more failure is met as the past demands, and joins it. -/
theorem decide_afterAll (before : List Category) (k : Category) :
    (afterAll before).decide k = (k.afterOthers before,afterAll (before ++ [k])) := by
  by_cases h : k ∈ before
  all_goals cases k <;> simp [decide,afterAll,afterOthers,Category.onFirst,Category.onRepeat,h]

theorem decisions_cons (before : List Category) (k : Category) (cs : List Category) :
    (afterAll before).decisions (k :: cs) = k.afterOthers
      before :: (afterAll (before ++ [k])).decisions cs := by
  rw [decisions,decide_afterAll]

theorem length_decisions (b : RetryBudget) (cs : List Category) :
    (b.decisions cs).length = cs.length := by
  induction cs generalizing b with
  | nil => rfl
  | cons k cs ih => simp only [decisions,List.length_cons,ih]

/-- Wherever a failure stands in a sequence, it is met by its category and by what went before. -/
theorem decisions_getElem? (before mid : List Category) (k : Category) (later : List Category) :
    ((afterAll before).decisions (mid ++ k :: later))[mid.length]? = some
      (k.afterOthers (before ++ mid)) := by
  induction mid generalizing before with
  | nil =>
    rw [List.nil_append,decisions_cons,List.append_nil]
    rfl
  | cons j mid ih =>
    rw [List.cons_append,decisions_cons,List.length_cons,List.getElem?_cons_succ,ih,
      List.append_assoc]
    rfl

theorem decisions_congr {before' : List Category} (h : ∀ k ∈ cs, k ∈ before ↔ k ∈ before') :
    (afterAll before).decisions cs = (afterAll before').decisions cs := by
  induction cs generalizing before before' with
  | nil => rfl
  | cons j cs ih =>
    have hj : ∀ k ∈ cs, k ∈ before ++ [j] ↔ k ∈ before' ++ [j] := fun k hk => by
      simp only [List.mem_append,h k (List.mem_cons_of_mem j hk)]
    rw [decisions_cons,decisions_cons,ih hj,Category.afterOthers_congr (h j List.mem_cons_self)]

/-! ### One category -/

def decisionsOn (b : RetryBudget) (k : Category) (cs : List Category) : List Decision :=
  ((cs.zip (b.decisions cs)).filter fun p => p.1 = k).map Prod.snd

theorem decisionsOn_cons (before : List Category) (k j : Category) (cs : List Category) :
    (afterAll before).decisionsOn k (j :: cs) =
      (if j = k then [j.afterOthers before] else []) ++ (afterAll (before ++ [j])).decisionsOn k
        cs := by
  by_cases hj : j = k <;> simp [decisionsOn,decisions_cons,hj]

theorem decisionsOn_eq (before : List Category) (k : Category) (cs : List Category) :
    (afterAll before).decisionsOn k cs = (afterAll before).decisions
      (cs.filter fun j => j = k) := by
  induction cs generalizing before with
  | nil => rfl
  | cons j cs ih =>
    rw [decisionsOn_cons,ih]
    by_cases hj : j = k
    · rw [if_pos hj,List.filter_cons_of_pos (by simpa using hj),decisions_cons]
      rfl
    -- a failure of another category joins the past, but those of this one are met without regard to
    -- it
    · rw [if_neg hj,List.filter_cons_of_neg (by simpa using hj),List.nil_append]
      refine decisions_congr fun i hi => ?_
      have hik : i = k := by simpa using List.of_mem_filter hi
      simp [hik,Ne.symm hj]

theorem decisions_replicate_of_mem (hk : k ∈ before) (n : ℕ) :
    (afterAll before).decisions (List.replicate n k) = List.replicate n k.onRepeat := by
  induction n generalizing before with
  | zero => rfl
  | succ n ih =>
    rw [List.replicate_succ,decisions_cons,ih (List.mem_append_left [k] hk),afterOthers,if_pos hk]
    rfl

/-- The failures of a category are met by the first column of the table once and then by the
second. -/
theorem decisionsOn_of_mem (hk : k ∈ cs) :
    full.decisionsOn k cs = k.onFirst :: List.replicate (cs.count k - 1) k.onRepeat := by
  obtain ⟨n,hn⟩ := Nat.exists_eq_add_one.mpr (List.count_pos_iff.mpr hk)
  rw [← afterAll_nil,decisionsOn_eq,List.filter_eq,hn,List.replicate_succ,decisions_cons,
    decisions_replicate_of_mem (by simp)]
  rfl

theorem count_decisions (hk : k.onFirst.retries = true) (before cs : List Category) :
    ((afterAll before).decisions cs).count k.onFirst = if k ∈ cs ∧ k ∉ before then 1 else 0 := by
  induction cs generalizing before with
  | nil => simp [decisions]
  | cons j cs ih =>
    rw [decisions_cons,List.count_cons,ih]
    simp only [beq_iff_eq,Category.afterOthers_eq_iff hk]
    by_cases hj : j = k
    · simp [hj]
    · simp [hj,Ne.symm hj]

theorem count_decisions_full (hk : k.onFirst.retries = true) (cs : List Category) :
    (full.decisions cs).count k.onFirst = if k ∈ cs then 1 else 0 := by
  rw [← afterAll_nil,count_decisions hk]
  simp only [List.not_mem_nil,not_false_eq_true,and_true]

/-! ### Altogether -/

/-- Two sequences that bring the failures of each category in the same order, whatever stands
between them. -/
def Interleaved (cs ds : List Category) :
    Prop := ∀ k, (cs.filter fun j => j = k) = ds.filter fun j => j = k

/-- A sequence of failures is met by the table: each by its own category and by whether one of the
same category went before it; and one that brings the same failures of each category in other places
is met alike. -/
structure MetByTable (cs : List Category) : Prop where
  length : (full.decisions cs).length = cs.length
  each : ∀ before k later, cs = before ++ k :: later → (full.decisions cs)[before.length]? = some
    (if k ∈ before then k.onRepeat else k.onFirst)
  columns : ∀ k ∈ cs, full.decisionsOn k cs = k.onFirst :: List.replicate
    (cs.count k - 1) k.onRepeat
  substitutions : (full.decisions cs).count .substituteEgress = if .transport ∈ cs then 1 else 0
  queries : (full.decisions cs).count .retryQuery = if .transientProtocol ∈ cs then 1 else 0
  alone : ∀ k, full.decisionsOn k cs = full.decisions (cs.filter fun j => j = k)
  interleaved : ∀ ds, Interleaved cs ds → ∀ k, full.decisionsOn k cs = full.decisionsOn k ds

theorem met_by_table (cs : List Category) : MetByTable cs where
  length := length_decisions full cs
  each := by
    rintro before k later rfl
    exact decisions_getElem? [] before k later
  columns _ hk := decisionsOn_of_mem hk
  substitutions := count_decisions_full (k := .transport) rfl cs
  queries := count_decisions_full (k := .transientProtocol) rfl cs
  alone k := decisionsOn_eq [] k cs
  interleaved ds h k := by
    rw [← afterAll_nil,decisionsOn_eq,decisionsOn_eq,h k]

def mishaps : List Category :=
  [.transport,.transientProtocol,.transport,.credential,.transientProtocol]

def mixedMishaps :
    List Category := [.transientProtocol,.credential,.transientProtocol,.transport,.transport]

theorem met_by_table_mishaps : Interleaved mishaps mixedMishaps ∧
    full.decisions mishaps = [.substituteEgress,.retryQuery,.killEgress,.banIdentity,.giveUp] ∧
    ∀ k, full.decisionsOn k mishaps = full.decisionsOn k mixedMishaps := by
  have h : Interleaved mishaps mixedMishaps := by
    intro k
    cases k <;> rfl
  exact ⟨h,rfl,(met_by_table mishaps).interleaved mixedMishaps h⟩

end RetryBudget

end ScanService
