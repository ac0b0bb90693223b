import Mathlib.Data.List.Zip
import ScanService.Proofs.StoreCalls
/-! Reconciliation. The use flags say after it exactly what the assignments say, whatever they said
before, and the number that it gives is that of the records it changed. It is one transaction: where
a step of it fails, it has done nothing. -/
namespace ScanService

namespace Table

variable {α : Type} {busy p : α → Bool}

/-- A statement that sets the flag where a test holds, and one that clears it elsewhere: the flag
says what the test says. -/
theorem mark_mark (put : Bool → α → α) (hp : ∀ b x, p (put b x) = p x)
    (hput : ∀ x, put (busy x) x = x) (rows : List α) :
    (rows.map fun x => if busy x ≠ true ∧ p x then put true x else x).map
      (fun x => if busy x ≠ false ∧ !p x then put false x else x) = rows.map fun x =>
      put (p x) x := by
  rw [List.map_map]
  apply List.map_congr_left
  intro x _
  have hx := hput x
  cases hb : busy x <;> cases hc : p x <;> simp_all [Function.comp]

theorem mark_false (put : Bool → α → α) (hput : ∀ x, put (busy x) x = x) (rows : List α) :
    (rows.map fun x => if busy x ≠ false ∧ true then put false x else x) = rows.map
      (put false) := by
  apply List.map_congr_left
  intro x _
  have hx := hput x
  cases hb : busy x <;> simp_all

/-- The two statements together change the records whose flag is not what the test says, each of
them once. -/
theorem changed_mark_mark (busy : α → Bool) {put : Bool → α → α} (hp : ∀ b x, p (put b x) = p x)
    (rows : List α) : (rows.filter fun x => decide (busy x ≠ true) && p x).length +
        ((rows.map fun x => if busy x ≠ true ∧ p x then put true x else x).filter
          fun x => decide (busy x ≠ false) && !p x).length =
      rows.countP fun x => busy x != p x := by
  induction rows with
  | nil => rfl
  | cons x rows ih =>
    simp only [List.map_cons,List.filter_cons,List.countP_cons,← ih]
    cases hb : busy x <;> cases hc : p x <;> simp [hb,hc,hp] <;> omega

theorem changed_mark_false (busy : α → Bool) (rows : List α) :
    (rows.filter fun x => decide (busy x ≠ false) && true).length = rows.countP fun x =>
      busy x != false := by
  rw [List.countP_eq_length_filter]
  congr 1
  apply List.filter_congr
  intro x _
  cases busy x <;> rfl

theorem countP_zip_map {β : Type} {d : α → β → Bool} {g : α → β} (rows : List α) :
    ((rows.zip (rows.map g)).countP fun q => d q.1 q.2) = rows.countP fun x => d x (g x) := by
  induction rows with
  | nil => rfl
  | cons x rows ih => simp [List.countP_cons,ih]

end Table

namespace Roster

variable {assigned assigned' : List StatusEntry} {r r' r'' : Roster} {n n' : ℕ}

theorem reconcile_identities (r : Roster) (assigned : List StatusEntry) :
    (r.reconcile assigned).1.identities =
      r.identities.map fun i => { i with used := (assigned.map (·.account)).contains i.name } := by
  let put (used : Bool) (i : Identity) : Identity := { i with used }
  cases assigned with
  | nil => exact Table.mark_false put (fun _ => rfl) r.identities
  | cons a assigned =>
    let named (i : Identity) : Bool := ((a :: assigned).map (·.account)).contains i.name
    exact Table.mark_mark (p := named) put (fun _ _ => rfl) (fun _ => rfl) r.identities

theorem reconcile_egresses (r : Roster) (assigned : List StatusEntry) :
    (r.reconcile assigned).1.egresses =
      r.egresses.map fun e => { e with inUse := (assigned.map (·.egress)).contains e.id } := by
  let put (inUse : Bool) (e : Egress) : Egress := { e with inUse }
  cases assigned with
  | nil => exact Table.mark_false put (fun _ => rfl) r.egresses
  | cons a assigned =>
    let listed (e : Egress) : Bool := ((a :: assigned).map (·.egress)).contains e.id
    exact Table.mark_mark (p := listed) put (fun _ _ => rfl) (fun _ => rfl) r.egresses

/-- To reconcile with nothing is to clear the use flags. -/
theorem reconcile_nil (r : Roster) : (r.reconcile []).1 = r.bare := by
  have hi : (r.reconcile []).1.identities = r.bare.identities := r.reconcile_identities []
  have he : (r.reconcile []).1.egresses = r.bare.egresses := r.reconcile_egresses []
  exact congrArg₂ Roster.mk hi he

theorem unused_bare (r : Roster) : r.bare.Unused := by
  simp [Unused,bare]

theorem reconcile_identityTaken {r : Roster} {assigned : List StatusEntry} {name : String}
    (hn : name ∈ assigned.map (·.account)) (hr : ∃ i ∈ r.identities, i.name = name) :
    (r.reconcile assigned).1.IdentityTaken name := by
  unfold IdentityTaken
  rw [reconcile_identities]
  refine ⟨?_,?_⟩
  · obtain ⟨i,hi,he⟩ := hr
    exact ⟨_,List.mem_map.mpr ⟨i,hi,rfl⟩,he⟩
  · intro j hj he
    obtain ⟨i,_,rfl⟩ := List.mem_map.mp hj
    have he' : i.name = name := he
    simpa only [he',List.contains_iff_mem] using hn

theorem reconcile_egressTaken {r : Roster} {assigned : List StatusEntry} {id : Int}
    (hn : id ∈ assigned.map (·.egress)) (hr : ∃ e ∈ r.egresses, e.id = id) :
    (r.reconcile assigned).1.EgressTaken id := by
  unfold EgressTaken
  rw [reconcile_egresses]
  refine ⟨?_,?_⟩
  · obtain ⟨e,hm,he⟩ := hr
    exact ⟨_,List.mem_map.mpr ⟨e,hm,rfl⟩,he⟩
  · intro f hf he
    obtain ⟨e,_,rfl⟩ := List.mem_map.mp hf
    have he' : e.id = id := he
    simpa only [he',List.contains_iff_mem] using hn

def differences (r r' : Roster) : ℕ :=
  ((r.identities.zip r'.identities).countP fun p => p.1.used != p.2.used) +
    (r.egresses.zip r'.egresses).countP fun p => p.1.inUse != p.2.inUse

theorem differences_self (r : Roster) : r.differences r = 0 := by
  have hi := Table.countP_zip_map (d := fun i j : Identity => i.used != j.used)
    (g := id) r.identities
  have he := Table.countP_zip_map (d := fun e f : Egress => e.inUse != f.inUse) (g := id) r.egresses
  rw [List.map_id] at hi he
  simp [differences,hi,he]

/-- The use flags say what the assignments say, nothing else is different from before, and a number
is that of the records whose flag is. -/
structure Reconciled (assigned : List StatusEntry) (r r' : Roster) (n : ℕ) : Prop where
  used : ∀ i ∈ r'.identities, i.used = true ↔ i.name ∈ assigned.map (·.account)
  inUse : ∀ e ∈ r'.egresses, e.inUse = true ↔ e.id ∈ assigned.map (·.egress)
  rest : r'.bare = r.bare
  changed : n = r.differences r'

theorem changed_reconcile (r : Roster) (assigned : List StatusEntry) :
    (r.reconcile assigned).2 = r.differences (r.reconcile assigned).1 := by
  rw [differences,reconcile_identities,reconcile_egresses,
    Table.countP_zip_map (d := fun i j : Identity => i.used != j.used),
    Table.countP_zip_map (d := fun e f : Egress => e.inUse != f.inUse)]
  cases assigned with
  | nil =>
    exact congrArg₂ (· + ·) (Table.changed_mark_false Identity.used r.identities)
      (Table.changed_mark_false Egress.inUse r.egresses)
  | cons a assigned =>
    let named (i : Identity) : Bool := ((a :: assigned).map (·.account)).contains i.name
    let listed (e : Egress) : Bool := ((a :: assigned).map (·.egress)).contains e.id
    let putUsed (used : Bool) (i : Identity) : Identity := { i with used }
    let putInUse (inUse : Bool) (e : Egress) : Egress := { e with inUse }
    have hpi : ∀ b i, named (putUsed b i) = named i := fun _ _ => rfl
    have hpe : ∀ b e, listed (putInUse b e) = listed e := fun _ _ => rfl
    have hi := Table.changed_mark_mark Identity.used hpi r.identities
    have he := Table.changed_mark_mark Egress.inUse hpe r.egresses
    rw [← hi,← he,Nat.add_assoc]
    rfl

theorem reconciled_reconcile (r : Roster) (assigned : List StatusEntry) :
    Reconciled assigned r (r.reconcile assigned).1 (r.reconcile assigned).2 := by
  refine ⟨?_,?_,r.bare_reconcile assigned,r.changed_reconcile assigned⟩
  · rw [reconcile_identities]
    intro i hi
    obtain ⟨j,_,rfl⟩ := List.mem_map.mp hi
    exact List.contains_iff_mem
  · rw [reconcile_egresses]
    intro e he
    obtain ⟨f,_,rfl⟩ := List.mem_map.mp he
    exact List.contains_iff_mem

namespace Reconciled

/-- The records are what is left without the flags, with the flags that the assignments give. -/
theorem identities (h : Reconciled assigned r r' n) : r'.identities =
    r.bare.identities.map fun i =>
    { i with used := decide (i.name ∈ assigned.map (·.account)) } := by
  rw [← h.rest,bare,List.map_map]
  refine (List.map_id _).symm.trans (List.map_congr_left fun i hi => ?_)
  have hu : i.used = decide (i.name ∈ assigned.map (·.account)) :=
    Bool.eq_iff_iff.mpr ((h.used i hi).trans decide_eq_true_iff.symm)
  exact congrArg (fun used => ({ i with used } : Identity)) hu

theorem egresses (h : Reconciled assigned r r' n) : r'.egresses =
    r.bare.egresses.map fun e => { e with inUse := decide (e.id ∈ assigned.map (·.egress)) } := by
  rw [← h.rest,bare,List.map_map]
  refine (List.map_id _).symm.trans (List.map_congr_left fun e he => ?_)
  have hu : e.inUse = decide (e.id ∈ assigned.map (·.egress)) :=
    Bool.eq_iff_iff.mpr ((h.inUse e he).trans decide_eq_true_iff.symm)
  exact congrArg (fun inUse => ({ e with inUse } : Egress)) hu

/-- The outcome is determined by the names and by the ids that are listed. -/
theorem unique (h : Reconciled assigned r r' n) (h' : Reconciled assigned' r r'' n')
    (hn : ∀ name, name ∈ assigned.map (·.account) ↔ name ∈ assigned'.map (·.account))
    (he : ∀ id, id ∈ assigned.map (·.egress) ↔ id ∈ assigned'.map (·.egress)) :
    r'' = r' ∧ n' = n := by
  have hr : r'' = r' := by
    refine congrArg₂ Roster.mk (h'.identities.trans ?_) (h'.egresses.trans ?_)
    · rw [h.identities]
      simp only [hn]
    · rw [h.egresses]
      simp only [he]
  exact ⟨hr,by rw [h'.changed,hr,← h.changed]⟩

theorem refl (h : Reconciled assigned r r' n) : Reconciled assigned r' r' 0 :=
  ⟨h.used,h.inUse,rfl,r'.differences_self.symm⟩

end Reconciled

end Roster

namespace Store

open Roster

variable {s t : Store} {assigned : List StatusEntry} {fails : ℕ → Option StoreFailure}

theorem reconcile_done {n : ℕ} (h : s.reconcile assigned fails = (t,.ok n)) :
    Reconciled assigned s.roster t.roster n := by
  have hr := onRoster_ok h
  rcases transaction_cases fails (reconciliation assigned) s.roster with ⟨_,ht⟩ | ⟨_,_,e,_,ht⟩
  · rw [ht,Prod.mk.injEq,Except.ok.injEq] at hr
    rw [← hr.1,← hr.2]
    exact s.roster.reconciled_reconcile assigned
  · simp [ht] at hr

theorem reconcile_undone {e : StoreFailure} (h : s.reconcile assigned fails = (t,.error e)) :
    t.roster = s.roster := by
  rcases onRoster_error h with hr | hr
  · rcases transaction_cases fails (reconciliation assigned) s.roster with ⟨_,ht⟩ | ⟨_,_,_,_,ht⟩
    · simp [ht] at hr
    · rw [ht,Prod.mk.injEq] at hr
      exact hr.1.symm
  · exact hr.1

theorem objects_of_reconcile {x : Except StoreFailure ℕ} (h : s.reconcile assigned fails = (t,x)) :
    t.objects = s.objects := by
  have ho : (s.reconcile assigned fails).1.objects = s.objects := s.objects_onRoster _ _
  rwa [h] at ho

/-- A reconciliation is exact: done, it leaves the flags that the assignments give and counts what
it changed; not done, it leaves all as it was. It is done unless the store refuses the call or a
step of it fails. The names and the ids that are listed determine what is done, so to do it again is
to do nothing. -/
structure ReconcilesExactly (s : Store) (assigned : List StatusEntry)
    (fails : ℕ → Option StoreFailure) : Prop where
  done : ∀ t n, s.reconcile assigned fails = (t,.ok n) →
    Reconciled assigned s.roster t.roster n ∧ t.objects = s.objects
  undone : ∀ t e, s.reconcile assigned fails = (t,.error e) → t.roster = s.roster ∧
    t.objects = s.objects
  succeeds : s.Accepts .reconcile → (∀ k ≤ (reconciliation assigned).length, fails k = none) →
    ∃ t n, s.reconcile assigned fails = (t,.ok n)
  refuses : ∀ k ≤ (reconciliation assigned).length, fails k ≠ none →
    ∃ t e, s.reconcile assigned fails = (t,.error e)
  listed : ∀ assigned' fails',
    (∀ name, name ∈ assigned.map (·.account) ↔ name ∈ assigned'.map (·.account)) →
    (∀ id, id ∈ assigned.map (·.egress) ↔ id ∈ assigned'.map (·.egress)) → ∀ t n t' n',
    s.reconcile assigned fails = (t,.ok n) → s.reconcile assigned' fails' = (t',.ok n') →
      t'.roster = t.roster ∧ n' = n
  again : ∀ t n, s.reconcile assigned fails = (t,.ok n) → ∀ fails' u x,
    t.reconcile assigned fails' = (u,x) → u.roster = t.roster ∧ u.objects = t.objects ∧
    ∀ m, x = .ok m → m = 0
  markAllUnused : s.markAllUnused = s.reconcile []

theorem reconcile_exactly (s : Store) (assigned : List StatusEntry)
    (fails : ℕ → Option StoreFailure) : s.ReconcilesExactly assigned fails where
  done t n h := ⟨reconcile_done h,objects_of_reconcile h⟩
  undone t e h := ⟨reconcile_undone h,objects_of_reconcile h⟩
  succeeds ha hf := by
    have hr : (s.reconcile assigned fails).2 = _ := (ha.onRoster _).2
    rw [transaction_of_none hf] at hr
    exact ⟨_,_,Prod.ext rfl hr⟩
  refuses k hk hf := by
    cases hr : s.reconcile assigned fails with
    | mk t x =>
      cases x with
      | error e => exact ⟨t,e,rfl⟩
      | ok n =>
        have hn := onRoster_ok hr
        rcases transaction_cases fails (reconciliation assigned) s.roster with ⟨h,_⟩ | ⟨_,_,e,_,ht⟩
        · exact absurd (h k hk) hf
        · simp [ht] at hn
  listed assigned' fails' hn he t n t' n' h h' :=
    (reconcile_done h).unique (reconcile_done h') hn he
  again t n h fails' u x h' := by
    have ho := objects_of_reconcile h'
    cases x with
    | error e => exact ⟨reconcile_undone h',ho,by simp⟩
    | ok m =>
      -- what is reconciled already is an outcome of the second time, and there is only one
      have hu := (reconcile_done h).refl.unique (reconcile_done h') (fun _ => Iff.rfl) fun _ =>
        Iff.rfl
      refine ⟨hu.1,ho,?_⟩
      rintro _ ⟨⟩
      exact hu.2
  markAllUnused := rfl

end Store

def unkempt : Roster where
  identities := [{ name := "ash", secret := "", used := true },
    { name := "misty", secret := "", banned := true }]
  egresses := [{ id := 1, dead := true },{ id := 2, inUse := true }]

example : unkempt.reconcile [⟨"misty",1⟩,⟨"gary",1⟩,⟨"misty",7⟩] =
    (⟨[{ name := "ash", secret := "" },
      { name := "misty", secret := "", used := true, banned := true }],
    [{ id := 1, inUse := true, dead := true },{ id := 2 }]⟩,4) := by decide

end ScanService
