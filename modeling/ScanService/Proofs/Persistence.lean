import ScanService.Proofs.StoredObjects
/-! Writing what a scan has found. Of the objects of one id, the last that is no creature stays;
without one, what was stored stays, and without that the first creature. A write that fails leaves
everything as it is, and all others are made as if it had not been tried. -/
namespace ScanService

namespace ObjectTable

variable {o p : ScanObject Float} {os rows : List (ScanObject Float)}
    {t : ObjectTable Float} {x : String}

/-! ### Rows put one over the other -/

theorem mem_ids_upsert (o : ScanObject Float) (rows : List (ScanObject Float)) :
    x ∈ (upsert o rows).map (·.id) ↔ x = o.id ∨ x ∈ rows.map (·.id) := by
  induction rows with
  | nil => simp [upsert]
  | cons q rows ih =>
    by_cases hq : q.id = o.id
    · simp [upsert,hq]
    · simp only [upsert,if_neg hq,List.map_cons,List.mem_cons,ih]
      exact or_left_comm

theorem upsert_upsert (h : p.id = o.id) (rows : List (ScanObject Float)) :
    upsert p (upsert o rows) = upsert p rows := by
  induction rows with
  | nil => simp [upsert,h]
  | cons q rows ih =>
    by_cases hq : q.id = o.id
    · simp [upsert,h,hq]
    · simp [upsert,h,hq,ih]

theorem upsert_comm (h : p.id ≠ o.id) (ho : o.id ∈ rows.map (·.id)) :
    upsert p (upsert o rows) = upsert o (upsert p rows) := by
  induction rows with
  | nil => simp at ho
  | cons q rows ih =>
    by_cases hq : q.id = o.id
    · have hp : ¬ q.id = p.id := fun hp => h (hp.symm.trans hq)
      simp [upsert,hq,h.symm]
    · have ho : o.id ∈ rows.map (·.id) := by simpa [Ne.symm hq] using ho
      by_cases hp : q.id = p.id
      · simp [upsert,hp,h]
      · simp [upsert,hp,hq,ih ho]

theorem upsert_self (h : rows.find? (·.id = o.id) = some o) : upsert o rows = rows := by
  induction rows with
  | nil => simp at h
  | cons q rows ih =>
    by_cases hq : q.id = o.id
    · have hqo : q = o := by simpa [hq] using h
      simp [upsert,hqo]
    · simp [upsert,hq,ih (by simpa [hq] using h)]

/-! ### One write -/

def replaces (o : ScanObject Float) : Prop := missingColumn o = none ∧ o.kind ≠ .creature

theorem write_of_replaces (h : replaces o) (t : ObjectTable Float) :
    t.write o = (⟨upsert (row o) t.rows⟩,.ok ()) := by
  unfold write
  rw [h.1]
  simp [ObjectKind.ephemeral,h.2]

theorem get?_isSome : (t.get? x).isSome ↔ x ∈ t.rows.map (·.id) := by
  simp [get?,List.find?_isSome]

/-- An object that replaces nothing is refused if its id is there, and in any case without a
coordinate. -/
theorem write_of_not_replaces (h : ¬ replaces o)
    (ho : missingColumn o = none → o.id ∈ t.rows.map (·.id)) : (t.write o).1 = t := by
  unfold write
  split
  · rfl
  · rename_i hm
    have hk : o.kind = .creature := Decidable.not_not.mp fun hk => h ⟨hm,hk⟩
    simp [ObjectKind.ephemeral,hk,get?_isSome.mpr (ho hm)]

theorem get?_write (hm : missingColumn o = none) (t : ObjectTable Float) (x : String) :
    (t.write o).1.get? x =
    if o.id = x ∧ (o.kind ≠ .creature ∨ t.get? x = none) then some (row o) else t.get? x := by
  by_cases hr : o.kind ≠ .creature ∨ t.get? o.id = none
  · have hw : (t.write o).1 = ⟨upsert (row o) t.rows⟩ := by
      unfold write
      rw [hm]
      rcases hr with hr | hr <;> simp [ObjectKind.ephemeral,hr]
    rw [hw,get?,find?_upsert]
    by_cases hx : o.id = x
    · subst hx
      simp [row,hr]
    · simp [row,hx,get?]
  · have hp : o.id ∈ t.rows.map (·.id) := by
      rw [← get?_isSome,Option.isSome_iff_ne_none]
      exact fun hn => hr (Or.inr hn)
    rw [write_of_not_replaces (fun h => hr (Or.inl h.2)) fun _ => hp,if_neg]
    rintro ⟨rfl,h⟩
    exact hr h

theorem mem_ids_write (h : x ∈ t.rows.map (·.id)) (o : ScanObject Float) :
    x ∈ (t.write o).1.rows.map (·.id) := by
  rcases t.write_cases o with ⟨e,he⟩ | ⟨hw,_⟩
  · exact he ▸ h
  · exact hw ▸ (mem_ids_upsert (row o) t.rows).mpr (Or.inr h)

theorem id_mem_write (hm : missingColumn o = none) (t : ObjectTable Float) :
    o.id ∈ (t.write o).1.rows.map (·.id) := by
  rw [← get?_isSome,get?_write hm]
  by_cases hr : o.kind ≠ .creature ∨ t.get? o.id = none
  · simp [hr]
  · rw [if_neg fun h => hr h.2]
    exact Option.isSome_iff_ne_none.mpr fun hn => hr (Or.inr hn)

theorem get?_write_of_kept (h : t.get? x = some p) (ho : ¬ (replaces o ∧ o.id = x)) :
    (t.write o).1.get? x = some p := by
  have hx : x ∈ t.rows.map (·.id) := get?_isSome.mp (by simp [h])
  by_cases hid : o.id = x
  · rw [write_of_not_replaces (fun hr => ho ⟨hr,hid⟩) fun _ => hid ▸ hx,h]
  · rcases t.write_cases o with ⟨e,he⟩ | ⟨hw,_⟩
    · rw [he,h]
    · rw [hw,get?,find?_upsert]
      exact (if_neg hid).trans h

/-- A write under another id can be made before or after a row is put over one that is there. -/
theorem write_upsert (h : o.id ≠ p.id) (hp : p.id ∈ rows.map (·.id)) :
    (write ⟨upsert p rows⟩ o).1 = ⟨upsert p (write ⟨rows⟩ o).1.rows⟩ := by
  have hg : get? ⟨upsert p rows⟩ o.id = get? ⟨rows⟩ o.id :=
    (find?_upsert p rows o.id).trans (if_neg h.symm)
  unfold write
  rw [hg]
  split
  · rfl
  · split
    · rfl
    · exact congrArg ObjectTable.mk (upsert_comm (o := p) (p := row o) h hp)

/-! ### Many writes -/

def writeAll (t : ObjectTable Float) (os : List (ScanObject Float)) : ObjectTable Float :=
  os.foldl (fun t o => (t.write o).1) t

/-- What an id has after objects were written: the last of them that is no creature, or what it had
before, or the first creature. -/
def settled (t : ObjectTable Float) (os : List (ScanObject Float)) (x : String) :
    Option (ScanObject Float) :=
  ((os.reverse.find? fun o => o.id = x ∧ o.kind ≠ .creature).map row).or
    ((t.get? x).or ((os.find? fun o => o.id = x ∧ o.kind = .creature).map row))

theorem get?_writeAll (hm : ∀ o ∈ os, missingColumn o = none) (t : ObjectTable Float) (x : String) :
    (t.writeAll os).get? x = t.settled os x := by
  induction os generalizing t with
  | nil => simp [writeAll,settled]
  | cons o os ih =>
    obtain ⟨ho,hm⟩ := List.forall_mem_cons.mp hm
    change ((t.write o).1.writeAll os).get? x = _
    rw [ih hm]
    simp only [settled,get?_write ho,List.reverse_cons,List.find?_append,List.find?_cons,
      List.find?_nil]
    by_cases hx : o.id = x
    · by_cases hk : o.kind = .creature
      · cases os.reverse.find? (fun o => o.id = x ∧ o.kind ≠ .creature) <;> cases t.get?
          x <;> simp [hx,hk]
      · cases os.reverse.find? (fun o => o.id = x ∧ o.kind ≠ .creature) <;> simp [hx,hk]
    · simp [hx]

theorem settled_of_not_mem (h : x ∉ os.map (·.id)) (t : ObjectTable Float) :
    t.settled os x = t.get? x := by
  have hid (o : ScanObject Float) (ho : o ∈ os) : o.id ≠ x :=
    fun hx => h (hx ▸ List.mem_map_of_mem ho)
  have hlast : os.reverse.find? (fun o => o.id = x ∧ o.kind ≠ .creature) = none := by
    rw [List.find?_eq_none]
    intro o ho
    simp [hid o (List.mem_reverse.mp ho)]
  have hfirst : os.find? (fun o => o.id = x ∧ o.kind = .creature) = none := by
    rw [List.find?_eq_none]
    intro o ho
    simp [hid o ho]
  rw [settled,hlast,hfirst]
  simp

theorem writeAll_filter (t : ObjectTable Float) (os : List (ScanObject Float)) :
    t.writeAll (os.filter (missingColumn · = none)) = t.writeAll os := by
  induction os generalizing t with
  | nil => rfl
  | cons o os ih =>
    cases hm : missingColumn o with
    | none =>
      rw [List.filter_cons_of_pos (by simp [hm])]
      exact ih _
    | some column =>
      have hw : (t.write o).1 = t := by simp [write,hm]
      rw [List.filter_cons_of_neg (by simp [hm]),ih]
      exact congrArg (fun t => writeAll t os) hw.symm

theorem mem_ids_writeAll (h : x ∈ t.rows.map (·.id)) (os : List (ScanObject Float)) :
    x ∈ (t.writeAll os).rows.map (·.id) := by
  induction os generalizing t with
  | nil => exact h
  | cons o os ih => exact ih (mem_ids_write h o)

theorem get?_writeAll_of_kept (h : t.get? x = some p) (hos : ¬ ∃ o ∈ os, replaces o ∧ o.id = x) :
    (t.writeAll os).get? x = some p := by
  induction os generalizing t with
  | nil => exact h
  | cons o os ih =>
    refine ih (get?_write_of_kept h fun ho => hos ⟨o,List.mem_cons_self,ho⟩) ?_
    rintro ⟨q,hq,hr⟩
    exact hos ⟨q,List.mem_cons_of_mem o hq,hr⟩

theorem writeAll_upsert (hp : p.id ∈ rows.map (·.id)) (hos : ∃ o ∈ os, replaces o ∧ o.id = p.id) :
    writeAll ⟨upsert p rows⟩ os = writeAll ⟨rows⟩ os := by
  induction os generalizing rows with
  | nil => simp at hos
  | cons o os ih =>
    change writeAll (write ⟨upsert p rows⟩ o).1 os = writeAll (write ⟨rows⟩ o).1 os
    by_cases hid : o.id = p.id
    · by_cases hr : replaces o
      · rw [write_of_replaces hr,write_of_replaces hr]
        exact congrArg (fun rows => writeAll ⟨rows⟩ os)
          (upsert_upsert (o := p) (p := row o) hid rows)
      · have hp' : o.id ∈ (upsert p rows).map (·.id) := (mem_ids_upsert p rows).mpr (Or.inl hid)
        rw [write_of_not_replaces hr fun _ => hp',write_of_not_replaces hr fun _ => hid ▸ hp]
        obtain ⟨q,hq,hqr⟩ := hos
        rcases List.mem_cons.mp hq with rfl | hq
        · exact absurd hqr.1 hr
        · exact ih hp ⟨q,hq,hqr⟩
    · rw [write_upsert hid hp]
      obtain ⟨q,hq,hqr⟩ := hos
      rcases List.mem_cons.mp hq with rfl | hq
      · exact absurd hqr.2 hid
      · exact ih (mem_ids_write (t := ⟨rows⟩) hp o) ⟨q,hq,hqr⟩

theorem writeAll_writeAll (t : ObjectTable Float) (os : List (ScanObject Float)) :
    (t.writeAll os).writeAll os = t.writeAll os := by
  induction os generalizing t with
  | nil => rfl
  | cons o os ih =>
    change (((t.write o).1.writeAll os).write o).1.writeAll os = (t.write o).1.writeAll os
    have hu := ih (t.write o).1
    have hid (hm : missingColumn o = none) : o.id ∈ ((t.write o).1.writeAll os).rows.map (·.id) :=
      mem_ids_writeAll (id_mem_write hm t) os
    by_cases hr : replaces o
    · rw [write_of_replaces hr]
      -- the row is put over by a later object again, or it is the one that is there
      by_cases hlater : ∃ q ∈ os, replaces q ∧ q.id = o.id
      · exact (writeAll_upsert (p := row o) (hid hr.1) hlater).trans hu
      · have hg : (t.write o).1.get? o.id = some (row o) := by
          rw [get?_write hr.1,if_pos ⟨rfl,Or.inl hr.2⟩]
        rw [upsert_self (o := row o) (get?_writeAll_of_kept hg hlater)]
        exact hu
    -- what replaces nothing is refused now that its id is there
    · rw [write_of_not_replaces hr hid]
      exact hu

end ObjectTable

namespace Store

open ObjectTable

variable {s : Store} {o : ScanObject Float} {os : List (ScanObject Float)}

def spared {α : Type} : List (Option StoreFailure) → List α → List α
  | _, [] => []
  | [], os => os
  | some _ :: fails, _ :: os => spared fails os
  | none :: fails, o :: os => o :: spared fails os

theorem spared_nil {α : Type} (os : List α) : spared [] os = os := by
  cases os <;> rfl

theorem spared_sublist {α : Type} (fails : List (Option StoreFailure)) (os : List α) :
    (spared fails os).Sublist os := by
  induction os generalizing fails with
  | nil => cases fails <;> exact .slnil
  | cons o os ih =>
    rcases fails with _ | ⟨_ | e,fails⟩
    · exact .refl _
    · exact (ih fails).cons_cons o
    · exact (ih fails).cons o

theorem spared_eq_self_iff {α : Type} (fails : List (Option StoreFailure)) (os : List α) :
    spared fails os = os ↔ ∀ f ∈ fails.take os.length, f = none := by
  induction os generalizing fails with
  | nil => cases fails <;> simp [spared]
  | cons o os ih =>
    rcases fails with _ | ⟨_ | e,fails⟩
    · simp [spared]
    · simp [spared,ih]
    · have hl := (spared_sublist fails os).length_le
      have hne : spared fails os ≠ o :: os := by
        intro h
        rw [h,List.length_cons] at hl
        omega
      simp [spared,hne]

def writable (s : Store) (os : List (ScanObject Float)) : List (ScanObject Float) :=
  (spared (s.faults .write) os).filter (missingColumn · = none)

theorem writable_eq_self_iff (s : Store) (os : List (ScanObject Float)) : s.writable os = os ↔
    (∀ f ∈ (s.faults .write).take os.length, f = none) ∧ ∀ o ∈ os, missingColumn o = none := by
  have hs := spared_sublist (s.faults .write) os
  constructor
  · intro h
    have hf : spared (s.faults .write) os = os := by
      refine hs.eq_of_length_le ?_
      have hl := List.length_filter_le (fun o => decide (missingColumn o = none))
        (spared (s.faults .write) os)
      rwa [← writable,h] at hl
    refine ⟨(spared_eq_self_iff _ _).mp hf,?_⟩
    rw [writable,hf] at h
    simpa using List.filter_eq_self.mp h
  · rintro ⟨hf,hm⟩
    rw [writable,(spared_eq_self_iff _ _).mpr hf]
    exact List.filter_eq_self.mpr (by simpa using hm)

/-- A write whose turn is planned to fail does nothing; any other is one to the table. -/
theorem write_eq (s : Store) (o : ScanObject Float) : s.write o = match s.faults .write with
    | [] => ({ s with objects := (s.objects.write o).1 },(s.objects.write o).2)
    | some e :: later => (s.plan .write later,.error e)
    | none :: later =>
      ({ s.plan .write later with objects := (s.objects.write o).1 },(s.objects.write o).2) := by
  unfold write onObjects call
  rcases s.faults .write with _ | ⟨_ | e,later⟩ <;> rfl

theorem objects_of_write_error {e : StoreFailure} (h : (s.write o).2 = .error e) :
    (s.write o).1.objects = s.objects := by
  have hw (h : (s.objects.write o).2 = .error e) : (s.objects.write o).1 = s.objects := by
    rcases s.objects.write_cases o with ⟨_,he⟩ | ⟨hw,_⟩
    · rw [he]
    · simp [hw] at h
  rw [write_eq] at h ⊢
  split at h
  · exact hw h
  · rfl
  · exact hw h

theorem objects_of_write_ok (h : (s.write o).2 = .ok ()) :
    (s.write o).1.objects = (s.objects.write o).1 := by
  rw [write_eq] at h ⊢
  split at h
  · rfl
  · cases h
  · rfl

/-- Whichever writes fail, the others are made. -/
theorem objects_writeAll (s : Store) (os : List (ScanObject Float)) :
    (s.writeAll os).objects = s.objects.writeAll (spared (s.faults .write) os) := by
  induction os generalizing s with
  | nil => cases s.faults .write <;> rfl
  | cons o os ih =>
    change ((s.write o).1.writeAll os).objects = _
    rw [ih,write_eq]
    cases hf : s.faults .write with
    | nil => simp [spared,spared_nil,hf,ObjectTable.writeAll]
    | cons f later =>
      cases f with
      | none => simp [spared,plan,ObjectTable.writeAll]
      | some e => simp [spared,plan]

theorem get?_objects_writeAll (s : Store) (os : List (ScanObject Float)) (x : String) :
    (s.writeAll os).objects.get? x = s.objects.settled (s.writable os) x := by
  rw [objects_writeAll,← ObjectTable.writeAll_filter]
  exact get?_writeAll (fun o ho => by simpa using (List.mem_filter.mp ho).2) _ _

theorem get?_objects_writeAll_of_not_mem {x : String} (h : x ∉ os.map (·.id)) (s : Store) :
    (s.writeAll os).objects.get? x = s.objects.get? x := by
  have hs : (s.writable os).Sublist os := List.filter_sublist.trans (spared_sublist _ _)
  rw [get?_objects_writeAll,settled_of_not_mem fun hx => h ((hs.map (·.id)).subset hx)]

theorem objects_writeAll_writeAll (h : ∀ f ∈ (s.faults .write).take (2 * os.length), f = none) :
    ((s.writeAll os).writeAll os).objects = (s.writeAll os).objects := by
  have hboth : spared (s.faults .write) (os ++ os) = os ++ os :=
    (spared_eq_self_iff _ _).mpr (by simpa [← Nat.two_mul] using h)
  have hone : spared (s.faults .write) os = os := by
    refine (spared_eq_self_iff _ _).mpr fun f hf => h f ?_
    exact (List.take_prefix_take_left (by omega)).subset hf
  have happ : (s.writeAll os).writeAll os = s.writeAll (os ++ os) := List.foldl_append.symm
  rw [happ,objects_writeAll,hboth,objects_writeAll,hone]
  exact List.foldl_append.trans (ObjectTable.writeAll_writeAll s.objects os)

end Store

end ScanService
