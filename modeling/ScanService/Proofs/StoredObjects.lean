import ScanService.Proofs.StoreCalls
/-! What becomes of a stored object. It stays as it is, field for field, until a purge removes it,
which befalls creatures only, or until an object that is no creature is written under its id. -/
namespace ScanService

namespace ObjectTable

variable {o p : ScanObject Float} {rows : List (ScanObject Float)}
    {t : ObjectTable Float} {x : String}

/-- What is written under an id is found under it, and under the others what was. -/
theorem find?_upsert (o : ScanObject Float) (rows : List (ScanObject Float)) (x : String) :
    (upsert o rows).find? (·.id = x) = if o.id = x then some o else rows.find? (·.id = x) := by
  induction rows with
  | nil => by_cases ho : o.id = x <;> simp [upsert,ho]
  | cons p rows ih =>
    by_cases hp : p.id = o.id
    · by_cases ho : o.id = x <;> simp [upsert,hp,ho]
    · by_cases hx : p.id = x
      · have ho : ¬ o.id = x := fun ho => hp (hx.trans ho.symm)
        rw [upsert,if_neg hp,if_neg ho,List.find?_cons_of_pos (by simpa using hx),
          List.find?_cons_of_pos (by simpa using hx)]
      · simp [upsert,hp,hx,ih]

theorem mem_upsert (h : p ∈ upsert o rows) : p = o ∨ p ∈ rows := by
  induction rows with
  | nil => exact Or.inl (by simpa [upsert] using h)
  | cons q rows ih =>
    rw [upsert] at h
    split at h
    · rcases List.mem_cons.mp h with h | h
      · exact Or.inl h
      · exact Or.inr (List.mem_cons_of_mem _ h)
    · rcases List.mem_cons.mp h with rfl | h
      · exact Or.inr List.mem_cons_self
      · exact (ih h).imp_right (List.mem_cons_of_mem _)

/-- A new id comes last, and one that is there keeps its place. -/
theorem ids_upsert (o : ScanObject Float) (rows : List (ScanObject Float)) :
    (upsert o rows).map (·.id) = rows.map (·.id) ∨
      o.id ∉ rows.map (·.id) ∧ (upsert o rows).map (·.id) = rows.map (·.id) ++ [o.id] := by
  induction rows with
  | nil => exact Or.inr ⟨by simp,rfl⟩
  | cons q rows ih =>
    by_cases hq : q.id = o.id
    · exact Or.inl (by simp [upsert,hq])
    · rcases ih with h | ⟨hn,h⟩
      · exact Or.inl (by simp [upsert,hq,h])
      · exact Or.inr ⟨by simpa [Ne.symm hq] using hn,by simp [upsert,hq,h]⟩

/-- A write is refused and changes nothing, or it is accepted; a creature only under an id that is
free. -/
theorem write_cases (t : ObjectTable Float) (p : ScanObject Float) :
    (∃ e, t.write p = (t,.error e)) ∨
      (t.write p = (⟨upsert (row p) t.rows⟩,.ok ()) ∧
        (p.kind = .creature → t.get? p.id = none)) := by
  unfold write
  split
  · exact Or.inl ⟨_,rfl⟩
  · split
    · exact Or.inl ⟨_,rfl⟩
    · rename_i hn
      refine Or.inr ⟨rfl,fun hk => ?_⟩
      simpa [ObjectKind.ephemeral,hk] using hn

theorem get?_purge (h : t.get? x = some o) {threshold : Int} (hn : expired threshold o = false) :
    (t.purge threshold).1.get? x = some o := by
  obtain ⟨ho,as,bs,hr,ha⟩ := List.find?_eq_some_iff_append.mp h
  rw [get?,purge,List.find?_filter,hr,List.find?_append,
    List.find?_cons_of_pos (by simpa [hn] using ho)]
  rw [List.find?_eq_none.mpr,Option.none_or]
  intro p hp
  simp [by simpa using ha p hp]

end ObjectTable

namespace Store

open ObjectTable

variable {s : Store} {o : ScanObject Float} {c : Command}

theorem objects_ask {α : Type} (s : Store) (c : StoreCall) (f : Store → α) :
    (s.ask c f).1.objects = s.objects := (s.spends_ask c f).objects

/-- How a stored object goes: an accepted purge whose threshold is above the expiry of a creature
removes it, or an accepted object that is no creature takes its place. -/
inductive Ousts (s : Store) (o : ScanObject Float) : Command → Prop
  | purged {threshold : Int} {n : Nat} (ha : (s.purge threshold).2 = .ok n)
      (hk : o.kind = .creature) (h0 : o.expiry ≠ 0) (hl : o.expiry < threshold)
      (hr : o ∉ (s.purge threshold).1.objects.rows) : Ousts s o (.purge threshold)
  | replaced {p : ScanObject Float} (ha : (s.write p).2 = .ok ()) (hid : p.id = o.id)
      (hk : p.kind ≠ .creature) (hr : (s.write p).1.objects.get? o.id = some (row p)) :
      Ousts s o (.write p)

theorem kept_write (h : s.objects.get? o.id = some o) (p : ScanObject Float) :
    (s.write p).1.objects.get? o.id = some o ∨ s.Ousts o (.write p) := by
  rcases s.onObjects_cases .write (fun t => t.write p) with hs | ⟨hs,ha⟩
  · exact Or.inl (by rw [write,hs,h])
  · rcases s.objects.write_cases p with ⟨e,he⟩ | ⟨hw,hf⟩
    · exact Or.inl (by rw [write,hs,he,h])
    · have hg : (s.write p).1.objects.get? o.id = if p.id = o.id then some (row p) else some o := by
        rw [write,hs,hw,← h]
        exact find?_upsert (row p) s.objects.rows o.id
      by_cases hid : p.id = o.id
      · rw [if_pos hid] at hg
        refine Or.inr (.replaced (by rw [write,ha,hw]) hid (fun hp => ?_) hg)
        rw [hid,h] at hf
        exact absurd (hf hp) (by simp)
      · rw [if_neg hid] at hg
        exact Or.inl hg

theorem kept_purge (h : s.objects.get? o.id = some o) (threshold : Int) :
    (s.purge threshold).1.objects.get? o.id = some o ∨ s.Ousts o (.purge threshold) := by
  rcases s.onObjects_cases .purge fun t => ((t.purge threshold).1,.ok (t.purge threshold).2) with
    hs | ⟨hs,ha⟩
  · exact Or.inl (by rw [purge,hs,h])
  · cases he : expired threshold o with
    | false => exact Or.inl (by rw [purge,hs,get?_purge h he])
    | true =>
      have hr : o ∉ (s.purge threshold).1.objects.rows := by
        rw [purge,hs]
        simp [ObjectTable.purge,he]
      simp only [expired,Bool.and_eq_true,decide_eq_true_eq] at he
      exact Or.inr (.purged ha he.1.1 he.1.2 he.2 hr)

theorem kept_run (h : s.objects.get? o.id = some o) (c : Command) :
    (s.run c).1.objects.get? o.id = some o ∨ s.Ousts o c := by
  cases c with
  | write p => exact kept_write h p
  | purge threshold => exact kept_purge h threshold
  | query _ _ _ _ | get _ | count | identityStats | egressStats | getIdentity _
  | getEgress _ | banned =>
    exact Or.inl ((s.objects_ask _ _).symm ▸ h)
  | claimIdentity | claimEgress | releaseIdentity _ | releaseEgress _ | ban _ | kill _ | reconcile _
  | markAllUnused | addIdentity _ | addEgress _ | dropAllEgress | removeDeadEgress =>
    exact Or.inl ((s.objects_onRoster _ _).symm ▸ h)

/-- What writes and purges keep up, every command does. -/
theorem objects_run {P : ObjectTable Float → Prop} (hw : ∀ t p, P t → P (t.write p).1)
    (hp : ∀ t threshold, P t → P (t.purge threshold).1) (h : P s.objects) (c : Command) :
    P (s.run c).1.objects := by
  cases c with
  | write p =>
    rcases s.onObjects_cases .write (fun t => t.write p) with hs | ⟨hs,_⟩
    · exact hs ▸ h
    · exact hs ▸ hw _ p h
  | purge threshold =>
    rcases s.onObjects_cases .purge fun t => ((t.purge threshold).1,.ok (t.purge threshold).2)
      with hs | ⟨hs,_⟩
    · exact hs ▸ h
    · exact hs ▸ hp _ threshold h
  | query _ _ _ _ | get _ | count | identityStats | egressStats | getIdentity _
  | getEgress _ | banned =>
    exact (s.objects_ask _ _).symm ▸ h
  | claimIdentity | claimEgress | releaseIdentity _ | releaseEgress _ | ban _ | kill _ | reconcile _
  | markAllUnused | addIdentity _ | addEgress _ | dropAllEgress | removeDeadEgress =>
    exact (s.objects_onRoster _ _).symm ▸ h

/-- A stored object is found as it was, field for field, in every later state, unless one of the
operations in between has ousted it. -/
theorem stays_unless_ousted (h : s.objects.get? o.id = some o) (cs : List Command) :
    (s.runCommands cs).objects.get? o.id = some o ∨
      ∃ before c after, cs = before ++ c :: after ∧
      (s.runCommands before).objects.get? o.id = some o ∧
        (s.runCommands before).Ousts o c := by
  induction cs generalizing s with
  | nil => exact Or.inl h
  | cons c cs ih =>
    rcases kept_run h c with hc | hc
    · rcases ih hc with hr | ⟨before,d,after,rfl,hb,hd⟩
      · exact Or.inl hr
      · exact Or.inr ⟨c :: before,d,after,rfl,hb,hd⟩
    · exact Or.inr ⟨[],c,cs,rfl,h,hc⟩

def nidoran : ScanObject Float := .creature "x" 29 ⟨1,2⟩ 100

def crossing : ScanObject Float := .checkpoint "x" ⟨3,4⟩ true

def meadow : Store := (empty.write nidoran).1

theorem meadow_nidoran : meadow.objects.get? nidoran.id = some nidoran := rfl

/-- A creature does not always stay until a purge removes it: a checkpoint takes its place. -/
theorem not_insert_only : ¬ ∀ (s : Store) (o : ScanObject Float) (cs : List Command),
    o.kind = .creature → s.objects.get? o.id = some o →
    (s.runCommands cs).objects.get? o.id = some o ∨
      ∃ before threshold after, cs = before ++ .purge threshold :: after ∧ o.expiry ≠ 0 ∧
        o.expiry < threshold := by
  intro h
  rcases h meadow nidoran [.write crossing] rfl meadow_nidoran
    with hk | ⟨before,threshold,after,he,_⟩
  · have hc : ((meadow.runCommands [.write crossing]).objects.get? "x").map (·.kind) = some
        .checkpoint := by
      decide +kernel
    have hk' : ((meadow.runCommands [.write crossing]).objects.get? "x").map (·.kind) =
        some .creature :=
      congrArg (Option.map (·.kind)) hk
    rw [hc] at hk'
    cases hk'
  · have hm : Command.purge threshold ∈ [Command.write crossing] := by rw [he]; simp
    simp at hm

/-- A second creature of the id is refused and an early purge passes by; only the checkpoint ousts
the first. -/
theorem stays_unless_ousted_crossing :
    (meadow.runCommands [.write nidoran,.purge 100]).objects.get? "x" = some nidoran ∧
      ((meadow.runCommands [.write nidoran,.purge 100,.write crossing]).objects.get? "x" =
        some nidoran ∨ ∃ before c after, [.write nidoran,.purge 100,.write crossing] =
          before ++ c :: after ∧ (meadow.runCommands before).objects.get? "x" = some nidoran ∧
            (meadow.runCommands before).Ousts nidoran c) :=
  ⟨rfl,stays_unless_ousted meadow_nidoran _⟩

end Store

end ScanService
