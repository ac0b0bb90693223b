import ScanService.Registry
/-! The registry stays in strictly increasing order of the names, so it has one entry at most to a
name, and what an assignment and a removal do to it can be said by membership alone. -/
namespace ScanService.Registry

def Sorted (r : Registry) : Prop := r.entries.Pairwise fun e f => e.account < f.account

theorem sorted_empty : empty.Sorted := List.Pairwise.nil

theorem mem_insert_imp {e x : StatusEntry} {es : List StatusEntry} (h : x ∈ insert e es) :
    x = e ∨ x ∈ es := by
  induction es with
  | nil => exact Or.inl (by simpa [insert] using h)
  | cons f fs ih =>
    simp only [insert] at h
    split at h
    · simpa using h
    · split at h
      · rcases List.mem_cons.mp h with hx | hx
        · exact Or.inl hx
        · exact Or.inr (by simp [hx])
      · rcases List.mem_cons.mp h with hx | hx
        · exact Or.inr (by simp [hx])
        · rcases ih hx with hx | hx
          · exact Or.inl hx
          · exact Or.inr (by simp [hx])

theorem pairwise_insert {e : StatusEntry} {es : List StatusEntry}
    (h : es.Pairwise fun e f => e.account < f.account) :
    (insert e es).Pairwise fun e f => e.account < f.account := by
  induction es with
  | nil => simp [insert]
  | cons f fs ih =>
    obtain ⟨hf,hfs⟩ := List.pairwise_cons.mp h
    simp only [insert]
    split
    · rename_i hlt
      refine List.pairwise_cons.mpr ⟨?_,h⟩
      intro x hx
      rcases List.mem_cons.mp hx with rfl | hx
      · exact hlt
      · exact String.lt_trans hlt (hf x hx)
    · rename_i hge
      split
      · rename_i heq
        exact List.pairwise_cons.mpr ⟨fun x hx => heq ▸ hf x hx,hfs⟩
      · rename_i hne
        have hlt : f.account < e.account := by
          rcases String.le_total e.account f.account with hle | hle
          · exact absurd (String.le_antisymm hle (String.not_lt.mp hge)) hne
          · exact String.not_le.mp fun hl => hne (String.le_antisymm hl hle)
        refine List.pairwise_cons.mpr ⟨?_,ih hfs⟩
        intro x hx
        rcases mem_insert_imp hx with rfl | hx
        · exact hlt
        · exact hf x hx

theorem mem_insert_self (e : StatusEntry) (es : List StatusEntry) : e ∈ insert e es := by
  induction es with
  | nil => simp [insert]
  | cons f fs ih =>
    simp only [insert]
    split
    · simp
    · split <;> simp [ih]

theorem mem_insert_of_ne {e x : StatusEntry} {es : List StatusEntry} (hx : x ∈ es)
    (hn : x.account ≠ e.account) : x ∈ insert e es := by
  induction es with
  | nil => simp at hx
  | cons f fs ih =>
    simp only [insert]
    split
    · simp [List.mem_cons.mp hx]
    · split
      · rename_i heq
        rcases List.mem_cons.mp hx with rfl | hx
        · exact absurd heq.symm hn
        · simp [hx]
      · rcases List.mem_cons.mp hx with rfl | hx
        · simp
        · simp [ih hx]

theorem Sorted.eq_of_account {r : Registry} (h : r.Sorted) {e f : StatusEntry} (he : e ∈ r.entries)
    (hf : f ∈ r.entries) (hn : e.account = f.account) : e = f := by
  unfold Sorted at h
  generalize r.entries = es at h he hf
  induction es with
  | nil => simp at he
  | cons g gs ih =>
    obtain ⟨hg,hgs⟩ := List.pairwise_cons.mp h
    rcases List.mem_cons.mp he with rfl | he'
    · rcases List.mem_cons.mp hf with rfl | hf'
      · rfl
      · exact absurd hn (String.ne_of_lt (hg f hf'))
    · rcases List.mem_cons.mp hf with rfl | hf'
      · exact absurd hn.symm (String.ne_of_lt (hg e he'))
      · exact ih hgs he' hf'

theorem Sorted.assign {r : Registry} (h : r.Sorted) (e : StatusEntry) : (r.assign e).Sorted :=
  pairwise_insert h

theorem Sorted.remove {r : Registry} (h : r.Sorted) (account : String) :
    (r.remove account).Sorted :=
  List.Pairwise.filter _ h

theorem Sorted.mem_assign {r : Registry} (h : r.Sorted) {e x : StatusEntry} :
    x ∈ (r.assign e).entries ↔ x = e ∨ (x ∈ r.entries ∧ x.account ≠ e.account) := by
  constructor
  · intro hx
    by_cases hn : x.account = e.account
    · exact Or.inl ((h.assign e).eq_of_account hx (mem_insert_self e r.entries) hn)
    · rcases mem_insert_imp hx with rfl | hx
      · exact absurd rfl hn
      · exact Or.inr ⟨hx,hn⟩
  · rintro (rfl | ⟨hx,hn⟩)
    · exact mem_insert_self x r.entries
    · exact mem_insert_of_ne hx hn

theorem mem_remove {r : Registry} {account : String} {x : StatusEntry} :
    x ∈ (r.remove account).entries ↔ x ∈ r.entries ∧ x.account ≠ account := by
  simp [remove]

/-- No name stands in the registry twice. -/
theorem Sorted.nodup_accounts {r : Registry} (h : r.Sorted) : (r.entries.map (·.account)).Nodup :=
  List.pairwise_map.mpr (List.Pairwise.imp (fun hl => String.ne_of_lt hl) h)

end ScanService.Registry
