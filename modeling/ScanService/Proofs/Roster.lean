import ScanService.Store.Roster
/-! The use flags of the records. A key is taken when every record of it is in use, and it works
when a record of it is in use and not condemned. What claims, releases, bans and kills do to both is
said here once, for tables of any kind of record, and then for the two kinds there are. -/
namespace ScanService

namespace Table

variable {α κ : Type} [DecidableEq κ] {key : α → κ} {busy out : α → Bool} {rows : List α}
  {f : α → α} {k m : κ}

def amend (key : α → κ) (rows : List α) (k : κ) (f : α → α) : List α :=
  rows.map fun x => if key x = k then f x else x

def Taken (key : α → κ) (busy : α → Bool) (rows : List α) (k : κ) : Prop :=
  (∃ x ∈ rows, key x = k) ∧ ∀ x ∈ rows, key x = k → busy x = true

def Withheld (key : α → κ) (busy : α → Bool) (rows : List α) (k : κ) : Prop :=
  ∀ x ∈ rows, key x = k → busy x = true

def Works (key : α → κ) (busy out : α → Bool) (rows : List α) (k : κ) : Prop :=
  ∃ x ∈ rows, key x = k ∧ busy x = true ∧ out x = false

omit [DecidableEq κ] in
theorem not_withheld_of_free {x : α} (hx : x ∈ rows) (hb : busy x = false) :
    ¬ Withheld key busy rows (key x) := by
  intro h
  have hh := h x hx rfl
  rw [hb] at hh
  exact Bool.false_ne_true hh

omit [DecidableEq κ] in
theorem not_taken_of_free {x : α} (hx : x ∈ rows) (hb : busy x = false) :
    ¬ Taken key busy rows (key x) := fun h => not_withheld_of_free hx hb h.2

omit [DecidableEq κ] in
/-- Where there is a record and not every one is in use, one is free. -/
theorem exists_free_of_not_taken (h : ¬ Taken key busy rows k) (hk : k ∈ rows.map key) :
    ∃ x ∈ rows, key x = k ∧ busy x = false := by
  by_cases hf : ∃ x ∈ rows, key x = k ∧ busy x = false
  · exact hf
  · refine absurd ⟨List.mem_map.mp hk,fun x hx he => ?_⟩ h
    cases hb : busy x with
    | true => rfl
    | false => exact absurd ⟨x,hx,he,hb⟩ hf

/-- The record that is found is one in use. -/
theorem find?_of_taken (h : Taken key busy rows k) :
    ∃ x, rows.find? (fun x => key x = k) = some x ∧ busy x = true := by
  obtain ⟨⟨y,hy,he⟩,hall⟩ := h
  cases hf : rows.find? (fun x => key x = k) with
  | none => exact absurd (List.find?_eq_none.mp hf y hy) (by simp [he])
  | some x =>
    have hk : key x = k := by simpa using List.find?_some hf
    exact ⟨x,rfl,hall x (List.mem_of_find?_eq_some hf) hk⟩

theorem key_amend (hf : ∀ x, key (f x) = key x) (x : α) :
    key (if key x = k then f x else x) = key x := by
  by_cases hk : key x = k <;> simp [hk,hf]

theorem exists_key_amend (hf : ∀ x, key (f x) = key x) :
    (∃ x ∈ amend key rows k f, key x = m) ↔ ∃ x ∈ rows, key x = m := by
  constructor
  · rintro ⟨y,hy,he⟩
    obtain ⟨x,hx,rfl⟩ := List.mem_map.mp hy
    exact ⟨x,hx,(key_amend hf x).symm.trans he⟩
  · rintro ⟨x,hx,he⟩
    exact ⟨_,List.mem_map.mpr ⟨x,hx,rfl⟩,(key_amend hf x).trans he⟩

theorem withheld_amend_of_ne (hf : ∀ x, key (f x) = key x) (hm : m ≠ k)
    (h : Withheld key busy rows m) : Withheld key busy (amend key rows k f) m := by
  intro y hy he
  obtain ⟨x,hx,rfl⟩ := List.mem_map.mp hy
  by_cases hk : key x = k
  · simp only [hk,if_true,hf] at he
    exact absurd he.symm hm
  · simp only [hk,if_false] at he ⊢
    exact h x hx he

theorem withheld_amend_of_busy (hf : ∀ x, key (f x) = key x)
    (hb : ∀ x, busy x = true → busy (f x) = true) (h : Withheld key busy rows m) :
    Withheld key busy (amend key rows k f) m := by
  intro y hy he
  obtain ⟨x,hx,rfl⟩ := List.mem_map.mp hy
  by_cases hk : key x = k
  · simp only [hk,if_true,hf] at he ⊢
    exact hb x (h x hx (hk.trans he))
  · simp only [hk,if_false] at he ⊢
    exact h x hx he

theorem withheld_amend_self (hb : ∀ x, busy (f x) = true) :
    Withheld key busy (amend key rows k f) k := by
  intro y hy he
  obtain ⟨x,hx,rfl⟩ := List.mem_map.mp hy
  by_cases hk : key x = k
  · simp only [hk,if_true]
    exact hb x
  · simp only [hk,if_false] at he

omit [DecidableEq κ] in
theorem withheld_append {x : α} (hx : key x ≠ k) (h : Withheld key busy rows k) :
    Withheld key busy (rows ++ [x]) k := by
  intro z hz hk
  rcases List.mem_append.mp hz with hz | hz
  · exact h z hz hk
  · exact absurd (List.mem_singleton.mp hz ▸ hk) hx

theorem taken_amend_of_ne (hf : ∀ x, key (f x) = key x) (hm : m ≠ k) (h : Taken key busy rows m) :
    Taken key busy (amend key rows k f) m :=
  ⟨(exists_key_amend hf).mpr h.1,withheld_amend_of_ne hf hm h.2⟩

theorem taken_amend_of_busy (hf : ∀ x, key (f x) = key x)
    (hb : ∀ x, busy x = true → busy (f x) = true) (h : Taken key busy rows m) :
    Taken key busy (amend key rows k f) m :=
  ⟨(exists_key_amend hf).mpr h.1,withheld_amend_of_busy hf hb h.2⟩

theorem taken_amend_self (hf : ∀ x, key (f x) = key x) (hb : ∀ x, busy (f x) = true)
    (h : ∃ x ∈ rows, key x = k) : Taken key busy (amend key rows k f) k :=
  ⟨(exists_key_amend hf).mpr h,withheld_amend_self hb⟩

omit [DecidableEq κ] in
theorem taken_append {x : α} (hx : ∀ y ∈ rows, key y ≠ key x) (h : Taken key busy rows k) :
    Taken key busy (rows ++ [x]) k := by
  obtain ⟨⟨y,hy,he⟩,hall⟩ := h
  exact ⟨⟨y,by simp [hy],he⟩,withheld_append (fun hk => hx y hy (he.trans hk.symm)) hall⟩

theorem works_amend_of_idle (hb : ∀ x, ¬ (busy (f x) = true ∧ out (f x) = false)) :
    Works key busy out (amend key rows k f) m ↔ Works key busy out rows m ∧ m ≠ k := by
  constructor
  · rintro ⟨y,hy,he,hw⟩
    obtain ⟨x,hx,rfl⟩ := List.mem_map.mp hy
    by_cases hk : key x = k
    · simp only [hk,if_true] at hw
      exact absurd hw (hb x)
    · simp only [hk,if_false] at he hw
      exact ⟨⟨x,hx,he,hw⟩,fun hm => hk (he.trans hm)⟩
  · rintro ⟨⟨x,hx,he,hw⟩,hm⟩
    refine ⟨x,List.mem_map.mpr ⟨x,hx,?_⟩,he,hw⟩
    simp [he,hm]

theorem works_amend_of_claim (hf : ∀ x, key (f x) = key x) (hb : ∀ x, busy (f x) = true)
    (ho : ∀ x, out (f x) = out x) (h : ∃ x ∈ rows, key x = k ∧ out x = false) :
    Works key busy out (amend key rows k f) m ↔ Works key busy out rows m ∨ m = k := by
  constructor
  · rintro ⟨y,hy,he,hw⟩
    obtain ⟨x,hx,rfl⟩ := List.mem_map.mp hy
    by_cases hk : key x = k
    · simp only [hk,if_true,hf] at he
      exact Or.inr he.symm
    · simp only [hk,if_false] at he hw
      exact Or.inl ⟨x,hx,he,hw⟩
  · rintro (⟨x,hx,he,hw⟩ | rfl)
    · refine ⟨if key x = k then f x else x,List.mem_map.mpr ⟨x,hx,rfl⟩,?_⟩
      by_cases hk : key x = k
      · simp only [hk,if_true,hf,ho,hb]
        exact ⟨hk.symm.trans he,trivial,hw.2⟩
      · simp only [hk,if_false]
        exact ⟨he,hw⟩
    · obtain ⟨x,hx,he,hn⟩ := h
      refine ⟨f x,List.mem_map.mpr ⟨x,hx,by simp [he]⟩,?_⟩
      exact ⟨(hf x).trans he,hb x,(ho x).trans hn⟩

omit [DecidableEq κ] in
theorem works_append_of_idle {x : α} (hx : busy x = false) :
    Works key busy out (rows ++ [x]) k ↔ Works key busy out rows k := by
  constructor
  · rintro ⟨y,hy,he,hb,ho⟩
    rcases List.mem_append.mp hy with hy | hy
    · exact ⟨y,hy,he,hb,ho⟩
    · rw [List.mem_singleton.mp hy,hx] at hb
      exact absurd hb Bool.false_ne_true
  · rintro ⟨y,hy,he,hb,ho⟩
    exact ⟨y,List.mem_append_left _ hy,he,hb,ho⟩

/-- What a change to single records does not touch stays as it was, record by record. -/
theorem map_amend {β : Type} {g : α → β} (hf : ∀ x, g (f x) = g x) :
    (amend key rows k f).map g = rows.map g := by
  rw [amend,List.map_map]
  apply List.map_congr_left
  intro x _
  by_cases hk : key x = k <;> simp [hk,hf]

omit [DecidableEq κ] in
theorem taken_map {g : α → α} (hk : ∀ x, key (g x) = key x) (hb : ∀ x, busy (g x) = busy x) :
    Taken key busy (rows.map g) k ↔ Taken key busy rows k := by
  simp only [Taken,List.mem_map,forall_exists_index,and_imp,forall_apply_eq_imp_iff₂,hk,hb]
  refine and_congr_left fun _ => ⟨?_,?_⟩
  · rintro ⟨_,⟨x,hx,rfl⟩,he⟩
    exact ⟨x,hx,(hk x).symm.trans he⟩
  · rintro ⟨x,hx,he⟩
    exact ⟨g x,⟨x,hx,rfl⟩,(hk x).trans he⟩

omit [DecidableEq κ] in
theorem nodup_append {x : α} (hx : ∀ y ∈ rows, key y ≠ key x) (h : (rows.map key).Nodup) :
    ((rows ++ [x]).map key).Nodup := by
  rw [List.map_append]
  refine List.nodup_append.mpr ⟨h,by simp,?_⟩
  intro k hk m hm
  obtain ⟨y,hy,rfl⟩ := List.mem_map.mp hk
  rw [List.mem_singleton.mp hm]
  exact hx y hy

end Table

namespace Roster

def IdentityTaken (r : Roster) (name : String) : Prop :=
  Table.Taken Identity.name Identity.used r.identities name

def EgressTaken (r : Roster) (id : Int) : Prop := Table.Taken Egress.id Egress.inUse r.egresses id

def IdentityWorks (r : Roster) (name : String) : Prop :=
  Table.Works Identity.name Identity.used Identity.banned r.identities name

def EgressWorks (r : Roster) (id : Int) : Prop :=
  Table.Works Egress.id Egress.inUse Egress.dead r.egresses id

/-- No use flag is set. -/
def Unused (r : Roster) : Prop :=
  (∀ i ∈ r.identities, i.used = false) ∧ ∀ e ∈ r.egresses, e.inUse = false

theorem IdentityTaken.record {r : Roster} {name : String} (h : r.IdentityTaken name) :
    ∃ i, r.identity? name = some i ∧ i.used = true := Table.find?_of_taken h

theorem EgressTaken.record {r : Roster} {id : Int} (h : r.EgressTaken id) :
    ∃ e, r.egress? id = some e ∧ e.inUse = true := Table.find?_of_taken h

/-! ### What a claim finds -/

theorem lesser_cases (o : Option Egress) (f : Egress) :
    lesser o f = some f ∨ (o ≠ none ∧ lesser o f = o) := by
  cases o with
  | none => exact Or.inl rfl
  | some g =>
    simp only [lesser]
    split
    · exact Or.inl rfl
    · exact Or.inr ⟨by simp,rfl⟩

theorem mem_of_foldl_lesser {es : List Egress} {o : Option Egress} {e : Egress}
    (h : es.foldl lesser o = some e) : o = some e ∨ e ∈ es := by
  induction es generalizing o with
  | nil => exact Or.inl h
  | cons f es ih =>
    rcases ih h with hl | hm
    · rcases lesser_cases o f with hf | ⟨_,ho⟩
      · rw [hf] at hl
        exact Or.inr (by simp [Option.some.inj hl])
      · exact Or.inl (ho.symm.trans hl)
    · exact Or.inr (by simp [hm])

theorem foldl_lesser_eq_none {es : List Egress} {o : Option Egress} (h : es.foldl lesser o = none) :
    o = none ∧ es = [] := by
  induction es generalizing o with
  | nil => exact ⟨h,rfl⟩
  | cons f es ih =>
    have hl := (ih h).1
    rcases lesser_cases o f with hf | ⟨hn,ho⟩
    · simp [hf] at hl
    · exact absurd (ho.symm.trans hl) hn

theorem claimIdentity_ok {r r' : Roster} {i : Identity} (h : r.claimIdentity = (r',.ok i)) :
    ∃ j ∈ r.identities, j.used = false ∧ j.banned = false ∧ i = { j with used := true } ∧
      r' = r.updateIdentity j.name fun i => { i with used := true } := by
  unfold claimIdentity at h
  split at h
  · simp at h
  · rename_i j hj
    simp only [Prod.mk.injEq,Except.ok.injEq] at h
    have hc : j.claimable = true := List.find?_some hj
    simp only [Identity.claimable,Bool.and_eq_true,Bool.not_eq_true'] at hc
    exact ⟨j,List.mem_of_find?_eq_some hj,hc.1,hc.2,h.2.symm,h.1.symm⟩

theorem claimIdentity_error {r r' : Roster} {e : StoreFailure}
    (h : r.claimIdentity = (r',.error e)) :
    r' = r ∧ e = .notAvailable "identity" ∧ ∀ i ∈ r.identities, i.claimable = false := by
  unfold claimIdentity at h
  split at h
  · rename_i hn
    simp only [Prod.mk.injEq,Except.error.injEq] at h
    refine ⟨h.1.symm,h.2.symm,?_⟩
    intro i hi
    simpa using List.find?_eq_none.mp hn i hi
  · simp at h

theorem claimEgress_ok {r r' : Roster} {e : Egress} (h : r.claimEgress = (r',.ok e)) :
    ∃ f ∈ r.egresses, f.inUse = false ∧ f.dead = false ∧ e = { f with inUse := true } ∧
      r' = r.updateEgress f.id fun e => { e with inUse := true } := by
  unfold claimEgress at h
  split at h
  · simp at h
  · rename_i f hf
    simp only [Prod.mk.injEq,Except.ok.injEq] at h
    have hm : f ∈ r.egresses.filter (·.claimable) := by
      rcases mem_of_foldl_lesser hf with hn | hm
      · simp at hn
      · exact hm
    simp only [List.mem_filter,Egress.claimable,Bool.and_eq_true,Bool.not_eq_true'] at hm
    exact ⟨f,hm.1,hm.2.1,hm.2.2,h.2.symm,h.1.symm⟩

theorem claimEgress_error {r r' : Roster} {x : StoreFailure} (h : r.claimEgress = (r',.error x)) :
    r' = r ∧ x = .notAvailable "egress" ∧ ∀ e ∈ r.egresses, e.claimable = false := by
  unfold claimEgress at h
  split at h
  · rename_i hn
    simp only [Prod.mk.injEq,Except.error.injEq] at h
    refine ⟨h.1.symm,h.2.symm,?_⟩
    have hl := (foldl_lesser_eq_none hn).2
    intro e he
    simpa using List.filter_eq_nil_iff.mp hl e he
  · simp at h

theorem claimEgress_ok_next {r r' : Roster} {e : Egress} (h : r.claimEgress = (r',.ok e)) :
    r.nextEgress ≠ none := by
  intro hn
  simp [claimEgress,hn] at h

theorem claimEgress_error_next {r r' : Roster} {x : StoreFailure}
    (h : r.claimEgress = (r',.error x)) : r.nextEgress = none := by
  cases hn : r.nextEgress with
  | none => rfl
  | some e => simp [claimEgress,hn] at h

/-! ### What a change leaves taken -/

structure Keeps (r r' : Roster) : Prop where
  identities : ∀ n, r.IdentityTaken n → r'.IdentityTaken n
  egresses : ∀ e, r.EgressTaken e → r'.EgressTaken e

/-- Whatever is taken stays taken, apart from one name and one id. -/
structure Spares (name : String) (id : Int) (r r' : Roster) : Prop where
  identities : ∀ n, n ≠ name → r.IdentityTaken n → r'.IdentityTaken n
  egresses : ∀ e, e ≠ id → r.EgressTaken e → r'.EgressTaken e

theorem Keeps.refl (r : Roster) : Keeps r r := ⟨fun _ h => h,fun _ h => h⟩

theorem Keeps.trans {r r' r'' : Roster} (h : Keeps r r') (h' : Keeps r' r'') : Keeps r r'' :=
  ⟨fun n hn => h'.identities n (h.identities n hn),fun e he => h'.egresses e (h.egresses e he)⟩

theorem Keeps.spares {r r' : Roster} (h : Keeps r r') (name : String) (id : Int) :
    Spares name id r r' :=
  ⟨fun n _ => h.identities n,fun e _ => h.egresses e⟩

theorem Spares.trans {name : String} {id : Int} {r r' r'' : Roster} (h : Spares name id r r')
    (h' : Spares name id r' r'') : Spares name id r r'' :=
  ⟨fun n hn ht => h'.identities n hn (h.identities n hn ht),
    fun e he ht => h'.egresses e he (h.egresses e he ht)⟩

theorem keeps_ban (r : Roster) (name : String) : Keeps r (r.ban name) where
  identities _ h := Table.taken_amend_of_busy (fun _ => rfl) (fun _ hb => hb) h
  egresses _ h := h

theorem keeps_kill (r : Roster) (id : Int) : Keeps r (r.kill id) where
  identities _ h := h
  egresses _ h := Table.taken_amend_of_busy (fun _ => rfl) (fun _ hb => hb) h

theorem spares_releaseIdentity (r : Roster) (name : String) (id : Int) :
    Spares name id r (r.releaseIdentity name) where
  identities _ hn h := Table.taken_amend_of_ne (fun _ => rfl) hn h
  egresses _ _ h := h

theorem spares_releaseEgress (r : Roster) (name : String) (id : Int) :
    Spares name id r (r.releaseEgress id) where
  identities _ _ h := h
  egresses _ hi h := Table.taken_amend_of_ne (fun _ => rfl) hi h

theorem keeps_claimIdentity (r : Roster) : Keeps r r.claimIdentity.1 := by
  cases hc : r.claimIdentity with
  | mk r' x =>
    cases x with
    | error e => exact (claimIdentity_error hc).1 ▸ Keeps.refl r
    | ok i =>
      obtain ⟨j,_,_,_,_,rfl⟩ := claimIdentity_ok hc
      exact ⟨fun _ h => Table.taken_amend_of_busy (fun _ => rfl) (fun _ _ => rfl) h,fun _ h => h⟩

theorem keeps_claimEgress (r : Roster) : Keeps r r.claimEgress.1 := by
  cases hc : r.claimEgress with
  | mk r' x =>
    cases x with
    | error e => exact (claimEgress_error hc).1 ▸ Keeps.refl r
    | ok e =>
      obtain ⟨f,_,_,_,_,rfl⟩ := claimEgress_ok hc
      exact ⟨fun _ h => h,fun _ h => Table.taken_amend_of_busy (fun _ => rfl) (fun _ _ => rfl) h⟩

theorem keeps_addIdentity (r : Roster) (i : Identity) : Keeps r (r.addIdentity i).1 := by
  unfold addIdentity
  cases hi : r.identity? i.name with
  | some j => exact Keeps.refl r
  | none =>
    refine ⟨fun n h => Table.taken_append ?_ h,fun _ h => h⟩
    intro j hj he
    simpa [he] using List.find?_eq_none.mp hi j hj

theorem keeps_addEgress (r : Roster) (id : Int) : Keeps r (r.addEgress id).1 := by
  unfold addEgress
  cases hi : r.egress? id with
  | some f => exact Keeps.refl r
  | none =>
    refine ⟨fun _ h => h,fun e h => Table.taken_append ?_ h⟩
    intro f hf he
    simpa [he] using List.find?_eq_none.mp hi f hf

/-! ### What a change leaves at work -/

structure SameWorks (r r' : Roster) : Prop where
  identities : ∀ n, r'.IdentityWorks n ↔ r.IdentityWorks n
  egresses : ∀ e, r'.EgressWorks e ↔ r.EgressWorks e

theorem SameWorks.refl (r : Roster) : SameWorks r r := ⟨fun _ => Iff.rfl,fun _ => Iff.rfl⟩

theorem sameWorks_addIdentity (r : Roster) {i : Identity} (hi : i.used = false) :
    SameWorks r (r.addIdentity i).1 := by
  unfold addIdentity
  split
  · exact .refl r
  · refine ⟨fun n => ?_,fun _ => Iff.rfl⟩
    simp only [IdentityWorks]
    exact Table.works_append_of_idle hi

theorem sameWorks_addEgress (r : Roster) (id : Int) : SameWorks r (r.addEgress id).1 := by
  unfold addEgress
  split
  · exact .refl r
  · refine ⟨fun _ => Iff.rfl,fun e => ?_⟩
    simp only [EgressWorks]
    exact Table.works_append_of_idle rfl

theorem works_releaseIdentity {r : Roster} {name n : String} :
    (r.releaseIdentity name).IdentityWorks n ↔ r.IdentityWorks n ∧ n ≠ name :=
  Table.works_amend_of_idle (by simp)

theorem works_ban {r : Roster} {name n : String} :
    (r.ban name).IdentityWorks n ↔ r.IdentityWorks n ∧ n ≠ name :=
  Table.works_amend_of_idle (by simp)

theorem works_releaseEgress {r : Roster} {id e : Int} :
    (r.releaseEgress id).EgressWorks e ↔ r.EgressWorks e ∧ e ≠ id :=
  Table.works_amend_of_idle (by simp)

theorem works_kill {r : Roster} {id e : Int} :
    (r.kill id).EgressWorks e ↔ r.EgressWorks e ∧ e ≠ id :=
  Table.works_amend_of_idle (by simp)

theorem claimIdentity_works {r r' : Roster} {i : Identity} (h : r.claimIdentity = (r',.ok i)) :
    (∀ n, r'.IdentityWorks n ↔ r.IdentityWorks n ∨ n = i.name) ∧ r'.egresses = r.egresses := by
  obtain ⟨j,hj,_,hb,rfl,rfl⟩ := claimIdentity_ok h
  exact ⟨fun n => Table.works_amend_of_claim (fun _ => rfl) (fun _ => rfl) (fun _ => rfl) ⟨j,
    hj,rfl,hb⟩,rfl⟩

theorem claimEgress_works {r r' : Roster} {e : Egress} (h : r.claimEgress = (r',.ok e)) :
    (∀ x, r'.EgressWorks x ↔ r.EgressWorks x ∨ x = e.id) ∧ r'.identities = r.identities := by
  obtain ⟨f,hf,_,hd,rfl,rfl⟩ := claimEgress_ok h
  exact ⟨fun n => Table.works_amend_of_claim (fun _ => rfl) (fun _ => rfl) (fun _ => rfl) ⟨f,
    hf,rfl,hd⟩,rfl⟩

/-- A claim takes what was not taken, and the name stays taken. -/
theorem claimIdentity_taken {r r' : Roster} {i : Identity} (h : r.claimIdentity = (r',.ok i)) :
    ¬ r.IdentityTaken i.name ∧ r'.IdentityTaken i.name := by
  obtain ⟨j,hj,hu,_,rfl,rfl⟩ := claimIdentity_ok h
  have hn : ¬ r.IdentityTaken j.name := Table.not_taken_of_free hj hu
  exact ⟨hn,Table.taken_amend_self (fun _ => rfl) (fun _ => rfl) ⟨j,hj,rfl⟩⟩

theorem claimEgress_taken {r r' : Roster} {e : Egress} (h : r.claimEgress = (r',.ok e)) :
    ¬ r.EgressTaken e.id ∧ r'.EgressTaken e.id := by
  obtain ⟨f,hf,hu,_,rfl,rfl⟩ := claimEgress_ok h
  have hn : ¬ r.EgressTaken f.id := Table.not_taken_of_free hf hu
  exact ⟨hn,Table.taken_amend_self (fun _ => rfl) (fun _ => rfl) ⟨f,hf,rfl⟩⟩

/-! ### What a reconciliation leaves as it is -/

/-- Either no step fails and all statements are carried out, or the failure is that of a step. -/
theorem attempt_cases (fails : Nat → Option StoreFailure) (ss : List Statement) (r : Roster) :
    ((∀ k ≤ ss.length, fails k = none) ∧ attempt fails ss r = .ok (runAll ss r)) ∨
      ∃ k ≤ ss.length, ∃ e, fails k = some e ∧ attempt fails ss r = .error e := by
  induction ss generalizing fails r with
  | nil =>
    cases h : fails 0 with
    | none => exact Or.inl ⟨fun k hk => Nat.le_zero.mp hk ▸ h,by simp [attempt,h,runAll]⟩
    | some e => exact Or.inr ⟨0,Nat.le_refl 0,e,h,by simp [attempt,h]⟩
  | cons s ss ih =>
    cases h : fails 0 with
    | some e => exact Or.inr ⟨0,Nat.zero_le _,e,h,by simp [attempt,h]⟩
    | none =>
      rcases ih (fun k => fails (k + 1)) (s r).1 with ⟨hn,ha⟩ | ⟨k,hk,e,hf,ha⟩
      · refine Or.inl ⟨?_,by simp [attempt,h,ha,Except.map,runAll]⟩
        rintro (_ | k) hk
        · exact h
        · exact hn k (Nat.le_of_succ_le_succ hk)
      · exact Or.inr ⟨k + 1,Nat.succ_le_succ hk,e,hf,by simp [attempt,h,ha,Except.map]⟩

/-- A transaction is carried out as a whole, or it changes nothing. -/
theorem transaction_cases (fails : Nat → Option StoreFailure) (ss : List Statement) (r : Roster) :
    ((∀ k ≤ ss.length, fails k = none) ∧
      transaction fails ss r = ((runAll ss r).1,.ok (runAll ss r).2)) ∨ ∃ k ≤ ss.length, ∃ e,
    fails k = some e ∧ transaction fails ss r = (r,.error e) := by
  unfold transaction
  rcases attempt_cases fails ss r with ⟨hn,ha⟩ | ⟨k,hk,e,hf,ha⟩
  · exact Or.inl ⟨hn,by rw [ha]⟩
  · exact Or.inr ⟨k,hk,e,hf,by rw [ha]⟩

theorem transaction_of_none {fails : Nat → Option StoreFailure} {ss : List Statement}
    (h : ∀ k ≤ ss.length, fails k = none) (r : Roster) :
    transaction fails ss r = ((runAll ss r).1,.ok (runAll ss r).2) := by
  rcases transaction_cases fails ss r with ⟨_,ht⟩ | ⟨k,hk,e,hf,_⟩
  · exact ht
  · simp [h k hk] at hf

theorem map_setUsed {β : Type} (r : Roster) (used : Bool) (which : Identity → Bool)
    {g : Identity → β} (hg : ∀ i used, g { i with used } = g i) :
    (setUsed used which r).1.identities.map g = r.identities.map g := by
  simp only [setUsed,List.map_map]
  apply List.map_congr_left
  intro i _
  simp only [Function.comp]
  split <;> simp [hg]

theorem map_setInUse {β : Type} (r : Roster) (inUse : Bool) (which : Egress → Bool) {g : Egress → β}
    (hg : ∀ e inUse, g { e with inUse } = g e) :
    (setInUse inUse which r).1.egresses.map g = r.egresses.map g := by
  simp only [setInUse,List.map_map]
  apply List.map_congr_left
  intro e _
  simp only [Function.comp]
  split <;> simp [hg]

/-! ### Keys -/

/-- No two records of a kind have one key. -/
structure Distinct (r : Roster) : Prop where
  names : (r.identities.map (·.name)).Nodup
  ids : (r.egresses.map (·.id)).Nodup

namespace Distinct

variable {r : Roster}

theorem updateIdentity (h : r.Distinct) (name : String) {f : Identity → Identity}
    (hf : ∀ i, (f i).name = i.name) : (r.updateIdentity name f).Distinct where
  names := by
    have he : (r.updateIdentity name f).identities.map (·.name) = r.identities.map (·.name) :=
      Table.map_amend hf
    rw [he]
    exact h.names
  ids := h.ids

theorem updateEgress (h : r.Distinct) (id : Int) {f : Egress → Egress} (hf : ∀ e, (f e).id = e.id) :
    (r.updateEgress id f).Distinct where
  names := h.names
  ids := by
    have he : (r.updateEgress id f).egresses.map (·.id) = r.egresses.map (·.id) :=
      Table.map_amend hf
    rw [he]
    exact h.ids

theorem claimIdentity (h : r.Distinct) : r.claimIdentity.1.Distinct := by
  unfold Roster.claimIdentity
  split
  · exact h
  · exact h.updateIdentity _ fun _ => rfl

theorem claimEgress (h : r.Distinct) : r.claimEgress.1.Distinct := by
  unfold Roster.claimEgress
  split
  · exact h
  · exact h.updateEgress _ fun _ => rfl

theorem addIdentity (h : r.Distinct) (i : Identity) : (r.addIdentity i).1.Distinct := by
  unfold Roster.addIdentity
  cases hi : r.identity? i.name with
  | some j => exact h
  | none =>
    refine ⟨Table.nodup_append ?_ h.names,h.ids⟩
    intro j hj
    simpa using List.find?_eq_none.mp hi j hj

theorem addEgress (h : r.Distinct) (id : Int) : (r.addEgress id).1.Distinct := by
  unfold Roster.addEgress
  cases hi : r.egress? id with
  | some f => exact h
  | none =>
    refine ⟨h.names,Table.nodup_append ?_ h.ids⟩
    intro f hf
    simpa using List.find?_eq_none.mp hi f hf

theorem setUsed (h : r.Distinct) (used : Bool) (which : Identity → Bool) :
    (Roster.setUsed used which r).1.Distinct :=
  ⟨(r.map_setUsed used which (g := Identity.name) fun _ _ => rfl).symm ▸ h.names,h.ids⟩

theorem setInUse (h : r.Distinct) (inUse : Bool) (which : Egress → Bool) :
    (Roster.setInUse inUse which r).1.Distinct :=
  ⟨h.names,(r.map_setInUse inUse which (g := Egress.id) fun _ _ => rfl).symm ▸ h.ids⟩

theorem reconcile (h : r.Distinct) (assigned : List StatusEntry) :
    (r.reconcile assigned).1.Distinct :=
  match assigned with
  | [] => (h.setUsed _ _).setInUse _ _
  | _ :: _ => (((h.setUsed _ _).setUsed _ _).setInUse _ _).setInUse _ _

end Distinct

/-! ### What is condemned -/

def bannedFlags (r : Roster) : List (String × Bool) := r.identities.map fun i => (i.name,i.banned)

def deadFlags (r : Roster) : List (Int × Bool) := r.egresses.map fun e => (e.id,e.dead)

theorem bannedFlags_updateIdentity (r : Roster) (name : String) {f : Identity → Identity}
    (hf : ∀ i, (f i).name = i.name ∧ (f i).banned = i.banned) :
    (r.updateIdentity name f).bannedFlags = r.bannedFlags :=
  Table.map_amend fun i => Prod.ext (hf i).1 (hf i).2

theorem deadFlags_updateEgress (r : Roster) (id : Int) {f : Egress → Egress}
    (hf : ∀ e, (f e).id = e.id ∧ (f e).dead = e.dead) :
    (r.updateEgress id f).deadFlags = r.deadFlags :=
  Table.map_amend fun e => Prod.ext (hf e).1 (hf e).2

theorem flags_claimEgress (r : Roster) :
    r.claimEgress.1.deadFlags = r.deadFlags ∧ r.claimEgress.1.bannedFlags = r.bannedFlags := by
  unfold claimEgress
  split
  · exact ⟨rfl,rfl⟩
  · exact ⟨deadFlags_updateEgress r _ fun _ => ⟨rfl,rfl⟩,rfl⟩

def EgressDead (r : Roster) (id : Int) : Prop := Table.Taken Egress.id Egress.dead r.egresses id

def KeepsDead (r r' : Roster) : Prop := ∀ id, r.EgressDead id → r'.EgressDead id

theorem KeepsDead.refl (r : Roster) : KeepsDead r r := fun _ h => h

theorem KeepsDead.trans {r r' r'' : Roster} (h : KeepsDead r r') (h' : KeepsDead r' r'') :
    KeepsDead r r'' :=
  fun id hd => h' id (h id hd)

theorem keepsDead_updateEgress (r : Roster) (id : Int) {f : Egress → Egress}
    (hf : ∀ e, (f e).id = e.id) (hd : ∀ e, e.dead = true → (f e).dead = true) :
    KeepsDead r (r.updateEgress id f) :=
  fun _ h => Table.taken_amend_of_busy hf hd h

theorem keepsDead_claimEgress (r : Roster) : KeepsDead r r.claimEgress.1 := by
  unfold claimEgress
  split
  · exact .refl r
  · exact keepsDead_updateEgress r _ (fun _ => rfl) fun _ h => h

theorem keepsDead_claimIdentity (r : Roster) : KeepsDead r r.claimIdentity.1 := by
  unfold claimIdentity
  split <;> exact fun _ h => h

theorem keepsDead_addIdentity (r : Roster) (i : Identity) : KeepsDead r (r.addIdentity i).1 := by
  unfold addIdentity
  split <;> exact fun _ h => h

theorem keepsDead_addEgress (r : Roster) (id : Int) : KeepsDead r (r.addEgress id).1 := by
  unfold addEgress
  cases hi : r.egress? id with
  | some f => exact .refl r
  | none =>
    refine fun e h => Table.taken_append ?_ h
    intro f hf he
    simpa [he] using List.find?_eq_none.mp hi f hf

theorem egressDead_kill {r : Roster} {id : Int} (h : ∃ e ∈ r.egresses, e.id = id) :
    (r.kill id).EgressDead id :=
  Table.taken_amend_self (fun _ => rfl) (fun _ => rfl) h

def IdentityBanned (r : Roster) (name : String) : Prop :=
  Table.Taken Identity.name Identity.banned r.identities name

theorem identityBanned_ban {r : Roster} {name : String} (h : ∃ i ∈ r.identities, i.name = name) :
    (r.ban name).IdentityBanned name :=
  Table.taken_amend_self (fun _ => rfl) (fun _ => rfl) h

theorem IdentityBanned.ban {r : Roster} {name : String} (h : r.IdentityBanned name)
    (other : String) : (r.ban other).IdentityBanned name :=
  Table.taken_amend_of_busy (fun _ => rfl) (fun _ _ => rfl) h

theorem IdentityBanned.addIdentity {r : Roster} {name : String} (h : r.IdentityBanned name)
    (i : Identity) : (r.addIdentity i).1.IdentityBanned name := by
  unfold Roster.addIdentity
  cases hi : r.identity? i.name with
  | some j => exact h
  | none =>
    refine Table.taken_append ?_ h
    intro j hj he
    simpa [he] using List.find?_eq_none.mp hi j hj

theorem IdentityBanned.addEgress {r : Roster} {name : String}
    (h : r.IdentityBanned name) (id : Int) : (r.addEgress id).1.IdentityBanned name := by
  unfold Roster.addEgress
  split <;> exact h

/-- Nobody claims what is condemned. -/
theorem IdentityBanned.not_claimed {r r' : Roster} {i : Identity} (h : r.IdentityBanned i.name) :
    r.claimIdentity ≠ (r',.ok i) := by
  intro hc
  obtain ⟨j,hj,_,hb,rfl,_⟩ := claimIdentity_ok hc
  have hn : ¬ r.IdentityBanned j.name := Table.not_taken_of_free hj hb
  exact hn h

theorem EgressDead.not_claimed {r r' : Roster} {e : Egress} (h : r.EgressDead e.id) :
    r.claimEgress ≠ (r',.ok e) := by
  intro hc
  obtain ⟨f,hf,_,hd,rfl,_⟩ := claimEgress_ok hc
  have hn : ¬ r.EgressDead f.id := Table.not_taken_of_free hf hd
  exact hn h

/-! ### The records without their use flags -/

def bare (r : Roster) : Roster where
  identities := r.identities.map fun i => { i with used := false }
  egresses := r.egresses.map fun e => { e with inUse := false }

theorem identityBanned_bare {r : Roster} {name : String} :
    r.bare.IdentityBanned name ↔ r.IdentityBanned name :=
  Table.taken_map (fun _ => rfl) fun _ => rfl

theorem egressDead_bare {r : Roster} {id : Int} : r.bare.EgressDead id ↔ r.EgressDead id :=
  Table.taken_map (fun _ => rfl) fun _ => rfl

theorem egressIds_bare (r : Roster) : r.bare.egresses.map (·.id) = r.egresses.map (·.id) := by
  simp [bare]

theorem names_bare (r : Roster) : r.bare.identities.map (·.name) = r.identities.map (·.name) := by
  simp [bare]

theorem bare_updateIdentity (r : Roster) (name : String) {f : Identity → Identity}
    (hf : ∀ i, { f i with used := false } = { i with used := false }) :
    (r.updateIdentity name f).bare = r.bare :=
  congrArg (Roster.mk · r.bare.egresses) (Table.map_amend hf)

theorem bare_updateEgress (r : Roster) (id : Int) {f : Egress → Egress}
    (hf : ∀ e, { f e with inUse := false } = { e with inUse := false }) :
    (r.updateEgress id f).bare = r.bare :=
  congrArg (Roster.mk r.bare.identities) (Table.map_amend hf)

theorem bare_claimIdentity (r : Roster) : r.claimIdentity.1.bare = r.bare := by
  unfold claimIdentity
  split
  · rfl
  · exact r.bare_updateIdentity _ fun _ => rfl

theorem bare_claimEgress (r : Roster) : r.claimEgress.1.bare = r.bare := by
  unfold claimEgress
  split
  · rfl
  · exact r.bare_updateEgress _ fun _ => rfl

theorem bare_setUsed (r : Roster) (used : Bool) (which : Identity → Bool) :
    (setUsed used which r).1.bare = r.bare :=
  congrArg (Roster.mk · r.bare.egresses) (r.map_setUsed used which fun _ _ => rfl)

theorem bare_setInUse (r : Roster) (inUse : Bool) (which : Egress → Bool) :
    (setInUse inUse which r).1.bare = r.bare :=
  congrArg (Roster.mk r.bare.identities) (r.map_setInUse inUse which fun _ _ => rfl)

theorem bare_reconcile (r : Roster) (assigned : List StatusEntry) :
    (r.reconcile assigned).1.bare = r.bare := by
  cases assigned <;> simp only [reconcile,reconciliation,runAll,bare_setInUse,bare_setUsed]

end Roster

end ScanService
