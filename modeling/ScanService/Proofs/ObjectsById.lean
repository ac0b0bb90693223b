import Mathlib.Data.Finset.Card
import ScanService.Proofs.NearestFirst
import ScanService.Proofs.Persistence
import ScanService.Proofs.Purging
import ScanService.Store.Columns
/-! The objects by their ids. Whatever is written and removed, an id has one record, namely what was
written last, and nothing of what it had before. The columns of a database hold the table: every
statement does there what it does to the objects, and every row is read as the object that filled
it. -/
namespace ScanService

theorem ObjectKind.code_inj {k l : ObjectKind} : (k.code : ℤ) = l.code ↔ k = l := by
  refine ⟨fun h => ?_,fun h => by rw [h]⟩
  have hk := ofCode?_code k
  rw [h,ofCode?_code l] at hk
  exact (Option.some.inj hk).symm

/-! ### What is read from a cell -/

namespace Cell

open ObjectTable

variable {x : Float} {column : ℕ}

theorem isNull_ofFloat (x : Float) : (ofFloat x).isNull = x.isNaN := by
  unfold ofFloat
  cases x.isNaN <;> rfl

theorem ofFloat_of_number (h : x.isNaN = false) : ofFloat x = real (unsignedZero x) := by
  rw [ofFloat,h]
  rfl

theorem float_ofFloat (h : x.isNaN = false) : (ofFloat x).float column = .ok (unsignedZero x) := by
  rw [ofFloat_of_number h]
  rfl

theorem testReal_ofFloat (h : x.isNaN = false) (p : Float → Bool) :
    (ofFloat x).testReal p = p (unsignedZero x) := by
  rw [ofFloat_of_number h]
  rfl

theorem upTo_integer {top n : ℕ} (h : n ≤ top) : (integer n).upTo top column = .ok n := by
  simp [upTo,int,h]

theorem nullable_ofOption {α : Type} {f : α → Cell} {read : Cell → Except RowFault α}
    (hf : ∀ a, (f a).isNull = false) (hr : ∀ a, read (f a) = .ok a) (a : Option α) :
    nullable read (ofOption f a) = .ok a := by
  cases a with
  | none => rfl
  | some a =>
    have hn : nullable read (f a) = (read (f a)).map some := by
      unfold nullable
      split
      · rename_i he
        exact absurd (hf a) (by simp [he,isNull])
      · rfl
    rw [ofOption,hn,hr]
    rfl

end Cell

namespace ObjectTable

variable {o p : ScanObject Float} {rows : List (ScanObject Float)} {t : ObjectTable Float}

theorem unsignedZero_unsignedZero (x : Float) : unsignedZero (unsignedZero x) = unsignedZero x := by
  by_cases h : x.toBits = 0x8000000000000000
  · have hz : unsignedZero x = 0.0 := if_pos h
    rw [hz]
    exact if_neg (by decide +kernel)
  · have hx : unsignedZero x = x := if_neg h
    rw [hx,hx]

theorem row_row (o : ScanObject Float) : row (row o) = row o := by
  simp only [row,unsignedZero_unsignedZero]

theorem missingColumn_eq_none_iff : missingColumn o = none ↔ o.lat.isNaN = false ∧
    o.lng.isNaN = false := by
  refine ⟨numbers_of_missingColumn,?_⟩
  rintro ⟨hlat,hlng⟩
  rw [missingColumn,hlat,hlng]
  rfl

end ObjectTable

namespace ObjectRow

open ObjectTable

variable {o p : ScanObject Float}

theorem object?_ofObject (h : missingColumn o = none) : (ofObject o).object? = .ok (row o) := by
  obtain ⟨hlat,hlng⟩ := numbers_of_missingColumn h
  have hspecies : (Cell.ofOption (fun n : UInt32 => .integer n.toNat) o.species).nullable
      (fun c => (c.upTo 0xFFFFFFFF 5).map UInt32.ofNat) = .ok o.species := by
    refine Cell.nullable_ofOption (fun _ => rfl) (fun n => ?_) o.species
    rw [Cell.upTo_integer (Nat.le_of_lt_succ n.toNat_lt)]
    exact congrArg Except.ok UInt32.ofNat_toNat
  have hteam : (Cell.ofOption (fun n : UInt8 => .integer n.toNat) o.team).nullable
      (fun c => (c.upTo 0xFF 6).map UInt8.ofNat) = .ok o.team := by
    refine Cell.nullable_ofOption (fun _ => rfl) (fun n => ?_) o.team
    rw [Cell.upTo_integer (Nat.le_of_lt_succ n.toNat_lt)]
    exact congrArg Except.ok UInt8.ofNat_toNat
  have hlured : (Cell.ofOption (fun b : Bool => .integer (if b then 1 else 0)) o.lured).nullable
      (Cell.flag 7) = .ok o.lured :=
      Cell.nullable_ofOption (fun _ => rfl) (fun b => by cases b <;> rfl) o.lured
  simp only [object?,ofObject,Cell.int,Cell.string,Cell.float_ofFloat hlat,Cell.float_ofFloat hlng,
    hspecies,hteam,hlured,bind,Except.bind,pure,Except.pure,ObjectKind.ofCode?_code]
  rfl

theorem emptyColumn_ofObject (o : ScanObject Float) :
    (ofObject o).emptyColumn = missingColumn o := by
  unfold emptyColumn missingColumn
  simp only [ofObject,List.find?_cons,Cell.isNull_ofFloat]
  cases o.lat.isNaN <;> cases o.lng.isNaN <;> rfl

theorem ofObject_row (h : missingColumn o = none) : ofObject (row o) = ofObject o := by
  obtain ⟨hlat,hlng⟩ := numbers_of_missingColumn h
  simp only [ofObject,row,Cell.ofFloat_of_number hlat,Cell.ofFloat_of_number hlng,
    unsignedZero_unsignedZero,Cell.ofFloat_of_number (isNaN_unsignedZero hlat),
    Cell.ofFloat_of_number (isNaN_unsignedZero hlng)]

theorem overwrite_ofObject (h : p.id = o.id) :
    (ofObject p).overwrite (ofObject o) = ofObject o := by
  simp [overwrite,ofObject,h]

theorem outdated_ofObject (threshold : ℤ) (o : ScanObject Float) :
    (ofObject o).outdated threshold = expired threshold o := by
  have hk : decide ((o.kind.code : ℤ) = ObjectKind.creature.code) = decide
      (o.kind = .creature) := by
    cases o.kind <;> rfl
  simp only [outdated,ofObject,Cell.testInt,expired,hk]

theorem selected_ofObject (h : missingColumn o = none) (hrow : row o = o) (box : Box Float)
    (kinds : List ObjectKind) (now : ℤ) :
    (ofObject o).selected box kinds
      now = (kinds.contains o.kind && o.live now && box.holds o.place) := by
  obtain ⟨hlat,hlng⟩ := numbers_of_missingColumn h
  have hz : unsignedZero o.lat = o.lat := congrArg ScanObject.lat hrow
  have hz' : unsignedZero o.lng = o.lng := congrArg ScanObject.lng hrow
  have hk : (kinds.any fun k => decide ((k.code : ℤ) = o.kind.code)) = kinds.contains o.kind := by
    rw [Bool.eq_iff_iff,List.any_eq_true,List.contains_iff_mem]
    simp only [decide_eq_true_eq,ObjectKind.code_inj,exists_eq_right]
  simp only [selected,ofObject,Cell.testInt,hk,Cell.testReal_ofFloat hlat,
    Cell.testReal_ofFloat hlng,hz,hz',ScanObject.live,Box.holds,ScanObject.place]
  cases box.sides <;> simp only [Bool.and_assoc] <;> rfl

end ObjectRow

namespace ObjectTable

variable {o p : ScanObject Float} {rows : List (ScanObject Float)} {t : ObjectTable Float}

/-- What the writes keep up: the table is proper, and its rows have the form of rows. -/
structure Kept (t : ObjectTable Float) : Prop extends t.Proper where
  form : ∀ o ∈ t.rows, row o = o

theorem kept_empty : Kept .empty := ⟨Store.proper_empty (s := .empty) rfl,by simp [empty]⟩

theorem Kept.write (h : t.Kept) (p : ScanObject Float) : (t.write p).1.Kept := by
  refine ⟨h.toProper.write p,fun o ho => ?_⟩
  rcases t.write_cases p with ⟨e,he⟩ | ⟨hw,_⟩
  · rw [he] at ho
    exact h.form o ho
  · rw [hw] at ho
    rcases mem_upsert ho with rfl | ho
    · exact row_row p
    · exact h.form o ho

theorem Kept.purge (h : t.Kept) (threshold : ℤ) : (t.purge threshold).1.Kept :=
  ⟨h.toProper.purge threshold,fun o ho => h.form o (mem_purge.mp ho).1⟩

theorem Kept.missingColumn (h : t.Kept) (ho : o ∈ t.rows) : missingColumn o = none :=
  missingColumn_eq_none_iff.mpr ⟨h.lat o ho,h.lng o ho⟩

theorem upsert_of_mem (hn : (rows.map (·.id)).Nodup) (ho : o.id ∈ rows.map (·.id)) :
    upsert o rows = rows.map fun p => if p.id = o.id then o else p := by
  induction rows with
  | nil => simp at ho
  | cons p rows ih =>
    obtain ⟨hp,hn⟩ := List.nodup_cons.mp hn
    by_cases hid : p.id = o.id
    · have hm : o.id ∉ rows.map ScanObject.id := by rwa [← hid]
      rw [upsert,if_pos hid,List.map_cons,if_pos hid,map_replace_of_not_mem hm]
    · have ho : o.id ∈ rows.map ScanObject.id := (List.mem_cons.mp ho).resolve_left (Ne.symm hid)
      rw [upsert,if_neg hid,List.map_cons,if_neg hid,ih hn ho]

theorem upsert_of_not_mem (ho : o.id ∉ rows.map (·.id)) : upsert o rows = rows ++ [o] := by
  induction rows with
  | nil => rfl
  | cons p rows ih =>
    have hp : ¬ p.id = o.id := fun hp => ho (hp ▸ List.mem_cons_self)
    rw [upsert,if_neg hp,ih fun h => ho (List.mem_cons_of_mem _ h),List.cons_append]

end ObjectTable

/-! ### The statements of the database -/

namespace ObjectRows

open ObjectTable ObjectRow

variable {t : ObjectTable Float} {o : ScanObject Float}

theorem find?_ofTable (t : ObjectTable Float) (x : String) :
    (ofTable t).rows.find? (·.id.isText x) = (t.get? x).map ofObject := List.find?_map

theorem any_ofTable (t : ObjectTable Float) (x : String) :
    (ofTable t).rows.any (·.id.isText x) = (t.get? x).isSome := by
  rw [Bool.eq_iff_iff,List.any_eq_true,← List.find?_isSome,find?_ofTable,Option.isSome_map]

theorem get_ofTable (h : t.Kept) (x : String) : (ofTable t).get x = .ok (t.get? x) := by
  rw [get,find?_ofTable]
  cases hg : t.get? x with
  | none => rfl
  | some o =>
    have ho : o ∈ t.rows := List.mem_of_find?_eq_some hg
    simp only [Option.map_some,object?_ofObject (h.missingColumn ho),h.form o ho]
    rfl

theorem overwrite_row (hm : missingColumn o = none) (p : ScanObject Float) :
    ofObject (if p.id = o.id then row o else p) =
      if (ofObject p).id.isText o.id then (ofObject p).overwrite (ofObject o) else ofObject p := by
  by_cases hid : p.id = o.id
  · have ht : (ofObject p).id.isText o.id = true := decide_eq_true hid
    rw [if_pos hid,if_pos ht,overwrite_ofObject hid,ofObject_row hm]
  · have ht : ¬ (ofObject p).id.isText o.id = true := fun ht => hid (of_decide_eq_true ht)
    rw [if_neg hid,if_neg ht]

theorem write_ofTable (h : t.Kept) (o : ScanObject Float) :
    (ofTable t).write o = (ofTable (t.write o).1,(t.write o).2) := by
  simp only [ObjectRows.write,ObjectTable.write,emptyColumn_ofObject,any_ofTable]
  cases hm : missingColumn o with
  | some column => rfl
  | none =>
    cases hg : (t.get? o.id).isSome with
    | true =>
      cases o.kind.ephemeral with
      | true => rfl
      | false =>
        have hu : upsert (row o) t.rows = t.rows.map fun p => if p.id = o.id then row o else p :=
          upsert_of_mem h.ids (get?_isSome.mp hg)
        simp [ofTable,hu,Function.comp_def,overwrite_row hm]
    | false =>
      have hid : (row o).id ∉ t.rows.map (·.id) := fun hid =>
        Bool.false_ne_true (hg.symm.trans (get?_isSome.mpr hid))
      have hu : upsert (row o) t.rows = t.rows ++ [row o] := upsert_of_not_mem hid
      simp [ofTable,hu,ofObject_row hm]

theorem purge_ofTable (t : ObjectTable Float) (threshold : ℤ) :
    (ofTable t).purge threshold = (ofTable (t.purge threshold).1,(t.purge threshold).2) := by
  simp only [ObjectRows.purge,ObjectTable.purge,ofTable,List.filter_map,List.length_map,
    Function.comp_def,outdated_ofObject]

theorem mapM_object? {os : List (ScanObject Float)} (h : ∀ o ∈ os, (ofObject o).object? = .ok o) :
    (os.map ofObject).mapM object? = .ok os := by
  induction os with
  | nil => rfl
  | cons o os ih =>
    obtain ⟨ho,hos⟩ := List.forall_mem_cons.mp h
    rw [List.map_cons,List.mapM_cons,ho,ih hos]
    rfl

theorem query_ofTable (h : t.Kept) (g : Geometry Float) (center : Coordinate Float) (radius : Float)
    (kinds : List ObjectKind) (now : ℤ) :
    (ofTable t).query g center radius kinds now = .ok (t.query g center radius kinds now) := by
  have hf : (ofTable t).rows.filter (·.selected (Box.around g center radius) kinds now) =
      (t.wanted (Box.around g center radius) kinds now).map ofObject := by
    rw [ofTable,List.filter_map,wanted]
    exact congrArg _ (List.filter_congr fun o ho =>
      selected_ofObject (h.missingColumn ho) (h.form o ho) (Box.around g center radius) kinds now)
  have hm : ∀ o ∈ t.wanted (Box.around g center radius) kinds now, (ofObject o).object? = .ok o :=
    fun o ho => by
    have ho := (t.wanted_sublist (Box.around g center radius) kinds now).subset ho
    rw [object?_ofObject (h.missingColumn ho),h.form o ho]
  rw [ObjectRows.query,ObjectTable.query,hf,mapM_object? hm]
  split <;> rfl

/-- The columns hold the table: a statement does there what it does to the objects, and finds the
objects that they find. -/
structure Hold (t : ObjectTable Float) : Prop where
  read : ∀ r ∈ (ofTable t).rows, ∃ o ∈ t.rows, r.object? = .ok o
  write : ∀ o, (ofTable t).write o = (ofTable (t.write o).1,(t.write o).2)
  purge : ∀ threshold, (ofTable t).purge threshold = (ofTable (t.purge threshold).1,
    (t.purge threshold).2)
  get : ∀ x, (ofTable t).get x = .ok (t.get? x)
  query : ∀ g center radius kinds now,
    (ofTable t).query g center radius kinds now = .ok (t.query g center radius kinds now)
  count : (ofTable t).count = t.size

theorem hold (h : t.Kept) : Hold t where
  read r hr := by
    obtain ⟨o,ho,rfl⟩ := List.mem_map.mp hr
    exact ⟨o,ho,by rw [object?_ofObject (h.missingColumn ho),h.form o ho]⟩
  write := write_ofTable h
  purge := purge_ofTable t
  get := get_ofTable h
  query := query_ofTable h
  count := List.length_map _

end ObjectRows

/-! ### The operations -/

namespace ObjectTable

variable {o : ScanObject Float} {t : ObjectTable Float}

theorem write_of_missing {column : String} (h : missingColumn o = some column)
    (t : ObjectTable Float) : (t.write o).2 = .error (.notNull column) := by
  simp [write,h]

theorem missingColumn_of_isNaN (h : o.lat.isNaN = true ∨ o.lng.isNaN = true) :
    ∃ column, missingColumn o = some column := by
  refine Option.ne_none_iff_exists'.mp fun hm => ?_
  obtain ⟨hlat,hlng⟩ := numbers_of_missingColumn hm
  rw [hlat,hlng] at h
  exact h.elim Bool.false_ne_true Bool.false_ne_true

/-- A write is refused as a duplicate for a creature whose id is there, and for nothing else. -/
theorem duplicate_iff (t : ObjectTable Float) (o : ScanObject Float) :
    (∃ e, (t.write o).2 = .error e ∧ e.isDuplicate = true) ↔
      o.kind = .creature ∧ (t.get? o.id).isSome ∧ missingColumn o = none := by
  unfold write
  cases hm : missingColumn o with
  | some column => simp [StoreFailure.isDuplicate]
  | none => cases o.kind <;> cases t.get? o.id <;> simp [ObjectKind.ephemeral,
      StoreFailure.isDuplicate]

theorem write_ok_iff (t : ObjectTable Float) (o : ScanObject Float) :
    (t.write o).2 = .ok () ↔ missingColumn o = none ∧
      (o.kind = .creature → t.get? o.id = none) := by
  unfold write
  cases hm : missingColumn o with
  | some column => simp
  | none => cases o.kind <;> cases t.get? o.id <;> simp [ObjectKind.ephemeral]

theorem get?_write_of_ok (h : (t.write o).2 = .ok ()) (x : String) :
    (t.write o).1.get? x = if o.id = x then some (row o) else t.get? x := by
  rcases t.write_cases o with ⟨e,he⟩ | ⟨hw,_⟩
  · rw [he] at h
    cases h
  · rw [hw]
    exact find?_upsert (row o) t.rows x

theorem row_eq_self (hlat : o.lat.toBits ≠ 0x8000000000000000)
    (hlng : o.lng.toBits ≠ 0x8000000000000000) : row o = o := by
  rw [row,unsignedZero,if_neg hlat,unsignedZero,if_neg hlng]

theorem Proper.size_eq_card (h : t.Proper) : t.size = (t.rows.map (·.id)).toFinset.card := by
  rw [List.toFinset_card_of_nodup h.ids,List.length_map,size]

end ObjectTable

namespace Store

open ObjectTable

variable {s : Store} {o : ScanObject Float}

/-- A call that is accepted is carried out. -/
theorem Accepts.call {α : Type} {c : StoreCall} (h : s.Accepts c)
    (run : Store → Store × Except StoreFailure α) : ∃ t, Spends s t ∧ s.call c run = run t := by
  unfold Store.call
  split
  · exact ⟨s,.refl s,rfl⟩
  · rename_i hc
    simp [Accepts,hc] at h
  · rename_i hc
    exact ⟨_,spends_plan hc,rfl⟩

theorem kept_runCommands (hs : s.objects.Kept) (cs : List Command) :
    (s.runCommands cs).objects.Kept := by
  induction cs generalizing s with
  | nil => exact hs
  | cons c cs ih => exact ih (objects_run (fun _ p h => h.write p) (fun _ n h => h.purge n) hs c)

theorem objects_run_error {c : Command} {e : StoreFailure} (h : (s.run c).2 = .error e) :
    (s.run c).1.objects = s.objects := by
  cases c with
  | write p =>
    change (s.write p).2.map _ = _ at h
    cases hp : (s.write p).2 with
    | ok a => simp [hp,Except.map] at h
    | error e => exact objects_of_write_error hp
  | purge threshold =>
    rcases s.onObjects_cases .purge fun t => ((t.purge threshold).1,.ok (t.purge threshold).2)
      with hs | ⟨_,ha⟩
    · exact hs
    · change (s.purge threshold).2.map _ = _ at h
      rw [purge,ha] at h
      cases h
  | query _ _ _ _ | get _ | count | identityStats | egressStats | getIdentity _
  | getEgress _ | banned =>
    exact s.objects_ask _ _
  | claimIdentity | claimEgress | releaseIdentity _ | releaseEgress _ | ban _ | kill _ | reconcile _
  | markAllUnused | addIdentity _ | addEgress _ | dropAllEgress | removeDeadEgress =>
    exact s.objects_onRoster _ _

/-- The table of a store is a map by id. There is one record to an id; what is written is found, and
what other ids have stays; a write says why it was refused, and nothing that fails changes the
table. -/
structure ById (s : Store) : Prop where
  unique : (s.objects.rows.map (·.id)).Nodup
  counted : ∃ ids : Finset String, (∀ x, x ∈ ids ↔ (s.objects.get? x).isSome) ∧
    (s.Accepts .count → s.count.2 = .ok ids.card)
  got : s.Accepts .get → ∀ x, (s.get x).2 = .ok (s.objects.get? x)
  found : s.Accepts .query → ∀ center radius kinds now,
    (s.query center radius kinds now).2 = .ok (s.objects.query .sphere center radius kinds now)
  written : ∀ o, (s.write o).2 = .ok () → (s.write o).1.Accepts .get → ∀ x,
    ((s.write o).1.get x).2 = .ok (if o.id = x then some (row o) else s.objects.get? x)
  /-- What is found is the object, field for field, where no coordinate is the negative zero. -/
  whole : ∀ o, (s.write o).2 = .ok () → o.lat.toBits ≠ 0x8000000000000000 →
    o.lng.toBits ≠ 0x8000000000000000 → (s.write o).1.objects.get? o.id = some o
  accepted : s.Accepts .write → ∀ o, (s.write o).2 = .ok () ↔
    (o.lat.isNaN = false ∧ o.lng.isNaN = false) ∧ (o.kind = .creature → s.objects.get? o.id = none)
  duplicate : s.Accepts .write → ∀ o, (∃ e, (s.write o).2 = .error e ∧ e.isDuplicate = true) ↔
    o.kind = .creature ∧ (s.objects.get? o.id).isSome ∧ o.lat.isNaN = false ∧ o.lng.isNaN = false
  missing : s.Accepts .write → ∀ o, o.lat.isNaN = true ∨ o.lng.isNaN = true →
    ∃ column, (s.write o).2 = .error (.notNull column)
  failed : ∀ c e, (s.run c).2 = .error e → (s.run c).1.objects = s.objects
  columns : ObjectRows.Hold s.objects

theorem Accepts.write (h : s.Accepts .write) (o : ScanObject Float) :
    (s.write o).2 = (s.objects.write o).2 := by
  obtain ⟨t,ht,he⟩ :=
    h.call fun s => ({ s with objects := (s.objects.write o).1 },(s.objects.write o).2)
  rw [Store.write,onObjects,he,ht.objects]

theorem Accepts.ask {α : Type} {c : StoreCall} (h : s.Accepts c) (f : ObjectTable Float → α) :
    (s.ask c fun s => f s.objects).2 = .ok (f s.objects) := by
  obtain ⟨t,ht,he⟩ := h.call fun s => (s,.ok (f s.objects))
  rw [Store.ask,he,ht.objects]

theorem write_ok (h : (s.write o).2 = .ok ()) : (s.objects.write o).2 = .ok () := by
  rw [write_eq] at h
  split at h
  · exact h
  · cases h
  · exact h

theorem get?_write_of_ok (h : (s.write o).2 = .ok ()) (x : String) :
    (s.write o).1.objects.get? x = if o.id = x then some (row o) else s.objects.get? x := by
  rw [objects_of_write_ok h,ObjectTable.get?_write_of_ok (write_ok h)]

theorem byId (h : s.objects.Kept) : s.ById where
  unique := h.ids
  counted := by
    refine ⟨(s.objects.rows.map (·.id)).toFinset,fun x => ?_,fun ha => ?_⟩
    · rw [get?_isSome,List.mem_toFinset]
    · rw [← h.size_eq_card]
      exact ha.ask ObjectTable.size
  got ha x := ha.ask (·.get? x)
  found ha center radius kinds now := ha.ask (·.query Geometry.sphere center radius kinds now)
  written o ho ha x := by
    rw [← get?_write_of_ok ho]
    exact ha.ask (·.get? x)
  whole o ho hlat hlng := by rw [get?_write_of_ok ho,if_pos rfl,row_eq_self hlat hlng]
  accepted ha o := by rw [ha.write,write_ok_iff,missingColumn_eq_none_iff]
  duplicate ha o := by rw [ha.write,duplicate_iff,missingColumn_eq_none_iff]
  missing ha o hn := by
    obtain ⟨column,hm⟩ := missingColumn_of_isNaN hn
    exact ⟨column,by rw [ha.write,write_of_missing hm]⟩
  failed c e he := objects_run_error he
  columns := ObjectRows.hold h

/-- Whatever a store without objects is asked to do, with whichever of its calls failing, its table
is a map by id. -/
theorem objects_by_id (roster : Roster) (faults : StoreCall → List (Option StoreFailure))
    (cs : List Command) : ((Store.mk roster .empty faults).runCommands cs).ById :=
    byId (kept_runCommands kept_empty cs)

example : ((meadow.write crossing).1.objects.get? "x").map (fun o => (o.kind,o.species,o.lured)) =
    some (.checkpoint,none,some true) := rfl

end Store

end ScanService
