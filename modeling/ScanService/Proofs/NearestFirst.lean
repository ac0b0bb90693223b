import Mathlib.Data.List.Sort
import ScanService.Proofs.KeyedLists
import ScanService.Proofs.MachineNumbers
import ScanService.Proofs.StoredObjects
/-! The answers of a search. They are stored objects that are live, wanted and near, each once, the
nearest first, and objects at one distance in a fixed order: so the records determine the answer,
whatever order they were written in, up to the order of what nothing tells apart. -/
namespace ScanService

section Stable

variable {α κ : Type} {l : List α} {a b : α}

theorem not_sublist_swap (hn : l.Nodup) (h : [a,b].Sublist l) : ¬ [b,a].Sublist l := by
  induction l with
  | nil => simp at h
  | cons c l ih =>
    obtain ⟨hc,hn⟩ := List.nodup_cons.mp hn
    intro h'
    rcases List.sublist_cons_iff.mp h with hl | ⟨r,hr,hl⟩ <;>
      rcases List.sublist_cons_iff.mp h' with hl' | ⟨r',hr',hl'⟩
    · exact ih hn hl hl'
    · obtain ⟨rfl,_⟩ := List.cons.inj hr'
      exact hc (hl.subset (List.mem_cons_of_mem a List.mem_cons_self))
    · obtain ⟨rfl,_⟩ := List.cons.inj hr
      exact hc (hl'.subset (List.mem_cons_of_mem b List.mem_cons_self))
    · obtain ⟨rfl,rfl⟩ := List.cons.inj hr
      obtain ⟨rfl,_⟩ := List.cons.inj hr'
      exact hc (List.singleton_sublist.mp hl)

theorem sublist_or_swap (ha : a ∈ l) (hb : b ∈ l) (hab : a ≠ b) :
    [a,b].Sublist l ∨ [b,a].Sublist l := by
  obtain ⟨before,after,rfl⟩ := List.append_of_mem ha
  rcases List.mem_append.mp hb with hb | hb
  · have ha : [a].Sublist (a :: after) := List.singleton_sublist.mpr List.mem_cons_self
    exact Or.inr ((List.singleton_sublist.mpr hb).append ha)
  · have hb := List.mem_of_ne_of_mem hab.symm hb
    exact Or.inl (((List.singleton_sublist.mpr hb).cons_cons a).trans
      (List.sublist_append_right _ _))

/-- Sorted by a key, the items stand in the order of their keys, and those of one key as before. -/
theorem pairwise_mergeSort_key [LinearOrder κ] (key : α → κ) (hn : l.Nodup) :
    (l.mergeSort fun a b => decide (key a ≤ key b)).Pairwise
      fun a b => key a ≤ key b ∧ (key b ≤ key a → [a,b].Sublist l) := by
  have htrans : ∀ a b c, decide (key a ≤ key b) = true → decide (key b ≤ key c) = true →
      decide (key a ≤ key c) = true := by
    simpa using fun a b c => le_trans
  have htotal : ∀ a b, (decide (key a ≤ key b) || decide (key b ≤ key a)) = true := by
    simpa using fun a b => le_total (key a) (key b)
  have hp := List.mergeSort_perm l fun a b => decide (key a ≤ key b)
  have hsn := hp.nodup_iff.mpr hn
  refine List.pairwise_iff_forall_sublist.mpr fun {a b} h => ?_
  have hle := List.pairwise_iff_forall_sublist.mp (List.pairwise_mergeSort htrans htotal l) h
  refine ⟨of_decide_eq_true hle,fun hge => ?_⟩
  have hab : a ≠ b := by
    rintro rfl
    exact List.nodup_iff_sublist.mp hsn a h
  -- were they the other way round before, they would be so now
  refine (sublist_or_swap (hp.subset (h.subset (by simp))) (hp.subset (h.subset (by simp)))
    hab).resolve_right ?_
  exact fun hs => not_sublist_swap hsn h
    (List.pair_sublist_mergeSort htrans htotal (decide_eq_true hge) hs)

theorem mergeSort_congr {r s : α → α → Bool} (h : ∀ a ∈ l, ∀ b ∈ l, r a b = s a b) :
    l.mergeSort r = l.mergeSort s := by
  have hm := List.map_mergeSort (f := id) h
  simpa using hm

theorem toLex_le_and {μ : Type} [LinearOrder κ] [LinearOrder μ] {k k' : κ} {m m' : μ} {P : Prop} :
    toLex (k,m) ≤ toLex (k',m') ∧ (toLex (k',m') ≤ toLex (k,m) → P) ↔
      k ≤ k' ∧ (k' ≤ k → m ≤ m' ∧ (m' ≤ m → P)) := by
  simp only [Prod.Lex.toLex_le_toLex]
  rcases lt_trichotomy k k' with hlt | rfl | hlt
  · simp [hlt,hlt.le,hlt.not_ge,hlt.not_gt,hlt.ne']
  · simp
  · simp [hlt.not_ge,hlt.not_gt,hlt.ne']

end Stable

namespace ObjectTable

open Machine

variable {t t' : ObjectTable Float} {g : Geometry Float} {center : Coordinate Float}
    {radius : Float}
  {kinds : List ObjectKind} {now : Int} {a b o : ScanObject Float}

/-- What the writes keep up: the rows have different ids, and their coordinates are numbers. -/
structure Proper (t : ObjectTable Float) : Prop where
  ids : (t.rows.map (·.id)).Nodup
  lat : ∀ o ∈ t.rows, o.lat.isNaN = false
  lng : ∀ o ∈ t.rows, o.lng.isNaN = false

/-! ### What stands before what -/

/-- The order of the answers: by distance, then by kind, by latitude, by longitude, and last as
their ids were first written. -/
def Ahead (t : ObjectTable Float) (g : Geometry Float) (center : Coordinate Float)
    (a b : ScanObject Float) : Prop :=
  g.distance center a.place ≤ g.distance center b.place ∧
    (g.distance center b.place ≤ g.distance center a.place → a.kind.code ≤ b.kind.code ∧
      (a.kind.code = b.kind.code → a.lat ≤ b.lat ∧
        (b.lat ≤ a.lat → a.lng ≤ b.lng ∧ (b.lng ≤ a.lng → [a,b].Sublist t.rows))))

/-- Nothing but the order of the writes tells the objects apart. -/
structure Tied (g : Geometry Float) (center : Coordinate Float) (a b : ScanObject Float) :
    Prop where
  distance : g.distance center a.place ≤ g.distance center b.place ∧
    g.distance center b.place ≤ g.distance center a.place
  kind : a.kind.code = b.kind.code
  lat : a.lat ≤ b.lat ∧ b.lat ≤ a.lat
  lng : a.lng ≤ b.lng ∧ b.lng ≤ a.lng

def rowKey (o : ScanObject Float) : ℕ ×ₗ Rank ×ₗ Rank :=
  toLex (o.kind.code,toLex (rank o.lat,rank o.lng))

def distanceKey (g : Geometry Float) (center : Coordinate Float) (o : ScanObject Float) : Rank :=
  rank (g.distance center o.place)

def answerKey (g : Geometry Float) (center : Coordinate Float) (o : ScanObject Float) :
    Rank ×ₗ ℕ ×ₗ Rank ×ₗ Rank :=
  toLex (distanceKey g center o,rowKey o)

theorem Proper.rowLe_eq (h : t.Proper) (ha : a ∈ t.rows) (hb : b ∈ t.rows) :
    rowLe a b = decide (rowKey a ≤ rowKey b) := by
  have hlat := lt_iff_rank (h.lat a ha) (h.lat b hb)
  have hlat' := lt_iff_rank (h.lat b hb) (h.lat a ha)
  have hlng := lt_iff_rank (h.lng b hb) (h.lng a ha)
  rw [Bool.eq_iff_iff]
  simp only [rowLe,rowKey,Bool.or_eq_true,Bool.and_eq_true,Bool.not_eq_true',decide_eq_true_eq,
    decide_eq_false_iff_not,hlat,hlat',hlng,Prod.Lex.toLex_le_toLex,not_lt]
  refine or_congr_right (and_congr_right fun _ => ?_)
  rcases lt_trichotomy (rank a.lat) (rank b.lat) with hl | hl | hl
  · simp [hl]
  · simp [hl]
  · simp [hl.not_gt,hl.not_ge,hl.ne']

def wanted (t : ObjectTable Float) (box : Box Float) (kinds : List ObjectKind) (now : Int) :
    List (ScanObject Float) :=
  t.rows.filter fun o => kinds.contains o.kind && o.live now && box.holds o.place

theorem wanted_sublist (t : ObjectTable Float) (box : Box Float)
    (kinds : List ObjectKind) (now : Int) : (t.wanted box kinds now).Sublist t.rows :=
    List.filter_sublist

def read (t : ObjectTable Float) (g : Geometry Float) (center : Coordinate Float) (radius : Float)
    (kinds : List ObjectKind) (now : Int) : List (ScanObject Float) :=
  ((t.wanted (Box.around g center radius) kinds now).mergeSort fun a b =>
    decide (rowKey a ≤ rowKey b)).filter fun o => decide (g.distance center o.place ≤ radius)

theorem mem_read : o ∈ t.read g center radius kinds now ↔ o ∈ t.rows ∧
    ((o.kind ∈ kinds ∧ o.live now = true) ∧ (Box.around g center radius).holds o.place = true) ∧
      g.distance center o.place ≤ radius := by
  simp [read,wanted,and_assoc]

/-- A search sorts what it reads by the distance, and both of its sorts are by keys. -/
theorem Proper.query_eq (h : t.Proper) : t.query g center radius kinds now =
    if kinds.isEmpty ∨ radius < 0 then []
    else (t.read g center radius kinds now).mergeSort
      fun a b => decide (distanceKey g center a ≤ distanceKey g center b) := by
  have hsub := t.wanted_sublist (Box.around g center radius) kinds now
  have hrows : t.candidates (Box.around g center radius) kinds now =
      (t.wanted (Box.around g center radius) kinds now).mergeSort fun a b =>
      decide (rowKey a ≤ rowKey b) :=
    mergeSort_congr fun a ha b hb => h.rowLe_eq (hsub.subset ha) (hsub.subset hb)
  have hnumber : ∀ o ∈ t.read g center radius kinds now,
      (g.distance center o.place).isNaN = false :=
    fun o ho => isNaN_eq_false_of_le (mem_read.mp ho).2.2
  rw [query,hrows]
  exact if_congr Iff.rfl rfl (mergeSort_congr fun a ha b hb =>
    decide_eq_decide.mpr (le_iff_rank (hnumber a ha) (hnumber b hb)))

theorem Proper.query_pairwise (h : t.Proper) :
    (t.query g center radius kinds now).Pairwise
      fun a b => answerKey g center a ≤ answerKey g center b ∧
        (answerKey g center b ≤ answerKey g center a → [a,b].Sublist t.rows) := by
  rw [h.query_eq]
  split
  · exact List.Pairwise.nil
  have hsub := t.wanted_sublist (Box.around g center radius) kinds now
  have hn : (t.wanted (Box.around g center radius) kinds now).Nodup := h.ids.of_map.sublist hsub
  have hread : (t.read g center radius kinds now).Nodup :=
    ((List.mergeSort_perm _ _).nodup_iff.mpr hn).filter _
  have hrow : (t.read g center radius kinds now).Pairwise _ :=
    (pairwise_mergeSort_key rowKey hn).sublist List.filter_sublist
  refine (pairwise_mergeSort_key (distanceKey g center) hread).imp ?_
  rintro a b ⟨hd,ht⟩
  refine toLex_le_and.mpr ⟨hd,fun hge => ?_⟩
  obtain ⟨hle,hs⟩ := List.pairwise_iff_forall_sublist.mp hrow (ht hge)
  exact ⟨hle,fun hge => (hs hge).trans hsub⟩

/-! ### What is answered -/

theorem Proper.mem_query (h : t.Proper) (ho : o ∈ t.query g center radius kinds now) :
    o ∈ t.read g center radius kinds now := by
  rw [h.query_eq] at ho
  split at ho
  · simp at ho
  · exact List.mem_mergeSort.mp ho

theorem Proper.query_nodup (h : t.Proper) :
    ((t.query g center radius kinds now).map (·.id)).Nodup := by
  rw [h.query_eq]
  split
  · exact List.nodup_nil
  · have hn := h.ids.sublist
      ((t.wanted_sublist (Box.around g center radius) kinds now).map ScanObject.id)
    have hs := ((List.mergeSort_perm _ fun a b => decide (rowKey a ≤ rowKey b)).map
      ScanObject.id).nodup_iff.mpr hn
    have hr : ((t.read g center radius kinds now).map ScanObject.id).Nodup :=
      hs.sublist (List.filter_sublist.map ScanObject.id)
    exact ((List.mergeSort_perm _ _).map ScanObject.id).nodup_iff.mpr hr

theorem Proper.query_perm (h : t.Proper) (h' : t'.Proper) (hr : t.rows.Perm t'.rows) :
    (t.query g center radius kinds now).Perm (t'.query g center radius kinds now) := by
  have hp : (t.read g center radius kinds now).Perm (t'.read g center radius kinds now) := by
    have hw : (t.wanted (Box.around g center radius) kinds now).Perm _ := hr.filter _
    exact ((List.mergeSort_perm _ _).trans (hw.trans (List.mergeSort_perm _ _).symm)).filter _
  rw [h.query_eq,h'.query_eq]
  split
  · exact List.Perm.refl _
  · exact (List.mergeSort_perm _ _).trans (hp.trans (List.mergeSort_perm _ _).symm)

/-- What the answer of a search is: objects as they are stored, live, wanted and near, each once and
in order. There is none without a kind, for a radius below zero or that is no number, or for a
centre without a latitude. -/
structure NearestFirst (t : ObjectTable Float) (g : Geometry Float) (center : Coordinate Float)
    (radius : Float) (kinds : List ObjectKind) (now : Int) : Prop where
  stored : ∀ o ∈ t.query g center radius kinds now, t.get? o.id = some o
  live : ∀ o ∈ t.query g center radius kinds now, o.live now = true
  wanted : ∀ o ∈ t.query g center radius kinds now, o.kind ∈ kinds
  near : ∀ o ∈ t.query g center radius kinds now, g.distance center o.place ≤ radius
  once : ((t.query g center radius kinds now).map (·.id)).Nodup
  ordered : (t.query g center radius kinds now).Pairwise (t.Ahead g center)
  none : kinds = [] ∨ radius < 0 ∨ radius.isNaN = true ∨ center.lat.isNaN = true →
    t.query g center radius kinds now = []

theorem Proper.get?_of_mem (h : t.Proper) (ho : o ∈ t.rows) : t.get? o.id = some o :=
  find?_of_mem h.ids ho rfl

theorem Proper.ahead (h : t.Proper) (ha : a ∈ t.read g center radius kinds now)
    (hb : b ∈ t.read g center radius kinds now) (hk : answerKey g center a ≤ answerKey g center b ∧
      (answerKey g center b ≤ answerKey g center a → [a,b].Sublist t.rows)) : t.Ahead g
    center a b := by
  obtain ⟨har,_,had⟩ := mem_read.mp ha
  obtain ⟨hbr,_,hbd⟩ := mem_read.mp hb
  have had := isNaN_eq_false_of_le had
  have hbd := isNaN_eq_false_of_le hbd
  obtain ⟨hd,hrow⟩ := toLex_le_and.mp hk
  refine ⟨(le_iff_rank had hbd).mpr hd,fun hge => ?_⟩
  obtain ⟨hcode,hplace⟩ := toLex_le_and.mp (hrow ((le_iff_rank hbd had).mp hge))
  refine ⟨hcode,fun he => ?_⟩
  obtain ⟨hlat,hlng⟩ := toLex_le_and.mp (hplace he.ge)
  refine ⟨(le_iff_rank (h.lat a har) (h.lat b hbr)).mpr hlat,fun hge => ?_⟩
  obtain ⟨hlng,hs⟩ := hlng ((le_iff_rank (h.lat b hbr) (h.lat a har)).mp hge)
  refine ⟨(le_iff_rank (h.lng a har) (h.lng b hbr)).mpr hlng,fun hge => hs ?_⟩
  exact (le_iff_rank (h.lng b hbr) (h.lng a har)).mp hge

theorem Proper.nearestFirst (h : t.Proper) (g : Geometry Float) (center : Coordinate Float)
    (radius : Float) (kinds : List ObjectKind) (now : Int) :
    t.NearestFirst g center radius kinds now where
  stored o ho := h.get?_of_mem (mem_read.mp (h.mem_query ho)).1
  live o ho := (mem_read.mp (h.mem_query ho)).2.1.1.2
  wanted o ho := (mem_read.mp (h.mem_query ho)).2.1.1.1
  near o ho := (mem_read.mp (h.mem_query ho)).2.2
  once := h.query_nodup
  ordered := by
    refine (h.query_pairwise (g := g)).imp_of_mem ?_
    exact fun ha hb hk => h.ahead (h.mem_query ha) (h.mem_query hb) hk
  none hnone := by
    refine List.eq_nil_iff_forall_not_mem.mpr fun o ho => ?_
    obtain ⟨_,⟨⟨hkind,_⟩,hbox⟩,hnear⟩ := mem_read.mp (h.mem_query ho)
    rcases hnone with rfl | hr | hr | hc
    · simp at hkind
    · rw [query,if_pos (Or.inr hr)] at ho
      simp at ho
    · exact not_le_of_isNaN_right hr hnear
    · simp only [Box.around,Box.holds,Bool.and_eq_true] at hbox
      exact not_le_of_isNaN_left (isNaN_sub_left hc) (of_decide_eq_true hbox.1.1)

theorem tied_of_key (h : t.Proper) (h' : t'.Proper) (ha : a ∈ t.read g center radius kinds now)
    (hb : b ∈ t'.read g center radius kinds now)
    (hk : answerKey g center a = answerKey g center b) :
    Tied g center a b := by
  obtain ⟨har,_,had⟩ := mem_read.mp ha
  obtain ⟨hbr,_,hbd⟩ := mem_read.mp hb
  have had := isNaN_eq_false_of_le had
  have hbd := isNaN_eq_false_of_le hbd
  simp only [answerKey,rowKey,distanceKey,EmbeddingLike.apply_eq_iff_eq,Prod.mk.injEq] at hk
  obtain ⟨hd,hkind,hlat,hlng⟩ := hk
  exact ⟨⟨(le_iff_rank had hbd).mpr hd.le,(le_iff_rank hbd had).mpr hd.ge⟩,hkind,
    ⟨(le_iff_rank (h.lat a har) (h'.lat b hbr)).mpr hlat.le,
      (le_iff_rank (h'.lat b hbr) (h.lat a har)).mpr hlat.ge⟩,
    ⟨(le_iff_rank (h.lng a har) (h'.lng b hbr)).mpr hlng.le,
      (le_iff_rank (h'.lng b hbr) (h.lng a har)).mpr hlng.ge⟩⟩

/-- In the answers of two tables with the same records each place has objects that nothing tells
apart. -/
theorem Proper.query_tied (h : t.Proper) (h' : t'.Proper) (hr : t.rows.Perm t'.rows) :
    List.Forall₂ (Tied g center) (t.query g center radius kinds now)
      (t'.query g center radius kinds now) := by
  have hs {u : ObjectTable Float} (hu : u.Proper) :
      ((u.query g center radius kinds now).map (answerKey g center)).Pairwise (· ≤ ·) :=
    List.pairwise_map.mpr (hu.query_pairwise.imp And.left)
  have hkeys := ((h.query_perm h' hr).map (answerKey g center)).eq_of_pairwise' (hs h) (hs h')
  have hf : List.Forall₂ (fun a b => answerKey g center a = answerKey g center b)
      (t.query g center radius kinds now) (t'.query g center radius kinds now) := by
    refine List.forall₂_map_left_iff.mp (List.forall₂_map_right_iff.mp ?_)
    rw [hkeys]
    exact List.forall₂_same.mpr fun _ _ => rfl
  have hright := (List.forall₂_and_left _ _).mpr ⟨fun b hb => h'.mem_query hb,List.Forall₂.flip hf⟩
  have hboth := (List.forall₂_and_left _ _).mpr ⟨fun a ha => h.mem_query ha,
    List.Forall₂.flip hright⟩
  exact hboth.imp fun a b hab => tied_of_key h h' hab.1 hab.2.1 hab.2.2

/-! ### What writes and purges keep up -/

theorem isNaN_unsignedZero {x : Float} (h : x.isNaN = false) : (unsignedZero x).isNaN = false := by
  unfold unsignedZero
  split
  · decide +kernel
  · exact h

theorem Proper.upsert (h : t.Proper) (hlat : o.lat.isNaN = false) (hlng : o.lng.isNaN = false) :
    Proper ⟨upsert o t.rows⟩ where
  ids := by
    rcases ids_upsert o t.rows with hi | ⟨hn,hi⟩
    · exact hi ▸ h.ids
    · rw [hi]
      exact List.nodup_append.mpr
        ⟨h.ids,by simp,by rintro x hx _ hy rfl; exact hn (List.mem_singleton.mp hy ▸ hx)⟩
  lat p hp := (mem_upsert hp).elim (fun he => he ▸ hlat) (h.lat p)
  lng p hp := (mem_upsert hp).elim (fun he => he ▸ hlng) (h.lng p)

theorem numbers_of_missingColumn (h : missingColumn o = none) :
    o.lat.isNaN = false ∧ o.lng.isNaN = false := by
  unfold missingColumn at h
  split at h
  · simp at h
  · rename_i hlat
    split at h
    · simp at h
    · rename_i hlng
      exact ⟨Bool.eq_false_iff.mpr hlat,Bool.eq_false_iff.mpr hlng⟩

theorem Proper.write (h : t.Proper) (o : ScanObject Float) : (t.write o).1.Proper := by
  unfold ObjectTable.write
  split
  · exact h
  · rename_i hm
    split
    · exact h
    · obtain ⟨hlat,hlng⟩ := numbers_of_missingColumn hm
      exact h.upsert (isNaN_unsignedZero hlat) (isNaN_unsignedZero hlng)

theorem Proper.purge (h : t.Proper) (threshold : Int) : (t.purge threshold).1.Proper :=
  ⟨h.ids.sublist (List.filter_sublist.map _),fun o ho => h.lat o (List.mem_filter.mp ho).1,
    fun o ho => h.lng o (List.mem_filter.mp ho).1⟩

end ObjectTable

namespace Store

open ObjectTable

variable {s : Store}

/-- What the searches of a store answer, what they answer in another with the same records, and what
the order of its rows is: that in which their ids were first written. -/
structure SearchesNearestFirst (s : Store) : Prop where
  asked : ∀ center radius kinds now t os, s.query center radius kinds now = (t,.ok os) →
    os = s.objects.query .sphere center radius kinds now ∧ t.objects = s.objects
  nearest : ∀ g center radius kinds now, s.objects.NearestFirst g center radius kinds now
  determined : ∀ s' : Store, s'.objects = .empty → ∀ cs,
    s.objects.rows.Perm (s'.runCommands cs).objects.rows → ∀ g center radius kinds now,
      (s.objects.query g center radius kinds now).Perm
        ((s'.runCommands cs).objects.query g center radius kinds now) ∧
        List.Forall₂ (Tied g center) (s.objects.query g center radius kinds now)
          ((s'.runCommands cs).objects.query g center radius kinds now)
  written : ∀ o, (s.write o).1.objects.rows.map (·.id) = s.objects.rows.map (·.id) ∨
    o.id ∉ s.objects.rows.map (·.id) ∧
      (s.write o).1.objects.rows.map (·.id) = s.objects.rows.map (·.id) ++ [o.id]
  purged : ∀ threshold, (s.purge threshold).1.objects.rows.Sublist s.objects.rows
  /-- Without a longitude of the centre every object is at the greatest distance, so none is found
  below it. -/
  nowhere : ∀ τ : Trigonometry, (∀ x, x.isNaN = true → (τ.sin x).isNaN = true) →
    ∀ center : Coordinate Float, center.lng.isNaN = true → ∀ radius,
      ¬ 2.0 * Coordinate.earthRadius * τ.asin 1.0 ≤ radius →
        ∀ kinds now, s.objects.query (.globe τ) center radius kinds now = []

theorem proper_runCommands (hs : s.objects.Proper) (cs : List Command) :
    (s.runCommands cs).objects.Proper := by
  induction cs generalizing s with
  | nil => exact hs
  | cons c cs ih => exact ih (objects_run (fun _ p h => h.write p) (fun _ n h => h.purge n) hs c)

theorem proper_empty (h : s.objects = .empty) : s.objects.Proper := by
  rw [h]
  exact ⟨List.nodup_nil,by simp [ObjectTable.empty],by simp [ObjectTable.empty]⟩

theorem searchesNearestFirst (h : s.objects.Proper) : s.SearchesNearestFirst where
  asked center radius kinds now t os hq := by
    obtain ⟨ht,rfl⟩ := ask_ok hq
    exact ⟨by rw [ht.objects],ht.objects⟩
  nearest := h.nearestFirst
  determined s' hs' cs hr g center radius kinds now := by
    have h' := proper_runCommands (proper_empty hs') cs
    exact ⟨h.query_perm h' hr,h.query_tied h' hr⟩
  written o := by
    rcases s.onObjects_cases .write (fun t => t.write o) with hs | ⟨hs,_⟩
    · exact Or.inl (by rw [write,hs])
    · rcases s.objects.write_cases o with ⟨e,he⟩ | ⟨hw,_⟩
      · exact Or.inl (by rw [write,hs,he])
      · rw [write,hs,hw]
        exact ids_upsert (row o) s.objects.rows
  purged threshold := by
    rcases s.onObjects_cases .purge fun t => ((t.purge threshold).1,.ok (t.purge threshold).2)
      with hs | ⟨hs,_⟩
    · rw [purge,hs]
    · rw [purge,hs]
      exact List.filter_sublist
  nowhere τ hτ center hc radius hr kinds now := by
    refine List.eq_nil_iff_forall_not_mem.mpr fun o ho => hr ?_
    have hn := (h.nearestFirst (.globe τ) center radius kinds now).near o ho
    rwa [show (Geometry.globe τ).distance center o.place = _ from Coordinate.distance_of_isNaN_lng
      hτ hc o.place] at hn

/-- Whatever a store without objects is asked to do, with whichever of its calls failing: its
searches then answer as they should, for numbers of any kind and any kinds of object. -/
theorem searches_nearest_first (hs : s.objects = .empty) (cs : List Command) :
    (s.runCommands cs).SearchesNearestFirst :=
      searchesNearestFirst (proper_runCommands (proper_empty hs) cs)

/-- Functions of angles that are those of the machine at zero, at one, and at what is no number. -/
def plain : Trigonometry where
  sin x := x
  cos _ := 1
  asin x := x * (Coordinate.pi / 2)

def square : List Command :=
  [.write (.checkpoint "b" ⟨0,0⟩ false),.write (.creature "c" 29 ⟨0,0⟩ 100),
    .write (.checkpoint "b" ⟨0,0⟩ true)]

theorem searches_nearest_first_square :
    empty.objects = .empty ∧ (empty.runCommands square).SearchesNearestFirst ∧
      ((empty.runCommands square).objects.query (.globe plain) ⟨0,0⟩ 0 ObjectKind.all 100).map
        (fun o => (o.id,o.lured)) = [("b",some true)] :=
  ⟨rfl,searches_nearest_first rfl square,by decide +kernel⟩

/-- A centre without a longitude does not always have an empty answer: at a radius that holds the
whole globe every object is found. -/
theorem not_empty_without_longitude :
    ¬ ∀ (τ : Trigonometry) (cs : List Command) (center : Coordinate Float) (radius : Float) (kinds :
      List ObjectKind) (now : Int), (∀ x, x.isNaN = true → (τ.sin x).isNaN = true) →
    center.lng.isNaN = true → (empty.runCommands cs).objects.query (.globe τ) center radius kinds
      now = [] := by
  intro h
  have hq := h plain square ⟨0,0 / 0⟩ 3e7 ObjectKind.all 100 (fun _ hx => hx) (by decide +kernel)
  have hl : ((empty.runCommands square).objects.query (.globe plain) ⟨0,0 / 0⟩ 3e7 ObjectKind.all
      100).length = 1 := by
    decide +kernel
  rw [hq] at hl
  simp at hl

end Store

end ScanService
