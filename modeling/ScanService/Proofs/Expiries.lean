import ScanService.Proofs.MapObjects
import ScanService.Proofs.NearestFirst
import ScanService.Proofs.Purging
/-! When creatures go. Those that a map reports go at the second of their expiry, and purges remove
them from then on. One kind does not: a creature whose lure ends within the first second of all time
has the expiry that stands for never. -/
namespace ScanService

namespace ObjectTable

variable {t : ObjectTable Float} {o : ScanObject Float} {x : String} {threshold : Int}

theorem get?_purge_of_expired (ht : t.Proper) (ho : t.get? x = some o)
    (he : expired threshold o = true) : (t.purge threshold).1.get? x = none := by
  refine List.find?_eq_none.mpr fun p hp hx => ?_
  obtain ⟨hp,hn⟩ := List.mem_filter.mp hp
  have hf : t.get? x = some p := find?_of_mem ht.ids hp (of_decide_eq_true hx)
  rw [ho,Option.some.injEq] at hf
  simp [← hf,he] at hn

theorem count_purge_pos (ho : t.get? x = some o) (he : expired threshold o = true) :
    0 < (t.purge threshold).2 := by
  rw [count_purge]
  exact List.countP_pos_iff.mpr ⟨o,List.mem_of_find?_eq_some ho,he⟩

end ObjectTable

open ObjectTable

/-- The object has an expiry: it is there no more from then on, and once a store has it, whatever
the store has been asked to do, every purge with a threshold above removes it. -/
structure ScanObject.Fades (o : ScanObject Float) : Prop where
  expires : o.expiry ≠ 0
  gone : ∀ now, o.expiry ≤ now → o.live now = false
  swept : ∀ (s : Store) (cs : List Command), s.objects = .empty →
    (s.runCommands cs).objects.get? o.id = some (row o) → ∀ threshold, o.expiry < threshold → ∀ n,
      ((s.runCommands cs).purge threshold).2 = .ok n →
        0 < n ∧ ((s.runCommands cs).purge threshold).1.objects.get? o.id = none

theorem ScanObject.fades {o : ScanObject Float} (hk : o.kind = .creature) (h0 : o.expiry ≠ 0) :
    o.Fades where
  expires := h0
  gone now hn := by
    simp only [live,h0,decide_false,Bool.false_or,decide_eq_false_iff_not]
    omega
  swept s cs hs hg threshold hl n hp := by
    have he : expired threshold (row o) = true := expired_iff.mpr ⟨hk,h0,hl⟩
    have ht := Store.proper_runCommands (Store.proper_empty hs) cs
    generalize s.runCommands cs = u at hg hp ht ⊢
    unfold Store.purge at hp ⊢
    obtain ⟨v,hv,hc | ⟨_,x,hc⟩⟩ := u.call_cases .purge fun s =>
      ({ s with objects := (s.objects.purge threshold).1 },.ok (s.objects.purge threshold).2)
    · rw [Store.onObjects,hc] at hp ⊢
      rw [hv.objects,Except.ok.injEq] at hp
      exact ⟨hp ▸ count_purge_pos hg he,by rw [hv.objects,get?_purge_of_expired ht hg he]⟩
    · rw [Store.onObjects,hc] at hp
      cases hp

namespace MapResponse

variable {r : MapResponse} {now : Int} {o : ScanObject Float}

/-- The creature stays for good: a lure has drawn it that ends within the first second of all
time. -/
def DrawsForGood (r : MapResponse) (o : ScanObject Float) : Prop :=
  o.expiry = 0 ∧ ∃ c ∈ r.cells, ∃ f ∈ c.forts, f.kind = .checkpoint ∧ ∃ l, f.lure = some l ∧
    0 ≤ l.expires ∧ l.expires < 1000 ∧ o = lureObject ⟨f.lat,f.lng⟩ l

theorem hidingTime_pos (h : 1000 ≤ now) (hiddenIn : Int) : 0 < hidingTime now hiddenIn := by
  unfold hidingTime
  omega

/-- Every creature of a map goes, unless its lure ends within the first second. -/
theorem creatures_fade (h : 1000 ≤ now) (ho : o ∈ r.objects now) (hk : o.kind = .creature) :
    o.Fades ∨ r.DrawsForGood o := by
  obtain ⟨c,hc,⟨w,_,rfl⟩ | ⟨f,hf,rfl | ⟨hcheck,l,hl,rfl⟩⟩⟩ := mem_objects.mp ho
  · exact Or.inl (ScanObject.fades rfl (hidingTime_pos h w.hiddenIn).ne')
  · exact absurd hk (kind_fortObject f)
  · by_cases h0 : l.expires / 1000 = 0
    · exact Or.inr ⟨h0,c,hc,f,hf,hcheck,l,hl,by omega,by omega,rfl⟩
    · exact Or.inl (ScanObject.fades rfl h0)

def drawnToStop : ScanObject Float := lureObject ⟨3,4⟩ ⟨36,25,90500⟩

theorem creatures_fade_clearing : 1000 ≤ (61999 : Int) ∧ drawnToStop ∈ clearing.objects 61999 ∧
    drawnToStop.kind = .creature ∧ drawnToStop.expiry = 90 ∧
    (drawnToStop.Fades ∨ clearing.DrawsForGood drawnToStop) := by
  have hm : drawnToStop ∈ clearing.objects 61999 := by
    refine mem_objects.mpr ⟨_,List.mem_singleton.mpr rfl,
      Or.inr ⟨_,List.mem_cons_of_mem _ (List.mem_singleton.mpr rfl),?_⟩⟩
    exact Or.inr ⟨rfl,_,rfl,rfl⟩
  exact ⟨by decide,hm,rfl,by decide,creatures_fade (by decide) hm rfl⟩

def spellbound : MapResponse := ⟨[{ forts := [⟨"stop",.checkpoint,3,4,0,true,some ⟨36,25,0⟩⟩] }]⟩

/-- Not every creature of a map goes. -/
theorem not_creatures_fade : ¬ ∀ (r : MapResponse) (now : Int), 1000 ≤ now → ∀ o ∈ r.objects now,
    o.kind = .creature → o.Fades := by
  intro h
  have hm : lureObject ⟨3,4⟩ ⟨36,25,0⟩ ∈ spellbound.objects 1000 :=
    mem_objects.mpr ⟨_,List.mem_singleton.mpr rfl,
      Or.inr ⟨_,List.mem_singleton.mpr rfl,Or.inr ⟨rfl,_,rfl,rfl⟩⟩⟩
  exact (h spellbound 1000 (by decide) _ hm rfl).expires (by decide)

end MapResponse

end ScanService
