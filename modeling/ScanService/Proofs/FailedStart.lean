import ScanService.Proofs.Recovery
import ScanService.Server
/-! Starts that fail. One that gets no further than the configuration or the reset of the use flags
leaves all records as they were. One that cannot listen has come past the reset, which is the first
thing a start does to the store: no use flag is set after it, and all else in the records is as
before. The regular purge may have run since then, and objects whose time is over may be gone. -/
namespace ScanService

namespace Store

variable {s t : Store}

theorem markAllUnused_ok {n : ℕ} (h : s.markAllUnused = (t,.ok n)) : t.roster = s.roster.bare := by
  rw [markAllUnused,reconcile_eq] at h
  have hr := congrArg Prod.fst (onRoster_ok h)
  exact hr.symm.trans s.roster.reconcile_nil

end Store

namespace Server

variable {s s' s'' : Server} {times later : List ℤ} {listening : Except String Unit}
    {e : ServerFailure}

/-- Neither records nor purges are touched, nor anything else. -/
structure Intact (s s' : Server) : Prop where
  roster : s'.service.store.roster = s.service.store.roster
  objects : s'.service.store.objects = s.service.store.objects
  frame : s' = { s with service := { s.service with store := s'.service.store } }

/-- The purge has run at some times of day: objects that had not expired at any of them are there as
before, and no others but those that were there. -/
structure Purged (times : List ℤ) (s s' : Server) : Prop where
  roster : s'.service.store.roster = s.service.store.roster
  objects : s'.service.store.objects.rows.Sublist s.service.store.objects.rows
  kept : ∀ o ∈ s.service.store.objects.rows,
    (∀ millis ∈ times, ObjectTable.expired (millis / 1000) o = false) →
    o ∈ s'.service.store.objects.rows
  noted : ∃ N, s'.service.history = N ++ s.service.history ∧
    ∀ x ∈ N, ∃ n, x.what = .observed (.purge "creature" n)
  frame : s' = { s with service := { s.service with
    store := s'.service.store, clock := s'.service.clock, history := s'.service.history } }

/-- The use flags are cleared, and but for what the purge does at some times nothing else is
touched. -/
structure Cleared (times : List ℤ) (s s' : Server) : Prop where
  roster : s'.service.store.roster = s.service.store.roster.bare
  unused : s'.service.store.roster.Unused
  objects : s'.service.store.objects.rows.Sublist s.service.store.objects.rows
  kept : ∀ o ∈ s.service.store.objects.rows,
    (∀ millis ∈ times, ObjectTable.expired (millis / 1000) o = false) →
    o ∈ s'.service.store.objects.rows
  noted : ∃ N, s'.service.history = N ++ s.service.history ∧
    ∀ x ∈ N, ∃ n, x.what = .observed (.purge "creature" n)
  frame : s' = { s with
    service := { s.service with
      store := s'.service.store, clock := s'.service.clock, history := s'.service.history }
    purging := s'.purging }

/-- Why a start fails, and what it leaves behind. -/
inductive Failed (s : Server) (times : List ℤ) (listening : Except String Unit) (s' : Server) :
    ServerFailure → Prop
  | config {text : String} (h : s.routerFault? = some (.config text)) (hs : Intact s s') :
      Failed s times listening s' (.config text)
  | reset {cause : StoreFailure} (h : s.service.store.markAllUnused.2 = .error cause)
      (hs : Intact s s') : Failed s times listening s' (.setup (.store cause))
  | bind {text : String} (h : listening = .error text) (hs : Cleared times s s') :
      Failed s times listening s' (.bind text)

theorem routerFault_config (h : s.routerFault? = some e) : ∃ text, e = .config text := by
  unfold routerFault? at h
  split at h
  · simp at h
  · exact ⟨_,(Option.some.inj h).symm⟩

/-! ### The purge -/

theorem Purged.refl (s : Server) : Purged [] s s :=
  ⟨rfl,List.Sublist.refl _,fun _ ho _ => ho,⟨[],rfl,by simp⟩,rfl⟩

theorem Purged.trans (h : Purged times s s') (h' : Purged later s' s'') :
    Purged (times ++ later) s s'' := by
  obtain ⟨N,hN,hn⟩ := h.noted
  obtain ⟨N',hN',hn'⟩ := h'.noted
  refine ⟨h'.roster.trans h.roster,h'.objects.trans h.objects,fun o ho hk => ?_,
    ⟨N' ++ N,?_,fun x hx => ?_⟩,?_⟩
  · refine h'.kept o (h.kept o ho ?_) ?_
    · exact fun m hm => hk m (List.mem_append_left _ hm)
    · exact fun m hm => hk m (List.mem_append_right _ hm)
  · rw [hN',hN,List.append_assoc]
  · exact (List.mem_append.mp hx).elim (hn' x) (hn x)
  · rw [h'.frame,h.frame]

theorem purged_purge (s : Server) (millis : ℤ) :
    Purged [millis] s { s with service := (s.service.step (.setClock millis)).step .purge } := by
  have hr := s.service.store.sameRecords_onObjects .purge
    fun t => ((t.purge (millis / 1000)).1,.ok (t.purge (millis / 1000)).2)
  have hrows : (s.service.store.purge (millis / 1000)).1.objects.rows.Sublist
      s.service.store.objects.rows ∧ ∀ o ∈ s.service.store.objects.rows,
      ObjectTable.expired (millis / 1000) o = false →
        o ∈ (s.service.store.purge (millis / 1000)).1.objects.rows := by
    rcases s.service.store.onObjects_cases .purge
      fun t => ((t.purge (millis / 1000)).1,.ok (t.purge (millis / 1000)).2) with ho | ⟨ho,_⟩
    · rw [Store.purge,ho]
      exact ⟨List.Sublist.refl _,fun _ ho _ => ho⟩
    · rw [Store.purge,ho]
      exact ⟨List.filter_sublist,fun o ho hk => List.mem_filter.mpr ⟨ho,by simp [hk]⟩⟩
  have hp : (s.service.step (.setClock millis)).step .purge =
      Service.purge { s.service with clock := millis } := rfl
  rw [hp]
  unfold Service.purge
  rw [show ({ s.service with clock := millis } : Service).seconds = millis / 1000 from rfl]
  cases hc : s.service.store.purge (millis / 1000) with
  | mk store r =>
    rw [hc] at hrows
    have hstore : store.roster = s.service.store.roster := by
      rw [Store.purge] at hc
      rw [hc] at hr
      exact hr.roster
    cases r with
    | ok n => exact ⟨hstore,hrows.1,fun o ho hk => hrows.2 o ho (hk _ (by simp)),
        ⟨[_],rfl,by simp⟩,rfl⟩
    | error x => exact ⟨hstore,hrows.1,fun o ho hk => hrows.2 o ho (hk _ (by simp)),
        ⟨[],rfl,by simp⟩,rfl⟩

theorem purged_purgeAt (s : Server) (times : List ℤ) : Purged times s (s.purgeAt times) := by
  induction times generalizing s with
  | nil => exact .refl s
  | cons millis times ih => exact (s.purged_purge millis).trans (ih _)

/-! ### The start -/

/-- A start that fails for its configuration or in the store leaves all use flags as they were and
no purge running that was not running before. One that fails to listen has cleared them, and the
purge may have run. -/
theorem failed_start (h : s.start times listening = (s',.error e)) :
    Failed s times listening s' e := by
  unfold start prepare at h
  split at h
  · rename_i s₁ e₁ hp
    obtain ⟨rfl,he⟩ := Prod.mk.inj h
    obtain rfl := Except.error.inj he
    split at hp
    · rename_i cause hc
      obtain ⟨text,rfl⟩ := routerFault_config hc
      obtain ⟨rfl,he⟩ := Prod.mk.inj hp
      obtain rfl := Except.error.inj he
      exact .config hc ⟨rfl,rfl,rfl⟩
    · split at hp
      · rename_i store cause hm
        obtain ⟨rfl,he⟩ := Prod.mk.inj hp
        obtain rfl := Except.error.inj he
        exact .reset (by rw [hm]) ⟨Store.reconcile_undone hm,Store.objects_of_reconcile hm,rfl⟩
      · simp at hp
  · rename_i s₁ hp
    split at hp
    · simp at hp
    · split at hp
      · simp at hp
      · rename_i store n hm
        obtain ⟨rfl,_⟩ := Prod.mk.inj hp
        cases listening with
        | ok _ => simp [Except.mapError] at h
        | error text =>
          obtain ⟨rfl,he⟩ := Prod.mk.inj h
          obtain rfl := Except.error.inj he
          have hr := Store.markAllUnused_ok hm
          have ho := Store.objects_of_reconcile hm
          have hs := purged_purgeAt { s with service := { s.service with store }, purging := true }
            times
          refine .bind rfl ⟨hs.roster.trans hr,?_,ho ▸ hs.objects,ho ▸ hs.kept,hs.noted,?_⟩
          · rw [hs.roster]
            exact hr ▸ s.service.store.roster.unused_bare
          · conv_lhs => rw [hs.frame]
            rw [hs.frame]

def rival : Server where
  config := {}
  service := .fresh (.ofConfig {})
    { Store.empty with
      roster := ⟨[⟨"ash","","ptc",true,false⟩],
        [{ id := 1, inUse := true },{ id := 2, dead := true }]⟩ }
    ⟨1024,[],[],[],[],0⟩ 0

def unbound : Except String Unit := .error "Cannot assign requested address (os error 99)"

theorem failed_start_unbound :
    (rival.start [0] unbound).1.service.store.roster =
        ⟨[⟨"ash","","ptc",false,false⟩],[{ id := 1 },{ id := 2, dead := true }]⟩ ∧
      Failed rival [0] unbound (rival.start [0] unbound).1
        (.bind "Cannot assign requested address (os error 99)") :=
  ⟨rfl,failed_start rfl⟩

/-- The flags are as they were, and no purge is running. -/
structure Unmoved (s s' : Server) : Prop where
  used : s'.service.store.roster.identities.map (·.used) = s.service.store.roster.identities.map
    (·.used)
  inUse : s'.service.store.roster.egresses.map (·.inUse) = s.service.store.roster.egresses.map
    (·.inUse)
  purging : s'.purging = false

/-- A start that fails may change something: here it has cleared the flags before it fails to
listen. -/
theorem not_unmoved_unbound : ¬ ∀ (s s' : Server) (times : List ℤ) (listening : Except String Unit)
    (e : ServerFailure), s.purging = false → s.start times listening = (s',.error e) →
    Unmoved s s' := by
  intro h
  have hu := (h rival (rival.start [] unbound).1 [] unbound _ rfl rfl).used
  have hf : [false] = [true] := hu
  simp at hf

end Server

end ScanService
