import ScanService.Proofs.Acts
import ScanService.Proofs.Listed
/-! Requests that are not for a scan. Whatever a client sends that is not a form with a valid place,
posted to the scan path, is answered at once: no record and no session changes, nothing is counted
but the request, and nobody calls the remote service. Whoever does not give the secret learns
nothing of the records and the registry. -/
namespace ScanService

/-! ### What asks for a scan -/

/-- A form posted to the scan path that gives a valid place. -/
structure Http.Request.AsksForScan (r : Http.Request) (place : Coordinate Float) : Prop where
  method : r.method = "POST"
  path : r.target.path = "/q"
  form : Demand.isFormType (r.contentType.getD "") = true
  size : r.body.utf8ByteSize ≤ Demand.formLimit
  lat : Demand.number (Http.formFields r.body) "lat" = .ok place.lat
  lng : Demand.number (Http.formFields r.body) "lng" = .ok place.lng
  valid : place.valid = true

namespace Demand

variable {r : Http.Request} {c : Coordinate Float}

theorem place_eq_ok {fields : List (String × String)} : place fields = .ok c ↔
    number fields "lat" = .ok c.lat ∧ number fields "lng" = .ok c.lng ∧ c.valid = true := by
  unfold place
  cases number fields "lat" with
  | error e => simp
  | ok lat =>
    cases number fields "lng" with
    | error e => simp
    | ok lng =>
      cases c with
      | mk lat' lng' =>
        dsimp only
        split
        · rename_i hv
          simp only [Except.ok.injEq,Coordinate.mk.injEq]
          constructor
          · rintro ⟨rfl,rfl⟩
            exact ⟨rfl,rfl,hv⟩
          · exact fun h => ⟨h.1,h.2.1⟩
        · rename_i hv
          simp only [Except.ok.injEq,reduceCtorEq,false_iff]
          rintro ⟨rfl,rfl,h⟩
          exact hv h

theorem path_of_ofPath? {s : String} {route : Route} (h : Route.ofPath? s = some route) :
    route.path = s := by
  simpa using List.find?_some h

theorem ofForm_eq_scan {route : Route} (h : ofForm route r = .scan c) : route = .scan ∧
    isFormType (r.contentType.getD "") = true ∧ r.body.utf8ByteSize ≤ formLimit ∧
      place (Http.formFields r.body) = .ok c := by
  unfold ofForm at h
  split at h
  · cases h
  · rename_i hf
    split at h
    · cases h
    · rename_i hl
      dsimp only at h
      split at h
      · cases h
      · rename_i c' hp
        split at h
        · rename_i hr
          cases h
          exact ⟨hr,by simpa using hf,by omega,hp⟩
        · cases h

theorem ofQuery_ne_scan (route : Route) (query : Option String) :
    ofQuery route query ≠ .scan c := by
  unfold ofQuery
  split <;> simp

theorem ofRequest_eq_scan_iff : ofRequest r = .scan c ↔ r.AsksForScan c := by
  constructor
  · intro h
    unfold ofRequest at h
    dsimp only at h
    split at h
    · cases h
    · split at h
      · cases h
      · rename_i route hroute
        split at h
        · cases h
        · rename_i hm
          split at h
          · obtain ⟨rfl,hf,hs,hp⟩ := ofForm_eq_scan h
            obtain ⟨hlat,hlng,hv⟩ := place_eq_ok.mp hp
            have hm' : r.method = "POST" := by simpa [Route.methods,Route.posts] using hm
            exact ⟨hm',(path_of_ofPath? hroute).symm,hf,hs,hlat,hlng,hv⟩
          · exact absurd h (ofQuery_ne_scan _ _)
  · intro h
    have hroute : Route.ofPath? r.target.path = some .scan := by rw [h.path]; decide
    have hp : place (Http.formFields r.body) = .ok c := place_eq_ok.mpr ⟨h.lat,h.lng,h.valid⟩
    have hs : ¬ formLimit < r.body.utf8ByteSize := Nat.not_lt.mpr h.size
    simp [ofRequest,hroute,h.method,Route.methods,Route.posts,ofForm,h.form,hs,hp]

theorem ofRequest_guarded (hp : r.target.path = "/s" ∨ r.target.path = "/stats") :
    (∃ a, ofRequest r = .reply a) ∨
      ∃ given, secret r.target.query = .ok given ∧
      (ofRequest r = .status given ∨ ofRequest r = .stats given) := by
  have hroute : ∃ route, Route.ofPath? r.target.path = some route ∧
      (route = .status ∨ route = .stats) :=
    hp.elim (fun h => ⟨.status,by rw [h]; decide,Or.inl rfl⟩) fun h =>
    ⟨.stats,by rw [h]; decide,Or.inr rfl⟩
  obtain ⟨route,hroute,hg⟩ := hroute
  unfold ofRequest
  rw [hroute]
  dsimp only
  split
  · exact Or.inl ⟨_,rfl⟩
  · split
    · exact Or.inl ⟨_,rfl⟩
    · rcases hg with rfl | rfl <;> cases hs :
        secret r.target.query <;> simp [Route.posts,ofQuery,hs]

end Demand

namespace Metrics

theorem retries_append_request (log : List Observation) (endpoint : String) (status : ℕ)
    (seconds : Float) : retries (log ++ [.request endpoint status seconds]) = retries log := by
  simp [retries]

theorem retirements_append_request (log : List Observation) (endpoint : String) (status : ℕ)
    (seconds : Float) :
    retirements (log ++ [.request endpoint status seconds]) = retirements log := by
  simp [retirements]

end Metrics

namespace Service

variable {s s' : Service} {r : Http.Request}

/-! ### What an answer touches -/

def answer (s : Service) (r : Http.Request) :
    Http.Response := withoutBody r (s.handle (Demand.ofRequest r)).2

/-- The same records, sessions and registry, the same counts of retries and retirements, and no
call. -/
structure Untouched (s s' : Service) : Prop where
  roster : s'.store.roster = s.store.roster
  objects : s'.store.objects = s.store.objects
  pool : s'.pool = s.pool
  live : s'.live = s.live
  registry : s'.registry = s.registry
  retries : Metrics.retries s'.observations = Metrics.retries s.observations
  retirements : Metrics.retirements s'.observations = Metrics.retirements s.observations
  silent : ∃ N, s'.occurrences = N ++ s.occurrences ∧ ∀ t call, .called t call ∉ N

theorem request_of_plain (hr : ∀ place, ¬ r.AsksForScan place) :
    s.step (.request r) =
      ({ (s.handle (Demand.ofRequest r)).1 with nextTask := s.nextTask + 1 } : Service).note
        (.answered s.nextTask (.response (s.answer r))) := by
  simp only [step,request]
  split
  · rename_i place hd
    exact absurd (Demand.ofRequest_eq_scan_iff.mp hd) (hr place)
  · rfl

theorem untouched_request (s : Service) (hr : ∀ place, ¬ r.AsksForScan place) :
    Untouched s (s.step (.request r)) := by
  have hstore := spends_handle s (Demand.ofRequest r)
  obtain ⟨N,hN,hplain⟩ := occurrences_handle s (Demand.ofRequest r)
  have hobs : (s.step (.request r)).observations =
      (s.handle (Demand.ofRequest r)).1.observations := by
    rw [request_of_plain hr]
    simp [observations,note]
  have hseen : (s.step (.request r)).observations = s.observations ∨ ∃ endpoint status seconds,
      (s.step (.request r)).observations = s.observations ++
        [.request endpoint status seconds] := by
    rw [hobs]
    rcases history_handle s (Demand.ofRequest r) with h | ⟨endpoint,status,seconds,h⟩
    · exact Or.inl (by simp [observations,h])
    · exact Or.inr ⟨endpoint,status,seconds,by simp [observations,h]⟩
  have hcalls : (s.step (.request r)).occurrences =
      .answered s.nextTask (.response (s.answer r)) :: N ++ s.occurrences := by
    rw [request_of_plain hr]
    exact congrArg (List.cons _) hN
  refine ⟨?_,?_,?_,?_,?_,?_,?_,_,hcalls,fun t call hm => ?_⟩
  · rw [request_of_plain hr]
    exact hstore.roster
  · rw [request_of_plain hr]
    exact hstore.objects
  · rw [request_of_plain hr,handle_eq]
    rfl
  · rw [request_of_plain hr,handle_eq]
    rfl
  · rw [request_of_plain hr,handle_eq]
    rfl
  · rcases hseen with h | ⟨_,_,_,h⟩ <;> rw [h]
    exact Metrics.retries_append_request _ _ _ _
  · rcases hseen with h | ⟨_,_,_,h⟩ <;> rw [h]
    exact Metrics.retirements_append_request _ _ _ _
  · rcases List.mem_cons.mp hm with he | hm
    · cases he
    · exact not_called_of_plain hplain t call hm

/-! ### Who does not give the secret -/

/-- The request gives the secret that is set. -/
def Entitles (s : Service) (r : Http.Request) : Prop :=
  ∃ secret, s.settings.secret = some secret ∧ Demand.secret r.target.query = .ok (some secret)

theorem not_authorized {given : Option String} (hn : ¬ s.Entitles r)
    (hg : Demand.secret r.target.query = .ok given) : s.authorized given = false := by
  unfold authorized
  cases hs : s.settings.secret with
  | none => rfl
  | some secret =>
    have hne : some secret ≠ given := fun he => hn ⟨secret,hs,he ▸ hg⟩
    simpa using hne

/-- Where the secret is wanted, whoever does not give it gets the same answer in every state. -/
theorem answer_eq_of_not_entitles (hp : r.target.path = "/s" ∨ r.target.path = "/stats")
    (hs : ¬ s.Entitles r) (hs' : ¬ s'.Entitles r) : s.answer r = s'.answer r := by
  unfold answer
  rcases Demand.ofRequest_guarded hp with ⟨a,ha⟩ | ⟨given,hg,hd | hd⟩
  · rw [ha]
    rfl
  · simp only [hd,handle,not_authorized hs hg,not_authorized hs' hg,Bool.false_eq_true,if_false]
  · simp only [hd,handle,not_authorized hs hg,not_authorized hs' hg,Bool.false_eq_true,if_false]

/-- Only a form with a valid place, posted to the scan path, changes anything: any other request is
answered at once, and where the secret is wanted the answer does not depend on the state unless the
request gives it. -/
theorem only_scans_touch (hr : ∀ place, ¬ r.AsksForScan place) :
    (∀ s : Service, Untouched s (s.step (.request r)) ∧ (s.step (.request r)).history.head? =
      some ⟨s.now,.answered s.nextTask (.response (s.answer r))⟩) ∧
    (r.target.path = "/s" ∨ r.target.path = "/stats" →
      ∀ s s' : Service, ¬ s.Entitles r → ¬ s'.Entitles r → s.answer r = s'.answer r) := by
  refine ⟨fun s => ⟨untouched_request s hr,?_⟩,fun hp s s' => answer_eq_of_not_entitles hp⟩
  rw [request_of_plain hr,handle_eq]
  rfl

def strayRequest : Http.Request := ⟨"GET",⟨"/stats",some "secret=y"⟩,none,""⟩

theorem strayRequest_not_entitles (h : s.settings.secret = some "x") :
    ¬ s.Entitles strayRequest := by
  rintro ⟨secret,hs,hg⟩
  have hf : Http.formFields "secret=y" = [("secret","y")] := by decide +kernel
  have hy : secret = "y" := by simpa [strayRequest,Demand.secret,hf,eq_comm] using hg
  rw [h,hy] at hs
  simp at hs

theorem only_scans_touch_stray : (∀ place, ¬ strayRequest.AsksForScan place) ∧
    ((guarded.run shift).live.map fun σ => (σ.identity.name,σ.egress.id)) = [("ash",3),
      ("misty",2)] ∧
    Untouched (guarded.run shift) ((guarded.run shift).step (.request strayRequest)) ∧
    (guarded.run shift).answer strayRequest = guarded.answer strayRequest := by
  have hn : ∀ place, ¬ strayRequest.AsksForScan place := fun _ h => absurd h.method (by decide)
  have h := only_scans_touch hn
  exact ⟨hn,by decide +kernel,(h.1 _).1,
    h.2 (Or.inr rfl) _ _ (strayRequest_not_entitles (by decide +kernel))
      (strayRequest_not_entitles rfl)⟩

end Service

end ScanService
