import Mathlib.Algebra.Group.Int.Defs
import ScanService.Cli.Run
import ScanService.Proofs.JsonText
import ScanService.Proofs.PlainRequests
/-! A snapshot of the registry that is kept as text. Whoever gives the secret is shown it as JSON,
and the command that reconciles reads the same entries from that text; so it does to the store what
the snapshot itself does. -/
namespace ScanService

namespace StatusEntry

variable {e : StatusEntry} {es : List StatusEntry}

/-- The id is a machine integer. -/
def Fits (e : StatusEntry) : Prop := -2 ^ 63 ≤ e.egress ∧ e.egress < 2 ^ 63

theorem ofJson?_toJson (h : e.Fits) : ofJson? e.toJson = some e := by
  have hi : Json.asInt64 (Json.int e.egress) = some e.egress := by
    rw [Json.asInt64,Json.int,Json.intIn,if_pos]
    exact ⟨h.1,Int.le_of_lt_add_one h.2⟩
  simp [ofJson?,toJson,Json.record,Json.repeated,Json.Field.required,Json.asText,
    List.lookup_cons,hi]

theorem listOfJson?_listToJson (h : ∀ e ∈ es, e.Fits) : listOfJson? (listToJson es) = some es := by
  rw [listOfJson?,listToJson,Json.asList]
  induction es with
  | nil => rfl
  | cons e es ih =>
    rw [List.map_cons,List.mapM_cons,ofJson?_toJson (h e List.mem_cons_self),
      ih fun f hf => h f (List.mem_cons_of_mem e hf)]
    rfl

theorem whole_listToJson (h : ∀ e ∈ es, e.Fits) : (listToJson es).Whole := by
  induction es with
  | nil => trivial
  | cons e es ih =>
    have he := h e List.mem_cons_self
    have hi : Json.Held e.egress := ⟨he.1,Int.lt_trans he.2 (by decide)⟩
    exact ⟨⟨trivial,⟨e.egress,rfl,hi⟩,trivial⟩,ih fun f hf => h f (List.mem_cons_of_mem e hf)⟩

theorem read_text (h : ∀ e ∈ es, e.Fits) :
    Json.ofText (listToJson es).text >>= listOfJson? = some es := by
  rw [Json.ofText_text (whole_listToJson h)]
  exact listOfJson?_listToJson h

end StatusEntry

/-- The snapshot is asked for. -/
structure Http.Request.AsksForStatus (r : Http.Request) : Prop where
  method : r.method = "GET"
  path : r.target.path = "/s"

namespace Service

variable {s : Service} {r : Http.Request}

theorem answer_status (hr : r.AsksForStatus) (he : s.Entitles r) :
    s.answer r = .json 200 (StatusEntry.listToJson s.registry.snapshot).text := by
  obtain ⟨secret,hs,hg⟩ := he
  have hroute : Route.ofPath? r.target.path = some .status := by rw [hr.path]; decide
  have hd : Demand.ofRequest r = .status (some secret) := by
    simp [Demand.ofRequest,hroute,hr.method,Route.methods,Route.posts,Demand.ofQuery,hg]
  have ha : s.authorized (some secret) = true := by simp [authorized,hs]
  simp [answer,hd,handle,ha,withoutBody,hr.method]

theorem step_status (hr : r.AsksForStatus) (he : s.Entitles r) :
    (s.step (.request r)).history.head? = some
      ⟨s.now,.answered s.nextTask
        (.response (.json 200 (StatusEntry.listToJson s.registry.snapshot).text))⟩ := by
  have hn : ∀ place, ¬ r.AsksForScan place := by
    intro place h
    exact absurd (hr.method.symm.trans h.method) (by decide)
  rw [request_of_plain hn,handle_eq,answer_status hr he]
  rfl

end Service

namespace Cli

variable {w : World} {c : Config} {file : String} {disk : Disk} {store : Store}
    {es : List StatusEntry}

theorem perform_reconcile {text : String} (ht : w.disk.text? file = some text)
    (hes : Json.ofText text >>= StatusEntry.listOfJson? = some es)
    (ho : w.disk.openStore c.database = (disk,.ok store)) : perform w c (.reconcile file) =
      ({ w with disk := disk.saveStore c.database (store.reconcile es).1 },
        (report (fun n =>
          ["Reconciled " ++ number es.length ++ " assignments (" ++ number n ++
            " records changed)"]) (store.reconcile es)).2) := by
  have hr : (report (fun n => ["Reconciled " ++ number es.length ++ " assignments (" ++ number n ++
      " records changed)"]) (store.reconcile es)).1 = (store.reconcile es).1 := by
    unfold report
    split <;> simp_all
  simp only [perform,reconcile,ht,hes,withStore,ho,hr]

end Cli

/-- What becomes of entries on their way through JSON: whoever asks for them with the secret is
shown their text, the text gives back the same entries, and the command to which the text is given
reconciles the store with them. -/
structure SurvivesText (es : List StatusEntry) (text : String) : Prop where
  shown : ∀ (s : Service) (r : Http.Request), s.registry.snapshot = es → r.AsksForStatus →
    s.Entitles r → (s.step (.request r)).history.head? = some
      ⟨s.now,.answered s.nextTask (.response (.json 200 text))⟩
  read : Json.ofText text >>= StatusEntry.listOfJson? = some es
  reconciled : ∀ (w : Cli.World) (c : Config) (file : String) (disk : Disk) (store : Store),
    w.disk.text? file = some text → w.disk.openStore c.database = (disk,.ok store) →
      Cli.perform w c (.reconcile file) =
        ({ w with disk := disk.saveStore c.database (store.reconcile es).1 },
          (Cli.report (fun n =>
            ["Reconciled " ++ Cli.number es.length ++ " assignments (" ++ Cli.number n ++
              " records changed)"]) (store.reconcile es)).2)

/-- A snapshot survives its way through JSON, whatever the names and the ids. -/
theorem snapshot_survives_text {es : List StatusEntry} (h : ∀ e ∈ es, e.Fits) :
    SurvivesText es (StatusEntry.listToJson es).text where
  shown s r hs hr he := by
    rw [Service.step_status hr he,hs]
  read := StatusEntry.read_text h
  reconciled w c file disk store ht ho := Cli.perform_reconcile ht (StatusEntry.read_text h) ho

def oddities : List StatusEntry :=
  [⟨"a\"\\/\x00\n\x1f\x7fé😀",-0x8000000000000000⟩,⟨"",0x7FFFFFFFFFFFFFFF⟩]

def oddPage : Service := { Service.guarded with registry := ⟨oddities⟩ }

def statusRequest : Http.Request := ⟨"GET",⟨"/s",some "secret=x"⟩,none,""⟩

def oddText : String :=
  "[\x7b\"accountName\":\"a\\\"\\\\/\\u0000\\n\\u001f\x7fé😀\"," ++
    "\"proxyId\":-9223372036854775808\x7d," ++
    "\x7b\"accountName\":\"\",\"proxyId\":9223372036854775807\x7d]"

theorem text_oddities : (StatusEntry.listToJson oddities).text = oddText := by decide +kernel

def oddWorld : Cli.World where
  disk := ⟨[(["status.json"],.text oddText),(["data"],.directory),
    (["data","minion.db"],.database Service.stocked)]⟩
  environment := []
  clock := 0
  listening := fun _ => .ok ()

theorem snapshot_survives_text_oddities : (∀ e ∈ oddities, e.Fits) ∧
    (oddPage.registry.snapshot = oddities ∧ statusRequest.AsksForStatus ∧
      oddPage.Entitles statusRequest) ∧
    (oddWorld.disk.text? "status.json" = some oddText ∧
      (oddWorld.disk.openStore ({} : Config).database).2.toOption.map (·.roster) = some
        Service.stocked.roster) ∧
    SurvivesText oddities oddText := by
  have hf : ∀ e ∈ oddities, e.Fits := by simp [oddities,StatusEntry.Fits]
  have hs : Http.formFields "secret=x" = [("secret","x")] := by decide +kernel
  have he : oddPage.Entitles statusRequest := ⟨"x",rfl,by simp [statusRequest,Demand.secret,hs]⟩
  refine ⟨hf,⟨rfl,⟨rfl,rfl⟩,he⟩,⟨by decide +kernel,by decide +kernel⟩,?_⟩
  rw [← text_oddities]
  exact snapshot_survives_text hf

end ScanService
