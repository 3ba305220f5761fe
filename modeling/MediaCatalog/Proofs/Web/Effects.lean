import MediaCatalog.Proofs.Index.Access
import MediaCatalog.Proofs.Repository.Effects
import MediaCatalog.Proofs.Web.Handling

namespace MediaCatalog

open World

variable {α β : Type} {R : World → World → Prop}

namespace Web.Handling

/-- The relation is kept whatever happens, and every result is of the kind. -/
structure Keeps (R : World → World → Prop) (P : α → Prop) (act : Handling α) : Prop where
  state : Act.Keeps R act.run
  returns : Act.Returns (fun out => ∀ a, out = .ok a → P a) act.run

variable {P : α → Prop} {Q : β → Prop} {act : Handling α}

variable [IsPreorder World R]

theorem keeps_pure {a : α} (h : P a) : Keeps R P (pure a : Handling α) := by
  refine ⟨Act.keeps_pure _, Act.returns_pure fun b hb => ?_⟩
  cases hb
  exact h

theorem keeps_refuse (x : Refusal) : Keeps R P (refuse x : Handling α) := by
  refine ⟨Act.keeps_pure _, Act.returns_pure fun b hb => ?_⟩
  cases hb

theorem Keeps.bind (h : Keeps R P act) {next : α → Handling β}
    (hnext : ∀ a, P a → Keeps R Q (next a)) : Keeps R Q (act >>= next) := by
  constructor
  · refine h.state.bind_returns h.returns fun out hout => ?_
    cases out with
    | error x => exact Act.keeps_pure _
    | ok a => exact (hnext a (hout a rfl)).state
  · refine h.returns.bind fun out hout => ?_
    cases out with
    | error x => exact Act.returns_pure fun b hb => by cases hb
    | ok a => exact (hnext a (hout a rfl)).returns

theorem keeps_work {act : Doing α} (h : Act.Keeps R act) (hreturns : Act.Returns P act) :
    Keeps R P (work act) := by
  constructor
  · exact h.bind fun a => Act.keeps_pure _
  · refine hreturns.bind fun a ha => Act.returns_pure fun b hb => ?_
    cases hb
    exact ha

theorem keeps_look {act : Doing α} (h : Act.Inspects act) : Keeps R (fun _ => True) (work act) :=
  keeps_work h.keeps (Act.returns_any act)

theorem keeps_foldlM {f : α → β → Handling α} (h : ∀ a b, P a → Keeps R P (f a b)) (l : List β)
    {a : α} (ha : P a) : Keeps R P (l.foldlM f a) := by
  induction l generalizing a with
  | nil => exact keeps_pure ha
  | cons b l ih =>
      rw [List.foldlM_cons]
      exact (h a b ha).bind fun a' ha' => ih ha'

end Web.Handling

section Rendering

open Act

theorem PictureEdit.inspects_render (e : PictureEdit) : Inspects e.edit.render := by
  have hstep (raster : Raster) (o : Operation) :
      Inspects ((PictureEdit.darkroom e.source).step raster o) := by
    refine (inspects_ofExcept o.name).bind fun _ => ?_
    refine (Inspects.attempt ((inspects_ofExcept _).bind fun t => inspects_ofExcept _)).bind
      fun out => (inspects_pure ()).bind fun _ => inspects_ofExcept out
  refine Inspects.bind ?_ fun raster => ?_
  · exact (Metadata.inspects_openPath e.source).bind fun picture => inspects_ofExcept _
  · have hrun (operations : List Operation) (raster : Raster) :
        Inspects ((PictureEdit.darkroom e.source).run raster operations) := by
      induction operations generalizing raster with
      | nil => exact inspects_pure raster
      | cons o operations ih =>
          rw [Darkroom.run, List.foldlM_cons]
          exact (hstep raster o).bind ih
    exact hrun e.operations raster

variable [IsPreorder World R] (s : Settings) (m : Imaging)

/-- With the permission that the paths give, only storing what was rendered can change anything. -/
theorem Settings.keeps_components
    (hpersist : ∀ data, Act.Keeps R (s.blobs.persist data renderedMime)) :
    (s.components s.pathPermission.hasReadAccess m).Keeps R where
  folders := keeps_getState.bind fun w => s.keeps_folders w.cwd
  items bucketId := keeps_getState.bind fun w => s.keeps_items w.cwd bucketId
  recent := keeps_getState.bind fun w => s.keeps_recent w.cwd
  complete items :=
    ((s.isReader_completer s.pathPermission.inspects_hasReadAccess).complete items).keeps
  render items _ hedits := Merger.keeps_render (fun _ _ => keeps_ofExcept _) hpersist
    (fun _ => keeps_pure ()) hedits items

end Rendering

namespace Web.Server

open Handling

def cacheOf (s : Settings) (m : Imaging) : Preview.Cache := { dir := s.thumbDir, imaging := m }

/-- A server for the settings whose repository keeps to the relation. -/
structure Serves (R : World → World → Prop) (s : Settings) (m : Imaging) (server : Server) :
    Prop where
  settings : server.settings = s
  imaging : server.imaging = m
  repository : server.repository.Keeps R

variable {s : Settings} {m : Imaging} {server : Server} [IsPreorder World R]

theorem keeps_checkedFile (base target : Path) :
    Keeps R (fun _ => True) (checkedFile base target) := by
  have hlook {α : Type} {act : Doing α} (h : Act.Inspects act) :
      Keeps R (fun _ => True) (liftM act : Handling α) := keeps_look h
  rw [checkedFile]
  refine (hlook (inspects_ask _)).bind fun file _ => ?_
  refine (hlook (inspects_ask _)).bind fun inside _ => ?_
  split
  · exact keeps_refuse _
  · refine (hlook (inspects_ask _)).bind fun isFile _ => ?_
    split
    · exact keeps_refuse _
    · exact keeps_pure trivial

theorem inspects_firstAround (p : Path) (bases : List Path) :
    Act.Inspects (firstAround p bases) := by
  induction bases with
  | nil => exact Act.inspects_pure none
  | cons base bases ih =>
      refine (inspects_ask _).bind fun inside => ?_
      split
      · exact Act.inspects_pure _
      · exact ih

theorem keeps_editSource (s : Settings) (location : String) :
    Keeps R (fun _ => True) (editSource s location) := by
  refine (keeps_look (R := R) (Act.inspects_ofExcept _)).bind fun p _ => ?_
  refine (keeps_look (R := R) (inspects_firstAround p _)).bind fun base _ => ?_
  cases base with
  | none => exact keeps_refuse _
  | some base => exact keeps_checkedFile base p

theorem keeps_checkEdit (server : Server) (q : RenderRequest) (e : EditRequest) :
    Keeps R (fun _ => True) (server.checkEdit q e) := by
  rw [checkEdit]
  split
  · exact keeps_refuse _
  · split
    · split
      · exact keeps_refuse _
      · exact keeps_look (Act.inspects_fail _)
    · exact (keeps_editSource server.settings e.location).bind fun source _ => keeps_pure trivial

theorem keeps_inQuery (c : Check α) : Keeps R (fun _ => True) (inQuery c) := by
  cases c with
  | ok a => exact keeps_pure trivial
  | flawed errors => exact keeps_refuse _

theorem keeps_read (q : Request) (read : Check.Reader α) :
    Keeps R (fun _ => True) (q.read read) := by
  have hbody (v : Json) (errors : List FieldError) :
      Keeps R (fun _ => True) (refuseBody v errors : Handling α) := by
    rw [refuseBody]
    split
    · exact keeps_refuse _
    · exact keeps_look (Act.inspects_fail _)
  have htext (cs : List Char) : Keeps R (fun _ => True) (readText read cs) := by
    rw [readText]
    split
    · exact keeps_refuse _
    · exact keeps_refuse _
    · split
      · exact keeps_pure trivial
      · exact hbody _ _
  rw [Request.read]
  split
  · exact keeps_refuse _
  · exact keeps_refuse _
  · split
    · exact htext _
    · exact keeps_refuse _

theorem Serves.ask (h : Serves R s m server) {q : MediaCatalog.Request World Raster}
    (hq : q.Keeps R) : Keeps R (fun out => Serves R s m out.2) (server.ask q) := by
  obtain ⟨hask, hreturns⟩ := h.repository.ask hq
  exact (keeps_work hask hreturns).bind fun out hout => keeps_pure ⟨h.settings, h.imaging, hout⟩

theorem Serves.render (h : Serves R s m server) (q : RenderRequest) :
    Keeps R (fun out => Serves R s m out.2) (server.render q) := by
  have hedits : Keeps R (fun _ => True) (server.checkEdits q) :=
    keeps_foldlM (fun edits e _ => (keeps_checkEdit server q e).bind fun out _ =>
      keeps_pure trivial) q.edits trivial
  refine hedits.bind fun edits _ => h.ask fun o ho => ?_
  obtain ⟨e, -, rfl⟩ := List.mem_map.1 ho
  exact e.2.inspects_render.keeps

variable (hdeliver : ∀ p height, Act.Keeps R ((cacheOf s m).deliver p height))
include hdeliver

theorem Serves.deliver (h : Serves R s m server) (q : Request) (route : Route) :
    Keeps R (fun _ => True) (server.deliver q route) := by
  have hpreview (file : Path) (height : Int) :
      Keeps R (fun _ => True) (server.previewOf file height) := by
    have hcache : server.previews = cacheOf s m := congrArg₂ cacheOf h.settings h.imaging
    rw [previewOf, hcache]
    exact keeps_work (hdeliver file height) (Act.returns_any _)
  cases route with
  | blob name => exact (keeps_checkedFile _ _).bind fun file _ => keeps_pure trivial
  | blobPreview name =>
      exact (keeps_inQuery _).bind fun height _ => (keeps_checkedFile _ _).bind fun file _ =>
        hpreview file height
  | folders | bucket | recent | populate | render | preview =>
      exact (keeps_inQuery _).bind fun out _ => (keeps_checkedFile _ _).bind fun file _ =>
        hpreview file out.2

theorem Serves.handle (h : Serves R s m server) (q : Request) (route : Route) :
    Keeps R (fun out => Serves R s m out.2) (server.handle q route) := by
  have hasked {act : Handling (Answer × Server)} (hact : Keeps R (fun out => Serves R s m out.2) act) :
      Keeps R (fun out => Serves R s m out.2)
        (act >>= fun out => return (answerBody out.1, out.2)) :=
    hact.bind fun out hout => keeps_pure hout
  have hfile : Keeps R (fun out => Serves R s m out.2) (do
      return (Body.delivery (← server.deliver q route), server)) :=
    (h.deliver hdeliver q route).bind fun d _ => keeps_pure h
  cases route with
  | folders => exact hasked (h.ask trivial)
  | bucket id => exact hasked (h.ask trivial)
  | recent => exact hasked (h.ask trivial)
  | populate => exact hasked ((keeps_read q _).bind fun items _ => h.ask trivial)
  | render => exact hasked ((keeps_read q _).bind fun request _ => h.render request)
  | blob | blobPreview | preview => exact hfile

theorem Serves.serve (h : Serves R s m server) (q : Request) :
    Keeps R (fun out => Serves R s m out.2) (server.serve q) := by
  rw [Server.serve]
  cases routeOf q with
  | error x => exact (keeps_refuse (P := fun _ => True) x).bind fun route _ => h.handle hdeliver q route
  | ok route => exact h.handle hdeliver q route

/-- Every request keeps to the relation, also one that fails, and the server goes on to serve. -/
theorem Serves.respond (h : Serves R s m server) (q : Request) :
    Act.Keeps R (server.respond q) ∧
      Act.Returns (fun out => Serves R s m out.2) (server.respond q) := by
  have hserve := h.serve hdeliver q
  constructor
  · intro r
    rw [exec_respond]
    exact hserve.state r
  · intro r out r' hout
    rw [exec_respond] at hout
    cases hout
    rcases hserved : (server.serve q).exec r with ⟨f | x | ⟨body, server'⟩, r'⟩
    · exact h
    · exact h
    · exact hserve.returns r _ r' hserved _ rfl

end Web.Server

end MediaCatalog
