import Mathlib
import MediaCatalog.Proofs.Repository.Pool
import MediaCatalog.Proofs.Settings
import MediaCatalog.Proofs.Web.Guard

namespace MediaCatalog.Web

open Handling

namespace Server

/-- The file that an edit of a location starts from, when nothing that is asked about it raises an
error: the path of the location, the canonical form of the path, what that resolves to once more,
and whether it is a regular file; and the canonical forms of the two directories. -/
structure Source (s : Server) (w : World) (location : String) where
  path : Path
  canonical : Path
  again : Path
  media : Path
  blobs : Path
  isFile : Bool
  toPath_eq : Locator.toPath (some s.settings.blobDir) location = .ok path
  resolve_eq : w.files.resolve w.cwd path = .ok canonical
  resolve_again : w.files.resolve w.cwd canonical = .ok again
  resolve_media : w.files.resolve w.cwd s.settings.mediaRoot = .ok media
  resolve_blobs : w.files.resolve w.cwd s.settings.blobDir = .ok blobs
  isFile_eq : w.files.isFile w.cwd canonical = .ok isFile

/-- The directory that the file is taken from: that of the media if it lies there, else that of the
blobs. -/
inductive Source.IsFrom {s : Server} {w : World} {location : String} (f : s.Source w location) :
    Path → Prop
  | media : f.canonical.IsInside f.media → f.IsFrom f.media
  | blobs : ¬ f.canonical.IsInside f.media → f.canonical.IsInside f.blobs → f.IsFrom f.blobs

/-- What an edit of a request needs to be carried out. -/
structure Accepts (s : Server) (w : World) (body : RenderRequest) (e : EditRequest) : Prop where
  known : ∃ i ∈ body.items, i.location = e.location
  wellFormed : ∀ o ∈ e.operations, o.kind = .crop → o.box ≠ none
  source : ∃ (f : s.Source w e.location) (base : Path), f.IsFrom base ∧ f.again.IsInside base ∧
    f.isFile = true

/-- What an edit lacks, and what is answered because of it. What comes first counts. -/
inductive Refuses (s : Server) (w : World) (body : RenderRequest) (e : EditRequest) :
    Refusal → Prop
  | unknown : (∀ i ∈ body.items, i.location ≠ e.location) →
      Refuses s w body e (.unknownItem e.location)
  | malformed : (∃ i ∈ body.items, i.location = e.location) →
      (∃ o ∈ e.operations, o.kind = .crop ∧ o.box = none) →
      Refuses s w body e (.badOperation .cropNeedsBox)
  | outside (f : s.Source w e.location) : (∃ i ∈ body.items, i.location = e.location) →
      (∀ o ∈ e.operations, o.kind = .crop → o.box ≠ none) →
      ¬ f.canonical.IsInside f.media → ¬ f.canonical.IsInside f.blobs →
      Refuses s w body e (.cannotEdit e.location)
  | astray (f : s.Source w e.location) {base : Path} :
      (∃ i ∈ body.items, i.location = e.location) →
      (∀ o ∈ e.operations, o.kind = .crop → o.box ≠ none) →
      f.IsFrom base → ¬ f.again.IsInside base → Refuses s w body e .forbiddenPath
  | absent (f : s.Source w e.location) {base : Path} :
      (∃ i ∈ body.items, i.location = e.location) →
      (∀ o ∈ e.operations, o.kind = .crop → o.box ≠ none) →
      f.IsFrom base → f.again.IsInside base → f.isFile = false → Refuses s w body e .noFile

variable {s : Server} {q : Request} {w : World} {r : Run World} {location : String}
  {body : RenderRequest} {e : EditRequest}

section Sources

theorem Source.eq (f g : s.Source w location) : f = g := by
  obtain ⟨path, canonical, again, media, blobs, isFile, hpath, hresolve, hagain, hmedia, hblobs,
    hfile⟩ := f
  obtain ⟨_, _, _, _, _, _, hpath', hresolve', hagain', hmedia', hblobs', hfile'⟩ := g
  cases hpath.symm.trans hpath'
  cases hresolve.symm.trans hresolve'
  cases hagain.symm.trans hagain'
  cases hmedia.symm.trans hmedia'
  cases hblobs.symm.trans hblobs'
  cases hfile.symm.trans hfile'
  rfl

/-- Only a path that leads nowhere by itself can resolve to something else once more. -/
theorem Source.again_eq (f : s.Source w location) {place : Place}
    (h : w.files.find w.cwd f.path = .ok place) : f.again = f.canonical := by
  have hagain := FileSystem.resolve_resolve h f.resolve_eq
  exact Except.ok.inj (f.resolve_again.symm.trans hagain)

theorem exec_firstAround_cons {p t base directory : Path} {rest : List Path}
    (ht : r.state.files.resolve r.state.cwd p = .ok t)
    (hbase : r.state.files.resolve r.state.cwd base = .ok directory) :
    (firstAround p (base :: rest)).exec r =
      if (t.relativeTo? directory).isSome then (.ok (some base), r)
      else (firstAround p rest).exec r := by
  rw [firstAround, Act.exec_bind, World.exec_relativeUnder, FileSystem.relativeUnder_eq ht hbase]
  cases t.relativeTo? directory <;> rfl

theorem exec_firstAround_of_isFrom (f : s.Source r.state location) {home : Path}
    (h : f.IsFrom home) :
    ∃ base, r.state.files.resolve r.state.cwd base = .ok home ∧
      (firstAround f.path [s.settings.mediaRoot, s.settings.blobDir]).exec r =
        (.ok (some base), r) := by
  cases h with
  | media hmedia =>
      refine ⟨s.settings.mediaRoot, f.resolve_media, ?_⟩
      rw [exec_firstAround_cons f.resolve_eq f.resolve_media,
        if_pos (Path.relativeTo?_isSome.2 hmedia)]
  | blobs hmedia hblobs =>
      refine ⟨s.settings.blobDir, f.resolve_blobs, ?_⟩
      rw [exec_firstAround_cons f.resolve_eq f.resolve_media,
        if_neg (mt Path.relativeTo?_isSome.1 hmedia),
        exec_firstAround_cons f.resolve_eq f.resolve_blobs,
        if_pos (Path.relativeTo?_isSome.2 hblobs)]

theorem exec_firstAround_outside (f : s.Source r.state location)
    (hmedia : ¬ f.canonical.IsInside f.media) (hblobs : ¬ f.canonical.IsInside f.blobs) :
    (firstAround f.path [s.settings.mediaRoot, s.settings.blobDir]).exec r = (.ok none, r) := by
  rw [exec_firstAround_cons f.resolve_eq f.resolve_media,
    if_neg (mt Path.relativeTo?_isSome.1 hmedia),
    exec_firstAround_cons f.resolve_eq f.resolve_blobs,
    if_neg (mt Path.relativeTo?_isSome.1 hblobs)]
  rfl

theorem exec_toPath (f : s.Source r.state location) :
    (work (Act.ofExcept (Locator.toPath (some s.settings.blobDir) location))).exec r =
      (.ok (.ok f.path), r) := by
  rw [exec_work, Act.exec_ofExcept, f.toPath_eq]

theorem exec_editSource_of_isFrom (f : s.Source r.state location) {home : Path}
    (h : f.IsFrom home) :
    (editSource s.settings location).exec r =
      (.ok (if (f.again.relativeTo? home).isSome then
        if f.isFile then .ok f.canonical else .error .noFile else .error .forbiddenPath), r) := by
  obtain ⟨base, hbase, hfirst⟩ := exec_firstAround_of_isFrom f h
  rw [editSource, exec_bind_ok (exec_toPath f), exec_bind_ok (exec_liftM_ok hfirst)]
  dsimp only
  rw [exec_checkedFile, verdict_eq f.resolve_eq f.resolve_again hbase f.isFile_eq]

theorem exec_editSource_outside (f : s.Source r.state location)
    (hmedia : ¬ f.canonical.IsInside f.media) (hblobs : ¬ f.canonical.IsInside f.blobs) :
    (editSource s.settings location).exec r = (.ok (.error (.cannotEdit location)), r) := by
  rw [editSource, exec_bind_ok (exec_toPath f),
    exec_bind_ok (exec_liftM_ok (exec_firstAround_outside f hmedia hblobs))]
  rfl

end Sources

section Edits

theorem itemAt_eq_none : itemAt body location = none ↔ ∀ i ∈ body.items, i.location ≠ location := by
  rw [itemAt, List.find?_eq_none]
  simp

theorem itemAt_isSome (h : ∃ i ∈ body.items, i.location = location) :
    ∃ i, itemAt body location = some i := by
  cases hi : itemAt body location with
  | some i => exact ⟨i, rfl⟩
  | none =>
      obtain ⟨i, hmem, hlocation⟩ := h
      exact absurd hlocation (itemAt_eq_none.1 hi i hmem)

theorem operation_of_box {o : EditOperation} (h : o.kind = .crop → o.box ≠ none) :
    ∃ p, o.operation = .ok p := by
  obtain ⟨kind, degrees, box⟩ := o
  cases kind with
  | rotate | mirror | flip => exact ⟨_, rfl⟩
  | crop =>
      cases box with
      | none => exact absurd rfl (h rfl)
      | some box => exact ⟨_, rfl⟩

theorem mapM_operation_ok {operations : List EditOperation}
    (h : ∀ o ∈ operations, o.kind = .crop → o.box ≠ none) :
    ∃ ps, operations.mapM EditOperation.operation = .ok ps := by
  induction operations with
  | nil => exact ⟨[], rfl⟩
  | cons o operations ih =>
      obtain ⟨p, hp⟩ := operation_of_box (h o List.mem_cons_self)
      obtain ⟨ps, hps⟩ := ih fun x hx => h x (List.mem_cons_of_mem o hx)
      refine ⟨p :: ps, ?_⟩
      rw [List.mapM_cons, hp, hps]
      rfl

theorem mapM_operation_error {operations : List EditOperation}
    (h : ∃ o ∈ operations, o.kind = .crop ∧ o.box = none) :
    operations.mapM EditOperation.operation = .error .cropNeedsBox := by
  induction operations with
  | nil =>
      obtain ⟨o, ho, -⟩ := h
      exact absurd ho List.not_mem_nil
  | cons o operations ih =>
      rw [List.mapM_cons]
      by_cases hbad : o.kind = .crop ∧ o.box = none
      · rw [EditOperation.operation, hbad.1, hbad.2]
        rfl
      · obtain ⟨p, hp⟩ := operation_of_box (not_and.1 hbad)
        obtain ⟨x, hx, hxbad⟩ := h
        rcases List.mem_cons.1 hx with rfl | hx
        · exact absurd hxbad hbad
        · rw [hp, ih ⟨x, hx, hxbad⟩]
          rfl

theorem exec_checkEdit (hknown : ∃ i ∈ body.items, i.location = e.location)
    (hwell : ∀ o ∈ e.operations, o.kind = .crop → o.box ≠ none) {out : Except Refusal Path}
    (hsource : (editSource s.settings e.location).exec r = (.ok out, r)) :
    ∃ v, (s.checkEdit body e).exec r = (.ok (out.map v), r) := by
  obtain ⟨i, hi⟩ := itemAt_isSome hknown
  obtain ⟨operations, hoperations⟩ := mapM_operation_ok hwell
  rw [checkEdit, hi, hoperations]
  dsimp only
  rw [exec_bind, hsource]
  refine ⟨fun source => (i, ⟨source, operations⟩), ?_⟩
  cases out <;> rfl

theorem exec_checkEdit_ok (h : s.Accepts r.state body e) :
    ∃ v, (s.checkEdit body e).exec r = (.ok (.ok v), r) := by
  obtain ⟨hknown, hwell, f, home, hfrom, hagain, hregular⟩ := h
  have hsource := exec_editSource_of_isFrom f hfrom
  rw [if_pos (Path.relativeTo?_isSome.2 hagain), hregular] at hsource
  obtain ⟨v, hv⟩ := exec_checkEdit hknown hwell hsource
  exact ⟨_, hv⟩

theorem exec_checkEdit_refused {x : Refusal} (h : s.Refuses r.state body e x) :
    (s.checkEdit body e).exec r = (.ok (.error x), r) := by
  cases h with
  | unknown hunknown =>
      rw [checkEdit, itemAt_eq_none.2 hunknown]
      rfl
  | malformed hknown hmalformed =>
      obtain ⟨i, hi⟩ := itemAt_isSome hknown
      rw [checkEdit, hi, mapM_operation_error hmalformed]
      rfl
  | outside f hknown hwell hmedia hblobs =>
      obtain ⟨v, hv⟩ := exec_checkEdit hknown hwell (exec_editSource_outside f hmedia hblobs)
      exact hv
  | astray f hknown hwell hfrom hagain =>
      have hsource := exec_editSource_of_isFrom f hfrom
      rw [if_neg (mt Path.relativeTo?_isSome.1 hagain)] at hsource
      obtain ⟨v, hv⟩ := exec_checkEdit hknown hwell hsource
      exact hv
  | absent f hknown hwell hfrom hagain hregular =>
      have hsource := exec_editSource_of_isFrom f hfrom
      rw [if_pos (Path.relativeTo?_isSome.2 hagain), hregular] at hsource
      obtain ⟨v, hv⟩ := exec_checkEdit hknown hwell hsource
      exact hv

theorem accepts_or_refuses (f : s.Source w e.location) :
    s.Accepts w body e ∨ ∃ x, s.Refuses w body e x := by
  by_cases hknown : ∃ i ∈ body.items, i.location = e.location
  case neg => exact .inr ⟨_, .unknown fun i hi hlocation => hknown ⟨i, hi, hlocation⟩⟩
  by_cases hmalformed : ∃ o ∈ e.operations, o.kind = .crop ∧ o.box = none
  case pos => exact .inr ⟨_, .malformed hknown hmalformed⟩
  have hwell : ∀ o ∈ e.operations, o.kind = .crop → o.box ≠ none :=
    fun o ho hkind hbox => hmalformed ⟨o, ho, hkind, hbox⟩
  have hhome : (∃ home, f.IsFrom home) ∨
      ¬ f.canonical.IsInside f.media ∧ ¬ f.canonical.IsInside f.blobs := by
    by_cases hmedia : f.canonical.IsInside f.media
    · exact .inl ⟨_, .media hmedia⟩
    by_cases hblobs : f.canonical.IsInside f.blobs
    · exact .inl ⟨_, .blobs hmedia hblobs⟩
    · exact .inr ⟨hmedia, hblobs⟩
  rcases hhome with ⟨home, hfrom⟩ | ⟨hmedia, hblobs⟩
  case inr => exact .inr ⟨_, .outside f hknown hwell hmedia hblobs⟩
  by_cases hagain : f.again.IsInside home
  case neg => exact .inr ⟨_, .astray f hknown hwell hfrom hagain⟩
  cases hregular : f.isFile with
  | true => exact .inl ⟨hknown, hwell, f, home, hfrom, hagain, hregular⟩
  | false => exact .inr ⟨_, .absent f hknown hwell hfrom hagain hregular⟩

theorem Refuses.status_ne {x : Refusal} (h : s.Refuses w body e x) : x.status ≠ 200 := by
  cases h <;> exact of_decide_eq_true rfl

end Edits

section Requests

variable {front back : List EditRequest}

theorem exec_gather {edits : List EditRequest} (h : ∀ e ∈ edits, s.Accepts r.state body e)
    (acc : List (Item × PictureEdit)) :
    ∃ acc', (edits.foldlM (fun acc e => do
      let (i, edit) ← s.checkEdit body e
      return putEdit i edit acc) acc : Handling _).exec r = (.ok (.ok acc'), r) := by
  induction edits generalizing acc with
  | nil => exact ⟨acc, rfl⟩
  | cons e edits ih =>
      obtain ⟨v, hv⟩ := exec_checkEdit_ok (h e List.mem_cons_self)
      obtain ⟨acc', hrest⟩ := ih (fun x hx => h x (List.mem_cons_of_mem e hx)) (putEdit v.1 v.2 acc)
      refine ⟨acc', ?_⟩
      have hstep : (s.checkEdit body e >>= fun p => pure (putEdit p.1 p.2 acc)).exec r =
          (.ok (.ok (putEdit v.1 v.2 acc)), r) := by
        rw [exec_bind_ok hv]
        rfl
      rw [List.foldlM_cons, exec_bind_ok hstep, hrest]

/-- The first edit that is refused decides, with nothing done for those before it. -/
theorem exec_render_refused {x : Refusal} (hedits : body.edits = front ++ e :: back)
    (hfront : ∀ f ∈ front, s.Accepts r.state body f) (he : s.Refuses r.state body e x) :
    (s.render body).exec r = (.ok (.error x), r) := by
  obtain ⟨acc, hacc⟩ := exec_gather hfront []
  have hcheck : (s.checkEdits body).exec r = (.ok (.error x), r) := by
    rw [checkEdits, hedits, List.foldlM_append, exec_bind_ok hacc, List.foldlM_cons]
    exact exec_bind_refused (exec_bind_refused (exec_checkEdit_refused he) _) _
  exact exec_bind_refused hcheck _

theorem exists_first_not {α : Type} (P : α → Prop) (l : List α) :
    (∀ a ∈ l, P a) ∨ ∃ front a back, l = front ++ a :: back ∧ (∀ b ∈ front, P b) ∧ ¬ P a := by
  classical
  cases hfind : l.find? (fun a => !decide (P a)) with
  | none => exact .inl fun a ha => by simpa using List.find?_eq_none.1 hfind a ha
  | some a =>
      obtain ⟨ha, front, back, hl, hfront⟩ := List.find?_eq_some_iff_append.1 hfind
      exact .inr ⟨front, a, back, hl, fun b hb => by simpa using hfront b hb, by simpa using ha⟩

theorem exec_render_ok (hopen : s.repository.pool.isOpen)
    (h : ∀ e ∈ body.edits, s.Accepts r.state body e) :
    ∃ a s' r', (s.render body).exec r = (.ok (.ok (a, s')), r') := by
  obtain ⟨edits, hedits⟩ := exec_gather h []
  obtain ⟨⟨a, repository⟩, r', hask⟩ :=
    Repository.succeeds_ask hopen (.rendered body.items (edits.map fun e => (e.1, e.2.edit))) r
  refine ⟨a, { s with repository }, r', ?_⟩
  rw [Server.render, checkEdits, exec_bind_ok hedits, ask, exec_bind_ok (exec_work_eq_ok.2 hask)]
  rfl

theorem exec_serve_render (hroute : routeOf q = .ok .render)
    (hread : q.bodyValue? (RenderRequest.read .request) = some body) (r : Run World) :
    (s.serve q).exec r = (s.render body >>= fun p => pure (answerBody p.1, p.2)).exec r := by
  rw [exec_serve hroute]
  change ((q.read (RenderRequest.read .request) >>= s.render) >>=
    fun p => pure (answerBody p.1, p.2) : Handling (Body × Server)).exec r = _
  rw [exec_bind, exec_bind_ok (Request.exec_read hread r), exec_bind]

theorem exec_respond_refused {x : Refusal} (hroute : routeOf q = .ok .render)
    (hread : q.bodyValue? (RenderRequest.read .request) = some body)
    (hedits : body.edits = front ++ e :: back) (hfront : ∀ f ∈ front, s.Accepts r.state body f)
    (he : s.Refuses r.state body e x) :
    (s.respond q).exec r = (.ok ({ x.reply with allowOrigin := q.allowedOrigin }, s), r) := by
  rw [exec_respond, exec_serve_render hroute hread,
    exec_bind_refused (exec_render_refused hedits hfront he)]
  rfl

/-- A request for edits is carried out when every edit is accepted. Else the first edit that is not
decides the reply, and neither the world nor the server has changed, whatever came before it. -/
theorem respond_render {s : Server} {q : Request} {r : Run World} {body : RenderRequest}
    (hroute : routeOf q = .ok .render)
    (hread : q.bodyValue? (RenderRequest.read .request) = some body)
    (hopen : s.repository.pool.isOpen)
    (hsources : ∀ e ∈ body.edits, Nonempty (s.Source r.state e.location)) :
    ∃ reply s' r', (s.respond q).exec r = (.ok (reply, s'), r') ∧
      (reply.status = 200 ↔ ∀ e ∈ body.edits, s.Accepts r.state body e) ∧
      ∀ front e back, body.edits = front ++ e :: back →
        (∀ f ∈ front, s.Accepts r.state body f) → ¬ s.Accepts r.state body e →
        ∃ x, s.Refuses r.state body e x ∧
          reply = { x.reply with allowOrigin := q.allowedOrigin } ∧ s' = s ∧ r' = r := by
  -- For every way to split the edits: which one comes first is not known to be unique yet.
  have hrefused : ∀ front e back, body.edits = front ++ e :: back →
      (∀ f ∈ front, s.Accepts r.state body f) → ¬ s.Accepts r.state body e →
      ∃ x, s.Refuses r.state body e x ∧
        (s.respond q).exec r = (.ok ({ x.reply with allowOrigin := q.allowedOrigin }, s), r) := by
    intro front e back hedits hfront he
    have hmem : e ∈ body.edits := hedits ▸ List.mem_append_right _ List.mem_cons_self
    obtain ⟨f⟩ := hsources e hmem
    obtain ⟨x, hx⟩ := (accepts_or_refuses f).resolve_left he
    exact ⟨x, hx, exec_respond_refused hroute hread hedits hfront hx⟩
  rcases exists_first_not (s.Accepts r.state body) body.edits with
    hall | ⟨front, e, back, hedits, hfront, he⟩
  · obtain ⟨a, s', r', hrender⟩ := exec_render_ok hopen hall
    refine ⟨{ body := answerBody a, allowOrigin := q.allowedOrigin }, s', r', ?_,
      ⟨fun _ => hall, fun _ => rfl⟩, fun front e back hedits _ he => ?_⟩
    · rw [exec_respond, exec_serve_render hroute hread, exec_bind_ok hrender]
      rfl
    · exact absurd (hall e (hedits ▸ List.mem_append_right _ List.mem_cons_self)) he
  · obtain ⟨x, hx, hexec⟩ := hrefused front e back hedits hfront he
    refine ⟨_, s, r, hexec, ⟨fun h200 => absurd h200 hx.status_ne, fun hall => ?_⟩, ?_⟩
    · exact absurd (hall e (hedits ▸ List.mem_append_right _ List.mem_cons_self)) he
    · intro front' e' back' hedits' hfront' he'
      obtain ⟨x', hx', hexec'⟩ := hrefused front' e' back' hedits' hfront' he'
      refine ⟨x', hx', ?_, rfl, rfl⟩
      exact congrArg (fun out => out.1) (Except.ok.inj (Prod.mk.inj (hexec.symm.trans hexec')).1)

end Requests

def loopWorld : World where
  files := ⟨[(["m"], .directory), (["m", "loop"], .link "loop"), (["m", "a"], .link "../b/p"),
    (["b"], .directory), (["b", "p"], .file (.bytes [7]) 0)]⟩
  cwd := ⟨.slash, []⟩
  home := "/"

def loopServer : Server := .ofSettings .sample

def renderRequest (text : String) : Request where
  method := "POST"
  target := ⟨"/api/media/render", ""⟩
  body := some text

theorem routeOf_renderRequest (text : String) : routeOf (renderRequest text) = .ok .render := by
  have hpath : decodeText "/api/media/render".toList = "/api/media/render" := by cbv
  have hfind : Route.find "/api/media/render" = some .render := by cbv
  rw [routeOf, renderRequest, hpath, hfind]
  rfl

def unknownItem (location : String) : Item := ⟨location, "", 0, 0, 0, 0, none, none⟩

def blobSource : loopServer.Source loopWorld "/b/p" where
  path := ⟨.slash, ["b", "p"]⟩
  canonical := ⟨.slash, ["b", "p"]⟩
  again := ⟨.slash, ["b", "p"]⟩
  media := ⟨.slash, ["m"]⟩
  blobs := ⟨.slash, ["b"]⟩
  isFile := true
  toPath_eq := by rfl
  resolve_eq := by rfl
  resolve_again := by rfl
  resolve_media := by rfl
  resolve_blobs := by rfl
  isFile_eq := by rfl

def missingSource : loopServer.Source loopWorld "/m/x" where
  path := ⟨.slash, ["m", "x"]⟩
  canonical := ⟨.slash, ["m", "x"]⟩
  again := ⟨.slash, ["m", "x"]⟩
  media := ⟨.slash, ["m"]⟩
  blobs := ⟨.slash, ["b"]⟩
  isFile := false
  toPath_eq := by rfl
  resolve_eq := by rfl
  resolve_again := by rfl
  resolve_media := by rfl
  resolve_blobs := by rfl
  isFile_eq := by rfl

def missingBody : RenderRequest where
  items := [unknownItem "/b/p", unknownItem "/m/x"]
  edits := [⟨"/b/p", []⟩, ⟨"/m/x", []⟩]

def missingText : String :=
  "\x7b\"items\":[\x7b\"location\":\"/b/p\",\"mime_type\":\"\"\x7d," ++
    "\x7b\"location\":\"/m/x\",\"mime_type\":\"\"\x7d]," ++
    "\"edits\":[\x7b\"location\":\"/b/p\"\x7d,\x7b\"location\":\"/m/x\"\x7d]\x7d"

theorem respond_render_missing :
    ∃ reply, (loopServer.respond (renderRequest missingText)).exec ⟨loopWorld, []⟩ =
      (.ok (reply, loopServer), ⟨loopWorld, []⟩) ∧ reply.status ≠ 200 := by
  have hread : (renderRequest missingText).bodyValue? (RenderRequest.read .request) =
      some missingBody := by cbv
  have hsources : ∀ e ∈ missingBody.edits, Nonempty (loopServer.Source loopWorld e.location) := by
    intro e he
    rcases List.mem_cons.1 he with rfl | he
    · exact ⟨blobSource⟩
    · obtain rfl := List.mem_singleton.1 he
      exact ⟨missingSource⟩
  have hblob : loopServer.Accepts loopWorld missingBody ⟨"/b/p", []⟩ := by
    refine ⟨⟨_, List.mem_cons_self, rfl⟩, fun _ h => absurd h List.not_mem_nil, ?_⟩
    have hmedia : ¬ blobSource.canonical.IsInside blobSource.media := by
      rintro ⟨-, rest, hrest⟩
      exact absurd (List.cons.inj hrest).1 (by decide)
    have hblobs : blobSource.canonical.IsInside blobSource.blobs := ⟨rfl, ["p"], rfl⟩
    exact ⟨blobSource, _, .blobs hmedia hblobs, hblobs, rfl⟩
  have hmissing : ¬ loopServer.Accepts loopWorld missingBody ⟨"/m/x", []⟩ := by
    rintro ⟨-, -, f, base, -, -, hfile⟩
    rw [f.eq missingSource] at hfile
    cases hfile
  obtain ⟨reply, s', r', hexec, hall, hfirst⟩ := respond_render (s := loopServer)
    (r := ⟨loopWorld, []⟩) (routeOf_renderRequest missingText) hread rfl hsources
  obtain ⟨x, -, -, rfl, rfl⟩ := hfirst [⟨"/b/p", []⟩] ⟨"/m/x", []⟩ [] rfl
    (List.forall_mem_cons.2 ⟨hblob, fun _ h => absurd h List.not_mem_nil⟩) hmissing
  refine ⟨reply, hexec, fun h200 => hmissing (hall.1 h200 _ ?_)⟩
  exact List.mem_cons_of_mem _ List.mem_cons_self

def loopBody : RenderRequest where
  items := [unknownItem "/m/loop/../a"]
  edits := [⟨"/m/loop/../a", []⟩]

def loopText : String :=
  "\x7b\"items\":[\x7b\"location\":\"/m/loop/../a\",\"mime_type\":\"\"\x7d]," ++
    "\"edits\":[\x7b\"location\":\"/m/loop/../a\"\x7d]\x7d"

def loopSource : loopServer.Source loopWorld "/m/loop/../a" where
  path := ⟨.slash, ["m", "loop", "..", "a"]⟩
  canonical := ⟨.slash, ["m", "a"]⟩
  again := ⟨.slash, ["b", "p"]⟩
  media := ⟨.slash, ["m"]⟩
  blobs := ⟨.slash, ["b"]⟩
  isFile := true
  toPath_eq := by rfl
  resolve_eq := by rfl
  resolve_again := by rfl
  resolve_media := by rfl
  resolve_blobs := by rfl
  isFile_eq := by rfl

/-- The edit names an item, is well formed, and its source resolves to a regular file inside the
media; still it is refused, since the resolved path is a link out of the media. -/
theorem render_refused_astray :
    routeOf (renderRequest loopText) = .ok .render ∧
      (renderRequest loopText).bodyValue? (RenderRequest.read .request) = some loopBody ∧
      loopServer.repository.pool.isOpen ∧
      (∀ e ∈ loopBody.edits, (∃ i ∈ loopBody.items, i.location = e.location) ∧
        e.operations = [] ∧ ∃ f : loopServer.Source loopWorld e.location,
          f.canonical.IsInside f.media ∧ f.isFile = true) ∧
      ∃ reply r', (loopServer.respond (renderRequest loopText)).exec ⟨loopWorld, []⟩ =
        (.ok (reply, loopServer), r') ∧ reply.status = 403 := by
  have hread : (renderRequest loopText).bodyValue? (RenderRequest.read .request) =
      some loopBody := by cbv
  have hknown : ∃ i ∈ loopBody.items, i.location = "/m/loop/../a" :=
    ⟨_, List.mem_cons_self, rfl⟩
  have hinside : loopSource.canonical.IsInside loopSource.media := ⟨rfl, ["a"], rfl⟩
  refine ⟨routeOf_renderRequest loopText, hread, rfl, ?_, ?_⟩
  · intro e he
    obtain rfl := List.mem_singleton.1 he
    exact ⟨hknown, rfl, loopSource, hinside, rfl⟩
  · have houtside : ¬ loopSource.again.IsInside loopSource.media := by
      rintro ⟨-, rest, hrest⟩
      exact absurd (List.cons.inj hrest).1 (by decide)
    have hrefused : loopServer.Refuses loopWorld loopBody ⟨"/m/loop/../a", []⟩ .forbiddenPath :=
      .astray loopSource hknown (fun _ h => absurd h List.not_mem_nil) (.media hinside) houtside
    have hedits : loopBody.edits = [] ++ ⟨"/m/loop/../a", []⟩ :: [] := rfl
    exact ⟨_, _, exec_respond_refused (routeOf_renderRequest loopText) hread hedits
      (fun _ h => absurd h List.not_mem_nil) hrefused, rfl⟩

end Server

end MediaCatalog.Web
