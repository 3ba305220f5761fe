import Mathlib
import MediaCatalog.Proofs.Preview.History
import MediaCatalog.Proofs.Settings
import MediaCatalog.Proofs.Web.Guard

namespace MediaCatalog.Web

open Handling Preview

def Route.sendsFile : Route → Bool
  | .blob _ | .blobPreview _ | .preview => true
  | _ => false

namespace Server

/-- What a request for a file asks for: the directory that the file has to be in, the path that
names it, and the height when a preview is wanted. -/
inductive AsksFor (s : Server) (q : Request) : Route → Path → Path → Option Int → Prop
  | blob {name : String} :
      AsksFor s q (.blob name) s.settings.blobDir (s.settings.blobDir / name) none
  | blobPreview {name : String} {height : Int} : q.height = .ok height →
      AsksFor s q (.blobPreview name) s.settings.blobDir (s.settings.blobDir / name) (some height)
  | preview {path : String} {height : Int} : q.pathParameter = .ok path → q.height = .ok height →
      AsksFor s q .preview s.settings.mediaRoot (Path.ofString path) (some height)

/-- A path names a regular file of the media or the blobs. -/
def Admits (s : Server) (w : World) (p : Path) : Prop :=
  ∃ base, (base = s.settings.blobDir ∨ base = s.settings.mediaRoot) ∧
    ∃ place, w.files.Confines w.cwd base p place

/-- A delivery is a file itself, a preview that has just been made of it, or a preview that is kept
since it was made of an admitted file with the same path and the same time of change. -/
inductive ComesFrom (s : Server) (w : World) (makings : List Making) (source : Path) :
    Delivery → Prop
  | itself : ComesFrom s w makings source (.ofFile source)
  | made {data : Bytes} {height : Int} : Preview.made s.imaging w source height = .ok data →
      ComesFrom s w makings source (.made data Jpeg.mime)
  | kept {m : Making} {file : Path} {place : Place} {changedAt : Int} :
      m ∈ makings → m.source.toString = source.toString →
      changeOf m.world m.source = changeOf w source → s.Admits m.world m.source →
      Preview.made s.imaging m.world m.source m.height = .ok m.data →
      w.files.find w.cwd file = .ok place →
      w.files.node? place = some (.file (.bytes m.data) changedAt) →
      ComesFrom s w makings source (.file file Jpeg.mime)

def deliverFrom (s : Server) (base target : Path) : Option Int → Handling Delivery
  | none => do return .ofFile (← checkedFile base target)
  | some height => do s.previewOf (← checkedFile base target) height

variable {s : Server} {q : Request} {route : Route} {base target : Path} {height : Option Int}
  {r r' : Run World} {makings : List Making}

theorem deliver_preview (s : Server) (q : Request) :
    s.deliver q .preview = (do
      let (path, height) ← inQuery (Prod.mk <$> q.pathParameter <*> q.height)
      s.previewOf (← s.mediaFile path) height) := rfl

theorem AsksFor.deliver_eq (h : s.AsksFor q route base target height) :
    s.deliver q route = s.deliverFrom base target height := by
  cases h with
  | blob => rfl
  | blobPreview hheight =>
      rw [deliver, hheight]
      rfl
  | preview hpath hheight =>
      rw [deliver_preview, hpath, hheight]
      rfl

theorem AsksFor.admits {p : Path} {place : Place} (h : s.AsksFor q route base target height)
    (hp : r.state.files.Confines r.state.cwd base p place) : s.Admits r.state p := by
  refine ⟨base, ?_, place, hp⟩
  cases h with
  | blob | blobPreview => exact .inl rfl
  | preview => exact .inr rfl

theorem exists_asksFor (hroute : route.sendsFile) :
    (∃ errors, s.deliver q route = refuse (flawedAt "query" errors)) ∨
      ∃ base target height, s.AsksFor q route base target height := by
  cases route with
  | blob name => exact .inr ⟨_, _, _, .blob⟩
  | blobPreview name =>
      rw [deliver]
      cases hheight : q.height with
      | ok height => exact .inr ⟨_, _, _, .blobPreview hheight⟩
      | flawed errors => exact .inl ⟨errors, rfl⟩
  | preview =>
      rw [deliver_preview]
      cases hpath : q.pathParameter with
      | ok path =>
          cases hheight : q.height with
          | ok height => exact .inr ⟨_, _, _, .preview hpath hheight⟩
          | flawed errors => exact .inl ⟨errors, rfl⟩
      | flawed errors =>
          cases q.height with
          | ok height => exact .inl ⟨errors, rfl⟩
          | flawed more => exact .inl ⟨errors ++ more, rfl⟩
  | folders | bucket | recent | populate | render => exact absurd hroute Bool.false_ne_true

theorem handle_of_sendsFile (hroute : route.sendsFile) :
    s.handle q route = (do return (.delivery (← s.deliver q route), s)) := by
  cases route with
  | blob | blobPreview | preview => rfl
  | folders | bucket | recent | populate | render => exact absurd hroute Bool.false_ne_true

/-- How a checked delivery goes: nothing happens to the world, or one preview is delivered. -/
inductive Delivered (s : Server) (base target : Path) (height : Option Int) (r : Run World) :
    Except Failure (Except Refusal Delivery) → Run World → Prop
  | failed (f : Failure) : Delivered s base target height r (.error f) r
  | refused {x : Refusal} : x.status ≠ 200 → Delivered s base target height r (.ok (.error x)) r
  | itself {source : Path} : verdict r.state base target = .ok (.ok source) → height = none →
      Delivered s base target height r (.ok (.ok (.ofFile source))) r
  | preview {source : Path} {wanted : Int} {out : Except Failure Delivery} {r' : Run World} :
      verdict r.state base target = .ok (.ok source) → height = some wanted →
      (s.previews.deliver source wanted).exec r = (out, r') →
      Delivered s base target height r (out.map .ok) r'

theorem delivered_of_exec {out : Except Failure (Except Refusal Delivery)}
    (h : (s.deliverFrom base target height).exec r = (out, r')) :
    s.Delivered base target height r out r' := by
  have hcheck := exec_checkedFile base target r
  rcases hverdict : verdict r.state base target with f | x | source
  · have hout : (s.deliverFrom base target height).exec r = (.error f, r) := by
      cases height <;> rw [deliverFrom, exec_bind, hcheck, hverdict]
    cases hout.symm.trans h
    exact .failed f
  · have hout : (s.deliverFrom base target height).exec r = (.ok (.error x), r) := by
      cases height <;> rw [deliverFrom, exec_bind, hcheck, hverdict]
    cases hout.symm.trans h
    apply Delivered.refused
    have hjudged := hverdict ▸ judged_verdict r.state base target
    cases hjudged with
    | outside | absent => exact of_decide_eq_true rfl
  rw [hverdict] at hcheck
  cases hheight : height with
  | none =>
      rw [hheight, deliverFrom, exec_bind_ok hcheck] at h
      cases h
      exact .itself hverdict rfl
  | some wanted =>
      rw [hheight, deliverFrom, exec_bind_ok hcheck, previewOf, exec_work] at h
      rcases hdeliver : (s.previews.deliver source wanted).exec r with ⟨f | d, r''⟩
      · rw [hdeliver] at h
        cases h
        exact .preview hverdict rfl hdeliver
      · rw [hdeliver] at h
        cases h
        exact .preview hverdict rfl hdeliver

theorem isSound_previews (h : s.settings.thumbDir.IsCanonical) : s.previews.IsSound :=
  ⟨h, slash_not_mem_digest⟩

/-- No preview that was made before has a key with the digest of another one. -/
def KeysApart (s : Server) (makings : List Making) (key : String) : Prop :=
  ∀ m ∈ makings, s.previews.name m.key = s.previews.name key → m.key = key

theorem comesFrom_of_deliver {source : Path} {wanted : Int} {d : Delivery}
    (hlife : s.previews.History s.Admits r.state makings)
    (hthumbs : s.settings.thumbDir.IsCanonical)
    (hkeys : s.KeysApart makings (keyText source (changeOf r.state source) wanted))
    (h : (s.previews.deliver source wanted).exec r = (.ok d, r')) :
    s.ComesFrom r.state makings source d := by
  have hsound := isSound_previews hthumbs
  cases Cache.delivers_of_exec h with
  | kept hkey hexists =>
      obtain ⟨m, hm, hname, place, changedAt, hfind, hnode⟩ :=
        (hlife.holds hsound).exists_making hsound hexists
      subst hkey
      obtain ⟨hpath, hchange, -⟩ := keyChars_inj (String.ofList_injective (hkeys m hm hname))
      obtain ⟨hadmits, hmade⟩ := hlife.genuine m hm
      exact .kept hm (congrArg String.ofList hpath) hchange hadmits hmade hfind hnode
  | unmade _ => exact .itself
  | made _ hmade _ => exact .made hmade

section Delivered

variable {out : Except Failure (Except Refusal Delivery)}

theorem Delivered.history (h : s.Delivered base target height r out r')
    (hasks : s.AsksFor q route base target height)
    (hlife : s.previews.History s.Admits r.state makings) :
    ∃ more, s.previews.History s.Admits r'.state (makings ++ more) := by
  cases h with
  | failed | refused | itself =>
      refine ⟨[], ?_⟩
      rw [List.append_nil]
      exact hlife
  | preview hverdict _ hpreview =>
      obtain ⟨-, place, hconfines⟩ := confines_of_verdict hverdict
      exact ⟨_, .delivery hlife (hasks.admits hconfines) hpreview⟩

theorem Delivered.status {x : Refusal}
    (h : s.Delivered base target height r (.ok (.error x)) r') : x.status ≠ 200 := by
  generalize hout : (.ok (.error x) : Except Failure (Except Refusal Delivery)) = out at h
  cases h with
  | failed | itself => cases hout
  | refused hstatus =>
      cases hout
      exact hstatus
  | @preview _ _ out => cases out <;> cases hout

theorem Delivered.comesFrom {d : Delivery} (h : s.Delivered base target height r (.ok (.ok d)) r')
    (hlife : s.previews.History s.Admits r.state makings)
    (hthumbs : s.settings.thumbDir.IsCanonical)
    (hkeys : ∀ wanted source, height = some wanted →
      r.state.files.resolve r.state.cwd target = .ok source →
        s.KeysApart makings (keyText source (changeOf r.state source) wanted)) :
    ∃ source, verdict r.state base target = .ok (.ok source) ∧
      s.ComesFrom r.state makings source d := by
  generalize hout : (.ok (.ok d) : Except Failure (Except Refusal Delivery)) = out at h
  cases h with
  | failed | refused => cases hout
  | itself hverdict _ =>
      cases hout
      exact ⟨_, hverdict, .itself⟩
  | @preview source wanted out r' hverdict hheight hpreview =>
      cases out with
      | error f => cases hout
      | ok e =>
          cases hout
          obtain ⟨hresolve, -⟩ := confines_of_verdict hverdict
          exact ⟨source, hverdict,
            comesFrom_of_deliver hlife hthumbs (hkeys wanted source hheight hresolve) hpreview⟩

end Delivered

def sent (q : Request) : Except Failure (Except Refusal Delivery) → Reply
  | .error _ => failed
  | .ok (.error x) => { x.reply with allowOrigin := q.allowedOrigin }
  | .ok (.ok d) => { body := .delivery d, allowOrigin := q.allowedOrigin }

theorem exec_respond_file (hroute : routeOf q = .ok route) (hfile : route.sendsFile)
    (r : Run World) :
    ∃ out r', (s.respond q).exec r = (.ok (sent q out, s), r') ∧
      (r' = r ∧ (∃ errors, out = .ok (.error (flawedAt "query" errors))) ∨
        ∃ base target height, s.AsksFor q route base target height ∧
          s.Delivered base target height r out r') := by
  rw [exec_respond, exec_serve hroute, handle_of_sendsFile hfile]
  rcases exists_asksFor (s := s) (q := q) hfile with
    ⟨errors, hflawed⟩ | ⟨base, target, height, hasks⟩
  · rw [hflawed, exec_bind_refused (exec_refuse _ r)]
    exact ⟨_, r, rfl, .inl ⟨rfl, errors, rfl⟩⟩
  rcases hdeliver : (s.deliverFrom base target height).exec r with ⟨out, r'⟩
  refine ⟨out, r', ?_, .inr ⟨base, target, height, hasks, delivered_of_exec hdeliver⟩⟩
  rw [hasks.deliver_eq, exec_bind, hdeliver]
  rcases out with f | x | d <;> rfl

theorem history_of_respond (hroute : routeOf q = .ok route) (hfile : route.sendsFile)
    (hlife : s.previews.History s.Admits r.state makings) :
    ∃ more, s.previews.History s.Admits ((s.respond q).exec r).2.state (makings ++ more) := by
  obtain ⟨out, r', hexec, ⟨rfl, -⟩ | ⟨base, target, height, hasks, hdelivered⟩⟩ :=
    exec_respond_file (s := s) hroute hfile r
  · refine ⟨[], ?_⟩
    rw [hexec, List.append_nil]
    exact hlife
  · rw [hexec]
    exact hdelivered.history hasks hlife

/-- The worlds that a server goes through: its cache starts bare, requests for files are answered,
and everything else leaves the directory of the cache alone. -/
inductive Lives (s : Server) : World → Prop
  | bare {w : World} : w.files.IsUnlinked s.settings.thumbDir.parts →
      (∀ name, w.files.node? (s.settings.thumbDir.parts ++ [name]) = none) → Lives s w
  | outside {w w' : World} : Lives s w → s.previews.LeavesAlone w.files w'.files → Lives s w'
  | answered {q : Request} {route : Route} {r : Run World} : Lives s r.state →
      routeOf q = .ok route → route.sendsFile → Lives s ((s.respond q).exec r).2.state

theorem Lives.exists_history {w : World} (h : s.Lives w) :
    ∃ makings, s.previews.History s.Admits w makings := by
  induction h with
  | bare hun hnone => exact ⟨[], .bare hun hnone⟩
  | outside _ hleaves ih =>
      obtain ⟨makings, hlife⟩ := ih
      exact ⟨makings, .outside hlife hleaves⟩
  | answered _ hroute hfile ih =>
      obtain ⟨makings, hlife⟩ := ih
      obtain ⟨more, hmore⟩ := history_of_respond hroute hfile hlife
      exact ⟨makings ++ more, hmore⟩

/-- Whatever is sent with success is a regular file, or a preview of one, whose place lies inside
the directory of the route name by name. When the path that names the file leads somewhere by
itself, it is to that file. -/
theorem respond_confined {s : Server} {q : Request} {route : Route} {r : Run World}
    {makings : List Making} (hroute : routeOf q = .ok route) (hfile : route.sendsFile)
    (hthumbs : s.settings.thumbDir.IsCanonical)
    (hlife : s.previews.History s.Admits r.state makings)
    (hkeys : ∀ base target wanted source, s.AsksFor q route base target (some wanted) →
      r.state.files.resolve r.state.cwd target = .ok source →
        s.KeysApart makings (keyText source (changeOf r.state source) wanted)) :
    ∃ reply s' r', (s.respond q).exec r = (.ok (reply, s'), r') ∧
      (reply.status = 200 → ∃ base target height source place d,
        s.AsksFor q route base target height ∧
        r.state.files.resolve r.state.cwd target = .ok source ∧
        r.state.files.Confines r.state.cwd base source place ∧
        (∀ there, r.state.files.find r.state.cwd target = .ok there → there = place) ∧
        reply.body = .delivery d ∧ s.ComesFrom r.state makings source d) := by
  obtain ⟨out, r', hexec, hout⟩ := exec_respond_file (s := s) hroute hfile r
  refine ⟨_, _, _, hexec, fun h200 => ?_⟩
  rcases hout with ⟨-, errors, rfl⟩ | ⟨base, target, height, hasks, hdelivered⟩
  · exact nomatch (show 422 = 200 from h200)
  rcases out with f | x | d
  · exact nomatch (show 500 = 200 from h200)
  · exact absurd h200 hdelivered.status
  · obtain ⟨source, hverdict, hd⟩ := hdelivered.comesFrom hlife hthumbs
      fun wanted source hheight => hkeys base target wanted source (hheight ▸ hasks)
    obtain ⟨hresolve, place, hconfines⟩ := confines_of_verdict hverdict
    refine ⟨base, target, height, source, place, d, hasks, hresolve, hconfines, ?_, rfl, hd⟩
    exact fun there hthere => (FileSystem.find_of_resolve hthere hresolve hconfines.leads).symm

def sampleWorld : World where
  files := ⟨[(["b"], .directory), (["b", "a"], .file (.bytes [7]) 0), (["b", "l"], .link "../b/a")]⟩
  cwd := ⟨.slash, []⟩
  home := "/"

def sampleServer : Server := .ofSettings .sample

theorem history_sample : sampleServer.previews.History sampleServer.Admits sampleWorld [] := by
  refine .bare ?_ ?_
  · intro front hfront text
    rcases List.prefix_concat_iff.1 (show front <+: [] ++ ["t"] from hfront) with rfl | hfront
    · exact fun h => nomatch h
    · obtain rfl := List.prefix_nil.1 hfront
      exact fun h => nomatch h
  · intro name
    rfl

theorem respond_confined_sample :
    ∃ reply s' r', (sampleServer.respond { target := ⟨"/blob/l", ""⟩ }).exec ⟨sampleWorld, []⟩ =
        (.ok (reply, s'), r') ∧ reply.status = 200 ∧
      ∃ source place, sampleWorld.files.Confines sampleWorld.cwd ⟨.slash, ["b"]⟩ source place ∧
        source.toString = "/b/a" ∧ reply.body = .delivery (.ofFile source) := by
  have hroute : routeOf { target := ⟨"/blob/l", ""⟩ } = .ok (.blob "l") := by cbv
  have heval : (sampleServer.respond { target := ⟨"/blob/l", ""⟩ }).exec ⟨sampleWorld, []⟩ =
      (.ok ({ body := .delivery (.ofFile ⟨.slash, ["b", "a"]⟩) }, sampleServer),
        ⟨sampleWorld, []⟩) := by
    rw [exec_respond, exec_serve hroute]
    rfl
  obtain ⟨reply, s', r', hexec, hsent⟩ := respond_confined (s := sampleServer)
    (r := ⟨sampleWorld, []⟩) hroute rfl Settings.isCanonical_sample history_sample
    (fun _ _ _ _ _ _ _ h => absurd h List.not_mem_nil)
  cases heval.symm.trans hexec
  obtain ⟨base, target, height, source, place, d, hasks, hresolve, hconfines, -, hbody, -⟩ :=
    hsent rfl
  cases hasks
  obtain rfl : ⟨.slash, ["b", "a"]⟩ = source := Except.ok.inj hresolve
  exact ⟨_, _, _, heval, rfl, _, place, hconfines, rfl, rfl⟩

end Server

end MediaCatalog.Web
