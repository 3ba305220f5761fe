import MediaCatalog.Proofs.FileSystem.Faults
import MediaCatalog.Proofs.Preview.Coherence
import MediaCatalog.Proofs.Web.Confinement

namespace MediaCatalog

open FileSystem

namespace Web

open Handling Preview

/-- All that can become of a path under the guard. -/
inductive Guarded (w : World) (base target : Path) : Except Failure (Except Refusal Path) → Prop
  | passed {file : Path} {place : Place} (hfile : w.files.resolve w.cwd target = .ok file)
      (hinside : w.files.Confines w.cwd base file place) : Guarded w base target (.ok (.ok file))
  | outside {file : Path} (hfile : w.files.resolve w.cwd target = .ok file)
      (hunder : w.files.relativeUnder w.cwd base file = .ok none)
      (houtside : ¬ w.files.LiesInside w.cwd base file) :
      Guarded w base target (.ok (.error .forbiddenPath))
  | absent {file : Path} (hfile : w.files.resolve w.cwd target = .ok file)
      (hinside : w.files.LiesInside w.cwd base file)
      (hreach : w.files.reach w.cwd file true ≠ .error .nameTooLong)
      (habsent : ∀ place e, w.files.find w.cwd file = .ok place → w.files.node? place = some e →
        ¬ isFileNode e) : Guarded w base target (.ok (.error .noFile))
  | null (hfile : w.files.resolve w.cwd target = .error nullCharacter) :
      Guarded w base target (.error nullCharacter)
  | loop {t : Path} (hloops : w.files.Loops w.cwd target ∨ w.files.Loops w.cwd base) :
      Guarded w base target (.error (symlinkLoop t))
  | overlong {file : Path} (hfile : w.files.resolve w.cwd target = .ok file)
      (hinside : w.files.LiesInside w.cwd base file)
      (hreach : w.files.reach w.cwd file true = .error .nameTooLong) :
      Guarded w base target (.error (Errno.nameTooLong.failure file))

section Guard

variable {w : World} {base target : Path}

theorem guarded_verdict (w : World) (base target : Path) :
    Guarded w base target (verdict w base target) := by
  rw [verdict]
  rcases hresolve : w.files.resolve w.cwd target with f | file
  · rcases resolve_eq_error hresolve with rfl | ⟨hloops, t, rfl⟩
    · exact .null hresolve
    · exact .loop (.inl hloops)
  dsimp only [bind, Except.bind]
  rcases hunder : w.files.relativeUnder w.cwd base file with f | _ | rel
  · obtain ⟨p, rfl | rfl, hloops, t, rfl⟩ := relativeUnder_eq_error hunder
    · refine .loop (.inl (Classical.byContradiction fun htarget => ?_))
      obtain ⟨place, rfl, hsettled⟩ := isSettled_of_resolve hresolve htarget
      exact hsettled.not_loops hloops
    · exact .loop (.inr hloops)
  · exact .outside hresolve hunder (relativeUnder_eq_none hunder)
  dsimp only
  rcases hisFile : w.files.isFile w.cwd file with f | _ | _
  · obtain ⟨hreach, rfl⟩ := test_eq_error hisFile
    exact .overlong hresolve (liesInside_of_relativeUnder hunder) hreach
  · obtain ⟨hreach, habsent⟩ := test_eq_false (not_hasNull_of_resolve hresolve) hisFile
    exact .absent hresolve (liesInside_of_relativeUnder hunder) hreach habsent
  · obtain ⟨place, hplace⟩ := exists_confines hunder hisFile
    exact .passed hresolve hplace

theorem Guarded.exists_load {file : Path} (h : Guarded w base target (.ok (.ok file))) :
    ∃ content changedAt, w.files.load w.cwd file = .ok (content, changedAt) := by
  cases h with
  | passed hfile hinside =>
      obtain ⟨content, changedAt, hnode⟩ := hinside.isFile
      exact ⟨content, changedAt,
        load_of_find (not_hasNull_of_resolve hfile) hinside.leads hnode⟩

/-- Without the null character, loops and overlong names the guard comes to an answer. -/
theorem exists_verdict (hfs : w.files.IsProper) (hclean : IsClean w.cwd target)
    (htarget : ¬ w.files.Loops w.cwd target) (hbase : ¬ w.files.Loops w.cwd base)
    (hlong : ∀ file, w.files.resolve w.cwd target = .ok file → ¬ IsOverlong file) :
    ∃ answer, verdict w base target = .ok answer := by
  obtain ⟨file, hresolve⟩ := hfs.exists_resolve hclean htarget
  have hguarded := guarded_verdict w base target
  generalize hout : verdict w base target = out at hguarded
  cases hguarded with
  | passed | outside | absent => exact ⟨_, rfl⟩
  | null hfile => cases hresolve.symm.trans hfile
  | loop hloops => exact absurd hloops (not_or.2 ⟨htarget, hbase⟩)
  | overlong hfile _ hreach =>
      obtain ⟨place, rfl, hsettled⟩ := isSettled_of_resolve hfile htarget
      obtain he | he | ⟨-, hover⟩ := hsettled.reach_error hreach
      · cases he
      · cases he
      · exact absurd hover (hlong _ hfile)

theorem verdict_of_not_isClean (hclean : ¬ IsClean w.cwd target)
    (htarget : ¬ w.files.Loops w.cwd target) : verdict w base target = .error nullCharacter := by
  rw [verdict, resolve_of_not_isClean hclean htarget]
  rfl

theorem verdict_of_overlong {file : Path} (hfile : w.files.resolve w.cwd target = .ok file)
    (hinside : w.files.LiesInside w.cwd base file)
    (hreach : w.files.reach w.cwd file true = .error .nameTooLong) :
    verdict w base target = .error (Errno.nameTooLong.failure file) := by
  obtain ⟨rel, hunder⟩ := hinside.relativeUnder_isSome
  rw [verdict, hfile]
  dsimp only [bind, Except.bind]
  rw [hunder]
  dsimp only
  rw [isFile, test_of_find_error (not_hasNull_of_resolve hfile) (find_eq_error.2 (.inl hreach))]
  rfl

end Guard

end Web

namespace Preview.Cache

/-- Why the preview of a file that is there cannot be delivered: its place cannot be asked for, the
picture is not one that a preview can be made of, or the preview cannot be kept. -/
inductive Fails (c : Cache) (p : Path) (height : Int) (r : Run World) : Failure → Prop
  | unsought {key : String} {f : Failure} :
      r.state.files.exists? r.state.cwd (c.file key) = .error f → Fails c p height r f
  | unmade {f : Failure} : made c.imaging r.state p height = .error f → ¬ f.isExpected →
      Fails c p height r f
  | unkept {key : String} {data : Bytes} {f : Failure} {r' : Run World} :
      made c.imaging r.state p height = .ok data →
      (c.keep (c.file key) data).exec r = (.error f, r') → Fails c p height r f

theorem fails_of_exec {c : Cache} {p : Path} {height changedAt : Int} {content : Content}
    {r r' : Run World} {f : Failure}
    (hload : r.state.files.load r.state.cwd p = .ok (content, changedAt))
    (h : (c.deliver p height).exec r = (.error f, r')) : c.Fails p height r f := by
  rw [deliver, Act.exec_bind_ok (fileFor_of_load hload), Act.exec_bind, World.exec_exists?] at h
  rcases hexists : r.state.files.exists? r.state.cwd (c.file (keyText p changedAt height)) with
    g | there
  · rw [hexists] at h
    cases h
    exact .unsought hexists
  rw [hexists] at h
  cases there with
  | true => cases h
  | false =>
      simp only [Bool.false_eq_true, if_false] at h
      obtain ⟨log, hmake⟩ := makeOrNote_of_load hload c height
      rw [← made_of_load c.imaging hload] at hmake
      rcases hmade : Preview.made c.imaging r.state p height with g | data
      · rw [hmade] at hmake
        dsimp only at hmake
        split at hmake
        · rw [Act.exec_bind_ok hmake] at h
          cases h
        · rw [Act.exec_bind_error hmake] at h
          cases h
          exact .unmade hmade ‹_›
      · rw [hmade] at hmake
        rw [Act.exec_bind_ok hmake] at h
        rcases hkeep : (c.keep (c.file (keyText p changedAt height)) data).exec r with ⟨g | u, r''⟩
        · rw [Act.exec_bind_error hkeep] at h
          cases h
          exact .unkept hmade hkeep
        · rw [Act.exec_bind_ok hkeep] at h
          cases h

end Preview.Cache

namespace Web.Server

open Handling Preview

variable {s : Server} {q : Request} {route : Route}

inductive Replies (s : Server) (q : Request) (r : Run World) (height : Option Int) :
    Except Failure (Except Refusal Path) → Reply → Run World → Prop
  | failed (f : Failure) : Replies s q r height (.error f) failed r
  | refused (x : Refusal) : Replies s q r height (.ok (.error x))
      { x.reply with allowOrigin := q.allowedOrigin } r
  | sent (file : Path) (hheight : height = none) : Replies s q r height (.ok (.ok file))
      { body := .delivery (.ofFile file), allowOrigin := q.allowedOrigin } r
  | preview {file : Path} {wanted : Int} {d : Delivery} {r' : Run World}
      (hheight : height = some wanted)
      (hdeliver : (s.previews.deliver file wanted).exec r = (.ok d, r')) :
      Replies s q r height (.ok (.ok file))
        { body := .delivery d, allowOrigin := q.allowedOrigin } r'
  | unpreviewed {file : Path} {wanted : Int} {f : Failure} {r' : Run World}
      (hheight : height = some wanted)
      (hdeliver : (s.previews.deliver file wanted).exec r = (.error f, r'))
      (hfails : s.previews.Fails file wanted r f) : Replies s q r height (.ok (.ok file)) failed r'

theorem exec_deliverFrom (base target : Path) (height : Option Int) (r : Run World) :
    (s.deliverFrom base target height).exec r =
      match verdict r.state base target, height with
      | .error f, _ => (.error f, r)
      | .ok (.error x), _ => (.ok (.error x), r)
      | .ok (.ok file), none => (.ok (.ok (.ofFile file)), r)
      | .ok (.ok file), some wanted => (work (s.previews.deliver file wanted)).exec r := by
  have hcheck := exec_checkedFile base target r
  cases height <;> rw [deliverFrom, exec_bind, hcheck] <;>
    rcases verdict r.state base target with f | x | file <;> rfl

/-- The guard's verdict decides the reply to a request for a file. -/
theorem replies_of_verdict (hroute : routeOf q = .ok route) (hfile : route.sendsFile)
    {base target : Path} {height : Option Int} (hasks : s.AsksFor q route base target height)
    (r : Run World) : ∃ reply r', (s.respond q).exec r = (.ok (reply, s), r') ∧
      s.Replies q r height (verdict r.state base target) reply r' := by
  rw [exec_respond, exec_serve hroute, handle_of_sendsFile hfile, hasks.deliver_eq, exec_bind,
    exec_deliverFrom]
  have hguarded := guarded_verdict r.state base target
  generalize verdict r.state base target = out at hguarded ⊢
  rcases out with f | x | file
  · exact ⟨_, _, rfl, .failed f⟩
  · exact ⟨_, _, rfl, .refused x⟩
  cases height with
  | none => exact ⟨_, _, rfl, .sent file rfl⟩
  | some wanted =>
      dsimp only
      rw [exec_work]
      rcases hdeliver : (s.previews.deliver file wanted).exec r with ⟨f | d, r'⟩
      · obtain ⟨content, changedAt, hload⟩ := hguarded.exists_load
        exact ⟨_, _, rfl, .unpreviewed rfl hdeliver (Cache.fails_of_exec hload hdeliver)⟩
      · exact ⟨_, _, rfl, .preview rfl hdeliver⟩

theorem exec_respond_flawed (hroute : routeOf q = .ok route) (hfile : route.sendsFile)
    {errors : List FieldError} (hflawed : s.deliver q route = refuse (flawedAt "query" errors))
    (r : Run World) : ∃ reply, (s.respond q).exec r = (.ok (reply, s), r) ∧ reply.status = 422 := by
  rw [exec_respond, exec_serve hroute, handle_of_sendsFile hfile, hflawed,
    exec_bind_refused (exec_refuse _ r)]
  exact ⟨_, rfl, rfl⟩

/-- For every directory and every path the guard finds the file, refuses it as outside or missing,
or fails at a null character, a loop of links or an overlong path. Where the path has none of these
it gives an answer, provided that the server may search every directory on the way: files have no
access rights here, and where they do a directory that may not be searched is one more failure. A
null character, and a path inside that is too long, are never answered. A request for a file fails
when the guard does, or when the preview of a file that passed cannot be made or kept. -/
theorem respond_guarded (hroute : routeOf q = .ok route) (hfile : route.sendsFile) (r : Run World) :
    (∀ base target, ∃ out, (checkedFile base target).exec r = (out, r) ∧
      Guarded r.state base target out ∧
      (r.state.files.IsProper → IsClean r.state.cwd target →
        ¬ r.state.files.Loops r.state.cwd target → ¬ r.state.files.Loops r.state.cwd base →
        (∀ file, r.state.files.resolve r.state.cwd target = .ok file → ¬ IsOverlong file) →
        ∃ answer, out = .ok answer) ∧
      (¬ IsClean r.state.cwd target → ¬ r.state.files.Loops r.state.cwd target →
        out = .error nullCharacter) ∧
      (∀ file, r.state.files.resolve r.state.cwd target = .ok file →
        r.state.files.LiesInside r.state.cwd base file →
        r.state.files.reach r.state.cwd file true = .error .nameTooLong →
        out = .error (Errno.nameTooLong.failure file))) ∧
    ∃ reply r', (s.respond q).exec r = (.ok (reply, s), r') ∧
      (r' = r ∧ reply.status = 422 ∨ ∃ base target height, s.AsksFor q route base target height ∧
        ∃ out, (checkedFile base target).exec r = (out, r) ∧
          s.Replies q r height out reply r') := by
  refine ⟨fun base target => ⟨_, exec_checkedFile base target r, guarded_verdict _ base target,
    exists_verdict, verdict_of_not_isClean, fun _ => verdict_of_overlong⟩, ?_⟩
  rcases exists_asksFor (s := s) (q := q) hfile with
    ⟨errors, hflawed⟩ | ⟨base, target, height, hasks⟩
  · obtain ⟨reply, hexec, hstatus⟩ := exec_respond_flawed hroute hfile hflawed r
    exact ⟨reply, r, hexec, .inl ⟨rfl, hstatus⟩⟩
  · obtain ⟨reply, r', hexec, hreplies⟩ := replies_of_verdict hroute hfile hasks r
    exact ⟨reply, r', hexec, .inr ⟨base, target, height, hasks, _, exec_checkedFile base target r,
      hreplies⟩⟩

def trapWorld : World where
  files := ⟨[(["b"], .directory), (["b", "a"], .file (.bytes [7]) 0),
    (["b", "loop"], .link "loop")]⟩
  cwd := ⟨.slash, []⟩
  home := "/"

theorem isProper_trapWorld : trapWorld.files.IsProper := by
  refine ⟨fun place e hplace he => ?_, fun place text he => ?_⟩
  · have hmem := mem_of_node? hplace he
    rcases List.mem_cons.1 hmem with hmem | hmem
    · cases hmem
      rfl
    · rcases List.mem_pair.1 hmem with hmem | hmem <;> cases hmem <;> rfl
  · have hmem := mem_of_node? (ne_root_of_link he) he
    rcases List.mem_cons.1 hmem with hmem | hmem
    · cases hmem
    rcases List.mem_pair.1 hmem with hmem | hmem
    · cases hmem
    · cases hmem
      decide

/-- A name that is missing beside the link is answered. -/
theorem respond_guarded_missing :
    ∃ reply r', (sampleServer.respond { target := ⟨"/blob/x", ""⟩ }).exec ⟨trapWorld, []⟩ =
      (.ok (reply, sampleServer), r') ∧ reply.status ≠ 500 := by
  have hroute : routeOf { target := ⟨"/blob/x", ""⟩ } = .ok (.blob "x") := by cbv
  obtain ⟨hguard, reply, r', hexec, hreply⟩ :=
    respond_guarded (s := sampleServer) hroute rfl ⟨trapWorld, []⟩
  refine ⟨reply, r', hexec, ?_⟩
  rcases hreply with ⟨-, h422⟩ | ⟨base, target, height, hasks, out, hout, hreplies⟩
  · rw [h422]
    decide
  cases hasks
  obtain ⟨out', hout', hguarded, hanswers, -⟩ := hguard _ (sampleServer.settings.blobDir / "x")
  cases hout.symm.trans hout'
  have hclean : IsClean trapWorld.cwd (sampleServer.settings.blobDir / "x") := by
    rw [IsClean]
    decide
  have hname : trapWorld.files.trace 3 [] [] ["b", "x"] = .done ["b", "x"] := rfl
  have hbase : trapWorld.files.trace 3 [] [] ["b"] = .done ["b"] := rfl
  have hshort : ¬ IsOverlong ⟨.slash, ["b", "x"]⟩ := by
    rw [IsOverlong]
    decide
  obtain ⟨answer, rfl⟩ := hanswers isProper_trapWorld hclean (not_loops_of_trace hname)
    (not_loops_of_trace hbase) fun file hfile => Except.ok.inj hfile ▸ hshort
  cases hreplies with
  | refused x => cases hguarded <;> decide
  | sent file _ => exact (by decide : 200 ≠ 500)
  | preview hheight | unpreviewed hheight => cases hheight

/-- A null character in the name and a link to itself make the server fail. -/
theorem respond_trapped :
    (sampleServer.respond { target := ⟨"/blob/%00", ""⟩ }).exec ⟨trapWorld, []⟩ =
        (.ok (failed, sampleServer), ⟨trapWorld, []⟩) ∧
      (sampleServer.respond { target := ⟨"/blob/loop", ""⟩ }).exec ⟨trapWorld, []⟩ =
        (.ok (failed, sampleServer), ⟨trapWorld, []⟩) := by
  have hnull : routeOf { target := ⟨"/blob/%00", ""⟩ } = .ok (.blob "\x00") := by cbv
  have hloop : routeOf { target := ⟨"/blob/loop", ""⟩ } = .ok (.blob "loop") := by cbv
  constructor
  · rw [exec_respond, exec_serve hnull]
    rfl
  · rw [exec_respond, exec_serve hloop]
    rfl

end Web.Server

end MediaCatalog
