import MediaCatalog.Proofs.Completion.Files
import MediaCatalog.Proofs.FileSystem.Inside

namespace MediaCatalog

open Act World FileSystem

namespace Completer

variable {σ : Type} {c : Completer σ} {s : σ} {i : Item}

/-- A size that is known already, else the authority's, else the length of the resource. Only
positive ones count. -/
def sizeFrom (i : Item) (known : Except Failure (Option Int)) (length : Except Failure Int) :
    Except Failure Int :=
  if 0 < i.size then .ok i.size
  else known >>= fun n => match n.filter (0 < ·) with
    | some n => .ok n
    | none => length.map fun n => if 0 < n then n else i.size

def sidesFrom (i : Item) (sides : Except Failure (Int × Int)) : Except Failure (Int × Int) :=
  if 0 < i.width && 0 < i.height then .ok (i.width, i.height) else sides

def filled (i : Item) (known : Except Failure (Option Int)) (length : Except Failure Int)
    (sides : Except Failure (Int × Int)) : Except Failure Item := do
  let size ← sizeFrom i known length
  let d ← sidesFrom i sides
  return { i with width := d.1, height := d.2, size }

theorem start_firstKnownSize {ask : String → Act σ (Option Int)}
    {rest : List (String → Act σ (Option Int))} {l : String}
    (h : ∀ ask' ∈ ask :: rest, Inspects (ask' l)) :
    ((firstKnownSize (ask :: rest) l).start s).1 = ((ask l).start s).1 >>= fun n =>
      match n.filter (0 < ·) with
      | some n => .ok (some n)
      | none => ((firstKnownSize rest l).start s).1 := by
  have hrest : Inspects (firstKnownSize rest l) :=
    inspects_firstKnownSize fun ask' hmem => h ask' (List.mem_cons_of_mem ask hmem)
  rw [firstKnownSize, start_bind (h ask List.mem_cons_self)]
  · refine congrArg _ (funext fun n => ?_)
    cases n with
    | none => rfl
    | some n =>
        by_cases hn : 0 < n
        · simp only [Option.filter_some, hn, decide_true]
          rfl
        · simp only [Option.filter_some, hn, decide_false]
          rfl
  · intro n
    cases n with
    | none => exact hrest
    | some n =>
        dsimp only
        split
        · exact inspects_pure (some n)
        · exact hrest

theorem IsReader.start_resolveSize_of_local (h : c.IsReader)
    (hlocal : c.authority.isLocal i.location = pure true) :
    ((c.resolveSize i).start s).1 = sizeFrom i ((c.authority.sizeOf i.location).start s).1
      ((c.probe.resourceSize i.location).start s).1 := by
  rw [Completer.resolveSize, sizeFrom]
  split
  · rfl
  have hmeasured : Inspects (do return some (← c.probe.resourceSize i.location)) :=
    (h.resourceSize i.location).bind fun size => inspects_pure (some size)
  have hsources : ∀ ask ∈ [c.authority.sizeOf, fun l => do return some (← c.probe.resourceSize l)],
      Inspects (ask i.location) := by
    intro ask hmem
    rcases List.mem_pair.1 hmem with rfl | rfl
    · exact h.sizeOf i.location
    · exact hmeasured
  rw [sizeSources, bind_assoc, hlocal, pure_bind, if_pos rfl, pure_bind,
    start_bind (inspects_firstKnownSize hsources) fun _ => inspects_pure _,
    start_firstKnownSize hsources, bind_assoc]
  refine congrArg _ (funext fun n => ?_)
  cases n.filter (0 < ·) with
  | some n => rfl
  | none =>
      dsimp only
      rw [start_firstKnownSize (by simpa using hmeasured),
        start_bind (h.resourceSize i.location) fun _ => inspects_pure _]
      cases ((c.probe.resourceSize i.location).start s).1 with
      | error f => rfl
      | ok n =>
          change (match (some n).filter (0 < ·) with
            | some n => (.ok (some n) : Except Failure (Option Int))
            | none => .ok none) >>= (fun out => .ok (out.getD i.size)) =
              .ok (if 0 < n then n else i.size)
          rw [Option.filter_some]
          by_cases hn : 0 < n
          · rw [if_pos (decide_eq_true hn), if_pos hn]
            rfl
          · rw [if_neg (by simpa using hn), if_neg hn]
            rfl

theorem IsReader.start_resolve_of_local (h : c.IsReader)
    (hlocal : c.authority.isLocal i.location = pure true) :
    ((c.resolve i).start s).1 = filled i ((c.authority.sizeOf i.location).start s).1
      ((c.probe.resourceSize i.location).start s).1
      ((c.probe.dimensionsOf i.mimeType i.location).start s).1 := by
  have hdimensions : ((c.resolveDimensions i).start s).1 =
      sidesFrom i ((c.probe.dimensionsOf i.mimeType i.location).start s).1 := by
    rw [Completer.resolveDimensions, sidesFrom]
    split <;> rfl
  rw [Completer.resolve, start_bind (h.resolveSize i) fun _ =>
    (h.resolveDimensions i).bind fun _ => inspects_pure _, h.start_resolveSize_of_local hlocal,
    filled]
  refine congrArg _ (funext fun size => ?_)
  rw [start_bind (h.resolveDimensions i) fun _ => inspects_pure _, hdimensions]
  rfl

end Completer

variable {w : World} {fs' : FileSystem} {p t : Path} {name : String}

def World.withFiles (w : World) (fs : FileSystem) : World := { w with files := fs }

namespace Blob.Directory

variable {d : Directory} {r : Run World}

theorem exec_pathFor_of_inside (hname : name ≠ "")
    (hp : r.state.files.LiesInside r.state.cwd d.path (d.path / name))
    (ht : r.state.files.resolve r.state.cwd (d.path / name) = .ok t) :
    (d.pathFor name).exec r = (.ok (some t), r) := by
  obtain ⟨rel, hrel⟩ := hp.relativeUnder_isSome
  have hguard : (World.relativeUnder d.path (d.path / name)).exec r = (.ok (some rel), r) := by
    rw [exec_relativeUnder, hrel]
  have hresolve : (World.resolve (d.path / name)).exec r = (.ok t, r) := by
    rw [exec_resolve, ht]
  rw [pathFor, if_neg hname, exec_bind_ok hguard, exec_bind_ok hresolve]
  rfl

def sizeAt (fs : FileSystem) (cwd t : Path) : Except Failure (Option Int) :=
  fs.isFile cwd t >>= fun isFile =>
    if isFile then fs.stat cwd t >>= fun e => match e with
      | .file content _ => .ok (some content.size)
      | _ => .ok none
    else .ok none

theorem exec_sizeOf_of_inside {l : String} (hname : Locator.blobName l ≠ "")
    (hp : r.state.files.LiesInside r.state.cwd d.path (d.path / Locator.blobName l))
    (ht : r.state.files.resolve r.state.cwd (d.path / Locator.blobName l) = .ok t) :
    ((d.sizeOf l).exec r).1 = sizeAt r.state.files r.state.cwd t := by
  rw [sizeOf, exec_bind_ok (exec_pathFor_of_inside hname hp ht), sizeAt]
  dsimp only
  rw [exec_bind, exec_isFile]
  cases r.state.files.isFile r.state.cwd t with
  | error f => rfl
  | ok isFile =>
      cases isFile with
      | false => rfl
      | true =>
          change ((World.stat t >>= _).exec r).1 = r.state.files.stat r.state.cwd t >>= _
          rw [exec_bind, exec_stat]
          rcases r.state.files.stat r.state.cwd t with f | (_ | _ | _) <;> rfl

theorem start_sizeOf_congr {l : String} (hagree : AgreesInside w.cwd d.path w.files fs')
    (hp : w.files.StaysInside w.cwd d.path (d.path / Locator.blobName l)) :
    ((d.sizeOf l).start (w.withFiles fs')).1 = ((d.sizeOf l).start w).1 := by
  change ((d.sizeOf l).exec ⟨w.withFiles fs', []⟩).1 = ((d.sizeOf l).exec ⟨w, []⟩).1
  by_cases hname : Locator.blobName l = ""
  · -- The empty name stands for the directory itself and is refused without a look at the files.
    have hpath (s : World) :
        (d.pathFor (Locator.blobName l)).exec ⟨s, []⟩ = (.ok none, ⟨s, []⟩) := by
      rw [pathFor, if_pos hname]
      rfl
    rw [sizeOf, exec_bind_ok (hpath _), exec_bind_ok (hpath _)]
    rfl
  obtain ⟨hin, hagain⟩ := hp
  obtain ⟨t, ht⟩ : ∃ t, w.files.resolve w.cwd (d.path / Locator.blobName l) = .ok t := by
    obtain ⟨b, t, -, ht, -⟩ := hin
    exact ⟨t, ht⟩
  have ht' : fs'.resolve w.cwd (d.path / Locator.blobName l) = .ok t := (hagree _ hin).1.trans ht
  -- The authority looks at the canonical form, which must not lead out again.
  have hlookup : fs'.lookup w.cwd t = w.files.lookup w.cwd t := (hagree t (hagain t ht)).2
  rw [exec_sizeOf_of_inside (r := ⟨w, []⟩) hname hin ht,
    exec_sizeOf_of_inside (r := ⟨w.withFiles fs', []⟩) hname (hagree.liesInside hin) ht']
  change sizeAt fs' w.cwd t = sizeAt w.files w.cwd t
  rw [sizeAt, sizeAt, FileSystem.isFile, FileSystem.isFile, test_congr hlookup, stat_congr hlookup]

theorem exec_sizeOf_of_refused (d : Directory) {l : String}
    (hrefused : ((d.pathFor (Locator.blobName l)).exec r).1 = .ok none) :
    ((d.sizeOf l).exec r).1 = .ok none := by
  rw [sizeOf, exec_bind_ok (Prod.ext hrefused rfl)]
  rfl

end Blob.Directory

namespace Metadata

def sidesAt (w : World) (mime : String) (p : Path) : Except Failure (Int × Int) :=
  ((if "video/".toList.isPrefixOf mime.toList then videoSize p else imageSize p).start w).1

theorem start_askReader_withFiles (w : World) (fs' : FileSystem) (p : Path) :
    ((askReader p).start (w.withFiles fs')).1 = ((askReader p).start w).1 := by
  change ((askReader p).exec ⟨w.withFiles fs', []⟩).1 = ((askReader p).exec ⟨w, []⟩).1
  rw [askReader, exec_bind_ok (exec_getState _), exec_bind_ok (exec_getState _)]
  dsimp only [World.withFiles]
  cases w.tagReader with
  | none => rfl
  | some replies =>
      dsimp only
      split
      · rfl
      · exact start_bind_congr (inspects_ofExcept _) (fun tags => inspects_pure (some tags))
          (by rw [start_ofExcept, start_ofExcept]) fun _ => rfl

theorem start_videoSize_withFiles (w : World) (fs' : FileSystem) (p : Path) :
    ((videoSize p).start (w.withFiles fs')).1 = ((videoSize p).start w).1 := by
  refine start_bind_congr (inspects_askReader p) (fun tags => ?_)
    (start_askReader_withFiles w fs' p) fun tags => ?_
  · cases tags with
    | none => exact inspects_pure (0, 0)
    | some tags => exact inspects_ofExcept (frameSize tags)
  · cases tags with
    | none => rfl
    | some tags => rw [start_ofExcept, start_ofExcept]

theorem start_imageSize_congr (h : fs'.lookup w.cwd p = w.files.lookup w.cwd p) :
    ((imageSize p).start (w.withFiles fs')).1 = ((imageSize p).start w).1 := by
  have hload : ((load p).start (w.withFiles fs')).1 = ((load p).start w).1 := by
    change ((load p).exec _).1 = ((load p).exec _).1
    rw [exec_load, exec_load]
    exact congrArg (Except.map fun out => out.1.toBytes) (load_congr h)
  have hopen : ((Picture.openPath p).start (w.withFiles fs')).1 =
      ((Picture.openPath p).start w).1 := by
    refine start_bind_congr (inspects_load p) (fun _ => inspects_ofExcept _) hload fun bytes => ?_
    rw [start_ofExcept, start_ofExcept]
  refine start_bind_congr (inspects_openPath p) (fun picture => ?_) hopen fun picture => ?_
  · exact (inspects_ofExcept picture.displaySize).bind fun _ => inspects_pure _
  · exact start_bind_congr (inspects_ofExcept picture.displaySize) (fun _ => inspects_pure _)
      (by rw [start_ofExcept, start_ofExcept]) fun _ => rfl

theorem sidesAt_congr (mime : String) (h : fs'.lookup w.cwd p = w.files.lookup w.cwd p) :
    sidesAt (w.withFiles fs') mime p = sidesAt w mime p := by
  rw [sidesAt, sidesAt]
  split
  · exact start_videoSize_withFiles w fs' p
  · exact start_imageSize_congr h

end Metadata

namespace Settings

variable {s : Settings} {access : Doing Bool} {i : Item} {l : String}

theorem toPath_blob (s : Settings) (hblob : Locator.isBlob l) :
    Locator.toPath (some s.blobDir) l = .ok (s.blobDir / Locator.blobName l) := if_pos hblob

theorem start_resourceSize (h : Locator.toPath (some s.blobDir) l = .ok p) :
    (((s.completer access).probe.resourceSize l).start w).1 =
      (w.files.load w.cwd p).map fun out => (out.1.size : Int) := by
  change (Act.exec (Act.ofExcept (Locator.toPath (some s.blobDir) l) >>= _) ⟨w, []⟩).1 = _
  rw [h, exec_bind_ok (exec_ofExcept _ _), exec_bind, exec_load]
  cases w.files.load w.cwd p <;> rfl

theorem start_dimensionsOf (mime : String) (h : Locator.toPath (some s.blobDir) l = .ok p) :
    (((s.completer access).probe.dimensionsOf mime l).start w).1 = Metadata.sidesAt w mime p := by
  change (Act.exec (Act.ofExcept (Locator.toPath (some s.blobDir) l) >>= _) ⟨w, []⟩).1 = _
  rw [h, exec_bind_ok (exec_ofExcept _ _), Metadata.sidesAt]
  rfl

/-- What a path tells of an item, with the size that the authority knows. -/
def measured (w : World) (known : Except Failure (Option Int)) (p : Path) (i : Item) :
    Except Failure Item :=
  Completer.filled i known ((w.files.load w.cwd p).map fun out => (out.1.size : Int))
    (Metadata.sidesAt w i.mimeType p)

theorem measured_congr (known : Except Failure (Option Int)) (i : Item)
    (h : fs'.lookup w.cwd p = w.files.lookup w.cwd p) :
    measured (w.withFiles fs') known p i = measured w known p i := by
  have hload : (w.withFiles fs').files.load (w.withFiles fs').cwd p = w.files.load w.cwd p :=
    load_congr h
  rw [measured, measured, Metadata.sidesAt_congr i.mimeType h, hload]

theorem start_completeOne_blob (hblob : Locator.isBlob i.location) :
    (((s.completer access).completeOne i).start w).1 = if i.isPopulated then .ok ⟨i, false⟩ else
      match measured w ((s.blobs.sizeOf i.location).start w).1
          (s.blobDir / Locator.blobName i.location) i with
      | .ok j => .ok ⟨j, true⟩
      | .error f => if f.isSystem then .ok ⟨i, false⟩ else .error f := by
  have hpath := s.toPath_blob hblob
  -- Completing one item does not ask for access.
  have hreader := s.isReader_completer (inspects_pure true)
  have hlocal : (s.completer (pure true)).authority.isLocal i.location = pure true :=
    congrArg pure hblob
  change (((s.completer (pure true)).completeOne i).start w).1 = _
  rw [hreader.start_completeOne, Completer.single, hreader.start_resolve_of_local hlocal,
    start_resourceSize hpath, start_dimensionsOf i.mimeType hpath]
  rfl

/-- A local blob whose name stays in the directory is completed from what the directory holds: two
file systems that agree inside give the same. In general the size is what the authority tells, and
next the length of the file that the name leads to, wherever that is; so a name that the guard
refuses leaves the item to the probe. -/
theorem completeOne_blob (s : Settings) (access : Doing Bool) (r : Run World) (i : Item)
    (hblob : Locator.isBlob i.location) :
    (r.state.files.StaysInside r.state.cwd s.blobDir (s.blobDir / Locator.blobName i.location) →
      ∀ fs', AgreesInside r.state.cwd s.blobDir r.state.files fs' → ∀ log,
        (((s.completer access).completeOne i).exec ⟨r.state.withFiles fs', log⟩).1 =
          (((s.completer access).completeOne i).exec r).1) ∧
    (((s.completer access).completeOne i).exec r).1 =
      (if i.isPopulated then .ok ⟨i, false⟩ else
        match measured r.state ((s.blobs.sizeOf i.location).exec r).1
            (s.blobDir / Locator.blobName i.location) i with
        | .ok j => .ok ⟨j, true⟩
        | .error f => if f.isSystem then .ok ⟨i, false⟩ else .error f) ∧
    (((s.blobs.pathFor (Locator.blobName i.location)).exec r).1 = .ok none →
      ((s.blobs.sizeOf i.location).exec r).1 = .ok none) := by
  have hstart (r : Run World) : (((s.completer access).completeOne i).exec r).1 =
      (((s.completer access).completeOne i).start r.state).1 :=
    ((s.isReader_completer (inspects_pure true)).completeOne i r).1
  refine ⟨fun hstays fs' hagree log => ?_, ?_, s.blobs.exec_sizeOf_of_refused⟩
  · rw [hstart, hstart, start_completeOne_blob hblob, start_completeOne_blob hblob,
      measured_congr _ i (hagree _ hstays.1).2, s.blobs.start_sizeOf_congr hagree hstays]
  · rw [hstart, start_completeOne_blob hblob, (s.blobs.inspects_sizeOf i.location r).1]

section Walled

def walled (outside : List UInt8) : World where
  files := ⟨[(["b"], .directory), (["b", "a"], .file (.bytes [7]) 0), (["b", "out"], .link "../x"),
    (["b", "loop"], .link "loop"), (["x"], .file (.bytes outside) 0)]⟩
  cwd := ⟨.slash, []⟩
  home := "/"

def blobItem (name : String) : Item := ⟨"blob:" ++ name, "image/png", 1, 4, 3, 0, none, none⟩

theorem agreesInside_walled (x y : List UInt8) : AgreesInside (walled x).cwd sample.blobDir
    (walled x).files (walled y).files := by
  have hshape : SameShape (walled x).files
      ((walled x).files.put ["x"] (.file (.bytes y) 0)) :=
    sameShape_put (e := .file (.bytes x) 0) rfl rfl rfl
  refine hshape.agreesInside fun b place hb hbelow => node?_put_of_ne ?_ _
  rintro rfl
  obtain rfl : b = ⟨.slash, ["b"]⟩ := Except.ok.inj (hb.symm.trans rfl)
  exact absurd hbelow (by decide)

theorem completeOne_blob_sample :
    Locator.isBlob (blobItem "a").location ∧ Locator.isBlob (blobItem "../x").location ∧
    (walled [1]).files.StaysInside (walled [1]).cwd sample.blobDir
      (sample.blobDir / Locator.blobName (blobItem "a").location) ∧
    AgreesInside (walled [1]).cwd sample.blobDir (walled [1]).files (walled [1, 2]).files ∧
    (((sample.completer (pure true)).completeOne (blobItem "a")).exec ⟨walled [1, 2], []⟩).1 =
      .ok ⟨{ blobItem "a" with size := 1 }, true⟩ ∧
    ((sample.blobs.pathFor (Locator.blobName (blobItem "../x").location)).exec
      ⟨walled [1, 2], []⟩).1 = .ok none ∧
    (((sample.completer (pure true)).completeOne (blobItem "../x")).exec ⟨walled [1, 2], []⟩).1 =
      .ok ⟨{ blobItem "../x" with size := 2 }, true⟩ := by
  have hstays : (walled [1]).files.StaysInside (walled [1]).cwd sample.blobDir
      (sample.blobDir / Locator.blobName (blobItem "a").location) := by
    have hfind : (walled [1]).files.find (walled [1]).cwd (sample.blobDir / "a") =
        .ok ["b", "a"] := rfl
    refine LiesInside.staysInside ?_ hfind
    exact ⟨⟨.slash, ["b"]⟩, ⟨.slash, ["b", "a"]⟩, rfl, rfl, rfl, by decide⟩
  have hagree := agreesInside_walled [1] [1, 2]
  have hheld := (completeOne_blob sample (pure true) ⟨walled [1], []⟩ (blobItem "a") rfl).1 hstays
    (walled [1, 2]).files hagree []
  obtain ⟨-, hastray, hrefused⟩ :=
    completeOne_blob sample (pure true) ⟨walled [1, 2], []⟩ (blobItem "../x") rfl
  rw [hrefused rfl] at hastray
  exact ⟨rfl, rfl, hstays, hagree, hheld.trans rfl, rfl, hastray.trans rfl⟩

/-- A refused name, and one that runs through a loop into a link, give away the length of a file
outside. -/
theorem completeOne_blob_astray :
    AgreesInside (walled [1]).cwd sample.blobDir (walled [1]).files (walled [1, 2]).files ∧
    AgreesInside (walled [1]).cwd sample.blobDir (walled [1, 2]).files (walled [1]).files ∧
    ((sample.blobs.pathFor "../x").exec ⟨walled [1], []⟩).1 = .ok none ∧
    ((sample.blobs.pathFor "out").exec ⟨walled [1], []⟩).1 = .ok none ∧
    ((sample.blobs.pathFor "loop/../out").exec ⟨walled [1], []⟩).1 =
      .ok (some ⟨.slash, ["b", "out"]⟩) ∧
    ∀ name ∈ ["../x", "out", "loop/../out"],
      Locator.isBlob (blobItem name).location ∧
      (((sample.completer (pure true)).completeOne (blobItem name)).exec ⟨walled [1], []⟩).1 =
        .ok ⟨{ blobItem name with size := 1 }, true⟩ ∧
      (((sample.completer (pure true)).completeOne (blobItem name)).exec ⟨walled [1, 2], []⟩).1 =
        .ok ⟨{ blobItem name with size := 2 }, true⟩ := by
  refine ⟨agreesInside_walled [1] [1, 2], agreesInside_walled [1, 2] [1], rfl, rfl, rfl, ?_⟩
  intro name hname
  simp only [List.mem_cons, List.not_mem_nil, or_false] at hname
  rcases hname with rfl | rfl | rfl <;> exact ⟨rfl, rfl, rfl⟩

end Walled

end Settings

end MediaCatalog
