import MediaCatalog.Proofs.FileSystem.Alike
import MediaCatalog.Proofs.Preview.History

namespace MediaCatalog

open World

/-- The bytes that are sent. A file is read when it is sent. -/
def Delivery.body : Delivery → Doing Bytes
  | .made data _ => pure data
  | .file p _ => load p

namespace Preview

def rendered (m : Imaging) (content : Content) (height : Int) : Except Failure Bytes := do
  let picture ← m.decode content.toBytes
  let raster ← picture.uprightRaster
  let width ← widthFor raster.width raster.height height
  m.encode (← m.resize raster width height) 82

/-- Bytes and type of the answer that a content calls for. -/
def answerOf (m : Imaging) (content : Content) (p : Path) (height : Int) :
    Except Failure (Bytes × String) :=
  match rendered m content height with
  | .ok data => .ok (data, Jpeg.mime)
  | .error f =>
    if f.isExpected then .ok (content.toBytes, (Delivery.ofFile p).type) else .error f

/-- Every time of change at a path belongs to one content. -/
def Dated (version : List Char → Int → Content) (w : World) (p : Path) : Prop :=
  ∀ content t, w.files.load w.cwd p = .ok (content, t) → content = version p.chars t

section Load

variable {m : Imaging} {w : World} {p : Path} {content : Content} {t height : Int} {data : Bytes}

theorem made_of_load (m : Imaging) (h : w.files.load w.cwd p = .ok (content, t)) :
    made m w p height = rendered m content height := by
  rw [made, h]
  change ofBytes m content.toBytes height quality = rendered m content height
  rw [ofBytes, rendered]
  rfl

theorem exists_load_of_made (h : made m w p height = .ok data) :
    ∃ content t, w.files.load w.cwd p = .ok (content, t) := by
  rw [made] at h
  rcases hload : w.files.load w.cwd p with f | ⟨content, t⟩
  · rw [hload] at h
    cases h
  · exact ⟨content, t, rfl⟩

end Load

theorem changeOf_of_load {w : World} {p : Path} {content : Content} {t : Int}
    (h : w.files.load w.cwd p = .ok (content, t)) : changeOf w p = t := by
  rw [changeOf, FileSystem.stat_of_load h]
  rfl

namespace Cache

def answer (c : Cache) (p : Path) (height : Int) : Doing (Bytes × String) := do
  let d ← c.deliver p height
  return (← d.body, d.type)

variable {c : Cache} {p : Path} {height t : Int} {content : Content} {r : Run World}
  {makings : List Making} {version : List Char → Int → Content}

theorem exec_keep_fst (c : Cache) (file : Path) (data : Bytes) (r : Run World) :
    ((c.keep file data).exec r).1 = match r.state.files.ensureDir r.state.cwd c.dir with
      | (files, none) =>
        (files.store r.state.cwd file (.bytes data) (r.state.clock + 1)).map fun _ => ()
      | (_, some f) => .error f := by
  rw [keep, Act.exec_bind, exec_ensureDir]
  rcases r.state.files.ensureDir r.state.cwd c.dir with ⟨files, f | f⟩
  · dsimp only
    rw [exec_store, changed]
    dsimp only
    cases files.store r.state.cwd file (.bytes data) (r.state.clock + 1) <;> rfl
  · rfl

section Answer

variable (hload : r.state.files.load r.state.cwd p = .ok (content, t))
include hload

theorem fileFor_of_load :
    (c.fileFor p height).exec r = (.ok (c.file (keyText p t height)), r) := by
  rw [fileFor, Act.exec_bind, exec_stat, FileSystem.stat_of_load hload]
  rfl

theorem makeOrNote_of_load (c : Cache) (height : Int) : ∃ log, (c.makeOrNote p height).exec r =
    match rendered c.imaging content height with
    | .ok data => (.ok (some data), r)
    | .error f => if f.isExpected then (.ok none, ⟨r.state, log⟩) else (.error f, r) := by
  rw [makeOrNote, Act.exec_recover, Act.exec_bind, exec_make, made_of_load c.imaging hload]
  cases rendered c.imaging content height with
  | ok data => exact ⟨[], rfl⟩
  | error f => exact ⟨_, rfl⟩

theorem exec_answer :
    ((c.answer p height).exec r).1 =
      match r.state.files.exists? r.state.cwd (c.file (keyText p t height)) with
      | .error f => .error f
      | .ok true => (r.state.files.load r.state.cwd (c.file (keyText p t height))).map
          fun x => (x.1.toBytes, Jpeg.mime)
      | .ok false => match rendered c.imaging content height with
        | .ok data => ((c.keep (c.file (keyText p t height)) data).exec r).1.map
            fun _ => (data, Jpeg.mime)
        | .error f =>
          if f.isExpected then .ok (content.toBytes, (Delivery.ofFile p).type) else .error f := by
  rw [answer, deliver, Act.exec_bind, Act.exec_bind_ok (fileFor_of_load hload), Act.exec_bind,
    exec_exists?]
  generalize c.file (keyText p t height) = file
  rcases r.state.files.exists? r.state.cwd file with f | _ | _
  · rfl
  · obtain ⟨log, hmake⟩ := makeOrNote_of_load hload c height
    simp only [Bool.false_eq_true, if_false, Act.exec_bind, hmake]
    rcases rendered c.imaging content height with f | data
    · have hbody : (Delivery.ofFile p).body.exec ⟨r.state, log⟩ =
          (.ok content.toBytes, ⟨r.state, log⟩) := by
        rw [Delivery.ofFile, Delivery.body, exec_load, hload]
        rfl
      cases hexpected : f.isExpected with
      | true => simp only [hexpected, if_true, Act.exec_pure, hbody]
      | false => simp only [hexpected, Bool.false_eq_true, if_false]
    · dsimp only
      rw [Act.exec_bind]
      rcases (c.keep file data).exec r with ⟨f | u, r'⟩ <;> rfl
  · simp only [if_true, Act.exec_pure, Act.exec_bind, Delivery.body, exec_load]
    cases r.state.files.load r.state.cwd file <;> rfl

end Answer

/-- No preview that was made before has a key with the digest of another one. -/
def KeysApart (c : Cache) (makings : List Making) (key : String) : Prop :=
  ∀ m ∈ makings, c.name m.key = c.name key → m.key = key

section Kept

variable {key : String} {data : Bytes}

theorem not_hasNull_of_exists {file : Path}
    (h : r.state.files.exists? r.state.cwd file = .ok true) : ¬ file.hasNull := by
  intro hnull
  rw [FileSystem.exists?, FileSystem.test, if_pos hnull] at h
  cases h

/-- What is kept under the key of a file was made of the same content. -/
theorem rendered_of_kept (hc : c.IsSound) (hlife : c.History (Dated version) r.state makings)
    (hp : Dated version r.state p) (hload : r.state.files.load r.state.cwd p = .ok (content, t))
    (hkeys : c.KeysApart makings (keyText p t height))
    (hexists : r.state.files.exists? r.state.cwd (c.file (keyText p t height)) = .ok true) :
    ∃ data changedAt, rendered c.imaging content height = .ok data ∧
      r.state.files.load r.state.cwd (c.file (keyText p t height)) =
        .ok (.bytes data, changedAt) := by
  obtain ⟨m, hm, hname, place, changedAt, hfind, hnode⟩ :=
    (hlife.holds hc).exists_making hc hexists
  obtain ⟨hpath, hchange, hheight⟩ := keyChars_inj (String.ofList_injective (hkeys m hm hname))
  -- The path and the time are those of now, so the content was the one of now as well.
  obtain ⟨hdated, hmade⟩ := hlife.genuine m hm
  obtain ⟨content', t', hload'⟩ := exists_load_of_made hmade
  have hsame : content' = content := by
    rw [changeOf_of_load hload'] at hchange
    rw [hdated _ _ hload', hp _ _ hload, hpath, hchange]
  rw [made_of_load c.imaging hload', hsame, hheight] at hmade
  exact ⟨m.data, changedAt, hmade,
    FileSystem.load_of_find (not_hasNull_of_exists hexists) hfind hnode⟩

/-- Whether a preview can be kept depends neither on its bytes nor on the previews that are kept. -/
theorem keep_fst_eq (r' : Run World) (hc : c.IsSound)
    (halike : FileSystem.Alike c.dir.parts r.state.files r'.state.files)
    (hcwd : r'.state.cwd = r.state.cwd) (key : String) (data data' : Bytes) :
    ((c.keep (c.file key) data').exec r').1 = ((c.keep (c.file key) data).exec r).1 := by
  obtain ⟨hsame, hmade⟩ := halike.ensureDir r.state.cwd hc.dir rfl
  rw [exec_keep_fst, exec_keep_fst, hcwd]
  rcases hensure : r.state.files.ensureDir r.state.cwd c.dir with ⟨files, f⟩
  rcases hensure' : r'.state.files.ensureDir r.state.cwd c.dir with ⟨files', f'⟩
  rw [hensure, hensure'] at hsame hmade
  obtain rfl : f' = f := hsame
  cases f' with
  | some f => rfl
  | none =>
      have hparts : (c.file key).parts = c.dir.parts ++ [c.fileName key] := by rw [hc.file_eq]
      exact hmade.store_map_unit r.state.cwd (hc.isCanonical_file key) hparts

theorem Holds.isFileNode (h : c.Holds r.state.files makings) (name : String) (e : Node)
    (he : r.state.files.node? (c.dir.parts ++ [name]) = some e) : FileSystem.isFileNode e := by
  obtain ⟨m, -, -, changedAt, rfl⟩ := h.child name e he
  rfl

theorem keep_of_kept (hc : c.IsSound) (h : c.Holds r.state.files makings)
    (hexists : r.state.files.exists? r.state.cwd (c.file key) = .ok true) :
    ((c.keep (c.file key) data).exec r).1 = .ok () := by
  have hnull := not_hasNull_of_exists hexists
  obtain ⟨place, e, hfind, he, -⟩ := FileSystem.test_eq_true hexists
  have hplace := hc.place_of_find (h.isUnlinked_child _) hfind
  have hreach := FileSystem.find_eq_ok.1 hfind
  have hhouses : r.state.files.Houses r.state.cwd c.dir c.dir.parts := by
    rw [hplace, hc.file_eq] at hfind
    exact FileSystem.houses_of_find hc.dir hfind
  have hdir : ¬ c.dir.hasNull := by
    intro hdir
    obtain ⟨part, hpart, hbad⟩ := List.any_eq_true.1 hdir
    refine hnull (List.any_eq_true.2 ⟨part, ?_, hbad⟩)
    rw [hc.file_eq]
    exact List.mem_append_left _ hpart
  rw [exec_keep_fst, hhouses.ensureDir hdir]
  dsimp only
  rw [FileSystem.store_map_unit, FileSystem.failing_clean hnull, hreach]
  · rfl
  · intro out e hout he
    obtain rfl := Except.ok.inj (hreach.symm.trans hout)
    rw [FileSystem.Reach.place, hplace] at he
    exact h.isFileNode _ e he

end Kept

section Coherent

def emptied (c : Cache) (r : Run World) : Run World :=
  ⟨{ r.state with files := r.state.files.emptied c.dir.parts }, r.log⟩

section Bare

variable (hc : c.IsSound) (h : c.Holds r.state.files makings) {key : String}
include hc h

theorem exists?_emptied_map_unit (key : String) :
    ((c.emptied r).state.files.exists? (c.emptied r).state.cwd (c.file key)).map (fun _ => ()) =
      (r.state.files.exists? r.state.cwd (c.file key)).map fun _ => () := by
  have hparts : (c.file key).parts = c.dir.parts ++ [c.fileName key] := by rw [hc.file_eq]
  exact (FileSystem.alike_emptied h.isUnlinked h.isFileNode).exists?_map_unit r.state.cwd
    (hc.isCanonical_file key) hparts

theorem exists?_emptied_error {f : Failure}
    (hexists : r.state.files.exists? r.state.cwd (c.file key) = .error f) :
    (c.emptied r).state.files.exists? (c.emptied r).state.cwd (c.file key) = .error f := by
  have hunit := exists?_emptied_map_unit hc h key
  rw [hexists] at hunit
  rcases hempty : (c.emptied r).state.files.exists? (c.emptied r).state.cwd (c.file key) with
    f' | there
  · rw [hempty] at hunit
    cases hunit
    rfl
  · rw [hempty] at hunit
    cases hunit

theorem exists?_emptied_ok {there : Bool}
    (hexists : r.state.files.exists? r.state.cwd (c.file key) = .ok there) :
    (c.emptied r).state.files.exists? (c.emptied r).state.cwd (c.file key) = .ok false := by
  have hunit := exists?_emptied_map_unit hc h key
  rw [hexists] at hunit
  rcases hempty : (c.emptied r).state.files.exists? (c.emptied r).state.cwd (c.file key) with
    f | _ | _
  · rw [hempty] at hunit
    cases hunit
  · rfl
  · obtain ⟨place, e, hfind, he, -⟩ := FileSystem.test_eq_true hempty
    have halike := FileSystem.alike_emptied h.isUnlinked h.isFileNode
    rw [hc.place_of_find (halike.symm.isUnlinked_slot _) hfind, emptied,
      FileSystem.node?_emptied_child] at he
    cases he

end Bare

/-- The cache can be asked for a preview, and can keep one. -/
def IsUsable (c : Cache) (key : String) (r : Run World) : Prop :=
  (∃ there, r.state.files.exists? r.state.cwd (c.file key) = .ok there) ∧
    ((c.keep (c.file key) []).exec r).1 = .ok ()

variable (hc : c.IsSound) (hlife : c.History (Dated version) r.state makings)
  (hp : Dated version r.state p) (hload : r.state.files.load r.state.cwd p = .ok (content, t))
  (hkeys : c.KeysApart makings (keyText p t height))
include hc hlife hp hload hkeys

theorem answerOf_of_answer {a : Bytes × String} (h : ((c.answer p height).exec r).1 = .ok a) :
    answerOf c.imaging content p height = .ok a := by
  rw [exec_answer hload] at h
  rw [answerOf]
  rcases hexists : r.state.files.exists? r.state.cwd (c.file (keyText p t height)) with f | _ | _
  · rw [hexists] at h
    cases h
  · rw [hexists] at h
    rcases hrendered : rendered c.imaging content height with f | data
    · rw [hrendered] at h
      exact h
    · rw [hrendered] at h
      dsimp only at h ⊢
      rcases hkeep : ((c.keep (c.file (keyText p t height)) data).exec r).1 with f | u
      · rw [hkeep] at h
        cases h
      · rw [hkeep] at h
        exact h
  · obtain ⟨data, changedAt, hrendered, hkept⟩ :=
      rendered_of_kept hc hlife hp hload hkeys hexists
    rw [hexists, hkept] at h
    rw [hrendered]
    exact h

theorem answer_of_isUsable (husable : c.IsUsable (keyText p t height) r) :
    ((c.answer p height).exec r).1 = answerOf c.imaging content p height := by
  obtain ⟨⟨there, hthere⟩, hkeep⟩ := husable
  have hholds := hlife.holds hc
  have halike := (FileSystem.alike_emptied hholds.isUnlinked hholds.isFileNode).refl
  rw [exec_answer hload, hthere, answerOf]
  cases there with
  | false =>
      cases rendered c.imaging content height with
      | error f => rfl
      | ok data =>
          dsimp only
          rw [keep_fst_eq r hc halike rfl _ [] data, hkeep]
          rfl
  | true =>
      obtain ⟨data, changedAt, hrendered, hkept⟩ :=
        rendered_of_kept hc hlife hp hload hkeys hthere
      rw [hkept, hrendered]
      rfl

theorem answer_emptied (helsewhere : ∀ name,
      r.state.files.find r.state.cwd p ≠ .ok (c.dir.parts ++ [name])) :
    ((c.answer p height).exec (c.emptied r)).1 =
      ((c.answer p height).exec r).1 := by
  have hholds := hlife.holds hc
  have halike := FileSystem.alike_emptied hholds.isUnlinked hholds.isFileNode
  have hload' : (c.emptied r).state.files.load (c.emptied r).state.cwd p = .ok (content, t) :=
    FileSystem.load_emptied hload hholds.isFileNode helsewhere
  generalize hkey : keyText p t height = key at hkeys
  have hkeep (data : Bytes) : ((c.keep (c.file key) data).exec (c.emptied r)).1 =
      ((c.keep (c.file key) data).exec r).1 := keep_fst_eq (c.emptied r) hc halike rfl key data data
  rw [exec_answer hload', exec_answer hload, hkey]
  rcases hexists : r.state.files.exists? r.state.cwd (c.file key) with f | there
  · rw [exists?_emptied_error hc hholds hexists]
  rw [exists?_emptied_ok hc hholds hexists]
  cases there with
  | false =>
      cases rendered c.imaging content height with
      | error f => rfl
      | ok data =>
          dsimp only
          rw [hkeep]
  | true =>
      -- The empty cache makes the preview anew, and can keep it because this one has kept it.
      subst hkey
      obtain ⟨data, changedAt, hrendered, hkept⟩ :=
        rendered_of_kept hc hlife hp hload hkeys hexists
      rw [hkept, hrendered]
      dsimp only
      rw [hkeep, keep_of_kept hc hholds hexists]
      rfl

end Coherent

section Sample

def bigEndian : Nat → Nat → Bytes
  | 0, _ => []
  | k + 1, n => (n / 256 ^ k % 256).toUInt8 :: bigEndian k n

/-- What every JPEG file of one pixel begins with that is written with the standard tables, scaled
to quality 82. -/
def onePixelHead : Bytes :=
  [0xffd8ffe000104a46494600010100000100010000ffdb0043000604040504040605050506060607090e090908,
    0x0809120d0d0a0e1512161615121414171a211c17181f1914141d271d1f2223252525161c292c28242b212425,
    0x24ffdb0043010606060908091109091124181418242424242424242424242424242424242424242424242424,
    0x2424242424242424242424242424242424242424242424242424ffc000110800010001030122000211010311,
    0x01ffc4001f0000010501010101010100000000000000000102030405060708090a0bffc400b5100002010303,
    0x020403050504040000017d01020300041105122131410613516107227114328191a1082342b1c11552d1f024,
    0x33627282090a161718191a25262728292a3435363738393a434445464748494a535455565758595a63646566,
    0x6768696a737475767778797a838485868788898a92939495969798999aa2a3a4a5a6a7a8a9aab2b3b4b5b6b7,
    0xb8b9bac2c3c4c5c6c7c8c9cad2d3d4d5d6d7d8d9dae1e2e3e4e5e6e7e8e9eaf1f2f3f4f5f6f7f8f9faffc400,
    0x1f0100030101010101010101010000000000000102030405060708090a0bffc400b511000201020404030407,
    0x05040400010277000102031104052131061241510761711322328108144291a1b1c109233352f0156272d10a,
    0x162434e125f11718191a262728292a35363738393a434445464748494a535455565758595a63646566676869,
    0x6a737475767778797a82838485868788898a92939495969798999aa2a3a4a5a6a7a8a9aab2b3b4b5b6b7b8b9,
    0xbac2c3c4c5c6c7c8c9cad2d3d4d5d6d7d8d9dae2e3e4e5e6e7e8e9eaf2f3f4f5f6f7f8f9faffda000c030100
    ].flatMap (bigEndian 44) ++ bigEndian 7 0x02110311003f00

def greyPreview : Bytes := onePixelHead ++ [0x28, 0xA2, 0x8A, 0x00, 0xFF, 0xD9]

def whitePreview : Bytes := onePixelHead ++ [0xFA, 0xA6, 0x8A, 0x28, 0xA0, 0x0F, 0xFF, 0xD9]

/-- A library that tells grey from white and writes single pixels only. -/
def onePixelImaging : Imaging where
  decode := Picture.ofBytes
  resize := Imaging.blankOf
  encode r quality :=
    if r.size = (1, 1) ∧ quality = 82 ∧ r.pixel 0 0 = ⟨128, 128, 128⟩ then .ok greyPreview
    else if r.size = (1, 1) ∧ quality = 82 ∧ r.pixel 0 0 = ⟨255, 255, 255⟩ then .ok whitePreview
    else .error Jpeg.tooLarge

def greyPicture : Bytes := Text.Utf8.ofString "P5 1 1 255\n" ++ [128]

def whitePicture : Bytes := Text.Utf8.ofString "P5 1 1 255\n" ++ [255]

def galleryCache : Cache := { dir := ⟨.slash, ["t"]⟩, imaging := onePixelImaging }

def galleryPath : Path := ⟨.slash, ["m", "a"]⟩

def galleryWorld : World where
  files := ⟨[(["m"], .directory), (["m", "a"], .file (.bytes greyPicture) 1)]⟩
  cwd := ⟨.slash, []⟩
  home := "/"

def galleryRun : Run World := ⟨galleryWorld, []⟩

def firstVisit : Except Failure Delivery × Run World :=
  (galleryCache.deliver galleryPath 1).exec galleryRun

def firstMakings : List Making := makingOf galleryRun.state galleryPath 1 firstVisit.1

/-- The picture was replaced after a preview of it had been delivered. -/
def replacedRun : Run World :=
  let w := firstVisit.2.state
  ⟨{ w with files := w.files.put ["m", "a"] (.file (.bytes whitePicture) 2) }, []⟩

def galleryVersion (_ : List Char) (t : Int) : Content :=
  .bytes (if t = 1 then greyPicture else whitePicture)

theorem isSound_galleryCache : galleryCache.IsSound where
  dir := ⟨rfl, fun c hc => by
    obtain rfl := List.mem_singleton.1 hc
    exact ⟨by decide, by decide, by decide⟩⟩
  name := slash_not_mem_digest

theorem dated_galleryRun : Dated galleryVersion galleryRun.state galleryPath := by
  intro content t hload
  have heval : galleryRun.state.files.load galleryRun.state.cwd galleryPath =
      .ok (.bytes greyPicture, 1) := by decide +kernel
  cases heval.symm.trans hload
  rfl

theorem load_replacedRun : replacedRun.state.files.load replacedRun.state.cwd galleryPath =
    .ok (.bytes whitePicture, 2) := by
  decide +kernel

theorem dated_replacedRun : Dated galleryVersion replacedRun.state galleryPath := by
  intro content t hload
  cases load_replacedRun.symm.trans hload
  rfl

theorem history_replacedRun : galleryCache.History (Dated galleryVersion) replacedRun.state
    firstMakings := by
  have hbare : galleryCache.History (Dated galleryVersion) galleryRun.state [] := by
    refine .bare (fun front hfront text => ?_) fun name => rfl
    rcases List.prefix_concat_iff.1 (show front <+: [] ++ ["t"] from hfront) with rfl | hfront
    · exact fun h => nomatch h
    · obtain rfl := List.prefix_nil.1 hfront
      exact fun h => nomatch h
  have hdeliver : (galleryCache.deliver galleryPath 1).exec galleryRun =
      (firstVisit.1, firstVisit.2) := (Prod.eta firstVisit).symm
  have hvisited := hbare.delivery dated_galleryRun hdeliver
  rw [List.nil_append, ← firstMakings] at hvisited
  refine hvisited.outside ⟨fun front hfront text => ?_, fun name => .inr ?_⟩
  · have hne : front ≠ ["m", "a"] := by
      rintro rfl
      exact absurd hfront (by decide)
    rw [replacedRun, FileSystem.node?_put_of_ne hne]
    exact (hvisited.holds isSound_galleryCache).isUnlinked front hfront text
  · exact FileSystem.node?_put_of_ne (by simp [galleryCache]) _

theorem key_of_mem_makingOf {w : World} {out : Except Failure Delivery} {m : Making}
    (h : m ∈ makingOf w p height out) : m.key = keyText p (changeOf w p) height := by
  rcases out with f | ⟨data, type⟩ | ⟨file, type⟩
  · cases h
  · obtain rfl := List.mem_singleton.1 h
    rfl
  · cases h

theorem keysApart_replacedRun :
    galleryCache.KeysApart firstMakings (keyText galleryPath 2 1) := by
  intro m hm hname
  have hkey : m.key = keyText galleryPath (changeOf galleryRun.state galleryPath) 1 :=
    key_of_mem_makingOf hm
  rw [hkey] at hname
  exact absurd hname (by decide +kernel)

end Sample

end Cache

end Preview

end MediaCatalog
