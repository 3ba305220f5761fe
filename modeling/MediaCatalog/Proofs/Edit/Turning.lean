import MediaCatalog.Edit.Picture
import MediaCatalog.Proofs.Completion.Files
import MediaCatalog.Proofs.Image.Opening
import MediaCatalog.Proofs.Number.Binary64

namespace MediaCatalog

def turned (k : Int) (size : Nat × Nat) : Nat × Nat := if Even k then size else size.swap

theorem turned_zero (size : Nat × Nat) : turned 0 size = size := if_pos (by decide)

theorem turned_add (j k : Int) (size : Nat × Nat) :
    turned (j + k) size = turned k (turned j size) := by
  by_cases hj : Even j <;> by_cases hk : Even k <;> simp [turned, hj, hk, Int.even_add]

theorem size_quarters {k : Int} (r : Raster) :
    (Rotation.quarters (k % 4).toNat r).size = turned k r.size := by
  obtain h | h | h | h : (k % 4).toNat = 0 ∨ (k % 4).toNat = 1 ∨ (k % 4).toNat = 2 ∨
      (k % 4).toNat = 3 := by omega
  · rw [h, turned, if_pos (Int.even_iff.2 (by omega))]
    rfl
  · rw [h, turned, if_neg fun hk => by have := Int.even_iff.1 hk; omega]
    rfl
  · rw [h, turned, if_pos (Int.even_iff.2 (by omega))]
    rfl
  · rw [h, turned, if_neg fun hk => by have := Int.even_iff.1 hk; omega]
    rfl

theorem Rotation.size_rotate {x : Binary64} {k : Int} (h : x.value? = some ((90 * k : Int) : ℚ))
    (r : Raster) : ∃ r', rotate x r = .ok r' ∧ r'.size = turned k r.size := by
  have hfound : ∀ n < 4, quarterTurns? (Binary64.ofNat (90 * n)) = some n := by decide
  have hbound : (k % 4).toNat < 4 := by omega
  refine ⟨_, ?_, size_quarters (k := k) r⟩
  rw [rotate, Binary64.modulo_of_rightAngles h, hfound _ hbound]

theorem size_upright (orientation : Nat) (r : Raster) :
    (upright orientation r).size = if liesOnSide orientation then r.size.swap else r.size := by
  rw [upright.eq_def, liesOnSide]
  split
  case h_8 h2 h3 h4 h5 h6 h7 h8 =>
    have : ¬ (5 ≤ orientation ∧ orientation ≤ 8) := fun h => by
      have : orientation = 5 ∨ orientation = 6 ∨ orientation = 7 ∨ orientation = 8 := by omega
      tauto
    simp [this]
  all_goals rfl

/-- Operations that turn a picture by a number of right angles. The angle counts as the double that
its argument is taken for. -/
inductive Operation.Turns : Operation → Int → Prop
  | mirror (rest : List Json) : Turns (.str "mirror" :: rest) 0
  | flip (rest : List Json) : Turns (.str "flip" :: rest) 0
  | rotate {a : Json} {x : Binary64} {k : Int} (rest : List Json) (ha : a.toReal = .ok x)
      (hx : x.value? = some ((90 * k : Int) : ℚ)) : Turns (.str "rotate" :: a :: rest) k

theorem Operation.Turns.exists_apply {o : Operation} {k : Int} (h : o.Turns k) :
    (∃ n, o.name = .ok n) ∧ ∃ t, o.transformation = .ok t ∧
      ∀ r, ∃ r', t.apply r = .ok r' ∧ r'.size = turned k r.size := by
  cases h with
  | mirror rest => exact ⟨⟨_, rfl⟩, .mirror, rfl, fun r => ⟨_, rfl, (turned_zero _).symm⟩⟩
  | flip rest => exact ⟨⟨_, rfl⟩, .flip, rfl, fun r => ⟨_, rfl, (turned_zero _).symm⟩⟩
  | @rotate a x k rest ha hx =>
      refine ⟨⟨_, rfl⟩, .rotate x, ?_, fun r => Rotation.size_rotate hx r⟩
      simp [transformation, name, argument, ha, bind, Except.bind, pure, Except.pure]

namespace PictureEdit

open Act

variable {w : World} {source : Path} {picture : Picture} {r : Run World}

theorem exec_step (source : Path) {o : Operation} {k : Int} (h : o.Turns k) (raster : Raster)
    (r : Run World) :
    ∃ raster', ((darkroom source).step raster o).exec r = (.ok raster', r) ∧
      raster'.size = turned k raster.size := by
  obtain ⟨⟨n, hname⟩, t, htransformation, happly⟩ := h.exists_apply
  obtain ⟨raster', hraster, hsize⟩ := happly raster
  refine ⟨raster', ?_, hsize⟩
  have hchanged : Act.exec (do (darkroom source).apply (← Act.ofExcept o.transformation) raster) r =
      (.ok raster', r) := by
    rw [htransformation, exec_bind_ok (exec_ofExcept _ r)]
    change (Act.ofExcept (t.apply raster)).exec r = _
    rw [hraster, exec_ofExcept]
  rw [Darkroom.step, hname, exec_bind_ok (exec_ofExcept _ r)]
  exact exec_ensuring hchanged rfl

theorem exec_run (source : Path) {operations : List Operation} {ks : List Int}
    (h : List.Forall₂ Operation.Turns operations ks) (raster : Raster) (r : Run World) :
    ∃ raster', ((darkroom source).run raster operations).exec r = (.ok raster', r) ∧
      raster'.size = turned ks.sum raster.size := by
  induction h generalizing raster with
  | nil => exact ⟨raster, rfl, (turned_zero _).symm⟩
  | @cons o k operations ks ho _ ih =>
      obtain ⟨middle, hstep, hmiddle⟩ := exec_step source ho raster r
      obtain ⟨last, hrun, hlast⟩ := ih middle
      refine ⟨last, ?_, by rw [hlast, hmiddle, List.sum_cons, turned_add]⟩
      rw [Darkroom.run, List.foldlM_cons, exec_bind_ok hstep]
      exact hrun

/-- The file is a picture whose tags and pixels can be read. -/
structure Decodes (w : World) (source : Path) (picture : Picture) : Prop where
  opens : ∃ content changedAt, w.files.load w.cwd source = .ok (content, changedAt) ∧
    Picture.ofBytes content.toBytes = .ok picture
  tagged : ∃ tags, picture.tags = .ok tags
  loads : ∃ raster, picture.load = .ok raster

theorem Decodes.exec_openPath (h : Decodes r.state source picture) :
    (Picture.openPath source).exec r = (.ok picture, r) := by
  obtain ⟨content, changedAt, hload, hopen⟩ := h.opens
  rw [Picture.openPath, exec_bind, World.exec_load, hload]
  exact (exec_ofExcept _ r).trans (by rw [hopen])

theorem Decodes.isFair (h : Decodes w source picture) : picture.IsFair := by
  obtain ⟨content, changedAt, -, hopen⟩ := h.opens
  obtain ⟨p, hp, hfair⟩ | ⟨f, hf, -⟩ := Picture.ofBytes_cases content.toBytes
  · cases hp.symm.trans hopen
    exact hfair
  · cases hf.symm.trans hopen

/-- The size that is probed without the pixels is the size of the raster brought upright. -/
theorem Decodes.exists_size (h : Decodes r.state source picture) :
    ∃ size raster, picture.displaySize = .ok size ∧ raster.size = size ∧
      (darkroom source).develop.exec r = (.ok raster, r) := by
  obtain ⟨tags, htags⟩ := h.tagged
  obtain ⟨raster, hraster⟩ := h.loads
  refine ⟨_, upright (Exif.orientation tags) raster, ?_, size_upright _ _, ?_⟩
  · rw [Picture.displaySize, Picture.orientation, htags, h.isFair.size raster hraster]
    simp only [bind, Except.bind, pure, Except.pure]
    split <;> rfl
  · change (Picture.openPath source >>= _).exec r = _
    rw [exec_bind_ok h.exec_openPath, Picture.uprightRaster, Picture.orientation, htags, hraster]
    exact exec_ofExcept _ r

theorem Decodes.exec_render (h : Decodes r.state source picture) {size : Nat × Nat}
    (hsize : picture.displaySize = .ok size) {operations : List Operation} {ks : List Int}
    (hops : List.Forall₂ Operation.Turns operations ks) :
    ∃ raster, (PictureEdit.mk source operations).edit.render.exec r = (.ok raster, r) ∧
      raster.size = turned ks.sum size := by
  obtain ⟨size', raster, hsize', hraster, hdevelop⟩ := h.exists_size
  cases hsize'.symm.trans hsize
  obtain ⟨last, hrun, hlast⟩ := exec_run source hops raster r
  exact ⟨last, (exec_bind_ok hdevelop _).trans hrun, by rw [hlast, hraster]⟩

theorem Decodes.exec_imageSize (h : Decodes r.state source picture) {size : Nat × Nat}
    (hsize : picture.displaySize = .ok size) :
    (Metadata.imageSize source).exec r = (.ok ((size.1 : Int), (size.2 : Int)), r) := by
  rw [Metadata.imageSize, exec_bind_ok h.exec_openPath, hsize]
  rfl

end PictureEdit

theorem Completer.IsReader.start_resolve {σ : Type} {c : Completer σ} (h : c.IsReader) {i : Item}
    (hsides : ¬ (0 < i.width ∧ 0 < i.height)) (s : σ) :
    ((c.resolve i).start s).1 = (do
      let size ← ((c.resolveSize i).start s).1
      let d ← ((c.probe.dimensionsOf i.mimeType i.location).start s).1
      return { i with width := d.1, height := d.2, size }) := by
  rw [Completer.resolve, Act.start_bind (h.resolveSize i) fun _ =>
    (h.resolveDimensions i).bind fun _ => Act.inspects_pure _]
  refine congrArg _ (funext fun size => ?_)
  rw [Act.start_bind (h.resolveDimensions i) fun _ => Act.inspects_pure _,
    Completer.resolveDimensions, if_neg (by simpa using hsides)]
  rfl

namespace Settings

open Act

variable {s : Settings} {r : Run World} {i : Item} {p : Path} {d : Int × Int}

theorem dimensionsOf_image (access : World.Doing Bool)
    (h : Locator.toPath (some s.blobDir) i.location = .ok p) (hvideo : isVideo i = false)
    (hsize : (Metadata.imageSize p).exec r = (.ok d, r)) :
    (((s.completer access).probe.dimensionsOf i.mimeType i.location).exec r).1 = .ok d := by
  change (Act.exec (Act.ofExcept (Locator.toPath (some s.blobDir) i.location) >>= _) r).1 = _
  rw [h, exec_bind_ok (exec_ofExcept _ r), if_neg (by rw [← isVideo, hvideo]; decide), hsize]

theorem resolved_image (h : Locator.toPath (some s.blobDir) i.location = .ok p)
    (hvideo : isVideo i = false) (hsides : ¬ (0 < i.width ∧ 0 < i.height))
    (hsize : (Metadata.imageSize p).exec ⟨r.state, []⟩ = (.ok d, ⟨r.state, []⟩)) :
    (∀ j, s.resolved r i = .ok j → (j.width, j.height) = d) ∧
      (0 < i.size → s.resolved r i = .ok { i with width := d.1, height := d.2 }) := by
  have hdim := dimensionsOf_image s.pathPermission.hasReadAccess h hvideo hsize
  change (((s.completer _).probe.dimensionsOf i.mimeType i.location).start r.state).1 = _ at hdim
  rw [resolved_eq_start, s.isReader.start_resolve hsides, hdim]
  refine ⟨fun j hj => ?_, fun hknown => ?_⟩
  · cases hbytes : (((s.completer _).resolveSize i).start r.state).1 with
    | error f =>
        rw [hbytes] at hj
        cases hj
    | ok size =>
        rw [hbytes] at hj
        cases hj
        rfl
  · rw [Completer.resolveSize, if_pos hknown]
    rfl

end Settings

theorem Operation.turns_of_lt {k : Int} (h : (90 * k).natAbs < 2 ^ 53) :
    Operation.Turns [.str "rotate", .int (90 * k)] k := by
  have hvalue := Binary64.value_ofInt h
  refine .rotate [] ?_ hvalue
  rw [Json.toReal]
  cases hdouble : Binary64.ofInt (90 * k) with
  | finite neg m q => rfl
  | inf neg => simp [hdouble, Binary64.value?] at hvalue
  | nan => rfl

section Sample

def widePicture : Bytes := Text.Utf8.ofString "P5 2 1 255\n" ++ [1, 2]

def widePath : Path := ⟨.slash, ["m", "a"]⟩

def wideWorld : World where
  files := ⟨[(["d"], .file (.bytes []) 0), (["m"], .directory),
    (["m", "a"], .file (.bytes widePicture) 0)]⟩
  cwd := ⟨.slash, []⟩
  home := "/"

def wideOpened : Picture where
  format := .ppm
  width := 2
  height := 1
  tags := .ok []
  load := Pnm.pixels false 2 1 255 [1, 2]

theorem decodes_wide : PictureEdit.Decodes wideWorld widePath wideOpened where
  opens := ⟨.bytes widePicture, 0, by decide +kernel, by rfl⟩
  tagged := ⟨[], rfl⟩
  loads := ⟨_, rfl⟩

theorem imageSize_wide :
    (Metadata.imageSize widePath).exec ⟨wideWorld, []⟩ = (.ok (2, 1), ⟨wideWorld, []⟩) :=
  decodes_wide.exec_imageSize (r := ⟨wideWorld, []⟩)
    (rfl : wideOpened.displaySize = .ok (2, 1))

def wideItem (mime : String) (width height : Int) : Item :=
  ⟨"/m/a", mime, 1, width, height, 3, none, none⟩

def lyingPicture : Bytes :=
  [137, 80, 78, 71, 13, 10, 26, 10, 0, 0, 0, 13, 73, 72, 68, 82, 0, 0, 0, 2, 0, 0, 0, 1, 8, 0,
    0, 0, 0, 209, 73, 32, 86, 0, 0, 0, 26, 101, 88, 73, 102, 73, 73, 42, 0, 8, 0, 0, 0, 1, 0,
    18, 1, 3, 0, 1, 0, 0, 0, 6, 0, 0, 0, 0, 0, 0, 0, 183, 72, 17, 41, 0, 0, 0, 14, 73, 68, 65,
    84, 120, 1, 1, 3, 0, 252, 255, 0, 1, 2, 0, 7, 0, 4, 108, 248, 57, 104, 0, 0, 0, 0, 73, 69,
    78, 68, 174, 66, 96, 130]

def lyingWorld : World :=
  { wideWorld with files := ⟨[(["d"], .file (.bytes []) 0), (["m"], .directory),
    (["m", "a"], .file (.bytes lyingPicture) 0)]⟩ }

theorem exists_lyingOpened : ∃ picture, PictureEdit.Decodes lyingWorld widePath picture ∧
    (picture.width, picture.height) = (2, 1) ∧ picture.displaySize = .ok (1, 2) := by
  have heval : (Picture.ofBytes lyingPicture).toOption.any fun p =>
      decide ((p.width, p.height) = (2, 1)) && decide (p.displaySize = .ok (1, 2)) &&
        p.tags.isOk && p.load.isOk := by decide +kernel
  rcases hopen : Picture.ofBytes lyingPicture with f | picture
  · rw [hopen] at heval
    cases heval
  · rw [hopen] at heval
    simp only [Except.toOption, Option.any_some, Bool.and_eq_true, decide_eq_true_eq] at heval
    obtain ⟨⟨⟨hsides, hsize⟩, htags⟩, hload⟩ := heval
    refine ⟨picture, ⟨⟨.bytes lyingPicture, 0, by decide +kernel, hopen⟩, ?_, ?_⟩, hsides, hsize⟩
    · cases htagged : picture.tags with
      | error f => simp [htagged, Except.isOk, Except.toBool] at htags
      | ok tags => exact ⟨tags, rfl⟩
    · cases hloaded : picture.load with
      | error f => simp [hloaded, Except.isOk, Except.toBool] at hload
      | ok raster => exact ⟨raster, rfl⟩

end Sample

end MediaCatalog
