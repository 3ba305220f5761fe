import Mathlib.Data.List.Induction
import MediaCatalog.Proofs.Json.Pairs
import MediaCatalog.Proofs.Settings

namespace MediaCatalog.Settings

open World

section Tables

def given (cfg : Json) (name : String) : Table :=
  match cfg.get? name with
  | some (.obj t) => t
  | _ => []

def placeDefaults : Table :=
  defaultPaths ++
    [("db_path", .null), ("db_subdir", .str "db"), ("db_file", .str "index.sqlite3")]

/-- What a configuration says of a place. The last of several values counts. -/
def configured (cfg : Json) (name : String) : Json :=
  ((field? name (given cfg "paths").reverse).or (field? name placeDefaults)).getD .null

theorem field?_foldl_setField (name : String) (t defaults : Table) :
    field? name (t.foldl (fun t p => setField p.1 p.2 t) defaults) =
      (field? name t.reverse).or (field? name defaults) := by
  induction t using List.reverseRecOn with
  | nil => rfl
  | append_singleton t p ih =>
      rw [List.foldl_concat, List.reverse_concat, field?_setField, ih]
      by_cases h : name = p.1
      · subst h
        simp [field?]
      · simp [field?, h, Ne.symm h]

theorem field?_top {cfg : Json} {top : Table} (h : topTable cfg = .ok top) (name : String) :
    field? name top = cfg.get? name := by
  rw [topTable.eq_def] at h
  split at h
  · rename_i hfalsy
    cases h
    cases cfg with
    | obj fields =>
        obtain rfl : fields = [] := by simpa [Json.isTruthy] using hfalsy
        rfl
    | _ => rfl
  · cases cfg with
    | obj fields =>
        cases h
        rfl
    | _ => cases h

theorem field?_overlaid {cfg : Json} {top t defaults : Table} {name : String}
    (htop : topTable cfg = .ok top) (h : overlaid defaults top name = .ok t) (key : String) :
    field? key t = (field? key (given cfg name).reverse).or (field? key defaults) := by
  rw [overlaid, field?_top htop] at h
  rw [given]
  split at h
  · rename_i hnone
    cases h
    rw [hnone]
    rfl
  · rename_i fields hsome
    cases h
    rw [hsome]
    exact field?_foldl_setField key fields defaults
  · cases h

theorem valueOf_paths {cfg : Json} {top paths : Table} (htop : topTable cfg = .ok top)
    (hpaths : overlaid defaultPaths top "paths" = .ok paths) (name : String) (default : Json)
    (hdefault : (field? name defaultPaths).getD default = (field? name placeDefaults).getD .null) :
    valueOf paths name default = configured cfg name := by
  rw [valueOf, configured, field?_overlaid htop hpaths]
  cases field? name (given cfg "paths").reverse with
  | none => exact hdefault
  | some v => rfl

end Tables

section Spelling

/-- The path that a text spells: its own, or the one below the home that it starts with. -/
inductive Spells (w : World) (t : String) : Path → Prop
  | plain (h : ∀ first rest, Path.ofString t = ⟨.none, first :: rest⟩ →
      homeOf w.home w.homes first = none) : Spells w t (Path.ofString t)
  | home {first : String} {rest : List String} {home : Path}
      (ht : Path.ofString t = ⟨.none, first :: rest⟩)
      (hhome : homeOf w.home w.homes first = some (.ok home)) :
      Spells w t (home.join ⟨.none, rest⟩)

theorem expandHome_eq_ok {w : World} {t : String} {p : Path} :
    (Path.ofString t).expandHome w.home w.homes = .ok p ↔ Spells w t p := by
  rw [Path.expandHome.eq_def]
  constructor
  · intro h
    split at h
    · rename_i first rest hroot hparts
      have ht : Path.ofString t = ⟨.none, first :: rest⟩ := by rw [← hroot, ← hparts]
      split at h
      · rename_i hhome
        cases h
        exact .home ht hhome
      · cases h
      · rename_i hhome
        cases h
        refine .plain fun first' rest' ht' => ?_
        obtain ⟨rfl, rfl⟩ : first = first' ∧ rest = rest' := by simpa using ht.symm.trans ht'
        exact hhome
    · rename_i hplain
      cases h
      refine .plain fun first rest ht => ?_
      exact absurd (congrArg Path.parts ht) (hplain _ _ (congrArg Path.root ht))
  · intro h
    cases h with
    | plain h =>
        split
        · rename_i first rest hroot hparts
          have ht : Path.ofString t = ⟨.none, first :: rest⟩ := by rw [← hroot, ← hparts]
          rw [h first rest ht]
        · rfl
    | home ht hhome => rw [ht]; simp only [hhome]

theorem spelled_eq_ok {w : World} {v : Json} {p : Path} :
    spelled w v = .ok p ↔ ∃ t, v = .str t ∧ Spells w t p := by
  cases v with
  | str t =>
      have hspelled : spelled w (.str t) = (Path.ofString t).expandHome w.home w.homes := rfl
      rw [hspelled, expandHome_eq_ok]
      simp
  | _ =>
      constructor
      · intro h
        cases h
      · rintro ⟨_, h, _⟩
        cases h

end Spelling

section Places

/-- Where a value points: an absolute path to itself, and another one to the place that continues
the base with its components. -/
inductive Places (w : World) (base : Path) (v : Json) (place : Path) : Prop
  | itself {t : String} {p : Path} (ht : v = .str t) (hp : Spells w t p) (habs : p.isAbsolute)
      (hplace : w.files.resolve w.cwd p = .ok place)
  | below {t : String} {p : Path} (ht : v = .str t) (hp : Spells w t p) (hrel : ¬ p.isAbsolute)
      (hplace : w.files.resolve w.cwd ⟨base.root, base.parts ++ p.parts⟩ = .ok place)

theorem places_of_spelled {w : World} {base p place : Path} {v : Json}
    (hp : spelled w v = .ok p) (hplace : w.files.resolve w.cwd (base.join p) = .ok place) :
    Places w base v place := by
  obtain ⟨t, ht, hspells⟩ := spelled_eq_ok.1 hp
  obtain ⟨root, parts⟩ := p
  cases root with
  | none => exact .below ht hspells Bool.false_ne_true hplace
  | slash => exact .itself ht hspells rfl hplace
  | doubleSlash => exact .itself ht hspells rfl hplace

/-- Where the settings of a configuration point. The index is at one path, or else at a file of a
directory, two texts in which no home is put in. The root of the media is not resolved. -/
structure Points (w : World) (cfg : Json) (s : Settings) : Prop where
  dataDir : ∃ t p, configured cfg "data_dir" = .str t ∧ Spells w t p ∧
    w.files.resolve w.cwd p = .ok s.dataDir
  blobDir : Places w s.dataDir (configured cfg "blob_subdir") s.blobDir
  thumbDir : Places w s.dataDir (configured cfg "thumb_subdir") s.thumbDir
  whole : (configured cfg "db_path").isTruthy →
    Places w s.dataDir (configured cfg "db_path") s.dbPath
  inParts : ¬ (configured cfg "db_path").isTruthy →
    ∃ dir file, configured cfg "db_subdir" = .str dir ∧ configured cfg "db_file" = .str file ∧
      w.files.resolve w.cwd
        ((s.dataDir.join (Path.ofString dir)).join (Path.ofString file)) = .ok s.dbPath
  mediaRoot : ∃ t, configured cfg "media_root" = .str t ∧ Spells w t s.mediaRoot

theorem pathOf_eq_ok {v : Json} {p : Path} :
    pathOf v = .ok p ↔ ∃ t, v = .str t ∧ Path.ofString t = p := by
  cases v <;> simp [pathOf]

theorem databaseIn_eq_ok {w : World} {dataDir p : Path} {paths : Table} :
    databaseIn w dataDir paths = .ok p ↔
      if (valueOf paths "db_path" .null).isTruthy then
        ∃ q, spelled w (valueOf paths "db_path" .null) = .ok q ∧ dataDir.join q = p
      else ∃ dir file, pathOf (valueOf paths "db_subdir" (.str "db")) = .ok dir ∧
        pathOf (valueOf paths "db_file" (.str "index.sqlite3")) = .ok file ∧
        (dataDir.join dir).join file = p := by
  rw [databaseIn]
  split
  · exact map_join_eq_ok
  · rcases pathOf (valueOf paths "db_subdir" (.str "db")) with f | dir
    · simp [bind, Except.bind]
    · rcases pathOf (valueOf paths "db_file" (.str "index.sqlite3")) with f | file
      · simp [bind, Except.bind]
      · simp [bind, Except.bind, pure, Except.pure]

theorem Follows.points {w : World} {cfg : Json} {top paths catalog executor : Table} {s : Settings}
    (h : Follows w paths catalog executor s) (htop : topTable cfg = .ok top)
    (hpaths : overlaid defaultPaths top "paths" = .ok paths) : Points w cfg s := by
  have hvalue := valueOf_paths htop hpaths
  obtain ⟨hdata, hmedia, hblob, hthumb, ⟨d, hd, hdb⟩, -, -, -, -⟩ := h
  rw [databaseIn_eq_ok, hvalue "db_path" .null rfl, hvalue "db_subdir" (.str "db") rfl,
    hvalue "db_file" (.str "index.sqlite3") rfl] at hd
  rw [hvalue "data_dir" .null rfl] at hdata
  rw [hvalue "media_root" .null rfl] at hmedia
  rw [hvalue "blob_subdir" .null rfl] at hblob
  rw [hvalue "thumb_subdir" .null rfl] at hthumb
  obtain ⟨p, hp, hdata⟩ := hdata
  obtain ⟨t, ht, hspells⟩ := spelled_eq_ok.1 hp
  obtain ⟨b, hb, hblob⟩ := hblob
  obtain ⟨c, hc, hthumb⟩ := hthumb
  refine ⟨⟨t, p, ht, hspells, hdata⟩, places_of_spelled hb hblob, places_of_spelled hc hthumb,
    fun hwhole => ?_, fun hparts => ?_, spelled_eq_ok.1 hmedia⟩
  · obtain ⟨q, hq, rfl⟩ := if_pos hwhole ▸ hd
    exact places_of_spelled hq hdb
  · obtain ⟨_, _, hdir, hfile, rfl⟩ := if_neg hparts ▸ hd
    obtain ⟨dir, hdirText, rfl⟩ := pathOf_eq_ok.1 hdir
    obtain ⟨file, hfileText, rfl⟩ := pathOf_eq_ok.1 hfile
    exact ⟨dir, file, hdirText, hfileText, hdb⟩

end Places

section Moving

def movedTo (cwd : Path) (r : Run World) : Run World := { r with state := { r.state with cwd } }

theorem isAbsolute_databaseIn {w : World} {dataDir p : Path} {paths : Table}
    (habs : dataDir.isAbsolute) (h : databaseIn w dataDir paths = .ok p) : p.isAbsolute := by
  rw [databaseIn_eq_ok] at h
  split at h
  · obtain ⟨q, -, rfl⟩ := h
    exact Path.isAbsolute_absolute q habs
  · obtain ⟨dir, file, -, -, rfl⟩ := h
    exact Path.isAbsolute_absolute file (Path.isAbsolute_absolute dir habs)

theorem Follows.movedTo {w : World} {paths catalog executor : Table} {s : Settings}
    (h : Follows w paths catalog executor s)
    (hdata : ∀ p, spelled w (valueOf paths "data_dir" .null) = .ok p → p.isAbsolute) (cwd : Path) :
    Follows { w with cwd } paths catalog executor s := by
  have hmove {p place : Path} (habs : p.isAbsolute) (h : w.files.resolve w.cwd p = .ok place) :
      w.files.resolve cwd p = .ok place :=
    (FileSystem.resolve_of_isAbsolute w.files habs cwd w.cwd).trans h
  obtain ⟨⟨p, hp, hresolve⟩, hmedia, ⟨b, hb, hblob⟩, ⟨t, ht, hthumb⟩, ⟨d, hd, hdb⟩, hcamera, htitle,
    hquality, hworkers⟩ := h
  -- Resolved, the data directory is absolute, and so is whatever is joined to it.
  have habs : s.dataDir.isAbsolute := (FileSystem.isCanonical_resolve hresolve).isAbsolute
  exact {
    dataDir := ⟨p, hp, hmove (hdata p hp) hresolve⟩
    mediaRoot := hmedia
    blobDir := ⟨b, hb, hmove (Path.isAbsolute_absolute b habs) hblob⟩
    thumbDir := ⟨t, ht, hmove (Path.isAbsolute_absolute t habs) hthumb⟩
    dbPath := ⟨d, hd, hmove (isAbsolute_databaseIn habs hd) hdb⟩
    cameraDir := hcamera
    allMediaTitle := htitle
    renderQuality := hquality
    maxWorkers := hworkers }

theorem exec_movedTo {cfg : Json} {r r' : Run World} {s : Settings}
    (h : (ofConfig cfg).exec r = (.ok s, r'))
    (hdata : ∃ t p, configured cfg "data_dir" = .str t ∧ Spells r.state t p ∧ p.isAbsolute)
    (cwd : Path) : (ofConfig cfg).exec (movedTo cwd r) = (.ok s, movedTo cwd r) := by
  obtain ⟨-, top, paths, catalog, executor, htop, hpaths, hcatalog, hexecutor, hfollows⟩ :=
    exec_ofConfig_eq_ok.1 h
  refine exec_ofConfig_eq_ok.2
    ⟨rfl, top, paths, catalog, executor, htop, hpaths, hcatalog, hexecutor, hfollows.movedTo ?_ cwd⟩
  intro p hp
  obtain ⟨t, q, ht, hq, habs⟩ := hdata
  rw [valueOf_paths htop hpaths "data_dir" .null rfl, ht] at hp
  obtain rfl : q = p := Except.ok.inj ((spelled_eq_ok.2 ⟨t, rfl, hq⟩).symm.trans hp)
  exact habs

theorem isAbsolute_iff (p : Path) :
    p.isAbsolute ↔ ∀ cwd cwd' : Path, cwd.isAbsolute → cwd'.isAbsolute →
      p.absolute cwd = p.absolute cwd' := by
  constructor
  · intro h cwd cwd' _ _
    rw [Path.absolute_of_isAbsolute h, Path.absolute_of_isAbsolute h]
  · intro h
    obtain ⟨root, parts⟩ := p
    cases root with
    | none =>
        have hparts : parts = "a" :: parts :=
          congrArg Path.parts (h ⟨.slash, []⟩ ⟨.slash, ["a"]⟩ rfl rfl)
        exact absurd hparts (List.cons_ne_self "a" parts).symm
    | slash => rfl
    | doubleSlash => rfl

/-- Whatever configuration is read: every place but the root of the media is absolute, lies under
the data directory unless what is configured is absolute by itself, and is looked up alike from
everywhere. From an absolute data directory on, the working directory makes no difference to the
settings. The root of the media is the path that its text spells, so a relative one is not under
the data directory, and leads elsewhere from elsewhere. -/
theorem ofConfig_points {cfg : Json} {r r' : Run World} {s : Settings}
    (h : (ofConfig cfg).exec r = (.ok s, r')) :
    r' = r ∧ Points r.state cfg s ∧
      (∀ place ∈ [s.dataDir, s.blobDir, s.thumbDir, s.dbPath], place.IsCanonical ∧
        ∀ (fs : FileSystem) (cwd cwd' : Path) (followLast : Bool),
          fs.reach cwd place followLast = fs.reach cwd' place followLast) ∧
      ((∃ t p, configured cfg "data_dir" = .str t ∧ Spells r.state t p ∧ p.isAbsolute) →
        ∀ cwd, (ofConfig cfg).exec (movedTo cwd r) = (.ok s, movedTo cwd r)) ∧
      (s.mediaRoot.isAbsolute ↔ ∀ cwd cwd' : Path, cwd.isAbsolute → cwd'.isAbsolute →
        s.mediaRoot.absolute cwd = s.mediaRoot.absolute cwd') := by
  obtain ⟨rfl, top, paths, catalog, executor, htop, hpaths, -, -, hfollows⟩ :=
    exec_ofConfig_eq_ok.1 h
  refine ⟨rfl, hfollows.points htop hpaths, fun place hplace => ?_, exec_movedTo h,
    isAbsolute_iff s.mediaRoot⟩
  have hcanonical := (isCanonical_ofConfig h hplace).1
  exact ⟨hcanonical, fun fs => FileSystem.reach_of_isAbsolute fs hcanonical.isAbsolute⟩

def bare : Run World := ⟨{ files := {}, cwd := ⟨.slash, ["w"]⟩, home := "/h" }, []⟩

def wandering : Json :=
  .obj [("paths", .obj [("data_dir", .str "/d/../e"), ("blob_subdir", .str "~/b"),
    ("db_subdir", .str "x")])]

def settled : Settings where
  dataDir := ⟨.slash, ["e"]⟩
  mediaRoot := ⟨.slash, ["storage", "emulated", "0"]⟩
  blobDir := ⟨.slash, ["h", "b"]⟩
  thumbDir := ⟨.slash, ["e", "thumb-cache"]⟩
  dbPath := ⟨.slash, ["e", "x", "index.sqlite3"]⟩
  cameraDir := "/storage/emulated/0/DCIM/Camera"
  allMediaTitle := "All media"
  renderQuality := 80
  maxWorkers := 4

theorem exec_ofConfig_of_fst {cfg : Json} {r : Run World} {s : Settings}
    (h : ((ofConfig cfg).exec r).1 = .ok s) : (ofConfig cfg).exec r = (.ok s, r) := by
  have hpair : (ofConfig cfg).exec r = (.ok s, ((ofConfig cfg).exec r).2) := Prod.ext h rfl
  rw [hpair, (exec_ofConfig_eq_ok.1 hpair).1]

theorem ofConfig_points_sample :
    (ofConfig wandering).exec bare = (.ok settled, bare) ∧ Points bare.state wandering settled ∧
      (ofConfig wandering).exec (movedTo ⟨.slash, ["v"]⟩ bare) =
        (.ok settled, movedTo ⟨.slash, ["v"]⟩ bare) := by
  have heval : (ofConfig wandering).exec bare = (.ok settled, bare) :=
    exec_ofConfig_of_fst (by decide +kernel)
  obtain ⟨-, hpoints, -, hmoved, -⟩ := ofConfig_points heval
  have hplain : Spells bare.state "/d/../e" ⟨.slash, ["d", "..", "e"]⟩ :=
    .plain fun _ _ h => nomatch congrArg Path.root h
  exact ⟨heval, hpoints, hmoved ⟨"/d/../e", _, rfl, hplain, rfl⟩ _⟩

def loose : Json :=
  .obj [("paths", .obj [("data_dir", .str "/e"), ("media_root", .str "pics"),
    ("blob_subdir", .str "~/b"), ("db_subdir", .str "~/x")])]

/-- The media are not under the data directory, and not in one place; and a tilde that is the home
for the blobs is a directory for the index. -/
theorem ofConfig_loose :
    (ofConfig loose).exec bare =
      (.ok { settled with
        mediaRoot := ⟨.none, ["pics"]⟩
        dbPath := ⟨.slash, ["e", "~", "x", "index.sqlite3"]⟩
        cameraDir := "pics/DCIM/Camera" }, bare) ∧
      (Path.mk .none ["pics"]).isAbsolute = false ∧
      (Path.mk .none ["pics"]).absolute ⟨.slash, ["w"]⟩ = ⟨.slash, ["w", "pics"]⟩ ∧
      (Path.mk .none ["pics"]).absolute ⟨.slash, ["v"]⟩ = ⟨.slash, ["v", "pics"]⟩ :=
  ⟨exec_ofConfig_of_fst (by decide +kernel), rfl, rfl, rfl⟩

end Moving

end MediaCatalog.Settings
