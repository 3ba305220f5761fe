import MediaCatalog.Proofs.FileSystem.Resolve
import MediaCatalog.Proofs.World
import MediaCatalog.Settings

namespace MediaCatalog.Settings

open World

def spelled (w : World) (v : Json) : Except Failure Path := do
  (← pathOf v).expandHome w.home w.homes

def databaseIn (w : World) (dataDir : Path) (paths : Table) : Except Failure Path :=
  if (valueOf paths "db_path" .null).isTruthy then
    (spelled w (valueOf paths "db_path" .null)).map dataDir.join
  else do
    let dir ← pathOf (valueOf paths "db_subdir" (.str "db"))
    let file ← pathOf (valueOf paths "db_file" (.str "index.sqlite3"))
    return dataDir.join dir |>.join file

@[simp] theorem exec_homed (v : Json) (r : Run World) :
    (homed v).exec r = (spelled r.state v, r) := by
  rw [homed, Act.exec_bind, Act.exec_ofExcept, spelled]
  rcases pathOf v with f | p
  · rfl
  · exact (Act.exec_bind_ok (Act.exec_getState r) _).trans (Act.exec_ofExcept _ r)

@[simp] theorem exec_under (base : Path) (v : Json) (r : Run World) :
    (under base v).exec r = ((spelled r.state v).map base.join, r) := by
  rw [under, Act.exec_bind, exec_homed]
  cases spelled r.state v <;> rfl

@[simp] theorem exec_databasePath (dataDir : Path) (paths : Table) (r : Run World) :
    (databasePath dataDir paths).exec r = (databaseIn r.state dataDir paths, r) := by
  rw [databasePath, databaseIn]
  split
  · exact exec_under dataDir _ r
  · rw [Act.exec_bind, Act.exec_ofExcept]
    rcases pathOf (valueOf paths "db_subdir" (.str "db")) with f | dir
    · rfl
    · dsimp only
      rw [Act.exec_bind, Act.exec_ofExcept]
      cases pathOf (valueOf paths "db_file" (.str "index.sqlite3")) <;> rfl

/-- The settings that three tables give in a world. -/
structure Follows (w : World) (paths catalog executor : Table) (s : Settings) : Prop where
  dataDir : ∃ p, spelled w (valueOf paths "data_dir" .null) = .ok p ∧
    w.files.resolve w.cwd p = .ok s.dataDir
  mediaRoot : spelled w (valueOf paths "media_root" .null) = .ok s.mediaRoot
  blobDir : ∃ p, spelled w (valueOf paths "blob_subdir" .null) = .ok p ∧
    w.files.resolve w.cwd (s.dataDir.join p) = .ok s.blobDir
  thumbDir : ∃ p, spelled w (valueOf paths "thumb_subdir" .null) = .ok p ∧
    w.files.resolve w.cwd (s.dataDir.join p) = .ok s.thumbDir
  dbPath : ∃ p, databaseIn w s.dataDir paths = .ok p ∧ w.files.resolve w.cwd p = .ok s.dbPath
  cameraDir : s.cameraDir = cameraOf catalog s.mediaRoot
  allMediaTitle : s.allMediaTitle = (valueOf catalog "all_media_title" .null).text
  renderQuality : (valueOf catalog "render_quality" .null).toInt = .ok s.renderQuality
  maxWorkers : ∃ n, (valueOf executor "max_workers" .null).toInt = .ok n ∧ s.maxWorkers = max 1 n

theorem map_join_eq_ok {base t : Path} {out : Except Failure Path} :
    out.map base.join = .ok t ↔ ∃ p, out = .ok p ∧ base.join p = t := by
  cases out <;> simp [Except.map]

/-- Reading a configuration changes nothing, and gives the settings that follow from its tables. -/
theorem exec_ofConfig_eq_ok {cfg : Json} {r r' : Run World} {s : Settings} :
    (ofConfig cfg).exec r = (.ok s, r') ↔
      r' = r ∧ ∃ top paths catalog executor, topTable cfg = .ok top ∧
        overlaid defaultPaths top "paths" = .ok paths ∧
        overlaid defaultCatalog top "catalog" = .ok catalog ∧
        overlaid defaultExecutor top "executor" = .ok executor ∧
        Follows r.state paths catalog executor s := by
  simp only [ofConfig, Act.exec_bind_of_same (Act.exec_ofExcept _ r),
    Act.exec_bind_of_same (exec_homed _ r), Act.exec_bind_of_same (exec_under _ _ r),
    Act.exec_bind_of_same (exec_databasePath _ _ r), Act.exec_bind_of_same (exec_resolve _ r),
    Act.exec_pure]
  constructor
  · rintro ⟨top, htop, paths, hpaths, catalog, hcatalog, executor, hexecutor, h⟩
    obtain ⟨p, hp, dataDir, hdata, mediaRoot, hmedia, b, hb, blobDir, hblob, t, ht, thumbDir,
      hthumb, d, hd, dbPath, hdb, quality, hquality, workers, hworkers, h⟩ := h
    obtain ⟨hs, rfl⟩ := Prod.mk.inj h
    obtain rfl := Except.ok.inj hs
    obtain ⟨b, hspelled, rfl⟩ := map_join_eq_ok.1 hb
    obtain ⟨t, hspelled', rfl⟩ := map_join_eq_ok.1 ht
    exact ⟨rfl, top, paths, catalog, executor, htop, hpaths, hcatalog, hexecutor, {
      dataDir := ⟨p, hp, hdata⟩
      mediaRoot := hmedia
      blobDir := ⟨b, hspelled, hblob⟩
      thumbDir := ⟨t, hspelled', hthumb⟩
      dbPath := ⟨d, hd, hdb⟩
      cameraDir := by dsimp only
      allMediaTitle := by dsimp only
      renderQuality := hquality
      maxWorkers := ⟨workers, hworkers, rfl⟩ }⟩
  · rintro ⟨rfl, top, paths, catalog, executor, htop, hpaths, hcatalog, hexecutor, h⟩
    obtain ⟨p, hp, hdata⟩ := h.dataDir
    obtain ⟨b, hb, hblob⟩ := h.blobDir
    obtain ⟨t, ht, hthumb⟩ := h.thumbDir
    obtain ⟨d, hd, hdb⟩ := h.dbPath
    obtain ⟨workers, hworkers, hmax⟩ := h.maxWorkers
    refine ⟨top, htop, paths, hpaths, catalog, hcatalog, executor, hexecutor, ?_⟩
    refine ⟨p, hp, s.dataDir, hdata, s.mediaRoot, h.mediaRoot, _, map_join_eq_ok.2 ⟨b, hb, rfl⟩,
      s.blobDir, hblob, _, map_join_eq_ok.2 ⟨t, ht, rfl⟩, s.thumbDir, hthumb, d, hd, s.dbPath, hdb,
      s.renderQuality, h.renderQuality, workers, hworkers, ?_⟩
    rw [← h.cameraDir, ← h.allMediaTitle, ← hmax]

theorem resolved_ofConfig {cfg : Json} {r r' : Run World} {s : Settings}
    (h : (ofConfig cfg).exec r = (.ok s, r')) {dir : Path}
    (hdir : dir ∈ [s.dataDir, s.blobDir, s.thumbDir, s.dbPath]) :
    ∃ fs cwd p, FileSystem.resolve fs cwd p = .ok dir := by
  obtain ⟨-, _, _, _, _, -, -, -, -, hfollows⟩ := exec_ofConfig_eq_ok.1 h
  obtain ⟨_, -, hdata⟩ := hfollows.dataDir
  obtain ⟨_, -, hblob⟩ := hfollows.blobDir
  obtain ⟨_, -, hthumb⟩ := hfollows.thumbDir
  obtain ⟨_, -, hdb⟩ := hfollows.dbPath
  simp only [List.mem_cons, List.not_mem_nil, or_false] at hdir
  rcases hdir with rfl | rfl | rfl | rfl
  · exact ⟨_, _, _, hdata⟩
  · exact ⟨_, _, _, hblob⟩
  · exact ⟨_, _, _, hthumb⟩
  · exact ⟨_, _, _, hdb⟩

theorem isCanonical_ofConfig {cfg : Json} {r r' : Run World} {s : Settings}
    (h : (ofConfig cfg).exec r = (.ok s, r')) {dir : Path}
    (hdir : dir ∈ [s.dataDir, s.blobDir, s.thumbDir, s.dbPath]) :
    dir.IsCanonical ∧ ¬ dir.hasNull := by
  obtain ⟨fs, cwd, p, hresolve⟩ := resolved_ofConfig h hdir
  exact ⟨FileSystem.isCanonical_resolve hresolve, FileSystem.not_hasNull_of_resolve hresolve⟩

def sample : Settings where
  dataDir := ⟨.slash, []⟩
  mediaRoot := ⟨.slash, ["m"]⟩
  blobDir := ⟨.slash, ["b"]⟩
  thumbDir := ⟨.slash, ["t"]⟩
  dbPath := ⟨.slash, ["d"]⟩
  cameraDir := "/m/DCIM/Camera"
  allMediaTitle := "All media"
  renderQuality := 80
  maxWorkers := 1

theorem isCanonical_sample : sample.thumbDir.IsCanonical := by
  refine ⟨rfl, fun c hc => ?_⟩
  obtain rfl := List.mem_singleton.1 hc
  exact ⟨by decide, by decide, by decide⟩

end MediaCatalog.Settings
