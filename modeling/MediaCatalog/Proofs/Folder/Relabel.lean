import MediaCatalog.Proofs.Folder.Listing

namespace MediaCatalog

variable {β γ : Type} {f : β → γ}

def FolderRow.relabel (f : β → γ) (row : FolderRow β) : FolderRow γ :=
  ⟨row.path, row.bucketId.map f, row.title.map f, row.takenAt⟩

def FolderSummary.relabel (f : β → γ) (s : FolderSummary β) : FolderSummary γ :=
  ⟨f s.bucketId, s.title.map f, s.thumbnail, s.count⟩

def KindScan.relabel (f : β → γ) (scan : KindScan β) : KindScan γ :=
  ⟨scan.folders.map (.relabel f), scan.cameraBucket.map f, scan.thumbnail, scan.thumbnailTakenAt⟩

def FolderScans.relabel (f : β → γ) (s : FolderScans β) : FolderScans γ :=
  ⟨s.images.relabel f, s.videos.relabel f⟩

section Buckets

variable [DecidableEq β] [DecidableEq γ] (hf : Function.Injective f)
include hf

namespace FolderMap

theorem get?_relabel (b : β) (m : FolderMap β) :
    get? (f b) (m.map (.relabel f)) = (get? b m).map (.relabel f) := by
  rw [get?, get?, List.find?_map]
  refine congrArg (Option.map _) (congrArg (List.find? · m) (funext fun s => ?_))
  exact decide_eq_decide.2 hf.eq_iff

theorem add_relabel (s : FolderSummary β) (m : FolderMap β) :
    add (s.relabel f) (m.map (.relabel f)) = (add s m).map (.relabel f) := by
  induction m with
  | nil => rfl
  | cons t m ih =>
      by_cases h : t.bucketId = s.bucketId
      · have h' : (t.relabel f).bucketId = (s.relabel f).bucketId := congrArg f h
        rw [List.map_cons, add_cons_of_eq h', add_cons_of_eq h]
        rfl
      · have h' : (t.relabel f).bucketId ≠ (s.relabel f).bucketId := fun he => h (hf he)
        rw [List.map_cons, add_cons_of_ne h', add_cons_of_ne h, ih]
        rfl

theorem merge_relabel (m n : FolderMap β) :
    FolderMap.merge (m.map (.relabel f)) (n.map (.relabel f)) = (m.merge n).map (.relabel f) := by
  induction n generalizing m with
  | nil => rfl
  | cons s n ih => rw [List.map_cons, merge_cons, add_relabel hf, ih, merge_cons]

end FolderMap

namespace KindScan

theorem step_relabel (cwd : Path) (camera : String) (scan : KindScan β) (row : FolderRow β) :
    step cwd camera (scan.relabel f) (row.relabel f) = (step cwd camera scan row).relabel f := by
  cases h : row.bucketId with
  | none =>
      have h' : (row.relabel f).bucketId = none := congrArg (Option.map f) h
      rw [step_of_none _ h, step_of_none _ h']
  | some b =>
      have h' : (row.relabel f).bucketId = some (f b) := congrArg (Option.map f) h
      have hfolders := FolderMap.add_relabel hf
        ⟨b, row.title, Locator.ofPath cwd row.path, 1⟩ scan.folders
      rw [step, step, h, h', relabel, relabel]
      simp only [mk.injEq, Option.isNone_map]
      refine ⟨hfolders, ?_, rfl, rfl⟩
      rw [apply_ite (Option.map f)]
      rfl

theorem ofRows_relabel (cwd : Path) (camera : String) (rows : List (FolderRow β)) :
    ofRows cwd camera (rows.map (.relabel f)) = (ofRows cwd camera rows).relabel f := by
  induction rows using List.reverseRecOn with
  | nil => rfl
  | append_singleton rows row ih =>
      rw [List.map_append, List.map_singleton, ofRows_concat, ih, step_relabel hf, ofRows_concat]

end KindScan

namespace FolderScans

theorem ofRows_relabel (cwd : Path) (camera : String) (images videos : List (FolderRow β)) :
    ofRows cwd camera (images.map (.relabel f)) (videos.map (.relabel f)) =
      (ofRows cwd camera images videos).relabel f := by
  rw [ofRows, KindScan.ofRows_relabel hf, KindScan.ofRows_relabel hf]
  rfl

theorem merged_relabel (s : FolderScans β) :
    (s.relabel f).merged = s.merged.map (.relabel f) :=
  FolderMap.merge_relabel hf _ _

omit [DecidableEq β] [DecidableEq γ] hf in
theorem cameraBucket_relabel (s : FolderScans β) :
    (s.relabel f).cameraBucket = s.cameraBucket.map f := by
  obtain ⟨⟨_, camera, _, _⟩, _⟩ := s
  cases camera <;> rfl

theorem cameraSummary_relabel (s : FolderScans β) :
    (s.relabel f).cameraSummary = s.cameraSummary.map (.relabel f) := by
  rw [cameraSummary, cameraSummary, cameraBucket_relabel, merged_relabel hf]
  cases s.cameraBucket with
  | none => rfl
  | some b => exact FolderMap.get?_relabel hf b s.merged

theorem titled_relabel (s : FolderScans β) :
    (s.relabel f).titled = s.titled.map (.relabel f) := by
  rw [titled_eq, titled_eq, merged_relabel hf, List.filter_map, cameraBucket_relabel]
  refine congrArg (List.map _) (List.filter_congr fun t _ => ?_)
  have hcamera : s.cameraBucket.map f = some (f t.bucketId) ↔ s.cameraBucket = some t.bucketId :=
    (Option.map_injective hf).eq_iff (b := some t.bucketId)
  exact congrArg₂ (· && ·) Option.isSome_map (decide_eq_decide.2 (not_congr hcamera))

theorem allMedia_relabel (s : FolderScans β) (title : String) (normal : List Folder) :
    (s.relabel f).allMedia title normal = s.allMedia title normal := by
  have hcount : (s.relabel f).cameraSummary.map (·.count) = s.cameraSummary.map (·.count) := by
    rw [cameraSummary_relabel hf, Option.map_map]
    rfl
  rw [allMedia, hcount]
  rfl

end FolderScans

end Buckets

section Labels

variable [Label β] [Label γ] (hread : ∀ b, Label.read (f b) = Label.read b)
include hread

theorem Label.text?_relabel (b : β) : Label.text? (f b) = Label.text? b :=
  congrArg Except.toOption (hread b)

namespace FolderSummary

theorem toFolder_relabel (kind : FolderKind) (s : FolderSummary β) :
    (s.relabel f).toFolder kind = s.toFolder kind := by
  have htitle : (s.title.map f).bind Label.text? = s.title.bind Label.text? := by
    cases s.title with
    | none => rfl
    | some t => exact Label.text?_relabel hread t
  rw [toFolder, relabel, htitle, Label.text?_relabel hread]
  rfl

theorem isLegible_relabel (s : FolderSummary β) : (s.relabel f).isLegible = s.isLegible := by
  have htitle : (s.title.map f).all Label.isLegible = s.title.all Label.isLegible := by
    cases s.title with
    | none => rfl
    | some t => exact congrArg Option.isSome (Label.text?_relabel hread t)
  rw [isLegible, relabel, htitle, Label.isLegible, Label.text?_relabel hread]
  rfl

end FolderSummary

variable [DecidableEq β] [DecidableEq γ] (hf : Function.Injective f)
include hf

namespace FolderScans

variable (s : FolderScans β)

theorem cameraFolder_relabel : (s.relabel f).cameraFolder = s.cameraFolder := by
  rw [cameraFolder, cameraFolder, cameraSummary_relabel hf, Option.map_map]
  exact congrArg (Option.map · _) (funext (FolderSummary.toFolder_relabel hread .camera))

theorem normalFolders_relabel : (s.relabel f).normalFolders = s.normalFolders := by
  rw [normalFolders, normalFolders, titled_relabel hf, List.map_map]
  exact congrArg (fun g => (List.map g s.titled).mergeSort byTitle)
    (funext (FolderSummary.toFolder_relabel hread .normal))

theorem isLegible_relabel : (s.relabel f).isLegible = s.isLegible := by
  rw [isLegible, isLegible, titled_relabel hf, cameraSummary_relabel hf, List.all_map]
  have hsame : FolderSummary.isLegible ∘ FolderSummary.relabel f = FolderSummary.isLegible :=
    funext (FolderSummary.isLegible_relabel hread)
  rw [hsame]
  cases s.cameraSummary with
  | none => rfl
  | some t => exact congrArg (_ && ·) (t.isLegible_relabel hread)

end FolderScans

theorem FolderLister.listed_relabel {σ δ : Type} (l : FolderLister σ δ)
    (images videos : List (FolderRow β)) :
    l.listed (images.map (.relabel f)) (videos.map (.relabel f)) = l.listed images videos := by
  simp only [listed, allMediaFolder, scans, FolderScans.ofRows_relabel hf,
    FolderScans.cameraFolder_relabel hread hf, FolderScans.normalFolders_relabel hread hf,
    FolderScans.allMedia_relabel hf]

end Labels

end MediaCatalog
