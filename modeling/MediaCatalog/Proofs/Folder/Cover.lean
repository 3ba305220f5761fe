import MediaCatalog.Proofs.Folder.Listing

namespace MediaCatalog

namespace FolderScan

variable {β : Type}

def IsBucketed (row : FolderRow β) : Prop := row.bucketId.isSome

/-- The first of the newest rows that belong to a bucket. -/
def FirstNewest (rows : List (FolderRow β)) (row : FolderRow β) : Prop :=
  ∃ before behind, rows = before ++ row :: behind ∧ IsBucketed row ∧
    (∀ x ∈ before, IsBucketed x → x.takenAt < row.takenAt) ∧
    ∀ x ∈ behind, IsBucketed x → x.takenAt ≤ row.takenAt

namespace FirstNewest

variable {rows more : List (FolderRow β)} {row x : FolderRow β}

theorem isBucketed (h : FirstNewest rows row) : IsBucketed row := by
  obtain ⟨before, behind, -, hrow, -⟩ := h
  exact hrow

theorem mem (h : FirstNewest rows row) : row ∈ rows := by
  obtain ⟨before, behind, rfl, -⟩ := h
  exact List.mem_append_right before List.mem_cons_self

theorem le_of_mem (h : FirstNewest rows row) (hx : x ∈ rows) (hb : IsBucketed x) :
    x.takenAt ≤ row.takenAt := by
  obtain ⟨before, behind, rfl, -, hbefore, hbehind⟩ := h
  rcases List.mem_append.1 hx with hx | hx
  · exact Int.le_of_lt (hbefore x hx hb)
  · rcases List.mem_cons.1 hx with rfl | hx
    · exact Int.le_refl _
    · exact hbehind x hx hb

theorem append (h : FirstNewest rows row)
    (hmore : ∀ x ∈ more, IsBucketed x → x.takenAt ≤ row.takenAt) :
    FirstNewest (rows ++ more) row := by
  obtain ⟨before, behind, rfl, hrow, hbefore, hbehind⟩ := h
  refine ⟨before, behind ++ more, by simp, hrow, hbefore, fun x hx hb => ?_⟩
  rcases List.mem_append.1 hx with hx | hx
  · exact hbehind x hx hb
  · exact hmore x hx hb

theorem prepend (h : FirstNewest more row)
    (hrows : ∀ x ∈ rows, IsBucketed x → x.takenAt < row.takenAt) :
    FirstNewest (rows ++ more) row := by
  obtain ⟨before, behind, rfl, hrow, hbefore, hbehind⟩ := h
  refine ⟨rows ++ before, behind, by simp, hrow, fun x hx hb => ?_, hbehind⟩
  rcases List.mem_append.1 hx with hx | hx
  · exact hrows x hx hb
  · exact hbefore x hx hb

theorem singleton (h : IsBucketed row) : FirstNewest [row] row :=
  ⟨[], [], rfl, h, by simp, by simp⟩

end FirstNewest

/-- What a scan knows of the newest row; without rows the time is zero. -/
inductive Shows (cwd : Path) (rows : List (FolderRow β)) : Option String → Int → Prop
  | nothing (h : ∀ row ∈ rows, ¬ IsBucketed row) : Shows cwd rows none 0
  | newest {row : FolderRow β} (h : FirstNewest rows row) :
      Shows cwd rows (some (Locator.ofPath cwd row.path)) row.takenAt

namespace Shows

variable {cwd : Path} {rows : List (FolderRow β)} {row : FolderRow β} {thumbnail : Option String}
  {takenAt : Int}

theorem skip (h : Shows cwd rows thumbnail takenAt) (hrow : ¬ IsBucketed row) :
    Shows cwd (rows ++ [row]) thumbnail takenAt := by
  cases h with
  | nothing hnone =>
      refine .nothing fun x hx => ?_
      rcases List.mem_append.1 hx with hx | hx
      · exact hnone x hx
      · exact List.mem_singleton.1 hx ▸ hrow
  | newest hnewest =>
      refine .newest (hnewest.append fun x hx hb => ?_)
      exact absurd hb (List.mem_singleton.1 hx ▸ hrow)

theorem advance (h : Shows cwd rows thumbnail takenAt) (hrow : IsBucketed row) :
    Shows cwd (rows ++ [row])
      (if thumbnail.isNone || takenAt < row.takenAt then some (Locator.ofPath cwd row.path)
        else thumbnail)
      (if thumbnail.isNone || takenAt < row.takenAt then row.takenAt else takenAt) := by
  cases h with
  | nothing hnone =>
      exact .newest ((FirstNewest.singleton hrow).prepend fun x hx hb => absurd hb (hnone x hx))
  | @newest old hnewest =>
      by_cases hlt : old.takenAt < row.takenAt
      · simp only [hlt, decide_true, Bool.or_true, if_true]
        refine .newest ((FirstNewest.singleton hrow).prepend fun x hx hb => ?_)
        exact Int.lt_of_le_of_lt (hnewest.le_of_mem hx hb) hlt
      · simp only [hlt, decide_false, Option.isNone_some, Bool.or_false, Bool.false_eq_true,
          if_false]
        refine .newest (hnewest.append fun x hx _ => ?_)
        exact Int.not_lt.1 (List.mem_singleton.1 hx ▸ hlt)

end Shows

end FolderScan

namespace KindScan

open FolderScan

variable {β : Type} [DecidableEq β] {cwd : Path} {camera : String}

theorem shows_step {rows : List (FolderRow β)} {scan : KindScan β}
    (h : Shows cwd rows scan.thumbnail scan.thumbnailTakenAt) (row : FolderRow β) :
    Shows cwd (rows ++ [row]) (step cwd camera scan row).thumbnail
      (step cwd camera scan row).thumbnailTakenAt := by
  cases hrow : row.bucketId with
  | none =>
      rw [step_of_none _ hrow]
      exact h.skip (by simp [IsBucketed, hrow])
  | some b =>
      rw [step, hrow]
      exact h.advance (by simp [IsBucketed, hrow])

theorem shows_ofRows (cwd : Path) (camera : String) (rows : List (FolderRow β)) :
    Shows cwd rows (ofRows cwd camera rows).thumbnail
      (ofRows cwd camera rows).thumbnailTakenAt := by
  induction rows using List.reverseRecOn with
  | nil => exact .nothing (by simp)
  | append_singleton rows row ih =>
      rw [ofRows_concat]
      exact shows_step ih row

end KindScan

namespace FolderScan

/-- Every row that belongs to a bucket is an image from before the epoch. -/
def OnlyBeforeEpoch {β : Type} (images videos : List (FolderRow β)) : Prop :=
  (∀ row ∈ images, IsBucketed row → row.takenAt < 0) ∧ ∀ row ∈ videos, ¬ IsBucketed row

variable {β : Type} {cwd : Path} {images videos : List (FolderRow β)} {i v : KindScan β}

theorem pickThumbnail_cases (hi : Shows cwd images i.thumbnail i.thumbnailTakenAt)
    (hv : Shows cwd videos v.thumbnail v.thumbnailTakenAt) :
    (pickThumbnail i v = none ∧ OnlyBeforeEpoch images videos) ∨
      ∃ row, FirstNewest (images ++ videos) row ∧
        pickThumbnail i v = some (Locator.ofPath cwd row.path) ∧
        ¬ OnlyBeforeEpoch images videos := by
  obtain ⟨_, _, _, _⟩ := i
  obtain ⟨_, _, _, _⟩ := v
  cases hi with
  | nothing hi =>
      cases hv with
      | nothing hv => exact .inl ⟨rfl, fun x hx hb => absurd hb (hi x hx), hv⟩
      | @newest video hv =>
          have hnewest := hv.prepend fun x hx hb => absurd hb (hi x hx)
          exact .inr ⟨video, hnewest, rfl, fun h => h.2 video hv.mem hv.isBucketed⟩
  | @newest image hi =>
      cases hv with
      | nothing hv =>
          -- the images are compared with the zero of a scan that saw no row
          by_cases hlt : image.takenAt < 0
          · have hlost : OnlyBeforeEpoch images videos :=
              ⟨fun x hx hb => Int.lt_of_le_of_lt (hi.le_of_mem hx hb) hlt, hv⟩
            exact .inl ⟨by simp [pickThumbnail, hlt], hlost⟩
          · have hnewest := hi.append fun x hx hb => absurd hb (hv x hx)
            exact .inr ⟨image, hnewest, by simp [pickThumbnail, hlt],
              fun h => hlt (h.1 image hi.mem hi.isBucketed)⟩
      | @newest video hv =>
          have hkept : ¬ OnlyBeforeEpoch images videos := fun h => h.2 video hv.mem hv.isBucketed
          by_cases hlt : image.takenAt < video.takenAt
          · have hnewest := hv.prepend fun x hx hb =>
              Int.lt_of_le_of_lt (hi.le_of_mem hx hb) hlt
            exact .inr ⟨video, hnewest, by simp [pickThumbnail, hlt], hkept⟩
          · have hnewest := hi.append fun x hx hb =>
              Int.le_trans (hv.le_of_mem hx hb) (Int.not_lt.1 hlt)
            exact .inr ⟨image, hnewest, by simp [pickThumbnail, hlt], hkept⟩

end FolderScan

namespace FolderLister

open FolderScan

variable {σ : Type}

def allMediaEntries (folders : List Folder) : List Folder :=
  folders.filter fun f => f.kind = .allMedia

theorem allMediaEntries_of_kind {folders : List Folder} (kind : FolderKind)
    (hkind : kind ≠ .allMedia) (h : ∀ f ∈ folders, f.kind = kind) :
    allMediaEntries folders = [] := by
  refine List.filter_eq_nil_iff.2 fun f hf hall => hkind ?_
  rw [← h f hf]
  exact of_decide_eq_true hall

theorem allMediaEntries_listed {β : Type} (l : FolderLister σ β)
    (images videos : List (FolderRow String)) :
    allMediaEntries (l.listed images videos) = (l.allMediaFolder images videos).toList := by
  have hs := l.scans_reflects images videos
  have hcamera := allMediaEntries_of_kind .camera (by decide)
    fun f hf => (hs.describes_cameraFolder (Option.mem_toList.1 hf)).kind_eq
  have hnormal := allMediaEntries_of_kind .normal (by decide)
    fun f hf => (hs.describes_of_mem_normal hf).kind_eq
  have hall : allMediaEntries (l.allMediaFolder images videos).toList =
      (l.allMediaFolder images videos).toList := by
    refine List.filter_eq_self.2 fun f hf => ?_
    obtain ⟨_, -, rfl⟩ := Option.map_eq_some_iff.1 (Option.mem_toList.1 hf)
    rfl
  rw [listed, allMediaEntries, List.filter_append, List.filter_append]
  rw [allMediaEntries] at hcamera hnormal hall
  rw [hcamera, hall, hnormal, List.nil_append, List.append_nil]

theorem allMediaFolder_cases {β : Type} (l : FolderLister σ β)
    (images videos : List (FolderRow String)) :
    (l.allMediaFolder images videos = none ∧ OnlyBeforeEpoch images videos) ∨
      ∃ f row, l.allMediaFolder images videos = some f ∧ FirstNewest (images ++ videos) row ∧
        f.thumbnail = some (Locator.ofPath l.cwd row.path) ∧
        ¬ OnlyBeforeEpoch images videos := by
  rw [allMediaFolder, FolderScans.allMedia, scans, FolderScans.ofRows]
  rcases pickThumbnail_cases (KindScan.shows_ofRows l.cwd l.camera images)
    (KindScan.shows_ofRows l.cwd l.camera videos) with ⟨hpick, hlost⟩ | ⟨row, hrow, hpick, hkept⟩
  · exact .inl ⟨congrArg (Option.map _) hpick, hlost⟩
  · exact .inr ⟨_, row, congrArg (Option.map _) hpick, hrow, rfl, hkept⟩

theorem allMediaFolder_isSome {β : Type} (l : FolderLister σ β)
    (images videos : List (FolderRow String)) :
    (l.allMediaFolder images videos).isSome ↔
      (∃ row ∈ images ++ videos, IsBucketed row) ∧ ¬ OnlyBeforeEpoch images videos := by
  rcases l.allMediaFolder_cases images videos with ⟨hnone, hlost⟩ | ⟨f, row, hf, hrow, -, hkept⟩
  · rw [hnone]
    exact iff_of_false Bool.false_ne_true fun h => h.2 hlost
  · rw [hf]
    exact iff_of_true rfl ⟨⟨row, hrow.mem, hrow.isBucketed⟩, hkept⟩

theorem allMediaFolder_thumbnail {β : Type} {l : FolderLister σ β}
    {images videos : List (FolderRow String)} {f : Folder}
    (hf : l.allMediaFolder images videos = some f) :
    ∃ row, FirstNewest (images ++ videos) row ∧
      f.thumbnail = some (Locator.ofPath l.cwd row.path) := by
  rcases l.allMediaFolder_cases images videos with ⟨hnone, -⟩ | ⟨g, row, hg, hrow, hthumbnail, -⟩
  · rw [hnone] at hf
    cases hf
  · obtain rfl : g = f := Option.some.inj (hg.symm.trans hf)
    exact ⟨row, hrow, hthumbnail⟩

/-- The folder of all media is listed once if some row belongs to a bucket, unless all such rows are
images from before the epoch. It shows the newest of them, the first one among equals. -/
theorem list_allMedia (l : FolderLister σ String) (r : Run σ)
    (images videos : List (FolderRow String)) (h : l.Reads r images videos) :
    ∃ folders, (l.list.exec r).1 = .ok folders ∧
      ((allMediaEntries folders).length = 1 ↔
        (∃ row ∈ images ++ videos, IsBucketed row) ∧ ¬ OnlyBeforeEpoch images videos) ∧
      (allMediaEntries folders).length ≤ 1 ∧
      ∀ f ∈ allMediaEntries folders, ∃ row, FirstNewest (images ++ videos) row ∧
        f.thumbnail = some (Locator.ofPath l.cwd row.path) := by
  refine ⟨l.listed images videos, list_exec h, ?_⟩
  rw [allMediaEntries_listed, ← l.allMediaFolder_isSome]
  exact ⟨Option.length_toList_eq_one_iff, Option.length_toList_le,
    fun f hf => allMediaFolder_thumbnail (Option.mem_toList.1 hf)⟩

/-- A picture from before the epoch shows while a video stands beside it. -/
theorem list_allMedia_sample :
    ∃ folders, ((holding [⟨"/m/1.jpg", some "a", none, -5⟩]
        [⟨"/m/2.mp4", some "a", none, -9⟩]).list.exec (⟨(), []⟩ : Run Unit)).1 = .ok folders ∧
      (allMediaEntries folders).length = 1 := by
  obtain ⟨folders, hlist, hone, -⟩ := list_allMedia (holding [⟨"/m/1.jpg", some "a", none, -5⟩]
    [⟨"/m/2.mp4", some "a", none, -9⟩]) ⟨(), []⟩ _ _ (holding_reads _ _ _)
  refine ⟨folders, hlist, hone.2 ⟨⟨_, List.mem_cons_self, rfl⟩, fun hlost => ?_⟩⟩
  exact hlost.2 _ List.mem_cons_self rfl

/-- One picture from before the epoch is listed with its folder, but not the folder of all media. -/
theorem list_without_allMedia :
    ∃ folders, ((holding [⟨"/m/1.jpg", some "a", some "A", -5⟩] []).list.exec
        (⟨(), []⟩ : Run Unit)).1 = .ok folders ∧
      (∃ f ∈ folders, f.bucketId = "a") ∧ allMediaEntries folders = [] := by
  let images : List (FolderRow String) := [⟨"/m/1.jpg", some "a", some "A", -5⟩]
  let l : FolderLister Unit String := holding images []
  have hs := l.scans_reflects images []
  have hlost : OnlyBeforeEpoch images [] := by simp [OnlyBeforeEpoch, images]
  have hnone := mt (l.allMediaFolder_isSome images []).1 fun h => h.2 hlost
  refine ⟨_, list_exec (holding_reads images [] _), ?_, ?_⟩
  · obtain ⟨f, hf, hb⟩ := (hs.exists_normal_iff "a").2 ⟨by decide, _, rfl, rfl⟩
    exact ⟨f, List.mem_append_right _ hf, hb⟩
  · rw [allMediaEntries_listed, Option.not_isSome_iff_eq_none.1 hnone]
    rfl

end FolderLister

end MediaCatalog
