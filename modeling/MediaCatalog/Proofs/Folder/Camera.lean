import MediaCatalog.Proofs.Folder.Cover
import MediaCatalog.Proofs.Path.Prefix

namespace MediaCatalog

namespace FolderRow

variable {β : Type} (camera : String) (row : FolderRow β)

def IsInside : Prop := (Path.ofString row.path).IsBelow (Path.ofString camera)

/-- The path is the directory itself, or has a longer name in place of the directory's. -/
def IsBeside : Prop :=
  Path.ofString row.path = Path.ofString camera ∨
    (Path.ofString row.path).ExtendsName (Path.ofString camera)

end FolderRow

namespace FolderScan

variable {β : Type} {camera : String} {rows : List (FolderRow β)} {row : FolderRow β}

theorem isCamera_iff (hcamera : Path.IsAbsoluteText camera)
    (hne : (Path.ofString camera).parts ≠ []) (hrow : Path.IsAbsoluteText row.path) :
    isCamera camera row ↔ IsBucketed row ∧ (row.IsInside camera ∨ row.IsBeside camera) := by
  rw [isCamera, Bool.and_eq_true, Path.isPrefixOf_iff hcamera hrow hne, FolderRow.IsInside,
    FolderRow.IsBeside, IsBucketed, or_left_comm]

theorem cameraBucket_eq_some {b : β} (h : cameraBucket camera rows = some b) :
    ∃ before row behind, rows = before ++ row :: behind ∧ row.bucketId = some b ∧
      isCamera camera row ∧ ∀ x ∈ before, ¬ isCamera camera x := by
  obtain ⟨row, hfind, hb⟩ := Option.bind_eq_some_iff.1 h
  obtain ⟨hrow, before, behind, hsplit, hbefore⟩ := List.find?_eq_some_iff_append.1 hfind
  refine ⟨before, row, behind, hsplit, hb, hrow, fun x hx hxc => ?_⟩
  have hnot := hbefore x hx
  rw [hxc] at hnot
  exact absurd hnot (by decide)

end FolderScan

namespace FolderLister

open FolderScan

variable {σ : Type} {l : FolderLister σ String} {r : Run σ}
  {images videos : List (FolderRow String)}

theorem mem_listed_camera {f : Folder} :
    f ∈ l.listed images videos ∧ f.kind = .camera ↔
      (l.scans images videos).cameraFolder = some f := by
  have hs := l.scans_reflects images videos
  rw [listed, List.mem_append, List.mem_append, Option.mem_toList, Option.mem_toList]
  constructor
  · rintro ⟨(hf | hf) | hf, hkind⟩
    · exact hf
    · obtain ⟨_, -, rfl⟩ := Option.map_eq_some_iff.1 hf
      cases hkind
    · rw [(hs.describes_of_mem_normal hf).kind_eq] at hkind
      cases hkind
  · intro hf
    exact ⟨.inl (.inl hf), (hs.describes_cameraFolder hf).kind_eq⟩

theorem exists_camera_iff : (∃ f ∈ l.listed images videos, f.kind = .camera) ↔
    ∃ row ∈ images ++ videos, isCamera l.camera row := by
  rw [← cameraBucket_isSome, ← (l.scans_reflects images videos).cameraFolder_bucketId,
    Option.isSome_map, Option.isSome_iff_exists]
  exact exists_congr fun f => mem_listed_camera

theorem cameraBucket_of_mem {f : Folder} (hf : f ∈ l.listed images videos)
    (hkind : f.kind = .camera) :
    FolderScan.cameraBucket l.camera (images ++ videos) = some f.bucketId := by
  rw [← (l.scans_reflects images videos).cameraFolder_bucketId, mem_listed_camera.1 ⟨hf, hkind⟩]
  rfl

/-- There is a camera's folder if some row of a bucket lies below the camera's directory, or beside
it under a name that goes on, and its bucket is that of the first such row, images before videos.
So it has a row below the directory as long as no bucket has one beside it. -/
theorem list_camera_iff (h : l.Reads r images videos) (hcamera : Path.IsAbsoluteText l.camera)
    (hne : (Path.ofString l.camera).parts ≠ [])
    (hrows : ∀ row ∈ images ++ videos, Path.IsAbsoluteText row.path) :
    ∃ folders, (l.list.exec r).1 = .ok folders ∧
      ((∃ f ∈ folders, f.kind = .camera) ↔ ∃ row ∈ images ++ videos, IsBucketed row ∧
        (row.IsInside l.camera ∨ row.IsBeside l.camera)) ∧
      (∀ f ∈ folders, f.kind = .camera → ∃ before row behind,
        images ++ videos = before ++ row :: behind ∧ row.bucketId = some f.bucketId ∧
        (row.IsInside l.camera ∨ row.IsBeside l.camera) ∧
        ∀ x ∈ before, IsBucketed x → ¬ x.IsInside l.camera ∧ ¬ x.IsBeside l.camera) ∧
      ((∀ row ∈ images ++ videos, IsBucketed row → ¬ row.IsBeside l.camera) →
        ∀ f ∈ folders, f.kind = .camera →
          ∃ row ∈ images ++ videos, row.bucketId = some f.bucketId ∧ row.IsInside l.camera) := by
  have hiff : ∀ row ∈ images ++ videos, isCamera l.camera row ↔
      IsBucketed row ∧ (row.IsInside l.camera ∨ row.IsBeside l.camera) :=
    fun row hrow => isCamera_iff hcamera hne (hrows row hrow)
  have hfirst : ∀ f ∈ l.listed images videos, f.kind = .camera → ∃ before row behind,
      images ++ videos = before ++ row :: behind ∧ row.bucketId = some f.bucketId ∧
      (row.IsInside l.camera ∨ row.IsBeside l.camera) ∧
      ∀ x ∈ before, IsBucketed x → ¬ x.IsInside l.camera ∧ ¬ x.IsBeside l.camera := by
    intro f hf hkind
    obtain ⟨before, row, behind, hsplit, hb, hrow, hbefore⟩ :=
      cameraBucket_eq_some (cameraBucket_of_mem hf hkind)
    have hmem : row ∈ images ++ videos := by simp [hsplit]
    refine ⟨before, row, behind, hsplit, hb, ((hiff row hmem).1 hrow).2, fun x hx hbucket => ?_⟩
    have hxmem : x ∈ images ++ videos := by simp [hsplit, hx]
    have hnot := mt (hiff x hxmem).2 (hbefore x hx)
    exact not_or.1 fun hplace => hnot ⟨hbucket, hplace⟩
  refine ⟨l.listed images videos, list_exec h, ?_, hfirst, ?_⟩
  · rw [exists_camera_iff]
    exact exists_congr fun row => and_congr_right (hiff row)
  · intro hbeside f hf hkind
    obtain ⟨before, row, behind, hsplit, hb, hplace, -⟩ := hfirst f hf hkind
    have hmem : row ∈ images ++ videos := by simp [hsplit]
    have hbucket : IsBucketed row := by simp [IsBucketed, hb]
    exact ⟨row, hmem, hb, hplace.resolve_right (hbeside row hmem hbucket)⟩

def cameraPicture : FolderRow String := ⟨"/m/camera/1.jpg", some "c", none, 3⟩

def otherPicture : FolderRow String := ⟨"/m/cam/2.jpg", some "d", some "D", 5⟩

def besidePicture : FolderRow String := ⟨"/m/camera2/3.jpg", some "a", some "A", 4⟩

theorem cameraPicture_isInside : cameraPicture.IsInside "/m/camera" :=
  ⟨["1.jpg"], by decide, by decide⟩

theorem list_camera_sample :
    (holding [otherPicture, cameraPicture] []).Reads (⟨(), []⟩ : Run Unit)
        [otherPicture, cameraPicture] [] ∧ Path.IsAbsoluteText "/m/camera" ∧
      (Path.ofString "/m/camera").parts ≠ [] ∧
      (∀ row ∈ [otherPicture, cameraPicture] ++ [], Path.IsAbsoluteText row.path) ∧
      ∃ folders, ((holding [otherPicture, cameraPicture] []).list.exec (⟨(), []⟩ : Run Unit)).1 =
          .ok folders ∧
        ∃ f ∈ folders, f.kind = .camera ∧ ∃ row ∈ [otherPicture, cameraPicture],
          row.bucketId = some f.bucketId ∧ row.IsInside "/m/camera" := by
  have hreads := holding_reads [otherPicture, cameraPicture] [] (⟨(), []⟩ : Run Unit)
  have hcamera : Path.IsAbsoluteText "/m/camera" := by decide
  have hne : (Path.ofString "/m/camera").parts ≠ [] := by decide
  have hrows : ∀ row ∈ [otherPicture, cameraPicture] ++ [], Path.IsAbsoluteText row.path := by
    decide
  have hbeside : ∀ row ∈ [otherPicture, cameraPicture] ++ [], IsBucketed row →
      ¬ row.IsBeside "/m/camera" := by
    intro row hrow _ hrow'
    rcases List.mem_cons.1 hrow with rfl | hrow
    · have htaken := (isCamera_iff hcamera hne (hrows _ List.mem_cons_self)).2 ⟨rfl, .inr hrow'⟩
      exact absurd htaken (by decide)
    · obtain rfl := List.mem_singleton.1 hrow
      rcases hrow' with hsame | hgoes
      · exact absurd hsame (by decide)
      · exact cameraPicture_isInside.not_extendsName hgoes
  obtain ⟨folders, hlist, hexists, -, hinside⟩ := list_camera_iff hreads hcamera hne hrows
  obtain ⟨f, hf, hkind⟩ :=
    hexists.2 ⟨cameraPicture, by simp, rfl, .inl cameraPicture_isInside⟩
  exact ⟨hreads, hcamera, hne, hrows, folders, hlist, f, hf, hkind,
    hinside hbeside f hf hkind⟩

/-- A directory beside the camera's, whose name goes on, gives the camera's folder. -/
theorem list_camera_beside :
    (holding [besidePicture] []).Reads (⟨(), []⟩ : Run Unit) [besidePicture] [] ∧
      Path.IsAbsoluteText "/m/camera" ∧ Path.IsAbsoluteText besidePicture.path ∧
      ∃ folders, ((holding [besidePicture] []).list.exec (⟨(), []⟩ : Run Unit)).1 = .ok folders ∧
        (∃ f ∈ folders, f.kind = .camera ∧ f.bucketId = "a") ∧
        ∀ row ∈ [besidePicture], ¬ row.IsInside "/m/camera" := by
  have hreads := holding_reads [besidePicture] [] (⟨(), []⟩ : Run Unit)
  let l : FolderLister Unit String := holding [besidePicture] []
  have hexists : (∃ f ∈ l.listed [besidePicture] [], f.kind = .camera) ↔ _ := exists_camera_iff
  refine ⟨hreads, by decide, by decide, _, list_exec hreads, ?_, ?_⟩
  · obtain ⟨f, hf, hkind⟩ := hexists.2 ⟨besidePicture, List.mem_cons_self, by decide⟩
    have hfirst : cameraBucket "/m/camera" [besidePicture] = some "a" := by decide
    have hbucket := hfirst.symm.trans (cameraBucket_of_mem hf hkind)
    exact ⟨f, hf, hkind, (Option.some.inj hbucket).symm⟩
  · intro row hrow
    obtain rfl := List.mem_singleton.1 hrow
    rintro ⟨rest, -, hrest⟩
    have hparts : ["m", "camera2", "3.jpg"] = ["m", "camera"] ++ rest := congrArg Path.parts hrest
    exact absurd (List.cons.inj (List.cons.inj hparts).2).1 (by decide)

end FolderLister

end MediaCatalog
