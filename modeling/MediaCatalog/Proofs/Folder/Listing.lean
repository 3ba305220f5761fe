import MediaCatalog.Proofs.Act
import MediaCatalog.Proofs.Fate
import MediaCatalog.Proofs.Folder.Tally
import MediaCatalog.Proofs.StableSort

namespace MediaCatalog

open FolderScan

section Labels

variable {β : Type} [Label β]

def Label.isLegible (label : β) : Bool := (Label.text? label).isSome

theorem labelFlaws_eq_nil {name : String} {label : Option β} :
    labelFlaws name label = [] ↔ label.all Label.isLegible := by
  cases label with
  | none => simp [labelFlaws]
  | some l =>
      cases h : Label.read l <;>
        simp [labelFlaws, Label.isLegible, Label.text?, h, Except.toOption]

namespace FolderSummary

def isLegible (s : FolderSummary β) : Bool :=
  s.title.all Label.isLegible && Label.isLegible s.bucketId

def toFolder (kind : FolderKind) (s : FolderSummary β) : Folder :=
  { thumbnail := some s.thumbnail
    title := s.title.bind Label.text?
    itemCount := s.count
    bucketId := (Label.text? s.bucketId).getD ""
    kind }

theorem ends_folder (kind : FolderKind) (s : FolderSummary β) :
    Ends (·.cause = .refused) (.ofBool s.isLegible) (s.toFolder kind) (s.folder kind) := by
  have hflaws : labelFlaws "title" s.title ++ labelFlaws "bucket_id" (some s.bucketId) = [] ↔
      s.isLegible := by
    rw [List.append_eq_nil_iff, labelFlaws_eq_nil, labelFlaws_eq_nil, isLegible, Bool.and_eq_true]
    rfl
  rw [folder]
  split
  · rename_i hnil
    rw [hflaws.1 hnil]
    exact .answered _
  · rename_i hflaw
    rw [Bool.eq_false_iff.2 (mt hflaws.2 hflaw)]
    exact .refused _ rfl

@[simp] theorem isLegible_text (s : FolderSummary String) : s.isLegible = true := by
  cases h : s.title <;> simp [isLegible, Label.isLegible, Label.text?, Label.read,
    Except.toOption, h]

@[simp] theorem toFolder_title (kind : FolderKind) (s : FolderSummary String) :
    (s.toFolder kind).title = s.title :=
  Option.bind_fun_some s.title

end FolderSummary

end Labels

theorem byTitle_iff {f g : Folder} : byTitle f g ↔ titleKey f ≤ titleKey g := by
  rw [byTitle, Bool.not_eq_true', decide_eq_false_iff_not]
  exact String.not_lt

theorem byTitle_trans (f g h : Folder) : byTitle f g → byTitle g h → byTitle f h := by
  rw [byTitle_iff, byTitle_iff, byTitle_iff]
  exact String.le_trans

theorem byTitle_total (f g : Folder) : byTitle f g || byTitle g f := by
  rw [Bool.or_eq_true, byTitle_iff, byTitle_iff]
  exact String.le_total _ _

namespace FolderScan

/-- An entry that tells of its bucket: its title and thumbnail are those of the bucket's first row,
and it counts all rows of the bucket. -/
structure Describes (cwd : Path) (rows : List (FolderRow String)) (kind : FolderKind)
    (f : Folder) : Prop where
  kind_eq : f.kind = kind
  itemCount_eq : f.itemCount = rows.countP (FolderRow.inBucket f.bucketId)
  leading_eq : ∃ row, leading rows f.bucketId = some row ∧ f.title = row.title ∧
    f.thumbnail = some (Locator.ofPath cwd row.path)

theorem describes_toFolder {cwd : Path} {rows : List (FolderRow String)} {s : FolderSummary String}
    (h : summaryOf cwd rows s.bucketId = some s) (kind : FolderKind) :
    Describes cwd rows kind (s.toFolder kind) := by
  obtain ⟨row, hrow, hs⟩ := Option.map_eq_some_iff.1 h
  have hcount := congrArg FolderSummary.count hs
  have htitle := congrArg FolderSummary.title hs
  have hthumbnail := congrArg FolderSummary.thumbnail hs
  exact ⟨rfl, hcount.symm, row, hrow, (s.toFolder_title kind).trans htitle.symm,
    congrArg some hthumbnail.symm⟩

/-- By lower-cased title, and folders of one title by the first appearance of their buckets. -/
def Precedes (rows : List (FolderRow String)) (f g : Folder) : Prop :=
  titleKey f < titleKey g ∨
    titleKey f = titleKey g ∧ firstPlace rows f.bucketId < firstPlace rows g.bucketId

end FolderScan

namespace FolderScans

section Labels

variable {β : Type} [DecidableEq β] [Label β]

def ofRows (cwd : Path) (camera : String) (images videos : List (FolderRow β)) : FolderScans β :=
  ⟨KindScan.ofRows cwd camera images, KindScan.ofRows cwd camera videos⟩

def cameraFolder (s : FolderScans β) : Option Folder :=
  s.cameraSummary.map (FolderSummary.toFolder .camera)

def normalFolders (s : FolderScans β) : List Folder :=
  (s.titled.map (FolderSummary.toFolder .normal)).mergeSort byTitle

def isLegible (s : FolderScans β) : Bool :=
  s.titled.all FolderSummary.isLegible && s.cameraSummary.all FolderSummary.isLegible

theorem ends_listing (s : FolderScans β) (title : String) :
    Ends (·.cause = .refused) (.ofBool s.isLegible)
      (s.cameraFolder.toList ++ (s.allMedia title s.normalFolders).toList ++ s.normalFolders)
      (s.listing title) := by
  have hnormal : Ends (·.cause = .refused) (.ofBool (s.titled.all FolderSummary.isLegible))
      s.normalFolders s.normal :=
    (Ends.mapM (FolderSummary.ends_folder .normal) s.titled).map (List.mergeSort · byTitle)
  refine hnormal.and ?_
  rw [cameraFolder]
  cases s.cameraSummary with
  | none => exact .answered _
  | some t =>
      exact ((t.ends_folder .camera).map some).map fun camera =>
        Option.toList camera ++ (s.allMedia title s.normalFolders).toList ++ s.normalFolders

end Labels

/-- What two scans together know about all rows, images first. -/
structure Reflects (cwd : Path) (camera : String) (rows : List (FolderRow String))
    (s : FolderScans String) : Prop where
  tallies : Tallies cwd rows s.merged
  cameraBucket_eq : s.cameraBucket = FolderScan.cameraBucket camera rows

theorem ofRows_reflects (cwd : Path) (camera : String) (images videos : List (FolderRow String)) :
    (ofRows cwd camera images videos).Reflects cwd camera (images ++ videos) where
  tallies := by
    rw [merged, ofRows, KindScan.merge_folders]
    exact KindScan.tallies_ofRows cwd camera (images ++ videos)
  cameraBucket_eq := by
    rw [FolderScan.cameraBucket_append, ← FolderScan.cameraBucket_ofRows cwd,
      ← FolderScan.cameraBucket_ofRows cwd]
    simp only [cameraBucket, ofRows]
    cases (KindScan.ofRows cwd camera images).cameraBucket <;> rfl

theorem titled_eq {β : Type} [DecidableEq β] (s : FolderScans β) :
    s.titled =
      s.merged.filter fun t => t.title.isSome && decide (s.cameraBucket ≠ some t.bucketId) := by
  rw [titled]
  cases s.cameraBucket with
  | none => simp
  | some b => simp [FolderMap.remove, List.filter_filter, eq_comm]

theorem isLegible_text (s : FolderScans String) : s.isLegible = true := by
  rw [isLegible, List.all_eq_true.2 fun t _ => t.isLegible_text, Bool.true_and]
  cases s.cameraSummary with
  | none => rfl
  | some t => exact t.isLegible_text

theorem cameraSummary_mem {s : FolderScans String} {t : FolderSummary String}
    (ht : s.cameraSummary = some t) : t ∈ s.merged ∧ s.cameraBucket = some t.bucketId := by
  obtain ⟨b, hb, hfind⟩ := Option.bind_eq_some_iff.1 ht
  rw [FolderMap.get?] at hfind
  have htb : t.bucketId = b := by simpa using List.find?_some hfind
  exact ⟨List.mem_of_find?_eq_some hfind, htb ▸ hb⟩

theorem mem_normalFolders {s : FolderScans String} {f : Folder} :
    f ∈ s.normalFolders ↔ ∃ t ∈ s.merged, t.title.isSome ∧ s.cameraBucket ≠ some t.bucketId ∧
      t.toFolder .normal = f := by
  rw [normalFolders, List.mem_mergeSort, List.mem_map, titled_eq]
  simp only [List.mem_filter, Bool.and_eq_true, decide_eq_true_eq, and_assoc]

namespace Reflects

variable {cwd : Path} {camera : String} {rows : List (FolderRow String)} {s : FolderScans String}

theorem exists_of_occurs (h : s.Reflects cwd camera rows) {b : String} (hb : occurs rows b) :
    ∃ t ∈ s.merged, t.bucketId = b :=
  List.mem_map.1 ((h.tallies.mem_iff b).2 hb)

theorem cameraFolder_bucketId (h : s.Reflects cwd camera rows) :
    s.cameraFolder.map (·.bucketId) = FolderScan.cameraBucket camera rows := by
  rw [← h.cameraBucket_eq, cameraFolder, Option.map_map]
  cases hb : s.cameraBucket with
  | none => simp [cameraSummary, hb]
  | some b =>
      have hocc : occurs rows b := by
        rw [h.cameraBucket_eq] at hb
        exact occurs_of_cameraBucket hb
      obtain ⟨u, hu, hub⟩ := h.exists_of_occurs hocc
      have hfind : (s.merged.find? fun t => t.bucketId = b).isSome :=
        List.find?_isSome.2 ⟨u, hu, by simpa using hub⟩
      obtain ⟨t, ht⟩ := Option.isSome_iff_exists.1 hfind
      have hcamera : s.cameraSummary = some t := by rw [cameraSummary, hb]; exact ht
      have hsame := (cameraSummary_mem hcamera).2
      rw [hb] at hsame
      rw [hcamera, hsame]
      rfl

theorem describes_cameraFolder (h : s.Reflects cwd camera rows) {f : Folder}
    (hf : s.cameraFolder = some f) : Describes cwd rows .camera f := by
  obtain ⟨t, ht, rfl⟩ := Option.map_eq_some_iff.1 hf
  exact describes_toFolder (h.tallies.summary_eq t (cameraSummary_mem ht).1) .camera

theorem describes_of_mem_normal (h : s.Reflects cwd camera rows) {f : Folder}
    (hf : f ∈ s.normalFolders) : Describes cwd rows .normal f := by
  obtain ⟨t, ht, -, -, rfl⟩ := mem_normalFolders.1 hf
  exact describes_toFolder (h.tallies.summary_eq t ht) .normal

theorem exists_normal_iff (h : s.Reflects cwd camera rows) (b : String) :
    (∃ f ∈ s.normalFolders, f.bucketId = b) ↔
      FolderScan.cameraBucket camera rows ≠ some b ∧
        ∃ row, leading rows b = some row ∧ row.title.isSome := by
  constructor
  · rintro ⟨f, hf, rfl⟩
    obtain ⟨t, -, htitle, hcamera, rfl⟩ := mem_normalFolders.1 hf
    obtain ⟨row, hrow, hsame, -⟩ := (h.describes_of_mem_normal hf).leading_eq
    rw [h.cameraBucket_eq] at hcamera
    rw [FolderSummary.toFolder_title] at hsame
    exact ⟨hcamera, row, hrow, hsame ▸ htitle⟩
  · rintro ⟨hcamera, row, hrow, htitle⟩
    have hocc : occurs rows b := leading_isSome.1 (Option.isSome_iff_exists.2 ⟨row, hrow⟩)
    obtain ⟨t, ht, rfl⟩ := h.exists_of_occurs hocc
    have hsame : row.title = t.title := by
      have hsummary := h.tallies.summary_eq t ht
      rw [summaryOf, hrow] at hsummary
      exact congrArg FolderSummary.title (Option.some.inj hsummary)
    rw [← h.cameraBucket_eq] at hcamera
    exact ⟨t.toFolder .normal, mem_normalFolders.2 ⟨t, ht, hsame ▸ htitle, hcamera, rfl⟩, rfl⟩

theorem nodup_normalFolders (h : s.Reflects cwd camera rows) :
    (s.normalFolders.map (·.bucketId)).Nodup := by
  have hperm := (List.mergeSort_perm (s.titled.map (FolderSummary.toFolder .normal)) byTitle).map
    (·.bucketId)
  rw [normalFolders, hperm.nodup_iff, List.map_map]
  have hsub : (s.titled.map (·.bucketId)).Sublist s.merged.buckets := by
    rw [titled_eq]
    exact List.filter_sublist.map _
  exact hsub.nodup h.tallies.nodup

theorem normalFolders_precedes (h : s.Reflects cwd camera rows) :
    s.normalFolders.Pairwise (Precedes rows) := by
  have hplaces : (s.titled.map (FolderSummary.toFolder .normal)).Pairwise fun f g =>
      firstPlace rows f.bucketId < firstPlace rows g.bucketId := by
    rw [List.pairwise_map, titled_eq]
    exact h.tallies.ordered.filter _
  have hsorted := StableSort.pairwise_mergeSort byTitle_trans byTitle_total hplaces
  refine hsorted.imp fun {f g} ⟨hle, hplace⟩ => ?_
  rw [byTitle_iff] at hle hplace
  by_cases hlt : titleKey f < titleKey g
  · exact .inl hlt
  · have hge : titleKey g ≤ titleKey f := String.not_lt.1 hlt
    exact .inr ⟨String.le_antisymm hle hge, hplace hge⟩

end Reflects

def totalCount (folders : List Folder) : Int := (folders.map (·.itemCount)).foldr (· + ·) 0

theorem totalCount_cons (f : Folder) (folders : List Folder) :
    totalCount (f :: folders) = f.itemCount + totalCount folders := rfl

theorem allMedia_itemCount {s : FolderScans String} {title : String} {f : Folder}
    (hf : s.allMedia title s.normalFolders = some f) :
    f.itemCount = totalCount (s.cameraFolder.toList ++ s.normalFolders) := by
  obtain ⟨thumbnail, -, rfl⟩ := Option.map_eq_some_iff.1 hf
  rw [cameraFolder]
  cases s.cameraSummary with
  | none => exact Int.add_zero _
  | some t => exact Int.add_comm _ _

end FolderScans

namespace FolderLister

variable {σ : Type}

section Labels

variable {β : Type} [DecidableEq β] [Label β]

/-- Read access is given, and the index answers with these rows. -/
def Reads (l : FolderLister σ β) (r : Run σ) (images videos : List (FolderRow β)) : Prop :=
  ∃ r₁ r₂ r₃, l.hasReadAccess.exec r = (.ok true, r₁) ∧
    (l.index.folders .image).exec r₁ = (.ok images, r₂) ∧
    (l.index.folders .video).exec r₂ = (.ok videos, r₃)

section Rows

variable {γ : Type} [DecidableEq γ] [Label γ]

def scans (l : FolderLister σ β) (images videos : List (FolderRow γ)) : FolderScans γ :=
  FolderScans.ofRows l.cwd l.camera images videos

def allMediaFolder (l : FolderLister σ β) (images videos : List (FolderRow γ)) : Option Folder :=
  (l.scans images videos).allMedia l.allMediaTitle (l.scans images videos).normalFolders

/-- What the lister answers when it can read these rows. -/
def listed (l : FolderLister σ β) (images videos : List (FolderRow γ)) : List Folder :=
  (l.scans images videos).cameraFolder.toList ++ (l.allMediaFolder images videos).toList ++
    (l.scans images videos).normalFolders

end Rows

theorem listRows_exec {l : FolderLister σ β} {r r' r'' : Run σ}
    {images videos : Except Failure (List (FolderRow β))}
    (himages : (l.index.folders .image).exec r = (images, r'))
    (hvideos : (l.index.folders .video).exec r' = (videos, r'')) :
    (l.listRows.exec r).1 = images >>= fun images => videos >>= fun videos =>
      (l.scans images videos).listing l.allMediaTitle := by
  rw [listRows, Act.exec_bind, himages]
  cases images with
  | error f => rfl
  | ok images =>
      dsimp only
      rw [Act.exec_bind, hvideos]
      cases videos with
      | error f => rfl
      | ok videos =>
          dsimp only
          rw [Act.exec_bind, Act.exec_ofExcept]
          change _ = (l.scans images videos).listing l.allMediaTitle
          rw [scans, FolderScans.ofRows]
          cases FolderScans.listing (β := β) _ l.allMediaTitle <;> rfl

theorem lists_list {l : FolderLister σ β} {r r₁ r₂ r₃ : Run σ} {refusal : Failure → Prop}
    {fate fate' : Fate} {images videos : List (FolderRow β)} {imagesOut videosOut}
    (haccess : l.hasReadAccess.exec r = (.ok true, r₁))
    (himages : (l.index.folders .image).exec r₁ = (imagesOut, r₂))
    (hvideos : (l.index.folders .video).exec r₂ = (videosOut, r₃))
    (hi : Ends refusal fate images imagesOut) (hv : Ends refusal fate' videos videosOut)
    (hrefusal : ∀ f, refusal f → f.cause ≠ .indexQuery)
    (hrefused : ∀ f, f.cause = .refused → refusal f) :
    Lists refusal (fate.next (fate'.next (.ofBool (l.scans images videos).isLegible)))
      (l.listed images videos) (l.list.exec r).1 := by
  rw [list, Act.exec_bind_ok haccess, if_pos rfl]
  refine .of_recover ?_ (fun f => beq_iff_eq) hrefusal fun f q => rfl
  rw [listRows_exec himages hvideos]
  exact hi.bind (hv.bind (((l.scans images videos).ends_listing _).mono hrefused))

theorem lists_of_reads {l : FolderLister σ β} {r : Run σ} {images videos : List (FolderRow β)}
    (h : l.Reads r images videos) :
    Lists (·.cause = .refused) (.ofBool (l.scans images videos).isLegible)
      (l.listed images videos) (l.list.exec r).1 := by
  obtain ⟨r₁, r₂, r₃, haccess, himages, hvideos⟩ := h
  refine lists_list haccess himages hvideos (.answered _) (.answered _) ?_ fun _ hf => hf
  intro f hf hq
  cases hf.symm.trans hq

end Labels

theorem scans_reflects {β : Type} (l : FolderLister σ β) (images videos : List (FolderRow String)) :
    (l.scans images videos).Reflects l.cwd l.camera (images ++ videos) :=
  FolderScans.ofRows_reflects l.cwd l.camera images videos

theorem list_exec {l : FolderLister σ String} {r : Run σ} {images videos : List (FolderRow String)}
    (h : l.Reads r images videos) : (l.list.exec r).1 = .ok (l.listed images videos) := by
  have hlists := lists_of_reads h
  rw [FolderScans.isLegible_text] at hlists
  exact hlists.eq_ok

def holding (images videos : List (FolderRow String)) : FolderLister σ String where
  index := ⟨fun | .image => pure images | .video => pure videos, fun _ _ => pure []⟩
  hasReadAccess := pure true
  camera := "/m/camera"
  cwd := ⟨.slash, []⟩
  allMediaTitle := "All media"

theorem holding_reads (images videos : List (FolderRow String)) (r : Run σ) :
    (holding images videos).Reads r images videos :=
  ⟨r, r, r, rfl, rfl, rfl⟩

def sampleImages : List (FolderRow String) :=
  [⟨"/m/b/1.jpg", some "b", some "B", 4⟩, ⟨"/m/x/2.jpg", some "x", none, 9⟩,
    ⟨"/m/camera/3.jpg", some "c", none, 6⟩, ⟨"/m/4.jpg", none, some "b", 8⟩]

def sampleVideos : List (FolderRow String) :=
  [⟨"/m/a/5.mp4", some "a", some "a", 3⟩, ⟨"/m/b/6.mp4", some "b", some "b", 7⟩]

end FolderLister

end MediaCatalog
