import MediaCatalog.Item.Listing
import MediaCatalog.Proofs.Fate
import MediaCatalog.Proofs.StableSort

namespace MediaCatalog

section Order

variable {i j : Item} {source items others : List Item}

theorem isNewer_iff : isNewer i j ↔ j.takenAt ≤ i.takenAt := decide_eq_true_iff

/-- The same items, newest first; equally new ones keep their order. -/
structure IsNewestFirst (source items : List Item) : Prop where
  perm : items.Perm source
  ordered : items.Pairwise fun i j => j.takenAt ≤ i.takenAt
  stable : ∀ t, items.filter (·.takenAt = t) = source.filter (·.takenAt = t)

theorem IsNewestFirst.unique (h : IsNewestFirst source items) (h' : IsNewestFirst source others) :
    others = items := by
  refine StableSort.eq_of_filter_key (StableSort.eq_of_descending Item.takenAt) ?_ ?_ fun t => ?_
  · exact h'.ordered.imp isNewer_iff.2
  · exact h.ordered.imp isNewer_iff.2
  · exact (h'.stable t).trans (h.stable t).symm

theorem isNewestFirst_newestFirst (images videos : List Item) :
    IsNewestFirst (images ++ videos) (newestFirst images videos) where
  perm := List.mergeSort_perm _ _
  ordered := (List.pairwise_mergeSort (StableSort.descending_trans Item.takenAt)
    (StableSort.descending_total _) _).imp isNewer_iff.1
  stable t := StableSort.filter_key_mergeSort (StableSort.descending_trans Item.takenAt)
    (StableSort.descending_total _) (StableSort.descending_of_eq _) t _

theorem newestFirst_eq_merge {images videos : List Item}
    (himages : images.Pairwise fun i j => j.takenAt ≤ i.takenAt)
    (hvideos : videos.Pairwise fun i j => j.takenAt ≤ i.takenAt) :
    newestFirst images videos = images.merge videos isNewer :=
  StableSort.mergeSort_append (StableSort.descending_trans Item.takenAt)
    (StableSort.descending_total _) (StableSort.descending_of_eq _) (StableSort.eq_of_descending _)
    (himages.imp isNewer_iff.2) (hvideos.imp isNewer_iff.2)

end Order

/-- How a bucket shows a row: with its sides swapped unless it stands upright. -/
structure ItemRow.IsShown (row : ItemRow) (b : String) (i : Item) : Prop where
  bucketId : i.bucketId = some b
  caption : i.caption = none
  sides : (i.width, i.height) = if row.orientation = 0 ∨ row.orientation = 180
    then (row.width, row.height) else (row.height, row.width)

theorem ItemRow.isShown_item (cwd : Path) (b : String) (row : ItemRow) :
    row.IsShown b (row.item cwd b) where
  bucketId := rfl
  caption := rfl
  sides := by
    rw [ItemRow.item, orientedDimensions, isUpright]
    simp only [Bool.or_eq_true, beq_iff_eq]

namespace ItemLister

variable {σ β : Type} {l : ItemLister σ β} {b : String} {r : Run σ} {images videos : List ItemRow}

def Reads (l : ItemLister σ β) (b : String) (r : Run σ) (images videos : List ItemRow) : Prop :=
  ∃ r₁ r₂ r₃, l.hasReadAccess.exec r = (.ok true, r₁) ∧
    (l.index.items .image (bucketFilter b)).exec r₁ = (.ok images, r₂) ∧
    (l.index.items .video (bucketFilter b)).exec r₂ = (.ok videos, r₃)

theorem query_of_items {kind : Kind} {rows : List ItemRow} {r' : Run σ}
    (h : (l.index.items kind (bucketFilter b)).exec r = (.ok rows, r')) :
    (l.query kind b).exec r = (.ok (rows.map (ItemRow.item l.cwd b)), r') := by
  rw [query, Act.exec_bind_ok h]
  rfl

theorem query_of_error {kind : Kind} {f : Failure} {r' : Run σ}
    (h : (l.index.items kind (bucketFilter b)).exec r = (.error f, r')) :
    (l.query kind b).exec r = (.error f, r') :=
  Act.exec_bind_error h _

/-- What the lister answers when it can read these rows. -/
def listed (l : ItemLister σ β) (b : String) (images videos : List ItemRow) : List Item :=
  newestFirst (images.map (ItemRow.item l.cwd b)) (videos.map (ItemRow.item l.cwd b))

theorem lists_list {r₁ r₂ r₃ : Run σ} {refusal : Failure → Prop} {fate fate' : Fate}
    {imagesOut videosOut : Except Failure (List ItemRow)}
    (haccess : l.hasReadAccess.exec r = (.ok true, r₁))
    (himages : (l.index.items .image (bucketFilter b)).exec r₁ = (imagesOut, r₂))
    (hvideos : (l.index.items .video (bucketFilter b)).exec r₂ = (videosOut, r₃))
    (hi : Ends refusal fate images imagesOut) (hv : Ends refusal fate' videos videosOut)
    (hrefusal : ∀ f, refusal f → f.cause ≠ .indexQuery) :
    Lists refusal (fate.next fate') (l.listed b images videos) ((l.list b).exec r).1 := by
  have hboth : ((do
      let images ← l.query .image b
      let videos ← l.query .video b
      return newestFirst images videos : Act σ (List Item)).exec r₁).1 =
        imagesOut >>= fun images => do return l.listed b images (← videosOut) := by
    cases imagesOut with
    | error f =>
        rw [Act.exec_bind_error (query_of_error himages)]
        rfl
    | ok images =>
        rw [Act.exec_bind_ok (query_of_items himages)]
        cases videosOut with
        | error f =>
            rw [Act.exec_bind_error (query_of_error hvideos)]
            rfl
        | ok videos =>
            rw [Act.exec_bind_ok (query_of_items hvideos)]
            rfl
  rw [list, Act.exec_bind_ok haccess, if_pos rfl]
  refine .of_recover ?_ (fun f => beq_iff_eq) hrefusal fun f q => rfl
  rw [hboth]
  exact hi.bind (hv.map (l.listed b images))

theorem list_exec (h : l.Reads b r images videos) :
    ((l.list b).exec r).1 = .ok (l.listed b images videos) := by
  obtain ⟨r₁, r₂, r₃, haccess, himages, hvideos⟩ := h
  have hlists : Lists (fun _ => False) _ _ _ :=
    lists_list haccess himages hvideos (.answered _) (.answered _) fun f hf => hf.elim
  exact hlists.eq_ok

/-- A bucket's items are those of its images and its videos together, in the one list that is
newest first and leaves equally new ones as they are. Rows of each kind that come newest first are
merged, an image before a video that is as new. -/
theorem list_isNewestFirst_iff (h : l.Reads b r images videos) :
    ∃ items, ((l.list b).exec r).1 = .ok items ∧
      (∀ others, IsNewestFirst ((images ++ videos).map (ItemRow.item l.cwd b)) others ↔
        others = items) ∧
      (images.Pairwise (fun x y => y.takenAt ≤ x.takenAt) →
        videos.Pairwise (fun x y => y.takenAt ≤ x.takenAt) →
        items = (images.map (ItemRow.item l.cwd b)).merge (videos.map (ItemRow.item l.cwd b))
          isNewer) ∧
      ∀ i ∈ items, ∃ row ∈ images ++ videos, i = row.item l.cwd b ∧ row.IsShown b i := by
  have hlisted := isNewestFirst_newestFirst (images.map (ItemRow.item l.cwd b))
    (videos.map (ItemRow.item l.cwd b))
  rw [← List.map_append] at hlisted
  refine ⟨_, list_exec h, fun others => ⟨hlisted.unique, ?_⟩, fun himages hvideos => ?_,
    fun i hi => ?_⟩
  · rintro rfl
    exact hlisted
  · exact newestFirst_eq_merge (List.pairwise_map.2 himages) (List.pairwise_map.2 hvideos)
  · obtain ⟨row, hrow, rfl⟩ := List.mem_map.1 (hlisted.perm.mem_iff.1 hi)
    exact ⟨row, hrow, rfl, row.isShown_item l.cwd b⟩

def holding (images videos : List ItemRow) : ItemLister σ String where
  index := ⟨fun _ => pure [], fun kind _ => match kind with
    | .image => pure images
    | .video => pure videos⟩
  hasReadAccess := pure true
  cwd := ⟨.slash, []⟩

def oldPicture : ItemRow := ⟨"/m/1.jpg", "image/jpeg", 4, 3, 2, 7, 90⟩

def newPicture : ItemRow := ⟨"/m/2.jpg", "image/jpeg", 6, 3, 2, 7, 180⟩

def oldFilm : ItemRow := ⟨"/m/3.mp4", "video/mp4", 4, 3, 2, 7, 0⟩

/-- The rows come oldest first, and one picture is as old as the film. -/
theorem list_isNewestFirst_sample :
    (holding [oldPicture, newPicture] [oldFilm]).Reads "a" (⟨(), []⟩ : Run Unit)
        [oldPicture, newPicture] [oldFilm] ∧
      (((holding [oldPicture, newPicture] [oldFilm]).list "a").exec (⟨(), []⟩ : Run Unit)).1 =
        .ok ([newPicture, oldPicture, oldFilm].map (ItemRow.item ⟨.slash, []⟩ "a")) := by
  have hreads : (holding [oldPicture, newPicture] [oldFilm]).Reads "a" (⟨(), []⟩ : Run Unit)
      [oldPicture, newPicture] [oldFilm] := ⟨_, _, _, rfl, rfl, rfl⟩
  obtain ⟨items, hitems, hunique, -⟩ := list_isNewestFirst_iff hreads
  refine ⟨hreads, hitems.trans (congrArg Except.ok ((hunique _).1 ⟨?_, ?_, fun t => ?_⟩).symm)⟩
  · exact .swap _ _ _
  · simp [oldPicture, newPicture, oldFilm, ItemRow.item]
  · rw [List.filter_map, List.filter_map]
    refine congrArg (List.map _) ?_
    change [newPicture, oldPicture, oldFilm].filter (fun row => row.takenAt = t) =
      [oldPicture, newPicture, oldFilm].filter (fun row => row.takenAt = t)
    by_cases hnew : 6 = t
    · simp [oldPicture, newPicture, oldFilm, ← hnew]
    · simp [List.filter_cons, newPicture, hnew]

end ItemLister

end MediaCatalog
