import MediaCatalog.Proofs.Completion.Files

namespace MediaCatalog

open Act World

namespace Index.Database

def IsFound (p : Path) (w : World) : Prop := ∃ place, w.files.find w.cwd p = .ok place

/-- Nothing changes if the path leads to an entry. -/
def Steady (p : Path) (w w' : World) : Prop := IsFound p w → w' = w

instance (p : Path) : IsPreorder World (Steady p) where
  refl _ _ := rfl
  trans w w' w'' h h' hfound := by
    obtain rfl := h hfound
    exact h' hfound

variable (d : Database)

theorem steady_connect : Keeps (Steady d.path) d.connect := by
  rw [connect]
  split
  · exact (keeps_fail nullCharacter).bind_of fun _ _ _ hfail => by cases hfail
  refine Keeps.bind_of keeps_getState fun w r r' hw => ?_
  cases hw
  rintro ⟨place, hfind⟩
  rw [FileSystem.find_eq_ok.1 hfind]
  dsimp only
  split <;> rfl

theorem steady_fetch (columns : List Column) (select : Table → List Entry) :
    Keeps (Steady d.path) (d.fetch columns select) := by
  have htable? : Keeps (Steady d.path) d.table? := by
    refine d.steady_connect.bind fun content => ?_
    split
    · exact keeps_pure none
    · exact keeps_fail notADatabase
    · exact keeps_pure _
  have htable : Keeps (Steady d.path) d.table := by
    refine htable?.bind fun t => ?_
    cases t with
    | some t => exact keeps_pure t
    | none => exact keeps_fail noTable
  exact (htable.bind fun t => keeps_ofExcept _).recover fun f => keeps_fail _

theorem steady_folders (kind : Kind) : Keeps (Steady d.path) (d.index.folders kind) :=
  ((d.steady_fetch folderColumns _).bind fun _ => keeps_ofExcept _).bind fun _ => keeps_ofExcept _

theorem steady_items (kind : Kind) (bucket : Option String) :
    Keeps (Steady d.path) (d.index.items kind bucket) :=
  ((d.steady_fetch (itemColumns kind) _).bind fun _ => keeps_ofExcept _).bind fun _ =>
    keeps_ofExcept _

end Index.Database

theorem PathPermission.found_of_granted {p : PathPermission} {r r' : Run World}
    (h : p.hasReadAccess.exec r = (.ok true, r')) : Index.Database.IsFound p.index r'.state := by
  have hstate := (p.inspects_hasReadAccess r).2
  rw [h] at hstate
  change r'.state = r.state at hstate
  rw [hstate]
  obtain ⟨granted, r₁, hindex, hrest⟩ := exec_bind_eq_ok.1 h
  cases granted with
  | false => cases hrest
  | true =>
      rw [mayRead, exec_ask] at hindex
      have hread := congrArg Prod.fst hindex
      rw [FileSystem.mayRead] at hread
      split at hread
      · cases hread
      · cases hfind : r.state.files.find r.state.cwd p.index with
        | ok place => exact ⟨place, hfind⟩
        | error e =>
            rw [hfind] at hread
            cases hread

namespace Settings

variable {α : Type} (s : Settings)

open Index.Database

theorem keeps_guarded {R : World → World → Prop} [IsPreorder World R] {act : Doing α} {other : α}
    (h : Keeps (Steady s.dbPath) act) :
    Keeps R (do if ← s.pathPermission.hasReadAccess then act else return other) := by
  refine s.pathPermission.inspects_hasReadAccess.keeps.bind_of fun granted r r' hgranted => ?_
  cases granted with
  | false => exact keeps_pure other r'
  | true =>
      have hfound := PathPermission.found_of_granted hgranted
      rw [if_pos rfl, h r' hfound]
      exact refl_of R r'.state

variable {R : World → World → Prop} [IsPreorder World R] (cwd : Path)

theorem keeps_folders :
    Keeps R (s.folderLister s.pathPermission.hasReadAccess cwd).list := by
  refine s.keeps_guarded ((Keeps.bind (s.database.steady_folders .image) fun images =>
    (s.database.steady_folders .video).bind fun videos => (keeps_ofExcept _).bind fun listed =>
      (keeps_log _).bind fun _ => keeps_pure listed).recover fun f => ?_)
  exact (keeps_log _).bind fun _ => keeps_pure []

theorem steady_query (kind : Kind) (bucketId : String) : Keeps (Steady s.dbPath)
    ((s.itemLister s.pathPermission.hasReadAccess cwd).query kind bucketId) :=
  (s.database.steady_items kind _).bind fun _ => keeps_pure _

theorem keeps_items (bucketId : String) :
    Keeps R ((s.itemLister s.pathPermission.hasReadAccess cwd).list bucketId) := by
  refine s.keeps_guarded (((s.steady_query cwd .image bucketId).bind fun images =>
    (s.steady_query cwd .video bucketId).bind fun videos => keeps_pure _).recover fun f => ?_)
  exact (keeps_log _).bind fun _ => keeps_pure []

theorem keeps_recent :
    Keeps R (s.itemLister s.pathPermission.hasReadAccess cwd).mostRecent := by
  refine s.keeps_guarded (((s.steady_query cwd .image _).bind fun images =>
    keeps_pure _).recover fun f => ?_)
  exact (keeps_log _).bind fun _ => keeps_pure none

end Settings

end MediaCatalog
