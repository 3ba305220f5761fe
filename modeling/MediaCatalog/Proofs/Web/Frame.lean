import MediaCatalog.Proofs.Blob.Reading
import MediaCatalog.Proofs.Preview.Keeping
import MediaCatalog.Proofs.Web.Confinement
import MediaCatalog.Proofs.Web.Effects

namespace MediaCatalog.Web.Server

open FileSystem World

variable {s : Settings} {w₀ w w' : World} {N n : Nat} {place : Place} {e : Node} {name : String}

section Names

/-- The name of the picture that is rendered under the word of a number. -/
def renderedName (n : Nat) : String :=
  Blob.nameFor (String.ofList (Text.hexText 32 n)) renderedMime

def renderedPart (n : Nat) : String := Blob.partName (renderedName n)

theorem renderedName_injective {m : Nat} (h : renderedName n = renderedName m) : n = m :=
  Blob.hexText_injective (String.ofList_injective (Blob.nameFor_injective h))

theorem length_renderedName (hn : n < Nat.pow 16 32) : (renderedName n).toList.length = 36 := by
  have hword : (Text.hexText 32 n).length = 32 := Blob.length_hexText (by decide) hn
  have hextension : (Blob.extension renderedMime).toList.length = 3 := by decide
  rw [renderedName, Blob.toList_nameFor, String.toList_ofList, List.length_append, hword,
    List.length_cons, hextension]

theorem length_renderedPart (hn : n < Nat.pow 16 32) : (renderedPart n).toList.length = 42 := by
  have hname := length_renderedName hn
  rw [renderedPart, Blob.toList_partName, List.length_cons, List.length_append, hname]
  rfl

def previewName (key : String) : String := Preview.digest key ++ ".jpg"

/-- No file has the name, nor is it on the way to a directory in which the server writes. -/
structure IsUnused (s : Settings) (w : World) (name : String) : Prop where
  files : ∀ place, w.files.node? (place ++ [name]) = none
  blobDir : name ∉ (s.blobDir.absolute w.cwd).parts
  thumbDir : name ∉ (s.thumbDir.absolute w.cwd).parts

end Names

/-- What the server relies on at the start: a proper file system, settings as a configuration gives
them, no link that dangles among the previews, and fresh names for the numbers up to `N`. -/
structure IsPrepared (s : Settings) (w : World) (N : Nat) : Prop where
  proper : w.files.IsProper
  blobDir : IsClean w.cwd s.blobDir
  thumbDir : s.thumbDir.IsCanonical
  thumbClean : IsClean w.cwd s.thumbDir
  dangles : ∀ directory, w.files.resolve w.cwd s.thumbDir = .ok ⟨.slash, directory⟩ →
    ∀ name, ¬ w.files.Dangles (directory ++ [name])
  fresh : ∀ n, w.issued < n → n ≤ N → IsUnused s w (renderedName n) ∧ IsUnused s w (renderedPart n)
  few : N < Nat.pow 16 32

theorem isClean_ofConfig {cfg : Json} {r r' : Run World}
    (h : (Settings.ofConfig cfg).exec r = (.ok s, r')) (cwd : Path) :
    IsClean cwd s.blobDir ∧ s.thumbDir.IsCanonical ∧ IsClean cwd s.thumbDir := by
  have hclean {dir : Path} (hdir : dir.IsCanonical ∧ ¬ dir.hasNull) : IsClean cwd dir := by
    rw [IsClean, Path.absolute_of_isAbsolute hdir.1.isAbsolute]
    exact hdir.2
  have hblob : s.blobDir.IsCanonical ∧ ¬ s.blobDir.hasNull :=
    Settings.isCanonical_ofConfig h (by simp)
  have hthumb : s.thumbDir.IsCanonical ∧ ¬ s.thumbDir.hasNull :=
    Settings.isCanonical_ofConfig h (by simp)
  exact ⟨hclean hblob, hthumb.1, hclean hthumb⟩

/-- What there may be that was not there at the start. -/
inductive Adds (s : Settings) (w₀ w : World) : Place → Node → Prop
  | blobPath {place : Place} {e : Node} (h : IsMadeFor w₀.cwd s.blobDir place e) :
      Adds s w₀ w place e
  | thumbPath {place : Place} {e : Node} (h : IsMadeFor w₀.cwd s.thumbDir place e) :
      Adds s w₀ w place e
  | blob {directory : Place} {n : Nat} {content : Content} {t : Int}
      (h : w.files.Houses w₀.cwd s.blobDir directory) (hlow : w₀.issued < n)
      (hhigh : n ≤ w.issued) : Adds s w₀ w (directory ++ [renderedName n]) (.file content t)
  | preview {directory : Place} {key : String} {content : Content} {t : Int}
      (h : w.files.Houses w₀.cwd s.thumbDir directory) :
      Adds s w₀ w (directory ++ [previewName key]) (.file content t)

theorem Adds.later (h : Adds s w₀ w place e) (hways : w.files.KeepsWays w'.files)
    (hissued : w.issued ≤ w'.issued) : Adds s w₀ w' place e := by
  cases h with
  | blobPath h => exact .blobPath h
  | thumbPath h => exact .thumbPath h
  | blob h hlow hhigh => exact .blob (h.keep hways) hlow (Nat.le_trans hhigh hissued)
  | preview h => exact .preview (h.keep hways)

structure Tends (s : Settings) (w₀ w : World) : Prop where
  cwd : w.cwd = w₀.cwd
  issued : w₀.issued ≤ w.issued
  grows : Grows (Adds s w₀ w) w₀.files w.files

/-- The server goes on to add nothing else while no more than `N` names are given out. -/
def GoesOn (s : Settings) (w₀ : World) (N : Nat) (w w' : World) : Prop :=
  w.issued ≤ w'.issued ∧ (w'.issued ≤ N → Tends s w₀ w → Tends s w₀ w')

instance : IsPreorder World (GoesOn s w₀ N) where
  refl _ := ⟨Nat.le_refl _, fun _ => id⟩
  trans _ _ _ h h' := ⟨Nat.le_trans h.1 h'.1, fun hN htends =>
    h'.2 hN (h.2 (Nat.le_trans h'.1 hN) htends)⟩

theorem tends_start (s : Settings) (w : World) : Tends s w w where
  cwd := rfl
  issued := Nat.le_refl _
  grows := .refl _ _

theorem Tends.next (h : Tends s w₀ w) {allowed : Place → Node → Prop} (hcwd : w'.cwd = w.cwd)
    (hissued : w.issued ≤ w'.issued) (hgrows : Grows allowed w.files w'.files)
    (hallowed : ∀ place e, allowed place e → Adds s w₀ w' place e) : Tends s w₀ w' where
  cwd := hcwd.trans h.cwd
  issued := Nat.le_trans h.issued hissued
  grows := (h.grows.weaken fun _ _ _ hadds => hadds.later hgrows.keepsWays hissued).trans
    (hgrows.weaken fun place e _ => hallowed place e)

section Steps

variable (hs : IsPrepared s w₀ N)
include hs

theorem Tends.unused (h : Tends s w₀ w) (hlow : w.issued < n) (hhigh : n ≤ N)
    (hname : name = renderedName n ∨ name = renderedPart n) : IsUnused s w name := by
  have hn : n < Nat.pow 16 32 := Nat.lt_of_le_of_lt hhigh hs.few
  have hstart : IsUnused s w₀ name := by
    obtain ⟨hrendered, hpart⟩ := hs.fresh n (Nat.lt_of_le_of_lt h.issued hlow) hhigh
    rcases hname with rfl | rfl
    · exact hrendered
    · exact hpart
  refine ⟨fun place => ?_, h.cwd ▸ hstart.blobDir, h.cwd ▸ hstart.thumbDir⟩
  cases he : w.files.node? (place ++ [name]) with
  | none => rfl
  | some e =>
      have hadds := (h.grows.introduces _ e he (hstart.files place)).1
      generalize hplace : place ++ [name] = there at hadds
      cases hadds with
      | blobPath hmade =>
          obtain ⟨-, c, hc, hlast⟩ := hmade
          rw [← hplace, List.getLast?_concat] at hlast
          exact absurd (Option.some.inj hlast ▸ hc) hstart.blobDir
      | thumbPath hmade =>
          obtain ⟨-, c, hc, hlast⟩ := hmade
          rw [← hplace, List.getLast?_concat] at hlast
          exact absurd (Option.some.inj hlast ▸ hc) hstart.thumbDir
      | @blob directory m _ _ _ _ hm =>
          have hlast := Blob.Requests.last_eq hplace
          rcases hname with rfl | rfl
          · have hsame := renderedName_injective hlast
            omega
          · exact absurd hlast.symm (Blob.nameFor_ne_partName (Blob.isWord_fresh m) _ _)
      | @preview directory key =>
          -- 44 characters, where a picture's name has 36 and that of its temporary file 42
          have hlength : (previewName key).toList.length = 44 :=
            Preview.Cache.length_fileName (c := { dir := s.thumbDir }) rfl key
          rw [← Blob.Requests.last_eq hplace] at hlength
          rcases hname with rfl | rfl
          · rw [length_renderedName hn] at hlength
            cases hlength
          · rw [length_renderedPart hn] at hlength
            cases hlength

theorem goesOn_persist (data : List UInt8) :
    Act.Keeps (GoesOn s w₀ N) (s.blobs.persist data renderedMime) := by
  intro r
  obtain ⟨-, hstate⟩ := s.blobs.exec_persistWith (fun _ => none) data renderedMime r
  rw [Blob.Directory.persist, hstate]
  refine ⟨Nat.le_succ _, fun hN htends => ?_⟩
  have hname := htends.unused hs (Nat.lt_succ_self _) hN (.inl rfl)
  have hpart := htends.unused hs (Nat.lt_succ_self _) hN (.inr rfl)
  have hclean : IsClean r.state.cwd s.blobs.path := htends.cwd ▸ hs.blobDir
  have hgrows := Blob.Store.grows_persisted data hclean
    (fun place => ⟨hname.files place, hpart.files place⟩) ⟨hname.blobDir, hpart.blobDir⟩
  refine htends.next rfl (Nat.le_succ _) hgrows fun place e hadds => ?_
  rcases hadds with hmade | ⟨directory, content, t, hhouses, rfl, rfl⟩
  · exact .blobPath (htends.cwd ▸ hmade)
  · exact .blob (htends.cwd ▸ hhouses) (Nat.lt_succ_of_le htends.issued) (Nat.le_refl _)

theorem Tends.not_dangles (h : Tends s w₀ w) {directory : Place}
    (hfind : w.files.find w.cwd s.thumbDir = .ok directory) (name : String) :
    ¬ w.files.Dangles (directory ++ [name]) := by
  intro hdangles
  rw [h.cwd] at hfind
  have hresolve := h.grows.resolve_of_find hs.proper hs.thumbClean hfind
  exact hs.dangles directory hresolve name (h.grows.dangles hs.proper hdangles)

theorem goesOn_deliver (m : Imaging) (p : Path) (height : Int) :
    Act.Keeps (GoesOn s w₀ N) ((cacheOf s m).deliver p height) := by
  intro r
  have hstate : ∃ files clock, (((cacheOf s m).deliver p height).exec r).2.state =
      { r.state with files, clock } := by
    rcases (cacheOf s m).deliver_state p height r with hsame | ⟨key, data, -, hkeep⟩
    · exact ⟨_, _, hsame⟩
    · obtain ⟨files, clock, hstate⟩ := (cacheOf s m).keep_state ((cacheOf s m).file key) data r
      exact ⟨files, clock, hkeep.trans hstate⟩
  obtain ⟨files, clock, hstate⟩ := hstate
  have hissued : (((cacheOf s m).deliver p height).exec r).2.state.issued = r.state.issued := by
    rw [hstate]
  have hcwd : (((cacheOf s m).deliver p height).exec r).2.state.cwd = r.state.cwd := by
    rw [hstate]
  refine ⟨Nat.le_of_eq hissued.symm, fun _ htends => ?_⟩
  have hclean : IsClean r.state.cwd s.thumbDir := htends.cwd ▸ hs.thumbClean
  have hgrows := Preview.Cache.grows_deliver (c := cacheOf s m) (r := r) rfl hs.thumbDir hclean
    (htends.grows.isProper hs.proper) (fun _ hfind => htends.not_dangles hs hfind) p height
  refine htends.next hcwd (Nat.le_of_eq hissued.symm) hgrows fun place e hadds => ?_
  rcases hadds with hmade | ⟨directory, key, content, t, hhouses, rfl, rfl⟩
  · exact .thumbPath (htends.cwd ▸ hmade)
  · exact .preview (htends.cwd ▸ hhouses)

end Steps

def respondAll (server : Server) (qs : List Request) : Doing Server :=
  qs.foldlM (fun server q => do return (← server.respond q).2) server

theorem goesOn_respondAll (hs : IsPrepared s w₀ N) (m : Imaging) (qs : List Request) :
    Act.Keeps (GoesOn s w₀ N) ((ofSettings s none m).respondAll qs) := by
  have hserves : Serves (GoesOn s w₀ N) s m (ofSettings s none m) :=
    ⟨rfl, rfl, s.keeps_components m (goesOn_persist hs), fun e he => absurd he List.not_mem_nil⟩
  refine Act.keeps_foldlM_of (P := Serves (GoesOn s w₀ N) s m) (fun server q h => ?_)
    (fun server q h => ?_) qs hserves
  · exact (h.respond (goesOn_deliver hs m) q).1.bind fun out => Act.keeps_pure out.2
  · exact (h.respond (goesOn_deliver hs m) q).2.bind fun out hout => Act.returns_pure hout

/-- Whatever a server is asked, everything that was there at the start stays as it was, and every
file that is new lies directly in the directory of blobs or in that of the previews. -/
theorem respondAll_frame {m : Imaging} {qs : List Request} {r r' : Run World}
    {out : Except Failure Server} (hrun : ((ofSettings s none m).respondAll qs).exec r = (out, r'))
    (hs : IsPrepared s r.state r'.state.issued) :
    (∀ place e, r.state.files.node? place = some e → r'.state.files.node? place = some e) ∧
    ∀ place content t, r'.state.files.node? place = some (.file content t) →
      r.state.files.node? place = none → ∃ directory name, place = directory ++ [name] ∧
        (r'.state.files.find r.state.cwd s.blobDir = .ok directory ∨
          r'.state.files.find r.state.cwd s.thumbDir = .ok directory) := by
  have hgoes := goesOn_respondAll hs m qs r
  rw [hrun] at hgoes
  have htends := hgoes.2 (Nat.le_refl _) (tends_start s r.state)
  refine ⟨htends.grows.retains, fun place content t he hnone => ?_⟩
  have hadds := (htends.grows.introduces place _ he hnone).1
  generalize hfile : Node.file content t = e at hadds
  cases hadds with
  | blobPath hmade | thumbPath hmade => exact absurd (hfile.trans hmade.1) (by simp)
  | blob h => exact ⟨_, _, rfl, .inl h.find⟩
  | preview h => exact ⟨_, _, rfl, .inr h.find⟩

def pictureWorld : World where
  files := ⟨[(["b"], .directory),
    (["b", "a"], .file (.bytes (Text.Utf8.ofString "P5 1 1 255\n" ++ [128])) 0),
    (["b", "l"], .link "../b/a")]⟩
  cwd := ⟨.slash, []⟩
  home := "/"

theorem isUnused_sample (hname : 1 < name.toList.length) : IsUnused .sample pictureWorld name := by
  have hshort (c : String) (hc : c.toList.length = 1) : name ≠ c := by
    rintro rfl
    omega
  refine ⟨fun place => ?_, ?_, ?_⟩
  · cases he : pictureWorld.files.node? (place ++ [name]) with
    | none => rfl
    | some e =>
        have hmem := mem_of_node? (by simp) he
        obtain ⟨c, hc, hlast⟩ : ∃ c : String, c.toList.length = 1 ∧
            (place ++ [name]).getLast? = some c := by
          rcases List.mem_cons.1 hmem with hmem | hmem
          · exact ⟨"b", rfl, (Prod.mk.inj hmem).1 ▸ rfl⟩
          rcases List.mem_pair.1 hmem with hmem | hmem
          · exact ⟨"a", rfl, (Prod.mk.inj hmem).1 ▸ rfl⟩
          · exact ⟨"l", rfl, (Prod.mk.inj hmem).1 ▸ rfl⟩
        rw [List.getLast?_concat] at hlast
        exact absurd (Option.some.inj hlast) (hshort c hc)
  · exact fun hmem => hshort "b" rfl (List.mem_singleton.1 hmem)
  · exact fun hmem => hshort "t" rfl (List.mem_singleton.1 hmem)

theorem isPrepared_sample (hN : N < Nat.pow 16 32) : IsPrepared .sample pictureWorld N where
  proper := by
    refine ⟨fun place e hplace he => ?_, fun place text he => ?_⟩
    · have hmem := mem_of_node? hplace he
      rcases List.mem_cons.1 hmem with hmem | hmem
      · cases hmem
        rfl
      rcases List.mem_pair.1 hmem with hmem | hmem <;> cases hmem <;> rfl
    · have hmem := mem_of_node? (ne_root_of_link he) he
      rcases List.mem_cons.1 hmem with hmem | hmem
      · cases hmem
      rcases List.mem_pair.1 hmem with hmem | hmem
      · cases hmem
      · cases hmem
        decide
  blobDir := by
    rw [IsClean]
    decide
  thumbDir := Settings.isCanonical_sample
  thumbClean := by
    rw [IsClean]
    decide
  dangles directory hresolve name hdangles := by
    obtain rfl : ["t"] = directory := by
      have heval : pictureWorld.files.resolve pictureWorld.cwd Settings.sample.thumbDir =
          .ok ⟨.slash, ["t"]⟩ := rfl
      cases heval.symm.trans hresolve
      rfl
    obtain ⟨text, he⟩ := hdangles.1
    cases he
  fresh n _ hhigh := by
    have hn := Nat.lt_of_le_of_lt hhigh hN
    refine ⟨isUnused_sample ?_, isUnused_sample ?_⟩
    · rw [length_renderedName hn]
      decide
    · rw [length_renderedPart hn]
      decide
  few := hN

def previewRequest : Request := { target := ⟨"/thumb/blob/l", "h=1"⟩ }

theorem exec_respond_sample : ((sampleServer.respond previewRequest).exec ⟨pictureWorld, []⟩).2 =
    ((sampleServer.previews.deliver ⟨.slash, ["b", "a"]⟩ 1).exec ⟨pictureWorld, []⟩).2 := by
  have hroute : routeOf previewRequest = .ok (.blobPreview "l") := by cbv
  have hheight : previewRequest.height = .ok 1 := by cbv
  have hverdict : verdict pictureWorld sampleServer.settings.blobDir
      (sampleServer.settings.blobDir / "l") = .ok (.ok ⟨.slash, ["b", "a"]⟩) := rfl
  have hcheck := exec_checkedFile sampleServer.settings.blobDir
    (sampleServer.settings.blobDir / "l") ⟨pictureWorld, []⟩
  rw [hverdict] at hcheck
  rw [exec_respond, exec_serve hroute, handle_of_sendsFile rfl,
    (AsksFor.blobPreview hheight).deliver_eq, Handling.exec_bind, deliverFrom,
    Handling.exec_bind_ok hcheck, previewOf, Handling.exec_work]
  rcases (sampleServer.previews.deliver ⟨.slash, ["b", "a"]⟩ 1).exec ⟨pictureWorld, []⟩ with
    ⟨f | d, r⟩ <;> rfl

theorem respondAll_singleton_run (server : Server) (q : Request) (r : Run World) :
    ((server.respondAll [q]).exec r).2 = ((server.respond q).exec r).2 := by
  rw [respondAll, List.foldlM_cons, bind_assoc, Act.exec_bind]
  rcases (server.respond q).exec r with ⟨f | out, r'⟩ <;> rfl

/-- A preview is kept of a picture that a link names. -/
theorem respondAll_frame_sample :
    let name := previewName (Preview.keyText ⟨.slash, ["b", "a"]⟩ 0 1)
    ∃ out r', (sampleServer.respondAll [previewRequest]).exec ⟨pictureWorld, []⟩ = (out, r') ∧
      r'.state.files.node? ["b", "a"] = pictureWorld.files.node? ["b", "a"] ∧
      (∃ content t, r'.state.files.node? ["t", name] = some (.file content t)) ∧
      ∃ directory last, ["t", name] = directory ++ [last] ∧
        (r'.state.files.find pictureWorld.cwd Settings.sample.blobDir = .ok directory ∨
          r'.state.files.find pictureWorld.cwd Settings.sample.thumbDir = .ok directory) := by
  intro name
  rcases hrun : (sampleServer.respondAll [previewRequest]).exec ⟨pictureWorld, []⟩ with ⟨out, r'⟩
  have hlast : r' =
      ((sampleServer.previews.deliver ⟨.slash, ["b", "a"]⟩ 1).exec ⟨pictureWorld, []⟩).2 := by
    rw [← exec_respond_sample, ← respondAll_singleton_run, hrun]
  have hissued : r'.state.issued < Nat.pow 16 32 := by
    rw [hlast]
    decide +kernel
  have hfile : r'.state.files.node? ["t", name] = some (.file
      (.bytes ((Jpeg.encode 1 1 Preview.quality).toOption.getD [])) (pictureWorld.clock + 1)) := by
    rw [hlast]
    decide +kernel
  obtain ⟨hold, hnew⟩ := respondAll_frame hrun (isPrepared_sample hissued)
  exact ⟨out, r', rfl, hold _ _ rfl, ⟨_, _, hfile⟩, hnew _ _ _ hfile rfl⟩

end MediaCatalog.Web.Server
