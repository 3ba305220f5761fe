import MediaCatalog.Proofs.FileSystem.Change
import MediaCatalog.Proofs.Preview.Key
import MediaCatalog.Proofs.World

namespace MediaCatalog.Preview

open World

def changeOf (w : World) (p : Path) : Int :=
  match w.files.stat w.cwd p with
  | .ok node => Cache.changedAt node
  | .error _ => 0

def made (m : Imaging) (w : World) (p : Path) (height : Int) : Except Failure Bytes := do
  let (content, _) ← w.files.load w.cwd p
  ofBytes m content.toBytes height quality

/-- A preview that was made: in which world, of which file, and how high. -/
structure Making where
  world : World
  source : Path
  height : Int
  data : Bytes

def Making.key (m : Making) : String := keyText m.source (changeOf m.world m.source) m.height

theorem exec_make (m : Imaging) (p : Path) (height : Int) (r : Run World) :
    (make m p height quality).exec r = (made m r.state p height, r) := by
  rw [make, made, Act.exec_bind, exec_load]
  rcases r.state.files.load r.state.cwd p with f | ⟨content, changedAt⟩
  · rfl
  · exact Act.exec_ofExcept _ r

namespace Cache

def fileName (c : Cache) (key : String) : String := c.name key ++ ".jpg"

def file (c : Cache) (key : String) : Path := c.dir / c.fileName key

/-- The directory is given by a canonical path, and keys become names without slashes. -/
structure IsSound (c : Cache) : Prop where
  dir : c.dir.IsCanonical
  name : ∀ key, '/' ∉ (c.name key).toList

inductive Delivers (c : Cache) (p : Path) (height : Int) (r : Run World) :
    Except Failure Delivery → Run World → Prop
  | failed (f : Failure) : Delivers c p height r (.error f) r
  | kept {key : String} : key = keyText p (changeOf r.state p) height →
      r.state.files.exists? r.state.cwd (c.file key) = .ok true →
      Delivers c p height r (.ok (.file (c.file key) Jpeg.mime)) r
  | unmade {f : Failure} {log : List Log.Record} : made c.imaging r.state p height = .error f →
      Delivers c p height r (.ok (.ofFile p)) ⟨r.state, log⟩
  | made {key : String} {data : Bytes} {r' : Run World} :
      key = keyText p (changeOf r.state p) height → made c.imaging r.state p height = .ok data →
      (c.keep (c.file key) data).exec r = (.ok (), r') →
      Delivers c p height r (.ok (.made data Jpeg.mime)) r'
  | unkept {key : String} {data : Bytes} {f : Failure} {r' : Run World} :
      key = keyText p (changeOf r.state p) height → made c.imaging r.state p height = .ok data →
      (c.keep (c.file key) data).exec r = (.error f, r') →
      Delivers c p height r (.error f) r'

variable {c : Cache} {p : Path} {height : Int} {r : Run World}

theorem exec_fileFor (c : Cache) (p : Path) (height : Int) (r : Run World) :
    (∃ f, (c.fileFor p height).exec r = (.error f, r)) ∨
      (c.fileFor p height).exec r = (.ok (c.file (keyText p (changeOf r.state p) height)), r) := by
  rw [fileFor, Act.exec_bind, exec_stat, changeOf]
  rcases r.state.files.stat r.state.cwd p with f | node
  · exact .inl ⟨f, rfl⟩
  · exact .inr rfl

theorem exec_makeOrNote (c : Cache) (p : Path) (height : Int) (r : Run World) :
    (∃ f, (c.makeOrNote p height).exec r = (.error f, r)) ∨
      (∃ f log, Preview.made c.imaging r.state p height = .error f ∧
        (c.makeOrNote p height).exec r = (.ok none, ⟨r.state, log⟩)) ∨
      ∃ data, Preview.made c.imaging r.state p height = .ok data ∧
        (c.makeOrNote p height).exec r = (.ok (some data), r) := by
  rw [makeOrNote, Act.exec_recover, Act.exec_bind, exec_make]
  rcases Preview.made c.imaging r.state p height with f | data
  · dsimp only
    split
    · exact .inr (.inl ⟨f, _, rfl, rfl⟩)
    · exact .inl ⟨f, rfl⟩
  · exact .inr (.inr ⟨data, rfl, rfl⟩)

theorem delivers_of_exec {out : Except Failure Delivery} {r' : Run World}
    (h : (c.deliver p height).exec r = (out, r')) : c.Delivers p height r out r' := by
  rcases exec_fileFor c p height r with ⟨f, hfile⟩ | hfile
  · rw [deliver, Act.exec_bind_error hfile] at h
    cases h
    exact .failed f
  rw [deliver, Act.exec_bind_ok hfile, Act.exec_bind, exec_exists?] at h
  generalize hkey : keyText p (changeOf r.state p) height = key at h
  rcases hexists : r.state.files.exists? r.state.cwd (c.file key) with f | there
  · rw [hexists] at h
    cases h
    exact .failed f
  rw [hexists] at h
  cases there with
  | true =>
      cases h
      exact .kept hkey.symm hexists
  | false =>
      simp only [Bool.false_eq_true, if_false] at h
      rcases exec_makeOrNote c p height r with
        ⟨f, hmake⟩ | ⟨f, log, hmade, hmake⟩ | ⟨data, hmade, hmake⟩
      · rw [Act.exec_bind_error hmake] at h
        cases h
        exact .failed f
      · rw [Act.exec_bind_ok hmake] at h
        cases h
        exact .unmade hmade
      rw [Act.exec_bind_ok hmake] at h
      rcases hkeep : (c.keep (c.file key) data).exec r with ⟨f | u, r''⟩
      · rw [Act.exec_bind_error hkeep] at h
        cases h
        exact .unkept hkey.symm hmade hkeep
      · rw [Act.exec_bind_ok hkeep] at h
        cases h
        exact .made hkey.symm hmade hkeep

section Directory

theorem toList_fileName (c : Cache) (key : String) :
    (c.fileName key).toList = (c.name key).toList ++ ['.', 'j', 'p', 'g'] :=
  String.toList_append

theorem fileName_inj {key key' : String} :
    c.fileName key = c.fileName key' ↔ c.name key = c.name key' := by
  refine ⟨fun h => ?_, congrArg (· ++ ".jpg")⟩
  have hchars := congrArg String.toList h
  rw [toList_fileName, toList_fileName] at hchars
  exact String.toList_inj.1 (List.append_cancel_right hchars)

theorem isOrdinary_fileName (c : Cache) (key : String) :
    FileSystem.IsOrdinary (c.fileName key) := by
  have hlength : 4 ≤ (c.fileName key).toList.length := by
    rw [toList_fileName, List.length_append]
    exact Nat.le_add_left 4 _
  constructor <;> intro h <;> rw [h] at hlength <;> exact absurd hlength (by decide)

theorem file_eq {key : String} (h : '/' ∉ (c.name key).toList) :
    c.file key = ⟨c.dir.root, c.dir.parts ++ [c.fileName key]⟩ := by
  have hordinary := isOrdinary_fileName c key
  apply Path.div_component
  refine ⟨hordinary.ne_empty, hordinary.ne_dot, ?_⟩
  rw [toList_fileName, List.mem_append, not_or]
  exact ⟨h, by decide⟩

theorem IsSound.file_eq (h : c.IsSound) (key : String) :
    c.file key = ⟨c.dir.root, c.dir.parts ++ [c.fileName key]⟩ :=
  Cache.file_eq (h.name key)

theorem IsSound.isCanonical_file (h : c.IsSound) (key : String) : (c.file key).IsCanonical := by
  rw [h.file_eq]
  exact ⟨h.dir.isAbsolute,
    FileSystem.isOrdinary_concat h.dir.isOrdinary (isOrdinary_fileName c key)⟩

theorem IsSound.place_of_find (h : c.IsSound) {fs : FileSystem} {cwd : Path} {key : String}
    {place : Place} (hun : fs.IsUnlinked (c.dir.parts ++ [c.fileName key]))
    (hfind : fs.find cwd (c.file key) = .ok place) : place = c.dir.parts ++ [c.fileName key] := by
  have hcanonical := h.isCanonical_file key
  have hreach := FileSystem.find_eq_ok.1 hfind
  rw [h.file_eq] at hcanonical hreach
  exact FileSystem.place_reach hcanonical.isAbsolute hcanonical.isOrdinary hun hreach

/-- Everything in the directory is a preview that was made, under the name of its key. No link
leads into the directory or out of it. -/
structure Holds (c : Cache) (fs : FileSystem) (makings : List Making) : Prop where
  isUnlinked : fs.IsUnlinked c.dir.parts
  child : ∀ name e, fs.node? (c.dir.parts ++ [name]) = some e →
    ∃ m ∈ makings, name = c.fileName m.key ∧ ∃ changedAt, e = .file (.bytes m.data) changedAt

variable {fs fs' : FileSystem} {makings : List Making}

theorem Holds.isUnlinked_child (h : c.Holds fs makings) (name : String) :
    fs.IsUnlinked (c.dir.parts ++ [name]) := by
  intro front hfront text he
  rcases List.prefix_concat_iff.1 hfront with rfl | hfront
  · obtain ⟨m, -, -, changedAt, hfile⟩ := h.child name _ he
    cases hfile
  · exact h.isUnlinked front hfront text he

theorem Holds.spares (h : c.Holds fs makings) (hspares : fs.Spares fs' c.dir.parts) :
    c.Holds fs' makings where
  isUnlinked := hspares.isUnlinked h.isUnlinked
  child name e he := h.child name e (hspares.child name ▸ he)

/-- Others may take previews away, and do nothing else in the directory. -/
structure LeavesAlone (c : Cache) (fs fs' : FileSystem) : Prop where
  isUnlinked : fs'.IsUnlinked c.dir.parts
  child : ∀ name, fs'.node? (c.dir.parts ++ [name]) = none ∨
    fs'.node? (c.dir.parts ++ [name]) = fs.node? (c.dir.parts ++ [name])

theorem Holds.leavesAlone (h : c.Holds fs makings) (hleaves : c.LeavesAlone fs fs') :
    c.Holds fs' makings where
  isUnlinked := hleaves.isUnlinked
  child name e he := by
    rcases hleaves.child name with hnone | hsame
    · rw [hnone] at he
      cases he
    · exact h.child name e (hsame ▸ he)

theorem Holds.append (h : c.Holds fs makings) (more : List Making) :
    c.Holds fs (makings ++ more) where
  isUnlinked := h.isUnlinked
  child name e he := by
    obtain ⟨m, hm, hrest⟩ := h.child name e he
    exact ⟨m, List.mem_append_left more hm, hrest⟩

theorem Holds.put (h : c.Holds fs makings) (m : Making) (now : Int) :
    c.Holds (fs.put (c.dir.parts ++ [c.fileName m.key]) (.file (.bytes m.data) now))
      (makings ++ [m]) where
  isUnlinked front hfront text := by
    rw [FileSystem.node?_put_of_ne]
    · exact h.isUnlinked front hfront text
    · rintro rfl
      have hlength := hfront.length_le
      rw [List.length_append, List.length_singleton] at hlength
      omega
  child name e he := by
    by_cases hname : name = c.fileName m.key
    · subst hname
      rw [FileSystem.node?_put_self (List.concat_ne_nil _ _)] at he
      exact ⟨m, List.mem_append_right _ List.mem_cons_self, rfl, now, (Option.some.inj he).symm⟩
    · rw [FileSystem.node?_put_of_ne] at he
      · exact (h.append [m]).child name e he
      · intro hsame
        exact hname (List.cons.inj (List.append_cancel_left hsame)).1

theorem Holds.keep_cases (h : c.Holds r.state.files makings) (hc : c.IsSound) {key : String}
    {data : Bytes} {out : Except Failure Unit} {r' : Run World}
    (hkeep : (c.keep (c.file key) data).exec r = (out, r')) :
    ∃ files, r.state.files.Spares files c.dir.parts ∧ (r'.state.files = files ∨ out = .ok () ∧
      ∃ now, r'.state.files =
        files.put (c.dir.parts ++ [c.fileName key]) (.file (.bytes data) now)) := by
  have hspares : r.state.files.Spares (r.state.files.ensureDir r.state.cwd c.dir).1 c.dir.parts :=
    FileSystem.spares_ensureDir hc.dir h.isUnlinked
  rw [keep, Act.exec_bind, exec_ensureDir] at hkeep
  rcases hensure : r.state.files.ensureDir r.state.cwd c.dir with ⟨files, f | f⟩
  · rw [hensure] at hkeep hspares
    dsimp only at hkeep hspares
    refine ⟨files, hspares, ?_⟩
    rw [exec_store] at hkeep
    rcases hstore : (changed r files).state.files.store (changed r files).state.cwd (c.file key)
        (.bytes data) (changed r files).state.clock with f | files'
    · rw [hstore] at hkeep
      cases hkeep
      exact .inl rfl
    · rw [hstore] at hkeep
      cases hkeep
      have hun : files.IsUnlinked (c.file key).parts := by
        rw [hc.file_eq]
        exact (h.spares hspares).isUnlinked_child _
      obtain rfl := FileSystem.store_eq_ok (hc.isCanonical_file key) hun hstore
      rw [hc.file_eq]
      exact .inr ⟨rfl, _, rfl⟩
  · rw [hensure] at hkeep hspares
    cases hkeep
    exact ⟨files, hspares, .inl rfl⟩

/-- A preview that is kept adds itself. When it cannot be kept, nothing is in the directory that
was not there before. -/
theorem Holds.exec_keep (h : c.Holds r.state.files makings) (hc : c.IsSound) (m : Making)
    {out : Except Failure Unit} {r' : Run World}
    (hkeep : (c.keep (c.file m.key) m.data).exec r = (out, r')) :
    c.Holds r'.state.files makings ∨ out = .ok () ∧ c.Holds r'.state.files (makings ++ [m]) := by
  obtain ⟨files, hspares, hsame | ⟨hok, now, hput⟩⟩ := h.keep_cases hc hkeep
  · exact .inl (hsame ▸ h.spares hspares)
  · exact .inr ⟨hok, hput ▸ (h.spares hspares).put m now⟩

end Directory

section History

def makingOf (w : World) (p : Path) (height : Int) : Except Failure Delivery → List Making
  | .ok (.made data _) => [⟨w, p, height, data⟩]
  | _ => []

/-- The life of the cache: it starts without previews, previews of admitted files are delivered, and
others leave its directory alone. The previews that were made are told in order. -/
inductive History (c : Cache) (admits : World → Path → Prop) : World → List Making → Prop
  | bare {w : World} : w.files.IsUnlinked c.dir.parts →
      (∀ name, w.files.node? (c.dir.parts ++ [name]) = none) → History c admits w []
  | outside {w w' : World} {makings : List Making} : History c admits w makings →
      c.LeavesAlone w.files w'.files → History c admits w' makings
  | delivery {r r' : Run World} {makings : List Making} {p : Path} {height : Int}
      {out : Except Failure Delivery} : History c admits r.state makings → admits r.state p →
      (c.deliver p height).exec r = (out, r') →
      History c admits r'.state (makings ++ makingOf r.state p height out)

theorem Holds.exec_deliver {out : Except Failure Delivery} {r' : Run World}
    (h : c.Holds r.state.files makings) (hc : c.IsSound)
    (hdeliver : (c.deliver p height).exec r = (out, r')) :
    c.Holds r'.state.files (makings ++ makingOf r.state p height out) := by
  cases delivers_of_exec hdeliver with
  | failed f => exact h.append _
  | kept hkey hexists => exact h.append _
  | unmade hmade => exact h.append _
  | @made key data r' hkey hmade hkeep =>
      subst hkey
      rcases h.exec_keep hc ⟨r.state, p, height, data⟩ hkeep with h | ⟨-, h⟩
      · exact h.append _
      · exact h
  | @unkept key data f r' hkey hmade hkeep =>
      subst hkey
      rcases h.exec_keep hc ⟨r.state, p, height, data⟩ hkeep with h | ⟨hok, -⟩
      · exact h.append _
      · cases hok

variable {admits : World → Path → Prop} {w : World}

theorem History.holds (h : c.History admits w makings) (hc : c.IsSound) :
    c.Holds w.files makings := by
  induction h with
  | bare hun hnone =>
      refine ⟨hun, fun name e he => ?_⟩
      rw [hnone name] at he
      cases he
  | outside _ hleaves ih => exact ih.leavesAlone hleaves
  | delivery _ _ hdeliver ih => exact ih.exec_deliver hc hdeliver

theorem History.genuine (h : c.History admits w makings) :
    ∀ m ∈ makings, admits m.world m.source ∧
      Preview.made c.imaging m.world m.source m.height = .ok m.data := by
  induction h with
  | bare => exact fun _ h => absurd h List.not_mem_nil
  | outside _ _ ih => exact ih
  | delivery _ hadmits hdeliver ih =>
      intro m hm
      rcases List.mem_append.1 hm with hm | hm
      · exact ih m hm
      cases delivers_of_exec hdeliver with
      | failed | kept | unmade | unkept => exact absurd hm List.not_mem_nil
      | made hkey hmade hkeep =>
          obtain rfl := List.mem_singleton.1 hm
          exact ⟨hadmits, hmade⟩

theorem Holds.exists_making {cwd : Path} (h : c.Holds fs makings) (hc : c.IsSound) {key : String}
    (hexists : fs.exists? cwd (c.file key) = .ok true) :
    ∃ m ∈ makings, c.name m.key = c.name key ∧ ∃ place changedAt,
      fs.find cwd (c.file key) = .ok place ∧
        fs.node? place = some (.file (.bytes m.data) changedAt) := by
  obtain ⟨place, e, hfind, he, -⟩ := FileSystem.test_eq_true hexists
  have hplace := hc.place_of_find (h.isUnlinked_child _) hfind
  rw [hplace] at he
  obtain ⟨m, hm, hname, changedAt, rfl⟩ := h.child _ _ he
  exact ⟨m, hm, (fileName_inj.1 hname).symm, place, changedAt, hfind, hplace ▸ he⟩

end History

end Cache

end MediaCatalog.Preview
