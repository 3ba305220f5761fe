import MediaCatalog.Proofs.FileSystem.Dangling
import MediaCatalog.Proofs.Blob.Naming
import MediaCatalog.Proofs.Preview.History

namespace MediaCatalog.Preview

open World

theorem toList_digest (text : String) : ∃ words : List UInt32, words.length = 5 ∧
    (digest text).toList = words.flatMap fun x => Text.hexText 8 x.toNat := by
  rw [digest]
  generalize absorbAll _ _ _ = w
  exact ⟨[w.a, w.b, w.c, w.d, w.e], rfl, by rw [Words.hex, String.toList_ofList]⟩

theorem length_digest (text : String) : (digest text).toList.length = 40 := by
  obtain ⟨words, hwords, htext⟩ := toList_digest text
  have hword (x : UInt32) : (Text.hexText 8 x.toNat).length = 8 :=
    Blob.length_hexText (by decide) x.toNat_lt
  rw [htext, List.length_flatMap]
  simp only [hword]
  rw [List.map_const', hwords]
  rfl

theorem isAlphanum_digest (text : String) : ∀ c ∈ (digest text).toList, c.isAlphanum := by
  obtain ⟨words, -, htext⟩ := toList_digest text
  intro c hc
  rw [htext] at hc
  obtain ⟨x, -, hx⟩ := List.mem_flatMap.1 hc
  exact Blob.isAlphanum_hexText 8 x.toNat c hx

namespace Cache

variable {c : Cache} {p : Path} {height : Int} {r : Run World} {key : String} {data : Bytes}

theorem length_fileName (hname : c.name = digest) (key : String) :
    (c.fileName key).toList.length = 44 := by
  rw [toList_fileName, List.length_append, hname, length_digest]
  rfl

theorem isPlain_fileName (hname : c.name = digest) (key : String) :
    FileSystem.IsPlain (c.fileName key) := by
  have hlength := length_fileName hname key
  have hne {s : List Char} (hs : s.length ≠ 44) : (c.fileName key).toList ≠ s := by
    intro h
    exact hs (h ▸ hlength)
  refine Blob.isPlain_of_chars (fun x hx => ?_) (hne (by decide)) (hne (by decide)) (hne (by decide))
  rw [toList_fileName, hname] at hx
  rcases List.mem_append.1 hx with hx | hx
  · have halnum := isAlphanum_digest key x hx
    constructor <;> rintro rfl <;> exact absurd halnum (by decide)
  · have hsuffix : ∀ x ∈ ['.', 'j', 'p', 'g'], x ≠ '/' ∧ x ≠ Char.ofNat 0 := by simp
    exact hsuffix x hx

section Deliver

theorem deliver_state (c : Cache) (p : Path) (height : Int) (r : Run World) :
    ((c.deliver p height).exec r).2.state = r.state ∨ ∃ key data,
      r.state.files.exists? r.state.cwd (c.file key) = .ok false ∧
      ((c.deliver p height).exec r).2.state = ((c.keep (c.file key) data).exec r).2.state := by
  rcases exec_fileFor c p height r with ⟨f, hfile⟩ | hfile
  · rw [deliver, Act.exec_bind_error hfile]
    exact .inl rfl
  generalize keyText p (changeOf r.state p) height = key at hfile
  rw [deliver, Act.exec_bind_ok hfile, Act.exec_bind, exec_exists?]
  rcases hexists : r.state.files.exists? r.state.cwd (c.file key) with f | there
  · exact .inl rfl
  cases there with
  | true => exact .inl rfl
  | false =>
      simp only [Bool.false_eq_true, if_false]
      rcases exec_makeOrNote c p height r with ⟨f, hmake⟩ | ⟨f, log, -, hmake⟩ | ⟨data, -, hmake⟩
      · rw [Act.exec_bind_error hmake]
        exact .inl rfl
      · rw [Act.exec_bind_ok hmake]
        exact .inl rfl
      · refine .inr ⟨key, data, hexists, ?_⟩
        rw [Act.exec_bind_ok hmake]
        rcases hkeep : (c.keep (c.file key) data).exec r with ⟨f | u, r'⟩
        · rw [Act.exec_bind_error hkeep]
        · rw [Act.exec_bind_ok hkeep]
          rfl

def MayAdd (c : Cache) (cwd : Path) (fs : FileSystem) (place : Place) (e : Node) : Prop :=
  FileSystem.IsMadeFor cwd c.dir place e ∨ ∃ directory key content t,
    fs.Houses cwd c.dir directory ∧ place = directory ++ [c.fileName key] ∧ e = .file content t

theorem keep_state (c : Cache) (file : Path) (data : Bytes) (r : Run World) :
    ∃ files clock, ((c.keep file data).exec r).2.state = { r.state with files, clock } := by
  rw [keep, Act.exec_bind, exec_ensureDir]
  rcases r.state.files.ensureDir r.state.cwd c.dir with ⟨files, f | f⟩
  · dsimp only
    rw [exec_store]
    split <;> exact ⟨_, _, rfl⟩
  · exact ⟨_, _, rfl⟩

variable (hname : c.name = digest) (hdir : c.dir.IsCanonical)
  (hclean : FileSystem.IsClean r.state.cwd c.dir) (hfs : r.state.files.IsProper)
  (hdangles : ∀ directory, r.state.files.find r.state.cwd c.dir = .ok directory → ∀ name,
    ¬ r.state.files.Dangles (directory ++ [name]))
include hname hdir hclean hfs hdangles

theorem grows_keep (hexists : r.state.files.exists? r.state.cwd (c.file key) = .ok false) :
    FileSystem.Grows (c.MayAdd r.state.cwd ((c.keep (c.file key) data).exec r).2.state.files)
      r.state.files ((c.keep (c.file key) data).exec r).2.state.files := by
  have hplain := isPlain_fileName hname key
  have hmakes := FileSystem.makesDirs_ensureDir r.state.files r.state.cwd c.dir
  rw [keep, Act.exec_bind, exec_ensureDir]
  rcases hensure : r.state.files.ensureDir r.state.cwd c.dir with ⟨files, f | f⟩
  · rw [hensure] at hmakes
    have hmade (fs : FileSystem) : FileSystem.Grows (c.MayAdd r.state.cwd fs) r.state.files files :=
      hmakes.grows.weaken fun _ _ _ => .inl
    dsimp only
    rw [exec_store]
    rcases hstore : (changed r files).state.files.store (changed r files).state.cwd (c.file key)
        (.bytes data) (changed r files).state.clock with f | files'
    · exact hmade files
    · obtain ⟨directory, hhouses, hold⟩ :=
        FileSystem.ensureDir_old_or_bare hfs hdir.isOrdinary hensure
      have hproper : files.IsProper := hmakes.grows.isProper hfs
      have habsent : files.exists? r.state.cwd (c.dir / c.fileName key) = .ok false ∨
          files.IsBare directory := by
        rcases hold with rfl | hbare
        · exact .inl hexists
        · exact .inr hbare
      rcases hhouses.store_cases hproper hclean hplain habsent hstore with ⟨hnone, rfl⟩ | hdangles'
      · have hadds : FileSystem.Grows
            (c.MayAdd r.state.cwd (files.put (directory ++ [c.fileName key])
              (.file (.bytes data) (changed r files).state.clock))) files
            (files.put (directory ++ [c.fileName key])
              (.file (.bytes data) (changed r files).state.clock)) := by
          refine FileSystem.grows_put hhouses.node hnone Bool.false_ne_true (.inr ?_)
          exact ⟨directory, key, _, _, hhouses.put hnone Bool.false_ne_true, rfl, rfl⟩
        exact (hmade _).trans hadds
      · refine absurd hdangles' ?_
        rcases hold with rfl | hbare
        · exact hdangles directory hhouses.find (c.fileName key)
        · intro hdangles'
          obtain ⟨text, he⟩ := hdangles'.1
          rw [hbare] at he
          cases he
  · rw [hensure] at hmakes
    exact hmakes.grows.weaken fun _ _ _ => .inl

theorem grows_deliver (p : Path) (height : Int) : FileSystem.Grows
    (c.MayAdd r.state.cwd ((c.deliver p height).exec r).2.state.files)
      r.state.files ((c.deliver p height).exec r).2.state.files := by
  rcases deliver_state c p height r with hsame | ⟨key, data, hexists, hkeep⟩
  · rw [hsame]
    exact .refl _ _
  · rw [hkeep]
    exact grows_keep hname hdir hclean hfs hdangles hexists

end Deliver

end Cache

end MediaCatalog.Preview
