import Mathlib.Data.List.TakeDrop
import Mathlib.Data.List.TakeWhile
import MediaCatalog.Locator
import MediaCatalog.Proofs.Path
import MediaCatalog.Proofs.Text.Percent

namespace MediaCatalog.Locator

open Text

/-- A text as it stands behind the scheme of a `file:` URI with no host. -/
structure IsUriPath (s : List Char) : Prop where
  starts : s.head? = some '/'
  encoded : ∀ c ∈ s, Percent.IsEncoded c

def fileUri (s : List Char) : List Char := fileScheme ++ ':' :: '/' :: '/' :: s

theorem isUriPath_encode {p : Path} (h : p.isAbsolute) : IsUriPath (Percent.encode p.chars) := by
  obtain ⟨s, hs⟩ := Path.chars_of_isAbsolute h
  constructor
  · rw [hs, Percent.encode_slash, List.head?_cons]
  · intro c hc
    exact Percent.isEncoded_of_mem_encode hc

section Split

variable {s : List Char}

theorem clean_fileUri (h : IsUriPath s) : Uri.clean (fileUri s) = fileUri s := by
  have hfront : (fileUri s).dropWhile (fun c => c.toNat ≤ 0x20) = fileUri s := rfl
  have hscheme : ∀ c ∈ fileScheme ++ [':', '/', '/'], !Uri.isBreak c :=
    List.all_eq_true.1 (by decide)
  have happend : fileUri s = (fileScheme ++ [':', '/', '/']) ++ s := rfl
  rw [Uri.clean, hfront, List.filter_eq_self, happend]
  intro c hc
  rcases List.mem_append.1 hc with hc | hc
  · exact hscheme c hc
  · have hplain := (h.encoded c hc).not_mem
    simp only [List.mem_cons, List.not_mem_nil, or_false, not_or] at hplain
    simp [Uri.isBreak, hplain]

theorem splitScheme_fileUri (s : List Char) :
    Uri.splitScheme (fileUri s) = (fileScheme, '/' :: '/' :: s) := by
  have hspan : (fileUri s).span (· != ':') = (fileScheme, ':' :: '/' :: '/' :: s) := by
    rw [List.span_eq_takeWhile_dropWhile]
    rfl
  rw [Uri.splitScheme, hspan]
  rfl

theorem splitAuthority_of_starts (h : s.head? = some '/') :
    Uri.splitAuthority ('/' :: '/' :: s) = ([], s) := by
  obtain ⟨t, rfl⟩ := List.head?_eq_some_iff.1 h
  rw [Uri.splitAuthority, List.span_eq_takeWhile_dropWhile]
  rfl

theorem takeWhile_of_isUriPath (h : IsUriPath s) :
    (s.takeWhile (· != '#')).takeWhile (· != '?') = s := by
  have hfragment : s.takeWhile (· != '#') = s := by
    rw [List.takeWhile_eq_self_iff]
    intro c hc
    rw [bne_iff_ne]
    rintro rfl
    exact (h.encoded _ hc).not_mem (by decide)
  rw [hfragment, List.takeWhile_eq_self_iff]
  intro c hc
  rw [bne_iff_ne]
  rintro rfl
  exact (h.encoded _ hc).not_mem (by decide)

theorem split_fileUri (h : IsUriPath s) : Uri.split (fileUri s) = .ok ⟨fileScheme, [], s⟩ := by
  rw [Uri.split, clean_fileUri h, splitScheme_fileUri]
  simp only [splitAuthority_of_starts h.starts, takeWhile_of_isUriPath h]
  rfl

end Split

theorem isBlob_ofPath (cwd : Path) (path : String) : isBlob (ofPath cwd path) = false := by
  rw [isBlob, ofPath, String.toList_ofList]
  rfl

theorem toPath_ofPath {cwd : Path} (habs : cwd.isAbsolute) (hcwd : cwd.IsNormal) (path : String)
    (blobDir : Option Path) :
    toPath blobDir (ofPath cwd path) = .ok ((Path.ofString path).absolute cwd) := by
  have hnormal : ((Path.ofString path).absolute cwd).IsNormal :=
    hcwd.join (Path.isNormal_ofChars path.toList)
  have huri := isUriPath_encode (Path.isAbsolute_absolute (Path.ofString path) habs)
  have hblob : ¬ isBlob (ofPath cwd path) = true := by simp [isBlob_ofPath]
  have hfile : filePath (fileUri (Percent.encode ((Path.ofString path).absolute cwd).chars)) =
      .ok ((Path.ofString path).absolute cwd) := by
    simp only [filePath, split_fileUri huri, if_true, Percent.decode_encode,
      Path.ofChars_chars hnormal]
  rw [toPath.eq_def, if_neg hblob, ofPath, String.toList_ofList]
  exact hfile

/-- A path becomes a locator and comes back as the same path, below the working directory when it is
relative. So two paths share a locator exactly when they are one absolute path, and no path is taken
for a blob. -/
theorem ofPath_faithful (dir : String) (hdir : (Path.ofString dir).isAbsolute) (p q : String) :
    (∀ blobDir, toPath blobDir (ofPath (Path.ofString dir) p) =
      .ok ((Path.ofString p).absolute (Path.ofString dir))) ∧
    (ofPath (Path.ofString dir) p = ofPath (Path.ofString dir) q ↔
      (Path.ofString p).absolute (Path.ofString dir) =
        (Path.ofString q).absolute (Path.ofString dir)) ∧
    isBlob (ofPath (Path.ofString dir) p) = false := by
  have hback (path : String) := toPath_ofPath hdir (Path.isNormal_ofChars dir.toList) path
  refine ⟨hback p, ⟨fun he => ?_, fun he => ?_⟩, isBlob_ofPath _ p⟩
  · have hp := hback p none
    rw [he, hback q none] at hp
    exact (Except.ok.inj hp).symm
  · exact congrArg (fun path : Path => String.ofList (fileUri (Percent.encode path.chars))) he

theorem ofPath_faithful_sample :
    (Path.ofString "/srv/m").isAbsolute ∧
      toPath none (ofPath (Path.ofString "/srv/m") "a b/./%?#;[\t\n//../é") =
        .ok ⟨.slash, ["srv", "m", "a b", "%?#;[\t\n", "..", "é"]⟩ ∧
      ofPath (Path.ofString "/srv/m") "//x" ≠ ofPath (Path.ofString "/srv/m") "/x" := by
  have habs : (Path.ofString "/srv/m").isAbsolute := by decide
  refine ⟨habs, ?_, fun he => ?_⟩
  · exact ((ofPath_faithful "/srv/m" habs _ "").1 none).trans (by decide)
  · exact absurd ((ofPath_faithful "/srv/m" habs "//x" "/x").2.1.1 he) (by decide)

end MediaCatalog.Locator
