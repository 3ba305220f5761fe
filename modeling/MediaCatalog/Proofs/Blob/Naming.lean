import MediaCatalog.Blob.Persist
import MediaCatalog.Proofs.FileSystem.Entry
import MediaCatalog.Proofs.Preview.Key

namespace MediaCatalog.Blob

open FileSystem

structure IsWord (word : String) : Prop where
  ne_empty : word ≠ ""
  isAlphanum : ∀ c ∈ word.toList, c.isAlphanum

variable {word word' mime mime' name name' : String} {n : Nat} {c : Char}

section Words

theorem isAlphanum_digitChar : ∀ n < 16, (Nat.digitChar n).isAlphanum := by decide

theorem isAlphanum_toDigits (n : Nat) : ∀ c ∈ Nat.toDigits 16 n, c.isAlphanum := by
  induction n using Nat.strongRecOn with
  | ind n ih =>
      intro c hc
      rw [Nat.toDigits_eq_if (by decide)] at hc
      split at hc
      · obtain rfl := List.mem_singleton.1 hc
        exact isAlphanum_digitChar n ‹_›
      · rename_i hn
        rcases List.mem_append.1 hc with hc | hc
        · exact ih _ (Nat.div_lt_self (by omega) (by decide)) c hc
        · obtain rfl := List.mem_singleton.1 hc
          exact isAlphanum_digitChar _ (Nat.mod_lt n (by decide))

theorem isAlphanum_hexText (width n : Nat) : ∀ c ∈ Text.hexText width n, c.isAlphanum := by
  intro c hc
  rw [Text.hexText] at hc
  rcases List.mem_append.1 hc with hc | hc
  · obtain rfl := List.eq_of_mem_replicate hc
    decide
  · exact isAlphanum_toDigits n c hc

theorem length_hexText_le (width n : Nat) : width ≤ (Text.hexText width n).length := by
  rw [Text.hexText, List.length_append, List.length_replicate]
  omega

theorem length_hexText {width : Nat} (hwidth : 0 < width) (hn : n < Nat.pow 16 width) :
    (Text.hexText width n).length = width := by
  have hle := (Nat.length_toDigits_le_iff (by decide) hwidth).2 hn
  rw [Text.hexText, List.length_append, List.length_replicate]
  omega

def hexValue (s : List Char) : Nat :=
  s.foldl (fun n c => 16 * n + "0123456789abcdef".toList.idxOf c) 0

theorem hexValue_toDigits (n : Nat) : hexValue (Nat.toDigits 16 n) = n := by
  have hdigit : ∀ d < 16, "0123456789abcdef".toList.idxOf (Nat.digitChar d) = d := by decide
  induction n using Nat.strongRecOn with
  | ind n ih =>
      rw [Nat.toDigits_eq_if (by decide)]
      split
      · rw [hexValue, List.foldl_cons, hdigit n ‹_›]
        exact Nat.zero_add n
      · rename_i hn
        have hfront := ih (n / 16) (Nat.div_lt_self (by omega) (by decide))
        rw [hexValue] at hfront ⊢
        rw [List.foldl_append, hfront, List.foldl_cons, hdigit _ (Nat.mod_lt n (by decide))]
        exact Nat.div_add_mod n 16

theorem hexValue_hexText (width n : Nat) : hexValue (Text.hexText width n) = n := by
  have hzeros (k : Nat) : hexValue (List.replicate k '0') = 0 := by
    induction k with
    | zero => rfl
    | succ k ih => exact ih
  have hn := hexValue_toDigits n
  rw [hexValue] at hn
  rw [Text.hexText, hexValue, List.foldl_append]
  exact (congrArg (List.foldl _ · _) (hzeros _)).trans hn

theorem hexText_injective {width m : Nat} (h : Text.hexText width n = Text.hexText width m) :
    n = m := by
  rw [← hexValue_hexText width n, h, hexValue_hexText]

theorem isWord_of_all {word : String} (hne : word ≠ "") (hall : word.toList.all Char.isAlphanum) :
    IsWord word :=
  ⟨hne, List.all_eq_true.1 hall⟩

theorem isWord_fresh (n : Nat) : IsWord (String.ofList (Text.hexText 32 n)) where
  ne_empty h := by
    have hlength := length_hexText_le 32 n
    rw [← String.toList_ofList (l := Text.hexText 32 n), h] at hlength
    exact absurd hlength (by decide)
  isAlphanum c hc := isAlphanum_hexText 32 n c (by rwa [String.toList_ofList] at hc)

theorem isAlphanum_extension (mime : String) : ∀ c ∈ (extension mime).toList, c.isAlphanum := by
  have hpreferred : ∀ p ∈ preferred, p.2.toList.all Char.isAlphanum := by decide
  have htable : ∀ p ∈ Mime.table, p.1.toList.all Char.isAlphanum := by decide +kernel
  have hbin : "bin".toList.all Char.isAlphanum := by decide
  rw [extension, ← List.all_eq_true]
  split
  · exact hpreferred _ (List.mem_of_find?_eq_some ‹_›)
  · rw [Mime.extension?]
    cases hfind : Mime.table.find? (fun p => p.2 == Text.lower mime) with
    | none => exact hbin
    | some p => exact htable p (List.mem_of_find?_eq_some hfind)

end Words

section Names

theorem toList_nameFor (word mime : String) :
    (nameFor word mime).toList = word.toList ++ '.' :: (extension mime).toList := by
  rw [nameFor, String.toList_append, String.toList_append, List.append_assoc]
  rfl

theorem toList_partName (name : String) :
    (partName name).toList = '.' :: (name.toList ++ ".part".toList) := by
  rw [partName, String.toList_append, String.toList_append, List.append_assoc]
  rfl

theorem IsWord.head (h : IsWord word) : ∃ c s, word.toList = c :: s ∧ c.isAlphanum := by
  cases hw : word.toList with
  | nil => exact absurd (String.toList_inj.1 hw) h.ne_empty
  | cons c s => exact ⟨c, s, rfl, h.isAlphanum c (hw ▸ List.mem_cons_self)⟩

theorem isPlainChar_of_mem_nameFor (h : IsWord word) (hc : c ∈ (nameFor word mime).toList) :
    c ≠ '/' ∧ c ≠ Char.ofNat 0 := by
  have halnum (hc : c.isAlphanum) : c ≠ '/' ∧ c ≠ Char.ofNat 0 := by
    constructor <;> rintro rfl <;> exact absurd hc (by decide)
  rw [toList_nameFor] at hc
  rcases List.mem_append.1 hc with hc | hc
  · exact halnum (h.isAlphanum c hc)
  · rcases List.mem_cons.1 hc with rfl | hc
    · exact ⟨by decide, by decide⟩
    · exact halnum (isAlphanum_extension mime c hc)

theorem isPlainChar_of_mem_partName (h : IsWord word)
    (hc : c ∈ (partName (nameFor word mime)).toList) : c ≠ '/' ∧ c ≠ Char.ofNat 0 := by
  have hpart : ∀ c ∈ ".part".toList, c ≠ '/' ∧ c ≠ Char.ofNat 0 := by simp
  rw [toList_partName] at hc
  rcases List.mem_cons.1 hc with rfl | hc
  · exact ⟨by decide, by decide⟩
  · rcases List.mem_append.1 hc with hc | hc
    · exact isPlainChar_of_mem_nameFor h hc
    · exact hpart c hc

theorem isPlain_of_chars {name : String} (hname : ∀ c ∈ name.toList, c ≠ '/' ∧ c ≠ Char.ofNat 0)
    (hempty : name.toList ≠ []) (hdot : name.toList ≠ ['.']) (hdots : name.toList ≠ ['.', '.']) :
    IsPlain name where
  isComponent :=
    { ne_empty := by
        rintro rfl
        exact hempty rfl
      ne_dot := by
        rintro rfl
        exact hdot rfl
      no_slash := fun h => (hname _ h).1 rfl }
  ne_dots := by
    rintro rfl
    exact hdots rfl
  clean h := (hname _ (List.contains_iff_mem.1 h)).2 rfl

theorem head_nameFor (h : IsWord word) (mime : String) :
    ∃ c s, (nameFor word mime).toList = c :: s ∧ c.isAlphanum := by
  obtain ⟨c, s, hw, hc⟩ := h.head
  rw [toList_nameFor, hw]
  exact ⟨c, _, rfl, hc⟩

theorem isPlain_nameFor (h : IsWord word) (mime : String) : IsPlain (nameFor word mime) := by
  obtain ⟨c, s, hw, hc⟩ := head_nameFor h mime
  have hne : c ≠ '.' := by
    rintro rfl
    exact absurd hc (by decide)
  refine isPlain_of_chars (fun _ => isPlainChar_of_mem_nameFor h) ?_ ?_ ?_ <;> rw [hw]
  · exact List.cons_ne_nil c s
  · exact fun h => hne (List.cons.inj h).1
  · exact fun h => hne (List.cons.inj h).1

theorem isPlain_partName (h : IsWord word) (mime : String) :
    IsPlain (partName (nameFor word mime)) := by
  have hlong : 3 ≤ (partName (nameFor word mime)).toList.length := by
    rw [toList_partName, List.length_cons, List.length_append]
    exact Nat.succ_le_succ (Nat.le_add_left_of_le (by decide))
  refine isPlain_of_chars (fun _ => isPlainChar_of_mem_partName h) ?_ ?_ ?_ <;> intro hshort <;>
    rw [hshort] at hlong <;> exact absurd hlong (by decide)

theorem nameFor_injective (h : nameFor word mime = nameFor word' mime') : word = word' := by
  have hfree (mime : String) : '.' ∉ (extension mime).toList := fun hdot =>
    absurd (isAlphanum_extension mime _ hdot) (by decide)
  have hchars := congrArg String.toList h
  rw [toList_nameFor, toList_nameFor] at hchars
  exact String.toList_inj.1 (Preview.append_separator_inj (hfree mime) (hfree mime') hchars).1

theorem partName_injective (h : partName name = partName name') : name = name' := by
  have hchars := congrArg String.toList h
  rw [toList_partName, toList_partName] at hchars
  exact String.toList_inj.1 (List.append_cancel_right (List.cons.inj hchars).2)

theorem nameFor_ne_partName (h : IsWord word) (mime name : String) :
    nameFor word mime ≠ partName name := by
  intro heq
  obtain ⟨c, s, hw, hc⟩ := head_nameFor h mime
  rw [heq, toList_partName] at hw
  obtain rfl := (List.cons.inj hw).1
  exact absurd hc (by decide)

end Names

section Sizes

theorem size_toList (s : String) :
    Text.Utf8.size s = (Text.Utf8.encode s.toList).length := rfl

theorem size_le_partName (name : String) : Text.Utf8.size name ≤ Text.Utf8.size (partName name) := by
  rw [size_toList, size_toList, toList_partName, Text.Utf8.encode, Text.Utf8.encode,
    List.flatMap_cons, List.flatMap_append, List.length_append, List.length_append]
  omega

theorem exists_chars_div (p : Path) :
    ∃ front, ∀ name, Path.IsComponent name → (p / name).chars = front ++ name.toList := by
  by_cases hparts : p.parts = []
  · refine ⟨Path.Root.chars p.root, fun name hname => ?_⟩
    rw [Path.div_component hname, hparts, Path.chars_eq (.inr (by simp))]
    rfl
  · refine ⟨Path.Root.chars p.root ++ (Path.joinParts p.parts ++ ['/']), fun name hname => ?_⟩
    rw [Path.div_component hname, Path.chars_eq (.inr (by simp))]
    dsimp only
    rw [Path.joinParts_concat hparts, List.append_assoc, List.append_assoc]
    rfl

theorem fits_of_partName {p : Path} (h : IsWord word)
    (hfits : Fits p (partName (nameFor word mime))) : Fits p (nameFor word mime) := by
  obtain ⟨front, hfront⟩ := exists_chars_div p
  have hsize (name : String) (hname : IsPlain name) : Text.Utf8.size (p / name).toString =
      (Text.Utf8.encode front).length + Text.Utf8.size name := by
    rw [size_toList, Path.toString, String.toList_ofList, hfront name hname.isComponent,
      Text.Utf8.encode, List.flatMap_append, List.length_append]
    rfl
  have hle := size_le_partName (nameFor word mime)
  have hpart := hsize _ (isPlain_partName h mime)
  have hname := hsize _ (isPlain_nameFor h mime)
  rw [Fits] at hfits ⊢
  omega

end Sizes

end MediaCatalog.Blob
