import MediaCatalog.Metadata.Reading
import MediaCatalog.Proofs.Number.Binary64
import MediaCatalog.Proofs.Text.Digit

namespace MediaCatalog.Metadata

open Text

/-- The whole number that a value stands for: fractions are cut off. -/
inductive Denotes : Json → Int → Prop
  | yes : Denotes (.bool true) 1
  | whole {n : Int} : 0 < n → Denotes (.int n) n
  | floor {x : Binary64} {v : ℚ} : x.value? = some v → 0 < v → Denotes (.float x) ⌊v⌋
  | numeral {s : String} : strip s ≠ "" → IsNumeral (strip s) →
      Denotes (.str s) (decimalNumber (strip s).toList)

/-- The value looks like a number and is none. -/
inductive Misleads : Json → Failure → Prop
  | infinite : Misleads (.float (.inf false))
      ⟨.overflow, "cannot convert float infinity to integer", []⟩
  | digits {s : String} : allDigits (strip s) → ¬ IsNumeral (strip s) →
      Misleads (.str s) (Number.badInt (strip s))

def Counts (v : Json) : Prop := (∃ n, Denotes v n) ∨ ∃ f, Misleads v f

section Values

variable {v : Json} {n : Int} {f : Failure}

theorem allDigits_of_isNumeral {t : String} (hne : t ≠ "") (h : IsNumeral t) : allDigits t := by
  rw [allDigits, Bool.and_eq_true]
  refine ⟨by simpa using hne, List.all_eq_true.2 fun c hc => ?_⟩
  rw [isDigit, List.all_eq_true.1 h.1 c hc, Bool.true_or]

theorem wholeNumber_of_denotes (h : Denotes v n) : wholeNumber v = some (.ok n) := by
  cases h with
  | yes => rfl
  | whole hn => exact if_pos hn
  | floor hv hpos =>
      rw [wholeNumber, if_pos (Binary64.isPositive_iff.2 (.inr ⟨_, hv, hpos⟩)),
        Binary64.wholePart_of_pos hv hpos]
  | numeral hne hnumeral =>
      have hdigits := allDigits_of_isNumeral hne hnumeral
      simp only [wholeNumber, if_pos hdigits, Number.int?_of_allDigits hdigits, if_pos hnumeral]

theorem wholeNumber_of_misleads (h : Misleads v f) : wholeNumber v = some (.error f) := by
  cases h with
  | infinite => rfl
  | digits hdigits hnumeral =>
      simp only [wholeNumber, if_pos hdigits, Number.int?_of_allDigits hdigits, if_neg hnumeral]

theorem wholeNumber_of_not_counts (h : ¬ Counts v) : wholeNumber v = none := by
  obtain ⟨hdenotes, hmisleads⟩ := not_or.1 h
  cases v with
  | null | arr | obj => rfl
  | bool b =>
      cases b with
      | false => rfl
      | true => exact absurd ⟨1, .yes⟩ hdenotes
  | int n => exact if_neg fun hn => hdenotes ⟨n, .whole hn⟩
  | float x =>
      refine if_neg fun hx => ?_
      rcases Binary64.isPositive_iff.1 hx with rfl | ⟨v, hv, hpos⟩
      · exact hmisleads ⟨_, .infinite⟩
      · exact hdenotes ⟨_, .floor hv hpos⟩
  | str s =>
      refine if_neg fun hdigits => ?_
      by_cases hnumeral : IsNumeral (strip s)
      · refine hdenotes ⟨_, .numeral (fun hempty => ?_) hnumeral⟩
        rw [hempty] at hdigits
        cases hdigits
      · exact hmisleads ⟨_, .digits hdigits hnumeral⟩

theorem Denotes.nonneg (h : Denotes v n) : 0 ≤ n := by
  cases h with
  | yes => decide
  | whole hn => exact hn.le
  | floor _ hpos => exact Int.floor_nonneg.2 hpos.le
  | numeral => exact Int.natCast_nonneg _

end Values

section Names

variable {tags : Tags} {names front : List String} {v w : Json} {n : Int} {f : Failure}
  {out : Option Int}

def Ignored (tags : Tags) (name : String) : Prop := ∀ v, field? name tags = some v → ¬ Counts v

def Leads (tags : Tags) (names : List String) (v : Json) : Prop :=
  ∃ front name back, names = front ++ name :: back ∧ field? name tags = some v ∧ Counts v ∧
    ∀ m ∈ front, Ignored tags m

theorem firstInt_append (h : ∀ m ∈ front, Ignored tags m) (names : List String) :
    firstInt tags (front ++ names) = firstInt tags names := by
  induction front with
  | nil => rfl
  | cons name front ih =>
      obtain ⟨hname, hfront⟩ := List.forall_mem_cons.1 h
      have hnone : (field? name tags).bind wholeNumber = none := by
        cases hv : field? name tags with
        | none => rfl
        | some v => exact wholeNumber_of_not_counts (hname v hv)
      rw [List.cons_append, firstInt, hnone]
      exact ih hfront

theorem firstInt_of_ignored (h : ∀ m ∈ names, Ignored tags m) : firstInt tags names = .ok none := by
  rw [← List.append_nil names, firstInt_append h]
  rfl

theorem Leads.firstInt_of_denotes (h : Leads tags names v) (hn : Denotes v n) :
    firstInt tags names = .ok (some n) := by
  obtain ⟨front, name, back, rfl, hv, -, hfront⟩ := h
  rw [firstInt_append hfront, firstInt, hv, Option.bind_some, wholeNumber_of_denotes hn]

theorem Leads.firstInt_of_misleads (h : Leads tags names v) (hf : Misleads v f) :
    firstInt tags names = .error f := by
  obtain ⟨front, name, back, rfl, hv, -, hfront⟩ := h
  rw [firstInt_append hfront, firstInt, hv, Option.bind_some, wholeNumber_of_misleads hf]

theorem ignored_or_leads (tags : Tags) (names : List String) :
    (∀ m ∈ names, Ignored tags m) ∨ ∃ v, Leads tags names v := by
  induction names with
  | nil => exact .inl fun _ h => absurd h List.not_mem_nil
  | cons name names ih =>
      by_cases hname : Ignored tags name
      · rcases ih with hnames | ⟨v, front, m, back, rfl, hv, hcounts, hfront⟩
        · exact .inl (List.forall_mem_cons.2 ⟨hname, hnames⟩)
        · exact .inr ⟨v, name :: front, m, back, rfl, hv, hcounts,
            List.forall_mem_cons.2 ⟨hname, hfront⟩⟩
      · obtain ⟨v, hname⟩ := not_forall.1 hname
        obtain ⟨hv, hcounts⟩ := Classical.not_imp.1 hname
        rw [not_not] at hcounts
        exact .inr ⟨v, [], name, names, rfl, hv, hcounts, fun _ h => absurd h List.not_mem_nil⟩

theorem firstInt_cases (tags : Tags) (names : List String) :
    ((∀ m ∈ names, Ignored tags m) ∧ firstInt tags names = .ok none) ∨
    (∃ v n, Leads tags names v ∧ Denotes v n ∧ firstInt tags names = .ok (some n)) ∨
    ∃ v f, Leads tags names v ∧ Misleads v f ∧ firstInt tags names = .error f := by
  rcases ignored_or_leads tags names with h | ⟨v, hv⟩
  · exact .inl ⟨h, firstInt_of_ignored h⟩
  · obtain ⟨-, -, -, -, -, hcounts, -⟩ := id hv
    rcases hcounts with ⟨n, hn⟩ | ⟨f, hf⟩
    · exact .inr (.inl ⟨v, n, hv, hn, hv.firstInt_of_denotes hn⟩)
    · exact .inr (.inr ⟨v, f, hv, hf, hv.firstInt_of_misleads hf⟩)

theorem firstInt_eq_none_iff : firstInt tags names = .ok none ↔ ∀ m ∈ names, Ignored tags m := by
  refine ⟨fun h => ?_, firstInt_of_ignored⟩
  rcases firstInt_cases tags names with ⟨hnames, -⟩ | ⟨v, n, -, -, hout⟩ | ⟨v, f, -, -, hout⟩
  · exact hnames
  · cases h.symm.trans hout
  · cases h.symm.trans hout

theorem firstInt_eq_some_iff :
    firstInt tags names = .ok (some n) ↔ ∃ v, Leads tags names v ∧ Denotes v n := by
  refine ⟨fun h => ?_, fun ⟨v, hv, hn⟩ => hv.firstInt_of_denotes hn⟩
  rcases firstInt_cases tags names with ⟨-, hout⟩ | ⟨v, m, hv, hm, hout⟩ | ⟨v, f, -, -, hout⟩
  · cases h.symm.trans hout
  · cases h.symm.trans hout
    exact ⟨v, hv, hm⟩
  · cases h.symm.trans hout

theorem firstInt_nonneg (h : firstInt tags names = .ok (some n)) : 0 ≤ n := by
  obtain ⟨v, -, hn⟩ := firstInt_eq_some_iff.1 h
  exact hn.nonneg

theorem firstInt_eq_error_iff :
    firstInt tags names = .error f ↔ ∃ v, Leads tags names v ∧ Misleads v f := by
  refine ⟨fun h => ?_, fun ⟨v, hv, hf⟩ => hv.firstInt_of_misleads hf⟩
  rcases firstInt_cases tags names with ⟨-, hout⟩ | ⟨v, n, -, -, hout⟩ | ⟨v, g, hv, hg, hout⟩
  · cases h.symm.trans hout
  · cases h.symm.trans hout
  · cases h.symm.trans hout
    exact ⟨v, hv, hg⟩

/-- The name has a value that stands for a positive number. -/
def Usable (tags : Tags) (name : String) (n : Int) : Prop :=
  ∃ v, field? name tags = some v ∧ Denotes v n ∧ 0 < n

/-- The number of the first usable name, if there is any. -/
inductive FirstUsable (tags : Tags) (names : List String) : Option Int → Prop
  | absent : (∀ m ∈ names, ∀ n, ¬ Usable tags m n) → FirstUsable tags names none
  | found {front back : List String} {name : String} {n : Int} : names = front ++ name :: back →
      (∀ m ∈ front, ∀ k, ¬ Usable tags m k) → Usable tags name n →
      FirstUsable tags names (some n)

theorem Ignored.not_usable {name : String} (h : Ignored tags name) (n : Int) :
    ¬ Usable tags name n := by
  rintro ⟨v, hv, hn, -⟩
  exact h v hv (.inl ⟨n, hn⟩)

theorem FirstUsable.pos (h : FirstUsable tags names (some n)) : 0 < n := by
  cases h with
  | found _ _ h =>
      obtain ⟨v, -, -, hpos⟩ := h
      exact hpos

/-- The first value that counts has to be a positive number. -/
theorem exists_firstUsable_iff (tags : Tags) (names : List String) :
    (∃ out, firstInt tags names = .ok out ∧ FirstUsable tags names out) ↔
      ∀ v, Leads tags names v → ∃ n, Denotes v n ∧ 0 < n := by
  constructor
  · rintro ⟨out, hout, hfirst⟩ v hv
    obtain ⟨-, -, -, -, -, hcounts, -⟩ := id hv
    rcases hcounts with ⟨n, hn⟩ | ⟨f, hf⟩
    · rw [hv.firstInt_of_denotes hn] at hout
      cases hout
      exact ⟨n, hn, hfirst.pos⟩
    · rw [hv.firstInt_of_misleads hf] at hout
      cases hout
  · intro h
    rcases ignored_or_leads tags names with hnames | ⟨v, hv⟩
    · exact ⟨none, firstInt_of_ignored hnames, .absent fun m hm => (hnames m hm).not_usable⟩
    · obtain ⟨n, hn, hpos⟩ := h v hv
      refine ⟨some n, hv.firstInt_of_denotes hn, ?_⟩
      obtain ⟨front, name, back, hnames, hname, -, hfront⟩ := hv
      exact .found hnames (fun m hm => (hfront m hm).not_usable) ⟨v, hname, hn, hpos⟩

end Names

section Frames

variable {tags : Tags} {w h : String} {f : Failure}

def frameWords (tags : Tags) : List String :=
  let text := ((field? "Composite:ImageSize" tags).map Json.text).getD ""
  words (String.ofList ((lower text).toList.map fun c => if c = 'x' then ' ' else c))

def IsFrame (tags : Tags) (w h : String) : Prop :=
  frameWords tags = [w, h] ∧ allDigits w ∧ allDigits h

/-- Why there is no frame size: one of two words of digits is no number, or else a width or a height
misleads. -/
inductive FrameFault (tags : Tags) : Failure → Prop
  | firstWord {w h : String} : IsFrame tags w h → ¬ IsNumeral w → FrameFault tags (Number.badInt w)
  | secondWord {w h : String} : IsFrame tags w h → IsNumeral w → ¬ IsNumeral h →
      FrameFault tags (Number.badInt h)
  | width {v : Json} {f : Failure} : (∀ w h, ¬ IsFrame tags w h) → Leads tags widthNames v →
      Misleads v f → FrameFault tags f
  | height {v : Json} {f : Failure} {out : Option Int} : (∀ w h, ¬ IsFrame tags w h) →
      firstInt tags widthNames = .ok out → Leads tags heightNames v → Misleads v f →
      FrameFault tags f

theorem wholeNumber?_of_allDigits {t : String} (ht : allDigits t) : wholeNumber? t =
    if IsNumeral t then .ok (decimalNumber t.toList : Int) else .error (Number.badInt t) := by
  rw [wholeNumber?, Number.int?_of_allDigits ht]
  by_cases hnumeral : IsNumeral t
  · rw [if_pos hnumeral, if_pos hnumeral]
  · rw [if_neg hnumeral, if_neg hnumeral]

theorem IsFrame.frameSize_eq (hframe : IsFrame tags w h) : frameSize tags =
    if IsNumeral w then
      if IsNumeral h then .ok ((decimalNumber w.toList : Int), (decimalNumber h.toList : Int))
      else .error (Number.badInt h)
    else .error (Number.badInt w) := by
  obtain ⟨hwords, hw, hh⟩ := hframe
  rw [frameWords] at hwords
  simp only [frameSize, hwords, hw, hh, Bool.and_self, if_true, wholeNumber?_of_allDigits hw,
    wholeNumber?_of_allDigits hh]
  by_cases hwn : IsNumeral w
  · by_cases hhn : IsNumeral h
    · simp only [if_pos hwn, if_pos hhn]
      rfl
    · simp only [if_pos hwn, if_neg hhn]
      rfl
  · simp only [if_neg hwn]
    rfl

theorem frameSize_of_not_isFrame (hnot : ∀ w h, ¬ IsFrame tags w h) :
    frameSize tags = frameSize.separate tags := by
  rw [frameSize]
  split
  · rename_i w h hwords
    refine if_neg fun hdigits => hnot w h ⟨hwords, ?_⟩
    exact Bool.and_eq_true_iff.1 hdigits
  · rfl

theorem separate_eq_error_iff : frameSize.separate tags = .error f ↔
    firstInt tags widthNames = .error f ∨
      ∃ out, firstInt tags widthNames = .ok out ∧ firstInt tags heightNames = .error f := by
  rw [frameSize.separate]
  cases firstInt tags widthNames with
  | error g => simp [bind, Except.bind]
  | ok out => cases firstInt tags heightNames <;> simp [bind, Except.bind, pure, Except.pure]

theorem frameSize_eq_error_iff (tags : Tags) (f : Failure) :
    frameSize tags = .error f ↔ FrameFault tags f := by
  constructor
  · intro hf
    by_cases hframe : ∃ w h, IsFrame tags w h
    · obtain ⟨w, h, hframe⟩ := hframe
      rw [hframe.frameSize_eq] at hf
      split at hf
      · rename_i hw
        split at hf
        · cases hf
        · cases hf
          exact .secondWord hframe hw ‹_›
      · cases hf
        exact .firstWord hframe ‹_›
    · have hnot : ∀ w h, ¬ IsFrame tags w h := fun w h hwh => hframe ⟨w, h, hwh⟩
      rw [frameSize_of_not_isFrame hnot, separate_eq_error_iff] at hf
      rcases hf with hf | ⟨out, hout, hf⟩
      · obtain ⟨v, hv, hmisleads⟩ := firstInt_eq_error_iff.1 hf
        exact .width hnot hv hmisleads
      · obtain ⟨v, hv, hmisleads⟩ := firstInt_eq_error_iff.1 hf
        exact .height hnot hout hv hmisleads
  · intro hfault
    cases hfault with
    | firstWord hframe hw => rw [hframe.frameSize_eq, if_neg hw]
    | secondWord hframe hw hh => rw [hframe.frameSize_eq, if_pos hw, if_neg hh]
    | width hnot hv hmisleads =>
        rw [frameSize_of_not_isFrame hnot, separate_eq_error_iff]
        exact .inl (hv.firstInt_of_misleads hmisleads)
    | height hnot hout hv hmisleads =>
        rw [frameSize_of_not_isFrame hnot, separate_eq_error_iff]
        exact .inr ⟨_, hout, hv.firstInt_of_misleads hmisleads⟩

end Frames

/-- The names yield nothing when no value under them counts, and otherwise what the first such value
stands for, or a failure when it misleads. They yield the first usable number exactly when the first
value that counts is one: a zero in front hides the numbers behind it, and makes a size of zero. A
frame size fails to be read exactly when a number in it does. -/
theorem firstInt_decided (tags : Tags) (names : List String) :
    (firstInt tags names = .ok none ↔ ∀ m ∈ names, Ignored tags m) ∧
    (∀ n, firstInt tags names = .ok (some n) ↔ ∃ v, Leads tags names v ∧ Denotes v n) ∧
    (∀ f, firstInt tags names = .error f ↔ ∃ v, Leads tags names v ∧ Misleads v f) ∧
    ((∃ out, firstInt tags names = .ok out ∧ FirstUsable tags names out) ↔
      ∀ v, Leads tags names v → ∃ n, Denotes v n ∧ 0 < n) ∧
    (byteSize tags = .ok (some 0) ↔ ∃ v, Leads tags sizeNames v ∧ Denotes v 0) ∧
    ∀ f, frameSize tags = .error f ↔ FrameFault tags f :=
  ⟨firstInt_eq_none_iff, fun _ => firstInt_eq_some_iff, fun _ => firstInt_eq_error_iff,
    exists_firstUsable_iff tags names, firstInt_eq_some_iff, frameSize_eq_error_iff tags⟩

/-- Zero digits hide a number behind them and make a size of zero; a digit without a place value and
infinity make the reading fail. -/
theorem firstInt_astray :
    firstInt [("a", .str "0"), ("b", .int 5)] ["a", "b"] = .ok (some 0) ∧
    Usable [("a", .str "0"), ("b", .int 5)] "b" 5 ∧
    byteSize [("System:FileSize", .float (.finite false 1 (-1)))] = .ok (some 0) ∧
    byteSize [("System:FileSize", .str "²")] = .error (Number.badInt "²") ∧
    byteSize [("System:FileSize", .float (.inf false))] =
      .error ⟨.overflow, "cannot convert float infinity to integer", []⟩ ∧
    frameSize [("Composite:ImageSize", .str "² 3")] = .error (Number.badInt "²") := by
  have hhalf : Denotes (.float (.finite false 1 (-1))) 0 := by
    have hfloor : ⌊(1 / 2 : ℚ)⌋ = 0 := by norm_num
    rw [← hfloor]
    exact .floor (by norm_num [Binary64.value?]) (by norm_num)
  refine ⟨rfl, ⟨.int 5, rfl, .whole (by decide), by decide⟩, ?_, rfl, rfl, rfl⟩
  exact firstInt_eq_some_iff.2 ⟨_, ⟨[], _, _, rfl, rfl, .inl ⟨0, hhalf⟩, by simp⟩, hhalf⟩

end MediaCatalog.Metadata
