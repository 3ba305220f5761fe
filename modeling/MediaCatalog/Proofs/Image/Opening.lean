import MediaCatalog.Image.Open

namespace MediaCatalog

def IsTagFault (f : Failure) : Prop :=
  f = Exif.badHeader ∨ f = ⟨.other "error", "unpack requires a buffer of 4 bytes", []⟩

/-- Failures in reading a picture that are not the system's. -/
def IsPictureFault (f : Failure) : Prop := f = hugeImage ∨ f.cause = .value ∨ IsTagFault f

theorem IsPictureFault.not_isSystem {f : Failure} (h : IsPictureFault f) : f.isSystem = false := by
  rcases h with rfl | h | rfl | rfl
  · rfl
  · rw [Failure.isSystem, h]
    rfl
  · rfl
  · rfl

theorem Exif.isTagFault_of_read {file : Bytes} {f : Failure} (h : Exif.read file = .error f) :
    IsTagFault f := by
  rw [Exif.read] at h
  split at h
  · cases h
    exact .inl rfl
  · split at h
    · cases h
      exact .inr rfl
    · dsimp only at h
      split at h <;> cases h

/-- The raster of the picture has its size, and its tags fail by the system or by themselves. -/
structure Picture.IsFair (p : Picture) : Prop where
  size : ∀ r, p.load = .ok r → r.size = (p.width, p.height)
  tags : ∀ f, p.tags = .error f → f.isSystem ∨ IsTagFault f

def Opening.IsFair : Opening → Prop
  | .picture p => p.IsFair
  | .notMine => True
  | .broken f => f.isSystem ∨ f.cause = .value

theorem Bmp.isFair_openFile (b : Bytes) : (Bmp.openFile b).IsFair := by
  rw [openFile]
  split
  · trivial
  split
  · trivial
  dsimp only
  split
  · trivial
  refine ⟨fun r hr => ?_, nofun⟩
  dsimp only at hr
  split at hr
  · cases hr
    rfl
  split at hr
  · cases hr
  · cases hr
    rfl

theorem Gif.isFair_openFile (b : Bytes) : (Gif.openFile b).IsFair := by
  rw [openFile]
  split
  · trivial
  dsimp only
  split
  · rename_i p hp
    simp only [Option.bind_eq_bind, Option.bind_eq_some_iff] at hp
    obtain ⟨width, -, height, -, flags, -, ⟨⟨right, bottom⟩, data⟩, -, hp⟩ := hp
    split at hp
    · cases hp
    cases hp
    refine ⟨fun r hr => ?_, nofun⟩
    dsimp only at hr
    split at hr
    · cases hr
      rfl
    · cases hr
  · trivial

namespace Jpeg

theorem failed_segments {fuel : Nat} {s : Segments} {b : Bytes} {f : Failure}
    (h : segments fuel s b = .failed f) : f = Picture.truncatedRead := by
  fun_induction segments fuel s b
  case case6 =>
    cases h
    rfl
  all_goals first | contradiction | solve_by_elim

theorem isFair_openFile (b : Bytes) : (openFile b).IsFair := by
  rw [openFile]
  split
  · trivial
  split
  · rename_i f hf
    rw [failed_segments hf]
    exact .inl rfl
  · trivial
  split
  · trivial
  split
  · trivial
  refine ⟨fun r hr => ?_, fun f hf => ?_⟩
  · dsimp only at hr
    split at hr
    · cases hr
      rfl
    · cases hr
  · dsimp only at hf
    split at hf <;> cases hf

end Jpeg

namespace Pnm

theorem cause_of_token {fuel : Nat} {word b : Bytes} {f : Failure}
    (h : token fuel word b = .error f) : f.cause = .value := by
  fun_induction token fuel word b
  all_goals first | contradiction | solve_by_elim | (cases h; rfl)

theorem cause_of_number {b : Bytes} {f : Failure} (h : number b = .error f) : f.cause = .value := by
  rw [number] at h
  rcases ht : token (b.length + 1) [] b with g | ⟨word, rest⟩ <;> rw [ht] at h
  · cases h
    exact cause_of_token ht
  · simp only [bind, Except.bind] at h
    split at h <;> cases h
    rfl

theorem cause_of_header {b : Bytes} {f : Failure} (h : header b = .error f) : f.cause = .value := by
  rw [header] at h
  rcases hw : number b with g | ⟨width, b₁⟩ <;> rw [hw] at h
  · cases h
    exact cause_of_number hw
  rcases hh : number b₁ with g | ⟨height, b₂⟩ <;> simp only [bind, Except.bind, hh] at h
  · cases h
    exact cause_of_number hh
  rcases hm : number b₂ with g | ⟨maximum, b₃⟩ <;> simp only [hm] at h
  · cases h
    exact cause_of_number hm
  split at h <;> cases h
  rfl

theorem size_of_pixels {color : Bool} {width height maximum : Nat} {data : Bytes} {r : Raster}
    (h : pixels color width height maximum data = .ok r) : r.size = (width, height) := by
  by_cases hs : data.length < width * height * (if color then 3 else 1) *
      (if maximum < 256 then 1 else 2)
  · rw [pixels, if_pos hs] at h
    cases h
  · rw [pixels, if_neg hs] at h
    cases h
    rfl

theorem isFair_openFile (b : Bytes) : (openFile b).IsFair := by
  have hopen (color : Bool) (b : Bytes) : (openWith color b).IsFair := by
    rw [openWith]
    split
    · rename_i f hf
      exact .inr (cause_of_header hf)
    split
    · trivial
    exact ⟨fun r hr => size_of_pixels hr, nofun⟩
  rw [openFile.eq_def]
  split
  · split
    · exact hopen _ _
    · trivial
  · trivial

end Pnm

namespace Png

theorem failed_front {fuel : Nat} {chunks : Chunks} {b : Bytes} {f : Failure}
    (h : front fuel chunks b = .failed f) : f = Picture.truncatedRead ∨ f = shortHeader := by
  fun_induction front fuel chunks b
  all_goals first | contradiction | solve_by_elim | (cases h; simp)

theorem isSystem_of_rowsFrom {width unit n : Nat} {above : Array UInt8} {b : Bytes} {f : Failure}
    (h : rowsFrom width unit n above b = .error f) : f.isSystem := by
  induction n generalizing above b with
  | zero => cases h
  | succ n ih =>
      rw [rowsFrom.eq_def] at h
      dsimp only at h
      split at h
      · cases h
        rfl
      split at h
      · cases h
        rfl
      split at h
      · cases h
        rfl
      rcases hm : rowsFrom width unit n _ _ with g | more <;> rw [hm] at h <;> cases h
      exact ih hm

theorem isSystem_of_pixels {h : Header} {palette packed : Bytes} {f : Failure}
    (hf : pixels h palette packed = .error f) : f.isSystem := by
  rw [pixels] at hf
  split at hf
  · cases hf
    rfl
  split at hf
  · cases hf
    rfl
  simp only [bind, Except.bind] at hf
  split at hf
  · cases hf
    rfl
  split at hf
  · rename_i hrows
    cases hf
    exact isSystem_of_rowsFrom hrows
  · cases hf

theorem size_of_pixels {h : Header} {palette packed : Bytes} {r : Raster}
    (hr : pixels h palette packed = .ok r) : r.size = (h.width, h.height) := by
  rw [pixels] at hr
  split at hr
  · cases hr
  split at hr
  · cases hr
  simp only [bind, Except.bind] at hr
  split at hr
  · cases hr
  split at hr <;> cases hr
  rfl

theorem isFair_picture (chunks : Chunks) (h : Header) (length : Nat) (rest : Bytes) :
    (picture chunks h length rest).IsFair := by
  refine ⟨fun r hr => size_of_pixels hr, fun f hf => ?_⟩
  dsimp only [picture] at hf
  split at hf
  · exact .inr (Exif.isTagFault_of_read hf)
  rcases hload : pixels h chunks.palette (packed rest.length length rest).1 with g | r <;>
    rw [hload] at hf
  · cases hf
    exact .inl (isSystem_of_pixels hload)
  · simp only [bind, Except.bind] at hf
    split at hf
    · exact .inr (Exif.isTagFault_of_read hf)
    · cases hf

theorem isFair_openFile (b : Bytes) : (openFile b).IsFair := by
  rw [openFile]
  split
  · trivial
  split
  · rename_i f hf
    obtain rfl | rfl := failed_front hf
    · exact .inl rfl
    · exact .inr rfl
  · trivial
  · trivial
  split
  · trivial
  split
  · trivial
  · exact isFair_picture _ _ _ _

end Png

namespace Picture

theorem isFair_of_mem_openers {reader : Bytes → Opening} (h : reader ∈ openers) (b : Bytes) :
    (reader b).IsFair := by
  simp only [openers, List.mem_cons, List.not_mem_nil, or_false] at h
  rcases h with rfl | rfl | rfl | rfl | rfl
  · exact Bmp.isFair_openFile b
  · exact Gif.isFair_openFile b
  · exact Jpeg.isFair_openFile b
  · exact Pnm.isFair_openFile b
  · exact Png.isFair_openFile b

theorem firstOpening_cases {b : Bytes} {readers : List (Bytes → Opening)}
    (h : ∀ reader ∈ readers, (reader b).IsFair) :
    (∃ p, firstOpening b readers = .ok p ∧ p.IsFair) ∨
      ∃ f, firstOpening b readers = .error f ∧ (f.isSystem ∨ IsPictureFault f) := by
  induction readers with
  | nil => exact .inr ⟨_, rfl, .inl rfl⟩
  | cons reader rest ih =>
      have hfair := h reader List.mem_cons_self
      rw [firstOpening]
      split
      · rename_i p hp
        rw [hp] at hfair
        split
        · exact .inr ⟨_, rfl, .inr (.inl rfl)⟩
        · exact .inl ⟨p, rfl, hfair⟩
      · rename_i f hf
        rw [hf] at hfair
        exact .inr ⟨f, rfl, hfair.imp_right fun hv => .inr (.inl hv)⟩
      · exact ih fun reader hr => h reader (List.mem_cons_of_mem _ hr)

/-- A file either opens as a picture whose pixels have the size of its header, or fails in one of
the ways that the readers know. -/
theorem ofBytes_cases (b : Bytes) :
    (∃ p, ofBytes b = .ok p ∧ p.IsFair) ∨
      ∃ f, ofBytes b = .error f ∧ (f.isSystem ∨ IsPictureFault f) :=
  firstOpening_cases fun _ h => isFair_of_mem_openers h b

end Picture

end MediaCatalog
