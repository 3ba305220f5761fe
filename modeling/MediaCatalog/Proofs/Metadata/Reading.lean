import Mathlib
import MediaCatalog.Metadata.Reading
import MediaCatalog.Proofs.FileSystem.Entry
import MediaCatalog.Proofs.Image.Opening
import MediaCatalog.Proofs.Json.Pairs
import MediaCatalog.Proofs.World

namespace MediaCatalog.Metadata

open World Act

section Replies

/-- Replies that hold tags: nothing in any form, or a list that starts with pairs. -/
inductive HoldsTags : Json → Prop
  | nothing {v : Json} (h : v.isTruthy = false) : HoldsTags v
  | first {v : Json} (h : Json.HasPairs v) (rest : List Json) : HoldsTags (.arr (v :: rest))

/-- The reader ends well, but prints an endless number or a value that holds no tags. -/
def IsGarbled (r : Reply) : Prop :=
  r.code = 0 ∧ (Json.read (linesOf r.output) = .error .tooManyDigits ∨
    ∃ v, Json.read (linesOf r.output) = .ok v ∧ ¬ HoldsTags v)

theorem judges_first (v : Json) :
    Judges (HoldsTags v) (do (← firstElement v).pairs) := by
  cases htruthy : v.isTruthy with
  | false =>
      simp only [firstElement, htruthy]
      exact .ok (.nothing htruthy) []
  | true =>
      have hnot : ¬ v.isTruthy = false := by simp [htruthy]
      simp only [firstElement, htruthy]
      cases v with
      | arr xs =>
          cases xs with
          | nil => cases htruthy
          | cons x rest =>
              exact (Json.judges_pairs x).congr ⟨fun h => .first h rest, fun
                | .nothing h => absurd h hnot
                | .first h _ => h⟩
      | str s =>
          obtain ⟨c, cs, hs⟩ : ∃ c cs, s.toList = c :: cs := by
            cases hs : s.toList with
            | nil => simp_all [Json.isTruthy]
            | cons c cs => exact ⟨c, cs, rfl⟩
          have hfirst : ¬ Json.HasPairs (.str (String.ofList [c])) := by
            intro h
            generalize ht : String.ofList [c] = t at h
            cases h
            simp at ht
          refine ((Json.judges_pairs _).congr ?_ : Judges _ (Json.pairs (.str _)))
          rw [hs]
          exact ⟨fun h => absurd h hfirst, fun | .nothing h => absurd h hnot⟩
      | null | bool | int | float | obj =>
          exact .error (fun | .nothing h => hnot h) rfl

theorem isGarbled_iff (p : Path) (r : Reply) :
    IsGarbled r ↔ ∃ f, tagsOfReply p r = .error f ∧ f.isSystem = false := by
  by_cases hcode : r.code = 0
  swap
  · rw [tagsOfReply, if_pos hcode]
    refine ⟨fun h => absurd h.1 hcode, fun ⟨f, hf, hsystem⟩ => ?_⟩
    cases hf
    cases hsystem
  rw [tagsOfReply, if_neg (not_not.2 hcode)]
  cases hread : Json.read (linesOf r.output) with
  | error fault =>
      have hgarbled : IsGarbled r ↔ fault = .tooManyDigits := by
        simp [IsGarbled, hcode, hread]
      rw [hgarbled]
      refine ⟨fun h => ⟨_, rfl, h ▸ rfl⟩, fun ⟨f, hf, hsystem⟩ => ?_⟩
      cases hf
      cases fault <;> first | rfl | cases hsystem
  | ok v =>
      have hgarbled : IsGarbled r ↔ ¬ HoldsTags v := by simp [IsGarbled, hcode, hread]
      rw [hgarbled]
      dsimp only
      rw [← bind_assoc]
      exact (((judges_first v).bind fun _ => .ok trivial _).congr (and_iff_left trivial)).not_iff

end Replies

section Reading

variable {w : World} {p : Path} {node : Node}

def replyFor (replies : List (String × Reply)) (p : Path) : Reply :=
  ((field? p.name replies).orElse fun _ => field? "*" replies).getD {}

def tagsAt (w : World) (p : Path) : Except Failure Tags :=
  match w.tagReader with
  | some replies => if p.hasNull then .error nullCharacter else tagsOfReply p (replyFor replies p)
  | none => do pictureTags (← Picture.ofBytes (← w.files.load w.cwd p).1.toBytes)

def IsSpoiled (b : Bytes) : Prop :=
  ∃ f, (do (← Picture.ofBytes b).tags) = .error f ∧ IsPictureFault f

def Chokes (w : World) (p : Path) : Prop :=
  match w.tagReader with
  | some replies => IsGarbled (replyFor replies p)
  | none => ∃ content changedAt, w.files.load w.cwd p = .ok (content, changedAt) ∧
      IsSpoiled content.toBytes

/-- The tags that the reader leaves: its own, or a note why the system refused it. -/
inductive Leaves (w : World) (p : Path) : Tags → Prop
  | found {tags : Tags} (h : tagsAt w p = .ok tags) : Leaves w p tags
  | noted {f : Failure} (h : tagsAt w p = .error f) (hf : f.isSystem) :
      Leaves w p [("_error", .str f.message)]

def basicTags (p : Path) (node : Node) : Tags :=
  [("Basic:Filename", .str p.name), ("Basic:Size", .int (basics node).1),
    ("Basic:Modified", .int (seconds (basics node).2))]

/-- The tags tell their source and the basic facts, unless the reader tells these otherwise, and
are those of the reader besides. -/
structure Describes (w : World) (p : Path) (node : Node) (left tags : Tags) : Prop where
  source : field? "_source" tags = some (.str (sourceOf w))
  basics : ∀ t ∈ basicTags p node, field? t.1 tags = some ((field? t.1 left).getD t.2)
  others : ∀ name, name ≠ "_source" → name ∉ (basicTags p node).map (·.1) →
    field? name tags = field? name left

theorem field?_setDefault (name other : String) (value : Json) (tags : Tags) :
    field? other (setDefault name value tags) =
      if other = name then some ((field? name tags).getD value) else field? other tags := by
  rw [setDefault]
  cases h : field? name tags with
  | none => simp [field?_setField]
  | some v =>
      by_cases hother : other = name
      · simp [hother, h]
      · simp [hother]

def described (w : World) (p : Path) (node : Node) (left : Tags) : Tags :=
  (basicTags p node).foldl (fun tags t => setDefault t.1 t.2 tags)
    (setField "_source" (.str (sourceOf w)) left)

theorem describes_described (w : World) (p : Path) (node : Node) (left : Tags) :
    Describes w p node left (described w p node left) where
  source := by simp [described, basicTags, field?_setDefault, field?_setField]
  basics := by simp [described, basicTags, field?_setDefault, field?_setField]
  others name hsource hbasic := by
    simp only [basicTags, List.map_cons, List.map_nil, List.mem_cons, List.not_mem_nil, or_false,
      not_or] at hbasic
    simp [described, basicTags, field?_setDefault, field?_setField, hsource, hbasic]

theorem exec_readTags (p : Path) (r : Run World) :
    (readTags p).exec r = (tagsAt r.state p, r) := by
  rw [readTags, askReader, bind_assoc, exec_bind_ok (exec_getState r), tagsAt]
  cases r.state.tagReader with
  | none =>
      rw [pure_bind, readPicture, Picture.openPath, exec_bind, exec_bind, exec_load]
      cases r.state.files.load r.state.cwd p with
      | error f => rfl
      | ok found =>
          dsimp only [Except.map]
          rw [exec_ofExcept]
          cases hopen : Picture.ofBytes found.1.toBytes <;> simp [hopen, bind, Except.bind]
  | some replies =>
      dsimp only
      split
      · rfl
      · rw [bind_assoc, exec_bind, exec_ofExcept, replyFor]
        cases tagsOfReply p _ <;> rfl

theorem exec_read (p : Path) (r : Run World) :
    (read p).exec r =
      (do
        let node ← r.state.files.stat r.state.cwd p
        match tagsAt r.state p with
        | .ok tags => return described r.state p node tags
        | .error f =>
          if f.isSystem then return described r.state p node [("_error", .str f.message)]
          else throw f, r) := by
  rw [read, exec_bind, exec_stat]
  cases r.state.files.stat r.state.cwd p with
  | error f => rfl
  | ok node =>
      dsimp only
      rw [exec_bind_ok (exec_getState r), exec_bind, exec_recover, exec_readTags]
      rcases htags : tagsAt r.state p with f | tags
      · dsimp only
        cases f.isSystem <;> simp [bind, Except.bind] <;> rfl
      · simp [bind, Except.bind]
        rfl

theorem isSystem_of_load {f : Failure} (hp : ¬ p.hasNull) (h : w.files.load w.cwd p = .error f) :
    f.isSystem := by
  obtain ⟨hnull, -⟩ | ⟨-, e, -, rfl⟩ := FileSystem.failing_eq_error.1 h
  · exact absurd hnull hp
  · exact FileSystem.isSystem_failure e p

theorem isSpoiled_iff (b : Bytes) :
    IsSpoiled b ↔ ∃ f, (do pictureTags (← Picture.ofBytes b)) = .error f ∧ f.isSystem = false := by
  obtain ⟨picture, hopen, hfair⟩ | ⟨g, hopen, hg⟩ := Picture.ofBytes_cases b
  · have htags (f : Failure) : pictureTags picture = .error f ↔ picture.tags = .error f := by
      rw [pictureTags]
      cases picture.tags <;> simp [bind, Except.bind, pure, Except.pure]
    simp only [IsSpoiled, hopen, bind, Except.bind, htags]
    refine exists_congr fun f => and_congr_right fun hf => ⟨(·.not_isSystem), fun h => ?_⟩
    exact (hfair.tags f hf).elim (fun hs => by simp [h] at hs) fun ht => .inr (.inr ht)
  · simp only [IsSpoiled, hopen, bind, Except.bind, Except.error.injEq]
    refine exists_congr fun f => and_congr_right fun hf => ⟨(·.not_isSystem), fun h => ?_⟩
    cases hf
    exact hg.elim (fun hs => by simp [h] at hs) id

theorem chokes_iff (w : World) (hp : ¬ p.hasNull) :
    Chokes w p ↔ ∃ f, tagsAt w p = .error f ∧ f.isSystem = false := by
  rw [Chokes, tagsAt]
  cases w.tagReader with
  | some replies =>
      dsimp only
      rw [if_neg hp]
      exact isGarbled_iff p _
  | none =>
      dsimp only
      rcases hload : w.files.load w.cwd p with f | ⟨content, changedAt⟩
      · refine ⟨by simp, fun ⟨g, hg, hsystem⟩ => ?_⟩
        cases hg
        exact absurd (isSystem_of_load hp hload) (by simp [hsystem])
      · refine Iff.trans ⟨?_, fun h => ⟨content, changedAt, rfl, h⟩⟩ (isSpoiled_iff _)
        rintro ⟨_, _, hsame, h⟩
        cases hsame
        exact h

inductive Outcome (w : World) (p : Path) : Except Failure Tags → Prop
  | missing {f : Failure} (h : w.files.stat w.cwd p = .error f)
      (hf : f.isSystem ∨ p.hasNull ∧ f = nullCharacter) : Outcome w p (.error f)
  | choked {node : Node} {f : Failure} (h : w.files.stat w.cwd p = .ok node) (hchokes : Chokes w p)
      (hf : f.isSystem = false) : Outcome w p (.error f)
  | described {node : Node} {left tags : Tags} (h : w.files.stat w.cwd p = .ok node)
      (hchokes : ¬ Chokes w p) (hleft : Leaves w p left) (htags : Describes w p node left tags) :
      Outcome w p (.ok tags)

theorem outcome_read (p : Path) (r : Run World) :
    Outcome r.state p ((read p).exec r).1 := by
  rw [exec_read]
  rcases hstat : r.state.files.stat r.state.cwd p with f | node
  · refine .missing hstat ?_
    obtain ⟨hnull, rfl⟩ | ⟨-, e, -, rfl⟩ := FileSystem.failing_eq_error.1 hstat
    · exact .inr ⟨hnull, rfl⟩
    · exact .inl (FileSystem.isSystem_failure e p)
  have hp : ¬ p.hasNull := fun hnull => by
    simp [FileSystem.stat, FileSystem.failing, hnull] at hstat
  simp only [bind, Except.bind]
  have hchokes := chokes_iff r.state hp
  rcases htags : tagsAt r.state p with f | tags <;> rw [htags] at hchokes
  · cases hsystem : f.isSystem with
    | false =>
        simp only [hsystem]
        exact .choked hstat (hchokes.2 ⟨f, rfl, hsystem⟩) hsystem
    | true =>
        simp only [hsystem]
        refine .described hstat (fun h => ?_) (.noted htags hsystem) (describes_described _ _ _ _)
        obtain ⟨g, hg, hnot⟩ := hchokes.1 h
        cases hg
        simp [hsystem] at hnot
  · exact .described hstat (by simp [hchokes]) (.found htags) (describes_described _ _ _ _)

/-- Reading changes nothing. The system's failures are exactly those of looking the file up. Where
the file is there, the tags are described, with a note if the system refused the reader, unless the
reader chokes: then reading fails, and not by the system. What the reader prints is assumed to be
nested no deeper than the interpreter's stack allows, a limit that JSON does not have here. -/
theorem read_decided (p : Path) (r : Run World) :
    ((read p).exec r).2 = r ∧ Outcome r.state p ((read p).exec r).1 ∧
      ∀ f, f.isSystem →
        (((read p).exec r).1 = .error f ↔ r.state.files.stat r.state.cwd p = .error f) := by
  refine ⟨by rw [exec_read], outcome_read p r, fun f hf => ⟨fun h => ?_, fun h => ?_⟩⟩
  · have hout := outcome_read p r
    rw [h] at hout
    cases hout with
    | missing hstat => exact hstat
    | choked hstat hchokes hsystem => simp [hsystem] at hf
  · rw [exec_read, h]
    rfl

def oddWorld (tagReader : Option (List (String × Reply))) : World where
  files := ⟨[(["a"], .file (.bytes [0x50, 0x35, 0x0A]) 0)]⟩
  cwd := ⟨.slash, []⟩
  home := "/"
  tagReader

def printing (output : String) : World := oddWorld (some [("*", { output })])

/-- The file is there, but reading it fails: a reader may print a list without an object, or an
object, and where there is none the picture may lack its width. -/
theorem read_astray :
    (∀ tagReader, (oddWorld tagReader).files.stat (oddWorld tagReader).cwd ⟨.slash, ["a"]⟩ =
      .ok (.file (.bytes [0x50, 0x35, 0x0A]) 0)) ∧
    ((read ⟨.slash, ["a"]⟩).exec ⟨printing "[true]", []⟩).1 = .error Json.notPairs ∧
    ((read ⟨.slash, ["a"]⟩).exec ⟨printing "\x7b\"a\": true\x7d", []⟩).1 = .error noElement ∧
    ((read ⟨.slash, ["a"]⟩).exec ⟨oddWorld none, []⟩).1 = .error Pnm.noToken := by
  have hstat (tagReader) : (oddWorld tagReader).files.stat (oddWorld tagReader).cwd
      ⟨.slash, ["a"]⟩ = .ok (.file (.bytes [0x50, 0x35, 0x0A]) 0) := by
    change (FileSystem.mk _).stat ⟨.slash, []⟩ _ = _
    decide +kernel
  have hlist : tagsAt (printing "[true]") ⟨.slash, ["a"]⟩ = .error Json.notPairs := by cbv
  have hobject : tagsAt (printing "\x7b\"a\": true\x7d") ⟨.slash, ["a"]⟩ = .error noElement := by
    cbv
  have hpicture : tagsAt (oddWorld none) ⟨.slash, ["a"]⟩ = .error Pnm.noToken := by cbv
  refine ⟨hstat, ?_, ?_, ?_⟩
  · rw [exec_read, printing, hstat, ← printing, hlist]
    rfl
  · rw [exec_read, printing, hstat, ← printing, hobject]
    rfl
  · rw [exec_read, hstat, hpicture]
    rfl

end Reading

end MediaCatalog.Metadata
