import MediaCatalog.Proofs.Preview.History

namespace MediaCatalog.Preview

open World

/-- Which preview: that of the file at a path, as it was changed last, and how high. -/
structure Subject where
  path : Path
  changedAt : Int
  height : Int
  deriving DecidableEq

namespace Subject

variable {a b : Subject}

def key (a : Subject) : String := keyText a.path a.changedAt a.height

theorem key_inj (ha : a.path.IsNormal) (hb : b.path.IsNormal) : a.key = b.key ↔ a = b := by
  refine ⟨fun h => ?_, congrArg key⟩
  obtain ⟨hpath, hchanged, hheight⟩ := keyChars_inj (String.ofList_injective h)
  have hpath : a.path = b.path := by
    rw [← Path.ofChars_chars ha, hpath, Path.ofChars_chars hb]
  cases a
  cases b
  simp_all

def IsIn (a : Subject) (w : World) : Prop :=
  ∃ node, w.files.stat w.cwd a.path = .ok node ∧ Cache.changedAt node = a.changedAt

theorem IsIn.key_eq {w : World} (h : a.IsIn w) :
    keyText a.path (changeOf w a.path) a.height = a.key := by
  obtain ⟨node, hstat, hchanged⟩ := h
  rw [changeOf, hstat, key, ← hchanged]

end Subject

namespace Cache

variable {c : Cache} {a b : Subject} {r r' : Run World} {makings : List Making} {key name : String}

theorem exec_fileFor_of_isIn (c : Cache) (h : a.IsIn r.state) :
    (c.fileFor a.path a.height).exec r = (.ok (c.file a.key), r) := by
  obtain ⟨node, hstat, hchanged⟩ := h
  rw [fileFor, Act.exec_bind, exec_stat, hstat, Subject.key, ← hchanged]
  rfl

theorem file_inj (hname : ∀ key, '/' ∉ (c.name key).toList) {key key' : String} :
    c.file key = c.file key' ↔ c.name key = c.name key' := by
  rw [file_eq (hname key), file_eq (hname key'), ← fileName_inj]
  simp

theorem Holds.node?_keep (h : c.Holds r.state.files makings) (hc : c.IsSound)
    (hne : name ≠ c.fileName key) {data : Bytes} {out : Except Failure Unit}
    (hkeep : (c.keep (c.file key) data).exec r = (out, r')) :
    r'.state.files.node? (c.dir.parts ++ [name]) = r.state.files.node? (c.dir.parts ++ [name]) := by
  obtain ⟨files, hspares, hsame | ⟨-, now, hput⟩⟩ := h.keep_cases hc hkeep
  · rw [hsame, hspares.child name]
  · rw [hput, FileSystem.node?_put_of_ne, hspares.child name]
    exact fun heq => hne (List.cons.inj (List.append_cancel_left heq)).1

theorem Holds.node?_deliver (h : c.Holds r.state.files makings) (hc : c.IsSound)
    (ha : a.IsIn r.state) (hne : name ≠ c.fileName a.key) {out : Except Failure Delivery}
    (hdeliver : (c.deliver a.path a.height).exec r = (out, r')) :
    r'.state.files.node? (c.dir.parts ++ [name]) = r.state.files.node? (c.dir.parts ++ [name]) := by
  cases delivers_of_exec hdeliver with
  | failed | kept | unmade => rfl
  | made hkey _ hkeep | unkept hkey _ hkeep =>
      rw [ha.key_eq] at hkey
      exact h.node?_keep hc (hkey ▸ hne) hkeep

end Cache

/-- Previews that differ in the path, the time or the height have different keys. Unless these have
one digest, the previews are kept in different files, and delivering one of them leaves the file of
the other as it was. -/
theorem previews_apart {a b : Subject} (ha : a.path.IsNormal) (hb : b.path.IsNormal) :
    (a.key = b.key ↔ a = b) ∧
    ∀ c : Cache, c.name = digest → (digest a.key = digest b.key → a.key = b.key) →
      (∀ r r' : Run World, a.IsIn r.state → b.IsIn r'.state → ∃ file file',
        (c.fileFor a.path a.height).exec r = (.ok file, r) ∧
        (c.fileFor b.path b.height).exec r' = (.ok file', r') ∧ (file = file' ↔ a = b)) ∧
      ∀ admits makings (r r' : Run World) out, c.dir.IsCanonical →
        c.History admits r.state makings → a.IsIn r.state → a ≠ b →
        (c.deliver a.path a.height).exec r = (out, r') →
        r'.state.files.node? (c.file b.key).parts = r.state.files.node? (c.file b.key).parts := by
  refine ⟨Subject.key_inj ha hb, fun c hname hdigest => ?_⟩
  have hslash : ∀ key, '/' ∉ (c.name key).toList := hname ▸ slash_not_mem_digest
  have hnames : c.name a.key = c.name b.key ↔ a = b := by
    rw [hname, ← Subject.key_inj ha hb]
    exact ⟨hdigest, congrArg digest⟩
  refine ⟨fun r r' har hbr => ?_, fun admits makings r r' out hdir hlife har hne hdeliver => ?_⟩
  · refine ⟨_, _, c.exec_fileFor_of_isIn har, c.exec_fileFor_of_isIn hbr, ?_⟩
    exact (Cache.file_inj hslash).trans hnames
  · have hc : c.IsSound := ⟨hdir, hslash⟩
    rw [hc.file_eq]
    refine (hlife.holds hc).node?_deliver hc har (fun heq => hne ?_) hdeliver
    exact hnames.1 (Cache.fileName_inj.1 heq).symm

section Sample

def plainSubject : Subject := ⟨⟨.slash, ["m", "a"]⟩, -5, 2⟩

/-- The path looks like a key of the other file. -/
def posingSubject : Subject := ⟨⟨.slash, ["m", "a|-5|h=2"]⟩, 1, 2⟩

def posingCache : Cache := { dir := ⟨.slash, ["t"]⟩ }

def posingRun : Run World where
  state :=
    { files := ⟨[(["m"], .directory), (["m", "a"], .file (.bytes []) (-5)),
        (["m", "a|-5|h=2"], .file (.bytes []) 1)]⟩
      cwd := ⟨.slash, []⟩
      home := "/" }
  log := []

theorem previews_apart_sample :
    plainSubject.path.IsNormal ∧ posingSubject.path.IsNormal ∧
      plainSubject.key = "/m/a|-5|h=2" ∧ posingSubject.key = "/m/a|-5|h=2|1|h=2" ∧
      ∃ file file',
        (posingCache.fileFor plainSubject.path 2).exec posingRun = (.ok file, posingRun) ∧
        (posingCache.fileFor posingSubject.path 2).exec posingRun = (.ok file', posingRun) ∧
        file ≠ file' := by
  have hplain : plainSubject.path.IsNormal := Path.isNormal_ofChars "/m/a".toList
  have hposing : posingSubject.path.IsNormal := Path.isNormal_ofChars "/m/a|-5|h=2".toList
  have hdigest : digest plainSubject.key ≠ digest posingSubject.key := by decide +kernel
  obtain ⟨-, hfiles⟩ := previews_apart hplain hposing
  obtain ⟨hshared, -⟩ := hfiles posingCache rfl (fun h => absurd h hdigest)
  obtain ⟨file, file', hfile, hfile', hsame⟩ :=
    hshared posingRun posingRun ⟨_, rfl, rfl⟩ ⟨_, rfl, rfl⟩
  refine ⟨hplain, hposing, by decide +kernel, by decide +kernel, file, file', hfile, hfile', ?_⟩
  rw [Ne, hsame]
  decide

end Sample

end MediaCatalog.Preview
