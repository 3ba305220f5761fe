import MediaCatalog.Proofs.FileSystem.Dangling

namespace MediaCatalog.FileSystem

variable {fs fs' : FileSystem} {cwd base p q : Path} {here place : Place} {name : String}
  {names : List String} {followLast : Bool} {n : Nat} {e e' : Node}

section Inside

/-- The canonical form of a path is inside that of a directory. -/
def LiesInside (fs : FileSystem) (cwd base p : Path) : Prop :=
  ∃ b t, fs.resolve cwd base = .ok b ∧ fs.resolve cwd p = .ok t ∧ t.IsInside b

/-- So it is when the canonical form is resolved once more. It can be a link itself, if the path
runs through a loop of links. -/
def StaysInside (fs : FileSystem) (cwd base p : Path) : Prop :=
  fs.LiesInside cwd base p ∧ ∀ t, fs.resolve cwd p = .ok t → fs.LiesInside cwd base t

/-- Whatever lies inside a directory in one file system has the same canonical form, and the same at
its end, in another. -/
def AgreesInside (cwd base : Path) (fs fs' : FileSystem) : Prop :=
  ∀ q, fs.LiesInside cwd base q →
    fs'.resolve cwd q = fs.resolve cwd q ∧ fs'.lookup cwd q = fs.lookup cwd q

theorem LiesInside.itself (h : fs.LiesInside cwd base p) : fs.LiesInside cwd base base := by
  obtain ⟨b, t, hb, -, -⟩ := h
  exact ⟨b, b, hb, hb, rfl, List.prefix_refl b.parts⟩

theorem LiesInside.staysInside (h : fs.LiesInside cwd base p)
    (hfind : fs.find cwd p = .ok place) : fs.StaysInside cwd base p := by
  refine ⟨h, fun t ht => ?_⟩
  obtain ⟨b, t', hb, ht', hinside⟩ := h
  obtain rfl := Except.ok.inj (ht'.symm.trans ht)
  exact ⟨b, t', hb, resolve_resolve hfind ht, hinside⟩

theorem LiesInside.relativeUnder_isSome (h : fs.LiesInside cwd base p) :
    ∃ rel, fs.relativeUnder cwd base p = .ok (some rel) := by
  obtain ⟨b, t, hb, ht, hinside⟩ := h
  obtain ⟨rel, hrel⟩ := Option.isSome_iff_exists.1 (Path.relativeTo?_isSome.2 hinside)
  exact ⟨rel, by rw [relativeUnder_eq ht hb, hrel]⟩

theorem AgreesInside.liesInside (h : AgreesInside cwd base fs fs')
    (hp : fs.LiesInside cwd base p) : fs'.LiesInside cwd base p := by
  have hbase := (h base hp.itself).1
  have hpath := (h p hp).1
  obtain ⟨b, t, hb, ht, hinside⟩ := hp
  exact ⟨b, t, hbase.trans hb, hpath.trans ht, hinside⟩

theorem test_congr (h : fs'.lookup cwd p = fs.lookup cwd p) (wanted : Node → Bool) :
    fs'.test cwd p wanted = fs.test cwd p wanted := by
  rw [test, test, h]

theorem load_congr (h : fs'.lookup cwd p = fs.lookup cwd p) : fs'.load cwd p = fs.load cwd p := by
  rw [load, load, h]

theorem stat_congr (h : fs'.lookup cwd p = fs.lookup cwd p) : fs'.stat cwd p = fs.stat cwd p := by
  rw [stat, stat, h]

end Inside

section Shape

/-- Files may hold something else; everything else is the same. -/
structure SameShape (fs fs' : FileSystem) : Prop where
  node? : ∀ place, fs'.node? place = fs.node? place ∨
    (∃ e, fs.node? place = some e ∧ isFileNode e) ∧ ∃ e, fs'.node? place = some e ∧ isFileNode e
  linkCount : fs'.linkCount = fs.linkCount

theorem SameShape.node?_iff (h : SameShape fs fs') (he : isFileNode e = false) :
    fs'.node? place = some e ↔ fs.node? place = some e := by
  rcases h.node? place with heq | ⟨⟨d, hd, hfile⟩, d', hd', hfile'⟩
  · rw [heq]
  · rw [hd, hd']
    constructor
    · rintro ⟨⟩
      exact absurd (he.symm.trans hfile') Bool.false_ne_true
    · rintro ⟨⟩
      exact absurd (he.symm.trans hfile) Bool.false_ne_true

theorem SameShape.turn_eq (h : SameShape fs fs') : fs'.turn here name = fs.turn here name := by
  have hdir : fs'.node? here = some .directory ↔ fs.node? here = some .directory := h.node?_iff rfl
  rcases h.node? (here ++ [name]) with heq | ⟨⟨e, he, hfile⟩, e', he', hfile'⟩
  · simp only [turn, ne_eq, hdir, heq]
  · cases e with
    | directory | link => cases hfile
    | file =>
        cases e' with
        | directory | link => cases hfile'
        | file => simp only [turn, ne_eq, hdir, he, he']

theorem SameShape.walk_eq (h : SameShape fs fs') :
    walk fs' followLast n here names = walk fs followLast n here names := by
  induction n, here, names using walk_induct with
  | zero => rfl
  | nil => rfl
  | cons n here name rest ihrest ihjump =>
      rw [walk_cons, walk_cons, h.turn_eq]
      cases fs.turn here name with
      | stop => rfl
      | absent => rfl
      | goto next => exact ihrest next
      | link text =>
          dsimp only
          rw [ihjump]

theorem SameShape.reach_eq (h : SameShape fs fs') :
    fs'.reach cwd p followLast = fs.reach cwd p followLast := by
  rw [reach, reach, h.walk_eq]

theorem SameShape.find_eq (h : SameShape fs fs') : fs'.find cwd p = fs.find cwd p := by
  rw [find, find, h.reach_eq]

theorem SameShape.resolve_eq (h : SameShape fs fs') : fs'.resolve cwd p = fs.resolve cwd p := by
  have hform (plain : Path) : fs'.checkedForm cwd plain = fs.checkedForm cwd plain := by
    rw [checkedForm, checkedForm, h.reach_eq]
  have htrace : fs'.trace (fs.linkCount + 2) [] [] (p.absolute cwd).parts =
      fs.trace (fs.linkCount + 2) [] [] (p.absolute cwd).parts :=
    trace_congr fun _ _ => h.node?_iff rfl
  rw [FileSystem.resolve_eq, FileSystem.resolve_eq, h.linkCount, htrace]
  simp only [hform]

theorem SameShape.lookup_eq (h : SameShape fs fs')
    (hplace : ∀ place, fs.find cwd p = .ok place → fs'.node? place = fs.node? place) :
    fs'.lookup cwd p = fs.lookup cwd p := by
  rw [lookup, lookup, h.find_eq]
  cases hfind : fs.find cwd p with
  | error e => rfl
  | ok place => simp only [bind, Except.bind, hplace place hfind]

theorem SameShape.agreesInside (h : SameShape fs fs') (hinside : ∀ b place,
    fs.resolve cwd base = .ok b → b.parts <+: place → fs'.node? place = fs.node? place) :
    AgreesInside cwd base fs fs' := by
  rintro q ⟨b, t, hb, ht, -, hbelow⟩
  refine ⟨h.resolve_eq, h.lookup_eq fun place hfind => hinside b place hb ?_⟩
  rwa [resolve_of_find hfind ht] at hbelow

theorem length_setPlace (hlink : ¬ isLink e) {old : Place × Node} (hold : ¬ isLink old.2)
    {entries : List (Place × Node)} (h : entries.find? (fun x => x.1 = place) = some old) :
    ((put.setPlace place e entries).filter (fun x => isLink x.2)).length =
      (entries.filter (fun x => isLink x.2)).length := by
  induction entries with
  | nil => cases h
  | cons x entries ih =>
      by_cases hx : x.1 = place
      · obtain rfl : x = old := by simpa [hx] using h
        simp only [put.setPlace, if_pos hx, List.filter_cons, if_neg hlink, if_neg hold]
      · have hrest : entries.find? (fun x => x.1 = place) = some old := by simpa [hx] using h
        simp only [put.setPlace, if_neg hx, List.filter_cons]
        split
        · exact congrArg Nat.succ (ih hrest)
        · exact ih hrest

theorem sameShape_put (he : fs.node? place = some e) (hfile : isFileNode e)
    (hfile' : isFileNode e') : SameShape fs (fs.put place e') := by
  have hplace : place ≠ [] := by
    rintro rfl
    cases he
    cases hfile
  refine ⟨fun q => ?_, ?_⟩
  · by_cases hq : q = place
    · subst hq
      exact .inr ⟨⟨e, he, hfile⟩, e', node?_put_self hplace e', hfile'⟩
    · exact .inl (node?_put_of_ne hq e')
  · rw [node?.eq_2 _ _ hplace] at he
    obtain ⟨old, hold, rfl⟩ := Option.map_eq_some_iff.1 he
    have hlink {d : Node} (hd : isFileNode d) : ¬ isLink d := by
      cases d with
      | directory | link => cases hd
      | file => exact Bool.false_ne_true
    exact length_setPlace (hlink hfile') (hlink hfile) hold

end Shape

end MediaCatalog.FileSystem
