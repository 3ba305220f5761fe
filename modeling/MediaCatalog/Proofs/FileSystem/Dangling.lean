import MediaCatalog.Proofs.FileSystem.Entry

namespace MediaCatalog.FileSystem

variable {fs fs' : FileSystem} {cwd p : Path} {place directory parent : Place} {name c : String}
  {n : Nat} {names : List String} {open_ : List Place} {content : Content} {now : Int}
  {allowed : Place → Node → Prop}

section Made

def IsBare (fs : FileSystem) (directory : Place) : Prop :=
  ∀ name, fs.node? (directory ++ [name]) = none

theorem isBare_put (hfs : fs.IsProper) (hplace : fs.node? place = none) :
    (fs.put place .directory).IsBare place := by
  intro name
  have hne : place ++ [name] ≠ place := by simp
  rw [node?_put_of_ne hne]
  cases he : fs.node? (place ++ [name]) with
  | none => rfl
  | some e =>
      have hparent := hfs.parent _ e (by simp) he
      rw [List.dropLast_concat, hplace] at hparent
      cases hparent

theorem Houses.not_found (h : fs.Houses cwd p directory) (hbare : fs.IsBare directory)
    (hname : IsOrdinary name) : fs.find cwd ⟨p.root, p.parts ++ [name]⟩ ≠ .ok place := by
  intro hfind
  obtain ⟨m, -, hreach⟩ := reach_concat true name h.find
  rw [find_eq_ok, hreach] at hfind
  split at hfind
  · cases hfind
  rw [walk_cons] at hfind
  cases hturn : fs.turn directory name with
  | stop e =>
      rw [hturn] at hfind
      cases hfind
  | absent =>
      rw [hturn] at hfind
      cases hfind
  | goto next =>
      obtain ⟨-, ⟨hidle, -⟩ | ⟨hdots, -⟩ | ⟨-, rfl, e, he, -⟩⟩ := turn_eq_goto hturn
      · exact hidle.not_isOrdinary hname
      · exact hname.ne_dots hdots
      · rw [hbare name] at he
        cases he
  | link text =>
      obtain ⟨-, -, he⟩ := turn_eq_link hturn
      rw [hbare name] at he
      cases he

theorem bare_of_makeDir (hfs : fs.IsProper) (h : fs.makeDir cwd p = .ok fs') :
    ∃ directory, fs'.Houses cwd p directory ∧ fs'.IsBare directory := by
  obtain ⟨directory, -, hput, hfind, hdir, hnone⟩ := find_of_makeDir h
  refine ⟨directory, ⟨hfind, hdir⟩, ?_⟩
  rw [hput]
  exact isBare_put hfs hnone

theorem old_of_unlessDir {f : Failure} (h : fs.unlessDir cwd p f = none) :
    ∃ directory, fs.Houses cwd p directory := by
  obtain ⟨directory, hfind, hdir⟩ := unlessDir_eq_none h
  exact ⟨directory, hfind, hdir⟩

/-- A directory that is there afterwards was there before, and nothing has changed, or it is new and
nothing is in it. The path has no dots, which might lead to an old directory by way of a new one. -/
theorem makeDirs_old_or_bare (hfs : fs.IsProper) (hp : ∀ c ∈ p.parts, IsOrdinary c)
    (h : makeDirs cwd n fs p = (fs', none)) :
    ∃ directory, fs'.Houses cwd p directory ∧ (fs' = fs ∨ fs'.IsBare directory) := by
  induction n generalizing p fs' with
  | zero => cases h
  | succ n ih =>
      rw [makeDirs] at h
      cases hmade : fs.makeDir cwd p with
      | ok fs₁ =>
          rw [hmade] at h
          cases h
          obtain ⟨directory, hhouses, hbare⟩ := bare_of_makeDir hfs hmade
          exact ⟨directory, hhouses, .inr hbare⟩
      | error f =>
          rw [hmade] at h
          dsimp only at h
          split at h
          · rename_i hparent
            have hne : p.parts ≠ [] := by
              intro hempty
              have hsame : p.parent = p := by
                rw [Path.parent, hempty]
                exact congrArg (Path.mk p.root) hempty.symm
              simp [hsame] at hparent
            have hsplit : p.parts = p.parent.parts ++ [p.parts.getLast hne] :=
              (List.dropLast_append_getLast hne).symm
            have hlast := hp _ (List.getLast_mem hne)
            rcases hall : makeDirs cwd n fs p.parent with ⟨fs₁, g | g⟩
            · rw [hall] at h
              dsimp only at h
              obtain ⟨directory, hhouses, hstate⟩ :=
                ih (fun c hc => hp c (List.dropLast_subset _ hc)) hall
              have hmakes := makesDirs n fs cwd p.parent
              rw [hall] at hmakes
              cases hagain : fs₁.makeDir cwd p with
              | ok fs₂ =>
                  rw [hagain] at h
                  cases h
                  obtain ⟨made, hhouses', hbare⟩ :=
                    bare_of_makeDir (hmakes.grows.isProper hfs) hagain
                  exact ⟨made, hhouses', .inr hbare⟩
              | error g =>
                  rw [hagain] at h
                  obtain ⟨rfl, hnone⟩ := Prod.mk.inj h
                  obtain ⟨old, hold⟩ := old_of_unlessDir hnone
                  refine ⟨old, hold, .inl ?_⟩
                  rcases hstate with hsame | hbare
                  · exact hsame
                  · -- nothing is in a new parent, so the second attempt cannot have met a directory
                    refine absurd hold.find ?_
                    have hpath : p = ⟨p.parent.root, p.parent.parts ++ [p.parts.getLast hne]⟩ := by
                      rw [← hsplit]
                      rfl
                    rw [hpath]
                    exact hhouses.not_found hbare hlast
            · rw [hall] at h
              cases h
          · obtain ⟨rfl, hnone⟩ := Prod.mk.inj h
            obtain ⟨old, hold⟩ := old_of_unlessDir hnone
            exact ⟨old, hold, .inl rfl⟩

theorem ensureDir_old_or_bare (hfs : fs.IsProper) (hp : ∀ c ∈ p.parts, IsOrdinary c)
    (h : fs.ensureDir cwd p = (fs', none)) :
    ∃ directory, fs'.Houses cwd p directory ∧ (fs' = fs ∨ fs'.IsBare directory) :=
  makeDirs_old_or_bare hfs hp h

end Made

section Trace

theorem trace_enter (hname : IsOrdinary name) (hnull : ¬ hasNullName name)
    (hlink : ∀ text, fs.node? (place ++ [name]) ≠ some (.link text)) :
    fs.trace (n + 1) open_ place (name :: names) = fs.trace (n + 1) open_ (place ++ [name]) names := by
  rw [trace_ordinary hname hnull]
  split
  · rename_i text he
    exact absurd he (hlink text)
  · rfl

theorem trace_congr (h : ∀ place text, fs'.node? place = some (.link text) ↔
    fs.node? place = some (.link text)) :
    fs'.trace n open_ place names = fs.trace n open_ place names := by
  induction n generalizing open_ place names with
  | zero => rfl
  | succ n ih =>
      induction names generalizing place with
      | nil => rfl
      | cons name rest ihrest =>
          by_cases hidle : IsIdle name
          · rw [trace_stay hidle, trace_stay hidle, ihrest]
          by_cases hdots : name = ".."
          · subst hdots
            rw [trace_up, trace_up, ihrest]
          have ho : IsOrdinary name := ⟨fun he => hidle (.inl he), fun he => hidle (.inr he), hdots⟩
          by_cases hnull : hasNullName name
          · rw [trace_null ho hnull, trace_null ho hnull]
          by_cases hlink : ∃ text, fs.node? (place ++ [name]) = some (.link text)
          · obtain ⟨text, he⟩ := hlink
            rw [trace_ordinary ho hnull, trace_ordinary ho hnull, he, (h _ text).2 he]
            dsimp only
            rw [ih]
            split <;> first | exact ihrest | rfl
          · have hnone : ∀ text, fs.node? (place ++ [name]) ≠ some (.link text) := fun text he =>
              hlink ⟨text, he⟩
            rw [trace_enter ho hnull hnone, trace_enter ho hnull fun text he => hnone text ((h _ _).1 he),
              ihrest]

theorem checkedForm_canonical (hplace : ∀ c ∈ place, IsOrdinary c)
    (hclean : ∀ c ∈ place, ¬ hasNullName c)
    (hloop : fs.reach cwd ⟨.slash, place⟩ true ≠ .error .loop) :
    fs.checkedForm cwd ⟨.slash, place⟩ = .ok ⟨.slash, place⟩ := by
  have hform : (Path.mk .slash place).collapse = ⟨.slash, place⟩ :=
    Path.collapse_of_isOrdinary hplace
  have hnull : ¬ (Path.mk .slash place).hasNull := by
    intro hnull
    obtain ⟨c, hc, hc'⟩ := List.any_eq_true.1 hnull
    exact hclean c hc hc'
  rw [checkedForm, hform, if_neg hnull]
  split
  · exact absurd ‹_› hloop
  · rfl

theorem Grows.resolve_of_find (h : Grows allowed fs fs') (hfs : fs.IsProper)
    (hclean : IsClean cwd p) (hfind : fs'.find cwd p = .ok place) :
    fs.resolve cwd p = .ok ⟨.slash, place⟩ := by
  obtain ⟨k, hk⟩ := leads_of_find hfind
  have hnone : Following fs' k [] :=
    ⟨List.nodup_nil, fun _ h => absurd h List.not_mem_nil, fun _ h => absurd h List.not_mem_nil⟩
  have hnames : ∀ c ∈ (p.absolute cwd).parts, ¬ hasNullName c := fun c hc hc' =>
    hclean (List.any_eq_true.2 ⟨c, hc, hc'⟩)
  have htrace := hk.trace_eq hnone (n := fs.linkCount + 2) (Nat.add_le_add_right h.linkCount_le 2)
  have hclean' : (fs.trace (fs.linkCount + 2) [] [] (p.absolute cwd).parts).IsClean :=
    hfs.trace_isClean (fun _ hc => absurd hc List.not_mem_nil) hnames
  rw [trace_congr fun _ _ => h.link_iff] at htrace
  rw [FileSystem.resolve_eq]
  rcases htrace with htrace | htrace
  · rw [htrace] at hclean' ⊢
    dsimp only
    refine checkedForm_canonical (isOrdinary_of_find hfind) hclean' ?_
    have hwalk : walk fs' true (maxLinks + 1) [] place = .ok (.found place) :=
      walk_of_descends [] (descends_of_find hfind)
    have hroot : ∃ e, fs.node? [] = some e := ⟨.directory, rfl⟩
    rw [reach]
    split
    · simp
    · change walk fs true (maxLinks + 1) [] place ≠ _
      rcases h.walk_eq_or_absent hfs hroot with hsame | habsent
      · rw [← hsame, hwalk]
        simp
      · rcases habsent with habsent | ⟨parent, name, habsent⟩ <;> rw [habsent] <;> simp
  · rw [htrace] at hclean'
    exact hclean'.elim

theorem IsProper.resolve_eq (h : fs.IsProper) (hclean : IsClean cwd p)
    (hfind : fs.find cwd p = .ok place) : fs.resolve cwd p = .ok ⟨.slash, place⟩ :=
  (Grows.refl (fun _ _ => False) fs).resolve_of_find h hclean hfind

end Trace

section Dangling

def Dangles (fs : FileSystem) (place : Place) : Prop :=
  (∃ text, fs.node? place = some (.link text)) ∧
    IsAbsent (walk fs true (maxLinks + 1) [] place)

theorem Grows.dangles (h : Grows allowed fs fs') (hfs : fs.IsProper) (hdangles : fs'.Dangles place) :
    fs.Dangles place := by
  obtain ⟨⟨text, he⟩, habsent⟩ := hdangles
  refine ⟨⟨text, h.link_iff.1 he⟩, ?_⟩
  have hroot : ∃ e, fs.node? [] = some e := ⟨.directory, rfl⟩
  rcases h.walk_eq_or_absent hfs hroot with hwalk | hwalk
  · rw [hwalk] at habsent
    exact habsent
  · exact hwalk

theorem Houses.dangles {text : String} (h : fs.Houses cwd p directory) (hname : IsPlain name)
    (he : fs.node? (directory ++ [name]) = some (.link text))
    (hmissing : fs.reach cwd (p / name) true = .ok (.missing parent c)) :
    fs.Dangles (directory ++ [name]) := by
  obtain ⟨m, hm, hreach⟩ := reach_div true hname.isComponent h.find
  rw [hreach] at hmissing
  split at hmissing
  · cases hmissing
  have hmore : walk fs true (maxLinks + 1) directory [name] = .ok (.missing parent c) := by
    rw [walk_mono (Nat.succ_le_succ hm) (by rw [hmissing]; nofun), hmissing]
  have hwalk : walk fs true (maxLinks + 1) [] (directory ++ [name]) = .ok (.missing parent c) :=
    (walk_append_of_descends [] [name] (descends_of_find h.find)).trans hmore
  exact ⟨⟨text, he⟩, .inr ⟨parent, c, hwalk⟩⟩

theorem exists?_of_find (hnull : ¬ p.hasNull) (hfs : fs.IsProper)
    (hfind : fs.find cwd p = .ok place) : fs.exists? cwd p = .ok true := by
  obtain ⟨e, he⟩ := hfs.node?_of_find hfind
  rw [exists?, test, if_neg hnull, lookup_of_find hfind he]

/-- A file is put in the directory itself when nothing was there, or else behind a link that
dangles. -/
theorem Houses.store_cases (h : fs.Houses cwd p directory) (hfs : fs.IsProper) (hp : IsClean cwd p)
    (hname : IsPlain name)
    (habsent : fs.exists? cwd (p / name) = .ok false ∨ fs.IsBare directory)
    (hstore : fs.store cwd (p / name) content now = .ok fs') :
    fs.node? (directory ++ [name]) = none ∧
        fs' = fs.put (directory ++ [name]) (.file content now) ∨
      fs.Dangles (directory ++ [name]) := by
  have hfits : Fits p name := by
    by_contra hfits
    rw [h.store_unfit hp hname hfits] at hstore
    cases hstore
  cases he : fs.node? (directory ++ [name]) with
  | none =>
      rw [h.store_absent hp hname hfits he] at hstore
      exact .inl ⟨rfl, (Except.ok.inj hstore).symm⟩
  | some e =>
      have hnull := (hp.div hname).hasNull
      have hlost (there : Place) : fs.find cwd (p / name) ≠ .ok there := by
        intro hfind
        rcases habsent with hexists | hbare
        · rw [exists?_of_find hnull hfs hfind] at hexists
          cases hexists
        · rw [hbare name] at he
          cases he
      cases e with
      | directory | file =>
          have hfind : fs.find cwd (p / name) = .ok (directory ++ [name]) :=
            find_eq_ok.2 (h.reach_present hname hfits he (by simp [isLink]))
          exact absurd hfind (hlost _)
      | link text =>
          have hmade := failing_eq_ok hstore
          rcases hreach : fs.reach cwd (p / name) true with e | ⟨there⟩ | ⟨parent, c⟩
          · rw [hreach] at hmade
            cases hmade
          · exact absurd (find_eq_ok.2 hreach) (hlost there)
          · exact .inr (h.dangles hname he hreach)

end Dangling

end MediaCatalog.FileSystem
