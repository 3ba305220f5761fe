import MediaCatalog.Proofs.FileSystem.Resolve

namespace MediaCatalog.FileSystem

inductive Turn where
  | stop (e : Errno)
  | goto (next : Place)
  | link (text : String)
  | absent

def turn (fs : FileSystem) (here : Place) (name : String) : Turn :=
  if fs.node? here ≠ some .directory then .stop .notDirectory
  else if name = "" || name = "." then .goto here
  else if name = ".." then .goto here.dropLast
  else if maxName < Text.Utf8.size name then .stop .nameTooLong
  else match fs.node? (here ++ [name]) with
    | none => .absent
    | some (.link text) => .link text
    | some _ => .goto (here ++ [name])

variable {fs fs' : FileSystem} {n m : Nat} {here place next parent : Place} {name text : String}
  {names rest : List String} {followLast : Bool} {cwd p : Path} {e : Node}

section Turn

theorem turn_congr (hhere : fs'.node? here = fs.node? here)
    (hname : fs'.node? (here ++ [name]) = fs.node? (here ++ [name])) :
    fs'.turn here name = fs.turn here name := by
  simp only [turn, hhere, hname]

theorem turn_eq_goto (h : fs.turn here name = .goto next) :
    fs.node? here = some .directory ∧ (IsIdle name ∧ next = here ∨
      name = ".." ∧ next = here.dropLast ∨
      IsOrdinary name ∧ next = here ++ [name] ∧ ∃ e, fs.node? next = some e ∧ ¬ isLink e) := by
  rw [turn] at h
  split at h
  · cases h
  rename_i hdir
  refine ⟨Decidable.not_not.1 hdir, ?_⟩
  split at h
  · rename_i hidle
    cases h
    exact .inl ⟨by simpa [IsIdle] using hidle, rfl⟩
  rename_i hidle
  split at h
  · cases h
    exact .inr (.inl ⟨‹_›, rfl⟩)
  rename_i hdots
  split at h
  · cases h
  refine .inr (.inr ⟨isOrdinary_of_not hidle hdots, ?_⟩)
  cases hnode : fs.node? (here ++ [name]) with
  | none => simp [hnode] at h
  | some e =>
      cases e with
      | directory | file =>
          simp only [hnode, Turn.goto.injEq] at h
          subst h
          exact ⟨rfl, _, hnode, Bool.false_ne_true⟩
      | link text => simp [hnode] at h

theorem turn_eq_link (h : fs.turn here name = .link text) :
    fs.node? here = some .directory ∧ IsOrdinary name ∧
      fs.node? (here ++ [name]) = some (.link text) := by
  rw [turn] at h
  split at h
  · cases h
  rename_i hdir
  split at h
  · cases h
  rename_i hidle
  split at h
  · cases h
  rename_i hdots
  split at h
  · cases h
  refine ⟨Decidable.not_not.1 hdir, isOrdinary_of_not hidle hdots, ?_⟩
  split at h
  · cases h
  · cases h
    assumption
  · cases h

theorem turn_eq_absent (h : fs.turn here name = .absent) :
    fs.node? here = some .directory ∧ IsOrdinary name ∧ fs.node? (here ++ [name]) = none := by
  rw [turn] at h
  split at h
  · cases h
  rename_i hdir
  split at h
  · cases h
  rename_i hidle
  split at h
  · cases h
  rename_i hdots
  split at h
  · cases h
  refine ⟨Decidable.not_not.1 hdir, isOrdinary_of_not hidle hdots, ?_⟩
  split at h
  · assumption
  · cases h
  · cases h

theorem turn_of_isOrdinary (hhere : fs.node? here = some .directory) (hname : IsOrdinary name)
    (hlong : ¬ maxName < Text.Utf8.size name) :
    fs.turn here name = match fs.node? (here ++ [name]) with
      | none => .absent
      | some (.link text) => .link text
      | some _ => .goto (here ++ [name]) := by
  have hidle : ¬ (name = "" || name = ".") = true := by simpa using ⟨hname.ne_empty, hname.ne_dot⟩
  rw [turn, if_neg (not_not_intro hhere), if_neg hidle, if_neg hname.ne_dots, if_neg hlong]

end Turn

section Walk

theorem walk_cons :
    walk fs followLast (n + 1) here (name :: rest) = match fs.turn here name with
      | .stop e => .error e
      | .goto next => walk fs followLast (n + 1) next rest
      | .link text =>
        if rest = [] ∧ followLast = false then .ok (.found (here ++ [name]))
        else walk fs followLast n (linkStart here text) (components text ++ rest)
      | .absent => if rest = [] then .ok (.missing here name) else .error .noEntry := by
  rw [walk, along, turn]
  by_cases hdir : fs.node? here ≠ some .directory
  · simp only [if_pos hdir]
  simp only [if_neg hdir]
  by_cases hidle : (name = "" || name = ".") = true
  · simp only [if_pos hidle, walk]
  simp only [if_neg hidle]
  by_cases hdots : name = ".."
  · simp only [if_pos hdots, walk]
  simp only [if_neg hdots]
  by_cases hlong : maxName < Text.Utf8.size name
  · simp only [if_pos hlong]
  simp only [if_neg hlong]
  rcases hnode : fs.node? (here ++ [name]) with _ | ⟨_ | _ | text⟩
  · rfl
  · simp only [walk]
  · simp only [walk]
  · by_cases hrest : rest = [] <;> cases followLast <;> simp [hrest, linkStart]

/-- Look-ups go on with the rest of the names, or with one link less to come. -/
theorem walk_induct {motive : Nat → Place → List String → Prop}
    (zero : ∀ here names, motive 0 here names) (nil : ∀ n here, motive (n + 1) here [])
    (cons : ∀ n here name rest, (∀ next, motive (n + 1) next rest) →
      (∀ here names, motive n here names) → motive (n + 1) here (name :: rest)) :
    ∀ n here names, motive n here names := by
  intro n
  induction n with
  | zero => exact zero
  | succ n ih =>
      intro here names
      induction names generalizing here with
      | nil => exact nil n here
      | cons name rest ihrest => exact cons n here name rest ihrest ih

theorem walk_succ (h : walk fs followLast n here names ≠ .error .loop) :
    walk fs followLast (n + 1) here names = walk fs followLast n here names := by
  induction n, here, names using walk_induct with
  | zero => exact absurd rfl h
  | nil => rfl
  | cons n here name rest ihrest ihjump =>
      rw [walk_cons] at h ⊢
      rw [walk_cons]
      cases hturn : fs.turn here name with
      | stop e => rfl
      | absent => rfl
      | goto next =>
          rw [hturn] at h
          exact ihrest next h
      | link text =>
          rw [hturn] at h
          dsimp only at h ⊢
          split
          · rfl
          · rw [if_neg ‹_›] at h
            exact ihjump _ _ h

theorem walk_mono (hle : n ≤ m) (h : walk fs followLast n here names ≠ .error .loop) :
    walk fs followLast m here names = walk fs followLast n here names := by
  induction hle with
  | refl => rfl
  | step hle ih => rw [walk_succ (ih ▸ h), ih]

end Walk

section Found

/-- Directories and links stay where they are. Files may come and go. -/
def KeepsWays (fs fs' : FileSystem) : Prop :=
  ∀ place e, fs.node? place = some e → isFileNode e = false → fs'.node? place = some e

theorem KeepsWays.turn_goto (h : fs.KeepsWays fs') (hturn : fs.turn here name = .goto next)
    (hnext : fs'.node? next = fs.node? next) : fs'.turn here name = .goto next := by
  obtain ⟨hdir, hcases⟩ := turn_eq_goto hturn
  have hdir' := h here .directory hdir rfl
  rcases hcases with ⟨hidle, rfl⟩ | ⟨rfl, rfl⟩ | ⟨-, rfl, -⟩
  · rw [turn, if_neg (not_not_intro hdir'), if_pos (by simpa [IsIdle] using hidle)]
  · rw [turn, if_neg (not_not_intro hdir'), if_neg (by decide), if_pos rfl]
  · rw [turn_congr (hdir'.trans hdir.symm) hnext]
    exact hturn

theorem KeepsWays.turn_link (h : fs.KeepsWays fs') (hturn : fs.turn here name = .link text) :
    fs'.turn here name = .link text := by
  obtain ⟨hdir, -, hlink⟩ := turn_eq_link hturn
  have hdir' := h here .directory hdir rfl
  have hlink' := h (here ++ [name]) (.link text) hlink rfl
  rw [turn_congr (hdir'.trans hdir.symm) (hlink'.trans hlink.symm)]
  exact hturn

theorem node?_of_walk_cons {out : Reach}
    (h : walk fs followLast (n + 1) here (name :: rest) = .ok out) :
    fs.node? here = some .directory := by
  rw [walk_cons] at h
  cases hturn : fs.turn here name with
  | stop e =>
      rw [hturn] at h
      cases h
  | goto next => exact (turn_eq_goto hturn).1
  | link text => exact (turn_eq_link hturn).1
  | absent => exact (turn_eq_absent hturn).1

theorem KeepsWays.walk_found (h : fs.KeepsWays fs') (hplace : fs'.node? place = fs.node? place)
    (hfound : walk fs followLast n here names = .ok (.found place)) :
    walk fs' followLast n here names = .ok (.found place) := by
  induction n, here, names using walk_induct with
  | zero => cases hfound
  | nil => exact hfound
  | cons n here name rest ihrest ihjump =>
      rw [walk_cons] at hfound ⊢
      cases hturn : fs.turn here name with
      | stop e =>
          rw [hturn] at hfound
          cases hfound
      | absent =>
          rw [hturn] at hfound
          dsimp only at hfound
          split at hfound <;> cases hfound
      | goto next =>
          rw [hturn] at hfound
          have hnext : fs'.node? next = fs.node? next := by
            cases rest with
            | nil =>
                cases hfound
                exact hplace
            | cons c rest =>
                have hdir := node?_of_walk_cons hfound
                exact (h next .directory hdir rfl).trans hdir.symm
          rw [h.turn_goto hturn hnext]
          exact ihrest next hfound
      | link text =>
          rw [hturn] at hfound
          rw [h.turn_link hturn]
          dsimp only at hfound ⊢
          split
          · rw [if_pos ‹_›] at hfound
            exact hfound
          · rw [if_neg ‹_›] at hfound
            exact ihjump _ _ hfound

theorem KeepsWays.find_eq (h : fs.KeepsWays fs') (hplace : fs'.node? place = fs.node? place)
    (hfind : fs.find cwd p = .ok place) : fs'.find cwd p = .ok place := by
  rw [find_eq_ok, reach] at hfind ⊢
  split at hfind
  · cases hfind
  · rename_i hshort
    rw [if_neg hshort]
    exact h.walk_found hplace hfind

theorem KeepsWays.walk_missing (h : fs.KeepsWays fs') (he : fs'.node? (parent ++ [text]) = some e)
    (hlink : ¬ isLink e) (hmissing : walk fs followLast n here names = .ok (.missing parent text)) :
    walk fs' true n here names = .ok (.found (parent ++ [text])) := by
  induction n, here, names using walk_induct with
  | zero => cases hmissing
  | nil => cases hmissing
  | cons n here name rest ihrest ihjump =>
      rw [walk_cons] at hmissing ⊢
      cases hturn : fs.turn here name with
      | stop e =>
          rw [hturn] at hmissing
          cases hmissing
      | absent =>
          rw [hturn] at hmissing
          dsimp only at hmissing
          split at hmissing
          · rename_i hrest
            subst hrest
            cases hmissing
            obtain ⟨hdir, hname, hnone⟩ := turn_eq_absent hturn
            have hlong : ¬ maxName < Text.Utf8.size text := by
              intro hlong
              rw [turn, if_neg (not_not_intro hdir), if_neg (by simp [hname.ne_empty, hname.ne_dot]),
                if_neg hname.ne_dots, if_pos hlong] at hturn
              cases hturn
            rw [turn_of_isOrdinary (h parent .directory hdir rfl) hname hlong, he]
            cases e with
            | directory | file => rfl
            | link => exact absurd rfl hlink
          · cases hmissing
      | goto next =>
          rw [hturn] at hmissing
          have hnext : fs'.node? next = fs.node? next := by
            cases rest with
            | nil => cases hmissing
            | cons c rest =>
                have hdir := node?_of_walk_cons hmissing
                exact (h next .directory hdir rfl).trans hdir.symm
          rw [h.turn_goto hturn hnext]
          exact ihrest next hmissing
      | link text =>
          rw [hturn] at hmissing
          rw [h.turn_link hturn]
          dsimp only at hmissing ⊢
          split at hmissing
          · cases hmissing
          · rw [if_neg (by simp)]
            exact ihjump _ _ hmissing

/-- What a look-up misses is the last one of its names, in a directory that is there. -/
theorem missing_of_walk (h : walk fs followLast n here names = .ok (.missing parent text)) :
    fs.node? parent = some .directory ∧ IsOrdinary text ∧ fs.node? (parent ++ [text]) = none ∧
      (followLast = false → names.getLast? = some text) := by
  induction n, here, names using walk_induct with
  | zero => cases h
  | nil => cases h
  | cons n here name rest ihrest ihjump =>
      rw [walk_cons] at h
      cases hturn : fs.turn here name with
      | stop e =>
          rw [hturn] at h
          cases h
      | absent =>
          rw [hturn] at h
          dsimp only at h
          split at h
          · rename_i hrest
            subst hrest
            cases h
            obtain ⟨hdir, hname, hnone⟩ := turn_eq_absent hturn
            exact ⟨hdir, hname, hnone, fun _ => rfl⟩
          · cases h
      | goto next =>
          rw [hturn] at h
          obtain ⟨hdir, hname, hnone, hlast⟩ := ihrest next h
          refine ⟨hdir, hname, hnone, fun hfollow => ?_⟩
          cases rest with
          | nil => cases h
          | cons c rest => exact hlast hfollow
      | link target =>
          rw [hturn] at h
          dsimp only at h
          split at h
          · cases h
          · rename_i hgo
            obtain ⟨hdir, hname, hnone, hlast⟩ := ihjump _ _ h
            refine ⟨hdir, hname, hnone, fun hfollow => ?_⟩
            have hrest : rest ≠ [] := fun hrest => hgo ⟨hrest, hfollow⟩
            have hsame := hlast hfollow
            rw [List.getLast?_append_of_ne_nil _ hrest] at hsame
            rw [List.getLast?_cons_of_ne_nil hrest]
            exact hsame

end Found

section Child

theorem walk_append (followLast : Bool) {more : List String} (hmore : more ≠ [])
    (h : walk fs true n here names = .ok (.found place)) :
    ∃ m < n, walk fs followLast n here (names ++ more) = walk fs followLast (m + 1) place more := by
  -- a link takes one of the links left, which is why `m` is not `n - 1` but below `n`
  induction n, here, names using walk_induct with
  | zero => cases h
  | nil n here =>
      cases h
      exact ⟨n, Nat.lt_succ_self n, rfl⟩
  | cons n here name rest ihrest ihjump =>
      rw [walk_cons] at h
      rw [List.cons_append, walk_cons]
      cases hturn : fs.turn here name with
      | stop e =>
          rw [hturn] at h
          cases h
      | absent =>
          rw [hturn] at h
          dsimp only at h
          split at h <;> cases h
      | goto next =>
          rw [hturn] at h
          exact ihrest next h
      | link text =>
          rw [hturn] at h
          dsimp only at h ⊢
          rw [if_neg (by simp)] at h
          rw [if_neg (by simp [hmore]), ← List.append_assoc]
          obtain ⟨m, hm, hwalk⟩ := ihjump _ _ h
          exact ⟨m, Nat.lt_succ_of_lt hm, hwalk⟩

theorem parts_absolute_concat (cwd p : Path) (name : String) :
    ((Path.mk p.root (p.parts ++ [name])).absolute cwd).parts =
      (p.absolute cwd).parts ++ [name] := by
  rw [Path.absolute, Path.absolute, Path.join, Path.join]
  cases p.root with
  | none => exact (List.append_assoc _ _ _).symm
  | slash | doubleSlash => rfl

theorem parts_absolute_div (hname : Path.IsComponent name) :
    ((p / name).absolute cwd).parts = (p.absolute cwd).parts ++ [name] := by
  rw [Path.div_component hname, parts_absolute_concat]

theorem reach_concat (followLast : Bool) (name : String) (hfind : fs.find cwd p = .ok place) :
    ∃ m ≤ maxLinks, fs.reach cwd ⟨p.root, p.parts ++ [name]⟩ followLast =
      if maxPath ≤ Text.Utf8.size (Path.mk p.root (p.parts ++ [name])).toString then
        .error .nameTooLong
      else walk fs followLast (m + 1) place [name] := by
  rw [find_eq_ok, reach] at hfind
  split at hfind
  · cases hfind
  obtain ⟨m, hm, hwalk⟩ := walk_append followLast (List.cons_ne_nil name []) hfind
  refine ⟨m, Nat.le_of_lt_succ hm, ?_⟩
  rw [reach, parts_absolute_concat, hwalk]

theorem reach_div (followLast : Bool) (hname : Path.IsComponent name)
    (hfind : fs.find cwd p = .ok place) :
    ∃ m ≤ maxLinks, fs.reach cwd (p / name) followLast =
      if maxPath ≤ Text.Utf8.size (p / name).toString then .error .nameTooLong
      else walk fs followLast (m + 1) place [name] := by
  rw [Path.div_component hname]
  exact reach_concat followLast name hfind

end Child

section Canonical

def Descends (fs : FileSystem) (place : Place) : Prop :=
  ∀ here name, here ++ [name] <+: place → fs.turn here name = .goto (here ++ [name])

theorem Descends.front (h : fs.Descends place) (hfront : here <+: place) : fs.Descends here :=
  fun _ _ hname => h _ _ (hname.trans hfront)

theorem descends_root : fs.Descends [] := by
  intro here name hname
  exact absurd (List.prefix_nil.1 hname) (by simp)

theorem Descends.concat (h : fs.Descends here) (hturn : fs.turn here name = .goto (here ++ [name])) :
    fs.Descends (here ++ [name]) := by
  intro front c hfront
  rcases List.prefix_concat_iff.1 hfront with heq | hfront
  · obtain ⟨rfl, hname⟩ := List.append_inj' heq rfl
    obtain rfl := List.singleton_inj.1 hname
    exact hturn
  · exact h front c hfront

theorem descends_of_walk (hhere : fs.Descends here)
    (h : walk fs true n here names = .ok (.found place)) : fs.Descends place := by
  induction n, here, names using walk_induct with
  | zero => cases h
  | nil =>
      cases h
      exact hhere
  | cons n here name rest ihrest ihjump =>
      rw [walk_cons] at h
      cases hturn : fs.turn here name with
      | stop e =>
          rw [hturn] at h
          cases h
      | absent =>
          rw [hturn] at h
          dsimp only at h
          split at h <;> cases h
      | goto next =>
          rw [hturn] at h
          refine ihrest next ?_ h
          obtain ⟨-, ⟨-, rfl⟩ | ⟨-, rfl⟩ | ⟨-, rfl, -⟩⟩ := turn_eq_goto hturn
          · exact hhere
          · exact hhere.front (List.dropLast_prefix _)
          · exact hhere.concat hturn
      | link text =>
          rw [hturn] at h
          dsimp only at h
          rw [if_neg (by simp)] at h
          refine ihjump _ _ ?_ h
          rw [linkStart]
          split
          · exact descends_root
          · exact hhere

theorem walk_append_of_descends (here : Place) (more : List String)
    (h : fs.Descends (here ++ rest)) :
    walk fs followLast (n + 1) here (rest ++ more) =
      walk fs followLast (n + 1) (here ++ rest) more := by
  induction rest generalizing here with
  | nil => rw [List.nil_append, List.append_nil]
  | cons name rest ih =>
      rw [List.append_cons here] at h ⊢
      have hturn : fs.turn here name = .goto (here ++ [name]) := h here name (List.prefix_append _ _)
      rw [List.cons_append, walk_cons, hturn]
      exact ih _ h

theorem walk_of_descends (here : Place) (h : fs.Descends (here ++ rest)) :
    walk fs followLast (n + 1) here rest = .ok (.found (here ++ rest)) := by
  rw [← List.append_nil rest, walk_append_of_descends here [] h, List.append_nil]
  rfl

theorem descends_of_find (h : fs.find cwd p = .ok place) : fs.Descends place := by
  rw [find_eq_ok, reach] at h
  split at h
  · cases h
  · exact descends_of_walk descends_root h

/-- What is found by some path is found by its canonical form, unless that is too long. -/
theorem reach_canonical (followLast : Bool) (h : fs.find cwd p = .ok place) :
    fs.reach cwd ⟨.slash, place⟩ followLast =
      if maxPath ≤ Text.Utf8.size (Path.mk .slash place).toString then .error .nameTooLong
      else .ok (.found place) := by
  have hwalk : walk fs followLast (maxLinks + 1) [] place = .ok (.found place) :=
    walk_of_descends [] (descends_of_find h)
  rw [reach]
  exact congrArg _ hwalk

end Canonical

section Null

/-- As in every real file system: what is there stands in a directory, and no link's text has the
null character. -/
structure IsProper (fs : FileSystem) : Prop where
  parent : ∀ place e, place ≠ [] → fs.node? place = some e →
    fs.node? place.dropLast = some .directory
  text : ∀ place text, fs.node? place = some (.link text) → ¬ hasNullName text

theorem hasNullName_of_mem_components (h : name ∈ components text) (hnull : hasNullName name) :
    hasNullName text := by
  obtain ⟨part, hpart, rfl⟩ := List.mem_map.1 h
  rw [hasNullName, String.toList_ofList, List.contains_iff_mem] at hnull
  rw [hasNullName, List.contains_iff_mem]
  exact Path.mem_of_mem_splitSlash hpart hnull

def Trace.IsClean : Trace → Prop
  | .done place => ∀ c ∈ place, ¬ hasNullName c
  | .looped _ => True
  | .null => False

theorem IsProper.trace_isClean (h : fs.IsProper) {open_ : List Place}
    (hhere : ∀ c ∈ here, ¬ hasNullName c) (hnames : ∀ c ∈ names, ¬ hasNullName c) :
    (fs.trace n open_ here names).IsClean := by
  induction n generalizing open_ here names with
  | zero => trivial
  | succ n ih =>
      induction names generalizing here with
      | nil => exact hhere
      | cons name rest ihrest =>
          have hrest : ∀ c ∈ rest, ¬ hasNullName c := fun c hc =>
            hnames c (List.mem_cons_of_mem name hc)
          have hname : ¬ hasNullName name := hnames name List.mem_cons_self
          by_cases hidle : IsIdle name
          · rw [trace_stay hidle]
            exact ihrest hhere hrest
          by_cases hdots : name = ".."
          · subst hdots
            rw [trace_up]
            exact ihrest (fun c hc => hhere c (List.dropLast_subset _ hc)) hrest
          have ho : IsOrdinary name := ⟨fun he => hidle (.inl he), fun he => hidle (.inr he), hdots⟩
          rw [trace_ordinary ho hname]
          split
          · rename_i text hlink
            have hbase : ∀ c ∈ linkStart here text, ¬ hasNullName c := by
              rw [linkStart]
              split
              · exact fun _ hc => absurd hc List.not_mem_nil
              · exact hhere
            have htext : ∀ c ∈ components text, ¬ hasNullName c := fun c hc hnull =>
              h.text _ text hlink (hasNullName_of_mem_components hc hnull)
            have hinner : (if open_.contains (here ++ [name]) then
                Trace.looped (placeChars (here ++ [name])) else fs.trace n ((here ++ [name]) :: open_)
                  (linkStart here text) (components text)).IsClean := by
              split
              · trivial
              · exact ih hbase htext
            split
            · rename_i there htrace
              rw [htrace] at hinner
              exact ihrest hinner hrest
            · trivial
            · rename_i htrace
              rw [htrace] at hinner
              exact hinner
          · refine ihrest (fun c hc => ?_) hrest
            rcases List.mem_append.1 hc with hc | hc
            · exact hhere c hc
            · obtain rfl := List.mem_singleton.1 hc
              exact hname

end Null

end MediaCatalog.FileSystem
