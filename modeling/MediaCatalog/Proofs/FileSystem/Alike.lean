import MediaCatalog.Proofs.FileSystem.Change
import MediaCatalog.Proofs.FileSystem.Descent
import MediaCatalog.Proofs.FileSystem.Entry

namespace MediaCatalog.FileSystem

/-- What one directory holds may differ, but there are only files in it. No link leads there. -/
structure Alike (directory : Place) (fs fs' : FileSystem) : Prop where
  isUnlinked : fs.IsUnlinked directory
  same : ∀ place, (∀ name, place ≠ directory ++ [name]) → fs'.node? place = fs.node? place
  file : ∀ name e, fs.node? (directory ++ [name]) = some e → isFileNode e
  file' : ∀ name e, fs'.node? (directory ++ [name]) = some e → isFileNode e

variable {fs fs' : FileSystem} {cwd p q : Path} {directory here place : Place}
  {name : String} {names : List String} {n : Nat} {followLast : Bool} {e : Node}
  {content : Content} {now : Int}

theorem ne_concat_of_isPrefix (h : place <+: directory) (name : String) :
    place ≠ directory ++ [name] := by
  rintro rfl
  have hlength := h.length_le
  rw [List.length_append, List.length_singleton] at hlength
  omega

theorem Alike.symm (h : Alike directory fs fs') : Alike directory fs' fs where
  isUnlinked front hfront text := by
    rw [h.same front (ne_concat_of_isPrefix hfront)]
    exact h.isUnlinked front hfront text
  same place hplace := (h.same place hplace).symm
  file := h.file'
  file' := h.file

theorem Alike.refl (h : Alike directory fs fs') : Alike directory fs fs where
  isUnlinked := h.isUnlinked
  same _ _ := rfl
  file := h.file
  file' := h.file

theorem Alike.isUnlinked_slot (h : Alike directory fs fs') (name : String) :
    fs.IsUnlinked (directory ++ [name]) := by
  intro front hfront text he
  rcases List.prefix_concat_iff.1 hfront with rfl | hfront
  · exact absurd (h.file name _ he) Bool.false_ne_true
  · exact h.isUnlinked front hfront text he

section Look

theorem walk_slot (hdir : fs.node? here = some .directory) (hname : IsOrdinary name)
    (hlong : ¬ maxName < Text.Utf8.size name)
    (hfile : ∀ e, fs.node? (here ++ [name]) = some e → isFileNode e) :
    ∃ out, walk fs followLast (n + 1) here [name] = .ok out := by
  rw [walk_cons, turn_of_isOrdinary hdir hname hlong]
  cases he : fs.node? (here ++ [name]) with
  | none => exact ⟨_, rfl⟩
  | some e =>
      have hisFile := hfile e he
      cases e with
      | file => exact ⟨_, rfl⟩
      | directory | link => cases hisFile

/-- A look-up in or above the directory goes the same way, or ends at one of its names. -/
theorem Alike.walk_eq_or (h : Alike directory fs fs') (hnames : ∀ c ∈ names, IsOrdinary c)
    (hbelow : here ++ names <+: directory ++ [name]) :
    walk fs' followLast (n + 1) here names = walk fs followLast (n + 1) here names ∨
      here ++ names = directory ++ [name] ∧
        (∃ out, walk fs followLast (n + 1) here names = .ok out) ∧
        ∃ out, walk fs' followLast (n + 1) here names = .ok out := by
  induction names generalizing here with
  | nil => exact .inl rfl
  | cons c rest ih =>
      have hc := hnames c List.mem_cons_self
      have hsplit : here ++ c :: rest = here ++ [c] ++ rest := List.append_cons ..
      have hfront : here ++ [c] <+: directory ++ [name] :=
        (hsplit ▸ List.prefix_append _ rest).trans hbelow
      rcases List.prefix_concat_iff.1 hfront with hlast | habove
      · obtain rfl : rest = [] := by
          rw [hsplit, hlast] at hbelow
          have hlength := hbelow.length_le
          rw [List.length_append] at hlength
          exact List.length_eq_zero_iff.1 (by omega)
        obtain ⟨rfl, hname⟩ := List.append_inj' hlast rfl
        obtain rfl := List.singleton_inj.1 hname
        have hhere := h.same here (ne_concat_of_isPrefix (List.prefix_refl here))
        -- The last name is the only one where the two can part, and no link is met there.
        by_cases hdir : fs.node? here = some .directory
        · by_cases hlong : maxName < Text.Utf8.size c
          · refine .inl ?_
            rw [walk_cons, walk_cons, turn, turn, hhere]
            have hidle : ¬ (c = "" || c = ".") = true := by simpa using ⟨hc.ne_empty, hc.ne_dot⟩
            rw [if_neg (not_not_intro hdir), if_neg hidle, if_neg hc.ne_dots, if_pos hlong,
              if_neg (not_not_intro hdir), if_neg hidle, if_neg hc.ne_dots, if_pos hlong]
          · exact .inr ⟨rfl, walk_slot hdir hc hlong (h.file c),
              walk_slot (hhere.trans hdir) hc hlong (h.file' c)⟩
        · refine .inl ?_
          rw [walk_cons, walk_cons, turn, turn, hhere, if_pos hdir, if_pos hdir]
      · have hhere := h.same here (ne_concat_of_isPrefix ((List.prefix_append _ _).trans habove))
        have hturn := turn_congr hhere (h.same _ (ne_concat_of_isPrefix habove))
        rw [walk_cons, walk_cons, hturn, hsplit]
        cases hgo : fs.turn here c with
        | stop e => exact .inl rfl
        | absent => exact .inl rfl
        | link text =>
            obtain ⟨-, -, hlink⟩ := turn_eq_link hgo
            exact absurd hlink (h.isUnlinked _ habove text)
        | goto next =>
            obtain ⟨-, ⟨hidle, -⟩ | ⟨rfl, -⟩ | ⟨-, rfl, -⟩⟩ := turn_eq_goto hgo
            · exact absurd hc hidle.not_isOrdinary
            · exact absurd hc not_isOrdinary_dots
            · exact ih (fun d hd => hnames d (List.mem_cons_of_mem c hd)) (hsplit ▸ hbelow)

theorem Alike.reach_eq_or (h : Alike directory fs fs') (hp : p.IsCanonical)
    (hbelow : p.parts <+: directory ++ [name]) :
    fs'.reach cwd p followLast = fs.reach cwd p followLast ∨ p.parts = directory ++ [name] ∧
      (∃ out, fs.reach cwd p followLast = .ok out) ∧
      ∃ out, fs'.reach cwd p followLast = .ok out := by
  rw [reach, reach]
  split
  · exact .inl rfl
  · rw [Path.absolute_of_isAbsolute hp.isAbsolute]
    exact h.walk_eq_or hp.isOrdinary hbelow

theorem Alike.reach_eq (h : Alike directory fs fs') (hp : p.IsCanonical)
    (hbelow : p.parts <+: directory) :
    fs'.reach cwd p followLast = fs.reach cwd p followLast := by
  have hbelow' : p.parts <+: directory ++ [""] := hbelow.trans (List.prefix_append _ _)
  rcases h.reach_eq_or hp hbelow' with heq | ⟨heq, -⟩
  · exact heq
  · exact absurd heq (ne_concat_of_isPrefix hbelow "")

theorem Alike.test_eq (h : Alike directory fs fs') (hp : p.IsCanonical)
    (hbelow : p.parts <+: directory) (wanted : Node → Bool) :
    fs'.test cwd p wanted = fs.test cwd p wanted := by
  have hlookup : fs'.lookup cwd p = fs.lookup cwd p := by
    rw [lookup, lookup, find, find, h.reach_eq hp hbelow]
    rcases hreach : fs.reach cwd p true with e | ⟨place⟩ | ⟨parent, name⟩
    · rfl
    · have hplace : place = p.parts :=
        place_reach hp.isAbsolute hp.isOrdinary (h.isUnlinked.front hbelow) hreach
      have hnode : fs'.node? place = fs.node? place :=
        h.same place (ne_concat_of_isPrefix (hplace ▸ hbelow))
      simp only [bind, Except.bind, pure, Except.pure, hnode]
    · rfl
  rw [test, test, hlookup]

end Look

section Make

theorem Alike.put (h : Alike directory fs fs') (hplace : place <+: directory) :
    Alike directory (fs.put place .directory) (fs'.put place .directory) where
  isUnlinked := (spares_put hplace).isUnlinked h.isUnlinked
  same q hq := by
    by_cases hsame : q = place
    · subst hsame
      cases q with
      | nil => rfl
      | cons c q =>
          have hroot := List.cons_ne_nil c q
          rw [node?_put_self hroot, node?_put_self hroot]
    · rw [node?_put_of_ne hsame, node?_put_of_ne hsame]
      exact h.same q hq
  file name e he := h.file name e ((spares_put hplace).child name ▸ he)
  file' name e he := h.file' name e ((spares_put hplace).child name ▸ he)

theorem Alike.makeDir (cwd : Path) (h : Alike directory fs fs') (hp : p.IsCanonical)
    (hbelow : p.parts <+: directory) :
    (∃ f, fs.makeDir cwd p = .error f ∧ fs'.makeDir cwd p = .error f) ∨
    ∃ gs gs', fs.makeDir cwd p = .ok gs ∧ fs'.makeDir cwd p = .ok gs' ∧
      Alike directory gs gs' := by
  have hreach : fs'.reach cwd p false = fs.reach cwd p false := h.reach_eq hp hbelow
  rw [FileSystem.makeDir, FileSystem.makeDir, hreach]
  by_cases hnull : p.hasNull
  · exact .inl ⟨nullCharacter, if_pos hnull, if_pos hnull⟩
  rw [failing_clean hnull, failing_clean hnull]
  rcases hout : fs.reach cwd p false with e | ⟨there⟩ | ⟨parent, name⟩
  · exact .inl ⟨_, rfl, rfl⟩
  · exact .inl ⟨_, rfl, rfl⟩
  · have hplace : parent ++ [name] = p.parts :=
      place_reach hp.isAbsolute hp.isOrdinary (h.isUnlinked.front hbelow) hout
    exact .inr ⟨_, _, rfl, rfl, h.put (hplace ▸ hbelow)⟩

theorem Alike.unlessDir_eq (h : Alike directory fs fs') (hp : p.IsCanonical)
    (hbelow : p.parts <+: directory) (f : Failure) :
    fs'.unlessDir cwd p f = fs.unlessDir cwd p f := by
  rw [unlessDir, unlessDir, isDir, isDir, h.test_eq hp hbelow]

theorem Alike.makeDirs (cwd : Path) (n : Nat) (h : Alike directory fs fs') (hp : p.IsCanonical)
    (hbelow : p.parts <+: directory) :
    (makeDirs cwd n fs' p).2 = (makeDirs cwd n fs p).2 ∧
      Alike directory (FileSystem.makeDirs cwd n fs p).1 (FileSystem.makeDirs cwd n fs' p).1 := by
  induction n generalizing fs fs' p with
  | zero => exact ⟨rfl, h⟩
  | succ n ih =>
      rw [FileSystem.makeDirs, FileSystem.makeDirs]
      rcases h.makeDir cwd hp hbelow with ⟨f, hf, hf'⟩ | ⟨gs, gs', hgs, hgs', halike⟩
      · rw [hf, hf']
        dsimp only
        split
        · obtain ⟨hsame, hparents⟩ := ih h hp.parent ((List.dropLast_prefix _).trans hbelow)
          rcases hall : FileSystem.makeDirs cwd n fs p.parent with ⟨gs, g⟩
          rcases hall' : FileSystem.makeDirs cwd n fs' p.parent with ⟨gs', g'⟩
          rw [hall, hall'] at hsame hparents
          obtain rfl : g' = g := hsame
          cases g' with
          | some g => exact ⟨rfl, hparents⟩
          | none =>
              rcases hparents.makeDir cwd hp hbelow with
                ⟨f, hf, hf'⟩ | ⟨gs, gs', hgs, hgs', halike⟩
              · dsimp only
                rw [hf, hf']
                exact ⟨hparents.unlessDir_eq hp hbelow f, hparents⟩
              · dsimp only
                rw [hgs, hgs']
                exact ⟨rfl, halike⟩
        · exact ⟨h.unlessDir_eq hp hbelow f, h⟩
      · rw [hgs, hgs']
        exact ⟨rfl, halike⟩

theorem Alike.ensureDir (cwd : Path) (h : Alike directory fs fs') (hp : p.IsCanonical)
    (hdir : p.parts = directory) :
    (fs'.ensureDir cwd p).2 = (fs.ensureDir cwd p).2 ∧
      Alike directory (fs.ensureDir cwd p).1 (fs'.ensureDir cwd p).1 :=
  h.makeDirs cwd _ hp (hdir ▸ List.prefix_refl _)

end Make

section Slot

theorem store_map_unit (hfile : ∀ out e, fs.reach cwd q true = .ok out →
    fs.node? out.place = some e → isFileNode e) :
    (fs.store cwd q content now).map (fun _ => ()) =
      failing q ((fs.reach cwd q true).map fun _ => ()) := by
  rw [store]
  by_cases hnull : q.hasNull
  · rw [failing.eq_def, failing.eq_def, if_pos hnull, if_pos hnull]
    rfl
  rw [failing_clean hnull, failing_clean hnull]
  rcases hreach : fs.reach cwd q true with e | ⟨place⟩ | ⟨parent, name⟩
  · rfl
  · have hnode : fs.node? place ≠ some .directory := fun he =>
      absurd (hfile _ _ hreach he) Bool.false_ne_true
    dsimp only [bind, Except.bind]
    rcases he : fs.node? place with _ | ⟨_ | _ | _⟩
    · rfl
    · exact absurd he hnode
    · rfl
    · rfl
  · rfl

theorem exists?_map_unit : (fs.exists? cwd q).map (fun _ => ()) =
    if q.hasNull then .ok () else match fs.reach cwd q true with
      | .ok _ => .ok ()
      | .error e => if meansAbsent e then .ok () else .error (e.failure q) := by
  rw [exists?, test]
  by_cases hnull : q.hasNull
  · rw [if_pos hnull, if_pos hnull]
    rfl
  rw [if_neg hnull, if_neg hnull, lookup, find]
  rcases hreach : fs.reach cwd q true with e | ⟨place⟩ | ⟨parent, name⟩
  · dsimp only [bind, Except.bind]
    split <;> rfl
  · dsimp only [bind, Except.bind, pure, Except.pure]
    cases fs.node? place <;> rfl
  · rfl

variable (cwd : Path) (h : Alike directory fs fs') (hq : q.IsCanonical)
  (hparts : q.parts = directory ++ [name])
include h hq hparts

theorem Alike.reach_map_unit : (fs'.reach cwd q true).map (fun _ => ()) =
    (fs.reach cwd q true).map fun _ => () := by
  have hbelow : q.parts <+: directory ++ [name] := hparts.symm ▸ List.prefix_refl _
  rcases h.reach_eq_or hq hbelow with heq | ⟨-, ⟨out, hout⟩, out', hout'⟩
  · rw [heq]
  · rw [hout, hout']
    rfl

theorem Alike.exists?_map_unit : (fs'.exists? cwd q).map (fun _ => ()) =
    (fs.exists? cwd q).map fun _ => () := by
  have hreach := h.reach_map_unit cwd hq hparts
  rw [FileSystem.exists?_map_unit, FileSystem.exists?_map_unit]
  rcases hout : fs.reach cwd q true with e | out
  · cases hout' : fs'.reach cwd q true with
    | ok out' =>
        rw [hout, hout'] at hreach
        cases hreach
    | error e' =>
        rw [hout, hout'] at hreach
        cases hreach
        rfl
  · cases hout' : fs'.reach cwd q true with
    | ok out' => rfl
    | error e' =>
        rw [hout, hout'] at hreach
        cases hreach

theorem Alike.store_map_unit {content' : Content} {now' : Int} :
    (fs'.store cwd q content' now').map (fun _ => ()) =
      (fs.store cwd q content now).map fun _ => () := by
  have hslot {gs gs' : FileSystem} (halike : Alike directory gs gs') (out : Reach) (e : Node)
      (hreach : gs.reach cwd q true = .ok out) (he : gs.node? out.place = some e) :
      isFileNode e := by
    have hun : gs.IsUnlinked q.parts := hparts ▸ halike.isUnlinked_slot name
    rw [place_reach hq.isAbsolute hq.isOrdinary hun hreach, hparts] at he
    exact halike.file name e he
  rw [FileSystem.store_map_unit (hslot h), FileSystem.store_map_unit (hslot h.symm),
    h.reach_map_unit cwd hq hparts]

end Slot

section Emptied

def emptied (fs : FileSystem) (directory : Place) : FileSystem :=
  ⟨fs.entries.filter fun e => e.1 = [] || e.1.dropLast ≠ directory⟩

theorem node?_emptied_child (fs : FileSystem) (directory : Place) (name : String) :
    (fs.emptied directory).node? (directory ++ [name]) = none := by
  rw [node?.eq_2 _ _ (List.concat_ne_nil _ _), Option.map_eq_none_iff, emptied, List.find?_filter,
    List.find?_eq_none]
  intro e _
  by_cases hplace : e.1 = directory ++ [name]
  · simp [hplace]
  · simp [hplace]

theorem node?_emptied_of_ne (h : ∀ name, place ≠ directory ++ [name]) :
    (fs.emptied directory).node? place = fs.node? place := by
  cases place with
  | nil => rfl
  | cons c rest =>
      have hkept : (c :: rest).dropLast ≠ directory := by
        intro heq
        apply h ((c :: rest).getLast (List.cons_ne_nil c rest))
        rw [← heq, List.dropLast_concat_getLast]
      rw [node?.eq_2 _ _ (List.cons_ne_nil c rest), node?.eq_2 _ _ (List.cons_ne_nil c rest),
        emptied, List.find?_filter]
      congr 2
      funext e
      by_cases hplace : e.1 = c :: rest
      · simp [hplace, hkept]
      · simp [hplace]

theorem alike_emptied (hun : fs.IsUnlinked directory)
    (hfile : ∀ name e, fs.node? (directory ++ [name]) = some e → isFileNode e) :
    Alike directory fs (fs.emptied directory) where
  isUnlinked := hun
  same _ := node?_emptied_of_ne
  file := hfile
  file' name e he := by
    rw [node?_emptied_child] at he
    cases he

theorem keepsWays_emptied
    (hfile : ∀ name e, fs.node? (directory ++ [name]) = some e → isFileNode e) :
    fs.KeepsWays (fs.emptied directory) := by
  intro place e he hway
  rw [node?_emptied_of_ne]
  · exact he
  · rintro name rfl
    exact absurd (hfile name e he) (by simp [hway])

theorem load_emptied {t : Int} (h : fs.load cwd p = .ok (content, t))
    (hfile : ∀ name e, fs.node? (directory ++ [name]) = some e → isFileNode e)
    (helsewhere : ∀ name, fs.find cwd p ≠ .ok (directory ++ [name])) :
    (fs.emptied directory).load cwd p = .ok (content, t) := by
  obtain ⟨hnull, place, hfind, hnode⟩ := find_of_load h
  have hsame : (fs.emptied directory).node? place = fs.node? place := by
    refine node?_emptied_of_ne fun name hplace => helsewhere name ?_
    rw [hfind, hplace]
  exact load_of_find hnull ((keepsWays_emptied hfile).find_eq hsame hfind) (hsame.trans hnode)

end Emptied

end MediaCatalog.FileSystem
