import MediaCatalog.Proofs.FileSystem.Change
import MediaCatalog.Proofs.FileSystem.Descent

namespace MediaCatalog.FileSystem

variable {fs fs' fs'' : FileSystem} {n m : Nat} {here place parent : Place} {name text : String}
  {names : List String} {followLast : Bool} {cwd p source target : Path} {e : Node}

section Entries

theorem node?_erase_self (h : place ≠ []) : (fs.erase place).node? place = none := by
  rw [node?.eq_2 _ _ h, erase, List.find?_filter, List.find?_eq_none.2]
  · rfl
  · intro x _ hx
    simp only [decide_eq_true_eq] at hx
    exact hx.1 hx.2

theorem node?_erase_of_ne {q : Place} (h : q ≠ place) :
    (fs.erase place).node? q = fs.node? q := by
  by_cases hroot : q = []
  · subst hroot
    rfl
  have hkeep : ∀ x : Place × Node,
      decide (decide (x.1 ≠ place) = true ∧ decide (x.1 = q) = true) = decide (x.1 = q) := by
    intro x
    by_cases hx : x.1 = q
    · simp [hx, h]
    · simp [hx]
  rw [node?.eq_2 _ _ hroot, node?.eq_2 _ _ hroot, erase, List.find?_filter]
  simp only [hkeep]

theorem linkCount_erase_le (place : Place) : (fs.erase place).linkCount ≤ fs.linkCount :=
  (List.filter_sublist.filter _).length_le

theorem length_setPlace_le (hlink : ¬ isLink e) (entries : List (Place × Node)) :
    ((put.setPlace place e entries).filter (fun x => isLink x.2)).length ≤
      (entries.filter (fun x => isLink x.2)).length := by
  induction entries with
  | nil => simp [put.setPlace, hlink]
  | cons x entries ih =>
      by_cases hx : x.1 = place
      · simp only [put.setPlace, if_pos hx, List.filter_cons, if_neg hlink]
        split
        · exact Nat.le_succ _
        · exact Nat.le_refl _
      · simp only [put.setPlace, if_neg hx, List.filter_cons]
        split
        · exact Nat.succ_le_succ ih
        · exact ih

theorem linkCount_put_le (hlink : ¬ isLink e) (place : Place) :
    (fs.put place e).linkCount ≤ fs.linkCount :=
  length_setPlace_le hlink fs.entries

end Entries

section Grows

/-- Everything stays as it is. What is new is allowed, is no link, and stands in a directory. -/
structure Grows (allowed : Place → Node → Prop) (fs fs' : FileSystem) : Prop where
  retains : ∀ place e, fs.node? place = some e → fs'.node? place = some e
  introduces : ∀ place e, fs'.node? place = some e → fs.node? place = none →
    allowed place e ∧ ¬ isLink e ∧ fs'.node? place.dropLast = some .directory
  linkCount_le : fs'.linkCount ≤ fs.linkCount

variable {allowed larger : Place → Node → Prop}

theorem Grows.refl (allowed : Place → Node → Prop) (fs : FileSystem) : Grows allowed fs fs where
  retains _ _ he := he
  introduces place e he hnone := by
    rw [hnone] at he
    cases he
  linkCount_le := Nat.le_refl _

theorem Grows.trans (h : Grows allowed fs fs') (h' : Grows allowed fs' fs'') :
    Grows allowed fs fs'' where
  retains place e he := h'.retains place e (h.retains place e he)
  introduces place e he hnone := by
    cases hmiddle : fs'.node? place with
    | none => exact h'.introduces place e he hmiddle
    | some e' =>
        obtain rfl := Option.some.inj ((h'.retains place e' hmiddle).symm.trans he)
        obtain ⟨hallowed, hlink, hparent⟩ := h.introduces place e' hmiddle hnone
        exact ⟨hallowed, hlink, h'.retains _ _ hparent⟩
  linkCount_le := Nat.le_trans h'.linkCount_le h.linkCount_le

theorem Grows.weaken (h : Grows allowed fs fs')
    (hlarger : ∀ place e, fs'.node? place = some e → allowed place e → larger place e) :
    Grows larger fs fs' where
  retains := h.retains
  introduces place e he hnone := by
    obtain ⟨hallowed, hrest⟩ := h.introduces place e he hnone
    exact ⟨hlarger place e he hallowed, hrest⟩
  linkCount_le := h.linkCount_le

theorem grows_put (hparent : fs.node? parent = some .directory)
    (hnone : fs.node? (parent ++ [name]) = none) (hlink : ¬ isLink e)
    (hallowed : allowed (parent ++ [name]) e) :
    Grows allowed fs (fs.put (parent ++ [name]) e) where
  retains place e' he := by
    rw [node?_put_of_ne]
    · exact he
    · rintro rfl
      rw [hnone] at he
      cases he
  introduces place e' he hnew := by
    by_cases hplace : place = parent ++ [name]
    · subst hplace
      rw [node?_put_self (by simp)] at he
      obtain rfl := Option.some.inj he
      refine ⟨hallowed, hlink, ?_⟩
      rw [List.dropLast_concat, node?_put_of_ne (by simp)]
      exact hparent
    · rw [node?_put_of_ne hplace, hnew] at he
      cases he
  linkCount_le := linkCount_put_le hlink _

theorem Grows.keepsWays (h : Grows allowed fs fs') : fs.KeepsWays fs' :=
  fun place e he _ => h.retains place e he

theorem Grows.link_iff (h : Grows allowed fs fs') :
    fs'.node? place = some (.link text) ↔ fs.node? place = some (.link text) := by
  constructor
  · intro hlink
    cases he : fs.node? place with
    | none => exact absurd rfl (h.introduces place _ hlink he).2.1
    | some e => exact (h.retains place e he).symm.trans hlink
  · exact h.retains place _

theorem Grows.isProper (h : Grows allowed fs fs') (hfs : fs.IsProper) : fs'.IsProper where
  parent place e hplace he := by
    cases hold : fs.node? place with
    | none => exact (h.introduces place e he hold).2.2
    | some e' => exact h.retains _ _ (hfs.parent place e' hplace hold)
  text place text hlink := hfs.text place text (h.link_iff.1 hlink)

end Grows

section Alters

/-- A change at places where there was neither a directory nor a link. -/
structure Alters (changed : Place → Prop) (fs fs' : FileSystem) : Prop where
  same : ∀ place, ¬ changed place → fs'.node? place = fs.node? place
  files : ∀ place e, changed place → fs.node? place = some e → isFileNode e

variable {changed : Place → Prop} {allowed larger : Place → Node → Prop}

theorem Alters.keepsWays (h : Alters changed fs fs') : fs.KeepsWays fs' := by
  intro place e he hfile
  by_cases hplace : changed place
  · rw [h.files place e hplace he] at hfile
    cases hfile
  · exact (h.same place hplace).trans he

theorem Grows.alters {fs₀ : FileSystem} (h : Grows allowed fs₀ fs) (halters : Alters changed fs fs')
    (hlinks : fs'.linkCount ≤ fs.linkCount) (hnew : ∀ place, changed place → fs₀.node? place = none)
    (hchanged : ∀ place e, changed place → fs'.node? place = some e →
      larger place e ∧ ¬ isLink e ∧ fs'.node? place.dropLast = some .directory)
    (hrest : ∀ place e, ¬ changed place → allowed place e → larger place e) :
    Grows larger fs₀ fs' where
  retains place e he := by
    have hplace : ¬ changed place := by
      intro hplace
      rw [hnew place hplace] at he
      cases he
    exact (halters.same place hplace).trans (h.retains place e he)
  introduces place e he hnone := by
    by_cases hplace : changed place
    · exact hchanged place e hplace he
    · rw [halters.same place hplace] at he
      obtain ⟨hallowed, hlink, hparent⟩ := h.introduces place e he hnone
      exact ⟨hrest place e hplace hallowed, hlink, halters.keepsWays _ _ hparent rfl⟩
  linkCount_le := Nat.le_trans hlinks h.linkCount_le

end Alters

section Absent

def IsAbsent (out : Except Errno Reach) : Prop :=
  out = .error .noEntry ∨ ∃ parent name, out = .ok (.missing parent name)

theorem Grows.turn_eq_or_absent {allowed : Place → Node → Prop} (h : Grows allowed fs fs')
    (hhere : fs.node? here = some e) (name : String) :
    fs'.turn here name = fs.turn here name ∨ fs.turn here name = .absent := by
  have hhere' : fs'.node? here = fs.node? here := (h.retains here e hhere).trans hhere.symm
  cases hname : fs.node? (here ++ [name]) with
  | some e' => exact .inl (turn_congr hhere' ((h.retains _ e' hname).trans hname.symm))
  | none =>
      simp only [turn, hhere', hname]
      split
      · exact .inl rfl
      split
      · exact .inl rfl
      split
      · exact .inl rfl
      split
      · exact .inl rfl
      · exact .inr rfl

theorem node?_linkStart (hhere : fs.node? here = some .directory) :
    ∃ e, fs.node? (linkStart here text) = some e := by
  rw [linkStart]
  split
  · exact ⟨.directory, rfl⟩
  · exact ⟨.directory, hhere⟩

theorem IsProper.node?_goto (hfs : fs.IsProper) {next : Place}
    (hturn : fs.turn here name = .goto next) : ∃ e, fs.node? next = some e := by
  obtain ⟨hdir, ⟨-, rfl⟩ | ⟨-, rfl⟩ | ⟨-, rfl, e, he, -⟩⟩ := turn_eq_goto hturn
  · exact ⟨_, hdir⟩
  · by_cases hroot : here = []
    · subst hroot
      exact ⟨_, rfl⟩
    · exact ⟨_, hfs.parent here _ hroot hdir⟩
  · exact ⟨e, he⟩

/-- A look-up goes the same way in the larger file system, unless it misses something in the
smaller one. -/
theorem Grows.walk_eq_or_absent {allowed : Place → Node → Prop} (h : Grows allowed fs fs')
    (hfs : fs.IsProper) (hhere : ∃ e, fs.node? here = some e) :
    walk fs' followLast n here names = walk fs followLast n here names ∨
      IsAbsent (walk fs followLast n here names) := by
  induction n, here, names using walk_induct with
  | zero => exact .inl rfl
  | nil => exact .inl rfl
  | cons n here name rest ihrest ihjump =>
      obtain ⟨e, he⟩ := hhere
      rw [walk_cons, walk_cons]
      rcases h.turn_eq_or_absent he name with hturn | hturn
      · rw [hturn]
        cases hturn' : fs.turn here name with
        | stop e => exact .inl rfl
        | goto next => exact ihrest next (hfs.node?_goto hturn')
        | link text =>
            dsimp only
            split
            · exact .inl rfl
            · exact ihjump _ _ (node?_linkStart (turn_eq_link hturn').1)
        | absent => exact .inl rfl
      · rw [hturn]
        refine .inr ?_
        dsimp only
        split
        · exact .inr ⟨_, _, rfl⟩
        · exact .inl rfl

theorem IsProper.node?_of_walk (hfs : fs.IsProper) (hhere : ∃ e, fs.node? here = some e)
    (h : walk fs true n here names = .ok (.found place)) : ∃ e, fs.node? place = some e := by
  induction n, here, names using walk_induct with
  | zero => cases h
  | nil =>
      cases h
      exact hhere
  | cons n here name rest ihrest ihjump =>
      rw [walk_cons] at h
      cases hturn : fs.turn here name with
      | stop e =>
          rw [hturn] at h
          cases h
      | absent =>
          rw [hturn] at h
          dsimp only at h
          split at h <;> cases h
      | goto next =>
          rw [hturn] at h
          exact ihrest next (hfs.node?_goto hturn) h
      | link text =>
          rw [hturn] at h
          dsimp only at h
          rw [if_neg (by simp)] at h
          exact ihjump _ _ (node?_linkStart (turn_eq_link hturn).1) h

theorem IsProper.node?_of_find (hfs : fs.IsProper) (h : fs.find cwd p = .ok place) :
    ∃ e, fs.node? place = some e := by
  rw [find_eq_ok, reach] at h
  split at h
  · cases h
  · exact hfs.node?_of_walk ⟨_, rfl⟩ h

end Absent

end MediaCatalog.FileSystem
