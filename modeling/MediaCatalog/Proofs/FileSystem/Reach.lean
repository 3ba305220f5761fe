import MediaCatalog.FileSystem.Resolve
import MediaCatalog.Proofs.Path

namespace MediaCatalog.FileSystem

structure IsOrdinary (name : String) : Prop where
  ne_empty : name ≠ ""
  ne_dot : name ≠ "."
  ne_dots : name ≠ ".."

def IsIdle (name : String) : Prop := name = "" ∨ name = "."

theorem IsIdle.not_isOrdinary {name : String} (h : IsIdle name) : ¬ IsOrdinary name := by
  intro ho
  exact h.elim ho.ne_empty ho.ne_dot

theorem IsIdle.ne_dots {name : String} (h : IsIdle name) : name ≠ ".." := by
  rcases h with rfl | rfl <;> decide

theorem isOrdinary_of_not {name : String} (hidle : ¬ (name = "" || name = ".") = true)
    (hdots : name ≠ "..") : IsOrdinary name := by
  obtain ⟨hempty, hdot⟩ : name ≠ "" ∧ name ≠ "." := by simpa using hidle
  exact ⟨hempty, hdot, hdots⟩

theorem isOrdinary_concat {place : Place} {name : String} (hplace : ∀ c ∈ place, IsOrdinary c)
    (hname : IsOrdinary name) : ∀ c ∈ place ++ [name], IsOrdinary c := by
  intro c hc
  rcases List.mem_append.1 hc with hc | hc
  · exact hplace c hc
  · obtain rfl := List.mem_singleton.1 hc
    exact hname

theorem not_isOrdinary_dots : ¬ IsOrdinary ".." := fun h => h.ne_dots rfl

def linkStart (directory : Place) (text : String) : Place :=
  if isAbsoluteText text then [] else directory

theorem isOrdinary_linkStart {directory : Place} (h : ∀ c ∈ directory, IsOrdinary c)
    (text : String) : ∀ c ∈ linkStart directory text, IsOrdinary c := by
  rw [linkStart]
  split
  · exact fun _ hc => absurd hc List.not_mem_nil
  · exact h

/-- Where names lead to from a place, with the number of links on the way. The text of a link is
followed to its end before the names behind it. -/
inductive Leads (fs : FileSystem) : Nat → Place → List String → Place → Prop
  | here {place : Place} : Leads fs 0 place [] place
  | stay {k : Nat} {place target : Place} {name : String} {rest : List String} :
      IsIdle name → Leads fs k place rest target →
      Leads fs k place (name :: rest) target
  | up {k : Nat} {place target : Place} {rest : List String} :
      Leads fs k place.dropLast rest target → Leads fs k place (".." :: rest) target
  | enter {k : Nat} {place target : Place} {name : String} {rest : List String} {e : Node} :
      IsOrdinary name → fs.node? (place ++ [name]) = some e → ¬ isLink e →
      Leads fs k (place ++ [name]) rest target → Leads fs k place (name :: rest) target
  | follow {k l : Nat} {place middle target : Place} {name text : String} {rest : List String} :
      IsOrdinary name → fs.node? (place ++ [name]) = some (.link text) →
      Leads fs k (linkStart place text) (components text) middle → Leads fs l middle rest target →
      Leads fs (k + l + 1) place (name :: rest) target

def Reach.place : Reach → Place
  | .found place => place
  | .missing parent name => parent ++ [name]

variable {fs : FileSystem} {k : Nat} {here place : Place} {names : List String}

section Leads

theorem Leads.unique {l : Nat} {place' : Place} (h : Leads fs k here names place)
    (h' : Leads fs l here names place') : k = l ∧ place = place' := by
  induction h generalizing l place' with
  | here =>
      cases h'
      exact ⟨rfl, rfl⟩
  | stay hidle _ ih =>
      cases h' with
      | stay _ h' => exact ih h'
      | up _ => exact absurd rfl hidle.ne_dots
      | enter ho _ _ _ | follow ho _ _ _ => exact absurd ho hidle.not_isOrdinary
  | up _ ih =>
      cases h' with
      | stay hidle _ => exact absurd rfl hidle.ne_dots
      | up h' => exact ih h'
      | enter ho _ _ _ | follow ho _ _ _ => exact absurd ho not_isOrdinary_dots
  | enter ho he hlink _ ih =>
      cases h' with
      | stay hidle _ => exact absurd ho hidle.not_isOrdinary
      | up _ => exact absurd ho not_isOrdinary_dots
      | enter _ _ _ h' => exact ih h'
      | follow _ he' _ _ =>
          obtain rfl := Option.some.inj (he.symm.trans he')
          exact absurd rfl hlink
  | follow ho he _ _ ih₁ ih₂ =>
      cases h' with
      | stay hidle _ => exact absurd ho hidle.not_isOrdinary
      | up _ => exact absurd ho not_isOrdinary_dots
      | enter _ he' hlink _ =>
          obtain rfl := Option.some.inj (he.symm.trans he')
          exact absurd rfl hlink
      | follow _ he' h₁ h₂ =>
          cases Option.some.inj (he.symm.trans he')
          obtain ⟨rfl, rfl⟩ := ih₁ h₁
          obtain ⟨rfl, rfl⟩ := ih₂ h₂
          exact ⟨rfl, rfl⟩

theorem Leads.of_append {xs ys : List String} (h : Leads fs k here (xs ++ ys) place) :
    ∃ i j middle, k = i + j ∧ Leads fs i here xs middle ∧ Leads fs j middle ys place := by
  induction xs generalizing k here with
  | nil => exact ⟨0, k, here, (Nat.zero_add k).symm, .here, h⟩
  | cons x xs ih =>
      rw [List.cons_append] at h
      cases h with
      | stay hidle h =>
          obtain ⟨i, j, middle, rfl, h₁, h₂⟩ := ih h
          exact ⟨i, j, middle, rfl, .stay hidle h₁, h₂⟩
      | up h =>
          obtain ⟨i, j, middle, rfl, h₁, h₂⟩ := ih h
          exact ⟨i, j, middle, rfl, .up h₁, h₂⟩
      | enter ho he hlink h =>
          obtain ⟨i, j, middle, rfl, h₁, h₂⟩ := ih h
          exact ⟨i, j, middle, rfl, .enter ho he hlink h₁, h₂⟩
      | follow ho he htext h =>
          obtain ⟨i, j, middle, rfl, h₁, h₂⟩ := ih h
          exact ⟨_, j, middle, by omega, .follow ho he htext h₁, h₂⟩

theorem Leads.isOrdinary (h : Leads fs k here names place) (hhere : ∀ c ∈ here, IsOrdinary c) :
    ∀ c ∈ place, IsOrdinary c := by
  induction h with
  | here => exact hhere
  | stay _ _ ih => exact ih hhere
  | up _ ih => exact ih fun c hc => hhere c (List.dropLast_subset _ hc)
  | enter ho _ _ _ ih => exact ih (isOrdinary_concat hhere ho)
  | follow _ _ _ _ ih₁ ih₂ => exact ih₂ (ih₁ (isOrdinary_linkStart hhere _))

end Leads

section Walk

theorem along_cons {followLast : Bool} {jump : Place → List String → Except Errno Reach}
    {name : String} {rest : List String} {out : Reach}
    (h : along fs followLast jump here (name :: rest) = .ok out) :
    fs.node? here = some .directory ∧
      (IsIdle name ∧ along fs followLast jump here rest = .ok out ∨
        name = ".." ∧ along fs followLast jump here.dropLast rest = .ok out ∨
        IsOrdinary name ∧
          (fs.node? (here ++ [name]) = none ∧ rest = [] ∧ out = .missing here name ∨
            (∃ e, fs.node? (here ++ [name]) = some e ∧ ¬ isLink e ∧
              along fs followLast jump (here ++ [name]) rest = .ok out) ∨
            ∃ text, fs.node? (here ++ [name]) = some (.link text) ∧
              (rest = [] ∧ followLast = false ∧ out = .found (here ++ [name]) ∨
                jump (linkStart here text) (components text ++ rest) = .ok out))) := by
  rw [along] at h
  split at h
  · cases h
  rename_i hdir
  refine ⟨Decidable.not_not.1 hdir, ?_⟩
  split at h
  · rename_i hstay
    exact .inl ⟨by simpa [IsIdle] using hstay, h⟩
  rename_i hstay
  split at h
  · exact .inr (.inl ⟨‹_›, h⟩)
  rename_i hup
  split at h
  · cases h
  have ho : IsOrdinary name := isOrdinary_of_not hstay hup
  refine .inr (.inr ⟨ho, ?_⟩)
  cases hnode : fs.node? (here ++ [name]) with
  | none =>
      simp only [hnode] at h
      split at h
      · exact .inl ⟨rfl, ‹_›, (Except.ok.inj h).symm⟩
      · cases h
  | some e =>
      refine .inr ?_
      cases e with
      | directory | file =>
          simp only [hnode] at h
          exact .inl ⟨_, rfl, Bool.false_ne_true, h⟩
      | link text =>
          simp only [hnode] at h
          refine .inr ⟨text, rfl, ?_⟩
          split at h
          · rename_i hlast
            obtain ⟨hrest, hfollow⟩ : rest = [] ∧ followLast = false := by simpa using hlast
            exact .inl ⟨hrest, hfollow, (Except.ok.inj h).symm⟩
          · exact .inr h

theorem leads_of_along {jump : Place → List String → Except Errno Reach}
    (hjump : ∀ here names place, jump here names = .ok (.found place) →
      ∃ k, Leads fs k here names place)
    (h : along fs true jump here names = .ok (.found place)) :
    ∃ k, Leads fs k here names place := by
  induction names generalizing here with
  | nil =>
      cases h
      exact ⟨0, .here⟩
  | cons name rest ih =>
      obtain ⟨-, ⟨hidle, hrest⟩ | ⟨rfl, hrest⟩ | ⟨ho, hdown⟩⟩ := along_cons h
      · obtain ⟨k, hk⟩ := ih hrest
        exact ⟨k, .stay hidle hk⟩
      · obtain ⟨k, hk⟩ := ih hrest
        exact ⟨k, .up hk⟩
      rcases hdown with ⟨-, -, hmissing⟩ | ⟨e, he, hlink, hrest⟩ | ⟨text, he, ⟨-, hlast, -⟩ | hrest⟩
      · cases hmissing
      · obtain ⟨k, hk⟩ := ih hrest
        exact ⟨k, .enter ho he hlink hk⟩
      · cases hlast
      · -- The walk goes on with the text of the link and the other names as one list.
        obtain ⟨k, hk⟩ := hjump _ _ _ hrest
        obtain ⟨i, j, middle, rfl, h₁, h₂⟩ := hk.of_append
        exact ⟨_, .follow ho he h₁ h₂⟩

theorem leads_of_walk {n : Nat} (h : walk fs true n here names = .ok (.found place)) :
    ∃ k, Leads fs k here names place := by
  induction n generalizing here names place with
  | zero => cases h
  | succ n ih => exact leads_of_along (fun _ _ _ => ih) h

end Walk

section Unlinked

/-- No link stands on the way down to a place, nor at the place itself. -/
def IsUnlinked (fs : FileSystem) (place : Place) : Prop :=
  ∀ front, front <+: place → ∀ text, fs.node? front ≠ some (.link text)

theorem IsUnlinked.front {front : Place} (h : fs.IsUnlinked place) (hfront : front <+: place) :
    fs.IsUnlinked front :=
  fun _ hf => h _ (hf.trans hfront)

theorem place_along {followLast : Bool} {jump : Place → List String → Except Errno Reach}
    {out : Reach} (hnames : ∀ c ∈ names, IsOrdinary c) (hun : fs.IsUnlinked (here ++ names))
    (h : along fs followLast jump here names = .ok out) : out.place = here ++ names := by
  induction names generalizing here with
  | nil =>
      cases h
      exact (List.append_nil _).symm
  | cons name rest ih =>
      have ho : IsOrdinary name := hnames name List.mem_cons_self
      have hsplit : here ++ name :: rest = here ++ [name] ++ rest := List.append_cons ..
      obtain ⟨-, ⟨hidle, -⟩ | ⟨rfl, -⟩ | ⟨-, hdown⟩⟩ := along_cons h
      · exact absurd ho hidle.not_isOrdinary
      · exact absurd ho not_isOrdinary_dots
      rcases hdown with ⟨-, rfl, rfl⟩ | ⟨e, -, -, hrest⟩ | ⟨text, he, -⟩
      · rfl
      · rw [hsplit] at hun ⊢
        exact ih (fun c hc => hnames c (List.mem_cons_of_mem name hc)) hun hrest
      · rw [hsplit] at hun
        exact absurd he (hun _ (List.prefix_append _ _) text)

theorem place_reach {cwd p : Path} {followLast : Bool} {out : Reach} (habs : p.isAbsolute)
    (hnames : ∀ c ∈ p.parts, IsOrdinary c) (hun : fs.IsUnlinked p.parts)
    (h : fs.reach cwd p followLast = .ok out) : out.place = p.parts := by
  rw [reach] at h
  split at h
  · cases h
  · rw [Path.absolute_of_isAbsolute habs, maxLinks, walk] at h
    exact place_along hnames hun h

theorem isUnlinked_root : fs.IsUnlinked [] := by
  intro front hfront text
  obtain rfl := List.prefix_nil.1 hfront
  exact fun h => nomatch h

theorem IsUnlinked.concat {name : String} {e : Node} (h : fs.IsUnlinked here)
    (he : fs.node? (here ++ [name]) = some e) (hlink : ¬ isLink e) :
    fs.IsUnlinked (here ++ [name]) := by
  intro front hfront text htext
  rcases List.prefix_concat_iff.1 hfront with rfl | hfront
  · obtain rfl := Option.some.inj (he.symm.trans htext)
    exact hlink rfl
  · exact h front hfront text htext

theorem Leads.isUnlinked (h : Leads fs k here names place) (hhere : fs.IsUnlinked here) :
    fs.IsUnlinked place := by
  induction h with
  | here => exact hhere
  | stay _ _ ih => exact ih hhere
  | up _ ih => exact ih (hhere.front (List.dropLast_prefix _))
  | enter _ he hlink _ ih => exact ih (hhere.concat he hlink)
  | follow _ _ _ _ ih₁ ih₂ =>
      apply ih₂
      apply ih₁
      rw [linkStart]
      split
      · exact isUnlinked_root
      · exact hhere

end Unlinked

end MediaCatalog.FileSystem
