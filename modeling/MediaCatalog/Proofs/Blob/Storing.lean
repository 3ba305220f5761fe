import Mathlib.Logic.Function.Basic
import MediaCatalog.Proofs.Blob.Naming

namespace MediaCatalog.Blob

open FileSystem

variable {ι : Type}

structure Requests (ι : Type) where
  dir : Path
  word : ι → String
  mime : ι → String
  data : ι → List UInt8

namespace Requests

def name (q : Requests ι) (i : ι) : String := nameFor (q.word i) (q.mime i)

def part (q : Requests ι) (i : ι) : String := partName (q.name i)

def call (q : Requests ι) (i : ι) (g : Stage) : Storing := ⟨q.dir, q.name i, q.data i, g⟩

@[simp] theorem dir_call (q : Requests ι) (i : ι) (g : Stage) : (q.call i g).dir = q.dir := rfl

@[simp] theorem data_call (q : Requests ι) (i : ι) (g : Stage) : (q.call i g).data = q.data i := rfl

@[simp] theorem stage_call (q : Requests ι) (i : ι) (g : Stage) : (q.call i g).stage = g := rfl

@[simp] theorem part_call (q : Requests ι) (i : ι) (g : Stage) :
    (q.call i g).part = q.dir / q.part i := rfl

@[simp] theorem target_call (q : Requests ι) (i : ι) (g : Stage) :
    (q.call i g).target = q.dir / q.name i := rfl

/-- No two calls have the same word, and none of the names made of them has been used. -/
structure IsFresh (q : Requests ι) (cwd : Path) (fs : FileSystem) : Prop where
  isWord : ∀ i, IsWord (q.word i)
  injective : Function.Injective q.word
  unused : ∀ i place, fs.node? (place ++ [q.name i]) = none ∧ fs.node? (place ++ [q.part i]) = none
  apart : ∀ i, q.name i ∉ (q.dir.absolute cwd).parts ∧ q.part i ∉ (q.dir.absolute cwd).parts

/-- What a call at this stage leaves in the directory. -/
inductive Leaves (q : Requests ι) (i : ι) (directory : Place) : Stage → Place → Node → Prop
  | whole {t : Int} : Leaves q i directory .publish (directory ++ [q.part i])
      (.file (.bytes (q.data i)) t)
  | rest {f : Failure} {content : Content} {t : Int} :
      Leaves q i directory (.cleanUp f) (directory ++ [q.part i]) (.file content t)
  | blob {t : Int} : Leaves q i directory .stored (directory ++ [q.name i])
      (.file (.bytes (q.data i)) t)

def Touches (q : Requests ι) (i : ι) (place : Place) : Prop :=
  ∃ front, place = front ++ [q.name i] ∨ place = front ++ [q.part i]

/-- What one file operation of a call does, and the stage that comes next. -/
inductive Effect (q : Requests ι) (cwd : Path) (i : ι) (fs : FileSystem) :
    Stage → FileSystem → Stage → Prop
  | directory {fs' : FileSystem} (h : MakesDirs cwd q.dir fs (fs', none)) :
      Effect q cwd i fs .makeDirectory fs' .writePart
  | noDirectory {fs' : FileSystem} {f : Failure} (h : Grows (IsMadeFor cwd q.dir) fs fs')
      (hf : f.isSystem) : Effect q cwd i fs .makeDirectory fs' (.failed f)
  | unwritten {f : Failure} (hf : f.isSystem) : Effect q cwd i fs .writePart fs (.cleanUp f)
  | cut {directory : Place} {f : Failure} {content : Content} {t : Int}
      (h : fs.Houses cwd q.dir directory) (hfits : Fits q.dir (q.part i)) (hf : f.isSystem) :
      Effect q cwd i fs .writePart (fs.put (directory ++ [q.part i]) (.file content t)) (.cleanUp f)
  | written {directory : Place} {t : Int} (h : fs.Houses cwd q.dir directory)
      (hfits : Fits q.dir (q.part i)) : Effect q cwd i fs .writePart
        (fs.put (directory ++ [q.part i]) (.file (.bytes (q.data i)) t)) .publish
  | unpublished {f : Failure} (hf : f.isSystem) : Effect q cwd i fs .publish fs (.cleanUp f)
  | published {directory : Place} {t : Int} (h : fs.Houses cwd q.dir directory)
      (hfits : Fits q.dir (q.part i)) : Effect q cwd i fs .publish
        ((fs.erase (directory ++ [q.part i])).put (directory ++ [q.name i])
          (.file (.bytes (q.data i)) t)) .stored
  | cleaned {directory : Place} {f : Failure} (h : fs.Houses cwd q.dir directory) :
      Effect q cwd i fs (.cleanUp f) (fs.erase (directory ++ [q.part i])) (.failed f)
  | clean {directory : Place} {f f' : Failure} (h : fs.Houses cwd q.dir directory)
      (hnone : fs.node? (directory ++ [q.part i]) = none) (hf : f.isSystem → f'.isSystem) :
      Effect q cwd i fs (.cleanUp f) fs (.failed f')
  | stored : Effect q cwd i fs .stored fs .stored
  | failed {f : Failure} : Effect q cwd i fs (.failed f) fs (.failed f)

end Requests

structure Store (ι : Type) where
  files : FileSystem
  stages : ι → Stage

/-- Errors that may come from outside: the system's own, while something is made. -/
def IsAdmissible (g : Stage) (fault : Fault) : Prop :=
  fault.failure.isSystem ∧ (g = .makeDirectory ∨ g = .writePart ∨ g = .publish)

namespace Store

/-- Some call does its next file operation, at some time, and possibly disturbed. -/
inductive Moves [DecidableEq ι] (q : Requests ι) (cwd : Path) (st : Store ι) : Store ι → Prop
  | step (i : ι) (now : Int) (fault : Option Fault)
      (h : ∀ e, fault = some e → IsAdmissible (st.stages i) e) :
      Moves q cwd st
        ⟨((q.call i (st.stages i)).step cwd now st.files fault).1,
          Function.update st.stages i ((q.call i (st.stages i)).step cwd now st.files fault).2.stage⟩

def Allows (q : Requests ι) (cwd : Path) (st : Store ι) (place : Place) (e : Node) : Prop :=
  IsMadeFor cwd q.dir place e ∨ ∃ directory i, st.files.Houses cwd q.dir directory ∧
    Fits q.dir (q.part i) ∧ q.Leaves i directory (st.stages i) place e

def IsUnderWay : Stage → Prop
  | .makeDirectory | .failed _ => False
  | _ => True

structure Fares (q : Requests ι) (cwd : Path) (fs : FileSystem) (i : ι) (g : Stage) : Prop where
  houses : IsUnderWay g → ∃ directory, fs.Houses cwd q.dir directory
  whole : g = .publish → ∃ directory t, fs.Houses cwd q.dir directory ∧
    fs.node? (directory ++ [q.part i]) = some (.file (.bytes (q.data i)) t)
  blob : g = .stored → ∃ directory t, fs.Houses cwd q.dir directory ∧
    fs.node? (directory ++ [q.name i]) = some (.file (.bytes (q.data i)) t)
  isSystem : ∀ f, g = .cleanUp f ∨ g = .failed f → f.isSystem

/-- What holds at every moment, for the files at the start. -/
structure Sound (q : Requests ι) (cwd : Path) (fs₀ : FileSystem) (st : Store ι) : Prop where
  grows : Grows (Allows q cwd st) fs₀ st.files
  fares : ∀ i, Fares q cwd st.files i (st.stages i)

end Store

namespace Requests

variable {q : Requests ι} {cwd : Path} {i j : ι} {fs fs' : FileSystem} {g g' : Stage}
  {place directory : Place} {e : Node}

section Names

theorem last_eq {front front' : Place} {a b : String} (h : front ++ [a] = front' ++ [b]) : a = b :=
  List.singleton_inj.1 (List.append_inj' h rfl).2

theorem IsFresh.isPlain_name (h : q.IsFresh cwd fs) (i : ι) : IsPlain (q.name i) :=
  isPlain_nameFor (h.isWord i) (q.mime i)

theorem IsFresh.isPlain_part (h : q.IsFresh cwd fs) (i : ι) : IsPlain (q.part i) :=
  isPlain_partName (h.isWord i) (q.mime i)

theorem IsFresh.name_inj (h : q.IsFresh cwd fs) (hname : q.name i = q.name j) : i = j :=
  h.injective (nameFor_injective hname)

theorem IsFresh.part_inj (h : q.IsFresh cwd fs) (hpart : q.part i = q.part j) : i = j :=
  h.name_inj (partName_injective hpart)

theorem IsFresh.name_ne_part (h : q.IsFresh cwd fs) (i j : ι) : q.name i ≠ q.part j :=
  nameFor_ne_partName (h.isWord i) (q.mime i) (q.name j)

theorem IsFresh.unused_of_touches (h : q.IsFresh cwd fs) (hplace : q.Touches i place) :
    fs.node? place = none := by
  obtain ⟨front, rfl | rfl⟩ := hplace
  · exact (h.unused i front).1
  · exact (h.unused i front).2

theorem IsFresh.touches_unique (h : q.IsFresh cwd fs) (hi : q.Touches i place)
    (hj : q.Touches j place) : i = j := by
  obtain ⟨front, rfl | rfl⟩ := hi
  · obtain ⟨front', hj | hj⟩ := hj
    · exact h.name_inj (last_eq hj)
    · exact absurd (last_eq hj) (h.name_ne_part i j)
  · obtain ⟨front', hj | hj⟩ := hj
    · exact absurd (last_eq hj).symm (h.name_ne_part j i)
    · exact h.part_inj (last_eq hj)

theorem Leaves.touches (h : q.Leaves i directory g place e) : q.Touches i place := by
  cases h with
  | whole | rest => exact ⟨directory, .inr rfl⟩
  | blob => exact ⟨directory, .inl rfl⟩

theorem Leaves.isFileNode (h : q.Leaves i directory g place e) : isFileNode e := by
  cases h <;> rfl

theorem Leaves.dropLast (h : q.Leaves i directory g place e) : place.dropLast = directory := by
  cases h <;> exact List.dropLast_concat

end Names

end Requests

namespace Store

open Requests

variable {q : Requests ι} {cwd : Path} {i j : ι} {fs fs' fs₀ : FileSystem}
  {g g' : Stage} {st : Store ι} {place directory : Place} {e : Node}

section Left

def HasLeft (q : Requests ι) (cwd : Path) (fs : FileSystem) (i : ι) (g : Stage) : Prop :=
  ∀ place e, q.Touches i place → fs.node? place = some e →
    ∃ directory, fs.Houses cwd q.dir directory ∧ Fits q.dir (q.part i) ∧
      q.Leaves i directory g place e

theorem Sound.hasLeft (h : st.Sound q cwd fs₀) (hq : q.IsFresh cwd fs₀) (i : ι) :
    HasLeft q cwd st.files i (st.stages i) := by
  intro place e hplace he
  rcases (h.grows.introduces place e he (hq.unused_of_touches hplace)).1 with
    ⟨-, name, hmem, hlast⟩ | ⟨directory, j, hhouses, hfits, hleaves⟩
  · obtain ⟨front, rfl | rfl⟩ := hplace
    · rw [List.getLast?_concat] at hlast
      obtain rfl := Option.some.inj hlast
      exact absurd hmem (hq.apart i).1
    · rw [List.getLast?_concat] at hlast
      obtain rfl := Option.some.inj hlast
      exact absurd hmem (hq.apart i).2
  · obtain rfl := hq.touches_unique hplace hleaves.touches
    exact ⟨directory, hhouses, hfits, hleaves⟩

theorem HasLeft.node?_eq_none (h : HasLeft q cwd fs i g) (hplace : q.Touches i place)
    (hg : ∀ directory e, ¬ q.Leaves i directory g place e) : fs.node? place = none := by
  cases he : fs.node? place with
  | none => rfl
  | some e =>
      obtain ⟨directory, -, -, hleaves⟩ := h place e hplace he
      exact absurd hleaves (hg directory e)

end Left

section Effect

variable (hleft : HasLeft q cwd fs i g) (heffect : q.Effect cwd i fs g fs' g')
  (hg : g ≠ .makeDirectory)
include hleft heffect hg

theorem alters_of_effect : Alters (q.Touches i) fs fs' where
  same place hplace := by
    have hpart (directory : Place) : place ≠ directory ++ [q.part i] := fun h =>
      hplace ⟨directory, .inr h⟩
    have hname (directory : Place) : place ≠ directory ++ [q.name i] := fun h =>
      hplace ⟨directory, .inl h⟩
    cases heffect with
    | directory | noDirectory => exact absurd rfl hg
    | unwritten | unpublished | clean | stored | failed => rfl
    | cut => exact node?_put_of_ne (hpart _) _
    | written => exact node?_put_of_ne (hpart _) _
    | published =>
        rw [node?_put_of_ne (hname _)]
        exact node?_erase_of_ne (hpart _)
    | cleaned => exact node?_erase_of_ne (hpart _)
  files place e hplace he := by
    obtain ⟨directory, -, -, hleaves⟩ := hleft place e hplace he
    exact hleaves.isFileNode

omit hleft in
theorem linkCount_of_effect : fs'.linkCount ≤ fs.linkCount := by
  cases heffect with
  | directory | noDirectory => exact absurd rfl hg
  | unwritten | unpublished | clean | stored | failed => exact Nat.le_refl _
  | cut => exact linkCount_put_le (by simp [isLink]) _
  | written => exact linkCount_put_le (by simp [isLink]) _
  | published =>
      exact Nat.le_trans (linkCount_put_le (by simp [isLink]) _) (linkCount_erase_le _)
  | cleaned => exact linkCount_erase_le _

theorem hasLeft_of_effect : HasLeft q cwd fs' i g' := by
  have hways := (alters_of_effect hleft heffect hg).keepsWays
  -- The operation keeps the ways to the directory, so it may be named as it was found before.
  suffices h : ∀ place e, q.Touches i place → fs'.node? place = some e →
      ∃ directory, fs.Houses cwd q.dir directory ∧ Fits q.dir (q.part i) ∧
        q.Leaves i directory g' place e by
    intro place e hplace he
    obtain ⟨directory, hhouses, hleaves⟩ := h place e hplace he
    exact ⟨directory, hhouses.keep hways, hleaves⟩
  intro place e hplace he
  cases heffect with
  | directory | noDirectory => exact absurd rfl hg
  | unwritten =>
      obtain ⟨_, -, -, hleaves⟩ := hleft place e hplace he
      cases hleaves
  | @cut directory f content t h hfits =>
      by_cases hpart : place = directory ++ [q.part i]
      · subst hpart
        rw [node?_put_self (by simp)] at he
        cases he
        exact ⟨directory, h, hfits, .rest⟩
      · rw [node?_put_of_ne hpart] at he
        obtain ⟨_, -, -, hleaves⟩ := hleft place e hplace he
        cases hleaves
  | @written directory t h hfits =>
      by_cases hpart : place = directory ++ [q.part i]
      · subst hpart
        rw [node?_put_self (by simp)] at he
        cases he
        exact ⟨directory, h, hfits, .whole⟩
      · rw [node?_put_of_ne hpart] at he
        obtain ⟨_, -, -, hleaves⟩ := hleft place e hplace he
        cases hleaves
  | unpublished =>
      obtain ⟨directory, h, hfits, hleaves⟩ := hleft place e hplace he
      cases hleaves with
      | whole => exact ⟨directory, h, hfits, .rest⟩
  | @published directory t h hfits =>
      by_cases hname : place = directory ++ [q.name i]
      · subst hname
        rw [node?_put_self (by simp)] at he
        cases he
        exact ⟨directory, h, hfits, .blob⟩
      · rw [node?_put_of_ne hname] at he
        by_cases hpart : place = directory ++ [q.part i]
        · subst hpart
          rw [node?_erase_self (by simp)] at he
          cases he
        · rw [node?_erase_of_ne hpart] at he
          obtain ⟨directory', h', -, hleaves⟩ := hleft place e hplace he
          obtain rfl := h.unique h'
          cases hleaves
          exact absurd rfl hpart
  | @cleaned directory f h =>
      by_cases hpart : place = directory ++ [q.part i]
      · subst hpart
        rw [node?_erase_self (by simp)] at he
        cases he
      · rw [node?_erase_of_ne hpart] at he
        obtain ⟨directory', h', -, hleaves⟩ := hleft place e hplace he
        obtain rfl := h.unique h'
        cases hleaves
        exact absurd rfl hpart
  | clean h hnone =>
      obtain ⟨directory', h', -, hleaves⟩ := hleft place e hplace he
      obtain rfl := h.unique h'
      cases hleaves
      rw [hnone] at he
      cases he
  | stored => exact hleft place e hplace he
  | failed =>
      obtain ⟨_, -, -, hleaves⟩ := hleft place e hplace he
      cases hleaves

end Effect

section Fares

theorem Fares.keep (h : Fares q cwd fs i g) (hways : fs.KeepsWays fs')
    (hkept : ∀ place e, q.Touches i place → fs.node? place = some e → fs'.node? place = some e) :
    Fares q cwd fs' i g where
  houses hg := by
    obtain ⟨directory, hhouses⟩ := h.houses hg
    exact ⟨directory, hhouses.keep hways⟩
  whole hg := by
    obtain ⟨directory, t, hhouses, he⟩ := h.whole hg
    exact ⟨directory, t, hhouses.keep hways, hkept _ _ ⟨directory, .inr rfl⟩ he⟩
  blob hg := by
    obtain ⟨directory, t, hhouses, he⟩ := h.blob hg
    exact ⟨directory, t, hhouses.keep hways, hkept _ _ ⟨directory, .inl rfl⟩ he⟩
  isSystem := h.isSystem

theorem fares_cleanUp {f : Failure} (h : ∃ directory, fs.Houses cwd q.dir directory)
    (hf : f.isSystem) : Fares q cwd fs i (.cleanUp f) where
  houses _ := h
  whole hg := by cases hg
  blob hg := by cases hg
  isSystem f' hg := by
    rcases hg with hg | hg <;> cases hg
    exact hf

theorem fares_failed {f : Failure} (hf : f.isSystem) : Fares q cwd fs i (.failed f) where
  houses hg := hg.elim
  whole hg := by cases hg
  blob hg := by cases hg
  isSystem f' hg := by
    rcases hg with hg | hg <;> cases hg
    exact hf

theorem Fares.next (h : Fares q cwd fs i g) (heffect : q.Effect cwd i fs g fs' g')
    (hways : fs.KeepsWays fs') : Fares q cwd fs' i g' := by
  cases heffect with
  | directory hmade =>
      obtain ⟨directory, hfind, hdir⟩ := hmade.finds rfl
      refine ⟨fun _ => ⟨directory, hfind, hdir⟩, fun hg => ?_, fun hg => ?_, fun f hg => ?_⟩
      · cases hg
      · cases hg
      · rcases hg with hg | hg <;> cases hg
  | noDirectory _ hf => exact fares_failed hf
  | unwritten hf => exact fares_cleanUp (h.houses trivial) hf
  | unpublished hf => exact fares_cleanUp (h.houses trivial) hf
  | cut hhouses _ hf => exact fares_cleanUp ⟨_, hhouses.keep hways⟩ hf
  | @written directory t hhouses =>
      refine ⟨fun _ => ⟨directory, hhouses.keep hways⟩, fun _ => ?_, fun hg => ?_, fun f hg => ?_⟩
      · exact ⟨directory, t, hhouses.keep hways, node?_put_self (by simp) _⟩
      · cases hg
      · rcases hg with hg | hg <;> cases hg
  | @published directory t hhouses =>
      refine ⟨fun _ => ⟨directory, hhouses.keep hways⟩, fun hg => ?_, fun _ => ?_, fun f hg => ?_⟩
      · cases hg
      · exact ⟨directory, t, hhouses.keep hways, node?_put_self (by simp) _⟩
      · rcases hg with hg | hg <;> cases hg
  | cleaned => exact fares_failed (h.isSystem _ (.inl rfl))
  | clean _ _ hf => exact fares_failed (hf (h.isSystem _ (.inl rfl)))
  | stored => exact h
  | failed => exact h

end Fares

section Sound

variable [DecidableEq ι]

def after (st : Store ι) (i : ι) (fs' : FileSystem) (g' : Stage) : Store ι :=
  ⟨fs', Function.update st.stages i g'⟩

theorem stages_after_self (st : Store ι) (i : ι) (fs' : FileSystem) (g' : Stage) :
    (st.after i fs' g').stages i = g' := by
  rw [after]
  exact Function.update_self (β := fun _ => Stage) i g' st.stages

theorem stages_after_of_ne (st : Store ι) (fs' : FileSystem) (g' : Stage) (h : j ≠ i) :
    (st.after i fs' g').stages j = st.stages j := by
  rw [after]
  exact Function.update_of_ne (β := fun _ => Stage) h g' st.stages

theorem allows_after (hways : st.files.KeepsWays fs')
    (hother : ∀ directory, ¬ q.Leaves i directory (st.stages i) place e)
    (hallows : st.Allows q cwd place e) : (st.after i fs' g').Allows q cwd place e := by
  rcases hallows with hmade | ⟨directory, j, hhouses, hfits, hleaves⟩
  · exact .inl hmade
  · have hne : j ≠ i := by
      rintro rfl
      exact hother directory hleaves
    refine .inr ⟨directory, j, hhouses.keep hways, hfits, ?_⟩
    rw [stages_after_of_ne st fs' g' hne]
    exact hleaves

theorem Sound.fares_after (h : st.Sound q cwd fs₀)
    (heffect : q.Effect cwd i st.files (st.stages i) fs' g') (hways : st.files.KeepsWays fs')
    (hkept : ∀ j, j ≠ i → ∀ place e, q.Touches j place → st.files.node? place = some e →
      fs'.node? place = some e) (j : ι) : Fares q cwd fs' j ((st.after i fs' g').stages j) := by
  by_cases hj : j = i
  · subst hj
    rw [stages_after_self]
    exact (h.fares j).next heffect hways
  · rw [stages_after_of_ne st fs' g' hj]
    exact (h.fares j).keep hways (hkept j hj)

variable (h : st.Sound q cwd fs₀) (hq : q.IsFresh cwd fs₀)
  (heffect : q.Effect cwd i st.files (st.stages i) fs' g')
include h heffect

theorem Sound.grow (hgrows : Grows (IsMadeFor cwd q.dir) st.files fs')
    (hg : st.stages i = .makeDirectory) : (st.after i fs' g').Sound q cwd fs₀ where
  grows := by
    have hold : Grows ((st.after i fs' g').Allows q cwd) fs₀ st.files :=
      h.grows.weaken fun place e _ => allows_after hgrows.keepsWays (by rw [hg]; nofun)
    exact hold.trans (hgrows.weaken fun _ _ _ hmade => .inl hmade)
  fares := h.fares_after heffect hgrows.keepsWays fun j _ place e _ he => hgrows.retains place e he

include hq

theorem Sound.alter (hg : st.stages i ≠ .makeDirectory) :
    (st.after i fs' g').Sound q cwd fs₀ := by
  have hleft := h.hasLeft hq i
  have halters := alters_of_effect hleft heffect hg
  have hleft' := hasLeft_of_effect hleft heffect hg
  refine ⟨?_, h.fares_after heffect halters.keepsWays fun j hj place e hplace he => ?_⟩
  · -- What the call touches is what it leaves now. All else is allowed as it was before.
    refine h.grows.alters halters (linkCount_of_effect heffect hg)
      (fun place => hq.unused_of_touches) (fun place e hplace he => ?_) fun place e hplace => ?_
    · obtain ⟨directory, hhouses, hfits, hleaves⟩ := hleft' place e hplace he
      refine ⟨.inr ⟨directory, i, hhouses, hfits, ?_⟩, ?_, ?_⟩
      · rw [stages_after_self]
        exact hleaves
      · cases hleaves <;> exact Bool.false_ne_true
      · rw [hleaves.dropLast]
        exact hhouses.node
    · exact allows_after halters.keepsWays fun directory hleaves => hplace hleaves.touches
  · exact (halters.same place fun hi => hj (hq.touches_unique hplace hi)).trans he

theorem Sound.after : (st.after i fs' g').Sound q cwd fs₀ := by
  by_cases hg : st.stages i = .makeDirectory
  · refine h.grow heffect ?_ hg
    rw [hg] at heffect
    cases heffect with
    | directory hmade => exact hmade.grows
    | noDirectory hgrows => exact hgrows
  · exact h.alter hq heffect hg

end Sound

section Step

variable (hleft : HasLeft q cwd fs i g) (hfares : Fares q cwd fs i g) (hq : q.IsFresh cwd fs₀)
  (hclean : IsClean cwd q.dir) {now : Int}

include hclean in
theorem effect_makeDirectory :
    q.Effect cwd i fs .makeDirectory ((q.call i .makeDirectory).step cwd now fs none).1
      ((q.call i .makeDirectory).step cwd now fs none).2.stage := by
  have hmakes := makesDirs_ensureDir fs cwd q.dir
  rcases hdir : fs.ensureDir cwd q.dir with ⟨fs', f | f⟩
  · rw [hdir] at hmakes
    simp only [Storing.step, Storing.operate, stage_call, dir_call, hdir]
    exact .directory hmakes
  · rw [hdir] at hmakes
    simp only [Storing.step, Storing.operate, stage_call, dir_call, hdir]
    exact .noDirectory hmakes.grows (hmakes.fails hclean f rfl)

include hleft hfares hq hclean in
theorem store_part (now : Int) (hg : g = .writePart) (content : Content) :
    ∃ directory, fs.Houses cwd q.dir directory ∧
      (Fits q.dir (q.part i) ∧ fs.store cwd (q.dir / q.part i) content now =
          .ok (fs.put (directory ++ [q.part i]) (.file content now)) ∨
        ∃ f, f.isSystem ∧ fs.store cwd (q.dir / q.part i) content now = .error f) := by
  subst hg
  obtain ⟨directory, hhouses⟩ := hfares.houses trivial
  have hplain := hq.isPlain_part i
  have hnone : fs.node? (directory ++ [q.part i]) = none :=
    hleft.node?_eq_none ⟨directory, .inr rfl⟩ (by nofun)
  refine ⟨directory, hhouses, ?_⟩
  by_cases hfits : Fits q.dir (q.part i)
  · exact .inl ⟨hfits, hhouses.store_absent hclean hplain hfits hnone⟩
  · exact .inr ⟨_, isSystem_failure _ _, hhouses.store_unfit hclean hplain hfits⟩

include hleft hfares hq hclean

theorem effect_writePart (hg : g = .writePart) :
    q.Effect cwd i fs g ((q.call i g).step cwd now fs none).1
      ((q.call i g).step cwd now fs none).2.stage := by
  obtain ⟨directory, hhouses, hstore⟩ :=
    store_part hleft hfares hq hclean now hg (.bytes (q.data i))
  subst hg
  rcases hstore with ⟨hfits, hstore⟩ | ⟨f, hf, hstore⟩
  · simp only [Storing.step, Storing.operate, stage_call, part_call, data_call, hstore]
    exact .written hhouses hfits
  · simp only [Storing.step, Storing.operate, stage_call, part_call, data_call, hstore,
      Storing.afterError, if_pos hf]
    exact .unwritten hf

theorem rename_part (hg : g = .publish) : ∃ directory t, fs.Houses cwd q.dir directory ∧
    Fits q.dir (q.part i) ∧ fs.rename cwd (q.dir / q.part i) (q.dir / q.name i) =
      .ok ((fs.erase (directory ++ [q.part i])).put (directory ++ [q.name i])
        (.file (.bytes (q.data i)) t)) := by
  subst hg
  obtain ⟨directory, t, hhouses, he⟩ := hfares.whole rfl
  obtain ⟨directory', hhouses', hfits, -⟩ := hleft _ _ ⟨directory, .inr rfl⟩ he
  have hnone : fs.node? (directory ++ [q.name i]) = none := by
    refine hleft.node?_eq_none ⟨directory, .inl rfl⟩ fun directory' e hleaves => ?_
    generalize hplace : directory ++ [q.name i] = place at hleaves
    cases hleaves
    exact hq.name_ne_part i i (last_eq hplace)
  exact ⟨directory, t, hhouses, hfits, hhouses.rename_file hclean (hq.isPlain_part i) hfits he
    (hq.isPlain_name i) (fits_of_partName (hq.isWord i) hfits) hnone⟩

theorem effect_publish (hg : g = .publish) :
    q.Effect cwd i fs g ((q.call i g).step cwd now fs none).1
      ((q.call i g).step cwd now fs none).2.stage := by
  obtain ⟨directory, t, hhouses, hfits, hrename⟩ := rename_part hleft hfares hq hclean hg
  subst hg
  simp only [Storing.step, Storing.operate, stage_call, part_call, target_call, hrename]
  exact .published hhouses hfits

theorem effect_cleanUp {f : Failure} (hg : g = .cleanUp f) :
    q.Effect cwd i fs g ((q.call i g).step cwd now fs none).1
      ((q.call i g).step cwd now fs none).2.stage := by
  subst hg
  obtain ⟨directory, hhouses⟩ := hfares.houses trivial
  have hplain := hq.isPlain_part i
  cases he : fs.node? (directory ++ [q.part i]) with
  | none =>
      obtain ⟨errno, hunlink⟩ := hhouses.unlink_absent hclean hplain he
      simp only [Storing.step, Storing.operate, stage_call, part_call, hunlink]
      refine .clean hhouses he fun hf => ?_
      split
      · exact hf
      · exact isSystem_failure _ _
  | some e =>
      obtain ⟨directory', hhouses', hfits, hleaves⟩ := hleft _ _ ⟨directory, .inr rfl⟩ he
      have hfile := hleaves.isFileNode
      cases e with
      | directory | link => cases hfile
      | file content t =>
          have hunlink := hhouses.unlink_file hclean hplain hfits he
          simp only [Storing.step, Storing.operate, stage_call, part_call, hunlink]
          exact .cleaned hhouses

theorem effect_disturbed {fault : Fault} (hfault : IsAdmissible g fault) :
    q.Effect cwd i fs g ((q.call i g).step cwd now fs (some fault)).1
      ((q.call i g).step cwd now fs (some fault)).2.stage := by
  obtain ⟨hf, rfl | rfl | rfl⟩ := hfault
  · exact .noDirectory (.refl _ fs) hf
  · simp only [Storing.step, Storing.disturb, stage_call, Storing.afterError, if_pos hf]
    cases fault.written with
    | none => exact .unwritten hf
    | some n =>
        obtain ⟨directory, hhouses, hstore⟩ :=
          store_part hleft hfares hq hclean now rfl (.bytes ((q.data i).take n))
        rcases hstore with ⟨hfits, hstore⟩ | ⟨f, -, hstore⟩
        · simp only [part_call, data_call, hstore]
          exact .cut hhouses hfits hf
        · simp only [part_call, data_call, hstore]
          exact .unwritten hf
  · simp only [Storing.step, Storing.disturb, stage_call, Storing.afterError, if_pos hf]
    exact .unpublished hf

theorem effect_step (now : Int) {fault : Option Fault} (hfault : ∀ e, fault = some e → IsAdmissible g e) :
    q.Effect cwd i fs g ((q.call i g).step cwd now fs fault).1
      ((q.call i g).step cwd now fs fault).2.stage := by
  cases fault with
  | some fault => exact effect_disturbed hleft hfares hq hclean (hfault fault rfl)
  | none =>
      cases g with
      | makeDirectory => exact effect_makeDirectory hclean
      | writePart => exact effect_writePart hleft hfares hq hclean rfl
      | publish => exact effect_publish hleft hfares hq hclean rfl
      | cleanUp f => exact effect_cleanUp hleft hfares hq hclean rfl
      | stored => exact .stored
      | failed f => exact .failed

end Step

end Store

end MediaCatalog.Blob
