import Mathlib.Data.List.Induction
import Mathlib.Data.List.Nodup
import MediaCatalog.Proofs.Record

namespace MediaCatalog.Raster

inductive Event where
  | asked
  | handed (n : Nat)
  | closed (n : Nat)
  deriving DecidableEq, Repr

variable {limit : Nat} {es front back : List Event} {rasters : List Nat} {e : Event}

def IsOpen (es : List Event) (n : Nat) : Prop := .handed n ∈ es ∧ .closed n ∉ es

/-- Every raster is handed out once and closed at most once, when it is open. At any time few are
open, and none when an edit is asked for the next one. -/
structure Orderly (limit : Nat) (es : List Event) : Prop where
  once : ∀ n, es.count (.handed n) ≤ 1 ∧ es.count (.closed n) ≤ 1
  closed : ∀ front n back, es = front ++ .closed n :: back → IsOpen front n
  few : ∀ front back, es = front ++ back →
    ∃ rasters : List Nat, rasters.length ≤ limit ∧ ∀ n, IsOpen front n → n ∈ rasters
  asked : ∀ front back, es = front ++ .asked :: back → ∀ n, ¬ IsOpen front n

/-- What an event changes in the list of open rasters, after as many events as counted. -/
inductive Change (limit count : Nat) : List Nat → Event → List Nat → Prop
  | asked : Change limit count [] .asked []
  | handed {rasters : List Nat} (h : rasters.length < limit) :
      Change limit count rasters (.handed count) (count :: rasters)
  | closed (before : List Nat) (n : Nat) (behind : List Nat) :
      Change limit count (before ++ n :: behind) (.closed n) (before ++ behind)

/-- The rasters that the events leave open. -/
inductive Ledger (limit : Nat) : List Event → List Nat → Prop
  | nil : Ledger limit [] []
  | snoc {es : List Event} {rasters rasters' : List Nat} {e : Event} (h : Ledger limit es rasters)
      (hchange : Change limit es.length rasters e rasters') : Ledger limit (es ++ [e]) rasters'

namespace Ledger

theorem of_concat (h : Ledger limit (es ++ [e]) rasters) :
    ∃ before, Ledger limit es before ∧ Change limit es.length before e rasters := by
  generalize hes : es ++ [e] = all at h
  cases h with
  | nil => simp at hes
  | snoc h hchange =>
      obtain ⟨rfl, hlast⟩ := List.append_inj' hes rfl
      obtain rfl := List.singleton_inj.1 hlast
      exact ⟨_, h, hchange⟩

theorem of_append (h : Ledger limit (front ++ back) rasters) :
    ∃ before, Ledger limit front before := by
  induction back using List.reverseRecOn generalizing rasters with
  | nil => exact ⟨rasters, by simpa using h⟩
  | append_singleton back e ih =>
      rw [← List.append_assoc] at h
      obtain ⟨before, hbefore, -⟩ := h.of_concat
      exact ih hbefore

theorem of_append_cons (h : Ledger limit (front ++ e :: back) rasters) :
    ∃ before after, Ledger limit front before ∧ Change limit front.length before e after := by
  rw [List.append_cons] at h
  obtain ⟨after, hafter⟩ := h.of_append
  obtain ⟨before, hbefore, hchange⟩ := hafter.of_concat
  exact ⟨before, after, hbefore, hchange⟩

theorem length_le (h : Ledger limit es rasters) : rasters.length ≤ limit := by
  induction h with
  | nil => exact Nat.zero_le limit
  | snoc h hchange ih =>
      cases hchange with
      | asked => exact ih
      | handed hlt => exact hlt
      | closed before n behind => simp at ih ⊢; omega

end Ledger

/-- The list is that of the open rasters, and numbers are not given out ahead of time. -/
structure Tells (es : List Event) (rasters : List Nat) : Prop where
  isOpen_iff : ∀ n, IsOpen es n ↔ n ∈ rasters
  handed_lt : ∀ n, .handed n ∈ es → n < es.length
  handed_of_closed : ∀ n, .closed n ∈ es → .handed n ∈ es
  nodup : rasters.Nodup

theorem tells_nil : Tells [] [] where
  isOpen_iff n := by simp [IsOpen]
  handed_lt n hn := by simp at hn
  handed_of_closed n hn := by simp at hn
  nodup := List.nodup_nil

theorem Tells.change (h : Tells es rasters) {rasters' : List Nat}
    (hchange : Change limit es.length rasters e rasters') : Tells (es ++ [e]) rasters' := by
  obtain ⟨hopen, hlt, hclosed, hnodup⟩ := h
  cases hchange with
  | asked =>
      refine ⟨fun n => ?_, fun n hn => ?_, fun n hn => ?_, hnodup⟩
      · simpa [IsOpen] using hopen n
      · simpa using Nat.lt_succ_of_lt (hlt n (by simpa using hn))
      · simpa using hclosed n (by simpa using hn)
  | handed =>
      have hfresh (n : Nat) (hn : .handed n ∈ es) : n ≠ es.length := Nat.ne_of_lt (hlt n hn)
      refine ⟨fun n => ?_, fun n hn => ?_, fun n hn => ?_, ?_⟩
      · have hn := hopen n
        by_cases hlast : n = es.length
        · have hnot : .closed n ∉ es := fun h => hfresh n (hclosed n h) hlast
          simp [IsOpen, ← hlast, hnot]
        · simpa [IsOpen, hlast] using hn
      · rcases List.mem_append.1 hn with hn | hn
        · simpa using Nat.lt_succ_of_lt (hlt n hn)
        · obtain rfl : n = es.length := by simpa using hn
          simp
      · exact List.mem_append_left _ (hclosed n (by simpa using hn))
      · exact List.nodup_cons.2 ⟨fun hn => hfresh _ ((hopen _).2 hn).1 rfl, hnodup⟩
  | closed before m behind =>
      have hmiddle := List.nodup_middle.1 hnodup
      refine ⟨fun n => ?_, fun n hn => ?_, fun n hn => ?_, (List.nodup_cons.1 hmiddle).2⟩
      · have hn := hopen n
        by_cases hm : n = m
        · subst hm
          simpa [IsOpen] using (List.nodup_cons.1 hmiddle).1
        · simpa [IsOpen, hm] using hn
      · simpa using Nat.lt_succ_of_lt (hlt n (by simpa using hn))
      · refine List.mem_append_left _ ?_
        rcases List.mem_append.1 hn with hn | hn
        · exact hclosed n hn
        · obtain rfl : n = m := by simpa using hn
          exact ((hopen n).2 (by simp)).1

theorem Ledger.tells (h : Ledger limit es rasters) : Tells es rasters := by
  induction h with
  | nil => exact tells_nil
  | snoc _ hchange ih => exact ih.change hchange

theorem Ledger.not_mem (h : Ledger limit es rasters) {rasters' : List Nat}
    (hchange : Change limit es.length rasters e rasters') (he : e ≠ .asked) : e ∉ es := by
  cases hchange with
  | asked => contradiction
  | handed => exact fun hn => Nat.lt_irrefl _ (h.tells.handed_lt _ hn)
  | closed before n behind => exact ((h.tells.isOpen_iff n).2 (by simp)).2

theorem Ledger.count_le (h : Ledger limit es rasters) (he : e ≠ .asked) : es.count e ≤ 1 := by
  induction h with
  | nil => simp
  | snoc h hchange ih =>
      rw [List.count_append, List.count_singleton]
      split
      · rename_i hlast
        have hnone := List.count_eq_zero.2 (h.not_mem (beq_iff_eq.1 hlast ▸ hchange) he)
        omega
      · exact ih

theorem Ledger.orderly (h : Ledger limit es rasters) : Orderly limit es where
  once n := ⟨h.count_le nofun, h.count_le nofun⟩
  closed front n back hes := by
    subst hes
    obtain ⟨before, after, hbefore, hchange⟩ := h.of_append_cons
    cases hchange
    exact (hbefore.tells.isOpen_iff n).2 (by simp)
  few front back hes := by
    subst hes
    obtain ⟨before, hbefore⟩ := h.of_append
    exact ⟨before, hbefore.length_le, fun n => (hbefore.tells.isOpen_iff n).1⟩
  asked front back hes n := by
    subst hes
    obtain ⟨before, after, hbefore, hchange⟩ := h.of_append_cons
    cases hchange
    simp [hbefore.tells.isOpen_iff]

/-- These rasters are open, and all others that were handed out have been closed exactly once. -/
structure Leaves (es : List Event) (rasters : List Nat) : Prop where
  isOpen_iff : ∀ n, IsOpen es n ↔ n ∈ rasters
  closed : ∀ n, .handed n ∈ es → n ∉ rasters → es.count (.closed n) = 1

theorem Ledger.leaves (h : Ledger limit es rasters) : Leaves es rasters where
  isOpen_iff := h.tells.isOpen_iff
  closed n hn hleft := by
    have hclosed : .closed n ∈ es := by
      by_contra hopen
      exact hleft ((h.tells.isOpen_iff n).1 ⟨hn, hopen⟩)
    have hcount := List.count_pos_iff.2 hclosed
    have honce := h.count_le (e := .closed n) nofun
    omega

end MediaCatalog.Raster
