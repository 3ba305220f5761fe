import Mathlib.Data.List.Perm.Subperm
import MediaCatalog.Proofs.FileSystem.Reach

namespace MediaCatalog

namespace Path

structure IsCanonical (p : Path) : Prop where
  isAbsolute : p.isAbsolute
  isOrdinary : ∀ c ∈ p.parts, FileSystem.IsOrdinary c

theorem IsCanonical.parent {p : Path} (h : p.IsCanonical) : p.parent.IsCanonical :=
  ⟨h.isAbsolute, fun c hc => h.isOrdinary c (List.dropLast_subset _ hc)⟩

theorem below?_eq_some {p q r : List String} : below? p q = some r ↔ q = p ++ r := by
  induction p generalizing q with
  | nil => exact Option.some_inj
  | cons a p ih =>
      cases q with
      | nil => simp [below?]
      | cons b q =>
          by_cases hab : a = b
          · simp [below?, hab, ih]
          · have hba : b ≠ a := Ne.symm hab
            simp [below?, hab, hba]

/-- A path is a directory or lies below it, name by name. -/
def IsInside (p base : Path) : Prop := p.root = base.root ∧ base.parts <+: p.parts

theorem relativeTo?_isSome {p base : Path} : (p.relativeTo? base).isSome ↔ p.IsInside base := by
  rw [relativeTo?]
  split
  · rename_i hroot
    rw [Option.isSome_map, Option.isSome_iff_exists]
    constructor
    · rintro ⟨r, hr⟩
      exact ⟨hroot, r, (below?_eq_some.1 hr).symm⟩
    · rintro ⟨-, r, hr⟩
      exact ⟨r, below?_eq_some.2 hr.symm⟩
  · rename_i hroot
    exact ⟨fun h => absurd h Bool.false_ne_true, fun h => absurd h.1 hroot⟩

/-- One component more; those before it are in reverse. -/
def collapseStep (isAbsolute : Bool) (acc : List String) (c : String) : List String :=
  if c = ".." then
    match acc with
    | [] => if isAbsolute then [] else [c]
    | d :: rest => if d = ".." then c :: acc else rest
  else c :: acc

theorem collapse_eq (p : Path) :
    p.collapse = ⟨p.root, (p.parts.foldl (collapseStep p.isAbsolute) []).reverse⟩ := rfl

theorem foldl_collapseStep {ps : List String} (h : ∀ c ∈ ps, FileSystem.IsOrdinary c)
    (isAbsolute : Bool) (acc : List String) :
    ps.foldl (collapseStep isAbsolute) acc = ps.reverse ++ acc := by
  induction ps generalizing acc with
  | nil => rfl
  | cons c ps ih =>
      have hdots := (h c List.mem_cons_self).ne_dots
      rw [List.foldl_cons, collapseStep.eq_def, if_neg hdots,
        ih fun d hd => h d (List.mem_cons_of_mem c hd), List.reverse_cons, List.append_assoc]
      rfl

theorem collapse_of_isOrdinary {r : Root} {ps : List String}
    (h : ∀ c ∈ ps, FileSystem.IsOrdinary c) : (Path.mk r ps).collapse = ⟨r, ps⟩ := by
  rw [collapse_eq, foldl_collapseStep h, List.append_nil, List.reverse_reverse]

theorem isOrdinary_collapseStep {acc : List String} {c : String}
    (hacc : ∀ d ∈ acc, FileSystem.IsOrdinary d) (hc : c ≠ "" ∧ c ≠ ".") :
    ∀ d ∈ collapseStep true acc c, FileSystem.IsOrdinary d := by
  intro d hd
  rw [collapseStep.eq_def] at hd
  split at hd
  · cases acc with
    | nil => exact absurd hd List.not_mem_nil
    | cons a acc =>
        have ha : a ≠ ".." := (hacc a List.mem_cons_self).ne_dots
        simp only [if_neg ha] at hd
        exact hacc d (List.mem_cons_of_mem a hd)
  · rename_i hdots
    rcases List.mem_cons.1 hd with rfl | hd
    · exact ⟨hc.1, hc.2, hdots⟩
    · exact hacc d hd

theorem isOrdinary_foldl_collapseStep {ps acc : List String} (h : ∀ c ∈ ps, c ≠ "" ∧ c ≠ ".")
    (hacc : ∀ d ∈ acc, FileSystem.IsOrdinary d) :
    ∀ d ∈ ps.foldl (collapseStep true) acc, FileSystem.IsOrdinary d := by
  induction ps generalizing acc with
  | nil => exact hacc
  | cons a ps ih =>
      exact ih (fun d hd => h d (List.mem_cons_of_mem a hd))
        (isOrdinary_collapseStep hacc (h a List.mem_cons_self))

theorem isCanonical_collapse {p : Path} (habs : p.isAbsolute)
    (hparts : ∀ c ∈ p.parts, c ≠ "" ∧ c ≠ ".") : p.collapse.IsCanonical := by
  refine ⟨habs, fun c hc => ?_⟩
  rw [collapse_eq, habs, List.mem_reverse] at hc
  exact isOrdinary_foldl_collapseStep hparts (fun _ h => absurd h List.not_mem_nil) c hc

end Path

namespace FileSystem

variable {fs : FileSystem} {k n : Nat} {cwd p : Path} {here place link : Place}
  {open_ : List Place} {name text : String} {names rest : List String}

section Following

/-- Links that are being followed while `k` more are to come: the text of each of them takes at
least as many. -/
structure Following (fs : FileSystem) (k : Nat) (open_ : List Place) : Prop where
  nodup : open_.Nodup
  isLink : ∀ link ∈ open_, ∃ text, fs.node? link = some (.link text)
  le : ∀ link ∈ open_, ∀ text l target, fs.node? link = some (.link text) →
    Leads fs l (linkStart link.dropLast text) (components text) target → k ≤ l

theorem Following.mono {l : Nat} (h : Following fs k open_) (hl : l ≤ k) : Following fs l open_ :=
  ⟨h.nodup, h.isLink, fun link hlink text j target he htarget =>
    Nat.le_trans hl (h.le link hlink text j target he htarget)⟩

theorem mem_of_node? {e : Node} (hplace : place ≠ []) (h : fs.node? place = some e) :
    (place, e) ∈ fs.entries := by
  rw [node?.eq_2 fs place hplace] at h
  obtain ⟨x, hx, rfl⟩ := Option.map_eq_some_iff.1 h
  have hkey : x.1 = place := by simpa using List.find?_some hx
  rw [← hkey]
  exact List.mem_of_find?_eq_some hx

theorem ne_root_of_link (h : fs.node? place = some (.link text)) : place ≠ [] := by
  rintro rfl
  cases h

theorem Following.length_le (h : Following fs k open_) : open_.length ≤ fs.linkCount := by
  have hsub : open_ ⊆ (fs.entries.filter fun e => FileSystem.isLink e.2).map Prod.fst := by
    intro link hlink
    obtain ⟨text, he⟩ := h.isLink link hlink
    exact List.mem_map.2
      ⟨_, List.mem_filter.2 ⟨mem_of_node? (ne_root_of_link he) he, rfl⟩, rfl⟩
  calc open_.length
      ≤ ((fs.entries.filter fun e => FileSystem.isLink e.2).map Prod.fst).length :=
        (h.nodup.subperm hsub).length_le
    _ = fs.linkCount := List.length_map _

theorem Following.exists_succ (h : Following fs k open_)
    (hfuel : fs.linkCount + 2 ≤ n + open_.length) : ∃ m, n = m + 1 := by
  have := h.length_le
  exact ⟨n - 1, by omega⟩

section

variable {middle : Place} (he : fs.node? (here ++ [name]) = some (.link text))
  (htext : Leads fs k (linkStart here text) (components text) middle)

include he htext

theorem Following.not_mem {l : Nat} (h : Following fs l open_) (hk : k < l) :
    here ++ [name] ∉ open_ := by
  intro hmem
  have hle := h.le _ hmem text k middle he
  rw [List.dropLast_concat] at hle
  exact absurd (hle htext) (Nat.not_le_of_lt hk)

theorem Following.cons {l : Nat} (h : Following fs l open_) (hk : k < l) :
    Following fs k ((here ++ [name]) :: open_) where
  nodup := List.nodup_cons.2 ⟨h.not_mem he htext hk, h.nodup⟩
  isLink := by
    rintro link (_ | ⟨_, hlink⟩)
    · exact ⟨text, he⟩
    · exact h.isLink link hlink
  le := by
    rintro link (_ | ⟨_, hlink⟩) text' j target he' htarget
    · cases Option.some.inj (he.symm.trans he')
      rw [List.dropLast_concat] at htarget
      exact Nat.le_of_eq (htext.unique htarget).1
    · exact (h.mono (Nat.le_of_lt hk)).le link hlink text' j target he' htarget

end

end Following

section Trace

theorem trace_stay (h : IsIdle name) :
    fs.trace (n + 1) open_ here (name :: rest) = fs.trace (n + 1) open_ here rest := by
  have hidle : (name = "" || name = ".") = true := by simpa [IsIdle] using h
  rw [trace, traceAlong, if_pos hidle]
  rfl

theorem trace_up :
    fs.trace (n + 1) open_ here (".." :: rest) = fs.trace (n + 1) open_ here.dropLast rest := rfl

theorem trace_ordinary (h : IsOrdinary name) (hnull : ¬ hasNullName name) :
    fs.trace (n + 1) open_ here (name :: rest) =
      match fs.node? (here ++ [name]) with
      | some (.link text) =>
        match if open_.contains (here ++ [name]) then
            .looped (placeChars (here ++ [name]))
          else fs.trace n ((here ++ [name]) :: open_) (linkStart here text) (components text) with
        | .done there => fs.trace (n + 1) open_ there rest
        | .looped text => .looped (joinNames text rest)
        | .null => .null
      | _ => fs.trace (n + 1) open_ (here ++ [name]) rest := by
  have hidle : ¬ (name = "" || name = ".") = true := by simpa using ⟨h.ne_empty, h.ne_dot⟩
  rw [trace, traceAlong, if_neg hidle, if_neg h.ne_dots, if_neg hnull]
  rfl

theorem trace_null (h : IsOrdinary name) (hnull : hasNullName name) :
    fs.trace (n + 1) open_ here (name :: rest) = .null := by
  have hidle : ¬ (name = "" || name = ".") = true := by simpa using ⟨h.ne_empty, h.ne_dot⟩
  rw [trace, traceAlong, if_neg hidle, if_neg h.ne_dots, if_pos hnull]

theorem Leads.trace_eq (h : Leads fs k here names place) (hopen : Following fs k open_)
    (hfuel : fs.linkCount + 2 ≤ n + open_.length) :
    fs.trace n open_ here names = .done place ∨ fs.trace n open_ here names = .null := by
  induction h generalizing n open_ with
  | here =>
      obtain ⟨n, rfl⟩ := hopen.exists_succ hfuel
      exact .inl rfl
  | stay hidle _ ih =>
      obtain ⟨n, rfl⟩ := hopen.exists_succ hfuel
      rw [trace_stay hidle]
      exact ih hopen hfuel
  | up _ ih =>
      obtain ⟨n, rfl⟩ := hopen.exists_succ hfuel
      rw [trace_up]
      exact ih hopen hfuel
  | @enter _ _ _ name _ e ho he hlink _ ih =>
      obtain ⟨n, rfl⟩ := hopen.exists_succ hfuel
      by_cases hnull : hasNullName name
      · exact .inr (trace_null ho hnull)
      rw [trace_ordinary ho hnull, he]
      cases e with
      | directory | file => exact ih hopen hfuel
      | link text => exact absurd rfl hlink
  | @follow k l _ _ _ name text _ ho he htext _ ih₁ ih₂ =>
      obtain ⟨n, rfl⟩ := hopen.exists_succ hfuel
      by_cases hnull : hasNullName name
      · exact .inr (trace_null ho hnull)
      -- The links that are being followed never come up again: the text of each takes at least
      -- `k + l + 1` links, and that of this one only `k`.
      have hk : k < k + l + 1 := by omega
      have hnew := hopen.not_mem he htext hk
      have hinner := ih₁ (hopen.cons he htext hk) (n := n) (by rw [List.length_cons]; omega)
      rw [trace_ordinary ho hnull, he]
      simp only [List.contains_iff_mem, if_neg hnew]
      rcases hinner with hinner | hinner
      · rw [hinner]
        exact ih₂ (hopen.mono (by omega)) hfuel
      · rw [hinner]
        exact .inr rfl

theorem trace_unlinked (hnames : ∀ c ∈ names, IsOrdinary c) (hnull : ∀ c ∈ names, ¬ hasNullName c)
    (hun : fs.IsUnlinked (here ++ names)) :
    fs.trace (n + 1) open_ here names = .done (here ++ names) := by
  induction names generalizing here with
  | nil =>
      rw [List.append_nil]
      rfl
  | cons name rest ih =>
      rw [List.append_cons] at hun ⊢
      have hlink := hun (here ++ [name]) (List.prefix_append _ _)
      have hrest := ih (fun c hc => hnames c (List.mem_cons_of_mem name hc))
        (fun c hc => hnull c (List.mem_cons_of_mem name hc)) hun
      rw [trace_ordinary (hnames name List.mem_cons_self) (hnull name List.mem_cons_self)]
      split
      · rename_i text he
        exact absurd he (hlink text)
      · exact hrest

end Trace

section Resolve

def checkedForm (fs : FileSystem) (cwd plain : Path) : Except Failure Path :=
  if plain.collapse.hasNull then .error nullCharacter
  else match fs.reach cwd plain.collapse true with
    | .error .loop => .error (symlinkLoop plain.collapse)
    | _ => .ok plain.collapse

theorem resolve_eq (fs : FileSystem) (cwd p : Path) :
    fs.resolve cwd p =
      match fs.trace (fs.linkCount + 2) [] [] (p.absolute cwd).parts with
      | .done place => fs.checkedForm cwd ⟨.slash, place⟩
      | .looped text => fs.checkedForm cwd (Path.ofChars text)
      | .null => .error nullCharacter := rfl

theorem checkedForm_eq_ok {plain t : Path} (h : fs.checkedForm cwd plain = .ok t) :
    t = plain.collapse ∧ ¬ t.hasNull := by
  rw [checkedForm] at h
  split at h
  · cases h
  rename_i hnull
  split at h
  · cases h
  · obtain rfl := Except.ok.inj h
    exact ⟨rfl, hnull⟩

theorem not_hasNull_of_resolve {t : Path} (h : fs.resolve cwd p = .ok t) : ¬ t.hasNull := by
  rw [resolve_eq] at h
  split at h
  · exact (checkedForm_eq_ok h).2
  · exact (checkedForm_eq_ok h).2
  · cases h

theorem find_eq_ok : fs.find cwd p = .ok place ↔ fs.reach cwd p true = .ok (.found place) := by
  rw [find]
  rcases fs.reach cwd p true with e | ⟨there⟩ | ⟨parent, name⟩
  · constructor <;> intro h <;> cases h
  · constructor <;> intro h <;> cases h <;> rfl
  · constructor <;> intro h <;> cases h

theorem leads_of_find (h : fs.find cwd p = .ok place) :
    ∃ k, Leads fs k [] (p.absolute cwd).parts place := by
  have hreach := find_eq_ok.1 h
  rw [reach] at hreach
  split at hreach
  · cases hreach
  · exact leads_of_walk hreach

theorem isOrdinary_of_find (h : fs.find cwd p = .ok place) : ∀ c ∈ place, IsOrdinary c := by
  obtain ⟨k, hk⟩ := leads_of_find h
  exact hk.isOrdinary fun _ h => absurd h List.not_mem_nil

theorem trace_of_find (h : fs.find cwd p = .ok place) :
    fs.trace (fs.linkCount + 2) [] [] (p.absolute cwd).parts = .done place ∨
      fs.trace (fs.linkCount + 2) [] [] (p.absolute cwd).parts = .null := by
  obtain ⟨k, hk⟩ := leads_of_find h
  have hnone : Following fs k [] :=
    ⟨List.nodup_nil, fun _ h => absurd h List.not_mem_nil, fun _ h => absurd h List.not_mem_nil⟩
  exact hk.trace_eq hnone (Nat.le_refl _)

theorem checkedForm_of_find {t : Path} (hfind : fs.find cwd p = .ok place)
    (hresolve : fs.resolve cwd p = .ok t) : fs.checkedForm cwd ⟨.slash, place⟩ = .ok t := by
  rw [resolve_eq] at hresolve
  rcases trace_of_find hfind with htrace | htrace
  · rwa [htrace] at hresolve
  · rw [htrace] at hresolve
    cases hresolve

/-- What a path leads to is at the place that its canonical form spells. -/
theorem resolve_of_find {t : Path} (hfind : fs.find cwd p = .ok place)
    (hresolve : fs.resolve cwd p = .ok t) : t = ⟨.slash, place⟩ := by
  obtain ⟨rfl, -⟩ := checkedForm_eq_ok (checkedForm_of_find hfind hresolve)
  exact Path.collapse_of_isOrdinary (isOrdinary_of_find hfind)

theorem isUnlinked_of_find (h : fs.find cwd p = .ok place) : fs.IsUnlinked place := by
  obtain ⟨k, hk⟩ := leads_of_find h
  exact hk.isUnlinked isUnlinked_root

/-- The canonical form leads to the same place as the path, if both lead anywhere. -/
theorem find_of_resolve {t : Path} {there : Place} (hfind : fs.find cwd p = .ok place)
    (hresolve : fs.resolve cwd p = .ok t) (ht : fs.find cwd t = .ok there) : there = place := by
  obtain rfl := resolve_of_find hfind hresolve
  exact place_reach rfl (isOrdinary_of_find hfind) (isUnlinked_of_find hfind) (find_eq_ok.1 ht)

/-- The canonical form of a path that leads somewhere is its own canonical form. -/
theorem resolve_resolve {t : Path} (hfind : fs.find cwd p = .ok place)
    (hresolve : fs.resolve cwd p = .ok t) : fs.resolve cwd t = .ok t := by
  have hform := checkedForm_of_find hfind hresolve
  obtain ⟨-, hnull⟩ := checkedForm_eq_ok hform
  obtain rfl := resolve_of_find hfind hresolve
  have htrace : fs.trace (fs.linkCount + 2) [] [] place = .done ([] ++ place) := by
    apply trace_unlinked (isOrdinary_of_find hfind) _ (isUnlinked_of_find hfind)
    intro c hc hnullName
    exact hnull (List.any_eq_true.2 ⟨c, hc, hnullName⟩)
  rw [resolve_eq]
  change (match fs.trace (fs.linkCount + 2) [] [] place with
    | .done there => fs.checkedForm cwd ⟨.slash, there⟩
    | .looped text => fs.checkedForm cwd (Path.ofChars text)
    | .null => .error nullCharacter) = _
  rw [htrace]
  exact hform

def Trace.IsRooted : Trace → Prop
  | .done place => ∀ c ∈ place, IsOrdinary c
  | .looped text => text.head? = some '/'
  | .null => True

theorem head_joinNames {text : List Char} (h : text.head? = some '/') (names : List String) :
    (joinNames text names).head? = some '/' := by
  obtain ⟨s, rfl⟩ : ∃ s, text = '/' :: s := by
    cases text with
    | nil => cases h
    | cons a s => exact ⟨s, congrArg (· :: s) (Option.some.inj h)⟩
  rw [joinNames]
  split
  · assumption
  split
  · rfl
  · rfl

theorem traceAlong_isRooted {enter : Place → Place → List String → Trace}
    (henter : ∀ link base target, (∀ c ∈ base, IsOrdinary c) → (enter link base target).IsRooted)
    (hhere : ∀ c ∈ here, IsOrdinary c) : (traceAlong fs enter here names).IsRooted := by
  induction names generalizing here with
  | nil => exact hhere
  | cons name rest ih =>
      rw [traceAlong]
      split
      · exact ih hhere
      rename_i hidle
      split
      · exact ih fun c hc => hhere c (List.dropLast_subset _ hc)
      rename_i hdots
      split
      · trivial
      have ho : IsOrdinary name := isOrdinary_of_not hidle hdots
      split
      · rename_i text _
        have hinner : (enter (here ++ [name]) (linkStart here text) (components text)).IsRooted :=
          henter _ _ _ (isOrdinary_linkStart hhere text)
        rw [linkStart] at hinner
        split
        · rename_i htrace
          rw [htrace] at hinner
          exact ih hinner
        · rename_i htrace
          rw [htrace] at hinner
          exact head_joinNames hinner rest
        · trivial
      · exact ih (isOrdinary_concat hhere ho)

theorem trace_isRooted (hhere : ∀ c ∈ here, IsOrdinary c) :
    (fs.trace n open_ here names).IsRooted := by
  induction n generalizing open_ here names with
  | zero => exact head_joinNames rfl names
  | succ n ih =>
      apply traceAlong_isRooted _ hhere
      intro link base target hbase
      split
      · rfl
      · exact ih hbase

theorem isCanonical_resolve {t : Path} (h : fs.resolve cwd p = .ok t) : t.IsCanonical := by
  have hrooted : (fs.trace (fs.linkCount + 2) [] [] (p.absolute cwd).parts).IsRooted :=
    trace_isRooted fun _ h => absurd h List.not_mem_nil
  rw [resolve_eq] at h
  cases htrace : fs.trace (fs.linkCount + 2) [] [] (p.absolute cwd).parts with
  | done place =>
      rw [htrace] at h hrooted
      obtain ⟨rfl, -⟩ := checkedForm_eq_ok h
      refine Path.isCanonical_collapse rfl fun c hc => ?_
      exact ⟨(hrooted c hc).ne_empty, (hrooted c hc).ne_dot⟩
  | looped text =>
      rw [htrace] at h hrooted
      obtain ⟨rfl, -⟩ := checkedForm_eq_ok h
      refine Path.isCanonical_collapse (Path.isAbsolute_ofChars hrooted) fun c hc => ?_
      have hnormal := Path.isNormal_ofChars text c hc
      exact ⟨hnormal.ne_empty, hnormal.ne_dot⟩
  | null =>
      rw [htrace] at h
      cases h

/-- Where an absolute path leads does not depend on the working directory. -/
theorem reach_of_isAbsolute (fs : FileSystem) {p : Path} (h : p.isAbsolute) (cwd cwd' : Path)
    (followLast : Bool) : fs.reach cwd p followLast = fs.reach cwd' p followLast := by
  rw [reach, reach, Path.absolute_of_isAbsolute h, Path.absolute_of_isAbsolute h]

theorem checkedForm_of_isAbsolute {plain : Path} (h : plain.isAbsolute) (cwd' : Path) :
    fs.checkedForm cwd plain = fs.checkedForm cwd' plain := by
  rw [checkedForm, checkedForm, reach_of_isAbsolute fs (p := plain.collapse) h cwd cwd']

theorem resolve_of_isAbsolute (fs : FileSystem) {p : Path} (h : p.isAbsolute) (cwd cwd' : Path) :
    fs.resolve cwd p = fs.resolve cwd' p := by
  have hrooted : (fs.trace (fs.linkCount + 2) [] [] p.parts).IsRooted :=
    trace_isRooted fun _ h => absurd h List.not_mem_nil
  rw [resolve_eq, resolve_eq, Path.absolute_of_isAbsolute h, Path.absolute_of_isAbsolute h]
  cases htrace : fs.trace (fs.linkCount + 2) [] [] p.parts with
  | done place => exact checkedForm_of_isAbsolute rfl cwd'
  | looped text =>
      rw [htrace] at hrooted
      exact checkedForm_of_isAbsolute (Path.isAbsolute_ofChars hrooted) cwd'
  | null => rfl

theorem relativeUnder_eq {base t b : Path} (ht : fs.resolve cwd p = .ok t)
    (hb : fs.resolve cwd base = .ok b) : fs.relativeUnder cwd base p = .ok (t.relativeTo? b) := by
  rw [relativeUnder, ht, hb]
  rfl

theorem relativeUnder_eq_some {base rel : Path} (h : fs.relativeUnder cwd base p = .ok (some rel)) :
    ∃ t b, fs.resolve cwd p = .ok t ∧ fs.resolve cwd base = .ok b ∧ t.relativeTo? b = some rel := by
  rcases ht : fs.resolve cwd p with f | t
  · have hfail : fs.relativeUnder cwd base p = if f.isValue then .ok none else .error f := by
      rw [relativeUnder, ht]
      rfl
    rw [hfail] at h
    split at h <;> cases h
  rcases hb : fs.resolve cwd base with f | b
  · have hfail : fs.relativeUnder cwd base p = if f.isValue then .ok none else .error f := by
      rw [relativeUnder, ht, hb]
      rfl
    rw [hfail] at h
    split at h <;> cases h
  · rw [relativeUnder_eq ht hb] at h
    exact ⟨t, b, rfl, rfl, Except.ok.inj h⟩

end Resolve

section Files

theorem test_eq_true {wanted : Node → Bool} (h : fs.test cwd p wanted = .ok true) :
    ∃ place e, fs.find cwd p = .ok place ∧ fs.node? place = some e ∧ wanted e := by
  rw [test] at h
  split at h
  · cases h
  rcases hfind : fs.find cwd p with e | place
  · rw [lookup, hfind] at h
    change (if meansAbsent e then _ else _) = _ at h
    split at h <;> cases h
  rcases hnode : fs.node? place with _ | e
  · rw [lookup, hfind] at h
    simp only [Except.bind, bind, hnode] at h
    cases h
  · rw [lookup, hfind] at h
    simp only [Except.bind, bind, hnode] at h
    exact ⟨place, e, rfl, hnode, Except.ok.inj h⟩

/-- A path names a regular file inside a directory: the place that it leads to is the one that its
canonical form spells, and lies below the canonical form of the directory name by name. -/
structure Confines (fs : FileSystem) (cwd base p : Path) (place : Place) : Prop where
  leads : fs.find cwd p = .ok place
  isFile : ∃ content changedAt, fs.node? place = some (.file content changedAt)
  resolves : fs.resolve cwd p = .ok ⟨.slash, place⟩
  inside : ∃ directory, fs.resolve cwd base = .ok ⟨.slash, directory⟩ ∧ directory <+: place

theorem exists_confines {base rel : Path} (hinside : fs.relativeUnder cwd base p = .ok (some rel))
    (hfile : fs.isFile cwd p = .ok true) : ∃ place, fs.Confines cwd base p place := by
  obtain ⟨t, ⟨r, directory⟩, ht, hb, hrel⟩ := relativeUnder_eq_some hinside
  obtain ⟨place, e, hfind, hnode, he⟩ := test_eq_true hfile
  obtain rfl := resolve_of_find hfind ht
  obtain ⟨rfl, hbelow⟩ := Path.relativeTo?_isSome.1 (Option.isSome_of_eq_some hrel)
  refine ⟨place, hfind, ?_, ht, directory, hb, hbelow⟩
  cases e with
  | file content changedAt => exact ⟨content, changedAt, hnode⟩
  | directory | link => cases he

end Files

end FileSystem

end MediaCatalog
