import MediaCatalog.Proofs.Effect
import MediaCatalog.Proofs.FileSystem.Change
import MediaCatalog.Proofs.Settings
import MediaCatalog.Repository.Wiring

namespace MediaCatalog

open Act World

namespace Metadata

theorem inspects_askReader (p : Path) : Inspects (askReader p) := by
  refine inspects_getState.bind fun w => ?_
  cases w.tagReader with
  | none => exact inspects_pure none
  | some replies =>
      dsimp only
      split
      · exact inspects_fail nullCharacter
      · exact (inspects_ofExcept _).bind fun tags => inspects_pure (some tags)

theorem inspects_openPath (p : Path) : Inspects (Picture.openPath p) :=
  (inspects_load p).bind fun bytes => inspects_ofExcept (Picture.ofBytes bytes)

theorem inspects_readTags (p : Path) : Inspects (readTags p) := by
  refine (inspects_askReader p).bind fun tags => ?_
  cases tags with
  | none => exact (inspects_openPath p).bind fun picture => inspects_ofExcept (pictureTags picture)
  | some tags => exact inspects_pure tags

theorem inspects_read (p : Path) : Inspects (read p) := by
  refine (inspects_ask _).bind fun node => inspects_getState.bind fun w => ?_
  exact ((inspects_readTags p).recover fun f => inspects_pure _).bind fun tags => inspects_pure _

theorem inspects_imageSize (p : Path) : Inspects (imageSize p) :=
  (inspects_openPath p).bind fun picture =>
    (inspects_ofExcept picture.displaySize).bind fun _ => inspects_pure _

theorem inspects_videoSize (p : Path) : Inspects (videoSize p) := by
  refine (inspects_askReader p).bind fun tags => ?_
  cases tags with
  | none => exact inspects_pure (0, 0)
  | some tags => exact inspects_ofExcept (frameSize tags)

end Metadata

theorem PathPermission.inspects_hasReadAccess (p : PathPermission) : Inspects p.hasReadAccess := by
  refine (inspects_ask _).bind fun readable => ?_
  split
  · exact inspects_ask _
  · exact inspects_pure false

namespace Blob.Directory

theorem inspects_pathFor (d : Directory) (name : String) : Inspects (d.pathFor name) := by
  rw [pathFor]
  split
  · exact inspects_pure none
  · refine (inspects_ask _).bind fun inside => ?_
    cases inside with
    | none => exact inspects_pure none
    | some rest => exact (inspects_ask _).bind fun p => inspects_pure (some p)

theorem inspects_sizeOf (d : Directory) (locator : String) : Inspects (d.sizeOf locator) := by
  refine (d.inspects_pathFor _).bind fun p => ?_
  cases p with
  | none => exact inspects_pure none
  | some p =>
      refine (inspects_ask _).bind fun isFile => ?_
      split
      · refine (inspects_ask _).bind fun node => ?_
        cases node with
        | directory | link => exact inspects_pure none
        | file content changedAt => exact inspects_pure (some (content.size : Int))
      · exact inspects_pure none

end Blob.Directory

namespace Completer

variable {σ : Type} {c : Completer σ} {s : σ} {i : Item}

/-- Nobody that a completer asks changes anything. -/
structure IsReader (c : Completer σ) : Prop where
  isLocal : ∀ l, Inspects (c.authority.isLocal l)
  sizeOf : ∀ l, Inspects (c.authority.sizeOf l)
  metadataQuery : ∀ l, Inspects (c.probe.metadataQuery l)
  resourceSize : ∀ l, Inspects (c.probe.resourceSize l)
  dimensionsOf : ∀ m l, Inspects (c.probe.dimensionsOf m l)
  access : ∀ act, c.hasReadAccess = some act → Inspects act

theorem inspects_firstKnownSize {sources : List (String → Act σ (Option Int))} {l : String}
    (h : ∀ ask ∈ sources, Inspects (ask l)) : Inspects (firstKnownSize sources l) := by
  induction sources with
  | nil => exact inspects_pure none
  | cons ask sources ih =>
      have hrest := ih fun ask' hmem => h ask' (List.mem_cons_of_mem ask hmem)
      refine (h ask List.mem_cons_self).bind fun size => ?_
      cases size with
      | none => exact hrest
      | some size =>
          dsimp only
          split
          · exact inspects_pure (some size)
          · exact hrest

theorem IsReader.resolveSize (h : c.IsReader) (i : Item) : Inspects (c.resolveSize i) := by
  rw [Completer.resolveSize]
  split
  · exact inspects_pure i.size
  · have hmeasured : Inspects (do return some (← c.probe.resourceSize i.location)) :=
      (h.resourceSize i.location).bind fun size => inspects_pure (some size)
    rw [sizeSources, bind_assoc]
    refine (h.isLocal i.location).bind fun isLocal => ?_
    cases isLocal with
    | true =>
        rw [if_pos rfl, pure_bind]
        refine (inspects_firstKnownSize fun ask hmem => ?_).bind fun size => inspects_pure _
        rcases List.mem_pair.1 hmem with rfl | rfl
        · exact h.sizeOf i.location
        · exact hmeasured
    | false =>
        rw [if_neg Bool.false_ne_true, pure_bind]
        refine (inspects_firstKnownSize fun ask hmem => ?_).bind fun size => inspects_pure _
        rcases List.mem_pair.1 hmem with rfl | rfl
        · exact h.metadataQuery i.location
        · exact hmeasured

theorem IsReader.resolveDimensions (h : c.IsReader) (i : Item) :
    Inspects (c.resolveDimensions i) := by
  rw [Completer.resolveDimensions]
  split
  · exact inspects_pure (i.width, i.height)
  · exact h.dimensionsOf i.mimeType i.location

theorem IsReader.resolve (h : c.IsReader) (i : Item) : Inspects (c.resolve i) :=
  (h.resolveSize i).bind fun _ => (h.resolveDimensions i).bind fun _ => inspects_pure _

theorem IsReader.completeOne (h : c.IsReader) (i : Item) : Inspects (c.completeOne i) := by
  rw [Completer.completeOne]
  split
  · exact inspects_pure _
  · exact ((h.resolve i).bind fun _ => inspects_pure _).recover fun f =>
      (inspects_log _).bind fun _ => inspects_pure _

theorem IsReader.mayRead (h : c.IsReader) : Inspects c.mayRead := by
  rw [Completer.mayRead]
  split
  · exact h.access _ ‹_›
  · exact inspects_pure true

theorem IsReader.complete (h : c.IsReader) (items : List Item) : Inspects (c.complete items) := by
  rw [Completer.complete]
  split
  · exact inspects_pure _
  · refine h.mayRead.bind fun granted => ?_
    split
    · exact (inspects_mapM h.completeOne items).bind fun _ => inspects_pure _
    · exact inspects_pure _

def single (c : Completer σ) (s : σ) (i : Item) : Except Failure Completed :=
  if i.isPopulated then .ok ⟨i, false⟩
  else match ((c.resolve i).start s).1 with
    | .ok j => .ok ⟨j, true⟩
    | .error f => if f.isSystem then .ok ⟨i, false⟩ else .error f

theorem IsReader.start_completeOne (h : c.IsReader) (i : Item) (s : σ) :
    ((c.completeOne i).start s).1 = c.single s i := by
  rw [Completer.completeOne, single]
  split
  · rfl
  · have hnew (j : Item) : Inspects (pure (Completed.mk j true) : Act σ Completed) :=
      inspects_pure _
    refine (start_recover ((h.resolve i).bind hnew)
      (fun f => (inspects_log _).bind fun _ => inspects_pure _) s).trans ?_
    rw [start_bind (h.resolve i) hnew]
    cases ((c.resolve i).start s).1 <;> rfl

def itemsOf (out : Except Failure Batch) : Except Failure (List Item) :=
  out.map fun b => b.items.map Completed.item

theorem IsReader.itemsOf_complete (h : c.IsReader) (hgranted : (c.mayRead.start s).1 = .ok true)
    (items : List Item) : itemsOf ((c.complete items).start s).1 =
      (items.mapM (c.single s)).map (List.map Completed.item) := by
  rw [Completer.complete]
  split
  · rename_i hall
    have hkept : items.mapM (c.single s) = .ok (items.map (⟨·, false⟩)) :=
      mapM_ok fun i hi => if_pos (List.all_eq_true.1 hall i hi)
    rw [hkept]
    rfl
  · rw [start_bind h.mayRead fun granted => by
      split
      · exact (inspects_mapM h.completeOne items).bind fun _ => inspects_pure _
      · exact inspects_pure _, hgranted]
    change itemsOf ((Bind.bind (items.mapM c.completeOne) _).start s).1 = _
    rw [start_bind (inspects_mapM h.completeOne items) fun _ => inspects_pure _,
      start_mapM h.completeOne, funext fun i => h.start_completeOne i s]
    cases items.mapM (c.single s) <;> rfl

theorem mapM_singleton {α β γ : Type} (f : α → Except Failure β) (g : β → γ) (l : List α) :
    (l.mapM fun a => (f a).map fun b => [g b]).map List.flatten = (l.mapM f).map (List.map g) := by
  induction l with
  | nil => rfl
  | cons a l ih =>
      rw [List.mapM_cons, List.mapM_cons]
      cases f a with
      | error e => rfl
      | ok b =>
          cases hone : l.mapM (fun a => (f a).map fun b => [g b]) <;> cases hall : l.mapM f <;>
            rw [hone, hall] at ih
          · exact congrArg Except.error (Except.error.inj ih)
          · cases ih
          · cases ih
          · exact congrArg (fun rest => Except.ok (g b :: rest)) (Except.ok.inj ih)

theorem IsReader.itemsOf_complete_eq_flatten (h : c.IsReader)
    (hgranted : (c.mayRead.start s).1 = .ok true) (items : List Item) :
    itemsOf ((c.complete items).start s).1 =
      (items.mapM fun i => itemsOf ((c.complete [i]).start s).1).map List.flatten := by
  have halone (i : Item) : itemsOf ((c.complete [i]).start s).1 =
      (c.single s i).map fun x => [x.item] := by
    rw [h.itemsOf_complete hgranted, List.mapM_cons]
    cases c.single s i <;> rfl
  rw [h.itemsOf_complete hgranted, funext halone, mapM_singleton]

theorem IsReader.start_resolve_of_size (h : c.IsReader) (hsize : 0 < i.size)
    (hi : ¬ i.isPopulated) : ((c.resolve i).start s).1 =
      ((c.probe.dimensionsOf i.mimeType i.location).start s).1.map fun d =>
        { i with width := d.1, height := d.2 } := by
  have hdim : ¬ (0 < i.width && 0 < i.height) = true := by
    intro hdim
    exact hi (by rw [Item.isPopulated, hdim, decide_eq_true hsize]; rfl)
  rw [Completer.resolve, start_bind (h.resolveSize i) fun _ =>
    (h.resolveDimensions i).bind fun _ => inspects_pure _]
  rw [Completer.resolveSize, if_pos hsize]
  change ((Bind.bind (c.resolveDimensions i) _).start s).1 = _
  rw [start_bind (h.resolveDimensions i) fun _ => inspects_pure _, Completer.resolveDimensions,
    if_neg hdim]
  cases ((c.probe.dimensionsOf i.mimeType i.location).start s).1 <;> rfl

theorem IsReader.start_resolve_of_query (h : c.IsReader) (hsize : ¬ 0 < i.size) {f : Failure}
    (hlocal : ((c.authority.isLocal i.location).start s).1 = .ok false)
    (hquery : ((c.probe.metadataQuery i.location).start s).1 = .error f) :
    ((c.resolve i).start s).1 = .error f := by
  obtain ⟨r, hlocal', hr⟩ := (h.isLocal i.location).exec_eq (r := ⟨s, []⟩) rfl hlocal
  obtain ⟨r', hquery', -⟩ := (h.metadataQuery i.location).exec_eq hr hquery
  have hsize' : ((c.resolveSize i).start s).1 = .error f := by
    have hfails : (c.resolveSize i).exec ⟨s, []⟩ = (.error f, r') := by
      rw [Completer.resolveSize, if_neg hsize, sizeSources, bind_assoc, exec_bind_ok hlocal',
        if_neg Bool.false_ne_true, pure_bind, firstKnownSize, bind_assoc, exec_bind_error hquery']
    exact congrArg Prod.fst hfails
  rw [Completer.resolve, start_bind (h.resolveSize i) fun _ =>
    (h.resolveDimensions i).bind fun _ => inspects_pure _, hsize']
  rfl

theorem length_of_mapM {α β : Type} {f : α → Except Failure β} {l : List α} {out : List β}
    (h : l.mapM f = .ok out) : out.length = l.length := by
  induction l generalizing out with
  | nil =>
      cases h
      rfl
  | cons a l ih =>
      rw [List.mapM_cons] at h
      cases ha : f a with
      | error e =>
          rw [ha] at h
          cases h
      | ok b =>
          cases hall : l.mapM f with
          | error e =>
              rw [ha, hall] at h
              cases h
          | ok bs =>
              rw [ha, hall] at h
              cases h
              exact congrArg Nat.succ (ih hall)

theorem IsReader.length_of_itemsOf (h : c.IsReader) (hgranted : (c.mayRead.start s).1 = .ok true)
    {items out : List Item} (hout : itemsOf ((c.complete items).start s).1 = .ok out) :
    out.length = items.length := by
  rw [h.itemsOf_complete hgranted] at hout
  cases hall : items.mapM (c.single s) with
  | error f =>
      rw [hall] at hout
      cases hout
  | ok xs =>
      rw [hall] at hout
      cases hout
      rw [List.length_map]
      exact length_of_mapM hall

end Completer

theorem Locator.toPath_eq_error {dir : Path} {l : String} {f : Failure}
    (h : Locator.toPath (some dir) l = .error f) : Locator.isBlob l = false ∧ f.isSystem = false := by
  rw [Locator.toPath] at h
  split at h
  · cases h
  · rename_i hblob
    refine ⟨Bool.eq_false_iff.2 hblob, ?_⟩
    rw [Locator.filePath] at h
    split at h
    · cases h
      rename_i e _
      cases e with
      | unbalancedBrackets | disguisedDelimiter => rfl
      | badAddress =>
          rw [Locator.malformed]
          split
          · rfl
          · split <;> rfl
    · split at h <;> cases h

namespace Settings

variable {s : Settings} {access : Doing Bool} {i : Item} {r : Run World} {f : Failure} {p : Path}

theorem isReader_completer (s : Settings) (h : Inspects access) : (s.completer access).IsReader where
  isLocal l := inspects_pure _
  sizeOf l := s.blobs.inspects_sizeOf l
  metadataQuery l := (inspects_ofExcept _).bind fun p =>
    (Metadata.inspects_read p).bind fun tags => inspects_ofExcept _
  resourceSize l := (inspects_ofExcept _).bind fun p => (inspects_load p).bind fun _ => inspects_pure _
  dimensionsOf m l := by
    refine (inspects_ofExcept _).bind fun p => ?_
    split
    · exact Metadata.inspects_videoSize p
    · exact Metadata.inspects_imageSize p
  access act hact := by
    cases hact
    exact h

def isVideo (i : Item) : Bool := "video/".toList.isPrefixOf i.mimeType.toList

theorem dimensionsOf_malformed (access : Doing Bool)
    (h : Locator.toPath (some s.blobDir) i.location = .error f) :
    (((s.completer access).probe.dimensionsOf i.mimeType i.location).exec r).1 = .error f := by
  change (Act.exec (Act.ofExcept (Locator.toPath (some s.blobDir) i.location) >>= _) r).1 = _
  rw [h, exec_bind_error (exec_ofExcept _ r)]

theorem metadataQuery_malformed (h : Locator.toPath (some s.blobDir) i.location = .error f) :
    (((s.completer access).probe.metadataQuery i.location).exec r).1 = .error f := by
  change (Act.exec (Act.ofExcept (Locator.toPath (some s.blobDir) i.location) >>= _) r).1 = _
  rw [h, exec_bind_error (exec_ofExcept _ r)]

theorem metadataQuery_of_stat (h : Locator.toPath (some s.blobDir) i.location = .ok p)
    (hstat : r.state.files.stat r.state.cwd p = .error f) :
    (((s.completer access).probe.metadataQuery i.location).exec r).1 = .error f := by
  have hread : (Metadata.read p).exec r = (.error f, r) :=
    exec_bind_error ((exec_stat p r).trans (congrArg (·, r) hstat)) _
  change (Act.exec (Act.ofExcept (Locator.toPath (some s.blobDir) i.location) >>= _) r).1 = _
  rw [h, exec_bind_ok (exec_ofExcept _ r), exec_bind_error hread]

theorem load_of_stat (hstat : r.state.files.stat r.state.cwd p = .error f) :
    (load p).exec r = (.error f, r) := by
  have hload : r.state.files.load r.state.cwd p = .error f := by
    rcases FileSystem.failing_eq_error.1 hstat with hnull | ⟨hnull, e, hlookup, hf⟩
    · exact FileSystem.failing_eq_error.2 (.inl hnull)
    · refine FileSystem.failing_eq_error.2 (.inr ⟨hnull, e, ?_, hf⟩)
      cases hfound : r.state.files.lookup r.state.cwd p with
      | error e' =>
          rw [hfound] at hlookup
          cases hlookup
          rfl
      | ok found =>
          rw [hfound] at hlookup
          cases hlookup
  rw [exec_load, hload]
  rfl

theorem dimensionsOf_of_stat (access : Doing Bool)
    (h : Locator.toPath (some s.blobDir) i.location = .ok p)
    (hvideo : isVideo i = false) (hstat : r.state.files.stat r.state.cwd p = .error f) :
    (((s.completer access).probe.dimensionsOf i.mimeType i.location).exec r).1 = .error f := by
  have hsize : (Metadata.imageSize p).exec r = (.error f, r) :=
    exec_bind_error (exec_bind_error (load_of_stat hstat) _) _
  change (Act.exec (Act.ofExcept (Locator.toPath (some s.blobDir) i.location) >>= _) r).1 = _
  rw [h, exec_bind_ok (exec_ofExcept _ r), if_neg (by rw [← isVideo, hvideo]; decide), hsize]

theorem dimensionsOf_video (access : Doing Bool)
    (h : Locator.toPath (some s.blobDir) i.location = .ok p)
    (hvideo : isVideo i) (hreader : r.state.tagReader = none) :
    (((s.completer access).probe.dimensionsOf i.mimeType i.location).exec r).1 = .ok (0, 0) := by
  have hask : (Metadata.askReader p).exec r = (.ok none, r) := by
    rw [Metadata.askReader, exec_bind_ok (exec_getState r), hreader]
    rfl
  have hsize : (Metadata.videoSize p).exec r = (.ok (0, 0), r) := exec_bind_ok hask _
  change (Act.exec (Act.ofExcept (Locator.toPath (some s.blobDir) i.location) >>= _) r).1 = _
  rw [h, exec_bind_ok (exec_ofExcept _ r), if_pos (by rw [← isVideo, hvideo]), hsize]

/-- The answer to a list of items, under the permission that the paths give. -/
def answer (s : Settings) (r : Run World) (items : List Item) : Except Failure (List Item) :=
  Completer.itemsOf (((s.completer s.pathPermission.hasReadAccess).complete items).exec r).1

def resolved (s : Settings) (r : Run World) (i : Item) : Except Failure Item :=
  (((s.completer s.pathPermission.hasReadAccess).resolve i).exec r).1

theorem isReader (s : Settings) : (s.completer s.pathPermission.hasReadAccess).IsReader :=
  s.isReader_completer s.pathPermission.inspects_hasReadAccess

theorem answer_eq_start (s : Settings) (r : Run World) (items : List Item) : s.answer r items =
    Completer.itemsOf
      (((s.completer s.pathPermission.hasReadAccess).complete items).start r.state).1 :=
  congrArg Completer.itemsOf (s.isReader.complete items r).1

theorem resolved_eq_start (s : Settings) (r : Run World) (i : Item) : s.resolved r i =
    (((s.completer s.pathPermission.hasReadAccess).resolve i).start r.state).1 :=
  (s.isReader.resolve i r).1

section Answer

variable (haccess : (s.pathPermission.hasReadAccess.exec r).1 = .ok true)
include haccess

theorem mayRead_start :
    (((s.completer s.pathPermission.hasReadAccess).mayRead).start r.state).1 = .ok true :=
  (s.pathPermission.inspects_hasReadAccess r).1.symm.trans haccess

theorem answer_singleton (i : Item) : s.answer r [i] = if i.isPopulated then .ok [i]
    else match s.resolved r i with
      | .ok j => .ok [j]
      | .error f => if f.isSystem then .ok [i] else .error f := by
  rw [answer_eq_start, s.isReader.itemsOf_complete (mayRead_start haccess), List.mapM_cons,
    Completer.single, resolved_eq_start]
  split
  · rfl
  · cases (((s.completer s.pathPermission.hasReadAccess).resolve i).start r.state).1 with
    | ok j => rfl
    | error f =>
        dsimp only
        split <;> rfl

end Answer

theorem resolved_malformed (hi : ¬ i.isPopulated)
    (h : Locator.toPath (some s.blobDir) i.location = .error f) : s.resolved r i = .error f := by
  rw [resolved_eq_start]
  by_cases hsize : 0 < i.size
  · rw [s.isReader.start_resolve_of_size hsize hi]
    have hdim := dimensionsOf_malformed s.pathPermission.hasReadAccess
      (r := ⟨r.state, []⟩) h
    change (((s.completer _).probe.dimensionsOf i.mimeType i.location).start r.state).1 = _ at hdim
    rw [hdim]
    rfl
  · refine s.isReader.start_resolve_of_query hsize ?_ (metadataQuery_malformed h)
    exact congrArg Except.ok (Locator.toPath_eq_error h).1

theorem resolved_unreachable (hi : ¬ i.isPopulated) (hblob : Locator.isBlob i.location = false)
    (hvideo : 0 < i.size → isVideo i = false)
    (h : Locator.toPath (some s.blobDir) i.location = .ok p)
    (hstat : r.state.files.stat r.state.cwd p = .error f) : s.resolved r i = .error f := by
  rw [resolved_eq_start]
  by_cases hsize : 0 < i.size
  · have hdim := dimensionsOf_of_stat s.pathPermission.hasReadAccess
      (r := ⟨r.state, []⟩) h (hvideo hsize) hstat
    change (((s.completer _).probe.dimensionsOf i.mimeType i.location).start r.state).1 = _ at hdim
    rw [s.isReader.start_resolve_of_size hsize hi, hdim]
    rfl
  · refine s.isReader.start_resolve_of_query hsize (congrArg Except.ok hblob) ?_
    exact metadataQuery_of_stat (r := ⟨r.state, []⟩) h hstat

theorem resolved_video (hi : ¬ i.isPopulated) (hsize : 0 < i.size) (hvideo : isVideo i)
    (hreader : r.state.tagReader = none)
    (h : Locator.toPath (some s.blobDir) i.location = .ok p) :
    s.resolved r i = .ok { i with width := 0, height := 0 } := by
  have hdim := dimensionsOf_video s.pathPermission.hasReadAccess
    (r := ⟨r.state, []⟩) h hvideo hreader
  change (((s.completer _).probe.dimensionsOf i.mimeType i.location).start r.state).1 = _ at hdim
  rw [resolved_eq_start, s.isReader.start_resolve_of_size hsize hi, hdim]
  rfl

/-- Items are completed one by one, each as if it were alone; the first one that fails by itself
takes the whole list with it. By itself an item fails when what resolving it meets is not the
system's failure, as with a location that is no well-formed URI. It comes back as it was when its
location leads to nothing, unless it is a video of known size, whose location is not looked at
without a reader of tags. -/
theorem answer_eq_flatten (s : Settings) (r : Run World)
    (haccess : (s.pathPermission.hasReadAccess.exec r).1 = .ok true) (items : List Item) :
    s.answer r items = (items.mapM fun i => s.answer r [i]).map List.flatten ∧
    (∀ out, s.answer r items = .ok out → out.length = items.length) ∧
    ∀ i, (i.isPopulated → s.answer r [i] = .ok [i]) ∧ (¬ i.isPopulated →
      (∀ j, s.resolved r i = .ok j → s.answer r [i] = .ok [j]) ∧
      (∀ f, s.resolved r i = .error f →
        s.answer r [i] = if f.isSystem then .ok [i] else .error f) ∧
      (∀ f, Locator.toPath (some s.blobDir) i.location = .error f →
        f.isSystem = false ∧ s.answer r [i] = .error f) ∧
      (∀ p, Locator.toPath (some s.blobDir) i.location = .ok p →
        (0 < i.size → isVideo i → r.state.tagReader = none →
          s.answer r [i] = .ok [{ i with width := 0, height := 0 }]) ∧
        (Locator.isBlob i.location = false → (0 < i.size → isVideo i = false) →
          ∀ f, r.state.files.stat r.state.cwd p = .error f → f.isSystem →
            s.answer r [i] = .ok [i]))) := by
  have hgranted := mayRead_start haccess
  refine ⟨?_, fun out hout => ?_, fun i => ⟨fun hi => ?_, fun hi => ?_⟩⟩
  · simp only [answer_eq_start]
    exact s.isReader.itemsOf_complete_eq_flatten hgranted items
  · rw [answer_eq_start] at hout
    exact s.isReader.length_of_itemsOf hgranted hout
  · rw [answer_singleton haccess, if_pos hi]
  · have hsingle := answer_singleton haccess i
    rw [if_neg hi] at hsingle
    refine ⟨fun j hj => ?_, fun f hf => ?_, fun f hf => ?_, fun p hp => ⟨?_, ?_⟩⟩
    · rw [hsingle, hj]
    · rw [hsingle, hf]
    · have hvalue := (Locator.toPath_eq_error hf).2
      refine ⟨hvalue, ?_⟩
      rw [hsingle, resolved_malformed hi hf]
      exact if_neg (by rw [hvalue]; exact Bool.false_ne_true)
    · intro hsize hvideo hreader
      rw [hsingle, resolved_video hi hsize hvideo hreader hp]
    · intro hblob hvideo f hstat hsystem
      rw [hsingle, resolved_unreachable hi hblob hvideo hp hstat]
      exact if_pos hsystem

def sampleWorld : World where
  files := ⟨[(["d"], .file (.bytes []) 0), (["m"], .directory), (["m", "a"], .file (.bytes [7]) 0)]⟩
  cwd := ⟨.slash, []⟩
  home := "/"

def readable : Item := ⟨"/m/a", "image/png", 1, 4, 3, 0, none, none⟩

def missing : Item := ⟨"/m/b", "image/png", 2, 0, 0, 0, none, none⟩

def unreadable : Item := ⟨"http://[", "image/png", 2, 0, 0, 0, none, none⟩

theorem answer_sample :
    (sample.pathPermission.hasReadAccess.exec ⟨sampleWorld, []⟩).1 = .ok true ∧
    sample.answer ⟨sampleWorld, []⟩ [missing, readable] =
      .ok [missing, { readable with size := 1 }] := by
  obtain ⟨hall, -, hsingle⟩ := answer_eq_flatten sample ⟨sampleWorld, []⟩ rfl [missing, readable]
  have hreadable : sample.answer ⟨sampleWorld, []⟩ [readable] = .ok [{ readable with size := 1 }] :=
    ((hsingle readable).2 (by decide)).1 _ rfl
  have hmissing : sample.answer ⟨sampleWorld, []⟩ [missing] = .ok [missing] :=
    (((hsingle missing).2 (by decide)).2.2.2 ⟨.slash, ["m", "b"]⟩ rfl).2 rfl (by decide) _ rfl rfl
  refine ⟨rfl, ?_⟩
  rw [hall, List.mapM_cons, List.mapM_cons, hmissing, hreadable]
  rfl

/-- One malformed location takes the whole list with it. -/
theorem answer_spoiled :
    sampleWorld.tagReader = none ∧
    (sample.pathPermission.hasReadAccess.exec ⟨sampleWorld, []⟩).1 = .ok true ∧
    sample.answer ⟨sampleWorld, []⟩ [readable] = .ok [{ readable with size := 1 }] ∧
    sample.answer ⟨sampleWorld, []⟩ [unreadable, readable] =
      .error (.ofValue "Invalid IPv6 URL") :=
  ⟨rfl, rfl, rfl, rfl⟩

end Settings

end MediaCatalog
