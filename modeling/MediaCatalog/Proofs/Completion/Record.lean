import MediaCatalog.Proofs.Completion.Batch
import MediaCatalog.Proofs.Record

namespace MediaCatalog.Completer

open Act

variable {σ : Type}

/-- A question to a collaborator, and how it ended. -/
inductive Event where
  | hasReadAccess (out : Except Failure Bool)
  | isLocal (locator : String) (out : Except Failure Bool)
  | sizeOf (locator : String) (out : Except Failure (Option Int))
  | metadataQuery (locator : String) (out : Except Failure (Option Int))
  | resourceSize (locator : String) (out : Except Failure Int)
  | dimensionsOf (mimeType locator : String) (out : Except Failure (Int × Int))

namespace Event

def call? : Event → Option Call
  | .hasReadAccess _ => none
  | .isLocal l _ => some (.isLocal l)
  | .sizeOf l _ => some (.sizeOf l)
  | .metadataQuery l _ => some (.metadataQuery l)
  | .resourceSize l _ => some (.resourceSize l)
  | .dimensionsOf m l _ => some (.dimensionsOf m l)

def isCall (e : Event) : Bool := e.call?.isSome

end Event

/-- The completer that records every question to its collaborators. -/
def recorded (c : Completer σ) : Completer (Recorded Event σ) where
  authority :=
    { isLocal := fun l => noted (.isLocal l) (c.authority.isLocal l)
      sizeOf := fun l => noted (.sizeOf l) (c.authority.sizeOf l) }
  probe :=
    { metadataQuery := fun l => noted (.metadataQuery l) (c.probe.metadataQuery l)
      resourceSize := fun l => noted (.resourceSize l) (c.probe.resourceSize l)
      dimensionsOf := fun m l => noted (.dimensionsOf m l) (c.probe.dimensionsOf m l) }
  hasReadAccess := c.hasReadAccess.map (noted .hasReadAccess)

def events (c : Completer σ) (items : List Item) (r : Run σ) : List Event :=
  ((c.recorded.complete items).exec r.recording).2.state.events

theorem mirrors_firstKnownSize {sources : List (String → Act σ (Option Int))}
    {sources' : List (String → Act (Recorded Event σ) (Option Int))}
    (h : List.Forall₂ (fun ask' ask => ∀ l, Mirrors (ask' l) (ask l)) sources' sources)
    (l : String) : Mirrors (firstKnownSize sources' l) (firstKnownSize sources l) := by
  induction h with
  | nil => exact mirrors_pure none
  | cons hask _ ih =>
      refine (hask l).bind fun n => ?_
      cases n with
      | none => exact ih
      | some size =>
          dsimp only
          split
          · exact mirrors_pure _
          · exact ih

theorem mirrors_resolveSize (c : Completer σ) (i : Item) :
    Mirrors (c.recorded.resolveSize i) (c.resolveSize i) := by
  rw [resolveSize, resolveSize]
  split
  · exact mirrors_pure _
  have hlast (l : String) : Mirrors (do return some (← c.recorded.probe.resourceSize l))
      (do return some (← c.probe.resourceSize l)) :=
    (mirrors_noted _ _).bind fun n => mirrors_pure (some n)
  rw [sizeSources, sizeSources, bind_assoc, bind_assoc]
  refine (mirrors_noted _ _).bind fun here => ?_
  cases here <;> exact (mirrors_firstKnownSize
    (.cons (fun _ => mirrors_noted _ _) (.cons hlast .nil)) _).bind fun n =>
      mirrors_pure (n.getD i.size)

theorem mirrors_resolveDimensions (c : Completer σ) (i : Item) :
    Mirrors (c.recorded.resolveDimensions i) (c.resolveDimensions i) := by
  rw [resolveDimensions, resolveDimensions]
  split
  · exact mirrors_pure _
  · exact mirrors_noted _ _

theorem mirrors_completeOne (c : Completer σ) (i : Item) :
    Mirrors (c.recorded.completeOne i) (c.completeOne i) := by
  have hresolve : Mirrors (c.recorded.resolve i) (c.resolve i) :=
    (mirrors_resolveSize c i).bind fun _ =>
      (mirrors_resolveDimensions c i).bind fun _ => mirrors_pure _
  rw [completeOne, completeOne]
  split
  · exact mirrors_pure _
  · exact (hresolve.bind fun j => mirrors_pure (Completed.mk j true)).recover fun f =>
      (mirrors_log _).bind fun _ => mirrors_pure _

theorem mirrors_mayRead (c : Completer σ) : Mirrors c.recorded.mayRead c.mayRead := by
  rw [mayRead, mayRead, recorded]
  cases c.hasReadAccess with
  | none => exact mirrors_pure true
  | some access => exact mirrors_noted _ access

/-- Recording what is asked changes neither what comes of it nor what it leaves. -/
theorem mirrors_complete (c : Completer σ) (items : List Item) :
    Mirrors (c.recorded.complete items) (c.complete items) := by
  rw [complete, complete]
  split
  · exact mirrors_pure _
  refine (mirrors_mayRead c).bind fun granted => ?_
  cases granted with
  | false => exact mirrors_pure _
  | true => exact (mirrors_mapM (mirrors_completeOne c) items).bind fun _ => mirrors_pure _

end MediaCatalog.Completer
