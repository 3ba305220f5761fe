import MediaCatalog.Completion
import MediaCatalog.Proofs.Act
import Mathlib.Data.List.Forall2

namespace MediaCatalog.Completer

variable {σ : Type}

inductive Call where
  | isLocal (locator : String)
  | sizeOf (locator : String)
  | metadataQuery (locator : String)
  | resourceSize (locator : String)
  | dimensionsOf (mimeType locator : String)
  deriving DecidableEq

def Call.location : Call → String
  | .isLocal l | .sizeOf l | .metadataQuery l | .resourceSize l | .dimensionsOf _ l => l

/-- The outcome of every call, as a function of its arguments. -/
structure Answers where
  isLocal : String → Except Failure Bool
  sizeOf : String → Except Failure (Option Int)
  metadataQuery : String → Except Failure (Option Int)
  resourceSize : String → Except Failure Int
  dimensionsOf : String → String → Except Failure (Int × Int)

def failed? {α : Type} : Except Failure α → Option Failure
  | .ok _ => none
  | .error f => some f

def positive? : Except Failure (Option Int) → Option Int
  | .ok n => n.filter (0 < ·)
  | .error _ => none

namespace Answers

def failure? (a : Answers) : Call → Option Failure
  | .isLocal l => failed? (a.isLocal l)
  | .sizeOf l => failed? (a.sizeOf l)
  | .metadataQuery l => failed? (a.metadataQuery l)
  | .resourceSize l => failed? (a.resourceSize l)
  | .dimensionsOf m l => failed? (a.dimensionsOf m l)

def fails (a : Answers) (call : Call) : Bool := (a.failure? call).isSome

/-- Calls fail for no other reason than that the system refused. -/
def FailsBySystem (a : Answers) : Prop := ∀ call f, a.failure? call = some f → f.isSystem

/-- The same outcomes for every call about one location. -/
structure AgreesAt (a b : Answers) (l : String) : Prop where
  isLocal : a.isLocal l = b.isLocal l
  sizeOf : a.sizeOf l = b.sizeOf l
  metadataQuery : a.metadataQuery l = b.metadataQuery l
  resourceSize : a.resourceSize l = b.resourceSize l
  dimensionsOf : ∀ m, a.dimensionsOf m l = b.dimensionsOf m l

def firstSize (a : Answers) (l : String) : Except Failure (Option Int) :=
  match a.isLocal l with
  | .ok true => a.sizeOf l
  | _ => a.metadataQuery l

def lastSize (a : Answers) (l : String) : Except Failure (Option Int) :=
  (a.resourceSize l).map some

/-- A positive size stays; else the first positive answer counts, and without one the size stays
as it was. -/
def size (a : Answers) (i : Item) : Int :=
  if 0 < i.size then i.size
  else ([a.firstSize i.location, a.lastSize i.location].findSome? positive?).getD i.size

/-- A pair of positive dimensions stays; else the probe's answer counts. -/
def dimensions (a : Answers) (i : Item) : Int × Int :=
  if 0 < i.width ∧ 0 < i.height then (i.width, i.height)
  else match a.dimensionsOf i.mimeType i.location with
    | .ok d => d
    | .error _ => (i.width, i.height)

def completed (a : Answers) (i : Item) : Item :=
  { i with width := (a.dimensions i).1, height := (a.dimensions i).2, size := a.size i }

/-- Further calls are made only when none of the earlier ones failed. -/
def andThen (a : Answers) (made more : List Call) : List Call :=
  made ++ if made.any a.fails then [] else more

/-- The calls to sources of a size, up to a failure or a positive answer. -/
def callsUpTo : List (Call × Except Failure (Option Int)) → List Call
  | [] => []
  | (call, x) :: rest =>
    call :: if failed? x = none ∧ positive? x = none then callsUpTo rest else []

def firstCall (a : Answers) (l : String) : Call :=
  match a.isLocal l with
  | .ok true => .sizeOf l
  | _ => .metadataQuery l

def sizeCalls (a : Answers) (i : Item) : List Call :=
  let l := i.location
  if 0 < i.size then []
  else a.andThen [.isLocal l]
    (callsUpTo [(a.firstCall l, a.firstSize l), (.resourceSize l, a.lastSize l)])

def dimensionCalls (i : Item) : List Call :=
  if 0 < i.width ∧ 0 < i.height then [] else [.dimensionsOf i.mimeType i.location]

def calls (a : Answers) (i : Item) : List Call := a.andThen (a.sizeCalls i) (dimensionCalls i)

/-- What an item becomes: itself when it is populated or some call made for it fails. -/
def completion (a : Answers) (i : Item) : Item :=
  if i.isPopulated || (a.calls i).any a.fails then i else a.completed i

def outcome {α : Type} (a : Answers) (made : List Call) (value : α) : Except Failure α :=
  match made.findSome? a.failure? with
  | some f => .error f
  | none => .ok value

theorem any_fails (a : Answers) (made : List Call) :
    made.any a.fails = (made.findSome? a.failure?).isSome := by
  rw [List.isSome_findSome?]
  rfl

theorem outcome_cons_of_error {α : Type} {a : Answers} {call : Call} {f : Failure}
    (h : a.failure? call = some f) (made : List Call) (value : α) :
    a.outcome (call :: made) value = .error f := by
  simp [outcome, h]

theorem outcome_cons_of_none {α : Type} {a : Answers} {call : Call} (h : a.failure? call = none)
    (made : List Call) (value : α) : a.outcome (call :: made) value = a.outcome made value := by
  simp [outcome, h]

theorem location_of_mem_callsUpTo {l : String} {told : List (Call × Except Failure (Option Int))}
    (h : ∀ p ∈ told, p.1.location = l) : ∀ call ∈ callsUpTo told, call.location = l := by
  induction told with
  | nil => simp [callsUpTo]
  | cons p rest ih =>
      intro call hmem
      rw [callsUpTo, List.mem_cons] at hmem
      rcases hmem with rfl | hmem
      · exact h p (by simp)
      · split at hmem
        · exact ih (fun q hq => h q (by simp [hq])) call hmem
        · simp at hmem

theorem location_of_mem_andThen {a : Answers} {l : String} {made more : List Call}
    (hmade : ∀ call ∈ made, call.location = l) (hmore : ∀ call ∈ more, call.location = l) :
    ∀ call ∈ a.andThen made more, call.location = l := by
  intro call hmem
  rw [andThen, List.mem_append] at hmem
  rcases hmem with hmem | hmem
  · exact hmade call hmem
  · split at hmem
    · simp at hmem
    · exact hmore call hmem

theorem location_firstCall (a : Answers) (l : String) : (a.firstCall l).location = l := by
  rw [firstCall]
  split <;> rfl

theorem location_of_mem_sizeCalls (a : Answers) (i : Item) :
    ∀ call ∈ a.sizeCalls i, call.location = i.location := by
  rw [sizeCalls]
  split
  · simp
  · apply location_of_mem_andThen
    · simp [Call.location]
    · apply location_of_mem_callsUpTo
      intro p hp
      simp only [List.mem_cons, List.not_mem_nil, or_false] at hp
      rcases hp with rfl | rfl
      · exact a.location_firstCall i.location
      · rfl

theorem location_of_mem_calls (a : Answers) (i : Item) :
    ∀ call ∈ a.calls i, call.location = i.location := by
  apply location_of_mem_andThen (location_of_mem_sizeCalls a i)
  rw [dimensionCalls]
  split <;> simp [Call.location]

section Agreement

variable {a b : Answers} {l : String}

theorem failure?_congr (h : a.AgreesAt b l) {call : Call} (hl : call.location = l) :
    a.failure? call = b.failure? call := by
  subst hl
  cases call with
  | isLocal l => exact congrArg failed? h.isLocal
  | sizeOf l => exact congrArg failed? h.sizeOf
  | metadataQuery l => exact congrArg failed? h.metadataQuery
  | resourceSize l => exact congrArg failed? h.resourceSize
  | dimensionsOf m l => exact congrArg failed? (h.dimensionsOf m)

theorem any_fails_congr (h : a.AgreesAt b l) {made : List Call}
    (hl : ∀ call ∈ made, call.location = l) : made.any a.fails = made.any b.fails := by
  induction made with
  | nil => rfl
  | cons call made ih =>
      have hcall : a.fails call = b.fails call :=
        congrArg Option.isSome (failure?_congr h (hl call (by simp)))
      rw [List.any_cons, List.any_cons, hcall, ih (fun q hq => hl q (by simp [hq]))]

theorem andThen_congr (h : a.AgreesAt b l) {made : List Call}
    (hl : ∀ call ∈ made, call.location = l) (more : List Call) :
    a.andThen made more = b.andThen made more := by
  rw [andThen, andThen, any_fails_congr h hl]

theorem firstSize_congr (h : a.AgreesAt b l) : a.firstSize l = b.firstSize l := by
  rw [firstSize, firstSize, h.isLocal, h.sizeOf, h.metadataQuery]

theorem lastSize_congr (h : a.AgreesAt b l) : a.lastSize l = b.lastSize l := by
  rw [lastSize, lastSize, h.resourceSize]

theorem sizeCalls_congr {i : Item} (h : a.AgreesAt b i.location) :
    a.sizeCalls i = b.sizeCalls i := by
  have hfirst : a.firstCall i.location = b.firstCall i.location := by
    rw [firstCall, firstCall, h.isLocal]
  have hlocal : ∀ call ∈ [Call.isLocal i.location], call.location = i.location := by
    simp [Call.location]
  rw [sizeCalls, sizeCalls, hfirst, firstSize_congr h, lastSize_congr h, andThen_congr h hlocal]

theorem calls_congr {i : Item} (h : a.AgreesAt b i.location) : a.calls i = b.calls i := by
  rw [calls, calls, andThen_congr h (location_of_mem_sizeCalls a i), sizeCalls_congr h]

theorem completed_congr {i : Item} (h : a.AgreesAt b i.location) :
    a.completed i = b.completed i := by
  rw [completed, completed, size, size, firstSize_congr h, lastSize_congr h, dimensions, dimensions,
    h.dimensionsOf]

theorem completion_congr {i : Item} (h : a.AgreesAt b i.location) :
    a.completion i = b.completion i := by
  rw [completion, completion, any_fails_congr h (location_of_mem_calls a i), calls_congr h,
    completed_congr h]

end Agreement

end Answers

/-- The outcomes of the completer's calls are these, whatever was called before. -/
structure Answering (c : Completer σ) (a : Answers) : Prop where
  isLocal : ∀ l r, ((c.authority.isLocal l).exec r).1 = a.isLocal l
  sizeOf : ∀ l r, ((c.authority.sizeOf l).exec r).1 = a.sizeOf l
  metadataQuery : ∀ l r, ((c.probe.metadataQuery l).exec r).1 = a.metadataQuery l
  resourceSize : ∀ l r, ((c.probe.resourceSize l).exec r).1 = a.resourceSize l
  dimensionsOf : ∀ m l r, ((c.probe.dimensionsOf m l).exec r).1 = a.dimensionsOf m l

def after (c : Completer σ) (r : Run σ) : Call → Run σ
  | .isLocal l => ((c.authority.isLocal l).exec r).2
  | .sizeOf l => ((c.authority.sizeOf l).exec r).2
  | .metadataQuery l => ((c.probe.metadataQuery l).exec r).2
  | .resourceSize l => ((c.probe.resourceSize l).exec r).2
  | .dimensionsOf m l => ((c.probe.dimensionsOf m l).exec r).2

variable {c : Completer σ} {a : Answers}

/-- Makes these calls, and has the value unless one of them fails. -/
def Makes {α : Type} (c : Completer σ) (a : Answers) (made : List Call) (value : α)
    (act : Act σ α) : Prop :=
  ∀ r, act.exec r = (a.outcome made value, made.foldl c.after r)

theorem makes_pure {α : Type} (value : α) : c.Makes a [] value (pure value) := fun _ => rfl

theorem Makes.bind {α β : Type} {made more : List Call} {value : α} {value' : β} {act : Act σ α}
    {next : α → Act σ β} (h : c.Makes a made value act)
    (hnext : c.Makes a more value' (next value)) :
    c.Makes a (a.andThen made more) value' (act >>= next) := by
  intro r
  have hany := a.any_fails made
  rw [Act.exec_bind, h r, Answers.andThen, Answers.outcome, hany]
  cases hf : made.findSome? a.failure? with
  | some f => simp [Answers.outcome, hf]
  | none => simp [Answers.outcome, hf, hnext (made.foldl c.after r)]

theorem Makes.map {α β : Type} {made : List Call} {value : α} {act : Act σ α}
    (h : c.Makes a made value act) (f : α → β) :
    c.Makes a made (f value) (do return f (← act)) := by
  have hpure : c.Makes a [] (f value) (pure (f value)) := makes_pure _
  have hbind : c.Makes a (a.andThen made []) (f value) (do return f (← act)) := h.bind hpure
  simpa [Answers.andThen] using hbind

def Tells (c : Completer σ) (a : Answers) (l : String) (ask : String → Act σ (Option Int))
    (told : Call × Except Failure (Option Int)) : Prop :=
  a.failure? told.1 = failed? told.2 ∧ ∀ r, (ask l).exec r = (told.2, c.after r told.1)

section Sources

variable {ask : String → Act σ (Option Int)} {l : String} {r r' : Run σ} {n : Option Int}

theorem firstKnownSize_of_positive {size : Int} (h : (ask l).exec r = (.ok n, r'))
    (hn : n.filter (0 < ·) = some size) (rest : List (String → Act σ (Option Int))) :
    (firstKnownSize (ask :: rest) l).exec r = (.ok (some size), r') := by
  obtain ⟨rfl, hpos⟩ := Option.filter_eq_some_iff.1 hn
  rw [firstKnownSize, Act.exec_bind_ok h]
  simp [of_decide_eq_true hpos]

theorem firstKnownSize_of_unknown (h : (ask l).exec r = (.ok n, r'))
    (hn : n.filter (0 < ·) = none) (rest : List (String → Act σ (Option Int))) :
    (firstKnownSize (ask :: rest) l).exec r = (firstKnownSize rest l).exec r' := by
  rw [firstKnownSize, Act.exec_bind_ok h]
  cases n with
  | none => rfl
  | some size =>
      have hsize : ¬ 0 < size := by simpa using hn
      simp [hsize]

/-- The sources are asked in order. The first positive answer counts, and no source behind it is
asked, nor any behind a failure. -/
theorem firstKnownSize_makes {sources : List (String → Act σ (Option Int))}
    {told : List (Call × Except Failure (Option Int))}
    (h : List.Forall₂ (c.Tells a l) sources told) :
    c.Makes a (Answers.callsUpTo told) ((told.map Prod.snd).findSome? positive?)
      (firstKnownSize sources l) := by
  induction h with
  | nil => exact makes_pure none
  | @cons ask asked sources rest hask _ ih =>
      obtain ⟨call, x⟩ := asked
      obtain ⟨hcall, hexec⟩ := hask
      intro r
      cases x with
      | error f =>
          rw [firstKnownSize, Act.exec_bind_error (hexec r), Answers.callsUpTo,
            Answers.outcome_cons_of_error hcall]
          simp [failed?]
      | ok n =>
          rw [Answers.callsUpTo, Answers.outcome_cons_of_none hcall]
          cases hn : n.filter (0 < ·) with
          | none =>
              rw [firstKnownSize_of_unknown (hexec r) hn, ih]
              simp [positive?, failed?, hn]
          | some size =>
              rw [firstKnownSize_of_positive (hexec r) hn]
              simp [positive?, Answers.outcome, hn]

end Sources

/-- Where the size of a local blob is asked for first, and where that of any other resource. -/
def firstSource (c : Completer σ) (a : Answers) (l : String) : String → Act σ (Option Int) :=
  match a.isLocal l with
  | .ok true => c.authority.sizeOf
  | _ => c.probe.metadataQuery

theorem firstSource_tells (hc : c.Answering a) (l : String) :
    c.Tells a l (c.firstSource a l) (a.firstCall l, a.firstSize l) := by
  have hlocal : c.Tells a l c.authority.sizeOf (.sizeOf l, a.sizeOf l) :=
    ⟨rfl, fun r => Prod.ext (hc.sizeOf l r) rfl⟩
  have hother : c.Tells a l c.probe.metadataQuery (.metadataQuery l, a.metadataQuery l) :=
    ⟨rfl, fun r => Prod.ext (hc.metadataQuery l r) rfl⟩
  rw [firstSource, Answers.firstCall, Answers.firstSize]
  rcases a.isLocal l with f | _ | _
  · exact hother
  · exact hother
  · exact hlocal

def lastSource (c : Completer σ) (l : String) : Act σ (Option Int) := do
  return some (← c.probe.resourceSize l)

theorem lastSource_tells (hc : c.Answering a) (l : String) :
    c.Tells a l c.lastSource (.resourceSize l, a.lastSize l) := by
  constructor
  · cases h : a.resourceSize l <;>
      simp [Answers.failure?, Answers.lastSize, failed?, Except.map, h]
  · intro r
    have hexec :
        (c.probe.resourceSize l).exec r = (a.resourceSize l, c.after r (.resourceSize l)) :=
      Prod.ext (hc.resourceSize l r) rfl
    rw [lastSource, Act.exec_bind, hexec, Answers.lastSize]
    cases a.resourceSize l <;> rfl

theorem sizeSources_makes (hc : c.Answering a) (l : String) :
    c.Makes a [.isLocal l] [c.firstSource a l, c.lastSource] (c.sizeSources l) := by
  intro r
  have hexec : (c.authority.isLocal l).exec r = (a.isLocal l, c.after r (.isLocal l)) :=
    Prod.ext (hc.isLocal l r) rfl
  rw [sizeSources, Act.exec_bind, hexec, firstSource]
  cases h : a.isLocal l with
  | error f => simp [Answers.outcome, Answers.failure?, failed?, h]
  | ok here => cases here <;> simp [Answers.outcome, Answers.failure?, failed?, h] <;> rfl

theorem resolveSize_makes (hc : c.Answering a) (i : Item) :
    c.Makes a (a.sizeCalls i) (a.size i) (c.resolveSize i) := by
  by_cases hs : 0 < i.size
  · simpa [resolveSize, Answers.sizeCalls, Answers.size, hs] using makes_pure i.size
  · rw [resolveSize, if_neg hs, Answers.sizeCalls, if_neg hs, Answers.size, if_neg hs]
    have hsources := firstKnownSize_makes
      (.cons (firstSource_tells hc i.location) (.cons (lastSource_tells hc i.location) .nil))
    exact (sizeSources_makes hc i.location).bind (hsources.map (·.getD i.size))

theorem resolveDimensions_makes (hc : c.Answering a) (i : Item) :
    c.Makes a (Answers.dimensionCalls i) (a.dimensions i) (c.resolveDimensions i) := by
  by_cases hd : 0 < i.width ∧ 0 < i.height
  · simpa [resolveDimensions, Answers.dimensionCalls, Answers.dimensions, hd]
      using makes_pure (i.width, i.height)
  · have hb : (decide (0 < i.width) && decide (0 < i.height)) = false := by simpa using hd
    rw [resolveDimensions, hb, Answers.dimensionCalls, if_neg hd, Answers.dimensions, if_neg hd]
    intro r
    refine Prod.ext ((hc.dimensionsOf _ _ r).trans ?_) rfl
    cases h : a.dimensionsOf i.mimeType i.location <;>
      simp [Answers.outcome, Answers.failure?, failed?, h]

theorem resolve_makes (hc : c.Answering a) (i : Item) :
    c.Makes a (a.calls i) (a.completed i) (c.resolve i) :=
  (resolveSize_makes hc i).bind
    ((resolveDimensions_makes hc i).map fun d =>
      { i with width := d.1, height := d.2, size := a.size i })

end MediaCatalog.Completer
