import MediaCatalog.Proofs.World
import MediaCatalog.Web.Server

namespace MediaCatalog.Web

variable {α β : Type}

namespace Handling

def exec (act : Handling α) (r : Run World) : Except Failure (Except Refusal α) × Run World :=
  Act.exec act.run r

@[simp] theorem exec_pure (a : α) (r : Run World) :
    (pure a : Handling α).exec r = (.ok (.ok a), r) := rfl

theorem exec_bind (act : Handling α) (next : α → Handling β) (r : Run World) :
    (act >>= next).exec r =
      match act.exec r with
      | (.ok (.ok a), r') => (next a).exec r'
      | (.ok (.error x), r') => (.ok (.error x), r')
      | (.error f, r') => (.error f, r') := by
  change Act.exec (act.run >>= fun out => ExceptT.bindCont next out) r = _
  rw [Act.exec_bind, exec]
  rcases Act.exec act.run r with ⟨_ | _ | _, _⟩ <;> rfl

theorem exec_bind_ok {act : Handling α} {r r' : Run World} {a : α}
    (h : act.exec r = (.ok (.ok a), r')) (next : α → Handling β) :
    (act >>= next).exec r = (next a).exec r' := by
  rw [exec_bind, h]

theorem exec_bind_refused {act : Handling α} {r r' : Run World} {x : Refusal}
    (h : act.exec r = (.ok (.error x), r')) (next : α → Handling β) :
    (act >>= next).exec r = (.ok (.error x), r') := by
  rw [exec_bind, h]

@[simp] theorem exec_refuse (x : Refusal) (r : Run World) :
    (refuse x : Handling α).exec r = (.ok (.error x), r) := rfl

theorem exec_work (act : World.Doing α) (r : Run World) :
    (work act).exec r =
      match act.exec r with
      | (.ok a, r') => (.ok (.ok a), r')
      | (.error f, r') => (.error f, r') := by
  change Act.exec (act >>= fun a => pure (Except.ok a)) r = _
  rw [Act.exec_bind]
  rcases act.exec r with ⟨_ | _, _⟩ <;> rfl

theorem exec_work_eq_ok {act : World.Doing α} {r r' : Run World} {a : α} :
    (work act).exec r = (.ok (.ok a), r') ↔ act.exec r = (.ok a, r') := by
  rw [exec_work]
  rcases act.exec r with ⟨_ | _, _⟩ <;> simp

theorem liftM_eq_work (act : World.Doing α) : (liftM act : Handling α) = work act := rfl

theorem exec_liftM_ok {act : World.Doing α} {r r' : Run World} {a : α}
    (h : act.exec r = (.ok a, r')) : (liftM act : Handling α).exec r = (.ok (.ok a), r') :=
  exec_work_eq_ok.2 h

end Handling

namespace Request

def bodyValue? (q : Request) (read : Check.Reader α) : Option α := do
  let text ← q.body
  let cs ← bodyChars? text
  match Json.readChars cs with
  | .ok v =>
    match read v with
    | .ok a => some a
    | .flawed _ => none
  | .error _ => none

theorem exec_read {q : Request} {read : Check.Reader α} {a : α} (h : q.bodyValue? read = some a)
    (r : Run World) : (q.read read).exec r = (.ok (.ok a), r) := by
  obtain ⟨text, hbody, h⟩ := Option.bind_eq_some_iff.1 h
  obtain ⟨cs, hcs, h⟩ := Option.bind_eq_some_iff.1 h
  have hne : text ≠ "" := by
    rintro rfl
    obtain rfl : [] = cs := Option.some.inj hcs
    cases h
  rw [Request.read, hbody]
  simp only [hcs]
  rw [readText]
  split at h
  · rename_i v hv
    split at h
    · rename_i hread
      cases h
      simp only [hv, hread]
      rfl
    · cases h
  · cases h

end Request

namespace Server

variable {s : Server} {q : Request}

/-- The reply from how the work on the request ends. -/
def conclude (s : Server) (q : Request) :
    Except Failure (Except Refusal (Body × Server)) → Reply × Server
  | .error _ => (failed, s)
  | .ok (.error x) => ({ x.reply with allowOrigin := q.allowedOrigin }, s)
  | .ok (.ok (body, s')) => ({ body, allowOrigin := q.allowedOrigin }, s')

theorem exec_serve {route : Route} (hroute : routeOf q = .ok route) (r : Run World) :
    (s.serve q).exec r = (s.handle q route).exec r := by
  rw [serve, hroute]
  rfl

theorem exec_respond (s : Server) (q : Request) (r : Run World) :
    (s.respond q).exec r = (.ok (s.conclude q ((s.serve q).exec r).1), ((s.serve q).exec r).2) := by
  rw [respond, Act.exec_bind_ok (Act.exec_attempt _ r), Handling.exec]
  rcases (Act.exec (s.serve q).run r).1 with _ | _ | _ <;> rfl

end Server

end MediaCatalog.Web
