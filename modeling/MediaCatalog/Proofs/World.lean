import MediaCatalog.Proofs.Act
import MediaCatalog.World

namespace MediaCatalog.World

variable {α : Type} {r : Run World}

@[simp] theorem exec_ask (question : FileSystem → Path → Except Failure α) (r : Run World) :
    (ask question).exec r = (question r.state.files r.state.cwd, r) := by
  rw [ask, Act.exec_bind_ok (Act.exec_getState r), Act.exec_ofExcept]

@[simp] theorem exec_resolve (p : Path) (r : Run World) :
    (resolve p).exec r = (r.state.files.resolve r.state.cwd p, r) := exec_ask _ r

@[simp] theorem exec_isFile (p : Path) (r : Run World) :
    (isFile p).exec r = (r.state.files.isFile r.state.cwd p, r) := exec_ask _ r

@[simp] theorem exec_exists? (p : Path) (r : Run World) :
    (exists? p).exec r = (r.state.files.exists? r.state.cwd p, r) := exec_ask _ r

@[simp] theorem exec_stat (p : Path) (r : Run World) :
    (stat p).exec r = (r.state.files.stat r.state.cwd p, r) := exec_ask _ r

@[simp] theorem exec_relativeUnder (base target : Path) (r : Run World) :
    (relativeUnder base target).exec r = (r.state.files.relativeUnder r.state.cwd base target, r) :=
  exec_ask _ r

theorem exec_load (p : Path) (r : Run World) :
    (load p).exec r = ((r.state.files.load r.state.cwd p).map (·.1.toBytes), r) := by
  rw [load, Act.exec_bind, exec_ask]
  cases r.state.files.load r.state.cwd p <;> rfl

def changed (r : Run World) (files : FileSystem) : Run World :=
  { r with state := { r.state with files, clock := r.state.clock + 1 } }

theorem exec_changeSome (change : FileSystem → Path → FileSystem × Option Failure) (r : Run World) :
    (changeSome change).exec r =
      match change r.state.files r.state.cwd with
      | (files, none) => (.ok (), changed r files)
      | (files, some f) => (.error f, changed r files) := by
  rw [changeSome, Act.exec_bind_ok (Act.exec_getState r)]
  rcases change r.state.files r.state.cwd with ⟨files, f | f⟩ <;> rfl

theorem exec_ensureDir (p : Path) (r : Run World) :
    (ensureDir p).exec r =
      match r.state.files.ensureDir r.state.cwd p with
      | (files, none) => (.ok (), changed r files)
      | (files, some f) => (.error f, changed r files) :=
  exec_changeSome _ r

theorem exec_store (p : Path) (bytes : List UInt8) (r : Run World) :
    (store p bytes).exec r =
      match r.state.files.store r.state.cwd p (.bytes bytes) r.state.clock with
      | .ok files => (.ok (), changed r files)
      | .error f => (.error f, changed r r.state.files) := by
  rw [store, Act.exec_bind_ok (Act.exec_getState r), change, exec_changeSome]
  cases r.state.files.store r.state.cwd p (.bytes bytes) r.state.clock <;> rfl

def nextWord (w : World) : String := String.ofList (Text.hexText 32 (w.issued + 1))

theorem exec_freshName (r : Run World) : freshName.exec r =
    (.ok (nextWord r.state), { r with state := { r.state with issued := r.state.issued + 1 } }) := rfl

end MediaCatalog.World
