import MediaCatalog.Image.Bytes

namespace MediaCatalog.Inflate

inductive End where
  | complete
  | truncated
  | broken
  deriving DecidableEq, Repr

structure Unpacked where
  bytes : Bytes
  ending : End
  deriving DecidableEq, Repr

/-- A block of kind 0 holds its length, the complement of its length, and its bytes. -/
def blocks : Nat → Bytes → Unpacked
  | 0, _ => ⟨[], .truncated⟩
  | fuel + 1, b =>
    match b with
    | [] => ⟨[], .truncated⟩
    | kind :: rest =>
      if kind.toNat % 8 / 2 ≠ 0 then ⟨[], .broken⟩
      else match Bytes.little? rest 0 2, Bytes.little? rest 2 2 with
        | some n, some m =>
          if n + m ≠ 65535 then ⟨[], .broken⟩
          else
            let body := (rest.drop 4).take n
            if body.length < n then ⟨body, .truncated⟩
            else if kind.toNat % 2 = 1 then ⟨body, .complete⟩
            else
              let more := blocks fuel (rest.drop (4 + n))
              ⟨body ++ more.bytes, more.ending⟩
        | _, _ => ⟨[], .truncated⟩

def unpack (b : Bytes) : Unpacked :=
  match b with
  | method :: flags :: rest =>
    if method.toNat % 16 = 8 && (method.toNat * 256 + flags.toNat) % 31 = 0 &&
        flags.toNat / 32 % 2 = 0 then blocks b.length rest
    else ⟨[], .broken⟩
  | _ => ⟨[], .truncated⟩

end MediaCatalog.Inflate
